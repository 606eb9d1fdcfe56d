/- Module: SimTools/AsyncServer/Replies
   digest: What clients poll in any run of clients, proxy and workers: their tasks, no results. -/

import SimTools.AsyncServer.AsyncCore
import SimTools.Lib.Channels
import SimTools.Lib.Runs
import Mathlib.Logic.Function.Basic

set_option autoImplicit false
set_option relaxedAutoImplicit false

namespace SimTools.AsyncServer.Replies

open Lib.Memory
open Lib.Sockets
open Lib.Channels
open Lib.Runs
open LoadBalance.Components (Task TaskResult sizeofTask sizeofTaskResult)
open LoadBalance.Components.Worker (sumOf)
open AsyncCore

structure Topology where
  clients : List Bytes
  workers : List Bytes

/-- The end of a channel where a message waits. -/
inductive Place
  | clientToProxy (i : Bytes)
  | proxyToWorker (w : Bytes)
  | workerToProxy (w : Bytes)
  | proxyToClient (i : Bytes)
  deriving DecidableEq

/-- A message and the task that it belongs to, which no party reads. -/
structure Parcel where
  task : Task
  message : Parts

/-- `pending` is what the loop of a worker's `processImp` still has to send. -/
structure System where
  inFlight : Pool Place Parcel
  pending : Bytes → List Parcel

def System.init : System := ⟨[], fun _ => []⟩

/-- Where the ROUTER socket of the proxy leads; it takes the identity off. -/
def placeOfFrontEnd (T : Topology) (x : Parcel) : Option (Place × Parcel) :=
  match x.message with
  | [] => none
  | part :: parts =>
    (route withNul T.clients part).map (fun i => (.proxyToClient i, ⟨x.task, parts⟩))

theorem placeOfFrontEnd_eq {T : Topology} {i : Bytes} {x : Parcel} {parts : Parts}
    (client : i ∈ T.clients) (hmessage : x.message = withNul i :: parts) :
    placeOfFrontEnd T x = some (.proxyToClient i, ⟨x.task, parts⟩) := by
  rw [placeOfFrontEnd, hmessage]
  simp only [route_identity withNul_injective client, Option.map_some]

inductive Action
  | sendRequest (i : Bytes) (task : Task)
  | forwardTask (i w : Bytes)
  | receiveTask (w : Bytes)
  | sendReply (w : Bytes) (x : Parcel)
  | forwardReply (w : Bytes)
  | poll (i : Bytes) (x : Parcel)

/-- The proxy gives a task to any worker. A client takes what it polls out of its channel, whatever
the copy into its local result then does. -/
inductive Step (T : Topology) (add : Double → Double → Double) : System → Action → System → Prop
  | sendRequest {s : System} {i : Bytes} {task : Task} :
      i ∈ T.clients →
      Step T add s (.sendRequest i task)
        { s with inFlight := s.inFlight ++ [(.clientToProxy i, ⟨task, Client.request task⟩)] }
  | forwardTask {s : System} {i w : Bytes} {x : Parcel} {rest : Pool Place Parcel} :
      w ∈ T.workers → receive (.clientToProxy i) s.inFlight = some (x, rest) →
      Step T add s (.forwardTask i w)
        { s with inFlight := rest ++ [(.proxyToWorker w, ⟨x.task, withNul i :: x.message⟩)] }
  | receiveTask {s : System} {w : Bytes} {x : Parcel} {rest : Pool Place Parcel}
      {replies : List Parts} :
      s.pending w = [] → receive (.proxyToWorker w) s.inFlight = some (x, rest) →
      Worker.processImp add x.message = .ok replies →
      Step T add s (.receiveTask w)
        { s with inFlight := rest,
                 pending := Function.update s.pending w (replies.map (Parcel.mk x.task)) }
  | sendReply {s : System} {w : Bytes} {x : Parcel} {later : List Parcel} :
      s.pending w = x :: later →
      Step T add s (.sendReply w x)
        { s with inFlight := s.inFlight ++ [(.workerToProxy w, x)],
                 pending := Function.update s.pending w later }
  | forwardReply {s : System} {w : Bytes} {x : Parcel} {rest : Pool Place Parcel} :
      receive (.workerToProxy w) s.inFlight = some (x, rest) →
      Step T add s (.forwardReply w)
        { s with inFlight := rest ++ (placeOfFrontEnd T x).toList }
  | poll {s : System} {i : Bytes} {x : Parcel} {rest : Pool Place Parcel} :
      receive (.proxyToClient i) s.inFlight = some (x, rest) →
      Step T add s (.poll i x) { s with inFlight := rest }

/-- The message is a result: it has the length of one, and the client decodes from it the meta data
of the task and the sum of its array. -/
def IsResult (add : Double → Double → Double) (task : Task) (taskResult : TaskResult)
    (msg : Parts) : Prop :=
  ∃ msgReply, msg = [msgReply] ∧ msgReply.length = sizeofTaskResult ∧
    ∃ r, Client.poll taskResult msg = .ok r ∧ TaskResult.taskMeta r = Task.taskMeta task ∧
      TaskResult.sum r = sumOf add task

section Result

variable {add : Double → Double → Double} {task : Task} {taskResult : TaskResult}

theorem poll_task (taskResult : TaskResult) (task : Task) :
    Client.poll taskResult [task.image] = .error .outOfBounds := by
  apply Client.poll_outOfBounds
  rw [task.size_eq]
  decide

theorem not_isResult_task : ¬ IsResult add task taskResult [task.image] := by
  rintro ⟨msgReply, -, -, r, hpoll, -, -⟩
  rw [poll_task] at hpoll
  cases hpoll

end Result

inductive OnWay (i : Bytes) (task : Task) : Place → Parts → Prop
  | asked : OnWay i task (.clientToProxy i) [task.image]
  | dispatched (w : Bytes) : OnWay i task (.proxyToWorker w) [withNul i, task.image]
  | replied (w : Bytes) : OnWay i task (.workerToProxy w) [withNul i, task.image]
  | answered : OnWay i task (.proxyToClient i) [task.image]

/-- Every message is on the way of a task that a client has sent. -/
structure Relayed (T : Topology) (past : List Action) (s : System) : Prop where
  onWay : ∀ p x, (p, x) ∈ s.inFlight → ∃ i ∈ T.clients, .sendRequest i x.task ∈ past ∧
    OnWay i x.task p x.message
  pending : ∀ w, ∀ x ∈ s.pending w, ∃ i ∈ T.clients, .sendRequest i x.task ∈ past ∧
    x.message = [withNul i, x.task.image]

namespace Relayed

variable {T : Topology} {add : Double → Double → Double} {s t : System} {a : Action}
  {past as : List Action}

theorem init : Relayed T [] System.init := ⟨by simp [System.init], by simp [System.init]⟩

theorem keep (h : Relayed T past s) {pool : Pool Place Parcel} {pending : Bytes → List Parcel}
    (onWay : ∀ p x, (p, x) ∈ pool → (p, x) ∈ s.inFlight ∨
      ∃ i ∈ T.clients, .sendRequest i x.task ∈ past ++ [a] ∧ OnWay i x.task p x.message)
    (replies : ∀ w, ∀ x ∈ pending w, x ∈ s.pending w ∨
      ∃ i ∈ T.clients, .sendRequest i x.task ∈ past ++ [a] ∧
        x.message = [withNul i, x.task.image]) :
    Relayed T (past ++ [a]) ⟨pool, pending⟩ := by
  refine ⟨fun p x hx => ?_, fun w x hx => ?_⟩
  · rcases onWay p x hx with old | new
    · obtain ⟨i, hi, sent, way⟩ := h.onWay p x old
      exact ⟨i, hi, List.mem_append_left _ sent, way⟩
    · exact new
  · rcases replies w x hx with old | new
    · obtain ⟨i, hi, sent, hmessage⟩ := h.pending w x old
      exact ⟨i, hi, List.mem_append_left _ sent, hmessage⟩
    · exact new

theorem step (h : Relayed T past s) (hs : Step T add s a t) : Relayed T (past ++ [a]) t := by
  cases hs with
  | @sendRequest i task client =>
    refine h.keep (fun p x hx => ?_) (fun w x hx => .inl hx)
    refine (List.mem_append.mp hx).imp_right fun new => ?_
    cases List.mem_singleton.mp new
    exact ⟨i, client, List.mem_append_right _ (List.mem_singleton_self _), .asked⟩
  | @forwardTask i w y rest worker got =>
    refine h.keep (fun p x hx => ?_) (fun w x hx => .inl hx)
    refine (mem_of_mem_moved got hx).imp_right fun new => ?_
    cases new
    obtain ⟨j, client, sent, way⟩ := h.onWay _ y (receive_mem got)
    generalize hmessage : y.message = message at way
    cases way
    exact ⟨i, client, List.mem_append_left _ sent, .dispatched w⟩
  | @receiveTask w y rest replies idle got run =>
    refine h.keep (fun p x hx => .inl (mem_of_mem_rest got hx)) (fun v x hx => ?_)
    obtain ⟨i, client, sent, way⟩ := h.onWay _ y (receive_mem got)
    generalize hmessage : y.message = message at way run
    cases way
    rw [Worker.processImp_eq] at run
    cases run
    by_cases here : v = w
    · subst here
      rw [Function.update_self] at hx
      obtain ⟨reply, hreply, rfl⟩ := List.mem_map.mp hx
      exact .inr ⟨i, client, List.mem_append_left _ sent, List.eq_of_mem_replicate hreply⟩
    · rw [Function.update_of_ne here] at hx
      exact .inl hx
  | @sendReply w y later next =>
    refine h.keep (fun p x hx => ?_) (fun v x hx => .inl ?_)
    · refine (List.mem_append.mp hx).imp_right fun new => ?_
      cases List.mem_singleton.mp new
      obtain ⟨i, client, sent, hmessage⟩ := h.pending w y (by rw [next]; exact List.mem_cons_self)
      refine ⟨i, client, List.mem_append_left _ sent, ?_⟩
      rw [hmessage]
      exact .replied w
    · by_cases here : v = w
      · subst here
        rw [Function.update_self] at hx
        rw [next]
        exact List.mem_cons_of_mem _ hx
      · rwa [Function.update_of_ne here] at hx
  | @forwardReply w y rest got =>
    refine h.keep (fun p x hx => ?_) (fun w x hx => .inl hx)
    obtain ⟨i, client, sent, way⟩ := h.onWay _ y (receive_mem got)
    generalize hmessage : y.message = message at way
    cases way
    rw [placeOfFrontEnd_eq client hmessage] at hx
    refine (mem_of_mem_moved got hx).imp_right fun new => ?_
    cases new
    exact ⟨i, client, List.mem_append_left _ sent, .answered⟩
  | @poll i y rest got =>
    exact h.keep (fun p x hx => .inl (mem_of_mem_rest got hx)) (fun w x hx => .inl hx)

theorem of_run (run : Run (Step T add) System.init as s) : Relayed T as s :=
  run.history_invariant (fun _ _ _ _ => step) init

end Relayed

section Runs

variable {T : Topology} {add : Double → Double → Double} {s : System} {as : List Action}
  {i w : Bytes} {x : Parcel}

theorem message_of_sendReply (run : Run (Step T add) System.init as s)
    (sent : .sendReply w x ∈ as) :
    ∃ i, .sendRequest i x.task ∈ as ∧ x.message = [withNul i, x.task.image] := by
  obtain ⟨past, u, v, hpast, hs, before⟩ := run.exists_past_of_mem sent
  cases hs with
  | sendReply next =>
    have hpending : x ∈ u.pending w := by rw [next]; exact List.mem_cons_self
    obtain ⟨i, -, asked, hmessage⟩ := (Relayed.of_run hpast).pending w x hpending
    exact ⟨i, before.subset (List.mem_append_left _ asked), hmessage⟩

theorem message_of_poll (run : Run (Step T add) System.init as s) (polled : .poll i x ∈ as) :
    .sendRequest i x.task ∈ as ∧ x.message = [x.task.image] := by
  obtain ⟨past, u, v, hpast, hs, before⟩ := run.exists_past_of_mem polled
  cases hs with
  | poll got =>
    obtain ⟨j, -, asked, way⟩ := (Relayed.of_run hpast).onWay _ x (receive_mem got)
    generalize hmessage : x.message = message at way ⊢
    cases way
    exact ⟨before.subset (List.mem_append_left _ asked), rfl⟩

theorem exists_replied (add : Double → Double → Double) (client : i ∈ T.clients)
    (worker : w ∈ T.workers) (task : Task) :
    ∃ s, Run (Step T add) System.init [.sendRequest i task, .forwardTask i w, .receiveTask w,
        .sendReply w ⟨task, [withNul i, task.image]⟩, .forwardReply w] s ∧
      s.inFlight = [(.proxyToClient i, ⟨task, [task.image]⟩)] := by
  have hsent : Run (Step T add) System.init [.sendRequest i task] _ :=
    .single (.sendRequest client)
  have hgiven : Run (Step T add) System.init (_ ++ [.forwardTask i w]) _ :=
    hsent.snoc (.forwardTask worker (receive_cons_self _ _ _))
  have hworked : Run (Step T add) System.init (_ ++ [.receiveTask w]) _ :=
    hgiven.snoc (.receiveTask rfl (receive_cons_self _ _ _) (Worker.processImp_eq add i task))
  have hreplied : Run (Step T add) System.init
      (_ ++ [.sendReply w ⟨task, [withNul i, task.image]⟩]) _ :=
    hworked.snoc (.sendReply (Function.update_self _ _ _))
  have hback : Run (Step T add) System.init (_ ++ [.forwardReply w]) _ :=
    hreplied.snoc (.forwardReply (receive_cons_self _ _ _))
  refine ⟨_, hback, ?_⟩
  rw [placeOfFrontEnd_eq client rfl]
  rfl

theorem exists_polled (add : Double → Double → Double) (client : i ∈ T.clients)
    (worker : w ∈ T.workers) (task : Task) :
    ∃ as s, Run (Step T add) System.init as s ∧ .poll i ⟨task, [task.image]⟩ ∈ as := by
  obtain ⟨s, run, hwaiting⟩ := exists_replied add client worker task
  have hgot : receive (.proxyToClient i) s.inFlight = some (⟨task, [task.image]⟩, []) := by
    rw [hwaiting, receive_cons_self]
  exact ⟨_, _, run.snoc (.poll hgot), List.mem_append_right _ (List.mem_singleton_self _)⟩

/-- In no run is a reply a result. Each one is the task that the client sent: it begins with the
right meta data, and it does not fit in the result that the client copies it to. -/
theorem tasks_for_results (run : Run (Step T add) System.init as s) :
    (∀ w x, .sendReply w x ∈ as → ∃ i, .sendRequest i x.task ∈ as ∧
      x.message = withNul i :: Client.request x.task ∧
      ∀ taskResult, ¬ IsResult add x.task taskResult x.message.tail) ∧
    (∀ i x, .poll i x ∈ as → .sendRequest i x.task ∈ as ∧
      x.message = Client.request x.task ∧
      ∀ taskResult, Client.poll taskResult x.message = .error .outOfBounds ∧
        ¬ IsResult add x.task taskResult x.message) := by
  constructor
  · intro w x sent
    obtain ⟨i, asked, hmessage⟩ := message_of_sendReply run sent
    refine ⟨i, asked, hmessage, fun taskResult => ?_⟩
    rw [hmessage]
    exact not_isResult_task
  · intro i x polled
    obtain ⟨asked, hmessage⟩ := message_of_poll run polled
    refine ⟨asked, hmessage, fun taskResult => ?_⟩
    rw [hmessage]
    exact ⟨poll_task taskResult x.task, not_isResult_task⟩

end Runs

/-- One client and one worker, under the names that `main` gives them. -/
def oneOfEach : Topology where
  clients := [[115, 116, 117, 98, 95, 48]]
  workers := [[119, 111, 114, 107, 101, 114, 95, 48]]

theorem tasks_for_results_one_poll : ∃ i x as s,
    Run (Step oneOfEach (· + ·)) System.init as s ∧ .poll i x ∈ as ∧
      .sendRequest i x.task ∈ as ∧
        ∀ taskResult, ¬ IsResult (· + ·) x.task taskResult x.message := by
  obtain ⟨as, s, run, polled⟩ := exists_polled (T := oneOfEach) (· + ·) List.mem_cons_self
    List.mem_cons_self (Obj.zero sizeofTask)
  obtain ⟨asked, -, wrong⟩ := (tasks_for_results run).2 _ _ polled
  exact ⟨_, _, as, s, run, polled, asked, fun taskResult => (wrong taskResult).2⟩

/-- The client asks for the sum of an array of zeros and polls the array. -/
theorem task_of_zeros : ∃ as s, Run (Step oneOfEach (· + ·)) System.init as s ∧
    .poll [115, 116, 117, 98, 95, 48] ⟨Obj.zero sizeofTask, [(Obj.zero sizeofTask).image]⟩ ∈ as ∧
    ¬ IsResult (· + ·) (Obj.zero sizeofTask) (Obj.zero sizeofTaskResult)
      [(Obj.zero sizeofTask).image] := by
  obtain ⟨as, s, run, polled⟩ := exists_polled (T := oneOfEach) (· + ·) List.mem_cons_self
    List.mem_cons_self (Obj.zero sizeofTask)
  exact ⟨as, s, run, polled, not_isResult_task⟩

end SimTools.AsyncServer.Replies
