/- Module: SimTools/DataCenter/Service
   digest: The clients of all clusters see what a service of sums shows that may reject a task. -/

import SimTools.DataCenter.Delivery
import SimTools.Lib.CallService

set_option autoImplicit false
set_option relaxedAutoImplicit false

namespace SimTools.DataCenter.Service

open Lib.Memory
open Lib.Channels
open Lib.Runs
open Lib.Refinement
open Lib.CallService hiding Step
open ClusterCore
open TaskHeader
open ClusterBroker
open Network
open Itinerary
open Tracking
open Hops
open Delivery

abbrev ClientId := Name × Name

abbrev Question := UInt64 × TaskRequest

/-- What `Client::sendRequest` makes of the answer. -/
abbrev Answer := TaskMeta × Option TaskReply

def see (e : Event) (s : System) : Option (Call ClientId Question Answer) :=
  match e.action with
  | .sendRequest c i =>
    (s.client c i).outstanding.map (fun r => .request (c, i) (r.taskID, r.task))
  | .receiveReply c i =>
    e.consumed.bind (fun x => (Client.result x.2.message).toOption.map (.answer (c, i)))
  | _ => none

def observed (T : Topology) (add : Double → Double → Double) :
    Observed System Event (Call ClientId Question Answer) := ⟨Step T add, see⟩

/-- The answer is to this client and about its task; it holds the sum of the task, or it is a
rejection. -/
structure Answers (add : Double → Double → Double) (client : ClientId) (question : Question)
    (answer : Answer) : Prop where
  taskID : TaskMeta.taskID answer.1 = question.1
  toClusterID : TaskMeta.addr answer.1 .toClusterID = .ok client.1.bytes
  toID : TaskMeta.addr answer.1 .toID = .ok client.2.bytes
  outcome :
    (TaskMeta.taskDirection answer.1 = TaskDirection.taskReply.code ∧
      ∃ taskReply, answer.2 = some taskReply ∧
        TaskReply.sum taskReply = (TaskRequest.arr question.2).foldl add 0) ∨
    (TaskMeta.taskDirection answer.1 = TaskDirection.taskReplyRejected.code ∧ answer.2 = none)

def members (T : Topology) : Set ClientId := {c | c.1 ∈ T.names ∧ c.2 ∈ T.clients c.1}

def opened (s : System) (c : ClientId) : Option Question :=
  (s.client c.1 c.2).outstanding.map (fun r => (r.taskID, r.task))

variable {T : Topology} {add : Double → Double → Double} {s t : System} {e : Event} {a : Action}
  {r : Request} {m : Message}

theorem opened_setClient (s : System) (c i : Name) (st : ClientState) :
    opened (s.setClient c i st) =
      Function.update (opened s) (c, i) (st.outstanding.map (fun r => (r.taskID, r.task))) := by
  funext ⟨d, j⟩
  rw [opened, setClient_client]
  by_cases here : d = c ∧ j = i
  · obtain ⟨rfl, rfl⟩ := here
    simp
  · have hne : (d, j) ≠ (c, i) := by
      rintro ⟨⟩
      exact here ⟨rfl, rfl⟩
    rw [if_neg here, Function.update_of_ne hne, opened]

theorem react_client {out : Option (Place × Message)} (run : react T add s m a = .ok (t, out))
    (other : ∀ c i, a ≠ .receiveReply c i) : t.client = s.client := by
  cases a with
  | receiveReply c i => exact absurd rfl (other c i)
  | finishTask d w | taskRouter d =>
    obtain ⟨v, _, hv⟩ := bind_eq_ok run
    cases hv
    rfl
  | routeLocalRequest d j | routeLocalReply d w | routeCloud d =>
    obtain ⟨⟨b, o⟩, _, hv⟩ := bind_eq_ok run
    cases hv
    rfl
  | receiveTask d w | constructBroker d | constructWorker d w | sendRequest d j | statePuller d =>
    cases run
    rfl

theorem answers_onLeg {outcome : Outcome}
    (on : OnLeg T add r (.answered outcome) (.brokerToClient r.cluster r.client) m) :
    ∃ answer, Client.result m = .ok answer ∧
      Answers add (r.cluster, r.client) (r.taskID, r.task) answer := by
  obtain ⟨hd, shown, _, id, shows, to_client, to_cluster⟩ := on.header
  obtain ⟨taskMeta, rep, hresult⟩ := Client.result_eq shown on.payload
  refine ⟨_, hresult, rep.taskID.trans id, ?_, ?_, ?_⟩
  · rw [rep.addr_eq, to_cluster]
  · rw [rep.addr_eq, to_client]
  · cases outcome with
    | some executor =>
      obtain ⟨reply, _, _⟩ := shows
      exact .inl ⟨by rw [rep.taskDirection, reply], _, if_pos reply, TaskReply.sum_ofSum _⟩
    | none =>
      have hrejected : hd.taskDirection = .taskReplyRejected := shows
      refine .inr ⟨by rw [rep.taskDirection, hrejected], if_neg ?_⟩
      rw [hrejected]
      decide

/-- Every step of the data center is one of the service, or none. -/
theorem refines (T : Topology) (add : Double → Double → Double) :
    Simulates (observed T add) (service (members T) (Answers add))
      (fun s calls => (∃ legs, Tracks T add s legs) ∧ calls = opened s) where
  answer := by
    rintro s e t _ ⟨⟨legs, h⟩, rfl⟩ hs
    have hnext : ∃ legs', Tracks T add t legs' := by
      obtain ⟨legs', h', _⟩ := h.step hs
      exact ⟨legs', h'⟩
    cases hs with
    | constructBroker | constructWorker | statePuller => exact ⟨_, .nil _, hnext, rfl⟩
    | @sendRequest c i taskID task m hc hi idle hm =>
      have hidle : opened s (c, i) = none := by rw [opened, idle, Option.map_none]
      have hstep := Seen.single (O := service (members T) (Answers add))
        (.request (q := (taskID, task)) (show (c, i) ∈ members T from ⟨hc, hi⟩) hidle)
      refine ⟨_, ?_, hnext, (opened_setClient _ _ _ _).symm⟩
      simpa [observed, see, service, System.deliver, System.setClient, System.nextRequest]
        using hstep
    | @handle t a p x rest out src got ready run =>
      by_cases reads : ∃ c i, a = .receiveReply c i
      · obtain ⟨c, i, rfl⟩ := reads
        cases src
        rcases h.mem_cases (receive_mem got) with ⟨_, ⟨⟩⟩ | ⟨r, l, ho, hl, hp, on⟩
        cases l <;> cases hp
        obtain ⟨answer, hresult, good⟩ := answers_onLeg on
        have hopen : opened s (r.cluster, r.client) = some (r.taskID, r.task) := by
          rw [opened, (h.waiting r).mpr (by simp [hl]), Option.map_some]
        simp only [react, hresult, bind, Except.bind, pure, Except.pure] at run
        cases run
        have hstep := Seen.single (O := service (members T) (Answers add)) (.answer hopen good)
        refine ⟨_, ?_, hnext, (opened_setClient _ _ _ _).symm⟩
        simpa [observed, see, service, hresult, Except.toOption] using hstep
      · have hclient := react_client run (fun c i he => reads ⟨c, i, he⟩)
        have hhidden : (observed T add).see ⟨a, some (p, x), out.map (fun q => (q.1,
            ⟨q.2, x.origin⟩))⟩ (t.deliver rest (out.map (fun q => (q.1, ⟨q.2, x.origin⟩)))) =
              none := by
          cases a with
          | receiveReply c i => exact absurd ⟨c, i, rfl⟩ reads
          | sendRequest c i => simp [source] at src
          | _ => rfl
        refine ⟨opened s, ?_, hnext, ?_⟩
        · rw [hhidden]
          exact .nil _
        · funext c
          rw [opened, opened, System.deliver, hclient]

/-- In every run each client of each cluster has a dialogue with the data center, in which it gets
an answer about its own task before it sends the next one. -/
theorem dialogues_of_run (T : Topology) (add : Double → Double → Double)
    {vs : List (Call ClientId Question Answer)}
    (seen : vs ∈ traces (observed T add) System.init) :
    (∀ c question, .request c question ∈ vs → c ∈ members T) ∧
      ∀ c, ∃ calls, Dialogue (Answers add c) (ofClient c vs) calls := by
  have hstart : opened System.init = fun _ => none := rfl
  have hsubset := (refines T add).traces_subset (s := System.init) (a := fun _ => none)
    ⟨⟨_, tracks_init T add⟩, hstart⟩
  exact mem_served_iff.mp (hsubset seen)

/-- A client has sent a request and received its answer. -/
theorem dialogues_of_run_first_answer : ∃ c answer vs,
    vs ++ [.answer c answer] ∈ traces (observed oneCluster (· + ·)) System.init ∧
      ∃ calls, Dialogue (Answers (· + ·) c) (ofClient c (vs ++ [.answer c answer])) calls := by
  obtain ⟨c, hc⟩ : ∃ c, c ∈ oneCluster.names := ⟨_, List.mem_cons_self⟩
  obtain ⟨i, hi⟩ : ∃ i, i ∈ oneCluster.clients c := ⟨_, List.mem_cons_self⟩
  obtain ⟨e, s, hs, hout⟩ := exists_send oneCluster (· + ·) (s := System.init) hc hi rfl 7
    TaskRequest.init
  obtain ⟨legs, h⟩ := tracks_of_run (.single hs)
  obtain ⟨es, u, f, v, hrun, hlast, action⟩ := exists_answer h
    ((h.waiting (System.init.nextRequest c i 7 TaskRequest.init)).mp hout)
  have hwhole : Run (Step oneCluster (· + ·)) System.init (e :: es) u := .cons hs hrun
  obtain ⟨legs', h'⟩ := tracks_of_run hwhole
  obtain ⟨r, outcome, x, rfl, rfl, hl, took, own, on⟩ := receiveReply_cases h' hlast action
  obtain ⟨hd, shown, -⟩ := on.header
  obtain ⟨answer, hresult⟩ : ∃ answer, Client.result x.message = .ok answer := by
    obtain ⟨taskMeta, -, hresult⟩ := Client.result_eq shown on.payload
    exact ⟨_, hresult⟩
  have hshown : see f v = some (.answer (r.cluster, r.client) answer) := by
    rw [see, action]
    simp only [took, Option.bind_some, hresult, Except.toOption, Option.map_some]
    rfl
  obtain ⟨vs, hvs⟩ := Seen.exists_of_run (O := observed oneCluster (· + ·)) hwhole
  have hseen := hvs.snoc hlast hshown
  exact ⟨_, _, vs, ⟨_, hseen⟩, (dialogues_of_run oneCluster (· + ·) ⟨_, hseen⟩).2 _⟩

end SimTools.DataCenter.Service
