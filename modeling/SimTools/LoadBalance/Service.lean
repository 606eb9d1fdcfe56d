/- Module: SimTools/LoadBalance/Service
   digest: The clients of the load balancer see what a service of sums shows, no more and no less. -/

import SimTools.LoadBalance.Invariant
import SimTools.Lib.CallService
import SimTools.Lib.OpenCalls

set_option autoImplicit false
set_option relaxedAutoImplicit false

namespace SimTools.LoadBalance.Service

open Lib.Memory
open Lib.Sockets
open Lib.Channels
open Lib.Runs
open Lib.Refinement
open Lib.OpenCalls
open Lib.CallService hiding Step
open Components
open Serve
open Invariant

def see : Action → System → Option (Call Bytes Task TaskResult)
  | .sendRequest i, s => (s.outstanding i).map (.request i)
  | .receiveResult i r, _ => some (.answer i r)
  | _, _ => none

def observed (T : Topology) (add : Double → Double → Double) :
    Observed System Action (Call Bytes Task TaskResult) := ⟨Step T add, see⟩

/-- The result has the meta data of the task and the sum of its array. -/
def Sums (add : Double → Double → Double) (_ : Bytes) (task : Task) (r : TaskResult) : Prop :=
  TaskResult.taskMeta r = Task.taskMeta task ∧ TaskResult.sum r = (Task.arr task).foldl add 0

variable {T : Topology} {add : Double → Double → Double} {s t : System} {a : Action} {i w : Bytes}
  {task : Task} {r : TaskResult} {opened : Bytes → Option Task}

theorem sums_resultOf (add : Double → Double → Double) (i : Bytes) (task : Task) :
    Sums add i task (resultOf add task) :=
  ⟨TaskResult.taskMeta_ofSum _ _, TaskResult.sum_ofSum _ _⟩

/-- Every step of the load balancer is one of the service, or none. -/
theorem refines (T : Topology) (add : Double → Double → Double) :
    Simulates (observed T add) (service {i | i ∈ T.clients} (Sums add))
      (fun s opened => Balanced T add s ∧ opened = s.outstanding) where
  answer := by
    rintro s a t _ ⟨h, rfl⟩ hs
    have hnext := h.step hs
    cases hs with
    | @sendRequest i task client idle =>
      have hstep := Seen.single (O := service {i | i ∈ T.clients} (Sums add))
        (.request (q := task) client idle)
      refine ⟨_, ?_, hnext, rfl⟩
      simpa [observed, see, System.deliver, service] using hstep
    | @receiveResult i msg rest r waiting got result =>
      rcases h.envelopes.onWay _ msg (receive_mem got) with ⟨_, alive, _⟩ | ⟨j, task, hj, way⟩
      · cases alive
      · cases way
        rw [Client.result_eq] at result
        cases result
        have hstep := Seen.single (O := service {i | i ∈ T.clients} (Sums add))
          (.answer hj (sums_resultOf add i task))
        exact ⟨_, hstep, hnext, rfl⟩
    | constructWorker | receiveTask | finishTask | poll | serveBackEnd | passBackEnd
    | serveFrontEnd | passFrontEnd => exact ⟨_, .nil _, hnext, rfl⟩

theorem unseen {u : System} {vs : List (Call Bytes Task TaskResult)}
    (h : Seen (observed T add) s vs t) (hs : Step T add t a u) (hidden : see a u = none) :
    Seen (observed T add) s vs u := h.silent hs hidden

/-- Nothing is under way but the requests of the clients that wait, and worker `w` is ready. -/
structure Resting (w : Bytes) (opened : Bytes → Option Task) (s : System) : Prop where
  outstanding : s.outstanding = opened
  line : s.broker.line = .poll
  ready : s.broker.workReadyQueue = [w]
  requested : Requested .clientToBroker Client.request opened s.inFlight

theorem clientToBroker_injective : Function.Injective Place.clientToBroker :=
  fun _ _ he => Place.clientToBroker.inj he

theorem exists_resting (add : Double → Double → Double) (worker : w ∈ T.workers) :
    ∃ s, Seen (observed T add) System.init [] s ∧ Resting w (fun _ => none) s := by
  have hstart : Seen (observed T add) System.init [] System.init := .nil _
  have hconstruct := unseen hstart (.constructWorker worker (by simp [System.init])) rfl
  have hpoll := unseen (a := .poll true false) hconstruct (.poll rfl) rfl
  have hsignal := unseen hpoll (.serveBackEnd (w := w) rfl rfl (receive_cons_self _ _ _)
    (BalanceBroker.serveBackEnd_alive _ w)) rfl
  exact ⟨_, hsignal, rfl, rfl, rfl, requested_nil _ _⟩

theorem Resting.sendRequest (add : Double → Double → Double) (h : Resting w opened s)
    (client : i ∈ T.clients) (idle : opened i = none) (task : Task) :
    ∃ t, Seen (observed T add) s [.request i task] t ∧
      Resting w (Function.update opened i (some task)) t := by
  obtain ⟨rfl, line, ready, requested⟩ := h
  have hsend := @Step.sendRequest T add s i task client idle
  exact ⟨_, Seen.snoc (O := observed T add) (.nil s) hsend
      (by simp [observed, see, System.deliver]), rfl, line, ready,
    requested.send clientToBroker_injective idle task⟩

section Legs

/-- The same system with other channels and another state of the broker. -/
def put (s : System) (pool : Pool Place Parts) (b : BalanceBroker) : System :=
  { s with inFlight := pool, broker := b }

variable {pool rest : Pool Place Parts} {b : BalanceBroker} {ws : List Bytes}

theorem dispatch (add : Double → Double → Double) (worker : w ∈ T.workers)
    (line : s.broker.line = .poll) (ready : s.broker.workReadyQueue = w :: ws)
    (got : receive (.clientToBroker i) s.inFlight = some ([task.image], rest)) :
    Seen (observed T add) s [] (put s (rest ++ [(.brokerToWorker w, [withNul i, task.image])])
      ⟨ws, false, true, .poll⟩) := by
  obtain ⟨pool, ⟨queue, backEnd, frontEnd, at_line⟩, outstanding, constructed⟩ := s
  subst line ready
  have hpoll : Step T add ⟨pool, ⟨w :: ws, backEnd, frontEnd, .poll⟩, outstanding, constructed⟩
      (.poll false true) ⟨pool, ⟨w :: ws, false, true, .backEnd⟩, outstanding, constructed⟩ :=
    .poll rfl
  have hpass : Step T add ⟨pool, ⟨w :: ws, false, true, .backEnd⟩, outstanding, constructed⟩
      .passBackEnd ⟨pool, ⟨w :: ws, false, true, .frontEnd⟩, outstanding, constructed⟩ :=
    .passBackEnd rfl rfl
  have hserve : Step T add _ (.serveFrontEnd i) _ :=
    .serveFrontEnd (s := ⟨pool, ⟨w :: ws, false, true, .frontEnd⟩, outstanding, constructed⟩) rfl
      rfl got (BalanceBroker.serveFrontEnd_eq _ w i rfl task)
  rw [Option.bind_some, placeOfBackEnd_withNul worker] at hserve
  exact unseen (unseen (unseen (.nil _) hpoll rfl) hpass rfl) hserve rfl

theorem work (add : Double → Double → Double) (i : Bytes) (task : Task) (s : System)
    (b : BalanceBroker) (elsewhere : queueAt (.brokerToWorker w) rest = [])
    (idle : queueAt (.held w) rest = []) :
    Seen (observed T add)
      (put s (rest ++ [(.brokerToWorker w, [withNul i, task.image])]) b) []
      (put s (rest ++ [(.workerToBroker w, [withNul i, (resultOf add task).image])]) b) := by
  have hidle : queueAt (.held w) (rest ++ [(Place.brokerToWorker w, [withNul i, task.image])]) =
      [] := by
    rw [queueAt_append_singleton, if_neg (by simp), idle]
  have htake : Step T add (put s (rest ++ [(.brokerToWorker w, [withNul i, task.image])]) b)
      (.receiveTask w) (put s (rest ++ [(.held w, [withNul i, task.image])]) b) :=
    .receiveTask (receive_concat_of_queueAt_nil elsewhere _) hidle
  have hfinish : Step T add (put s (rest ++ [(.held w, [withNul i, task.image])]) b)
      (.finishTask w)
      (put s (rest ++ [(.workerToBroker w, [withNul i, (resultOf add task).image])]) b) :=
    .finishTask (receive_concat_of_queueAt_nil idle _) (Worker.processImp_eq add i task)
  exact unseen (unseen (.nil _) htake rfl) hfinish rfl

theorem reply (add : Double → Double → Double) (task : Task) (s : System)
    (client : i ∈ T.clients) (line : b.line = .poll)
    (elsewhere : queueAt (.workerToBroker w) rest = []) :
    Seen (observed T add)
      (put s (rest ++ [(.workerToBroker w, [withNul i, (resultOf add task).image])]) b) []
      (put s (rest ++ [(.brokerToClient i, [(resultOf add task).image])])
        ⟨b.workReadyQueue ++ [w], true, false, .poll⟩) := by
  have hname : i ≠ globalConstID_ALIVE := by
    rintro rfl
    exact T.not_alive client
  have hreports : b.poll true false = ⟨b.workReadyQueue, true, false, .backEnd⟩ := by
    dsimp only [BalanceBroker.poll]
    split <;> rfl
  generalize hreply : rest ++ [(Place.workerToBroker w, [withNul i, (resultOf add task).image])] =
    pool
  have got : receive (.workerToBroker w) pool =
      some ([withNul i, (resultOf add task).image], rest) := by
    rw [← hreply]
    exact receive_concat_of_queueAt_nil elsewhere _
  have hpoll : Step T add (put s pool b) (.poll true false)
      (put s pool ⟨b.workReadyQueue, true, false, .backEnd⟩) := by
    rw [← hreports]
    exact .poll line
  have hserve : Step T add _ (.serveBackEnd w) _ :=
    .serveBackEnd (s := put s pool ⟨b.workReadyQueue, true, false, .backEnd⟩) rfl rfl got
      (BalanceBroker.serveBackEnd_reply _ w i hname _)
  rw [Option.bind_some, placeOfFrontEnd_withNul client] at hserve
  exact unseen (unseen (unseen (.nil _) hpoll rfl) hserve rfl) (.passFrontEnd rfl rfl) rfl

end Legs

theorem Resting.answer (add : Double → Double → Double) (h : Resting w opened s)
    (client : i ∈ T.clients) (worker : w ∈ T.workers)
    (hopen : opened i = some task) :
    ∃ t, Seen (observed T add) s [.answer i (resultOf add task)] t ∧
      Resting w (Function.update opened i none) t := by
  obtain ⟨rest, got, hrest⟩ := h.requested.take clientToBroker_injective hopen
  have hgive := dispatch add worker h.line h.ready got
  have hwork := work (T := T) add i task s ⟨[], false, true, .poll⟩
    (hrest.others (.brokerToWorker w) (by simp)) (hrest.others (.held w) (by simp))
  have hreply := reply add task (b := ⟨[], false, true, .poll⟩) s client rfl
    (hrest.others (.workerToBroker w) (by simp))
  have hwait : s.outstanding i ≠ none := by
    rw [h.outstanding, hopen]
    exact Option.some_ne_none task
  have hreceive : Step T add _ (.receiveResult i (resultOf add task)) _ :=
    .receiveResult (s := put s _ ⟨[w], true, false, .poll⟩) hwait
      (receive_concat_of_queueAt_nil (hrest.others (.brokerToClient i) (by simp)) _)
      (Client.result_eq _)
  refine ⟨_, Seen.snoc (hgive.append (hwork.append hreply)) hreceive rfl, ?_, rfl, rfl, ?_⟩
  · rw [System.deliver, put, h.outstanding]
  · simpa [System.deliver] using hrest

/-- A service of sums, once worker `w` is ready, is one of the behaviours of the load balancer. -/
theorem realises (add : Double → Double → Double) (worker : w ∈ T.workers) :
    Simulates (service {i | i ∈ T.clients} (Sums add)) (observed T add)
      (fun opened s => Resting w opened s ∧ ∀ i, opened i ≠ none → i ∈ T.clients) where
  answer := by
    rintro opened v opened' s ⟨h, members⟩ hs
    cases hs with
    | @request i task client idle =>
      obtain ⟨t, seen, ht⟩ := h.sendRequest add client idle task
      refine ⟨t, seen, ht, fun j hj => ?_⟩
      by_cases here : j = i
      · rwa [here]
      · rw [Function.update_of_ne here] at hj
        exact members j hj
    | @answer i task r hopen hgood =>
      obtain ⟨t, seen, ht⟩ := h.answer add (members i (by simp [hopen])) worker hopen
      have hr : r = resultOf add task := by
        rw [TaskResult.eq_ofSum r, hgood.1, hgood.2]
        rfl
      rw [hr]
      refine ⟨t, seen, ht, fun j hj => ?_⟩
      by_cases here : j = i
      · simp [here] at hj
      · rw [Function.update_of_ne here] at hj
        exact members j hj

theorem traces_subset_served (T : Topology) (add : Double → Double → Double) :
    traces (observed T add) System.init ⊆ served {i | i ∈ T.clients} (Sums add) :=
  (refines T add).traces_subset ⟨balanced_init T add, rfl⟩

theorem traces_eq_served (add : Double → Double → Double) (staffed : T.workers ≠ []) :
    traces (observed T add) System.init = served {i | i ∈ T.clients} (Sums add) := by
  refine Set.Subset.antisymm (traces_subset_served T add) ?_
  obtain ⟨w, worker⟩ := List.exists_mem_of_ne_nil _ staffed
  obtain ⟨s, hstart, resting⟩ := exists_resting (T := T) add worker
  rintro vs ⟨opened, hvs⟩
  obtain ⟨t, ht, _⟩ := (realises add worker).seen hvs ⟨resting, fun _ hne => absurd rfl hne⟩
  exact ⟨t, hstart.append ht⟩

/-- Where there is a worker, what the clients of the load balancer may see is any interleaving of
dialogues, in which every client gets the sum of its task before it sends the next one. A client may
send any task, as often as it likes; those of the source send three of `taskType` 1. -/
theorem seen_iff_dialogues (add : Double → Double → Double) (staffed : T.workers ≠ [])
    (vs : List (Call Bytes Task TaskResult)) :
    vs ∈ traces (observed T add) System.init ↔
      (∀ i task, .request i task ∈ vs → i ∈ T.clients) ∧
        ∀ i, ∃ opened, Dialogue (Sums add i) (ofClient i vs) opened := by
  rw [traces_eq_served add staffed, mem_served_iff]
  rfl

theorem seen_iff_dialogues_one_call : oneOfEach.workers ≠ [] ∧ ∃ i task,
    [.request i task, .answer i (resultOf (· + ·) task)] ∈
      traces (observed oneOfEach (· + ·)) System.init := by
  obtain ⟨i, client⟩ : ∃ i, i ∈ oneOfEach.clients := ⟨_, List.mem_cons_self⟩
  have staffed : oneOfEach.workers ≠ [] := by decide
  refine ⟨staffed, i, Obj.zero sizeofTask,
    (seen_iff_dialogues (T := oneOfEach) (· + ·) staffed _).mpr ⟨?_, fun j => ?_⟩⟩
  · intro j task hmem
    simp only [List.mem_cons, Call.request.injEq, reduceCtorEq, List.not_mem_nil, or_false] at hmem
    rwa [hmem.1]
  · by_cases here : i = j
    · subst here
      refine ⟨none, ?_⟩
      have hopen : Dialogue (Sums (· + ·) i) [.request i (Obj.zero sizeofTask)] _ := .request .nil
      simpa [ofClient] using hopen.answer (c := i) (sums_resultOf (· + ·) i _)
    · refine ⟨none, ?_⟩
      simpa [ofClient, here] using Dialogue.nil

end SimTools.LoadBalance.Service
