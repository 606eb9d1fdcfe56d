/- Module: SimTools/DummyProxy/Service
   digest: No client can tell the zmq proxy from the balance broker. -/

import SimTools.DummyProxy.ProxyBroker
import SimTools.LoadBalance.Service

set_option autoImplicit false
set_option relaxedAutoImplicit false

namespace SimTools.DummyProxy.Service

open Lib.Memory
open Lib.Sockets
open Lib.Channels
open Lib.Runs
open Lib.Refinement
open Lib.OpenCalls
open Lib.CallService hiding Step
open LoadBalance.Components (Task TaskResult sizeofTask)
open LoadBalance.Service (Sums)
open ProxyBroker

def see : Action → System → Option (Call Bytes Task TaskResult)
  | .sendRequest i, s => (s.outstanding i).map (.request i)
  | .receiveResult i r, _ => some (.answer i r)
  | _, _ => none

def observed (T : Topology) (add : Double → Double → Double) :
    Observed System Action (Call Bytes Task TaskResult) := ⟨Step T add, see⟩

variable {T : Topology} {add : Double → Double → Double} {s t u : System} {a : Action}
  {i w : Bytes} {task : Task} {r : TaskResult} {opened : Bytes → Option Task}

section Refinement

theorem sums_resultOf (add : Double → Double → Double) (i : Bytes) (task : Task) :
    Sums add i task (resultOf add task) :=
  ⟨TaskResult.taskMeta_ofSum _ _, TaskResult.sum_ofSum _ _⟩

/-- Every step of the proxy is one of the service, or none. -/
theorem refines (T : Topology) (add : Double → Double → Double) :
    Simulates (observed T add) (service {i | i ∈ T.clients} (Sums add))
      (fun s opened => Relayed T add s ∧ opened = s.outstanding) where
  answer := by
    rintro s a t _ ⟨h, rfl⟩ hs
    have hnext := h.step hs
    cases hs with
    | @sendRequest i task client idle =>
      have hstep := Seen.single (O := service {i | i ∈ T.clients} (Sums add))
        (.request (q := task) client idle)
      refine ⟨_, ?_, hnext, rfl⟩
      simpa [observed, see, service] using hstep
    | @receiveResult i msg rest r waiting got result =>
      obtain ⟨j, task, hopen, on⟩ := h.calls.exists_onWay got
      cases on
      rw [Client.result_eq] at result
      cases result
      have hstep := Seen.single (O := service {i | i ∈ T.clients} (Sums add))
        (.answer hopen (sums_resultOf add i task))
      exact ⟨_, hstep, hnext, rfl⟩
    | forwardTask | receiveTask | finishTask | forwardReply => exact ⟨_, .nil _, hnext, rfl⟩

theorem unseen {vs : List (Call Bytes Task TaskResult)} (h : Seen (observed T add) s vs t)
    (hs : Step T add t a u) (hidden : see a u = none) : Seen (observed T add) s vs u :=
  h.silent hs hidden

theorem shown {vs : List (Call Bytes Task TaskResult)} {v : Call Bytes Task TaskResult}
    (h : Seen (observed T add) s vs t) (hs : Step T add t a u) (visible : see a u = some v) :
    Seen (observed T add) s (vs ++ [v]) u := h.snoc hs visible

theorem clientToProxy_injective : Function.Injective Place.clientToProxy :=
  fun _ _ he => Place.clientToProxy.inj he

/-- Nothing is under way but the requests of the clients that wait. -/
structure Resting (opened : Bytes → Option Task) (s : System) : Prop where
  outstanding : s.outstanding = opened
  requested : Requested .clientToProxy Client.request opened s.inFlight

def behind (rest : Pool Place Parts) (outstanding : Bytes → Option Task) (p : Place) (msg : Parts) :
    System := ⟨rest ++ [(p, msg)], outstanding⟩

theorem Resting.answer (add : Double → Double → Double) (h : Resting opened s)
    (client : i ∈ T.clients) (worker : w ∈ T.workers) (hopen : opened i = some task) :
    ∃ t, Seen (observed T add) s [.answer i (resultOf add task)] t ∧
      Resting (Function.update opened i none) t := by
  obtain ⟨rest, got, hrest⟩ := h.requested.take clientToProxy_injective hopen
  have hlast : ∀ p msg, (∀ i, p ≠ .clientToProxy i) →
      receive p (behind rest s.outstanding p msg).inFlight = some (msg, rest) :=
    fun p msg elsewhere => receive_concat_of_queueAt_nil (hrest.others p elsewhere) msg
  have hidle : queueAt (.held w) (rest ++ [(Place.proxyToWorker w,
      [withNul brokerID, withNul i, task.image])]) = [] := by
    rw [queueAt_append_singleton, if_neg (by simp), hrest.others _ (by simp)]
  have hwait : s.outstanding i ≠ none := by
    rw [h.outstanding, hopen]
    exact Option.some_ne_none task
  have hgive : Step T add s (.forwardTask i w) (behind rest s.outstanding (.proxyToWorker w)
      [withNul brokerID, withNul i, task.image]) := .forwardTask worker got
  have htake : Step T add (behind rest s.outstanding (.proxyToWorker w)
      [withNul brokerID, withNul i, task.image]) (.receiveTask w)
      (behind rest s.outstanding (.held w) [withNul brokerID, withNul i, task.image]) :=
    .receiveTask (hlast _ _ (by simp)) hidle
  have hfinish : Step T add (behind rest s.outstanding (.held w)
      [withNul brokerID, withNul i, task.image]) (.finishTask w) _ :=
    .finishTask (hlast _ _ (by simp)) (Worker.processImp_eq add brokerID i task)
  rw [placeOfWorker_withNul] at hfinish
  have hback : Step T add (behind rest s.outstanding (.workerToProxy w)
      [withNul i, (resultOf add task).image]) (.forwardReply w) _ :=
    .forwardReply (hlast _ _ (by simp))
  rw [placeOfFrontEnd_withNul client] at hback
  have hreceive : Step T add (behind rest s.outstanding (.proxyToClient i)
      [(resultOf add task).image]) (.receiveResult i (resultOf add task)) _ :=
    .receiveResult hwait (hlast _ _ (by simp)) (Client.result_eq _)
  have hunseen := unseen (unseen (unseen (unseen (.nil _) hgive rfl) htake rfl) hfinish rfl) hback
    rfl
  have hseen : Seen (observed T add) s [.answer i (resultOf add task)] _ :=
    shown hunseen hreceive rfl
  exact ⟨_, hseen, by rw [behind, h.outstanding], hrest⟩

/-- A service of sums is one of the behaviours of the proxy, whichever worker it uses. -/
theorem realises (add : Double → Double → Double) (worker : w ∈ T.workers) :
    Simulates (service {i | i ∈ T.clients} (Sums add)) (observed T add)
      (fun opened s => Resting opened s ∧ ∀ i, opened i ≠ none → i ∈ T.clients) where
  answer := by
    rintro opened v opened' s ⟨h, members⟩ hs
    cases hs with
    | @request i task client idle =>
      obtain ⟨pool, outstanding⟩ := s
      obtain rfl : outstanding = opened := h.outstanding
      have hsend := @Step.sendRequest T add ⟨pool, outstanding⟩ i task client idle
      have hseen : Seen (observed T add) _ [.request i task] _ :=
        shown (.nil _) hsend (by simp [see])
      refine ⟨_, hseen, ⟨rfl, h.requested.send clientToProxy_injective idle task⟩, fun j hj => ?_⟩
      by_cases here : j = i
      · rwa [here]
      · exact members j (by rwa [← Function.update_of_ne here (some task) outstanding])
    | @answer i task r hopen hgood =>
      obtain ⟨t, seen, ht⟩ := h.answer add (members i (by simp [hopen])) worker hopen
      have hr : r = resultOf add task := by
        rw [TaskResult.eq_ofSum r, hgood.1, hgood.2]
        rfl
      rw [hr]
      refine ⟨t, seen, ht, fun j hj => ?_⟩
      by_cases here : j = i
      · simp [here] at hj
      · exact members j (by rwa [← Function.update_of_ne here none opened])

theorem traces_subset_served (T : Topology) (add : Double → Double → Double) :
    traces (observed T add) System.init ⊆ served {i | i ∈ T.clients} (Sums add) :=
  (refines T add).traces_subset ⟨relayed_init T add, rfl⟩

theorem traces_eq_served (add : Double → Double → Double) (staffed : T.workers ≠ []) :
    traces (observed T add) System.init = served {i | i ∈ T.clients} (Sums add) := by
  refine Set.Subset.antisymm (traces_subset_served T add) ?_
  obtain ⟨w, worker⟩ := List.exists_mem_of_ne_nil _ staffed
  exact (realises add worker).traces_subset
    ⟨⟨rfl, requested_nil _ _⟩, fun _ hne => absurd rfl hne⟩

/-- With the same clients and a worker each, the proxy and the balance broker show the same. -/
theorem proxy_like_broker (add : Double → Double → Double) {T' : LoadBalance.Serve.Topology}
    (same : ∀ i, i ∈ T.clients ↔ i ∈ T'.clients) (staffed : T.workers ≠ [])
    (staffed' : T'.workers ≠ []) :
    traces (observed T add) System.init =
      traces (LoadBalance.Service.observed T' add) LoadBalance.Serve.System.init := by
  rw [traces_eq_served add staffed, LoadBalance.Service.traces_eq_served add staffed']
  have hclients : {i | i ∈ T.clients} = {i | i ∈ T'.clients} := by
    ext i
    exact same i
  rw [hclients]

end Refinement

theorem proxy_like_broker_one_of_each :
    traces (observed oneOfEach (· + ·)) System.init =
      traces (LoadBalance.Service.observed LoadBalance.Serve.oneOfEach (· + ·))
        LoadBalance.Serve.System.init :=
  proxy_like_broker (· + ·) (fun _ => Iff.rfl) (by decide) (by decide)

end SimTools.DummyProxy.Service
