/- Module: SimTools/LoadBalance/Requests
   digest: No request of a client is lost, duplicated or answered with another's result. -/

import SimTools.LoadBalance.Invariant

set_option autoImplicit false
set_option relaxedAutoImplicit false

namespace SimTools.LoadBalance.Requests

open Lib.Memory
open Lib.Sockets
open Lib.Channels
open Lib.Runs
open Components
open Serve
open Invariant

/-- The meta data that a message carries: its last part is a task or a result. -/
def metaOf (msg : Parts) : Option TaskMeta := msg.getLast?.map metaAt

variable {T : Topology} {add : Double → Double → Double} {s : System}

theorem metaOf_onWay {i : Bytes} {task : Task} {p : Place} {msg : Parts}
    (way : OnWay add i task p msg) :
    metaOf msg = some (Task.taskMeta task) := by
  have hresult : metaAt (resultOf add task).image = Task.taskMeta task :=
    TaskResult.taskMeta_ofSum _ _
  cases way with
  | sent => rfl
  | dispatched | held => rfl
  | replied | answered => simp [metaOf, hresult]

/-- Every request is in the system once while its client waits, and not at all afterwards. -/
structure EachRequestOnce (T : Topology) (add : Double → Double → Double) (s : System) : Prop where
  /-- The one message that is the client's, by its place or by its envelope, is about its task. -/
  waiting : ∀ i ∈ T.clients, ∀ task, s.outstanding i = some task → ∃ p msg,
    s.inFlight.filter (belongsTo i) = [(p, msg)] ∧ metaOf msg = some (Task.taskMeta task)
  idle : ∀ i ∈ T.clients, s.outstanding i = none → s.inFlight.filter (belongsTo i) = []
  /-- What waits at a client is the result of the task that it sent. -/
  result : ∀ i msg rest, receive (.brokerToClient i) s.inFlight = some (msg, rest) → ∃ task r,
    s.outstanding i = some task ∧ Client.result msg = .ok r ∧
      TaskResult.taskMeta r = Task.taskMeta task ∧ TaskResult.sum r = (Task.arr task).foldl add 0
  faultless : Faultless add s

theorem each_request_once {as : List Action} (run : Run (Step T add) System.init as s) :
    EachRequestOnce T add s := by
  have h := balanced_of_run run
  refine ⟨?_, ?_, ?_, h.faultless⟩
  · intro i client task hi
    have hone := h.envelopes.one i client
    rw [hi, if_neg (by simp), List.countP_eq_length_filter] at hone
    obtain ⟨⟨p, msg⟩, hfilter⟩ := List.length_eq_one_iff.mp hone
    have hmem : (p, msg) ∈ s.inFlight.filter (belongsTo i) := by simp [hfilter]
    obtain ⟨hmem, hbelongs⟩ := List.mem_filter.mp hmem
    refine ⟨p, msg, hfilter, ?_⟩
    rcases h.envelopes.onWay p msg hmem with ⟨w, rfl, rfl⟩ | ⟨j, task', hj, way⟩
    · rw [belongsTo_aliveSignal client] at hbelongs
      cases hbelongs
    · rw [way.belongsTo_eq] at hbelongs
      obtain rfl := of_decide_eq_true hbelongs
      rw [hi] at hj
      cases hj
      exact metaOf_onWay way
  · intro i client hi
    have hone := h.envelopes.one i client
    rw [hi, if_pos rfl, List.countP_eq_length_filter] at hone
    exact List.length_eq_zero_iff.mp hone
  · intro i msg rest got
    rcases h.envelopes.onWay _ msg (receive_mem got) with ⟨_, alive, _⟩ | ⟨j, task, hj, way⟩
    · cases alive
    · cases way
      exact ⟨task, resultOf add task, hj, Client.result_eq _, TaskResult.taskMeta_ofSum _ _,
        TaskResult.sum_ofSum _ _⟩

theorem each_request_once_first_send : ∃ i as s, Run (Step oneOfEach (· + ·)) System.init as s ∧
    s.outstanding i ≠ none ∧ EachRequestOnce oneOfEach (· + ·) s := by
  obtain ⟨i, client⟩ : ∃ i, i ∈ oneOfEach.clients := ⟨_, List.mem_cons_self⟩
  have hs : Step oneOfEach (· + ·) System.init (.sendRequest i) _ :=
    @Step.sendRequest _ _ _ i (Obj.zero sizeofTask) client rfl
  exact ⟨i, _, _, .single hs, by simp [System.deliver], each_request_once (.single hs)⟩

end SimTools.LoadBalance.Requests
