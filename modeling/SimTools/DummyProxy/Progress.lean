/- Module: SimTools/DummyProxy/Progress
   digest: Five steps of the proxy and its workers answer a request, and no run ends before them. -/

import SimTools.DummyProxy.ProxyBroker
import SimTools.Lib.Accounts

set_option autoImplicit false
set_option relaxedAutoImplicit false

namespace SimTools.DummyProxy.Progress

open Lib.Memory
open Lib.Sockets
open Lib.Channels
open Lib.Runs
open Lib.OpenCalls
open Lib.Accounts
open LoadBalance.Components (Task TaskResult sizeofTask)
open ProxyBroker

variable {T : Topology} {add : Double → Double → Double} {s t : System} {a : Action}
  {i w : Bytes} {as : List Action}

def distance : Place × Parts → Nat
  | (.clientToProxy _, _) => 5
  | (.proxyToWorker _, _) => 4
  | (.held _, _) => 3
  | (.workerToProxy _, _) => 2
  | (.proxyToClient _, _) => 1

def sends (i : Bytes) : Action → Bool
  | .sendRequest j => j = i
  | _ => false

def receives (i : Bytes) : Action → Bool
  | .receiveResult j _ => j = i
  | _ => false

def handles : Action → Bool
  | .sendRequest _ => false
  | _ => true

/-- A request is five steps of work, of which each other step does one. -/
theorem work_account (T : Topology) (add : Double → Double → Double) :
    Account (Step T add) (Relayed T add) (fun s => weight distance s.inFlight)
      (fun a => if handles a then 1 else 0) (fun a => if !handles a then 5 else 0) where
  preserved := fun _ _ _ h hs => h.step hs
  balanced := by
    intro s a t h hs
    cases hs with
    | sendRequest => simp [handles, distance]
    | forwardTask worker got | receiveTask got idle | receiveResult waiting got =>
      have hgot := weight_receive distance got
      simp only [handles, distance, weight_append, weight_singleton, ↓reduceIte, Bool.not_true,
        Bool.false_eq_true] at hgot ⊢
      omega
    | @finishTask w msg msg' rest got run =>
      obtain ⟨i, task, hopen, on⟩ := h.calls.exists_onWay got
      cases on
      rw [Worker.processImp_eq] at run
      cases run
      have hgot := weight_receive distance got
      rw [placeOfWorker_withNul]
      simp only [handles, distance, weight_append, weight_singleton, Option.toList_some,
        ↓reduceIte, Bool.not_true, Bool.false_eq_true] at hgot ⊢
      omega
    | @forwardReply w msg rest got =>
      obtain ⟨i, task, hopen, on⟩ := h.calls.exists_onWay got
      cases on
      have hgot := weight_receive distance got
      rw [placeOfFrontEnd_withNul (h.clients i (by simp [hopen]))]
      simp only [handles, distance, weight_append, weight_singleton, Option.toList_some,
        ↓reduceIte, Bool.not_true, Bool.false_eq_true] at hgot ⊢
      omega

theorem turn_of_step (hs : Step T add s a t) :
    Turn s.outstanding (sends · a) (receives · a) t.outstanding := by
  cases hs with
  | sendRequest _ idle => exact .sends idle (fun _ => rfl) (fun _ => rfl)
  | receiveResult waiting => exact .receives waiting (fun _ => rfl) (fun _ => rfl)
  | forwardTask | receiveTask | finishTask | forwardReply =>
    exact .keeps (fun _ => rfl) (fun _ => rfl)

theorem can_finish (h : Relayed T add s) {msg : Parts} (hmem : (.held w, msg) ∈ s.inFlight) :
    ∃ t, Step T add s (.finishTask w) t := by
  obtain ⟨msg', rest, got⟩ := exists_receive_of_mem hmem
  obtain ⟨i, task, hopen, on⟩ := h.calls.exists_onWay got
  cases on
  exact ⟨_, .finishTask got (Worker.processImp_eq add brokerID i task)⟩

theorem can_handle (h : Relayed T add s) (staffed : T.workers ≠ []) (busy : s.inFlight ≠ []) :
    ∃ a t, Step T add s a t ∧ handles a = true := by
  obtain ⟨⟨p, msg⟩, hmem⟩ := List.exists_mem_of_ne_nil _ busy
  obtain ⟨msg', rest, got⟩ := exists_receive_of_mem hmem
  cases p with
  | clientToProxy i =>
    obtain ⟨w, worker⟩ := List.exists_mem_of_ne_nil _ staffed
    exact ⟨_, _, .forwardTask worker got, rfl⟩
  | proxyToWorker w =>
    by_cases idle : queueAt (.held w) s.inFlight = []
    · exact ⟨_, _, .receiveTask got idle, rfl⟩
    · obtain ⟨m, held⟩ := exists_mem_of_queueAt_ne_nil idle
      obtain ⟨t, hs⟩ := can_finish h held
      exact ⟨_, t, hs, rfl⟩
  | held w =>
    obtain ⟨t, hs⟩ := can_finish h hmem
    exact ⟨_, t, hs, rfl⟩
  | workerToProxy w => exact ⟨_, _, .forwardReply got, rfl⟩
  | proxyToClient i =>
    obtain ⟨j, task, hopen, on⟩ := h.calls.exists_onWay got
    cases on
    exact ⟨_, _, .receiveResult (by simp [hopen]) got (Client.result_eq _), rfl⟩

/-- The work done and the work before the messages under way are five steps for each request; a
client has as many results as requests, but for the one it waits for; and where nobody can take a
message, no client waits. -/
theorem answers_all (run : Run (Step T add) System.init as s) :
    as.countP handles + weight distance s.inFlight = 5 * as.countP (fun a => !handles a) ∧
    (∀ i, as.countP (sends i) = as.countP (receives i) + (s.outstanding i).toList.length) ∧
    (T.workers ≠ [] → (∀ a t, Step T add s a t → handles a = false) →
      s.inFlight = [] ∧ ∀ i, as.countP (sends i) = as.countP (receives i)) := by
  have h := relayed_of_run run
  have hwork := (work_account T add).run run (relayed_init T add)
  have hcalls := calls_of_run (fun _ _ _ hs => turn_of_step hs) run (fun _ => rfl)
  refine ⟨?_, hcalls, fun staffed stuck => ?_⟩
  · rw [sum_map_ite, sum_map_ite] at hwork
    simp only [System.init, weight_nil] at hwork
    omega
  · have hempty : s.inFlight = [] := by
      by_contra busy
      obtain ⟨a, t, hs, htakes⟩ := can_handle h staffed busy
      rw [stuck a t hs] at htakes
      cases htakes
    refine ⟨hempty, fun i => ?_⟩
    have hidle : (s.outstanding i).toList.length = 0 := by
      have hone := h.calls.one i
      rw [hempty, List.countP_nil] at hone
      exact hone.symm
    rw [hcalls i, hidle, Nat.add_zero]

theorem answers_all_first_task : ∃ as s, Run (Step oneOfEach (· + ·)) System.init as s ∧
    s.inFlight ≠ [] ∧ as.countP handles + weight distance s.inFlight =
      5 * as.countP (fun a => !handles a) := by
  obtain ⟨i, client⟩ : ∃ i, i ∈ oneOfEach.clients := ⟨_, List.mem_cons_self⟩
  obtain ⟨w, worker⟩ : ∃ w, w ∈ oneOfEach.workers := ⟨_, List.mem_cons_self⟩
  have hsend : Run (Step oneOfEach (· + ·)) System.init [.sendRequest i] _ :=
    .single (@Step.sendRequest _ _ _ i (Obj.zero sizeofTask) client rfl)
  have hgive := hsend.snoc (.forwardTask worker (receive_cons_self _ _ _))
  exact ⟨_, _, hgive, by simp, (answers_all hgive).1⟩

end SimTools.DummyProxy.Progress
