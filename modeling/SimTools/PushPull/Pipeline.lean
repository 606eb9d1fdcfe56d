/- Module: SimTools/PushPull/Pipeline
   digest: Ventilator, workers and sink over all schedules: each task counted once, one sum. -/

import SimTools.PushPull.TasksCore
import SimTools.Lib.Accounts
import SimTools.Lib.Runs
import SimTools.Lib.Tokens
import Mathlib.Algebra.BigOperators.Fin
import Mathlib.Algebra.Order.BigOperators.Group.Finset
import Mathlib.Tactic.Ring

set_option autoImplicit false
set_option relaxedAutoImplicit false

namespace SimTools.PushPull.Pipeline

open Lib.Accounts
open Lib.Memory
open Lib.Channels
open Lib.Runs
open Lib.Tokens
open TasksCore

/-- Where the message of task `i` is: between ventilator and workers, in the hands of a worker, or
between workers and sink. A PUSH socket gives a message to any of its peers and a PULL socket takes
the next message from any, so the messages are kept apart by their tasks and in no order. -/
inductive Place (n : Nat)
  | toWorkers (i : Nat)
  | held (w : Fin n) (i : Nat)
  | toSink (i : Nat)
  deriving DecidableEq

structure System (n : Nat) where
  inFlight : Pool (Place n) Bytes
  manager : TasksManager
  collector : TaskCollector

def System.init {n : Nat} : System n := ⟨[], ⟨0⟩, ⟨0, 0⟩⟩

inductive Action (n : Nat)
  | distributeTask
  | receiveTask (w : Fin n) (i : Nat)
  | finishTask (w : Fin n) (i : Nat)
  | collectResult (i : Nat)

/-- A worker has one task at a time. -/
def Idle {n : Nat} (w : Fin n) (pool : Pool (Place n) Bytes) : Prop :=
  ∀ i, queueAt (.held w i) pool = []

/-- Each message is delivered once, in any order and to any worker that waits for one. -/
inductive Step {n : Nat} (GlobalTaskNum : UInt64) : System n → Action n → System n → Prop
  | distributeTask {s : System n} {m : TasksManager} {msg : Bytes} :
      s.manager.distributeTasks GlobalTaskNum = some (m, msg) →
      Step GlobalTaskNum s .distributeTask
        { s with manager := m,
                 inFlight := s.inFlight ++ [(.toWorkers s.manager.i.toNat, msg)] }
  | receiveTask {s : System n} {w : Fin n} {i : Nat} {msg : Bytes}
      {rest : Pool (Place n) Bytes} :
      Idle w s.inFlight → receive (.toWorkers i) s.inFlight = some (msg, rest) →
      Step GlobalTaskNum s (.receiveTask w i) { s with inFlight := rest ++ [(.held w i, msg)] }
  | finishTask {s : System n} {w : Fin n} {i : Nat} {msg msg' : Bytes}
      {rest : Pool (Place n) Bytes} :
      receive (.held w i) s.inFlight = some (msg, rest) → TaskWorker.work msg = .ok msg' →
      Step GlobalTaskNum s (.finishTask w i) { s with inFlight := rest ++ [(.toSink i, msg')] }
  | collectResult {s : System n} {i : Nat} {msg : Bytes} {rest : Pool (Place n) Bytes}
      {c : TaskCollector} :
      receive (.toSink i) s.inFlight = some (msg, rest) →
      s.collector.collectResults GlobalTaskNum msg = some (.ok c) →
      Step GlobalTaskNum s (.collectResult i) { s with inFlight := rest, collector := c }

def collected {n : Nat} (as : List (Action n)) : List Nat :=
  as.filterMap (fun a => match a with
    | .collectResult i => some i
    | .distributeTask | .receiveTask _ _ | .finishTask _ _ => none)

inductive OnWay {n : Nat} (i : UInt64) : Place n → Bytes → Prop
  | sent : OnWay i (.toWorkers i.toNat) (dwordBytes i)
  | held (w : Fin n) : OnWay i (.held w i.toNat) (dwordBytes i)
  | halved : OnWay i (.toSink i.toNat) (dwordBytes (i / 2))

def ledger (n : Nat) : Ledger (Place n) Nat Nat where
  places := fun i => .toWorkers i :: .toSink i :: (List.finRange n).map (fun w => .held w i)
  name := id
  name_injective := fun _ _ h => h
  places_nodup := by
    intro i
    have hheld : ((List.finRange n).map (fun w => Place.held w i)).Nodup :=
      (List.nodup_finRange n).map (fun v w h => (Place.held.inj h).1)
    simp [hheld]
  owner_unique := by
    intro i j p hi hj
    cases p <;> simp_all

theorem owns_iff {n i : Nat} {p : Place n} : (ledger n).owns i p = true ↔
    p = .toWorkers i ∨ p = .toSink i ∨ ∃ w, p = .held w i := by
  simp only [ledger, Ledger.owns, List.mem_cons, List.mem_map, List.mem_finRange, true_and,
    decide_eq_true_eq]
  constructor
  · rintro (h | h | ⟨w, h⟩)
    · exact .inl h
    · exact .inr (.inl h)
    · exact .inr (.inr ⟨w, h.symm⟩)
  · rintro (h | h | ⟨w, h⟩)
    · exact .inl h
    · exact .inr (.inl h)
    · exact .inr (.inr ⟨w, h.symm⟩)

/-- All places of a task, and the sum that the sink has. -/
structure Conserved {n : Nat} (GlobalTaskNum : UInt64) (past : List (Action n)) (s : System n) :
    Prop where
  bounded : s.manager.i ≤ GlobalTaskNum
  onWay : ∀ p msg, (p, msg) ∈ s.inFlight → ∃ i, i < s.manager.i ∧ OnWay i p msg
  tasks : Accounted (ledger n) (List.range s.manager.i.toNat).reverse s.inFlight (collected past)
  received : s.collector.i.toNat = (collected past).length
  sum_eq : s.collector.sum.toNat = ((collected past).map (· / 2)).sum % 2 ^ 64

variable {n : Nat} {GlobalTaskNum : UInt64} {s t : System n} {a : Action n}
  {past : List (Action n)}

theorem conserved_init : Conserved GlobalTaskNum [] (System.init (n := n)) :=
  ⟨Nat.zero_le _, by simp [System.init], accounted_nil _, rfl, rfl⟩

namespace Conserved

theorem exists_onWay (h : Conserved GlobalTaskNum past s) {p : Place n} {msg : Bytes}
    {rest : Pool (Place n) Bytes} (got : receive p s.inFlight = some (msg, rest)) :
    ∃ i, i < s.manager.i ∧ OnWay i p msg := h.onWay p msg (receive_mem got)

theorem move (h : Conserved GlobalTaskNum past s) {p q : Place n} {msg msg' : Bytes}
    {rest : Pool (Place n) Bytes} (got : receive p s.inFlight = some (msg, rest))
    (same : ∀ i, (ledger n).owns i p = (ledger n).owns i q)
    (further : ∀ i, OnWay i p msg → OnWay i q msg') (quiet : collected [a] = []) :
    Conserved GlobalTaskNum (past ++ [a]) { s with inFlight := rest ++ [(q, msg')] } := by
  have hcollected : collected (past ++ [a]) = collected past := by
    rw [collected, List.filterMap_append, ← collected, ← collected, quiet, List.append_nil]
  refine ⟨h.bounded, ?_, ?_, ?_, ?_⟩
  · intro p' msg'' hmem
    rcases mem_of_mem_moved got hmem with hmem | new
    · exact h.onWay p' msg'' hmem
    · cases new
      obtain ⟨i, hi, way⟩ := h.exists_onWay got
      exact ⟨i, hi, further i way⟩
  · rw [hcollected]
    exact h.tasks.move got same
  · rw [hcollected]
    exact h.received
  · rw [hcollected]
    exact h.sum_eq

theorem step (h : Conserved GlobalTaskNum past s) (hs : Step GlobalTaskNum s a t) :
    Conserved GlobalTaskNum (past ++ [a]) t := by
  cases hs with
  | @distributeTask m msg run =>
    obtain ⟨lt, hnext, rfl⟩ := TasksManager.distributeTasks_eq_some run
    have hlt := UInt64.lt_iff_toNat_lt.mp lt
    have hcollected : collected (past ++ [.distributeTask]) = collected past := by
      simp [collected]
    refine ⟨UInt64.le_iff_toNat_le.mpr (by rw [hnext]; exact hlt), ?_, ?_, ?_, ?_⟩
    · intro p msg hmem
      rcases List.mem_append.mp hmem with hmem | hmem
      · obtain ⟨i, hi, way⟩ := h.onWay p msg hmem
        have hold := UInt64.lt_iff_toNat_lt.mp hi
        exact ⟨i, UInt64.lt_iff_toNat_lt.mpr (show _ < m.i.toNat by omega), way⟩
      · cases List.mem_singleton.mp hmem
        exact ⟨s.manager.i, UInt64.lt_iff_toNat_lt.mpr (show _ < m.i.toNat by omega), .sent⟩
    · rw [hcollected, hnext, List.range_succ, List.reverse_append]
      exact h.tasks.join (by simp) (owns_iff.mpr (.inl rfl))
    · rw [hcollected]
      exact h.received
    · rw [hcollected]
      exact h.sum_eq
  | @receiveTask w i msg rest idle got =>
    refine h.move got ?_ ?_ rfl
    · intro j
      rw [Bool.eq_iff_iff, owns_iff, owns_iff]
      simp
    · rintro j ⟨⟩
      exact .held w
  | @finishTask w i msg msg' rest got run =>
    refine h.move got ?_ ?_ rfl
    · intro j
      rw [Bool.eq_iff_iff, owns_iff, owns_iff]
      simp
    · rintro j ⟨⟩
      rw [TaskWorker.work_dwordBytes] at run
      cases run
      exact .halved
  | @collectResult i msg rest c got run =>
    have lt := TaskCollector.lt_of_collectResults run
    obtain ⟨j, hj, way⟩ := h.exists_onWay got
    cases way
    rw [TaskCollector.collectResults_dwordBytes lt] at run
    cases run
    have hcollected : collected (past ++ [.collectResult j.toNat]) =
        collected past ++ [j.toNat] := by
      simp [collected]
    refine ⟨h.bounded, fun p msg hmem => h.onWay p msg (mem_of_mem_rest got hmem), ?_, ?_, ?_⟩
    · rw [hcollected]
      exact h.tasks.wait got (owns_iff.mpr (.inr (.inl rfl)))
    · rw [hcollected, List.length_append, ← h.received]
      exact toNat_succ_of_lt lt
    · rw [hcollected, List.map_append, List.sum_append, UInt64.toNat_add, h.sum_eq,
        UInt64.toNat_div]
      simp

end Conserved

theorem conserved_of_run {as : List (Action n)}
    (run : Run (Step GlobalTaskNum) System.init as s) : Conserved GlobalTaskNum as s := by
  have hinit : Conserved GlobalTaskNum [] (System.init (n := n)) := conserved_init
  have h := run.history_invariant (fun _ _ _ _ h hs => h.step hs) hinit
  rwa [List.nil_append] at h

theorem sum_halves (m : Nat) : ∑ i ∈ Finset.range (m + 1), i / 2 = m ^ 2 / 4 := by
  induction m with
  | zero => rfl
  | succ m ih =>
    rw [Finset.sum_range_succ, ih]
    obtain ⟨k, rfl | rfl⟩ := Nat.even_or_odd' m
    · have hold : (2 * k) ^ 2 = 4 * k ^ 2 := by ring
      have hnew : (2 * k + 1) ^ 2 = 4 * (k ^ 2 + k) + 1 := by ring
      omega
    · have hold : (2 * k + 1) ^ 2 = 4 * (k ^ 2 + k) + 1 := by ring
      have hnew : (2 * k + 1 + 1) ^ 2 = 4 * (k ^ 2 + 2 * k + 1) := by ring
      omega

/-- When the sink has received as many results as there are tasks, it has one of each. -/
theorem Conserved.collected_perm (h : Conserved GlobalTaskNum past s)
    (complete : s.collector.i = GlobalTaskNum) :
    (collected past).Perm (List.range GlobalTaskNum.toNat) := by
  have hsub : ∀ i ∈ collected past, i ∈ List.range GlobalTaskNum.toNat := by
    intro i hi
    have hlt : i < s.manager.i.toNat := by simpa using h.tasks.mem_of_mem_queue hi
    have hle := UInt64.le_iff_toNat_le.mp h.bounded
    exact List.mem_range.mpr (by omega)
  have hsubperm := List.subperm_of_subset h.tasks.queue_nodup hsub
  refine hsubperm.perm_of_length_le ?_
  rw [List.length_range, ← h.received, complete]

theorem Conserved.place_by_place (h : Conserved GlobalTaskNum past s) (i : Nat) :
    (queueAt (.toWorkers i) s.inFlight).length +
        ∑ w, (queueAt (.held w i) s.inFlight).length +
        (queueAt (.toSink i) s.inFlight).length + (collected past).count i =
      if i < s.manager.i.toNat then 1 else 0 := by
  have honce := h.tasks.once i
  have hcount : (List.range s.manager.i.toNat).reverse.count i =
      if i < s.manager.i.toNat then 1 else 0 := by
    rw [List.count_reverse]
    split
    · rename_i sent
      exact List.count_eq_one_of_mem List.nodup_range (List.mem_range.mpr sent)
    · rename_i unsent
      exact List.count_eq_zero.mpr (fun hmem => unsent (List.mem_range.mp hmem))
  rw [Ledger.occurrences_eq, hcount] at honce
  have hheld : ∑ w, (queueAt (.held w i) s.inFlight).length =
      (((List.finRange n).map (fun w => Place.held w i)).map
        (fun p => (queueAt p s.inFlight).length)).sum := by
    rw [Fin.sum_univ_def, List.map_map]
    rfl
  simp only [ledger, List.map_cons, List.sum_cons, id_eq] at honce
  omega

/-- Whatever the schedule: each task that was sent is in one place, the sum is that of the halves
collected so far, and in the end it is the sum of all halves. -/
theorem sum_of_run {as : List (Action n)} (run : Run (Step GlobalTaskNum) System.init as s) :
    (∀ i < s.manager.i.toNat,
      (queueAt (.toWorkers i) s.inFlight).length +
        ∑ w, (queueAt (.held w i) s.inFlight).length +
        (queueAt (.toSink i) s.inFlight).length + (collected as).count i = 1) ∧
    (∀ p msg, (p, msg) ∈ s.inFlight → ∃ i, i < s.manager.i ∧ OnWay i p msg) ∧
    s.collector.sum.toNat = ((collected as).map (· / 2)).sum % 2 ^ 64 ∧
    (s.collector.i = GlobalTaskNum →
      s.collector.sum.toNat = (∑ i ∈ Finset.range GlobalTaskNum.toNat, i / 2) % 2 ^ 64 ∧
      (1 ≤ GlobalTaskNum.toNat →
        s.collector.sum.toNat = (GlobalTaskNum.toNat - 1) ^ 2 / 4 % 2 ^ 64)) := by
  have h := conserved_of_run run
  refine ⟨fun i sent => ?_, h.onWay, h.sum_eq, fun complete => ?_⟩
  · rw [h.place_by_place i, if_pos sent]
  · have hsum : s.collector.sum.toNat =
        (∑ i ∈ Finset.range GlobalTaskNum.toNat, i / 2) % 2 ^ 64 := by
      rw [h.sum_eq, ((h.collected_perm complete).map (· / 2)).sum_eq]
      rfl
    refine ⟨hsum, fun one => ?_⟩
    obtain ⟨m, hm⟩ := Nat.exists_eq_add_of_le' one
    rw [hsum, hm, sum_halves, Nat.add_sub_cancel]

/-- Three tasks and two workers; the results overtake each other. -/
theorem sum_of_run_three : ∃ (as : List (Action 2)) (s : System 2),
    Run (Step 3) System.init as s ∧
    s.collector.sum.toNat = (∑ i ∈ Finset.range 3, i / 2) % 2 ^ 64 := by
  have run : Run (Step 3) System.init
      [.distributeTask, .receiveTask 0 0, .distributeTask, .distributeTask, .receiveTask 1 2,
        .finishTask 1 2, .collectResult 2, .finishTask 0 0, .receiveTask 0 1, .finishTask 0 1,
        .collectResult 1, .collectResult 0]
      (⟨[], ⟨3⟩, ⟨3, 1⟩⟩ : System 2) := by
    refine .cons (.distributeTask rfl) ?_
    refine .cons (.receiveTask (fun _ => rfl) rfl) ?_
    refine .cons (.distributeTask rfl) ?_
    refine .cons (.distributeTask rfl) ?_
    refine .cons (.receiveTask (fun _ => rfl) rfl) ?_
    refine .cons (.finishTask rfl rfl) ?_
    refine .cons (.collectResult rfl rfl) ?_
    refine .cons (.finishTask rfl rfl) ?_
    refine .cons (.receiveTask (fun _ => rfl) rfl) ?_
    refine .cons (.finishTask rfl rfl) ?_
    refine .cons (.collectResult rfl rfl) ?_
    exact .cons (.collectResult rfl rfl) (.nil _)
  exact ⟨_, _, run, ((sum_of_run run).2.2.2 rfl).1⟩

def Place.distance {n : Nat} : Place n → Nat
  | .toWorkers _ => 3
  | .held _ _ => 2
  | .toSink _ => 1

def System.remaining {n : Nat} (GlobalTaskNum : UInt64) (s : System n) : Nat :=
  4 * (GlobalTaskNum.toNat - s.manager.i.toNat) +
    (s.inFlight.map (fun x => x.1.distance)).sum

theorem distance_of_receive {p : Place n} {msg : Bytes} {pool rest : Pool (Place n) Bytes}
    (got : receive p pool = some (msg, rest)) :
    (pool.map (fun x => x.1.distance)).sum =
      p.distance + (rest.map (fun x => x.1.distance)).sum := by
  rw [((receive_perm got).map _).sum_eq, List.map_cons, List.sum_cons]

theorem remaining_of_step (hs : Step GlobalTaskNum s a t) :
    t.remaining GlobalTaskNum + 1 = s.remaining GlobalTaskNum := by
  cases hs with
  | @distributeTask m msg run =>
    obtain ⟨lt, hnext, _⟩ := TasksManager.distributeTasks_eq_some run
    have hlt := UInt64.lt_iff_toNat_lt.mp lt
    simp only [System.remaining, List.map_append, List.sum_append, List.map_cons, List.sum_cons,
      List.map_nil, List.sum_nil, Place.distance, hnext]
    omega
  | receiveTask idle got | finishTask got run =>
    have hgot := distance_of_receive got
    simp only [System.remaining, List.map_append, List.sum_append, List.map_cons, List.sum_cons,
      List.map_nil, List.sum_nil, Place.distance] at hgot ⊢
    omega
  | collectResult got run =>
    have hgot := distance_of_receive got
    simp only [System.remaining, Place.distance] at hgot ⊢
    omega

theorem Conserved.can_finish (h : Conserved GlobalTaskNum past s) {w : Fin n} {i : Nat}
    {msg : Bytes} (holds : (.held w i, msg) ∈ s.inFlight) :
    ∃ a t, Step GlobalTaskNum s a t := by
  obtain ⟨msg', rest, got⟩ := exists_receive_of_mem holds
  obtain ⟨j, _, way⟩ := h.exists_onWay got
  cases way
  exact ⟨_, _, .finishTask got (TaskWorker.work_dwordBytes j)⟩

/-- With one worker at least, something can happen until the sink has all results. -/
theorem Conserved.can_step (h : Conserved GlobalTaskNum past s) (w : Fin n)
    (waits : s.collector.i ≠ GlobalTaskNum) : ∃ a t, Step GlobalTaskNum s a t := by
  by_cases hm : s.manager.i < GlobalTaskNum
  · exact ⟨_, _, .distributeTask (if_pos hm)⟩
  have hall : s.manager.i.toNat = GlobalTaskNum.toNat := by
    have hle := UInt64.le_iff_toNat_le.mp h.bounded
    have hge : ¬ s.manager.i.toNat < GlobalTaskNum.toNat := hm
    omega
  have hcollector : s.collector.i < GlobalTaskNum := by
    have hle := h.tasks.length_queue_le
    rw [List.length_reverse, List.length_range, ← h.received, hall] at hle
    have hne : s.collector.i.toNat ≠ GlobalTaskNum.toNat := fun he => waits (UInt64.toNat_inj.mp he)
    exact UInt64.lt_iff_toNat_lt.mpr (by omega)
  -- not all results are collected, so that some task is still under way
  have hpool : s.inFlight ≠ [] := by
    intro empty
    have hsub : ∀ i ∈ List.range GlobalTaskNum.toNat, i ∈ collected past := by
      intro i hi
      have hone := h.tasks.occurrences_eq_one (w := i) (by simpa [hall] using hi)
      rw [Ledger.occurrences, empty, List.countP_nil, Nat.zero_add] at hone
      exact List.count_pos_iff.mp (by rw [show i = (ledger n).name i from rfl, hone]; omega)
    have hle := (List.subperm_of_subset List.nodup_range hsub).length_le
    rw [List.length_range, ← h.received] at hle
    have hlt := UInt64.lt_iff_toNat_lt.mp hcollector
    omega
  obtain ⟨⟨p, msg⟩, hmem⟩ := List.exists_mem_of_ne_nil _ hpool
  obtain ⟨msg', rest, got⟩ := exists_receive_of_mem hmem
  obtain ⟨j, _, way⟩ := h.exists_onWay got
  cases way with
  | sent =>
    by_cases idle : Idle w s.inFlight
    · exact ⟨_, _, .receiveTask idle got⟩
    · obtain ⟨k, hk⟩ := not_forall.mp idle
      obtain ⟨m, busy⟩ := exists_mem_of_queueAt_ne_nil hk
      exact h.can_finish busy
  | held v => exact h.can_finish hmem
  | halved =>
    exact ⟨_, _, .collectResult got (TaskCollector.collectResults_dwordBytes hcollector _)⟩

/-- The ventilator has sent every task, the sink has added a half for each, and no message is left
behind. -/
structure Finished {n : Nat} (GlobalTaskNum : UInt64) (s : System n) : Prop where
  distributed : s.manager.i = GlobalTaskNum
  received : s.collector.i = GlobalTaskNum
  nothing_left : s.inFlight = []
  sum_eq : s.collector.sum.toNat = (∑ i ∈ Finset.range GlobalTaskNum.toNat, i / 2) % 2 ^ 64

theorem Conserved.finished (h : Conserved GlobalTaskNum past s)
    (complete : s.collector.i = GlobalTaskNum) : Finished GlobalTaskNum s := by
  have hle := h.tasks.length_queue_le
  rw [List.length_reverse, List.length_range, ← h.received, complete] at hle
  have hbounded := UInt64.le_iff_toNat_le.mp h.bounded
  refine ⟨UInt64.toNat_inj.mp (by omega), complete, ?_, ?_⟩
  · rw [List.eq_nil_iff_forall_not_mem]
    rintro ⟨p, msg⟩ hmem
    obtain ⟨i, hi, way⟩ := h.onWay p msg hmem
    have howns : (ledger n).owns i.toNat p = true := by
      rw [owns_iff]
      cases way with
      | sent => exact .inl rfl
      | held w => exact .inr (.inr ⟨w, rfl⟩)
      | halved => exact .inr (.inl rfl)
    -- the result of the task has been added, so that the task cannot be under way as well
    have hlt : i.toNat < GlobalTaskNum.toNat := by
      have hi := UInt64.lt_iff_toNat_lt.mp hi
      omega
    have hcollected : (collected past).count i.toNat = 1 := by
      rw [(h.collected_perm complete).count_eq]
      exact List.count_eq_one_of_mem List.nodup_range (List.mem_range.mpr hlt)
    have hpool : 0 < s.inFlight.countP (fun x => (ledger n).owns i.toNat x.1) :=
      List.countP_pos_iff.mpr ⟨_, hmem, howns⟩
    have hone := h.tasks.occurrences_eq_one (w := i.toNat) (by
      rw [List.mem_reverse, List.mem_range]
      exact UInt64.lt_iff_toNat_lt.mp hi)
    rw [Ledger.occurrences, show (ledger n).name i.toNat = i.toNat from rfl, hcollected] at hone
    omega
  · rw [h.sum_eq, ((h.collected_perm complete).map (· / 2)).sum_eq]
    rfl

theorem countdown (GlobalTaskNum : UInt64) (worker : 0 < n) : Countdown (Step GlobalTaskNum)
    (fun s : System n => ∃ past, Conserved GlobalTaskNum past s)
    (System.remaining GlobalTaskNum) where
  preserved := fun _ _ _ ⟨_, h⟩ hs => ⟨_, h.step hs⟩
  counts := fun _ _ _ _ hs => remaining_of_step hs
  goes_on := by
    rintro s ⟨past, h⟩ left
    refine h.can_step ⟨0, worker⟩ fun complete => left ?_
    have hdone := h.finished complete
    simp [System.remaining, hdone.distributed, hdone.nothing_left]

theorem Conserved.finished_of_remaining (h : Conserved GlobalTaskNum past s) (worker : 0 < n)
    (done : s.remaining GlobalTaskNum = 0) : Finished GlobalTaskNum s := by
  apply h.finished
  by_contra waits
  obtain ⟨a, t, hs⟩ := h.can_step ⟨0, worker⟩ waits
  have hless := remaining_of_step hs
  omega

/-- Where there is a worker, a run has made, or has left, four steps for every task; one that cannot
go on has finished, and each can be continued to one that has. -/
theorem finishes (worker : 0 < n) {as : List (Action n)}
    (run : Run (Step GlobalTaskNum) System.init as s) :
    as.length + s.remaining GlobalTaskNum = 4 * GlobalTaskNum.toNat ∧
    ((∀ a t, ¬ Step GlobalTaskNum s a t) → Finished GlobalTaskNum s) ∧
    ∃ bs t, Run (Step GlobalTaskNum) s bs t ∧ Finished GlobalTaskNum t := by
  have h := conserved_of_run run
  have hcount := countdown GlobalTaskNum worker
  refine ⟨?_, fun stuck => ?_, ?_⟩
  · have hstart : System.init.remaining GlobalTaskNum (n := n) = 4 * GlobalTaskNum.toNat := by
      simp [System.remaining, System.init]
    rw [hcount.run run ⟨[], conserved_init⟩, hstart]
  · exact h.finished_of_remaining worker (hcount.eq_zero_of_stuck ⟨as, h⟩ stuck)
  · obtain ⟨bs, t, rest, ⟨past, h⟩, done⟩ := hcount.exists_end ⟨as, h⟩
    exact ⟨bs, t, rest, h.finished_of_remaining worker done⟩

/-- One task and one worker. -/
theorem finishes_one : ∃ (as : List (Action 1)) (s : System 1),
    Run (Step 1) System.init as s ∧ Finished 1 s := by
  have run : Run (Step 1) System.init [.distributeTask]
      (⟨[(.toWorkers 0, dwordBytes 0)], ⟨1⟩, ⟨0, 0⟩⟩ : System 1) := .single (.distributeTask rfl)
  obtain ⟨_, _, bs, t, rest, done⟩ := finishes Nat.one_pos run
  exact ⟨_, t, run.append rest, done⟩

end SimTools.PushPull.Pipeline
