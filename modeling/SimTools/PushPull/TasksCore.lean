/- Module: SimTools/PushPull/TasksCore
   digest: tasks_core.cpp: the loops of the ventilator and of the sink, and what a worker does. -/

import SimTools.Lib.Memory

set_option autoImplicit false
set_option relaxedAutoImplicit false

namespace SimTools.PushPull.TasksCore

open Lib.Memory

/-- `memcpy(&data, msg.data(), sizeof(size_t))`, checked against the length of the message. -/
def dataOf (msg : Bytes) : Except MemError UInt64 :=
  if 8 ≤ msg.length then .ok (dwordAt msg 0) else .error .outOfBounds

structure TasksManager where
  i : UInt64
  deriving DecidableEq

structure TaskCollector where
  i : UInt64
  sum : UInt64
  deriving DecidableEq

/-- One iteration of the loop, which is over when there is none. -/
def TasksManager.distributeTasks (GlobalTaskNum : UInt64) (m : TasksManager) :
    Option (TasksManager × Bytes) :=
  if m.i < GlobalTaskNum then some (⟨m.i + 1⟩, dwordBytes m.i) else none

/-- One iteration of the loop, with the message that its `recv` has waited for. -/
def TaskCollector.collectResults (GlobalTaskNum : UInt64) (c : TaskCollector) (msg : Bytes) :
    Option (Except MemError TaskCollector) :=
  if c.i < GlobalTaskNum then some (do
    let data ← dataOf msg
    pure ⟨c.i + 1, c.sum + data⟩)
  else none

/-- `TaskWorker::work` from the receive on. -/
def TaskWorker.work (msgTask : Bytes) : Except MemError Bytes := do
  let data ← dataOf msgTask
  let data := data / 2
  pure (dwordBytes data)

theorem dataOf_dwordBytes (v : UInt64) : dataOf (dwordBytes v) = .ok v := by
  have hread := dwordAt_append [] v []
  rw [List.nil_append, List.append_nil] at hread
  rw [dataOf, if_pos (by simp)]
  exact congrArg Except.ok hread

theorem TaskWorker.work_dwordBytes (v : UInt64) :
    work (dwordBytes v) = .ok (dwordBytes (v / 2)) := by
  simp only [work, dataOf_dwordBytes, bind, Except.bind, pure, Except.pure]

theorem toNat_succ_of_lt {i bound : UInt64} (lt : i < bound) : (i + 1).toNat = i.toNat + 1 := by
  have hi := UInt64.lt_iff_toNat_lt.mp lt
  have hbound := bound.toNat_lt
  rw [UInt64.toNat_add, UInt64.toNat_one, Nat.mod_eq_of_lt (by omega)]

theorem TasksManager.distributeTasks_eq_some {GlobalTaskNum : UInt64} {m m' : TasksManager}
    {msg : Bytes} (run : m.distributeTasks GlobalTaskNum = some (m', msg)) :
    m.i < GlobalTaskNum ∧ m'.i.toNat = m.i.toNat + 1 ∧ msg = dwordBytes m.i := by
  unfold distributeTasks at run
  split at run
  · rename_i lt
    cases run
    exact ⟨lt, toNat_succ_of_lt lt, rfl⟩
  · cases run

theorem TaskCollector.collectResults_dwordBytes {GlobalTaskNum : UInt64} {c : TaskCollector}
    (lt : c.i < GlobalTaskNum) (v : UInt64) :
    c.collectResults GlobalTaskNum (dwordBytes v) = some (.ok ⟨c.i + 1, c.sum + v⟩) := by
  rw [collectResults, if_pos lt, dataOf_dwordBytes]
  rfl

theorem TaskCollector.lt_of_collectResults {GlobalTaskNum : UInt64} {c : TaskCollector}
    {msg : Bytes} {r : Except MemError TaskCollector}
    (run : c.collectResults GlobalTaskNum msg = some r) : c.i < GlobalTaskNum := by
  by_contra ended
  rw [collectResults, if_neg ended] at run
  cases run

end SimTools.PushPull.TasksCore
