/- Module: SimTools/DataCenter/SuperBroker
   digest: super_broker.cpp and cluster_state.cpp: state reports, cluster selection, task routing. -/

import SimTools.DataCenter.ClusterBroker
import SimTools.Lib.Selection

set_option autoImplicit false
set_option relaxedAutoImplicit false

namespace SimTools.DataCenter

open Lib.Memory
open Lib.Selection
open ClusterCore
open TaskHeader
open ClusterBroker (Message Message.isSubmit)

/-- `ClusterStateReporter`: its constructor copies the name, `setClusterState` the count. -/
def stateReport (clusterName : Bytes) (count : UInt32) : Except MemError Bytes := do
  let clusterStateInfo ← copyStringToBuffer ClusterStateInfo.init 0 clusterName
  pure (ClusterStateInfo.setReadyWorkerCount clusterStateInfo count).image

/-- `std::map` keeps its keys in the order of `std::string`, byte by byte. -/
structure SuperBroker where
  clusterInfoMap : Std.TreeMap Bytes ClusterStateInfo

namespace SuperBroker

def init : SuperBroker := ⟨∅⟩

def statePuller (s : SuperBroker) (clusterStateMsg : Bytes) : Except MemError SuperBroker := do
  let clusterState ← ClusterStateInfo.ofMsg clusterStateMsg
  let clusterName ← ClusterStateInfo.clusterName clusterState
  pure ⟨s.clusterInfoMap.insert clusterName clusterState⟩

/-- The body of the loop over `clusterInfoMap_`, on `targetCluster` and `maxCount`. -/
def considerCluster (acc : Bytes × Nat) (name : Bytes) (info : ClusterStateInfo) : Bytes × Nat :=
  let targetCluster := if (ClusterStateInfo.readyWorkerCount info).toNat > acc.2 then name
    else acc.1
  let maxCount := max acc.2 (ClusterStateInfo.readyWorkerCount info).toNat
  (targetCluster, maxCount)

def selectCluster (s : SuperBroker) : Bytes × Nat :=
  s.clusterInfoMap.foldl considerCluster ([], 0)

/-- The common end of `taskRouter`: stamp the target and send header and payload to it. -/
def routeTo (m : Message) (taskMeta : TaskMeta) (targetCluster : Bytes) :
    Except MemError (Option (Bytes × Message)) := do
  let taskMeta ← copyStringToBuffer taskMeta AddrField.toClusterID.offset targetCluster
  let metaMsg ← overwrite m.metaMsg taskMeta.image
  pure (some (stringToZMQMsg targetCluster, ⟨metaMsg, m.payloadMsg⟩))

/-- The branch of `taskRouter` that finds no cluster. -/
def rejectRequest (m : Message) (taskMeta : TaskMeta) :
    Except MemError (Option (Bytes × Message)) := do
  let taskMeta ← swapBuffer taskMeta AddrField.fromID.offset AddrField.toID.offset
  let taskMeta ← swapBuffer taskMeta AddrField.fromClusterID.offset AddrField.toClusterID.offset
  let taskMeta := TaskMeta.setTaskDirection taskMeta .taskReplyRejected
  let toClusterID ← TaskMeta.addr taskMeta .toClusterID
  let metaMsg ← overwrite m.metaMsg taskMeta.image
  pure (some (stringToZMQMsg toClusterID, ⟨metaMsg, (TaskReply.ofSum 0).image⟩))

/-- The message to send with the identity frame that routes it. The identity frame of the
received message is not used. The log lines, which read the names too, are in `LogLines`. -/
def taskRouter (s : SuperBroker) (m : Message) : Except MemError (Option (Bytes × Message)) := do
  let taskMeta ← TaskMeta.ofMsg m.metaMsg
  if TaskMeta.taskType taskMeta = TaskType.aliveSignal.code then
    pure none
  else if TaskMeta.taskDirection taskMeta = TaskDirection.taskSubmit.code then do
    let fromID ← TaskMeta.addr taskMeta .fromID
    if fromID = [] then pure none
    else do
      let fromClusterID ← TaskMeta.addr taskMeta .fromClusterID
      if fromClusterID = [] then pure none
      else
        let selected := s.selectCluster
        if selected.2 = 0 ∨ selected.1 = [] then rejectRequest m taskMeta
        else routeTo m taskMeta selected.1
  else do
    let toClusterID ← TaskMeta.addr taskMeta .toClusterID
    routeTo m taskMeta toClusterID

def reportedCount (s : SuperBroker) (name : Bytes) : Option Nat :=
  s.clusterInfoMap[name]?.map (fun info => (ClusterStateInfo.readyWorkerCount info).toNat)

theorem selectCluster_eq (s : SuperBroker) :
    s.selectCluster = s.clusterInfoMap.toList.foldl
      (scan (fun x => (ClusterStateInfo.readyWorkerCount x.2).toNat) Prod.fst) ([], 0) := by
  rw [selectCluster, Std.TreeMap.foldl_eq_foldl_toList]
  rfl

/-- The loop ends at the first cluster of the map with the largest count, if one is positive. -/
theorem selectCluster_cases (s : SuperBroker) :
    (s.selectCluster = ([], 0) ∧ ∀ name n, s.reportedCount name = some n → n = 0) ∨
    ∃ name info, FirstMax (fun x : Bytes × ClusterStateInfo =>
        (ClusterStateInfo.readyWorkerCount x.2).toNat) s.clusterInfoMap.toList (name, info) ∧
      s.reportedCount name = some (ClusterStateInfo.readyWorkerCount info).toNat ∧
      0 < (ClusterStateInfo.readyWorkerCount info).toNat ∧
      s.selectCluster = (name, (ClusterStateInfo.readyWorkerCount info).toNat) := by
  rw [selectCluster_eq]
  rcases foldl_scan (fun x : Bytes × ClusterStateInfo =>
      (ClusterStateInfo.readyWorkerCount x.2).toNat) Prod.fst s.clusterInfoMap.toList ([], 0) with
    ⟨hsame, hle⟩ | ⟨⟨name, info⟩, hmax, hpos, heq⟩
  · left
    refine ⟨hsame, ?_⟩
    intro name n hn
    obtain ⟨info, hinfo, rfl⟩ := Option.map_eq_some_iff.mp hn
    exact Nat.le_zero.mp (hle _ (Std.TreeMap.mem_toList_iff_getElem?_eq_some.mpr hinfo))
  · right
    refine ⟨name, info, hmax, ?_, hpos, heq⟩
    have hinfo := Std.TreeMap.mem_toList_iff_getElem?_eq_some.mp hmax.mem
    rw [reportedCount, hinfo]
    rfl

@[simp] theorem reportedCount_init (name : Bytes) : init.reportedCount name = none := by
  simp [reportedCount, init]

theorem statePuller_stateReport (s : SuperBroker) (c : Name) (count : UInt32) :
    ∃ msg info, stateReport c.bytes count = .ok msg ∧
      s.statePuller msg = .ok ⟨s.clusterInfoMap.insert c.bytes info⟩ ∧
      ClusterStateInfo.readyWorkerCount info = count := by
  have hshort : c.bytes.length < 32 := c.short
  have hstr : (c.bytes ++ [0]).length = c.bytes.length + 1 := by simp
  have hcount : (wordBytes count).length = 4 := length_wordBytes count
  have hnul : ([0] : Bytes).length = 1 := rfl
  have hinit : ClusterStateInfo.init.image.length = 36 := ClusterStateInfo.init.size_eq
  obtain ⟨i1, hi1, image1⟩ := ClusterStateInfo.init.store_eq_ok 0 (c.bytes ++ [0])
    (by simp only [sizeofClusterStateInfo]; omega)
  obtain ⟨i2, hi2, image2⟩ := i1.store_eq_ok 31 [0] (by simp only [sizeofClusterStateInfo]; omega)
  have hlen1 : i1.image.length = 36 := i1.size_eq
  have hlen2 : i2.image.length = 36 := i2.size_eq
  have hname1 : StrAt i1.image 0 c.bytes := by
    rw [image1]
    exact strAt_patch_self c.nul_free (by omega)
  have hname2 : StrAt i2.image 0 c.bytes := by
    rw [image2]
    simpa using hname1.patch_nul (show c.bytes.length ≤ 31 by omega) (by omega)
  have hname3 : StrAt (ClusterStateInfo.setReadyWorkerCount i2 count).image 0 c.bytes :=
    hname2.patch_of_disjoint (by omega) (by omega)
  have hcopy : copyStringToBuffer ClusterStateInfo.init 0 c.bytes = .ok i2 := by
    simp only [copyStringToBuffer, hi1]
    exact hi2
  refine ⟨(ClusterStateInfo.setReadyWorkerCount i2 count).image,
    ClusterStateInfo.setReadyWorkerCount i2 count, ?_, ?_, wordAt_patch_self _ (by omega)⟩
  · simp only [stateReport, hcopy, bind, Except.bind, pure, Except.pure]
  · have hmsg : ClusterStateInfo.ofMsg (ClusterStateInfo.setReadyWorkerCount i2 count).image =
        .ok (ClusterStateInfo.setReadyWorkerCount i2 count) :=
      Obj.store_whole ClusterStateInfo.init (Obj.size_eq _)
    simp only [statePuller, hmsg, ClusterStateInfo.clusterName, hname3.cstring_eq, bind,
      Except.bind, pure, Except.pure]

theorem count_of_stateReport {clusterName : Bytes} {count : UInt32} {msg : Bytes}
    (reported : stateReport clusterName count = .ok msg) : wordAt msg 32 = count := by
  obtain ⟨info, _, run⟩ := bind_eq_ok reported
  cases run
  have hlen : info.image.length = 36 := info.size_eq
  exact wordAt_patch_self _ (by omega)

theorem reportedCount_insert (s : SuperBroker) (c name : Bytes) (info : ClusterStateInfo) :
    (⟨s.clusterInfoMap.insert c info⟩ : SuperBroker).reportedCount name =
      if c = name then some (ClusterStateInfo.readyWorkerCount info).toNat
      else s.reportedCount name := by
  simp only [reportedCount, Std.TreeMap.getElem?_insert, Std.LawfulEqCmp.compare_eq_iff_eq]
  split <;> rfl

section TaskRouter

variable {s : SuperBroker} {m : Message} {h : Header}

theorem taskRouter_alive (shown : Carries m.metaMsg h) (alive : h.taskType = .aliveSignal) :
    s.taskRouter m = .ok none := by
  obtain ⟨tm, hm, r⟩ := shown
  simp only [taskRouter, hm, ofMsg_image, r.taskType, alive, ↓reduceIte, bind, Except.bind, pure,
    Except.pure]

theorem taskRouter_null (shown : Carries m.metaMsg h) (normal : h.taskType = .normalTask)
    (submit : h.taskDirection = .taskSubmit)
    (null : (h.addr .fromID).bytes = [] ∨ (h.addr .fromClusterID).bytes = []) :
    s.taskRouter m = .ok none := by
  obtain ⟨tm, hm, r⟩ := shown
  have hrun : s.taskRouter m = if (h.addr .fromID).bytes = [] then .ok none
      else if (h.addr .fromClusterID).bytes = [] then .ok none
      else if s.selectCluster.2 = 0 ∨ s.selectCluster.1 = [] then rejectRequest m tm
      else routeTo m tm s.selectCluster.1 := by
    simp only [taskRouter, hm, ofMsg_image, r.taskType, normal, ClusterBroker.code_normal_ne_alive,
      r.taskDirection, submit, ↓reduceIte, r.addr_eq, bind, Except.bind, pure, Except.pure]
  rw [hrun]
  rcases null with hid | hcluster
  · rw [if_pos hid]
  · rw [if_pos hcluster, ite_self]

theorem routeTo_eq {tm : TaskMeta} (hm : m.metaMsg = tm.image) (r : Represents tm h) (c : Name) :
    ∃ metaMsg, Carries metaMsg (h.setAddr .toClusterID c) ∧
      routeTo m tm c.bytes = .ok (some (c.identity, ⟨metaMsg, m.payloadMsg⟩)) := by
  obtain ⟨m1, hm1, r1⟩ := r.copy .toClusterID c
  refine ⟨m1.image, r1.carries, ?_⟩
  simp only [routeTo, hm1, hm, overwrite_image, bind, Except.bind, pure, Except.pure]
  rfl

theorem taskRouter_answer (shown : Carries m.metaMsg h) (normal : h.taskType = .normalTask)
    (answer : h.taskDirection ≠ .taskSubmit) :
    ∃ metaMsg, Carries metaMsg h ∧
      s.taskRouter m = .ok (some ((h.addr .toClusterID).identity, ⟨metaMsg, m.payloadMsg⟩)) := by
  obtain ⟨tm, hm, r⟩ := shown
  obtain ⟨metaMsg, hcarries, hroute⟩ := routeTo_eq hm r (h.addr .toClusterID)
  rw [Header.setAddr_addr] at hcarries
  refine ⟨metaMsg, hcarries, ?_⟩
  rw [← hroute]
  simp only [taskRouter, hm, ofMsg_image, r.taskType, normal, ClusterBroker.code_normal_ne_alive,
    r.taskDirection, ClusterBroker.code_submit_iff, answer, ↓reduceIte, r.addr_eq, bind,
      Except.bind]

/-- A request goes to the selected cluster, or back with a rejection if none is selected. -/
theorem taskRouter_submit (shown : Carries m.metaMsg h) (normal : h.taskType = .normalTask)
    (submit : h.taskDirection = .taskSubmit) (client : (h.addr .fromID).bytes ≠ [])
    (cluster : (h.addr .fromClusterID).bytes ≠ []) :
    (∀ c : Name, c.bytes ≠ [] → ∀ n, n ≠ 0 → s.selectCluster = (c.bytes, n) →
      ∃ metaMsg, Carries metaMsg (h.setAddr .toClusterID c) ∧
        s.taskRouter m = .ok (some (c.identity, ⟨metaMsg, m.payloadMsg⟩))) ∧
    (s.selectCluster = ([], 0) → ∃ metaMsg, Carries metaMsg h.rejected ∧
      s.taskRouter m = .ok (some ((h.addr .fromClusterID).identity,
        ⟨metaMsg, (TaskReply.ofSum 0).image⟩))) := by
  obtain ⟨tm, hm, r⟩ := shown
  have hrun : s.taskRouter m =
      if s.selectCluster.2 = 0 ∨ s.selectCluster.1 = [] then rejectRequest m tm
      else routeTo m tm s.selectCluster.1 := by
    simp only [taskRouter, hm, ofMsg_image, r.taskType, normal, ClusterBroker.code_normal_ne_alive,
      r.taskDirection, submit, ↓reduceIte, r.addr_eq, client, cluster, bind, Except.bind]
  constructor
  · intro c hc n hn hsel
    obtain ⟨metaMsg, hcarries, hroute⟩ := routeTo_eq hm r c
    refine ⟨metaMsg, hcarries, ?_⟩
    rw [hrun, hsel, if_neg (by simp [hn, hc])]
    exact hroute
  · intro hsel
    have hids : AddrField.fromID ≠ AddrField.toID := by decide
    have hclusters : AddrField.fromClusterID ≠ AddrField.toClusterID := by decide
    obtain ⟨m1, hm1, r1⟩ := r.swap hids
    obtain ⟨m2, hm2, r2⟩ := r1.swap hclusters
    have r3 := r2.setTaskDirection .taskReplyRejected
    refine ⟨_, r3.carries, ?_⟩
    rw [hrun, hsel, if_pos (.inl rfl), ← Header.rejected_toClusterID h]
    simp only [rejectRequest, hm, hm1, hm2, r3.addr_eq, overwrite_image, bind, Except.bind, pure,
      Except.pure]
    rfl

theorem taskRouter_assigns (shown : Carries m.metaMsg h) (normal : h.taskType = .normalTask)
    (submit : h.taskDirection = .taskSubmit) (client : (h.addr .fromID).bytes ≠ [])
    (cluster : (h.addr .fromClusterID).bytes ≠ []) {c : Name} (named : c.bytes ≠ []) {n : Nat}
    (positive : n ≠ 0) (selected : s.selectCluster = (c.bytes, n)) :
    m.isSubmit = true ∧
      ∃ m', s.taskRouter m = .ok (some (c.identity, m')) ∧ m'.isSubmit = true := by
  obtain ⟨assigned, _⟩ := taskRouter_submit (s := s) shown normal submit client cluster
  obtain ⟨metaMsg, hcarries, hrun⟩ := assigned c named n positive selected
  refine ⟨(Message.isSubmit_iff shown).mpr submit, ⟨metaMsg, m.payloadMsg⟩, hrun, ?_⟩
  exact (Message.isSubmit_iff (m := ⟨metaMsg, m.payloadMsg⟩) hcarries).mpr submit

theorem rejectRequest_ok {tm : TaskMeta} {identity : Bytes} {m' : Message}
    (read : TaskMeta.ofMsg m.metaMsg = .ok tm)
    (run : rejectRequest m tm = .ok (some (identity, m'))) :
    m'.isSubmit = false := by
  obtain ⟨tm1, _, run⟩ := bind_eq_ok run
  obtain ⟨tm2, _, run⟩ := bind_eq_ok run
  obtain ⟨toClusterID, _, run⟩ := bind_eq_ok run
  obtain ⟨metaMsg, hwrite, run⟩ := bind_eq_ok run
  cases run
  obtain ⟨_, hmeta⟩ := eq_of_ofMsg_overwrite read hwrite
  have hlen : tm2.image.length = 144 := tm2.size_eq
  have hword : wordAt metaMsg 140 = TaskDirection.taskReplyRejected.code := by
    rw [hmeta]
    exact wordAt_patch_self _ (by omega)
  rw [Message.isSubmit, hword]
  decide

theorem taskRouter_forwards {identity : Bytes} {m' : Message}
    (run : s.taskRouter m = .ok (some (identity, m'))) (hm : m.isSubmit = true)
    (hm' : m'.isSubmit = true) :
    s.selectCluster.2 ≠ 0 ∧ s.selectCluster.1 ≠ [] ∧
      identity = stringToZMQMsg s.selectCluster.1 := by
  obtain ⟨tm, hread, run⟩ := bind_eq_ok run
  split at run
  · cases run
  · split at run
    · obtain ⟨fromID, _, run⟩ := bind_eq_ok run
      split at run
      · cases run
      · obtain ⟨fromClusterID, _, run⟩ := bind_eq_ok run
        split at run
        · cases run
        · dsimp only at run
          split at run
          · rw [rejectRequest_ok hread run] at hm'
            cases hm'
          · rename_i selected
            rw [not_or] at selected
            obtain ⟨tm1, _, run⟩ := bind_eq_ok run
            obtain ⟨metaMsg, _, run⟩ := bind_eq_ok run
            cases run
            exact ⟨selected.1, selected.2, rfl⟩
    · rename_i answer
      obtain ⟨toClusterID, _, run⟩ := bind_eq_ok run
      obtain ⟨tm1, _, run⟩ := bind_eq_ok run
      obtain ⟨metaMsg, hwrite, run⟩ := bind_eq_ok run
      obtain ⟨hmeta, _⟩ := eq_of_ofMsg_overwrite hread hwrite
      rw [Message.isSubmit, hmeta] at hm
      exact absurd (of_decide_eq_true hm) answer

end TaskRouter

end SuperBroker

end SimTools.DataCenter
