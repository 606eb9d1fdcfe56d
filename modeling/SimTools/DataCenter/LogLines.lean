/- Module: SimTools/DataCenter/LogLines
   digest: The brokers' handlers with their log lines, and when each of them comes to its end. -/

import SimTools.DataCenter.Stamping
import SimTools.DataCenter.Workers
import SimTools.Lib.Checked

set_option autoImplicit false
set_option relaxedAutoImplicit false

namespace SimTools.DataCenter.LogLines

open Lib.Memory
open Lib.Checked
open ClusterCore
open TaskHeader
open ClusterBroker

/-- `LOG_0 << ... << taskMeta.taskAddr.fromID << ...`: each buffer that is printed is read as a
C string. -/
def log (taskMeta : TaskMeta) : List AddrField → Except MemError Unit
  | [] => pure ()
  | f :: fields => do
    let _ ← TaskMeta.addr taskMeta f
    log taskMeta fields

/-! The handlers of the brokers once more, now with their log lines. Both programs set `FLAGS_v` to
0, so that `LOG_1` reads nothing; `statePuller` has no log line. -/

def routeTo (m : Message) (taskMeta : TaskMeta) (targetCluster : Bytes) :
    Except MemError (Option (Bytes × Message)) := do
  let taskMeta ← copyStringToBuffer taskMeta AddrField.toClusterID.offset targetCluster
  log taskMeta [.fromClusterID, .toClusterID]
  let metaMsg ← overwrite m.metaMsg taskMeta.image
  pure (some (stringToZMQMsg targetCluster, ⟨metaMsg, m.payloadMsg⟩))

def rejectRequest (m : Message) (taskMeta : TaskMeta) :
    Except MemError (Option (Bytes × Message)) := do
  let taskMeta ← swapBuffer taskMeta AddrField.fromID.offset AddrField.toID.offset
  let taskMeta ← swapBuffer taskMeta AddrField.fromClusterID.offset AddrField.toClusterID.offset
  log taskMeta [.fromClusterID, .fromID, .toClusterID, .toID]
  let taskMeta := TaskMeta.setTaskDirection taskMeta .taskReplyRejected
  let toClusterID ← TaskMeta.addr taskMeta .toClusterID
  let metaMsg ← overwrite m.metaMsg taskMeta.image
  pure (some (stringToZMQMsg toClusterID, ⟨metaMsg, (TaskReply.ofSum 0).image⟩))

def taskRouter (s : SuperBroker) (m : Message) : Except MemError (Option (Bytes × Message)) := do
  let taskMeta ← TaskMeta.ofMsg m.metaMsg
  if TaskMeta.taskType taskMeta = TaskType.aliveSignal.code then do
    log taskMeta [.fromClusterID]
    pure none
  else if TaskMeta.taskDirection taskMeta = TaskDirection.taskSubmit.code then do
    log taskMeta [.fromClusterID, .toClusterID, .fromID, .toID]
    let fromID ← TaskMeta.addr taskMeta .fromID
    if fromID = [] then pure none
    else do
      let fromClusterID ← TaskMeta.addr taskMeta .fromClusterID
      if fromClusterID = [] then pure none
      else
        let selected := s.selectCluster
        if selected.2 = 0 ∨ selected.1 = [] then rejectRequest m taskMeta
        else routeTo m taskMeta selected.1
  else do
    log taskMeta [.fromClusterID, .toClusterID, .fromID, .toID]
    let toClusterID ← TaskMeta.addr taskMeta .toClusterID
    routeTo m taskMeta toClusterID

def routeCloud (b : LocalBalanceBroker) (m : Message) :
    Except MemError (LocalBalanceBroker × Option Outgoing) := do
  let taskMeta ← TaskMeta.ofMsg m.metaMsg
  if TaskMeta.taskDirection taskMeta = TaskDirection.taskSubmit.code then do
    let b := b.storeCount
    if b.readyWorkerCount > 0 then do
      let workerID ← b.front
      let b := b.pop.storeCount
      let taskMeta ← copyStringToBuffer taskMeta AddrField.toClusterID.offset b.clusterName
      let taskMeta ← copyStringToBuffer taskMeta AddrField.toID.offset workerID
      log taskMeta [.fromClusterID, .toClusterID]
      pure (b, some (.backEnd (stringToZMQMsg workerID) m))
    else do
      let taskMeta ← swapBuffer taskMeta AddrField.fromID.offset AddrField.toID.offset
      let taskMeta ← swapBuffer taskMeta AddrField.fromClusterID.offset AddrField.toClusterID.offset
      log taskMeta [.fromClusterID, .toClusterID, .fromID, .toID]
      let taskMeta := TaskMeta.setTaskDirection taskMeta .taskReplyRejected
      let metaMsg ← overwrite m.metaMsg taskMeta.image
      let _ ← TaskMeta.addr taskMeta .toClusterID
      pure (b, some (.cloudTask ⟨metaMsg, (TaskReply.ofSum 0).image⟩))
  else do
    let toID ← TaskMeta.addr taskMeta .toID
    log taskMeta [.fromClusterID, .toClusterID]
    pure (b, some (.frontEnd (stringToZMQMsg toID) m))

def routeLocalRequest (b : LocalBalanceBroker) (m : Message) :
    Except MemError (LocalBalanceBroker × Option Outgoing) := do
  let taskMeta ← TaskMeta.ofMsg m.metaMsg
  let taskMeta ← copyStringToBuffer taskMeta AddrField.fromClusterID.offset b.clusterName
  if b.workReadyQueue.length > 0 then do
    let workerID ← b.front
    let b := b.pop.storeCount
    let taskMeta ← copyStringToBuffer taskMeta AddrField.toClusterID.offset b.clusterName
    let taskMeta ← copyStringToBuffer taskMeta AddrField.toID.offset workerID
    let metaMsg ← overwrite m.metaMsg taskMeta.image
    pure (b, some (.backEnd (stringToZMQMsg workerID) ⟨metaMsg, m.payloadMsg⟩))
  else do
    let metaMsg ← overwrite m.metaMsg taskMeta.image
    log taskMeta [.fromID]
    pure (b, some (.cloudTask ⟨metaMsg, m.payloadMsg⟩))

def routeLocalReply (b : LocalBalanceBroker) (m : Message) :
    Except MemError (LocalBalanceBroker × Option Outgoing) := do
  let taskMeta ← TaskMeta.ofMsg m.metaMsg
  let fromID ← TaskMeta.addr taskMeta .fromID
  let b := (b.push fromID).storeCount
  if TaskMeta.taskType taskMeta = TaskType.aliveSignal.code then do
    log taskMeta [.fromID]
    pure (b, none)
  else do
    let fromClusterID ← TaskMeta.addr taskMeta .fromClusterID
    let taskMeta ← copyStringToBuffer taskMeta AddrField.toClusterID.offset fromClusterID
    let taskMeta ← copyStringToBuffer taskMeta AddrField.fromClusterID.offset b.clusterName
    let metaMsg ← overwrite m.metaMsg taskMeta.image
    let toClusterID ← TaskMeta.addr taskMeta .toClusterID
    if b.clusterName = toClusterID then do
      let toID ← TaskMeta.addr taskMeta .toID
      pure (b, some (.frontEnd (stringToZMQMsg toID) ⟨metaMsg, m.payloadMsg⟩))
    else do
      log taskMeta [.fromID, .toID, .fromClusterID, .toClusterID]
      pure (b, some (.cloudTask ⟨metaMsg, m.payloadMsg⟩))

section Erasure

variable (s : SuperBroker) (b : LocalBalanceBroker) (m : Message)

theorem follows_routeTo (taskMeta : TaskMeta) (targetCluster : Bytes) :
    Follows (routeTo m taskMeta targetCluster) (SuperBroker.routeTo m taskMeta targetCluster) :=
  .bind fun _ => .skip fun _ => .refl _

theorem follows_rejectRequest (taskMeta : TaskMeta) :
    Follows (rejectRequest m taskMeta) (SuperBroker.rejectRequest m taskMeta) :=
  .bind fun _ => .bind fun _ => .skip fun _ => .refl _

/-- What a handler does with its log lines, it does without them. -/
theorem follows_taskRouter : Follows (taskRouter s m) (s.taskRouter m) := by
  refine .bind fun taskMeta => .ite (.skip fun _ => .refl _) (.ite ?_ ?_)
  · refine .skip fun _ => .bind fun _ => .ite (.refl _) (.bind fun _ => .ite (.refl _) ?_)
    exact .ite (follows_rejectRequest m taskMeta) (follows_routeTo m taskMeta _)
  · exact .skip fun _ => .bind fun _ => follows_routeTo m taskMeta _

theorem follows_routeCloud : Follows (routeCloud b m) (b.routeCloud m) := by
  refine .bind fun taskMeta => .ite (.ite ?_ ?_) ?_
  · exact .bind fun _ => .bind fun _ => .bind fun _ => .skip fun _ => .refl _
  · exact .bind fun _ => .bind fun _ => .skip fun _ => .refl _
  · exact .bind fun _ => .skip fun _ => .refl _

theorem follows_routeLocalRequest : Follows (routeLocalRequest b m) (b.routeLocalRequest m) :=
  .bind fun _ => .bind fun _ => .ite (.refl _) (.bind fun _ => .skip fun _ => .refl _)

theorem follows_routeLocalReply : Follows (routeLocalReply b m) (b.routeLocalReply m) := by
  refine .bind fun _ => .bind fun _ => .ite (.skip fun _ => .refl _) ?_
  refine .bind fun _ => .bind fun _ => .bind fun _ => .bind fun _ => .bind fun _ => ?_
  exact .ite (.refl _) (.skip fun _ => .refl _)

end Erasure

/-! What the bytes of a header decide. -/

abbrev IsAlive (header : Bytes) : Prop := wordAt header 136 = TaskType.aliveSignal.code

abbrev IsSubmit (header : Bytes) : Prop := wordAt header 140 = TaskDirection.taskSubmit.code

/-- A C string that begins with the field ends inside the header. -/
def Ends (header : Bytes) (f : AddrField) : Prop := 0 ∈ header.drop f.offset

def Blank (header : Bytes) (f : AddrField) : Prop := header[f.offset]? = some 0

/-- The string lies inside the header when it is copied to the field. -/
def Stampable (f : AddrField) (str : Bytes) : Prop := f.offset + str.length < sizeofTaskMeta

/-- An alive signal, or a request that names no client or no cluster. -/
def Idle (header : Bytes) : Prop :=
  IsAlive header ∨ IsSubmit header ∧ (Blank header .fromID ∨ Blank header .fromClusterID)

/-- A request needs a cluster whose name can be stamped, unless none is selected, and an answer
needs names that end. -/
def Routable (s : SuperBroker) (header : Bytes) : Prop :=
  (IsSubmit header → (s.selectCluster.2 = 0 ∨ s.selectCluster.1 = []) ∨
    Stampable .toClusterID s.selectCluster.1) ∧
  (¬ IsSubmit header → Ends header .toID)

section Bytes

variable {header : Bytes} {f : AddrField}

theorem mem_drop_of_getElem? {k i : Nat} (zero : header[i]? = some 0) (behind : k ≤ i) :
    0 ∈ header.drop k := by
  refine List.mem_of_getElem? (i := i - k) ?_
  rw [List.getElem?_drop, ← zero]
  congr 1
  omega

theorem Ends.of_getElem? {i : Nat} (zero : header[i]? = some 0) (behind : 96 ≤ i) (f : AddrField) :
    Ends header f := by
  have := Stamping.offset_le f
  exact mem_drop_of_getElem? zero (by omega)

theorem Ends.of_toID (ends : Ends header .toID) (f : AddrField) : Ends header f := by
  have := Stamping.offset_le f
  obtain ⟨i, hi⟩ := List.getElem?_of_mem ends
  rw [List.getElem?_drop] at hi
  exact mem_drop_of_getElem? hi (by simp only [AddrField.offset] at *; omega)

theorem succeeds_cstring_iff (header : Bytes) (off : Nat) :
    Succeeds (cstring header off) ↔ 0 ∈ header.drop off := by
  rw [cstring]
  split
  · rename_i ends
    exact iff_of_true ⟨_, rfl⟩ ends
  · rename_i endless
    exact iff_of_false (by rintro ⟨_, read⟩; cases read) endless

theorem ends_iff : Ends header f ↔ ∃ str, StrAt header f.offset str :=
  (succeeds_cstring_iff header f.offset).symm.trans (exists_congr fun _ => cstring_eq_ok_iff)

theorem strAt_nil_iff : StrAt header f.offset [] ↔ Blank header f := by
  have hslice : slice header f.offset 1 = [0] ↔ Blank header f := by
    rw [slice, Blank, ← List.head?_drop]
    cases header.drop f.offset with
    | nil => simp
    | cons b rest => simp
  exact ⟨fun here => hslice.mp here.slice_eq, fun blank => ⟨by simp, hslice.mpr blank⟩⟩

theorem getElem?_of_wordAt {off : Nat} {w : UInt32} (here : wordAt header off = w)
    (small : w.toNat < 256 ^ 3) (fits : off + 4 ≤ header.length) :
    header[off + 3]? = some 0 := by
  have hbytes := wordBytes_wordAt fits
  rw [here] at hbytes
  have hlast := getElem?_slice header off 4 3
  rw [← hbytes, if_pos (by omega)] at hlast
  have htop : w.toNat / 256 / 256 / 256 = 0 := by omega
  rw [← hlast, wordBytes]
  simp [leBytes, htop]

theorem IsSubmit.ends (submit : IsSubmit header) (whole : header.length = 144) (f : AddrField) :
    Ends header f :=
  .of_getElem? (getElem?_of_wordAt submit (by decide) (by omega)) (by omega) f

theorem IsAlive.ends (alive : IsAlive header) (whole : header.length = 144) (f : AddrField) :
    Ends header f :=
  .of_getElem? (getElem?_of_wordAt alive (by decide) (by omega)) (by omega) f

end Bytes

section Headers

variable {m m' : TaskMeta} {f g : AddrField} {str : Bytes}

theorem succeeds_copy_iff : Succeeds (copyStringToBuffer m f.offset str) ↔ Stampable f str := by
  constructor
  · rintro ⟨_, copied⟩
    exact (Stamping.byte_of_copy copied).1
  · exact Stamping.copy_fits

/-- Behind a copy a string ends at one of the two NULs of the copy, or where it did before. -/
theorem ends_of_copy (copied : copyStringToBuffer m f.offset str = .ok m') (g : AddrField) :
    Ends m'.image g ↔ g.offset ≤ f.offset + max 31 str.length ∨ Ends m.image g := by
  obtain ⟨_, _, hbyte⟩ := Stamping.byte_of_copy copied
  rcases Nat.lt_or_ge (f.offset + max 31 str.length) g.offset with behind | before
  · rw [or_iff_right (by omega)]
    have hsame : m'.image.drop g.offset = m.image.drop g.offset := by
      refine List.ext_getElem? fun i => ?_
      have hi := hbyte (g.offset - f.offset + i)
      rw [if_neg (by omega), if_neg (by omega)] at hi
      rw [List.getElem?_drop, List.getElem?_drop,
        show g.offset + i = f.offset + (g.offset - f.offset + i) by omega, hi]
    rw [Ends, Ends, hsame]
  · refine iff_of_true ?_ (.inl before)
    have hnul : m'.image[f.offset + max 31 str.length]? = some 0 := by
      rw [hbyte]
      rcases Nat.le_total str.length 31 with short | long
      · rw [if_pos (by omega)]
      · split
        · rfl
        · rw [if_pos (by omega), Nat.max_eq_right long, List.getElem?_append_right (Nat.le_refl _),
            Nat.sub_self]
          rfl
    exact mem_drop_of_getElem? hnul before

theorem addr_eq_ok_iff : TaskMeta.addr m f = .ok str ↔ StrAt m.image f.offset str :=
  cstring_eq_ok_iff

theorem succeeds_log_iff (m : TaskMeta) (fields : List AddrField) :
    Succeeds (log m fields) ↔ ∀ f ∈ fields, Ends m.image f := by
  induction fields with
  | nil => exact iff_of_true (succeeds_pure _) (List.forall_mem_nil _)
  | cons f fields ih =>
    rw [List.forall_mem_cons, ends_iff, ← ih, log, succeeds_bind_iff fun _ _ => Iff.rfl]
    exact and_congr_left' (exists_congr fun _ => addr_eq_ok_iff)

theorem stampable_of_strAt (here : StrAt m.image f.offset str) : Stampable f str := by
  have hlen := congrArg List.length here.slice_eq
  rw [slice, List.length_take, List.length_drop, m.size_eq, List.length_append,
    List.length_singleton] at hlen
  rw [Stampable]
  omega

theorem succeeds_overwrite_iff (msg : Bytes) (m : TaskMeta) :
    Succeeds (overwrite msg m.image) ↔ 144 ≤ msg.length := by
  have hlen : m.image.length = 144 := m.size_eq
  rw [overwrite, hlen]
  split
  · rename_i fits
    exact iff_of_true ⟨_, rfl⟩ fits
  · rename_i short
    exact iff_of_false (by rintro ⟨_, copied⟩; cases copied) short

theorem swap_cases (m : TaskMeta) (f g : AddrField) :
    ∃ m', swapBuffer m f.offset g.offset = .ok m' ∧ ∀ i, 128 ≤ i → m'.image[i]? = m.image[i]? := by
  have hbound := Stamping.offset_le
  have hload : ∀ k : AddrField, Obj.load m k.offset kMaxNameSize =
      .ok (slice m.image k.offset kMaxNameSize) := by
    intro k
    have := hbound k
    exact Obj.load_eq_ok (by simp only [kMaxNameSize, sizeofTaskMeta]; omega)
  have hsize : ∀ k : AddrField, (slice m.image k.offset kMaxNameSize).length = 32 := by
    intro k
    have := hbound k
    exact length_slice (by rw [m.size_eq]; simp only [kMaxNameSize, sizeofTaskMeta]; omega)
  have hstore : ∀ (x : TaskMeta) (k l : AddrField), ∃ x' : TaskMeta,
      x.store k.offset (slice m.image l.offset kMaxNameSize) = .ok x' ∧
        ∀ i, 128 ≤ i → x'.image[i]? = x.image[i]? := by
    intro x k l
    have := hbound k
    have hsl := hsize l
    obtain ⟨x', hx', image⟩ := x.store_eq_ok k.offset (slice m.image l.offset kMaxNameSize)
      (by simp only [hsl, sizeofTaskMeta]; omega)
    refine ⟨x', hx', fun i hi => ?_⟩
    rw [image, getElem?_patch_of_outside _ (.inr (by omega))]
    rw [hsl, x.size_eq]
    simp only [sizeofTaskMeta]
    omega
  obtain ⟨m1, hm1, hsame1⟩ := hstore m f g
  obtain ⟨m2, hm2, hsame2⟩ := hstore m1 g f
  refine ⟨m2, ?_, fun i hi => (hsame2 i hi).trans (hsame1 i hi)⟩
  simp only [swapBuffer, hload, hm1, bind, Except.bind]
  exact hm2

theorem ends_rejected (m : TaskMeta) (f : AddrField) :
    Ends (TaskMeta.setTaskDirection m .taskReplyRejected).image f := by
  have hlen : m.image.length = 144 := m.size_eq
  refine .of_getElem? (i := 143) ?_ (by omega) f
  exact getElem?_patch_of_inside (by rw [length_wordBytes]; omega) (by omega)
    (by rw [length_wordBytes]; omega)

end Headers

section Steps

/-! The first step of a handler, and what it asks for so that the rest can succeed. -/

variable {A : Type} {m : TaskMeta} {f g : AddrField} {str : Bytes}

theorem succeeds_copy_bind {k : TaskMeta → Except MemError A} {p : Prop}
    (rest : ∀ m', copyStringToBuffer m f.offset str = .ok m' → (Succeeds (k m') ↔ p)) :
    Succeeds (copyStringToBuffer m f.offset str >>= k) ↔ Stampable f str ∧ p := by
  rw [succeeds_bind_iff rest, succeeds_copy_iff]

theorem succeeds_addr_bind {k : Bytes → Except MemError A} {p : Prop}
    (rest : ∀ str, StrAt m.image f.offset str → (Succeeds (k str) ↔ p)) :
    Succeeds (TaskMeta.addr m f >>= k) ↔ Ends m.image f ∧ p := by
  rw [succeeds_bind_iff fun str read => rest str (addr_eq_ok_iff.mp read), ends_iff]
  exact and_congr_left' (exists_congr fun _ => addr_eq_ok_iff)

theorem succeeds_log_bind {k : Unit → Except MemError A} {fields : List AddrField} {p : Prop}
    (rest : Succeeds (k ()) ↔ p) :
    Succeeds (log m fields >>= k) ↔ (∀ f ∈ fields, Ends m.image f) ∧ p := by
  rw [succeeds_bind_iff fun _ _ => rest, succeeds_log_iff]

theorem succeeds_log_pure (a : A) (fields : List AddrField) :
    Succeeds (log m fields >>= fun _ => pure a) ↔ ∀ f ∈ fields, Ends m.image f := by
  rw [succeeds_log_bind (iff_true_intro (succeeds_pure a)), and_true]

theorem succeeds_overwrite_bind {k : Bytes → Except MemError A} {msg : Bytes}
    (rest : ∀ metaMsg, Succeeds (k metaMsg)) :
    Succeeds (overwrite msg m.image >>= k) ↔ 144 ≤ msg.length := by
  rw [succeeds_bind_iff fun metaMsg _ => iff_true_intro (rest metaMsg), succeeds_overwrite_iff,
    and_true]

theorem succeeds_swap_bind {k : TaskMeta → Except MemError A} {p : Prop}
    (rest : ∀ m', (∀ i, 128 ≤ i → m'.image[i]? = m.image[i]?) → (Succeeds (k m') ↔ p)) :
    Succeeds (swapBuffer m f.offset g.offset >>= k) ↔ p := by
  obtain ⟨m', hswap, hsame⟩ := swap_cases m f g
  rw [hswap]
  exact rest m' hsame

end Steps

theorem ends_behind_toClusterID {taskMeta stamped : TaskMeta} {str : Bytes}
    (copied : copyStringToBuffer taskMeta AddrField.toClusterID.offset str = .ok stamped) :
    ∀ f ∈ [AddrField.fromClusterID, .toClusterID], Ends stamped.image f := by
  intro f hf
  have hbefore : f.offset ≤ AddrField.toClusterID.offset := by
    revert f
    decide
  exact (ends_of_copy copied f).mpr (.inl (by omega))

theorem succeeds_routeTo (m : Message) (taskMeta : TaskMeta) (targetCluster : Bytes) :
    Succeeds (routeTo m taskMeta targetCluster) ↔
      Stampable .toClusterID targetCluster ∧ 144 ≤ m.metaMsg.length := by
  refine succeeds_copy_bind fun stamped copied => ?_
  rw [succeeds_log_bind (succeeds_overwrite_bind fun _ => succeeds_pure _)]
  exact and_iff_right (ends_behind_toClusterID copied)

theorem succeeds_rejectRequest (m : Message) {taskMeta : TaskMeta}
    (submit : IsSubmit taskMeta.image) :
    Succeeds (rejectRequest m taskMeta) ↔ 144 ≤ m.metaMsg.length := by
  refine succeeds_swap_bind fun half hhalf => succeeds_swap_bind fun turned hturned => ?_
  have hzero : turned.image[143]? = some 0 := by
    rw [hturned 143 (by omega), hhalf 143 (by omega)]
    exact getElem?_of_wordAt submit (by decide) (by rw [taskMeta.size_eq]; decide)
  rw [succeeds_log_bind (succeeds_addr_bind fun _ _ =>
    succeeds_overwrite_bind fun _ => succeeds_pure _)]
  rw [and_iff_right fun f _ => Ends.of_getElem? hzero (by omega) f]
  exact and_iff_right (ends_rejected turned .toClusterID)

theorem log_eq_ok {taskMeta : TaskMeta} (ends : ∀ f, Ends taskMeta.image f)
    (fields : List AddrField) : log taskMeta fields = .ok () := by
  obtain ⟨⟨⟩, hlog⟩ := (succeeds_log_iff taskMeta fields).mpr fun f _ => ends f
  exact hlog

section TaskRouter

variable {s : SuperBroker} {m : Message} {taskMeta : TaskMeta}

theorem taskRouter_idle (hread : TaskMeta.ofMsg m.metaMsg = .ok taskMeta)
    (idle : Idle taskMeta.image) : taskRouter s m = .ok none := by
  by_cases alive : IsAlive taskMeta.image
  · have hlog := log_eq_ok (alive.ends taskMeta.size_eq)
    have htype : TaskMeta.taskType taskMeta = TaskType.aliveSignal.code := alive
    simp only [taskRouter, hread, htype, hlog, ↓reduceIte, bind, Except.bind, pure, Except.pure]
  · obtain ⟨submit, blank⟩ := idle.resolve_left alive
    have hends := submit.ends taskMeta.size_eq
    have hlog := log_eq_ok hends
    have htype : ¬ TaskMeta.taskType taskMeta = TaskType.aliveSignal.code := alive
    have hdir : TaskMeta.taskDirection taskMeta = TaskDirection.taskSubmit.code := submit
    obtain ⟨fromID, hfromID⟩ := ends_iff.mp (hends .fromID)
    obtain ⟨fromClusterID, hfromClusterID⟩ := ends_iff.mp (hends .fromClusterID)
    simp only [taskRouter, hread, htype, hdir, hlog, addr_eq_ok_iff.mpr hfromID,
      addr_eq_ok_iff.mpr hfromClusterID, ↓reduceIte, bind, Except.bind, pure, Except.pure]
    rcases blank with hid | hcluster
    · rw [if_pos (hfromID.unique (strAt_nil_iff.mpr hid))]
    · rw [if_pos (hfromClusterID.unique (strAt_nil_iff.mpr hcluster)), ite_self]

theorem succeeds_taskRouter (hread : TaskMeta.ofMsg m.metaMsg = .ok taskMeta)
    (busy : ¬ Idle taskMeta.image) : Succeeds (taskRouter s m) ↔
      144 ≤ m.metaMsg.length ∧ Routable s taskMeta.image := by
  rw [Routable]
  rw [Idle, not_or, not_and_or, not_or] at busy
  obtain ⟨alive, named⟩ := busy
  rw [taskRouter, hread]
  change Succeeds
    (if IsAlive taskMeta.image then _ else if IsSubmit taskMeta.image then _ else _) ↔ _
  rw [if_neg alive]
  by_cases submit : IsSubmit taskMeta.image
  · obtain ⟨hid, hcluster⟩ := named.resolve_left (not_not.mpr submit)
    have hends := submit.ends taskMeta.size_eq
    rw [if_pos submit, forall_prop_of_true submit, forall_prop_of_false (not_not.mpr submit),
      and_true]
    have hrest : Succeeds (if s.selectCluster.2 = 0 ∨ s.selectCluster.1 = [] then
        rejectRequest m taskMeta else routeTo m taskMeta s.selectCluster.1) ↔
          144 ≤ m.metaMsg.length ∧ ((s.selectCluster.2 = 0 ∨ s.selectCluster.1 = []) ∨
            Stampable .toClusterID s.selectCluster.1) := by
      by_cases rejected : s.selectCluster.2 = 0 ∨ s.selectCluster.1 = []
      · rw [if_pos rejected, succeeds_rejectRequest m submit, and_iff_left (.inl rejected)]
      · rw [if_neg rejected, succeeds_routeTo, or_iff_right rejected, and_comm]
    refine (succeeds_log_bind (succeeds_addr_bind fun fromID hfromID => ?_)).trans
      ((and_iff_right fun f _ => hends f).trans (and_iff_right (hends .fromID)))
    have hclient : fromID ≠ [] := by
      rintro rfl
      exact hid (strAt_nil_iff.mp hfromID)
    rw [if_neg hclient]
    refine (succeeds_addr_bind fun fromClusterID hfromClusterID => ?_).trans
      (and_iff_right (hends .fromClusterID))
    have horigin : fromClusterID ≠ [] := by
      rintro rfl
      exact hcluster (strAt_nil_iff.mp hfromClusterID)
    rw [if_neg horigin]
    exact hrest
  · rw [if_neg submit, forall_prop_of_true submit, forall_prop_of_false submit, true_and]
    refine (succeeds_log_bind (succeeds_addr_bind fun toClusterID here =>
      (succeeds_routeTo m taskMeta toClusterID).trans
        (and_iff_right (stampable_of_strAt here)))).trans ⟨?_, ?_⟩
    · rintro ⟨ends, _, whole⟩
      exact ⟨whole, ends .toID (by simp)⟩
    · rintro ⟨whole, ends⟩
      exact ⟨fun f _ => ends.of_toID f, ends.of_toID _, whole⟩

end TaskRouter

theorem ofMsg_of_length_eq {msg : Bytes} (whole : msg.length = 144) :
    TaskMeta.ofMsg msg = .ok ⟨msg, whole⟩ := Obj.store_whole TaskMeta.init whole

section LocalBalanceBroker

variable {b : LocalBalanceBroker} {m : Message}

theorem exists_front (ready : b.storeCount.readyWorkerCount > 0) :
    ∃ workerID rest, b.workReadyQueue = workerID :: rest := by
  cases hqueue : b.workReadyQueue with
  | nil => simp [LocalBalanceBroker.storeCount, hqueue] at ready
  | cons workerID rest => exact ⟨workerID, rest, rfl⟩

theorem succeeds_routeCloud (whole : m.metaMsg.length = 144) : Succeeds (routeCloud b m) ↔
    (IsSubmit m.metaMsg → b.storeCount.readyWorkerCount > 0 →
      Stampable .toClusterID b.clusterName ∧
        ∀ workerID ∈ b.workReadyQueue.head?, Stampable .toID workerID) ∧
    (¬ IsSubmit m.metaMsg → Ends m.metaMsg .toID) := by
  rw [routeCloud, ofMsg_of_length_eq whole]
  change Succeeds (if IsSubmit m.metaMsg then _ else _) ↔ _
  by_cases submit : IsSubmit m.metaMsg
  · have hends := submit.ends whole
    rw [if_pos submit, forall_prop_of_true submit, forall_prop_of_false (not_not.mpr submit),
      and_true]
    dsimp only
    by_cases ready : b.storeCount.readyWorkerCount > 0
    · rw [if_pos ready, forall_prop_of_true ready]
      obtain ⟨workerID, rest, hqueue⟩ := exists_front ready
      have hfront : b.storeCount.front = .ok workerID := by
        rw [LocalBalanceBroker.front, LocalBalanceBroker.storeCount_workReadyQueue, hqueue]
      rw [hqueue, hfront]
      simp only [List.head?_cons, Option.mem_some_iff, forall_eq']
      refine succeeds_copy_bind fun taskMeta1 copied1 => ?_
      refine (succeeds_copy_bind fun taskMeta2 copied2 => ?_).trans (and_iff_left trivial)
      rw [succeeds_log_pure, iff_true]
      exact fun f hf => (ends_of_copy copied2 f).mpr (.inr (ends_behind_toClusterID copied1 f hf))
    · rw [if_neg ready, forall_prop_of_false ready, iff_true]
      refine (succeeds_swap_bind fun half hhalf => succeeds_swap_bind fun turned hturned => ?_).mpr
        trivial
      have hzero : turned.image[143]? = some 0 := by
        rw [hturned 143 (by omega), hhalf 143 (by omega)]
        exact getElem?_of_wordAt submit (by decide) (Nat.le_of_eq whole.symm)
      refine (succeeds_log_bind (succeeds_overwrite_bind fun _ => ?_)).trans (iff_true_intro ?_)
      · exact (succeeds_addr_bind fun _ _ => iff_true_intro (succeeds_pure _)).mpr
          ⟨ends_rejected turned .toClusterID, trivial⟩
      · exact ⟨fun f _ => .of_getElem? hzero (by omega) f, Nat.le_of_eq whole.symm⟩
  · rw [if_neg submit, forall_prop_of_true submit, forall_prop_of_false submit, true_and]
    refine (succeeds_addr_bind fun toID _ => succeeds_log_pure _ _).trans ⟨fun h => h.1, ?_⟩
    exact fun ends => ⟨ends, fun f _ => ends.of_toID f⟩

theorem succeeds_routeLocalRequest (whole : m.metaMsg.length = 144) :
    Succeeds (routeLocalRequest b m) ↔ Stampable .fromClusterID b.clusterName ∧
      (∀ workerID ∈ b.workReadyQueue.head?,
        Stampable .toClusterID b.clusterName ∧ Stampable .toID workerID) ∧
      (b.workReadyQueue = [] → 32 ≤ b.clusterName.length ∨ Ends m.metaMsg .fromID) := by
  rw [routeLocalRequest, ofMsg_of_length_eq whole]
  refine succeeds_copy_bind fun stamped copied => ?_
  cases hqueue : b.workReadyQueue with
  | nil =>
    rw [if_neg (by simp), List.head?_nil, forall_prop_of_true rfl,
      and_iff_right fun _ none => absurd none (Option.not_mem_none _)]
    refine (succeeds_bind_iff fun metaMsg _ => succeeds_log_pure _ _).trans ?_
    rw [succeeds_overwrite_iff, and_iff_right (Nat.le_of_eq whole.symm), List.forall_mem_singleton,
      ends_of_copy (f := .fromClusterID) copied]
    refine or_congr_left ?_
    simp only [AddrField.offset]
    omega
  | cons workerID rest =>
    have hfront : b.front = .ok workerID := by rw [LocalBalanceBroker.front, hqueue]
    rw [if_pos (by simp), hfront]
    simp only [List.head?_cons, Option.mem_some_iff, forall_eq', reduceCtorEq, false_implies,
      and_true]
    refine succeeds_copy_bind fun taskMeta1 _ => ?_
    refine (succeeds_copy_bind fun taskMeta2 _ => succeeds_overwrite_bind fun _ =>
      succeeds_pure _).trans (and_iff_left (Nat.le_of_eq whole.symm))

theorem succeeds_routeLocalReply (whole : m.metaMsg.length = 144) :
    Succeeds (routeLocalReply b m) ↔ Ends m.metaMsg .fromID ∧
      (¬ IsAlive m.metaMsg → ∃ fromClusterID,
        StrAt m.metaMsg AddrField.fromClusterID.offset fromClusterID ∧
        Stampable .toClusterID fromClusterID ∧ Stampable .fromClusterID b.clusterName ∧
        (Ends m.metaMsg .toID ∨ 32 ≤ fromClusterID.length ∨ 96 ≤ b.clusterName.length)) := by
  rw [routeLocalReply, ofMsg_of_length_eq whole]
  refine succeeds_addr_bind fun fromID _ => ?_
  change Succeeds (if IsAlive m.metaMsg then _ else _) ↔ _
  by_cases alive : IsAlive m.metaMsg
  · rw [if_pos alive, forall_prop_of_false (not_not.mpr alive), iff_true, succeeds_log_pure]
    exact fun f _ => alive.ends whole f
  rw [if_neg alive, forall_prop_of_true alive]
  refine succeeds_bind.trans (exists_congr fun fromClusterID => and_congr addr_eq_ok_iff ?_)
  refine succeeds_copy_bind fun taskMeta1 copied1 => ?_
  refine succeeds_copy_bind fun taskMeta2 copied2 => ?_
  have hto : Ends taskMeta2.image .toClusterID :=
    (ends_of_copy copied2 _).mpr (.inr ((ends_of_copy copied1 _).mpr (.inl (Nat.le_add_right _ _))))
  have hlast : Ends taskMeta2.image .toID ↔
      (Ends m.metaMsg .toID ∨ 32 ≤ fromClusterID.length ∨ 96 ≤ b.clusterName.length) := by
    rw [ends_of_copy (f := .fromClusterID) copied2, ends_of_copy copied1]
    simp only [AddrField.offset, LocalBalanceBroker.storeCount_clusterName,
      LocalBalanceBroker.push_clusterName]
    constructor
    · rintro (long | long | ends)
      · exact .inr (.inr (by omega))
      · exact .inr (.inl (by omega))
      · exact .inl ends
    · rintro (ends | long | long)
      · exact .inr (.inr ends)
      · exact .inr (.inl (by omega))
      · exact .inl (by omega)
  rw [← hlast]
  refine (succeeds_bind_iff fun metaMsg _ => (succeeds_addr_bind fun toClusterID _ => ?_).trans
    (and_iff_right hto)).trans (and_iff_right ((succeeds_overwrite_iff _ _).mpr whole.ge))
  split
  · exact (succeeds_addr_bind fun _ _ => iff_true_intro (succeeds_pure _)).trans
      (and_iff_left trivial)
  · rw [succeeds_log_pure]
    exact ⟨fun ends => ends .toID (by simp), fun ends f _ => ends.of_toID f⟩

end LocalBalanceBroker

/-- Where the headers and names of the repository's own peers travel, no log line fails: the
handlers are those of the brokers. -/
theorem logs_change_nothing (s : SuperBroker) {b : LocalBalanceBroker} {m : Message} {h : Header}
    (shown : Carries m.metaMsg h) (selected : s.selectCluster.1.length < kMaxNameSize)
    (cluster : b.clusterName.length < kMaxNameSize)
    (workers : ∀ workerID ∈ b.workReadyQueue, workerID.length < kMaxNameSize) :
    taskRouter s m = s.taskRouter m ∧ routeCloud b m = b.routeCloud m ∧
      routeLocalRequest b m = b.routeLocalRequest m ∧
      routeLocalReply b m = b.routeLocalReply m := by
  obtain ⟨taskMeta, hmeta, represents⟩ := shown
  have whole : m.metaMsg.length = 144 := by rw [hmeta, taskMeta.size_eq]; rfl
  have hends : ∀ f, Ends m.metaMsg f := by
    intro f
    rw [hmeta]
    exact ends_iff.mpr ⟨_, represents.addr f⟩
  have hstamp : ∀ (f : AddrField) {str : Bytes}, str.length < kMaxNameSize → Stampable f str := by
    intro f str short
    have := Stamping.offset_le f
    simp only [kMaxNameSize] at short
    simp only [Stampable, sizeofTaskMeta]
    omega
  have hworker : ∀ workerID ∈ b.workReadyQueue.head?, Stampable .toID workerID :=
    fun workerID first => hstamp _ (workers workerID (List.mem_of_mem_head? first))
  refine ⟨(follows_taskRouter s m).eq ?_, (follows_routeCloud b m).eq ?_,
    (follows_routeLocalRequest b m).eq ?_, (follows_routeLocalReply b m).eq ?_⟩
  · by_cases idle : Idle taskMeta.image
    · exact ⟨none, taskRouter_idle (hmeta ▸ ofMsg_image taskMeta) idle⟩
    · refine (succeeds_taskRouter (hmeta ▸ ofMsg_image taskMeta) idle).mpr ⟨whole.ge, ?_, ?_⟩
      · exact fun _ => .inr (hstamp _ selected)
      · exact fun _ => hmeta ▸ hends .toID
  · exact (succeeds_routeCloud whole).mpr
      ⟨fun _ _ => ⟨hstamp _ cluster, hworker⟩, fun _ => hends .toID⟩
  · exact (succeeds_routeLocalRequest whole).mpr ⟨hstamp _ cluster,
      fun workerID first => ⟨hstamp _ cluster, hworker workerID first⟩,
      fun _ => .inr (hends .fromID)⟩
  · refine (succeeds_routeLocalReply whole).mpr ⟨hends .fromID, fun _ => ?_⟩
    refine ⟨(h.addr .fromClusterID).bytes, ?_, hstamp _ (h.addr .fromClusterID).short,
      hstamp _ cluster, .inl (hends .toID)⟩
    rw [hmeta]
    exact represents.addr .fromClusterID

end SimTools.DataCenter.LogLines
