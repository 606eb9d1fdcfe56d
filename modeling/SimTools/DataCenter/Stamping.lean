/- Module: SimTools/DataCenter/Stamping
   digest: Which strings stay inside a name buffer of a header, and which cluster names harm no other. -/

import SimTools.DataCenter.SuperBroker

set_option autoImplicit false
set_option relaxedAutoImplicit false

namespace SimTools.DataCenter.Stamping

open Lib.Memory
open ClusterCore
open TaskHeader
open ClusterBroker

/-- The copy changes no byte outside the field and leaves in it the longest prefix of the string
that fits with its NUL. -/
def StaysInside (m : TaskMeta) (f : AddrField) (str : Bytes) : Prop :=
  ∃ m' : TaskMeta, copyStringToBuffer m f.offset str = .ok m' ∧
    (∀ i, i < f.offset ∨ f.offset + kMaxNameSize ≤ i → m'.image[i]? = m.image[i]?) ∧
    StrAt m'.image f.offset (str.take (kMaxNameSize - 1))

/-- What the copy writes behind the field is inside the header, and stands there already. -/
def StandsBehind (m : TaskMeta) (f : AddrField) (str : Bytes) : Prop :=
  f.offset + str.length + 1 ≤ sizeofTaskMeta ∧
    slice m.image (f.offset + kMaxNameSize) (str.length + 1 - kMaxNameSize) =
      (str ++ [0]).drop kMaxNameSize

def messageOf : Outgoing → Message
  | .frontEnd _ m | .backEnd _ m | .cloudTask m => m

structure KeepsIDs (h h' : Header) : Prop where
  fromID : h'.addr .fromID = h.addr .fromID
  toID : h'.addr .toID = h.addr .toID
  taskID : h'.taskID = h.taskID

/-- Wherever the brokers stamp the name of a cluster into a header, they leave its ids alone, but
for the id of the worker that a request is sent to. -/
structure LeavesIDs (name : Bytes) : Prop where
  offered : ∀ (b : LocalBalanceBroker) m h, b.clusterName = name → Carries m.metaMsg h →
    b.workReadyQueue = [] → ∃ b' out h', b.routeLocalRequest m = .ok (b', some out) ∧
      Carries (messageOf out).metaMsg h' ∧ KeepsIDs h h'
  dispatched : ∀ (b : LocalBalanceBroker) m h, b.clusterName = name → Carries m.metaMsg h →
    ∀ (w : Name) ws, b.workReadyQueue = w.bytes :: ws → ∃ b' out h',
      b.routeLocalRequest m = .ok (b', some out) ∧
        Carries (messageOf out).metaMsg h' ∧ KeepsIDs (h.setAddr .toID w) h'
  replied : ∀ (b : LocalBalanceBroker) m h, b.clusterName = name → Carries m.metaMsg h →
    h.taskType = .normalTask → ∃ b' out h', b.routeLocalReply m = .ok (b', some out) ∧
      Carries (messageOf out).metaMsg h' ∧ KeepsIDs h h'
  assigned : ∀ (s : SuperBroker) m h n, Carries m.metaMsg h → h.taskType = .normalTask →
    h.taskDirection = .taskSubmit → (h.addr .fromID).bytes ≠ [] →
    (h.addr .fromClusterID).bytes ≠ [] → n ≠ 0 → s.selectCluster = (name, n) →
    ∃ identity m' h', s.taskRouter m = .ok (some (identity, m')) ∧ Carries m'.metaMsg h' ∧
      KeepsIDs h h'
  answered : ∀ (s : SuperBroker) m h, Carries m.metaMsg h → h.taskType = .normalTask →
    h.taskDirection ≠ .taskSubmit → (h.addr .toClusterID).bytes = name →
    ∃ identity m' h', s.taskRouter m = .ok (some (identity, m')) ∧ Carries m'.metaMsg h' ∧
      KeepsIDs h h'

/-- The name of a cluster, from the command line. -/
def clusterName (argv1 argv2 : Bytes) : Bytes := argv1 ++ [95] ++ argv2

variable {m m' : TaskMeta} {f : AddrField} {str : Bytes}

theorem offset_le (f : AddrField) : f.offset + 32 ≤ 128 := by
  cases f <;> decide

theorem copy_fits (fits : f.offset + str.length + 1 ≤ 144) :
    ∃ m', copyStringToBuffer m f.offset str = .ok m' := by
  have hbound := offset_le f
  obtain ⟨m1, hm1, _⟩ := m.store_eq_ok f.offset (str ++ [0])
    (by simp only [sizeofTaskMeta, List.length_append, List.length_singleton]; omega)
  obtain ⟨m2, hm2, _⟩ := m1.store_eq_ok (f.offset + (kMaxNameSize - 1)) [0]
    (by simp only [sizeofTaskMeta, kMaxNameSize, List.length_singleton]; omega)
  refine ⟨m2, ?_⟩
  simp only [copyStringToBuffer, hm1, bind, Except.bind, hm2]

/-- The bytes after a copy: a NUL at the end of the field, then the string with its own NUL, then
what was there. -/
theorem byte_of_copy (copied : copyStringToBuffer m f.offset str = .ok m') :
    f.offset + str.length + 1 ≤ 144 ∧
    (∀ i < f.offset, m'.image[i]? = m.image[i]?) ∧
    ∀ k, m'.image[f.offset + k]? =
      if k = 31 then some 0
      else if k ≤ str.length then (str ++ [0])[k]? else m.image[f.offset + k]? := by
  have hbound := offset_le f
  have hlen : m.image.length = 144 := m.size_eq
  have hstr : (str ++ [0]).length = str.length + 1 := by simp
  obtain ⟨m1, hstring, hnul⟩ := bind_eq_ok copied
  obtain ⟨fits, image1⟩ := Obj.store_ok_inv hstring
  obtain ⟨_, image2⟩ := Obj.store_ok_inv hnul
  have hlen1 : m1.image.length = 144 := m1.size_eq
  simp only [sizeofTaskMeta, hstr] at fits
  simp only [kMaxNameSize, Nat.add_one_sub_one] at image2
  refine ⟨fits, ?_, ?_⟩
  · intro i hi
    rw [image2, getElem?_patch_of_outside (by simp [hlen1]; omega) (.inl (by omega)), image1,
      getElem?_patch_of_outside (by omega) (.inl hi)]
  · intro k
    by_cases hk : k = 31
    · subst hk
      rw [if_pos rfl, image2, getElem?_patch_of_inside (by simp [hlen1]; omega) (Nat.le_refl _)
        (by simp), Nat.sub_self]
      rfl
    · rw [if_neg hk, image2, getElem?_patch_of_outside (by simp [hlen1]; omega) (by simp; omega),
        image1]
      by_cases hinside : k ≤ str.length
      · rw [if_pos hinside, getElem?_patch_of_inside (by omega) (by omega) (by omega),
          Nat.add_sub_cancel_left]
      · rw [if_neg hinside, getElem?_patch_of_outside (by omega) (.inr (by omega))]

theorem prefix_of_copy (nul_free : 0 ∉ str)
    (copied : copyStringToBuffer m f.offset str = .ok m') :
    StrAt m'.image f.offset (str.take (kMaxNameSize - 1)) := by
  obtain ⟨_, _, hbyte⟩ := byte_of_copy copied
  refine ⟨fun h => nul_free (List.mem_of_mem_take h), ?_⟩
  apply List.ext_getElem?
  intro k
  rw [getElem?_slice]
  simp only [kMaxNameSize, Nat.add_one_sub_one, List.length_take]
  by_cases hk : k < min 31 str.length
  · rw [if_pos (by omega), hbyte, if_neg (by omega), if_pos (by omega),
      List.getElem?_append_left (by omega), List.getElem?_append_left (by simpa using hk),
      List.getElem?_take, if_pos (by omega)]
  · by_cases hlast : k = min 31 str.length
    · rw [if_pos (by omega), List.getElem?_append_right (by simp; omega), hbyte]
      have hzero : k - (str.take 31).length = 0 := by simp; omega
      rw [hzero]
      by_cases hend : k = 31
      · rw [if_pos hend]
        rfl
      · obtain rfl : k = str.length := by omega
        rw [if_neg hend, if_pos (Nat.le_refl _), List.getElem?_append_right (Nat.le_refl _),
          Nat.sub_self]
    · rw [if_neg (by omega), List.getElem?_eq_none (by simp; omega)]

theorem staysInside_iff (nul_free : 0 ∉ str) : StaysInside m f str ↔ StandsBehind m f str := by
  have hsize : kMaxNameSize = 32 := rfl
  constructor
  · rintro ⟨m', copied, frame, _⟩
    obtain ⟨fits, _, hbyte⟩ := byte_of_copy copied
    refine ⟨fits, List.ext_getElem? (fun k => ?_)⟩
    have hframe := frame (f.offset + (kMaxNameSize + k)) (.inr (by omega))
    rw [hbyte, if_neg (by omega)] at hframe
    rw [getElem?_slice, List.getElem?_drop, Nat.add_assoc]
    by_cases hk : kMaxNameSize + k ≤ str.length
    · rw [if_pos hk] at hframe
      rw [if_pos (by omega), hframe]
    · rw [if_neg (by omega), List.getElem?_eq_none (by simp; omega)]
  · rintro ⟨fits, stands⟩
    obtain ⟨m', copied⟩ := copy_fits fits
    obtain ⟨_, hbelow, hbyte⟩ := byte_of_copy copied
    refine ⟨m', copied, ?_, prefix_of_copy nul_free copied⟩
    rintro i (below | behind)
    · exact hbelow i below
    · obtain ⟨k, rfl⟩ := Nat.exists_eq_add_of_le behind
      have hstands := getElem?_slice m.image (f.offset + kMaxNameSize)
        (str.length + 1 - kMaxNameSize) k
      rw [stands, List.getElem?_drop, Nat.add_assoc] at hstands
      rw [Nat.add_assoc, hbyte, if_neg (by omega)]
      by_cases hk : kMaxNameSize + k ≤ str.length
      · rw [if_pos hk, hstands, if_pos (by omega)]
      · rw [if_neg hk]

theorem not_staysInside (nul_free : 0 ∉ str) (long : 32 ≤ str.length)
    (other : m.image[f.offset + 32]? ≠ (str ++ [0])[32]?) : ¬ StaysInside m f str := by
  rw [staysInside_iff nul_free]
  rintro ⟨_, stands⟩
  have hfirst := congrArg (fun bs => bs[0]?) stands
  have hbehind : (slice m.image (f.offset + 32) (str.length + 1 - 32))[0]? =
      m.image[f.offset + 32]? := by
    rw [getElem?_slice, if_pos (by omega), Nat.add_zero]
  have hdrop : ((str ++ [0]).drop 32)[0]? = (str ++ [0])[32]? := by rw [List.getElem?_drop]
  exact other (hbehind.symm.trans (hfirst.trans hdrop))

theorem staysInside_of_short (nul_free : 0 ∉ str) (short : str.length ≤ 31) :
    StaysInside m f str := by
  have hbound := offset_le f
  have hsize : kMaxNameSize = 32 := rfl
  rw [staysInside_iff nul_free]
  refine ⟨by simp only [sizeofTaskMeta]; omega, ?_⟩
  rw [List.drop_eq_nil_of_le (by simp; omega), Nat.sub_eq_zero_of_le (by omega)]
  exact List.take_zero

/-- For every header a string stays inside exactly when it fits with its NUL. -/
theorem staysInside_all_iff (nul_free : 0 ∉ str) (f : AddrField) :
    (∀ m, StaysInside m f str) ↔ str.length ≤ 31 := by
  constructor
  · intro h
    by_contra long
    obtain ⟨b, hb⟩ : ∃ b : UInt8, some b ≠ (str ++ [0])[32]? := by
      by_cases hzero : (str ++ [0])[32]? = some 0
      · exact ⟨1, by rw [hzero]; decide⟩
      · exact ⟨0, Ne.symm hzero⟩
    have hbound := offset_le f
    refine not_staysInside (m := ⟨List.replicate 144 b, List.length_replicate⟩) nul_free
      (by omega) ?_ (h _)
    rw [List.getElem?_replicate, if_pos (by omega)]
    exact hb
  · exact fun short m => staysInside_of_short nul_free short

theorem first_byte {h : Header} (r : Represents m h) (f : AddrField) {b : UInt8} {rest : Bytes}
    (name : (h.addr f).bytes = b :: rest) : m.image[f.offset]? = some b := by
  have hslice := congrArg (fun bs => bs[0]?) (r.addr f).slice_eq
  rw [name, getElem?_slice, if_pos (by simp)] at hslice
  exact hslice

theorem leavesIDs_of_short {name : Bytes} (nul_free : 0 ∉ name) (named : name ≠ [])
    (short : name.length ≤ 31) : LeavesIDs name := by
  obtain ⟨c, rfl⟩ : ∃ c : Name, name = c.bytes :=
    ⟨⟨name, nul_free, Nat.lt_succ_of_le short⟩, rfl⟩
  have hto : ∀ h : Header, KeepsIDs h (h.setAddr .toClusterID c) := fun h =>
    ⟨Header.setAddr_addr_of_ne _ _ (by decide), Header.setAddr_addr_of_ne _ _ (by decide), rfl⟩
  refine ⟨?_, ?_, ?_, ?_, ?_⟩
  · intro b m h hname shown empty
    obtain ⟨metaMsg, hshown, run⟩ :=
      (LocalBalanceBroker.routeLocalRequest_eq hname shown).1 empty
    refine ⟨_, _, _, run, hshown, ?_, ?_, rfl⟩
    · exact Header.setAddr_addr_of_ne _ _ (by decide)
    · exact Header.setAddr_addr_of_ne _ _ (by decide)
  · intro b m h hname shown w ws ready
    obtain ⟨metaMsg, hshown, run⟩ :=
      (LocalBalanceBroker.routeLocalRequest_eq hname shown).2 w ws ready
    refine ⟨_, _, _, run, hshown, ?_, ?_, rfl⟩
    · rw [Header.setAddr_addr_of_ne _ _ (by decide), Header.setAddr_addr_of_ne _ _ (by decide),
        Header.setAddr_addr_of_ne _ _ (by decide), Header.setAddr_addr_of_ne _ _ (by decide)]
    · rw [Header.setAddr_addr_self, Header.setAddr_addr_self]
  · intro b m h hname shown normal
    obtain ⟨metaMsg, hshown, run⟩ := LocalBalanceBroker.routeLocalReply_normal hname shown normal
    have hout : ∃ out, b.routeLocalReply m =
        .ok ((b.push (h.addr .fromID).bytes).storeCount, some out) ∧
          (messageOf out).metaMsg = metaMsg := by
      rw [run]
      split
      · exact ⟨_, rfl, rfl⟩
      · exact ⟨_, rfl, rfl⟩
    obtain ⟨out, run, hmeta⟩ := hout
    rw [← hmeta] at hshown
    refine ⟨_, out, _, run, hshown, ?_, ?_, rfl⟩
    · rw [Header.setAddr_addr_of_ne _ _ (by decide), Header.setAddr_addr_of_ne _ _ (by decide)]
    · rw [Header.setAddr_addr_of_ne _ _ (by decide), Header.setAddr_addr_of_ne _ _ (by decide)]
  · intro s m h n shown normal submit client cluster positive selected
    obtain ⟨metaMsg, hshown, run⟩ := (SuperBroker.taskRouter_submit shown normal submit client
      cluster).1 c named n positive selected
    exact ⟨_, _, _, run, hshown, hto h⟩
  · intro s m h shown normal answer _
    obtain ⟨metaMsg, hshown, run⟩ := SuperBroker.taskRouter_answer shown normal answer
    exact ⟨_, _, _, run, hshown, rfl, rfl, rfl⟩

theorem not_leavesIDs {name : Bytes} (long : 32 ≤ name.length) : ¬ LeavesIDs name := by
  intro leaves
  obtain ⟨i, b, hbytes, hb⟩ : ∃ (i : Name) (b : UInt8), i.bytes = [b] ∧
      some b ≠ (name ++ [0])[32]? := by
    by_cases hone : (name ++ [0])[32]? = some 1
    · exact ⟨⟨[2], by decide, by decide⟩, 2, rfl, by rw [hone]; decide⟩
    · exact ⟨⟨[1], by decide, by decide⟩, 1, rfl, Ne.symm hone⟩
  obtain ⟨metaMsg, _, shown⟩ := Client.request_eq i 0 TaskRequest.init
  obtain ⟨tm, rfl, r⟩ := shown
  obtain ⟨b', out, h', run, ⟨tm', hmeta, r'⟩, keeps⟩ := leaves.offered (.init name)
    ⟨tm.image, []⟩ (Header.submitted i 0) rfl ⟨tm, rfl, r⟩ rfl
  -- the header that leaves is the one that was stamped
  simp only [LocalBalanceBroker.routeLocalRequest, ofMsg_image, LocalBalanceBroker.init,
    List.length_nil, gt_iff_lt, Nat.lt_irrefl, ↓reduceIte] at run
  obtain ⟨_, hread, run⟩ := bind_eq_ok run
  cases hread
  obtain ⟨stamped, hcopy, run⟩ := bind_eq_ok run
  rw [overwrite_image] at run
  cases run
  have hbyte := (byte_of_copy (f := .fromClusterID) hcopy).2.2 32
  rw [if_neg (by decide), if_pos long, show stamped.image = tm'.image from hmeta] at hbyte
  have hid : (h'.addr .fromID).bytes = [b] := by
    rw [keeps.fromID]
    exact hbytes
  exact hb ((first_byte r' .fromID hid).symm.trans hbyte)

theorem clusterName_ne_nil (argv1 argv2 : Bytes) : clusterName argv1 argv2 ≠ [] := by
  simp [clusterName]

/-- Stamping a string changes nothing outside the field exactly when what it writes there stands
there already; for every header that means 31 bytes at most, and so it does for the names of
clusters and the ids in a header. -/
theorem stamping_iff (nul_free : 0 ∉ str) :
    (∀ m f, StaysInside m f str ↔ StandsBehind m f str) ∧
    (∀ f, (∀ m, StaysInside m f str) ↔ str.length ≤ 31) ∧
    ∀ argv1 argv2, str = clusterName argv1 argv2 → (LeavesIDs str ↔ str.length ≤ 31) := by
  refine ⟨fun _ _ => staysInside_iff nul_free, staysInside_all_iff nul_free, ?_⟩
  rintro argv1 argv2 rfl
  constructor
  · intro leaves
    by_contra long
    exact not_leavesIDs (by omega) leaves
  · exact leavesIDs_of_short nul_free (clusterName_ne_nil argv1 argv2)

theorem stamping_iff_east : LeavesIDs (clusterName [101, 97, 115, 116] [48]) :=
  ((stamping_iff (by decide)).2.2 _ _ rfl).mpr (by decide)

/-- A name of 32 bytes, stamped as the cluster a request comes from, ends the id of the client
before its first byte. -/
theorem long_cluster_name :
    (¬ ∀ str, 0 ∉ str → ∀ m f, StaysInside m f str) ∧
    ¬ LeavesIDs (clusterName (List.replicate 30 97) [48]) := by
  refine ⟨fun h => ?_, not_leavesIDs (by decide)⟩
  have hall : ∀ m, StaysInside m .fromClusterID (clusterName (List.replicate 30 97) [48]) :=
    fun m => h _ (by decide) m _
  have hshort := (staysInside_all_iff (by decide) .fromClusterID).mp hall
  exact absurd hshort (by decide)

end SimTools.DataCenter.Stamping
