/- Module: SimTools/DataCenter/TaskHeader
   digest: A header with typed names, and how the buffer helpers act on its byte image. -/

import SimTools.DataCenter.ClusterCore
import Mathlib.Logic.Function.Basic

set_option autoImplicit false
set_option relaxedAutoImplicit false

namespace SimTools.DataCenter.TaskHeader

open Lib.Memory
open ClusterCore

/-- A string that fits a name buffer together with its NUL. -/
structure Name where
  bytes : Bytes
  nul_free : 0 ∉ bytes
  short : bytes.length < kMaxNameSize
  deriving DecidableEq

def Name.empty : Name := ⟨[], by simp, by decide⟩

/-- The identity that a DEALER socket sets: the name with its NUL. -/
def Name.identity (n : Name) : Bytes := stringToZMQMsg n.bytes

theorem Name.bytes_injective : Function.Injective Name.bytes := by
  intro a b h
  cases a
  cases b
  simpa using h

theorem Name.identity_injective : Function.Injective Name.identity := by
  intro a b h
  exact Name.bytes_injective (List.append_cancel_right h)

/-- A buffer holds what was copied to it, whatever object it is part of. -/
theorem strAt_copyStringToBuffer {n : Nat} {obj obj' : Obj n} {off : Nat} {name : Name}
    (copied : copyStringToBuffer obj off name.bytes = .ok obj') :
      StrAt obj'.image off name.bytes := by
  have hshort : name.bytes.length < 32 := name.short
  obtain ⟨obj1, hstring, hnul⟩ := bind_eq_ok copied
  obtain ⟨fits1, image1⟩ := Obj.store_ok_inv hstring
  obtain ⟨fits2, image2⟩ := Obj.store_ok_inv hnul
  have hlen : obj.image.length = n := obj.size_eq
  have hlen1 : obj1.image.length = n := obj1.size_eq
  simp only [List.length_append, List.length_cons, List.length_nil, kMaxNameSize] at fits1 fits2
  have hhere : StrAt obj1.image off name.bytes := by
    rw [image1]
    exact strAt_patch_self name.nul_free (by omega)
  rw [image2]
  exact hhere.patch_nul (by simp only [kMaxNameSize]; omega) (by simp only [kMaxNameSize]; omega)

/-- What a `TaskMeta` says once its buffers are read as C strings. -/
structure Header where
  addr : AddrField → Name
  taskID : UInt64
  taskType : TaskType
  taskDirection : TaskDirection

namespace Header

def init : Header := ⟨fun _ => .empty, 0, .normalTask, .taskSubmit⟩

def setAddr (h : Header) (f : AddrField) (n : Name) : Header :=
  { h with addr := Function.update h.addr f n }

def swapAddr (h : Header) (f g : AddrField) : Header :=
  { h with addr := Function.update (Function.update h.addr f (h.addr g)) g (h.addr f) }

def setDirection (h : Header) (d : TaskDirection) : Header := { h with taskDirection := d }

def setType (h : Header) (t : TaskType) : Header := { h with taskType := t }

def setTaskID (h : Header) (v : UInt64) : Header := { h with taskID := v }

/-- The header of a request as its client sends it. -/
def submitted (id : Name) (taskID : UInt64) : Header := (init.setTaskID taskID).setAddr .fromID id

def rejected (h : Header) : Header :=
  ((h.swapAddr .fromID .toID).swapAddr .fromClusterID .toClusterID).setDirection .taskReplyRejected

@[simp] theorem setAddr_addr_self (h : Header) (f : AddrField) (n : Name) :
    (h.setAddr f n).addr f = n := Function.update_self _ _ _

theorem setAddr_addr_of_ne (h : Header) (n : Name) {f g : AddrField} (ne : g ≠ f) :
    (h.setAddr f n).addr g = h.addr g := Function.update_of_ne ne _ _

@[simp] theorem setAddr_addr (h : Header) (f : AddrField) : h.setAddr f (h.addr f) = h := by
  cases h
  simp [setAddr]

@[simp] theorem setDirection_addr (h : Header) (d : TaskDirection) :
    (h.setDirection d).addr = h.addr := rfl

@[simp] theorem setType_addr (h : Header) (t : TaskType) : (h.setType t).addr = h.addr := rfl

@[simp] theorem swapAddr_addr_right (h : Header) (f g : AddrField) :
    (h.swapAddr f g).addr g = h.addr f := Function.update_self _ _ _

theorem swapAddr_addr_left (h : Header) {f g : AddrField} (ne : f ≠ g) :
    (h.swapAddr f g).addr f = h.addr g := by
  change Function.update (Function.update h.addr f (h.addr g)) g (h.addr f) f = _
  rw [Function.update_of_ne ne, Function.update_self]

theorem swapAddr_addr_of_ne (h : Header) {f g k : AddrField} (hf : k ≠ f) (hg : k ≠ g) :
    (h.swapAddr f g).addr k = h.addr k := by
  change Function.update (Function.update h.addr f (h.addr g)) g (h.addr f) k = _
  rw [Function.update_of_ne hg, Function.update_of_ne hf]

@[simp] theorem rejected_toClusterID (h : Header) :
    h.rejected.addr .toClusterID = h.addr .fromClusterID := by
  rw [rejected, setDirection_addr, swapAddr_addr_right,
    swapAddr_addr_of_ne _ (by decide) (by decide)]

@[simp] theorem rejected_toID (h : Header) : h.rejected.addr .toID = h.addr .fromID := by
  rw [rejected, setDirection_addr, swapAddr_addr_of_ne _ (by decide) (by decide),
    swapAddr_addr_right]

end Header

/-- The byte image of a header; bytes behind the NUL of a buffer are arbitrary. -/
structure Represents (m : TaskMeta) (h : Header) : Prop where
  addr : ∀ f, StrAt m.image f.offset (h.addr f).bytes
  taskID : TaskMeta.taskID m = h.taskID
  taskType : TaskMeta.taskType m = h.taskType.code
  taskDirection : TaskMeta.taskDirection m = h.taskDirection.code

private theorem offset_bound (f : AddrField) : f.offset + 32 ≤ 128 := by
  cases f <;> decide

private theorem offset_disjoint {f g : AddrField} (ne : f ≠ g) :
    f.offset + 32 ≤ g.offset ∨ g.offset + 32 ≤ f.offset := by
  cases f <;> cases g <;> first | exact absurd rfl ne | decide

private theorem image_length (m : TaskMeta) : m.image.length = 144 := m.size_eq

private theorem scalars_of_patch {m m' : TaskMeta} {off : Nat} {src : Bytes}
    (image : m'.image = patch m.image off src) (fits : off + src.length ≤ 128) :
    TaskMeta.taskID m' = TaskMeta.taskID m ∧ TaskMeta.taskType m' = TaskMeta.taskType m ∧
      TaskMeta.taskDirection m' = TaskMeta.taskDirection m := by
  have hlen := image_length m
  have hread : ∀ o k, 128 ≤ o → slice m'.image o k = slice m.image o k := by
    intro o k ho
    rw [image]
    exact slice_patch_of_disjoint (by omega) (by omega)
  exact ⟨dwordAt_of_slice_eq (hread 128 8 (by omega)), wordAt_of_slice_eq (hread 136 4 (by omega)),
    wordAt_of_slice_eq (hread 140 4 (by omega))⟩

private theorem strAt_of_patch {m m' : TaskMeta} {off : Nat} {src : Bytes} {g : AddrField}
    {n : Name}
    (image : m'.image = patch m.image off src) (fits : off + src.length ≤ 144)
    (disjoint : g.offset + 32 ≤ off ∨ off + src.length ≤ g.offset)
    (h : StrAt m.image g.offset n.bytes) : StrAt m'.image g.offset n.bytes := by
  have hlen := image_length m
  have hshort : n.bytes.length < 32 := n.short
  rw [image]
  exact h.patch_of_disjoint (by omega) (by omega)

theorem represents_init : Represents TaskMeta.init Header.init := by
  refine ⟨fun f => ⟨by simp [Header.init, Name.empty], ?_⟩, by decide, by decide, by decide⟩
  cases f <;> decide

namespace Represents

variable {m : TaskMeta} {h : Header}

theorem addr_eq (r : Represents m h) (f : AddrField) : TaskMeta.addr m f = .ok (h.addr f).bytes :=
  (r.addr f).cstring_eq

theorem copy (r : Represents m h) (f : AddrField) (n : Name) :
    ∃ m' : TaskMeta, copyStringToBuffer m f.offset n.bytes = .ok m' ∧
      Represents m' (h.setAddr f n) := by
  have hlen := image_length m
  have hshort : n.bytes.length < 32 := n.short
  have hbound := offset_bound f
  have hstr : (n.bytes ++ [0]).length = n.bytes.length + 1 := by simp
  have hnul : ([0] : Bytes).length = 1 := rfl
  obtain ⟨m1, hm1, image1⟩ := m.store_eq_ok f.offset (n.bytes ++ [0])
    (by simp only [sizeofTaskMeta]; omega)
  obtain ⟨m2, hm2, image2⟩ := m1.store_eq_ok (f.offset + 31) [0]
    (by simp only [sizeofTaskMeta]; omega)
  have hlen1 := image_length m1
  obtain ⟨id1, type1, dir1⟩ := scalars_of_patch image1 (by omega)
  obtain ⟨id2, type2, dir2⟩ := scalars_of_patch image2 (by omega)
  refine ⟨m2, by simp only [copyStringToBuffer, hm1]; exact hm2, ?_, id2.trans (id1.trans r.taskID),
    type2.trans (type1.trans r.taskType), dir2.trans (dir1.trans r.taskDirection)⟩
  intro g
  by_cases he : g = f
  · subst he
    have hhere : StrAt m1.image g.offset n.bytes := by
      rw [image1]
      exact strAt_patch_self n.nul_free (by omega)
    rw [image2, Header.setAddr_addr_self]
    exact hhere.patch_nul (by omega) (by omega)
  · have hd := offset_disjoint he
    rw [Header.setAddr_addr_of_ne _ _ he]
    exact strAt_of_patch image2 (by omega) (by omega)
      (strAt_of_patch image1 (by omega) (by omega) (r.addr g))

theorem swap (r : Represents m h) {f g : AddrField} (ne : f ≠ g) :
    ∃ m' : TaskMeta, swapBuffer m f.offset g.offset = .ok m' ∧ Represents m' (h.swapAddr f g) := by
  have hlen := image_length m
  have hf := offset_bound f
  have hg := offset_bound g
  have hfg := offset_disjoint ne
  have hsize : ∀ (x : TaskMeta) (k : AddrField), (slice x.image k.offset 32).length = 32 := by
    intro x k
    have := offset_bound k
    have := image_length x
    exact length_slice (by omega)
  have hsf := hsize m f
  have hsg := hsize m g
  obtain ⟨m1, hm1, image1⟩ := m.store_eq_ok f.offset (slice m.image g.offset 32)
    (by simp only [sizeofTaskMeta]; omega)
  obtain ⟨m2, hm2, image2⟩ := m1.store_eq_ok g.offset (slice m.image f.offset 32)
    (by simp only [sizeofTaskMeta]; omega)
  have hlen1 := image_length m1
  have hok : swapBuffer m f.offset g.offset = .ok m2 := by
    have hload : ∀ k : AddrField,
        Obj.load m k.offset kMaxNameSize = .ok (slice m.image k.offset 32) := by
      intro k
      have := offset_bound k
      exact Obj.load_eq_ok (by simp only [kMaxNameSize, sizeofTaskMeta]; omega)
    simp only [swapBuffer, hload, bind, Except.bind, hm1]
    exact hm2
  obtain ⟨id1, type1, dir1⟩ := scalars_of_patch image1 (by omega)
  obtain ⟨id2, type2, dir2⟩ := scalars_of_patch image2 (by omega)
  refine ⟨m2, hok, ?_, id2.trans (id1.trans r.taskID), type2.trans (type1.trans r.taskType),
    dir2.trans (dir1.trans r.taskDirection)⟩
  intro k
  by_cases hkg : k = g
  · subst hkg
    have hnew : slice m2.image k.offset 32 = slice m.image f.offset 32 := by
      have hself := slice_patch_self (show k.offset + (slice m.image f.offset 32).length ≤
        m1.image.length by omega)
      rwa [← image2, hsf] at hself
    rw [Header.swapAddr_addr_right]
    exact (r.addr f).of_slice (h.addr f).short hnew
  · by_cases hkf : k = f
    · subst hkf
      have hnew : slice m2.image k.offset 32 = slice m.image g.offset 32 := by
        have hself := slice_patch_self (show k.offset + (slice m.image g.offset 32).length ≤
          m.image.length by omega)
        rw [← image1, hsg] at hself
        rw [image2, slice_patch_of_disjoint (by omega) (by omega), hself]
      rw [Header.swapAddr_addr_left _ ne]
      exact (r.addr g).of_slice (h.addr g).short hnew
    · have hdf := offset_disjoint hkf
      have hdg := offset_disjoint hkg
      rw [Header.swapAddr_addr_of_ne _ hkf hkg]
      exact strAt_of_patch image2 (by omega) (by omega)
        (strAt_of_patch image1 (by omega) (by omega) (r.addr k))

private theorem addr_of_patch (r : Represents m h) {m' : TaskMeta} {off : Nat} {src : Bytes}
    (image : m'.image = patch m.image off src) (behind : 128 ≤ off) (fits : off + src.length ≤ 144)
    (f : AddrField) : StrAt m'.image f.offset (h.addr f).bytes := by
  have := offset_bound f
  exact strAt_of_patch image fits (by omega) (r.addr f)

theorem setTaskDirection (r : Represents m h) (d : TaskDirection) :
    Represents (TaskMeta.setTaskDirection m d) (h.setDirection d) := by
  have hlen := image_length m
  have hsrc : (wordBytes d.code).length = 4 := length_wordBytes _
  refine ⟨r.addr_of_patch rfl (by omega) (by omega), ?_, ?_, ?_⟩
  · exact (dwordAt_of_slice_eq (slice_patch_of_disjoint (by omega) (by omega))).trans r.taskID
  · exact (wordAt_of_slice_eq (slice_patch_of_disjoint (by omega) (by omega))).trans r.taskType
  · exact wordAt_patch_self _ (by omega)

theorem setTaskType (r : Represents m h) (t : TaskType) :
    Represents (TaskMeta.setTaskType m t) (h.setType t) := by
  have hlen := image_length m
  have hsrc : (wordBytes t.code).length = 4 := length_wordBytes _
  refine ⟨r.addr_of_patch rfl (by omega) (by omega), ?_, ?_, ?_⟩
  · exact (dwordAt_of_slice_eq (slice_patch_of_disjoint (by omega) (by omega))).trans r.taskID
  · exact wordAt_patch_self _ (by omega)
  · exact (wordAt_of_slice_eq (slice_patch_of_disjoint (by omega) (by omega))).trans r.taskDirection

theorem setTaskID (r : Represents m h) (v : UInt64) :
    Represents (TaskMeta.setTaskID m v) (h.setTaskID v) := by
  have hlen := image_length m
  have hsrc : (dwordBytes v).length = 8 := length_dwordBytes _
  refine ⟨r.addr_of_patch rfl (by omega) (by omega), ?_, ?_, ?_⟩
  · exact dwordAt_patch_self _ (by omega)
  · exact (wordAt_of_slice_eq (slice_patch_of_disjoint (by omega) (by omega))).trans r.taskType
  · exact (wordAt_of_slice_eq (slice_patch_of_disjoint (by omega) (by omega))).trans r.taskDirection

end Represents

def Carries (metaMsg : Bytes) (h : Header) : Prop :=
  ∃ m : TaskMeta, metaMsg = m.image ∧ Represents m h

theorem Represents.carries {m : TaskMeta} {h : Header} (r : Represents m h) : Carries m.image h :=
  ⟨m, rfl, r⟩

theorem ofMsg_image (m : TaskMeta) : TaskMeta.ofMsg m.image = .ok m :=
  Obj.store_whole TaskMeta.init m.size_eq

theorem overwrite_image (old m : TaskMeta) : overwrite old.image m.image = .ok m.image :=
  overwrite_of_length_eq (m.size_eq.trans old.size_eq.symm)

theorem eq_of_ofMsg_overwrite {msg msg' : Bytes} {read written : TaskMeta}
    (hread : TaskMeta.ofMsg msg = .ok read) (hwrite : overwrite msg written.image = .ok msg') :
    msg = read.image ∧ msg' = written.image := by
  obtain ⟨hfits, himage⟩ := Obj.store_ok_inv hread
  have hsize : written.image.length = 144 := written.size_eq
  have hinit : TaskMeta.init.image.length = 144 := TaskMeta.init.size_eq
  have hlen : msg.length = 144 := by
    unfold overwrite at hwrite
    split at hwrite
    · simp only [sizeofTaskMeta] at hfits
      omega
    · cases hwrite
  constructor
  · have hwhole := Obj.store_whole TaskMeta.init hlen
    rw [show TaskMeta.init.store 0 msg = .ok read from hread] at hwhole
    cases hwhole
    rfl
  · rw [overwrite_of_length_eq (hsize.trans hlen.symm)] at hwrite
    exact (Except.ok.inj hwrite).symm

end SimTools.DataCenter.TaskHeader
