/- Module: SimTools/Lib/Memory
   digest: Byte images of C objects: checked stores, NUL-terminated strings, little-endian words. -/

import Mathlib.Data.List.TakeDrop
import Mathlib.Data.List.TakeWhile
import Mathlib.Tactic.Linarith

set_option autoImplicit false
set_option relaxedAutoImplicit false

namespace SimTools.Lib.Memory

abbrev Bytes := List UInt8

/-- The errors which the C++ language leaves undefined: a copy that leaves its object, a string
that is not terminated inside its object, a length computed below zero, and an access to an empty
queue. A message with too few or too many parts confuses all that come after it. -/
inductive MemError
  | outOfBounds
  | unterminated
  | lengthWrapped
  | emptyQueue
  | wrongParts
  deriving DecidableEq, Repr

/-- A `double` as its 64 bits; the arithmetic on it is a parameter of what computes with it. -/
abbrev Double := UInt64

theorem bind_eq_ok {Err A B : Type} {x : Except Err A} {f : A → Except Err B} {v : B}
    (h : x >>= f = .ok v) : ∃ u, x = .ok u ∧ f u = .ok v := by
  cases x with
  | error err => cases h
  | ok u => exact ⟨u, rfl, h⟩

/-- Overwrite the bytes of an object from `off` on. -/
def patch (obj : Bytes) (off : Nat) (src : Bytes) : Bytes :=
  obj.take off ++ src ++ obj.drop (off + src.length)

/-- The `n` bytes of an object from `off` on. -/
def slice (obj : Bytes) (off n : Nat) : Bytes := (obj.drop off).take n

theorem length_patch {obj : Bytes} {off : Nat} {src : Bytes}
    (fits : off + src.length ≤ obj.length) : (patch obj off src).length = obj.length := by
  simp only [patch, List.length_append, List.length_take, List.length_drop]
  omega

theorem length_slice {obj : Bytes} {off n : Nat} (fits : off + n ≤ obj.length) :
    (slice obj off n).length = n := by
  simp only [slice, List.length_take, List.length_drop]
  omega

theorem getElem?_slice (obj : Bytes) (off n i : Nat) :
    (slice obj off n)[i]? = if i < n then obj[off + i]? else none := by
  simp only [slice, List.getElem?_take, List.getElem?_drop]

theorem getElem?_patch_of_outside {obj : Bytes} {off : Nat} {src : Bytes} {i : Nat}
    (fits : off + src.length ≤ obj.length) (outside : i < off ∨ off + src.length ≤ i) :
    (patch obj off src)[i]? = obj[i]? := by
  have htake : (obj.take off).length = off := by simp only [List.length_take]; omega
  rw [patch, List.append_assoc]
  rcases outside with below | above
  · rw [List.getElem?_append_left (by omega), List.getElem?_take, if_pos below]
  · rw [List.getElem?_append_right (by omega), List.getElem?_append_right (by omega),
      List.getElem?_drop]
    congr 1
    omega

theorem getElem?_patch_of_inside {obj : Bytes} {off : Nat} {src : Bytes} {i : Nat}
    (fits : off + src.length ≤ obj.length) (low : off ≤ i) (high : i < off + src.length) :
    (patch obj off src)[i]? = src[i - off]? := by
  have htake : (obj.take off).length = off := by simp only [List.length_take]; omega
  rw [patch, List.append_assoc, List.getElem?_append_right (by omega), htake,
    List.getElem?_append_left (by omega)]

theorem slice_patch_self {obj : Bytes} {off : Nat} {src : Bytes}
    (fits : off + src.length ≤ obj.length) : slice (patch obj off src) off src.length = src := by
  apply List.ext_getElem?
  intro i
  rw [getElem?_slice]
  split
  · rw [getElem?_patch_of_inside fits (by omega) (by omega)]
    congr 1
    omega
  · rw [List.getElem?_eq_none (by omega)]

/-- Frame rule of a store: bytes outside the written range keep their value. -/
theorem slice_patch_of_disjoint {obj : Bytes} {off : Nat} {src : Bytes} {o n : Nat}
    (fits : off + src.length ≤ obj.length) (disjoint : o + n ≤ off ∨ off + src.length ≤ o) :
    slice (patch obj off src) o n = slice obj o n := by
  apply List.ext_getElem?
  intro i
  simp only [getElem?_slice]
  split
  · exact getElem?_patch_of_outside fits (by omega)
  · rfl

theorem slice_slice (obj : Bytes) {off n o k : Nat} (inside : o + k ≤ n) :
    slice (slice obj off n) o k = slice obj (off + o) k := by
  apply List.ext_getElem?
  intro i
  simp only [getElem?_slice]
  split
  · rw [if_pos (by omega), Nat.add_assoc]
  · rfl

structure Obj (n : Nat) where
  image : Bytes
  size_eq : image.length = n
  deriving DecidableEq

theorem Obj.image_injective {n : Nat} {a b : Obj n} (same : a.image = b.image) : a = b := by
  cases a
  cases b
  simpa using same

def Obj.zero (n : Nat) : Obj n := ⟨List.replicate n 0, List.length_replicate⟩

/-- `memcpy` into an object at an offset, checked against the object's size. -/
def Obj.store {n : Nat} (obj : Obj n) (off : Nat) (src : Bytes) : Except MemError (Obj n) :=
  if fits : off + src.length ≤ n then
    .ok ⟨patch obj.image off src, by rw [length_patch (by rw [obj.size_eq]; exact fits),
      obj.size_eq]⟩
  else .error .outOfBounds

/-- `memcpy` from an object, checked against the object's size. -/
def Obj.load {n : Nat} (obj : Obj n) (off k : Nat) : Except MemError Bytes :=
  if off + k ≤ n then .ok (slice obj.image off k) else .error .outOfBounds

/-- `memcpy` to the front of a message buffer, checked against the message's own length. -/
def overwrite (msg src : Bytes) : Except MemError Bytes :=
  if src.length ≤ msg.length then .ok (patch msg 0 src) else .error .outOfBounds

/-- Reading a `char*` as a C string: up to the first NUL, which must lie inside the object. -/
def cstring (obj : Bytes) (off : Nat) : Except MemError Bytes :=
  if 0 ∈ obj.drop off then .ok ((obj.drop off).takeWhile (· != 0)) else .error .unterminated

theorem Obj.store_eq_ok {n : Nat} (obj : Obj n) (off : Nat) (src : Bytes)
    (fits : off + src.length ≤ n) :
    ∃ obj' : Obj n, obj.store off src = .ok obj' ∧ obj'.image = patch obj.image off src := by
  simp only [Obj.store, fits, ↓reduceDIte]
  exact ⟨_, rfl, rfl⟩

theorem Obj.store_ok_inv {n : Nat} {obj obj' : Obj n} {off : Nat} {src : Bytes}
    (h : obj.store off src = .ok obj') :
    off + src.length ≤ n ∧ obj'.image = patch obj.image off src := by
  unfold Obj.store at h
  split at h
  · rename_i fits
    cases h
    exact ⟨fits, rfl⟩
  · cases h

theorem Obj.load_eq_ok {n : Nat} {obj : Obj n} {off k : Nat} (fits : off + k ≤ n) :
    obj.load off k = .ok (slice obj.image off k) := if_pos fits

theorem overwrite_of_length_eq {msg src : Bytes} (same : src.length = msg.length) :
    overwrite msg src = .ok src := by
  rw [overwrite, if_pos (by omega), patch]
  simp [same]

theorem Obj.store_whole {n : Nat} (obj : Obj n) {src : Bytes} (same : src.length = n) :
    obj.store 0 src = .ok ⟨src, same⟩ := by
  obtain ⟨obj', hok, himage⟩ := obj.store_eq_ok 0 src (by omega)
  rw [hok]
  congr 1
  cases obj'
  have hdrop : obj.image.drop src.length = [] :=
    List.drop_eq_nil_of_le (by rw [obj.size_eq]; omega)
  simp only [Obj.mk.injEq]
  simpa [patch, hdrop] using himage

/-- The NUL-terminated string `s` stands at `off`. -/
structure StrAt (obj : Bytes) (off : Nat) (s : Bytes) : Prop where
  nul_free : 0 ∉ s
  slice_eq : slice obj off (s.length + 1) = s ++ [0]

theorem takeWhile_nul {s rest : Bytes} (nul_free : 0 ∉ s) :
    (s ++ 0 :: rest).takeWhile (· != 0) = s := by
  rw [List.takeWhile_append_of_pos]
  · simp
  · intro b hb
    simp only [bne_iff_ne, ne_eq]
    exact fun hz => nul_free (hz ▸ hb)

theorem StrAt.drop_eq {obj : Bytes} {off : Nat} {s : Bytes} (h : StrAt obj off s) :
    ∃ rest, obj.drop off = s ++ 0 :: rest := by
  refine ⟨(obj.drop off).drop (s.length + 1), ?_⟩
  have htake : (obj.drop off).take (s.length + 1) = s ++ [0] := h.slice_eq
  conv_lhs => rw [← List.take_append_drop (s.length + 1) (obj.drop off), htake]
  simp

theorem StrAt.cstring_eq {obj : Bytes} {off : Nat} {s : Bytes} (h : StrAt obj off s) :
    cstring obj off = .ok s := by
  obtain ⟨rest, hrest⟩ := h.drop_eq
  rw [cstring, hrest, takeWhile_nul h.nul_free, if_pos (by simp)]

theorem cstring_eq_ok_iff {obj : Bytes} {off : Nat} {s : Bytes} :
    cstring obj off = .ok s ↔ StrAt obj off s := by
  refine ⟨fun read => ?_, StrAt.cstring_eq⟩
  unfold cstring at read
  split at read
  · rename_i ends
    cases read
    obtain ⟨front, back, hsplit, nul_free⟩ := List.eq_append_cons_of_mem ends
    rw [hsplit, takeWhile_nul nul_free]
    refine ⟨nul_free, ?_⟩
    rw [slice, hsplit, List.append_cons]
    exact List.take_left' (by simp)
  · cases read

theorem strAt_zero_iff {obj s : Bytes} : StrAt obj 0 s ↔ 0 ∉ s ∧ s ++ [0] <+: obj := by
  have hlen : (s ++ [0]).length = s.length + 1 := by simp
  rw [List.prefix_iff_eq_take, hlen]
  exact ⟨fun h => ⟨h.nul_free, h.slice_eq.symm⟩, fun h => ⟨h.1, h.2.symm⟩⟩

theorem takeWhile_eq_self_iff_nul_free {s : Bytes} : s.takeWhile (· != 0) = s ↔ 0 ∉ s := by
  rw [List.takeWhile_eq_self_iff]
  constructor
  · intro nonzero hnul
    exact absurd (nonzero 0 hnul) (by decide)
  · intro nul_free b hb
    rw [bne_iff_ne]
    rintro rfl
    exact nul_free hb

theorem cstring_append_nul (s : Bytes) : cstring (s ++ [0]) 0 = .ok (s.takeWhile (· != 0)) := by
  have hends : 0 ∈ (s ++ [0]).drop 0 := List.mem_append_right _ (List.mem_singleton_self 0)
  rw [cstring, if_pos hends, List.drop_zero, List.takeWhile_append]
  split
  · rename_i whole
    rw [(List.takeWhile_prefix _).eq_of_length whole]
    exact congrArg _ (List.append_nil s)
  · rfl

theorem StrAt.unique {obj : Bytes} {off : Nat} {s t : Bytes}
    (hs : StrAt obj off s) (ht : StrAt obj off t) : s = t := by
  have he : (Except.ok s : Except MemError Bytes) = .ok t := hs.cstring_eq.symm.trans ht.cstring_eq
  exact Except.ok.inj he

theorem strAt_of_getElem? {obj : Bytes} {off : Nat} {s : Bytes} (nul_free : 0 ∉ s)
    (same : ∀ i < s.length, obj[off + i]? = s[i]?) (ends : obj[off + s.length]? = some 0) :
    StrAt obj off s := by
  refine ⟨nul_free, List.ext_getElem? fun i => ?_⟩
  rw [getElem?_slice]
  rcases Nat.lt_trichotomy i s.length with below | rfl | above
  · rw [if_pos (by omega), same i below, List.getElem?_append_left below]
  · rw [if_pos (by omega), ends, List.getElem?_append_right (Nat.le_refl _), Nat.sub_self]
    rfl
  · rw [if_neg (by omega), List.getElem?_eq_none (by rw [List.length_append]; exact above)]

theorem strAt_patch_self {obj : Bytes} {off : Nat} {s : Bytes} (nul_free : 0 ∉ s)
    (fits : off + (s.length + 1) ≤ obj.length) : StrAt (patch obj off (s ++ [0])) off s := by
  refine ⟨nul_free, ?_⟩
  have hlen : (s ++ [0]).length = s.length + 1 := by simp
  rw [← hlen]
  exact slice_patch_self (by rw [hlen]; exact fits)

theorem StrAt.patch_of_disjoint {obj : Bytes} {o : Nat} {s : Bytes} (h : StrAt obj o s)
    {off : Nat} {src : Bytes} (fits : off + src.length ≤ obj.length)
    (disjoint : o + (s.length + 1) ≤ off ∨ off + src.length ≤ o) :
    StrAt (patch obj off src) o s :=
  ⟨h.nul_free, by rw [slice_patch_of_disjoint fits disjoint, h.slice_eq]⟩

/-- A field-sized slice that carries a string carries it wherever the slice is copied to. -/
theorem StrAt.of_slice {obj obj' : Bytes} {off off' n : Nat} {s : Bytes} (h : StrAt obj off s)
    (inside : s.length < n) (same : slice obj' off' n = slice obj off n) : StrAt obj' off' s := by
  refine ⟨h.nul_free, ?_⟩
  have hread : ∀ (o : Bytes) (k : Nat),
      slice (slice o k n) 0 (s.length + 1) = slice o k (s.length + 1) :=
    fun o k => slice_slice o (by omega)
  rw [← hread obj' off', same, hread obj off, h.slice_eq]

theorem StrAt.patch_nul {obj : Bytes} {off : Nat} {s : Bytes} (h : StrAt obj off s) {k : Nat}
    (inside : s.length ≤ k) (fits : off + k + 1 ≤ obj.length) :
      StrAt (patch obj (off + k) [0]) off s := by
  rcases Nat.lt_or_ge s.length k with short | long
  · exact h.patch_of_disjoint (by simpa using fits) (by omega)
  · obtain rfl : k = s.length := by omega
    refine ⟨h.nul_free, ?_⟩
    have hsame : patch obj (off + s.length) [0] = obj := by
      obtain ⟨rest, hrest⟩ := h.drop_eq
      have htake : obj = obj.take off ++ (s ++ 0 :: rest) := by
        rw [← hrest, List.take_append_drop]
      have hoff : (obj.take off).length = off := by simp only [List.length_take]; omega
      have hleft : obj.take (off + s.length) = obj.take off ++ s := by
        rw [List.take_add, hrest]
        simp
      have hright : obj.drop (off + s.length + 1) = rest := by
        rw [Nat.add_assoc, ← List.drop_drop, hrest]
        simp [List.drop_append]
      simp only [patch, hleft, List.length_singleton, hright]
      conv_rhs => rw [htake]
      simp
    rw [hsame, h.slice_eq]

/-- The little-endian bytes of a number. -/
def leBytes : Nat → Nat → Bytes
  | 0, _ => []
  | k + 1, n => UInt8.ofNat (n % 256) :: leBytes k (n / 256)

def leNat : Bytes → Nat
  | [] => 0
  | b :: bs => b.toNat + 256 * leNat bs

@[simp] theorem length_leBytes (k n : Nat) : (leBytes k n).length = k := by
  induction k generalizing n with
  | zero => rfl
  | succ k ih => simp [leBytes, ih]

theorem leNat_leBytes (k n : Nat) : leNat (leBytes k n) = n % 256 ^ k := by
  induction k generalizing n with
  | zero => simp [leBytes, leNat, Nat.mod_one]
  | succ k ih =>
    have hbyte : (UInt8.ofNat (n % 256)).toNat = n % 256 := by
      simp
    rw [leBytes, leNat, ih, hbyte, Nat.pow_succ', Nat.mod_mul]

/-- The 32-bit word at an offset. -/
def wordAt (obj : Bytes) (off : Nat) : UInt32 := UInt32.ofNat (leNat (slice obj off 4))

def dwordAt (obj : Bytes) (off : Nat) : UInt64 := UInt64.ofNat (leNat (slice obj off 8))

def wordBytes (w : UInt32) : Bytes := leBytes 4 w.toNat

def dwordBytes (w : UInt64) : Bytes := leBytes 8 w.toNat

@[simp] theorem length_wordBytes (w : UInt32) : (wordBytes w).length = 4 := length_leBytes 4 _

@[simp] theorem length_dwordBytes (w : UInt64) : (dwordBytes w).length = 8 := length_leBytes 8 _

theorem wordAt_patch_self {obj : Bytes} {off : Nat} (w : UInt32) (fits : off + 4 ≤ obj.length) :
    wordAt (patch obj off (wordBytes w)) off = w := by
  have hslice : slice (patch obj off (wordBytes w)) off (wordBytes w).length = wordBytes w :=
    slice_patch_self (by simpa using fits)
  rw [length_wordBytes] at hslice
  rw [wordAt, hslice, wordBytes, leNat_leBytes, Nat.mod_eq_of_lt (by simpa using w.toNat_lt)]
  simp

theorem dwordAt_patch_self {obj : Bytes} {off : Nat} (w : UInt64) (fits : off + 8 ≤ obj.length) :
    dwordAt (patch obj off (dwordBytes w)) off = w := by
  have hslice : slice (patch obj off (dwordBytes w)) off (dwordBytes w).length = dwordBytes w :=
    slice_patch_self (by simpa using fits)
  rw [length_dwordBytes] at hslice
  rw [dwordAt, hslice, dwordBytes, leNat_leBytes, Nat.mod_eq_of_lt (by simpa using w.toNat_lt)]
  simp

theorem dwordAt_append (front : Bytes) (w : UInt64) (back : Bytes) :
    dwordAt (front ++ dwordBytes w ++ back) front.length = w := by
  have hslice : slice (front ++ dwordBytes w ++ back) front.length 8 = dwordBytes w := by
    have hlen := length_dwordBytes w
    rw [slice, List.append_assoc, List.drop_left, ← hlen, List.take_left]
  rw [dwordAt, hslice, dwordBytes, leNat_leBytes, Nat.mod_eq_of_lt (by simpa using w.toNat_lt)]
  simp

theorem wordAt_append (front : Bytes) (w : UInt32) (back : Bytes) :
    wordAt (front ++ wordBytes w ++ back) front.length = w := by
  have hslice : slice (front ++ wordBytes w ++ back) front.length 4 = wordBytes w := by
    have hlen := length_wordBytes w
    rw [slice, List.append_assoc, List.drop_left, ← hlen, List.take_left]
  rw [wordAt, hslice, wordBytes, leNat_leBytes, Nat.mod_eq_of_lt (by simpa using w.toNat_lt)]
  simp

theorem leNat_lt (bs : Bytes) : leNat bs < 256 ^ bs.length := by
  induction bs with
  | nil => exact Nat.one_pos
  | cons b bs ih =>
    have hb := b.toNat_lt
    rw [leNat, List.length_cons, Nat.pow_succ]
    omega

theorem leBytes_leNat (bs : Bytes) : leBytes bs.length (leNat bs) = bs := by
  induction bs with
  | nil => rfl
  | cons b bs ih =>
    have hlow : (b.toNat + 256 * leNat bs) % 256 = b.toNat := by
      have hb := b.toNat_lt
      omega
    have hhigh : (b.toNat + 256 * leNat bs) / 256 = leNat bs := by
      have hb := b.toNat_lt
      omega
    rw [List.length_cons, leNat, leBytes, hlow, hhigh, ih, UInt8.ofNat_toNat]

theorem dwordBytes_dwordAt {obj : Bytes} {off : Nat} (fits : off + 8 ≤ obj.length) :
    dwordBytes (dwordAt obj off) = slice obj off 8 := by
  have hlen := length_slice fits
  have hlt := leNat_lt (slice obj off 8)
  have hbytes := leBytes_leNat (slice obj off 8)
  rw [hlen] at hlt hbytes
  rw [dwordBytes, dwordAt, UInt64.toNat_ofNat_of_lt' (by simpa [UInt64.size] using hlt), hbytes]

theorem wordBytes_wordAt {obj : Bytes} {off : Nat} (fits : off + 4 ≤ obj.length) :
    wordBytes (wordAt obj off) = slice obj off 4 := by
  have hlen := length_slice fits
  have hlt := leNat_lt (slice obj off 4)
  have hbytes := leBytes_leNat (slice obj off 4)
  rw [hlen] at hlt hbytes
  rw [wordBytes, wordAt, UInt32.toNat_ofNat_of_lt' (by simpa [UInt32.size] using hlt), hbytes]

theorem wordAt_of_slice_eq {obj obj' : Bytes} {off : Nat}
    (same : slice obj' off 4 = slice obj off 4) :
    wordAt obj' off = wordAt obj off := by rw [wordAt, same, wordAt]

theorem dwordAt_of_slice_eq {obj obj' : Bytes} {off : Nat}
    (same : slice obj' off 8 = slice obj off 8) :
    dwordAt obj' off = dwordAt obj off := by rw [dwordAt, same, dwordAt]

end SimTools.Lib.Memory
