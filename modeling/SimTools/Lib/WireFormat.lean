/- Module: SimTools/Lib/WireFormat
   digest: The proto3 wire format: varints, tagged fields, and reading back what was written. -/

import SimTools.Lib.Memory

set_option autoImplicit false
set_option relaxedAutoImplicit false

namespace SimTools.Lib.WireFormat

open Memory

/-- Seven bits a byte, the lowest first; the high bit says that more follow. -/
def encodeVarint (n : Nat) : Bytes :=
  if n < 128 then [UInt8.ofNat n] else UInt8.ofNat (n % 128 + 128) :: encodeVarint (n / 128)
termination_by n
decreasing_by omega

def decodeVarint : Bytes → Option (Nat × Bytes)
  | [] => none
  | b :: rest =>
    if b.toNat < 128 then some (b.toNat, rest)
    else (decodeVarint rest).map (fun (high, rest) => (b.toNat - 128 + 128 * high, rest))

theorem toNat_ofNat_of_lt {n : Nat} (h : n < 256) : (UInt8.ofNat n).toNat = n := by
  rw [UInt8.toNat_ofNat']
  exact Nat.mod_eq_of_lt h

theorem decodeVarint_encodeVarint (n : Nat) (rest : Bytes) :
    decodeVarint (encodeVarint n ++ rest) = some (n, rest) := by
  induction n using encodeVarint.induct with
  | case1 n small =>
    rw [encodeVarint, if_pos small]
    simp only [List.cons_append, List.nil_append, decodeVarint, toNat_ofNat_of_lt (n := n)
      (by omega), if_pos small]
  | case2 n large ih =>
    have hbyte := toNat_ofNat_of_lt (n := n % 128 + 128) (by omega)
    rw [encodeVarint, if_neg large]
    simp only [List.cons_append, decodeVarint, hbyte, ih, Option.map_some]
    rw [if_neg (by omega)]
    congr 2
    omega

/-- All bytes but the last have their high bit, and the last is zero for the number 0 only. -/
theorem zero_mem_encodeVarint (n : Nat) : 0 ∈ encodeVarint n ↔ n = 0 := by
  induction n using encodeVarint.induct with
  | case1 n small =>
    have hbyte := toNat_ofNat_of_lt (n := n) (by omega)
    rw [encodeVarint, if_pos small, List.mem_singleton]
    refine ⟨fun h => ?_, fun h => by rw [h]; rfl⟩
    rw [← hbyte, ← h]
    rfl
  | case2 n large ih =>
    have hbyte := toNat_ofNat_of_lt (n := n % 128 + 128) (by omega)
    rw [encodeVarint, if_neg large, List.mem_cons, ih]
    refine ⟨?_, by omega⟩
    rintro (h | h)
    · rw [← h] at hbyte
      have hzero : n % 128 + 128 = 0 := hbyte.symm
      omega
    · omega

/-- What a field carries: a number, or a string, bytes or message with its length. -/
inductive Value
  | varint (n : Nat)
  | lengthDelimited (bs : Bytes)
  deriving DecidableEq

structure Field where
  number : Nat
  value : Value
  deriving DecidableEq

def encodeField : Field → Bytes
  | ⟨number, .varint n⟩ => encodeVarint (8 * number) ++ encodeVarint n
  | ⟨number, .lengthDelimited bs⟩ => encodeVarint (8 * number + 2) ++ encodeVarint bs.length ++ bs

/-- The next field. The other wire types do not occur. -/
def decodeField (bs : Bytes) : Option (Field × Bytes) := do
  let (tag, bs) ← decodeVarint bs
  let (n, bs) ← decodeVarint bs
  match tag % 8 with
  | 0 => pure (⟨tag / 8, .varint n⟩, bs)
  | 2 => if n ≤ bs.length then pure (⟨tag / 8, .lengthDelimited (bs.take n)⟩, bs.drop n) else none
  | _ => none

theorem decodeField_encodeField (field : Field) (rest : Bytes) :
    decodeField (encodeField field ++ rest) = some (field, rest) := by
  obtain ⟨number, value⟩ := field
  cases value with
  | varint n =>
    have htype : 8 * number % 8 = 0 := Nat.mul_mod_right 8 number
    have hnumber : 8 * number / 8 = number := by omega
    simp only [decodeField, encodeField, List.append_assoc, decodeVarint_encodeVarint,
      htype, hnumber, bind, Option.bind, pure]
  | lengthDelimited bs =>
    have htype : (8 * number + 2) % 8 = 2 := by omega
    have hnumber : (8 * number + 2) / 8 = number := by omega
    simp only [decodeField, encodeField, List.append_assoc, decodeVarint_encodeVarint,
      htype, hnumber, bind, Option.bind, pure]
    rw [if_pos (by simp), List.take_left, List.drop_left]

theorem encodeField_ne_nil (field : Field) : encodeField field ≠ [] := by
  intro h
  have hdecode := decodeField_encodeField field []
  rw [h] at hdecode
  cases hdecode

theorem zero_mem_encodeField {number : Nat} {bs : Bytes} :
    0 ∈ encodeField ⟨number, .lengthDelimited bs⟩ ↔ bs = [] ∨ 0 ∈ bs := by
  rw [encodeField, List.mem_append, List.mem_append, zero_mem_encodeVarint, zero_mem_encodeVarint,
    List.length_eq_zero_iff]
  constructor
  · rintro ((h | h) | h)
    · omega
    · exact .inl h
    · exact .inr h
  · rintro (h | h)
    · exact .inl (.inr h)
    · exact .inr h

/-- The fields before the first that cannot be read. -/
def decodeFields : Nat → Bytes → List Field
  | 0, _ => []
  | fuel + 1, bs =>
    match decodeField bs with
    | none => []
    | some (field, rest) => field :: decodeFields fuel rest

def serialize (fields : List Field) : Bytes := fields.flatMap encodeField

/-- A field takes one byte at least. -/
def parse (bs : Bytes) : List Field := decodeFields bs.length bs

theorem length_le_length_serialize (fields : List Field) :
    fields.length ≤ (serialize fields).length := by
  induction fields with
  | nil => exact Nat.zero_le _
  | cons field fields ih =>
    have hpos := List.length_pos_iff.mpr (encodeField_ne_nil field)
    simp only [serialize, List.flatMap_cons, List.length_append, List.length_cons] at ih ⊢
    omega

theorem decodeFields_serialize {fields : List Field} {fuel : Nat} (enough : fields.length ≤ fuel) :
    decodeFields fuel (serialize fields) = fields := by
  induction fields generalizing fuel with
  | nil => cases fuel <;> rfl
  | cons field fields ih =>
    obtain ⟨fuel, rfl⟩ : ∃ n, fuel = n + 1 :=
      Nat.exists_eq_add_one.mpr (Nat.lt_of_lt_of_le (by simp) enough)
    have hrest := ih (Nat.le_of_succ_le_succ enough)
    rw [serialize] at hrest
    simp only [serialize, List.flatMap_cons, decodeFields, decodeField_encodeField, hrest]

theorem parse_serialize (fields : List Field) : parse (serialize fields) = fields :=
  decodeFields_serialize (length_le_length_serialize fields)

/-- Where the numbers and the strings of a message are. -/
def Value.number? : Value → Option Nat
  | .varint n => some n
  | .lengthDelimited _ => none

def Value.bytes? : Value → Option Bytes
  | .varint _ => none
  | .lengthDelimited bs => some bs

section Scalars

variable {A : Type} {write : A → Value} {read : Value → Option A} {default : A} {number : Nat}
  {fields before after : List Field}

def carried (read : Value → Option A) (number : Nat) (fields : List Field) : List A :=
  fields.filterMap (fun field => if field.number = number then read field.value else none)

/-- The last field with the number counts; when there is none, the scalar has its default value. -/
def get (read : Value → Option A) (default : A) (number : Nat) (fields : List Field) : A :=
  (carried read number fields).getLast?.getD default

theorem carried_append : carried read number (before ++ after) =
    carried read number before ++ carried read number after :=
  List.filterMap_append

theorem carried_eq_nil (others : ∀ field ∈ fields, field.number ≠ number) :
    carried read number fields = [] := by
  rw [carried, List.filterMap_eq_nil_iff]
  intro field hmem
  exact if_neg (others field hmem)

variable [DecidableEq A]

/-- A scalar that has its default value is left out. -/
def scalar (write : A → Value) (default : A) (number : Nat) (a : A) : List Field :=
  if a = default then [] else [⟨number, write a⟩]

theorem number_ne_of_mem_scalar {a : A} {other : Nat} (hne : other ≠ number) :
    ∀ field ∈ scalar write default other a, field.number ≠ number := by
  intro field hmem
  rw [scalar] at hmem
  split at hmem
  · cases hmem
  · rwa [List.mem_singleton.mp hmem]

theorem get_scalar (inverse : ∀ a, read (write a) = some a) (default a : A)
    (hbefore : ∀ field ∈ before, field.number ≠ number)
    (hafter : ∀ field ∈ after, field.number ≠ number) :
    get read default number (before ++ scalar write default number a ++ after) = a := by
  rw [get, carried_append, carried_append, carried_eq_nil hbefore, carried_eq_nil hafter,
    List.nil_append, List.append_nil, scalar]
  split
  · rename_i hdefault
    exact hdefault.symm
  · simp [carried, inverse]

end Scalars

end SimTools.Lib.WireFormat
