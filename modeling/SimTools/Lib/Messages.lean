/- Module: SimTools/Lib/Messages
   digest: Records of the proto3 wire format, and messages that are merged from them one by one. -/

import SimTools.Lib.WireFormat

set_option autoImplicit false
set_option relaxedAutoImplicit false

namespace SimTools.Lib.Messages

open Memory
open WireFormat

inductive Payload
  | varint (n : Nat)
  | fixed64 (x : UInt64)
  | lengthDelimited (bs : Bytes)
  | fixed32 (x : UInt32)
  deriving DecidableEq

/-- The number of a field is never zero. -/
structure Record where
  number : Nat
  payload : Payload
  number_pos : 0 < number
  deriving DecidableEq

def encode (r : Record) : Bytes :=
  match r.payload with
  | .varint n => encodeVarint (8 * r.number) ++ encodeVarint n
  | .fixed64 x => encodeVarint (8 * r.number + 1) ++ dwordBytes x
  | .lengthDelimited bs => encodeVarint (8 * r.number + 2) ++ encodeVarint bs.length ++ bs
  | .fixed32 x => encodeVarint (8 * r.number + 5) ++ wordBytes x

def block (n : Nat) (bs : Bytes) : Option (Bytes × Bytes) :=
  if n ≤ bs.length then some (bs.take n, bs.drop n) else none

/-- The types 3 and 4 are for groups, which proto3 does not have, and 6 and 7 for nothing. -/
def decodePayload (type : Nat) (bs : Bytes) : Option (Payload × Bytes) :=
  match type with
  | 0 => (decodeVarint bs).map (fun (n, rest) => (.varint n, rest))
  | 1 => (block 8 bs).map (fun (b, rest) => (.fixed64 (dwordAt b 0), rest))
  | 2 => do
    let (n, bs) ← decodeVarint bs
    (block n bs).map (fun (b, rest) => (.lengthDelimited b, rest))
  | 5 => (block 4 bs).map (fun (b, rest) => (.fixed32 (wordAt b 0), rest))
  | _ => none

def decode (bs : Bytes) : Option (Record × Bytes) := do
  let (tag, bs) ← decodeVarint bs
  if pos : 0 < tag / 8 then
    (decodePayload (tag % 8) bs).map (fun (payload, rest) => (⟨tag / 8, payload, pos⟩, rest))
  else none

section Decode

variable {bs rest : Bytes} {payload : Payload}

theorem block_append (b rest : Bytes) : block b.length (b ++ rest) = some (b, rest) := by
  rw [block, if_pos (by simp), List.take_left, List.drop_left]

theorem decodePayload_fixed64 (x : UInt64) (rest : Bytes) :
    decodePayload 1 (dwordBytes x ++ rest) = some (.fixed64 x, rest) := by
  have hblock := block_append (dwordBytes x) rest
  rw [length_dwordBytes] at hblock
  have hword : dwordAt (dwordBytes x) 0 = x := by simpa using dwordAt_append [] x []
  simp only [decodePayload, hblock, Option.map_some, hword]

theorem decodePayload_fixed32 (x : UInt32) (rest : Bytes) :
    decodePayload 5 (wordBytes x ++ rest) = some (.fixed32 x, rest) := by
  have hblock := block_append (wordBytes x) rest
  rw [length_wordBytes] at hblock
  have hword : wordAt (wordBytes x) 0 = x := by simpa using wordAt_append [] x []
  simp only [decodePayload, hblock, Option.map_some, hword]

theorem decodePayload_lengthDelimited (bs rest : Bytes) :
    decodePayload 2 (encodeVarint bs.length ++ (bs ++ rest)) =
      some (.lengthDelimited bs, rest) := by
  simp only [decodePayload, decodeVarint_encodeVarint, block_append, bind, Option.bind,
    Option.map_some]

theorem decode_of_tag {number type : Nat} (pos : 0 < number) (small : type < 8)
    (h : decodePayload type bs = some (payload, rest)) :
    decode (encodeVarint (8 * number + type) ++ bs) = some (⟨number, payload, pos⟩, rest) := by
  have hnumber : (8 * number + type) / 8 = number := by omega
  have htype : (8 * number + type) % 8 = type := by omega
  simp only [decode, decodeVarint_encodeVarint, bind, Option.bind, hnumber, htype, h, pos,
    ↓reduceDIte, Option.map_some]

theorem decode_encode (r : Record) (rest : Bytes) : decode (encode r ++ rest) = some (r, rest) := by
  obtain ⟨number, payload, pos⟩ := r
  cases payload with
  | varint n =>
    have hn : decodePayload 0 (encodeVarint n ++ rest) = some (.varint n, rest) := by
      rw [decodePayload, decodeVarint_encodeVarint, Option.map_some]
    rw [encode, List.append_assoc]
    exact decode_of_tag pos (by omega) hn
  | fixed64 x =>
    rw [encode, List.append_assoc]
    exact decode_of_tag pos (by omega) (decodePayload_fixed64 x rest)
  | lengthDelimited bs =>
    rw [encode, List.append_assoc, List.append_assoc]
    exact decode_of_tag pos (by omega) (decodePayload_lengthDelimited bs rest)
  | fixed32 x =>
    rw [encode, List.append_assoc]
    exact decode_of_tag pos (by omega) (decodePayload_fixed32 x rest)

theorem encode_ne_nil (r : Record) : encode r ≠ [] := by
  intro h
  have hdecode := decode_encode r []
  rw [h] at hdecode
  cases hdecode

end Decode

/-- The records of a message, which has to be used up. -/
def parseRecords : Nat → Bytes → Option (List Record)
  | _, [] => some []
  | 0, _ :: _ => none
  | fuel + 1, b :: bs => do
    let (r, rest) ← decode (b :: bs)
    let rs ← parseRecords fuel rest
    pure (r :: rs)

def serialize (rs : List Record) : Bytes := rs.flatMap encode

/-- A record takes one byte at least. -/
def parse (bs : Bytes) : Option (List Record) := parseRecords bs.length bs

@[simp] theorem serialize_nil : serialize [] = [] := rfl

@[simp] theorem serialize_singleton (r : Record) : serialize [r] = encode r := by
  rw [serialize, List.flatMap_singleton]

theorem serialize_append (rs more : List Record) :
    serialize (rs ++ more) = serialize rs ++ serialize more := by
  rw [serialize, List.flatMap_append, serialize, serialize]

theorem parseRecords_of_ne_nil {bs : Bytes} (ne : bs ≠ []) (fuel : Nat) :
    parseRecords (fuel + 1) bs =
      (decode bs).bind (fun x => (parseRecords fuel x.2).map (fun rs => x.1 :: rs)) := by
  obtain ⟨b, bs, rfl⟩ := List.exists_cons_of_ne_nil ne
  rw [parseRecords]
  rcases decode (b :: bs) with _ | ⟨r, rest⟩
  · rfl
  · cases hrest : parseRecords fuel rest <;> simp [hrest]

theorem length_le_length_serialize (rs : List Record) : rs.length ≤ (serialize rs).length := by
  induction rs with
  | nil => exact Nat.zero_le _
  | cons r rs ih =>
    have hpos := List.length_pos_iff.mpr (encode_ne_nil r)
    simp only [serialize, List.flatMap_cons, List.length_append, List.length_cons] at ih ⊢
    omega

theorem parseRecords_serialize {rs : List Record} {fuel : Nat} (enough : rs.length ≤ fuel) :
    parseRecords fuel (serialize rs) = some rs := by
  induction rs generalizing fuel with
  | nil => rw [serialize_nil, parseRecords]
  | cons r rs ih =>
    obtain ⟨fuel, rfl⟩ : ∃ n, fuel = n + 1 :=
      Nat.exists_eq_add_one.mpr (Nat.lt_of_lt_of_le (by simp) enough)
    have hrest := ih (Nat.le_of_succ_le_succ enough)
    have hbytes : serialize (r :: rs) = encode r ++ serialize rs := List.flatMap_cons
    have hne : encode r ++ serialize rs ≠ [] := by simp [encode_ne_nil r]
    rw [hbytes, parseRecords_of_ne_nil hne, decode_encode, Option.bind_some, hrest, Option.map_some]

theorem parse_serialize (rs : List Record) : parse (serialize rs) = some rs :=
  parseRecords_serialize (length_le_length_serialize rs)

section Merge

variable {A : Type} (merge : A → Record → Option A)

/-- `MergeFromString`: every record changes the message in its turn. -/
def mergeFrom (a : A) (bs : Bytes) : Option A := (parse bs).bind (fun rs => rs.foldlM merge a)

/-- The bytes are those of records that make `b` of the message `a`. -/
def Brings (bs : Bytes) (a b : A) : Prop :=
  ∃ rs : List Record, bs = serialize rs ∧ rs.foldlM merge a = some b

variable {merge} {bs cs : Bytes} {a b c : A}

namespace Brings

theorem nil (a : A) : Brings merge [] a a := ⟨[], rfl, rfl⟩

theorem single {r : Record} (h : merge a r = some b) : Brings merge (encode r) a b := by
  refine ⟨[r], (serialize_singleton r).symm, ?_⟩
  rw [List.foldlM_cons, h]
  rfl

theorem append (h : Brings merge bs a b) (k : Brings merge cs b c) :
    Brings merge (bs ++ cs) a c := by
  obtain ⟨rs, rfl, hb⟩ := h
  obtain ⟨more, rfl, hc⟩ := k
  refine ⟨rs ++ more, (serialize_append rs more).symm, ?_⟩
  rw [List.foldlM_append, hb]
  exact hc

theorem mergeFrom_eq (h : Brings merge bs a b) : mergeFrom merge a bs = some b := by
  obtain ⟨rs, rfl, hb⟩ := h
  rw [mergeFrom, parse_serialize, Option.bind_some, hb]

end Brings

end Merge

end SimTools.Lib.Messages
