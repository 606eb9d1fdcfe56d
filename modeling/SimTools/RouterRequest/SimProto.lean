/- Module: SimTools/RouterRequest/SimProto
   digest: The values of location.proto and trajectory.proto, and which have no zero byte. -/

import SimTools.Lib.WireFormat

set_option autoImplicit false
set_option relaxedAutoImplicit false

namespace SimTools.RouterRequest.SimProto

open Lib.Memory
open Lib.WireFormat

structure Timestamp where
  time_second : Double
  deriving DecidableEq

structure Vec3d where
  x : Double
  y : Double
  z : Double
  deriving DecidableEq

/-- A field of message type is set or not. -/
structure Location where
  t : Option Timestamp
  position : Option Vec3d
  velocity : Option Vec3d
  rpy : Option Vec3d
  acc : Option Vec3d
  angular_v : Option Vec3d
  deriving DecidableEq

structure TrajectoryPoint where
  t : Option Timestamp
  s : Double
  position : Option Vec3d
  velocity : Option Vec3d
  rpy : Option Vec3d
  acc : Option Vec3d
  deriving DecidableEq

structure Trajectory where
  t : Option Timestamp
  point : List TrajectoryPoint
  deriving DecidableEq

section Serialize

/- The doubles that are left out as default values: +0, and in some versions of the library -0. -/
variable (omits : Double → Bool)

/-- A double is written with its eight bytes. -/
def double (number : Nat) (x : Double) : Bytes :=
  if omits x = true then [] else encodeVarint (8 * number + 1) ++ dwordBytes x

/-- A message that is set is written with its length, also when it has no bytes. -/
def message (number : Nat) (bs : Option Bytes) : Bytes :=
  match bs with
  | none => []
  | some bs => encodeField ⟨number, .lengthDelimited bs⟩

def Timestamp.serializeToString (m : Timestamp) : Bytes := double omits 1 m.time_second

def Vec3d.serializeToString (m : Vec3d) : Bytes :=
  double omits 1 m.x ++ double omits 2 m.y ++ double omits 3 m.z

def Location.serializeToString (m : Location) : Bytes :=
  message 1 (m.t.map (Timestamp.serializeToString omits)) ++
    message 2 (m.position.map (Vec3d.serializeToString omits)) ++
    message 3 (m.velocity.map (Vec3d.serializeToString omits)) ++
    message 4 (m.rpy.map (Vec3d.serializeToString omits)) ++
    message 5 (m.acc.map (Vec3d.serializeToString omits)) ++
    message 6 (m.angular_v.map (Vec3d.serializeToString omits))

def TrajectoryPoint.serializeToString (m : TrajectoryPoint) : Bytes :=
  message 1 (m.t.map (Timestamp.serializeToString omits)) ++
    double omits 2 m.s ++
    message 3 (m.position.map (Vec3d.serializeToString omits)) ++
    message 4 (m.velocity.map (Vec3d.serializeToString omits)) ++
    message 5 (m.rpy.map (Vec3d.serializeToString omits)) ++
    message 6 (m.acc.map (Vec3d.serializeToString omits))

def Trajectory.serializeToString (m : Trajectory) : Bytes :=
  message 1 (m.t.map (Timestamp.serializeToString omits)) ++
    m.point.flatMap (fun p => message 2 (some (p.serializeToString omits)))

end Serialize

section NulFree

variable (omits : Double → Bool)

/-- A double that is left out, or none of whose eight bytes is zero. -/
def DoubleNulFree (x : Double) : Prop := omits x = true ∨ 0 ∉ dwordBytes x

/-- A field that is not set, or whose message is not blank and has no zero byte. -/
def FieldNulFree {A : Type} (Blank NulFree : A → Prop) (field : Option A) : Prop :=
  ∀ m ∈ field, ¬ Blank m ∧ NulFree m

/-- All that the message has is left out. -/
def Timestamp.Blank (m : Timestamp) : Prop := omits m.time_second = true

def Timestamp.NulFree (m : Timestamp) : Prop := DoubleNulFree omits m.time_second

def Vec3d.Blank (m : Vec3d) : Prop := ∀ x ∈ [m.x, m.y, m.z], omits x = true

def Vec3d.NulFree (m : Vec3d) : Prop := ∀ x ∈ [m.x, m.y, m.z], DoubleNulFree omits x

def Location.NulFree (m : Location) : Prop :=
  FieldNulFree (Timestamp.Blank omits) (Timestamp.NulFree omits) m.t ∧
    ∀ v ∈ [m.position, m.velocity, m.rpy, m.acc, m.angular_v],
      FieldNulFree (Vec3d.Blank omits) (Vec3d.NulFree omits) v

def TrajectoryPoint.Blank (m : TrajectoryPoint) : Prop :=
  m.t = none ∧ omits m.s = true ∧ ∀ v ∈ [m.position, m.velocity, m.rpy, m.acc], v = none

def TrajectoryPoint.NulFree (m : TrajectoryPoint) : Prop :=
  FieldNulFree (Timestamp.Blank omits) (Timestamp.NulFree omits) m.t ∧
    DoubleNulFree omits m.s ∧
    ∀ v ∈ [m.position, m.velocity, m.rpy, m.acc],
      FieldNulFree (Vec3d.Blank omits) (Vec3d.NulFree omits) v

def Trajectory.NulFree (m : Trajectory) : Prop :=
  FieldNulFree (Timestamp.Blank omits) (Timestamp.NulFree omits) m.t ∧
    ∀ p ∈ m.point, ¬ p.Blank omits ∧ p.NulFree omits

instance (x : Double) : Decidable (DoubleNulFree omits x) := inferInstanceAs (Decidable (_ ∨ _))

instance {A : Type} (Blank NulFree : A → Prop) [DecidablePred Blank] [DecidablePred NulFree]
    (field : Option A) : Decidable (FieldNulFree Blank NulFree field) :=
  Option.decidableForallMem field

instance : DecidablePred (Timestamp.Blank omits) := fun m =>
  inferInstanceAs (Decidable (omits m.time_second = true))

instance : DecidablePred (Timestamp.NulFree omits) := fun m =>
  inferInstanceAs (Decidable (DoubleNulFree omits m.time_second))

instance : DecidablePred (Vec3d.Blank omits) := fun m => List.decidableBAll _ [m.x, m.y, m.z]

instance : DecidablePred (Vec3d.NulFree omits) := fun m => List.decidableBAll _ [m.x, m.y, m.z]

instance : DecidablePred (Location.NulFree omits) := fun _ => inferInstanceAs (Decidable (_ ∧ _))

instance : DecidablePred (TrajectoryPoint.Blank omits) := fun _ =>
  inferInstanceAs (Decidable (_ ∧ _))

instance : DecidablePred (TrajectoryPoint.NulFree omits) := fun _ =>
  inferInstanceAs (Decidable (_ ∧ _))

instance : DecidablePred (Trajectory.NulFree omits) := fun _ => inferInstanceAs (Decidable (_ ∧ _))

end NulFree

section Fields

variable {omits : Double → Bool} {number : Nat}

theorem double_eq_nil_iff {x : Double} : double omits number x = [] ↔ omits x = true := by
  rw [double]
  split
  · rename_i left_out
    exact iff_of_true rfl left_out
  · rename_i written
    refine iff_of_false (fun h => ?_) written
    have hlen := congrArg List.length (List.append_eq_nil_iff.mp h).2
    rw [length_dwordBytes] at hlen
    cases hlen

theorem zero_notMem_double_iff {x : Double} :
    0 ∉ double omits number x ↔ DoubleNulFree omits x := by
  rw [double, DoubleNulFree]
  split
  · rename_i left_out
    exact iff_of_true List.not_mem_nil (.inl left_out)
  · rename_i written
    have htag : 0 ∉ encodeVarint (8 * number + 1) := by
      rw [zero_mem_encodeVarint]
      omega
    simp only [List.mem_append, htag, false_or, written, Bool.false_eq_true]

theorem message_eq_nil_iff {A : Type} {serialize : A → Bytes} {field : Option A} :
    message number (field.map serialize) = [] ↔ field = none := by
  cases field with
  | none => exact iff_of_true rfl rfl
  | some m =>
    have hfield := encodeField_ne_nil ⟨number, .lengthDelimited (serialize m)⟩
    exact iff_of_false hfield (Option.some_ne_none m)

/-- The one zero byte that a message may have of itself is its length. -/
theorem zero_notMem_message_iff {A : Type} {serialize : A → Bytes} {Blank NulFree : A → Prop}
    (blank : ∀ m, serialize m = [] ↔ Blank m) (nul_free : ∀ m, 0 ∉ serialize m ↔ NulFree m)
    (field : Option A) :
    0 ∉ message number (field.map serialize) ↔ FieldNulFree Blank NulFree field := by
  cases field with
  | none => exact iff_of_true List.not_mem_nil (by simp [FieldNulFree])
  | some m =>
    have hfield : FieldNulFree Blank NulFree (some m) ↔ ¬ Blank m ∧ NulFree m := by
      simp [FieldNulFree]
    rw [Option.map_some, message, zero_mem_encodeField, not_or, blank, nul_free, hfield]

end Fields

section Messages

variable (omits : Double → Bool)

theorem Timestamp.serializeToString_eq_nil_iff (m : Timestamp) :
    m.serializeToString omits = [] ↔ m.Blank omits := double_eq_nil_iff

theorem Timestamp.zero_notMem_iff (m : Timestamp) :
    0 ∉ m.serializeToString omits ↔ m.NulFree omits := zero_notMem_double_iff

theorem Vec3d.serializeToString_eq_nil_iff (m : Vec3d) :
    m.serializeToString omits = [] ↔ m.Blank omits := by
  simp only [serializeToString, Blank, List.append_eq_nil_iff, double_eq_nil_iff,
    List.mem_cons, List.not_mem_nil, or_false, forall_eq_or_imp, forall_eq, and_assoc]

theorem Vec3d.zero_notMem_iff (m : Vec3d) :
    0 ∉ m.serializeToString omits ↔ m.NulFree omits := by
  simp only [serializeToString, NulFree, List.mem_append, not_or, zero_notMem_double_iff,
    List.mem_cons, List.not_mem_nil, or_false, forall_eq_or_imp, forall_eq, and_assoc]

theorem zero_notMem_timestamp_iff {number : Nat} (field : Option Timestamp) :
    0 ∉ message number (field.map (Timestamp.serializeToString omits)) ↔
      FieldNulFree (Timestamp.Blank omits) (Timestamp.NulFree omits) field :=
  zero_notMem_message_iff (Timestamp.serializeToString_eq_nil_iff omits)
    (Timestamp.zero_notMem_iff omits) field

theorem zero_notMem_vec3d_iff {number : Nat} (field : Option Vec3d) :
    0 ∉ message number (field.map (Vec3d.serializeToString omits)) ↔
      FieldNulFree (Vec3d.Blank omits) (Vec3d.NulFree omits) field :=
  zero_notMem_message_iff (Vec3d.serializeToString_eq_nil_iff omits)
    (Vec3d.zero_notMem_iff omits) field

theorem Location.zero_notMem_iff (m : Location) :
    0 ∉ m.serializeToString omits ↔ m.NulFree omits := by
  simp only [serializeToString, NulFree, List.mem_append, not_or, zero_notMem_timestamp_iff,
    zero_notMem_vec3d_iff, List.mem_cons, List.not_mem_nil, or_false, forall_eq_or_imp, forall_eq,
    and_assoc]

theorem TrajectoryPoint.serializeToString_eq_nil_iff (m : TrajectoryPoint) :
    m.serializeToString omits = [] ↔ m.Blank omits := by
  simp only [serializeToString, Blank, List.append_eq_nil_iff, double_eq_nil_iff,
    message_eq_nil_iff, List.mem_cons, List.not_mem_nil, or_false, forall_eq_or_imp, forall_eq,
    and_assoc]

theorem TrajectoryPoint.zero_notMem_iff (m : TrajectoryPoint) :
    0 ∉ m.serializeToString omits ↔ m.NulFree omits := by
  simp only [serializeToString, NulFree, List.mem_append, not_or, zero_notMem_timestamp_iff,
    zero_notMem_vec3d_iff, zero_notMem_double_iff, List.mem_cons, List.not_mem_nil, or_false,
    forall_eq_or_imp, forall_eq, and_assoc]

theorem Trajectory.zero_notMem_iff (m : Trajectory) :
    0 ∉ m.serializeToString omits ↔ m.NulFree omits := by
  have hpoint (p : TrajectoryPoint) : 0 ∉ message 2 (some (p.serializeToString omits)) ↔
      ¬ p.Blank omits ∧ p.NulFree omits := by
    rw [message, zero_mem_encodeField, not_or, p.serializeToString_eq_nil_iff, p.zero_notMem_iff]
  simp only [serializeToString, NulFree, List.mem_append, not_or, zero_notMem_timestamp_iff,
    List.mem_flatMap, not_exists, not_and, ← hpoint]

end Messages

end SimTools.RouterRequest.SimProto
