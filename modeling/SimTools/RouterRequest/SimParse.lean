/- Module: SimTools/RouterRequest/SimParse
   digest: A parser of location.proto and trajectory.proto for payloads that are well formed. -/

import SimTools.Lib.Messages
import SimTools.RouterRequest.SimProto

set_option autoImplicit false
set_option relaxedAutoImplicit false

namespace SimTools.RouterRequest.SimProto

open Lib.Memory
open Lib.WireFormat (encodeVarint encodeField)
open Lib.Messages

/- A field that the message does not have, or that comes with another wire type, is kept aside, and
a message that comes twice is merged with what was there. -/

def Timestamp.init : Timestamp := ⟨0⟩

def Timestamp.merge (m : Timestamp) (r : Record) : Option Timestamp :=
  match r.number, r.payload with
  | 1, .fixed64 x => some { m with time_second := x }
  | _, _ => some m

def Vec3d.init : Vec3d := ⟨0, 0, 0⟩

def Vec3d.merge (m : Vec3d) (r : Record) : Option Vec3d :=
  match r.number, r.payload with
  | 1, .fixed64 x => some { m with x := x }
  | 2, .fixed64 y => some { m with y := y }
  | 3, .fixed64 z => some { m with z := z }
  | _, _ => some m

def Location.init : Location := ⟨none, none, none, none, none, none⟩

def Location.merge (m : Location) (r : Record) : Option Location :=
  let vec3d (field : Option Vec3d) (bs : Bytes) (set : Option Vec3d → Location) :=
    (mergeFrom Vec3d.merge (field.getD .init) bs).map (fun v => set (some v))
  match r.number, r.payload with
  | 1, .lengthDelimited bs =>
    (mergeFrom Timestamp.merge (m.t.getD .init) bs).map (fun t => { m with t := some t })
  | 2, .lengthDelimited bs => vec3d m.position bs (fun v => { m with position := v })
  | 3, .lengthDelimited bs => vec3d m.velocity bs (fun v => { m with velocity := v })
  | 4, .lengthDelimited bs => vec3d m.rpy bs (fun v => { m with rpy := v })
  | 5, .lengthDelimited bs => vec3d m.acc bs (fun v => { m with acc := v })
  | 6, .lengthDelimited bs => vec3d m.angular_v bs (fun v => { m with angular_v := v })
  | _, _ => some m

def Location.parse (payload : Bytes) : Option Location :=
  mergeFrom Location.merge .init payload

def TrajectoryPoint.init : TrajectoryPoint := ⟨none, 0, none, none, none, none⟩

def TrajectoryPoint.merge (m : TrajectoryPoint) (r : Record) : Option TrajectoryPoint :=
  let vec3d (field : Option Vec3d) (bs : Bytes) (set : Option Vec3d → TrajectoryPoint) :=
    (mergeFrom Vec3d.merge (field.getD .init) bs).map (fun v => set (some v))
  match r.number, r.payload with
  | 1, .lengthDelimited bs =>
    (mergeFrom Timestamp.merge (m.t.getD .init) bs).map (fun t => { m with t := some t })
  | 2, .fixed64 s => some { m with s := s }
  | 3, .lengthDelimited bs => vec3d m.position bs (fun v => { m with position := v })
  | 4, .lengthDelimited bs => vec3d m.velocity bs (fun v => { m with velocity := v })
  | 5, .lengthDelimited bs => vec3d m.rpy bs (fun v => { m with rpy := v })
  | 6, .lengthDelimited bs => vec3d m.acc bs (fun v => { m with acc := v })
  | _, _ => some m

def Trajectory.init : Trajectory := ⟨none, []⟩

def Trajectory.merge (m : Trajectory) (r : Record) : Option Trajectory :=
  match r.number, r.payload with
  | 1, .lengthDelimited bs =>
    (mergeFrom Timestamp.merge (m.t.getD .init) bs).map (fun t => { m with t := some t })
  | 2, .lengthDelimited bs =>
    (mergeFrom TrajectoryPoint.merge .init bs).map (fun p => { m with point := m.point ++ [p] })
  | _, _ => some m

def Trajectory.parse (payload : Bytes) : Option Trajectory :=
  mergeFrom Trajectory.merge .init payload

section Fields

/-- Where a field is read and written in a message. -/
structure Slot (A B : Type) where
  get : A → B
  set : A → B → A
  set_get : ∀ a, set a (get a) = a

variable {A B : Type} {merge : A → Record → Option A} {number : Nat} (pos : 0 < number)

theorem brings_double (slot : Slot A Double)
    (step : ∀ a x, merge a ⟨number, .fixed64 x, pos⟩ = some (slot.set a x))
    {omits : Double → Bool} (zero : ∀ x, omits x = true → x = 0) (x : Double) {a : A}
    (unset : slot.get a = 0) : Brings merge (double omits number x) a (slot.set a x) := by
  rw [double]
  split
  · rename_i left_out
    rw [zero x left_out, ← unset, slot.set_get]
    exact .nil a
  · exact .single (step a x)

theorem brings_message (slot : Slot A (Option B)) {sub : B → Record → Option B} {init : B}
    (step : ∀ a bs, merge a ⟨number, .lengthDelimited bs, pos⟩ =
      (mergeFrom sub ((slot.get a).getD init) bs).map (fun b => slot.set a (some b)))
    {serialize : B → Bytes} (parses : ∀ b, mergeFrom sub init (serialize b) = some b)
    (field : Option B) {a : A} (unset : slot.get a = none) :
    Brings merge (message number (field.map serialize)) a (slot.set a field) := by
  cases field with
  | none =>
    rw [Option.map_none, ← unset, slot.set_get]
    exact .nil a
  | some b =>
    have hstep := step a (serialize b)
    rw [unset, Option.getD_none, parses, Option.map_some] at hstep
    exact .single hstep

end Fields

section Parse

/- A double that is left out is read as +0, so that nothing else may be. -/
variable {omits : Double → Bool} (zero : ∀ x, omits x = true → x = 0)
include zero

theorem Timestamp.mergeFrom_serialize (m : Timestamp) :
    mergeFrom merge .init (m.serializeToString omits) = some m := by
  have htime (a : Timestamp) :
      a.time_second = 0 → Brings merge (double omits 1 m.time_second) a _ :=
    brings_double Nat.one_pos ⟨time_second, fun m x => { m with time_second := x }, fun _ => rfl⟩
      (fun _ _ => rfl) zero m.time_second
  exact (htime _ rfl).mergeFrom_eq

theorem Vec3d.mergeFrom_serialize (m : Vec3d) :
    mergeFrom merge .init (m.serializeToString omits) = some m := by
  have hx (a : Vec3d) : a.x = 0 → Brings merge (double omits 1 m.x) a _ :=
    brings_double (Nat.succ_pos 0) ⟨x, fun m x => { m with x := x }, fun _ => rfl⟩
      (fun _ _ => rfl) zero m.x
  have hy (a : Vec3d) : a.y = 0 → Brings merge (double omits 2 m.y) a _ :=
    brings_double (Nat.succ_pos 1) ⟨y, fun m y => { m with y := y }, fun _ => rfl⟩
      (fun _ _ => rfl) zero m.y
  have hz (a : Vec3d) : a.z = 0 → Brings merge (double omits 3 m.z) a _ :=
    brings_double (Nat.succ_pos 2) ⟨z, fun m z => { m with z := z }, fun _ => rfl⟩
      (fun _ _ => rfl) zero m.z
  exact (((hx _ rfl).append (hy _ rfl)).append (hz _ rfl)).mergeFrom_eq

theorem Location.parse_serialize (m : Location) : parse (m.serializeToString omits) = some m := by
  have vec3d := Vec3d.mergeFrom_serialize zero
  have ht (a : Location) : a.t = none → Brings merge (message 1 (m.t.map _)) a _ :=
    brings_message (Nat.succ_pos 0) ⟨t, fun m t => { m with t := t }, fun _ => rfl⟩
      (fun _ _ => rfl) (Timestamp.mergeFrom_serialize zero) m.t
  have hposition (a : Location) :
      a.position = none → Brings merge (message 2 (m.position.map _)) a _ :=
    brings_message (Nat.succ_pos 1) ⟨position, fun m v => { m with position := v }, fun _ => rfl⟩
      (fun _ _ => rfl) vec3d m.position
  have hvelocity (a : Location) :
      a.velocity = none → Brings merge (message 3 (m.velocity.map _)) a _ :=
    brings_message (Nat.succ_pos 2) ⟨velocity, fun m v => { m with velocity := v }, fun _ => rfl⟩
      (fun _ _ => rfl) vec3d m.velocity
  have hrpy (a : Location) : a.rpy = none → Brings merge (message 4 (m.rpy.map _)) a _ :=
    brings_message (Nat.succ_pos 3) ⟨rpy, fun m v => { m with rpy := v }, fun _ => rfl⟩
      (fun _ _ => rfl) vec3d m.rpy
  have hacc (a : Location) : a.acc = none → Brings merge (message 5 (m.acc.map _)) a _ :=
    brings_message (Nat.succ_pos 4) ⟨acc, fun m v => { m with acc := v }, fun _ => rfl⟩
      (fun _ _ => rfl) vec3d m.acc
  have hangular_v (a : Location) :
      a.angular_v = none → Brings merge (message 6 (m.angular_v.map _)) a _ :=
    brings_message (Nat.succ_pos 5) ⟨angular_v, fun m v => { m with angular_v := v }, fun _ => rfl⟩
      (fun _ _ => rfl) vec3d m.angular_v
  have hall := (((((ht .init rfl).append (hposition _ rfl)).append (hvelocity _ rfl)).append
    (hrpy _ rfl)).append (hacc _ rfl)).append (hangular_v _ rfl)
  exact hall.mergeFrom_eq

theorem TrajectoryPoint.mergeFrom_serialize (m : TrajectoryPoint) :
    mergeFrom merge .init (m.serializeToString omits) = some m := by
  have vec3d := Vec3d.mergeFrom_serialize zero
  have ht (a : TrajectoryPoint) : a.t = none → Brings merge (message 1 (m.t.map _)) a _ :=
    brings_message (Nat.succ_pos 0) ⟨t, fun m t => { m with t := t }, fun _ => rfl⟩
      (fun _ _ => rfl) (Timestamp.mergeFrom_serialize zero) m.t
  have hs (a : TrajectoryPoint) : a.s = 0 → Brings merge (double omits 2 m.s) a _ :=
    brings_double (Nat.succ_pos 1) ⟨s, fun m s => { m with s := s }, fun _ => rfl⟩
      (fun _ _ => rfl) zero m.s
  have hposition (a : TrajectoryPoint) :
      a.position = none → Brings merge (message 3 (m.position.map _)) a _ :=
    brings_message (Nat.succ_pos 2) ⟨position, fun m v => { m with position := v }, fun _ => rfl⟩
      (fun _ _ => rfl) vec3d m.position
  have hvelocity (a : TrajectoryPoint) :
      a.velocity = none → Brings merge (message 4 (m.velocity.map _)) a _ :=
    brings_message (Nat.succ_pos 3) ⟨velocity, fun m v => { m with velocity := v }, fun _ => rfl⟩
      (fun _ _ => rfl) vec3d m.velocity
  have hrpy (a : TrajectoryPoint) : a.rpy = none → Brings merge (message 5 (m.rpy.map _)) a _ :=
    brings_message (Nat.succ_pos 4) ⟨rpy, fun m v => { m with rpy := v }, fun _ => rfl⟩
      (fun _ _ => rfl) vec3d m.rpy
  have hacc (a : TrajectoryPoint) : a.acc = none → Brings merge (message 6 (m.acc.map _)) a _ :=
    brings_message (Nat.succ_pos 5) ⟨acc, fun m v => { m with acc := v }, fun _ => rfl⟩
      (fun _ _ => rfl) vec3d m.acc
  have hall := (((((ht .init rfl).append (hs _ rfl)).append (hposition _ rfl)).append
    (hvelocity _ rfl)).append (hrpy _ rfl)).append (hacc _ rfl)
  exact hall.mergeFrom_eq

theorem Trajectory.brings_point (ps : List TrajectoryPoint) (m : Trajectory) :
    Brings merge (ps.flatMap (fun p => message 2 (some (p.serializeToString omits)))) m
      { m with point := m.point ++ ps } := by
  induction ps generalizing m with
  | nil =>
    rw [List.append_nil]
    exact .nil m
  | cons p ps ih =>
    have hpoint : merge m ⟨2, .lengthDelimited (p.serializeToString omits), Nat.two_pos⟩ =
        some { m with point := m.point ++ [p] } :=
      congrArg (Option.map (fun p => ({ m with point := m.point ++ [p] } : Trajectory)))
        (p.mergeFrom_serialize zero)
    have hrest := ih { m with point := m.point ++ [p] }
    rw [List.append_assoc] at hrest
    exact (Brings.single hpoint).append hrest

theorem Trajectory.parse_serialize (m : Trajectory) :
    parse (m.serializeToString omits) = some m := by
  have ht (a : Trajectory) : a.t = none → Brings merge (message 1 (m.t.map _)) a _ :=
    brings_message (Nat.succ_pos 0) ⟨t, fun m t => { m with t := t }, fun _ => rfl⟩
      (fun _ _ => rfl) (Timestamp.mergeFrom_serialize zero) m.t
  exact ((ht .init rfl).append (brings_point zero m.point _)).mergeFrom_eq

end Parse

end SimTools.RouterRequest.SimProto
