/- Module: SimTools/Lib/Sockets
   digest: Messages of several parts, part by part reads, identities with a NUL, ROUTER lookups. -/

import SimTools.Lib.Memory
import Mathlib.Logic.Function.Basic

set_option autoImplicit false
set_option relaxedAutoImplicit false

namespace SimTools.Lib.Sockets

open Memory

/-- A message as it travels, part by part. -/
abbrev Parts := List Bytes

def recv : Parts → Except MemError (Bytes × Parts)
  | [] => .error .wrongParts
  | part :: parts => .ok (part, parts)

def done (parts : Parts) : Except MemError Unit := if parts = [] then .ok () else .error .wrongParts

@[simp] theorem recv_cons (part : Bytes) (parts : Parts) :
    recv (part :: parts) = .ok (part, parts) := rfl

@[simp] theorem done_nil : done [] = .ok () := rfl

/-- A string as a part of its own, with the NUL of `c_str()`. -/
def withNul (str : Bytes) : Bytes := str ++ [0]

/-- `std::string(msg.data(), msg.size() - 1)`; the size of an empty part wraps. -/
def dropNul (part : Bytes) : Except MemError Bytes :=
  if part = [] then .error .lengthWrapped else .ok part.dropLast

@[simp] theorem dropNul_withNul (str : Bytes) : dropNul (withNul str) = .ok str := by
  rw [dropNul, withNul, if_neg (by simp), List.dropLast_concat]

theorem withNul_injective : Function.Injective withNul := by
  intro s t h
  exact List.append_cancel_right h

@[simp] theorem withNul_inj {s t : Bytes} : withNul s = withNul t ↔ s = t :=
  withNul_injective.eq_iff

section Route

variable {A : Type} {identity : A → Bytes} {peers : List A} {a : A}

/-- A ROUTER socket finds the peer by the identity part and drops what it cannot route. -/
def route (identity : A → Bytes) (peers : List A) (part : Bytes) : Option A :=
  peers.find? (fun a => identity a = part)

theorem route_identity (injective : Function.Injective identity) (h : a ∈ peers) :
    route identity peers (identity a) = some a := by
  rw [route]
  cases hfind : peers.find? (fun b => identity b = identity a) with
  | none =>
    have hnone := List.find?_eq_none.mp hfind a h
    simp at hnone
  | some b =>
    have hb := List.find?_some hfind
    rw [injective (of_decide_eq_true hb)]

end Route

end SimTools.Lib.Sockets
