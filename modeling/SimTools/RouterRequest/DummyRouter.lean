/- Module: SimTools/RouterRequest/DummyRouter
   digest: dummy_router.cpp and its two clients: which payloads they rebuild from a reply. -/

import SimTools.Lib.Sockets
import SimTools.RouterRequest.SimProto

set_option autoImplicit false
set_option relaxedAutoImplicit false

namespace SimTools.RouterRequest.DummyRouter

open Lib.Memory
open Lib.Sockets
open SimProto

/-- "PLANNING" -/
def PLANNING : Bytes := [80, 76, 65, 78, 78, 73, 78, 71]

/-- "PerfectControl" -/
def PerfectControl : Bytes := [80, 101, 114, 102, 101, 99, 116, 67, 111, 110, 116, 114, 111, 108]

/-- "LOCATION" -/
def LOCATION : Bytes := [76, 79, 67, 65, 84, 73, 79, 78]

/-- "TRAJECTORY" -/
def TRAJECTORY : Bytes := [84, 82, 65, 74, 69, 67, 84, 79, 82, 89]

/-- What `SerializeToString` of the protobuf library makes of the two messages. -/
structure Protobuf where
  location : Location → Bytes
  trajectory : Trajectory → Bytes

/-- The bytes of the proto3 wire format. -/
def proto3 (omits : Double → Bool) : Protobuf :=
  ⟨Location.serializeToString omits, Trajectory.serializeToString omits⟩

/-- The two values of `main`: 1.1 is the time, and 1.2, 1.3 and 1.4 are the position. -/
def location : Location :=
  ⟨some ⟨0x3FF199999999999A⟩,
    some ⟨0x3FF3333333333333, 0x3FF4CCCCCCCCCCCD, 0x3FF6666666666666⟩, none, none, none, none⟩

def trajectory : Trajectory :=
  ⟨some ⟨0x3FF199999999999A⟩,
    [⟨none, 0, some ⟨0x3FF3333333333333, 0x3FF4CCCCCCCCCCCD, 0x3FF6666666666666⟩, none, none,
      none⟩]⟩

/-- A reply has the size of its payload and one more; the NUL of `c_str()` is copied with it. -/
def framed (payload : Bytes) : Except MemError Bytes :=
  overwrite (List.replicate (payload.length + 1) 0) (withNul payload)

/-- One turn of the loop of `main`, but for the string `identity`. It is only logged, and made of
the `char*` of a part that has no NUL: that this read ends somewhere is taken for granted. -/
def serve (protobuf : Protobuf) (location : Location) (trajectory : Trajectory) (msg : Parts) :
    Except MemError (Option Parts) := do
  let (identityMsg, msg) ← recv msg
  let (_, msg) ← recv msg
  let (topicMsg, msg) ← recv msg
  done msg
  let topic ← cstring topicMsg 0
  if topic = LOCATION then do
    let reply ← framed (protobuf.location location)
    pure (some [identityMsg, [], reply])
  else if topic = TRAJECTORY then do
    let msgPayload ← framed (protobuf.trajectory trajectory)
    pure (some [identityMsg, [], msgPayload])
  else pure none

/-- A REQ socket puts an empty part in front, the ROUTER socket the identity in front of it. -/
def atRouter (identity : Bytes) (msg : Parts) : Parts := identity :: [] :: msg

/-- Both are taken off a reply; the ROUTER socket drops what is for another peer. -/
def atClient (identity : Bytes) : Parts → Option Parts
  | part :: [] :: msg => if part = identity then some msg else none
  | _ => none

/-- `main` of a client: its topic is sent with the NUL, and the string `payload` is made of the
`char*` of the reply. -/
def client (identity topic : Bytes) (router : Parts → Except MemError (Option Parts)) :
    Except MemError (Option Bytes) := do
  let answer ← router (atRouter identity [withNul topic])
  match answer.bind (atClient identity) with
  | none => pure none
  | some msg => do
    let (reply, msg) ← recv msg
    done msg
    let payload ← cstring reply 0
    pure (some payload)

/-- The string that dummy_planning parses. -/
def dummyPlanning : (Parts → Except MemError (Option Parts)) → Except MemError (Option Bytes) :=
  client PLANNING LOCATION

/-- The string that dummy_car parses. -/
def dummyCar : (Parts → Except MemError (Option Parts)) → Except MemError (Option Bytes) :=
  client PerfectControl TRAJECTORY

section Exchange

variable {identity topic payload : Bytes} {router : Parts → Except MemError (Option Parts)}

theorem framed_eq (payload : Bytes) : framed payload = .ok (withNul payload) :=
  overwrite_of_length_eq (by rw [withNul, List.length_append, List.length_replicate]; rfl)

theorem client_eq (answers : router (atRouter identity [withNul topic]) =
    .ok (some [identity, [], withNul payload])) :
    client identity topic router = .ok (some (payload.takeWhile (· != 0))) := by
  have hread : cstring (withNul payload) 0 = _ := cstring_append_nul payload
  simp only [client, answers, atClient, ↓reduceIte, Option.bind_some, recv_cons, done_nil, hread,
    bind, Except.bind, pure, Except.pure]

theorem dummyPlanning_eq (protobuf : Protobuf) (location : Location) (trajectory : Trajectory) :
    dummyPlanning (serve protobuf location trajectory) =
      .ok (some ((protobuf.location location).takeWhile (· != 0))) := by
  apply client_eq
  have htopic : cstring (withNul LOCATION) 0 = .ok LOCATION := cstring_append_nul LOCATION
  simp only [serve, atRouter, recv_cons, done_nil, htopic, framed_eq, ↓reduceIte, bind,
    Except.bind, pure, Except.pure]

theorem dummyCar_eq (protobuf : Protobuf) (location : Location) (trajectory : Trajectory) :
    dummyCar (serve protobuf location trajectory) =
      .ok (some ((protobuf.trajectory trajectory).takeWhile (· != 0))) := by
  apply client_eq
  have htopic : cstring (withNul TRAJECTORY) 0 = .ok TRAJECTORY := cstring_append_nul TRAJECTORY
  have hother : TRAJECTORY ≠ LOCATION := by decide
  simp only [serve, atRouter, recv_cons, done_nil, htopic, hother, framed_eq, ↓reduceIte, bind,
    Except.bind, pure, Except.pure]

theorem rebuilt_iff (protobuf : Protobuf) (location : Location) (trajectory : Trajectory) :
    (dummyPlanning (serve protobuf location trajectory) =
      .ok (some (protobuf.location location)) ↔ 0 ∉ protobuf.location location) ∧
    (dummyCar (serve protobuf location trajectory) =
      .ok (some (protobuf.trajectory trajectory)) ↔ 0 ∉ protobuf.trajectory trajectory) := by
  rw [dummyPlanning_eq, dummyCar_eq, Except.ok.injEq, Except.ok.injEq, Option.some.injEq,
    Option.some.injEq]
  exact ⟨takeWhile_eq_self_iff_nul_free, takeWhile_eq_self_iff_nul_free⟩

end Exchange

/-- A client rebuilds the payload exactly when no byte of it is zero. In the proto3 wire format
these are the values without a blank message and without a double that has a zero byte. -/
theorem rebuilt_iff_nul_free (protobuf : Protobuf) (omits : Double → Bool) (location : Location)
    (trajectory : Trajectory) :
    (dummyPlanning (serve protobuf location trajectory) =
      .ok (some (protobuf.location location)) ↔ 0 ∉ protobuf.location location) ∧
    (dummyCar (serve protobuf location trajectory) =
      .ok (some (protobuf.trajectory trajectory)) ↔ 0 ∉ protobuf.trajectory trajectory) ∧
    (dummyPlanning (serve (proto3 omits) location trajectory) =
      .ok (some (location.serializeToString omits)) ↔ location.NulFree omits) ∧
    (dummyCar (serve (proto3 omits) location trajectory) =
      .ok (some (trajectory.serializeToString omits)) ↔ trajectory.NulFree omits) := by
  obtain ⟨planning, car⟩ := rebuilt_iff protobuf location trajectory
  have hproto3 := rebuilt_iff (proto3 omits) location trajectory
  rw [proto3, location.zero_notMem_iff, trajectory.zero_notMem_iff] at hproto3
  exact ⟨planning, car, hproto3⟩

/-- The position (1.0, 0, 0) on its own: the low bytes of 1.0 are zero. -/
theorem whole_metre :
    dummyPlanning (serve (proto3 (· == 0))
      ⟨none, some ⟨0x3FF0000000000000, 0, 0⟩, none, none, none, none⟩ trajectory) ≠
        .ok (some ((proto3 (· == 0)).location
          ⟨none, some ⟨0x3FF0000000000000, 0, 0⟩, none, none, none, none⟩)) := by
  intro same
  have hnul := (rebuilt_iff _ _ _).1.mp same
  rw [proto3, Location.zero_notMem_iff] at hnul
  exact absurd hnul (by decide)

/-- The two values of `main` have no zero byte. -/
example : location.NulFree (· == 0) ∧ trajectory.NulFree (· == 0) := by decide

end SimTools.RouterRequest.DummyRouter
