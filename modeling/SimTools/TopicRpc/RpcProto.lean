/- Module: SimTools/TopicRpc/RpcProto
   digest: The messages of rpc.proto in the proto3 wire format, and their round trips. -/

import SimTools.TopicRpc.SyncRpc
import SimTools.Lib.WireFormat

set_option autoImplicit false
set_option relaxedAutoImplicit false

namespace SimTools.TopicRpc.RpcProto

open Lib.Memory
open Lib.WireFormat
open SyncRpc

def writeUint32 (n : UInt32) : Value := .varint n.toNat

def readUint32 (value : Value) : Option UInt32 := value.number?.map UInt32.ofNat

theorem bytes?_lengthDelimited (bs : Bytes) : (Value.lengthDelimited bs).bytes? = some bs := rfl

theorem readUint32_writeUint32 (n : UInt32) : readUint32 (writeUint32 n) = some n := by
  simp [readUint32, writeUint32, Value.number?]

def callInfo : Codec RPCCallInfo where
  serializeToString m := serialize
    (scalar .lengthDelimited [] 1 m.funcName ++ scalar writeUint32 0 2 m.flag)
  parseFromString bs := ⟨get Value.bytes? [] 1 (parse bs), get readUint32 0 2 (parse bs)⟩

def serviceStatus : Codec RPCServiceStatus where
  serializeToString m := serialize
    (scalar writeUint32 0 1 m.state ++ scalar .lengthDelimited [] 2 m.info)
  parseFromString bs := ⟨get readUint32 0 1 (parse bs), get Value.bytes? [] 2 (parse bs)⟩

def msgPair : Codec RPCMsgPair where
  serializeToString m := serialize
    (scalar .lengthDelimited [] 1 m.topic ++ scalar .lengthDelimited [] 2 m.payload)
  parseFromString bs := ⟨get Value.bytes? [] 1 (parse bs), get Value.bytes? [] 2 (parse bs)⟩

def protobuf : Protobuf := ⟨callInfo, serviceStatus, msgPair⟩

section Pair

variable {A B : Type} [DecidableEq A] [DecidableEq B] {write : A → Value} {read : Value → Option A}
  {write' : B → Value} {read' : Value → Option B} {a₀ : A} {b₀ : B}

theorem get_one (inverse : ∀ a, read (write a) = some a) (a : A) (b : B) :
    get read a₀ 1 (scalar write a₀ 1 a ++ scalar write' b₀ 2 b) = a := by
  have h := get_scalar inverse a₀ a (List.forall_mem_nil _)
    (number_ne_of_mem_scalar (show 2 ≠ 1 by decide) : ∀ field ∈ scalar write' b₀ 2 b,
      field.number ≠ 1)
  rwa [List.nil_append] at h

theorem get_two (inverse : ∀ b, read' (write' b) = some b) (a : A) (b : B) :
    get read' b₀ 2 (scalar write a₀ 1 a ++ scalar write' b₀ 2 b) = b := by
  have h := get_scalar inverse b₀ b
    (number_ne_of_mem_scalar (show 1 ≠ 2 by decide) : ∀ field ∈ scalar write a₀ 1 a,
      field.number ≠ 2)
    (List.forall_mem_nil _)
  rwa [List.append_nil] at h

end Pair

theorem msgPair_roundTrip (m : RPCMsgPair) :
    protobuf.msgPair.parseFromString (protobuf.msgPair.serializeToString m) = m := by
  simp only [protobuf, msgPair, parse_serialize]
  rw [get_one bytes?_lengthDelimited, get_two bytes?_lengthDelimited]

theorem roundTrips : protobuf.RoundTrips where
  callInfo m _ := by
    simp only [protobuf, callInfo, parse_serialize]
    rw [get_one bytes?_lengthDelimited, get_two readUint32_writeUint32]
  serviceStatus m _ := by
    simp only [protobuf, serviceStatus, parse_serialize]
    rw [get_one readUint32_writeUint32, get_two bytes?_lengthDelimited]
  msgPair m _ := msgPair_roundTrip m

end SimTools.TopicRpc.RpcProto
