/- Module: SimTools/TopicRpc/Failures
   digest: What dispatch tells a client about calls that it could not carry out. -/

import SimTools.TopicRpc.RpcProto

set_option autoImplicit false
set_option relaxedAutoImplicit false

namespace SimTools.TopicRpc.Failures

open Lib.Memory
open Lib.Sockets
open SyncRpc
open MessageHelper

/-- The pair in a frame can be read; `accepts` is what `ParseFromString` returns. -/
def Decodes (accepts : Bytes → Bool) (msgReq : Bytes) : Prop :=
  ∃ payload, ZMQMsgToString msgReq = .ok payload ∧ accepts payload = true

/-- The function that was named has been run on its argument, and its status is the status. -/
inductive Executed (P : Protobuf) (accepts : Bytes → Bool) (msgMap : MsgMap)
    (callInfo : RPCCallInfo) (msgReq : Bytes) : MsgMap × RPCServiceStatus × Bytes → Prop
  | set {payload : Bytes} : callInfo.funcName = setFuncName →
      ZMQMsgToString msgReq = .ok payload → accepts payload = true →
      Executed P accepts msgMap callInfo msgReq
        (ServiceImp_A.setMessageByTopic msgMap (P.msgPair.parseFromString payload).topic
          (P.msgPair.parseFromString payload).payload, ServiceImp_A.serviceStatus, [])
  | get {topic : Bytes} : callInfo.funcName = getFuncName → ZMQMsgToString msgReq = .ok topic →
      Executed P accepts msgMap callInfo msgReq (msgMap, ServiceImp_A.serviceStatus,
        stringToZMQMsg (ServiceImp_A.getMessageByTopic msgMap topic))

/-- No function has this name, or it is a set and its pair cannot be read. -/
def Fails (accepts : Bytes → Bool) (callInfo : RPCCallInfo) (msgReq : Bytes) : Prop :=
  (callInfo.funcName ≠ setFuncName ∧ callInfo.funcName ≠ getFuncName) ∨
    (callInfo.funcName = setFuncName ∧ ¬ Decodes accepts msgReq)

/-- A call is reported as ok only when it was carried out, and a call that fails is reported and
changes nothing. -/
structure Reported (P : Protobuf) (accepts : Bytes → Bool) (msgMap : MsgMap)
    (callInfo : RPCCallInfo) (msgReq : Bytes) : Prop where
  ok : ∀ result, ServiceImp_A.dispatch P msgMap callInfo msgReq = .ok result →
    result.2.1.state = 0 → Executed P accepts msgMap callInfo msgReq result
  failed : Fails accepts callInfo msgReq → ∃ status reply,
    ServiceImp_A.dispatch P msgMap callInfo msgReq = .ok (msgMap, status, reply) ∧ status.state ≠ 0

variable {P : Protobuf} {accepts : Bytes → Bool} {msgMap : MsgMap} {callInfo : RPCCallInfo}
  {msgReq : Bytes}

theorem status_of_dispatch {result : MsgMap × RPCServiceStatus × Bytes}
    (run : ServiceImp_A.dispatch P msgMap callInfo msgReq = .ok result) :
    result.2.1 = ServiceImp_A.serviceStatus := by
  unfold ServiceImp_A.dispatch at run
  split at run
  · obtain ⟨msgPair, _, run⟩ := bind_eq_ok run
    cases run
    rfl
  · split at run
    · obtain ⟨topic, _, run⟩ := bind_eq_ok run
      cases run
      rfl
    · cases run
      rfl

theorem dispatch_unknown (set : callInfo.funcName ≠ setFuncName)
    (get : callInfo.funcName ≠ getFuncName) :
    ServiceImp_A.dispatch P msgMap callInfo msgReq =
      .ok (msgMap, ServiceImp_A.serviceStatus, []) := by
  rw [ServiceImp_A.dispatch, if_neg set, if_neg get]
  rfl

/-- A parser that leaves default fields behind makes a set of bytes that it cannot read store an
empty entry. -/
theorem dispatch_malformed (defaults : ∀ bs, accepts bs = false →
      P.msgPair.parseFromString bs = ⟨[], []⟩) (set : callInfo.funcName = setFuncName)
    {payload : Bytes} (read : ZMQMsgToString msgReq = .ok payload)
    (malformed : accepts payload = false) :
    ServiceImp_A.dispatch P msgMap callInfo msgReq =
      .ok (msgMap.insert [] [], ServiceImp_A.serviceStatus, []) := by
  simp only [ServiceImp_A.dispatch, set, ↓reduceIte, parseFromZMQMsg, read, defaults _ malformed,
    bind, Except.bind, pure, Except.pure]
  rfl

theorem executed_set (set : callInfo.funcName = setFuncName) (decodes : Decodes accepts msgReq)
    {result : MsgMap × RPCServiceStatus × Bytes}
    (run : ServiceImp_A.dispatch P msgMap callInfo msgReq = .ok result) :
    Executed P accepts msgMap callInfo msgReq result := by
  obtain ⟨payload, read, accepted⟩ := decodes
  simp only [ServiceImp_A.dispatch, set, ↓reduceIte, parseFromZMQMsg, read, bind, Except.bind, pure,
    Except.pure] at run
  cases run
  exact .set set read accepted

theorem executed_get (get : callInfo.funcName = getFuncName)
    {result : MsgMap × RPCServiceStatus × Bytes}
    (run : ServiceImp_A.dispatch P msgMap callInfo msgReq = .ok result) :
    Executed P accepts msgMap callInfo msgReq result := by
  rw [ServiceImp_A.dispatch, if_neg (by rw [get]; exact getFuncName_ne_setFuncName),
    if_pos get] at run
  obtain ⟨topic, read, run⟩ := bind_eq_ok run
  cases run
  exact .get get read

theorem not_reported (fails : Fails accepts callInfo msgReq) :
    ¬ Reported P accepts msgMap callInfo msgReq := by
  intro h
  obtain ⟨status, reply, run, reported⟩ := h.failed fails
  have hstatus := status_of_dispatch run
  dsimp only at hstatus
  rw [hstatus] at reported
  exact reported rfl

/-- Failures are reported exactly when there is none to report: the call is a get, or a set whose
pair can be read. -/
theorem reported_iff : Reported P accepts msgMap callInfo msgReq ↔
    callInfo.funcName = getFuncName ∨
      (callInfo.funcName = setFuncName ∧ Decodes accepts msgReq) := by
  constructor
  · intro h
    by_contra hnot
    obtain ⟨get, set⟩ := not_or.mp hnot
    refine not_reported ?_ h
    by_cases hset : callInfo.funcName = setFuncName
    · exact .inr ⟨hset, fun decodes => set ⟨hset, decodes⟩⟩
    · exact .inl ⟨hset, get⟩
  · rintro (get | ⟨set, decodes⟩)
    · refine ⟨fun result run _ => executed_get get run, ?_⟩
      rintro (⟨_, unknown⟩ | ⟨set, _⟩)
      · exact absurd get unknown
      · exact absurd (get.symm.trans set) getFuncName_ne_setFuncName
    · refine ⟨fun result run _ => executed_set set decodes run, ?_⟩
      rintro (⟨unknown, _⟩ | ⟨_, malformed⟩)
      · exact absurd set unknown
      · exact absurd decodes malformed

/-- A function that does not exist, and a pair whose one field says that it is longer than the
frame: both are reported as ok, and the second leaves an entry behind. -/
theorem unreported_failures :
    (¬ ∀ msgMap callInfo msgReq,
      Reported RpcProto.protobuf (fun _ => true) msgMap callInfo msgReq) ∧
    ServiceImp_A.dispatch RpcProto.protobuf ∅ ⟨bytesOf "reset", 0⟩ [0] =
      .ok (∅, ServiceImp_A.serviceStatus, []) ∧
    ServiceImp_A.dispatch RpcProto.protobuf ∅ ⟨setFuncName, 0⟩ [10, 5, 0] =
      .ok ((∅ : MsgMap).insert [] [], ServiceImp_A.serviceStatus, []) := by
  refine ⟨fun h => ?_, dispatch_unknown (by decide) (by decide), ?_⟩
  · exact not_reported (.inl ⟨by decide, by decide⟩) (h ∅ ⟨bytesOf "reset", 0⟩ [0])
  · have defaults : ∀ bs : Bytes, (bs != [10, 5]) = false →
        RpcProto.protobuf.msgPair.parseFromString bs = ⟨[], []⟩ := by
      intro bs hbs
      obtain rfl : bs = [10, 5] := by simpa using hbs
      decide
    exact dispatch_malformed defaults rfl rfl rfl

end SimTools.TopicRpc.Failures
