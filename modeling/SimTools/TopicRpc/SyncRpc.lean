/- Module: SimTools/TopicRpc/SyncRpc
   digest: sync_rpc.cpp and rpc.proto: message framing, the two client calls, dispatch and service. -/

import SimTools.Lib.Sockets

set_option autoImplicit false
set_option relaxedAutoImplicit false

namespace SimTools.TopicRpc.SyncRpc

open Lib.Memory
open Lib.Sockets

def bytesOf (str : String) : Bytes := str.toByteArray.data.toList

def IsUtf8 (str : Bytes) : Prop := ByteArray.IsValidUTF8 ⟨str.toArray⟩

/-- `rpc.proto` -/
structure RPCCallInfo where
  funcName : Bytes
  flag : UInt32
  deriving DecidableEq

structure RPCServiceStatus where
  state : UInt32
  info : Bytes
  deriving DecidableEq

structure RPCMsgPair where
  topic : Bytes
  payload : Bytes
  deriving DecidableEq

/-- `SerializeToString`, and the message that `ParseFromString` leaves behind. -/
structure Codec (A : Type) where
  serializeToString : A → Bytes
  parseFromString : Bytes → A

/-- The code that protoc generates. -/
structure Protobuf where
  callInfo : Codec RPCCallInfo
  serviceStatus : Codec RPCServiceStatus
  msgPair : Codec RPCMsgPair

/-- `ParseFromString` undoes `SerializeToString`, for strings that are valid UTF-8. -/
structure Protobuf.RoundTrips (P : Protobuf) : Prop where
  callInfo : ∀ m, IsUtf8 m.funcName → P.callInfo.parseFromString
    (P.callInfo.serializeToString m) = m
  serviceStatus : ∀ m, IsUtf8 m.info →
    P.serviceStatus.parseFromString (P.serviceStatus.serializeToString m) = m
  msgPair : ∀ m, IsUtf8 m.topic → P.msgPair.parseFromString (P.msgPair.serializeToString m) = m

namespace MessageHelper

def stringToZMQMsg (payload : Bytes) : Bytes := withNul payload

def ZMQMsgToString (msg : Bytes) : Except MemError Bytes := dropNul msg

def protobufToZMQMsg {A : Type} (codec : Codec A) (message : A) : Bytes :=
  stringToZMQMsg (codec.serializeToString message)

def parseFromZMQMsg {A : Type} (codec : Codec A) (msg : Bytes) : Except MemError A := do
  let payload ← ZMQMsgToString msg
  pure (codec.parseFromString payload)

theorem parseFromZMQMsg_protobufToZMQMsg {A : Type} (codec : Codec A) (message : A)
    (roundTrip : codec.parseFromString (codec.serializeToString message) = message) :
    parseFromZMQMsg codec (protobufToZMQMsg codec message) = .ok message := by
  simp only [parseFromZMQMsg, protobufToZMQMsg, ZMQMsgToString, stringToZMQMsg, dropNul_withNul,
    roundTrip, bind, Except.bind, pure, Except.pure]

end MessageHelper

open MessageHelper

/-- `"getMessageByTopic_string_string"`, with the signature in the name. -/
def getFuncName : Bytes := bytesOf "getMessageByTopic_string_string"

def setFuncName : Bytes := bytesOf "setMessageByTopic_string_string"

inductive Op
  | getMessageByTopic (topic : Bytes)
  | setMessageByTopic (topic payload : Bytes)
  deriving DecidableEq

def Op.topic : Op → Bytes
  | .getMessageByTopic topic | .setMessageByTopic topic _ => topic

/-- What a call gives back: the status, and the payload of a get. -/
structure Reply where
  status : RPCServiceStatus
  payload : Option Bytes
  deriving DecidableEq

namespace Client

def emptyTopic : RPCServiceStatus := ⟨1, bytesOf "empty topic will not be served"⟩

/-- What a call sends, or the status with which it returns at once. -/
def request (P : Protobuf) : Op → Except RPCServiceStatus Parts
  | .getMessageByTopic topic =>
    if topic = [] then .error emptyTopic
    else .ok [protobufToZMQMsg P.callInfo ⟨getFuncName, 0⟩, stringToZMQMsg topic]
  | .setMessageByTopic topic payload =>
    if topic = [] then .error emptyTopic
    -- `set_topic(topic.c_str())` ends at a NUL, `set_payload` is given the size
    else .ok [protobufToZMQMsg P.callInfo ⟨setFuncName, 0⟩,
      protobufToZMQMsg P.msgPair ⟨topic.takeWhile (· != 0), payload⟩]

/-- What a call makes of the answer. -/
def result (P : Protobuf) (op : Op) (msg : Parts) : Except MemError Reply := do
  let (_, msg) ← recv msg
  let (servStateMsg, msg) ← recv msg
  let (replyMsg, msg) ← recv msg
  done msg
  let serviceStatus ← parseFromZMQMsg P.serviceStatus servStateMsg
  match op with
  | .getMessageByTopic _ => do
    let payload ← ZMQMsgToString replyMsg
    pure ⟨serviceStatus, some payload⟩
  | .setMessageByTopic _ _ => pure ⟨serviceStatus, none⟩

end Client

abbrev MsgMap := Std.TreeMap Bytes Bytes

namespace ServiceImp_A

/- The status that the two return, for which `dispatch` has one of its own, is left out. -/

def getMessageByTopic (msgMap : MsgMap) (topic : Bytes) : Bytes := msgMap[topic]?.getD []

def setMessageByTopic (msgMap : MsgMap) (topic payload : Bytes) : MsgMap :=
  msgMap.insert topic payload

theorem getMessageByTopic_setMessageByTopic (msgMap : MsgMap) (topic payload : Bytes) :
    getMessageByTopic (setMessageByTopic msgMap topic payload) topic = payload := by
  rw [getMessageByTopic, setMessageByTopic, Std.TreeMap.getElem?_insert_self, Option.getD_some]

/-- The status that a default constructor leaves. -/
def serviceStatus : RPCServiceStatus := ⟨0, []⟩

/-- `ServiceImpBase::dispatch`. The reply of a set, and of a function that is not known, is a
message of no bytes. -/
def dispatch (P : Protobuf) (msgMap : MsgMap) (callInfo : RPCCallInfo) (msgReq : Bytes) :
    Except MemError (MsgMap × RPCServiceStatus × Bytes) :=
  if callInfo.funcName = setFuncName then do
    let msgPair ← parseFromZMQMsg P.msgPair msgReq
    pure (setMessageByTopic msgMap msgPair.topic msgPair.payload, serviceStatus, [])
  else if callInfo.funcName = getFuncName then do
    let topic ← ZMQMsgToString msgReq
    pure (msgMap, serviceStatus, stringToZMQMsg (getMessageByTopic msgMap topic))
  else pure (msgMap, serviceStatus, [])

end ServiceImp_A

/-- One iteration of `Server::serve`, with the identity part before the message. -/
def serve (P : Protobuf) (msgMap : MsgMap) (msg : Parts) : Except MemError (MsgMap × Parts) := do
  let (msgID, msg) ← recv msg
  let (msgCallInfo, msg) ← recv msg
  let (msgReq, msg) ← recv msg
  done msg
  let callInfo ← parseFromZMQMsg P.callInfo msgCallInfo
  let (msgMap, servStatus, msgReply) ← ServiceImp_A.dispatch P msgMap callInfo msgReq
  pure (msgMap, [msgID, msgCallInfo, protobufToZMQMsg P.serviceStatus servStatus, msgReply])

structure ValidTopic (topic : Bytes) : Prop where
  ne_nil : topic ≠ []
  nul_free : 0 ∉ topic
  utf8 : IsUtf8 topic

theorem isUtf8_bytesOf (str : String) : IsUtf8 (bytesOf str) := by
  simpa [IsUtf8, bytesOf] using str.isValidUTF8

theorem getFuncName_ne_setFuncName : getFuncName ≠ setFuncName := by
  decide

def effect (msgMap : MsgMap) : Op → MsgMap × Reply
  | .getMessageByTopic topic =>
    (msgMap, ⟨ServiceImp_A.serviceStatus, some (ServiceImp_A.getMessageByTopic msgMap topic)⟩)
  | .setMessageByTopic topic payload =>
    (ServiceImp_A.setMessageByTopic msgMap topic payload, ⟨ServiceImp_A.serviceStatus, none⟩)

variable {P : Protobuf}

theorem serve_set (hP : P.RoundTrips) {key payload : Bytes}
    (pair : P.msgPair.parseFromString (P.msgPair.serializeToString ⟨key, payload⟩) =
      ⟨key, payload⟩) (msgMap : MsgMap) (msgID : Bytes) :
    ∃ msg, serve P msgMap [msgID, protobufToZMQMsg P.callInfo ⟨setFuncName, 0⟩,
        protobufToZMQMsg P.msgPair ⟨key, payload⟩] =
          .ok (ServiceImp_A.setMessageByTopic msgMap key payload, msgID :: msg) ∧
      ∀ topic payload', Client.result P (.setMessageByTopic topic payload') msg =
        .ok ⟨ServiceImp_A.serviceStatus, none⟩ := by
  have hstatus := parseFromZMQMsg_protobufToZMQMsg P.serviceStatus ServiceImp_A.serviceStatus
    (hP.serviceStatus _ (isUtf8_bytesOf ""))
  have hinfo := parseFromZMQMsg_protobufToZMQMsg P.callInfo ⟨setFuncName, 0⟩
    (hP.callInfo _ (isUtf8_bytesOf _))
  have hpair := parseFromZMQMsg_protobufToZMQMsg P.msgPair ⟨key, payload⟩ pair
  refine ⟨[protobufToZMQMsg P.callInfo ⟨setFuncName, 0⟩,
    protobufToZMQMsg P.serviceStatus ServiceImp_A.serviceStatus, []], ?_, fun _ _ => ?_⟩
  · simp only [serve, recv_cons, done_nil, hinfo, ServiceImp_A.dispatch, ↓reduceIte, hpair, bind,
      Except.bind, pure, Except.pure]
  · simp only [Client.result, recv_cons, done_nil, hstatus, bind, Except.bind, pure, Except.pure]

theorem serve_get (hP : P.RoundTrips) (topic : Bytes) (msgMap : MsgMap) (msgID : Bytes) :
    ∃ msg, serve P msgMap [msgID, protobufToZMQMsg P.callInfo ⟨getFuncName, 0⟩,
        stringToZMQMsg topic] = .ok (msgMap, msgID :: msg) ∧
      ∀ topic', Client.result P (.getMessageByTopic topic') msg =
        .ok ⟨ServiceImp_A.serviceStatus, some (ServiceImp_A.getMessageByTopic msgMap topic)⟩ := by
  have hstatus := parseFromZMQMsg_protobufToZMQMsg P.serviceStatus ServiceImp_A.serviceStatus
    (hP.serviceStatus _ (isUtf8_bytesOf ""))
  have hinfo := parseFromZMQMsg_protobufToZMQMsg P.callInfo ⟨getFuncName, 0⟩
    (hP.callInfo _ (isUtf8_bytesOf _))
  refine ⟨[protobufToZMQMsg P.callInfo ⟨getFuncName, 0⟩,
    protobufToZMQMsg P.serviceStatus ServiceImp_A.serviceStatus,
    stringToZMQMsg (ServiceImp_A.getMessageByTopic msgMap topic)], ?_, fun _ => ?_⟩
  · simp only [serve, recv_cons, done_nil, hinfo, ServiceImp_A.dispatch,
      getFuncName_ne_setFuncName, ↓reduceIte, ZMQMsgToString, stringToZMQMsg, dropNul_withNul,
      bind, Except.bind, pure, Except.pure]
  · simp only [Client.result, recv_cons, done_nil, hstatus, ZMQMsgToString, stringToZMQMsg,
      dropNul_withNul, bind, Except.bind, pure, Except.pure]

theorem exists_request {op : Op} (valid : ValidTopic op.topic) :
    ∃ parts, Client.request P op = .ok parts := by
  cases op with
  | getMessageByTopic topic => exact ⟨_, if_neg (show ¬ topic = [] from valid.ne_nil)⟩
  | setMessageByTopic topic => exact ⟨_, if_neg (show ¬ topic = [] from valid.ne_nil)⟩

/-- The two calls agree with `dispatch` on the framing and the name of the function: the service
does what the call is for, and the client reads what the service gave. -/
theorem serve_request (hP : P.RoundTrips) {op : Op} (valid : ValidTopic op.topic) {parts : Parts}
    (request : Client.request P op = .ok parts) (msgMap : MsgMap) (msgID : Bytes) :
    ∃ msg, serve P msgMap (msgID :: parts) = .ok ((effect msgMap op).1, msgID :: msg) ∧
      Client.result P op msg = .ok (effect msgMap op).2 := by
  cases op with
  | getMessageByTopic topic =>
    rw [Client.request, if_neg (show ¬ topic = [] from valid.ne_nil)] at request
    cases request
    obtain ⟨msg, served, result⟩ := serve_get hP topic msgMap msgID
    exact ⟨msg, served, result topic⟩
  | setMessageByTopic topic payload =>
    have htopic := takeWhile_eq_self_iff_nul_free.mpr (show 0 ∉ topic from valid.nul_free)
    rw [Client.request, if_neg (show ¬ topic = [] from valid.ne_nil), htopic] at request
    cases request
    obtain ⟨msg, served, result⟩ :=
      serve_set hP (hP.msgPair ⟨topic, payload⟩ valid.utf8) msgMap msgID
    exact ⟨msg, served, result topic payload⟩

end SimTools.TopicRpc.SyncRpc
