/- Module: SimTools/TopicRpc/Keys
   digest: The key of a set and the key of a get: for which topics the two encodings agree. -/

import SimTools.TopicRpc.RpcProto

set_option autoImplicit false
set_option relaxedAutoImplicit false

namespace SimTools.TopicRpc.Keys

open Lib.Memory
open Lib.Sockets
open SyncRpc

/-- `ParseFromString` undoes `SerializeToString`, for pairs of any two strings. -/
structure RoundTripsAll (P : Protobuf) : Prop extends P.RoundTrips where
  anyPair : ∀ m, P.msgPair.parseFromString (P.msgPair.serializeToString m) = m

/-- One call of client `id` with nothing else under way: the store after it, and its reply. The
ROUTER socket takes the identity off the answer. -/
def call (P : Protobuf) (id : Bytes) (msgMap : MsgMap) (op : Op) :
    Except MemError (MsgMap × Reply) :=
  match Client.request P op, op with
  | .error status, .getMessageByTopic _ => .ok (msgMap, ⟨status, some []⟩)
  | .error status, .setMessageByTopic _ _ => .ok (msgMap, ⟨status, none⟩)
  | .ok parts, _ => do
    let (msgMap, msg) ← serve P msgMap (withNul id :: parts)
    let (_, msg) ← recv msg
    let reply ← Client.result P op msg
    pure (msgMap, reply)

/-- What `set_topic(topic.c_str())` makes of a topic. -/
def cstrOf (topic : Bytes) : Bytes := topic.takeWhile (· != 0)

/-- Under one key a set stores the payload and a get looks it up. -/
def SameKey (P : Protobuf) (topic : Bytes) : Prop :=
  ∃ key, ∀ id msgMap,
    (∀ payload, call P id msgMap (.setMessageByTopic topic payload) =
      .ok (msgMap.insert key payload, ⟨ServiceImp_A.serviceStatus, none⟩)) ∧
    call P id msgMap (.getMessageByTopic topic) =
      .ok (msgMap, ⟨ServiceImp_A.serviceStatus, some (msgMap[key]?.getD [])⟩)

/-- A get right after a set returns what was set. -/
def ReadsBack (P : Protobuf) (topic : Bytes) : Prop :=
  ∀ i j msgMap payload, ∃ msgMap' r r',
    call P i msgMap (.setMessageByTopic topic payload) = .ok (msgMap', r) ∧
      call P j msgMap' (.getMessageByTopic topic) = .ok (msgMap', r') ∧ r'.payload = some payload

/-- A set changes no get of another topic. -/
def LeavesOthers (P : Protobuf) (topic : Bytes) : Prop :=
  ∀ i j msgMap payload other, other ≠ [] → other ≠ topic → ∃ msgMap' r r',
    call P i msgMap (.setMessageByTopic topic payload) = .ok (msgMap', r) ∧
      call P j msgMap (.getMessageByTopic other) = .ok (msgMap, r') ∧
      call P j msgMap' (.getMessageByTopic other) = .ok (msgMap', r')

/-- Set and get agree on the key of the topic. -/
structure Agrees (P : Protobuf) (topic : Bytes) : Prop where
  sameKey : SameKey P topic
  readsBack : ReadsBack P topic
  leavesOthers : LeavesOthers P topic

variable {P : Protobuf} {topic : Bytes}

theorem call_set (hP : RoundTripsAll P) (ne_nil : topic ≠ []) (id : Bytes) (msgMap : MsgMap)
    (payload : Bytes) :
    call P id msgMap (.setMessageByTopic topic payload) =
      .ok (msgMap.insert (cstrOf topic) payload, ⟨ServiceImp_A.serviceStatus, none⟩) := by
  obtain ⟨msg, served, result⟩ :=
    serve_set hP.toRoundTrips (hP.anyPair ⟨cstrOf topic, payload⟩) msgMap (withNul id)
  rw [cstrOf] at served
  simp only [call, Client.request, ne_nil, ↓reduceIte, served, recv_cons, result, bind,
    Except.bind, pure, Except.pure]
  rfl

theorem call_get (hP : RoundTripsAll P) (ne_nil : topic ≠ []) (id : Bytes) (msgMap : MsgMap) :
    call P id msgMap (.getMessageByTopic topic) =
      .ok (msgMap, ⟨ServiceImp_A.serviceStatus, some (msgMap[topic]?.getD [])⟩) := by
  obtain ⟨msg, served, result⟩ := serve_get hP.toRoundTrips topic msgMap (withNul id)
  simp only [call, Client.request, ne_nil, ↓reduceIte, served, recv_cons, result, bind,
    Except.bind, pure, Except.pure]
  rfl

theorem cstrOf_eq_iff : cstrOf topic = topic ↔ 0 ∉ topic := takeWhile_eq_self_iff_nul_free

theorem cstrOf_eq_nil (ne_nil : topic ≠ []) : cstrOf topic = [] ↔ topic.head? = some 0 := by
  cases topic with
  | nil => exact absurd rfl ne_nil
  | cons b rest => simp [cstrOf, List.takeWhile_cons]

theorem getD_insert (msgMap : MsgMap) (key payload other : Bytes) :
    (msgMap.insert key payload)[other]?.getD [] =
      if key = other then payload else msgMap[other]?.getD [] := by
  simp only [Std.TreeMap.getElem?_insert, Std.LawfulEqCmp.compare_eq_iff_eq]
  split <;> rfl

theorem readsBack_iff (hP : RoundTripsAll P) (ne_nil : topic ≠ []) :
    ReadsBack P topic ↔ 0 ∉ topic := by
  rw [← cstrOf_eq_iff]
  constructor
  · intro h
    obtain ⟨msgMap', r, r', hset, hget, hpayload⟩ := h [] [] ∅ [1]
    rw [call_set hP ne_nil] at hset
    cases hset
    rw [call_get hP ne_nil] at hget
    cases hget
    by_contra other
    simp [other] at hpayload
  · intro same i j msgMap payload
    refine ⟨_, _, _, call_set hP ne_nil i msgMap payload, call_get hP ne_nil j _, ?_⟩
    rw [getD_insert, if_pos same]

/-- A set also leaves the other topics alone when nothing is left of its own. -/
theorem leavesOthers_iff (hP : RoundTripsAll P) (ne_nil : topic ≠ []) :
    LeavesOthers P topic ↔ 0 ∉ topic ∨ topic.head? = some 0 := by
  rw [← cstrOf_eq_iff, ← cstrOf_eq_nil ne_nil]
  constructor
  · intro h
    by_contra hkey
    obtain ⟨hother, hkey⟩ := not_or.mp hkey
    obtain ⟨msgMap', r, r', hset, hbefore, hafter⟩ := h [] [] ∅ [1] (cstrOf topic) hkey hother
    rw [call_set hP ne_nil] at hset
    cases hset
    rw [call_get hP hkey] at hbefore hafter
    cases hbefore
    simp at hafter
  · intro h i j msgMap payload other hother hne
    have hkey : cstrOf topic ≠ other := by
      rcases h with same | empty
      · rw [same]
        exact Ne.symm hne
      · rw [empty]
        exact Ne.symm hother
    refine ⟨_, _, _, call_set hP ne_nil i msgMap payload, call_get hP hother j msgMap, ?_⟩
    rw [call_get hP hother, getD_insert, if_neg hkey]

theorem sameKey_of_nul_free (hP : RoundTripsAll P) (ne_nil : topic ≠ []) (nul_free : 0 ∉ topic) :
    SameKey P topic := by
  refine ⟨topic, fun id msgMap => ⟨fun payload => ?_, call_get hP ne_nil id msgMap⟩⟩
  rw [call_set hP ne_nil, cstrOf_eq_iff.mpr nul_free]

/-- Set and get agree on a topic, on its entry and on what they leave alone, exactly when the topic
has no NUL. -/
theorem agrees_iff_nul_free (hP : RoundTripsAll P) (ne_nil : topic ≠ []) :
    Agrees P topic ↔ 0 ∉ topic := by
  constructor
  · intro h
    exact (readsBack_iff hP ne_nil).mp h.readsBack
  · intro nul_free
    exact ⟨sameKey_of_nul_free hP ne_nil nul_free, (readsBack_iff hP ne_nil).mpr nul_free,
      (leavesOthers_iff hP ne_nil).mpr (.inl nul_free)⟩

theorem roundTripsAll : RoundTripsAll RpcProto.protobuf where
  toRoundTrips := RpcProto.roundTrips
  anyPair := RpcProto.msgPair_roundTrip

theorem agrees_iff_nul_free_location :
    Agrees RpcProto.protobuf (bytesOf "LOCATION") ↔ 0 ∉ bytesOf "LOCATION" :=
  agrees_iff_nul_free roundTripsAll (by decide)

/-- A topic with a NUL inside is stored under what stands before it. -/
theorem nul_in_topic : ¬ ∀ topic, topic ≠ [] → Agrees RpcProto.protobuf topic := by
  intro h
  have hread := (readsBack_iff roundTripsAll (by decide)).mp (h [97, 0, 98] (by decide)).readsBack
  exact hread (by decide)

end SimTools.TopicRpc.Keys
