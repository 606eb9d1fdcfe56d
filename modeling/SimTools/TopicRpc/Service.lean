/- Module: SimTools/TopicRpc/Service
   digest: Blocking clients and one server over FIFO channels, and the history of their calls. -/

import SimTools.TopicRpc.SyncRpc
import SimTools.Lib.Channels
import SimTools.Lib.Linearization
import SimTools.Lib.Runs
import Mathlib.Logic.Function.Basic

set_option autoImplicit false
set_option relaxedAutoImplicit false

namespace SimTools.TopicRpc.Service

open Lib.Memory
open Lib.Sockets
open Lib.Channels
open Lib.Linearization
open SyncRpc

inductive Place
  | clientToServer (i : Bytes)
  | serverToClient (i : Bytes)
  deriving DecidableEq

/-- The number of calls that a client has made, and the one in which it waits. -/
structure ClientState where
  calls : Nat
  pending : Option (Nat × Op)

structure System where
  inFlight : Pool Place Parts
  msgMap : MsgMap
  client : Bytes → ClientState

namespace System

def init : System := ⟨[], ∅, fun _ => ⟨0, none⟩⟩

def setClient (s : System) (i : Bytes) (st : ClientState) : System :=
  { s with client := Function.update s.client i st }

end System

abbrev CallId := Bytes × Nat

abbrev History := List (Event CallId Op Reply)

/-- Where the ROUTER socket of the server leads; it takes the identity off. -/
def placeOf (clients : List Bytes) : Parts → Option (Place × Parts)
  | [] => none
  | part :: parts => (route withNul clients part).map (fun i => (.serverToClient i, parts))

inductive Action
  | call (id : CallId) (op : Op)
  | serve (i : Bytes)
  | receive (id : CallId) (r : Reply)

/-- What a client sees of a step. -/
def Action.event? : Action → Option (Event CallId Op Reply)
  | .call id op => some (.invoke id op)
  | .serve _ => none
  | .receive id r => some (.respond id r)

def history (as : List Action) : History := as.filterMap Action.event?

/-- The server may take the next message of any client. -/
inductive Step (P : Protobuf) (clients : List Bytes) : System → Action → System → Prop
  | call {s : System} {i : Bytes} {op : Op} {parts : Parts} :
      i ∈ clients → (s.client i).pending = none → ValidTopic op.topic →
      Client.request P op = .ok parts →
      Step P clients s (.call (i, (s.client i).calls) op)
        { s.setClient i ⟨(s.client i).calls + 1, some ((s.client i).calls, op)⟩ with
          inFlight := s.inFlight ++ [(.clientToServer i, parts)] }
  | serve {s : System} {i : Bytes} {parts msg : Parts} {rest : Pool Place Parts} {msgMap : MsgMap} :
      receive (.clientToServer i) s.inFlight = some (parts, rest) →
      serve P s.msgMap (withNul i :: parts) = .ok (msgMap, msg) →
      Step P clients s (.serve i)
        { s with msgMap := msgMap, inFlight := rest ++ (placeOf clients msg).toList }
  | receive {s : System} {i : Bytes} {k : Nat} {op : Op} {msg : Parts} {rest : Pool Place Parts}
      {r : Reply} :
      (s.client i).pending = some (k, op) →
      receive (.serverToClient i) s.inFlight = some (msg, rest) →
      Client.result P op msg = .ok r →
      Step P clients s (.receive (i, k) r)
        { s.setClient i ⟨(s.client i).calls, none⟩ with inFlight := rest }

theorem placeOf_withNul {clients : List Bytes} {i : Bytes} (h : i ∈ clients) (parts : Parts) :
    placeOf clients (withNul i :: parts) = some (.serverToClient i, parts) := by
  rw [placeOf, route_identity withNul_injective h]
  rfl

/-- The payload that a call sets `topic` to. -/
def payloadFor (topic : Bytes) (c : Call CallId Op Reply) : Option Bytes :=
  match c.op with
  | .setMessageByTopic topic' payload => if topic' = topic then some payload else none
  | .getMessageByTopic _ => none

/-- The payload of the last set on a topic, or the empty string when there is none. -/
def lastSet (topic : Bytes) (order : List (Call CallId Op Reply)) : Bytes :=
  (order.filterMap (payloadFor topic)).getLast?.getD []

/-- What a key-value store answers after the calls in `order`. -/
def answer (order : List (Call CallId Op Reply)) : Op → Reply
  | .getMessageByTopic topic => ⟨ServiceImp_A.serviceStatus, some (lastSet topic order)⟩
  | .setMessageByTopic _ _ => ⟨ServiceImp_A.serviceStatus, none⟩

/-- Every call has the result that the calls before it determine. -/
def Sequential (order : List (Call CallId Op Reply)) : Prop :=
  ∀ before c after, order = before ++ c :: after → c.res = answer before c.op

theorem sequential_nil : Sequential [] := by
  intro before c after h
  simp at h

theorem sequential_concat {order : List (Call CallId Op Reply)} (h : Sequential order)
    {c : Call CallId Op Reply} (hc : c.res = answer order c.op) : Sequential (order ++ [c]) := by
  intro before d after hsplit
  rcases List.eq_nil_or_concat after with rfl | ⟨after, e, rfl⟩
  · obtain ⟨rfl, hd⟩ := List.append_inj' hsplit rfl
    obtain rfl : c = d := by simpa using hd
    exact hc
  · rw [List.concat_eq_append, ← List.cons_append, ← List.append_assoc] at hsplit
    obtain ⟨rfl, _⟩ := List.append_inj' hsplit rfl
    exact h before d after rfl

theorem lastSet_concat_get (topic topic' : Bytes) (order : List (Call CallId Op Reply))
    (id : CallId) (r : Reply) :
    lastSet topic (order ++ [⟨id, .getMessageByTopic topic', r⟩]) = lastSet topic order := by
  simp [lastSet, payloadFor]

theorem lastSet_concat_set (topic topic' payload : Bytes) (order : List (Call CallId Op Reply))
    (id : CallId) (r : Reply) :
    lastSet topic (order ++ [⟨id, .setMessageByTopic topic' payload, r⟩]) =
      if topic' = topic then payload else lastSet topic order := by
  by_cases here : topic' = topic
  · simp [lastSet, payloadFor, here]
  · simp [lastSet, payloadFor, here]

def Holds (msgMap : MsgMap) (order : List (Call CallId Op Reply)) : Prop :=
  ∀ topic, ServiceImp_A.getMessageByTopic msgMap topic = lastSet topic order

theorem holds_init : Holds ∅ [] := by
  intro topic
  simp [ServiceImp_A.getMessageByTopic, lastSet]

/-- `msgMap_` refines the key-value store: the reply is the one it gives, and so is the next
state. -/
theorem Holds.effect {msgMap : MsgMap} {order : List (Call CallId Op Reply)}
    (h : Holds msgMap order) (op : Op) (id : CallId) (r : Reply) :
    (effect msgMap op).2 = answer order op ∧
      Holds (effect msgMap op).1 (order ++ [⟨id, op, r⟩]) := by
  cases op with
  | getMessageByTopic topic =>
    refine ⟨by rw [SyncRpc.effect, answer, h topic], ?_⟩
    intro topic'
    rw [lastSet_concat_get]
    exact h topic'
  | setMessageByTopic topic payload =>
    refine ⟨rfl, ?_⟩
    intro topic'
    rw [lastSet_concat_set, ← h topic']
    simp only [SyncRpc.effect, ServiceImp_A.getMessageByTopic, ServiceImp_A.setMessageByTopic,
      Std.TreeMap.getElem?_insert, Std.LawfulEqCmp.compare_eq_iff_eq]
    split <;> rfl

end SimTools.TopicRpc.Service
