/- Module: SimTools/DataCenter/Network
   digest: The data center as one system: clients, workers, brokers, super broker and their channels. -/

import SimTools.DataCenter.SuperBroker
import SimTools.Lib.Channels
import SimTools.Lib.Sockets
import SimTools.Lib.Runs

set_option autoImplicit false
set_option relaxedAutoImplicit false

namespace SimTools.DataCenter.Network

open Lib.Memory
open Lib.Channels
open ClusterCore
open TaskHeader
open ClusterBroker

/-- The clusters, and the ids of the clients and workers in each of them; different clusters may
use the same ids. `ClusterCfg::workerNum` has 32 bits. -/
structure Topology where
  names : List Name
  clients : Name → List Name
  workers : Name → List Name
  names_ne : ∀ c ∈ names, c.bytes ≠ []
  clients_ne : ∀ c ∈ names, ∀ i ∈ clients c, i.bytes ≠ []
  workers_nodup : ∀ c, (workers c).Nodup
  workers_few : ∀ c, (workers c).length < 2 ^ 32

/-- The end of a channel where a message waits, or the worker that holds it. -/
inductive Place
  | clientToBroker (c i : Name)
  | brokerToClient (c i : Name)
  | brokerToWorker (c w : Name)
  | held (c w : Name)
  | workerToBroker (c w : Name)
  | brokerToSuper (c : Name)
  | superToBroker (c : Name)
  deriving DecidableEq

/-- One call of `Client::sendRequest`, the `seq`-th of its client. -/
structure Request where
  cluster : Name
  client : Name
  seq : Nat
  taskID : UInt64
  task : TaskRequest
  deriving DecidableEq

/-- A message with the call it stems from. No component reads `origin`. -/
structure Parcel where
  message : Message
  origin : Option Request
  deriving DecidableEq

structure ClientState where
  sent : Nat
  outstanding : Option Request

structure System where
  inFlight : Pool Place Parcel
  broker : Name → LocalBalanceBroker
  client : Name → Name → ClientState
  superBroker : SuperBroker
  constructed : List Place

inductive Action
  | constructBroker (c : Name)
  | constructWorker (c w : Name)
  | sendRequest (c i : Name)
  | receiveReply (c i : Name)
  | receiveTask (c w : Name)
  | finishTask (c w : Name)
  | routeLocalRequest (c i : Name)
  | routeLocalReply (c w : Name)
  | routeCloud (c : Name)
  | statePuller (c : Name)
  | taskRouter (c : Name)
  deriving DecidableEq

/-- What a step did, what it took from a channel and what it put on one. -/
structure Event where
  action : Action
  consumed : Option (Place × Parcel)
  emitted : Option (Place × Parcel)

namespace System

def init : System :=
  ⟨[], fun c => LocalBalanceBroker.init c.bytes, fun _ _ => ⟨0, none⟩, SuperBroker.init, []⟩

def setBroker (s : System) (c : Name) (b : LocalBalanceBroker) : System :=
  { s with broker := Function.update s.broker c b }

def setClient (s : System) (c i : Name) (st : ClientState) : System :=
  { s with client := Function.update s.client c (Function.update (s.client c) i st) }

/-- The channels after a step: `rest` was left over, `out` is new. -/
def deliver (s : System) (rest : Pool Place Parcel) (out : Option (Place × Parcel)) : System :=
  { s with inFlight := rest ++ out.toList }

def nextRequest (s : System) (c i : Name) (taskID : UInt64) (task : TaskRequest) : Request :=
  ⟨c, i, (s.client c i).sent, taskID, task⟩

end System

/-- The peers of a ROUTER socket, by the identity frames that they have set. -/
def routeIdentity (peers : List Name) (identity : Bytes) : Option Name :=
  Lib.Sockets.route Name.identity peers identity

/-- Where the sockets of the broker of `c` lead. -/
def placeOf (T : Topology) (c : Name) : Outgoing → Option (Place × Message)
  | .frontEnd identity m =>
    (routeIdentity (T.clients c) identity).map (fun i => (.brokerToClient c i, m))
  | .backEnd identity m =>
    (routeIdentity (T.workers c) identity).map (fun w => (.brokerToWorker c w, m))
  | .cloudTask m => some (.brokerToSuper c, m)

def source : Action → Option Place
  | .receiveReply c i => some (.brokerToClient c i)
  | .receiveTask c w => some (.brokerToWorker c w)
  | .finishTask c w => some (.held c w)
  | .routeLocalRequest c i => some (.clientToBroker c i)
  | .routeLocalReply c w => some (.workerToBroker c w)
  | .routeCloud c => some (.superToBroker c)
  | .taskRouter c => some (.brokerToSuper c)
  | .constructBroker _ | .constructWorker _ _ | .sendRequest _ _ | .statePuller _ => none

/-- A client receives inside `sendRequest` only, and a worker has one task at a time. -/
def Ready (s : System) : Action → Prop
  | .receiveReply c i => (s.client c i).outstanding ≠ none
  | .receiveTask c w => queueAt (.held c w) s.inFlight = []
  | _ => True

/-- What a handler does with the message it has read. -/
def react (T : Topology) (add : Double → Double → Double) (s : System) (m : Message) :
    Action → Except MemError (System × Option (Place × Message))
  | .receiveReply c i => do
    let _ ← Client.result m
    pure (s.setClient c i { s.client c i with outstanding := none }, none)
  | .receiveTask c w => pure (s, some (.held c w, m))
  | .finishTask c w => do
    let m ← Worker.process add w.bytes m
    pure (s, some (.workerToBroker c w, m))
  | .routeLocalRequest c _ => do
    let (b, out) ← (s.broker c).routeLocalRequest m
    pure (s.setBroker c b, out.bind (placeOf T c))
  | .routeLocalReply c _ => do
    let (b, out) ← (s.broker c).routeLocalReply m
    pure (s.setBroker c b, out.bind (placeOf T c))
  | .routeCloud c => do
    let (b, out) ← (s.broker c).routeCloud m
    pure (s.setBroker c b, out.bind (placeOf T c))
  | .taskRouter _ => do
    let out ← s.superBroker.taskRouter m
    pure (s, out.bind (fun (identity, m) =>
      (routeIdentity T.names identity).map (fun c => (.superToBroker c, m))))
  | .constructBroker _ | .constructWorker _ _ | .sendRequest _ _ | .statePuller _ => pure (s, none)

variable (T : Topology) (add : Double → Double → Double)

inductive Step : System → Event → System → Prop
  | constructBroker {s : System} {c : Name} {m : Message} :
      c ∈ T.names → .brokerToSuper c ∉ s.constructed →
        LocalBalanceBroker.aliveSignal c.bytes = .ok m →
      Step s ⟨.constructBroker c, none, some (.brokerToSuper c, ⟨m, none⟩)⟩
        ({ s with constructed := .brokerToSuper c :: s.constructed }.deliver s.inFlight
          (some (.brokerToSuper c, ⟨m, none⟩)))
  | constructWorker {s : System} {c w : Name} {m : Message} :
      c ∈ T.names → w ∈ T.workers c → .workerToBroker c w ∉ s.constructed →
      Worker.aliveSignal w.bytes = .ok m →
      Step s ⟨.constructWorker c w, none, some (.workerToBroker c w, ⟨m, none⟩)⟩
        ({ s with constructed := .workerToBroker c w :: s.constructed }.deliver s.inFlight
          (some (.workerToBroker c w, ⟨m, none⟩)))
  | sendRequest {s : System} {c i : Name} {taskID : UInt64} {task : TaskRequest} {m : Message} :
      c ∈ T.names → i ∈ T.clients c → (s.client c i).outstanding = none →
      Client.request i.bytes taskID task = .ok m →
      Step s ⟨.sendRequest c i, none,
          some (.clientToBroker c i, ⟨m, some (s.nextRequest c i taskID task)⟩)⟩
        ((s.setClient c i ⟨(s.client c i).sent + 1, some (s.nextRequest c i taskID task)⟩).deliver
          s.inFlight (some (.clientToBroker c i, ⟨m, some (s.nextRequest c i taskID task)⟩)))
  | statePuller {s : System} {c : Name} {count : UInt32} {msg : Bytes} {super : SuperBroker} :
      c ∈ T.names → stateReport c.bytes count = .ok msg →
        s.superBroker.statePuller msg = .ok super →
      Step s ⟨.statePuller c, none, none⟩ { s with superBroker := super }
  | handle {s t : System} {a : Action} {p : Place} {x : Parcel} {rest : Pool Place Parcel}
      {out : Option (Place × Message)} :
      source a = some p → receive p s.inFlight = some (x, rest) → Ready s a →
      react T add s x.message a = .ok (t, out) →
      Step s ⟨a, some (p, x), out.map (fun q => (q.1, ⟨q.2, x.origin⟩))⟩
        (t.deliver rest (out.map (fun q => (q.1, ⟨q.2, x.origin⟩))))

theorem routeIdentity_identity {peers : List Name} {n : Name} (h : n ∈ peers) :
    routeIdentity peers n.identity = some n :=
  Lib.Sockets.route_identity (fun _ _ he => Name.identity_injective he) h

theorem placeOf_frontEnd {c i : Name} (h : i ∈ T.clients c) (m : Message) :
    placeOf T c (.frontEnd i.identity m) = some (.brokerToClient c i, m) := by
  rw [placeOf, routeIdentity_identity h]
  rfl

theorem placeOf_backEnd {c w : Name} (h : w ∈ T.workers c) (m : Message) :
    placeOf T c (.backEnd w.identity m) = some (.brokerToWorker c w, m) := by
  rw [placeOf, routeIdentity_identity h]
  rfl

theorem exists_send {s : System} {c i : Name} (hc : c ∈ T.names) (hi : i ∈ T.clients c)
    (idle : (s.client c i).outstanding = none) (taskID : UInt64) (task : TaskRequest) :
    ∃ e t, Step T add s e t ∧
      (t.client c i).outstanding = some (s.nextRequest c i taskID task) := by
  obtain ⟨metaMsg, hsend, _⟩ := Client.request_eq i taskID task
  exact ⟨_, _, .sendRequest hc hi idle hsend, by simp [System.deliver, System.setClient]⟩

/-- One cluster with one client and one worker, under the names that the code gives them. -/
def oneCluster : Topology where
  names := [⟨[67, 108, 117, 115, 116, 101, 114], by decide, by decide⟩]
  clients := fun _ => [⟨[99, 108, 105, 101, 110, 116, 95, 48], by decide, by decide⟩]
  workers := fun _ => [⟨[119, 111, 114, 107, 101, 114, 95, 48], by decide, by decide⟩]
  names_ne := by simp
  clients_ne := by simp
  workers_nodup := by simp
  workers_few := by simp

end SimTools.DataCenter.Network
