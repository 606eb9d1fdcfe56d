/- Module: SimTools/LoadBalance/Serve
   digest: Clients, workers and the loop of the balance broker as one system over FIFO channels. -/

import SimTools.LoadBalance.Components
import SimTools.Lib.Channels
import SimTools.Lib.Runs
import Mathlib.Logic.Function.Basic

set_option autoImplicit false
set_option relaxedAutoImplicit false

namespace SimTools.LoadBalance.Serve

open Lib.Memory
open Lib.Sockets
open Lib.Channels
open Components

/-- The ids of the clients and of the workers; a client is not named like the alive signal. -/
structure Topology where
  clients : List Bytes
  workers : List Bytes
  not_alive : globalConstID_ALIVE ∉ clients

inductive Place
  | clientToBroker (i : Bytes)
  | brokerToClient (i : Bytes)
  | brokerToWorker (w : Bytes)
  | held (w : Bytes)
  | workerToBroker (w : Bytes)
  deriving DecidableEq

/-- `outstanding` is the task whose result a client waits for. -/
structure System where
  inFlight : Pool Place Parts
  broker : BalanceBroker
  outstanding : Bytes → Option Task
  constructed : List Bytes

namespace System

def init : System := ⟨[], BalanceBroker.init, fun _ => none, []⟩

def deliver (s : System) (rest : Pool Place Parts) (out : Option (Place × Parts)) : System :=
  { s with inFlight := rest ++ out.toList }

end System

/-- Where the ROUTER socket of the front end leads; it takes the identity off. -/
def placeOfFrontEnd (T : Topology) : Parts → Option (Place × Parts)
  | [] => none
  | part :: parts => (route withNul T.clients part).map (fun i => (.brokerToClient i, parts))

def placeOfBackEnd (T : Topology) : Parts → Option (Place × Parts)
  | [] => none
  | part :: parts => (route withNul T.workers part).map (fun w => (.brokerToWorker w, parts))

inductive Action
  | sendRequest (i : Bytes)
  | receiveResult (i : Bytes) (r : TaskResult)
  | constructWorker (w : Bytes)
  | receiveTask (w : Bytes)
  | finishTask (w : Bytes)
  | poll (backEnd frontEnd : Bool)
  | serveBackEnd (w : Bytes)
  | passBackEnd
  | serveFrontEnd (i : Bytes)
  | passFrontEnd

/-- A ROUTER socket puts the sender's identity before what it receives, and may take the next
message of any peer. What one poll reports about the sockets is not restricted: a report without a
message makes the broker wait in `recv`. -/
inductive Step (T : Topology) (add : Double → Double → Double) : System → Action → System → Prop
  | sendRequest {s : System} {i : Bytes} {task : Task} :
      i ∈ T.clients → s.outstanding i = none →
      Step T add s (.sendRequest i)
        ({ s with outstanding := Function.update s.outstanding i (some task) }.deliver s.inFlight
          (some (.clientToBroker i, Client.request task)))
  | receiveResult {s : System} {i : Bytes} {msg : Parts} {rest : Pool Place Parts}
      {r : TaskResult} :
      s.outstanding i ≠ none → receive (.brokerToClient i) s.inFlight = some (msg, rest) →
      Client.result msg = .ok r →
      Step T add s (.receiveResult i r)
        ({ s with outstanding := Function.update s.outstanding i none }.deliver rest none)
  | constructWorker {s : System} {w : Bytes} :
      w ∈ T.workers → w ∉ s.constructed →
      Step T add s (.constructWorker w)
        ({ s with constructed := w :: s.constructed }.deliver s.inFlight
          (some (.workerToBroker w, Worker.aliveSignal)))
  | receiveTask {s : System} {w : Bytes} {msg : Parts} {rest : Pool Place Parts} :
      receive (.brokerToWorker w) s.inFlight = some (msg, rest) →
        queueAt (.held w) s.inFlight = [] →
      Step T add s (.receiveTask w) (s.deliver rest (some (.held w, msg)))
  | finishTask {s : System} {w : Bytes} {msg msg' : Parts} {rest : Pool Place Parts} :
      receive (.held w) s.inFlight = some (msg, rest) → Worker.processImp add msg = .ok msg' →
      Step T add s (.finishTask w) (s.deliver rest (some (.workerToBroker w, msg')))
  | poll {s : System} {backEnd frontEnd : Bool} :
      s.broker.line = .poll →
      Step T add s (.poll backEnd frontEnd) { s with broker := s.broker.poll backEnd frontEnd }
  | serveBackEnd {s : System} {w : Bytes} {msg : Parts} {rest : Pool Place Parts}
      {b : BalanceBroker}
      {out : Option Parts} :
      s.broker.line = .backEnd → s.broker.backEndReady = true →
      receive (.workerToBroker w) s.inFlight = some (msg, rest) →
      s.broker.serveBackEnd (withNul w :: msg) = .ok (b, out) →
      Step T add s (.serveBackEnd w)
        ({ s with broker := b }.deliver rest (out.bind (placeOfFrontEnd T)))
  | passBackEnd {s : System} :
      s.broker.line = .backEnd → s.broker.backEndReady = false →
      Step T add s .passBackEnd { s with broker := { s.broker with line := .frontEnd } }
  | serveFrontEnd {s : System} {i : Bytes} {msg : Parts} {rest : Pool Place Parts}
      {b : BalanceBroker}
      {out : Option Parts} :
      s.broker.line = .frontEnd → s.broker.frontEndReady = true →
      receive (.clientToBroker i) s.inFlight = some (msg, rest) →
      s.broker.serveFrontEnd (withNul i :: msg) = .ok (b, out) →
      Step T add s (.serveFrontEnd i)
        ({ s with broker := b }.deliver rest (out.bind (placeOfBackEnd T)))
  | passFrontEnd {s : System} :
      s.broker.line = .frontEnd → s.broker.frontEndReady = false →
      Step T add s .passFrontEnd { s with broker := { s.broker with line := .poll } }

variable {T : Topology} {i w : Bytes}

theorem placeOfFrontEnd_withNul (h : i ∈ T.clients) (parts : Parts) :
    placeOfFrontEnd T (withNul i :: parts) = some (.brokerToClient i, parts) := by
  rw [placeOfFrontEnd, route_identity withNul_injective h]
  rfl

theorem placeOfBackEnd_withNul (h : w ∈ T.workers) (parts : Parts) :
    placeOfBackEnd T (withNul w :: parts) = some (.brokerToWorker w, parts) := by
  rw [placeOfBackEnd, route_identity withNul_injective h]
  rfl

def oneOfEach : Topology where
  clients := [[115, 116, 117, 98, 95, 48]]
  workers := [[119, 111, 114, 107, 101, 114, 95, 48]]
  not_alive := by decide

end SimTools.LoadBalance.Serve
