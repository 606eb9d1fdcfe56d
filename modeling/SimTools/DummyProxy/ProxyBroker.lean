/- Module: SimTools/DummyProxy/ProxyBroker
   digest: dummy_proxy.cpp: clients, the zmq proxy between its two sockets, and workers on ROUTERs. -/

import SimTools.LoadBalance.Components
import SimTools.Lib.OpenCalls
import SimTools.Lib.Runs

set_option autoImplicit false
set_option relaxedAutoImplicit false

namespace SimTools.DummyProxy.ProxyBroker

open Lib.Memory
open Lib.Sockets
open Lib.Channels
open Lib.Runs
open Lib.OpenCalls
open LoadBalance.Components (Task TaskResult)
open LoadBalance.Components.Worker (sumOf)

/-- "BrokerDealer", the identity of the back end; its 13 bytes include the NUL. -/
def brokerID : Bytes := [66, 114, 111, 107, 101, 114, 68, 101, 97, 108, 101, 114]

namespace Client

/-- `Client::sendRequestImp` up to the send. -/
def request (task : Task) : Parts := [task.image]

/-- `Client::sendRequestImp` from the receive on. -/
def result (msg : Parts) : Except MemError TaskResult := do
  let (taskResultMsg, msg) ← recv msg
  done msg
  TaskResult.ofMsg taskResultMsg

theorem result_eq (r : TaskResult) : result [r.image] = .ok r := by
  simp only [result, recv_cons, done_nil, TaskResult.ofMsg_image, bind, Except.bind]

end Client

namespace Worker

/-- `Worker::processImp` between its receives and its sends. The first part names the peer of the
worker's ROUTER socket. -/
def processImp (add : Double → Double → Double) (msg : Parts) : Except MemError Parts := do
  let (brokerIDMsg, msg) ← recv msg
  let (clientIDMsg, msg) ← recv msg
  let (taskMsg, msg) ← recv msg
  done msg
  let _ ← dropNul brokerIDMsg
  let _ ← dropNul clientIDMsg
  let task ← Task.ofMsg taskMsg
  let taskResult := TaskResult.ofSum (Task.taskMeta task) (sumOf add task)
  pure [brokerIDMsg, clientIDMsg, taskResult.image]

theorem processImp_eq (add : Double → Double → Double) (brokerID clientID : Bytes) (task : Task) :
    processImp add [withNul brokerID, withNul clientID, task.image] =
      .ok [withNul brokerID, withNul clientID,
        (TaskResult.ofSum (Task.taskMeta task) (sumOf add task)).image] := by
  simp only [processImp, recv_cons, done_nil, dropNul_withNul, Task.ofMsg_image, bind, Except.bind,
    pure, Except.pure]

end Worker

/-- The ids of the clients and of the workers. A worker sets no identity. -/
structure Topology where
  clients : List Bytes
  workers : List Bytes

inductive Place
  | clientToProxy (i : Bytes)
  | proxyToWorker (w : Bytes)
  | held (w : Bytes)
  | workerToProxy (w : Bytes)
  | proxyToClient (i : Bytes)
  deriving DecidableEq

/-- `outstanding` is the task whose result a client waits for. -/
structure System where
  inFlight : Pool Place Parts
  outstanding : Bytes → Option Task

def System.init : System := ⟨[], fun _ => none⟩

/-- Where the ROUTER socket of a worker leads: to the peer that the first part names. -/
def placeOfWorker (w : Bytes) : Parts → Option (Place × Parts)
  | [] => none
  | part :: parts => (route withNul [brokerID] part).map (fun _ => (.workerToProxy w, parts))

/-- Where the ROUTER socket of the front end leads; it takes the identity off. -/
def placeOfFrontEnd (T : Topology) : Parts → Option (Place × Parts)
  | [] => none
  | part :: parts => (route withNul T.clients part).map (fun i => (.proxyToClient i, parts))

inductive Action
  | sendRequest (i : Bytes)
  | forwardTask (i w : Bytes)
  | receiveTask (w : Bytes)
  | finishTask (w : Bytes)
  | forwardReply (w : Bytes)
  | receiveResult (i : Bytes) (r : TaskResult)

/-- `zmq::proxy` sends what it receives at one socket from the other. The DEALER socket may give a
task to any worker; a ROUTER socket puts the identity of the sender before what it receives. -/
inductive Step (T : Topology) (add : Double → Double → Double) : System → Action → System → Prop
  | sendRequest {s : System} {i : Bytes} {task : Task} :
      i ∈ T.clients → s.outstanding i = none →
      Step T add s (.sendRequest i)
        ⟨s.inFlight ++ [(.clientToProxy i, Client.request task)],
          Function.update s.outstanding i (some task)⟩
  | forwardTask {s : System} {i w : Bytes} {msg : Parts} {rest : Pool Place Parts} :
      w ∈ T.workers → receive (.clientToProxy i) s.inFlight = some (msg, rest) →
      Step T add s (.forwardTask i w)
        { s with inFlight := rest ++ [(.proxyToWorker w, withNul brokerID :: withNul i :: msg)] }
  | receiveTask {s : System} {w : Bytes} {msg : Parts} {rest : Pool Place Parts} :
      receive (.proxyToWorker w) s.inFlight = some (msg, rest) →
      queueAt (.held w) s.inFlight = [] →
      Step T add s (.receiveTask w) { s with inFlight := rest ++ [(.held w, msg)] }
  | finishTask {s : System} {w : Bytes} {msg msg' : Parts} {rest : Pool Place Parts} :
      receive (.held w) s.inFlight = some (msg, rest) → Worker.processImp add msg = .ok msg' →
      Step T add s (.finishTask w)
        { s with inFlight := rest ++ (placeOfWorker w msg').toList }
  | forwardReply {s : System} {w : Bytes} {msg : Parts} {rest : Pool Place Parts} :
      receive (.workerToProxy w) s.inFlight = some (msg, rest) →
      Step T add s (.forwardReply w)
        { s with inFlight := rest ++ (placeOfFrontEnd T msg).toList }
  | receiveResult {s : System} {i : Bytes} {msg : Parts} {rest : Pool Place Parts}
      {r : TaskResult} :
      s.outstanding i ≠ none → receive (.proxyToClient i) s.inFlight = some (msg, rest) →
      Client.result msg = .ok r →
      Step T add s (.receiveResult i r) ⟨rest, Function.update s.outstanding i none⟩

section Places

variable {T : Topology} {i : Bytes}

theorem placeOfWorker_withNul (w : Bytes) (parts : Parts) :
    placeOfWorker w (withNul brokerID :: parts) = some (.workerToProxy w, parts) := by
  rw [placeOfWorker, route_identity withNul_injective (List.mem_singleton_self _)]
  rfl

theorem placeOfFrontEnd_withNul (h : i ∈ T.clients) (parts : Parts) :
    placeOfFrontEnd T (withNul i :: parts) = some (.proxyToClient i, parts) := by
  rw [placeOfFrontEnd, route_identity withNul_injective h]
  rfl

end Places

def resultOf (add : Double → Double → Double) (task : Task) : TaskResult :=
  TaskResult.ofSum (Task.taskMeta task) (sumOf add task)

/-- A message on the way of `task`, a task of client `i`, from the client and back to it. -/
inductive OnWay (add : Double → Double → Double) (i : Bytes) (task : Task) : Place → Parts → Prop
  | sent : OnWay add i task (.clientToProxy i) [task.image]
  | dispatched (w : Bytes) : OnWay add i task (.proxyToWorker w)
      [withNul brokerID, withNul i, task.image]
  | held (w : Bytes) : OnWay add i task (.held w) [withNul brokerID, withNul i, task.image]
  | replied (w : Bytes) : OnWay add i task (.workerToProxy w)
      [withNul i, (resultOf add task).image]
  | answered : OnWay add i task (.proxyToClient i) [(resultOf add task).image]

def owner : Place × Parts → Option Bytes
  | (.clientToProxy i, _) | (.proxyToClient i, _) => some i
  | (.proxyToWorker _, _ :: part :: _) | (.held _, _ :: part :: _)
  | (.workerToProxy _, part :: _) => some part.dropLast
  | _ => none

def way (add : Double → Double → Double) : Way Place Parts Bytes Task where
  on := OnWay add
  owner := owner
  owner_eq := by
    intro i task p msg on
    cases on <;> simp [owner, withNul]

variable {T : Topology} {add : Double → Double → Double} {s t : System} {a : Action}

structure Relayed (T : Topology) (add : Double → Double → Double) (s : System) : Prop where
  calls : OneEach (way add) s.outstanding s.inFlight
  clients : ∀ i, s.outstanding i ≠ none → i ∈ T.clients

theorem relayed_init (T : Topology) (add : Double → Double → Double) : Relayed T add System.init :=
  ⟨.nil _, by simp [System.init]⟩

theorem Relayed.step (h : Relayed T add s) (hs : Step T add s a t) : Relayed T add t := by
  cases hs with
  | @sendRequest i task client idle =>
    refine ⟨h.calls.send idle .sent, fun j hj => ?_⟩
    by_cases here : j = i
    · rwa [here]
    · exact h.clients j (by rwa [← Function.update_of_ne here (some task) s.outstanding])
  | @forwardTask i w msg rest worker got =>
    obtain ⟨j, task, hopen, on⟩ := h.calls.exists_onWay got
    cases on
    exact ⟨h.calls.move got hopen .sent (.dispatched w), h.clients⟩
  | @receiveTask w msg rest got idle =>
    obtain ⟨i, task, hopen, on⟩ := h.calls.exists_onWay got
    cases on
    exact ⟨h.calls.move got hopen (.dispatched w) (.held w), h.clients⟩
  | @finishTask w msg msg' rest got run =>
    obtain ⟨i, task, hopen, on⟩ := h.calls.exists_onWay got
    cases on
    rw [Worker.processImp_eq] at run
    cases run
    rw [placeOfWorker_withNul]
    exact ⟨h.calls.move got hopen (.held w) (.replied w), h.clients⟩
  | @forwardReply w msg rest got =>
    obtain ⟨i, task, hopen, on⟩ := h.calls.exists_onWay got
    cases on
    rw [placeOfFrontEnd_withNul (h.clients i (by simp [hopen]))]
    exact ⟨h.calls.move got hopen (.replied w) .answered, h.clients⟩
  | @receiveResult i msg rest r waiting got result =>
    obtain ⟨j, task, hopen, on⟩ := h.calls.exists_onWay got
    cases on
    refine ⟨h.calls.close got hopen .answered, fun j hj => ?_⟩
    by_cases here : j = i
    · simp [here] at hj
    · exact h.clients j (by rwa [← Function.update_of_ne here none s.outstanding])

theorem relayed_of_run {as : List Action} (run : Run (Step T add) System.init as s) :
    Relayed T add s :=
  run.invariant (fun _ _ _ h hs => h.step hs) (relayed_init T add)

/-- Every waiting client has one message, about its own task, and nobody else has any; whoever
reads a message can handle it, and a client that reads one gets the sum of its task. -/
structure OneMessageEach (T : Topology) (add : Double → Double → Double) (s : System) : Prop where
  waiting : ∀ i task, s.outstanding i = some task → ∃ p msg,
    s.inFlight.filter (fun x => owner x = some i) = [(p, msg)] ∧ OnWay add i task p msg
  idle : ∀ i, s.outstanding i = none → s.inFlight.filter (fun x => owner x = some i) = []
  named : ∀ x ∈ s.inFlight, ∃ i, owner x = some i ∧ s.outstanding i ≠ none
  worker : ∀ w msg rest, receive (.held w) s.inFlight = some (msg, rest) →
    ∃ msg', Worker.processImp add msg = .ok msg' ∧ placeOfWorker w msg' ≠ none
  proxy : ∀ w msg rest, receive (.workerToProxy w) s.inFlight = some (msg, rest) →
    placeOfFrontEnd T msg ≠ none
  client : ∀ i msg rest, receive (.proxyToClient i) s.inFlight = some (msg, rest) →
    ∃ task r, s.outstanding i = some task ∧ Client.result msg = .ok r ∧
      TaskResult.taskMeta r = Task.taskMeta task ∧ TaskResult.sum r = (Task.arr task).foldl add 0

/-- No request is lost, duplicated, answered with another's result or dropped by a ROUTER. -/
theorem one_message_each {as : List Action} (run : Run (Step T add) System.init as s) :
    OneMessageEach T add s := by
  have h := relayed_of_run run
  refine ⟨fun i task => h.calls.exists_message, fun i => h.calls.filter_of_idle, ?_, ?_, ?_, ?_⟩
  · rintro ⟨p, msg⟩ hmem
    obtain ⟨i, task, hopen, on⟩ := h.calls.onWay p msg hmem
    exact ⟨i, (way add).owner_eq i task p msg on, by simp [hopen]⟩
  · intro w msg rest got
    obtain ⟨i, task, hopen, on⟩ := h.calls.exists_onWay got
    cases on
    exact ⟨_, Worker.processImp_eq add brokerID i task, by simp [placeOfWorker_withNul]⟩
  · intro w msg rest got
    obtain ⟨i, task, hopen, on⟩ := h.calls.exists_onWay got
    cases on
    simp [placeOfFrontEnd_withNul (h.clients i (by simp [hopen]))]
  · intro i msg rest got
    obtain ⟨j, task, hopen, on⟩ := h.calls.exists_onWay got
    cases on
    exact ⟨task, resultOf add task, hopen, Client.result_eq _, TaskResult.taskMeta_ofSum _ _,
      TaskResult.sum_ofSum _ _⟩

def oneOfEach : Topology where
  clients := [[115, 116, 117, 98, 95, 48]]
  workers := [[119, 111, 114, 107, 101, 114, 95, 48]]

theorem one_message_each_first_task : ∃ i as s,
    Run (Step oneOfEach (· + ·)) System.init as s ∧ s.outstanding i ≠ none ∧
      OneMessageEach oneOfEach (· + ·) s := by
  obtain ⟨i, client⟩ : ∃ i, i ∈ oneOfEach.clients := ⟨_, List.mem_cons_self⟩
  obtain ⟨w, worker⟩ : ∃ w, w ∈ oneOfEach.workers := ⟨_, List.mem_cons_self⟩
  have hsend : Run (Step oneOfEach (· + ·)) System.init [.sendRequest i] _ :=
    .single (@Step.sendRequest _ _ _ i (Obj.zero LoadBalance.Components.sizeofTask) client rfl)
  have hgive := hsend.snoc (.forwardTask worker (receive_cons_self _ _ _))
  exact ⟨i, _, _, hgive, by simp, one_message_each hgive⟩

end SimTools.DummyProxy.ProxyBroker
