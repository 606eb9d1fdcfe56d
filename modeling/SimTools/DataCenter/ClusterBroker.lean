/- Module: SimTools/DataCenter/ClusterBroker
   digest: cluster_broker.cpp: client, worker and local balance broker, each with its effect on headers. -/

import SimTools.DataCenter.TaskHeader

set_option autoImplicit false
set_option relaxedAutoImplicit false

namespace SimTools.DataCenter.ClusterBroker

open Lib.Memory
open ClusterCore
open TaskHeader

/-- The two frames that every sender of the data center sends: header and payload. -/
structure Message where
  metaMsg : Bytes
  payloadMsg : Bytes
  deriving DecidableEq

/-- The field `taskDirection` of the header says that the message is a request. -/
def Message.isSubmit (m : Message) : Bool := wordAt m.metaMsg 140 = TaskDirection.taskSubmit.code

/-- What a broker hands to one of its sockets; a ROUTER socket takes the identity frame off. -/
inductive Outgoing
  | frontEnd (identity : Bytes) (m : Message)
  | backEnd (identity : Bytes) (m : Message)
  | cloudTask (m : Message)
  deriving DecidableEq

namespace Client

/-- `Client::sendRequest` up to the send. -/
def request (id : Bytes) (taskID : UInt64) (taskReq : TaskRequest) : Except MemError Message := do
  let taskMeta := TaskMeta.setTaskID TaskMeta.init taskID
  let taskMeta ← copyStringToBuffer taskMeta AddrField.fromID.offset id
  let taskMeta := TaskMeta.setTaskDirection taskMeta .taskSubmit
  let taskMeta := TaskMeta.setTaskType taskMeta .normalTask
  pure ⟨taskMeta.image, taskReq.image⟩

/-- `Client::sendRequest` after the receive: the header, and the reply when it is one. -/
def result (m : Message) : Except MemError (TaskMeta × Option TaskReply) := do
  let taskMetaRecv ← TaskMeta.ofMsg m.metaMsg
  if TaskMeta.taskDirection taskMetaRecv = TaskDirection.taskReply.code then do
    let taskReply ← (Obj.zero sizeofTaskReply).store 0 m.payloadMsg
    pure (taskMetaRecv, some taskReply)
  else pure (taskMetaRecv, none)

end Client

namespace Worker

/-- The message that `Worker::Worker` sends. -/
def aliveSignal (id : Bytes) : Except MemError Message := do
  let taskMeta ← copyStringToBuffer TaskMeta.init AddrField.fromID.offset id
  let taskMeta := TaskMeta.setTaskDirection taskMeta .taskReply
  let taskMeta := TaskMeta.setTaskType taskMeta .aliveSignal
  pure ⟨taskMeta.image, [0]⟩

/-- The loop of `Worker::process`: the sum from left to right, starting at 0.0. -/
def sumOf (add : Double → Double → Double) (taskReq : TaskRequest) : Double :=
  (TaskRequest.arr taskReq).foldl add 0

/-- `Worker::process` between its receive and its send. -/
def process (add : Double → Double → Double) (id : Bytes) (m : Message) :
    Except MemError Message := do
  let taskMeta ← TaskMeta.ofMsg m.metaMsg
  let taskReq ← TaskRequest.init.store 0 m.payloadMsg
  let fromID ← TaskMeta.addr taskMeta .fromID
  let taskMeta ← copyStringToBuffer taskMeta AddrField.toID.offset fromID
  let taskMeta ← copyStringToBuffer taskMeta AddrField.fromID.offset id
  let taskMeta := TaskMeta.setTaskDirection taskMeta .taskReply
  pure ⟨taskMeta.image, (TaskReply.ofSum (sumOf add taskReq)).image⟩

end Worker

structure LocalBalanceBroker where
  clusterName : Bytes
  workReadyQueue : List Bytes
  readyWorkerCount : UInt32
  deriving DecidableEq

namespace LocalBalanceBroker

def init (clusterName : Bytes) : LocalBalanceBroker := ⟨clusterName, [], 0⟩

/-- The message that the constructor sends to the super broker. -/
def aliveSignal (clusterName : Bytes) : Except MemError Message := do
  let taskMeta ← copyStringToBuffer TaskMeta.init AddrField.fromClusterID.offset clusterName
  let taskMeta := TaskMeta.setTaskType taskMeta .aliveSignal
  pure ⟨taskMeta.image, [0]⟩

/-- `readyWorkerCount_ = static_cast<uint32_t>(workReadyQueue_.size())` -/
def storeCount (b : LocalBalanceBroker) : LocalBalanceBroker :=
  { b with readyWorkerCount := UInt32.ofNat b.workReadyQueue.length }

def push (b : LocalBalanceBroker) (workerID : Bytes) : LocalBalanceBroker :=
  { b with workReadyQueue := b.workReadyQueue ++ [workerID] }

def pop (b : LocalBalanceBroker) : LocalBalanceBroker :=
  { b with workReadyQueue := b.workReadyQueue.tail }

/-- `front()` is undefined on an empty queue. -/
def front (b : LocalBalanceBroker) : Except MemError Bytes :=
  match b.workReadyQueue with
  | [] => .error .emptyQueue
  | workerID :: _ => .ok workerID

/-- The identity frame that the ROUTER socket prepends is received and not used. The log lines of
this handler and of the next two are in `LogLines`. -/
def routeLocalReply (b : LocalBalanceBroker) (m : Message) :
    Except MemError (LocalBalanceBroker × Option Outgoing) := do
  let taskMeta ← TaskMeta.ofMsg m.metaMsg
  let fromID ← TaskMeta.addr taskMeta .fromID
  let b := (b.push fromID).storeCount
  if TaskMeta.taskType taskMeta = TaskType.aliveSignal.code then
    pure (b, none)
  else do
    let fromClusterID ← TaskMeta.addr taskMeta .fromClusterID
    let taskMeta ← copyStringToBuffer taskMeta AddrField.toClusterID.offset fromClusterID
    let taskMeta ← copyStringToBuffer taskMeta AddrField.fromClusterID.offset b.clusterName
    let metaMsg ← overwrite m.metaMsg taskMeta.image
    let toClusterID ← TaskMeta.addr taskMeta .toClusterID
    if b.clusterName = toClusterID then do
      let toID ← TaskMeta.addr taskMeta .toID
      pure (b, some (.frontEnd (stringToZMQMsg toID) ⟨metaMsg, m.payloadMsg⟩))
    else
      pure (b, some (.cloudTask ⟨metaMsg, m.payloadMsg⟩))

/-- Here too the identity frame is received and not used. -/
def routeLocalRequest (b : LocalBalanceBroker) (m : Message) :
    Except MemError (LocalBalanceBroker × Option Outgoing) := do
  let taskMeta ← TaskMeta.ofMsg m.metaMsg
  let taskMeta ← copyStringToBuffer taskMeta AddrField.fromClusterID.offset b.clusterName
  if b.workReadyQueue.length > 0 then do
    let workerID ← b.front
    let b := b.pop.storeCount
    let taskMeta ← copyStringToBuffer taskMeta AddrField.toClusterID.offset b.clusterName
    let taskMeta ← copyStringToBuffer taskMeta AddrField.toID.offset workerID
    let metaMsg ← overwrite m.metaMsg taskMeta.image
    pure (b, some (.backEnd (stringToZMQMsg workerID) ⟨metaMsg, m.payloadMsg⟩))
  else do
    let metaMsg ← overwrite m.metaMsg taskMeta.image
    pure (b, some (.cloudTask ⟨metaMsg, m.payloadMsg⟩))

/-- A request from the super broker goes to a worker with the header message as it came in:
the stamped copy `taskMeta` is not written back on this path. -/
def routeCloud (b : LocalBalanceBroker) (m : Message) :
    Except MemError (LocalBalanceBroker × Option Outgoing) := do
  let taskMeta ← TaskMeta.ofMsg m.metaMsg
  if TaskMeta.taskDirection taskMeta = TaskDirection.taskSubmit.code then do
    let b := b.storeCount
    if b.readyWorkerCount > 0 then do
      let workerID ← b.front
      let b := b.pop.storeCount
      let taskMeta ← copyStringToBuffer taskMeta AddrField.toClusterID.offset b.clusterName
      let _ ← copyStringToBuffer taskMeta AddrField.toID.offset workerID
      pure (b, some (.backEnd (stringToZMQMsg workerID) m))
    else do
      let taskMeta ← swapBuffer taskMeta AddrField.fromID.offset AddrField.toID.offset
      let taskMeta ← swapBuffer taskMeta AddrField.fromClusterID.offset AddrField.toClusterID.offset
      let taskMeta := TaskMeta.setTaskDirection taskMeta .taskReplyRejected
      let metaMsg ← overwrite m.metaMsg taskMeta.image
      -- `clusterMsgID` is built from this string and never sent
      let _ ← TaskMeta.addr taskMeta .toClusterID
      pure (b, some (.cloudTask ⟨metaMsg, (TaskReply.ofSum 0).image⟩))
  else do
    let toID ← TaskMeta.addr taskMeta .toID
    pure (b, some (.frontEnd (stringToZMQMsg toID) m))

@[simp] theorem storeCount_clusterName (b : LocalBalanceBroker) :
    b.storeCount.clusterName = b.clusterName := rfl

@[simp] theorem storeCount_workReadyQueue (b : LocalBalanceBroker) :
    b.storeCount.workReadyQueue = b.workReadyQueue := rfl

@[simp] theorem push_clusterName (b : LocalBalanceBroker) (w : Bytes) :
    (b.push w).clusterName = b.clusterName := rfl

@[simp] theorem pop_clusterName (b : LocalBalanceBroker) : b.pop.clusterName = b.clusterName := rfl

@[simp] theorem pop_workReadyQueue (b : LocalBalanceBroker) :
    b.pop.workReadyQueue = b.workReadyQueue.tail := rfl

end LocalBalanceBroker

theorem code_normal_ne_alive : ¬ TaskType.normalTask.code = TaskType.aliveSignal.code := by decide

theorem code_submit_iff (d : TaskDirection) :
    d.code = TaskDirection.taskSubmit.code ↔ d = .taskSubmit := by
  cases d <;> decide

theorem Client.request_eq (id : Name) (taskID : UInt64) (taskReq : TaskRequest) :
    ∃ metaMsg, Client.request id.bytes taskID taskReq = .ok ⟨metaMsg, taskReq.image⟩ ∧
      Carries metaMsg (Header.submitted id taskID) := by
  obtain ⟨m, hm, r⟩ := (represents_init.setTaskID taskID).copy .fromID id
  refine ⟨_, ?_, ((r.setTaskDirection .taskSubmit).setTaskType .normalTask).carries⟩
  simp only [Client.request, hm, bind, Except.bind, pure, Except.pure]

theorem Message.isSubmit_iff {m : Message} {h : Header} (shown : Carries m.metaMsg h) :
    m.isSubmit = true ↔ h.taskDirection = .taskSubmit := by
  obtain ⟨tm, hm, rep⟩ := shown
  have hcode : wordAt m.metaMsg 140 = h.taskDirection.code := by
    rw [hm]
    exact rep.taskDirection
  rw [Message.isSubmit, hcode, decide_eq_true_iff, code_submit_iff]

theorem code_reply_iff (d : TaskDirection) :
    d.code = TaskDirection.taskReply.code ↔ d = .taskReply := by
  cases d <;> decide

theorem Client.result_eq {m : Message} {h : Header} (shown : Carries m.metaMsg h)
    {taskReply : TaskReply}
    (payload : m.payloadMsg = taskReply.image) :
    ∃ taskMeta, Represents taskMeta h ∧ Client.result m =
      .ok (taskMeta, if h.taskDirection = .taskReply then some taskReply else none) := by
  obtain ⟨tm, hm, r⟩ := shown
  refine ⟨tm, r, ?_⟩
  have hstore : (Obj.zero sizeofTaskReply).store 0 taskReply.image = .ok taskReply :=
    Obj.store_whole _ taskReply.size_eq
  simp only [Client.result, hm, ofMsg_image, r.taskDirection, code_reply_iff, payload, hstore, bind,
    Except.bind, pure, Except.pure]
  split <;> rfl

theorem Worker.aliveSignal_eq (id : Name) :
    ∃ metaMsg, Worker.aliveSignal id.bytes = .ok ⟨metaMsg, [0]⟩ ∧
      Carries metaMsg
        (((Header.init.setAddr .fromID id).setDirection .taskReply).setType .aliveSignal) := by
  obtain ⟨m, hm, r⟩ := represents_init.copy .fromID id
  refine ⟨_, ?_, ((r.setTaskDirection .taskReply).setTaskType .aliveSignal).carries⟩
  simp only [Worker.aliveSignal, hm, bind, Except.bind, pure, Except.pure]

theorem LocalBalanceBroker.aliveSignal_eq (c : Name) :
    ∃ metaMsg, LocalBalanceBroker.aliveSignal c.bytes = .ok ⟨metaMsg, [0]⟩ ∧
      Carries metaMsg ((Header.init.setAddr .fromClusterID c).setType .aliveSignal) := by
  obtain ⟨m, hm, r⟩ := represents_init.copy .fromClusterID c
  refine ⟨_, ?_, (r.setTaskType .aliveSignal).carries⟩
  simp only [LocalBalanceBroker.aliveSignal, hm, bind, Except.bind, pure, Except.pure]

theorem Worker.process_eq (add : Double → Double → Double) (id : Name) {metaMsg : Bytes}
    {h : Header}
    (shown : Carries metaMsg h) (taskReq : TaskRequest) :
    ∃ metaMsgReply, Worker.process add id.bytes ⟨metaMsg, taskReq.image⟩ =
        .ok ⟨metaMsgReply, (TaskReply.ofSum (Worker.sumOf add taskReq)).image⟩ ∧
      Carries metaMsgReply
        (((h.setAddr .toID (h.addr .fromID)).setAddr .fromID id).setDirection .taskReply) := by
  obtain ⟨m, rfl, r⟩ := shown
  obtain ⟨m1, hm1, r1⟩ := r.copy .toID (h.addr .fromID)
  obtain ⟨m2, hm2, r2⟩ := r1.copy .fromID id
  refine ⟨_, ?_, (r2.setTaskDirection .taskReply).carries⟩
  have hreq : TaskRequest.init.store 0 taskReq.image = .ok taskReq :=
    Obj.store_whole TaskRequest.init taskReq.size_eq
  simp only [Worker.process, ofMsg_image, hreq, r.addr_eq, hm1, hm2, bind, Except.bind, pure,
    Except.pure]

namespace LocalBalanceBroker

variable {b : LocalBalanceBroker} {c : Name} {m : Message} {h : Header}

theorem routeLocalReply_alive (shown : Carries m.metaMsg h) (alive : h.taskType = .aliveSignal) :
    b.routeLocalReply m = .ok ((b.push (h.addr .fromID).bytes).storeCount, none) := by
  obtain ⟨tm, hm, r⟩ := shown
  simp only [routeLocalReply, hm, ofMsg_image, r.addr_eq, r.taskType, alive, bind,
    Except.bind, pure, Except.pure, ↓reduceIte]

theorem routeLocalReply_normal (name : b.clusterName = c.bytes) (shown : Carries m.metaMsg h)
    (normal : h.taskType = .normalTask) :
    ∃ metaMsg, Carries metaMsg
        ((h.setAddr .toClusterID (h.addr .fromClusterID)).setAddr .fromClusterID c) ∧
      b.routeLocalReply m = .ok ((b.push (h.addr .fromID).bytes).storeCount,
        if c = h.addr .fromClusterID then
          some (.frontEnd (h.addr .toID).identity ⟨metaMsg, m.payloadMsg⟩)
        else some (.cloudTask ⟨metaMsg, m.payloadMsg⟩)) := by
  obtain ⟨tm, hm, r⟩ := shown
  obtain ⟨m1, hm1, r1⟩ := r.copy .toClusterID (h.addr .fromClusterID)
  obtain ⟨m2, hm2, r2⟩ := r1.copy .fromClusterID c
  refine ⟨m2.image, r2.carries, ?_⟩
  have hto : (((h.setAddr .toClusterID (h.addr .fromClusterID)).setAddr .fromClusterID c).addr
      .toClusterID) = h.addr .fromClusterID := by
    rw [Header.setAddr_addr_of_ne _ _ (by decide), Header.setAddr_addr_self]
  have hid : (((h.setAddr .toClusterID (h.addr .fromClusterID)).setAddr .fromClusterID c).addr
      .toID) = h.addr .toID := by
    rw [Header.setAddr_addr_of_ne _ _ (by decide), Header.setAddr_addr_of_ne _ _ (by decide)]
  have hcmp : c.bytes = (h.addr .fromClusterID).bytes ↔ c = h.addr .fromClusterID :=
    ⟨fun e => Name.bytes_injective e, fun e => by rw [e]⟩
  simp only [routeLocalReply, hm, ofMsg_image, r.addr_eq, r.taskType, normal, code_normal_ne_alive,
    ↓reduceIte, storeCount_clusterName, push_clusterName, name, hm1, hm2, overwrite_image,
    r2.addr_eq, hto, hid, hcmp, bind, Except.bind, pure, Except.pure]
  split <;> rfl

/-- A ready worker takes the request; without one it is offered to the super broker. -/
theorem routeLocalRequest_eq (name : b.clusterName = c.bytes) (shown : Carries m.metaMsg h) :
    (b.workReadyQueue = [] → ∃ metaMsg, Carries metaMsg (h.setAddr .fromClusterID c) ∧
      b.routeLocalRequest m = .ok (b, some (.cloudTask ⟨metaMsg, m.payloadMsg⟩))) ∧
    (∀ (w : Name) (ws : List Bytes), b.workReadyQueue = w.bytes :: ws → ∃ metaMsg,
      Carries metaMsg (((h.setAddr .fromClusterID c).setAddr .toClusterID c).setAddr .toID w) ∧
      b.routeLocalRequest m =
        .ok (b.pop.storeCount, some (.backEnd w.identity ⟨metaMsg, m.payloadMsg⟩))) := by
  obtain ⟨tm, hm, r⟩ := shown
  obtain ⟨m1, hm1, r1⟩ := r.copy .fromClusterID c
  constructor
  · intro empty
    refine ⟨m1.image, r1.carries, ?_⟩
    simp only [routeLocalRequest, hm, ofMsg_image, name, hm1, empty, List.length_nil, gt_iff_lt,
      Nat.lt_irrefl, ↓reduceIte, overwrite_image, bind, Except.bind, pure, Except.pure]
  · intro w ws ready
    obtain ⟨m2, hm2, r2⟩ := r1.copy .toClusterID c
    obtain ⟨m3, hm3, r3⟩ := r2.copy .toID w
    refine ⟨m3.image, r3.carries, ?_⟩
    simp only [routeLocalRequest, hm, ofMsg_image, name, hm1, ready, List.length_cons, gt_iff_lt,
      Nat.zero_lt_succ, ↓reduceIte, front, storeCount_clusterName, pop_clusterName, hm2, hm3,
      overwrite_image, bind, Except.bind, pure, Except.pure]
    rfl

theorem routeCloud_answer (shown : Carries m.metaMsg h) (answer : h.taskDirection ≠ .taskSubmit) :
    b.routeCloud m = .ok (b, some (.frontEnd (h.addr .toID).identity m)) := by
  obtain ⟨tm, hm, r⟩ := shown
  simp only [routeCloud, hm, ofMsg_image, r.taskDirection, code_submit_iff, answer, ↓reduceIte,
    r.addr_eq, bind, Except.bind, pure, Except.pure]
  rfl

theorem routeCloud_dispatch (name : b.clusterName = c.bytes) (shown : Carries m.metaMsg h)
    (submit : h.taskDirection = .taskSubmit) {w : Name} {ws : List Bytes}
    (ready : b.workReadyQueue = w.bytes :: ws) (counted : b.storeCount.readyWorkerCount > 0) :
    b.routeCloud m = .ok (b.pop.storeCount, some (.backEnd w.identity m)) := by
  obtain ⟨tm, hm, r⟩ := shown
  obtain ⟨m1, hm1, r1⟩ := r.copy .toClusterID c
  obtain ⟨m2, hm2, _⟩ := r1.copy .toID w
  simp only [routeCloud, hm, ofMsg_image, r.taskDirection, submit, ↓reduceIte, counted, front,
    storeCount_workReadyQueue, storeCount_clusterName, pop_clusterName, ready, name, hm1, hm2, bind,
    Except.bind, pure, Except.pure]
  rfl

theorem routeCloud_reject (shown : Carries m.metaMsg h) (submit : h.taskDirection = .taskSubmit)
    (none_ready : ¬ b.storeCount.readyWorkerCount > 0) :
    ∃ metaMsg, Carries metaMsg h.rejected ∧ b.routeCloud m =
      .ok (b.storeCount, some (.cloudTask ⟨metaMsg, (TaskReply.ofSum 0).image⟩)) := by
  obtain ⟨tm, hm, r⟩ := shown
  have hids : AddrField.fromID ≠ AddrField.toID := by decide
  have hclusters : AddrField.fromClusterID ≠ AddrField.toClusterID := by decide
  obtain ⟨m1, hm1, r1⟩ := r.swap hids
  obtain ⟨m2, hm2, r2⟩ := r1.swap hclusters
  have r3 := r2.setTaskDirection .taskReplyRejected
  refine ⟨_, r3.carries, ?_⟩
  simp only [routeCloud, hm, ofMsg_image, r.taskDirection, submit, ↓reduceIte, none_ready, hm1, hm2,
    overwrite_image, r3.addr_eq, bind, Except.bind, pure, Except.pure]

end LocalBalanceBroker

theorem offered_request (c i : Name) (taskID : UInt64) (taskReq : TaskRequest) :
    ∃ m m', Client.request i.bytes taskID taskReq = .ok m ∧
      (LocalBalanceBroker.init c.bytes).routeLocalRequest m =
        .ok (.init c.bytes, some (.cloudTask m')) ∧
      Carries m'.metaMsg ((Header.submitted i taskID).setAddr .fromClusterID c) := by
  obtain ⟨metaMsg, requested, shown⟩ := Client.request_eq i taskID taskReq
  obtain ⟨offered, _⟩ := LocalBalanceBroker.routeLocalRequest_eq (b := .init c.bytes)
    (m := ⟨metaMsg, taskReq.image⟩) rfl shown
  obtain ⟨metaMsg', shown', run⟩ := offered rfl
  exact ⟨_, _, requested, run, shown'⟩

end SimTools.DataCenter.ClusterBroker
