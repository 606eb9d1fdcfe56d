/- Module: SimTools/LoadBalance/Components
   digest: load_balance.cpp: tasks as byte images, and what client, worker and balance broker do. -/

import SimTools.Lib.Sockets

set_option autoImplicit false
set_option relaxedAutoImplicit false

namespace SimTools.LoadBalance.Components

open Lib.Memory
open Lib.Sockets

structure TaskMeta where
  taskID : UInt64
  taskType : UInt64
  deriving DecidableEq

/-- `sizeof(Task)`: the two words of the meta data and an array of 1024 doubles. -/
def sizeofTask : Nat := 8208

abbrev Task := Obj sizeofTask

def sizeofTaskResult : Nat := 24

abbrev TaskResult := Obj sizeofTaskResult

/-- "WORKER_ALIVE" -/
def globalConstID_ALIVE : Bytes := [87, 79, 82, 75, 69, 82, 95, 65, 76, 73, 86, 69]

/-- `Task` and `TaskResult` both begin with their meta data. -/
def metaAt (image : Bytes) : TaskMeta := ⟨dwordAt image 0, dwordAt image 8⟩

namespace Task

def taskMeta (t : Task) : TaskMeta := metaAt t.image

/-- The field `double arr[1024]` of the struct, behind the meta data. -/
def arr (t : Task) : List Double := (List.range 1024).map (fun i => dwordAt t.image (16 + 8 * i))

@[simp] theorem length_arr (t : Task) : (arr t).length = 1024 := by
  rw [arr, List.length_map, List.length_range]

@[simp] theorem getElem?_arr (t : Task) {i : Nat} (inside : i < 1024) :
    (arr t)[i]? = some (dwordAt t.image (16 + 8 * i)) := by
  rw [arr, List.getElem?_map, List.getElem?_range inside, Option.map_some]

/-- `memcpy(&task, msg.data(), msg.size())` onto a local whose bytes are not initialised. -/
def ofMsg (msg : Bytes) : Except MemError Task := (Obj.zero sizeofTask).store 0 msg

theorem ofMsg_image (t : Task) : ofMsg t.image = .ok t := Obj.store_whole _ t.size_eq

end Task

namespace TaskResult

def ofSum (taskMeta : TaskMeta) (sum : Double) : TaskResult :=
  ⟨dwordBytes taskMeta.taskID ++ dwordBytes taskMeta.taskType ++ dwordBytes sum,
    by simp [sizeofTaskResult]⟩

def taskMeta (r : TaskResult) : TaskMeta := metaAt r.image

def sum (r : TaskResult) : Double := dwordAt r.image 16

def ofMsg (msg : Bytes) : Except MemError TaskResult := (Obj.zero sizeofTaskResult).store 0 msg

theorem ofMsg_image (r : TaskResult) : ofMsg r.image = .ok r := Obj.store_whole _ r.size_eq

@[simp] theorem taskMeta_ofSum (m : TaskMeta) (v : Double) : (ofSum m v).taskMeta = m := by
  have hid := dwordAt_append [] m.taskID (dwordBytes m.taskType ++ dwordBytes v)
  have htype := dwordAt_append (dwordBytes m.taskID) m.taskType (dwordBytes v)
  rw [length_dwordBytes] at htype
  rw [List.nil_append, List.length_nil, ← List.append_assoc] at hid
  rw [taskMeta, ofSum, metaAt, hid, htype]

@[simp] theorem sum_ofSum (m : TaskMeta) (v : Double) : (ofSum m v).sum = v := by
  have hsum := dwordAt_append (dwordBytes m.taskID ++ dwordBytes m.taskType) v []
  rw [List.length_append, length_dwordBytes, length_dwordBytes, List.append_nil] at hsum
  exact hsum

theorem eq_ofSum (r : TaskResult) : r = ofSum r.taskMeta r.sum := by
  obtain ⟨image, size⟩ := r
  have hlen : image.length = 24 := size
  have hid : dwordBytes (dwordAt image 0) = slice image 0 8 := dwordBytes_dwordAt (by omega)
  have htype : dwordBytes (dwordAt image 8) = slice image 8 8 := dwordBytes_dwordAt (by omega)
  have hsum : dwordBytes (dwordAt image 16) = slice image 16 8 := dwordBytes_dwordAt (by omega)
  have hparts : slice image 0 8 ++ slice image 8 8 ++ slice image 16 8 = image := by
    have hlast : (image.drop 16).take 8 = image.drop 16 :=
      List.take_of_length_le (by simp [hlen])
    have hback : (image.drop 8).take 8 ++ image.drop 16 = image.drop 8 := by
      rw [show image.drop 16 = (image.drop 8).drop 8 by rw [List.drop_drop],
        List.take_append_drop]
    simp only [slice]
    rw [hlast, List.append_assoc, hback, List.drop_zero, List.take_append_drop]
  rw [Obj.mk.injEq]
  change image = dwordBytes (dwordAt image 0) ++ dwordBytes (dwordAt image 8) ++
    dwordBytes (dwordAt image 16)
  rw [hid, htype, hsum, hparts]

end TaskResult

namespace Client

/-- `Client::sendRequestImp` up to the send. -/
def request (task : Task) : Parts := [task.image]

/-- `Client::sendRequestImp` from the receive on. -/
def result (msg : Parts) : Except MemError TaskResult := do
  let (taskResultMsg, msg) ← recv msg
  done msg
  TaskResult.ofMsg taskResultMsg

end Client

namespace Worker

/-- The message that `Worker::Worker` sends. -/
def aliveSignal : Parts := [withNul globalConstID_ALIVE]

/-- The loop of `Worker::processImp`: the sum from left to right, starting at 0. -/
def sumOf (add : Double → Double → Double) (task : Task) : Double := (Task.arr task).foldl add 0

/-- `Worker::processImp` between its receives and its sends. -/
def processImp (add : Double → Double → Double) (msg : Parts) : Except MemError Parts := do
  let (clientIDMsg, msg) ← recv msg
  let (taskMsg, msg) ← recv msg
  done msg
  let _ ← dropNul clientIDMsg
  let task ← Task.ofMsg taskMsg
  let taskResult := TaskResult.ofSum (Task.taskMeta task) (sumOf add task)
  pure [clientIDMsg, taskResult.image]

end Worker

/-- Where the loop of `BalanceBroker::serve` stands. -/
inductive Line
  | poll
  | backEnd
  | frontEnd
  deriving DecidableEq

/-- The ready queue, the `revents` of the two poll items, and the line that comes next. -/
structure BalanceBroker where
  workReadyQueue : List Bytes
  backEndReady : Bool
  frontEndReady : Bool
  line : Line
  deriving DecidableEq

namespace BalanceBroker

def init : BalanceBroker := ⟨[], false, false, .poll⟩

def push (b : BalanceBroker) (workerID : Bytes) : BalanceBroker :=
  { b with workReadyQueue := b.workReadyQueue ++ [workerID] }

def front (b : BalanceBroker) : Except MemError Bytes :=
  match b.workReadyQueue with
  | [] => .error .emptyQueue
  | workerID :: _ => .ok workerID

def pop (b : BalanceBroker) : Except MemError BalanceBroker :=
  match b.workReadyQueue with
  | [] => .error .emptyQueue
  | _ :: rest => .ok { b with workReadyQueue := rest }

/-- The reset of the poll items and the poll, which answers for the items that it is given: the
second one is not polled while no worker is ready. -/
def poll (b : BalanceBroker) (backEnd frontEnd : Bool) : BalanceBroker :=
  let b := { b with backEndReady := false, frontEndReady := false, line := .backEnd }
  if b.workReadyQueue.isEmpty then { b with backEndReady := backEnd }
  else { b with backEndReady := backEnd, frontEndReady := frontEnd }

/-- The branch of the back end; what it sends leaves by the front end. -/
def serveBackEnd (b : BalanceBroker) (msg : Parts) :
    Except MemError (BalanceBroker × Option Parts) := do
  let (msgWorkerID, msg) ← recv msg
  let (msgClientID, msg) ← recv msg
  let workerID ← dropNul msgWorkerID
  let clientID ← dropNul msgClientID
  let b := b.push workerID
  if clientID = globalConstID_ALIVE then do
    done msg
    -- `continue`: the front end is not looked at in this iteration
    pure ({ b with line := .poll }, none)
  else do
    let (msgReply, msg) ← recv msg
    done msg
    pure ({ b with line := .frontEnd }, some [msgClientID, msgReply])

/-- The branch of the front end; what it sends leaves by the back end. -/
def serveFrontEnd (b : BalanceBroker) (msg : Parts) :
    Except MemError (BalanceBroker × Option Parts) := do
  let (msgClientID, msg) ← recv msg
  let (msgTask, msg) ← recv msg
  done msg
  let _ ← dropNul msgClientID
  let _ ← Task.ofMsg msgTask
  let workerID ← b.front
  let b ← b.pop
  pure ({ b with line := .poll }, some [withNul workerID, msgClientID, msgTask])

end BalanceBroker

theorem Client.result_eq (r : TaskResult) : Client.result [r.image] = .ok r := by
  simp only [Client.result, recv_cons, done_nil, TaskResult.ofMsg_image, bind, Except.bind]

theorem Worker.processImp_eq (add : Double → Double → Double) (clientID : Bytes) (task : Task) :
    Worker.processImp add [withNul clientID, task.image] =
      .ok [withNul clientID, (TaskResult.ofSum (Task.taskMeta task)
        (Worker.sumOf add task)).image] := by
  simp only [Worker.processImp, recv_cons, done_nil, dropNul_withNul, Task.ofMsg_image, bind,
    Except.bind, pure, Except.pure]

namespace BalanceBroker

variable (b : BalanceBroker) (workerID clientID : Bytes)

theorem serveBackEnd_alive : b.serveBackEnd (withNul workerID :: Worker.aliveSignal) =
    .ok ({ b.push workerID with line := .poll }, none) := by
  simp only [serveBackEnd, Worker.aliveSignal, recv_cons, done_nil, dropNul_withNul,
    ↓reduceIte, bind, Except.bind, pure, Except.pure]

theorem serveBackEnd_reply (client : clientID ≠ globalConstID_ALIVE) (reply : Bytes) :
    b.serveBackEnd [withNul workerID, withNul clientID, reply] =
      .ok ({ b.push workerID with line := .frontEnd }, some [withNul clientID, reply]) := by
  simp only [serveBackEnd, recv_cons, done_nil, dropNul_withNul, client, ↓reduceIte, bind,
    Except.bind, pure, Except.pure]

theorem serveFrontEnd_eq {rest : List Bytes} (ready : b.workReadyQueue = workerID :: rest)
    (task : Task) :
    b.serveFrontEnd [withNul clientID, task.image] =
      .ok ({ b with workReadyQueue := rest, line := .poll },
        some [withNul workerID, withNul clientID, task.image]) := by
  simp only [serveFrontEnd, recv_cons, done_nil, dropNul_withNul, Task.ofMsg_image, front,
    pop, ready, bind, Except.bind, pure, Except.pure]

/-- The front end is polled only when a worker is ready. -/
theorem ready_of_poll {backEnd frontEnd : Bool}
    (polled : (b.poll backEnd frontEnd).frontEndReady = true) :
    b.workReadyQueue ≠ [] := by
  intro empty
  simp [poll, empty] at polled

@[simp] theorem poll_workReadyQueue (backEnd frontEnd : Bool) :
    (b.poll backEnd frontEnd).workReadyQueue = b.workReadyQueue := by
  dsimp only [poll]
  split <;> rfl

@[simp] theorem poll_backEndReady (backEnd frontEnd : Bool) :
    (b.poll backEnd frontEnd).backEndReady = backEnd := by
  dsimp only [poll]
  split <;> rfl

@[simp] theorem poll_frontEndReady (backEnd frontEnd : Bool) :
    (b.poll backEnd frontEnd).frontEndReady = (!b.workReadyQueue.isEmpty && frontEnd) := by
  dsimp only [poll]
  split
  · rename_i empty
    simp [empty]
  · rename_i nonempty
    simp [nonempty]

@[simp] theorem poll_line (backEnd frontEnd : Bool) :
    (b.poll backEnd frontEnd).line = .backEnd := by
  dsimp only [poll]
  split <;> rfl

end BalanceBroker

end SimTools.LoadBalance.Components
