/- Module: SimTools/AsyncServer/AsyncCore
   digest: dummy_async_server.cpp: its client and its worker, over the records of load_balance.cpp. -/

import SimTools.LoadBalance.Components

set_option autoImplicit false
set_option relaxedAutoImplicit false

namespace SimTools.AsyncServer.AsyncCore

open Lib.Memory
open Lib.Sockets
open LoadBalance.Components (Task TaskResult sizeofTask sizeofTaskResult)
open LoadBalance.Components.Worker (sumOf)

namespace Client

/-- `Client::sendRequestImp` -/
def request (task : Task) : Parts := [task.image]

/-- `Client::poll` from its receive on. The copy has the length of the reply and goes over the one
`taskResult` of the loop. -/
def poll (taskResult : TaskResult) (msg : Parts) : Except MemError TaskResult := do
  let (msgReply, msg) ← recv msg
  done msg
  taskResult.store 0 msgReply

theorem poll_outOfBounds (taskResult : TaskResult) {msgReply : Bytes}
    (large : sizeofTaskResult < msgReply.length) :
    poll taskResult [msgReply] = .error .outOfBounds := by
  have hstore : taskResult.store 0 msgReply = .error .outOfBounds := by
    rw [Obj.store, dif_neg (by omega)]
  simp only [poll, recv_cons, done_nil, hstore, bind, Except.bind]

end Client

namespace Worker

/-- `Worker::processImp` and the messages that its loop sends. A repetition fills `taskResultMsg`;
what it sends are copies of the two parts that came in. -/
def processImp (add : Double → Double → Double) (msg : Parts) : Except MemError (List Parts) := do
  let (clientIDMsg, msg) ← recv msg
  let (taskMsg, msg) ← recv msg
  done msg
  let _ ← dropNul clientIDMsg
  let task ← Task.ofMsg taskMsg
  let taskResult := TaskResult.ofSum (Task.taskMeta task) (sumOf add task)
  (List.range 10).mapM fun _ => do
    let _taskResultMsg ← overwrite (List.replicate sizeofTaskResult 0) taskResult.image
    pure [clientIDMsg, taskMsg]

theorem processImp_eq (add : Double → Double → Double) (clientID : Bytes) (task : Task) :
    processImp add [withNul clientID, task.image] =
      .ok (List.replicate 10 [withNul clientID, task.image]) := by
  have hfill (r : TaskResult) : overwrite (List.replicate sizeofTaskResult 0) r.image =
      .ok r.image := overwrite_of_length_eq (by rw [r.size_eq, List.length_replicate])
  have hloop (reply : Parts) : (List.range 10).mapM
      (fun _ => (.ok reply : Except MemError Parts)) = .ok (List.replicate 10 reply) := rfl
  simp only [processImp, recv_cons, done_nil, dropNul_withNul, Task.ofMsg_image, hfill, bind,
    Except.bind, pure, Except.pure, hloop]

end Worker

end SimTools.AsyncServer.AsyncCore
