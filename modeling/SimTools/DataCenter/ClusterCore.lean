/- Module: SimTools/DataCenter/ClusterCore
   digest: cluster_core.h and cluster_core.cpp: the task structures as byte images and the buffer helpers. -/

import SimTools.Lib.Memory

set_option autoImplicit false
set_option relaxedAutoImplicit false

namespace SimTools.DataCenter.ClusterCore

open Lib.Memory

def kMaxNameSize : Nat := 32

inductive TaskDirection
  | taskSubmit
  | taskReply
  | taskReplyWithError
  | taskReplyRejected
  deriving DecidableEq, Repr

def TaskDirection.code : TaskDirection → UInt32
  | .taskSubmit => 0
  | .taskReply => 1
  | .taskReplyWithError => 2
  | .taskReplyRejected => 3

inductive TaskType
  | normalTask
  | aliveSignal
  deriving DecidableEq, Repr

def TaskType.code : TaskType → UInt32
  | .normalTask => 0
  | .aliveSignal => 1

/-- The four name buffers of `TaskAddr`. -/
inductive AddrField
  | fromClusterID
  | fromID
  | toClusterID
  | toID
  deriving DecidableEq, Repr

def AddrField.offset : AddrField → Nat
  | .fromClusterID => 0
  | .fromID => 32
  | .toClusterID => 64
  | .toID => 96

/-- `sizeof(TaskMeta)`: the four buffers, the 64-bit task ID and two 32-bit enumerations. -/
def sizeofTaskMeta : Nat := 144

abbrev TaskMeta := Obj sizeofTaskMeta

/-- `sizeof(TaskRequest)`: an array of 1024 doubles. -/
def sizeofTaskRequest : Nat := 8192

abbrev TaskRequest := Obj sizeofTaskRequest

def sizeofTaskReply : Nat := 8

abbrev TaskReply := Obj sizeofTaskReply

/-- `sizeof(ClusterStateInfo)`: one name buffer and a 32-bit count. -/
def sizeofClusterStateInfo : Nat := 36

abbrev ClusterStateInfo := Obj sizeofClusterStateInfo

/-- `MessageHelper`. -/
def stringToZMQMsg (payload : Bytes) : Bytes := payload ++ [0]

def copyStringToBuffer {n : Nat} (obj : Obj n) (buffer : Nat) (str : Bytes) :
    Except MemError (Obj n) := do
  let obj ← obj.store buffer (str ++ [0])
  obj.store (buffer + (kMaxNameSize - 1)) [0]

def swapBuffer {n : Nat} (obj : Obj n) (buffer1 buffer2 : Nat) : Except MemError (Obj n) := do
  let tmpBuffer ← obj.load buffer1 kMaxNameSize
  let obj ← obj.store buffer1 (← obj.load buffer2 kMaxNameSize)
  obj.store buffer2 tmpBuffer

namespace TaskMeta

/-- The default member initialisers are all zero. -/
def init : TaskMeta := Obj.zero sizeofTaskMeta

/-- `memcpy(&taskMeta, msg.data(), msg.size())` onto a fresh `TaskMeta`. -/
def ofMsg (msg : Bytes) : Except MemError TaskMeta := init.store 0 msg

def addr (m : TaskMeta) (f : AddrField) : Except MemError Bytes := cstring m.image f.offset

def taskID (m : TaskMeta) : UInt64 := dwordAt m.image 128

def taskType (m : TaskMeta) : UInt32 := wordAt m.image 136

def taskDirection (m : TaskMeta) : UInt32 := wordAt m.image 140

private theorem patch_size (m : TaskMeta) {off : Nat} {src : Bytes}
    (fits : off + src.length ≤ 144) :
    (patch m.image off src).length = sizeofTaskMeta := by
  rw [length_patch (by rw [m.size_eq]; exact fits), m.size_eq]

def setTaskID (m : TaskMeta) (v : UInt64) : TaskMeta :=
  ⟨patch m.image 128 (dwordBytes v), patch_size m (by simp)⟩

def setTaskType (m : TaskMeta) (t : TaskType) : TaskMeta :=
  ⟨patch m.image 136 (wordBytes t.code), patch_size m (by simp)⟩

def setTaskDirection (m : TaskMeta) (d : TaskDirection) : TaskMeta :=
  ⟨patch m.image 140 (wordBytes d.code), patch_size m (by simp)⟩

end TaskMeta

namespace TaskRequest

def init : TaskRequest := Obj.zero sizeofTaskRequest

/-- The field `double arr[size]` of the struct, of 1024 doubles from its start. -/
def arr (t : TaskRequest) : List Double := (List.range 1024).map (fun i => dwordAt t.image (8 * i))

@[simp] theorem length_arr (t : TaskRequest) : (arr t).length = 1024 := by
  rw [arr, List.length_map, List.length_range]

@[simp] theorem getElem?_arr (t : TaskRequest) {i : Nat} (inside : i < 1024) :
    (arr t)[i]? = some (dwordAt t.image (8 * i)) := by
  rw [arr, List.getElem?_map, List.getElem?_range inside, Option.map_some]

end TaskRequest

namespace TaskReply

def ofSum (sum : Double) : TaskReply := ⟨dwordBytes sum, length_dwordBytes sum⟩

def sum (t : TaskReply) : Double := dwordAt t.image 0

theorem sum_ofSum (v : Double) : (ofSum v).sum = v := by
  have hpatch : (ofSum v).image = patch (List.replicate 8 0) 0 (dwordBytes v) := by
    simp [ofSum, patch]
  rw [sum, hpatch]
  exact dwordAt_patch_self v (by simp)

end TaskReply

namespace ClusterStateInfo

def init : ClusterStateInfo := Obj.zero sizeofClusterStateInfo

/-- `memcpy(clusterStatePtr.get(), msg.data(), msg.size())` onto a fresh structure. -/
def ofMsg (msg : Bytes) : Except MemError ClusterStateInfo := init.store 0 msg

def clusterName (s : ClusterStateInfo) : Except MemError Bytes := cstring s.image 0

def readyWorkerCount (s : ClusterStateInfo) : UInt32 := wordAt s.image 32

def setReadyWorkerCount (s : ClusterStateInfo) (count : UInt32) : ClusterStateInfo :=
  ⟨patch s.image 32 (wordBytes count), by
    rw [length_patch (by rw [s.size_eq]; simp [sizeofClusterStateInfo]), s.size_eq]⟩

end ClusterStateInfo

end SimTools.DataCenter.ClusterCore
