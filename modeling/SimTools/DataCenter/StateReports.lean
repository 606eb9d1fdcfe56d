/- Module: SimTools/DataCenter/StateReports
   digest: The way of a ready count from the queue to the super broker, one memory access at a time. -/

import SimTools.DataCenter.Workers
import SimTools.Lib.Relay

set_option autoImplicit false
set_option relaxedAutoImplicit false

namespace SimTools.DataCenter.StateReports

open Lib.Memory
open Lib.Channels
open Lib.Relay
open Lib.Runs
open ClusterCore
open TaskHeader
open ClusterBroker
open Network

/-- An access of the broker's thread to `workReadyQueue_` or to the atomic `readyWorkerCount_`. -/
inductive Op
  | push (workerID : Bytes)
  | pop
  | storeCount

namespace Op

def apply (b : LocalBalanceBroker) : Op → LocalBalanceBroker
  | .push workerID => b.push workerID
  | .pop => b.pop
  | .storeCount => b.storeCount

def replyOps (m : Message) : Except MemError (List Op) := do
  let taskMeta ← TaskMeta.ofMsg m.metaMsg
  let fromID ← TaskMeta.addr taskMeta .fromID
  pure [.push fromID, .storeCount]

def requestOps (b : LocalBalanceBroker) : List Op :=
  if b.workReadyQueue.length > 0 then [.pop, .storeCount] else []

def cloudOps (b : LocalBalanceBroker) (m : Message) : Except MemError (List Op) := do
  let taskMeta ← TaskMeta.ofMsg m.metaMsg
  if TaskMeta.taskDirection taskMeta = TaskDirection.taskSubmit.code then
    if b.storeCount.readyWorkerCount > 0 then pure [.storeCount, .pop, .storeCount]
    else pure [.storeCount]
  else pure []

end Op

/-- The accesses `todo` take the broker from `b` to `b'`, by way of queues no longer than both. -/
structure Executes (b : LocalBalanceBroker) (todo : List Op) (b' : LocalBalanceBroker) : Prop where
  ends : todo.foldl Op.apply b = b'
  between : ∀ done, done <+: todo → (done.foldl Op.apply b).workReadyQueue.length ≤
    max b.workReadyQueue.length b'.workReadyQueue.length

section Executes

variable {b b' : LocalBalanceBroker} {m : Message} {out : Option Outgoing} {todo : List Op}

theorem executes_nil (b : LocalBalanceBroker) : Executes b [] b := by
  refine ⟨rfl, ?_⟩
  intro done hdone
  rw [List.prefix_nil.mp hdone]
  simp

theorem Executes.cons {op : Op} (h : Executes (op.apply b) todo b')
    (first : (op.apply b).workReadyQueue.length ≤
      max b.workReadyQueue.length b'.workReadyQueue.length) : Executes b (op :: todo) b' := by
  refine ⟨h.ends, ?_⟩
  intro done hdone
  rcases List.prefix_cons_iff.mp hdone with rfl | ⟨rest, rfl, hrest⟩
  · simp
  · have hle := h.between rest hrest
    rw [List.foldl_cons]
    omega

theorem executes_storeCount (b : LocalBalanceBroker) : Executes b [.storeCount] b.storeCount := by
  apply Executes.cons
  · exact executes_nil b.storeCount
  · simp [Op.apply]

theorem executes_pop_storeCount (b : LocalBalanceBroker) :
    Executes b [.pop, .storeCount] b.pop.storeCount := by
  apply Executes.cons
  · exact executes_storeCount b.pop
  · simp [Op.apply]

theorem Op.replyOps_eq {h : Header} (shown : Carries m.metaMsg h) :
    Op.replyOps m = .ok [.push (h.addr .fromID).bytes, .storeCount] := by
  obtain ⟨tm, hm, r⟩ := shown
  simp only [Op.replyOps, hm, ofMsg_image, r.addr_eq, bind, Except.bind, pure, Except.pure]

theorem executes_replyOps (run : b.routeLocalReply m = .ok (b', out))
    (ops : Op.replyOps m = .ok todo) :
    Executes b todo b' := by
  obtain ⟨tm, hm, ops⟩ := bind_eq_ok ops
  obtain ⟨fromID, hfrom, ops⟩ := bind_eq_ok ops
  cases ops
  obtain ⟨tm', fromID', hm', hfrom', rfl, _⟩ := Workers.routeLocalReply_pushes run
  rw [hm] at hm'
  cases hm'
  rw [hfrom] at hfrom'
  cases hfrom'
  apply Executes.cons
  · exact executes_storeCount (b.push fromID)
  · simp [Op.apply]

theorem executes_requestOps (run : b.routeLocalRequest m = .ok (b', out)) :
    Executes b (Op.requestOps b) b' := by
  unfold Op.requestOps
  rcases Workers.routeLocalRequest_cases run with ⟨hqueue, rfl, _⟩ | ⟨_, _, _, hqueue, rfl, _⟩
  · rw [if_neg (by simp [hqueue])]
    exact executes_nil _
  · rw [if_pos (by simp [hqueue])]
    exact executes_pop_storeCount b

theorem executes_cloudOps (run : b.routeCloud m = .ok (b', out))
    (ops : Op.cloudOps b m = .ok todo) :
    Executes b todo b' := by
  obtain ⟨tm, hm, outcome⟩ := Workers.routeCloud_cases run
  obtain ⟨tm', hm', ops⟩ := bind_eq_ok ops
  rw [hm] at hm'
  cases hm'
  obtain ⟨submit, ready, _, _, _, rfl, _⟩ | ⟨submit, none_ready, rfl, _⟩ | ⟨answer, rfl, _⟩ :=
    outcome
  · rw [if_pos submit, if_pos ready] at ops
    cases ops
    apply Executes.cons
    · exact executes_pop_storeCount b.storeCount
    · simp [Op.apply]
  · rw [if_pos submit, if_neg none_ready] at ops
    cases ops
    exact executes_storeCount b
  · rw [if_neg answer] at ops
    cases ops
    exact executes_nil _

end Executes

/-- One cluster: the broker's thread with what is left of its handler, the thread of
`OneCluster::runTask` with the count it has read, and the two sockets of the reporter, oldest
message first. -/
structure Cluster where
  backend : Workers.Backend
  todo : List Op
  out : Option Outgoing
  sampled : Option UInt32
  paired : List Bytes
  pushed : List Bytes

namespace Cluster

def init (c : Name) : Cluster := ⟨Workers.Backend.init c, [], none, none, [], []⟩

def Idle (s : Cluster) : Prop := s.todo = [] ∧ s.out = none

def settled (T : Topology) (c : Name) (s : Cluster) : Workers.Backend :=
  s.backend.sendOn T c (s.todo.foldl Op.apply s.backend.broker) s.backend.inFlight s.out

/-- A handler has read its message and computed what to do. -/
def start (s : Cluster) (todo : List Op) (out : Option Outgoing) (rest : Pool Place Message) :
    Cluster :=
  { s with backend := { s.backend with inFlight := rest }, todo := todo, out := out }

end Cluster

/-- What the threads of the workers do. -/
def ofWorker : Workers.Action → Prop
  | .constructWorker _ | .receiveTask _ | .finishTask _ => True
  | .routeLocalReply _ | .routeLocalRequest _ | .routeCloud _ => False

/-- A step of one of the threads of cluster `c`. The handlers may be called in any order, on any
request; `storeCount` is what the loop of `LocalBalanceBroker::runTask` does before it polls. -/
inductive ClusterStep (T : Topology) (add : Double → Double → Double) (c : Name) :
    Cluster → Cluster → Prop
  | worker {s : Cluster} {a : Workers.Action} {t : Workers.Backend} :
      ofWorker a → Workers.Step T add c s.backend a t →
        ClusterStep T add c s { s with backend := t }
  | storeCount {s : Cluster} : s.Idle → ClusterStep T add c s { s with todo := [.storeCount] }
  | routeLocalReply {s : Cluster} {w : Name} {m : Message} {rest : Pool Place Message}
      {b : LocalBalanceBroker} {out : Option Outgoing} {todo : List Op} :
      s.Idle → receive (.workerToBroker c w) s.backend.inFlight = some (m, rest) →
      s.backend.broker.routeLocalReply m = .ok (b, out) → Op.replyOps m = .ok todo →
      ClusterStep T add c s (s.start todo out rest)
  | routeLocalRequest {s : Cluster} {m : Message} {b : LocalBalanceBroker} {out : Option Outgoing} :
      s.Idle → s.backend.broker.routeLocalRequest m = .ok (b, out) →
      ClusterStep T add c s (s.start (Op.requestOps s.backend.broker) out s.backend.inFlight)
  | routeCloud {s : Cluster} {m : Message} {b : LocalBalanceBroker} {out : Option Outgoing}
      {todo : List Op} :
      s.Idle → s.backend.broker.routeCloud m = .ok (b, out) →
        Op.cloudOps s.backend.broker m = .ok todo →
      ClusterStep T add c s (s.start todo out s.backend.inFlight)
  | access {s : Cluster} {op : Op} {todo : List Op} :
      s.todo = op :: todo →
      ClusterStep T add c s
        { s with backend := { s.backend with broker := op.apply s.backend.broker }, todo := todo }
  | send {s : Cluster} :
      s.todo = [] →
      ClusterStep T add c s
        { s with
          backend := s.backend.sendOn T c s.backend.broker s.backend.inFlight s.out
          out := none }
  | getReadyWorkerCount {s : Cluster} :
      s.sampled = none →
      ClusterStep T add c s { s with sampled := some s.backend.broker.readyWorkerCount }
  | setClusterState {s : Cluster} {count : UInt32} {msg : Bytes} :
      s.sampled = some count → stateReport c.bytes count = .ok msg →
      ClusterStep T add c s { s with sampled := none, paired := s.paired ++ [msg] }
  | forward {s : Cluster} {msg : Bytes} {paired : List Bytes} :
      s.paired = msg :: paired →
      ClusterStep T add c s { s with paired := paired, pushed := s.pushed ++ [msg] }

variable {T : Topology} {add : Double → Double → Double} {c : Name} {s t : Cluster}

structure Consistent (T : Topology) (c : Name) (s : Cluster) : Prop where
  settled : Workers.Accounted T c (s.settled T c)
  /-- No stage of the handler has more ready workers than there are workers. -/
  few : ∀ done, done <+: s.todo →
    (done.foldl Op.apply s.backend.broker).workReadyQueue.length ≤ (T.workers c).length
  reports : ∀ msg ∈ s.pushed ++ s.paired, ∃ count, stateReport c.bytes count = .ok msg

theorem Consistent.length_le (h : Consistent T c s) :
    s.backend.broker.workReadyQueue.length ≤ (T.workers c).length :=
  h.few [] List.nil_prefix

theorem Cluster.settled_of_idle (idle : s.Idle) : s.settled T c = s.backend := by
  simp [Cluster.settled, Workers.Backend.sendOn, idle.1, idle.2]

theorem consistent_init (T : Topology) (c : Name) : Consistent T c (Cluster.init c) := by
  refine ⟨?_, ?_, by simp [Cluster.init]⟩
  · rw [Cluster.settled_of_idle ⟨rfl, rfl⟩]
    exact Workers.accounted_init T c
  · intro done hdone
    rw [List.prefix_nil.mp hdone]
    simp [Cluster.init, Workers.Backend.init, LocalBalanceBroker.init]

private theorem frame_worker {b t : Workers.Backend} {a : Workers.Action} (by_worker : ofWorker a)
    (hs : Workers.Step T add c b a t) (broker : LocalBalanceBroker) (sent : Pool Place Message)
    (free : ∀ w, queueAt (.held c w) sent = []) :
    t.broker = b.broker ∧ ∃ t', Workers.Step T add c
        { b with broker := broker, inFlight := b.inFlight ++ sent } a t' ∧
      t'.broker = broker ∧ (t.inFlight ++ sent).Perm t'.inFlight ∧
        t.constructed = t'.constructed := by
  have hswap : ∀ front x : Pool Place Message,
      (front ++ x ++ sent).Perm (front ++ sent ++ x) := by
    intro front x
    rw [List.append_assoc, List.append_assoc]
    exact List.perm_append_comm.append_left front
  cases hs with
  | constructWorker hw hnew signal =>
    exact ⟨rfl, _, .constructWorker hw hnew signal, rfl, hswap _ _, rfl⟩
  | @receiveTask w m rest got idle =>
    refine ⟨rfl, _, .receiveTask (receive_append got sent) ?_, rfl, hswap _ _, rfl⟩
    rw [queueAt_append, idle, free]
    rfl
  | finishTask got run =>
    exact ⟨rfl, _, .finishTask (receive_append got sent) run, rfl, hswap _ _, rfl⟩
  | routeLocalReply | routeLocalRequest | routeCloud => exact by_worker.elim

private theorem queueAt_held_out (T : Topology) (c w : Name) (out : Option Outgoing) :
    queueAt (.held c w) (out.bind (placeOf T c)).toList = [] := by
  rw [queueAt, List.map_eq_nil_iff, List.filter_eq_nil_iff]
  intro q hq here
  obtain ⟨o, _, placed⟩ := Option.bind_eq_some_iff.mp (Option.mem_toList.mp hq)
  have hplace := of_decide_eq_true here
  cases o with
  | frontEnd identity m | backEnd identity m =>
    obtain ⟨i, _, rfl⟩ := Option.map_eq_some_iff.mp placed
    cases hplace
  | cloudTask m =>
    cases placed
    cases hplace

/-- A handler settles where `Workers.Step` puts it, and passes no longer queue on its way. -/
private theorem Consistent.start (h : Consistent T c s) (add : Double → Double → Double)
    (idle : s.Idle)
    {todo : List Op} {b : LocalBalanceBroker} {out : Option Outgoing} {rest : Pool Place Message}
    {a : Workers.Action}
    (executes : Executes s.backend.broker todo b)
    (hs : Workers.Step T add c s.backend a (s.backend.sendOn T c b rest out)) :
    Consistent T c (s.start todo out rest) := by
  have hbefore := h.settled
  rw [Cluster.settled_of_idle idle] at hbefore
  have hafter := hbefore.step hs
  have hsettled : (s.start todo out rest).settled T c = s.backend.sendOn T c b rest out := by
    simp only [Cluster.settled, Cluster.start, Workers.Backend.sendOn, executes.ends]
  refine ⟨?_, ?_, h.reports⟩
  · rw [hsettled]
    exact hafter
  · intro done hdone
    have hstage := executes.between done hdone
    have hle := hbefore.length_ready_le
    have hle' := hafter.length_ready_le
    simp only [Cluster.start, Workers.Backend.sendOn] at hle' ⊢
    omega

theorem Consistent.step (h : Consistent T c s) (hs : ClusterStep T add c s t) :
    Consistent T c t := by
  cases hs with
  | @worker a t by_worker hs =>
    obtain ⟨hbroker, t', hs', hbroker', perm, constructed⟩ := frame_worker by_worker hs
      (s.todo.foldl Op.apply s.backend.broker) (s.out.bind (placeOf T c)).toList
      (fun w => queueAt_held_out T c w s.out)
    refine ⟨(h.settled.step hs').congr ?_ perm constructed, ?_, h.reports⟩
    · rw [hbroker', Cluster.settled, Workers.Backend.sendOn, hbroker]
    · rw [hbroker]
      exact h.few
  | storeCount idle =>
    have hsettled := h.settled
    rw [Cluster.settled_of_idle idle] at hsettled
    refine ⟨hsettled.congr rfl ?_ rfl, ?_, h.reports⟩
    · simp [Cluster.settled, Workers.Backend.sendOn, idle.2]
    · intro done hdone
      have hstage := (executes_storeCount s.backend.broker).between done hdone
      have hle := h.length_le
      simp only [LocalBalanceBroker.storeCount_workReadyQueue] at hstage ⊢
      omega
  | routeLocalReply idle got run ops =>
    exact h.start add idle (executes_replyOps run ops) (.routeLocalReply got run)
  | routeLocalRequest idle run =>
    exact h.start add idle (executes_requestOps run) (.routeLocalRequest run)
  | routeCloud idle run ops => exact h.start add idle (executes_cloudOps run ops) (.routeCloud run)
  | @access op todo next =>
    refine ⟨?_, ?_, h.reports⟩
    · have hsettled := h.settled
      rw [Cluster.settled, next] at hsettled
      exact hsettled
    · intro done hdone
      refine h.few (op :: done) ?_
      rw [next]
      exact List.prefix_cons_inj op |>.mpr hdone
  | send last =>
    refine ⟨?_, h.few, h.reports⟩
    have hsettled := h.settled
    rw [Cluster.settled, last] at hsettled
    simpa [Cluster.settled, Workers.Backend.sendOn, last] using hsettled
  | getReadyWorkerCount => exact ⟨h.settled, h.few, h.reports⟩
  | @setClusterState count msg sampled reported =>
    refine ⟨h.settled, h.few, ?_⟩
    intro msg' hmsg
    rw [← List.append_assoc] at hmsg
    rcases List.mem_append.mp hmsg with hmsg | hmsg
    · exact h.reports msg' hmsg
    · rw [List.mem_singleton.mp hmsg]
      exact ⟨count, reported⟩
  | @forward msg paired next =>
    refine ⟨h.settled, h.few, ?_⟩
    have hreports := h.reports
    rw [next] at hreports
    simpa using hreports

theorem broker_of_worker {b t : Workers.Backend} {a : Workers.Action} (by_worker : ofWorker a)
    (hs : Workers.Step T add c b a t) : t.broker = b.broker := by
  cases hs with
  | constructWorker | receiveTask | finishTask => rfl
  | routeLocalReply | routeLocalRequest | routeCloud => exact by_worker.elim

/-- The counts on their way to the super broker, oldest first; the last is the atomic. -/
def Cluster.pipe (s : Cluster) : List Nat :=
  ((s.pushed ++ s.paired).map (fun msg => wordAt msg 32) ++ s.sampled.toList ++
    [s.backend.broker.readyWorkerCount]).map UInt32.toNat

/-- Within a cluster counts are stored, read and passed on. -/
theorem ClusterStep.relays (hs : ClusterStep T add c s t) (view : Option Nat) {signal : Nat → Nat}
    {now : Nat} (now_length : signal now = t.backend.broker.workReadyQueue.length)
    (few : t.backend.broker.workReadyQueue.length < 2 ^ 32) :
    Relays signal now (view, s.pipe) (view, t.pipe) := by
  cases hs with
  | worker by_worker hs =>
    simp only [Cluster.pipe, broker_of_worker by_worker hs]
    exact .keep _ _
  | storeCount | routeLocalReply | routeLocalRequest | routeCloud | send => exact .keep _ _
  | @access op todo next =>
    cases op with
    | push | pop => exact .keep _ _
    | storeCount =>
      have hstored : (UInt32.ofNat s.backend.broker.workReadyQueue.length).toNat = signal now := by
        rw [now_length]
        exact UInt32.toNat_ofNat_of_lt' few
      simp only [Cluster.pipe, List.map_append, List.map_cons, List.map_nil, Op.apply,
        LocalBalanceBroker.storeCount, hstored]
      exact .store _ _ _
  | getReadyWorkerCount idle =>
    have hbefore : s.pipe =
        ((s.pushed ++ s.paired).map (fun msg => wordAt msg 32)).map UInt32.toNat ++
        [s.backend.broker.readyWorkerCount.toNat] := by
      simp [Cluster.pipe, idle]
    have hafter : Cluster.pipe { s with sampled := some s.backend.broker.readyWorkerCount } =
        ((s.pushed ++ s.paired).map (fun msg => wordAt msg 32)).map UInt32.toNat ++
          [s.backend.broker.readyWorkerCount.toNat, s.backend.broker.readyWorkerCount.toNat] := by
      simp [Cluster.pipe]
    rw [hbefore, hafter]
    exact .load _ _ _
  | @setClusterState count msg sampled reported =>
    have hcount := SuperBroker.count_of_stateReport reported
    have hpipe : Cluster.pipe { s with sampled := none, paired := s.paired ++ [msg] } = s.pipe := by
      simp [Cluster.pipe, sampled, hcount]
    rw [hpipe]
    exact .keep _ _
  | @forward msg paired next =>
    have hpipe :
        Cluster.pipe { s with paired := paired, pushed := s.pushed ++ [msg] } = s.pipe := by
      simp [Cluster.pipe, next]
    rw [hpipe]
    exact .keep _ _

/-- All clusters and the super broker; `taskRouter` only reads `clusterInfoMap`. -/
structure World where
  cluster : Name → Cluster
  superBroker : SuperBroker

namespace World

def init : World := ⟨Cluster.init, SuperBroker.init⟩

end World

inductive Action
  | cluster (c : Name)
  | statePuller (c : Name)

/-- The PULL socket may take the next report of any cluster. -/
inductive Step (T : Topology) (add : Double → Double → Double) : World → Action → World → Prop
  | cluster {s : World} {c : Name} {t : Cluster} :
      c ∈ T.names → ClusterStep T add c (s.cluster c) t →
      Step T add s (.cluster c) { s with cluster := Function.update s.cluster c t }
  | statePuller {s : World} {c : Name} {msg : Bytes} {pushed : List Bytes} {super : SuperBroker} :
      c ∈ T.names → (s.cluster c).pushed = msg :: pushed →
        s.superBroker.statePuller msg = .ok super →
      Step T add s (.statePuller c)
        ⟨Function.update s.cluster c { s.cluster c with pushed := pushed }, super⟩

section World

variable {s t : World} {a : Action}

theorem consistent_step (h : ∀ c, Consistent T c (s.cluster c)) (hs : Step T add s a t) :
    ∀ c, Consistent T c (t.cluster c) := by
  intro c
  cases hs with
  | @cluster d t hd hs =>
    by_cases here : c = d
    · subst here
      simpa using (h c).step hs
    · simpa [here] using h c
  | @statePuller d msg pushed super hd next run =>
    by_cases here : c = d
    · subst here
      have hreports := (h c).reports
      rw [next] at hreports
      simp only [Function.update_self]
      exact ⟨(h c).settled, (h c).few, fun msg' hmsg => hreports msg' (by simp_all)⟩
    · simpa [here] using h c

theorem pulled (h : Consistent T c (s.cluster c)) {msg : Bytes} {pushed : List Bytes}
    {super : SuperBroker} (next : (s.cluster c).pushed = msg :: pushed)
    (run : s.superBroker.statePuller msg = .ok super) :
    ∃ info, super = ⟨s.superBroker.clusterInfoMap.insert c.bytes info⟩ ∧
      ClusterStateInfo.readyWorkerCount info = wordAt msg 32 := by
  obtain ⟨count, reported⟩ := h.reports msg (by simp [next])
  obtain ⟨msg', info, reported', hpull, hcount⟩ :=
    SuperBroker.statePuller_stateReport s.superBroker c count
  rw [reported] at reported'
  cases reported'
  rw [run] at hpull
  exact ⟨info, Except.ok.inj hpull, by rw [hcount, SuperBroker.count_of_stateReport reported]⟩

theorem others_unchanged (h : ∀ c, Consistent T c (s.cluster c)) {d : Name}
    (hs : Step T add s (.statePuller d) t) (other : d ≠ c) :
    t.superBroker.clusterInfoMap[c.bytes]? = s.superBroker.clusterInfoMap[c.bytes]? := by
  cases hs with
  | statePuller hd next run =>
    obtain ⟨info, rfl, _⟩ := pulled (h d) next run
    have hbytes : d.bytes ≠ c.bytes := fun he => other (Name.bytes_injective he)
    simp [Std.TreeMap.getElem?_insert, Std.LawfulEqCmp.compare_eq_iff_eq, hbytes]

theorem relays_step (h : ∀ c, Consistent T c (s.cluster c)) (hs : Step T add s a t) (c : Name)
    {signal : Nat → Nat} {now : Nat}
    (now_length : signal now = (t.cluster c).backend.broker.workReadyQueue.length) :
    Relays signal now (s.superBroker.reportedCount c.bytes, (s.cluster c).pipe)
      (t.superBroker.reportedCount c.bytes, (t.cluster c).pipe) := by
  have hfew := (consistent_step h hs c).length_le.trans_lt (T.workers_few c)
  cases hs with
  | @cluster d t hd hs =>
    by_cases here : c = d
    · subst here
      simp only [Function.update_self] at now_length hfew ⊢
      exact hs.relays _ now_length hfew
    · simp only [Function.update_of_ne here]
      exact .keep _ _
  | @statePuller d msg pushed super hd next run =>
    obtain ⟨info, rfl, hcount⟩ := pulled (h d) next run
    rw [SuperBroker.reportedCount_insert]
    by_cases here : c = d
    · subst here
      simp only [↓reduceIte, Function.update_self, Cluster.pipe, next, hcount, List.cons_append,
        List.map_cons]
      exact .pull _ _ _
    · have hbytes : d.bytes ≠ c.bytes := fun he => here (Name.bytes_injective he).symm
      rw [if_neg hbytes]
      simp only [Function.update_of_ne here]
      exact .keep _ _

end World

/-- What the super broker knows of cluster `c` in the first `n` steps of a run. -/
structure PastLengths (T : Topology) (add : Double → Double → Double) (σ : Nat → World) (n : Nat)
    (c : Name) : Prop where
  /-- Each count is the length that the queue had at an earlier point, and these do not go back. -/
  times : ∃ time : Nat → Nat, (∀ j k, j ≤ k → k ≤ n → time j ≤ time k) ∧ (∀ k ≤ n, time k ≤ k) ∧
    ∀ k ≤ n, ∀ v, (σ k).superBroker.reportedCount c.bytes = some v →
      v = ((σ (time k)).cluster c).backend.broker.workReadyQueue.length
  few : ∀ k ≤ n, ∀ v, (σ k).superBroker.reportedCount c.bytes = some v → v ≤ (T.workers c).length
  others : ∀ k < n, ∀ d, d ≠ c → Step T add (σ k) (.statePuller d) (σ (k + 1)) →
    (σ (k + 1)).superBroker.clusterInfoMap[c.bytes]? = (σ k).superBroker.clusterInfoMap[c.bytes]?

theorem views_are_past_lengths {σ : Nat → World} {n : Nat} (start : σ 0 = World.init)
    (steps : ∀ k < n, ∃ a, Step T add (σ k) a (σ (k + 1))) (c : Name) :
      PastLengths T add σ n c := by
  have hinv : ∀ k ≤ n, ∀ c, Consistent T c ((σ k).cluster c) := by
    intro k
    induction k with
    | zero =>
      intro _ c
      rw [start]
      exact consistent_init T c
    | succ k ih =>
      intro hk
      obtain ⟨a, hs⟩ := steps k hk
      exact consistent_step (ih (by omega)) hs
  have hnone : (σ 0).superBroker.reportedCount c.bytes = none := by
    rw [start]
    exact SuperBroker.reportedCount_init c.bytes
  have hpipe : ((σ 0).cluster c).pipe =
      [((σ 0).cluster c).backend.broker.workReadyQueue.length] := by
    rw [start]
    rfl
  have hrelays : ∀ k < n,
      Relays (fun k => ((σ k).cluster c).backend.broker.workReadyQueue.length) (k + 1)
      ((σ k).superBroker.reportedCount c.bytes, ((σ k).cluster c).pipe)
      ((σ (k + 1)).superBroker.reportedCount c.bytes, ((σ (k + 1)).cluster c).pipe) := by
    intro k hk
    obtain ⟨a, hs⟩ := steps k hk
    exact relays_step (hinv k hk.le) hs c rfl
  obtain ⟨time, monotone, past, shown⟩ := exists_times _ _ n hnone hpipe hrelays
  refine ⟨⟨time, monotone, past, shown⟩, ?_, ?_⟩
  · intro k hk v hv
    rw [shown k hk v hv]
    exact (hinv (time k) ((past k hk).trans hk) c).length_le
  · intro k hk d other hs
    exact others_unchanged (hinv k hk.le) hs other

theorem run_cluster {s : World} {t : Cluster} {es : List Unit} (hc : c ∈ T.names)
    (run : Run (fun s (_ : Unit) t => ClusterStep T add c s t) (s.cluster c) es t) :
    Run (Step T add) s (es.map (fun _ => .cluster c))
      { s with cluster := Function.update s.cluster c t } := by
  generalize hstart : s.cluster c = start at run
  induction run generalizing s with
  | nil start =>
    rw [← hstart, Function.update_eq_self]
    exact .nil s
  | @cons start next t e es hs _ ih =>
    rw [← hstart] at hs
    have hrest := ih (s := { s with cluster := Function.update s.cluster c next })
      (Function.update_self c next s.cluster)
    rw [Function.update_idem] at hrest
    exact .cons (.cluster hc hs) hrest

theorem exists_one_ready (add : Double → Double → Double) {w : Name} (hw : w ∈ T.workers c) :
    ∃ u, Run (fun s (_ : Unit) t => ClusterStep T add c s t) (Cluster.init c) [(), (), (), ()] u ∧
      u.Idle ∧ u.backend.broker = ((LocalBalanceBroker.init c.bytes).push w.bytes).storeCount ∧
      u.sampled = none ∧ u.paired = [] ∧ u.pushed = [] := by
  obtain ⟨metaMsg, signal, shown⟩ := Worker.aliveSignal_eq w
  have hreply := LocalBalanceBroker.routeLocalReply_alive (b := LocalBalanceBroker.init c.bytes)
    (m := ⟨metaMsg, [0]⟩) shown rfl
  have hops := Op.replyOps_eq (m := ⟨metaMsg, [0]⟩) shown
  have hgot : receive (Place.workerToBroker c w)
      [(Place.workerToBroker c w, (⟨metaMsg, [0]⟩ : Message))] = some (⟨metaMsg, [0]⟩, []) :=
    receive_cons_self _ _ []
  have hnew : w ∉ (Cluster.init c).backend.constructed := by
    simp [Cluster.init, Workers.Backend.init]
  have hworker : ofWorker (.constructWorker w) := trivial
  exact ⟨_, .cons (.worker hworker (.constructWorker hw hnew signal)) <|
    .cons (.routeLocalReply ⟨rfl, rfl⟩ hgot hreply hops) <| .cons (.access rfl) <|
      .single (.access rfl), ⟨rfl, rfl⟩, rfl, rfl, rfl, rfl⟩

theorem exists_pushed (add : Double → Double → Double) {u : Cluster} (sampled : u.sampled = none)
    (paired : u.paired = []) (pushed : u.pushed = []) {msg : Bytes}
    (reported : stateReport c.bytes u.backend.broker.readyWorkerCount = .ok msg) :
    ∃ t, Run (fun s (_ : Unit) t => ClusterStep T add c s t) u [(), (), ()] t ∧
      t.pushed = [msg] := by
  obtain ⟨backend, todo, out, _, _, _⟩ := u
  subst sampled paired pushed
  exact ⟨_, .cons (.getReadyWorkerCount rfl) <| .cons (.setClusterState rfl reported) <|
    .single (.forward rfl), rfl⟩

theorem views_are_past_lengths_one_ready : ∃ σ n c,
    (σ n).superBroker.reportedCount c.bytes = some 1 ∧ PastLengths oneCluster (· + ·) σ n c := by
  obtain ⟨c, hc⟩ : ∃ c, c ∈ oneCluster.names := ⟨_, List.mem_cons_self⟩
  obtain ⟨w, hw⟩ : ∃ w, w ∈ oneCluster.workers c := ⟨_, List.mem_cons_self⟩
  obtain ⟨u, hready, -, hbroker, sampled, paired, pushed⟩ := exists_one_ready (· + ·) hw
  obtain ⟨msg, info, reported, pulled, hcount⟩ :=
    SuperBroker.statePuller_stateReport SuperBroker.init c 1
  have hone : u.backend.broker.readyWorkerCount = 1 := by
    rw [hbroker]
    rfl
  rw [← hone] at reported
  obtain ⟨t, hcluster, hpushed⟩ := exists_pushed (T := oneCluster) (· + ·) sampled paired pushed
    reported
  have hnext : (Function.update World.init.cluster c t c).pushed = [msg] := by
    rw [Function.update_self]
    exact hpushed
  have hrun := (run_cluster (s := World.init) hc (hready.append hcluster)).snoc
    (.statePuller hc hnext pulled)
  obtain ⟨σ, hstart, hend, hsteps⟩ := hrun.exists_trace
  refine ⟨σ, _, c, ?_, views_are_past_lengths hstart hsteps c⟩
  rw [hend, SuperBroker.reportedCount_insert, if_pos rfl, hcount]
  rfl

end SimTools.DataCenter.StateReports
