/- Module: SimTools/DataCenter/Workers
   digest: One broker and its workers under arbitrary requests: every worker is accounted for once. -/

import SimTools.DataCenter.Network
import SimTools.Lib.Tokens

set_option autoImplicit false
set_option relaxedAutoImplicit false

namespace SimTools.DataCenter.Workers

open Lib.Memory
open Lib.Channels
open Lib.Runs
open Lib.Tokens (Ledger)
open Lib
open ClusterCore
open TaskHeader
open ClusterBroker
open Network

/-- One broker with its workers; what it sends elsewhere stays in `inFlight` and is not read. -/
structure Backend where
  broker : LocalBalanceBroker
  inFlight : Pool Place Message
  constructed : List Name

namespace Backend

def init (c : Name) : Backend := ⟨LocalBalanceBroker.init c.bytes, [], []⟩

def sendOn (T : Topology) (c : Name) (s : Backend) (b : LocalBalanceBroker)
    (rest : Pool Place Message)
    (out : Option Outgoing) : Backend :=
  { s with broker := b, inFlight := rest ++ (out.bind (placeOf T c)).toList }

end Backend

inductive Action
  | constructWorker (w : Name)
  | receiveTask (w : Name)
  | finishTask (w : Name)
  | routeLocalReply (w : Name)
  | routeLocalRequest (m : Message)
  | routeCloud (m : Message)

/-- The requests that the two last handlers read are arbitrary messages. -/
inductive Step (T : Topology) (add : Double → Double → Double) (c : Name) :
    Backend → Action → Backend → Prop
  | constructWorker {s : Backend} {w : Name} {m : Message} :
      w ∈ T.workers c → w ∉ s.constructed → Worker.aliveSignal w.bytes = .ok m →
      Step T add c s (.constructWorker w)
        { s with
          inFlight := s.inFlight ++ [(.workerToBroker c w, m)]
          constructed := w :: s.constructed }
  | receiveTask {s : Backend} {w : Name} {m : Message} {rest : Pool Place Message} :
      receive (.brokerToWorker c w) s.inFlight = some (m, rest) →
        queueAt (.held c w) s.inFlight = [] →
      Step T add c s (.receiveTask w) { s with inFlight := rest ++ [(.held c w, m)] }
  | finishTask {s : Backend} {w : Name} {m m' : Message} {rest : Pool Place Message} :
      receive (.held c w) s.inFlight = some (m, rest) → Worker.process add w.bytes m = .ok m' →
      Step T add c s (.finishTask w) { s with inFlight := rest ++ [(.workerToBroker c w, m')] }
  | routeLocalReply {s : Backend} {w : Name} {m : Message} {rest : Pool Place Message}
      {b : LocalBalanceBroker} {out : Option Outgoing} :
      receive (.workerToBroker c w) s.inFlight = some (m, rest) →
      s.broker.routeLocalReply m = .ok (b, out) →
      Step T add c s (.routeLocalReply w) (s.sendOn T c b rest out)
  | routeLocalRequest {s : Backend} {m : Message} {b : LocalBalanceBroker} {out : Option Outgoing} :
      s.broker.routeLocalRequest m = .ok (b, out) →
      Step T add c s (.routeLocalRequest m) (s.sendOn T c b s.inFlight out)
  | routeCloud {s : Backend} {m : Message} {b : LocalBalanceBroker} {out : Option Outgoing} :
      s.broker.routeCloud m = .ok (b, out) →
      Step T add c s (.routeCloud m) (s.sendOn T c b s.inFlight out)

/-- The broker sends to a worker by taking it from the front of its queue, and not otherwise. -/
inductive Turns (b : LocalBalanceBroker) : LocalBalanceBroker → Option Outgoing → Prop
  | dispatch {b' : LocalBalanceBroker} {m : Message} {w : Bytes} {ws : List Bytes} :
      b.workReadyQueue = w :: ws → b'.workReadyQueue = ws →
      Turns b b' (some (.backEnd (stringToZMQMsg w) m))
  | pass {b' : LocalBalanceBroker} {o : Outgoing} : b'.workReadyQueue = b.workReadyQueue →
      (∀ identity m, o ≠ .backEnd identity m) → Turns b b' (some o)

section Handlers

variable {b b' : LocalBalanceBroker} {m : Message} {out : Option Outgoing}

theorem routeLocalRequest_cases (run : b.routeLocalRequest m = .ok (b', out)) :
    (b.workReadyQueue = [] ∧ b' = b ∧ ∃ m', out = some (.cloudTask m')) ∨
    ∃ w ws m', b.workReadyQueue = w :: ws ∧ b' = b.pop.storeCount ∧
      out = some (.backEnd (stringToZMQMsg w) m') := by
  obtain ⟨tm, _, run⟩ := bind_eq_ok run
  obtain ⟨tm1, _, run⟩ := bind_eq_ok run
  cases hqueue : b.workReadyQueue with
  | nil =>
    rw [if_neg (by simp [hqueue])] at run
    obtain ⟨metaMsg, _, run⟩ := bind_eq_ok run
    cases run
    exact .inl ⟨rfl, rfl, _, rfl⟩
  | cons w ws =>
    rw [if_pos (by simp [hqueue])] at run
    obtain ⟨workerID, hfront, run⟩ := bind_eq_ok run
    rw [LocalBalanceBroker.front, hqueue] at hfront
    cases hfront
    obtain ⟨tm2, _, run⟩ := bind_eq_ok run
    obtain ⟨tm3, _, run⟩ := bind_eq_ok run
    obtain ⟨metaMsg, _, run⟩ := bind_eq_ok run
    cases run
    exact .inr ⟨_, ws, _, rfl, rfl, rfl⟩

theorem routeCloud_cases (run : b.routeCloud m = .ok (b', out)) :
    ∃ taskMeta, TaskMeta.ofMsg m.metaMsg = .ok taskMeta ∧
      ((TaskMeta.taskDirection taskMeta = TaskDirection.taskSubmit.code ∧
          b.storeCount.readyWorkerCount > 0 ∧ ∃ w ws, b.workReadyQueue = w :: ws ∧
          b' = b.pop.storeCount ∧ out = some (.backEnd (stringToZMQMsg w) m)) ∨
        (TaskMeta.taskDirection taskMeta = TaskDirection.taskSubmit.code ∧
          ¬ b.storeCount.readyWorkerCount > 0 ∧ b' = b.storeCount ∧
          ∃ m', out = some (.cloudTask m')) ∨
        (TaskMeta.taskDirection taskMeta ≠ TaskDirection.taskSubmit.code ∧ b' = b ∧
          ∃ toID, out = some (.frontEnd (stringToZMQMsg toID) m))) := by
  obtain ⟨tm, hm, run⟩ := bind_eq_ok run
  refine ⟨tm, hm, ?_⟩
  split at run
  · rename_i submit
    dsimp only at run
    split at run
    · rename_i ready
      obtain ⟨workerID, hfront, run⟩ := bind_eq_ok run
      obtain ⟨tm1, _, run⟩ := bind_eq_ok run
      obtain ⟨tm2, _, run⟩ := bind_eq_ok run
      cases run
      cases hqueue : b.workReadyQueue with
      | nil => simp [LocalBalanceBroker.front, hqueue] at hfront
      | cons w ws =>
        simp only [LocalBalanceBroker.front, LocalBalanceBroker.storeCount_workReadyQueue,
          hqueue] at hfront
        cases hfront
        exact .inl ⟨submit, ready, _, ws, rfl, rfl, rfl⟩
    · rename_i none_ready
      obtain ⟨tm1, _, run⟩ := bind_eq_ok run
      obtain ⟨tm2, _, run⟩ := bind_eq_ok run
      obtain ⟨metaMsg, _, run⟩ := bind_eq_ok run
      obtain ⟨_, _, run⟩ := bind_eq_ok run
      cases run
      exact .inr (.inl ⟨submit, none_ready, rfl, _, rfl⟩)
  · rename_i answer
    obtain ⟨toID, _, run⟩ := bind_eq_ok run
    cases run
    exact .inr (.inr ⟨answer, rfl, toID, rfl⟩)

theorem turns_routeLocalRequest (run : b.routeLocalRequest m = .ok (b', out)) : Turns b b' out := by
  rcases routeLocalRequest_cases run with ⟨_, rfl, _, rfl⟩ | ⟨w, ws, _, hqueue, rfl, rfl⟩
  · exact .pass rfl (by simp)
  · exact .dispatch hqueue (by simp [hqueue])

theorem turns_routeCloud (run : b.routeCloud m = .ok (b', out)) : Turns b b' out := by
  obtain ⟨_, _, ⟨_, _, w, ws, hqueue, rfl, rfl⟩ | ⟨_, _, rfl, _, rfl⟩ | ⟨_, rfl, _, rfl⟩⟩ :=
    routeCloud_cases run
  · exact .dispatch hqueue (by simp [hqueue])
  · exact .pass rfl (by simp)
  · exact .pass rfl (by simp)

/-- Whatever comes from a worker puts the sender that it names at the end of the queue. -/
theorem routeLocalReply_pushes (run : b.routeLocalReply m = .ok (b', out)) :
    ∃ taskMeta fromID, TaskMeta.ofMsg m.metaMsg = .ok taskMeta ∧
      TaskMeta.addr taskMeta .fromID = .ok fromID ∧
      b' = (b.push fromID).storeCount ∧ ∀ identity m, out ≠ some (.backEnd identity m) := by
  obtain ⟨tm, hm, run⟩ := bind_eq_ok run
  obtain ⟨fromID, hfrom, run⟩ := bind_eq_ok run
  refine ⟨tm, fromID, hm, hfrom, ?_⟩
  split at run
  · cases run
    exact ⟨rfl, by simp⟩
  · obtain ⟨fromClusterID, _, run⟩ := bind_eq_ok run
    obtain ⟨tm1, _, run⟩ := bind_eq_ok run
    obtain ⟨tm2, _, run⟩ := bind_eq_ok run
    obtain ⟨metaMsg, _, run⟩ := bind_eq_ok run
    obtain ⟨toClusterID, _, run⟩ := bind_eq_ok run
    split at run
    · obtain ⟨toID, _, run⟩ := bind_eq_ok run
      cases run
      exact ⟨rfl, by simp⟩
    · cases run
      exact ⟨rfl, by simp⟩

def SentBy (w : Name) (m : Message) : Prop :=
  ∃ taskMeta, TaskMeta.ofMsg m.metaMsg = .ok taskMeta ∧ TaskMeta.addr taskMeta .fromID = .ok w.bytes

theorem sentBy_aliveSignal {w : Name} (run : Worker.aliveSignal w.bytes = .ok m) : SentBy w m := by
  obtain ⟨metaMsg, hsignal, tm, rfl, rep⟩ := Worker.aliveSignal_eq w
  rw [run] at hsignal
  cases hsignal
  refine ⟨tm, ofMsg_image tm, ?_⟩
  rw [rep.addr_eq, Header.setType_addr, Header.setDirection_addr, Header.setAddr_addr_self]

theorem sentBy_process {add : Double → Double → Double} {w : Name} {m' : Message}
    (run : Worker.process add w.bytes m = .ok m') : SentBy w m' := by
  obtain ⟨tm, _, run⟩ := bind_eq_ok run
  obtain ⟨taskReq, _, run⟩ := bind_eq_ok run
  obtain ⟨fromID, _, run⟩ := bind_eq_ok run
  obtain ⟨tm1, _, run⟩ := bind_eq_ok run
  obtain ⟨tm2, hcopy, run⟩ := bind_eq_ok run
  cases run
  refine ⟨TaskMeta.setTaskDirection tm2 .taskReply, ofMsg_image _, ?_⟩
  have hsize : tm2.image.length = 144 := tm2.size_eq
  have hshort : w.bytes.length < 32 := w.short
  have hword : (wordBytes TaskDirection.taskReply.code).length = 4 := length_wordBytes _
  have hstr : StrAt tm2.image AddrField.fromID.offset w.bytes := strAt_copyStringToBuffer hcopy
  have hoffset : AddrField.fromID.offset = 32 := rfl
  exact (hstr.patch_of_disjoint (by omega) (.inl (by omega))).cstring_eq

end Handlers

variable {T : Topology} {add : Double → Double → Double} {c w : Name} {s t : Backend} {a : Action}

/-- The workers of `c` as tokens, with the places where a worker has a task or has sent
something. -/
def ledger (c : Name) : Ledger Place Name Bytes where
  places := fun w => [.workerToBroker c w, .brokerToWorker c w, .held c w]
  name := Name.bytes
  name_injective := Name.bytes_injective
  places_nodup := by simp
  owner_unique := by
    intro v w p hv hw
    cases p <;> simp_all

structure Accounted (T : Topology) (c : Name) (s : Backend) : Prop where
  members : ∀ w ∈ s.constructed, w ∈ T.workers c
  tokens : Tokens.Accounted (ledger c) s.constructed s.inFlight s.broker.workReadyQueue
  senders : ∀ w m, (.workerToBroker c w, m) ∈ s.inFlight → SentBy w m

theorem accounted_init (T : Topology) (c : Name) : Accounted T c (Backend.init c) :=
  ⟨by simp [Backend.init], Tokens.accounted_nil (ledger c), by simp [Backend.init]⟩

theorem Accounted.congr (h : Accounted T c s)
    (queue : t.broker.workReadyQueue = s.broker.workReadyQueue)
    (perm : t.inFlight.Perm s.inFlight) (constructed : t.constructed = s.constructed) :
    Accounted T c t := by
  refine ⟨?_, ?_, ?_⟩
  · rw [constructed]
    exact h.members
  · rw [constructed, queue]
    exact h.tokens.perm perm
  · intro w m hm
    exact h.senders w m (perm.mem_iff.mp hm)

section Preservation

variable {b : LocalBalanceBroker} {out : Option Outgoing} {rest : Pool Place Message} {m : Message}

theorem placeOf_elsewhere (other : ∀ identity m, out ≠ some (.backEnd identity m)) (w : Name) :
    ∀ q ∈ (out.bind (placeOf T c)).toList, (ledger c).owns w q.1 = false := by
  intro q hq
  obtain ⟨o, rfl, placed⟩ := Option.bind_eq_some_iff.mp (Option.mem_toList.mp hq)
  cases o with
  | backEnd identity m => exact absurd rfl (other identity m)
  | frontEnd identity m =>
    obtain ⟨i, _, rfl⟩ := Option.map_eq_some_iff.mp placed
    simp [Ledger.owns, ledger]
  | cloudTask m =>
    cases placed
    simp [Ledger.owns, ledger]

theorem placeOf_ne_workerToBroker {q : Place × Message}
    (hq : q ∈ (out.bind (placeOf T c)).toList) (w : Name) : q.1 ≠ .workerToBroker c w := by
  obtain ⟨o, _, placed⟩ := Option.bind_eq_some_iff.mp (Option.mem_toList.mp hq)
  cases o with
  | frontEnd identity m | backEnd identity m =>
    obtain ⟨i, _, rfl⟩ := Option.map_eq_some_iff.mp placed
    simp
  | cloudTask m =>
    cases placed
    simp

theorem Accounted.worker_of_mem (h : Accounted T c s) {id : Bytes}
    (hid : id ∈ s.broker.workReadyQueue) : ∃ w ∈ s.constructed, id = w.bytes ∧
      ∀ m, placeOf T c (.backEnd (stringToZMQMsg id) m) = some (.brokerToWorker c w, m) := by
  obtain ⟨w, hw, rfl⟩ := h.tokens.exists_of_mem_queue hid
  exact ⟨w, hw, rfl, fun m => placeOf_backEnd T (h.members w hw) m⟩

private theorem accounted_turn {b' : LocalBalanceBroker} (h : Accounted T c s)
    (turns : Turns s.broker b' out) : Accounted T c (s.sendOn T c b' s.inFlight out) := by
  refine ⟨h.members, ?_, ?_⟩
  · cases turns with
    | @dispatch m id ws queue queue' =>
      obtain ⟨w, _, rfl, hplace⟩ := h.worker_of_mem
        (show id ∈ s.broker.workReadyQueue by simp [queue])
      have htokens := h.tokens
      rw [queue, ← queue'] at htokens
      rw [Backend.sendOn, Option.bind_some, hplace]
      apply htokens.dispatch
      simp [Ledger.owns, ledger]
    | pass queue other =>
      rw [Backend.sendOn, queue]
      apply h.tokens.send
      exact placeOf_elsewhere (fun identity m ho => other identity m (Option.some.inj ho))
  · intro w m hm
    rcases List.mem_append.mp hm with hm | hm
    · exact h.senders w m hm
    · exact absurd rfl (placeOf_ne_workerToBroker hm w)

private theorem accounted_move (h : Accounted T c s) {p q : Place} {m' : Message}
    (got : receive p s.inFlight = some (m, rest))
    (same : ∀ v, (ledger c).owns v p = (ledger c).owns v q)
    (sender : ∀ v, q = .workerToBroker c v → SentBy v m') :
    Accounted T c { s with inFlight := rest ++ [(q, m')] } := by
  refine ⟨h.members, h.tokens.move got same, ?_⟩
  intro v m'' hm
  rcases mem_of_mem_moved got hm with hm | new
  · exact h.senders v m'' hm
  · obtain ⟨hq, rfl⟩ := Prod.mk.inj new
    exact sender v hq.symm

theorem Accounted.step (h : Accounted T c s) (hs : Step T add c s a t) : Accounted T c t := by
  cases hs with
  | @constructWorker w m hw hnew signal =>
    refine ⟨?_, ?_, ?_⟩
    · intro v hv
      rcases List.mem_cons.mp hv with rfl | hv
      · exact hw
      · exact h.members v hv
    · apply h.tokens.join hnew
      simp [Ledger.owns, ledger]
    · intro v m' hm
      rcases List.mem_append.mp hm with hm | hm
      · exact h.senders v m' hm
      · cases List.mem_singleton.mp hm
        exact sentBy_aliveSignal signal
  | @receiveTask w m rest got idle =>
    apply accounted_move h got
    · simp [Ledger.owns, ledger]
    · simp
  | @finishTask w m m' rest got run =>
    apply accounted_move h got
    · simp [Ledger.owns, ledger]
    · rintro v ⟨⟩
      exact sentBy_process run
  | @routeLocalReply w m rest b out got run =>
    obtain ⟨tm, fromID, hm, hfrom, rfl, other⟩ := routeLocalReply_pushes run
    obtain rfl : fromID = w.bytes := by
      obtain ⟨tm', hm', hfrom'⟩ := h.senders w m (receive_mem got)
      rw [hm] at hm'
      cases hm'
      rw [hfrom] at hfrom'
      exact Except.ok.inj hfrom'
    refine ⟨h.members, ?_, ?_⟩
    · apply Tokens.Accounted.send
      · exact h.tokens.wait got (by simp [Ledger.owns, ledger])
      · exact placeOf_elsewhere other
    · intro v m' hm'
      rcases List.mem_append.mp hm' with hm' | hm'
      · exact h.senders v m' (mem_of_mem_rest got hm')
      · exact absurd rfl (placeOf_ne_workerToBroker hm' v)
  | routeLocalRequest run => exact accounted_turn h (turns_routeLocalRequest run)
  | routeCloud run => exact accounted_turn h (turns_routeCloud run)

end Preservation

theorem accounted_of_run {as : List Action} (run : Run (Step T add c) (Backend.init c) as s) :
    Accounted T c s :=
  run.invariant (fun _ _ _ h hs => h.step hs) (accounted_init T c)

theorem occurrences_ledger (c : Name) (s : Backend) (w : Name) :
    (ledger c).occurrences s.inFlight s.broker.workReadyQueue w =
      (queueAt (.workerToBroker c w) s.inFlight).length + s.broker.workReadyQueue.count w.bytes +
        (queueAt (.brokerToWorker c w) s.inFlight).length +
          (queueAt (.held c w) s.inFlight).length := by
  rw [Ledger.occurrences_eq]
  simp only [ledger, List.map_cons, List.map_nil, List.sum_cons, List.sum_nil]
  omega

/-- Every constructed worker is in one of four situations, and in it once. -/
structure EachOnce (T : Topology) (add : Double → Double → Double) (c : Name) (s : Backend) :
    Prop where
  /-- What it sent is under way, it is in the queue, a task is under way to it, or it has one. -/
  situation : ∀ w ∈ s.constructed,
    (queueAt (.workerToBroker c w) s.inFlight).length + s.broker.workReadyQueue.count w.bytes +
      (queueAt (.brokerToWorker c w) s.inFlight).length +
        (queueAt (.held c w) s.inFlight).length = 1
  /-- A worker that does not exist yet is nowhere. -/
  absent : ∀ w, w ∉ s.constructed → queueAt (.workerToBroker c w) s.inFlight = [] ∧
    w.bytes ∉ s.broker.workReadyQueue ∧ queueAt (.brokerToWorker c w) s.inFlight = [] ∧
    queueAt (.held c w) s.inFlight = []
  nodup : s.broker.workReadyQueue.Nodup
  length_le : s.broker.workReadyQueue.length ≤ s.constructed.length ∧
    s.constructed.length ≤ (T.workers c).length
  /-- A worker is given a task only when the broker has nothing to expect from it. -/
  dispatch : ∀ a t, Step T add c s a t → ∀ w,
    (queueAt (.brokerToWorker c w) s.inFlight).length <
      (queueAt (.brokerToWorker c w) t.inFlight).length →
      w ∈ s.constructed ∧ w.bytes ∈ s.broker.workReadyQueue ∧
      queueAt (.workerToBroker c w) s.inFlight = [] ∧
        queueAt (.brokerToWorker c w) s.inFlight = [] ∧
      queueAt (.held c w) s.inFlight = []

theorem mem_queue_of_dispatch (h : Accounted T c s) (hs : Step T add c s a t)
    (grows : (queueAt (.brokerToWorker c w) s.inFlight).length <
      (queueAt (.brokerToWorker c w) t.inFlight).length) : w.bytes ∈ s.broker.workReadyQueue := by
  have hshrink : ∀ p m rest (sent : Pool Place Message), receive p s.inFlight = some (m, rest) →
      t.inFlight = rest ++ sent → queueAt (.brokerToWorker c w) sent = [] → False := by
    intro p m rest sent got after hsent
    have hle := length_queueAt_rest_le got (.brokerToWorker c w)
    rw [after, queueAt_append, hsent, List.append_nil] at grows
    omega
  have helsewhere : ∀ out : Option Outgoing, (∀ identity m, out ≠ some (.backEnd identity m)) →
      queueAt (.brokerToWorker c w) (out.bind (placeOf T c)).toList = [] := by
    intro out other
    rw [queueAt, List.map_eq_nil_iff, List.filter_eq_nil_iff]
    intro q hq here
    have hnot := placeOf_elsewhere other w q hq
    simp [Ledger.owns, ledger, of_decide_eq_true here] at hnot
  have hturn : ∀ b out, Turns s.broker b out → t = s.sendOn T c b s.inFlight out →
      w.bytes ∈ s.broker.workReadyQueue := by
    rintro b out turns rfl
    rw [Backend.sendOn, queueAt_append, List.length_append] at grows
    cases turns with
    | @dispatch m id ws queue =>
      have hid : id ∈ s.broker.workReadyQueue := by simp [queue]
      obtain ⟨v, _, rfl, hplace⟩ := h.worker_of_mem hid
      rw [Option.bind_some, hplace] at grows
      by_cases here : v = w
      · rwa [← here]
      · simp [queueAt, here] at grows
    | pass _ other =>
      rw [helsewhere _ (fun identity m ho => other identity m (Option.some.inj ho))] at grows
      simp at grows
  cases hs with
  | constructWorker => simp [queueAt] at grows
  | receiveTask got => exact (hshrink _ _ _ _ got rfl (by simp [queueAt])).elim
  | finishTask got => exact (hshrink _ _ _ _ got rfl (by simp [queueAt])).elim
  | @routeLocalReply v m rest b out got run =>
    obtain ⟨_, _, _, _, _, other⟩ := routeLocalReply_pushes run
    exact (hshrink _ _ _ _ got rfl (helsewhere out other)).elim
  | routeLocalRequest run => exact hturn _ _ (turns_routeLocalRequest run) rfl
  | routeCloud run => exact hturn _ _ (turns_routeCloud run) rfl

namespace Accounted

theorem situation (h : Accounted T c s) (hw : w ∈ s.constructed) :
    (queueAt (.workerToBroker c w) s.inFlight).length + s.broker.workReadyQueue.count w.bytes +
      (queueAt (.brokerToWorker c w) s.inFlight).length +
        (queueAt (.held c w) s.inFlight).length = 1 := by
  rw [← occurrences_ledger]
  exact h.tokens.occurrences_eq_one hw

theorem absent (h : Accounted T c s) (hw : w ∉ s.constructed) :
    (queueAt (.workerToBroker c w) s.inFlight).length + s.broker.workReadyQueue.count w.bytes +
      (queueAt (.brokerToWorker c w) s.inFlight).length +
        (queueAt (.held c w) s.inFlight).length = 0 := by
  rw [← occurrences_ledger, h.tokens.once w]
  exact List.count_eq_zero.mpr hw

theorem length_ready_le (h : Accounted T c s) :
    s.broker.workReadyQueue.length ≤ s.constructed.length ∧
      s.constructed.length ≤ (T.workers c).length :=
  ⟨h.tokens.length_queue_le, (List.subperm_of_subset h.tokens.nodup h.members).length_le⟩

end Accounted

/-- In every reachable state of a broker and its workers, whatever requests reach the broker,
each worker is accounted for exactly once. -/
theorem each_worker_once {as : List Action} (run : Run (Step T add c) (Backend.init c) as s) :
    EachOnce T add c s := by
  have h := accounted_of_run run
  refine ⟨fun w hw => h.situation hw, ?_, h.tokens.queue_nodup, h.length_ready_le, ?_⟩
  · intro w hw
    have hzero := h.absent hw
    refine ⟨?_, ?_, ?_, ?_⟩
    · exact List.length_eq_zero_iff.mp (by omega)
    · exact List.count_eq_zero.mp (by omega)
    · exact List.length_eq_zero_iff.mp (by omega)
    · exact List.length_eq_zero_iff.mp (by omega)
  · intro a t hs w grows
    have hmem := mem_queue_of_dispatch h hs grows
    have hconstructed : w ∈ s.constructed := h.tokens.mem_of_mem_queue hmem
    have hcount := List.count_pos_iff.mpr hmem
    have hone := h.situation hconstructed
    refine ⟨hconstructed, hmem, ?_, ?_, ?_⟩
    · exact List.length_eq_zero_iff.mp (by omega)
    · exact List.length_eq_zero_iff.mp (by omega)
    · exact List.length_eq_zero_iff.mp (by omega)

theorem each_worker_once_constructed : ∃ c as s,
    Run (Step oneCluster (· + ·) c) (Backend.init c) as s ∧ s.constructed ≠ [] ∧
      EachOnce oneCluster (· + ·) c s := by
  obtain ⟨metaMsg, hsignal, _⟩ :=
    Worker.aliveSignal_eq ⟨[119, 111, 114, 107, 101, 114, 95, 48], by decide, by decide⟩
  have hs : Step oneCluster (· + ·) ⟨[67, 108, 117, 115, 116, 101, 114], by decide, by decide⟩
      (Backend.init ⟨[67, 108, 117, 115, 116, 101, 114], by decide, by decide⟩) _ _ :=
    .constructWorker List.mem_cons_self (by simp [Backend.init]) hsignal
  exact ⟨_, _, _, .single hs, by simp, each_worker_once (.single hs)⟩

end SimTools.DataCenter.Workers
