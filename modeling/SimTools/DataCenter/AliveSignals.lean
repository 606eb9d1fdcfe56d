/- Module: SimTools/DataCenter/AliveSignals
   digest: Reports and alive signals travel on channels of their own: when a chosen cluster is known. -/

import SimTools.DataCenter.Routing
import SimTools.Lib.Channels

set_option autoImplicit false
set_option relaxedAutoImplicit false

namespace SimTools.DataCenter.AliveSignals

open Lib.Memory
open Lib.Channels
open Lib.Runs
open Lib.Selection
open ClusterCore
open TaskHeader
open ClusterBroker (Message Message.isSubmit offered_request)

/-- The super broker with the two channels of each cluster: state reports, here by their count,
and messages of the task channel. -/
structure Cloud where
  super : SuperBroker
  reports : Pool Name UInt32
  tasks : Pool Name Message
  started : List Name
  /-- The clusters whose alive signal `taskRouter` has received. -/
  signalled : List Name

inductive Action
  | start (c : Name)
  | report (c : Name) (count : UInt32)
  | submit (c : Name) (m : Message)
  | statePuller (c : Name) (count : UInt32)
  | taskRouter (c : Name) (m : Message)

structure Event where
  before : Cloud
  action : Action
  sent : Option (Bytes × Message)

def Cloud.init : Cloud := ⟨SuperBroker.init, [], [], [], []⟩

/-- The field `taskType` of the header says that the message is an alive signal. -/
def isAlive (m : Message) : Bool := wordAt m.metaMsg 136 = TaskType.aliveSignal.code

/-- A cluster signals alive when its broker is constructed; afterwards it may send reports and
requests or answers. Each channel is FIFO, and there is no order between the two of a cluster. -/
inductive Step : Cloud → Event → Cloud → Prop
  | start {s : Cloud} {c : Name} {m : Message} : c ∉ s.started →
      ClusterBroker.LocalBalanceBroker.aliveSignal c.bytes = .ok m →
      Step s ⟨s, .start c, none⟩ { s with tasks := s.tasks ++ [(c, m)], started := c :: s.started }
  | report {s : Cloud} {c : Name} {count : UInt32} : c ∈ s.started →
      Step s ⟨s, .report c count, none⟩ { s with reports := s.reports ++ [(c, count)] }
  | submit {s : Cloud} {c : Name} {m : Message} {h : Header} : c ∈ s.started → Carries m.metaMsg h →
      h.taskType = .normalTask → Step s ⟨s, .submit c m, none⟩
        { s with tasks := s.tasks ++ [(c, m)] }
  | statePuller {s : Cloud} {c : Name} {count : UInt32} {rest : Pool Name UInt32} {msg : Bytes}
      {super : SuperBroker} : receive c s.reports = some (count, rest) →
      stateReport c.bytes count = .ok msg → s.super.statePuller msg = .ok super →
      Step s ⟨s, .statePuller c count, none⟩ { s with super := super, reports := rest }
  | taskRouter {s : Cloud} {c : Name} {m : Message} {rest : Pool Name Message}
      {sent : Option (Bytes × Message)} : receive c s.tasks = some (m, rest) →
      s.super.taskRouter m = .ok sent →
      Step s ⟨s, .taskRouter c m, sent⟩
        { s with tasks := rest, signalled := if isAlive m then c :: s.signalled else s.signalled }

def forwardsTo (d : Name) (e : Event) : Bool :=
  match e.action, e.sent with
  | .taskRouter _ m, some (identity, m') => m.isSubmit && m'.isSubmit && identity = d.identity
  | _, _ => false

/-- The step handles a request that names a client and a cluster. -/
def HandlesRequest (e : Event) : Prop :=
  ∃ c m h, e.action = .taskRouter c m ∧ Carries m.metaMsg h ∧ h.taskType = .normalTask ∧
    h.taskDirection = .taskSubmit ∧ (h.addr .fromID).bytes ≠ [] ∧ (h.addr .fromClusterID).bytes ≠ []

/-- `d` is the first cluster, by name, of those whose last count is the largest, and it is
positive. -/
def Preferred (s : SuperBroker) (d : Name) : Prop :=
  d.bytes ≠ [] ∧ ∃ info, 0 < (ClusterStateInfo.readyWorkerCount info).toNat ∧
    FirstMax (fun x : Bytes × ClusterStateInfo => (ClusterStateInfo.readyWorkerCount x.2).toNat)
      s.clusterInfoMap.toList (d.bytes, info)

/-- The step forwards requests only to clusters that have signalled alive. -/
def SafeForward (e : Event) : Prop := ∀ d, forwardsTo d e = true → d ∈ e.before.signalled

def PreferredKnown (e : Event) : Prop :=
  HandlesRequest e → ∀ d, Preferred e.before.super d → d ∈ e.before.signalled

/-- A report of ready workers is pulled after the alive signal of its cluster only. -/
def SignalledFirst (e : Event) : Prop :=
  ∀ c count, e.action = .statePuller c count → 0 < count.toNat → c ∈ e.before.signalled

variable {s t : Cloud} {e : Event} {es : List Event} {c d : Name} {m : Message} {h : Header}

theorem isAlive_iff (shown : Carries m.metaMsg h) :
    isAlive m = true ↔ h.taskType = .aliveSignal := by
  obtain ⟨tm, hm, rep⟩ := shown
  have hcode : wordAt m.metaMsg 136 = h.taskType.code := by
    rw [hm]
    exact rep.taskType
  rw [isAlive, hcode, decide_eq_true_iff]
  cases h.taskType <;> decide

theorem selectCluster_of_preferred {super : SuperBroker} (preferred : Preferred super d) :
    ∃ n, n ≠ 0 ∧ super.selectCluster = (d.bytes, n) := by
  obtain ⟨_, info, hpos, hmax⟩ := preferred
  rcases super.selectCluster_cases with ⟨_, hall⟩ | ⟨name, info', hmax', _, hpos', hsel⟩
  · have hzero := hall d.bytes (ClusterStateInfo.readyWorkerCount info).toNat (by
      rw [SuperBroker.reportedCount, Std.TreeMap.mem_toList_iff_getElem?_eq_some.mp hmax.mem]
      rfl)
    omega
  · obtain ⟨rfl, rfl⟩ := Prod.mk.inj (hmax.unique hmax')
    exact ⟨_, hpos'.ne', hsel⟩

theorem preferred_of_selectCluster {super : SuperBroker} (count : super.selectCluster.2 ≠ 0)
    (name : super.selectCluster.1 = d.bytes) (hd : d.bytes ≠ []) :
    Preferred super d ∧ ∃ n, super.reportedCount d.bytes = some n ∧ 0 < n := by
  rcases super.selectCluster_cases with ⟨hnone, _⟩ | ⟨name', info, hmax, hreported, hpos, hsel⟩
  · simp [hnone] at count
  · rw [hsel] at name
    obtain rfl : name' = d.bytes := name
    exact ⟨⟨hd, info, hpos, hmax⟩, _, hreported, hpos⟩

theorem forwardsTo_cases (hs : Step s e t) (forwards : forwardsTo d e = true) :
    ∃ c m, e.action = .taskRouter c m ∧ (c, m) ∈ s.tasks ∧ m.isSubmit = true ∧
      s.super.selectCluster.2 ≠ 0 ∧ s.super.selectCluster.1 = d.bytes ∧ d.bytes ≠ [] := by
  cases hs with
  | start | report | submit | statePuller => simp [forwardsTo] at forwards
  | @taskRouter c m rest sent got run =>
    cases sent with
    | none => simp [forwardsTo] at forwards
    | some out =>
      obtain ⟨identity, m'⟩ := out
      simp only [forwardsTo, Bool.and_eq_true, decide_eq_true_eq] at forwards
      obtain ⟨⟨hm, hm'⟩, hidentity⟩ := forwards
      obtain ⟨hcount, hname, hto⟩ := SuperBroker.taskRouter_forwards run hm hm'
      have hd : d.bytes = s.super.selectCluster.1 :=
        List.append_cancel_right (hidentity.symm.trans hto)
      exact ⟨c, m, rfl, receive_mem got, hm, hcount, hd.symm, by rwa [hd]⟩

def Headed (s : Cloud) : Prop := ∀ c m, (c, m) ∈ s.tasks → ∃ h, Carries m.metaMsg h

theorem headed_step (headed : Headed s) (hs : Step s e t) : Headed t := by
  have hsnoc : ∀ c m h, Carries m.metaMsg h → ∀ c' m', (c', m') ∈ s.tasks ++ [(c, m)] →
      ∃ h, Carries m'.metaMsg h := by
    intro c m h shown c' m' hm
    rcases List.mem_append.mp hm with hm | hm
    · exact headed c' m' hm
    · obtain ⟨_, rfl⟩ := Prod.mk.inj (List.mem_singleton.mp hm)
      exact ⟨h, shown⟩
  cases hs with
  | @start c m _ signal =>
    obtain ⟨metaMsg, hsignal, shown⟩ := ClusterBroker.LocalBalanceBroker.aliveSignal_eq c
    rw [signal] at hsignal
    cases hsignal
    exact hsnoc _ _ _ shown
  | submit _ shown _ => exact hsnoc _ _ _ shown
  | report | statePuller => exact headed
  | taskRouter got => exact fun c m hm => headed c m (mem_of_mem_rest got hm)

theorem handlesRequest_of_forwards (headed : Headed s) (hs : Step s e t)
    (forwards : forwardsTo d e = true) : HandlesRequest e := by
  obtain ⟨c, m, haction, hmem, hsubmit, _⟩ := forwardsTo_cases hs forwards
  obtain ⟨h, shown⟩ := headed c m hmem
  have hdir := (Message.isSubmit_iff shown).mp hsubmit
  refine ⟨c, m, h, haction, shown, ?_⟩
  cases hs with
  | start | report | submit | statePuller => cases haction
  | @taskRouter _ _ rest sent got run =>
    cases haction
    cases htype : h.taskType with
    | aliveSignal =>
      rw [SuperBroker.taskRouter_alive shown htype] at run
      cases run
      simp [forwardsTo] at forwards
    | normalTask =>
      have hnamed : ¬ ((h.addr .fromID).bytes = [] ∨ (h.addr .fromClusterID).bytes = []) := by
        intro null
        rw [SuperBroker.taskRouter_null shown htype hdir null] at run
        cases run
        simp [forwardsTo] at forwards
      rw [not_or] at hnamed
      exact ⟨rfl, hdir, hnamed.1, hnamed.2⟩

theorem forwards_to_preferred (hs : Step s e t) (request : HandlesRequest e)
    (preferred : Preferred s.super d) : forwardsTo d e = true := by
  obtain ⟨c, m, h, haction, shown, normal, submit, client, cluster⟩ := request
  obtain ⟨n, hn, hsel⟩ := selectCluster_of_preferred preferred
  obtain ⟨hm, m', hrun, hm'⟩ := SuperBroker.taskRouter_assigns (s := s.super) shown normal submit
    client cluster preferred.1 hn hsel
  cases hs with
  | start | report | submit | statePuller => cases haction
  | @taskRouter _ _ rest sent got run =>
    cases haction
    rw [hrun] at run
    cases run
    simp [forwardsTo, hm, hm']

theorem safeForward_iff (headed : Headed s) (hs : Step s e t) (before : e.before = s) :
    SafeForward e ↔ PreferredKnown e := by
  constructor
  · intro safe request d preferred
    exact safe d (forwards_to_preferred hs request (before ▸ preferred))
  · intro known d forwards
    obtain ⟨_, _, _, _, _, hcount, hname, hd⟩ := forwardsTo_cases hs forwards
    refine known (handlesRequest_of_forwards headed hs forwards) d ?_
    rw [before]
    exact (preferred_of_selectCluster hcount hname hd).1

/-- Every cluster with ready workers on record has signalled alive. -/
def Known (s : Cloud) : Prop :=
  ∀ c n, s.super.reportedCount c.bytes = some n → 0 < n → c ∈ s.signalled

theorem known_step (known : Known s) (hs : Step s e t) (first : SignalledFirst e) : Known t := by
  cases hs with
  | start | report | submit => exact known
  | taskRouter =>
    intro c n hn hpos
    change c ∈ if _ then _ else _
    split
    · exact List.mem_cons_of_mem _ (known c n hn hpos)
    · exact known c n hn hpos
  | @statePuller c count rest msg super got reported pulled =>
    intro d n hn hpos
    obtain ⟨msg', info, hreport, hpull, hcount⟩ := s.super.statePuller_stateReport c count
    rw [reported] at hreport
    cases hreport
    rw [pulled] at hpull
    cases hpull
    rw [SuperBroker.reportedCount_insert, hcount] at hn
    split at hn
    · rename_i here
      obtain rfl : c = d := Name.bytes_injective here
      cases hn
      exact first c count rfl hpos
    · exact known d n hn hpos

theorem safe_of_known (known : Known s) (hs : Step s e t) (before : e.before = s) :
    SafeForward e := by
  intro d forwards
  obtain ⟨_, _, _, _, _, hcount, hname, hd⟩ := forwardsTo_cases hs forwards
  obtain ⟨_, n, hn, hpos⟩ := preferred_of_selectCluster hcount hname hd
  rw [before]
  exact known d n hn hpos

theorem Step.before_eq (hs : Step s e t) : e.before = s := by
  cases hs <;> rfl

theorem safe_of_signalled_first (run : Run Step s es t) (known : Known s)
    (first : ∀ e ∈ es, SignalledFirst e) : ∀ e ∈ es, SafeForward e := by
  induction run with
  | nil _ => simp
  | @cons s u t e es hs _ ih =>
    intro f hf
    rcases List.mem_cons.mp hf with rfl | hf
    · exact safe_of_known known hs hs.before_eq
    · exact ih (known_step known hs (first e (by simp)))
        (fun f hf => first f (List.mem_cons_of_mem _ hf)) f hf

/-- A run forwards requests to known clusters only, if and only if each time that it handles a
request the preferred cluster is known. It is, when no report of ready workers overtakes an alive
signal. -/
theorem forwards_to_known_iff (run : Run Step Cloud.init es s) :
    ((∀ e ∈ es, SafeForward e) ↔ ∀ e ∈ es, PreferredKnown e) ∧
      ((∀ e ∈ es, SignalledFirst e) → ∀ e ∈ es, SafeForward e) := by
  have hheaded : Headed Cloud.init := by
    intro c m hm
    simp [Cloud.init] at hm
  have hknown : Known Cloud.init := by
    intro c n hn
    simp [Cloud.init] at hn
  have hiff : ∀ e ∈ es, SafeForward e ↔ PreferredKnown e := by
    intro e he
    obtain ⟨u, v, headed, hs⟩ :=
      run.exists_step_of_mem (fun _ _ _ h hs => headed_step h hs) hheaded he
    exact safeForward_iff headed hs hs.before_eq
  refine ⟨forall₂_congr hiff, safe_of_signalled_first run hknown⟩

theorem exists_assignment : ∃ msg info m m' h, stateReport [65] 1 = .ok msg ∧
    SuperBroker.init.statePuller msg = .ok ⟨SuperBroker.init.clusterInfoMap.insert [65] info⟩ ∧
    Carries m.metaMsg h ∧ h.taskType = .normalTask ∧ m.isSubmit = true ∧ m'.isSubmit = true ∧
    (⟨SuperBroker.init.clusterInfoMap.insert [65] info⟩ : SuperBroker).taskRouter m =
      .ok (some (Name.identity ⟨[65], by decide, by decide⟩, m')) := by
  obtain ⟨msg, info, reported, pulled, count⟩ :=
    SuperBroker.init.statePuller_stateReport ⟨[65], by decide, by decide⟩ 1
  have hsel : (⟨SuperBroker.init.clusterInfoMap.insert [65] info⟩ : SuperBroker).selectCluster =
      ([65], 1) := by
    change SuperBroker.considerCluster ([], 0) [65] info = _
    simp [SuperBroker.considerCluster, count]
  obtain ⟨_, m, _, _, shown⟩ :=
    offered_request ⟨[66], by decide, by decide⟩ ⟨[67], by decide, by decide⟩ 0 TaskRequest.init
  obtain ⟨hm, m', routed, hm'⟩ := SuperBroker.taskRouter_assigns
    (c := ⟨[65], by decide, by decide⟩) shown rfl rfl
    (by simp [Header.submitted, Header.setAddr_addr_of_ne]) (by simp) (by simp) (by decide) hsel
  exact ⟨msg, info, m, m', _, reported, pulled, shown, rfl, hm, hm', routed⟩

/-- The signal of `A` and its report arrive, then the signal and a request of `B`. -/
theorem forwards_to_known_iff_request : ∃ es s, Run Step Cloud.init es s ∧
    (∃ e ∈ es, forwardsTo ⟨[65], by decide, by decide⟩ e = true) ∧
    (∀ e ∈ es, SignalledFirst e) ∧
    ((∀ e ∈ es, SafeForward e) ↔ ∀ e ∈ es, PreferredKnown e) ∧ ∀ e ∈ es, SafeForward e := by
  obtain ⟨metaA, signalA, shownA⟩ :=
    ClusterBroker.LocalBalanceBroker.aliveSignal_eq ⟨[65], by decide, by decide⟩
  obtain ⟨metaB, signalB, shownB⟩ :=
    ClusterBroker.LocalBalanceBroker.aliveSignal_eq ⟨[66], by decide, by decide⟩
  obtain ⟨msg, info, m, m', h, reported, pulled, shown, normal, hm, hm', routed⟩ :=
    exists_assignment
  have aliveA : SuperBroker.init.taskRouter ⟨metaA, [0]⟩ = .ok none :=
    SuperBroker.taskRouter_alive shownA rfl
  have aliveB : (⟨SuperBroker.init.clusterInfoMap.insert [65] info⟩ : SuperBroker).taskRouter
      ⟨metaB, [0]⟩ = .ok none := SuperBroker.taskRouter_alive shownB rfl
  have hrun := Run.cons (Step.start (s := Cloud.init) (by simp [Cloud.init]) signalA)
    (.cons (.taskRouter (c := ⟨[65], by decide, by decide⟩) rfl aliveA)
    (.cons (@Step.report _ ⟨[65], by decide, by decide⟩ 1 (by simp))
    (.cons (.statePuller (c := ⟨[65], by decide, by decide⟩) rfl reported pulled)
    (.cons (.start (by simp [Cloud.init]) signalB)
    (.cons (.taskRouter (c := ⟨[66], by decide, by decide⟩) rfl aliveB)
    (.cons (.submit (c := ⟨[66], by decide, by decide⟩) (by simp) shown normal)
    (.single (.taskRouter (c := ⟨[66], by decide, by decide⟩) rfl routed))))))))
  have hknown : isAlive ⟨metaA, [0]⟩ = true := (isAlive_iff (m := ⟨metaA, [0]⟩) shownA).mpr rfl
  obtain ⟨hiff, hsafe⟩ := forwards_to_known_iff hrun
  refine ⟨_, _, hrun, ⟨_, List.mem_of_getElem? (i := 7) rfl, ?_⟩, ?first, hiff, hsafe ?first⟩
  · simp [forwardsTo, hm, hm']
  · simp only [List.forall_mem_cons]
    simp [SignalledFirst, hknown]

/-- A report of `A` overtakes its alive signal, and a request of `B` is forwarded to `A`. -/
theorem report_overtakes_signal : ¬ ∀ es s, Run Step Cloud.init es s → ∀ e ∈ es, SafeForward e := by
  intro safe
  obtain ⟨metaA, signalA, _⟩ :=
    ClusterBroker.LocalBalanceBroker.aliveSignal_eq ⟨[65], by decide, by decide⟩
  obtain ⟨metaB, signalB, shownB⟩ :=
    ClusterBroker.LocalBalanceBroker.aliveSignal_eq ⟨[66], by decide, by decide⟩
  obtain ⟨msg, info, m, m', h, reported, pulled, shown, normal, hm, hm', routed⟩ :=
    exists_assignment
  have aliveB : (⟨SuperBroker.init.clusterInfoMap.insert [65] info⟩ : SuperBroker).taskRouter
      ⟨metaB, [0]⟩ = .ok none := SuperBroker.taskRouter_alive shownB rfl
  have hrun := Run.cons (Step.start (s := Cloud.init) (by simp [Cloud.init]) signalA)
    (.cons (.start (by simp [Cloud.init]) signalB)
    (.cons (@Step.report _ ⟨[65], by decide, by decide⟩ 1 (by simp))
    (.cons (.statePuller (c := ⟨[65], by decide, by decide⟩) rfl reported pulled)
    (.cons (.taskRouter (c := ⟨[66], by decide, by decide⟩) rfl aliveB)
    (.single (.submit (c := ⟨[66], by decide, by decide⟩) (by simp) shown normal))))))
  have hlast := safe _ _ (hrun.snoc (.taskRouter (c := ⟨[66], by decide, by decide⟩) rfl routed)) _
    (List.mem_append_right _ List.mem_cons_self) ⟨[65], by decide, by decide⟩
    (by simp [forwardsTo, hm, hm'])
  have hknown : isAlive ⟨metaB, [0]⟩ = true := (isAlive_iff (m := ⟨metaB, [0]⟩) shownB).mpr rfl
  simp [hknown, Cloud.init] at hlast

end SimTools.DataCenter.AliveSignals
