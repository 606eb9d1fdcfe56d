/- Module: SimTools/DataCenter/Routing
   digest: Runs of the super broker over reports and requests: what its choice rests on, and what not. -/

import SimTools.DataCenter.SuperBroker
import SimTools.Lib.Runs

set_option autoImplicit false
set_option relaxedAutoImplicit false

namespace SimTools.DataCenter.Routing

open Lib.Memory
open Lib.Runs
open Lib.Selection
open ClusterCore
open TaskHeader
open ClusterBroker (Message Message.isSubmit offered_request)

inductive Input
  | report (c : Name) (count : UInt32)
  | request (m : Message)

structure Event where
  input : Input
  sent : Option (Bytes × Message)

/-- State reports and messages from the task channel in any order. -/
inductive Step : SuperBroker → Event → SuperBroker → Prop
  | report {s t : SuperBroker} {c : Name} {count : UInt32} {msg : Bytes} :
      stateReport c.bytes count = .ok msg → s.statePuller msg = .ok t →
      Step s ⟨.report c count, none⟩ t
  | request {s : SuperBroker} {m : Message} {sent : Option (Bytes × Message)} :
      s.taskRouter m = .ok sent → Step s ⟨.request m, sent⟩ s

def reportOf (c : Name) (e : Event) : Option UInt32 :=
  match e.input with
  | .report d count => if d = c then some count else none
  | .request _ => none

def routedTo (c : Name) (e : Event) : Bool :=
  match e.input, e.sent with
  | .request m, some (identity, m') => m.isSubmit && m'.isSubmit && identity = c.identity
  | _, _ => false

def lastReport (c : Name) (es : List Event) : Option UInt32 :=
  es.foldl (fun last e => (reportOf c e).or last) none

/-- The number of requests routed to `c` since its last report. -/
def routedSince (c : Name) (es : List Event) : Nat :=
  es.foldl (fun k e => if (reportOf c e).isSome then 0 else if routedTo c e then k + 1 else k) 0

variable {s t : SuperBroker} {es : List Event} {e : Event} {c d : Name}

@[simp] theorem lastReport_snoc (c : Name) (es : List Event) (e : Event) :
    lastReport c (es ++ [e]) = (reportOf c e).or (lastReport c es) := by
  simp [lastReport]

@[simp] theorem routedSince_snoc (c : Name) (es : List Event) (e : Event) :
    routedSince c (es ++ [e]) = if (reportOf c e).isSome then 0
      else if routedTo c e then routedSince c es + 1 else routedSince c es := by
  simp [routedSince]

theorem reportedCount_step (hs : Step s e t) (c : Name) :
    t.reportedCount c.bytes = ((reportOf c e).map UInt32.toNat).or (s.reportedCount c.bytes) := by
  cases hs with
  | @report _ d count msg reported pulled =>
    obtain ⟨msg', info, hreport, hpull, hcount⟩ := SuperBroker.statePuller_stateReport s d count
    rw [reported] at hreport
    cases hreport
    rw [pulled] at hpull
    cases hpull
    rw [SuperBroker.reportedCount_insert, hcount]
    by_cases here : d = c
    · simp [reportOf, here]
    · have hbytes : ¬ d.bytes = c.bytes := fun he => here (Name.bytes_injective he)
      simp [reportOf, here, hbytes]
  | request => simp [reportOf]

/-- The map of the super broker holds the last reports and nothing else. -/
theorem reportedCount_of_run (run : Run Step SuperBroker.init es s) (c : Name) :
    s.reportedCount c.bytes = (lastReport c es).map UInt32.toNat := by
  have hinit : SuperBroker.init.reportedCount c.bytes = (lastReport c []).map UInt32.toNat := by
    simp [lastReport]
  refine run.history_invariant
    (I := fun past s => s.reportedCount c.bytes = (lastReport c past).map UInt32.toNat) ?_ hinit
  intro past s e t h hs
  rw [reportedCount_step hs, lastReport_snoc, h]
  cases reportOf c e <;> rfl

theorem selected_of_routedTo (hs : Step s e t) (routed : routedTo c e = true) :
    c.bytes = s.selectCluster.1 ∧ s.selectCluster.2 ≠ 0 := by
  cases hs with
  | report => simp [routedTo] at routed
  | @request m sent run =>
    cases sent with
    | none => simp [routedTo] at routed
    | some out =>
      obtain ⟨identity, m'⟩ := out
      simp only [routedTo, Bool.and_eq_true, decide_eq_true_eq] at routed
      obtain ⟨⟨hm, hm'⟩, hidentity⟩ := routed
      obtain ⟨hcount, hname, hto⟩ := SuperBroker.taskRouter_forwards run hm hm'
      exact ⟨List.append_cancel_right (hidentity.symm.trans hto), hcount⟩

theorem routedTo_selected (hs : Step s e t) (routed : routedTo c e = true) :
    ∃ n, s.reportedCount c.bytes = some n ∧ 0 < n ∧
      ∀ name k, s.reportedCount name = some k → k ≤ n := by
  obtain ⟨hname, hcount⟩ := selected_of_routedTo hs routed
  rcases s.selectCluster_cases with ⟨hnone, _⟩ | ⟨name, info, hmax, hreported, hpos, hsel⟩
  · exact absurd (congrArg Prod.snd hnone) hcount
  · obtain rfl : c.bytes = name := hname.trans (congrArg Prod.fst hsel)
    refine ⟨_, hreported, hpos, ?_⟩
    intro name' k hk
    obtain ⟨info', hinfo', rfl⟩ := Option.map_eq_some_iff.mp hk
    exact hmax.le (Std.TreeMap.mem_toList_iff_getElem?_eq_some.mpr hinfo')

theorem name_of_reported (run : Run Step SuperBroker.init es s) :
    ∀ name n, s.reportedCount name = some n → ∃ c : Name, name = c.bytes := by
  refine run.invariant
    (I := fun s => ∀ name n, s.reportedCount name = some n →
      ∃ c : Name, name = c.bytes) ?_ (by simp)
  intro s e t h hs name n hn
  cases hs with
  | @report _ d count msg reported pulled =>
    obtain ⟨msg', info, hreport, hpull, _⟩ := SuperBroker.statePuller_stateReport s d count
    rw [reported] at hreport
    cases hreport
    rw [pulled] at hpull
    cases hpull
    rw [SuperBroker.reportedCount_insert] at hn
    split at hn
    · rename_i here
      exact ⟨d, here.symm⟩
    · exact h name n hn
  | request => exact h name n hn

/-- A request that names its client and its cluster. -/
def WellFormed (m : Message) : Prop :=
  ∃ h, Carries m.metaMsg h ∧ h.taskType = .normalTask ∧ h.taskDirection = .taskSubmit ∧
    (h.addr .fromID).bytes ≠ [] ∧ (h.addr .fromClusterID).bytes ≠ []

/-- Some cluster last reported a ready worker, and none did under the empty name. -/
structure Offered (es : List Event) : Prop where
  positive : ∃ c n, lastReport c es = some n ∧ 0 < n.toNat
  named : ∀ n, lastReport .empty es = some n → n.toNat = 0

def IsRequest (e : Event) : Prop := ∃ m, e.input = .request m

/-- What the choice of the super broker rests on after the events `es`. -/
structure RoutesByReports (es : List Event) (s : SuperBroker) : Prop where
  /-- It knows the last report of each cluster. -/
  known : ∀ c, s.reportedCount c.bytes = (lastReport c es).map UInt32.toNat
  /-- A request goes to a cluster whose last count is positive and the largest. -/
  target : ∀ e t, Step s e t → ∀ c, routedTo c e = true → ∃ n, lastReport c es = some n ∧
    0 < n.toNat ∧
    ∀ d k, lastReport d es = some k → k.toNat ≤ n.toNat
  /-- A cluster that last reported no ready worker, or never reported, has got none since. -/
  withheld : ∀ c, (∀ n, lastReport c es = some n → n.toNat = 0) → routedSince c es = 0
  /-- A request is routed while some last count is positive, and nothing else is done with it. -/
  routed : ∀ m, WellFormed m → Offered es → ∃ c sent, Step s ⟨.request m, sent⟩ s ∧
    routedTo c ⟨.request m, sent⟩ = true ∧ ∀ other t, Step s ⟨.request m, other⟩ t → other = sent
  /-- A request changes no count. -/
  unchanged : ∀ m sent t, Step s ⟨.request m, sent⟩ t → t = s
  /-- All requests that come before the next report go to one cluster, -/
  together : ∀ later t, Run Step s later t → (∀ e ∈ later, IsRequest e) →
    ∀ e ∈ later, ∀ f ∈ later, ∀ c d, routedTo c e = true → routedTo d f = true → c = d
  /-- and there may be any number of them. -/
  unbounded : ∀ m, WellFormed m → Offered es → ∃ c, ∀ k, ∃ later, Run Step s later s ∧
    (∀ e ∈ later, IsRequest e) ∧ routedSince c (es ++ later) = routedSince c es + k

theorem target_of_routed (run : Run Step SuperBroker.init es s) (hs : Step s e t)
    (routed : routedTo c e = true) : ∃ n, lastReport c es = some n ∧ 0 < n.toNat ∧
      ∀ d k, lastReport d es = some k → k.toNat ≤ n.toNat := by
  obtain ⟨n, hn, hpos, hmax⟩ := routedTo_selected hs routed
  rw [reportedCount_of_run run] at hn
  obtain ⟨count, hcount, rfl⟩ := Option.map_eq_some_iff.mp hn
  refine ⟨count, hcount, hpos, ?_⟩
  intro d k hk
  refine hmax d.bytes k.toNat ?_
  rw [reportedCount_of_run run, hk]
  rfl

theorem routedSince_eq_zero (run : Run Step SuperBroker.init es s) (c : Name)
    (idle : ∀ n, lastReport c es = some n → n.toNat = 0) : routedSince c es = 0 := by
  have hinit : Run Step SuperBroker.init [] SuperBroker.init ∧
      ((∀ n, lastReport c [] = some n → n.toNat = 0) → routedSince c [] = 0) :=
        ⟨.nil _, fun _ => rfl⟩
  refine (run.history_invariant (I := fun past s => Run Step SuperBroker.init past s ∧
    ((∀ n, lastReport c past = some n → n.toNat = 0) → routedSince c past = 0)) ?_ hinit).2 idle
  rintro past s e t ⟨hpast, ih⟩ hs
  refine ⟨hpast.snoc hs, ?_⟩
  intro hidle
  rw [routedSince_snoc]
  rw [lastReport_snoc] at hidle
  cases hreport : reportOf c e with
  | some count => rfl
  | none =>
    rw [hreport, Option.none_or] at hidle
    by_cases hrouted : routedTo c e = true
    · obtain ⟨n, hn, hpos, _⟩ := target_of_routed hpast hs hrouted
      have := hidle n hn
      omega
    · simpa [hrouted] using ih hidle

theorem routed_while_offered (run : Run Step SuperBroker.init es s) {m : Message}
    (formed : WellFormed m) (offered : Offered es) :
    ∃ c sent, Step s ⟨.request m, sent⟩ s ∧ routedTo c ⟨.request m, sent⟩ = true := by
  obtain ⟨h, shown, normal, submit, client, cluster⟩ := formed
  rcases s.selectCluster_cases with ⟨_, hall⟩ | ⟨name, info, _, hreported, hpos, hsel⟩
  · obtain ⟨d, k, hk, hkpos⟩ := offered.positive
    have hzero := hall d.bytes k.toNat (by rw [reportedCount_of_run run, hk]; rfl)
    omega
  · obtain ⟨c, rfl⟩ := name_of_reported run name _ hreported
    have hname : c.bytes ≠ [] := by
      intro hnil
      obtain rfl : c = .empty := Name.bytes_injective hnil
      rw [reportedCount_of_run run] at hreported
      obtain ⟨n, hn, heq⟩ := Option.map_eq_some_iff.mp hreported
      have := offered.named n hn
      omega
    obtain ⟨hm, m', hrun, hm'⟩ := SuperBroker.taskRouter_assigns (s := s) shown normal submit client
      cluster hname hpos.ne' hsel
    exact ⟨c, _, .request hrun, by simp [routedTo, hm, hm']⟩

/-- What is sent on a request depends on the counts alone. -/
theorem sent_unique {m : Message} {sent other : Option (Bytes × Message)} {u : SuperBroker}
    (hs : Step s ⟨.request m, sent⟩ t) (hs' : Step s ⟨.request m, other⟩ u) : other = sent := by
  cases hs with
  | request run =>
    cases hs' with
    | request run' => exact Except.ok.inj (run'.symm.trans run)

theorem eq_of_request (hs : Step s e t) (request : IsRequest e) : t = s := by
  obtain ⟨m, hm⟩ := request
  cases hs with
  | report => cases hm
  | request => rfl

theorem step_of_requests {later : List Event} (run : Run Step s later t)
    (requests : ∀ e ∈ later, IsRequest e) : ∀ e ∈ later, Step s e s := by
  induction run with
  | nil _ => exact List.forall_mem_nil _
  | @cons s u t e later hs _ ih =>
    rw [List.forall_mem_cons] at requests
    obtain rfl := eq_of_request hs requests.1
    exact List.forall_mem_cons.mpr ⟨hs, ih requests.2⟩

theorem target_unique {f : Event} {u : SuperBroker} (hs : Step s e t) (hs' : Step s f u)
    (routed : routedTo c e = true) (routed' : routedTo d f = true) : c = d :=
  Name.bytes_injective
    ((selected_of_routedTo hs routed).1.trans (selected_of_routedTo hs' routed').1.symm)

theorem exists_burst (run : Run Step SuperBroker.init es s) {m : Message} (formed : WellFormed m)
    (offered : Offered es) : ∃ c, ∀ k, ∃ later, Run Step s later s ∧ (∀ e ∈ later, IsRequest e) ∧
      routedSince c (es ++ later) = routedSince c es + k := by
  obtain ⟨c, sent, hs, routed⟩ := routed_while_offered run formed offered
  refine ⟨c, fun k => ?_⟩
  induction k with
  | zero => exact ⟨[], .nil s, List.forall_mem_nil _, by rw [List.append_nil]; rfl⟩
  | succ k ih =>
    obtain ⟨later, hrun, requests, hcount⟩ := ih
    refine ⟨later ++ [⟨.request m, sent⟩], hrun.snoc hs, ?_, ?_⟩
    · rw [List.forall_mem_append, List.forall_mem_singleton]
      exact ⟨requests, m, rfl⟩
    · rw [← List.append_assoc, routedSince_snoc, routed, hcount]
      rfl

/-- The super broker goes by the last reports alone: requests between two reports leave its
choice as it is. -/
theorem routes_by_reports (run : Run Step SuperBroker.init es s) : RoutesByReports es s where
  known := reportedCount_of_run run
  target := fun _ _ hs _ routed => target_of_routed run hs routed
  withheld := routedSince_eq_zero run
  routed := by
    intro m formed offered
    obtain ⟨c, sent, hs, routed⟩ := routed_while_offered run formed offered
    exact ⟨c, sent, hs, routed, fun _ _ hs' => sent_unique hs hs'⟩
  unchanged := fun m _ _ hs => eq_of_request hs ⟨m, rfl⟩
  together := by
    intro later t hrun requests e he f hf c d routed routed'
    have hstep := step_of_requests hrun requests
    exact target_unique (hstep e he) (hstep f hf) routed routed'
  unbounded := fun _ formed offered => exists_burst run formed offered

theorem exists_report (s : SuperBroker) (c : Name) (count : UInt32) :
    ∃ info, ClusterStateInfo.readyWorkerCount info = count ∧
      Step s ⟨.report c count, none⟩ ⟨s.clusterInfoMap.insert c.bytes info⟩ := by
  obtain ⟨msg, info, hreport, hpull, hcount⟩ := s.statePuller_stateReport c count
  exact ⟨info, hcount, .report hreport hpull⟩

theorem exists_two_reports : ∃ es s, Run Step SuperBroker.init es s ∧
    lastReport ⟨[65], by decide, by decide⟩ es = some 1 ∧
    lastReport ⟨[66], by decide, by decide⟩ es = some 1 ∧
    routedSince ⟨[65], by decide, by decide⟩ es = 0 ∧
    ∃ m sent, Step s ⟨.request m, sent⟩ s ∧
      routedTo ⟨[65], by decide, by decide⟩ ⟨.request m, sent⟩ = true := by
  obtain ⟨i, hi, report_a⟩ := exists_report SuperBroker.init ⟨[65], by decide, by decide⟩ 1
  obtain ⟨j, hj, report_b⟩ := exists_report ⟨SuperBroker.init.clusterInfoMap.insert [65] i⟩
    ⟨[66], by decide, by decide⟩ 1
  have hsel : (⟨(SuperBroker.init.clusterInfoMap.insert [65] i).insert [66] j⟩ :
      SuperBroker).selectCluster = ([65], 1) := by
    change SuperBroker.considerCluster (SuperBroker.considerCluster ([], 0) [65] i) [66] j = _
    simp [SuperBroker.considerCluster, hi, hj]
  obtain ⟨_, m, _, _, shown⟩ :=
    offered_request ⟨[66], by decide, by decide⟩ ⟨[67], by decide, by decide⟩ 0 TaskRequest.init
  obtain ⟨hm, m', routed, hm'⟩ := SuperBroker.taskRouter_assigns
    (c := ⟨[65], by decide, by decide⟩) shown rfl rfl
    (by simp [Header.submitted, Header.setAddr_addr_of_ne]) (by simp) (by simp) (by decide) hsel
  refine ⟨_, _, .cons report_a (.single report_b), ?_, ?_, ?_, m, _, .request routed, ?_⟩
  · simp [lastReport, reportOf]
  · simp [lastReport, reportOf]
  · simp [routedSince, reportOf, routedTo]
  · simp [routedTo, hm, hm', Name.identity]

theorem routes_by_reports_second_request : ∃ es s, Run Step SuperBroker.init es s ∧
    lastReport ⟨[65], by decide, by decide⟩ es = some 1 ∧
    lastReport ⟨[66], by decide, by decide⟩ es = some 1 ∧
    routedSince ⟨[65], by decide, by decide⟩ es = 1 ∧ RoutesByReports es s := by
  obtain ⟨es, s, run, last_a, last_b, since, m, sent, hs, routed⟩ := exists_two_reports
  refine ⟨_, s, run.snoc hs, ?_, ?_, ?_, routes_by_reports (run.snoc hs)⟩
  · rw [lastReport_snoc, last_a]
    rfl
  · rw [lastReport_snoc, last_b]
    rfl
  · rw [routedSince_snoc, routed, since]
    rfl

/-- Two clusters reported one ready worker each; two requests in a row both go to the first. -/
theorem burst_exceeds_report : ¬ ∀ es s, Run Step SuperBroker.init es s →
    ∀ c n, lastReport c es = some n → routedSince c es ≤ n.toNat := by
  intro bounded
  obtain ⟨es, s, run, last_a, _, since, m, sent, hs, routed⟩ := exists_two_reports
  have hlast := bounded _ _ ((run.snoc hs).snoc hs) ⟨[65], by decide, by decide⟩ 1 (by
    rw [lastReport_snoc, lastReport_snoc, last_a]
    rfl)
  simp only [routedSince_snoc, routed, since, reportOf] at hlast
  exact absurd hlast (by decide)

end SimTools.DataCenter.Routing
