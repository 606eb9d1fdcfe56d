/- Module: SimTools/DataCenter/Freshness
   digest: How soon the super broker knows a ready count, however the threads take turns. -/

import SimTools.DataCenter.StateReports

set_option autoImplicit false
set_option relaxedAutoImplicit false

namespace SimTools.DataCenter.Freshness

open Lib.Memory
open Lib.Relay
open Lib.Runs
open ClusterCore
open TaskHeader
open ClusterBroker
open Network (Topology oneCluster)
open StateReports

def pulls (c : Name) : Action → Bool
  | .statePuller d => d = c
  | .cluster _ => false

def ready (s : World) (c : Name) : Nat := (s.cluster c).backend.broker.workReadyQueue.length

/-- The atomic of `c` holds the length of its queue. -/
def Stored (s : World) (c : Name) : Prop :=
  (s.cluster c).backend.broker.readyWorkerCount.toNat = ready s c

def underWay (s : World) (c : Name) : Nat :=
  (s.cluster c).pushed.length + (s.cluster c).paired.length + (s.cluster c).sampled.toList.length

variable {T : Topology} {add : Double → Double → Double} {c : Name} {s t : World} {a : Action}
  {as : List Action}

theorem pipe_of_pull (h : ∀ c, Consistent T c (s.cluster c))
    (hs : Step T add s (.statePuller c) t) :
    ∃ n, (s.cluster c).pipe = n :: (t.cluster c).pipe ∧
      t.superBroker.reportedCount c.bytes = some n := by
  cases hs with
  | @statePuller c msg pushed super hc next run =>
    obtain ⟨info, rfl, hcount⟩ := pulled (h c) next run
    refine ⟨(wordAt msg 32).toNat, ?_, ?_⟩
    · simp [Cluster.pipe, next]
    · rw [SuperBroker.reportedCount_insert, if_pos rfl, hcount]

theorem refreshed_start (stored : Stored s c) {recent : Nat → Prop} (holds : recent (ready s c)) :
    Refreshed recent (underWay s c) 0 (s.superBroker.reportedCount c.bytes) (s.cluster c).pipe := by
  have hstart := Refreshed.start holds (s.superBroker.reportedCount c.bytes)
    ((((s.cluster c).pushed ++ (s.cluster c).paired).map (fun msg => wordAt msg 32) ++
      (s.cluster c).sampled.toList).map UInt32.toNat)
  simp only [List.length_map, List.length_append] at hstart
  rw [Cluster.pipe, List.map_append, List.map_singleton, stored]
  exact hstart

theorem refreshed_step (h : ∀ c, Consistent T c (s.cluster c)) (hs : Step T add s a t)
    {recent : Nat → Prop} {old k : Nat} (holds : recent (ready t c))
    (before : Refreshed recent old k (s.superBroker.reportedCount c.bytes) (s.cluster c).pipe) :
    Refreshed recent old (k + if pulls c a then 1 else 0) (t.superBroker.reportedCount c.bytes)
      (t.cluster c).pipe := by
  by_cases here : pulls c a = true
  · obtain rfl : a = .statePuller c := by
      cases a with
      | cluster d => cases here
      | statePuller d => rw [of_decide_eq_true here]
    obtain ⟨n, hpipe, hview⟩ := pipe_of_pull h hs
    rw [hpipe] at before
    rw [if_pos here, hview]
    exact before.pull
  · have hrelays : Relays (fun _ => ready t c) 0
        (s.superBroker.reportedCount c.bytes, (s.cluster c).pipe)
        (t.superBroker.reportedCount c.bytes, (t.cluster c).pipe) := relays_step h hs c rfl
    rw [if_neg here]
    exact before.relays hrelays holds

theorem consistent_of_run (run : Run (Step T add) World.init as s) :
    ∀ c, Consistent T c (s.cluster c) :=
  run.invariant (fun _ _ _ h hs => consistent_step h hs) (consistent_init T)

section Trace

variable {σ : Nat → World} {act : Nat → Action} {m k : Nat}

theorem consistent_of_trace (start : σ 0 = World.init)
    (steps : ∀ j < k, Step T add (σ j) (act j) (σ (j + 1))) :
    ∀ c, Consistent T c ((σ k).cluster c) := by
  induction k with
  | zero =>
    rw [start]
    exact consistent_init T
  | succ k ih =>
    exact consistent_step (ih fun j hj => steps j (Nat.lt_succ_of_lt hj))
      (steps k (Nat.lt_succ_self k))

/-- After more reports of `c` than were under way, the super broker knows a number of ready workers
that `c` has had since, whatever the threads have done in between. -/
theorem knows_recent_length (start : σ 0 = World.init)
    (steps : ∀ j < m + k, Step T add (σ j) (act j) (σ (j + 1))) (stored : Stored (σ m) c)
    (often : underWay (σ m) c < (List.range k).countP (fun j => pulls c (act (m + j)))) :
    ∃ j ≤ k, (σ (m + k)).superBroker.reportedCount c.bytes = some (ready (σ (m + j)) c) := by
  suffices h : Refreshed (fun n => ∃ j ≤ k, n = ready (σ (m + j)) c) (underWay (σ m) c)
      ((List.range k).countP (fun j => pulls c (act (m + j))))
      ((σ (m + k)).superBroker.reportedCount c.bytes) ((σ (m + k)).cluster c).pipe by
    obtain ⟨n, hview, j, hj, rfl⟩ := h.shown often
    exact ⟨j, hj, hview⟩
  clear often
  induction k with
  | zero => exact refreshed_start stored ⟨0, le_rfl, rfl⟩
  | succ k ih =>
    have hbefore := ih fun j hj => steps j (by omega)
    have hs := steps (m + k) (by omega)
    rw [List.range_succ, List.countP_append, List.countP_singleton]
    refine refreshed_step (consistent_of_trace start fun j hj => steps j (by omega)) hs
      ⟨k + 1, le_rfl, rfl⟩ (hbefore.mono ?_)
    rintro n ⟨j, hj, rfl⟩
    exact ⟨j, Nat.le_succ_of_le hj, rfl⟩

theorem knows_recent_length_first_report : ∃ (σ : Nat → World) (c : Name),
    ∃ j ≤ 4, (σ (0 + 4)).superBroker.reportedCount c.bytes = some (ready (σ (0 + j)) c) := by
  obtain ⟨c, hc⟩ : ∃ c, c ∈ oneCluster.names := ⟨_, List.mem_cons_self⟩
  obtain ⟨msg, info, reported, pulled, -⟩ :=
    SuperBroker.statePuller_stateReport SuperBroker.init c 0
  obtain ⟨u, hcluster, hpushed⟩ := exists_pushed (u := Cluster.init c) (T := oneCluster) (· + ·)
    rfl rfl rfl reported
  have hnext : (Function.update World.init.cluster c u c).pushed = [msg] := by
    rw [Function.update_self, hpushed]
  have hrun : Run (Step oneCluster (· + ·)) World.init
      [.cluster c, .cluster c, .cluster c, .statePuller c] _ :=
    (run_cluster hc hcluster).snoc (.statePuller hc hnext pulled)
  have hinhabited : Inhabited Action := ⟨.cluster c⟩
  obtain ⟨σ, act, start, -, hact, steps⟩ := hrun.exists_numbered
  refine ⟨σ, c, knows_recent_length start (fun j hj => steps j (by simpa using hj)) ?_ ?_⟩
  · rw [start]
    rfl
  · have hone : ((List.range 4).map act).countP (pulls c) = 1 := by
      rw [show (List.range 4).map act = _ from hact]
      simp [pulls]
    rw [List.countP_map] at hone
    rw [start]
    simpa [underWay, World.init, Cluster.init, Function.comp_def] using hone.symm.le

end Trace

/-- A step that moves nothing but reports of `c`. -/
structure Carrying (T : Topology) (add : Double → Double → Double) (c : Name) (s : World)
    (a : Action) (t : World) : Prop where
  step : Step T add s a t
  backend : (t.cluster c).backend = (s.cluster c).backend
  others : ∀ d, d ≠ c → t.cluster d = s.cluster d

/-- A run of such steps in which one report is taken. -/
def Round (T : Topology) (add : Double → Double → Double) (c : Name) (s : World) : Prop :=
  ∃ as t, Run (Carrying T add c) s as t ∧ as.countP (pulls c) = 1

theorem round_of_cluster (h : ∀ c, Consistent T c (s.cluster c)) (hc : c ∈ T.names)
    {u : Cluster} (hs : ClusterStep T add c (s.cluster c) u)
    (same : u.backend = (s.cluster c).backend)
    (later : (∀ d, Consistent T d (Function.update s.cluster c u d)) →
      Round T add c { s with cluster := Function.update s.cluster c u }) : Round T add c s := by
  have hstep : Step T add s (.cluster c) { s with cluster := Function.update s.cluster c u } :=
    .cluster hc hs
  obtain ⟨as, t, run, hone⟩ := later (consistent_step h hstep)
  refine ⟨_, t, .cons ⟨hstep, ?_, fun d other => ?_⟩ run, by simpa [pulls] using hone⟩
  · exact (congrArg Cluster.backend (Function.update_self ..)).trans same
  · exact Function.update_of_ne other ..

theorem round_of_pushed (h : ∀ c, Consistent T c (s.cluster c)) (hc : c ∈ T.names)
    (waits : (s.cluster c).pushed ≠ []) : Round T add c s := by
  obtain ⟨msg, rest, next⟩ := List.exists_cons_of_ne_nil waits
  obtain ⟨count, reported⟩ := (h c).reports msg (by simp [next])
  obtain ⟨msg', info, reported', run, _⟩ :=
    SuperBroker.statePuller_stateReport s.superBroker c count
  rw [reported] at reported'
  cases reported'
  refine ⟨_, _, .single ⟨.statePuller hc next run, ?_, fun d other => ?_⟩, by simp [pulls]⟩
  · simp
  · exact Function.update_of_ne other ..

theorem round_of_paired (h : ∀ c, Consistent T c (s.cluster c)) (hc : c ∈ T.names)
    (waits : (s.cluster c).paired ≠ []) : Round T add c s := by
  obtain ⟨msg, rest, next⟩ := List.exists_cons_of_ne_nil waits
  refine round_of_cluster h hc (.forward next) rfl fun h => round_of_pushed h hc ?_
  simp [Function.update_self]

theorem round_of_sampled (h : ∀ c, Consistent T c (s.cluster c)) (hc : c ∈ T.names)
    {count : UInt32} (waits : (s.cluster c).sampled = some count) : Round T add c s := by
  obtain ⟨msg, info, reported, _⟩ := SuperBroker.statePuller_stateReport s.superBroker c count
  refine round_of_cluster h hc (.setClusterState waits reported) rfl fun h =>
    round_of_paired h hc ?_
  simp [Function.update_self]

/-- The threads that report can always bring one more report to the super broker. -/
theorem exists_round (h : ∀ c, Consistent T c (s.cluster c)) (hc : c ∈ T.names)
    (add : Double → Double → Double) : Round T add c s := by
  cases waits : (s.cluster c).sampled with
  | some count => exact round_of_sampled h hc waits
  | none =>
    have hsampled : (Function.update s.cluster c { s.cluster c with
        sampled := some (s.cluster c).backend.broker.readyWorkerCount } c).sampled =
        some (s.cluster c).backend.broker.readyWorkerCount := by rw [Function.update_self]
    exact round_of_cluster h hc (.getReadyWorkerCount waits) rfl fun h =>
      round_of_sampled h hc hsampled

structure Reported (T : Topology) (c : Name) (s t : World) : Prop where
  consistent : ∀ d, Consistent T d (t.cluster d)
  backend : (t.cluster c).backend = (s.cluster c).backend
  others : ∀ d, d ≠ c → t.cluster d = s.cluster d

/-- Each pull of such a run brings the super broker nearer to the length. -/
theorem Reported.run {u : World} {k : Nat} (h : Reported T c s t)
    (before : Refreshed (· = ready s c) (underWay s c) k (t.superBroker.reportedCount c.bytes)
      (t.cluster c).pipe) (run : Run (Carrying T add c) t as u) :
    Reported T c s u ∧ Refreshed (· = ready s c) (underWay s c) (k + as.countP (pulls c))
      (u.superBroker.reportedCount c.bytes) (u.cluster c).pipe := by
  induction run generalizing k with
  | nil t => exact ⟨h, before⟩
  | @cons t v u a as hs _ ih =>
    have hnext : Reported T c s v :=
      ⟨consistent_step h.consistent hs.step, hs.backend.trans h.backend,
        fun d other => (hs.others d other).trans (h.others d other)⟩
    have hready : ready v c = ready s c := by rw [ready, hnext.backend, ready]
    have hafter := ih hnext (refreshed_step h.consistent hs.step hready before)
    rw [List.countP_cons, Nat.add_comm (as.countP _), ← Nat.add_assoc]
    exact hafter

theorem exists_rounds (h : ∀ d, Consistent T d (s.cluster d)) (hc : c ∈ T.names)
    (stored : Stored s c) (add : Double → Double → Double) (k : Nat) :
    ∃ as t, Run (Carrying T add c) s as t ∧ Reported T c s t ∧
      Refreshed (· = ready s c) (underWay s c) k (t.superBroker.reportedCount c.bytes)
        (t.cluster c).pipe := by
  induction k with
  | zero => exact ⟨[], s, .nil s, ⟨h, rfl, fun _ _ => rfl⟩, refreshed_start stored rfl⟩
  | succ k ih =>
    obtain ⟨as, t, run, reported, before⟩ := ih
    obtain ⟨bs, u, round, hone⟩ := exists_round reported.consistent hc add
    have hafter := reported.run before round
    rw [hone] at hafter
    exact ⟨_, u, run.append round, hafter⟩

/-- A step that moves reports of `c`, or brings its stored count up to date: nothing else of the
brokers and the workers changes. -/
structure Reporting (T : Topology) (add : Double → Double → Double) (c : Name) (s : World)
    (a : Action) (t : World) : Prop where
  step : Step T add s a t
  backend : ∃ count, (t.cluster c).backend = { (s.cluster c).backend with
    broker := { (s.cluster c).backend.broker with readyWorkerCount := count } }
  others : ∀ d, d ≠ c → t.cluster d = s.cluster d

theorem Carrying.reporting (h : Carrying T add c s a t) : Reporting T add c s a t :=
  ⟨h.step, ⟨(s.cluster c).backend.broker.readyWorkerCount, h.backend⟩, h.others⟩

theorem reporting_of_cluster (hc : c ∈ T.names) {u : Cluster}
    (hs : ClusterStep T add c (s.cluster c) u) {count : UInt32}
    (stores : u.backend = { (s.cluster c).backend with
      broker := { (s.cluster c).backend.broker with readyWorkerCount := count } }) :
    Reporting T add c s (.cluster c) { s with cluster := Function.update s.cluster c u } := by
  refine ⟨.cluster hc hs, ⟨count, ?_⟩, fun d other => Function.update_of_ne other ..⟩
  exact (congrArg Cluster.backend (Function.update_self ..)).trans stores

theorem exists_stored (h : ∀ d, Consistent T d (s.cluster d)) (hc : c ∈ T.names)
    (idle : (s.cluster c).Idle) (add : Double → Double → Double) :
    ∃ as t, Run (Reporting T add c) s as t ∧ Stored t c ∧
      (t.cluster c).backend = { (s.cluster c).backend with
        broker := (s.cluster c).backend.broker.storeCount } ∧
      ∀ d, d ≠ c → t.cluster d = s.cluster d := by
  obtain ⟨v, hstore, hv, hothers⟩ : ∃ v, Reporting T add c s (.cluster c) v ∧
      v.cluster c = { s.cluster c with todo := [.storeCount] } ∧
      ∀ d, d ≠ c → v.cluster d = s.cluster d :=
    ⟨_, reporting_of_cluster hc (.storeCount idle) rfl, Function.update_self ..,
      fun d other => Function.update_of_ne other ..⟩
  have htodo : (v.cluster c).todo = .storeCount :: [] := by rw [hv]
  have haccess : Reporting T add c v (.cluster c) _ :=
    reporting_of_cluster hc (.access htodo) rfl
  refine ⟨_, _, .cons hstore (.single haccess), ?_, ?_, fun d other => ?_⟩
  · have hfew := (h c).length_le.trans_lt (T.workers_few c)
    simp only [Stored, ready, Function.update_self, hv]
    exact UInt32.toNat_ofNat_of_lt' hfew
  · simp only [Function.update_self, hv]
    rfl
  · exact (Function.update_of_ne other ..).trans (hothers d other)

/-- Whenever the broker of `c` polls, the threads that report can bring the present number of ready
workers to the super broker before any worker, client or other cluster does anything. -/
theorem can_know_length {past : List Action} (run : Run (Step T add) World.init past s)
    (hc : c ∈ T.names) (idle : (s.cluster c).Idle) :
    ∃ as t, Run (Reporting T add c) s as t ∧
      t.superBroker.reportedCount c.bytes = some (ready s c) ∧
      (t.cluster c).backend = { (s.cluster c).backend with
        broker := (s.cluster c).backend.broker.storeCount } ∧
      ∀ d, d ≠ c → t.cluster d = s.cluster d := by
  have h := consistent_of_run run
  obtain ⟨as, u, store, stored, hbackend, hothers⟩ := exists_stored h hc idle add
  have hu : ∀ d, Consistent T d (u.cluster d) :=
    store.invariant (I := fun s => ∀ d, Consistent T d (s.cluster d))
      (fun _ _ _ h hs => consistent_step h hs.step) h
  obtain ⟨bs, t, rounds, reported, hview⟩ := exists_rounds hu hc stored add (underWay u c + 1)
  obtain ⟨n, hshown, rfl⟩ := hview.shown (Nat.lt_succ_self _)
  have hready : ready u c = ready s c := by
    rw [ready, hbackend]
    rfl
  refine ⟨_, t, store.append (rounds.mono fun _ _ _ hs => hs.reporting), ?_, ?_, fun d other => ?_⟩
  · rw [hshown, hready]
  · rw [reported.backend, hbackend]
  · rw [reported.others d other, hothers d other]

/-- A worker has announced itself, of which the super broker has not heard. -/
theorem can_know_length_one_ready : ∃ (past : List Action) (s t : World) (as : List Action)
    (c : Name), Run (Step oneCluster (· + ·)) World.init past s ∧
      s.superBroker.reportedCount c.bytes = none ∧
      Run (Reporting oneCluster (· + ·) c) s as t ∧
      t.superBroker.reportedCount c.bytes = some 1 := by
  obtain ⟨c, hc⟩ : ∃ c, c ∈ oneCluster.names := ⟨_, List.mem_cons_self⟩
  obtain ⟨w, hw⟩ : ∃ w, w ∈ oneCluster.workers c := ⟨_, List.mem_cons_self⟩
  obtain ⟨u, hready, idle, hbroker, -⟩ := exists_one_ready (· + ·) hw
  have hself : Function.update World.init.cluster c u c = u := Function.update_self ..
  have hrun := run_cluster (s := World.init) hc hready
  obtain ⟨as, t, run, known, -⟩ := can_know_length hrun hc (by simpa only [hself] using idle)
  refine ⟨_, _, t, as, c, hrun, rfl, run, ?_⟩
  simp only [known, ready, hself, hbroker]
  rfl

end SimTools.DataCenter.Freshness
