/- Module: SimTools/DataCenter/Refusals
   digest: A request is rejected exactly where no ready worker is found for it, and nowhere else. -/

import SimTools.DataCenter.Delivery
import SimTools.DataCenter.Turns

set_option autoImplicit false
set_option relaxedAutoImplicit false

namespace SimTools.DataCenter.Refusals

open Lib.Memory
open Lib.Channels
open Lib.Runs
open ClusterCore
open TaskHeader
open ClusterBroker
open Network
open Itinerary
open Tracking
open Hops
open Turns (Backed)

/-- The broker of its client reads `r` when no worker is ready. -/
structure TurnsAway (r : Request) (s : System) (e : Event) : Prop where
  action : e.action = .routeLocalRequest r.cluster r.client
  request : ∃ p x, e.consumed = some (p, x) ∧ x.origin = some r
  none_ready : (s.broker r.cluster).workReadyQueue = []

/-- The super broker reads `r` when it knows of no ready worker. -/
def Refuses (r : Request) (s : System) (e : Event) : Prop :=
  passesTaskRouter r true e = true ∧ ∀ name n, s.superBroker.reportedCount name = some n → n = 0

/-- The broker of the selected cluster reads `r` when no worker is ready. -/
def Bounces (r : Request) (s : System) (e : Event) : Prop :=
  takenFromSuper r e = true ∧ ∃ c, e.action = .routeCloud c ∧ (s.broker c).workReadyQueue = []

def Rejects (r : Request) (s : System) (e : Event) : Prop := Refuses r s e ∨ Bounces r s e

def Rejected : Leg → Prop
  | .returning _ outcome | .returned outcome | .answered outcome => outcome = none
  | .submitted | .offered | .assigned _ | .dispatched _ _ | .executing _ _ | .executed _ _ => False

/-- The legs that a request is on only after its own broker had no worker for it. -/
def Away : Leg → Prop
  | .offered | .assigned _ => True
  | .returning _ outcome | .returned outcome | .answered outcome => outcome = none
  | .submitted | .dispatched _ _ | .executing _ _ | .executed _ _ => False

variable {T : Topology} {add : Double → Double → Double} {s t : System} {e : Event} {r : Request}
  {l k : Leg} {c : Name} {p q : Place} {x y : Parcel} {m m' : Message}
  {legs : Request → Option Leg}

theorem source_injective {a b : Network.Action} (ha : source a = some p) (hb : source b = some p) :
    a = b := by
  cases a <;> cases ha <;> cases b <;> cases hb <;> rfl

theorem react_of_step (hs : Step T add s e t) (took : e.consumed = some (p, x))
    (sent : e.emitted = some (q, y)) :
    ∃ u, react T add s x.message e.action = .ok (u, some (q, y.message)) := by
  cases hs with
  | constructBroker | constructWorker | sendRequest | statePuller => cases took
  | handle src got ready run =>
    cases took
    obtain ⟨⟨q', m'⟩, rfl, hsent⟩ := Option.map_eq_some_iff.mp sent
    cases hsent
    exact ⟨_, run⟩

section Brokers

variable {u : System} {d i w : Name}

theorem none_ready_of_offer
    (run : react T add s m (.routeLocalRequest c i) = .ok (u, some (.brokerToSuper d, m'))) :
    (s.broker c).workReadyQueue = [] := by
  obtain ⟨⟨b, out⟩, hroute, hv⟩ := bind_eq_ok run
  obtain ⟨-, hplace⟩ := Prod.mk.inj (Except.ok.inj hv)
  rcases Workers.routeLocalRequest_cases hroute with ⟨empty, -⟩ | ⟨id, ws, m'', -, -, rfl⟩
  · exact empty
  · obtain ⟨v, -, hv⟩ := Option.map_eq_some_iff.mp hplace
    cases hv

theorem some_ready_of_dispatch
    (run : react T add s m (.routeCloud c) = .ok (u, some (.brokerToWorker d w, m'))) :
    (s.broker c).workReadyQueue ≠ [] := by
  obtain ⟨⟨b, out⟩, hroute, hv⟩ := bind_eq_ok run
  obtain ⟨-, hplace⟩ := Prod.mk.inj (Except.ok.inj hv)
  obtain ⟨tm, -, ⟨-, -, id, ws, queue, -, rfl⟩ | ⟨-, -, -, m'', rfl⟩ | ⟨-, -, toID, rfl⟩⟩ :=
    Workers.routeCloud_cases hroute
  · simp [queue]
  · cases hplace
  · obtain ⟨v, -, hv⟩ := Option.map_eq_some_iff.mp hplace
    cases hv

theorem none_ready_of_bounce (backed : Backed T c s)
    (run : react T add s m (.routeCloud c) = .ok (u, some (.brokerToSuper d, m'))) :
    (s.broker c).workReadyQueue = [] := by
  obtain ⟨⟨b, out⟩, hroute, hv⟩ := bind_eq_ok run
  obtain ⟨-, hplace⟩ := Prod.mk.inj (Except.ok.inj hv)
  obtain ⟨tm, -, ⟨-, -, id, ws, queue, -, rfl⟩ | ⟨-, uncounted, -⟩ | ⟨-, -, toID, rfl⟩⟩ :=
    Workers.routeCloud_cases hroute
  · obtain ⟨v, -, hv⟩ := Option.map_eq_some_iff.mp hplace
    cases hv
  · have hfew := backed.length_le.trans_lt (T.workers_few c)
    have hcount : (s.broker c).storeCount.readyWorkerCount.toNat =
        (s.broker c).workReadyQueue.length := UInt32.toNat_ofNat_of_lt' hfew
    have hzero : ¬ 0 < (s.broker c).storeCount.readyWorkerCount.toNat := uncounted
    exact List.length_eq_zero_iff.mp (by omega)
  · obtain ⟨v, -, hv⟩ := Option.map_eq_some_iff.mp hplace
    cases hv

theorem assigns_iff (informed : Informed T s.superBroker)
    (on : OnLeg T add r .offered (.brokerToSuper r.cluster) m)
    (run : react T add s m (.taskRouter c) = .ok (u, some (.superToBroker d, m'))) :
    m'.isSubmit = true ↔ ¬ ∀ name n, s.superBroker.reportedCount name = some n → n = 0 := by
  obtain ⟨sent, hroute, hv⟩ := bind_eq_ok run
  obtain ⟨-, hplace⟩ := Prod.mk.inj (Except.ok.inj hv)
  obtain ⟨⟨identity, m''⟩, rfl, hroute'⟩ := Option.bind_eq_some_iff.mp hplace
  obtain ⟨d', -, hd⟩ := Option.map_eq_some_iff.mp hroute'
  obtain ⟨-, rfl⟩ := Prod.mk.inj hd
  constructor
  · intro submit none_known
    obtain ⟨positive, -⟩ := SuperBroker.taskRouter_forwards hroute (isSubmit_onLeg on) submit
    rcases s.superBroker.selectCluster_cases with ⟨hnone, -⟩ | ⟨name, info, -, known, hpos, -⟩
    · rw [hnone] at positive
      exact positive rfl
    · exact absurd (none_known _ _ known) hpos.ne'
  · intro known
    obtain ⟨h, shown, normal, -, submit, from_client, from_cluster⟩ := on.header
    rcases s.superBroker.selectCluster_cases with ⟨-, hzero⟩ | ⟨name, info, -, reported, hpos, hsel⟩
    · exact absurd hzero known
    · obtain ⟨d, hd, rfl⟩ := informed name _ reported
      obtain ⟨-, m₁, hrun, hsubmit⟩ := SuperBroker.taskRouter_assigns shown normal submit
        (by rw [from_client]; exact T.clients_ne _ on.cluster _ on.client)
        (by rw [from_cluster]; exact T.names_ne _ on.cluster) (T.names_ne d hd) hpos.ne' hsel
      rw [hroute] at hrun
      cases hrun
      exact hsubmit

end Brokers

theorem not_rejects_of_untouched (untouched : ∀ p x, e.consumed = some (p, x) → x.origin ≠ some r) :
    ¬ Rejects r s e := by
  have hnone : e.consumed.any (fun x => x.2.origin = some r && x.2.message.isSubmit) = false := by
    rw [Option.any_eq_false]
    rintro ⟨p, x⟩ hx
    simp [untouched p x hx]
  rintro (⟨request, -⟩ | ⟨request, -⟩)
  · rw [passesTaskRouter] at request
    split at request
    · simp_all
    · cases request
  · rw [takenFromSuper] at request
    split at request
    · simp_all
    · cases request

/-- Where a request on leg `l` would be rejected if it were read now. -/
def Hopeless (s : System) : Leg → Prop
  | .offered => ∀ name n, s.superBroker.reportedCount name = some n → n = 0
  | .assigned c => (s.broker c).workReadyQueue = []
  | .submitted | .dispatched _ _ | .executing _ _ | .executed _ _ | .returning _ _ | .returned _
  | .answered _ => False

theorem rejects_iff (src : source e.action = some (l.place r))
    (took : e.consumed = some (l.place r, ⟨m, some r⟩)) (on : OnLeg T add r l (l.place r) m) :
    Rejects r s e ↔ Hopeless s l := by
  have hsubmit := isSubmit_onLeg on
  obtain ⟨action, consumed, emitted⟩ := e
  subst took
  cases l <;> cases action <;> cases src <;>
    simp [Rejects, Refuses, Bounces, passesTaskRouter, takenFromSuper, Hopeless, hsubmit, Leg.rank]

theorem hopeless_next (tracks : Tracks T add s legs) (backed : ∀ c, Backed T c s)
    (hs : Step T add s e t) (next : Next r l k) (src : source e.action = some (l.place r))
    (took : e.consumed = some (l.place r, ⟨m, some r⟩)) (on : OnLeg T add r l (l.place r) m)
    (sent : e.emitted = some (k.place r, ⟨m', some r⟩)) (on' : OnLeg T add r k (k.place r) m') :
    (Rejected k ↔ Rejected l ∨ Hopeless s l) ∧ (Away k → Away l ∨ TurnsAway r s e) := by
  obtain ⟨u, run⟩ := react_of_step hs took sent
  have hsubmit := isSubmit_onLeg on'
  obtain ⟨action, consumed, emitted⟩ := e
  subst took
  cases next with
  | offer =>
    obtain rfl : action = .routeLocalRequest r.cluster r.client := source_injective src rfl
    refine ⟨by simp [Rejected, Hopeless], fun _ => .inr ⟨rfl, ⟨_, _, rfl, rfl⟩, ?_⟩⟩
    exact none_ready_of_offer run
  | assign c =>
    obtain rfl : action = .taskRouter r.cluster := source_injective src rfl
    have hknown := (assigns_iff tracks.informed on run).mp hsubmit
    exact ⟨by simpa [Rejected, Hopeless] using hknown, fun _ => .inl trivial⟩
  | refuse =>
    obtain rfl : action = .taskRouter r.cluster := source_injective src rfl
    have hnone : ∀ name n, s.superBroker.reportedCount name = some n → n = 0 := by
      by_contra known
      rw [(assigns_iff tracks.informed on run).mpr known] at hsubmit
      simp [Leg.rank] at hsubmit
    exact ⟨by simpa [Rejected, Hopeless] using hnone, fun _ => .inl trivial⟩
  | dispatch c w =>
    obtain rfl : action = .routeCloud c := source_injective src rfl
    exact ⟨by simpa [Rejected, Hopeless] using some_ready_of_dispatch run, fun _ => .inl trivial⟩
  | bounce c =>
    obtain rfl : action = .routeCloud c := source_injective src rfl
    refine ⟨?_, fun _ => .inl trivial⟩
    simpa [Rejected, Hopeless] using none_ready_of_bounce (backed c) run
  | dispatchHome | take | finish | answerHome | sendBack =>
    exact ⟨by simp [Rejected, Hopeless], by simp [Away]⟩
  | passBack | answer => exact ⟨by simp [Rejected, Hopeless], fun away => .inl away⟩

structure Fate (r : Request) (σ : Nat → System) (ev : Nat → Event) (n : Nat) (leg : Option Leg) :
    Prop where
  rejected : ∀ l, leg = some l → (Rejected l ↔ ∃ k < n, Rejects r (σ k) (ev k))
  away : ∀ l, leg = some l → Away l → ∃ j < n, TurnsAway r (σ j) (ev j)
  /-- Before it is rejected a request is turned away by its own broker. -/
  turned : ∀ k < n, Rejects r (σ k) (ev k) → ∃ j < k, TurnsAway r (σ j) (ev j)
  unsent : ((σ n).client r.cluster r.client).sent ≤ r.seq → ∀ k < n, ¬ Rejects r (σ k) (ev k)

theorem away_of_hopeless (hopeless : Hopeless s l) : Away l := by
  cases l with
  | offered | assigned _ => exact trivial
  | _ => cases hopeless

section Trace

variable {σ : Nat → System} {ev : Nat → Event} {n : Nat} {leg leg' : Option Leg}

theorem fate_init (σ : Nat → System) (ev : Nat → Event) (r : Request) : Fate r σ ev 0 none :=
  ⟨by simp, by simp, by simp, by simp⟩

namespace Fate

theorem turned_succ (fate : Fate r σ ev n leg)
    (last : Rejects r (σ n) (ev n) → ∃ l, leg = some l ∧ Away l) :
    ∀ k < n + 1, Rejects r (σ k) (ev k) → ∃ j < k, TurnsAway r (σ j) (ev j) := by
  intro k hk rejects
  rcases Nat.lt_succ_iff_lt_or_eq.mp hk with before | rfl
  · exact fate.turned k before rejects
  · obtain ⟨l, hl, away⟩ := last rejects
    exact fate.away l hl away

theorem quiet (fate : Fate r σ ev n leg) (keeps : ¬ Rejects r (σ n) (ev n))
    (same : ∀ l, leg' = some l → leg = some l ∨
      ¬ Away l ∧ ¬ Rejected l ∧ ((σ n).client r.cluster r.client).sent ≤ r.seq)
    (sent : ((σ n).client r.cluster r.client).sent ≤
      ((σ (n + 1)).client r.cluster r.client).sent) : Fate r σ ev (n + 1) leg' := by
  refine ⟨?_, ?_, fate.turned_succ fun rejects => absurd rejects keeps, ?_⟩
  · intro l hl
    rw [Nat.exists_lt_succ_right, or_iff_left keeps]
    rcases same l hl with hl | ⟨-, notRejected, unsent⟩
    · exact fate.rejected l hl
    · refine iff_of_false notRejected ?_
      rintro ⟨k, hk, rejects⟩
      exact fate.unsent unsent k hk rejects
  · intro l hl away
    rw [Nat.exists_lt_succ_right]
    rcases same l hl with hl | ⟨stays, -⟩
    · exact .inl (fate.away l hl away)
    · exact absurd away stays
  · intro unsent k hk rejects
    rcases Nat.lt_succ_iff_lt_or_eq.mp hk with before | rfl
    · exact fate.unsent (sent.trans unsent) k before rejects
    · exact keeps rejects

end Fate

/-- Each step keeps the account of what has been done to a request. -/
theorem fate_step {legs' : Request → Option Leg} (tracks : Tracks T add (σ n) legs)
    (tracks' : Tracks T add (σ (n + 1)) legs') (backed : ∀ c, Backed T c (σ n))
    (hs : Step T add (σ n) (ev n) (σ (n + 1))) (moves : Moves T add r (ev n) (legs r) (legs' r))
    (fate : Fate r σ ev n (legs r)) : Fate r σ ev (n + 1) (legs' r) := by
  have hsent := sent_step hs r.cluster r.client
  have hopen : ∀ l, legs r = some l → ((σ n).client r.cluster r.client).sent = r.seq + 1 := by
    intro l hl
    exact (tracks.counted _ _ r ((tracks.waiting r).mpr (by simp [hl]))).2.2.symm
  generalize hl : legs r = before, hk : legs' r = after at moves fate
  cases moves with
  | idle _ unread =>
    exact fate.quiet (not_rejects_of_untouched unread) (fun l hl => .inl hl) (by omega)
  | opened send unread =>
    have hseq := remaining_before tracks' hs send hk
    refine fate.quiet (not_rejects_of_untouched (by simp [unread])) ?_ (by omega)
    rintro l ⟨⟩
    exact .inr ⟨id, id, hseq.le⟩
  | @moved l k m m' next src took on sent on' =>
    have hseq := hopen l hl
    have hrejects := rejects_iff (s := σ n) src took on
    obtain ⟨hrejected, haway⟩ := hopeless_next tracks backed hs next src took on sent on'
    refine ⟨?_, ?_, ?_, fun unsent => absurd unsent (by omega)⟩
    · rintro l' ⟨⟩
      rw [hrejected, Nat.exists_lt_succ_right, fate.rejected l rfl, hrejects]
    · rintro l' ⟨⟩ away
      rw [Nat.exists_lt_succ_right]
      exact (haway away).imp_left (fate.away l rfl)
    · exact fate.turned_succ fun rejects => ⟨l, rfl, away_of_hopeless (hrejects.mp rejects)⟩
  | @closed outcome m action took on sent =>
    have hseq := hopen _ hl
    have hkeeps : ¬ Rejects r (σ n) (ev n) := by
      rw [rejects_iff (by rw [action]; rfl) took on]
      exact id
    refine fate.quiet hkeeps ?_ (by omega)
    rintro l ⟨⟩

structure Followed (T : Topology) (add : Double → Double → Double) (σ : Nat → System)
    (ev : Nat → Event) (n : Nat) (legs : Request → Option Leg) : Prop where
  tracks : Tracks T add (σ n) legs
  backed : ∀ c, Backed T c (σ n)
  fate : ∀ r, Fate r σ ev n (legs r)

theorem exists_followed (start : σ 0 = System.init)
    (steps : ∀ k < n, Step T add (σ k) (ev k) (σ (k + 1))) :
    ∃ legs, Followed T add σ ev n legs := by
  induction n with
  | zero =>
    refine ⟨fun _ => none, ?_, fun c => ?_, fate_init σ ev⟩
    · rw [start]
      exact tracks_init T add
    · rw [start]
      exact Turns.backed_init T c
  | succ n ih =>
    obtain ⟨legs, tracks, backed, fate⟩ := ih fun k hk => steps k (hk.trans (Nat.lt_succ_self n))
    have hs := steps n (Nat.lt_succ_self n)
    obtain ⟨legs', tracks', moves⟩ := tracks.step hs
    exact ⟨legs', tracks', fun c => (backed c).step hs,
      fun r => fate_step tracks tracks' backed hs (moves r) (fate r)⟩

/-- A client is told that its request is rejected exactly if, after its own broker had no ready
worker for it, the super broker knew of none or the broker of the selected cluster had none. -/
theorem rejected_iff (start : σ 0 = System.init)
    (steps : ∀ k < n, Step T add (σ k) (ev k) (σ (k + 1))) (hs : Step T add (σ n) e t)
    {i : Name} (action : e.action = .receiveReply c i) :
    ∃ r x taskMeta reply, ((σ n).client c i).outstanding = some r ∧
      e.consumed = some (.brokerToClient c i, x) ∧ Client.result x.message = .ok (taskMeta, reply) ∧
      (reply = none ↔ ∃ k < n, Rejects r (σ k) (ev k)) ∧
      ∀ k < n, Rejects r (σ k) (ev k) → ∃ j < k, TurnsAway r (σ j) (ev j) := by
  obtain ⟨legs, tracks, -, fate⟩ := exists_followed start steps
  obtain ⟨r, outcome, x, rfl, rfl, hl, took, own, on⟩ :=
    Delivery.receiveReply_cases tracks hs action
  obtain ⟨hd, shown, _, _, shows, _, _⟩ := on.header
  obtain ⟨taskMeta, rep, hresult⟩ := Client.result_eq shown on.payload
  refine ⟨r, x, taskMeta, _, (tracks.waiting r).mpr (by simp [hl]), took, hresult, ?_,
    (fate r).turned⟩
  rw [← (fate r).rejected _ hl]
  cases outcome with
  | some executor =>
    obtain ⟨reply, -⟩ := shows
    simp [reply, Rejected]
  | none =>
    have hrejected : hd.taskDirection = .taskReplyRejected := shows
    simp [hrejected, Rejected]

theorem rejected_iff_first_answer : ∃ (σ : Nat → System) (ev : Nat → Event) (n : Nat) (e : Event)
    (c i : Name), σ 0 = System.init ∧ e.action = .receiveReply c i ∧
      ∃ r x taskMeta reply, ((σ n).client c i).outstanding = some r ∧
        e.consumed = some (.brokerToClient c i, x) ∧
        Client.result x.message = .ok (taskMeta, reply) ∧
        (reply = none ↔ ∃ k < n, Rejects r (σ k) (ev k)) ∧
        ∀ k < n, Rejects r (σ k) (ev k) → ∃ j < k, TurnsAway r (σ j) (ev j) := by
  obtain ⟨e, s, hs, hout⟩ := exists_send oneCluster (· + ·) (s := System.init)
    List.mem_cons_self List.mem_cons_self rfl 7 TaskRequest.init
  obtain ⟨legs, h⟩ := tracks_of_run (.single hs)
  obtain ⟨es, u, f, v, hrun, hlast, action⟩ := exists_answer h
    ((h.waiting (System.init.nextRequest _ _ 7 TaskRequest.init)).mp hout)
  have hinhabited : Inhabited Event := ⟨e⟩
  obtain ⟨σ, ev, start, rfl, -, steps⟩ := (Run.cons hs hrun).exists_numbered
  exact ⟨σ, ev, _, f, _, _, start, action, rejected_iff start steps hlast action⟩

end Trace

end SimTools.DataCenter.Refusals
