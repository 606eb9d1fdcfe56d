/- Module: SimTools/DataCenter/Hops
   digest: A rank on place and direction bounds the life of every request; no forwarding loop. -/

import SimTools.DataCenter.Tracking

set_option autoImplicit false
set_option relaxedAutoImplicit false

namespace SimTools.DataCenter.Hops

open Lib.Memory
open Lib.Channels
open Lib.Runs
open ClusterCore
open TaskHeader
open ClusterBroker
open Network
open Itinerary
open Tracking

variable {T : Topology} {add : Double → Double → Double} {s t : System} {e : Event} {a : Action}
  {r : Request} {l : Leg} {p : Place} {m : Message} {legs : Request → Option Leg}

/-- How many handlers a message has still to pass at most, from where it is and which way it
goes. -/
def hops (m : Message) : Place → Nat
  | .clientToBroker _ _ => 9
  | .brokerToSuper _ => if m.isSubmit then 8 else 3
  | .superToBroker _ => if m.isSubmit then 7 else 2
  | .brokerToWorker _ _ => 6
  | .held _ _ => 5
  | .workerToBroker _ _ => 4
  | .brokerToClient _ _ => 1

/-- The step handles or sends a message of `r`. -/
def touches (r : Request) (e : Event) : Bool :=
  e.consumed.any (fun x => x.2.origin = some r) || e.emitted.any (fun x => x.2.origin = some r)

def passesTaskRouter (r : Request) (submit : Bool) (e : Event) : Bool :=
  match e.action with
  | .taskRouter _ => e.consumed.any (fun x => x.2.origin = some r && x.2.message.isSubmit == submit)
  | _ => false

def takenFromSuper (r : Request) (e : Event) : Bool :=
  match e.action with
  | .routeCloud _ => e.consumed.any (fun x => x.2.origin = some r && x.2.message.isSubmit)
  | _ => false

def forwardsSubmit (r : Request) (e : Event) : Bool :=
  e.emitted.any (fun x => x.2.origin = some r && x.2.message.isSubmit &&
    match x.1 with
    | .brokerToSuper _ | .superToBroker _ => true
    | _ => false)

theorem hops_pos (m : Message) (p : Place) : 0 < hops m p := by
  cases p with
  | brokerToSuper c | superToBroker c =>
    simp only [hops]
    split <;> decide
  | _ => simp [hops]

theorem isSubmit_onLeg (on : OnLeg T add r l p m) : m.isSubmit = decide (5 ≤ l.rank) := by
  obtain ⟨h, shown, _, _, shows⟩ := on.header
  have hiff := Message.isSubmit_iff shown
  cases l with
  | submitted | offered | assigned c | dispatched c w | executing c w =>
    simpa [Leg.rank, shows.1] using hiff
  | executed c w => simpa [Leg.rank, shows.1] using hiff
  | returning c outcome | returned outcome | answered outcome =>
    simpa [Leg.rank, shows.1.ne_submit] using hiff

theorem hops_onLeg (on : OnLeg T add r l p m) : hops m p = l.rank := by
  have hsubmit := isSubmit_onLeg on
  rw [on.place]
  cases l <;> simp [hops, Leg.place, Leg.rank, hsubmit]

section Sent

theorem react_sent {out : Option (Place × Message)} (run : react T add s m a = .ok (t, out))
    (c i : Name) : (t.client c i).sent = (s.client c i).sent := by
  cases a with
  | receiveReply d j =>
    obtain ⟨v, _, hv⟩ := bind_eq_ok run
    cases hv
    rw [setClient_client]
    split
    · rename_i here
      rw [here.1, here.2]
    · rfl
  | finishTask d w | taskRouter d =>
    obtain ⟨v, _, hv⟩ := bind_eq_ok run
    cases hv
    rfl
  | routeLocalRequest d j | routeLocalReply d w | routeCloud d =>
    obtain ⟨⟨b, o⟩, _, hv⟩ := bind_eq_ok run
    cases hv
    rfl
  | receiveTask d w | constructBroker d | constructWorker d w | sendRequest d j | statePuller d =>
    cases run
    rfl

theorem sent_step (hs : Step T add s e t) (c i : Name) :
    (t.client c i).sent = (s.client c i).sent + if e.action = .sendRequest c i then 1 else 0 := by
  cases hs with
  | constructBroker | constructWorker | statePuller => simp [System.deliver]
  | @sendRequest d j taskID task m =>
    change ((s.setClient d j _).client c i).sent = _
    rw [setClient_client]
    by_cases here : c = d ∧ i = j
    · obtain ⟨rfl, rfl⟩ := here
      simp
    · have hne : ¬ (Action.sendRequest d j = Action.sendRequest c i) := by
        rintro ⟨⟩
        exact here ⟨rfl, rfl⟩
      simp [here, hne]
  | @handle t a p x rest out src got ready run =>
    have hne : a ≠ .sendRequest c i := by
      rintro rfl
      simp [source] at src
    rw [if_neg hne]
    exact react_sent run c i

end Sent

/-- What `r` has still before it: the send, or the hops of its message. -/
def remaining (r : Request) (s : System) : Nat :=
  if (s.client r.cluster r.client).sent ≤ r.seq then 10
  else ((carriers s r).map (fun x => hops x.2.message x.1)).sum

section Remaining

theorem remaining_open (h : Tracks T add s legs) (hl : legs r = some l) :
    remaining r s = l.rank := by
  have hwait := (h.waiting r).mpr (by simp [hl])
  have hseq := (h.counted _ _ r hwait).2.2
  obtain ⟨m, honly, hon⟩ := h.single r l hl
  rw [remaining, if_neg (by omega), honly]
  simpa using hops_onLeg hon

theorem remaining_none (h : Tracks T add s legs) (hl : legs r = none) :
    remaining r s = if (s.client r.cluster r.client).sent ≤ r.seq then 10 else 0 := by
  rw [remaining, h.empty r hl]
  rfl

theorem remaining_before (h : Tracks T add t legs) (hs : Step T add s e t)
    (send : e.action = .sendRequest r.cluster r.client) (hl : legs r = some l) :
    (s.client r.cluster r.client).sent = r.seq := by
  have hwait := (h.waiting r).mpr (by simp [hl])
  have hseq := (h.counted _ _ r hwait).2.2
  have hsent := sent_step hs r.cluster r.client
  rw [if_pos send] at hsent
  omega

/-- The hops that a request has before it never grow, and each step that touches it lowers them. -/
theorem remaining_step (h : Tracks T add s legs) (hs : Step T add s e t) (r : Request) :
    remaining r t ≤ remaining r s ∧ (touches r e = true → remaining r t < remaining r s) := by
  obtain ⟨legs', h', moves⟩ := h.step hs
  have hmove := moves r
  have hsent := sent_step hs r.cluster r.client
  generalize hl : legs r = before, hk : legs' r = after at hmove
  cases hmove with
  | idle _ consumed emitted =>
    have htouch : touches r e = false := by
      simp only [touches, Bool.or_eq_false_iff, Option.any_eq_false]
      exact ⟨fun x hx => by simpa using consumed x.1 x.2 hx,
        fun x hx => by simpa using emitted x.1 x.2 hx⟩
    refine ⟨?_, by simp [htouch]⟩
    cases before with
    | none =>
      rw [remaining_none h hl, remaining_none h' hk]
      split <;> split <;> omega
    | some l => rw [remaining_open h hl, remaining_open h' hk]
  | opened send =>
    have hbefore := remaining_before h' hs send hk
    rw [remaining_none h hl, remaining_open h' hk, if_pos (by omega), Leg.rank]
    omega
  | moved hnext =>
    have hlt := hnext.rank_lt
    rw [remaining_open h hl, remaining_open h' hk]
    omega
  | @closed outcome _ action =>
    have hwait := (h.waiting r).mpr (by simp [hl])
    have hseq := (h.counted _ _ r hwait).2.2
    rw [remaining_open h hl, remaining_none h' hk, if_neg (by omega), Leg.rank]
    omega

end Remaining

theorem remaining_potential (T : Topology) (add : Double → Double → Double) (r : Request) :
    Potential (Step T add) (fun s => ∃ legs, Tracks T add s legs) (touches r) (remaining r) where
  preserved := by
    rintro s e t ⟨legs, h⟩ hs
    obtain ⟨legs', h', _⟩ := h.step hs
    exact ⟨legs', h'⟩
  antitone := fun _ _ _ ⟨_, h⟩ hs => (remaining_step h hs r).1
  lowered := fun _ _ _ ⟨_, h⟩ hs => (remaining_step h hs r).2

section Levels

theorem passesTaskRouter_level (h : Tracks T add s legs) (hs : Step T add s e t) {submit : Bool}
    (pass : passesTaskRouter r submit e = true) : remaining r s = if submit then 8 else 3 := by
  obtain ⟨legs', _, moves⟩ := h.step hs
  unfold passesTaskRouter at pass
  split at pass
  · rename_i c action
    obtain ⟨⟨p, x⟩, took, hx⟩ := (Option.any_eq_true _ _).mp pass
    simp only [Bool.and_eq_true, decide_eq_true_eq, beq_iff_eq] at hx
    obtain ⟨l, hl, _, src, on⟩ := (moves r).of_consumed took hx.1
    rw [remaining_open h hl, ← hops_onLeg on]
    rw [action] at src
    cases src
    simp [hops, hx.2]
  · simp at pass

theorem takenFromSuper_level (h : Tracks T add s legs) (hs : Step T add s e t)
    (taken : takenFromSuper r e = true) : remaining r s = 7 := by
  obtain ⟨legs', _, moves⟩ := h.step hs
  unfold takenFromSuper at taken
  split at taken
  · rename_i c action
    obtain ⟨⟨p, x⟩, took, hx⟩ := (Option.any_eq_true _ _).mp taken
    simp only [Bool.and_eq_true, decide_eq_true_eq] at hx
    obtain ⟨l, hl, _, src, on⟩ := (moves r).of_consumed took hx.1
    rw [remaining_open h hl, ← hops_onLeg on]
    rw [action] at src
    cases src
    simp [hops, hx.2]
  · simp at taken

theorem forwardsSubmit_level (h : Tracks T add s legs) (hs : Step T add s e t)
    (forward : forwardsSubmit r e = true) : 8 ≤ remaining r s := by
  obtain ⟨legs', _, moves⟩ := h.step hs
  obtain ⟨⟨q, y⟩, sent, hy⟩ := (Option.any_eq_true _ _).mp forward
  simp only [Bool.and_eq_true, decide_eq_true_eq] at hy
  obtain ⟨⟨own, submit⟩, upward⟩ := hy
  obtain ⟨k, _, on, hbefore⟩ := (moves r).of_emitted sent own
  have hrank : 7 ≤ k.rank := by
    rw [← hops_onLeg on]
    split at upward <;> simp_all [hops]
  rcases hbefore with ⟨_, rfl⟩ | ⟨l, hl, next⟩
  · have hplace := on.place
    simp only [Leg.place] at hplace
    subst hplace
    simp at upward
  · rw [remaining_open h hl]
    have := next.rank_lt
    omega

end Levels

/-- Every step that handles a request lowers its rank, so at most ten steps do; the super broker
sees it at most once each way, and no cluster that has taken it from there forwards it again. -/
theorem no_forwarding_loop {es : List Event} (run : Run (Step T add) System.init es s)
    (r : Request) :
    (∀ e t, Step T add s e t → remaining r t ≤ remaining r s ∧
      (touches r e = true → remaining r t < remaining r s)) ∧
    es.countP (touches r) + remaining r s ≤ 10 ∧
    es.countP (passesTaskRouter r true) ≤ 1 ∧
    es.countP (passesTaskRouter r false) ≤ 1 ∧
    ∀ past e later, es = past ++ e :: later → takenFromSuper r e = true →
      (e :: later).countP (forwardsSubmit r) = 0 := by
  have pot := remaining_potential T add r
  have start : ∃ legs, Tracks T add System.init legs := ⟨_, tracks_init T add⟩
  have hpasses : ∀ submit e, passesTaskRouter r submit e = true → touches r e = true := by
    intro submit e pass
    unfold passesTaskRouter at pass
    split at pass
    · obtain ⟨x, took, hx⟩ := (Option.any_eq_true _ _).mp pass
      simp only [Bool.and_eq_true, decide_eq_true_eq] at hx
      simp [touches, took, hx.1]
    · simp at pass
  have honce : ∀ submit, es.countP (passesTaskRouter r submit) ≤ 1 := by
    intro submit
    exact pot.countP_le_one (hpasses submit)
      (fun s e t ⟨_, h⟩ hs pass => passesTaskRouter_level h hs pass) run start
  obtain ⟨legs, tracks⟩ := tracks_of_run run
  refine ⟨fun e t hs => remaining_step tracks hs r, pot.countP_add_le run start, honce true,
    honce false, ?_⟩
  intro past e later hes taken
  subst hes
  obtain ⟨u, hpast, hrest⟩ := run.split
  have hu := hpast.invariant pot.preserved start
  refine pot.countP_eq_zero_of_lt
    (fun s e t ⟨_, h⟩ hs fwd => forwardsSubmit_level h hs fwd) hrest hu ?_
  cases hrest with
  | cons hs _ =>
    obtain ⟨_, h⟩ := hu
    rw [takenFromSuper_level h hs taken]
    decide

theorem no_forwarding_loop_first_send : ∃ es s c i r,
    Run (Step oneCluster (· + ·)) System.init es s ∧
    (s.client c i).outstanding = some r ∧ es.countP (touches r) + remaining r s ≤ 10 ∧
    ∀ e t, Step oneCluster (· + ·) s e t → touches r e = true → remaining r t < remaining r s := by
  obtain ⟨e, s, hs, hout⟩ := exists_send oneCluster (· + ·) (s := System.init)
    List.mem_cons_self List.mem_cons_self rfl 7 TaskRequest.init
  obtain ⟨hstep, hcount, _⟩ := no_forwarding_loop (.single hs)
    (System.init.nextRequest _ _ 7 TaskRequest.init)
  exact ⟨[e], s, _, _, _, .single hs, hout, hcount,
    fun e t hs' touched => (hstep e t hs').2 touched⟩

section Answers

def reader : Place → Action
  | .clientToBroker c i => .routeLocalRequest c i
  | .brokerToClient c i => .receiveReply c i
  | .brokerToWorker c w => .receiveTask c w
  | .held c w => .finishTask c w
  | .workerToBroker c w => .routeLocalReply c w
  | .brokerToSuper c => .taskRouter c
  | .superToBroker c => .routeCloud c

theorem source_reader (p : Place) : source (reader p) = some p := by
  cases p <;> rfl

/-- No handler fails on a message that it finds in a reachable state. -/
theorem react_ok (h : Tracks T add s legs) {x : Parcel} (hx : (p, x) ∈ s.inFlight)
    (src : source a = some p) : ∃ t out, react T add s x.message a = .ok (t, out) := by
  rcases h.mem_cases hx with ⟨_, alive⟩ | ⟨r, l, _, _, rfl, on⟩
  · obtain ⟨t, run, _⟩ := react_announcement add h.staffed src alive
    exact ⟨t, none, run⟩
  · obtain ⟨t, out, run, _⟩ := react_onLeg h.staffed h.informed src on
    exact ⟨t, out, run⟩

private theorem step_reader (h : Tracks T add s legs) (waits : queueAt p s.inFlight ≠ [])
    (ready : Ready s (reader p)) : ∃ e t, Step T add s e t ∧ e.consumed ≠ none := by
  cases hgot : receive p s.inFlight with
  | none => exact absurd (receive_eq_none_iff.mp hgot) waits
  | some got =>
    obtain ⟨x, rest⟩ := got
    obtain ⟨t, out, run⟩ := react_ok h (receive_mem hgot) (source_reader p)
    exact ⟨_, _, .handle (source_reader p) hgot ready run, by simp⟩

private theorem queueAt_ne_nil {x : Parcel} (hx : (p, x) ∈ s.inFlight) :
    queueAt p s.inFlight ≠ [] := by
  intro hnone
  have hsome := receive_isSome_of_mem hx
  rw [receive_eq_none_iff.mpr hnone] at hsome
  cases hsome

theorem exists_handler_step (h : Tracks T add s legs) (busy : s.inFlight ≠ []) :
    ∃ e t, Step T add s e t ∧ e.consumed ≠ none := by
  obtain ⟨⟨p, x⟩, hx⟩ := List.exists_mem_of_ne_nil _ busy
  have hwaits := queueAt_ne_nil hx
  cases p with
  | brokerToClient c i =>
    rcases h.mem_cases hx with ⟨_, ⟨⟩⟩ | ⟨r, l, _, hl, hp, _⟩
    have hwait := (h.waiting r).mpr (by simp [hl])
    have hclient : (s.client c i).outstanding ≠ none := by
      cases l <;> cases hp
      simp [hwait]
    exact step_reader h hwaits hclient
  | brokerToWorker c w =>
    by_cases hidle : queueAt (.held c w) s.inFlight = []
    · exact step_reader h hwaits hidle
    · exact step_reader (p := .held c w) h hidle trivial
  | _ => exact step_reader h hwaits trivial

def load (s : System) : Nat := (s.inFlight.map (fun x => hops x.2.message x.1)).sum

theorem load_lt (h : Tracks T add s legs) (hs : Step T add s e t) (took : e.consumed ≠ none) :
    load t < load s := by
  obtain ⟨_, _, moves⟩ := h.step hs
  cases hs with
  | constructBroker | constructWorker | sendRequest | statePuller => exact absurd rfl took
  | @handle t a p x rest out src got ready run =>
    have hload : load s = hops x.message p + (rest.map (fun x => hops x.2.message x.1)).sum :=
      ((receive_perm got).map _).sum_nat
    have hpos := hops_pos x.message p
    cases out with
    | none =>
      have hrest : load (t.deliver rest none) = (rest.map (fun x => hops x.2.message x.1)).sum := by
        simp [load, System.deliver]
      change load (t.deliver rest none) < load s
      omega
    | some q =>
      obtain ⟨r, ho⟩ : ∃ r, x.origin = some r := by
        rcases h.mem_cases (receive_mem got) with ⟨_, alive⟩ | ⟨r, _, ho, _⟩
        · obtain ⟨t', hrun, _⟩ := react_announcement add h.staffed src alive
          rw [run] at hrun
          cases hrun
        · exact ⟨r, ho⟩
      obtain ⟨l, hl, _, _, on⟩ := (moves r).of_consumed rfl ho
      obtain ⟨k, _, onk, hbefore⟩ := (moves r).of_emitted rfl ho
      have hlt : hops q.2 q.1 < hops x.message p := by
        rcases hbefore with ⟨hnone, _⟩ | ⟨l', hl', next⟩
        · simp [hnone] at hl
        · rw [hl] at hl'
          cases hl'
          rw [hops_onLeg on, hops_onLeg onk]
          exact next.rank_lt
      have hrest : load (t.deliver rest (some (q.1, ⟨q.2, x.origin⟩))) =
          (rest.map (fun x => hops x.2.message x.1)).sum + hops q.2 q.1 := by
        simp [load, System.deliver]
      change load (t.deliver rest (some (q.1, ⟨q.2, x.origin⟩))) < load s
      omega

/-- From every reachable state, every open request can be answered without a further request. -/
theorem exists_answer (h : Tracks T add s legs) (hl : legs r ≠ none) :
    ∃ es u e v, Run (Step T add) s es u ∧ Step T add u e v ∧
      e.action = .receiveReply r.cluster r.client := by
  obtain ⟨n, hn⟩ : ∃ n, load s = n := ⟨_, rfl⟩
  induction n using Nat.strong_induction_on generalizing s legs with
  | h n ih =>
    have hbusy : s.inFlight ≠ [] := by
      obtain ⟨l, hsome⟩ := Option.ne_none_iff_exists'.mp hl
      obtain ⟨m, honly, _⟩ := h.single r l hsome
      intro hnil
      simp [carriers, hnil] at honly
    obtain ⟨e, t, hs, took⟩ := exists_handler_step h hbusy
    obtain ⟨legs', h', moves⟩ := h.step hs
    by_cases hopen : legs' r = none
    · have hmove := moves r
      rw [hopen] at hmove
      generalize hbefore : legs r = before at hmove
      cases hmove with
      | idle => exact absurd hbefore hl
      | closed action => exact ⟨[], s, e, t, .nil s, hs, action⟩
    · obtain ⟨es, u, f, v, hrun, hlast, action⟩ := ih (load t) (hn ▸ load_lt h hs took) h' hopen rfl
      exact ⟨e :: es, u, f, v, .cons hs hrun, hlast, action⟩

end Answers

end SimTools.DataCenter.Hops
