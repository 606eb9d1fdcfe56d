/- Module: SimTools/DataCenter/Tracking
   digest: In every reachable state each open request has one message, and each step moves it one leg. -/

import SimTools.DataCenter.Itinerary

set_option autoImplicit false
set_option relaxedAutoImplicit false

namespace SimTools.DataCenter.Tracking

open Lib.Memory
open Lib.Channels
open Lib.Runs
open ClusterCore
open TaskHeader
open ClusterBroker
open Network
open Itinerary

variable {T : Topology} {add : Double → Double → Double} {s t : System} {e : Event} {a : Action}
  {r : Request} {l : Leg} {p : Place} {m : Message} {rest : Pool Place Parcel}

def carriers (s : System) (r : Request) : Pool Place Parcel :=
  s.inFlight.filter (fun x => x.2.origin = some r)

inductive Announcement (T : Topology) : Place → Message → Prop
  | worker {c w : Name} {m : Message} {h : Header} :
      w ∈ T.workers c → Carries m.metaMsg h → h.taskType = .aliveSignal → h.addr .fromID = w →
      h.addr .toID = .empty → Announcement T (.workerToBroker c w) m
  | broker {c : Name} {m : Message} {h : Header} :
      Carries m.metaMsg h → h.taskType = .aliveSignal → h.taskDirection = .taskSubmit →
      h.addr .fromID = .empty → Announcement T (.brokerToSuper c) m

/-- The state in which request `r` is on leg `legs r`, or not under way. -/
structure Tracks (T : Topology) (add : Double → Double → Double) (s : System)
    (legs : Request → Option Leg) : Prop where
  staffed : ∀ c, Staffed T c (s.broker c)
  informed : Informed T s.superBroker
  announced : ∀ x ∈ s.inFlight, x.2.origin = none → Announcement T x.1 x.2.message
  waiting : ∀ r, (s.client r.cluster r.client).outstanding = some r ↔ legs r ≠ none
  counted : ∀ c i r, (s.client c i).outstanding = some r →
    r.cluster = c ∧ r.client = i ∧ r.seq + 1 = (s.client c i).sent
  empty : ∀ r, legs r = none → carriers s r = []
  single : ∀ r l, legs r = some l → ∃ m, carriers s r = [(l.place r, ⟨m, some r⟩)] ∧
    OnLeg T add r l (l.place r) m

inductive Moves (T : Topology) (add : Double → Double → Double) (r : Request) (e : Event) :
    Option Leg → Option Leg → Prop
  | idle (l : Option Leg) : (∀ p x, e.consumed = some (p, x) → x.origin ≠ some r) →
      (∀ p x, e.emitted = some (p, x) → x.origin ≠ some r) → Moves T add r e l l
  | opened {m : Message} : e.action = .sendRequest r.cluster r.client → e.consumed = none →
      e.emitted = some (Leg.submitted.place r, ⟨m, some r⟩) →
      OnLeg T add r .submitted (Leg.submitted.place r) m → Moves T add r e none (some .submitted)
  | moved {l k : Leg} {m m' : Message} : Next r l k → source e.action = some (l.place r) →
      e.consumed = some (l.place r, ⟨m, some r⟩) → OnLeg T add r l (l.place r) m →
      e.emitted = some (k.place r, ⟨m', some r⟩) → OnLeg T add r k (k.place r) m' →
      Moves T add r e (some l) (some k)
  | closed {outcome : Outcome} {m : Message} : e.action = .receiveReply r.cluster r.client →
      e.consumed = some ((Leg.answered outcome).place r, ⟨m, some r⟩) →
      OnLeg T add r (.answered outcome) ((Leg.answered outcome).place r) m → e.emitted = none →
      Moves T add r e (some (.answered outcome)) none

theorem Moves.of_consumed {before after : Option Leg} {x : Parcel}
    (h : Moves T add r e before after)
    (took : e.consumed = some (p, x)) (own : x.origin = some r) :
    ∃ l, before = some l ∧ p = l.place r ∧ source e.action = some p ∧
      OnLeg T add r l p x.message := by
  cases h with
  | idle _ consumed _ => exact absurd own (consumed p x took)
  | opened _ none_consumed => simp [none_consumed] at took
  | @moved l k m m' _ src consumed on _ _ =>
    rw [consumed] at took
    cases took
    exact ⟨l, rfl, rfl, src, on⟩
  | closed action consumed on _ =>
    rw [consumed] at took
    cases took
    exact ⟨_, rfl, rfl, by rw [action]; rfl, on⟩

theorem Moves.of_emitted {before after : Option Leg} {x : Parcel} (h : Moves T add r e before after)
    (sent : e.emitted = some (p, x)) (own : x.origin = some r) :
    ∃ k, after = some k ∧ OnLeg T add r k p x.message ∧
      ((before = none ∧ k = .submitted) ∨ ∃ l, before = some l ∧ Next r l k) := by
  cases h with
  | idle _ _ emitted => exact absurd own (emitted p x sent)
  | opened _ _ emitted on =>
    rw [emitted] at sent
    cases sent
    exact ⟨_, rfl, on, .inl ⟨rfl, rfl⟩⟩
  | @moved l k m m' next _ _ _ emitted on =>
    rw [emitted] at sent
    cases sent
    exact ⟨k, rfl, on, .inr ⟨l, rfl, next⟩⟩
  | closed _ _ _ emitted => simp [emitted] at sent

theorem tracks_init (T : Topology) (add : Double → Double → Double) :
    Tracks T add System.init (fun _ => none) :=
  ⟨Staffed.init T, informed_init T, by simp [System.init], by simp [System.init],
    by simp [System.init], by simp [carriers, System.init], by simp⟩

section System

theorem setClient_client (s : System) (c i d j : Name) (st : ClientState) :
    (s.setClient c i st).client d j = if d = c ∧ j = i then st else s.client d j := by
  by_cases hd : d = c
  · subst hd
    by_cases hj : j = i
    · subst hj
      simp [System.setClient]
    · simp [System.setClient, hj]
  · simp [System.setClient, hd]

theorem staffed_setBroker (staffed : ∀ c, Staffed T c (s.broker c)) {c : Name}
    {b : LocalBalanceBroker} (hb : Staffed T c b) (d : Name) :
      Staffed T d ((s.setBroker c b).broker d) := by
  by_cases hd : d = c
  · subst hd
    simpa [System.setBroker] using hb
  · simpa [System.setBroker, hd] using staffed d

end System

inductive Advances (T : Topology) (add : Double → Double → Double) (s : System) (r : Request) :
    Leg → Action → System → Option (Place × Message) → Prop
  | moved {l k : Leg} {a : Action} {t : System} {m' : Message} : Next r l k → t.client = s.client →
      OnLeg T add r k (k.place r) m' → Advances T add s r l a t (some (k.place r, m'))
  | closed {outcome : Outcome} {t : System} :
      t.client = (s.setClient r.cluster r.client
        { s.client r.cluster r.client with outstanding := none }).client →
      Advances T add s r (.answered outcome) (.receiveReply r.cluster r.client) t none

/-- A handler that finds a request or an answer takes it one leg on, and does not fail. -/
theorem react_onLeg (staffed : ∀ c, Staffed T c (s.broker c)) (informed : Informed T s.superBroker)
    (src : source a = some (l.place r)) (on : OnLeg T add r l (l.place r) m) :
    ∃ t out, react T add s m a = .ok (t, out) ∧ (∀ c, Staffed T c (t.broker c)) ∧
      t.superBroker = s.superBroker ∧ Advances T add s r l a t out := by
  cases l with
  | submitted =>
    cases a <;> simp only [source, Leg.place, Option.some.injEq, reduceCtorEq,
      Place.clientToBroker.injEq] at src
    obtain ⟨rfl, rfl⟩ := src
    obtain ⟨b, o, k, q, m', hrun, hplace, hb, hnext, hon⟩ :=
      routeLocalRequest_moves (staffed r.cluster) on
    obtain rfl := hon.place
    refine ⟨s.setBroker r.cluster b, _, ?_, staffed_setBroker staffed hb, rfl, .moved hnext rfl hon⟩
    simp only [react, hrun, Option.bind_some, hplace, bind, Except.bind, pure, Except.pure]
  | offered =>
    cases a <;> simp only [source, Leg.place, Option.some.injEq, reduceCtorEq,
      Place.brokerToSuper.injEq] at src
    obtain ⟨d, k, m', hrun, hd, hnext, hon⟩ := taskRouter_submit_moves informed on
    have hplace := hon.place
    refine ⟨s, some (.superToBroker d, m'), ?_, staffed, rfl, ?_⟩
    · simp only [react, hrun, Option.bind_some, routeIdentity_identity hd, Option.map_some, bind,
        Except.bind, pure, Except.pure]
    · rw [hplace] at hon ⊢
      exact .moved hnext rfl hon
  | assigned c =>
    cases a <;> simp only [source, Leg.place, Option.some.injEq, reduceCtorEq,
      Place.superToBroker.injEq] at src
    subst src
    obtain ⟨b, o, k, q, m', hrun, hplace, hb, hnext, hon⟩ := routeCloud_submit_moves (staffed _) on
    obtain rfl := hon.place
    refine ⟨s.setBroker _ b, _, ?_, staffed_setBroker staffed hb, rfl, .moved hnext rfl hon⟩
    simp only [react, hrun, Option.bind_some, hplace, bind, Except.bind, pure, Except.pure]
  | dispatched c w =>
    cases a <;> simp only [source, Leg.place, Option.some.injEq, reduceCtorEq,
      Place.brokerToWorker.injEq] at src
    obtain ⟨rfl, rfl⟩ := src
    exact ⟨s, _, rfl, staffed, rfl, .moved (.take _ _) rfl
      ⟨on.cluster, on.client, on.within, rfl, on.header, on.payload⟩⟩
  | executing c w =>
    cases a <;> simp only [source, Leg.place, Option.some.injEq, reduceCtorEq,
      Place.held.injEq] at src
    obtain ⟨rfl, rfl⟩ := src
    obtain ⟨m', hrun, hon⟩ := process_moves on
    refine ⟨s, _, ?_, staffed, rfl, .moved (.finish _ _) rfl hon⟩
    simp only [react, hrun, bind, Except.bind, pure, Except.pure]
    rfl
  | executed c w =>
    cases a <;> simp only [source, Leg.place, Option.some.injEq, reduceCtorEq,
      Place.workerToBroker.injEq] at src
    obtain ⟨rfl, rfl⟩ := src
    obtain ⟨b, o, k, q, m', hrun, hplace, hb, hnext, hon⟩ := routeLocalReply_moves (staffed _) on
    obtain rfl := hon.place
    refine ⟨s.setBroker _ b, _, ?_, staffed_setBroker staffed hb, rfl, .moved hnext rfl hon⟩
    simp only [react, hrun, Option.bind_some, hplace, bind, Except.bind, pure, Except.pure]
  | returning c outcome =>
    cases a <;> simp only [source, Leg.place, Option.some.injEq, reduceCtorEq,
      Place.brokerToSuper.injEq] at src
    obtain ⟨m', hrun, hon⟩ := taskRouter_answer_moves (s := s.superBroker) on
    refine ⟨s, some (.superToBroker r.cluster, m'), ?_, staffed, rfl,
      .moved (.passBack c outcome) rfl hon⟩
    simp only [react, hrun, Option.bind_some, routeIdentity_identity on.cluster,
      Option.map_some, bind, Except.bind, pure, Except.pure]
  | returned outcome =>
    cases a <;> simp only [source, Leg.place, Option.some.injEq, reduceCtorEq,
      Place.superToBroker.injEq] at src
    subst src
    obtain ⟨o, hrun, hplace, hon⟩ := routeCloud_answer_moves (b := s.broker r.cluster) on
    refine ⟨s.setBroker r.cluster (s.broker r.cluster),
      some (.brokerToClient r.cluster r.client, m), ?_, staffed_setBroker staffed (staffed _), rfl,
      .moved (.answer outcome) rfl hon⟩
    simp only [react, hrun, Option.bind_some, hplace, bind, Except.bind, pure, Except.pure]
  | answered outcome =>
    cases a <;> simp only [source, Leg.place, Option.some.injEq, reduceCtorEq,
      Place.brokerToClient.injEq] at src
    obtain ⟨rfl, rfl⟩ := src
    obtain ⟨h, shown, _⟩ := on.header
    obtain ⟨taskMeta, _, hrun⟩ := Client.result_eq shown on.payload
    refine ⟨s.setClient r.cluster r.client { s.client r.cluster r.client with outstanding := none },
      none, ?_, staffed, rfl, .closed rfl⟩
    simp only [react, hrun, bind, Except.bind, pure, Except.pure]

theorem react_announcement (add : Double → Double → Double)
    (staffed : ∀ c, Staffed T c (s.broker c)) (src : source a = some p)
    (alive : Announcement T p m) :
    ∃ t, react T add s m a = .ok (t, none) ∧ (∀ c, Staffed T c (t.broker c)) ∧
      t.superBroker = s.superBroker ∧ t.client = s.client := by
  cases alive with
  | @worker c w _ h hw shown htype hfrom hto =>
    cases a <;> simp only [source, Option.some.injEq, reduceCtorEq,
      Place.workerToBroker.injEq] at src
    rename_i d v
    obtain ⟨rfl, rfl⟩ := src
    have hrun := LocalBalanceBroker.routeLocalReply_alive (b := s.broker d) shown htype
    rw [hfrom] at hrun
    refine ⟨s.setBroker d _, ?_, staffed_setBroker staffed ((staffed d).push hw).storeCount,
      rfl, rfl⟩
    simp only [react, hrun, bind, Except.bind, pure, Except.pure]
    rfl
  | @broker c _ h shown htype hdir hfrom =>
    cases a <;> simp only [source, Option.some.injEq, reduceCtorEq,
      Place.brokerToSuper.injEq] at src
    have hrun := SuperBroker.taskRouter_alive (s := s.superBroker) shown htype
    refine ⟨s, ?_, staffed, rfl, rfl⟩
    simp only [react, hrun, bind, Except.bind, pure, Except.pure]
    rfl

section Pool

variable {x : Parcel} {out : Option (Place × Parcel)}

theorem carriers_deliver (t : System) (rest : Pool Place Parcel) (out : Option (Place × Parcel))
    (r : Request) : carriers (t.deliver rest out) r =
      rest.filter (fun x => x.2.origin = some r) ++
        out.toList.filter (fun x => x.2.origin = some r) := by
  rw [carriers, System.deliver, List.filter_append]

theorem carriers_other (got : receive p s.inFlight = some (x, rest)) (other : x.origin ≠ some r)
    (kept : ∀ y ∈ out, y.2.origin = x.origin) : carriers (t.deliver rest out) r = carriers s r := by
  have hrest : rest.filter (fun x => x.2.origin = some r) = carriers s r :=
    receive_filter_of_not got (by simpa using other)
  have hout : out.toList.filter (fun x => x.2.origin = some r) = [] := by
    rw [List.filter_eq_nil_iff]
    intro y hy
    rw [kept y (Option.mem_toList.mp hy)]
    simpa using other
  rw [carriers_deliver, hrest, hout, List.append_nil]

theorem carriers_self (got : receive p s.inFlight = some (x, rest)) (own : x.origin = some r)
    {q : Place × Parcel} (only : carriers s r = [q]) (kept : ∀ y ∈ out, y.2.origin = x.origin) :
    q = (p, x) ∧ carriers (t.deliver rest out) r = out.toList := by
  obtain ⟨hq, hrest⟩ := receive_filter_of_singleton got (by simpa using own) only
  refine ⟨hq, ?_⟩
  rw [carriers_deliver, hrest, List.nil_append, List.filter_eq_self]
  intro y hy
  rw [kept y (Option.mem_toList.mp hy), own]
  simp

end Pool

theorem Tracks.leg_of_mem {legs : Request → Option Leg} (h : Tracks T add s legs) {x : Parcel}
    (hx : (p, x) ∈ s.inFlight) (own : x.origin = some r) :
    ∃ l m, legs r = some l ∧ p = l.place r ∧ x = ⟨m, some r⟩ ∧
      carriers s r = [(l.place r, ⟨m, some r⟩)] ∧ OnLeg T add r l (l.place r) m := by
  have hmem : (p, x) ∈ carriers s r := by simp [carriers, hx, own]
  cases hl : legs r with
  | none => simp [h.empty r hl] at hmem
  | some l =>
    obtain ⟨m, honly, hon⟩ := h.single r l hl
    rw [honly, List.mem_singleton] at hmem
    obtain ⟨hp, hx⟩ := Prod.mk.inj hmem
    exact ⟨l, m, rfl, hp, hx, honly, hon⟩

theorem Tracks.mem_cases {legs : Request → Option Leg} (h : Tracks T add s legs) {x : Parcel}
    (hx : (p, x) ∈ s.inFlight) :
    (x.origin = none ∧ Announcement T p x.message) ∨ ∃ r l, x.origin = some r ∧ legs r = some l ∧
      p = l.place r ∧ OnLeg T add r l p x.message := by
  cases ho : x.origin with
  | none => exact .inl ⟨rfl, h.announced _ hx ho⟩
  | some r =>
    obtain ⟨l, m, hl, hp, rfl, _, hon⟩ := h.leg_of_mem hx ho
    rw [← hp] at hon
    exact .inr ⟨r, l, rfl, hl, hp, hon⟩

theorem Tracks.leg_none {legs : Request → Option Leg} (h : Tracks T add s legs)
    (idle : (s.client r.cluster r.client).outstanding = none) : legs r = none := by
  by_contra hl
  have := (h.waiting r).mpr hl
  simp [idle] at this

section Step

variable {legs : Request → Option Leg}

theorem Tracks.frame (h : Tracks T add s legs) (staffed : ∀ c, Staffed T c (t.broker c))
    (informed : Informed T t.superBroker) (client : t.client = s.client)
    (announced : ∀ x ∈ t.inFlight, x.2.origin = none → Announcement T x.1 x.2.message)
    (same : ∀ r, carriers t r = carriers s r) : Tracks T add t legs := by
  refine ⟨staffed, informed, announced, ?_, ?_, ?_, ?_⟩
  · intro r
    rw [client]
    exact h.waiting r
  · intro c i r
    rw [client]
    exact h.counted c i r
  · intro r hl
    rw [same, h.empty r hl]
  · intro r l hl
    rw [same]
    exact h.single r l hl

theorem Tracks.update (h : Tracks T add s legs) {after : Option Leg} (st : ClientState)
    (staffed : ∀ c, Staffed T c (t.broker c)) (super : t.superBroker = s.superBroker)
    (client : t.client = (s.setClient r.cluster r.client st).client)
    (announced : ∀ x ∈ t.inFlight, x.2.origin = none → x ∈ s.inFlight)
    (others : ∀ r', r' ≠ r → carriers t r' = carriers s r')
    (alone : ∀ r', (s.client r.cluster r.client).outstanding = some r' → r' = r)
    (waits : st.outstanding = after.map (fun _ => r)) (counts : after ≠ none → r.seq + 1 = st.sent)
    (closed : after = none → carriers t r = [])
    (running : ∀ l, after = some l → ∃ m, carriers t r = [(l.place r, ⟨m, some r⟩)] ∧
      OnLeg T add r l (l.place r) m) : Tracks T add t (Function.update legs r after) := by
  refine ⟨staffed, ?_, ?_, ?_, ?_, ?_, ?_⟩
  · rw [super]
    exact h.informed
  · intro x hx ho
    exact h.announced x (announced x hx ho) ho
  · intro r'
    rw [client, setClient_client]
    by_cases hr : r' = r
    · subst hr
      rw [if_pos ⟨rfl, rfl⟩, Function.update_self, waits]
      cases after <;> simp
    · rw [Function.update_of_ne hr]
      split
      · rename_i here
        -- the client of `r` waits for `r` and for nothing else
        have hidle : legs r' = none := by
          by_contra hl
          have hwait := (h.waiting r').mpr hl
          rw [here.1, here.2] at hwait
          exact hr (alone r' hwait)
        rw [waits, hidle]
        cases after <;> simp [Ne.symm hr]
      · exact h.waiting r'
  · intro c i r' ho
    rw [client, setClient_client] at ho ⊢
    split at ho
    · rename_i here
      rw [if_pos here]
      rw [waits] at ho
      obtain ⟨l, hafter, rfl⟩ := Option.map_eq_some_iff.mp ho
      exact ⟨here.1.symm, here.2.symm, counts (by simp [hafter])⟩
    · rename_i elsewhere
      rw [if_neg elsewhere]
      exact h.counted c i r' ho
  · intro r' hl
    by_cases hr : r' = r
    · subst hr
      rw [Function.update_self] at hl
      exact closed hl
    · rw [Function.update_of_ne hr] at hl
      rw [others r' hr]
      exact h.empty r' hl
  · intro r' l hl
    by_cases hr : r' = r
    · subst hr
      rw [Function.update_self] at hl
      exact running l hl
    · rw [Function.update_of_ne hr] at hl
      rw [others r' hr]
      exact h.single r' l hl

theorem Tracks.announce (h : Tracks T add s legs) (alive : Announcement T p m)
    (places : List Place) :
    Tracks T add ({ s with constructed := places }.deliver s.inFlight (some (p, ⟨m, none⟩)))
      legs := by
  refine h.frame h.staffed h.informed rfl ?_ ?_
  · intro x hx ho
    rcases List.mem_append.mp hx with hx | hx
    · exact h.announced x hx ho
    · rw [List.mem_singleton.mp hx]
      exact alive
  · intro r
    rw [carriers_deliver]
    simp [carriers]

theorem Tracks.alive (h : Tracks T add s legs) {x : Parcel}
    (got : receive p s.inFlight = some (x, rest)) (alive : x.origin = none)
    (staffed : ∀ c, Staffed T c (t.broker c)) (super : t.superBroker = s.superBroker)
    (client : t.client = s.client) : Tracks T add (t.deliver rest none) legs := by
  refine h.frame staffed ?_ client ?_ ?_
  · change Informed T t.superBroker
    rw [super]
    exact h.informed
  · intro y hy
    have hrest : y ∈ rest := by simpa [System.deliver] using hy
    exact h.announced y (mem_of_mem_rest got hrest)
  · intro r
    exact carriers_other got (by simp [alive]) (by simp)

theorem Tracks.send (h : Tracks T add s legs) {c i : Name} {taskID : UInt64}
    {task : TaskRequest} (idle : (s.client c i).outstanding = none)
    (on : OnLeg T add (s.nextRequest c i taskID task) .submitted (.clientToBroker c i) m) :
    Tracks T add ((s.setClient c i ⟨(s.client c i).sent + 1,
      some (s.nextRequest c i taskID task)⟩).deliver
        s.inFlight (some (.clientToBroker c i, ⟨m, some (s.nextRequest c i taskID task)⟩)))
      (Function.update legs (s.nextRequest c i taskID task) (some .submitted)) := by
  refine h.update ⟨(s.client c i).sent + 1, some (s.nextRequest c i taskID task)⟩ h.staffed rfl rfl
    ?_ ?_ ?_ rfl (fun _ => rfl) (by simp) ?_
  · intro x hx ho
    rcases List.mem_append.mp hx with hx | hx
    · exact hx
    · rw [List.mem_singleton.mp hx] at ho
      simp at ho
  · intro r hr
    rw [carriers_deliver]
    simp [carriers, Ne.symm hr]
  · intro r ho
    rw [show (s.client c i).outstanding = some r from ho] at idle
    cases idle
  · rintro l ⟨⟩
    refine ⟨m, ?_, on⟩
    have hold := h.empty _ (h.leg_none (r := s.nextRequest c i taskID task) idle)
    rw [carriers] at hold
    rw [carriers_deliver, hold]
    simp [Leg.place, System.nextRequest]

theorem Tracks.moved (h : Tracks T add s legs) {x : Parcel} {k : Leg}
    (got : receive p s.inFlight = some (x, rest)) (own : x.origin = some r) (open_ : legs r ≠ none)
    {q : Place × Parcel} (only : carriers s r = [q])
    (staffed : ∀ c, Staffed T c (t.broker c)) (super : t.superBroker = s.superBroker)
    (client : t.client = s.client) (on : OnLeg T add r k (k.place r) m) :
    Tracks T add (t.deliver rest (some (k.place r, ⟨m, some r⟩)))
      (Function.update legs r (some k)) := by
  have hkept : ∀ y ∈ some (k.place r, (⟨m, some r⟩ : Parcel)), y.2.origin = x.origin := by
    intro y hy
    cases hy
    exact own.symm
  have hwait := (h.waiting r).mpr open_
  refine h.update (s.client r.cluster r.client) staffed super ?_ ?_ ?_ ?_ hwait
    (fun _ => (h.counted _ _ r hwait).2.2) (by simp) ?_
  · simpa [System.setClient, System.deliver] using client
  · intro y hy ho
    rcases mem_of_mem_moved got hy with hy | new
    · exact hy
    · rw [new] at ho
      simp at ho
  · intro r' hr
    exact carriers_other got (by simpa [own] using Ne.symm hr) hkept
  · intro r' hr
    rw [hwait] at hr
    exact (Option.some.inj hr).symm
  · rintro l ⟨⟩
    exact ⟨m, (carriers_self got own only hkept).2, on⟩

theorem Tracks.closed (h : Tracks T add s legs) {x : Parcel}
    (got : receive p s.inFlight = some (x, rest)) (own : x.origin = some r) (open_ : legs r ≠ none)
    {q : Place × Parcel} (only : carriers s r = [q])
    (staffed : ∀ c, Staffed T c (t.broker c)) (super : t.superBroker = s.superBroker)
    (client : t.client = (s.setClient r.cluster r.client
      { s.client r.cluster r.client with outstanding := none }).client) :
    Tracks T add (t.deliver rest none) (Function.update legs r none) := by
  have hwait := (h.waiting r).mpr open_
  refine h.update _ staffed super client ?_ ?_ ?_ rfl (by simp) ?_ (by simp)
  · intro y hy _
    have hrest : y ∈ rest := by simpa [System.deliver] using hy
    exact mem_of_mem_rest got hrest
  · intro r' hr
    exact carriers_other got (by simpa [own] using Ne.symm hr) (by simp)
  · intro r' hr
    rw [hwait] at hr
    exact (Option.some.inj hr).symm
  · intro _
    exact (carriers_self got own only (by simp)).2

/-- Each step keeps the books and moves each request at most one leg on. -/
theorem Tracks.step (h : Tracks T add s legs) (hs : Step T add s e t) :
    ∃ legs', Tracks T add t legs' ∧ ∀ r, Moves T add r e (legs r) (legs' r) := by
  cases hs with
  | @constructBroker c m _ _ hm =>
    obtain ⟨metaMsg, hsignal, shown⟩ := LocalBalanceBroker.aliveSignal_eq c
    rw [hm] at hsignal
    cases hsignal
    refine ⟨legs, h.announce (.broker shown rfl rfl ?_) _, fun r => .idle _ ?_ ?_⟩
    · rw [Header.setType_addr, Header.setAddr_addr_of_ne _ _ (by decide)]
      rfl
    · simp
    · intro p x hx
      cases hx
      simp
  | @constructWorker c w m _ hw _ hm =>
    obtain ⟨metaMsg, hsignal, shown⟩ := Worker.aliveSignal_eq w
    rw [hm] at hsignal
    cases hsignal
    refine ⟨legs, h.announce (.worker hw shown rfl ?_ ?_) _, fun r => .idle _ ?_ ?_⟩
    · rw [Header.setType_addr, Header.setDirection_addr, Header.setAddr_addr_self]
    · rw [Header.setType_addr, Header.setDirection_addr, Header.setAddr_addr_of_ne _ _ (by decide)]
      rfl
    · simp
    · intro p x hx
      cases hx
      simp
  | @sendRequest c i taskID task m hc hi idle hm =>
    have hon : OnLeg T add (s.nextRequest c i taskID task) .submitted (.clientToBroker c i) m :=
      OnLeg.of_request hc hi hm
    refine ⟨_, h.send idle hon, ?_⟩
    intro r
    by_cases hr : r = s.nextRequest c i taskID task
    · subst hr
      have hnone : legs (s.nextRequest c i taskID task) = none := h.leg_none idle
      rw [Function.update_self, hnone]
      exact .opened rfl rfl rfl hon
    · rw [Function.update_of_ne hr]
      refine .idle _ (by simp) ?_
      intro p x hx
      cases hx
      simpa using Ne.symm hr
  | @statePuller c count msg super hc hreport hpull =>
    refine ⟨legs, ⟨h.staffed, h.informed.statePuller hc hreport hpull, h.announced, h.waiting,
      h.counted, h.empty, h.single⟩, fun r => .idle _ (by simp) (by simp)⟩
  | @handle t a p x rest out src got ready run =>
    cases ho : x.origin with
    | none =>
      obtain ⟨t', hrun, hstaffed, hsuper, hclient⟩ :=
        react_announcement add h.staffed src (h.announced _ (receive_mem got) ho)
      rw [run] at hrun
      cases hrun
      refine ⟨legs, h.alive got ho hstaffed hsuper hclient, fun r => .idle _ ?_ (by simp)⟩
      intro p' x' hx
      cases hx
      simp [ho]
    | some r =>
      obtain ⟨l, m, hl, rfl, rfl, honly, hon⟩ := h.leg_of_mem (receive_mem got) ho
      obtain ⟨t', out', hrun, hstaffed, hsuper, hadv⟩ := react_onLeg h.staffed h.informed src hon
      rw [run] at hrun
      cases hrun
      have hopen : legs r ≠ none := by simp [hl]
      have hidle : ∀ r', r' ≠ r → ∀ (q : Option (Place × Message)),
          Moves T add r' ⟨a, some (l.place r, ⟨m, some r⟩), q.map (fun q => (q.1, ⟨q.2, some r⟩))⟩
            (legs r') (legs r') := by
        intro r' hr q
        refine .idle _ ?_ ?_
        · intro p x hx
          cases hx
          simpa using Ne.symm hr
        · intro p x hx
          obtain ⟨y, _, hy⟩ := Option.map_eq_some_iff.mp hx
          cases hy
          simpa using Ne.symm hr
      cases hadv with
      | @moved _ k _ _ m' hnext hclient hk =>
        refine ⟨_, h.moved got rfl hopen honly hstaffed hsuper hclient hk, ?_⟩
        intro r'
        by_cases hr : r' = r
        · subst hr
          rw [Function.update_self, hl]
          exact .moved hnext src rfl hon rfl hk
        · rw [Function.update_of_ne hr]
          exact hidle r' hr (some (k.place r, m'))
      | closed hclient =>
        refine ⟨_, h.closed got rfl hopen honly hstaffed hsuper hclient, ?_⟩
        intro r'
        by_cases hr : r' = r
        · subst hr
          rw [Function.update_self, hl]
          exact .closed rfl rfl hon rfl
        · rw [Function.update_of_ne hr]
          exact hidle r' hr none

end Step

theorem tracks_of_run {es : List Event} (run : Run (Step T add) System.init es s) :
    ∃ legs, Tracks T add s legs := by
  refine run.invariant (I := fun s => ∃ legs, Tracks T add s legs) ?_ ⟨_, tracks_init T add⟩
  rintro s e t ⟨legs, h⟩ hs
  obtain ⟨legs', h', _⟩ := h.step hs
  exact ⟨legs', h'⟩

end SimTools.DataCenter.Tracking
