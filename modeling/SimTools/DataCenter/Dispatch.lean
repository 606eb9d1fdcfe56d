/- Module: SimTools/DataCenter/Dispatch
   digest: The header that a worker receives: exact on both ways to it, and addressed on one of them. -/

import SimTools.DataCenter.Hops

set_option autoImplicit false
set_option relaxedAutoImplicit false

namespace SimTools.DataCenter.Dispatch

open Lib.Memory
open Lib.Channels
open Lib.Runs
open ClusterCore
open TaskHeader
open ClusterBroker
open Network
open Itinerary
open Tracking
open Hops

variable {T : Topology} {add : Double → Double → Double} {s t : System} {e : Event}
  {es : List Event} {r : Request} {c w : Name} {p : Place} {x : Parcel}
  {legs : Request → Option Leg}

/-- The header of a request that its broker has stamped. -/
def offeredHeader (r : Request) : Header :=
  (Header.submitted r.client r.taskID).setAddr .fromClusterID r.cluster

def assignedHeader (r : Request) (c : Name) : Header := (offeredHeader r).setAddr .toClusterID c

def dispatchedHeader (r : Request) (c w : Name) : Header := (assignedHeader r c).setAddr .toID w

/-- What is known of the header of a request before a worker has it. -/
def Stamped (r : Request) : Place → Message → Prop
  | .clientToBroker _ _, m => Carries m.metaMsg (Header.submitted r.client r.taskID)
  | .brokerToSuper _, m => m.isSubmit = true → Carries m.metaMsg (offeredHeader r)
  | .superToBroker c, m => m.isSubmit = true → Carries m.metaMsg (assignedHeader r c)
  | _, _ => True

def Received (es : List Event) (c w : Name) (x : Parcel) : Prop :=
  ∃ e ∈ es, e.action = .receiveTask c w ∧ e.consumed = some (.brokerToWorker c w, x)

/-- The message was sent to worker `w` of cluster `c` by `routeLocalRequest`. -/
def DispatchedHome (es : List Event) (c w : Name) (x : Parcel) : Prop :=
  ∃ e ∈ es, e.emitted = some (.brokerToWorker c w, x) ∧ ∃ i, e.action = .routeLocalRequest c i

theorem dispatchedHeader_empty (r : Request) (c : Name) :
    dispatchedHeader r c .empty = assignedHeader r c := by
  have hempty : (assignedHeader r c).addr .toID = .empty := by
    rw [assignedHeader, offeredHeader, Header.submitted, Header.setAddr_addr_of_ne _ _ (by decide),
      Header.setAddr_addr_of_ne _ _ (by decide), Header.setAddr_addr_of_ne _ _ (by decide)]
    rfl
  rw [dispatchedHeader, ← hempty, Header.setAddr_addr]

theorem addr_unique {metaMsg : Bytes} {h h' : Header} (shown : Carries metaMsg h)
    (shown' : Carries metaMsg h') (f : AddrField) : h.addr f = h'.addr f := by
  obtain ⟨m, rfl, rep⟩ := shown
  obtain ⟨m', himage, rep'⟩ := shown'
  have hstr := rep'.addr f
  rw [← himage] at hstr
  exact Name.bytes_injective ((rep.addr f).unique hstr)

/-- A message of a request is sent by its client, or by a handler that has read one of it. -/
theorem sends_cases (hs : Step T add s e t) (sent : e.emitted = some (p, x))
    (own : x.origin = some r) :
    (p = .clientToBroker r.cluster r.client ∧
      Client.request r.client.bytes r.taskID r.task = .ok x.message) ∨
    ∃ q y t', source e.action = some q ∧ (q, y) ∈ s.inFlight ∧ y.origin = some r ∧
      react T add s y.message e.action = .ok (t', some (p, x.message)) := by
  cases hs with
  | constructBroker | constructWorker =>
    cases sent
    cases own
  | statePuller => cases sent
  | sendRequest hc hi idle request =>
    cases sent
    cases own
    exact .inl ⟨rfl, request⟩
  | @handle t' a q y rest out src got ready run =>
    obtain ⟨⟨p', m'⟩, rfl, hsent⟩ := Option.map_eq_some_iff.mp sent
    cases hsent
    exact .inr ⟨q, y, t', src, receive_mem got, own, run⟩

theorem react_routeLocalRequest {m : Message} {i : Name} {b : LocalBalanceBroker}
    {o : Option Outgoing} (run : (s.broker c).routeLocalRequest m = .ok (b, o)) :
    react T add s m (.routeLocalRequest c i) =
      .ok (s.setBroker c b, o.bind (placeOf T c)) := by
  simp only [react, run, bind, Except.bind, pure, Except.pure]

theorem react_routeCloud {m : Message} {b : LocalBalanceBroker} {o : Option Outgoing}
    (run : (s.broker c).routeCloud m = .ok (b, o)) :
    react T add s m (.routeCloud c) = .ok (s.setBroker c b, o.bind (placeOf T c)) := by
  simp only [react, run, bind, Except.bind, pure, Except.pure]

theorem react_routeLocalReply {m : Message} {b : LocalBalanceBroker} {o : Option Outgoing}
    (run : (s.broker c).routeLocalReply m = .ok (b, o)) :
    react T add s m (.routeLocalReply c w) = .ok (s.setBroker c b, o.bind (placeOf T c)) := by
  simp only [react, run, bind, Except.bind, pure, Except.pure]

theorem react_taskRouter {m m' : Message} {d : Name} (hd : d ∈ T.names)
    (run : s.superBroker.taskRouter m = .ok (some (d.identity, m'))) :
    react T add s m (.taskRouter c) = .ok (s, some (.superToBroker d, m')) := by
  simp only [react, run, Option.bind_some, routeIdentity_identity hd, Option.map_some, bind,
    Except.bind, pure, Except.pure]

theorem localRequest_wire (staffed : Staffed T r.cluster (s.broker r.cluster)) {m m' : Message}
    {i : Name} (shown : Carries m.metaMsg (Header.submitted r.client r.taskID))
    (run : react T add s m (.routeLocalRequest r.cluster i) = .ok (t, some (p, m'))) :
    (p = .brokerToSuper r.cluster ∧ Carries m'.metaMsg (offeredHeader r)) ∨
    ∃ w, p = .brokerToWorker r.cluster w ∧
      Carries m'.metaMsg (dispatchedHeader r r.cluster w) := by
  obtain ⟨offered, dispatched⟩ := LocalBalanceBroker.routeLocalRequest_eq staffed.name shown
  rcases staffed.queue_cases with empty | ⟨w, hw, ws, ready⟩
  · obtain ⟨metaMsg, hcarries, hrun⟩ := offered empty
    rw [react_routeLocalRequest hrun] at run
    cases run
    exact .inl ⟨rfl, hcarries⟩
  · obtain ⟨metaMsg, hcarries, hrun⟩ := dispatched w ws ready
    rw [react_routeLocalRequest hrun, Option.bind_some, placeOf_backEnd T hw] at run
    cases run
    exact .inr ⟨w, rfl, hcarries⟩

theorem cloudRequest_wire (staffed : Staffed T c (s.broker c)) {m m' : Message} {h : Header}
    (shown : Carries m.metaMsg h) (submit : h.taskDirection = .taskSubmit)
    (run : react T add s m (.routeCloud c) = .ok (t, some (p, m'))) :
    (∃ w, p = .brokerToWorker c w ∧ m' = m) ∨ (p = .brokerToSuper c ∧ m'.isSubmit = false) := by
  by_cases counted : (s.broker c).storeCount.readyWorkerCount > 0
  · rcases staffed.queue_cases with empty | ⟨w, hw, ws, ready⟩
    · simp [LocalBalanceBroker.storeCount, empty] at counted
    · have hrun := LocalBalanceBroker.routeCloud_dispatch staffed.name shown submit ready counted
      rw [react_routeCloud hrun, Option.bind_some, placeOf_backEnd T hw] at run
      cases run
      exact .inl ⟨w, rfl, rfl⟩
  · obtain ⟨metaMsg, hcarries, hrun⟩ := LocalBalanceBroker.routeCloud_reject shown submit counted
    rw [react_routeCloud hrun] at run
    cases run
    refine .inr ⟨rfl, Bool.eq_false_iff.mpr fun submit' => ?_⟩
    have hdirection := (Message.isSubmit_iff hcarries).mp submit'
    cases hdirection

theorem superRequest_wire (informed : Informed T s.superBroker) (member : r.cluster ∈ T.names)
    (client : r.client.bytes ≠ []) {m m' : Message} {d : Name}
    (shown : Carries m.metaMsg (offeredHeader r))
    (run : react T add s m (.taskRouter c) = .ok (t, some (.superToBroker d, m')))
    (submit : m'.isSubmit = true) : Carries m'.metaMsg (assignedHeader r d) := by
  have hclient : ((offeredHeader r).addr .fromID).bytes ≠ [] := by
    rw [offeredHeader, Header.setAddr_addr_of_ne _ _ (by decide), Header.submitted,
      Header.setAddr_addr_self]
    exact client
  have hcluster : ((offeredHeader r).addr .fromClusterID) = r.cluster :=
    Header.setAddr_addr_self _ _ _
  obtain ⟨assigned, refused⟩ := SuperBroker.taskRouter_submit (s := s.superBroker) shown rfl rfl
    hclient (by rw [hcluster]; exact T.names_ne _ member)
  rcases s.superBroker.selectCluster_cases with ⟨hnone, _⟩ | ⟨name, info, _, hreported, hpos, hsel⟩
  · obtain ⟨metaMsg, hcarries, hrun⟩ := refused hnone
    rw [hcluster] at hrun
    rw [react_taskRouter member hrun] at run
    cases run
    have hdirection := (Message.isSubmit_iff hcarries).mp submit
    cases hdirection
  · obtain ⟨d', hd', rfl⟩ := informed name _ hreported
    obtain ⟨metaMsg, hcarries, hrun⟩ := assigned d' (T.names_ne d' hd') _ hpos.ne' hsel
    rw [react_taskRouter hd' hrun] at run
    cases run
    exact hcarries

theorem place_of_taskRouter {m m' : Message}
    (run : react T add s m (.taskRouter c) = .ok (t, some (p, m'))) :
    ∃ d, p = .superToBroker d := by
  obtain ⟨out, _, hout⟩ := bind_eq_ok run
  obtain ⟨_, hplace⟩ := Prod.mk.inj (Except.ok.inj hout)
  obtain ⟨⟨identity, m''⟩, _, hroute⟩ := Option.bind_eq_some_iff.mp hplace
  obtain ⟨d, _, hd⟩ := Option.map_eq_some_iff.mp hroute
  cases hd
  exact ⟨d, rfl⟩

/-- What is on the wire after a handler: the headers known so far, and to a worker either the header
that `routeLocalRequest` has stamped or the one that `routeCloud` has found. -/
structure Wired (r : Request) (a : Action) (p : Place) (m : Message) : Prop where
  stamped : Stamped r p m
  dispatch : ∀ c w, p = .brokerToWorker c w →
    ((∃ i, a = .routeLocalRequest c i) ∧ Carries m.metaMsg (dispatchedHeader r c w)) ∨
      (a = .routeCloud c ∧ Carries m.metaMsg (assignedHeader r c))

theorem wired_of_react (h : Tracks T add s legs) {a : Action} {q : Place} {m m' : Message} {l : Leg}
    (on : OnLeg T add r l q m) (known : Stamped r q m) (src : source a = some q)
    (run : react T add s m a = .ok (t, some (p, m'))) : Wired r a p m' := by
  have hplace := on.place
  have hsubmit := isSubmit_onLeg on
  cases a with
  | constructBroker | constructWorker | sendRequest | statePuller => cases src
  | receiveReply d i =>
    obtain ⟨v, _, hv⟩ := bind_eq_ok run
    cases hv
  | receiveTask d v =>
    cases run
    exact ⟨trivial, by simp⟩
  | finishTask d v =>
    obtain ⟨m'', _, hv⟩ := bind_eq_ok run
    cases hv
    exact ⟨trivial, by simp⟩
  | routeLocalRequest d i =>
    cases src
    cases l <;> cases hplace
    rcases localRequest_wire (h.staffed _) known run with ⟨rfl, hcarries⟩ | ⟨v, rfl, hcarries⟩
    · exact ⟨fun _ => hcarries, by simp⟩
    · refine ⟨trivial, ?_⟩
      rintro _ _ ⟨⟩
      exact .inl ⟨⟨_, rfl⟩, hcarries⟩
  | routeLocalReply d v =>
    cases src
    cases l <;> cases hplace
    obtain ⟨b, o, k, q, m'', hrun, hout, _, next, on'⟩ := routeLocalReply_moves (h.staffed d) on
    rw [react_routeLocalReply hrun, Option.bind_some, hout] at run
    cases run
    have hreply := isSubmit_onLeg on'
    cases next with
    | answerHome =>
      rw [on'.place]
      exact ⟨trivial, by simp [Leg.place]⟩
    | sendBack =>
      rw [on'.place]
      exact ⟨fun submit => absurd (hreply.symm.trans submit) (by simp [Leg.rank]),
        by simp [Leg.place]⟩
  | routeCloud d =>
    cases src
    cases l <;> cases hplace
    · obtain ⟨hd, shown, _, _, submit, _⟩ := on.header
      rcases cloudRequest_wire (h.staffed d) shown submit run with ⟨v, rfl, rfl⟩ | ⟨rfl, hno⟩
      · refine ⟨trivial, ?_⟩
        rintro _ _ ⟨⟩
        exact .inr ⟨rfl, known hsubmit⟩
      · exact ⟨fun submit => absurd (hno.symm.trans submit) (by decide), by simp⟩
    · obtain ⟨o, hrun, hout, _⟩ := routeCloud_answer_moves (b := s.broker r.cluster) on
      rw [react_routeCloud hrun, Option.bind_some, hout] at run
      cases run
      exact ⟨trivial, by simp⟩
  | taskRouter d =>
    cases src
    obtain ⟨d', rfl⟩ := place_of_taskRouter run
    cases l <;> cases hplace
    · refine ⟨fun submit => ?_, by simp⟩
      exact superRequest_wire h.informed on.cluster (T.clients_ne _ on.cluster _ on.client)
        (known hsubmit) run submit
    · obtain ⟨m'', hrun, on'⟩ := taskRouter_answer_moves (s := s.superBroker) on
      rw [react_taskRouter on.cluster hrun] at run
      cases run
      have hreply := isSubmit_onLeg on'
      exact ⟨fun submit => absurd (hreply.symm.trans submit) (by simp [Leg.rank]), by simp⟩

def Known (T : Topology) (add : Double → Double → Double) (s : System) : Prop :=
  (∃ legs, Tracks T add s legs) ∧
    ∀ p x r, (p, x) ∈ s.inFlight → x.origin = some r → Stamped r p x.message

theorem known_init (T : Topology) (add : Double → Double → Double) : Known T add System.init :=
  ⟨⟨_, tracks_init T add⟩, by simp [System.init]⟩

theorem wired_of_step (h : Known T add s) (hs : Step T add s e t) (sent : e.emitted = some (p, x))
    (own : x.origin = some r) : Wired r e.action p x.message := by
  obtain ⟨⟨legs, tracks⟩, known⟩ := h
  rcases sends_cases hs sent own with ⟨rfl, request⟩ | ⟨q, y, t', src, hy, hown, run⟩
  · obtain ⟨metaMsg, hrequest, hcarries⟩ := Client.request_eq r.client r.taskID r.task
    rw [request] at hrequest
    obtain hmessage := Except.ok.inj hrequest
    refine ⟨?_, by simp⟩
    rw [hmessage]
    exact hcarries
  · rcases tracks.mem_cases hy with ⟨hnone, _⟩ | ⟨r', l, hr', _, _, on⟩
    · rw [hown] at hnone
      cases hnone
    · obtain rfl : r = r' := Option.some.inj (hown.symm.trans hr')
      exact wired_of_react tracks on (known q y r hy hown) src run

theorem mem_of_step (hs : Step T add s e t) {y : Place × Parcel} (hy : y ∈ t.inFlight) :
    y ∈ s.inFlight ∨ e.emitted = some y := by
  cases hs with
  | constructBroker | constructWorker | sendRequest =>
    rcases List.mem_append.mp hy with hy | hy
    · exact .inl hy
    · rw [List.mem_singleton.mp hy]
      exact .inr rfl
  | statePuller => exact .inl hy
  | handle src got ready run =>
    rcases List.mem_append.mp hy with hy | hy
    · exact .inl (mem_of_mem_rest got hy)
    · exact .inr (Option.mem_toList.mp hy)

theorem Known.step (h : Known T add s) (hs : Step T add s e t) : Known T add t := by
  obtain ⟨legs, tracks⟩ := h.1
  obtain ⟨legs', tracks', _⟩ := tracks.step hs
  refine ⟨⟨legs', tracks'⟩, fun p x r hx own => ?_⟩
  rcases mem_of_step hs hx with hold | sent
  · exact h.2 p x r hold own
  · exact (wired_of_step h hs sent own).stamped

theorem sent_before (run : Run (Step T add) System.init es s) :
    ∀ y ∈ s.inFlight, ∃ e ∈ es, e.emitted = some y := by
  have hinit : ∀ y ∈ System.init.inFlight, ∃ e ∈ ([] : List Event), e.emitted = some y :=
    fun _ hy => nomatch hy
  have h := run.history_invariant
    (I := fun past s => ∀ y ∈ s.inFlight, ∃ e ∈ past, e.emitted = some y) ?_ hinit
  · rwa [List.nil_append] at h
  · intro past s e t ih hs y hy
    rcases mem_of_step hs hy with hold | sent
    · obtain ⟨e', he', hsent⟩ := ih y hold
      exact ⟨e', List.mem_append_left _ he', hsent⟩
    · exact ⟨e, List.mem_append_right _ (List.mem_singleton_self e), sent⟩

theorem mem_of_consumed (hs : Step T add s e t) (took : e.consumed = some (p, x)) :
    (p, x) ∈ s.inFlight := by
  cases hs with
  | constructBroker | constructWorker | sendRequest | statePuller => cases took
  | handle src got ready run =>
    cases took
    exact receive_mem got

theorem dispatch_of_received (run : Run (Step T add) System.init es s)
    (received : Received es c w x) : ∃ r, x.origin = some r ∧ x.message.payloadMsg = r.task.image ∧
      ∃ e ∈ es, e.emitted = some (.brokerToWorker c w, x) := by
  obtain ⟨e, he, _, took⟩ := received
  obtain ⟨past, u, v, hpast, hs, before⟩ := run.exists_past_of_mem he
  obtain ⟨legs, tracks⟩ := tracks_of_run hpast
  have hx := mem_of_consumed hs took
  obtain ⟨e', he', sent⟩ := sent_before hpast _ hx
  rcases tracks.mem_cases hx with ⟨_, alive⟩ | ⟨r, l, own, _, hplace, on⟩
  · cases alive
  · have hpayload := on.payload
    cases l <;> cases hplace
    exact ⟨r, own, hpayload, e', before.subset (List.mem_append_left _ he'), sent⟩

/-- Every task that a worker receives has the header of its request, with its cluster stamped, and
names the worker exactly when `routeLocalRequest` has sent it. -/
theorem addressed_iff_home (run : Run (Step T add) System.init es s)
    (received : Received es c w x) :
    ∃ r, x.origin = some r ∧ x.message.payloadMsg = r.task.image ∧
      (∃ toID, Carries x.message.metaMsg (dispatchedHeader r c toID)) ∧
      (Carries x.message.metaMsg (dispatchedHeader r c w) ↔
        w = .empty ∨ DispatchedHome es c w x) := by
  obtain ⟨r, own, payload, e, he, sent⟩ := dispatch_of_received run received
  have hwired : ∀ e ∈ es, e.emitted = some (.brokerToWorker c w, x) →
      Wired r e.action (.brokerToWorker c w) x.message := by
    intro e he sent
    obtain ⟨u, v, known, hs⟩ :=
      run.exists_step_of_mem (fun _ _ _ h hs => Known.step h hs) (known_init T add) he
    exact wired_of_step known hs sent own
  refine ⟨r, own, payload, ?_⟩
  rcases (hwired e he sent).dispatch c w rfl with ⟨home, shown⟩ | ⟨_, shown⟩
  · exact ⟨⟨w, shown⟩, iff_of_true shown (.inr ⟨e, he, sent, home⟩)⟩
  · rw [← dispatchedHeader_empty] at shown
    refine ⟨⟨.empty, shown⟩, fun addressed => .inl ?_, ?_⟩
    · have hid := addr_unique addressed shown .toID
      rwa [dispatchedHeader, dispatchedHeader, Header.setAddr_addr_self,
        Header.setAddr_addr_self] at hid
    · rintro (rfl | ⟨e', he', sent', home⟩)
      · exact shown
      · rcases (hwired e' he' sent').dispatch c w rfl with ⟨_, shown'⟩ | ⟨cloud, _⟩
        · exact shown'
        · obtain ⟨i, hi⟩ := home
          rw [cloud] at hi
          cases hi

section Runs

theorem step_only (add : Double → Double → Double) {a : Action}
    {out : Option (Place × Message)} (only : s.inFlight = [(p, x)])
    (src : source a = some p) (ready : Ready s a)
    (run : react T add s x.message a = .ok (t, out)) :
    Step T add s ⟨a, some (p, x), out.map (fun q => (q.1, ⟨q.2, x.origin⟩))⟩
      (t.deliver [] (out.map (fun q => (q.1, ⟨q.2, x.origin⟩)))) :=
  .handle src (by rw [only]; simp [receive]) ready run

theorem passes_only (add : Double → Double → Double) {a : Action} {q : Place} {m : Message}
    (only : s.inFlight = [(p, x)]) (src : source a = some p) (ready : Ready s a)
    (run : react T add s x.message a = .ok (t, some (q, m))) :
    ∃ e u, Step T add s e u ∧ e.action = a ∧ e.emitted = some (q, ⟨m, x.origin⟩) ∧
      u.inFlight = [(q, ⟨m, x.origin⟩)] ∧ u.broker = t.broker ∧ u.superBroker = t.superBroker :=
  ⟨_, _, step_only add only src ready run, rfl, rfl, rfl, rfl, rfl⟩

structure OneReady (c w : Name) (s : System) : Prop where
  idle : s.inFlight = []
  queue : (s.broker c).workReadyQueue = [w.bytes]
  name : (s.broker c).clusterName = c.bytes
  others : ∀ d, d ≠ c → s.broker d = .init d.bytes
  waiting : ∀ d i, (s.client d i).outstanding = none
  super : s.superBroker = SuperBroker.init

theorem exists_oneReady (add : Double → Double → Double) (hc : c ∈ T.names)
    (hw : w ∈ T.workers c) :
    ∃ es s, Run (Step T add) System.init es s ∧ OneReady c w s := by
  obtain ⟨metaMsg, halive, shown⟩ := Worker.aliveSignal_eq w
  have hconstruct : Step T add System.init _ _ :=
    .constructWorker hc hw (by simp [System.init]) halive
  have hrun := LocalBalanceBroker.routeLocalReply_alive (b := .init c.bytes)
    (m := ⟨metaMsg, [0]⟩) shown rfl
  have hsignal := step_only add (a := .routeLocalReply c w) (T := T) rfl rfl trivial
    (react_routeLocalReply (s := { System.init with constructed := [.workerToBroker c w] }.deliver
      System.init.inFlight (some (.workerToBroker c w, ⟨⟨metaMsg, [0]⟩, none⟩))) hrun)
  refine ⟨_, _, .cons hconstruct (.single hsignal), rfl, ?_, ?_, ?_, fun _ _ => rfl,
    rfl⟩
  · simp [System.deliver, System.setBroker, LocalBalanceBroker.push, LocalBalanceBroker.init,
      Header.setAddr_addr_self]
  · simp [System.deliver, System.setBroker, LocalBalanceBroker.init]
  · intro d hd
    simp [System.deliver, System.setBroker, hd, System.init]

theorem receives_only (add : Double → Double → Double)
    (only : s.inFlight = [(.brokerToWorker c w, x)]) :
    ∃ e t, Step T add s e t ∧ Received [e] c w x := by
  have hidle : queueAt (.held c w) s.inFlight = [] := by
    rw [only]
    simp [queueAt]
  exact ⟨_, _, step_only add only (a := .receiveTask c w) rfl hidle rfl, _,
    List.mem_singleton_self _, rfl, rfl⟩

theorem Received.append {later : List Event} (h : Received later c w x) (past : List Event) :
    Received (past ++ later) c w x := by
  obtain ⟨e, he, action, took⟩ := h
  exact ⟨e, List.mem_append_right _ he, action, took⟩

theorem sends_only (add : Double → Double → Double) (idle : s.inFlight = []) (hc : c ∈ T.names)
    {i : Name} (hi : i ∈ T.clients c) (waiting : (s.client c i).outstanding = none) :
    ∃ e t m r, Step T add s e t ∧ t.inFlight = [(.clientToBroker c i, ⟨m, some r⟩)] ∧
      Carries m.metaMsg (Header.submitted i r.taskID) ∧ r.cluster = c ∧ r.client = i ∧
      t.broker = s.broker ∧ t.superBroker = s.superBroker := by
  obtain ⟨metaMsg, hrequest, shown⟩ := Client.request_eq i 7 TaskRequest.init
  refine ⟨_, _, ⟨metaMsg, TaskRequest.init.image⟩, s.nextRequest c i 7 TaskRequest.init,
    .sendRequest hc hi waiting hrequest, ?_, shown, rfl, rfl, rfl, rfl⟩
  rw [idle]
  rfl

theorem exists_home_run (add : Double → Double → Double) (hc : c ∈ T.names) {i : Name}
    (hi : i ∈ T.clients c) (hw : w ∈ T.workers c) :
    ∃ es s x, Run (Step T add) System.init es s ∧ Received es c w x ∧ DispatchedHome es c w x := by
  obtain ⟨past, s, hpast, h⟩ := exists_oneReady add hc hw
  obtain ⟨e1, s1, m, r, hsend, only, shown, _, _, hbroker, _⟩ :=
    sends_only add h.idle hc hi (h.waiting c i)
  obtain ⟨metaMsg, _, hrun⟩ :=
    (LocalBalanceBroker.routeLocalRequest_eq h.name shown).2 w [] h.queue
  rw [← hbroker] at hrun
  have hreact : react T add s1 m (.routeLocalRequest c i) = _ := react_routeLocalRequest hrun
  rw [Option.bind_some, placeOf_backEnd T hw] at hreact
  obtain ⟨e2, s2, hdispatch, action, sent, only', _, _⟩ :=
    passes_only add (a := .routeLocalRequest c i) only rfl trivial hreact
  obtain ⟨e3, s3, hreceive, received⟩ := receives_only (T := T) add only'
  have hrunAll := hpast.append (.cons hsend (.cons hdispatch (.single hreceive)))
  exact ⟨_, s3, _, hrunAll, (received.append [e1, e2]).append past, e2, by simp, sent, i, action⟩

theorem selectCluster_one_report {info : ClusterStateInfo} {count : UInt32}
    (reported : ClusterStateInfo.readyWorkerCount info = count) (positive : 0 < count.toNat) :
    SuperBroker.selectCluster ⟨SuperBroker.init.clusterInfoMap.insert c.bytes info⟩ =
      (c.bytes, count.toNat) := by
  have hcount := fun name => SuperBroker.reportedCount_insert SuperBroker.init c.bytes name info
  rcases SuperBroker.selectCluster_cases
      ⟨SuperBroker.init.clusterInfoMap.insert c.bytes info⟩ with
    ⟨_, hzero⟩ | ⟨name, info', _, hreported, _, hsel⟩
  · have hnone := hzero c.bytes count.toNat (by rw [hcount, if_pos rfl, reported])
    omega
  · rw [hcount] at hreported
    split at hreported
    · rename_i here
      rw [hsel, ← here, ← Option.some.inj hreported, reported]
    · simp at hreported

/-- A client's request is taken by a worker of another cluster, to which the super broker has
assigned it. -/
theorem exists_cloud_run (add : Double → Double → Double) (hc : c ∈ T.names)
    (hw : w ∈ T.workers c) {d i : Name} (hd : d ∈ T.names) (other : d ≠ c) (hi : i ∈ T.clients d) :
    ∃ es s x r, Run (Step T add) System.init es s ∧ Received es c w x ∧ x.origin = some r ∧
      Carries x.message.metaMsg (assignedHeader r c) := by
  obtain ⟨past, s, hpast, h⟩ := exists_oneReady add hc hw
  obtain ⟨msg, info, hreport, hpull, hinfo⟩ := s.superBroker.statePuller_stateReport c 1
  have hreported : Step T add s _ _ := .statePuller hc hreport hpull
  obtain ⟨e1, s1, m, r, hsend, only, shown, hcluster, hclient, hbroker, hsuper⟩ :=
    sends_only add (s := { s with
      superBroker := ⟨s.superBroker.clusterInfoMap.insert c.bytes info⟩ })
      h.idle hd hi (h.waiting d i)
  -- the broker of `d` has no worker
  obtain ⟨metaMsg1, shown1, hrun1⟩ :=
    (LocalBalanceBroker.routeLocalRequest_eq (b := .init d.bytes) (c := d) rfl shown).1 rfl
  rw [← h.others d other] at hrun1
  obtain ⟨e2, s2, hoffer, _, _, only2, hbroker2, hsuper2⟩ := passes_only
    add (a := .routeLocalRequest d i) (T := T) only rfl trivial
    (react_routeLocalRequest (by rw [hbroker]; exact hrun1))
  have hsel : s2.superBroker.selectCluster = (c.bytes, UInt32.toNat 1) := by
    rw [hsuper2.trans hsuper, h.super]
    exact selectCluster_one_report hinfo (by decide)
  have hfrom : ((((Header.submitted i r.taskID).setAddr .fromClusterID d).addr .fromID).bytes) ≠
      [] := by
    rw [Header.setAddr_addr_of_ne _ _ (by decide), Header.submitted, Header.setAddr_addr_self]
    exact T.clients_ne d hd i hi
  obtain ⟨metaMsg2, shown2, hrun2⟩ := (SuperBroker.taskRouter_submit (s := s2.superBroker)
    (m := ⟨metaMsg1, m.payloadMsg⟩) shown1 rfl rfl hfrom
    (by rw [Header.setAddr_addr_self]; exact T.names_ne d hd)).1 c (T.names_ne c hc) _ (by decide)
    hsel
  obtain ⟨e3, s3, hassign, _, _, only3, hbroker3, _⟩ := passes_only
    add (a := .taskRouter d) (T := T) only2 rfl trivial (react_taskRouter hc hrun2)
  have hkept : (s1.setBroker d (s.broker d)).broker c = s1.broker c :=
    Function.update_of_ne (Ne.symm other) _ _
  have hsame : s3.broker c = s.broker c := by
    rw [hbroker3, hbroker2, hkept, hbroker]
  have hqueue : (s3.broker c).workReadyQueue = [w.bytes] := by
    rw [hsame]
    exact h.queue
  have hrun3 := LocalBalanceBroker.routeCloud_dispatch (m := ⟨metaMsg2, m.payloadMsg⟩)
    (by rw [hsame]; exact h.name) shown2 rfl hqueue
    (by simp [LocalBalanceBroker.storeCount, hqueue])
  have hreact3 : react T add s3 _ (.routeCloud c) = _ := react_routeCloud hrun3
  rw [Option.bind_some, placeOf_backEnd T hw] at hreact3
  obtain ⟨e4, s4, hdispatch, _, _, only4, _, _⟩ :=
    passes_only add (a := .routeCloud c) only3 rfl trivial hreact3
  obtain ⟨e5, s5, hreceive, received⟩ := receives_only (T := T) add only4
  have hrunAll := hpast.append (.cons hreported (.cons hsend (.cons hoffer
    (.cons hassign (.cons hdispatch (.single hreceive))))))
  refine ⟨_, s5, _, r, hrunAll, (received.append [_, e1, e2, e3, e4]).append past, rfl, ?_⟩
  rw [assignedHeader, offeredHeader, hclient, hcluster]
  exact shown2

end Runs

theorem addressed_iff_home_one_cluster : ∃ es s c w x r,
    Run (Step oneCluster (· + ·)) System.init es s ∧ Received es c w x ∧ x.origin = some r ∧
      Carries x.message.metaMsg (dispatchedHeader r c w) := by
  obtain ⟨es, s, x, run, received, home⟩ :=
    exists_home_run (T := oneCluster) (· + ·) List.mem_cons_self List.mem_cons_self
      List.mem_cons_self
  obtain ⟨r, own, _, _, addressed⟩ := addressed_iff_home run received
  exact ⟨es, s, _, _, x, r, run, received, own, addressed.mpr (.inr home)⟩

def twoClusters : Topology where
  names := [⟨[65], by decide, by decide⟩, ⟨[66], by decide, by decide⟩]
  clients := oneCluster.clients
  workers := oneCluster.workers
  names_ne := by simp
  clients_ne := by simp [oneCluster]
  workers_nodup := oneCluster.workers_nodup
  workers_few := oneCluster.workers_few

/-- A worker of cluster A receives a request of cluster B without its id in it. -/
theorem cloud_task_without_worker : ¬ ∀ es s, Run (Step twoClusters (· + ·)) System.init es s →
    ∀ c w x, Received es c w x → ∃ r, x.origin = some r ∧
      Carries x.message.metaMsg (dispatchedHeader r c w) := by
  intro addressed
  obtain ⟨es, s, x, r, run, received, own, shown⟩ :=
    exists_cloud_run (T := twoClusters) (· + ·) (c := ⟨[65], by decide, by decide⟩)
      (d := ⟨[66], by decide, by decide⟩) (by simp [twoClusters]) List.mem_cons_self
      (by simp [twoClusters]) (by decide) List.mem_cons_self
  obtain ⟨r', _, shown'⟩ := addressed es s run _ _ x received
  rw [← dispatchedHeader_empty] at shown
  have hid := addr_unique shown shown' .toID
  rw [dispatchedHeader, dispatchedHeader, Header.setAddr_addr_self,
    Header.setAddr_addr_self] at hid
  revert hid
  decide

end SimTools.DataCenter.Dispatch
