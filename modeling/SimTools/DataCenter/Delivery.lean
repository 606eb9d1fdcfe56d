/- Module: SimTools/DataCenter/Delivery
   digest: No request is lost, duplicated or misdelivered, and every answer is true. -/

import SimTools.DataCenter.Hops

set_option autoImplicit false
set_option relaxedAutoImplicit false

namespace SimTools.DataCenter.Delivery

open Lib.Memory
open Lib.Channels
open Lib.Runs
open ClusterCore
open TaskHeader
open ClusterBroker
open Network
open Itinerary
open Tracking
open Hops

variable {T : Topology} {add : Double → Double → Double} {s t : System} {e : Event}
  {r : Request} {l : Leg} {p : Place} {m : Message} {legs : Request → Option Leg}

/-- The cluster and the client that a message belongs to, as its header names them: by the `from`
buffers before the worker, by the `to` buffers behind the worker's broker. On the way from a
client only the channel knows the cluster. -/
def owner (m : Message) (p : Place) : Except MemError (Bytes × Bytes) := do
  let taskMeta ← TaskMeta.ofMsg m.metaMsg
  let fromClusterID ← TaskMeta.addr taskMeta .fromClusterID
  let fromID ← TaskMeta.addr taskMeta .fromID
  let toClusterID ← TaskMeta.addr taskMeta .toClusterID
  let toID ← TaskMeta.addr taskMeta .toID
  match p with
  | .clientToBroker c _ => pure (c.bytes, fromID)
  | .brokerToWorker _ _ | .held _ _ => pure (fromClusterID, fromID)
  | .workerToBroker _ _ => pure (fromClusterID, toID)
  | .brokerToSuper _ | .superToBroker _ =>
    if TaskMeta.taskDirection taskMeta = TaskDirection.taskSubmit.code then
      pure (fromClusterID, fromID)
    else pure (toClusterID, toID)
  | .brokerToClient _ _ => pure (toClusterID, toID)

def owned (s : System) (c i : Name) : Pool Place Parcel :=
  s.inFlight.filter (fun x => decide (owner x.2.message x.1 = .ok (c.bytes, i.bytes)))

/-- The books of the data center balance in state `s`. -/
structure Delivered (T : Topology) (add : Double → Double → Double) (s : System) : Prop where
  /-- A waiting client has one message, which stems from its call and has the task ID of it. -/
  waiting : ∀ c ∈ T.names, ∀ i ∈ T.clients c, ∀ r, (s.client c i).outstanding = some r →
    ∃ p x taskMeta, owned s c i = [(p, x)] ∧ x.origin = some r ∧
      TaskMeta.ofMsg x.message.metaMsg = .ok taskMeta ∧ TaskMeta.taskID taskMeta = r.taskID
  /-- A client that does not wait has none. -/
  idle : ∀ c ∈ T.names, ∀ i ∈ T.clients c, (s.client c i).outstanding = none → owned s c i = []
  /-- What reaches a client belongs to it, and it waits for it. -/
  addressed : ∀ c i x, (.brokerToClient c i, x) ∈ s.inFlight →
    owner x.message (.brokerToClient c i) = .ok (c.bytes, i.bytes) ∧
      ∃ r, (s.client c i).outstanding = some r ∧ x.origin = some r
  /-- Every message is an alive signal or belongs to a client of the data center. -/
  accounted : ∀ p x, (p, x) ∈ s.inFlight → Announcement T p x.message ∨
    ∃ c ∈ T.names, ∃ i ∈ T.clients c, owner x.message p = .ok (c.bytes, i.bytes)
  /-- No handler fails on what it reads. -/
  faultless : ∀ a p x, source a = some p → (p, x) ∈ s.inFlight →
    ∃ t out, react T add s x.message a = .ok (t, out)

theorem owner_onLeg (on : OnLeg T add r l p m) :
    owner m p = .ok (r.cluster.bytes, r.client.bytes) := by
  obtain ⟨h, ⟨tm, hm, rep⟩, _, _, shows⟩ := on.header
  have hplace := on.place
  subst hplace
  cases l with
  | submitted =>
    simp only [owner, hm, ofMsg_image, rep.addr_eq, bind, Except.bind, Leg.place, shows.2, pure,
      Except.pure]
  | offered | assigned c | dispatched c w | executing c w =>
    simp only [owner, hm, ofMsg_image, rep.addr_eq, bind, Except.bind, Leg.place, rep.taskDirection,
      shows.1, shows.2.1, shows.2.2, ↓reduceIte, pure, Except.pure]
  | executed c w =>
    simp only [owner, hm, ofMsg_image, rep.addr_eq, bind, Except.bind, Leg.place, shows.2.1,
      shows.2.2.1, pure, Except.pure]
  | returning c outcome | returned outcome | answered outcome =>
    have hanswer := shows.1.ne_submit
    simp only [owner, hm, ofMsg_image, rep.addr_eq, bind, Except.bind, Leg.place, rep.taskDirection,
      code_submit_iff, hanswer, shows.2.1, shows.2.2, ↓reduceIte, pure, Except.pure]

theorem owner_announcement (alive : Announcement T p m) : ∃ c, owner m p = .ok (c, []) := by
  cases alive with
  | @worker c w _ h hw shown htype hfrom hto =>
    obtain ⟨tm, hm, rep⟩ := shown
    refine ⟨(h.addr .fromClusterID).bytes, ?_⟩
    simp only [owner, hm, ofMsg_image, rep.addr_eq, bind, Except.bind, hto, pure, Except.pure]
    rfl
  | @broker c _ h shown htype hdir hfrom =>
    obtain ⟨tm, hm, rep⟩ := shown
    refine ⟨(h.addr .fromClusterID).bytes, ?_⟩
    simp only [owner, hm, ofMsg_image, rep.addr_eq, bind, Except.bind, hfrom,
      rep.taskDirection, hdir, ↓reduceIte, pure, Except.pure]
    rfl

theorem owner_iff (h : Tracks T add s legs) {c i : Name} (hi : i.bytes ≠ []) {x : Parcel}
    (hx : (p, x) ∈ s.inFlight) : owner x.message p = .ok (c.bytes, i.bytes) ↔
      ∃ r, (s.client c i).outstanding = some r ∧ x.origin = some r := by
  rcases h.mem_cases hx with ⟨ho, alive⟩ | ⟨r, l, ho, hl, rfl, on⟩
  · obtain ⟨d, howner⟩ := owner_announcement alive
    rw [howner, ho]
    simp [Ne.symm hi]
  · have hwait := (h.waiting r).mpr (by simp [hl])
    rw [owner_onLeg on, ho]
    constructor
    · intro heq
      obtain ⟨hc, hi⟩ := Prod.mk.inj (Except.ok.inj heq)
      rw [← Name.bytes_injective hc, ← Name.bytes_injective hi]
      exact ⟨r, hwait, rfl⟩
    · rintro ⟨r', hout, heq⟩
      cases heq
      obtain ⟨rfl, rfl, _⟩ := h.counted c i r hout
      rfl

theorem owned_waiting (h : Tracks T add s legs) {c i : Name} (hi : i.bytes ≠ [])
    (hout : (s.client c i).outstanding = some r) : owned s c i = carriers s r := by
  apply List.filter_congr
  rintro ⟨p, x⟩ hx
  rw [decide_eq_decide, owner_iff h hi hx, hout]
  simp

theorem owned_idle (h : Tracks T add s legs) {c i : Name} (hi : i.bytes ≠ [])
    (hout : (s.client c i).outstanding = none) : owned s c i = [] := by
  rw [owned, List.filter_eq_nil_iff]
  rintro ⟨p, x⟩ hx
  rw [decide_eq_true_iff, owner_iff h hi hx, hout]
  simp

/-- In every reachable state each waiting client has exactly one message or held task in the data
center, which is its own, and no other client has one. -/
theorem delivered_of_run {es : List Event} (run : Run (Step T add) System.init es s) :
    Delivered T add s := by
  obtain ⟨legs, h⟩ := tracks_of_run run
  refine ⟨?_, ?_, ?_, ?_, ?_⟩
  · intro c hc i hi r hout
    obtain ⟨l, hl⟩ : ∃ l, legs r = some l := by
      obtain ⟨hcluster, hclient, _⟩ := h.counted c i r hout
      refine Option.ne_none_iff_exists'.mp ((h.waiting r).mp ?_)
      rw [hcluster, hclient, hout]
    obtain ⟨m, honly, on⟩ := h.single r l hl
    obtain ⟨hd, ⟨tm, hm, rep⟩, _, id, _⟩ := on.header
    refine ⟨_, _, tm, (owned_waiting h (T.clients_ne c hc i hi) hout).trans honly, rfl, ?_,
      rep.taskID.trans id⟩
    rw [hm, ofMsg_image]
  · intro c hc i hi hout
    exact owned_idle h (T.clients_ne c hc i hi) hout
  · intro c i x hx
    rcases h.mem_cases hx with ⟨_, ⟨⟩⟩ | ⟨r, l, ho, hl, hp, on⟩
    have hwait := (h.waiting r).mpr (by simp [hl])
    obtain ⟨rfl, rfl⟩ : c = r.cluster ∧ i = r.client := by
      cases l <;> cases hp
      exact ⟨rfl, rfl⟩
    exact ⟨owner_onLeg on, r, hwait, ho⟩
  · intro p x hx
    rcases h.mem_cases hx with ⟨_, alive⟩ | ⟨r, l, _, _, _, on⟩
    · exact .inl alive
    · exact .inr ⟨r.cluster, on.cluster, r.client, on.client, owner_onLeg on⟩
  · intro a p x src hx
    exact react_ok h hx src

theorem delivered_of_first_send : ∃ es s, Run (Step oneCluster (· + ·)) System.init es s ∧
    (∃ c i r, (s.client c i).outstanding = some r) ∧ Delivered oneCluster (· + ·) s := by
  obtain ⟨e, s, hs, hout⟩ := exists_send oneCluster (· + ·) (s := System.init)
    List.mem_cons_self List.mem_cons_self rfl 7 TaskRequest.init
  exact ⟨[e], s, .single hs, ⟨_, _, _, hout⟩, delivered_of_run (.single hs)⟩

def startOf (r : Request) (e : Event) : Option (Name × Name) :=
  match e.action with
  | .receiveTask c w => if e.consumed.any (fun x => x.2.origin = some r) then some (c, w) else none
  | _ => none

def executionOf (r : Request) (e : Event) : Option (Name × Name) :=
  match e.action with
  | .finishTask c w => if e.consumed.any (fun x => x.2.origin = some r) then some (c, w) else none
  | _ => none

def starts (r : Request) (es : List Event) : List (Name × Name) := es.filterMap (startOf r)

def executions (r : Request) (es : List Event) : List (Name × Name) := es.filterMap (executionOf r)

structure Fits (r : Request) (past : List Event) (s : System) (leg : Option Leg) : Prop where
  onLeg : ∀ l, leg = some l → starts r past = l.startedBy.toList ∧
    executions r past = l.executedBy.toList
  unsent : (s.client r.cluster r.client).sent ≤ r.seq → starts r past = [] ∧ executions r past = []

private theorem filterMap_snoc {A B : Type} (f : A → Option B) (past : List A) (e : A) :
    (past ++ [e]).filterMap f = past.filterMap f ++ (f e).toList := by
  cases he : f e <;> simp [he]

theorem startOf_of_untouched (other : ∀ p x, e.consumed = some (p, x) → x.origin ≠ some r) :
    startOf r e = none ∧ executionOf r e = none := by
  have hnone : e.consumed.any (fun x => x.2.origin = some r) = false := by
    rw [Option.any_eq_false]
    intro x hx
    simpa using other x.1 x.2 hx
  constructor
  · rw [startOf]
    split <;> simp [hnone]
  · rw [executionOf]
    split <;> simp [hnone]

theorem recorded_next {k : Leg} (next : Next r l k) (src : source e.action = some (l.place r))
    (took : e.consumed = some (l.place r, ⟨m, some r⟩)) :
    k.startedBy.toList = l.startedBy.toList ++ (startOf r e).toList ∧
      k.executedBy.toList = l.executedBy.toList ++ (executionOf r e).toList := by
  obtain ⟨action, consumed, emitted⟩ := e
  subst took
  cases next <;> cases action <;> cases src <;>
    simp [startOf, executionOf, Leg.startedBy, Leg.executedBy]

theorem fits_step {legs' : Request → Option Leg} {past : List Event} (h : Tracks T add s legs)
    (h' : Tracks T add t legs') (hs : Step T add s e t) (hmove : Moves T add r e (legs r) (legs' r))
    (fits : Fits r past s (legs r)) : Fits r (past ++ [e]) t (legs' r) := by
  have hsent := sent_step hs r.cluster r.client
  have hopen : ∀ l, legs r = some l → (s.client r.cluster r.client).sent = r.seq + 1 := by
    intro l hl
    exact (h.counted _ _ r ((h.waiting r).mpr (by simp [hl]))).2.2.symm
  have hstarts : starts r (past ++ [e]) = starts r past ++ (startOf r e).toList :=
    filterMap_snoc _ _ _
  have hexecutions : executions r (past ++ [e]) = executions r past ++ (executionOf r e).toList :=
    filterMap_snoc _ _ _
  generalize hl : legs r = before, hk : legs' r = after at hmove fits
  cases hmove with
  | idle _ other =>
    obtain ⟨hstart, hexecution⟩ := startOf_of_untouched other
    rw [hstart, Option.toList_none, List.append_nil] at hstarts
    rw [hexecution, Option.toList_none, List.append_nil] at hexecutions
    refine ⟨?_, ?_⟩
    · rw [hstarts, hexecutions]
      exact fits.onLeg
    · intro hle
      rw [hstarts, hexecutions]
      exact fits.unsent (by omega)
  | opened send unread =>
    obtain ⟨hstart, hexecution⟩ := startOf_of_untouched (r := r) (e := e) (by simp [unread])
    have hseq := remaining_before h' hs send hk
    obtain ⟨hnostart, hnoexecution⟩ := fits.unsent hseq.le
    rw [hstart, hnostart] at hstarts
    rw [hexecution, hnoexecution] at hexecutions
    refine ⟨?_, fun _ => ⟨hstarts, hexecutions⟩⟩
    rintro l ⟨⟩
    exact ⟨hstarts, hexecutions⟩
  | @moved l k m m' next src took =>
    have hseq := hopen l hl
    obtain ⟨hfitstart, hfitexecution⟩ := fits.onLeg l rfl
    obtain ⟨hnextstart, hnextexecution⟩ := recorded_next next src took
    refine ⟨?_, fun hle => absurd hle (by omega)⟩
    rintro l' ⟨⟩
    rw [hstarts, hexecutions, hfitstart, hfitexecution]
    exact ⟨hnextstart.symm, hnextexecution.symm⟩
  | @closed outcome =>
    have hseq := hopen _ hl
    refine ⟨?_, fun hle => absurd hle (by omega)⟩
    rintro l' ⟨⟩

/-- In every run the events fit the legs that the requests are on. -/
theorem fits_of_run {es : List Event} (run : Run (Step T add) System.init es s) :
    ∃ legs, Tracks T add s legs ∧ ∀ r, Fits r es s (legs r) := by
  have hinit : ∃ legs, Tracks T add System.init legs ∧ ∀ r, Fits r [] System.init (legs r) := by
    refine ⟨_, tracks_init T add, fun r => ⟨?_, fun _ => ⟨rfl, rfl⟩⟩⟩
    rintro l ⟨⟩
  refine run.history_invariant (I := fun past s => ∃ legs, Tracks T add s legs ∧
    ∀ r, Fits r past s (legs r)) ?_ hinit
  rintro past s e t ⟨legs, h, fits⟩ hs
  obtain ⟨legs', h', moves⟩ := h.step hs
  exact ⟨legs', h', fun r => fits_step h h' hs (moves r) (fits r)⟩

theorem touches_of_work (work : startOf r e ≠ none ∨ executionOf r e ≠ none) :
    touches r e = true := by
  by_contra untouched
  rw [Bool.not_eq_true, touches, Bool.or_eq_false_iff] at untouched
  obtain ⟨hstart, hexecution⟩ := startOf_of_untouched (r := r) (e := e) (by
    intro p x hx
    simpa [hx] using untouched.1)
  simp [hstart, hexecution] at work

theorem no_work_when_done {es : List Event} (h : Tracks T add s legs) (done : remaining r s = 0)
    (run : Run (Step T add) s es t) : starts r es = [] ∧ executions r es = [] := by
  have hcount := (remaining_potential T add r).countP_add_le run ⟨legs, h⟩
  have huntouched : ∀ e ∈ es, ¬ touches r e = true := by
    rw [← List.countP_eq_zero]
    omega
  constructor
  · rw [starts, List.filterMap_eq_nil_iff]
    intro e he
    by_contra hwork
    exact huntouched e he (touches_of_work (.inl hwork))
  · rw [executions, List.filterMap_eq_nil_iff]
    intro e he
    by_contra hwork
    exact huntouched e he (touches_of_work (.inr hwork))

/-- What a client learns from the answer to `r`, with `past` before and any run after it. -/
structure Answered (T : Topology) (add : Double → Double → Double) (r : Request)
    (past : List Event) (taskMeta : TaskMeta) (reply : Option TaskReply) (t : System) : Prop where
  taskID : TaskMeta.taskID taskMeta = r.taskID
  addressee : TaskMeta.addr taskMeta .toClusterID = .ok r.cluster.bytes ∧
    TaskMeta.addr taskMeta .toID = .ok r.client.bytes
  /-- No worker takes the request up after its answer. -/
  finished : ∀ later u, Run (Step T add) t later u → starts r later = [] ∧ executions r later = []
  /-- It is the reply of the one worker that executed it, or a rejection and none did. -/
  outcome :
    (TaskMeta.taskDirection taskMeta = TaskDirection.taskReply.code ∧
      ∃ c w taskReply, starts r past = [(c, w)] ∧ executions r past = [(c, w)] ∧
        reply = some taskReply ∧ TaskReply.sum taskReply = (TaskRequest.arr r.task).foldl add 0 ∧
        TaskMeta.addr taskMeta .fromClusterID = .ok c.bytes ∧
        TaskMeta.addr taskMeta .fromID = .ok w.bytes) ∨
    (TaskMeta.taskDirection taskMeta = TaskDirection.taskReplyRejected.code ∧
      starts r past = [] ∧ executions r past = [] ∧ reply = none)

theorem receiveReply_cases (h : Tracks T add s legs) (hs : Step T add s e t) {c i : Name}
    (action : e.action = .receiveReply c i) :
    ∃ r outcome x, r.cluster = c ∧ r.client = i ∧ legs r = some (.answered outcome) ∧
      e.consumed = some (.brokerToClient c i, x) ∧ x.origin = some r ∧
      OnLeg T add r (.answered outcome) (.brokerToClient c i) x.message := by
  cases hs with
  | constructBroker | constructWorker | sendRequest | statePuller => cases action
  | @handle t a p x rest out src got ready run =>
    obtain rfl : a = .receiveReply c i := action
    cases src
    rcases h.mem_cases (receive_mem got) with ⟨_, ⟨⟩⟩ | ⟨r, l, ho, hl, hp, on⟩
    cases l <;> cases hp
    exact ⟨r, _, x, rfl, rfl, hl, rfl, ho, on⟩

theorem remaining_answered (h : Tracks T add s legs) (hs : Step T add s e t) {outcome : Outcome}
    (hl : legs r = some (.answered outcome)) (touched : touches r e = true) :
      remaining r t = 0 := by
  have hlt := (remaining_step h hs r).2 touched
  rw [remaining_open h hl, Leg.rank] at hlt
  omega

/-- Whatever a client receives is a true answer to its outstanding request. -/
theorem answers_truthful {es : List Event} (run : Run (Step T add) System.init es s)
    (hs : Step T add s e t) {c i : Name} (action : e.action = .receiveReply c i) :
    ∃ r x taskMeta reply, (s.client c i).outstanding = some r ∧ r.cluster = c ∧ r.client = i ∧
      e.consumed = some (.brokerToClient c i, x) ∧ Client.result x.message = .ok (taskMeta, reply) ∧
      Answered T add r es taskMeta reply t := by
  obtain ⟨legs, h, fits⟩ := fits_of_run run
  obtain ⟨legs', h', _⟩ := h.step hs
  obtain ⟨r, outcome, x, rfl, rfl, hl, took, own, on⟩ := receiveReply_cases h hs action
  obtain ⟨hd, shown, _, id, shows, to_client, to_cluster⟩ := on.header
  obtain ⟨taskMeta, rep, hresult⟩ := Client.result_eq shown on.payload
  have hdone : remaining r t = 0 := remaining_answered h hs hl (by simp [touches, took, own])
  obtain ⟨hstarts, hexecutions⟩ := (fits r).onLeg _ hl
  refine ⟨r, x, taskMeta, _, (h.waiting r).mpr (by simp [hl]), rfl, rfl, took, hresult,
    rep.taskID.trans id, ⟨?_, ?_⟩, fun later u hrun => no_work_when_done h' hdone hrun, ?_⟩
  · rw [rep.addr_eq, to_cluster]
  · rw [rep.addr_eq, to_client]
  · cases outcome with
    | some executor =>
      obtain ⟨c, w⟩ := executor
      obtain ⟨reply, from_cluster, from_worker⟩ := shows
      refine .inl ⟨by rw [rep.taskDirection, reply], c, w, _, hstarts, hexecutions, if_pos reply,
        ?_, ?_, ?_⟩
      · exact TaskReply.sum_ofSum _
      · rw [rep.addr_eq, from_cluster]
      · rw [rep.addr_eq, from_worker]
    | none =>
      have hrejected : hd.taskDirection = .taskReplyRejected := shows
      refine .inr ⟨by rw [rep.taskDirection, hrejected], hstarts, hexecutions, if_neg ?_⟩
      rw [hrejected]
      decide

theorem answers_truthful_first_answer :
    ∃ es s e t c i, Run (Step oneCluster (· + ·)) System.init es s ∧ Step oneCluster (· + ·) s e t ∧
      ∃ r x taskMeta reply, (s.client c i).outstanding = some r ∧ r.cluster = c ∧ r.client = i ∧
        e.consumed = some (.brokerToClient c i, x) ∧
          Client.result x.message = .ok (taskMeta, reply) ∧
        Answered oneCluster (· + ·) r es taskMeta reply t := by
  obtain ⟨e, s, hs, hout⟩ := exists_send oneCluster (· + ·) (s := System.init)
    List.mem_cons_self List.mem_cons_self rfl 7 TaskRequest.init
  obtain ⟨legs, h⟩ := tracks_of_run (.single hs)
  obtain ⟨es, u, f, v, hrun, hlast, action⟩ := exists_answer h
    ((h.waiting (System.init.nextRequest _ _ 7 TaskRequest.init)).mp hout)
  exact ⟨e :: es, u, f, v, _, _, .cons hs hrun, hlast,
    answers_truthful (.cons hs hrun) hlast action⟩

end SimTools.DataCenter.Delivery
