/- Module: SimTools/DataCenter/Itinerary
   digest: The legs of a request's way through the data center, and that each handler moves it one leg on. -/

import SimTools.DataCenter.Network

set_option autoImplicit false
set_option relaxedAutoImplicit false

namespace SimTools.DataCenter.Itinerary

open Lib.Memory
open Lib.Channels
open ClusterCore
open TaskHeader
open ClusterBroker
open Network

/-- The cluster and worker that executed a request, or `none` when it was rejected. -/
abbrev Outcome := Option (Name × Name)

/-- What an answer says about its outcome. -/
def Outcome.Shows (h : Header) : Outcome → Prop
  | some (c, w) =>
    h.taskDirection = .taskReply ∧ h.addr .fromClusterID = c ∧ h.addr .fromID = w
  | none => h.taskDirection = .taskReplyRejected

def Outcome.sum (add : Double → Double → Double) (r : Request) : Outcome → Double
  | some _ => Worker.sumOf add r.task
  | none => 0

/-- Where a request or its answer can be. -/
inductive Leg
  | submitted
  | offered
  | assigned (c : Name)
  | dispatched (c w : Name)
  | executing (c w : Name)
  | executed (c w : Name)
  | returning (c : Name) (outcome : Outcome)
  | returned (outcome : Outcome)
  | answered (outcome : Outcome)

namespace Leg

def place (r : Request) : Leg → Place
  | .submitted => .clientToBroker r.cluster r.client
  | .offered => .brokerToSuper r.cluster
  | .assigned c => .superToBroker c
  | .dispatched c w => .brokerToWorker c w
  | .executing c w => .held c w
  | .executed c w => .workerToBroker c w
  | .returning c _ => .brokerToSuper c
  | .returned _ => .superToBroker r.cluster
  | .answered _ => .brokerToClient r.cluster r.client

/-- The parts of the header that a leg relies on. The owner is named by the `from` buffers
before the worker and by the `to` buffers after it. -/
def Shows (r : Request) (h : Header) : Leg → Prop
  | .submitted => h.taskDirection = .taskSubmit ∧ h.addr .fromID = r.client
  | .offered | .assigned _ | .dispatched _ _ | .executing _ _ =>
    h.taskDirection = .taskSubmit ∧ h.addr .fromID = r.client ∧ h.addr .fromClusterID = r.cluster
  | .executed _ w =>
    h.taskDirection = .taskReply ∧ h.addr .toID = r.client ∧ h.addr .fromClusterID = r.cluster ∧
      h.addr .fromID = w
  | .returning _ outcome | .returned outcome | .answered outcome =>
    outcome.Shows h ∧ h.addr .toID = r.client ∧ h.addr .toClusterID = r.cluster

def payload (add : Double → Double → Double) (r : Request) : Leg → Bytes
  | .submitted | .offered | .assigned _ | .dispatched _ _ | .executing _ _ => r.task.image
  | .executed _ _ => (TaskReply.ofSum (Worker.sumOf add r.task)).image
  | .returning _ outcome | .returned outcome | .answered outcome =>
    (TaskReply.ofSum (outcome.sum add r)).image

def Within (T : Topology) : Leg → Prop
  | .assigned c => c ∈ T.names
  | .dispatched c w | .executing c w | .executed c w => c ∈ T.names ∧ w ∈ T.workers c
  | .submitted | .offered | .returning _ _ | .returned _ | .answered _ => True

/-- The number of handlers that are still to come at most. -/
def rank : Leg → Nat
  | .submitted => 9
  | .offered => 8
  | .assigned _ => 7
  | .dispatched _ _ => 6
  | .executing _ _ => 5
  | .executed _ _ => 4
  | .returning _ _ => 3
  | .returned _ => 2
  | .answered _ => 1

def startedBy : Leg → Outcome
  | .executing c w | .executed c w => some (c, w)
  | .returning _ outcome | .returned outcome | .answered outcome => outcome
  | .submitted | .offered | .assigned _ | .dispatched _ _ => none

def executedBy : Leg → Outcome
  | .executed c w => some (c, w)
  | .returning _ outcome | .returned outcome | .answered outcome => outcome
  | .submitted | .offered | .assigned _ | .dispatched _ _ | .executing _ _ => none

end Leg

inductive Next (r : Request) : Leg → Leg → Prop
  | dispatchHome (w : Name) : Next r .submitted (.dispatched r.cluster w)
  | offer : Next r .submitted .offered
  | assign (c : Name) : Next r .offered (.assigned c)
  | refuse : Next r .offered (.returned none)
  | dispatch (c w : Name) : Next r (.assigned c) (.dispatched c w)
  | bounce (c : Name) : Next r (.assigned c) (.returning c none)
  | take (c w : Name) : Next r (.dispatched c w) (.executing c w)
  | finish (c w : Name) : Next r (.executing c w) (.executed c w)
  | answerHome (w : Name) : Next r (.executed r.cluster w) (.answered (some (r.cluster, w)))
  | sendBack (c w : Name) : Next r (.executed c w) (.returning c (some (c, w)))
  | passBack (c : Name) (outcome : Outcome) : Next r (.returning c outcome) (.returned outcome)
  | answer (outcome : Outcome) : Next r (.returned outcome) (.answered outcome)

theorem Next.rank_lt {r : Request} {l k : Leg} (h : Next r l k) : k.rank < l.rank := by
  cases h <;> simp [Leg.rank]

/-- A message is on leg `l` of the way of `r`, with the header and the payload of that leg. -/
structure OnLeg (T : Topology) (add : Double → Double → Double) (r : Request) (l : Leg)
    (p : Place) (m : Message) : Prop where
  cluster : r.cluster ∈ T.names
  client : r.client ∈ T.clients r.cluster
  within : l.Within T
  place : p = l.place r
  header : ∃ h, Carries m.metaMsg h ∧ h.taskType = .normalTask ∧ h.taskID = r.taskID ∧ l.Shows r h
  payload : m.payloadMsg = l.payload add r

/-- A broker has its name, and its ready queue holds names of its own workers. -/
structure Staffed (T : Topology) (c : Name) (b : LocalBalanceBroker) : Prop where
  name : b.clusterName = c.bytes
  ready : ∀ id ∈ b.workReadyQueue, ∃ w ∈ T.workers c, id = w.bytes

namespace Staffed

variable {T : Topology} {c : Name} {b : LocalBalanceBroker}

theorem init (T : Topology) (c : Name) : Staffed T c (LocalBalanceBroker.init c.bytes) :=
  ⟨rfl, by simp [LocalBalanceBroker.init]⟩

theorem storeCount (h : Staffed T c b) : Staffed T c b.storeCount := ⟨h.name, h.ready⟩

theorem push (h : Staffed T c b) {w : Name} (hw : w ∈ T.workers c) :
    Staffed T c (b.push w.bytes) := by
  refine ⟨h.name, ?_⟩
  intro id hid
  rcases List.mem_append.mp hid with hid | hid
  · exact h.ready id hid
  · exact ⟨w, hw, List.mem_singleton.mp hid⟩

theorem pop (h : Staffed T c b) : Staffed T c b.pop :=
  ⟨h.name, fun id hid => h.ready id (List.mem_of_mem_tail hid)⟩

theorem queue_cases (h : Staffed T c b) :
    b.workReadyQueue = [] ∨ ∃ w ∈ T.workers c, ∃ ws, b.workReadyQueue = w.bytes :: ws := by
  cases hq : b.workReadyQueue with
  | nil => exact .inl rfl
  | cons id ws =>
    obtain ⟨w, hw, rfl⟩ := h.ready id (by simp [hq])
    exact .inr ⟨w, hw, ws, rfl⟩

end Staffed

section Handlers

variable {T : Topology} {add : Double → Double → Double} {r : Request} {c w : Name}
  {b : LocalBalanceBroker} {s : SuperBroker} {p : Place} {m : Message}

theorem OnLeg.of_request {taskID : UInt64} {task : TaskRequest} {seq : Nat} {i : Name}
    (hc : c ∈ T.names) (hi : i ∈ T.clients c) (sent : Client.request i.bytes taskID task = .ok m) :
    OnLeg T add ⟨c, i, seq, taskID, task⟩ .submitted (.clientToBroker c i) m := by
  obtain ⟨metaMsg, hreq, hcarries⟩ := Client.request_eq i taskID task
  rw [hreq] at sent
  cases sent
  exact ⟨hc, hi, trivial, rfl, ⟨_, hcarries, rfl, rfl, rfl, by simp [Header.submitted]⟩, rfl⟩

theorem routeLocalRequest_moves (staffed : Staffed T r.cluster b)
    (on : OnLeg T add r .submitted p m) :
    ∃ b' o k q m', b.routeLocalRequest m = .ok (b', some o) ∧ placeOf T r.cluster o = some (q, m') ∧
      Staffed T r.cluster b' ∧ Next r .submitted k ∧ OnLeg T add r k q m' := by
  obtain ⟨h, shown, normal, id, submit, from_client⟩ := on.header
  obtain ⟨offered, dispatched⟩ := LocalBalanceBroker.routeLocalRequest_eq staffed.name shown
  rcases staffed.queue_cases with empty | ⟨w, hw, ws, ready⟩
  · obtain ⟨metaMsg, hcarries, hrun⟩ := offered empty
    refine ⟨_, _, .offered, _, _, hrun, rfl, staffed, .offer, on.cluster, on.client, trivial, rfl,
      ⟨_, hcarries, normal, id, submit, ?_, ?_⟩, on.payload⟩
    · rw [Header.setAddr_addr_of_ne _ _ (by decide), from_client]
    · rw [Header.setAddr_addr_self]
  · obtain ⟨metaMsg, hcarries, hrun⟩ := dispatched w ws ready
    refine ⟨_, _, .dispatched r.cluster w, _, _, hrun, placeOf_backEnd T hw _,
      staffed.pop.storeCount, .dispatchHome w, on.cluster, on.client, ⟨on.cluster, hw⟩, rfl,
      ⟨_, hcarries, normal, id, submit, ?_, ?_⟩, on.payload⟩
    · rw [Header.setAddr_addr_of_ne _ _ (by decide), Header.setAddr_addr_of_ne _ _ (by decide),
        Header.setAddr_addr_of_ne _ _ (by decide), from_client]
    · rw [Header.setAddr_addr_of_ne _ _ (by decide), Header.setAddr_addr_of_ne _ _ (by decide),
        Header.setAddr_addr_self]

theorem process_moves (on : OnLeg T add r (.executing c w) p m) :
    ∃ m', Worker.process add w.bytes m = .ok m' ∧
      OnLeg T add r (.executed c w) (.workerToBroker c w) m' := by
  obtain ⟨h, shown, normal, id, submit, from_client, from_cluster⟩ := on.header
  obtain ⟨metaMsg, payloadMsg⟩ := m
  have hpayload : payloadMsg = r.task.image := on.payload
  subst hpayload
  obtain ⟨metaMsgReply, hrun, hcarries⟩ := Worker.process_eq add w shown r.task
  refine ⟨_, hrun, on.cluster, on.client, on.within, rfl,
    ⟨_, hcarries, normal, id, rfl, ?_, ?_, ?_⟩, rfl⟩
  · rw [Header.setDirection_addr, Header.setAddr_addr_of_ne _ _ (by decide),
      Header.setAddr_addr_self, from_client]
  · rw [Header.setDirection_addr, Header.setAddr_addr_of_ne _ _ (by decide),
      Header.setAddr_addr_of_ne _ _ (by decide), from_cluster]
  · rw [Header.setDirection_addr, Header.setAddr_addr_self]

theorem routeLocalReply_moves (staffed : Staffed T c b) (on : OnLeg T add r (.executed c w) p m) :
    ∃ b' o k q m', b.routeLocalReply m = .ok (b', some o) ∧ placeOf T c o = some (q, m') ∧
      Staffed T c b' ∧ Next r (.executed c w) k ∧ OnLeg T add r k q m' := by
  obtain ⟨h, shown, normal, id, reply, to_client, from_cluster, from_worker⟩ := on.header
  obtain ⟨metaMsg, hcarries, hrun⟩ :=
    LocalBalanceBroker.routeLocalReply_normal staffed.name shown normal
  have hw : w ∈ T.workers c := on.within.2
  have hstaffed : Staffed T c (b.push (h.addr .fromID).bytes).storeCount := by
    rw [from_worker]
    exact (staffed.push hw).storeCount
  have hshows : (Leg.answered (some (c, w))).Shows r
      ((h.setAddr .toClusterID (h.addr .fromClusterID)).setAddr .fromClusterID c) := by
    refine ⟨⟨reply, ?_, ?_⟩, ?_, ?_⟩
    · rw [Header.setAddr_addr_self]
    · rw [Header.setAddr_addr_of_ne _ _ (by decide), Header.setAddr_addr_of_ne _ _ (by decide),
        from_worker]
    · rw [Header.setAddr_addr_of_ne _ _ (by decide), Header.setAddr_addr_of_ne _ _ (by decide),
        to_client]
    · rw [Header.setAddr_addr_of_ne _ _ (by decide), Header.setAddr_addr_self, from_cluster]
  rw [from_cluster, to_client] at hrun
  by_cases home : c = r.cluster
  · subst home
    rw [if_pos rfl] at hrun
    exact ⟨_, _, .answered (some (r.cluster, w)), _, _, hrun, placeOf_frontEnd T on.client _,
      hstaffed, .answerHome w, on.cluster, on.client, trivial, rfl,
      ⟨_, hcarries, normal, id, hshows⟩, on.payload⟩
  · rw [if_neg home] at hrun
    exact ⟨_, _, .returning c (some (c, w)), _, _, hrun, rfl, hstaffed, .sendBack c w, on.cluster,
      on.client, trivial, rfl, ⟨_, hcarries, normal, id, hshows⟩, on.payload⟩

theorem routeCloud_submit_moves (staffed : Staffed T c b) (on : OnLeg T add r (.assigned c) p m) :
    ∃ b' o k q m', b.routeCloud m = .ok (b', some o) ∧ placeOf T c o = some (q, m') ∧
      Staffed T c b' ∧ Next r (.assigned c) k ∧ OnLeg T add r k q m' := by
  obtain ⟨h, shown, normal, id, submit, from_client, from_cluster⟩ := on.header
  by_cases counted : b.storeCount.readyWorkerCount > 0
  · rcases staffed.queue_cases with empty | ⟨w, hw, ws, ready⟩
    · simp [LocalBalanceBroker.storeCount, empty] at counted
    · have hrun := LocalBalanceBroker.routeCloud_dispatch staffed.name shown submit ready counted
      exact ⟨_, _, .dispatched c w, _, _, hrun, placeOf_backEnd T hw _, staffed.pop.storeCount,
        .dispatch c w, on.cluster, on.client, ⟨on.within, hw⟩, rfl,
        ⟨h, shown, normal, id, submit, from_client, from_cluster⟩, on.payload⟩
  · obtain ⟨metaMsg, hcarries, hrun⟩ := LocalBalanceBroker.routeCloud_reject shown submit counted
    refine ⟨_, _, .returning c none, _, _, hrun, rfl, staffed.storeCount, .bounce c, on.cluster,
      on.client, trivial, rfl, ⟨_, hcarries, normal, id, rfl, ?_, ?_⟩, rfl⟩
    · rw [Header.rejected_toID, from_client]
    · rw [Header.rejected_toClusterID, from_cluster]

theorem Outcome.Shows.ne_submit {outcome : Outcome} {h : Header} (shows : outcome.Shows h) :
    h.taskDirection ≠ .taskSubmit := by
  cases outcome with
  | none => rw [show h.taskDirection = .taskReplyRejected from shows]; decide
  | some executor => rw [shows.1]; decide

theorem routeCloud_answer_moves {outcome : Outcome} (on : OnLeg T add r (.returned outcome) p m) :
    ∃ o, b.routeCloud m = .ok (b, some o) ∧
      placeOf T r.cluster o = some (.brokerToClient r.cluster r.client, m) ∧
      OnLeg T add r (.answered outcome) (.brokerToClient r.cluster r.client) m := by
  obtain ⟨h, shown, normal, id, shows, to_client, to_cluster⟩ := on.header
  refine ⟨_, LocalBalanceBroker.routeCloud_answer shown shows.ne_submit, ?_, on.cluster, on.client,
    trivial, rfl, ⟨h, shown, normal, id, shows, to_client, to_cluster⟩, on.payload⟩
  rw [to_client]
  exact placeOf_frontEnd T on.client m

/-- The super broker knows clusters of the data center only. -/
def Informed (T : Topology) (s : SuperBroker) : Prop :=
  ∀ name n, s.reportedCount name = some n → ∃ c ∈ T.names, name = c.bytes

theorem informed_init (T : Topology) : Informed T SuperBroker.init := by
  intro name n h
  simp at h

theorem Informed.statePuller (informed : Informed T s) (hc : c ∈ T.names) {count : UInt32}
    {msg : Bytes} {s' : SuperBroker} (reported : stateReport c.bytes count = .ok msg)
    (pulled : s.statePuller msg = .ok s') : Informed T s' := by
  obtain ⟨msg', info, hreport, hpull, _⟩ := SuperBroker.statePuller_stateReport s c count
  rw [reported] at hreport
  cases hreport
  rw [pulled] at hpull
  cases hpull
  intro name n h
  rw [SuperBroker.reportedCount_insert] at h
  split at h
  · rename_i here
    exact ⟨c, hc, here.symm⟩
  · exact informed name n h

theorem taskRouter_submit_moves (informed : Informed T s) (on : OnLeg T add r .offered p m) :
    ∃ d k m', s.taskRouter m = .ok (some (d.identity, m')) ∧ d ∈ T.names ∧
      Next r .offered k ∧ OnLeg T add r k (.superToBroker d) m' := by
  obtain ⟨h, shown, normal, id, submit, from_client, from_cluster⟩ := on.header
  have hclient : (h.addr .fromID).bytes ≠ [] := by
    rw [from_client]
    exact T.clients_ne _ on.cluster _ on.client
  have hcluster : (h.addr .fromClusterID).bytes ≠ [] := by
    rw [from_cluster]
    exact T.names_ne _ on.cluster
  obtain ⟨assigned, refused⟩ :=
    SuperBroker.taskRouter_submit (s := s) shown normal submit hclient hcluster
  rcases s.selectCluster_cases with ⟨hnone, _⟩ | ⟨name, info, _, hreported, hpos, hsel⟩
  · obtain ⟨metaMsg, hcarries, hrun⟩ := refused hnone
    rw [from_cluster] at hrun
    refine ⟨r.cluster, .returned none, _, hrun, on.cluster, .refuse, on.cluster, on.client,
      trivial, rfl, ⟨_, hcarries, normal, id, rfl, ?_, ?_⟩, rfl⟩
    · rw [Header.rejected_toID, from_client]
    · rw [Header.rejected_toClusterID, from_cluster]
  · obtain ⟨d, hd, rfl⟩ := informed name _ hreported
    obtain ⟨metaMsg, hcarries, hrun⟩ := assigned d (T.names_ne d hd) _ hpos.ne' hsel
    refine ⟨d, .assigned d, _, hrun, hd, .assign d, on.cluster, on.client, hd, rfl,
      ⟨_, hcarries, normal, id, submit, ?_, ?_⟩, on.payload⟩
    · rw [Header.setAddr_addr_of_ne _ _ (by decide), from_client]
    · rw [Header.setAddr_addr_of_ne _ _ (by decide), from_cluster]

theorem taskRouter_answer_moves {outcome : Outcome}
    (on : OnLeg T add r (.returning c outcome) p m) :
    ∃ m', s.taskRouter m = .ok (some (r.cluster.identity, m')) ∧
      OnLeg T add r (.returned outcome) (.superToBroker r.cluster) m' := by
  obtain ⟨h, shown, normal, id, shows, to_client, to_cluster⟩ := on.header
  obtain ⟨metaMsg, hcarries, hrun⟩ :=
    SuperBroker.taskRouter_answer (s := s) shown normal shows.ne_submit
  rw [to_cluster] at hrun
  exact ⟨_, hrun, on.cluster, on.client, trivial, rfl,
    ⟨h, hcarries, normal, id, shows, to_client, to_cluster⟩, on.payload⟩

end Handlers

end SimTools.DataCenter.Itinerary
