/- Module: SimTools/DataCenter/Capacity
   digest: A cluster with as many workers as the data center has clients serves its own clients. -/

import SimTools.DataCenter.Refusals

set_option autoImplicit false
set_option relaxedAutoImplicit false

namespace SimTools.DataCenter.Capacity

open Lib.Memory
open Lib.Channels
open Lib.Runs
open Lib.Tokens
open ClusterCore
open TaskHeader
open ClusterBroker
open Network
open Itinerary
open Tracking
open Turns (Backed)
open Workers (ledger)

def callers (T : Topology) : List (Name × Name) :=
  T.names.flatMap (fun c => (T.clients c).map (fun i => (c, i)))

def caller (r : Request) : Name × Name := (r.cluster, r.client)

/-- Every worker of `c` is constructed, and its broker has read the alive signals of all. -/
structure Complete (T : Topology) (c : Name) (s : System) : Prop where
  constructed : ∀ w ∈ T.workers c, .workerToBroker c w ∈ s.constructed
  heard : ∀ w x, (.workerToBroker c w, x) ∈ s.inFlight → x.origin ≠ none

/-- The legs of a request that does not leave its cluster. -/
def Local (r : Request) : Leg → Prop
  | .submitted => True
  | .offered | .assigned _ => False
  | .dispatched c _ | .executing c _ | .executed c _ => c = r.cluster
  | .returning _ outcome | .returned outcome | .answered outcome =>
    ∃ w, outcome = some (r.cluster, w)

variable {T : Topology} {add : Double → Double → Double} {s t u : System} {e : Event}
  {r r' : Request} {l k : Leg} {c d i w : Name} {p : Place} {x : Parcel} {m : Message}
  {legs legs' : Request → Option Leg}

theorem caller_mem (on : OnLeg T add r l p m) : caller r ∈ callers T :=
  List.mem_flatMap.mpr ⟨r.cluster, on.cluster, List.mem_map.mpr ⟨r.client, on.client, rfl⟩⟩

theorem request_unique (tracks : Tracks T add s legs) (hl : legs r = some l)
    (hk : legs r' = some k) (same : caller r = caller r') : r = r' := by
  have hr := (tracks.waiting r).mpr (by simp [hl])
  have hr' := (tracks.waiting r').mpr (by simp [hk])
  obtain ⟨hcluster, hclient⟩ := Prod.mk.inj same
  rw [hcluster, hclient, hr'] at hr
  exact (Option.some.inj hr).symm

section Complete

theorem react_constructed {a : Action} {out : Option (Place × Message)}
    (run : react T add s m a = .ok (t, out)) : t.constructed = s.constructed := by
  cases a with
  | receiveReply d i | finishTask d w | taskRouter d | routeLocalRequest d i | routeLocalReply d w
  | routeCloud d =>
    obtain ⟨v, -, run⟩ := bind_eq_ok run
    cases run
    rfl
  | receiveTask d w | constructBroker d | constructWorker d w | sendRequest d i | statePuller d =>
    cases run
    rfl

theorem finishTask_of_sent {a : Action} {y : Message}
    (run : react T add s m a = .ok (t, some (.workerToBroker c w, y))) : a = .finishTask c w := by
  cases a with
  | finishTask d v =>
    obtain ⟨m', -, run⟩ := bind_eq_ok run
    cases run
    rfl
  | receiveReply d i =>
    obtain ⟨v, -, run⟩ := bind_eq_ok run
    cases run
  | receiveTask d w | constructBroker d | constructWorker d w | sendRequest d i | statePuller d =>
    cases run
  | taskRouter d =>
    obtain ⟨sent, -, run⟩ := bind_eq_ok run
    obtain ⟨-, hplace⟩ := Prod.mk.inj (Except.ok.inj run)
    obtain ⟨q, -, placed⟩ := Option.bind_eq_some_iff.mp hplace
    obtain ⟨v, -, hv⟩ := Option.map_eq_some_iff.mp placed
    cases hv
  | routeLocalRequest d i | routeLocalReply d v | routeCloud d =>
    obtain ⟨⟨b, out⟩, -, run⟩ := bind_eq_ok run
    obtain ⟨-, hplace⟩ := Prod.mk.inj (Except.ok.inj run)
    obtain ⟨o, -, placed⟩ := Option.bind_eq_some_iff.mp hplace
    cases o with
    | cloudTask m => cases placed
    | frontEnd identity m | backEnd identity m =>
      obtain ⟨v, -, hv⟩ := Option.map_eq_some_iff.mp placed
      cases hv

theorem Complete.step (tracks : Tracks T add s legs) (h : Complete T c s) (hs : Step T add s e t) :
    Complete T c t := by
  cases hs with
  | constructBroker =>
    refine ⟨fun w hw => List.mem_cons_of_mem _ (h.constructed w hw), ?_⟩
    intro w x hx
    exact h.heard w x (by simpa [System.deliver] using hx)
  | @constructWorker d v m hd hv new =>
    have hother : d ≠ c := by
      rintro rfl
      exact new (h.constructed v hv)
    refine ⟨fun w hw => List.mem_cons_of_mem _ (h.constructed w hw), ?_⟩
    intro w x hx
    exact h.heard w x (by simpa [System.deliver, hother.symm] using hx)
  | sendRequest =>
    refine ⟨h.constructed, ?_⟩
    intro w x hx
    exact h.heard w x (by simpa [System.deliver, System.setClient] using hx)
  | statePuller => exact ⟨h.constructed, h.heard⟩
  | @handle t a p x rest out src got ready run =>
    refine ⟨?_, ?_⟩
    · intro w hw
      simpa [System.deliver, react_constructed run] using h.constructed w hw
    · intro w y hy
      rcases List.mem_append.mp hy with old | new
      · exact h.heard w y (mem_of_mem_rest got old)
      · obtain ⟨⟨q, m⟩, rfl, hsent⟩ := Option.map_eq_some_iff.mp (Option.mem_toList.mp new)
        cases hsent
        obtain rfl := finishTask_of_sent run
        cases src
        rcases tracks.mem_cases (receive_mem got) with ⟨-, ⟨⟩⟩ | ⟨r, l, hr, -⟩
        simp [hr]

end Complete

theorem exists_task (tracks : Tracks T add s legs) (backed : Backed T c s)
    (complete : Complete T c s) (empty : (s.broker c).workReadyQueue = []) (hw : w ∈ T.workers c) :
    ∃ r l, legs r = some l ∧ caller r ∈ callers T ∧ (ledger c).owns w (l.place r) = true := by
  obtain ⟨b, shows, accounted⟩ := backed
  have hconstructed := (shows.constructed w).mpr (complete.constructed w hw)
  have haway : (ledger c).name w ∉ b.broker.workReadyQueue := by
    rw [shows.broker, empty]
    exact List.not_mem_nil
  obtain ⟨p, m, hm, own⟩ := accounted.tokens.exists_message hconstructed haway
  have hcluster : Turns.clusterOf p = some c := by
    cases p <;> simp_all [Ledger.owns, ledger, Turns.clusterOf]
  obtain ⟨x, hx, -⟩ := shows.inFlight.exists_mem hm hcluster
  rcases tracks.mem_cases hx with ⟨ho, alive⟩ | ⟨r, l, ho, hl, rfl, on⟩
  · cases alive with
    | worker =>
      cases hcluster
      exact absurd ho (complete.heard _ _ hx)
    | broker => cases hcluster
  · exact ⟨r, l, hl, caller_mem on, own⟩

/-- With as many workers as there are clients one is left for the request that is read. -/
theorem exists_ready (tracks : Tracks T add s legs) (backed : Backed T c s)
    (complete : Complete T c s) (many : (callers T).length ≤ (T.workers c).length)
    (on : OnLeg T add r l p m) (hl : legs r = some l)
    (elsewhere : ∀ w, (ledger c).owns w (l.place r) = false) :
    (s.broker c).workReadyQueue ≠ [] := by
  intro empty
  have hheld : ∀ w ∈ T.workers c, ∃ k ∈ callers T, ∃ r l, legs r = some l ∧ caller r = k ∧
      (ledger c).owns w (l.place r) = true := by
    intro w hw
    obtain ⟨r, l, hl, hr, own⟩ := exists_task tracks backed complete empty hw
    exact ⟨caller r, hr, r, l, hl, rfl, own⟩
  refine absurd many (Nat.not_le.mpr (length_lt_of_held (T.workers_nodup c) hheld ?_
    (caller_mem on) ?_))
  · rintro _ v w ⟨r₁, l₁, hl₁, rfl, own⟩ ⟨r₂, l₂, hl₂, same, own'⟩
    obtain rfl := request_unique tracks hl₂ hl₁ same
    rw [hl₁] at hl₂
    cases hl₂
    exact (ledger c).owner_unique v w _ (of_decide_eq_true own) (of_decide_eq_true own')
  · rintro w ⟨r₂, l₂, hl₂, same, own⟩
    obtain rfl := request_unique tracks hl₂ hl same
    rw [hl] at hl₂
    cases hl₂
    rw [elsewhere w] at own
    cases own

theorem local_next (tracks : Tracks T add s legs) (backed : Backed T r.cluster s)
    (complete : Complete T r.cluster s)
    (many : (callers T).length ≤ (T.workers r.cluster).length) (hs : Step T add s e t)
    (moves : Moves T add r e (legs r) (legs' r)) (before : ∀ l, legs r = some l → Local r l) :
    ∀ l, legs' r = some l → Local r l := by
  generalize hl : legs r = old, hk : legs' r = new at moves before
  cases moves with
  | idle => exact before
  | opened =>
    rintro l ⟨⟩
    exact trivial
  | closed =>
    rintro l ⟨⟩
  | @moved l k m m' next src took on sent =>
    rintro k' ⟨⟩
    have hlocal := before l rfl
    cases next with
    | offer =>
      obtain ⟨v, run⟩ := Refusals.react_of_step hs took sent
      have haction : e.action = .routeLocalRequest r.cluster r.client :=
        Refusals.source_injective src rfl
      rw [haction] at run
      have hready := exists_ready tracks backed complete many on hl
        (fun w => by simp [Ledger.owns, ledger, Leg.place])
      exact hready (Refusals.none_ready_of_offer run)
    | dispatchHome => exact rfl
    | take | finish | passBack | answer => exact hlocal
    | answerHome w => exact ⟨w, rfl⟩
    | sendBack c w => exact ⟨w, by rw [show c = r.cluster from hlocal]⟩
    | assign | refuse | dispatch | bounce => cases hlocal

/-- The books of the data center while `c` is complete and no request of its client `i` has left
it. -/
structure Served (T : Topology) (add : Double → Double → Double) (c i : Name) (s : System)
    (legs : Request → Option Leg) : Prop where
  tracks : Tracks T add s legs
  backed : Backed T c s
  complete : Complete T c s
  home : ∀ r, caller r = (c, i) → ∀ l, legs r = some l → Local r l

theorem Served.step (many : (callers T).length ≤ (T.workers c).length)
    (h : Served T add c i s legs) (hs : Step T add s e t) : ∃ legs', Served T add c i t legs' := by
  obtain ⟨legs', tracks', moves⟩ := h.tracks.step hs
  refine ⟨legs', tracks', h.backed.step hs, h.complete.step h.tracks hs, ?_⟩
  rintro r hr
  obtain ⟨rfl, -⟩ := Prod.mk.inj hr
  exact local_next h.tracks h.backed h.complete many hs (moves r) (h.home r hr)

/-- Once a cluster that has at least as many workers as the data center has clients has heard of all
of them, each of its clients gets the results of the requests that it sends from then on, and gets
them from this cluster, whatever the other clusters and clients do. -/
theorem served_at_home {past later : List Event} (run : Run (Step T add) System.init past s)
    (complete : Complete T c s) (many : (callers T).length ≤ (T.workers c).length)
    (idle : (s.client c i).outstanding = none) (run' : Run (Step T add) s later t)
    (hs : Step T add t e u) (action : e.action = .receiveReply c i) :
    ∃ r x taskMeta taskReply, (t.client c i).outstanding = some r ∧
      e.consumed = some (.brokerToClient c i, x) ∧
      Client.result x.message = .ok (taskMeta, some taskReply) ∧
      TaskReply.sum taskReply = (TaskRequest.arr r.task).foldl add 0 ∧
      TaskMeta.addr taskMeta .fromClusterID = .ok c.bytes := by
  obtain ⟨legs, tracks⟩ := tracks_of_run run
  have hbacked : Backed T c s :=
    run.invariant (fun _ _ _ h hs => Backed.step h hs) (Turns.backed_init T c)
  have hstart : Served T add c i s legs := by
    refine ⟨tracks, hbacked, complete, ?_⟩
    intro r hr l hl
    obtain ⟨rfl, rfl⟩ := Prod.mk.inj hr
    rw [tracks.leg_none idle] at hl
    cases hl
  obtain ⟨legs', h⟩ := run'.invariant (I := fun s => ∃ legs, Served T add c i s legs)
    (fun _ _ _ ⟨_, h⟩ hs => h.step many hs) ⟨legs, hstart⟩
  obtain ⟨r, outcome, x, rfl, rfl, hl, took, own, on⟩ :=
    Delivery.receiveReply_cases h.tracks hs action
  obtain ⟨hd, shown, -, -, shows, -, -⟩ := on.header
  obtain ⟨w, rfl⟩ := h.home r rfl _ hl
  obtain ⟨reply, from_cluster, -⟩ := shows
  obtain ⟨taskMeta, rep, hresult⟩ := Client.result_eq shown on.payload
  rw [if_pos reply] at hresult
  refine ⟨r, x, taskMeta, _, (h.tracks.waiting r).mpr (by simp [hl]), took, hresult, ?_, ?_⟩
  · exact TaskReply.sum_ofSum _
  · rw [rep.addr_eq, from_cluster]

theorem served_at_home_first_answer : ∃ (c i : Name) (past later : List Event) (s t : System)
    (e : Event), Run (Step oneCluster (· + ·)) System.init past s ∧ Complete oneCluster c s ∧
      Run (Step oneCluster (· + ·)) s later t ∧ e.action = .receiveReply c i ∧
      ∃ r x taskMeta taskReply, (t.client c i).outstanding = some r ∧
        e.consumed = some (.brokerToClient c i, x) ∧
        Client.result x.message = .ok (taskMeta, some taskReply) ∧
        TaskReply.sum taskReply = (TaskRequest.arr r.task).foldl (· + ·) 0 ∧
        TaskMeta.addr taskMeta .fromClusterID = .ok c.bytes := by
  obtain ⟨c, hc⟩ : ∃ c, c ∈ oneCluster.names := ⟨_, List.mem_cons_self⟩
  obtain ⟨i, hi⟩ : ∃ i, i ∈ oneCluster.clients c := ⟨_, List.mem_cons_self⟩
  obtain ⟨w, hw⟩ : ∃ w, oneCluster.workers c = [w] := ⟨_, rfl⟩
  obtain ⟨x, s, f, t, hconstruct, hhear, -, hnone, hconstructed, hclient,
      -⟩ :=
    Turns.exists_first_signal (T := oneCluster) hc (w := w) (by simp [hw]) (· + ·)
  have hcomplete : Complete oneCluster c t := ⟨by simp [hw, hconstructed], by simp [hnone]⟩
  have hidle : (t.client c i).outstanding = none := by
    rw [hclient]
    rfl
  have hone : (callers oneCluster).length = 1 := rfl
  have hrun : Run (Step oneCluster (· + ·)) System.init _ t := .cons hconstruct (.single hhear)
  obtain ⟨e, u, hs, hout⟩ := exists_send oneCluster (· + ·) hc hi hidle 7 TaskRequest.init
  obtain ⟨legs, h⟩ := tracks_of_run (hrun.snoc hs)
  obtain ⟨later, v, g, z, hlater, hlast, action⟩ := Hops.exists_answer h
    ((h.waiting (t.nextRequest c i 7 TaskRequest.init)).mp hout)
  exact ⟨c, i, _, _, t, v, g, hrun, hcomplete, .cons hs hlater, action,
    served_at_home hrun hcomplete (by simp [hw, hone]) hidle (.cons hs hlater) hlast action⟩

end SimTools.DataCenter.Capacity
