/- Module: SimTools/DataCenter/Turns
   digest: Within the data center each broker is one with its workers, and gives tasks in turn. -/

import SimTools.DataCenter.Workers
import SimTools.Lib.Queueing
import SimTools.Lib.Views

set_option autoImplicit false
set_option relaxedAutoImplicit false

namespace SimTools.DataCenter.Turns

open Lib.Memory
open Lib.Channels
open Lib.Runs
open Lib.Refinement
open Lib.Queueing
open Lib.Views
open ClusterCore
open TaskHeader
open ClusterBroker
open Network
open Workers (Backend Accounted SentBy)

def clusterOf : Place → Option Name
  | .brokerToWorker c _ | .held c _ | .workerToBroker c _ => some c
  | .clientToBroker _ _ | .brokerToClient _ _ | .brokerToSuper _ | .superToBroker _ => none

/-- What the broker of `c` and its workers are in a state of the data center. -/
structure Shows (c : Name) (s : System) (b : Backend) : Prop where
  broker : b.broker = s.broker c
  inFlight : View (fun p => clusterOf p = some c) Parcel.message s.inFlight b.inFlight
  constructed : ∀ w, w ∈ b.constructed ↔ .workerToBroker c w ∈ s.constructed

/-- The broker of `c` hears of a worker, or it sends a task to one, a local client's or one from the
super broker. -/
def see (c : Name) (e : Event) (_ : System) : Option (Visit Bytes) :=
  match e.action, e.emitted with
  | .routeLocalReply d w, _ => if d = c then some (.joins w.bytes) else none
  | _, some (.brokerToWorker d w, _) => if d = c then some (.called w.bytes) else none
  | _, _ => none

def turns (T : Topology) (add : Double → Double → Double) (c : Name) :
    Observed System Event (Visit Bytes) := ⟨Step T add, see c⟩

variable {T : Topology} {add : Double → Double → Double} {c d w : Name} {s t : System} {e : Event}
  {b : Backend} {rest : Pool Place Parcel} {p : Place} {m : Message} {x : Parcel}

theorem shows_init (c : Name) : Shows c System.init (Backend.init c) :=
  ⟨rfl, fun _ _ => rfl, fun _ => by simp [Backend.init, System.init]⟩

theorem view_parcels (c : Name) (origin : Option Request) (out : Option (Place × Message)) :
    View (fun p => clusterOf p = some c) Parcel.message
      (out.map (fun q => (q.1, (⟨q.2, origin⟩ : Parcel)))).toList out.toList := by
  have hview := View.map (fun p => clusterOf p = some c) Parcel.message
    (fun q : Place × Message => (q.1, (⟨q.2, origin⟩ : Parcel))) (fun _ => rfl) (fun _ => rfl)
    out.toList
  cases out <;> exact hview

theorem view_outside {out : Option (Place × Parcel)}
    (outside : ∀ q ∈ out, clusterOf q.1 ≠ some c) :
    View (fun p => clusterOf p = some c) Parcel.message out.toList ([] : Pool Place Message) :=
  View.outside fun q hq => outside q (Option.mem_toList.mp hq)

namespace Shows

theorem frame (h : Shows c s b) {out : Option (Place × Parcel)} (broker : t.broker c = s.broker c)
    (constructed : ∀ w, .workerToBroker c w ∈ t.constructed ↔ .workerToBroker c w ∈ s.constructed)
    (view : View (fun p => clusterOf p = some c) Parcel.message rest b.inFlight)
    (outside : ∀ q ∈ out, clusterOf q.1 ≠ some c) : Shows c (t.deliver rest out) b := by
  refine ⟨h.broker.trans broker.symm, ?_, fun w => (h.constructed w).trans (constructed w).symm⟩
  have hview := view.append (view_outside outside)
  rwa [List.append_nil] at hview

theorem handle {b' : Backend} (h : Shows c s b) {pool : Pool Place Message}
    {out : Option (Place × Message)} (view :
      View (fun p => clusterOf p = some c) Parcel.message rest pool)
    (origin : Option Request) (broker : b'.broker = t.broker c)
    (inFlight : b'.inFlight = pool ++ out.toList) (constructed : b'.constructed = b.constructed)
    (same : t.constructed = s.constructed) :
    Shows c (t.deliver rest (out.map (fun q => (q.1, ⟨q.2, origin⟩)))) b' := by
  refine ⟨broker, ?_, fun w => ?_⟩
  · rw [inFlight]
    exact view.append (view_parcels c origin out)
  · rw [constructed, h.constructed, System.deliver, same]

theorem elsewhere (h : Shows c s b) {out : Option (Place × Message)}
    (got : receive p s.inFlight = some (x, rest)) (outside : clusterOf p ≠ some c)
    (broker : t.broker c = s.broker c) (same : t.constructed = s.constructed)
    (sent : ∀ q ∈ out, clusterOf q.1 ≠ some c) (origin : Option Request) :
    Shows c (t.deliver rest (out.map (fun q => (q.1, ⟨q.2, origin⟩)))) b := by
  refine h.frame broker (fun w => by rw [same]) (h.inFlight.skip got outside) ?_
  intro q hq
  obtain ⟨q', hq', rfl⟩ := Option.map_eq_some_iff.mp hq
  exact sent q' hq'

end Shows

theorem clusterOf_placeOf {o : Outgoing} {q : Place × Message} (placed : placeOf T d o = some q)
    (ne : d ≠ c) : clusterOf q.1 ≠ some c := by
  cases o with
  | frontEnd identity m | backEnd identity m =>
    obtain ⟨i, _, rfl⟩ := Option.map_eq_some_iff.mp placed
    simp [clusterOf, ne]
  | cloudTask m =>
    cases placed
    simp [clusterOf]

theorem clusterOf_bind_placeOf {out : Option Outgoing} (ne : d ≠ c) :
    ∀ q ∈ out.bind (placeOf T d), clusterOf q.1 ≠ some c := by
  intro q hq
  obtain ⟨o, _, placed⟩ := Option.bind_eq_some_iff.mp hq
  exact clusterOf_placeOf placed ne

theorem setBroker_of_ne (s : System) (b : LocalBalanceBroker) (ne : d ≠ c) :
    (s.setBroker d b).broker c = s.broker c := Function.update_of_ne (Ne.symm ne) _ _

theorem setBroker_self (s : System) (c : Name) (b : LocalBalanceBroker) :
    (s.setBroker c b).broker c = b := Function.update_self _ _ _

theorem Shows.react (h : Shows c s b) {a : Network.Action} {out : Option (Place × Message)}
    (src : source a = some p) (got : receive p s.inFlight = some (x, rest)) (ready : Ready s a)
    (run : react T add s x.message a = .ok (t, out)) :
    ∃ as b', Run (Workers.Step T add c) b as b' ∧
      Shows c (t.deliver rest (out.map (fun q => (q.1, ⟨q.2, x.origin⟩)))) b' := by
  cases a with
  | constructBroker | constructWorker | sendRequest | statePuller => cases src
  | receiveReply d i =>
    cases src
    obtain ⟨_, _, run⟩ := bind_eq_ok run
    cases run
    have hsilent : ∀ q ∈ (none : Option (Place × Message)), clusterOf q.1 ≠ some c := by simp
    exact ⟨[], b, .nil b, h.elsewhere (t := s.setClient d i _) got (by simp [clusterOf]) rfl rfl
      hsilent x.origin⟩
  | taskRouter d =>
    cases src
    obtain ⟨sent, _, run⟩ := bind_eq_ok run
    cases run
    refine ⟨[], b, .nil b, h.elsewhere got (by simp [clusterOf]) rfl rfl ?_ _⟩
    intro q hq
    obtain ⟨⟨identity, m⟩, _, placed⟩ := Option.bind_eq_some_iff.mp hq
    obtain ⟨k, _, rfl⟩ := Option.map_eq_some_iff.mp placed
    simp [clusterOf]
  | receiveTask d w =>
    cases src
    cases run
    by_cases here : d = c
    · subst here
      obtain ⟨rest', got', view⟩ := h.inFlight.receive got rfl
      have hidle : queueAt (.held d w) b.inFlight = [] := by
        rw [h.inFlight _ rfl, show queueAt (.held d w) s.inFlight = [] from ready, List.map_nil]
      exact ⟨_, _, .single (.receiveTask got' hidle), h.handle view _ h.broker rfl rfl rfl⟩
    · exact ⟨[], b, .nil b, h.elsewhere got (by simp [clusterOf, here]) rfl rfl
        (by simp [clusterOf, here]) _⟩
  | finishTask d w =>
    cases src
    obtain ⟨m', hprocess, run⟩ := bind_eq_ok run
    cases run
    by_cases here : d = c
    · subst here
      obtain ⟨rest', got', view⟩ := h.inFlight.receive got rfl
      exact ⟨_, _, .single (.finishTask got' hprocess), h.handle view _ h.broker rfl rfl rfl⟩
    · exact ⟨[], b, .nil b, h.elsewhere got (by simp [clusterOf, here]) rfl rfl
        (by simp [clusterOf, here]) _⟩
  | routeLocalReply d w =>
    cases src
    obtain ⟨⟨b', o⟩, hroute, run⟩ := bind_eq_ok run
    cases run
    by_cases here : d = c
    · subst here
      obtain ⟨rest', got', view⟩ := h.inFlight.receive got rfl
      rw [← h.broker] at hroute
      exact ⟨_, _, .single (.routeLocalReply got' hroute),
        h.handle view _ (setBroker_self s d b').symm rfl rfl rfl⟩
    · exact ⟨[], b, .nil b, h.elsewhere got (by simp [clusterOf, here])
        (setBroker_of_ne s b' here) rfl (clusterOf_bind_placeOf here) _⟩
  | routeLocalRequest d i =>
    cases src
    obtain ⟨⟨b', o⟩, hroute, run⟩ := bind_eq_ok run
    cases run
    by_cases here : d = c
    · subst here
      rw [← h.broker] at hroute
      exact ⟨_, _, .single (.routeLocalRequest hroute),
        h.handle (h.inFlight.skip got (by simp [clusterOf])) _ (setBroker_self s d b').symm rfl rfl
          rfl⟩
    · exact ⟨[], b, .nil b, h.elsewhere got (by simp [clusterOf])
        (setBroker_of_ne s b' here) rfl (clusterOf_bind_placeOf here) _⟩
  | routeCloud d =>
    cases src
    obtain ⟨⟨b', o⟩, hroute, run⟩ := bind_eq_ok run
    cases run
    by_cases here : d = c
    · subst here
      rw [← h.broker] at hroute
      exact ⟨_, _, .single (.routeCloud hroute),
        h.handle (h.inFlight.skip got (by simp [clusterOf])) _ (setBroker_self s d b').symm rfl rfl
          rfl⟩
    · exact ⟨[], b, .nil b, h.elsewhere got (by simp [clusterOf])
        (setBroker_of_ne s b' here) rfl (clusterOf_bind_placeOf here) _⟩

/-- A step of the data center is at each cluster one of the broker with its workers, or none. -/
theorem Shows.step (h : Shows c s b) (hs : Step T add s e t) :
    ∃ as b', Run (Workers.Step T add c) b as b' ∧ Shows c t b' := by
  cases hs with
  | constructBroker =>
    refine ⟨[], b, .nil b, h.frame rfl ?_ h.inFlight ?_⟩
    · simp
    · simp [clusterOf]
  | @constructWorker d w m hd hw new signal =>
    by_cases here : d = c
    · subst here
      refine ⟨_, _, .single (.constructWorker hw (fun old => new ((h.constructed w).mp old))
        signal), h.broker, ?_, ?_⟩
      · exact h.inFlight.append (view_parcels d none (some (.workerToBroker d w, m)))
      · intro v
        simp [System.deliver, h.constructed]
    · refine ⟨[], b, .nil b, h.frame rfl ?_ h.inFlight ?_⟩
      · simp [Ne.symm here]
      · simp [clusterOf, here]
  | sendRequest =>
    exact ⟨[], b, .nil b, h.frame rfl (fun _ => Iff.rfl) h.inFlight (by simp [clusterOf])⟩
  | statePuller => exact ⟨[], b, .nil b, h.broker, h.inFlight, h.constructed⟩
  | handle src got ready run =>
    exact h.react src got ready run

def Backed (T : Topology) (c : Name) (s : System) : Prop := ∃ b, Shows c s b ∧ Accounted T c b

theorem backed_init (T : Topology) (c : Name) : Backed T c System.init :=
  ⟨_, shows_init c, Workers.accounted_init T c⟩

theorem Backed.step (h : Backed T c s) (hs : Step T add s e t) : Backed T c t := by
  obtain ⟨b, shows, accounted⟩ := h
  obtain ⟨as, b', run, h'⟩ := shows.step hs
  exact ⟨b', h', run.invariant (fun _ _ _ hI hs => hI.step hs) accounted⟩

theorem Backed.length_le (h : Backed T c s) :
    (s.broker c).workReadyQueue.length ≤ (T.workers c).length := by
  obtain ⟨b, shows, accounted⟩ := h
  have hle := accounted.length_ready_le
  rw [← shows.broker]
  omega

/-- So the broker of a cluster does nothing in the data center that it could not do for itself, with
its workers and requests that come from anywhere. -/
theorem exists_backend {es : List Event} (run : Run (Step T add) System.init es s) (c : Name) :
    ∃ as b, Run (Workers.Step T add c) (Backend.init c) as b ∧ Shows c s b := by
  refine run.invariant (I := fun s => ∃ as b, Run (Workers.Step T add c) (Backend.init c) as b ∧
    Shows c s b) ?_ ⟨[], _, .nil _, shows_init c⟩
  rintro s e t ⟨as, b, hrun, h⟩ hs
  obtain ⟨more, b', hmore, h'⟩ := h.step hs
  exact ⟨_, b', hrun.append hmore, h'⟩

theorem exists_backend_first_worker : ∃ c es s as b,
    Run (Step oneCluster (· + ·)) System.init es s ∧ s.constructed ≠ [] ∧
      Run (Workers.Step oneCluster (· + ·) c) (Backend.init c) as b ∧ Shows c s b := by
  obtain ⟨c, hc⟩ : ∃ c, c ∈ oneCluster.names := ⟨_, List.mem_cons_self⟩
  obtain ⟨w, hw⟩ : ∃ w, w ∈ oneCluster.workers c := ⟨_, List.mem_cons_self⟩
  obtain ⟨metaMsg, hsignal, _⟩ := Worker.aliveSignal_eq w
  have hrun : Run (Step oneCluster (· + ·)) System.init _ _ :=
    .single (.constructWorker hc hw (by simp [System.init]) hsignal)
  obtain ⟨as, b, hbackend, h⟩ := exists_backend hrun c
  exact ⟨c, _, _, as, b, hrun, List.cons_ne_nil _ _, hbackend, h⟩

theorem exists_first_signal (hc : c ∈ T.names) (hw : w ∈ T.workers c)
    (add : Double → Double → Double) :
    ∃ x s f t, Step T add System.init
        ⟨.constructWorker c w, none, some (.workerToBroker c w, x)⟩ s ∧
      Step T add s f t ∧ f.action = .routeLocalReply c w ∧ t.inFlight = [] ∧
        t.constructed = [.workerToBroker c w] ∧ t.client = System.init.client ∧
        t.broker c = ((LocalBalanceBroker.init c.bytes).push w.bytes).storeCount := by
  obtain ⟨metaMsg, hsignal, hcarries⟩ := Worker.aliveSignal_eq w
  have hconstruct : Step T add System.init _ _ :=
    .constructWorker hc hw (by simp [System.init]) hsignal
  have hroute := LocalBalanceBroker.routeLocalReply_alive (b := LocalBalanceBroker.init c.bytes)
    (m := ⟨metaMsg, [0]⟩) hcarries rfl
  have hreact : ∀ s : System, s.broker c = LocalBalanceBroker.init c.bytes →
      Network.react T add s ⟨metaMsg, [0]⟩ (.routeLocalReply c w) =
        .ok (s.setBroker c ((LocalBalanceBroker.init c.bytes).push w.bytes).storeCount, none) := by
    intro s hs
    simp only [Network.react, hs, hroute, bind, Except.bind, pure, Except.pure]
    rfl
  exact ⟨_, _, _, _, hconstruct, .handle (a := .routeLocalReply c w) rfl
    (receive_cons_self _ _ _) trivial (hreact _ rfl), rfl, rfl, rfl, rfl, setBroker_self _ _ _⟩

section See

theorem see_eq_none (reply : ∀ w, e.action ≠ .routeLocalReply c w)
    (sent : ∀ w y, e.emitted ≠ some (.brokerToWorker c w, y)) : see c e t = none := by
  unfold see
  split
  · rename_i d w haction
    rw [if_neg]
    rintro rfl
    exact reply w haction
  · rename_i d w y hemitted _
    rw [if_neg]
    rintro rfl
    exact sent w y hemitted
  · rfl

theorem see_eq_joins (reply : e.action = .routeLocalReply c w) :
    see c e t = some (.joins w.bytes) := by
  unfold see
  rw [reply]
  exact if_pos rfl

theorem see_eq_called {y : Parcel} (reply : ∀ d w, e.action ≠ .routeLocalReply d w)
    (sent : e.emitted = some (.brokerToWorker c w, y)) : see c e t = some (.called w.bytes) := by
  unfold see
  split
  · rename_i d w' haction
    exact absurd haction (reply d w')
  · rename_i d w' y' hemitted _
    rw [sent] at hemitted
    cases hemitted
    exact if_pos rfl
  · rename_i other
    exact absurd sent (other c w y)

theorem see_elsewhere {out : Option Outgoing} {origin : Option Request} (ne : d ≠ c)
    (reply : ∀ w, e.action ≠ .routeLocalReply c w)
    (sent : e.emitted = (out.bind (placeOf T d)).map (fun q => (q.1, ⟨q.2, origin⟩))) :
    see c e t = none := by
  refine see_eq_none reply ?_
  intro w y hy
  obtain ⟨q, hq, he⟩ := Option.map_eq_some_iff.mp (sent ▸ hy)
  have hnot := clusterOf_bind_placeOf ne q hq
  simp [clusterOf, (Prod.mk.inj he).1] at hnot

end See

theorem turn_of_turns (accounted : Accounted T c b) {b' : LocalBalanceBroker}
    {out : Option Outgoing}
    (turns : Workers.Turns b.broker b' out) (reply : ∀ d w, e.action ≠ .routeLocalReply d w)
    {origin : Option Request}
    (sent : e.emitted = (out.bind (placeOf T c)).map (fun q => (q.1, ⟨q.2, origin⟩))) :
    b.broker.workReadyQueue ++ joined (see c e t).toList =
      called (see c e t).toList ++ b'.workReadyQueue := by
  cases turns with
  | @dispatch m id ws queue queue' =>
    obtain ⟨w, _, rfl, hplace⟩ := accounted.worker_of_mem
      (show id ∈ b.broker.workReadyQueue by simp [queue])
    rw [Option.bind_some, hplace] at sent
    rw [see_eq_called reply sent, queue, queue']
    exact List.append_nil _
  | pass queue other =>
    rw [see_eq_none (reply c), queue]
    · exact List.append_nil _
    · intro w y hy
      obtain ⟨q, hq, he⟩ := Option.map_eq_some_iff.mp (sent ▸ hy)
      have hnot := Workers.placeOf_elsewhere
        (fun identity m ho => other identity m (Option.some.inj ho)) w q (Option.mem_toList.mpr hq)
      simp [Lib.Tokens.Ledger.owns, Workers.ledger, (Prod.mk.inj he).1] at hnot

/-- What is seen of a step is what it does to the ready queue of `c`. -/
theorem turn_of_step (h : Shows c s b) (accounted : Accounted T c b) (hs : Step T add s e t) :
    (s.broker c).workReadyQueue ++ joined (see c e t).toList =
      called (see c e t).toList ++ (t.broker c).workReadyQueue := by
  have hidle : see c e t = none → t.broker c = s.broker c →
      (s.broker c).workReadyQueue ++ joined (see c e t).toList =
        called (see c e t).toList ++ (t.broker c).workReadyQueue := by
    intro hidden same
    rw [hidden, same]
    exact List.append_nil _
  cases hs with
  | constructBroker | constructWorker | sendRequest | statePuller => exact hidle rfl rfl
  | @handle t a p x rest out src got ready run =>
    cases a with
    | constructBroker | constructWorker | sendRequest | statePuller => cases src
    | receiveReply d i =>
      obtain ⟨_, _, run⟩ := bind_eq_ok run
      cases run
      exact hidle rfl rfl
    | taskRouter d =>
      obtain ⟨sent, _, run⟩ := bind_eq_ok run
      cases run
      refine hidle (see_eq_none (by simp) ?_) rfl
      intro w y hy
      obtain ⟨q, hq, he⟩ := Option.map_eq_some_iff.mp hy
      obtain ⟨_, _, placed⟩ := Option.bind_eq_some_iff.mp hq
      obtain ⟨k, _, rfl⟩ := Option.map_eq_some_iff.mp placed
      cases he
    | receiveTask d w =>
      cases run
      exact hidle rfl rfl
    | finishTask d w =>
      obtain ⟨_, _, run⟩ := bind_eq_ok run
      cases run
      exact hidle rfl rfl
    | routeLocalReply d w =>
      cases src
      obtain ⟨⟨b', o⟩, hroute, run⟩ := bind_eq_ok run
      cases run
      by_cases here : d = c
      · subst here
        obtain ⟨rest', got', _⟩ := h.inFlight.receive got rfl
        rw [← h.broker] at hroute ⊢
        obtain ⟨tm, fromID, hm, hfrom, rfl, _⟩ := Workers.routeLocalReply_pushes hroute
        obtain ⟨tm', hm', hname⟩ := accounted.senders w _ (receive_mem got')
        rw [hm] at hm'
        cases hm'
        rw [hfrom] at hname
        cases hname
        rw [see_eq_joins rfl]
        simp [System.deliver, setBroker_self, joined, called, Visit.joiner, Visit.callee,
          LocalBalanceBroker.push]
      · exact hidle (see_elsewhere here (by simp [here]) rfl) (setBroker_of_ne s b' here)
    | routeLocalRequest d i =>
      obtain ⟨⟨b', o⟩, hroute, run⟩ := bind_eq_ok run
      cases run
      by_cases here : d = c
      · subst here
        have hturn := setBroker_self s d b'
        rw [← h.broker] at hroute ⊢
        rw [System.deliver, hturn]
        exact turn_of_turns accounted (Workers.turns_routeLocalRequest hroute) (by simp) rfl
      · exact hidle (see_elsewhere here (by simp) rfl) (setBroker_of_ne s b' here)
    | routeCloud d =>
      obtain ⟨⟨b', o⟩, hroute, run⟩ := bind_eq_ok run
      cases run
      by_cases here : d = c
      · subst here
        have hturn := setBroker_self s d b'
        rw [← h.broker] at hroute ⊢
        rw [System.deliver, hturn]
        exact turn_of_turns accounted (Workers.turns_routeCloud hroute) (by simp) rfl
      · exact hidle (see_elsewhere here (by simp) rfl) (setBroker_of_ne s b' here)

theorem ready_queue (T : Topology) (add : Double → Double → Double) (c : Name) :
    Queue (turns T add c) (Backed T c) (fun s => (s.broker c).workReadyQueue)
      (T.workers c).length where
  preserved := fun _ _ _ h hs => h.step hs
  turn := by
    rintro s e t ⟨b, h, accounted⟩ hs
    exact turn_of_step h accounted hs
  nodup := by
    rintro s ⟨b, h, accounted⟩
    rw [← h.broker]
    exact accounted.tokens.queue_nodup
  few := fun _ h => h.length_le

/-- In the data center the broker of a cluster gives the tasks, whether they are its own clients' or
come from the super broker, to its workers in the order in which it has heard of them. A worker that
is ready waits for the tasks of fewer workers than the cluster has, one task of each of them. -/
theorem workers_in_turn (c : Name) {vs : List (Visit Bytes)}
    (seen : Seen (turns T add c) System.init vs s) :
    InTurn (T.workers c).length vs (s.broker c).workReadyQueue :=
  (ready_queue T add c).inTurn seen (backed_init T c) rfl

/-- A worker announces itself and gets the task of a client of its cluster. -/
theorem workers_in_turn_first_task : ∃ c w s,
    Seen (turns oneCluster (· + ·) c) System.init [.joins w, .called w] s ∧
      InTurn 1 [.joins w, .called w] (s.broker c).workReadyQueue := by
  obtain ⟨c, hc⟩ : ∃ c, c ∈ oneCluster.names := ⟨_, List.mem_cons_self⟩
  obtain ⟨i, hi⟩ : ∃ i, i ∈ oneCluster.clients c := ⟨_, List.mem_cons_self⟩
  obtain ⟨w, hw⟩ : ∃ w, w ∈ oneCluster.workers c := ⟨_, List.mem_cons_self⟩
  obtain ⟨x, s, f, t, hconstruct, hs, reply, hnone, -, hclient, hbroker⟩ :=
    exists_first_signal hc hw (· + ·)
  have hready : Seen (turns oneCluster (· + ·) c) System.init [] s :=
    (Seen.nil _).silent hconstruct rfl
  have hsignalled := hready.snoc (v := .joins w.bytes) hs (by
    dsimp only [turns]
    exact see_eq_joins reply)
  obtain ⟨metaMsg, hrequest, shown⟩ := Client.request_eq i 7 TaskRequest.init
  have hsend : Step oneCluster (· + ·) t _ _ :=
    .sendRequest hc hi (by rw [hclient]; rfl) hrequest
  have hqueue : ((LocalBalanceBroker.init c.bytes).push w.bytes).storeCount.workReadyQueue =
      [w.bytes] := rfl
  obtain ⟨taskMsg, _, hroute⟩ := (LocalBalanceBroker.routeLocalRequest_eq
    (m := ⟨metaMsg, TaskRequest.init.image⟩) rfl shown).2 w [] hqueue
  have hreact : ∀ u : System, u.broker c = t.broker c →
      Network.react oneCluster (· + ·) u ⟨metaMsg, TaskRequest.init.image⟩
        (.routeLocalRequest c i) = .ok (u.setBroker c
          ((LocalBalanceBroker.init c.bytes).push w.bytes).storeCount.pop.storeCount,
          some (.brokerToWorker c w, ⟨taskMsg, TaskRequest.init.image⟩)) := by
    intro u hu
    simp only [Network.react, hu.trans hbroker, hroute, Option.bind_some, placeOf_backEnd _ hw,
      bind, Except.bind, pure, Except.pure]
  rw [System.deliver, hnone] at hsend
  have hcalled := (hsignalled.silent hsend rfl).snoc (v := .called w.bytes)
    (.handle (a := .routeLocalRequest c i) rfl (receive_cons_self _ _ _) trivial (hreact _ rfl)) (by
      dsimp only [turns]
      exact see_eq_called (by simp) rfl)
  exact ⟨c, w.bytes, _, hcalled, workers_in_turn c hcalled⟩

end SimTools.DataCenter.Turns
