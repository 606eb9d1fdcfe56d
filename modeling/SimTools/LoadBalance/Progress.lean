/- Module: SimTools/LoadBalance/Progress
   digest: With polls that report what waits, the load balancer neither spins nor gets stuck. -/

import SimTools.LoadBalance.Invariant
import SimTools.Lib.Accounts

set_option autoImplicit false
set_option relaxedAutoImplicit false

namespace SimTools.LoadBalance.Progress

open Lib.Memory
open Lib.Sockets
open Lib.Channels
open Lib.Runs
open Lib.Tokens
open Lib.Accounts
open Components
open Serve
open Invariant

def BackEndWaits (s : System) : Prop := ∃ w msg, (.workerToBroker w, msg) ∈ s.inFlight

def FrontEndWaits (s : System) : Prop := ∃ i msg, (.clientToBroker i, msg) ∈ s.inFlight

/-- `zmq::poll` with a timeout of -1: it reports what waits, and returns only when an item that it
was given is ready. -/
structure Reports (s : System) (backEnd frontEnd : Bool) : Prop where
  backEnd_iff : backEnd = true ↔ BackEndWaits s
  frontEnd_iff : frontEnd = true ↔ FrontEndWaits s
  ready : (s.broker.poll backEnd frontEnd).backEndReady = true ∨
    (s.broker.poll backEnd frontEnd).frontEndReady = true

/-- A step in which a poll does what its documentation says. -/
inductive Honest (T : Topology) (add : Double → Double → Double) : System → Action → System → Prop
  | poll {s t : System} {backEnd frontEnd : Bool} : Step T add s (.poll backEnd frontEnd) t →
      Reports s backEnd frontEnd → Honest T add s (.poll backEnd frontEnd) t
  | other {s t : System} {a : Action} : Step T add s a t → (∀ b f, a ≠ .poll b f) →
      Honest T add s a t

theorem Honest.step {T : Topology} {add : Double → Double → Double} {s t : System} {a : Action}
    (h : Honest T add s a t) : Step T add s a t := by
  cases h with
  | poll hs _ | other hs _ => exact hs

/-- What an iteration still relies on: one of the reports, and the message it was about. -/
structure Attentive (s : System) : Prop where
  ready : s.broker.line ≠ .poll → s.broker.backEndReady = true ∨ s.broker.frontEndReady = true
  backEnd : s.broker.line = .backEnd → s.broker.backEndReady = true → BackEndWaits s
  frontEnd : s.broker.line ≠ .poll → s.broker.frontEndReady = true → FrontEndWaits s

variable {T : Topology} {add : Double → Double → Double} {s t : System} {a : Action}
  {i w : Bytes} {as : List Action}

theorem attentive_init : Attentive System.init :=
  ⟨by simp [System.init, BalanceBroker.init], by simp [System.init, BalanceBroker.init],
    by simp [System.init, BalanceBroker.init]⟩

theorem mem_of_elsewhere {p q : Place} {msg m : Parts} {rest sent : Pool Place Parts}
    (got : receive p s.inFlight = some (msg, rest)) (other : q ≠ p) (h : (q, m) ∈ s.inFlight) :
    (q, m) ∈ rest ++ sent := by
  rcases List.mem_cons.mp ((receive_perm got).mem_iff.mp h) with here | hrest
  · cases here
    exact absurd rfl other
  · exact List.mem_append_left _ hrest

theorem Attentive.keep (h : Attentive s) (broker : t.broker = s.broker)
    (backEnd : BackEndWaits s → BackEndWaits t) (frontEnd : FrontEndWaits s → FrontEndWaits t) :
    Attentive t := by
  refine ⟨?_, ?_, ?_⟩
  · rw [broker]
    exact h.ready
  · rw [broker]
    exact fun line ready => backEnd (h.backEnd line ready)
  · rw [broker]
    exact fun line ready => frontEnd (h.frontEnd line ready)

theorem Attentive.keep_taking (h : Attentive s) (broker : t.broker = s.broker) {p : Place}
    {msg : Parts} {rest sent : Pool Place Parts} (got : receive p s.inFlight = some (msg, rest))
    (backEnd : ∀ w, .workerToBroker w ≠ p) (frontEnd : ∀ i, .clientToBroker i ≠ p)
    (pool : t.inFlight = rest ++ sent) : Attentive t := by
  refine h.keep broker ?_ ?_
  · rintro ⟨w, m, hm⟩
    exact ⟨w, m, pool ▸ mem_of_elsewhere got (backEnd w) hm⟩
  · rintro ⟨i, m, hm⟩
    exact ⟨i, m, pool ▸ mem_of_elsewhere got (frontEnd i) hm⟩

theorem Attentive.keep_sending (h : Attentive s) (broker : t.broker = s.broker)
    {sent : Pool Place Parts} (pool : t.inFlight = s.inFlight ++ sent) : Attentive t := by
  refine h.keep broker ?_ ?_
  · rintro ⟨w, m, hm⟩
    exact ⟨w, m, pool ▸ List.mem_append_left _ hm⟩
  · rintro ⟨i, m, hm⟩
    exact ⟨i, m, pool ▸ List.mem_append_left _ hm⟩

theorem Attentive.poll {backEnd frontEnd : Bool} (reports : Reports s backEnd frontEnd) :
    Attentive { s with broker := s.broker.poll backEnd frontEnd } := by
  refine ⟨fun _ => reports.ready, fun _ ready => ?_, fun _ ready => ?_⟩
  · rw [BalanceBroker.poll_backEndReady] at ready
    exact reports.backEnd_iff.mp ready
  · rw [BalanceBroker.poll_frontEndReady, Bool.and_eq_true] at ready
    exact reports.frontEnd_iff.mp ready.2

theorem Attentive.step (h : Attentive s) (balanced : Balanced T add s) (hs : Honest T add s a t) :
    Attentive t := by
  cases hs with
  | poll hs reports =>
    cases hs with
    | poll line => exact .poll reports
  | other hs unpolled =>
    cases hs with
    | sendRequest | constructWorker => exact h.keep_sending rfl rfl
    | receiveResult _ got | receiveTask got | finishTask got =>
      exact h.keep_taking rfl got (by simp) (by simp) rfl
    | poll line => exact absurd rfl (unpolled _ _)
    | @serveBackEnd w msg rest b out line ready got run =>
      rcases serveBackEnd_cases balanced got with ⟨rfl, hrun⟩ | ⟨i, task, client, hi, hmsg, hrun⟩
      · rw [run] at hrun
        cases hrun
        exact ⟨by simp [System.deliver], by simp [System.deliver], by simp [System.deliver]⟩
      · rw [run] at hrun
        cases hrun
        refine ⟨fun _ => .inl ready, by simp [System.deliver], fun _ hready => ?_⟩
        obtain ⟨i, m, hm⟩ := h.frontEnd (by simp [line]) hready
        exact ⟨i, m, mem_of_elsewhere got (by simp) hm⟩
    | passBackEnd line ready =>
      exact ⟨fun _ => h.ready (by simp [line]), by simp, fun _ => h.frontEnd (by simp [line])⟩
    | @serveFrontEnd i msg rest b out line ready got run =>
      obtain ⟨w, ws, task, hw, queue, hi, hmsg, hrun⟩ := serveFrontEnd_cases balanced line ready got
      rw [run] at hrun
      cases hrun
      exact ⟨by simp [System.deliver], by simp [System.deliver], by simp [System.deliver]⟩
    | passFrontEnd line ready => exact ⟨by simp, by simp, by simp⟩

structure Working (T : Topology) (add : Double → Double → Double) (s : System) : Prop where
  balanced : Balanced T add s
  attentive : Attentive s

theorem Working.step (h : Working T add s) (hs : Honest T add s a t) : Working T add t :=
  ⟨h.balanced.step hs.step, h.attentive.step h.balanced hs⟩

theorem working_init (T : Topology) (add : Double → Double → Double) :
    Working T add System.init := ⟨balanced_init T add, attentive_init⟩

def distance : Place × Parts → Nat
  | (.clientToBroker _, _) => 5
  | (.brokerToWorker _, _) => 4
  | (.held _, _) => 3
  | (.workerToBroker _, _) => 2
  | (.brokerToClient _, _) => 1

/-- How far an iteration may go before a message is taken. -/
def patience (b : BalanceBroker) : Nat :=
  match b.line with
  | .poll => 3
  | .backEnd => 2
  | .frontEnd => if b.backEndReady then 4 else 1

def remaining (s : System) : Nat := 4 * weight distance s.inFlight + patience s.broker

def sends (i : Bytes) : Action → Bool
  | .sendRequest j => j = i
  | _ => false

def receives (i : Bytes) : Action → Bool
  | .receiveResult j _ => j = i
  | _ => false

def load : Action → Nat
  | .sendRequest _ => 20
  | .constructWorker _ => 8
  | _ => 0

def works (a : Action) : Bool := load a = 0

/-- Every step that brings nothing new leaves less to do, the polls included. -/
theorem work_budget (T : Topology) (add : Double → Double → Double) :
    Budget (Honest T add) (Working T add) remaining (fun a => if works a then 1 else 0) load where
  preserved := fun _ _ _ h hs => h.step hs
  covered := by
    intro s a t h hs
    cases hs with
    | @poll _ backEnd frontEnd hs reports =>
      cases hs with
      | poll line =>
        simp only [remaining, patience, line, BalanceBroker.poll_line, works, load, decide_true,
          ↓reduceIte]
        omega
    | other hs unpolled =>
      cases hs with
      | sendRequest | constructWorker =>
        simp only [remaining, System.deliver, weight_append, weight_singleton, Option.toList_some,
          distance, works, load, reduceCtorEq, decide_false, ↓reduceIte, Bool.false_eq_true]
        omega
      | receiveResult _ got | receiveTask got | finishTask got =>
        have hgot := weight_receive distance got
        simp only [remaining, System.deliver, weight_append, weight_singleton, weight_nil,
          Option.toList_some, Option.toList_none, distance, works, load, decide_true,
          ↓reduceIte] at hgot ⊢
        omega
      | poll line => exact absurd rfl (unpolled _ _)
      | @serveBackEnd w msg rest b out line ready got run =>
        have hgot := weight_receive distance got
        rcases serveBackEnd_cases h.balanced got with ⟨rfl, hrun⟩ | ⟨i, task, client, hi, rfl, hrun⟩
        · rw [run] at hrun
          cases hrun
          simp only [remaining, patience, line, System.deliver, weight_append, weight_nil,
            Option.toList_none, Option.bind_none, distance, works, load, decide_true,
            ↓reduceIte] at hgot ⊢
          omega
        · rw [run] at hrun
          cases hrun
          rw [Option.bind_some, placeOfFrontEnd_withNul client]
          simp only [remaining, patience, line, BalanceBroker.push, ready, System.deliver,
            weight_append, weight_singleton, Option.toList_some, distance, works, load,
            decide_true, ↓reduceIte] at hgot ⊢
          omega
      | passBackEnd line ready =>
        simp [remaining, patience, line, ready, works, load]
      | @serveFrontEnd i msg rest b out line ready got run =>
        have hgot := weight_receive distance got
        obtain ⟨w, ws, task, hw, queue, hi, rfl, hrun⟩ :=
          serveFrontEnd_cases h.balanced line ready got
        rw [run] at hrun
        cases hrun
        rw [Option.bind_some, placeOfBackEnd_withNul (h.balanced.members w hw)]
        simp only [remaining, patience, line, System.deliver, weight_append, weight_singleton,
          Option.toList_some, distance, works, load, decide_true, ↓reduceIte] at hgot ⊢
        split <;> omega
      | passFrontEnd line ready =>
        have hserved : s.broker.backEndReady = true :=
          (h.attentive.ready (by simp [line])).resolve_right (by simp [ready])
        simp [remaining, patience, line, hserved, works, load]

section Stuck

variable {p : Place} {msg : Parts}

theorem can_finish (h : Working T add s) (hmem : (.held w, msg) ∈ s.inFlight) :
    ∃ a t, Honest T add s a t ∧ works a = true := by
  obtain ⟨msg', rest, got⟩ := exists_receive_of_mem hmem
  obtain ⟨m, run⟩ := h.balanced.faultless.worker w msg' rest got
  exact ⟨_, _, .other (.finishTask got run) (by simp), rfl⟩

theorem can_take (h : Working T add s) (hmem : (.brokerToWorker w, msg) ∈ s.inFlight) :
    ∃ a t, Honest T add s a t ∧ works a = true := by
  obtain ⟨msg', rest, got⟩ := exists_receive_of_mem hmem
  by_cases idle : queueAt (.held w) s.inFlight = []
  · exact ⟨_, _, .other (.receiveTask got idle) (by simp), rfl⟩
  · obtain ⟨m, held⟩ := exists_mem_of_queueAt_ne_nil idle
    exact can_finish h held

theorem can_receive (h : Working T add s) (hmem : (.brokerToClient i, msg) ∈ s.inFlight) :
    ∃ a t, Honest T add s a t ∧ works a = true := by
  obtain ⟨msg', rest, got⟩ := exists_receive_of_mem hmem
  obtain ⟨r, result⟩ := h.balanced.faultless.client i msg' rest got
  have hwait : s.outstanding i ≠ none := by
    rcases h.balanced.envelopes.onWay _ _ (receive_mem got) with ⟨_, alive, _⟩ | ⟨j, task, hj, way⟩
    · cases alive
    · cases way
      simp [hj]
  exact ⟨_, _, .other (.receiveResult hwait got result) (by simp), rfl⟩

theorem can_iterate (h : Working T add s) (line : s.broker.line ≠ .poll) :
    ∃ a t, Honest T add s a t ∧ works a = true := by
  cases hline : s.broker.line with
  | poll => exact absurd hline line
  | backEnd =>
    cases hready : s.broker.backEndReady with
    | false => exact ⟨_, _, .other (.passBackEnd hline hready) (by simp), rfl⟩
    | true =>
      obtain ⟨w, m, hm⟩ := h.attentive.backEnd hline hready
      obtain ⟨msg, rest, got⟩ := exists_receive_of_mem hm
      obtain ⟨⟨b, out⟩, run⟩ := h.balanced.faultless.backEnd w msg rest got
      exact ⟨_, _, .other (.serveBackEnd hline hready got run) (by simp), rfl⟩
  | frontEnd =>
    cases hready : s.broker.frontEndReady with
    | false => exact ⟨_, _, .other (.passFrontEnd hline hready) (by simp), rfl⟩
    | true =>
      obtain ⟨i, m, hm⟩ := h.attentive.frontEnd line hready
      obtain ⟨msg, rest, got⟩ := exists_receive_of_mem hm
      obtain ⟨⟨b, out⟩, run⟩ := h.balanced.faultless.frontEnd hline hready i msg rest got
      exact ⟨_, _, .other (.serveFrontEnd hline hready got run) (by simp), rfl⟩

theorem can_poll (line : s.broker.line = .poll)
    (waits : BackEndWaits s ∨ (FrontEndWaits s ∧ s.broker.workReadyQueue ≠ [])) :
    ∃ a t, Honest T add s a t ∧ works a = true := by
  classical
  refine ⟨.poll (decide (BackEndWaits s)) (decide (FrontEndWaits s)), _,
    .poll (.poll line) ⟨decide_eq_true_iff, decide_eq_true_iff, ?_⟩, rfl⟩
  rw [BalanceBroker.poll_backEndReady, BalanceBroker.poll_frontEndReady]
  rcases waits with back | ⟨front, ready⟩
  · exact .inl (decide_eq_true back)
  · right
    simpa [front] using ready

theorem ready_of_quiet (h : Working T add s) (hw : w ∈ s.constructed)
    (quiet : ∀ p msg, (p, msg) ∈ s.inFlight → ledger.owns w p = false) :
    s.broker.workReadyQueue ≠ [] := by
  intro empty
  have hone := h.balanced.workers.occurrences_eq_one hw
  have hnone : s.inFlight.countP (fun x => ledger.owns w x.1) = 0 := by
    rw [List.countP_eq_zero]
    rintro ⟨p, msg⟩ hmem
    simp [quiet p msg hmem]
  rw [Ledger.occurrences, hnone, empty] at hone
  simp at hone

/-- While a message is under way and there is a worker, somebody can go on. -/
theorem can_work (h : Working T add s) (staffed : s.constructed ≠ []) (busy : s.inFlight ≠ []) :
    ∃ a t, Honest T add s a t ∧ works a = true := by
  by_cases line : s.broker.line = .poll
  swap
  · exact can_iterate h line
  by_contra stuck
  have hfront : ∀ p msg, (p, msg) ∈ s.inFlight → ∃ i, p = .clientToBroker i := by
    intro p msg hmem
    cases p with
    | clientToBroker i => exact ⟨i, rfl⟩
    | brokerToClient i => exact absurd (can_receive h hmem) stuck
    | brokerToWorker w => exact absurd (can_take h hmem) stuck
    | held w => exact absurd (can_finish h hmem) stuck
    | workerToBroker w => exact absurd (can_poll line (.inl ⟨w, msg, hmem⟩)) stuck
  obtain ⟨w, hw⟩ := List.exists_mem_of_ne_nil _ staffed
  have hready : s.broker.workReadyQueue ≠ [] := by
    refine ready_of_quiet h hw fun p msg hmem => ?_
    obtain ⟨i, rfl⟩ := hfront p msg hmem
    simp [ledger, Ledger.owns]
  obtain ⟨⟨p, msg⟩, hmem⟩ := List.exists_mem_of_ne_nil _ busy
  obtain ⟨i, rfl⟩ := hfront p msg hmem
  exact stuck (can_poll line (.inr ⟨⟨i, msg, hmem⟩, hready⟩))

end Stuck

theorem turn_of_step (hs : Step T add s a t) :
    Turn s.outstanding (sends · a) (receives · a) t.outstanding := by
  cases hs with
  | sendRequest _ idle => exact .sends idle (fun _ => rfl) (fun _ => rfl)
  | receiveResult waiting => exact .receives waiting (fun _ => rfl) (fun _ => rfl)
  | constructWorker | receiveTask | finishTask | poll | serveBackEnd | passBackEnd | serveFrontEnd
  | passFrontEnd => exact .keeps (fun _ => rfl) (fun _ => rfl)

/-- A run whose polls report what waits makes at most twenty steps for a request and eight for a
worker, the polls included, and it does not get stuck before every request is answered. -/
theorem neither_spins_nor_sticks (run : Run (Honest T add) System.init as s) :
    as.countP works + remaining s ≤ (as.map load).sum + 3 ∧
    (∀ i, as.countP (sends i) = as.countP (receives i) + (s.outstanding i).toList.length) ∧
    (s.constructed ≠ [] → (∀ a t, Honest T add s a t → works a = false) →
      s.inFlight = [] ∧ ∀ i, as.countP (sends i) = as.countP (receives i)) := by
  have h : Working T add s := run.invariant (fun _ _ _ h hs => h.step hs) (working_init T add)
  have hwork := (work_budget T add).run run (working_init T add)
  have hcalls := calls_of_run (fun _ _ _ hs => turn_of_step (Honest.step hs)) run (fun _ => rfl)
  have hstart : remaining System.init = 3 := rfl
  refine ⟨?_, hcalls, fun staffed stuck => ?_⟩
  · rw [sum_map_ite, hstart] at hwork
    omega
  · have hempty : s.inFlight = [] := by
      by_contra busy
      obtain ⟨a, t, hs, hworks⟩ := can_work h staffed busy
      rw [stuck a t hs] at hworks
      cases hworks
    refine ⟨hempty, fun i => ?_⟩
    have hidle : s.outstanding i = none := by
      by_contra waits
      have hone := h.balanced.envelopes.one i (h.balanced.envelopes.clients i waits)
      rw [hempty, List.countP_nil, if_neg waits] at hone
      cases hone
    rw [hcalls i, hidle, Option.toList_none, List.length_nil, Nat.add_zero]

theorem neither_spins_nor_sticks_first_poll : ∃ as s,
    Run (Honest oneOfEach (· + ·)) System.init as s ∧ .poll true false ∈ as ∧
      as.countP works + remaining s ≤ (as.map load).sum + 3 := by
  obtain ⟨w, hw⟩ : ∃ w, w ∈ oneOfEach.workers := ⟨_, List.mem_cons_self⟩
  have hconstruct : Run (Honest oneOfEach (· + ·)) System.init [.constructWorker w] _ :=
    .single (.other (.constructWorker hw (by simp [System.init])) (by simp))
  have hpoll := hconstruct.snoc (e := .poll true false) (.poll (.poll rfl)
    ⟨⟨fun _ => ⟨w, Worker.aliveSignal, List.mem_singleton_self _⟩, fun _ => rfl⟩,
      by simp [FrontEndWaits, System.deliver, System.init], .inl rfl⟩)
  exact ⟨_, _, hpoll, by simp, (neither_spins_nor_sticks hpoll).1⟩

end SimTools.LoadBalance.Progress
