/- Module: SimTools/LoadBalance/ReadyQueue
   digest: The ready queue is never found empty, and every worker is in one place at a time. -/

import SimTools.LoadBalance.Invariant

set_option autoImplicit false
set_option relaxedAutoImplicit false

namespace SimTools.LoadBalance.ReadyQueue

open Lib.Memory
open Lib.Sockets
open Lib.Channels
open Lib.Runs
open Lib.Tokens
open Components
open Serve
open Invariant

variable {T : Topology} {add : Double → Double → Double} {s t : System} {a : Action}

/-- The invariant of the ready queue, and what every step does to the requests at the front end. -/
structure ReadyQueueSafe (T : Topology) (add : Double → Double → Double) (s : System) : Prop where
  /-- Where `front` and `pop` are called there is something to take. -/
  nonempty : s.broker.line = .frontEnd → s.broker.frontEndReady = true →
    s.broker.workReadyQueue ≠ []
  faultless : Faultless add s
  /-- Only `serveFrontEnd` reads a request, and the request goes on to the first ready worker. -/
  given : ∀ a t, Step T add s a t → ∀ i,
    (queueAt (.clientToBroker i) t.inFlight).length <
      (queueAt (.clientToBroker i) s.inFlight).length →
      ∃ w ws msg rest, w ∈ s.constructed ∧ s.broker.workReadyQueue = w :: ws ∧
        receive (.clientToBroker i) s.inFlight = some (msg, rest) ∧ t.broker.workReadyQueue = ws ∧
        t.inFlight = rest ++ [(.brokerToWorker w, withNul i :: msg)]
  /-- What a worker sent is under way, it is in the queue, a task is under way to it, or it has
  one. -/
  situation : ∀ w ∈ s.constructed,
    (queueAt (.workerToBroker w) s.inFlight).length + s.broker.workReadyQueue.count w +
      (queueAt (.brokerToWorker w) s.inFlight).length + (queueAt (.held w) s.inFlight).length = 1
  one_task : ∀ w,
    (queueAt (.brokerToWorker w) s.inFlight).length + (queueAt (.held w) s.inFlight).length ≤ 1

theorem occurrences_ledger (s : System) (w : Bytes) :
    ledger.occurrences s.inFlight s.broker.workReadyQueue w =
      (queueAt (.workerToBroker w) s.inFlight).length + s.broker.workReadyQueue.count w +
        (queueAt (.brokerToWorker w) s.inFlight).length +
          (queueAt (.held w) s.inFlight).length := by
  rw [Ledger.occurrences_eq]
  simp only [ledger, List.map_cons, List.map_nil, List.sum_cons, List.sum_nil, id_eq]
  omega

theorem given_of_step (h : Balanced T add s) (hs : Step T add s a t) {i : Bytes}
    (reads : (queueAt (.clientToBroker i) t.inFlight).length <
      (queueAt (.clientToBroker i) s.inFlight).length) :
    ∃ w ws msg rest, w ∈ s.constructed ∧ s.broker.workReadyQueue = w :: ws ∧
      receive (.clientToBroker i) s.inFlight = some (msg, rest) ∧ t.broker.workReadyQueue = ws ∧
      t.inFlight = rest ++ [(.brokerToWorker w, withNul i :: msg)] := by
  have hkeep : ∀ sent : Pool Place Parts, t.inFlight = s.inFlight ++ sent → False := by
    intro sent after
    rw [after, queueAt_append, List.length_append] at reads
    omega
  have htake : ∀ p msg rest (sent : Pool Place Parts), receive p s.inFlight = some (msg, rest) →
      t.inFlight = rest ++ sent → .clientToBroker i ≠ p → False := by
    intro p msg rest sent got after elsewhere
    rw [after, queueAt_append, List.length_append, receive_queueAt got, if_neg elsewhere] at reads
    omega
  cases hs with
  | sendRequest | constructWorker => exact (hkeep _ rfl).elim
  | poll | passBackEnd | passFrontEnd => exact (hkeep [] (List.append_nil _).symm).elim
  | receiveResult _ got | receiveTask got | finishTask got | serveBackEnd _ _ got =>
    exact (htake _ _ _ _ got rfl (by simp)).elim
  | @serveFrontEnd j msg rest b out line ready got run =>
    by_cases here : i = j
    · subst here
      obtain ⟨w, ws, task, hw, queue, hi, hmsg, hrun⟩ := serveFrontEnd_cases h line ready got
      rw [run] at hrun
      cases hrun
      refine ⟨w, ws, msg, rest, hw, queue, got, rfl, ?_⟩
      rw [Option.bind_some, placeOfBackEnd_withNul (h.members w hw), hmsg]
      rfl
    · exact (htake _ _ _ _ got rfl (by simp [here])).elim

theorem ready_queue_safe {as : List Action} (run : Run (Step T add) System.init as s) :
    ReadyQueueSafe T add s := by
  have h := balanced_of_run run
  refine ⟨?_, h.faultless, fun a t hs i reads => given_of_step h hs reads, ?_, ?_⟩
  · intro line ready
    exact h.polled (by simp [line]) ready
  · intro w hw
    rw [← occurrences_ledger]
    exact h.workers.occurrences_eq_one hw
  · intro w
    have honce := h.workers.once w
    have hcount := List.nodup_iff_count_le_one.mp h.workers.nodup w
    rw [occurrences_ledger] at honce
    omega

theorem ready_queue_safe_first_poll : ∃ as s, Run (Step oneOfEach (· + ·)) System.init as s ∧
    s.broker.line = .frontEnd ∧ s.broker.frontEndReady = true ∧
      ReadyQueueSafe oneOfEach (· + ·) s := by
  obtain ⟨w, hw⟩ : ∃ w, w ∈ oneOfEach.workers := ⟨_, List.mem_cons_self⟩
  have hconstruct : Run (Step oneOfEach (· + ·)) System.init [.constructWorker w] _ :=
    .single (.constructWorker hw (by simp [System.init]))
  have hpoll := hconstruct.snoc (e := .poll true false) (.poll rfl)
  have hgot : receive (.workerToBroker w) [(Place.workerToBroker w, Worker.aliveSignal)] =
      some (Worker.aliveSignal, []) := by
    simp [receive]
  have hsignal := hpoll.snoc (.serveBackEnd (w := w) rfl rfl hgot
    (BalanceBroker.serveBackEnd_alive _ w))
  have hpass := (hsignal.snoc (e := .poll false true) (.poll rfl)).snoc (.passBackEnd rfl rfl)
  exact ⟨_, _, hpass, rfl, rfl, ready_queue_safe hpass⟩

end SimTools.LoadBalance.ReadyQueue
