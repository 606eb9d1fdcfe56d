/- Module: SimTools/LoadBalance/Invariant
   digest: One message for each waiting client of the load balancer, one place for each worker. -/

import SimTools.LoadBalance.Serve
import SimTools.Lib.Tokens

set_option autoImplicit false
set_option relaxedAutoImplicit false

namespace SimTools.LoadBalance.Invariant

open Lib.Memory
open Lib.Sockets
open Lib.Channels
open Lib.Runs
open Lib.Tokens
open Components
open Serve

def resultOf (add : Double → Double → Double) (task : Task) : TaskResult :=
  TaskResult.ofSum (Task.taskMeta task) (Worker.sumOf add task)

/-- A message on the way of `task`, a task of client `i`, from the client and back to it. -/
inductive OnWay (add : Double → Double → Double) (i : Bytes) (task : Task) : Place → Parts → Prop
  | sent : OnWay add i task (.clientToBroker i) [task.image]
  | dispatched (w : Bytes) : OnWay add i task (.brokerToWorker w) [withNul i, task.image]
  | held (w : Bytes) : OnWay add i task (.held w) [withNul i, task.image]
  | replied (w : Bytes) : OnWay add i task (.workerToBroker w)
      [withNul i, (resultOf add task).image]
  | answered : OnWay add i task (.brokerToClient i) [(resultOf add task).image]

def belongsTo (i : Bytes) (x : Place × Parts) : Bool :=
  match x.1 with
  | .clientToBroker j | .brokerToClient j => j = i
  | .brokerToWorker _ | .held _ | .workerToBroker _ => x.2.head? = some (withNul i)

variable {T : Topology} {add : Double → Double → Double} {i j w : Bytes} {task : Task}

@[simp] theorem OnWay.belongsTo_eq {p : Place} {msg : Parts} (h : OnWay add i task p msg) :
    belongsTo j (p, msg) = decide (i = j) := by
  cases h <;> simp [belongsTo]

theorem belongsTo_aliveSignal (client : i ∈ T.clients) :
    belongsTo i (.workerToBroker w, Worker.aliveSignal) = false := by
  have hne : globalConstID_ALIVE ≠ i := by
    rintro rfl
    exact T.not_alive client
  simp [belongsTo, Worker.aliveSignal, hne]

/-- Every message is an alive signal or on the way of an outstanding task, and there is one for
each of these. -/
structure Envelopes (T : Topology) (add : Double → Double → Double)
    (outstanding : Bytes → Option Task)
    (inFlight : Pool Place Parts) : Prop where
  onWay : ∀ p msg, (p, msg) ∈ inFlight → (∃ w, p = .workerToBroker w ∧ msg = Worker.aliveSignal) ∨
    ∃ i task, outstanding i = some task ∧ OnWay add i task p msg
  clients : ∀ i, outstanding i ≠ none → i ∈ T.clients
  one : ∀ i ∈ T.clients, inFlight.countP (belongsTo i) = if outstanding i = none then 0 else 1

namespace Envelopes

variable {outstanding : Bytes → Option Task} {inFlight rest : Pool Place Parts} {p q : Place}
  {msg msg' : Parts}

theorem nil (T : Topology) (add : Double → Double → Double) : Envelopes T add (fun _ => none) [] :=
  ⟨by simp, by simp, by simp⟩

theorem send (h : Envelopes T add outstanding inFlight) (client : i ∈ T.clients)
    (idle : outstanding i = none) (task : Task) :
    Envelopes T add (Function.update outstanding i (some task))
      (inFlight ++ [(.clientToBroker i, Client.request task)]) := by
  refine ⟨?_, ?_, ?_⟩
  · intro p msg hmem
    rcases List.mem_append.mp hmem with hmem | hmem
    · rcases h.onWay p msg hmem with alive | ⟨j, t, hj, way⟩
      · exact .inl alive
      · have hne : j ≠ i := by
          rintro rfl
          rw [idle] at hj
          cases hj
        exact .inr ⟨j, t, by rw [Function.update_of_ne hne, hj], way⟩
    · cases List.mem_singleton.mp hmem
      exact .inr ⟨i, task, Function.update_self _ _ _, .sent⟩
  · intro j hj
    by_cases here : j = i
    · rwa [here]
    · rw [Function.update_of_ne here] at hj
      exact h.clients j hj
  · intro j hj
    have hone := h.one j hj
    rw [List.countP_append, List.countP_singleton]
    by_cases here : i = j
    · subst here
      simp [hone, idle, belongsTo]
    · rw [Function.update_of_ne (Ne.symm here)]
      simpa [belongsTo, here] using hone

theorem move (h : Envelopes T add outstanding inFlight)
    (got : receive p inFlight = some (msg, rest))
    (normal : ∀ w, p = .workerToBroker w → msg ≠ Worker.aliveSignal)
    (further : ∀ i task, OnWay add i task p msg → OnWay add i task q msg') :
    Envelopes T add outstanding (rest ++ [(q, msg')]) := by
  obtain ⟨i, task, hi, way⟩ : ∃ i task, outstanding i = some task ∧ OnWay add i task p msg := by
    rcases h.onWay p msg (receive_mem got) with ⟨w, here, alive⟩ | found
    · exact absurd alive (normal w here)
    · exact found
  refine ⟨?_, h.clients, ?_⟩
  · intro p' msg'' hmem
    rcases mem_of_mem_moved got hmem with hmem | new
    · exact h.onWay p' msg'' hmem
    · cases new
      exact .inr ⟨i, task, hi, further i task way⟩
  · intro j hj
    rw [← h.one j hj, receive_countP got, List.countP_append, List.countP_singleton,
      way.belongsTo_eq, (further i task way).belongsTo_eq]

theorem close (h : Envelopes T add outstanding inFlight)
    (got : receive (.brokerToClient i) inFlight = some (msg, rest)) :
    Envelopes T add (Function.update outstanding i none) rest := by
  obtain ⟨task, hi, way⟩ : ∃ task, outstanding i = some task ∧
    OnWay add i task (.brokerToClient i) msg := by
    rcases h.onWay _ msg (receive_mem got) with ⟨_, alive, _⟩ | ⟨j, task, hj, way⟩
    · cases alive
    · cases way
      exact ⟨task, hj, .answered⟩
  have hclient := h.clients i (by simp [hi])
  have hgone : rest.countP (belongsTo i) = 0 := by
    have hone := h.one i hclient
    have hgot := receive_countP got (belongsTo i)
    rw [way.belongsTo_eq] at hgot
    simp only [hi, reduceCtorEq, ↓reduceIte, decide_true] at hone hgot
    omega
  refine ⟨?_, ?_, ?_⟩
  · intro p msg' hmem
    rcases h.onWay p msg' (mem_of_mem_rest got hmem) with alive | ⟨j, t, hj, way'⟩
    · exact .inl alive
    · have hne : j ≠ i := by
        rintro rfl
        have hnot := List.countP_eq_zero.mp hgone _ hmem
        simp [way'.belongsTo_eq] at hnot
      exact .inr ⟨j, t, by rw [Function.update_of_ne hne, hj], way'⟩
  · intro j hj
    by_cases here : j = i
    · simp [here] at hj
    · rw [Function.update_of_ne here] at hj
      exact h.clients j hj
  · intro j hj
    by_cases here : j = i
    · subst here
      simp [hgone]
    · have hgot := receive_countP got (belongsTo j)
      rw [way.belongsTo_eq, decide_eq_false (Ne.symm here)] at hgot
      rw [Function.update_of_ne here, ← h.one j hj, hgot]
      simp

theorem signal (h : Envelopes T add outstanding inFlight) (w : Bytes) :
    Envelopes T add outstanding (inFlight ++ [(.workerToBroker w, Worker.aliveSignal)]) := by
  refine ⟨?_, h.clients, ?_⟩
  · intro p msg hmem
    rcases List.mem_append.mp hmem with hmem | hmem
    · exact h.onWay p msg hmem
    · cases List.mem_singleton.mp hmem
      exact .inl ⟨w, rfl, rfl⟩
  · intro i hi
    rw [List.countP_append, List.countP_singleton, belongsTo_aliveSignal hi]
    exact h.one i hi

theorem take_signal (h : Envelopes T add outstanding inFlight)
    (got : receive (.workerToBroker w) inFlight = some (Worker.aliveSignal, rest)) :
    Envelopes T add outstanding rest := by
  refine ⟨fun p msg hmem => h.onWay p msg (mem_of_mem_rest got hmem), h.clients, ?_⟩
  intro i hi
  have hgot := receive_countP got (belongsTo i)
  rw [belongsTo_aliveSignal hi] at hgot
  rw [← h.one i hi, hgot]
  simp

end Envelopes

/-- The workers as tokens, with the places where a worker has a task or has sent something. -/
def ledger : Ledger Place Bytes Bytes where
  places := fun w => [.workerToBroker w, .brokerToWorker w, .held w]
  name := id
  name_injective := fun _ _ h => h
  places_nodup := by simp
  owner_unique := by
    intro v w p hv hw
    cases p <;> simp_all

structure Balanced (T : Topology) (add : Double → Double → Double) (s : System) : Prop where
  members : ∀ w ∈ s.constructed, w ∈ T.workers
  envelopes : Envelopes T add s.outstanding s.inFlight
  workers : Accounted ledger s.constructed s.inFlight s.broker.workReadyQueue
  /-- In an iteration that has found the front end ready, some worker is ready too. -/
  polled : s.broker.line ≠ .poll → s.broker.frontEndReady = true → s.broker.workReadyQueue ≠ []

theorem balanced_init (T : Topology) (add : Double → Double → Double) :
    Balanced T add System.init :=
  ⟨by simp [System.init], .nil T add, accounted_nil ledger,
    by simp [System.init, BalanceBroker.init]⟩

variable {s t : System} {a : Action}

theorem serveFrontEnd_cases (h : Balanced T add s) (line : s.broker.line = .frontEnd)
    (ready : s.broker.frontEndReady = true) {msg : Parts} {rest : Pool Place Parts}
    (got : receive (.clientToBroker i) s.inFlight = some (msg, rest)) :
    ∃ w ws task, w ∈ s.constructed ∧ s.broker.workReadyQueue = w :: ws ∧
      s.outstanding i = some task ∧
      msg = [task.image] ∧
      s.broker.serveFrontEnd (withNul i :: msg) =
        .ok ({ s.broker with workReadyQueue := ws, line := .poll },
          some [withNul w, withNul i, task.image]) := by
  obtain ⟨w, ws, queue⟩ := List.exists_cons_of_ne_nil (h.polled (by simp [line]) ready)
  have hw : w ∈ s.constructed := h.workers.mem_of_mem_queue (by simp [queue, ledger])
  rcases h.envelopes.onWay _ msg (receive_mem got) with ⟨_, alive, _⟩ | ⟨j, task, hj, way⟩
  · cases alive
  · cases way
    exact ⟨w, ws, task, hw, queue, hj, rfl, s.broker.serveFrontEnd_eq w i queue task⟩

theorem serveBackEnd_cases (h : Balanced T add s) {msg : Parts} {rest : Pool Place Parts}
    (got : receive (.workerToBroker w) s.inFlight = some (msg, rest)) :
    (msg = Worker.aliveSignal ∧ s.broker.serveBackEnd (withNul w :: msg) =
      .ok ({ s.broker.push w with line := .poll }, none)) ∨
    ∃ i task, i ∈ T.clients ∧ s.outstanding i = some task ∧
      msg = [withNul i, (resultOf add task).image] ∧
      s.broker.serveBackEnd (withNul w :: msg) =
        .ok ({ s.broker.push w with line := .frontEnd }, some msg) := by
  rcases h.envelopes.onWay _ msg (receive_mem got) with ⟨_, _, rfl⟩ | ⟨i, task, hi, way⟩
  · exact .inl ⟨rfl, s.broker.serveBackEnd_alive w⟩
  · have hclient := h.envelopes.clients i (by simp [hi])
    have hne : i ≠ globalConstID_ALIVE := by
      rintro rfl
      exact T.not_alive hclient
    cases way
    exact .inr ⟨i, task, hclient, hi, rfl, s.broker.serveBackEnd_reply w i hne _⟩

/-- Whoever reads a message can handle it; no access to an empty queue is reached. -/
structure Faultless (add : Double → Double → Double) (s : System) : Prop where
  worker : ∀ w msg rest, receive (.held w) s.inFlight = some (msg, rest) →
    ∃ msg', Worker.processImp add msg = .ok msg'
  client : ∀ i msg rest, receive (.brokerToClient i) s.inFlight = some (msg, rest) →
    ∃ r, Client.result msg = .ok r
  backEnd : ∀ w msg rest, receive (.workerToBroker w) s.inFlight = some (msg, rest) →
    ∃ r, s.broker.serveBackEnd (withNul w :: msg) = .ok r
  frontEnd : s.broker.line = .frontEnd → s.broker.frontEndReady = true →
    ∀ i msg rest, receive (.clientToBroker i) s.inFlight = some (msg, rest) →
      ∃ r, s.broker.serveFrontEnd (withNul i :: msg) = .ok r

theorem Balanced.faultless (h : Balanced T add s) : Faultless add s := by
  constructor
  · intro w msg rest got
    rcases h.envelopes.onWay _ msg (receive_mem got) with ⟨_, alive, _⟩ | ⟨i, task, _, way⟩
    · cases alive
    · cases way
      exact ⟨_, Worker.processImp_eq add i task⟩
  · intro i msg rest got
    rcases h.envelopes.onWay _ msg (receive_mem got) with ⟨_, alive, _⟩ | ⟨j, task, _, way⟩
    · cases alive
    · cases way
      exact ⟨_, Client.result_eq _⟩
  · intro w msg rest got
    rcases serveBackEnd_cases h got with ⟨_, run⟩ | ⟨_, _, _, _, _, run⟩
    · exact ⟨_, run⟩
    · exact ⟨_, run⟩
  · intro line ready i msg rest got
    obtain ⟨_, _, _, _, _, _, _, run⟩ := serveFrontEnd_cases h line ready got
    exact ⟨_, run⟩

theorem Balanced.step (h : Balanced T add s) (hs : Step T add s a t) : Balanced T add t := by
  cases hs with
  | @sendRequest i task client idle =>
    refine ⟨h.members, h.envelopes.send client idle task, ?_, h.polled⟩
    apply h.workers.send
    simp [ledger, Ledger.owns]
  | @receiveResult i msg rest r waiting got result =>
    refine ⟨h.members, ?_, ?_, h.polled⟩
    · simpa [System.deliver] using h.envelopes.close got
    · have htake := h.workers.take got (by simp [ledger, Ledger.owns])
      simpa [System.deliver] using htake
  | @constructWorker w hw new =>
    refine ⟨?_, h.envelopes.signal w, ?_, h.polled⟩
    · intro v hv
      rcases List.mem_cons.mp hv with rfl | hv
      · exact hw
      · exact h.members v hv
    · apply h.workers.join new
      simp [ledger, Ledger.owns]
  | @receiveTask w msg rest got idle =>
    refine ⟨h.members, ?_, ?_, h.polled⟩
    · apply h.envelopes.move got (by simp)
      intro i task way
      cases way
      exact .held w
    · apply h.workers.move got
      simp [ledger, Ledger.owns]
  | @finishTask w msg msg' rest got run =>
    refine ⟨h.members, ?_, ?_, h.polled⟩
    · apply h.envelopes.move got (by simp)
      intro i task way
      cases way
      rw [Worker.processImp_eq] at run
      cases run
      exact .replied w
    · apply h.workers.move got
      simp [ledger, Ledger.owns]
  | @poll backEnd frontEnd line =>
    refine ⟨h.members, h.envelopes, ?_, ?_⟩
    · rw [BalanceBroker.poll_workReadyQueue]
      exact h.workers
    · intro _ ready
      rw [BalanceBroker.poll_workReadyQueue]
      exact s.broker.ready_of_poll ready
  | @serveBackEnd w msg rest b out line ready got run =>
    have hwait := h.workers.wait got (w := w) (by simp [ledger, Ledger.owns])
    rcases serveBackEnd_cases h got with ⟨rfl, hrun⟩ | ⟨i, task, client, hi, hmsg, hrun⟩
    · rw [run] at hrun
      cases hrun
      refine ⟨h.members, ?_, ?_, by simp [System.deliver]⟩
      · simpa [System.deliver] using h.envelopes.take_signal got
      · simpa [System.deliver, BalanceBroker.push, ledger] using hwait
    · rw [run] at hrun
      cases hrun
      rw [Option.bind_some, hmsg, placeOfFrontEnd_withNul client]
      refine ⟨h.members, ?_, ?_, by simp [System.deliver, BalanceBroker.push]⟩
      · apply h.envelopes.move got (by simp [hmsg, Worker.aliveSignal])
        intro j task' way
        cases way
        obtain ⟨hclient, himage⟩ := List.cons_eq_cons.mp hmsg
        rw [withNul_injective hclient, ← himage]
        exact .answered
      · apply hwait.send
        simp [ledger, Ledger.owns]
  | passBackEnd line ready =>
    refine ⟨h.members, h.envelopes, h.workers, ?_⟩
    intro _ hready
    exact h.polled (by simp [line]) hready
  | @serveFrontEnd i msg rest b out line ready got run =>
    obtain ⟨w, ws, task, hw, queue, hi, hmsg, hrun⟩ := serveFrontEnd_cases h line ready got
    rw [run] at hrun
    cases hrun
    have hworkers := h.workers
    rw [queue] at hworkers
    have htake := hworkers.take got (by simp [ledger, Ledger.owns])
    rw [Option.bind_some, placeOfBackEnd_withNul (h.members w hw), ← hmsg]
    refine ⟨h.members, ?_, ?_, by simp [System.deliver]⟩
    · apply h.envelopes.move got (by simp)
      intro j task' way
      cases way
      exact .dispatched w
    · apply htake.dispatch
      simp [ledger, Ledger.owns]
  | passFrontEnd line ready => exact ⟨h.members, h.envelopes, h.workers, by simp⟩

theorem balanced_of_run {as : List Action} (run : Run (Step T add) System.init as s) :
    Balanced T add s :=
  run.invariant (fun _ _ _ h hs => h.step hs) (balanced_init T add)

end SimTools.LoadBalance.Invariant
