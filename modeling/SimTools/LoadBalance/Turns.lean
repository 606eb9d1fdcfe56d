/- Module: SimTools/LoadBalance/Turns
   digest: The workers of the load balancer get their tasks in the order in which they were ready. -/

import SimTools.LoadBalance.Invariant
import SimTools.Lib.Queueing

set_option autoImplicit false
set_option relaxedAutoImplicit false

namespace SimTools.LoadBalance.Turns

open Lib.Memory
open Lib.Sockets
open Lib.Channels
open Lib.Refinement
open Lib.Queueing
open Components
open Serve
open Invariant

def recipient : Place → Option Bytes
  | .brokerToWorker w => some w
  | .clientToBroker _ | .brokerToClient _ | .held _ | .workerToBroker _ => none

def see (a : Action) (t : System) : Option (Visit Bytes) :=
  match a with
  | .serveBackEnd w => some (.joins w)
  | .serveFrontEnd _ => t.inFlight.getLast?.bind (fun x => (recipient x.1).map .called)
  | _ => none

def turns (T : Topology) (add : Double → Double → Double) :
    Observed System Action (Visit Bytes) := ⟨Step T add, see⟩

variable {T : Topology} {add : Double → Double → Double} {s t : System} {a : Action}

/-- What is seen of a step is what it does to the ready queue. -/
theorem turn_of_step (h : Balanced T add s) (hs : Step T add s a t) :
    s.broker.workReadyQueue ++ joined (see a t).toList =
      called (see a t).toList ++ t.broker.workReadyQueue := by
  cases hs with
  | sendRequest | receiveResult | constructWorker | receiveTask | finishTask | passBackEnd
  | passFrontEnd => exact List.append_nil _
  | poll =>
    rw [BalanceBroker.poll_workReadyQueue]
    exact List.append_nil _
  | @serveBackEnd w msg rest b out line ready got run =>
    rcases serveBackEnd_cases h got with ⟨_, hrun⟩ | ⟨_, _, _, _, _, hrun⟩
    · rw [run] at hrun
      cases hrun
      rfl
    · rw [run] at hrun
      cases hrun
      rfl
  | @serveFrontEnd i msg rest b out line ready got run =>
    obtain ⟨w, ws, task, hw, queue, hi, hmsg, hrun⟩ := serveFrontEnd_cases h line ready got
    rw [run] at hrun
    cases hrun
    have hplace := placeOfBackEnd_withNul (h.members w hw) [withNul i, task.image]
    have hsee : see (.serveFrontEnd i) (({ s with
        broker := { s.broker with workReadyQueue := ws, line := .poll } } : System).deliver rest
          ((some [withNul w, withNul i, task.image]).bind (placeOfBackEnd T))) =
        some (.called w) := by
      rw [Option.bind_some, hplace, see, System.deliver, Option.toList_some,
        List.getLast?_concat]
      rfl
    rw [hsee, queue]
    exact List.append_nil _

theorem ready_queue (T : Topology) (add : Double → Double → Double) :
    Queue (turns T add) (Balanced T add) (fun s => s.broker.workReadyQueue)
      T.workers.length where
  preserved := fun _ _ _ h hs => h.step hs
  turn := fun _ _ _ h hs => turn_of_step h hs
  nodup := fun _ h => h.workers.queue_nodup
  few := fun _ h => h.workers.length_queue_le.trans
    (List.subperm_of_subset h.workers.nodup h.members).length_le

/-- The tasks go to the workers in the order in which the broker has heard of them. A worker that is
ready waits for the tasks of fewer workers than there are, one task of each of them. -/
theorem tasks_in_turn {vs : List (Visit Bytes)} (seen : Seen (turns T add) System.init vs s) :
    InTurn T.workers.length vs s.broker.workReadyQueue :=
  (ready_queue T add).inTurn seen (balanced_init T add) rfl

/-- A worker announces itself and gets the task of a client. -/
theorem tasks_in_turn_first_task : ∃ w s,
    Seen (turns oneOfEach (· + ·)) System.init [.joins w, .called w] s ∧
      InTurn 1 [.joins w, .called w] s.broker.workReadyQueue := by
  obtain ⟨w, hw⟩ : ∃ w, w ∈ oneOfEach.workers := ⟨_, List.mem_cons_self⟩
  obtain ⟨i, hi⟩ : ∃ i, i ∈ oneOfEach.clients := ⟨_, List.mem_cons_self⟩
  have hready := (Seen.nil (O := turns oneOfEach (· + ·)) System.init).silent
    (show Step oneOfEach (· + ·) _ (.constructWorker w) _ from
      .constructWorker hw (by simp [System.init])) rfl
  have hpoll := hready.silent
    (show Step oneOfEach (· + ·) _ (.poll true false) _ from .poll rfl) rfl
  have hsignal := hpoll.snoc (show Step oneOfEach (· + ·) _ (.serveBackEnd w) _ from
    .serveBackEnd rfl rfl (receive_cons_self _ _ _) (BalanceBroker.serveBackEnd_alive _ w)) rfl
  have hsend := hsignal.silent (show Step oneOfEach (· + ·) _ (.sendRequest i) _ from
    @Step.sendRequest _ _ _ _ (Obj.zero sizeofTask) hi rfl) rfl
  have hrequest := hsend.silent
    (show Step oneOfEach (· + ·) _ (.poll false true) _ from .poll rfl) rfl
  have hpass := hrequest.silent
    (show Step oneOfEach (· + ·) _ .passBackEnd _ from .passBackEnd rfl rfl) rfl
  have hcalled := hpass.snoc (v := .called w)
    (show Step oneOfEach (· + ·) _ (.serveFrontEnd i) _ from
      .serveFrontEnd rfl rfl (receive_cons_self _ _ _)
        (BalanceBroker.serveFrontEnd_eq _ w i rfl (Obj.zero sizeofTask)))
    (by simp [turns, see, System.deliver, placeOfBackEnd_withNul hw, recipient])
  exact ⟨w, _, hcalled, tasks_in_turn hcalled⟩

end SimTools.LoadBalance.Turns
