/- Module: SimTools/AsyncServer/Conservation
   digest: Every request leads to ten replies at its client, counted before a client polls one. -/

import SimTools.AsyncServer.Replies
import SimTools.Lib.Accounts

set_option autoImplicit false
set_option relaxedAutoImplicit false

namespace SimTools.AsyncServer.Conservation

open Lib.Memory
open Lib.Sockets
open Lib.Channels
open Lib.Runs
open Lib.Accounts
open LoadBalance.Components (Task TaskResult sizeofTask)
open AsyncCore
open Replies

/-- What a message is worth at each stage of its request. -/
structure Price where
  asked : Nat
  dispatched : Nat
  pending : Nat
  replied : Nat
  answered : Nat

abbrev Class := Bytes → Task → Bool

def addressed (K : Class) (x : Parcel) : Bool :=
  x.message.head?.any (fun part => K part.dropLast x.task)

def worth (c : Price) (K : Class) : Place × Parcel → Nat
  | (.clientToProxy i, x) => if K i x.task then c.asked else 0
  | (.proxyToWorker _, x) => if addressed K x then c.dispatched else 0
  | (.workerToProxy _, x) => if addressed K x then c.replied else 0
  | (.proxyToClient i, x) => if K i x.task then c.answered else 0

def value (c : Price) (K : Class) (T : Topology) (s : System) : Nat :=
  weight (worth c K) s.inFlight +
    ∑ w ∈ T.workers.toFinset, c.pending * (s.pending w).countP (addressed K)

/-- What a step of a request takes out and puts in. -/
def turn (c : Price) : Action → Nat × Nat
  | .sendRequest _ _ => (0, c.asked)
  | .forwardTask _ _ => (c.asked, c.dispatched)
  | .receiveTask _ => (c.dispatched, 10 * c.pending)
  | .sendReply _ _ => (c.pending, c.replied)
  | .forwardReply _ => (c.replied, c.answered)
  | .poll _ _ => (c.answered, 0)

def About (i : Bytes) (task : Task) : Action → Prop
  | .sendRequest j task' => j = i ∧ task' = task
  | .poll j x => j = i ∧ x.task = task
  | _ => True

variable {T : Topology} {add : Double → Double → Double} {s t : System} {a : Action}
  {i w : Bytes} {task : Task} {K : Class} {as past : List Action}

/-- Only workers of the topology have something to do. -/
structure Staffed (T : Topology) (s : System) : Prop where
  given : ∀ w x, (.proxyToWorker w, x) ∈ s.inFlight → w ∈ T.workers
  busy : ∀ w, s.pending w ≠ [] → w ∈ T.workers

theorem place_of_placeOfFrontEnd {x y : Parcel} {p : Place}
    (h : (p, y) ∈ (placeOfFrontEnd T x).toList) : ∃ i, p = .proxyToClient i := by
  rw [Option.mem_toList, placeOfFrontEnd] at h
  split at h
  · cases h
  · obtain ⟨i, _, he⟩ := Option.map_eq_some_iff.mp h
    cases he
    exact ⟨i, rfl⟩

theorem staffed_init (T : Topology) : Staffed T System.init :=
  ⟨by simp [System.init], by simp [System.init]⟩

theorem Staffed.step (h : Staffed T s) (hs : Step T add s a t) : Staffed T t := by
  cases hs with
  | sendRequest client =>
    refine ⟨fun w x hx => ?_, h.busy⟩
    rcases List.mem_append.mp hx with hx | hx
    · exact h.given w x hx
    · simp at hx
  | forwardTask worker got =>
    refine ⟨fun w x hx => ?_, h.busy⟩
    rcases mem_of_mem_moved got hx with hx | hx
    · exact h.given w x hx
    · cases hx
      exact worker
  | @receiveTask w y rest replies idle got run =>
    refine ⟨fun v x hx => h.given v x (mem_of_mem_rest got hx), fun v hv => ?_⟩
    by_cases here : v = w
    · rw [here]
      exact h.given w y (receive_mem got)
    · exact h.busy v (by rwa [← Function.update_of_ne here _ s.pending])
  | @sendReply w y later next =>
    refine ⟨fun v x hx => ?_, fun v hv => ?_⟩
    · rcases List.mem_append.mp hx with hx | hx
      · exact h.given v x hx
      · simp at hx
    · by_cases here : v = w
      · subst here
        exact h.busy v (by simp [next])
      · exact h.busy v (by rwa [← Function.update_of_ne here later s.pending])
  | @forwardReply w y rest got =>
    refine ⟨fun v x hx => ?_, h.busy⟩
    rcases List.mem_append.mp hx with hx | hx
    · exact h.given v x (mem_of_mem_rest got hx)
    · obtain ⟨i, hi⟩ := place_of_placeOfFrontEnd hx
      cases hi
  | poll got => exact ⟨fun v x hx => h.given v x (mem_of_mem_rest got hx), h.busy⟩

def Going (T : Topology) (s : System) : Prop := Staffed T s ∧ ∃ past, Relayed T past s

theorem Going.step (h : Going T s) (hs : Step T add s a t) : Going T t := by
  obtain ⟨staffed, past, relayed⟩ := h
  exact ⟨staffed.step hs, _, relayed.step hs⟩

theorem going_init (T : Topology) : Going T System.init := ⟨staffed_init T, [], Relayed.init⟩

theorem addressed_withNul (K : Class) (i : Bytes) (task : Task) (parts : Parts) :
    addressed K ⟨task, withNul i :: parts⟩ = K i task := by
  simp [addressed, withNul]

/-- A step moves what it takes out of one stage of a request into the next. -/
theorem value_step (c : Price) (K : Class) (h : Going T s) (hs : Step T add s a t) :
    ∃ i task, About i task a ∧
      value c K T t + (if K i task then (turn c a).1 else 0) =
        value c K T s + (if K i task then (turn c a).2 else 0) := by
  obtain ⟨staffed, past, relayed⟩ := h
  cases hs with
  | @sendRequest i task client =>
    refine ⟨i, task, ⟨rfl, rfl⟩, ?_⟩
    simp only [value, turn, weight_append, weight_singleton, worth]
    split <;> omega
  | @forwardTask i w x rest worker got =>
    refine ⟨i, x.task, trivial, ?_⟩
    have hgot := weight_receive (worth c K) got
    simp only [value, turn, weight_append, weight_singleton, worth, addressed_withNul] at hgot ⊢
    omega
  | @receiveTask w x rest replies idle got run =>
    obtain ⟨j, client, sent, way⟩ := relayed.onWay _ x (receive_mem got)
    generalize hmessage : x.message = message at way run
    cases way
    rw [Worker.processImp_eq] at run
    cases run
    refine ⟨j, x.task, trivial, ?_⟩
    have hgot := weight_receive (worth c K) got
    have haddressed : addressed K x = K j x.task := by
      rw [← addressed_withNul K j x.task [x.task.image], ← hmessage]
    have hworker : w ∈ T.workers.toFinset :=
      List.mem_toFinset.mpr (staffed.given w x (receive_mem got))
    have hpending := sum_update T.workers.toFinset (fun xs => c.pending * xs.countP (addressed K))
      s.pending hworker ((List.replicate 10 [withNul j, x.task.image]).map (Parcel.mk x.task))
    rw [List.map_replicate, List.countP_replicate, addressed_withNul, idle, List.countP_nil]
      at hpending
    simp only [value, turn, worth, haddressed, List.map_replicate] at hgot ⊢
    cases hk : K j x.task with
    | true =>
      simp only [hk, ↓reduceIte, Nat.mul_zero, Nat.mul_comm c.pending 10] at hgot hpending ⊢
      omega
    | false =>
      simp only [hk, Bool.false_eq_true, ↓reduceIte, Nat.mul_zero] at hgot hpending ⊢
      omega
  | @sendReply w x later next =>
    obtain ⟨j, client, sent, hmessage⟩ := relayed.pending w x (by simp [next])
    refine ⟨j, x.task, trivial, ?_⟩
    have haddressed : addressed K x = K j x.task := by
      rw [← addressed_withNul K j x.task [x.task.image], ← hmessage]
    have hworker : w ∈ T.workers.toFinset := List.mem_toFinset.mpr (staffed.busy w (by simp [next]))
    have hpending := sum_update T.workers.toFinset (fun xs => c.pending * xs.countP (addressed K))
      s.pending hworker later
    rw [next, List.countP_cons, haddressed] at hpending
    simp only [value, turn, weight_append, weight_singleton, worth, haddressed]
    cases hk : K j x.task with
    | true =>
      simp only [hk, ↓reduceIte, Nat.mul_add, Nat.mul_one] at hpending ⊢
      omega
    | false =>
      simp only [hk, Bool.false_eq_true, ↓reduceIte, Nat.add_zero] at hpending ⊢
      omega
  | @forwardReply w x rest got =>
    obtain ⟨j, client, sent, way⟩ := relayed.onWay _ x (receive_mem got)
    generalize hmessage : x.message = message at way
    cases way
    refine ⟨j, x.task, trivial, ?_⟩
    have hgot := weight_receive (worth c K) got
    have haddressed : addressed K x = K j x.task := by
      rw [← addressed_withNul K j x.task [x.task.image], ← hmessage]
    rw [placeOfFrontEnd_eq client hmessage]
    simp only [value, turn, weight_append, weight_singleton, worth, haddressed,
      Option.toList_some] at hgot ⊢
    omega
  | @poll i x rest got =>
    refine ⟨i, x.task, ⟨rfl, rfl⟩, ?_⟩
    have hgot := weight_receive (worth c K) got
    simp only [value, turn, worth, ite_self] at hgot ⊢
    omega

def sends (K : Class) : Action → Bool
  | .sendRequest i task => K i task
  | _ => false

def polls (K : Class) : Action → Bool
  | .poll i x => K i x.task
  | _ => false

/-- The client copies a task of 8208 bytes over its result of 24: what comes after a poll is not
defined. -/
def Unpolled (as : List Action) : Prop := ∀ i x, .poll i x ∉ as

def works : Action → Bool
  | .sendRequest _ _ | .poll _ _ => false
  | .forwardTask _ _ | .receiveTask _ | .sendReply _ _ | .forwardReply _ => true

def all : Class := fun _ _ => true

def isAnswer (K : Class) : Place × Parcel → Bool
  | (.proxyToClient i, x) => K i x.task
  | _ => false

def waiting (K : Class) (s : System) : Nat := s.inFlight.countP (isAnswer K)

/-- The replies that a request leads to. -/
def replies : Price := ⟨10, 10, 1, 1, 1⟩

def owed : Price := ⟨10, 10, 1, 1, 0⟩

/-- The steps that a request leads to: two to the worker, and two for every reply. -/
def steps : Price := ⟨22, 21, 2, 1, 0⟩

theorem value_replies (K : Class) (T : Topology) (s : System) :
    value replies K T s = waiting K s + value owed K T s := by
  have hweight : ∀ pool : Pool Place Parcel, weight (worth replies K) pool =
      pool.countP (isAnswer K) + weight (worth owed K) pool := by
    intro pool
    induction pool with
    | nil => rfl
    | cons x pool ih =>
      have hfirst : worth replies K x = (if isAnswer K x then 1 else 0) + worth owed K x := by
        obtain ⟨p, x⟩ := x
        cases p with
        | proxyToClient i =>
          simp only [worth, replies, owed, ite_self, Nat.add_zero]
          rfl
        | clientToProxy | proxyToWorker | workerToProxy => simp [worth, replies, owed, isAnswer]
      rw [List.countP_cons]
      simp only [weight, List.map_cons, List.sum_cons, hfirst] at ih ⊢
      omega
  rw [value, value, hweight, waiting, Nat.add_assoc]
  rfl

theorem reply_account (T : Topology) (add : Double → Double → Double) (K : Class) :
    Account (Step T add) (Going T) (value replies K T) (fun a => if polls K a then 1 else 0)
      (fun a => if sends K a then 10 else 0) where
  preserved := fun _ _ _ h hs => h.step hs
  balanced := by
    intro s a t h hs
    obtain ⟨i, task, about, hvalue⟩ := value_step replies K h hs
    cases a with
    | sendRequest j task' | poll j x =>
      obtain ⟨rfl, rfl⟩ := about
      simp only [turn, replies, ite_self] at hvalue
      exact hvalue
    | forwardTask | receiveTask | sendReply | forwardReply =>
      simpa [turn, replies, sends, polls] using hvalue

theorem step_account (T : Topology) (add : Double → Double → Double) :
    Account (Step T add) (Going T) (value steps all T) (fun a => if works a then 1 else 0)
      (fun a => if sends all a then 22 else 0) where
  preserved := fun _ _ _ h hs => h.step hs
  balanced := by
    intro s a t h hs
    obtain ⟨i, task, about, hvalue⟩ := value_step steps all h hs
    cases a with
    | sendRequest | forwardTask | receiveTask | sendReply | forwardReply | poll =>
      simp only [turn, steps, sends, works, all, ↓reduceIte, Bool.false_eq_true] at hvalue ⊢
      omega

theorem can_reply (busy : s.pending w ≠ []) : ∃ a t, Step T add s a t ∧ works a = true := by
  obtain ⟨x, later, next⟩ := List.exists_cons_of_ne_nil busy
  exact ⟨_, _, .sendReply next, rfl⟩

theorem can_work (add : Double → Double → Double) (h : Going T s) (staffed : T.workers ≠ [])
    {p : Place} {x : Parcel} (busy : (p, x) ∈ s.inFlight) (under : ∀ i, p ≠ .proxyToClient i) :
    ∃ a t, Step T add s a t ∧ works a = true := by
  obtain ⟨_, past, relayed⟩ := h
  obtain ⟨y, rest, got⟩ := exists_receive_of_mem busy
  cases p with
  | clientToProxy i =>
    obtain ⟨w, worker⟩ := List.exists_mem_of_ne_nil _ staffed
    exact ⟨_, _, .forwardTask worker got, rfl⟩
  | proxyToWorker w =>
    by_cases idle : s.pending w = []
    · obtain ⟨i, client, sent, way⟩ := relayed.onWay _ y (receive_mem got)
      generalize hmessage : y.message = message at way
      cases way
      exact ⟨_, _, .receiveTask idle got (hmessage ▸ Worker.processImp_eq add i y.task), rfl⟩
    · exact can_reply idle
  | workerToProxy w => exact ⟨_, _, .forwardReply got, rfl⟩
  | proxyToClient i => exact absurd rfl (under i)

theorem owed_eq_zero (h : Going T s) (staffed : T.workers ≠ [])
    (rests : ∀ a t, Step T add s a t → works a = false) (K : Class) : value owed K T s = 0 := by
  have hpending : ∀ w, s.pending w = [] := by
    intro w
    by_contra busy
    obtain ⟨a, t, hs, hworks⟩ : ∃ a t, Step T add s a t ∧ works a = true := can_reply busy
    rw [rests a t hs] at hworks
    cases hworks
  have hworth : ∀ x ∈ s.inFlight, worth owed K x = 0 := by
    rintro ⟨p, x⟩ hx
    by_cases answered : ∃ i, p = .proxyToClient i
    · obtain ⟨i, rfl⟩ := answered
      simp [worth, owed]
    · obtain ⟨a, t, hs, hworks⟩ := can_work add h staffed hx (not_exists.mp answered)
      rw [rests a t hs] at hworks
      cases hworks
  rw [value, weight, List.map_congr_left hworth]
  simp [hpending]

/-- Up to the first poll, the replies that wait for the clients and those that are still owed are
ten for every request; a request is 22 steps of work; and once proxy and workers have nothing left
to do, ten replies wait for every request. -/
theorem ten_replies_each (run : Run (Step T add) System.init as s) (unpolled : Unpolled as) :
    (∀ K, waiting K s + value owed K T s = 10 * as.countP (sends K)) ∧
    as.countP works + value steps all T s = 22 * as.countP (sends all) ∧
    (T.workers ≠ [] → (∀ a t, Step T add s a t → works a = false) →
      ∀ K, waiting K s = 10 * as.countP (sends K)) := by
  have h : Going T s := run.invariant (fun _ _ _ h hs => h.step hs) (going_init T)
  have hinit : ∀ c K, value c K T System.init = 0 := by
    intro c K
    simp [value, System.init]
  have hreplies : ∀ K, waiting K s + value owed K T s = 10 * as.countP (sends K) := by
    intro K
    have hpolls : as.countP (polls K) = 0 := by
      refine List.countP_eq_zero.mpr fun a ha => ?_
      cases a with
      | poll i x => exact absurd ha (unpolled i x)
      | _ => simp [polls]
    have hbalance := (reply_account T add K).run run (going_init T)
    rw [sum_map_ite, sum_map_ite, hpolls, hinit, value_replies] at hbalance
    omega
  refine ⟨hreplies, ?_, fun staffed rests K => ?_⟩
  · have hbalance := (step_account T add).run run (going_init T)
    rw [sum_map_ite, sum_map_ite, hinit] at hbalance
    omega
  · rw [← hreplies K, owed_eq_zero h staffed rests K, Nat.add_zero]

/-- The first of the ten replies waits for the client. -/
theorem ten_replies_each_first_reply : ∃ as s, Run (Step oneOfEach (· + ·)) System.init as s ∧
    waiting all s = 1 ∧ as.countP (sends all) = 1 ∧
      waiting all s + value owed all oneOfEach s = 10 * as.countP (sends all) := by
  obtain ⟨s, run, hwaiting⟩ := exists_replied (T := oneOfEach) (· + ·) List.mem_cons_self
    List.mem_cons_self (Obj.zero sizeofTask)
  refine ⟨_, s, run, ?_, rfl, (ten_replies_each run ?_).1 all⟩
  · rw [waiting, hwaiting]
    rfl
  · simp [Unpolled]

end SimTools.AsyncServer.Conservation
