/- Module: SimTools/LoadBalance/BackEnd
   digest: The broker of the load balancer frame by frame: when back-end messages are read whole. -/

import SimTools.LoadBalance.Components
import SimTools.Lib.Runs
import Mathlib.Data.List.Forall2

set_option autoImplicit false
set_option relaxedAutoImplicit false

namespace SimTools.LoadBalance.BackEnd

open Lib.Memory
open Lib.Sockets
open Lib.Runs
open Components

inductive WorkerMessage
  | alive (workerID : Bytes)
  | reply (workerID clientID result : Bytes)
  deriving DecidableEq

namespace WorkerMessage

def frames : WorkerMessage → Parts
  | alive workerID => withNul workerID :: Worker.aliveSignal
  | reply workerID clientID result => [withNul workerID, withNul clientID, result]

def forwarded : WorkerMessage → Option Parts
  | alive _ => none
  | reply _ clientID result => some [withNul clientID, result]

/-- A reply for a client that is named like the alive signal. -/
def LooksAlive : WorkerMessage → Prop
  | alive _ => False
  | reply _ clientID _ => clientID = globalConstID_ALIVE

instance : DecidablePred LooksAlive
  | alive _ => inferInstanceAs (Decidable False)
  | reply _ clientID _ => inferInstanceAs (Decidable (clientID = globalConstID_ALIVE))

end WorkerMessage

/-- The branch of the back end on the frames that wait at the socket, with those that it leaves.
While there are too few of them, the broker waits in `recv`. -/
def serveBackEndFrames (b : BalanceBroker) (frames : Parts) :
    Except MemError ((BalanceBroker × Option Parts) × Parts) := do
  let (msgWorkerID, frames) ← recv frames
  let (msgClientID, frames) ← recv frames
  let workerID ← dropNul msgWorkerID
  let clientID ← dropNul msgClientID
  let b := b.push workerID
  if clientID = globalConstID_ALIVE then
    pure (({ b with line := .poll }, none), frames)
  else do
    let (msgReply, frames) ← recv frames
    pure (({ b with line := .frontEnd }, some [msgClientID, msgReply]), frames)

/-- The broker, the frames at its back end and the messages at its front end. -/
structure System where
  broker : BalanceBroker
  backEnd : Parts
  frontEnd : List Parts

def System.init : System := ⟨BalanceBroker.init, [], []⟩

/-- One iteration for the back end: the frames that it read, and what it sent to a client. It took
them for an alive signal when it sent nothing. -/
structure Handled where
  read : Parts
  sent : Option Parts
  deriving DecidableEq

inductive Action
  | arrive (m : WorkerMessage)
  | request (clientID : Bytes) (task : Task)
  | poll (backEnd frontEnd : Bool)
  | serveBackEnd (h : Handled)
  | passBackEnd
  | serveFrontEnd (sent : Parts)
  | passFrontEnd

/-- The loop of the broker with peers that send at any time; a client has any name but the empty
one. What one poll reports about the sockets is not restricted. -/
inductive Step : System → Action → System → Prop
  | arrive {s : System} (m : WorkerMessage) :
      Step s (.arrive m) { s with backEnd := s.backEnd ++ m.frames }
  | request {s : System} {clientID : Bytes} (task : Task) : clientID ≠ [] →
      Step s (.request clientID task)
        { s with frontEnd := s.frontEnd ++ [withNul clientID :: Client.request task] }
  | poll {s : System} (backEnd frontEnd : Bool) : s.broker.line = .poll →
      Step s (.poll backEnd frontEnd) { s with broker := s.broker.poll backEnd frontEnd }
  | serveBackEnd {s : System} {read rest : Parts} {b : BalanceBroker} {sent : Option Parts} :
      s.broker.line = .backEnd → s.broker.backEndReady = true → s.backEnd = read ++ rest →
      serveBackEndFrames s.broker s.backEnd = .ok ((b, sent), rest) →
      Step s (.serveBackEnd ⟨read, sent⟩) { s with broker := b, backEnd := rest }
  | passBackEnd {s : System} : s.broker.line = .backEnd → s.broker.backEndReady = false →
      Step s .passBackEnd { s with broker := { s.broker with line := .frontEnd } }
  | serveFrontEnd {s : System} {msg sent : Parts} {rest : List Parts} {b : BalanceBroker} :
      s.broker.line = .frontEnd → s.broker.frontEndReady = true → s.frontEnd = msg :: rest →
      s.broker.serveFrontEnd msg = .ok (b, some sent) →
      Step s (.serveFrontEnd sent) { s with broker := b, frontEnd := rest }
  | passFrontEnd {s : System} : s.broker.line = .frontEnd → s.broker.frontEndReady = false →
      Step s .passFrontEnd { s with broker := { s.broker with line := .poll } }

def arrivals (as : List Action) : List WorkerMessage :=
  as.filterMap (fun a => match a with
    | .arrive m => some m
    | _ => none)

def handled (as : List Action) : List Handled :=
  as.filterMap (fun a => match a with
    | .serveBackEnd h => some h
    | _ => none)

/-- The messages that the iterations so far are for. -/
def met (as : List Action) : List WorkerMessage := (arrivals as).take (handled as).length

def unmet (as : List Action) : List WorkerMessage := (arrivals as).drop (handled as).length

/-- The iteration reads the frames of the message, all of them and no others, takes it for an alive
signal when it is one, and forwards it to its client when it is a reply. -/
structure Right (m : WorkerMessage) (h : Handled) : Prop where
  read : h.read = m.frames
  classified : h.sent = none ↔ ∃ workerID, m = .alive workerID
  sent : h.sent = m.forwarded

/-- Every iteration for the back end is right about its message, the next one begins at a message
boundary, and it computes no length below zero. -/
structure Whole (as : List Action) (s : System) : Prop where
  right : List.Forall₂ Right (met as) (handled as)
  boundary : s.backEnd = (unmet as).flatMap WorkerMessage.frames
  faultless : serveBackEndFrames s.broker s.backEnd ≠ .error .lengthWrapped

variable {s t : System} {a : Action} {past : List Action} {b : BalanceBroker}

/-- A message that does not look like an alive signal without being one is handled right. -/
theorem serveBackEndFrames_frames (b : BalanceBroker) {m : WorkerMessage} (plain : ¬ m.LooksAlive)
    (rest : Parts) : ∃ b', serveBackEndFrames b (m.frames ++ rest) =
      .ok ((b', m.forwarded), rest) := by
  cases m with
  | alive workerID =>
    refine ⟨{ b.push workerID with line := .poll }, ?_⟩
    simp only [serveBackEndFrames, WorkerMessage.frames, Worker.aliveSignal, List.cons_append,
      List.nil_append, recv_cons, dropNul_withNul, ↓reduceIte, WorkerMessage.forwarded, bind,
      Except.bind, pure, Except.pure]
  | reply workerID clientID result =>
    have hne : ¬ clientID = globalConstID_ALIVE := plain
    refine ⟨{ b.push workerID with line := .frontEnd }, ?_⟩
    simp only [serveBackEndFrames, WorkerMessage.frames, List.cons_append, List.nil_append,
      recv_cons, dropNul_withNul, hne, ↓reduceIte, WorkerMessage.forwarded, bind, Except.bind, pure,
      Except.pure]

/-- A reply that looks like an alive signal is taken for one, and its result stays behind. -/
theorem serveBackEndFrames_looksAlive (b : BalanceBroker) (workerID result : Bytes)
    (rest : Parts) :
    serveBackEndFrames b
      ((WorkerMessage.reply workerID globalConstID_ALIVE result).frames ++ rest) =
        .ok (({ b.push workerID with line := .poll }, none), result :: rest) := by
  simp only [serveBackEndFrames, WorkerMessage.frames, List.cons_append, List.nil_append, recv_cons,
    dropNul_withNul, ↓reduceIte, bind, Except.bind, pure, Except.pure]

theorem faultless_of_boundary (b : BalanceBroker) (ms : List WorkerMessage) :
    serveBackEndFrames b (ms.flatMap WorkerMessage.frames) ≠ .error .lengthWrapped := by
  cases ms with
  | nil => simp [serveBackEndFrames, recv, bind, Except.bind]
  | cons m ms =>
    rw [List.flatMap_cons]
    by_cases looks : m.LooksAlive
    · cases m with
      | alive workerID => cases looks
      | reply workerID clientID result =>
        obtain rfl : clientID = globalConstID_ALIVE := looks
        rw [serveBackEndFrames_looksAlive]
        simp
    · obtain ⟨b', run⟩ := serveBackEndFrames_frames b looks (ms.flatMap WorkerMessage.frames)
      rw [run]
      simp

theorem right_iff {m : WorkerMessage} {read rest more : Parts} {b' : BalanceBroker}
    {sent : Option Parts} (frames : m.frames ++ more = read ++ rest)
    (run : serveBackEndFrames b (m.frames ++ more) = .ok ((b', sent), rest)) :
    (Right m ⟨read, sent⟩ ↔ ¬ m.LooksAlive) ∧ (¬ m.LooksAlive → rest = more) := by
  by_cases looks : m.LooksAlive
  · refine ⟨iff_of_false ?_ (not_not.mpr looks), fun plain => absurd looks plain⟩
    rintro ⟨_, _, hsent⟩
    cases m with
    | alive workerID => cases looks
    | reply workerID clientID result =>
      obtain rfl : clientID = globalConstID_ALIVE := looks
      rw [serveBackEndFrames_looksAlive] at run
      cases run
      cases hsent
  · obtain ⟨b'', hrun⟩ := serveBackEndFrames_frames b looks more
    rw [hrun] at run
    cases run
    refine ⟨iff_of_true ⟨(List.append_cancel_right frames).symm, ?_, rfl⟩ looks, fun _ => rfl⟩
    cases m with
    | alive workerID => simp [WorkerMessage.forwarded]
    | reply workerID clientID result => simp [WorkerMessage.forwarded]

/-- While no reply looks alive the broker is right; from the first one on, some iteration is wrong
about its message. -/
structure Tracked (past : List Action) (s : System) : Prop where
  whole : (∀ m ∈ met past, ¬ m.LooksAlive) →
    (handled past).length ≤ (arrivals past).length ∧ List.Forall₂ Right (met past) (handled past) ∧
      s.backEnd = (unmet past).flatMap WorkerMessage.frames
  wrong : ¬ (∀ m ∈ met past, ¬ m.LooksAlive) →
    ∃ (k : Nat) (m : WorkerMessage) (h : Handled),
      (arrivals past)[k]? = some m ∧ (handled past)[k]? = some h ∧ ¬ Right m h

theorem arrivals_append (as bs : List Action) : arrivals (as ++ bs) = arrivals as ++ arrivals bs :=
  List.filterMap_append

theorem handled_append (as bs : List Action) : handled (as ++ bs) = handled as ++ handled bs :=
  List.filterMap_append

theorem met_subset (as bs : List Action) : ∀ m ∈ met as, m ∈ met (as ++ bs) := by
  intro m hm
  obtain ⟨k, hk, rfl⟩ := List.mem_take_iff_getElem.mp hm
  rw [met, arrivals_append, handled_append]
  refine List.mem_take_iff_getElem.mpr ⟨k, ?_, ?_⟩
  · simp only [List.length_append]
    omega
  · exact List.getElem_append_left _

theorem wrong_append {as : List Action} (bs : List Action)
    (wrong : ∃ (k : Nat) (m : WorkerMessage) (h : Handled),
      (arrivals as)[k]? = some m ∧ (handled as)[k]? = some h ∧ ¬ Right m h) :
    ∃ (k : Nat) (m : WorkerMessage) (h : Handled),
      (arrivals (as ++ bs))[k]? = some m ∧ (handled (as ++ bs))[k]? = some h ∧ ¬ Right m h := by
  obtain ⟨k, m, h, harrived, hhandled, hwrong⟩ := wrong
  obtain ⟨hm, _⟩ := List.getElem?_eq_some_iff.mp harrived
  obtain ⟨hh, _⟩ := List.getElem?_eq_some_iff.mp hhandled
  refine ⟨k, m, h, ?_, ?_, hwrong⟩
  · rw [arrivals_append, List.getElem?_append_left hm, harrived]
  · rw [handled_append, List.getElem?_append_left hh, hhandled]

theorem Tracked.frame (h : Tracked past s) (arrived : arrivals [a] = []) (quiet : handled [a] = [])
    (same : t.backEnd = s.backEnd) : Tracked (past ++ [a]) t := by
  have harrivals : arrivals (past ++ [a]) = arrivals past := by
    rw [arrivals_append, arrived, List.append_nil]
  have hhandled : handled (past ++ [a]) = handled past := by
    rw [handled_append, quiet, List.append_nil]
  constructor
  · rw [met, unmet, harrivals, hhandled, same]
    exact h.whole
  · rw [met, harrivals, hhandled]
    exact h.wrong

theorem Tracked.later (h : Tracked past s) (met_alive : ¬ ∀ m ∈ met past, ¬ m.LooksAlive) :
    Tracked (past ++ [a]) t := by
  have hlater : ¬ ∀ m ∈ met (past ++ [a]), ¬ m.LooksAlive := fun hall =>
    met_alive (fun m hm => hall m (met_subset past _ m hm))
  exact ⟨fun hall => absurd hall hlater, fun _ => wrong_append _ (h.wrong met_alive)⟩

theorem Tracked.arrive (h : Tracked past s) (m : WorkerMessage) :
    Tracked (past ++ [.arrive m]) { s with backEnd := s.backEnd ++ m.frames } := by
  have harrivals : arrivals (past ++ [.arrive m]) = arrivals past ++ [m] := arrivals_append _ _
  have hhandled : handled (past ++ [.arrive m]) = handled past := by
    rw [handled_append]
    exact List.append_nil _
  by_cases plain : ∀ m ∈ met past, ¬ m.LooksAlive
  · obtain ⟨hle, hright, hboundary⟩ := h.whole plain
    have hmet : met (past ++ [.arrive m]) = met past := by
      rw [met, harrivals, hhandled, List.take_append_of_le_length hle, met]
    have hunmet : unmet (past ++ [.arrive m]) = unmet past ++ [m] := by
      rw [unmet, harrivals, hhandled, List.drop_append_of_le_length hle, unmet]
    refine ⟨fun _ => ⟨?_, ?_, ?_⟩, fun hnot => absurd plain (by rwa [hmet] at hnot)⟩
    · rw [harrivals, hhandled, List.length_append]
      omega
    · rw [hmet, hhandled]
      exact hright
    · rw [hunmet, List.flatMap_append, hboundary, List.flatMap_singleton]
  · exact h.later plain

theorem arrivals_serveBackEnd (past : List Action) (e : Handled) :
    arrivals (past ++ [.serveBackEnd e]) = arrivals past := by
  rw [arrivals_append]
  exact List.append_nil _

theorem handled_serveBackEnd (past : List Action) (e : Handled) :
    handled (past ++ [.serveBackEnd e]) = handled past ++ [e] := handled_append _ _

/-- The message that an iteration is for is the first one not met before. -/
theorem arrival_of_unmet {m : WorkerMessage} {more : List WorkerMessage}
    (waits : unmet past = m :: more) : (arrivals past)[(handled past).length]? = some m := by
  have hhead : (unmet past)[0]? = some m := by rw [waits]; rfl
  rwa [unmet, List.getElem?_drop] at hhead

theorem met_serveBackEnd {m : WorkerMessage} {more : List WorkerMessage}
    (waits : unmet past = m :: more) (e : Handled) :
    met (past ++ [.serveBackEnd e]) = met past ++ [m] := by
  obtain ⟨hlt, hm⟩ := List.getElem?_eq_some_iff.mp (arrival_of_unmet waits)
  rw [met, arrivals_serveBackEnd, handled_serveBackEnd, List.length_append, List.length_singleton,
    List.take_succ_eq_append_getElem hlt, hm, met]

theorem unmet_serveBackEnd {m : WorkerMessage} {more : List WorkerMessage}
    (waits : unmet past = m :: more) (e : Handled) :
    unmet (past ++ [.serveBackEnd e]) = more := by
  rw [unmet, arrivals_serveBackEnd, handled_serveBackEnd, List.length_append, ← List.drop_drop,
    ← unmet, waits]
  rfl

theorem Tracked.serveBackEnd (h : Tracked past s) {read rest : Parts} {b : BalanceBroker}
    {sent : Option Parts} (frames : s.backEnd = read ++ rest)
    (run : serveBackEndFrames s.broker s.backEnd = .ok ((b, sent), rest)) :
    Tracked (past ++ [.serveBackEnd ⟨read, sent⟩]) { s with broker := b, backEnd := rest } := by
  by_cases plain : ∀ m ∈ met past, ¬ m.LooksAlive
  · obtain ⟨hle, hright, hboundary⟩ := h.whole plain
    rw [hboundary] at frames run
    -- the iteration cannot have read anything unless a message waits
    obtain ⟨m, more, waits⟩ : ∃ m more, unmet past = m :: more := by
      cases hunmet : unmet past with
      | nil =>
        rw [hunmet] at run
        cases run
      | cons m more => exact ⟨m, more, rfl⟩
    rw [waits, List.flatMap_cons] at frames run
    obtain ⟨hiff, hmore⟩ := right_iff frames run
    have hmet := met_serveBackEnd waits ⟨read, sent⟩
    have hhere := arrival_of_unmet waits
    refine ⟨fun hall => ?_, fun hnot => ?_⟩
    · have hplain : ¬ m.LooksAlive := hall m (by rw [hmet]; simp)
      refine ⟨?_, ?_, ?_⟩
      · rw [arrivals_serveBackEnd, handled_serveBackEnd, List.length_append]
        exact (List.getElem?_eq_some_iff.mp hhere).1
      · rw [hmet, handled_serveBackEnd]
        exact List.rel_append hright (.cons (hiff.mpr hplain) .nil)
      · rw [unmet_serveBackEnd waits]
        exact hmore hplain
    · have hlooks : m.LooksAlive := by
        by_contra hplain
        refine hnot (fun m' hm' => ?_)
        rw [hmet] at hm'
        rcases List.mem_append.mp hm' with hm' | hm'
        · exact plain m' hm'
        · obtain rfl := List.mem_singleton.mp hm'
          exact hplain
      refine ⟨(handled past).length, m, ⟨read, sent⟩, ?_, ?_, ?_⟩
      · rw [arrivals_serveBackEnd, hhere]
      · rw [handled_serveBackEnd, List.getElem?_append_right (Nat.le_refl _), Nat.sub_self]
        rfl
      · exact fun hright => hiff.mp hright hlooks
  · exact h.later plain

theorem tracked_init : Tracked [] System.init :=
  ⟨fun _ => ⟨Nat.le_refl _, .nil, rfl⟩, fun hnot => absurd (fun _ hm => by cases hm) hnot⟩

theorem Tracked.step (h : Tracked past s) (hs : Step s a t) : Tracked (past ++ [a]) t := by
  cases hs with
  | arrive m => exact h.arrive m
  | serveBackEnd line ready frames run => exact h.serveBackEnd frames run
  | request | poll | passBackEnd | serveFrontEnd | passFrontEnd => exact h.frame rfl rfl rfl

/-- In every run the back end is read whole exactly as long as no reply that was met is for a client
named like the alive signal. -/
theorem whole_iff {as : List Action} (run : Run Step System.init as s) :
    Whole as s ↔ ∀ m ∈ met as, ¬ m.LooksAlive := by
  have h := run.history_invariant (fun _ _ _ _ h hs => h.step hs) tracked_init
  rw [List.nil_append] at h
  constructor
  · intro whole
    by_contra hnot
    obtain ⟨k, m, e, harrived, hhandled, hwrong⟩ := h.wrong hnot
    obtain ⟨hk, _⟩ := List.getElem?_eq_some_iff.mp hhandled
    have hmet : (met as)[k]? = some m := by
      rw [met, List.getElem?_take, if_pos hk, harrived]
    obtain ⟨hk', rfl⟩ := List.getElem?_eq_some_iff.mp hmet
    obtain ⟨_, rfl⟩ := List.getElem?_eq_some_iff.mp hhandled
    exact hwrong (whole.right.get hk' hk)
  · intro plain
    obtain ⟨_, hright, hboundary⟩ := h.whole plain
    exact ⟨hright, hboundary, by rw [hboundary]; exact faultless_of_boundary _ _⟩

/-- A worker signals, and later replies to a client. -/
theorem whole_iff_reply : ∃ as s, Run Step System.init as s ∧
    handled as = [⟨[[119, 0], withNul globalConstID_ALIVE], none⟩,
      ⟨[[119, 0], [99, 0], [5]], some [[99, 0], [5]]⟩] ∧ Whole as s := by
  have run : Run Step System.init
      [.arrive (.alive [119]), .poll true false,
        .serveBackEnd ⟨[[119, 0], withNul globalConstID_ALIVE], none⟩,
        .arrive (.reply [119] [99] [5]), .poll true false,
        .serveBackEnd ⟨[[119, 0], [99, 0], [5]], some [[99, 0], [5]]⟩]
      ⟨⟨[[119], [119]], true, false, .frontEnd⟩, [], []⟩ := by
    refine .cons (.arrive _) ?_
    refine .cons (.poll _ _ rfl) ?_
    refine .cons (.serveBackEnd rfl rfl rfl rfl) ?_
    refine .cons (.arrive _) ?_
    refine .cons (.poll _ _ rfl) ?_
    exact .cons (.serveBackEnd rfl rfl rfl rfl) (.nil _)
  exact ⟨_, _, run, rfl, (whole_iff run).mpr (by decide)⟩

theorem run_of_client_named_alive (task : Task) (result : Bytes) : ∃ as s,
    Run Step System.init as s ∧ Action.request globalConstID_ALIVE task ∈ as ∧
    .serveFrontEnd [[119, 0], withNul globalConstID_ALIVE, task.image] ∈ as ∧
    met as = [.alive [119], .reply [119] globalConstID_ALIVE result] ∧
    handled as = [⟨[[119, 0], withNul globalConstID_ALIVE], none⟩,
      ⟨[[119, 0], withNul globalConstID_ALIVE], none⟩] ∧ s.backEnd = [result] := by
  have hsignal : Run Step System.init
      [.arrive (.alive [119]), .poll true false,
        .serveBackEnd ⟨[[119, 0], withNul globalConstID_ALIVE], none⟩]
      ⟨⟨[[119]], true, false, .poll⟩, [], []⟩ := by
    refine .cons (.arrive _) ?_
    refine .cons (.poll _ _ rfl) ?_
    exact .cons (.serveBackEnd rfl rfl rfl rfl) (.nil _)
  have hserve := BalanceBroker.serveFrontEnd_eq ⟨[[119]], false, true, .frontEnd⟩ [119]
    globalConstID_ALIVE rfl task
  have htask : Run Step ⟨⟨[[119]], true, false, .poll⟩, [], []⟩
      [.request globalConstID_ALIVE task, .poll false true, .passBackEnd,
        .serveFrontEnd [[119, 0], withNul globalConstID_ALIVE, task.image]]
      ⟨⟨[], false, true, .poll⟩, [], []⟩ := by
    refine .cons (.request task (by decide)) ?_
    refine .cons (.poll _ _ rfl) ?_
    refine .cons (.passBackEnd rfl rfl) ?_
    exact .cons (.serveFrontEnd rfl rfl rfl hserve) (.nil _)
  have hreply : Run Step ⟨⟨[], false, true, .poll⟩, [], []⟩
      [.arrive (.reply [119] globalConstID_ALIVE result), .poll true false,
        .serveBackEnd ⟨[[119, 0], withNul globalConstID_ALIVE], none⟩]
      ⟨⟨[[119]], true, false, .poll⟩, [result], []⟩ := by
    refine .cons (.arrive _) ?_
    refine .cons (.poll _ _ rfl) ?_
    exact .cons (.serveBackEnd rfl rfl rfl rfl) (.nil _)
  exact ⟨_, _, hsignal.append (htask.append hreply), by simp, by simp, rfl, rfl, rfl⟩

/-- The reply for such a client is taken for an alive signal, and its result is what the next read
of a worker id finds. -/
theorem client_named_alive : ∃ (task : Task) (result : Bytes),
    Worker.processImp (fun _ y => y) [withNul globalConstID_ALIVE, task.image] =
      .ok [withNul globalConstID_ALIVE, result] ∧
    ∃ as s, Run Step System.init as s ∧ Action.request globalConstID_ALIVE task ∈ as ∧
      met as = [.alive [119], .reply [119] globalConstID_ALIVE result] ∧
      s.backEnd = [result] ∧ ¬ Whole as s := by
  refine ⟨Obj.zero sizeofTask, _, Worker.processImp_eq _ _ _, ?_⟩
  obtain ⟨as, s, run, request, _, hmet, hhandled, backEnd⟩ :=
    run_of_client_named_alive (Obj.zero sizeofTask) (TaskResult.ofSum
      (Task.taskMeta (Obj.zero sizeofTask))
      (Worker.sumOf (fun _ y => y) (Obj.zero sizeofTask))).image
  refine ⟨as, s, run, request, hmet, backEnd, fun whole => ?_⟩
  have hright := whole.right
  rw [hmet, hhandled] at hright
  obtain ⟨_, hright⟩ := List.forall₂_cons.mp hright
  obtain ⟨⟨_, _, hsent⟩, _⟩ := List.forall₂_cons.mp hright
  cases hsent

end SimTools.LoadBalance.BackEnd
