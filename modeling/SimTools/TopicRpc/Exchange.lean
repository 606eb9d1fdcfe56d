/- Module: SimTools/TopicRpc/Exchange
   digest: dummy_car and dummy_planning: what each prints of the other, however they interleave. -/

import SimTools.Lib.Accounts
import SimTools.Lib.Sessions
import SimTools.RouterRequest.SimParse
import SimTools.TopicRpc.Linearizable

set_option autoImplicit false
set_option relaxedAutoImplicit false

namespace SimTools.TopicRpc.Exchange

open Lib.Accounts
open Lib.Channels
open Lib.Memory
open Lib.Linearization
open Lib.Runs
open Lib.Sessions
open Lib.Sockets
open RouterRequest.SimProto
open SyncRpc
open Service
open Linearizable

inductive Peer
  | car
  | planning
  deriving DecidableEq

namespace Peer

def other : Peer → Peer
  | .car => .planning
  | .planning => .car

theorem other_other (p : Peer) : p.other.other = p := by
  cases p <;> rfl

/-- `names::PerfectControl` and `names::PLANNING` -/
def name : Peer → Bytes
  | .car => bytesOf "PerfectControl"
  | .planning => bytesOf "PLANNING"

def topic : Peer → Bytes
  | .car => bytesOf "LOCATION"
  | .planning => bytesOf "TRAJECTORY"

end Peer

def clients : List Bytes := [Peer.car.name, Peer.planning.name]

/-- The code that protoc generates for the messages of the two programs. -/
structure SimMessages where
  location : Codec Location
  trajectory : Codec Trajectory

section Main

/- `i / 1000.0` for the int `i`, in which the division is left abstract. -/
variable (quotient : Nat → Nat → Double) (C : SimMessages)

def setLocation (location : Location) (i : Nat) : Location :=
  { location with
    t := some ⟨quotient i 1000⟩
    position := some ⟨quotient i 1, quotient i 2, quotient i 3⟩ }

/-- Iteration `i` of dummy_planning adds a point to those there are. -/
def addPoint (trajectory : Trajectory) (i : Nat) : Trajectory :=
  { t := some ⟨quotient i 100⟩
    point := trajectory.point ++
      [⟨none, 0, some ⟨quotient i 1, quotient i 2, quotient i 4⟩, none, none, none⟩] }

def location : Nat → Location
  | 0 => .init
  | i + 1 => setLocation quotient (location i) i

def trajectory : Nat → Trajectory
  | 0 => .init
  | i + 1 => addPoint quotient (trajectory i) i

/-- `ParseFromString` undoes `SerializeToString` for the messages that the programs send, and makes
a message without fields of no bytes. -/
structure ReadsBack : Prop where
  location : ∀ n, C.location.parseFromString
    (C.location.serializeToString (location quotient n)) = location quotient n
  trajectory : ∀ n, C.trajectory.parseFromString
    (C.trajectory.serializeToString (trajectory quotient n)) = trajectory quotient n
  no_location : C.location.parseFromString [] = .init
  no_trajectory : C.trajectory.parseFromString [] = .init

/-- What the topic of a peer holds after it has been set `n` times. -/
def payload : Peer → Nat → Bytes
  | _, 0 => []
  | .car, n + 1 => C.location.serializeToString (location quotient (n + 1))
  | .planning, n + 1 => C.trajectory.serializeToString (trajectory quotient (n + 1))

/-- An iteration of `main` gets the topic of the other peer, and then sets its own. -/
def main (p : Peer) (k : Nat) : Op :=
  if k % 2 = 0 then .getMessageByTopic p.other.topic
  else .setMessageByTopic p.topic (payload quotient C p (k / 2 + 1))

/-- Every call that is made is the next of one of the two programs, of 100 iterations each. -/
structure Step (P : Protobuf) (s : System) (a : Action) (t : System) : Prop where
  step : Service.Step P clients s a t
  follows : ∀ i k op, a = .call (i, k) op →
    ∃ p : Peer, i = p.name ∧ k < 200 ∧ op = main quotient C p k

end Main

variable {quotient : Nat → Nat → Double} {C : SimMessages} {P : Protobuf} {s : System}
  {as : List Action}

def Returned (past : List Action) (s : System) : Prop :=
  ∀ i k, k < (s.client i).calls →
    (∃ op, (s.client i).pending = some (k, op)) ∨ ∃ r, .receive (i, k) r ∈ past

theorem Returned.keep {past : List Action} {t : System} (h : Returned past s) (a : Action)
    {i : Bytes} (same : t.client i = s.client i) {k : Nat} (hk : k < (t.client i).calls) :
    (∃ op, (t.client i).pending = some (k, op)) ∨ ∃ r, .receive (i, k) r ∈ past ++ [a] := by
  rw [same] at hk ⊢
  rcases h i k hk with pending | ⟨r, hr⟩
  · exact .inl pending
  · exact .inr ⟨r, List.mem_append_left _ hr⟩

theorem Returned.step {past : List Action} {a : Action} {t : System} (h : Returned past s)
    (hs : Service.Step P clients s a t) : Returned (past ++ [a]) t := by
  intro i k hk
  cases hs with
  | @call j op parts _ free =>
    by_cases here : i = j
    · subst here
      simp only [System.setClient, Function.update_self] at hk ⊢
      rcases Nat.lt_succ_iff_lt_or_eq.mp hk with hk | rfl
      · rcases h i k hk with ⟨op, pending⟩ | ⟨r, hr⟩
        · rw [free] at pending
          cases pending
        · exact .inr ⟨r, List.mem_append_left _ hr⟩
      · exact .inl ⟨op, rfl⟩
    · exact h.keep _ (Function.update_of_ne here _ _) hk
  | serve => exact h.keep _ rfl hk
  | @receive j l op msg rest r pending =>
    by_cases here : i = j
    · subst here
      simp only [System.setClient, Function.update_self] at hk ⊢
      rcases h i k hk with ⟨op', pending'⟩ | ⟨r', hr'⟩
      · rw [pending] at pending'
        cases pending'
        exact .inr ⟨r, by simp⟩
      · exact .inr ⟨r', List.mem_append_left _ hr'⟩
    · exact h.keep _ (Function.update_of_ne here _ _) hk

theorem returned_of_run (run : Run (Service.Step P clients) System.init as s) : Returned as s := by
  have hinit : Returned [] System.init := fun _ _ hk => absurd hk (Nat.not_lt_zero _)
  have h := run.history_invariant (fun _ _ _ _ h hs => h.step hs) hinit
  rwa [List.nil_append] at h

theorem blocking_of_run (run : Run (Service.Step P clients) System.init as s) :
    Blocking (history as) := by
  intro before i k op after split j hj
  obtain ⟨past, later, rfl, rfl, hlater⟩ := List.filterMap_eq_append_iff.mp split
  obtain ⟨silent, a, later, rfl, hsilent, ha, _⟩ := List.filterMap_eq_cons_iff.mp hlater
  rw [← List.append_assoc] at run
  obtain ⟨t, hpast, hrest⟩ := run.split
  cases hrest with
  | cons hs _ =>
    cases hs with
    | serve | receive => cases ha
    | call _ free =>
      cases ha
      rcases returned_of_run hpast i j hj with ⟨op, pending⟩ | ⟨r, hr⟩
      · rw [free] at pending
        cases pending
      · refine ⟨r, List.mem_filterMap.mpr ⟨.receive (i, j) r, ?_, rfl⟩⟩
        rcases List.mem_append.mp hr with hr | hr
        · exact hr
        · cases hsilent _ hr

theorem mem_of_event {a : Action} {e : Event CallId Op Reply} (ha : a ∈ as)
    (seen : a.event? = some e) : e ∈ history as := List.mem_filterMap.mpr ⟨a, ha, seen⟩

theorem call_mem_of_invoke {id : CallId} {op : Op} (h : .invoke id op ∈ history as) :
    .call id op ∈ as := by
  obtain ⟨a, ha, seen⟩ := List.mem_filterMap.mp h
  cases a with
  | call => cases seen; exact ha
  | serve | receive => cases seen

/-- The calls of the two programs, in an order in which the topic service may have served them one
at a time. -/
structure Agreed (quotient : Nat → Nat → Double) (C : SimMessages) (as : List Action)
    (order : List (Call CallId Op Reply)) : Prop where
  lin : Linearizes (history as) order
  sequential : Sequential order
  blocking : Blocking (history as)
  programmed : ∀ c ∈ order, ∃ p : Peer, c.id.1 = p.name ∧ c.op = main quotient C p c.id.2

theorem agreed_of_run (hP : P.RoundTrips) (run : Run (Step quotient C P) System.init as s) :
    ∃ marks, Explains P clients s marks ∧ Agreed quotient C as (effects marks) := by
  have served := run.mono (fun _ _ _ hs => hs.step)
  obtain ⟨marks, h, hmarks⟩ := explains_of_run hP served
  have lin := h.pointed.linearizes
  rw [hmarks] at lin
  refine ⟨marks, h, lin, h.sequential, blocking_of_run served, fun c hc => ?_⟩
  obtain ⟨past, u, v, _, hs, _⟩ := run.exists_past_of_mem (call_mem_of_invoke (lin.invoked c hc))
  obtain ⟨p, hp, _, hop⟩ := hs.follows c.id.1 c.id.2 c.op rfl
  exact ⟨p, hp, hop⟩

theorem Peer.name_injective {p q : Peer} (same : p.name = q.name) : p = q := by
  cases p <;> cases q <;> first | rfl | exact absurd same (by decide)

theorem Peer.topic_injective {p q : Peer} (same : p.topic = q.topic) : p = q := by
  cases p <;> cases q <;> first | rfl | exact absurd same (by decide)

theorem Peer.valid_topic (p : Peer) : ValidTopic p.topic := by
  cases p <;> exact ⟨by decide, by decide, isUtf8_bytesOf _⟩

theorem valid_main (p : Peer) (k : Nat) : ValidTopic (main quotient C p k).topic := by
  rw [main]
  split
  · exact p.other.valid_topic
  · exact p.valid_topic

def setBy (quotient : Nat → Nat → Double) (C : SimMessages) (p : Peer) (k : Nat) :
    Option Bytes :=
  if k % 2 = 0 then none else some (payload quotient C p (k / 2 + 1))

theorem last_setBy (p : Peer) (m : Nat) :
    ((List.range m).filterMap (setBy quotient C p)).getLast?.getD [] =
      payload quotient C p (m / 2) := by
  induction m with
  | zero => cases p <;> rfl
  | succ m ih =>
    rw [List.range_succ, List.filterMap_append]
    by_cases even : m % 2 = 0
    · have hnone : [m].filterMap (setBy quotient C p) = [] := by simp [setBy, even]
      have hhalf : (m + 1) / 2 = m / 2 := by omega
      rw [hnone, List.append_nil, ih, hhalf]
    · have hsome : [m].filterMap (setBy quotient C p) =
          [payload quotient C p (m / 2 + 1)] := by simp [setBy, even]
      have hhalf : (m + 1) / 2 = m / 2 + 1 := by omega
      rw [hsome, List.getLast?_concat, Option.getD_some, hhalf]

/-- A topic has the payload of the last iteration in which its peer has set it. -/
theorem lastSet_eq {front : List (Call CallId Op Reply)} (ordered : InOrder front)
    (programmed : ∀ c ∈ front, ∃ p : Peer, c.id.1 = p.name ∧ c.op = main quotient C p c.id.2)
    (q : Peer) : lastSet q.topic front = payload quotient C q (made q.name front / 2) := by
  have hsets : ∀ c ∈ front, payloadFor q.topic c =
      if c.id.1 = q.name then setBy quotient C q c.id.2 else none := by
    intro c hc
    obtain ⟨p, hp, hop⟩ := programmed c hc
    by_cases even : c.id.2 % 2 = 0
    · simp [payloadFor, hop, main, setBy, even]
    · have hset : payloadFor q.topic c =
          if p.topic = q.topic then some (payload quotient C p (c.id.2 / 2 + 1)) else none := by
        rw [payloadFor, hop, main, if_neg even]
      rw [hset, hp, setBy, if_neg even]
      by_cases here : p = q
      · rw [here, if_pos rfl, if_pos rfl]
      · rw [if_neg (fun same => here (Peer.topic_injective same)),
          if_neg (fun same => here (Peer.name_injective same))]
  have hmine : front.filterMap (payloadFor q.topic) =
      ((front.filter (·.id.1 = q.name)).map (·.id.2)).filterMap (setBy quotient C q) := by
    rw [List.filterMap_map, List.filterMap_filter, List.filterMap_congr hsets]
    simp
  rw [lastSet, hmine, ordered q.name, last_setBy]

/-- What `printMessage` makes of a payload is the message that the peer had after `n` iterations. -/
def Prints (quotient : Nat → Nat → Double) (C : SimMessages) (n : Nat) (payload : Bytes) :
    Peer → Prop
  | .car => C.location.parseFromString payload = location quotient n
  | .planning => C.trajectory.parseFromString payload = trajectory quotient n

theorem prints_payload (hC : ReadsBack quotient C) (n : Nat) (p : Peer) :
    Prints quotient C n (payload quotient C p n) p := by
  cases n with
  | zero =>
    cases p with
    | car => exact hC.no_location
    | planning => exact hC.no_trajectory
  | succ n =>
    cases p with
    | car => exact hC.location (n + 1)
    | planning => exact hC.trajectory (n + 1)

/-- In iteration `i` a peer gets what the other has set in its first `version p i` iterations. -/
structure Consistent (quotient : Nat → Nat → Double) (C : SimMessages) (as : List Action)
    (version : Peer → Nat → Nat) : Prop where
  prints : ∀ (p : Peer) i r, .receive (p.name, 2 * i) r ∈ as →
    ∃ payload, r.payload = some payload ∧ Prints quotient C (version p i) payload p.other
  /-- Nothing is had before it was set. -/
  past : ∀ (p : Peer) i r, .receive (p.name, 2 * i) r ∈ as → ∀ n < version p i,
    ∃ op, .call (p.other.name, 2 * n + 1) op ∈ as
  /-- What was set before the get is had, or something newer. -/
  fresh : ∀ (p : Peer) i n r r', .receive (p.name, 2 * i) r ∈ as →
    Precedes (history as) (.respond (p.other.name, 2 * n + 1) r')
      (.invoke (p.name, 2 * i) (.getMessageByTopic p.other.topic)) → n < version p i
  /-- It never goes back. -/
  monotone : ∀ (p : Peer) i j r, i ≤ j → .receive (p.name, 2 * j) r ∈ as →
    version p i ≤ version p j
  /-- Of two iterations that overlap, one at least has seen what the other had set before. -/
  one_sees : ∀ (p : Peer) i j r r', .receive (p.name, 2 * (i + 1)) r ∈ as →
    .receive (p.other.name, 2 * (j + 1)) r' ∈ as →
      j < version p (i + 1) ∨ i < version p.other (j + 1)

/-- How often the other peer has set its topic before a peer gets it in iteration `i`. -/
def versionIn (order : List (Call CallId Op Reply)) (p : Peer) (i : Nat) : Nat :=
  made p.other.name (before (p.name, 2 * i) order) / 2

namespace Agreed

variable {order : List (Call CallId Op Reply)} {p : Peer} {i j n : Nat} {r : Reply}

theorem exists_get (h : Agreed quotient C as order)
    (got : .receive (p.name, 2 * i) r ∈ as) :
    ⟨(p.name, 2 * i), .getMessageByTopic p.other.topic, r⟩ ∈ order := by
  obtain ⟨op, hmem⟩ := h.lin.returned _ _ (mem_of_event got rfl)
  obtain ⟨q, hq, hop⟩ := h.programmed _ hmem
  obtain rfl := Peer.name_injective hq
  have heven : 2 * i % 2 = 0 := by omega
  rw [main, if_pos heven] at hop
  subst hop
  exact hmem

theorem lt_versionIn_iff (h : Agreed quotient C as order) {a : Call CallId Op Reply}
    (ha : a ∈ order) (hid : a.id = (p.name, 2 * i)) :
    n < versionIn order p i ↔
      ∃ b ∈ order, b.id = (p.other.name, 2 * n + 1) ∧ Precedes order b a := by
  rw [← lt_made_before_iff h.lin h.blocking ha, versionIn, hid]
  omega

theorem result_eq (h : Agreed quotient C as order)
    (got : .receive (p.name, 2 * i) r ∈ as) :
    r = ⟨ServiceImp_A.serviceStatus,
      some (payload quotient C p.other (versionIn order p i))⟩ := by
  have hget := h.exists_get got
  obtain ⟨after, split⟩ := split_before h.lin.nodup hget
  have hordered : InOrder (before (p.name, 2 * i) order) :=
    inOrder_front (split ▸ h.lin) h.blocking
  have hlast := lastSet_eq hordered
    (fun c hc => h.programmed c (List.takeWhile_subset _ hc)) p.other
  have hres : r = answer (before (p.name, 2 * i) order) (.getMessageByTopic p.other.topic) :=
    h.sequential _ _ _ split
  rw [hres, answer, hlast, versionIn]

theorem consistent (hC : ReadsBack quotient C) (h : Agreed quotient C as order) :
    Consistent quotient C as (versionIn order) where
  prints := by
    intro p i r got
    rw [h.result_eq got]
    exact ⟨_, rfl, prints_payload hC _ _⟩
  past := by
    intro p i r got n hn
    obtain ⟨b, hb, hid, _⟩ := (h.lt_versionIn_iff (h.exists_get got) rfl).mp hn
    rw [← hid]
    exact ⟨_, call_mem_of_invoke (h.lin.invoked b hb)⟩
  fresh := by
    intro p i n r r' got set_before
    have hget := h.exists_get got
    have hresp : .respond (p.other.name, 2 * n + 1) r' ∈ history as := by
      obtain ⟨front, back, split, hmem, _⟩ := set_before
      rw [split]
      exact List.mem_append_left _ hmem
    obtain ⟨op, hset⟩ := h.lin.returned _ _ hresp
    exact (h.lt_versionIn_iff hget rfl).mpr
      ⟨_, hset, rfl, h.lin.realTime _ hset _ hget set_before⟩
  monotone := by
    intro p i j r le got
    rcases Nat.eq_or_lt_of_le le with rfl | lt
    · exact Nat.le_refl _
    · obtain ⟨a, ha, hid, hprec⟩ := earlier_call h.lin h.blocking (h.exists_get got)
        (show 2 * i < 2 * j by omega)
      have hle := made_before_le h.lin h.blocking ha (h.exists_get got) hprec p.other.name
      rw [hid] at hle
      exact Nat.div_le_div_right hle
  one_sees := by
    intro p i j r r' got got'
    have hget := h.exists_get got
    have hget' := h.exists_get got'
    obtain ⟨x, hx, hxid, hxget⟩ := earlier_call h.lin h.blocking hget
      (show 2 * i + 1 < 2 * (i + 1) by omega)
    obtain ⟨y, hy, hyid, hyget⟩ := earlier_call h.lin h.blocking hget'
      (show 2 * j + 1 < 2 * (j + 1) by omega)
    have hne : ⟨(p.name, 2 * (i + 1)), .getMessageByTopic p.other.topic, r⟩ ≠ y := by
      rintro rfl
      have hodd : 2 * (i + 1) = 2 * j + 1 := (Prod.mk.inj hyid).2
      omega
    -- either the set of the other came before this get, or this peer set its topic before that
    rcases precedes_total hget hy hne with get_first | set_first
    · right
      have hnodup := h.lin.nodup.of_map
      have hxget' := precedes_trans hnodup hxget (precedes_trans hnodup get_first hyget)
      exact (h.lt_versionIn_iff hget' rfl).mpr ⟨x, hx, by rw [hxid, Peer.other_other], hxget'⟩
    · exact .inl ((h.lt_versionIn_iff hget rfl).mpr ⟨y, hy, hyid, set_first⟩)

end Agreed

/-- However the two programs and the server interleave, what a peer prints in an iteration is the
message of the other after a number of iterations that never goes back, is up to date with every set
that has returned before, and is ahead of what the other can have missed. -/
theorem exchange (hP : P.RoundTrips) (hC : ReadsBack quotient C)
    (run : Run (Step quotient C P) System.init as s) :
    ∃ version, Consistent quotient C as version := by
  obtain ⟨marks, _, h⟩ := agreed_of_run hP run
  exact ⟨_, h.consistent hC⟩

/-- The quotient of two doubles. -/
def machine (i d : Nat) : Double := (i.toFloat / d.toFloat).toBits

/-- The wire format, in which +0 is left out. -/
def wire : SimMessages where
  location := ⟨Location.serializeToString (· == 0), fun bs => (Location.parse bs).getD .init⟩
  trajectory := ⟨Trajectory.serializeToString (· == 0), fun bs => (Trajectory.parse bs).getD .init⟩

theorem wire_readsBack (quotient : Nat → Nat → Double) : ReadsBack quotient wire := by
  have zero : ∀ x : Double, (x == 0) = true → x = 0 := fun _ same => beq_iff_eq.mp same
  refine ⟨fun n => ?_, fun n => ?_, rfl, rfl⟩
  · exact congrArg (Option.getD · .init) (Location.parse_serialize zero _)
  · exact congrArg (Option.getD · .init) (Trajectory.parse_serialize zero _)

theorem run_main (hP : P.RoundTrips) (p : Peer) {k : Nat} (quiet : s.client p.name = ⟨k, none⟩)
    (empty : s.inFlight = []) (few : k < 200) :
    Run (Step quotient C P) s
      [.call (p.name, k) (main quotient C p k), .serve p.name,
        .receive (p.name, k) (effect s.msgMap (main quotient C p k)).2]
      ⟨[], (effect s.msgMap (main quotient C p k)).1,
        Function.update s.client p.name ⟨k + 1, none⟩⟩ := by
  have hclient : p.name ∈ clients := by cases p <;> simp [clients]
  have hvalid : ValidTopic (main quotient C p k).topic := valid_main p k
  have h := run_whole_call hP hclient (congrArg ClientState.pending quiet) empty hvalid
  rw [quiet] at h
  refine h.mono_of_mem (fun _ a _ ha hs => ⟨hs, fun i k op call => ?_⟩)
  subst call
  obtain ⟨⟨rfl, rfl⟩, rfl⟩ : (i = p.name ∧ k = _) ∧ op = _ := by simpa using ha
  exact ⟨p, rfl, few, rfl⟩

/-- The car gets a trajectory before there is one and sets its location, which the planning gets. -/
theorem exchange_first_location : ∃ version, Consistent machine wire
    [.call (Peer.car.name, 0) (.getMessageByTopic Peer.planning.topic), .serve Peer.car.name,
      .receive (Peer.car.name, 0) ⟨ServiceImp_A.serviceStatus, some []⟩,
      .call (Peer.car.name, 1)
        (.setMessageByTopic Peer.car.topic (wire.location.serializeToString (location machine 1))),
      .serve Peer.car.name, .receive (Peer.car.name, 1) ⟨ServiceImp_A.serviceStatus, none⟩,
      .call (Peer.planning.name, 0) (.getMessageByTopic Peer.car.topic),
      .serve Peer.planning.name,
      .receive (Peer.planning.name, 0) ⟨ServiceImp_A.serviceStatus,
        some (wire.location.serializeToString (location machine 1))⟩] version ∧
    0 < version .planning 0 := by
  have hP := RpcProto.roundTrips
  let payload := wire.location.serializeToString (location machine 1)
  let msgMap := ServiceImp_A.setMessageByTopic ∅ Peer.car.topic payload
  let sets := Function.update System.init.client Peer.car.name ⟨1, none⟩
  let quits := Function.update sets Peer.car.name ⟨2, none⟩
  have hget : Run (Step machine wire RpcProto.protobuf) System.init
      [.call (Peer.car.name, 0) (.getMessageByTopic Peer.planning.topic), .serve Peer.car.name,
        .receive (Peer.car.name, 0) ⟨ServiceImp_A.serviceStatus,
          some (ServiceImp_A.getMessageByTopic ∅ Peer.planning.topic)⟩] ⟨[], ∅, sets⟩ :=
    run_main hP .car (k := 0) rfl rfl (by decide)
  have hset : Run (Step machine wire RpcProto.protobuf) ⟨[], ∅, sets⟩
      [.call (Peer.car.name, 1) (.setMessageByTopic Peer.car.topic payload), .serve Peer.car.name,
        .receive (Peer.car.name, 1) ⟨ServiceImp_A.serviceStatus, none⟩] ⟨[], msgMap, quits⟩ :=
    run_main hP .car (k := 1) rfl rfl (by decide)
  have hlocation : Run (Step machine wire RpcProto.protobuf) ⟨[], msgMap, quits⟩
      [.call (Peer.planning.name, 0) (.getMessageByTopic Peer.car.topic),
        .serve Peer.planning.name,
        .receive (Peer.planning.name, 0) ⟨ServiceImp_A.serviceStatus,
          some (ServiceImp_A.getMessageByTopic msgMap Peer.car.topic)⟩] _ :=
    run_main hP .planning (k := 0) rfl rfl (by decide)
  have hnothing : ServiceImp_A.getMessageByTopic ∅ Peer.planning.topic = [] := by
    rw [ServiceImp_A.getMessageByTopic, Std.TreeMap.getElem?_emptyc, Option.getD_none]
  rw [hnothing] at hget
  rw [ServiceImp_A.getMessageByTopic_setMessageByTopic] at hlocation
  obtain ⟨version, h⟩ := exchange hP (wire_readsBack machine) (hget.append (hset.append hlocation))
  refine ⟨version, h, h.fresh .planning 0 0 _ ⟨ServiceImp_A.serviceStatus, none⟩
    (List.mem_of_getLast? rfl) ?_⟩
  exact ⟨[_, _, _, _], [_, _], rfl, List.mem_of_getLast? rfl, List.mem_cons_self⟩

def distance : Place × Parts → Nat
  | (.clientToServer _, _) => 2
  | (.serverToClient _, _) => 1

/-- Three steps are left of a call that has not been made. -/
def remaining (s : System) : Nat :=
  3 * (200 - (s.client Peer.car.name).calls) + 3 * (200 - (s.client Peer.planning.name).calls) +
    weight distance s.inFlight

variable {a : Action} {t : System} {marks : Marks}

theorem requested_of_receive (h : Explains P clients s marks) {i : Bytes} {parts : Parts}
    {rest : Pool Place Parts} (got : receive (.clientToServer i) s.inFlight = some (parts, rest)) :
    ∃ op, i ∈ clients ∧ ValidTopic op.topic ∧ Client.request P op = .ok parts := by
  have hqueue := receive_queueAt got (.clientToServer i)
  rw [if_pos rfl] at hqueue
  cases hpending : (s.client i).pending with
  | none =>
    rw [(h.idle i hpending).1] at hqueue
    cases hqueue
  | some call =>
    have hwaiting := h.waiting i call.1 call.2 hpending
    cases hwaiting.stage with
    | replied empty =>
      rw [empty] at hqueue
      cases hqueue
    | requested request queue =>
      rw [queue] at hqueue
      obtain ⟨rfl, _⟩ := List.cons.inj hqueue
      exact ⟨call.2, hwaiting.client, hwaiting.valid, request⟩

theorem remaining_of_step (hP : P.RoundTrips) (h : Explains P clients s marks)
    (hs : Step quotient C P s a t) : remaining t + 1 = remaining s := by
  obtain ⟨step, follows⟩ := hs
  cases step with
  | @call i op parts =>
    obtain ⟨p, rfl, few, _⟩ := follows _ _ _ rfl
    cases p with
    | car =>
      have hother : Peer.planning.name ≠ Peer.car.name := by decide
      simp only [remaining, System.setClient, Function.update_self, Function.update_of_ne hother,
        weight_append, weight_singleton, distance]
      omega
    | planning =>
      have hother : Peer.car.name ≠ Peer.planning.name := by decide
      simp only [remaining, System.setClient, Function.update_self, Function.update_of_ne hother,
        weight_append, weight_singleton, distance]
      omega
  | serve got run =>
    obtain ⟨op, client, valid, request⟩ := requested_of_receive h got
    obtain ⟨reply, hrun, _⟩ := serve_request hP valid request s.msgMap _
    rw [run] at hrun
    cases hrun
    have hgot := weight_receive distance got
    simp only [remaining, placeOf_withNul client, Option.toList_some, weight_append,
      weight_singleton, distance] at hgot ⊢
    omega
  | @receive i k op msg rest r pending got =>
    have hgot := weight_receive distance got
    have hcalls : ∀ j, ((s.setClient i ⟨(s.client i).calls, none⟩).client j).calls =
        (s.client j).calls := by
      intro j
      by_cases here : j = i
      · subst here
        simp [System.setClient]
      · simp [System.setClient, Function.update_of_ne here]
    simp only [remaining, hcalls, distance] at hgot ⊢
    omega

theorem inFlight_eq_nil (h : Explains P clients s marks)
    (quiet : ∀ i, (s.client i).pending = none) : s.inFlight = [] := by
  rw [List.eq_nil_iff_forall_not_mem]
  rintro ⟨place, parts⟩ hmem
  obtain ⟨parts', rest, got⟩ := exists_receive_of_mem hmem
  have hqueue := receive_queueAt got place
  rw [if_pos rfl] at hqueue
  cases place with
  | clientToServer i =>
    rw [(h.idle i (quiet i)).1] at hqueue
    cases hqueue
  | serverToClient i =>
    rw [(h.idle i (quiet i)).2] at hqueue
    cases hqueue

/-- While a call is under way or left to be made, something can happen. -/
theorem can_step (hP : P.RoundTrips) (h : Explains P clients s marks) (left : remaining s ≠ 0) :
    ∃ a t, Step quotient C P s a t := by
  by_cases quiet : ∀ i, (s.client i).pending = none
  · have hempty := inFlight_eq_nil h quiet
    obtain ⟨p, few⟩ : ∃ p : Peer, (s.client p.name).calls < 200 := by
      by_contra all
      have hcar := not_exists.mp all .car
      have hplanning := not_exists.mp all .planning
      rw [remaining, hempty, weight_nil] at left
      omega
    have hvalid : ValidTopic (main quotient C p (s.client p.name).calls).topic := valid_main p _
    obtain ⟨parts, request⟩ := exists_request (P := P) hvalid
    have hclient : p.name ∈ clients := by cases p <;> simp [clients]
    refine ⟨_, _, .call hclient (quiet p.name) hvalid request, ?_⟩
    rintro i k op ⟨⟩
    exact ⟨p, rfl, few, rfl⟩
  · obtain ⟨i, busy⟩ := not_forall.mp quiet
    obtain ⟨⟨k, op⟩, pending⟩ := Option.ne_none_iff_exists'.mp busy
    have hwaiting := h.waiting i k op pending
    cases hwaiting.stage with
    | requested request queue =>
      obtain ⟨rest, got, _⟩ := exists_receive queue
      obtain ⟨msg, run, _⟩ := serve_request hP hwaiting.valid request s.msgMap (withNul i)
      exact ⟨_, _, .serve got run, fun _ _ _ ha => by cases ha⟩
    | replied _ queue result _ =>
      obtain ⟨rest, got, _⟩ := exists_receive queue
      exact ⟨_, _, .receive pending got result, fun _ _ _ ha => by cases ha⟩

/-- Both programs have ended, and the server keeps the last message of each. -/
structure Finished (quotient : Nat → Nat → Double) (C : SimMessages) (s : System) : Prop where
  client : ∀ p : Peer, s.client p.name = ⟨200, none⟩
  nothing_left : s.inFlight = []
  kept : ∀ p : Peer,
    ServiceImp_A.getMessageByTopic s.msgMap p.topic = payload quotient C p 100

theorem calls_le (run : Run (Step quotient C P) System.init as s) (p : Peer) :
    (s.client p.name).calls ≤ 200 := by
  refine run.invariant (I := fun s : System => (s.client p.name).calls ≤ 200) ?_ (Nat.zero_le _)
  rintro s a t hle ⟨step, follows⟩
  cases step with
  | @call i =>
    obtain ⟨_, _, few, _⟩ := follows _ _ _ rfl
    by_cases here : p.name = i
    · subst here
      simp only [System.setClient, Function.update_self]
      exact few
    · simpa [System.setClient, Function.update_of_ne here] using hle
  | serve => exact hle
  | @receive i =>
    by_cases here : p.name = i
    · subst here
      simpa [System.setClient] using hle
    · simpa [System.setClient, Function.update_of_ne here] using hle

theorem finished_of_remaining (hP : P.RoundTrips)
    (run : Run (Step quotient C P) System.init as s) (done : remaining s = 0) :
    Finished quotient C s := by
  obtain ⟨marks, h, agreed⟩ := agreed_of_run hP run
  have hweight : weight distance s.inFlight = 0 := by
    rw [remaining] at done
    omega
  have hempty : s.inFlight = [] :=
    (weight_eq_zero_iff (fun x _ => by obtain ⟨_ | _, _⟩ := x <;> simp [distance])).mp hweight
  have hclient : ∀ p : Peer, s.client p.name = ⟨200, none⟩ := by
    intro p
    have hle := calls_le run p
    have hcalls : (s.client p.name).calls = 200 := by
      rw [remaining] at done
      cases p <;> omega
    have hpending : (s.client p.name).pending = none := by
      cases hpending : (s.client p.name).pending with
      | none => rfl
      | some call =>
        cases (h.waiting _ call.1 call.2 hpending).stage with
        | requested _ queue => simp [hempty, queueAt] at queue
        | replied _ queue => simp [hempty, queueAt] at queue
    rw [← hcalls, ← hpending]
  refine ⟨hclient, hempty, fun p => ?_⟩
  have hlin : Linearizes (history as) (effects marks ++ []) := by
    rw [List.append_nil]
    exact agreed.lin
  have hordered : InOrder (effects marks) := inOrder_front hlin agreed.blocking
  -- all calls of the peer have returned, so that they are in the order, and no others are
  have hmade : made p.name (effects marks) = 200 := by
    apply Nat.le_antisymm
    · by_contra more
      obtain ⟨c, hc, hid⟩ := hordered.exists_iff.mpr (Nat.lt_of_not_le more)
      have hissued := h.pointed.issued_of_effect (List.mem_map.mpr ⟨c, hc, hid⟩)
      have hlt := h.numbered _ _ hissued
      rw [hclient p] at hlt
      exact Nat.lt_irrefl _ hlt
    · have hlast : 199 < (s.client p.name).calls := by
        rw [hclient p]
        exact Nat.lt_succ_self 199
      have served := run.mono (fun _ _ _ hs => hs.step)
      rcases returned_of_run served _ _ hlast with ⟨op, pending⟩ | ⟨r, hr⟩
      · rw [hclient p] at pending
        cases pending
      · obtain ⟨op, hc⟩ := agreed.lin.returned _ _ (mem_of_event hr rfl)
        exact hordered.exists_iff.mp ⟨_, hc, rfl⟩
  rw [h.holds, lastSet_eq hordered agreed.programmed, hmade]

theorem countdown (hP : P.RoundTrips) : Countdown (Step quotient C P)
    (fun s => ∃ as, Run (Step quotient C P) System.init as s) remaining where
  preserved := fun _ _ _ ⟨_, run⟩ hs => ⟨_, run.snoc hs⟩
  counts := by
    rintro s a t ⟨as, run⟩ hs
    obtain ⟨marks, h, _⟩ := agreed_of_run hP run
    exact remaining_of_step hP h hs
  goes_on := by
    rintro s ⟨as, run⟩ left
    obtain ⟨marks, h, _⟩ := agreed_of_run hP run
    exact can_step hP h left

/-- The two programs make 1200 steps with the server. A run that cannot go on has made them all, and
every run can be continued to one that has. -/
theorem both_finish (hP : P.RoundTrips) (run : Run (Step quotient C P) System.init as s) :
    as.length + remaining s = 1200 ∧
    ((∀ a t, ¬ Step quotient C P s a t) → Finished quotient C s) ∧
    ∃ bs t, Run (Step quotient C P) s bs t ∧ Finished quotient C t := by
  have hcount : Countdown (Step quotient C P) _ remaining := countdown hP
  refine ⟨hcount.run run ⟨[], .nil _⟩, fun stuck => ?_, ?_⟩
  · exact finished_of_remaining hP run (hcount.eq_zero_of_stuck ⟨as, run⟩ stuck)
  · obtain ⟨bs, t, rest, ⟨_, whole⟩, done⟩ := hcount.exists_end ⟨as, run⟩
    exact ⟨bs, t, rest, finished_of_remaining hP whole done⟩

/-- From the start. -/
theorem both_finish_from_start : ∃ bs t,
    Run (Step machine wire RpcProto.protobuf) System.init bs t ∧ Finished machine wire t :=
  (both_finish RpcProto.roundTrips (.nil System.init)).2.2

end SimTools.TopicRpc.Exchange
