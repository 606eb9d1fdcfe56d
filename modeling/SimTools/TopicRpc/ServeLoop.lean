/- Module: SimTools/TopicRpc/ServeLoop
   digest: The loop of the server over the frames of many peers: crashes and lost boundaries. -/

import Mathlib.Data.List.Forall2
import SimTools.TopicRpc.RpcProto

set_option autoImplicit false
set_option relaxedAutoImplicit false

namespace SimTools.TopicRpc.ServeLoop

open Lib.Memory
open Lib.Sockets
open SyncRpc
open MessageHelper

/-- One iteration of the loop in `Server::serve`: the store before it, the three frames that it
read, and what it sent or how it ended. -/
structure Iteration where
  before : MsgMap
  read : Parts
  sent : Except MemError Parts

/-- The loop over all frames that the socket delivers, message after message. An iteration takes
the next three, whatever messages they are of, and waits when there are fewer; an exception ends
the loop. -/
def serveLoop (P : Protobuf) : MsgMap → Parts → List Iteration
  | msgMap, msgID :: msgCallInfo :: msgReq :: frames =>
    match serve P msgMap [msgID, msgCallInfo, msgReq] with
    | .ok (after, reply) =>
      ⟨msgMap, [msgID, msgCallInfo, msgReq], .ok reply⟩ :: serveLoop P after frames
    | .error err => [⟨msgMap, [msgID, msgCallInfo, msgReq], .error err⟩]
  | _, [] | _, [_] | _, [_, _] => []

/-- The call info is not empty, and neither is the argument of a function that reads it. -/
def Readable (P : Protobuf) (msgCallInfo msgReq : Bytes) : Prop :=
  msgCallInfo ≠ [] ∧
    ((P.callInfo.parseFromString msgCallInfo.dropLast).funcName = setFuncName ∨
      (P.callInfo.parseFromString msgCallInfo.dropLast).funcName = getFuncName → msgReq ≠ [])

/-- A message as the ROUTER socket delivers it; a peer sends one part at least. -/
structure Arrival where
  identity : Bytes
  parts : Parts
  parts_ne : parts ≠ []

def Arrival.frames (a : Arrival) : Parts := a.identity :: a.parts

def stream (as : List Arrival) : Parts := as.flatMap Arrival.frames

/-- The number of frames before the message with number `k`. -/
def start (as : List Arrival) (k : Nat) : Nat := (stream (as.take k)).length

/-- A message of the documented format: call info and argument. -/
structure Call where
  identity : Bytes
  callInfo : Bytes
  argument : Bytes

def Call.frames (c : Call) : Parts := [c.identity, c.callInfo, c.argument]

def Call.arrival (c : Call) : Arrival := ⟨c.identity, [c.callInfo, c.argument], by simp⟩

/-- The iteration takes the three frames of the call to `dispatch`, and sends one reply of four
parts to the sender. -/
def Answers (P : Protobuf) (c : Call) (it : Iteration) : Prop :=
  it.read = c.frames ∧ ∃ after servStatus reply,
    serve P it.before c.frames = .ok (after, [c.identity, c.callInfo, servStatus, reply]) ∧
    it.sent = .ok [c.identity, c.callInfo, servStatus, reply]

/-- One iteration begins at the first frame of the message with number `k` and answers the call. -/
def ServedAlone (P : Protobuf) (msgMap : MsgMap) (as : List Arrival) (k : Nat) (c : Call) : Prop :=
  ∃ n it, (serveLoop P msgMap (stream as))[n]? = some it ∧ 3 * n = start as k ∧ Answers P c it

/-- The three frames of the iteration with number `n` are of one message, and what it sends goes to
the peer of that message. -/
def ReadsOne (as : List Arrival) (n : Nat) (it : Iteration) : Prop :=
  ∃ k a, as[k]? = some a ∧ start as k ≤ 3 * n ∧ 3 * n + 3 ≤ start as (k + 1) ∧
    ∀ reply, it.sent = .ok reply → reply.head? = some a.identity

/-- Isolation between peers: calls that can be read are served, each from its own frames, and no
iteration mixes the frames of two messages or answers a peer for another. -/
structure Isolated (P : Protobuf) (msgMap : MsgMap) (as : List Arrival) : Prop where
  served : ∀ k c, as[k]? = some (Call.arrival c) → Readable P c.callInfo c.argument →
    ServedAlone P msgMap as k c
  apart : ∀ n it, (serveLoop P msgMap (stream as))[n]? = some it → ReadsOne as n it

/-- Calls that can be read, all in the name of one peer. -/
def CallsOf (P : Protobuf) (identity : Bytes) (calls : List Call) : Prop :=
  ∀ c ∈ calls, c.identity = identity ∧ Readable P c.callInfo c.argument

/-- The messages are made of calls, up to one behind which no call waits for an answer. -/
inductive Orderly (P : Protobuf) : List Arrival → Prop
  | nil : Orderly P []
  | calls {a : Arrival} {as : List Arrival} (calls : List Call) (own : CallsOf P a.identity calls)
      (frames : a.frames = calls.flatMap Call.frames) (rest : Orderly P as) : Orderly P (a :: as)
  /-- An iteration cannot read its three frames, and the loop ends inside the message. -/
  | stop {a : Arrival} {as : List Arrival} (calls : List Call) (own : CallsOf P a.identity calls)
      (c : Call) (left : Parts)
      (frames : a.frames = calls.flatMap Call.frames ++ (c.frames ++ left))
      (unreadable : ¬ Readable P c.callInfo c.argument)
      (silent : ∀ d : Call, d.arrival ∈ as → ¬ Readable P d.callInfo d.argument) :
      Orderly P (a :: as)
  /-- The loop waits for the rest of three frames, and nothing comes. -/
  | wait {a : Arrival} (calls : List Call) (own : CallsOf P a.identity calls) (left : Parts)
      (short : left.length < 3) (frames : a.frames = calls.flatMap Call.frames ++ left) :
      Orderly P [a]

/-- Every message is handled by an iteration of its own, and the loop goes on. -/
def Survives (P : Protobuf) (msgMap : MsgMap) (calls : List Call) : Prop :=
  List.Forall₂ (Answers P) calls (serveLoop P msgMap (stream (calls.map Call.arrival)))

variable {P : Protobuf} {msgMap : MsgMap} {msgID msgCallInfo msgReq : Bytes} {frames : Parts}

theorem dropNul_cases (part : Bytes) :
    (part = [] ∧ dropNul part = .error .lengthWrapped) ∨
      (part ≠ [] ∧ dropNul part = .ok part.dropLast) := by
  by_cases h : part = []
  · exact .inl ⟨h, if_pos h⟩
  · exact .inr ⟨h, if_neg h⟩

theorem dispatch_cases (P : Protobuf) (msgMap : MsgMap) (callInfo : RPCCallInfo)
    (msgReq : Bytes) :
    ((callInfo.funcName = setFuncName ∨ callInfo.funcName = getFuncName → msgReq ≠ []) ∧
      ∃ result, ServiceImp_A.dispatch P msgMap callInfo msgReq = .ok result) ∨
    ((callInfo.funcName = setFuncName ∨ callInfo.funcName = getFuncName) ∧ msgReq = [] ∧
      ServiceImp_A.dispatch P msgMap callInfo msgReq = .error .lengthWrapped) := by
  unfold ServiceImp_A.dispatch
  by_cases set : callInfo.funcName = setFuncName
  · rcases dropNul_cases msgReq with ⟨rfl, hdrop⟩ | ⟨hreq, hdrop⟩
    · simp [set, parseFromZMQMsg, ZMQMsgToString, hdrop, bind, Except.bind]
    · simp [set, parseFromZMQMsg, ZMQMsgToString, hreq, hdrop, bind, Except.bind, pure, Except.pure]
  · by_cases get : callInfo.funcName = getFuncName
    · rcases dropNul_cases msgReq with ⟨rfl, hdrop⟩ | ⟨hreq, hdrop⟩
      · simp [get, getFuncName_ne_setFuncName, ZMQMsgToString, hdrop, bind, Except.bind]
      · simp [get, getFuncName_ne_setFuncName, ZMQMsgToString, hreq, hdrop, bind, Except.bind, pure,
          Except.pure]
    · simp [set, get, pure, Except.pure]

/-- An iteration answers its three frames if they can be read; if not, it ends the loop by a length
that wraps. -/
theorem serve_cases (P : Protobuf) (msgMap : MsgMap) (msgID msgCallInfo msgReq : Bytes) :
    (Readable P msgCallInfo msgReq ∧ ∃ after servStatus reply,
      serve P msgMap [msgID, msgCallInfo, msgReq] =
        .ok (after, [msgID, msgCallInfo, servStatus, reply])) ∨
    (¬ Readable P msgCallInfo msgReq ∧
      serve P msgMap [msgID, msgCallInfo, msgReq] = .error .lengthWrapped) := by
  simp only [serve, recv_cons, done_nil, parseFromZMQMsg, ZMQMsgToString, bind, Except.bind, pure,
    Except.pure]
  rcases dropNul_cases msgCallInfo with ⟨hinfo, hdrop⟩ | ⟨hinfo, hdrop⟩
  · rw [hdrop]
    exact .inr ⟨fun readable => readable.1 hinfo, rfl⟩
  · simp only [hdrop]
    rcases dispatch_cases P msgMap (P.callInfo.parseFromString msgCallInfo.dropLast) msgReq with
      ⟨hreq, ⟨after, servStatus, reply⟩, hrun⟩ | ⟨hname, hreq, hrun⟩
    · rw [hrun]
      exact .inl ⟨⟨hinfo, hreq⟩, _, _, _, rfl⟩
    · rw [hrun]
      exact .inr ⟨fun readable => readable.2 hname hreq, rfl⟩

theorem serveLoop_readable (c : Call) (readable : Readable P c.callInfo c.argument)
    (msgMap : MsgMap) : ∃ it after, Answers P c it ∧ ∀ back,
      serveLoop P msgMap (c.frames ++ back) = it :: serveLoop P after back := by
  obtain ⟨msgID, msgCallInfo, msgReq⟩ := c
  rcases serve_cases P msgMap msgID msgCallInfo msgReq with
    ⟨_, after, servStatus, reply, hrun⟩ | ⟨unreadable, _⟩
  · refine ⟨⟨msgMap, [msgID, msgCallInfo, msgReq], .ok [msgID, msgCallInfo, servStatus, reply]⟩,
      after, ⟨rfl, after, servStatus, reply, hrun, rfl⟩, fun back => ?_⟩
    simp only [Call.frames, List.cons_append, List.nil_append, serveLoop, hrun]
  · exact absurd readable unreadable

theorem serveLoop_unreadable (c : Call) (unreadable : ¬ Readable P c.callInfo c.argument)
    (msgMap : MsgMap) (back : Parts) :
    serveLoop P msgMap (c.frames ++ back) = [⟨msgMap, c.frames, .error .lengthWrapped⟩] := by
  obtain ⟨msgID, msgCallInfo, msgReq⟩ := c
  rcases serve_cases P msgMap msgID msgCallInfo msgReq with ⟨readable, _⟩ | ⟨_, hrun⟩
  · exact absurd readable unreadable
  · simp only [Call.frames, List.cons_append, List.nil_append, serveLoop, hrun]

/-- The server survives a sequence of calls exactly when each of them can be read: no call info is
empty, and no argument of a get or a set. -/
theorem survives_iff (P : Protobuf) (msgMap : MsgMap) (calls : List Call) :
    Survives P msgMap calls ↔ ∀ c ∈ calls, Readable P c.callInfo c.argument := by
  induction calls generalizing msgMap with
  | nil => simp [Survives, stream, serveLoop]
  | cons c calls ih =>
    have hstream : stream ((c :: calls).map Call.arrival) =
        c.frames ++ stream (calls.map Call.arrival) := rfl
    rw [Survives, hstream, List.forall_mem_cons]
    by_cases readable : Readable P c.callInfo c.argument
    · obtain ⟨it, after, answers, hloop⟩ := serveLoop_readable c readable msgMap
      rw [hloop, List.forall₂_cons, ← ih after]
      exact and_congr_left' (iff_of_true answers readable)
    · rw [serveLoop_unreadable c readable, List.forall₂_cons]
      refine iff_of_false ?_ (fun h => readable h.1)
      rintro ⟨⟨_, _, _, _, _, sent⟩, _⟩
      cases sent

/-- A call of two empty frames ends the server. -/
theorem empty_frames_end_loop :
    (¬ ∀ calls, Survives RpcProto.protobuf ∅ calls) ∧
    serveLoop RpcProto.protobuf ∅ (stream [Call.arrival ⟨[1], [], []⟩]) =
      [⟨∅, [[1], [], []], .error .lengthWrapped⟩] := by
  have unreadable : ¬ Readable RpcProto.protobuf [] [] := fun readable => readable.1 rfl
  have hloop : serveLoop RpcProto.protobuf ∅ (stream [Call.arrival ⟨[1], [], []⟩]) =
      [⟨∅, [[1], [], []], .error .lengthWrapped⟩] :=
    serveLoop_unreadable (P := RpcProto.protobuf) ⟨[1], [], []⟩ unreadable ∅ []
  refine ⟨fun survives => ?_, hloop⟩
  have answered := survives [⟨[1], [], []⟩]
  rw [Survives, List.map_singleton, hloop, List.forall₂_cons] at answered
  obtain ⟨⟨_, _, _, _, _, sent⟩, _⟩ := answered
  cases sent

theorem serveLoop_calls {calls : List Call}
    (readable : ∀ c ∈ calls, Readable P c.callInfo c.argument) (msgMap : MsgMap) :
    ∃ its after, List.Forall₂ (Answers P) calls its ∧ ∀ back,
      serveLoop P msgMap (calls.flatMap Call.frames ++ back) = its ++ serveLoop P after back := by
  induction calls generalizing msgMap with
  | nil => exact ⟨[], msgMap, .nil, fun _ => rfl⟩
  | cons c calls ih =>
    rw [List.forall_mem_cons] at readable
    obtain ⟨it, after, answers, hcall⟩ := serveLoop_readable c readable.1 msgMap
    obtain ⟨its, last, hits, hloop⟩ := ih readable.2 after
    refine ⟨it :: its, last, .cons answers hits, fun back => ?_⟩
    rw [List.flatMap_cons, List.append_assoc, hcall, hloop, List.cons_append]

theorem length_flatMap_frames (calls : List Call) :
    (calls.flatMap Call.frames).length = 3 * calls.length := by
  induction calls with
  | nil => rfl
  | cons c calls ih =>
    rw [List.flatMap_cons, List.length_append, ih, List.length_cons]
    simp only [Call.frames, List.length_cons, List.length_nil]
    omega

@[simp] theorem start_zero (as : List Arrival) : start as 0 = 0 := rfl

@[simp] theorem start_succ (a : Arrival) (as : List Arrival) (k : Nat) :
    start (a :: as) (k + 1) = a.frames.length + start as k := by
  simp [start, stream]

theorem Arrival.two_le_length (a : Arrival) : 2 ≤ a.frames.length := by
  have := List.length_pos_iff.mpr a.parts_ne
  rw [Arrival.frames, List.length_cons]
  omega

theorem serveLoop_of_short {frames : Parts} (short : frames.length < 3) (msgMap : MsgMap) :
    serveLoop P msgMap frames = [] := by
  match frames, short with
  | [], _ | [_], _ | [_, _], _ => rfl

theorem exists_iteration (msgMap : MsgMap) {frames : Parts} (enough : 3 ≤ frames.length) :
    ∃ it more, serveLoop P msgMap frames = it :: more := by
  match frames, enough with
  | msgID :: msgCallInfo :: msgReq :: frames, _ =>
    rw [serveLoop]
    split
    · exact ⟨_, _, rfl⟩
    · exact ⟨_, _, rfl⟩

theorem stream_cons (a : Arrival) (as : List Arrival) : stream (a :: as) = a.frames ++ stream as :=
  rfl

/-- A message holds calls of its peer first, and then what is no such call. -/
theorem frames_cases (P : Protobuf) (identity : Bytes) : ∀ frames : Parts,
    ∃ calls left, CallsOf P identity calls ∧ frames = calls.flatMap Call.frames ++ left ∧
      (left.length < 3 ∨ ∃ (c : Call) (more : Parts), left = c.frames ++ more ∧
        (c.identity ≠ identity ∨ ¬ Readable P c.callInfo c.argument))
  | [] => ⟨[], [], List.forall_mem_nil _, rfl, .inl (by simp)⟩
  | [msgID] => ⟨[], [msgID], List.forall_mem_nil _, rfl, .inl (by simp)⟩
  | [msgID, msgCallInfo] => ⟨[], [msgID, msgCallInfo], List.forall_mem_nil _, rfl, .inl (by simp)⟩
  | msgID :: msgCallInfo :: msgReq :: frames => by
    by_cases own : msgID = identity ∧ Readable P msgCallInfo msgReq
    · obtain ⟨calls, left, hcalls, hframes, hleft⟩ := frames_cases P identity frames
      refine ⟨⟨msgID, msgCallInfo, msgReq⟩ :: calls, left,
        List.forall_mem_cons.mpr ⟨own, hcalls⟩, ?_, hleft⟩
      rw [hframes]
      rfl
    · exact ⟨[], _, List.forall_mem_nil _, rfl,
        .inr ⟨⟨msgID, msgCallInfo, msgReq⟩, frames, rfl, not_and_or.mp own⟩⟩

theorem Answers.head {c : Call} {it : Iteration} (answers : Answers P c it) {reply : Parts}
    (sent : it.sent = .ok reply) : reply.head? = some c.identity := by
  obtain ⟨_, after, servStatus, payload, _, hsent⟩ := answers
  cases hsent.symm.trans sent
  rfl

theorem ReadsOne.first {a : Arrival} {as : List Arrival} {n : Nat} {it : Iteration}
    (reads : ReadsOne (a :: as) n it) (inside : 3 * n < a.frames.length) :
    3 * n + 3 ≤ a.frames.length ∧
      ∀ reply, it.sent = .ok reply → reply.head? = some a.identity := by
  obtain ⟨k, b, here, low, high, sent⟩ := reads
  cases k with
  | zero =>
    cases here
    exact ⟨by simpa using high, sent⟩
  | succ k =>
    rw [start_succ] at low
    omega

theorem readsOne_of_answers {a : Arrival} {calls : List Call} (own : CallsOf P a.identity calls)
    {left : Parts} (frames : a.frames = calls.flatMap Call.frames ++ left) {its : List Iteration}
    (answers : List.Forall₂ (Answers P) calls its) (as : List Arrival) {n : Nat} {it : Iteration}
    (reached : its[n]? = some it) : ReadsOne (a :: as) n it := by
  obtain ⟨hn, rfl⟩ := List.getElem?_eq_some_iff.mp reached
  have hcalls : n < calls.length := answers.length_eq ▸ hn
  have hlength : a.frames.length = 3 * calls.length + left.length := by
    rw [frames, List.length_append, length_flatMap_frames]
  refine ⟨0, a, rfl, Nat.zero_le _, ?_, fun reply sent => ?_⟩
  · rw [start_succ, start_zero]
    omega
  · rw [(answers.get hcalls hn).head sent, (own _ (List.get_mem _ _)).1]

theorem readsOne_cons {a : Arrival} {m : Nat} (whole : a.frames.length = 3 * m)
    (as : List Arrival) (n : Nat) (it : Iteration) :
    ReadsOne (a :: as) (m + n) it ↔ ReadsOne as n it := by
  constructor
  · rintro ⟨k, b, here, low, high, sent⟩
    cases k with
    | zero =>
      rw [start_succ, start_zero] at high
      omega
    | succ k =>
      rw [start_succ] at low high
      exact ⟨k, b, here, by omega, by omega, sent⟩
  · rintro ⟨k, b, here, low, high, sent⟩
    refine ⟨k + 1, b, here, ?_, ?_, sent⟩
    · rw [start_succ]
      omega
    · rw [start_succ]
      omega

theorem servedAlone_first {a : Arrival} {c : Call} (here : a = c.arrival)
    (readable : Readable P c.callInfo c.argument) (msgMap : MsgMap) (as : List Arrival) :
    ServedAlone P msgMap (a :: as) 0 c := by
  obtain ⟨it, after, answers, hloop⟩ := serveLoop_readable c readable msgMap
  have hstream : stream (a :: as) = c.frames ++ stream as := by rw [here]; rfl
  exact ⟨0, it, by rw [hstream, hloop]; rfl, rfl, answers⟩

section Behind

variable {a : Arrival} {as : List Arrival} {calls : List Call} {its : List Iteration}
  {after : MsgMap}

theorem servedAlone_cons (frames : a.frames = calls.flatMap Call.frames)
    (answers : List.Forall₂ (Answers P) calls its)
    (hloop : serveLoop P msgMap (stream (a :: as)) = its ++ serveLoop P after (stream as))
    (k : Nat) (c : Call) :
    ServedAlone P msgMap (a :: as) (k + 1) c ↔ ServedAlone P after as k c := by
  have hlength : a.frames.length = 3 * its.length := by
    rw [frames, length_flatMap_frames, answers.length_eq]
  constructor
  · rintro ⟨n, it, reached, boundary, hanswers⟩
    rw [start_succ] at boundary
    rw [hloop, List.getElem?_append_right (by omega)] at reached
    exact ⟨n - its.length, it, reached, by omega, hanswers⟩
  · rintro ⟨n, it, reached, boundary, hanswers⟩
    refine ⟨its.length + n, it, ?_, ?_, hanswers⟩
    · rw [hloop, List.getElem?_append_right (Nat.le_add_right _ _), Nat.add_sub_cancel_left]
      exact reached
    · rw [start_succ]
      omega

/-- Behind a message that is made of calls, isolation is that of the messages that follow. -/
theorem isolated_cons (own : CallsOf P a.identity calls)
    (frames : a.frames = calls.flatMap Call.frames) (answers : List.Forall₂ (Answers P) calls its)
    (hloop : serveLoop P msgMap (stream (a :: as)) = its ++ serveLoop P after (stream as)) :
    Isolated P msgMap (a :: as) ↔ Isolated P after as := by
  have hlength : a.frames.length = 3 * its.length := by
    rw [frames, length_flatMap_frames, answers.length_eq]
  constructor
  · intro isolated
    refine ⟨fun k c here readable => ?_, fun n it reached => ?_⟩
    · exact (servedAlone_cons frames answers hloop k c).mp (isolated.served (k + 1) c here readable)
    · refine (readsOne_cons hlength as n it).mp (isolated.apart _ _ ?_)
      rw [hloop, List.getElem?_append_right (Nat.le_add_right _ _), Nat.add_sub_cancel_left]
      exact reached
  · intro isolated
    refine ⟨fun k c here readable => ?_, fun n it reached => ?_⟩
    · cases k with
      | zero => exact servedAlone_first (Option.some.inj here) readable msgMap as
      | succ k =>
        exact (servedAlone_cons frames answers hloop k c).mpr (isolated.served k c here readable)
    · rw [hloop] at reached
      rcases lt_or_ge n its.length with hn | hn
      · rw [List.getElem?_append_left hn] at reached
        have hframes : a.frames = calls.flatMap Call.frames ++ [] := by
          rw [frames, List.append_nil]
        exact readsOne_of_answers own hframes answers as reached
      · rw [List.getElem?_append_right hn] at reached
        have hread := (readsOne_cons hlength as _ it).mpr (isolated.apart _ _ reached)
        rwa [Nat.add_sub_cancel' hn] at hread

end Behind

/- The message in which the loop ends: calls that are answered, and then three frames that cannot
be read. -/
section Stop

variable {a : Arrival} {calls : List Call} {c : Call} {left : Parts} {its : List Iteration}

theorem length_of_stop
    (frames : a.frames = calls.flatMap Call.frames ++ (c.frames ++ left)) :
    a.frames.length = 3 * calls.length + (3 + left.length) := by
  rw [frames, List.length_append, length_flatMap_frames, List.length_append]
  rfl

theorem readsOne_stop (frames : a.frames = calls.flatMap Call.frames ++ (c.frames ++ left))
    (msgMap : MsgMap) (err : MemError) (as : List Arrival) :
    ReadsOne (a :: as) calls.length ⟨msgMap, c.frames, .error err⟩ := by
  have hlength := length_of_stop frames
  refine ⟨0, a, rfl, Nat.zero_le _, ?_, fun reply sent => ?_⟩
  · rw [start_succ, start_zero]
    omega
  · cases sent

/-- No call of a later message is served. -/
theorem not_servedAlone_of_stop
    (frames : a.frames = calls.flatMap Call.frames ++ (c.frames ++ left))
    (answers : List.Forall₂ (Answers P) calls its) {last : Iteration} {as : List Arrival}
    (hloop : serveLoop P msgMap (stream (a :: as)) = its ++ [last]) (k : Nat) (d : Call) :
    ¬ ServedAlone P msgMap (a :: as) (k + 1) d := by
  rintro ⟨n, it, reached, boundary, _⟩
  have hlength := length_of_stop frames
  have hcalls := answers.length_eq
  rw [hloop] at reached
  obtain ⟨hn, _⟩ := List.getElem?_eq_some_iff.mp reached
  rw [List.length_append, List.length_singleton] at hn
  rw [start_succ] at boundary
  omega

end Stop

theorem isolated_of_orderly {as : List Arrival} (orderly : Orderly P as) (msgMap : MsgMap) :
    Isolated P msgMap as := by
  induction orderly generalizing msgMap with
  | nil =>
    refine ⟨fun k c here => ?_, fun n it reached => ?_⟩
    · simp at here
    · simp [stream, serveLoop] at reached
  | @calls a as calls own frames _ ih =>
    obtain ⟨its, after, answers, hloop⟩ := serveLoop_calls (fun c hc => (own c hc).2) msgMap
    refine (isolated_cons own frames answers ?_).mpr (ih after)
    rw [stream_cons, frames, hloop]
  | @stop a as calls own c left frames unreadable silent =>
    obtain ⟨its, after, answers, hloop⟩ := serveLoop_calls (fun c hc => (own c hc).2) msgMap
    have hrun : serveLoop P msgMap (stream (a :: as)) =
        its ++ [⟨after, c.frames, .error .lengthWrapped⟩] := by
      rw [stream_cons, frames, List.append_assoc, hloop, List.append_assoc,
        serveLoop_unreadable c unreadable]
    refine ⟨fun k d here readable => ?_, fun n it reached => ?_⟩
    · cases k with
      | zero => exact servedAlone_first (Option.some.inj here) readable msgMap as
      | succ k => exact absurd readable (silent d (List.mem_of_getElem? here))
    · rw [hrun] at reached
      rcases lt_or_ge n its.length with hn | hn
      · rw [List.getElem?_append_left hn] at reached
        exact readsOne_of_answers own frames answers as reached
      · -- the iteration that ends the loop
        obtain ⟨hend, hit⟩ := List.getElem?_eq_some_iff.mp reached
        rw [List.length_append, List.length_singleton] at hend
        obtain rfl : n = calls.length := by
          rw [answers.length_eq]
          omega
        rw [List.getElem_append_right hn, List.getElem_singleton] at hit
        rw [← hit]
        exact readsOne_stop frames after _ as
  | @wait a calls own left short frames =>
    obtain ⟨its, after, answers, hloop⟩ := serveLoop_calls (fun c hc => (own c hc).2) msgMap
    have hrun : serveLoop P msgMap (stream [a]) = its := by
      rw [stream_cons, frames, List.append_assoc, hloop, serveLoop_of_short, List.append_nil]
      simpa [stream] using short
    refine ⟨fun k d here readable => ?_, fun n it reached => ?_⟩
    · cases k with
      | zero => exact servedAlone_first (Option.some.inj here) readable msgMap []
      | succ k => simp at here
    · rw [hrun] at reached
      exact readsOne_of_answers own frames answers [] reached

theorem orderly_of_isolated {as : List Arrival} {msgMap : MsgMap}
    (isolated : Isolated P msgMap as) : Orderly P as := by
  induction as generalizing msgMap with
  | nil => exact .nil
  | cons a as ih =>
    obtain ⟨calls, left, own, frames, hleft⟩ := frames_cases P a.identity a.frames
    obtain ⟨its, after, answers, hloop⟩ := serveLoop_calls (fun c hc => (own c hc).2) msgMap
    have hlength : a.frames.length = 3 * its.length + left.length := by
      rw [frames, List.length_append, length_flatMap_frames, answers.length_eq]
    have hrun : serveLoop P msgMap (stream (a :: as)) =
        its ++ serveLoop P after (left ++ stream as) := by
      rw [stream_cons, frames, List.append_assoc, hloop]
    -- an iteration behind the calls begins in this message if anything of it is left
    have hnext : ∀ {it : Iteration} {more : List Iteration}, left ≠ [] →
        serveLoop P after (left ++ stream as) = it :: more →
        3 ≤ left.length ∧ ∀ reply, it.sent = .ok reply → reply.head? = some a.identity := by
      intro it more nonempty hcons
      have hreached : (serveLoop P msgMap (stream (a :: as)))[its.length]? = some it := by
        rw [hrun, hcons, List.getElem?_append_right le_rfl, Nat.sub_self, List.getElem?_cons_zero]
      have hpos := List.length_pos_iff.mpr nonempty
      obtain ⟨inside, sent⟩ := (isolated.apart _ _ hreached).first (by omega)
      exact ⟨by omega, sent⟩
    rcases hleft with short | ⟨c, more, rfl, wrong⟩
    · rcases eq_or_ne left [] with rfl | nonempty
      · rw [List.append_nil] at frames
        exact .calls calls own frames (ih ((isolated_cons own frames answers hrun).mp isolated))
      · cases as with
        | nil => exact .wait calls own left short frames
        | cons b as =>
          exfalso
          have hpos := List.length_pos_iff.mpr nonempty
          have three : 3 ≤ (left ++ stream (b :: as)).length := by
            have := b.two_le_length
            rw [List.length_append, stream_cons, List.length_append]
            omega
          obtain ⟨it, rest, hcons⟩ := exists_iteration (P := P) after three
          have := (hnext nonempty hcons).1
          omega
    · by_cases readable : Readable P c.callInfo c.argument
      · exfalso
        obtain ⟨it, last, hanswers, hcall⟩ := serveLoop_readable c readable after
        rw [List.append_assoc, hcall] at hnext
        obtain ⟨_, _, _, _, _, sent⟩ := id hanswers
        have hhead := (hnext (by simp [Call.frames]) rfl).2 _ sent
        exact wrong.elim (fun hne => hne (Option.some.inj hhead)) (absurd readable)
      · refine .stop calls own c more frames readable fun d hd hreadable => ?_
        obtain ⟨k, here⟩ := List.getElem?_of_mem hd
        rw [List.append_assoc, serveLoop_unreadable c readable] at hrun
        exact not_servedAlone_of_stop frames answers hrun k d
          (isolated.served (k + 1) d here hreadable)

/-- Peers are isolated from each other exactly when every message is made of calls of its sender,
up to one behind which no call waits for an answer. -/
theorem isolated_iff (P : Protobuf) (msgMap : MsgMap) (as : List Arrival) :
    Isolated P msgMap as ↔ Orderly P as :=
  ⟨orderly_of_isolated, fun orderly => isolated_of_orderly orderly msgMap⟩

/-- A peer sends one part; no iteration begins with the call that another peer sends after it. -/
theorem call_behind_one_part : ¬ ∀ as : List Arrival, Isolated RpcProto.protobuf ∅ as := by
  intro isolated
  have served := (isolated [⟨[1], [[104, 0]], by simp⟩, Call.arrival
    ⟨[2], protobufToZMQMsg RpcProto.protobuf.callInfo ⟨getFuncName, 0⟩, [97, 0]⟩]).served
  obtain ⟨n, _, _, boundary, _⟩ :=
    served 1 _ rfl ⟨List.append_ne_nil_of_right_ne_nil _ (by simp), fun _ => by simp⟩
  have hstart : 3 * n = 2 := boundary
  omega

end SimTools.TopicRpc.ServeLoop
