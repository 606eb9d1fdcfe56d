/- Module: SimTools/TopicRpc/Linearizable
   digest: Every history of the topic service is that of a key-value store that serves one call at a time. -/

import SimTools.TopicRpc.Service
import SimTools.TopicRpc.RpcProto

set_option autoImplicit false
set_option relaxedAutoImplicit false

namespace SimTools.TopicRpc.Linearizable

open Lib.Memory
open Lib.Sockets
open Lib.Channels
open Lib.Linearization
open Lib.Runs
open SyncRpc
open Service

abbrev Marks := List (Mark CallId Op Reply)

variable {P : Protobuf} {clients : List Bytes}

/-- Where the message of a call under way is, and whether the call has taken effect. -/
inductive Stage (P : Protobuf) (s : System) (marks : Marks) (i : Bytes) (k : Nat) (op : Op) : Prop
  | requested {parts : Parts} :
      Client.request P op = .ok parts → queueAt (.clientToServer i) s.inFlight = [parts] →
      queueAt (.serverToClient i) s.inFlight = [] → (i, k) ∉ (effects marks).map Call.id →
      Stage P s marks i k op
  | replied {msg : Parts} {r : Reply} :
      queueAt (.clientToServer i) s.inFlight = [] → queueAt (.serverToClient i) s.inFlight = [msg] →
      Client.result P op msg = .ok r → ⟨(i, k), op, r⟩ ∈ effects marks → Stage P s marks i k op

/-- A call under way has been issued and has not returned. -/
structure Waiting (P : Protobuf) (clients : List Bytes) (s : System) (marks : Marks) (i : Bytes)
    (k : Nat)
    (op : Op) : Prop where
  client : i ∈ clients
  valid : ValidTopic op.topic
  invoked : .event (.invoke (i, k) op) ∈ marks
  unanswered : (i, k) ∉ answered (observable marks)
  stage : Stage P s marks i k op

/-- The points of effect that explain how the state has come about. -/
structure Explains (P : Protobuf) (clients : List Bytes) (s : System) (marks : Marks) : Prop where
  pointed : Pointed marks
  numbered : ∀ i k, (i, k) ∈ issued marks → k < (s.client i).calls
  sequential : Sequential (effects marks)
  holds : Holds s.msgMap (effects marks)
  idle : ∀ i, (s.client i).pending = none →
    queueAt (.clientToServer i) s.inFlight = [] ∧ queueAt (.serverToClient i) s.inFlight = []
  waiting : ∀ i k op, (s.client i).pending = some (k, op) → Waiting P clients s marks i k op
  closed : ∀ c ∈ effects marks, .event (.respond c.id c.res) ∈ marks ∨
    (s.client c.id.1).pending = some (c.id.2, c.op)

theorem explains_init (P : Protobuf) (clients : List Bytes) : Explains P clients System.init [] :=
  ⟨.nil, by simp [issued], sequential_nil, holds_init, by simp [System.init, queueAt],
    by simp [System.init], by simp [effects]⟩

variable {s t : System} {marks : Marks} {i : Bytes} {k : Nat} {op : Op}

theorem Waiting.frame (h : Waiting P clients s marks i k op) {m : Mark CallId Op Reply}
    (other : m.id ≠ (i, k))
    (toServer : queueAt (.clientToServer i) t.inFlight = queueAt (.clientToServer i) s.inFlight)
    (toClient : queueAt (.serverToClient i) t.inFlight = queueAt (.serverToClient i) s.inFlight) :
    Waiting P clients t (marks ++ [m]) i k op := by
  refine ⟨h.client, h.valid, List.mem_append_left _ h.invoked,
    not_mem_answered_concat h.unanswered other, ?_⟩
  cases h.stage with
  | requested request queue empty fresh =>
    exact .requested request (toServer.trans queue) (toClient.trans empty)
      (not_mem_effects_concat fresh other)
  | replied empty queue result done =>
    refine .replied (toServer.trans empty) (toClient.trans queue) result ?_
    rw [effects_append]
    exact List.mem_append_left _ done

theorem Explains.update (h : Explains P clients s marks) (i : Bytes) {m : Mark CallId Op Reply}
    (mine : m.id.1 = i) (pointed : Pointed (marks ++ [m]))
    (sequential : Sequential (effects (marks ++ [m])))
    (holds : Holds t.msgMap (effects (marks ++ [m])))
    (client : ∀ j, j ≠ i → t.client j = s.client j)
    (toServer : ∀ j, j ≠ i →
      queueAt (.clientToServer j) t.inFlight = queueAt (.clientToServer j) s.inFlight)
    (toClient : ∀ j, j ≠ i →
      queueAt (.serverToClient j) t.inFlight = queueAt (.serverToClient j) s.inFlight)
    (numbered : ∀ k, (i, k) ∈ issued (marks ++ [m]) → k < (t.client i).calls)
    (idle : (t.client i).pending = none →
      queueAt (.clientToServer i) t.inFlight = [] ∧ queueAt (.serverToClient i) t.inFlight = [])
    (waiting : ∀ k op, (t.client i).pending = some (k, op) →
      Waiting P clients t (marks ++ [m]) i k op)
    (closed : ∀ c ∈ effects (marks ++ [m]), c.id.1 = i →
      .event (.respond c.id c.res) ∈ marks ++ [m] ∨ (t.client i).pending = some (c.id.2, c.op)) :
    Explains P clients t (marks ++ [m]) := by
  refine ⟨pointed, ?_, sequential, holds, ?_, ?_, ?_⟩
  · intro j k hk
    by_cases here : j = i
    · subst here
      exact numbered k hk
    · rw [client j here]
      rcases mem_issued_concat hk with hk | ⟨op, rfl⟩
      · exact h.numbered j k hk
      · exact absurd mine here
  · intro j free
    by_cases here : j = i
    · subst here
      exact idle free
    · rw [client j here] at free
      rw [toServer j here, toClient j here]
      exact h.idle j free
  · intro j k op pending
    by_cases here : j = i
    · subst here
      exact waiting k op pending
    · rw [client j here] at pending
      refine (h.waiting j k op pending).frame ?_ (toServer j here) (toClient j here)
      intro he
      rw [he] at mine
      exact here mine
  · intro c hc
    by_cases here : c.id.1 = i
    · rw [here]
      exact closed c hc here
    · rw [client _ here]
      rcases mem_effects_concat hc with hc | rfl
      · exact (h.closed c hc).imp_left (List.mem_append_left _)
      · exact absurd mine here

theorem Explains.call (h : Explains P clients s marks) (client : i ∈ clients)
    (free : (s.client i).pending = none) (valid : ValidTopic op.topic) {parts : Parts}
    (request : Client.request P op = .ok parts) :
    Explains P clients
      { s.setClient i ⟨(s.client i).calls + 1, some ((s.client i).calls, op)⟩ with
        inFlight := s.inFlight ++ [(.clientToServer i, parts)] }
      (marks ++ [.event (.invoke (i, (s.client i).calls) op)]) := by
  have hnew : (i, (s.client i).calls) ∉ issued marks := by
    intro hmem
    exact Nat.lt_irrefl _ (h.numbered i _ hmem)
  have hreplies : ∀ j,
      queueAt (.serverToClient j) (s.inFlight ++ [(Place.clientToServer i, parts)]) =
        queueAt (.serverToClient j) s.inFlight := by
    intro j
    rw [queueAt_append_singleton, if_neg (by simp)]
  refine h.update i rfl (h.pointed.invoke hnew) (by simpa using h.sequential)
    (by simpa [System.setClient] using h.holds) ?_ ?_ (fun j _ => hreplies j) ?_ ?_ ?_ ?_
  · intro j other
    exact Function.update_of_ne other _ _
  · intro j other
    rw [queueAt_append_singleton, if_neg (by simp [other])]
  · intro k hk
    simp only [System.setClient, Function.update_self]
    rcases mem_issued_concat hk with hk | ⟨op', he⟩
    · exact Nat.lt_succ_of_lt (h.numbered i k hk)
    · cases he
      exact Nat.lt_succ_self _
  · intro idle
    simp [System.setClient] at idle
  · intro k op' pending
    simp only [System.setClient, Function.update_self, Option.some.injEq, Prod.mk.injEq] at pending
    obtain ⟨rfl, rfl⟩ := pending
    refine ⟨client, valid, by simp, ?_, ?_⟩
    · intro hmem
      exact hnew (h.pointed.issued_of_answered (by simpa using hmem))
    · refine .requested request ?_ ((hreplies i).trans (h.idle i free).2) ?_
      · rw [queueAt_append_singleton, if_pos rfl, (h.idle i free).1]
        rfl
      · intro hmem
        exact hnew (h.pointed.issued_of_effect (by simpa using hmem))
  · intro c hc here
    rw [effects_append, effects_event, List.append_nil] at hc
    rcases h.closed c hc with responded | pending
    · exact .inl (List.mem_append_left _ responded)
    · rw [here, free] at pending
      cases pending

theorem Explains.serve (hP : P.RoundTrips) (h : Explains P clients s marks) {parts msg : Parts}
    {rest : Pool Place Parts} {msgMap : MsgMap}
    (got : receive (.clientToServer i) s.inFlight = some (parts, rest))
    (run : SyncRpc.serve P s.msgMap (withNul i :: parts) = .ok (msgMap, msg)) :
    ∃ c, Explains P clients
      { s with msgMap := msgMap, inFlight := rest ++ (placeOf clients msg).toList }
      (marks ++ [.effect c]) := by
  have hqueue := receive_queueAt got (.clientToServer i)
  rw [if_pos rfl] at hqueue
  obtain ⟨k, op, pending⟩ : ∃ k op, (s.client i).pending = some (k, op) := by
    cases hpending : (s.client i).pending with
    | none =>
      rw [(h.idle i hpending).1] at hqueue
      cases hqueue
    | some call => exact ⟨call.1, call.2, rfl⟩
  have hwaiting := h.waiting i k op pending
  cases hwaiting.stage with
  | replied empty =>
    rw [empty] at hqueue
    cases hqueue
  | @requested parts' request queue empty fresh =>
    rw [queue] at hqueue
    obtain ⟨rfl, hrest⟩ := List.cons.inj hqueue
    obtain ⟨reply, hrun, hresult⟩ := serve_request hP hwaiting.valid request s.msgMap (withNul i)
    rw [run] at hrun
    cases hrun
    rw [placeOf_withNul hwaiting.client, Option.toList_some]
    have hrequests : ∀ j, queueAt (.clientToServer j) (rest ++ [(Place.serverToClient i, reply)]) =
        queueAt (.clientToServer j) rest := by
      intro j
      rw [queueAt_append_singleton, if_neg (by simp)]
    have hreplies : ∀ j, queueAt (.serverToClient j) (rest ++ [(Place.serverToClient i, reply)]) =
        if j = i then queueAt (.serverToClient j) s.inFlight ++ [reply]
        else queueAt (.serverToClient j) s.inFlight := by
      intro j
      have hsame := receive_queueAt got (.serverToClient j)
      rw [if_neg (by simp)] at hsame
      rw [queueAt_append_singleton, hsame]
      simp
    obtain ⟨hanswer, hholds⟩ := h.holds.effect op (i, k) (effect s.msgMap op).2
    refine ⟨⟨(i, k), op, (effect s.msgMap op).2⟩,
      h.update i rfl (h.pointed.effect hwaiting.invoked fresh)
      ?_ ?_ (fun _ _ => rfl) ?_ ?_ ?_ ?_ ?_ ?_⟩
    · rw [effects_append, effects_effect]
      exact sequential_concat h.sequential hanswer
    · rw [effects_append, effects_effect]
      exact hholds
    · intro j other
      have hsame := receive_queueAt got (.clientToServer j)
      rw [if_neg (by simp [other])] at hsame
      exact (hrequests j).trans hsame.symm
    · intro j other
      exact (hreplies j).trans (if_neg other)
    · intro l hl
      exact h.numbered i l (by simpa using hl)
    · intro idle
      rw [pending] at idle
      cases idle
    · intro l op' pending'
      rw [pending] at pending'
      cases pending'
      refine ⟨hwaiting.client, hwaiting.valid, List.mem_append_left _ hwaiting.invoked, ?_, ?_⟩
      · simpa using hwaiting.unanswered
      · refine .replied ((hrequests i).trans hrest.symm) ?_ hresult (by simp)
        rw [hreplies i, if_pos rfl, empty]
        rfl
    · intro c hc here
      rcases mem_effects_concat hc with hc | he
      · rw [← here]
        exact (h.closed c hc).imp_left (List.mem_append_left _)
      · cases he
        exact .inr pending

theorem Explains.receive (h : Explains P clients s marks)
    (pending : (s.client i).pending = some (k, op))
    {msg : Parts} {rest : Pool Place Parts} {r : Reply}
    (got : receive (.serverToClient i) s.inFlight = some (msg, rest))
    (result : Client.result P op msg = .ok r) :
    Explains P clients { s.setClient i ⟨(s.client i).calls, none⟩ with inFlight := rest }
      (marks ++ [.event (.respond (i, k) r)]) := by
  have hqueue := receive_queueAt got (.serverToClient i)
  rw [if_pos rfl] at hqueue
  have hsame : ∀ j, queueAt (.clientToServer j) rest = queueAt (.clientToServer j) s.inFlight := by
    intro j
    rw [receive_queueAt got, if_neg (by simp)]
  have hwaiting := h.waiting i k op pending
  cases hwaiting.stage with
  | requested _ _ empty =>
    rw [empty] at hqueue
    cases hqueue
  | @replied msg' r' empty queue result' done =>
    rw [queue] at hqueue
    obtain ⟨rfl, hrest⟩ := List.cons.inj hqueue
    rw [result] at result'
    cases result'
    refine h.update i rfl (h.pointed.respond done hwaiting.unanswered) (by simpa using h.sequential)
      (by simpa [System.setClient] using h.holds) ?_ (fun j _ => hsame j) ?_ ?_ ?_ ?_ ?_
    · intro j other
      exact Function.update_of_ne other _ _
    · intro j other
      rw [receive_queueAt got, if_neg (by simp [other])]
    · intro l hl
      simp only [System.setClient, Function.update_self]
      exact h.numbered i l (by simpa using hl)
    · intro _
      exact ⟨(hsame i).trans empty, hrest.symm⟩
    · intro l op' pending'
      simp [System.setClient] at pending'
    · intro c hc here
      rw [effects_append, effects_event, List.append_nil] at hc
      rcases h.closed c hc with responded | open'
      · exact .inl (List.mem_append_left _ responded)
      · left
        rw [here, pending] at open'
        obtain ⟨hk, _⟩ := Prod.mk.inj (Option.some.inj open')
        have hid : c.id = (i, k) := Prod.ext here hk.symm
        have hcall := List.inj_on_of_nodup_map h.pointed.effects_nodup hc done hid
        rw [hcall]
        simp

theorem Explains.step (hP : P.RoundTrips) (h : Explains P clients s marks) {a : Action}
    (hs : Step P clients s a t) :
    ∃ marks', Explains P clients t marks' ∧
      observable marks' = observable marks ++ a.event?.toList := by
  cases hs with
  | call client free valid request => exact ⟨_, h.call client free valid request,
      by simp [Action.event?]⟩
  | serve got run =>
    obtain ⟨c, hc⟩ := h.serve hP got run
    exact ⟨_, hc, by simp [Action.event?]⟩
  | receive pending got result => exact ⟨_, h.receive pending got result, by simp [Action.event?]⟩

theorem explains_of_run (hP : P.RoundTrips) {as : List Action}
    (run : Run (Step P clients) System.init as s) :
    ∃ marks, Explains P clients s marks ∧ observable marks = history as := by
  refine run.history_invariant (I := fun past s => ∃ marks, Explains P clients s marks ∧
    observable marks = history past) ?_ (show ∃ marks, Explains P clients System.init marks ∧
      observable marks = history [] from ⟨[], explains_init P clients, rfl⟩)
  rintro past s a t ⟨marks, h, hpast⟩ hs
  obtain ⟨marks', h', hmarks⟩ := h.step hP hs
  refine ⟨marks', h', ?_⟩
  rw [hmarks, hpast, history, history, List.filterMap_append]
  congr 1

/-- A call under way returns once its request has been served and its reply been taken. -/
theorem Explains.completes (hP : P.RoundTrips) (h : Explains P clients s marks)
    (pending : (s.client i).pending = some (k, op)) :
    ∃ bs t r, Run (Step P clients) s (bs ++ [.receive (i, k) r]) t := by
  have hreplied : ∀ (u : System) (marks : Marks), Explains P clients u marks →
      (u.client i).pending = some (k, op) → queueAt (.clientToServer i) u.inFlight = [] →
      ∃ t r, Step P clients u (.receive (i, k) r) t := by
    intro u marks h pending empty
    cases (h.waiting i k op pending).stage with
    | requested _ queue =>
      rw [empty] at queue
      cases queue
    | replied _ queue result _ =>
      obtain ⟨rest, got, _⟩ := exists_receive queue
      exact ⟨_, _, .receive pending got result⟩
  have hwaiting := h.waiting i k op pending
  cases hwaiting.stage with
  | replied empty =>
    obtain ⟨t, r, hs⟩ := hreplied s marks h pending empty
    exact ⟨[], t, r, .single hs⟩
  | requested request queue =>
    obtain ⟨rest, got, hrest⟩ := exists_receive queue
    obtain ⟨msg, run, _⟩ := serve_request hP hwaiting.valid request s.msgMap (withNul i)
    obtain ⟨c, hc⟩ := h.serve hP got run
    have hempty : queueAt (.clientToServer i)
        (rest ++ (placeOf clients (withNul i :: msg)).toList) = [] := by
      rw [placeOf_withNul hwaiting.client, Option.toList_some, queueAt_append_singleton,
        if_neg (by simp), hrest]
    obtain ⟨t, r, hs⟩ := hreplied _ _ hc pending hempty
    exact ⟨[.serve i], t, r, .cons (.serve got run) (.single hs)⟩

/-- The topic service is linearizable. Its order consists of the calls that have returned and, as
far as others have seen their effect, of calls whose reply is still under way. -/
theorem linearizable_store (hP : P.RoundTrips) {as : List Action}
    (run : Run (Step P clients) System.init as s) :
    (∃ order, Linearizes (history as) order ∧ Sequential order ∧
      ((∀ i, (s.client i).pending = none) → ∀ c ∈ order, .respond c.id c.res ∈ history as)) ∧
    ∀ i k op, (s.client i).pending = some (k, op) →
      ∃ bs t r, Run (Step P clients) s (bs ++ [.receive (i, k) r]) t := by
  obtain ⟨marks, h, hmarks⟩ := explains_of_run hP run
  refine ⟨⟨effects marks, ?_, h.sequential, ?_⟩, fun i k op pending => h.completes hP pending⟩
  · rw [← hmarks]
    exact h.pointed.linearizes
  · intro quiet c hc
    rw [← hmarks]
    rcases h.closed c hc with responded | pending
    · exact mem_observable.mpr responded
    · rw [quiet] at pending
      cases pending

theorem run_whole_call (hP : P.RoundTrips) {i : Bytes} {op : Op} (client : i ∈ clients)
    (quiet : (s.client i).pending = none) (empty : s.inFlight = []) (valid : ValidTopic op.topic) :
    Run (Step P clients) s [.call (i, (s.client i).calls) op, .serve i,
        .receive (i, (s.client i).calls) (effect s.msgMap op).2]
      ⟨[], (effect s.msgMap op).1,
        Function.update s.client i ⟨(s.client i).calls + 1, none⟩⟩ := by
  obtain ⟨_, msgMap, state⟩ := s
  obtain rfl : _ = [] := empty
  obtain ⟨parts, request⟩ := exists_request (P := P) valid
  obtain ⟨msg, served, result⟩ := serve_request hP valid request msgMap (withNul i)
  let waits := Function.update state i ⟨(state i).calls + 1, some ((state i).calls, op)⟩
  have hwaits : waits i = ⟨(state i).calls + 1, some ((state i).calls, op)⟩ :=
    Function.update_self ..
  have hcall : Step P clients ⟨[], msgMap, state⟩ _ _ := .call client quiet valid request
  have hserve : Step P clients ⟨[(.clientToServer i, parts)], msgMap, waits⟩ _ _ :=
    .serve (receive_cons_self _ _ []) served
  rw [placeOf_withNul client] at hserve
  have hreceive : Step P clients ⟨[(.serverToClient i, msg)], (effect msgMap op).1, waits⟩ _ _ :=
    .receive (congrArg ClientState.pending hwaits) (receive_cons_self _ _ []) result
  simp only [System.setClient, hwaits, waits, Function.update_idem] at hreceive
  exact .cons hcall (.cons hserve (.single hreceive))

/-- A client sets a topic on the wire format, with a NUL for its payload, and another gets it. -/
theorem linearizable_store_set_get :
    ∃ order, Linearizes [.invoke (bytesOf "c", 0) (.setMessageByTopic (bytesOf "t") [0]),
      .respond (bytesOf "c", 0) ⟨ServiceImp_A.serviceStatus, none⟩,
      .invoke (bytesOf "d", 0) (.getMessageByTopic (bytesOf "t")),
      .respond (bytesOf "d", 0) ⟨ServiceImp_A.serviceStatus, some [0]⟩] order ∧
        Sequential order := by
  have hc : bytesOf "c" ∈ [bytesOf "c", bytesOf "d"] := List.mem_cons_self
  have hd : bytesOf "d" ∈ [bytesOf "c", bytesOf "d"] := List.mem_cons_of_mem _ List.mem_cons_self
  have valid : ValidTopic (bytesOf "t") := ⟨by decide, by decide, isUtf8_bytesOf "t"⟩
  have hset := run_whole_call (s := System.init) RpcProto.roundTrips hc rfl rfl
    (show ValidTopic (Op.setMessageByTopic (bytesOf "t") [0]).topic from valid)
  have hget := run_whole_call (s := ⟨[], (effect ∅ (.setMessageByTopic (bytesOf "t") [0])).1,
      Function.update System.init.client (bytesOf "c") ⟨1, none⟩⟩) RpcProto.roundTrips hd rfl rfl
    (show ValidTopic (Op.getMessageByTopic (bytesOf "t")).topic from valid)
  obtain ⟨⟨order, h, hseq, _⟩, _⟩ := linearizable_store RpcProto.roundTrips (hset.append hget)
  simp only [effect, ServiceImp_A.getMessageByTopic_setMessageByTopic] at h
  exact ⟨order, h, hseq⟩

end SimTools.TopicRpc.Linearizable
