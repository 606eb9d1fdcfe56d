/- Module: SimTools/Lib/CallService
   digest: Clients that call and wait: the service that only keeps the open calls, and its dialogues. -/

import SimTools.Lib.Refinement
import Mathlib.Data.List.Induction
import Mathlib.Logic.Function.Basic

set_option autoImplicit false
set_option relaxedAutoImplicit false

namespace SimTools.Lib.CallService

open Refinement

universe u v w

variable {C : Type u} {Q : Type v} {A : Type w}

inductive Call (C : Type u) (Q : Type v) (A : Type w)
  | request (c : C) (q : Q)
  | answer (c : C) (a : A)

def Call.client : Call C Q A → C
  | .request c _ | .answer c _ => c

@[simp] theorem Call.client_request (c : C) (q : Q) :
    (.request c q : Call C Q A).client = c := rfl

@[simp] theorem Call.client_answer (c : C) (a : A) : (.answer c a : Call C Q A).client = c := rfl

section Service

variable [DecidableEq C]

/-- A client has one call open at most, and an answer to it closes it. -/
inductive Step (clients : Set C) (good : C → Q → A → Prop) :
    (C → Option Q) → Call C Q A → (C → Option Q) → Prop
  | request {s : C → Option Q} {c : C} {q : Q} : c ∈ clients → s c = none →
      Step clients good s (.request c q) (Function.update s c (some q))
  | answer {s : C → Option Q} {c : C} {q : Q} {a : A} : s c = some q → good c q a →
      Step clients good s (.answer c a) (Function.update s c none)

def service (clients : Set C) (good : C → Q → A → Prop) :
    Observed (C → Option Q) (Call C Q A) (Call C Q A) where
  step := Step clients good
  see v _ := some v

/-- What clients may see of a service that gives only good answers. -/
def served (clients : Set C) (good : C → Q → A → Prop) : Set (List (Call C Q A)) :=
  traces (service clients good) (fun _ => none)

end Service

/-- The calls of one client, each answered before the next one, with the call that is open. -/
inductive Dialogue (good : Q → A → Prop) : List (Call C Q A) → Option Q → Prop
  | nil : Dialogue good [] none
  | request {vs : List (Call C Q A)} {c : C} {q : Q} : Dialogue good vs none →
      Dialogue good (vs ++ [.request c q]) (some q)
  | answer {vs : List (Call C Q A)} {c : C} {q : Q} {a : A} : Dialogue good vs (some q) →
      good q a → Dialogue good (vs ++ [.answer c a]) none

namespace Dialogue

variable {good : Q → A → Prop} {vs : List (Call C Q A)} {q : Q} {o : Option Q}

theorem concat_request {c : C} (h : Dialogue good (vs ++ [.request c q]) o) :
    o = some q ∧ Dialogue good vs none := by
  generalize hlist : vs ++ [.request c q] = us at h
  cases h with
  | nil => simp at hlist
  | request hbefore =>
    obtain ⟨rfl, hlast⟩ := List.append_inj' hlist rfl
    cases hlast
    exact ⟨rfl, hbefore⟩
  | answer _ _ =>
    obtain ⟨_, hlast⟩ := List.append_inj' hlist rfl
    cases hlast

theorem concat_answer {c : C} {a : A} (h : Dialogue good (vs ++ [.answer c a]) o) :
    o = none ∧ ∃ q, Dialogue good vs (some q) ∧ good q a := by
  generalize hlist : vs ++ [.answer c a] = us at h
  cases h with
  | nil => simp at hlist
  | request _ =>
    obtain ⟨_, hlast⟩ := List.append_inj' hlist rfl
    cases hlast
  | @answer _ d q b hbefore hgood =>
    obtain ⟨rfl, hlast⟩ := List.append_inj' hlist rfl
    cases hlast
    exact ⟨rfl, q, hbefore, hgood⟩

end Dialogue

section Dialogues

variable [DecidableEq C] {clients : Set C} {good : C → Q → A → Prop}
  {vs : List (Call C Q A)} {s : C → Option Q}

def ofClient (c : C) (vs : List (Call C Q A)) : List (Call C Q A) :=
  vs.filter (fun v => v.client = c)

theorem ofClient_concat (c : C) (vs : List (Call C Q A)) (v : Call C Q A) :
    ofClient c (vs ++ [v]) = if v.client = c then ofClient c vs ++ [v] else ofClient c vs := by
  by_cases here : v.client = c
  · simp [here, ofClient, List.filter_append]
  · simp [here, ofClient, List.filter_append]

theorem dialogue_of_seen (h : Seen (service clients good) (fun _ => none) vs s) (c : C) :
    Dialogue (good c) (ofClient c vs) (s c) := by
  refine h.invariant (I := fun past s => ∀ c, Dialogue (good c) (ofClient c past) (s c)) ?_
    (fun _ => .nil) c
  intro past s v t ih hs c
  change Dialogue (good c) (ofClient c (past ++ [v])) (t c)
  rw [ofClient_concat]
  cases hs with
  | @request d q _ idle =>
    rw [Call.client_request]
    by_cases here : d = c
    · subst here
      have hbefore := ih d
      rw [idle] at hbefore
      rw [if_pos rfl, Function.update_self]
      exact .request hbefore
    · rw [if_neg here, Function.update_of_ne (Ne.symm here)]
      exact ih c
  | @answer d q a opened hgood =>
    rw [Call.client_answer]
    by_cases here : d = c
    · subst here
      have hbefore := ih d
      rw [opened] at hbefore
      rw [if_pos rfl, Function.update_self]
      exact .answer hbefore hgood
    · rw [if_neg here, Function.update_of_ne (Ne.symm here)]
      exact ih c

theorem client_of_seen (h : Seen (service clients good) (fun _ => none) vs s) :
    ∀ c q, .request c q ∈ vs → c ∈ clients := by
  refine h.invariant (I := fun past _ => ∀ c q, .request c q ∈ past → c ∈ clients) ?_ (by simp)
  intro past s v t ih hs c q hmem
  rcases List.mem_append.mp hmem with hmem | hmem
  · exact ih c q hmem
  · obtain rfl : v = .request c q := by simpa [service, eq_comm] using hmem
    cases hs with
    | request hc _ => exact hc

theorem seen_of_dialogues (hclients : ∀ c q, .request c q ∈ vs → c ∈ clients)
    (h : ∀ c, Dialogue (good c) (ofClient c vs) (s c)) :
    Seen (service clients good) (fun _ => none) vs s := by
  induction vs using List.reverseRecOn generalizing s with
  | nil =>
    have hnone : s = fun _ => none := by
      funext c
      have hc := h c
      generalize ho : s c = o at hc
      generalize hl : ofClient c ([] : List (Call C Q A)) = us at hc
      cases hc with
      | nil => rfl
      | request _ => simp [ofClient] at hl
      | answer _ _ => rfl
    rw [hnone]
    exact .nil _
  | append_singleton vs v ih =>
    have hbefore : ∀ c q, .request c q ∈ vs → c ∈ clients := by
      intro c q hmem
      exact hclients c q (List.mem_append_left _ hmem)
    have hothers : ∀ c, c ≠ v.client → Dialogue (good c) (ofClient c vs) (s c) := by
      intro c other
      have hc := h c
      rwa [ofClient_concat, if_neg (Ne.symm other)] at hc
    have hlast := h v.client
    rw [ofClient_concat, if_pos rfl] at hlast
    cases v with
    | request c q =>
      obtain ⟨hopen, hidle⟩ := hlast.concat_request
      have hpast : Seen (service clients good) (fun _ => none) vs (Function.update s c none) := by
        refine ih hbefore fun d => ?_
        by_cases here : d = c
        · subst here
          rwa [Function.update_self]
        · rw [Function.update_of_ne here]
          exact hothers d here
      have hclient : c ∈ clients := hclients c q (by simp)
      have hstep : Step clients good (Function.update s c none) (.request c q)
          (Function.update (Function.update s c none) c (some q)) :=
        .request hclient (Function.update_self _ _ _)
      rw [Function.update_idem, ← show s c = some q from hopen, Function.update_eq_self] at hstep
      exact hpast.snoc hstep rfl
    | answer c a =>
      obtain ⟨hclosed, q, hopen, hgood⟩ := hlast.concat_answer
      have hpast : Seen (service clients good) (fun _ => none) vs
          (Function.update s c (some q)) := by
        refine ih hbefore fun d => ?_
        by_cases here : d = c
        · subst here
          rwa [Function.update_self]
        · rw [Function.update_of_ne here]
          exact hothers d here
      have hstep : Step clients good (Function.update s c (some q)) (.answer c a)
          (Function.update (Function.update s c (some q)) c none) :=
        .answer (Function.update_self _ _ _) hgood
      rw [Function.update_idem, ← show s c = none from hclosed, Function.update_eq_self] at hstep
      exact hpast.snoc hstep rfl

/-- What clients may see is any interleaving of dialogues. -/
theorem mem_served_iff : vs ∈ served clients good ↔
    (∀ c q, .request c q ∈ vs → c ∈ clients) ∧
      ∀ c, ∃ o, Dialogue (good c) (ofClient c vs) o := by
  constructor
  · rintro ⟨s, h⟩
    exact ⟨client_of_seen h, fun c => ⟨s c, dialogue_of_seen h c⟩⟩
  · rintro ⟨hclients, h⟩
    choose s hs using h
    exact ⟨s, seen_of_dialogues hclients hs⟩

end Dialogues

end SimTools.Lib.CallService
