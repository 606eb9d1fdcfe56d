/- Module: SimTools/Lib/Queueing
   digest: Queues that are served from the front: in which order, and how often others come first. -/

import SimTools.Lib.Refinement
import Mathlib.Data.List.Nodup

set_option autoImplicit false
set_option relaxedAutoImplicit false

namespace SimTools.Lib.Queueing

open Refinement

universe u v w

variable {S : Type u} {E : Type v} {W : Type w}

/-- What is seen of a queue: someone joins it at its end, or whoever is first is called. -/
inductive Visit (W : Type w)
  | joins (w : W)
  | called (w : W)
  deriving DecidableEq

def Visit.joiner : Visit W → Option W
  | .joins w => some w
  | .called _ => none

def Visit.callee : Visit W → Option W
  | .joins _ => none
  | .called w => some w

def joined (vs : List (Visit W)) : List W := vs.filterMap Visit.joiner

def called (vs : List (Visit W)) : List W := vs.filterMap Visit.callee

variable {vs past later : List (Visit W)} {waiting : List W} {s t : S} {x : W} {n : Nat}

@[simp] theorem joined_append (vs us : List (Visit W)) :
    joined (vs ++ us) = joined vs ++ joined us := List.filterMap_append

@[simp] theorem called_append (vs us : List (Visit W)) :
    called (vs ++ us) = called vs ++ called us := List.filterMap_append

/-- After the visits `vs` the queue is `waiting`, and never had more than `n` in it. Who has joined
is called after those that were in front, each of them once, and before any other. -/
structure InTurn (n : Nat) (vs : List (Visit W)) (waiting : List W) : Prop where
  order : joined vs = called vs ++ waiting
  waits : ∀ past x later, vs = past ++ .joins x :: later → ∃ ahead : List W,
    (ahead ++ [x]).Nodup ∧ ahead.length < n ∧
      (called later <+: ahead ++ [x] ∨ ahead ++ [x] <+: called later)

/-- The queue of a system, nobody twice in it and not more than `n`. -/
structure Queue (O : Observed S E (Visit W)) (I : S → Prop) (queue : S → List W) (n : Nat) :
    Prop where
  preserved : ∀ s e t, I s → O.step s e t → I t
  turn : ∀ s e t, I s → O.step s e t →
    queue s ++ joined (O.see e t).toList = called (O.see e t).toList ++ queue t
  nodup : ∀ s, I s → (queue s).Nodup
  few : ∀ s, I s → (queue s).length ≤ n

namespace Queue

variable {O : Observed S E (Visit W)} {I : S → Prop} {queue : S → List W}

/-- Who is in the queue or joins it is called in this order, or still there. -/
theorem law (q : Queue O I queue n) (h : Seen O s vs t) (start : I s) :
    I t ∧ queue s ++ joined vs = called vs ++ queue t := by
  induction h with
  | nil s => exact ⟨start, List.append_nil _⟩
  | @cons s t w e vs hs _ ih =>
    obtain ⟨hend, hrest⟩ := ih (q.preserved _ _ _ start hs)
    have hfirst := q.turn _ _ _ start hs
    refine ⟨hend, ?_⟩
    calc queue s ++ joined ((O.see e t).toList ++ vs)
        = (queue s ++ joined (O.see e t).toList) ++ joined vs := by
          rw [joined_append, List.append_assoc]
      _ = called (O.see e t).toList ++ (queue t ++ joined vs) := by
          rw [hfirst, List.append_assoc]
      _ = called ((O.see e t).toList ++ vs) ++ queue w := by
          rw [hrest, called_append, List.append_assoc]

theorem exists_joined (q : Queue O I queue n) (h : Seen O s (past ++ .joins x :: later) t)
    (start : I s) : ∃ u ahead, I u ∧ queue u = ahead ++ [x] ∧ Seen O u later t := by
  generalize hvs : past ++ .joins x :: later = vs at h
  induction h generalizing past with
  | nil s => simp at hvs
  | @cons s t w e vs hs hrest ih =>
    have hnext := q.preserved _ _ _ start hs
    have hturn := q.turn _ _ _ start hs
    cases hsee : O.see e t with
    | none =>
      rw [hsee] at hvs
      exact ih hnext hvs
    | some v =>
      rw [hsee] at hvs hturn
      cases past with
      | nil =>
        obtain ⟨rfl, rfl⟩ := List.cons.inj hvs
        exact ⟨t, queue s, hnext, hturn.symm, hrest⟩
      | cons v' past => exact ih hnext (List.cons.inj hvs).2

theorem inTurn (q : Queue O I queue n) (h : Seen O s vs t) (start : I s)
    (empty : queue s = []) : InTurn n vs (queue t) := by
  constructor
  · have hlaw := (q.law h start).2
    rwa [empty] at hlaw
  · rintro past x later rfl
    obtain ⟨u, ahead, hu, hqueue, hlater⟩ := q.exists_joined h start
    have hfew := q.few u hu
    have hlaw := (q.law hlater hu).2
    rw [hqueue] at hlaw hfew
    refine ⟨ahead, hqueue ▸ q.nodup u hu, ?_, ?_⟩
    · rw [List.length_append, List.length_singleton] at hfew
      omega
    · refine List.prefix_or_prefix_of_prefix ?_ (List.prefix_append (ahead ++ [x]) (joined later))
      rw [hlaw]
      exact List.prefix_append _ _

end Queue

end SimTools.Lib.Queueing
