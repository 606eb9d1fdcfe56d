/- Module: SimTools/Lib/Tokens
   digest: Tokens that travel through channels and wait in one queue: each is accounted for once. -/

import SimTools.Lib.Channels
import Mathlib.Data.List.Nodup

set_option autoImplicit false
set_option relaxedAutoImplicit false
set_option linter.unusedSectionVars false

namespace SimTools.Lib.Tokens

open Channels

universe u v w x

variable {P : Type u} {M : Type v} {W : Type w} {I : Type x}
variable [DecidableEq P] [BEq W] [LawfulBEq W] [BEq I] [LawfulBEq I]

/-- The places that belong to each token, and its name in the queue. -/
structure Ledger (P : Type u) (W : Type w) (I : Type x) where
  places : W → List P
  name : W → I
  name_injective : Function.Injective name
  places_nodup : ∀ w, (places w).Nodup
  owner_unique : ∀ v w p, p ∈ places v → p ∈ places w → v = w

def Ledger.owns (L : Ledger P W I) (w : W) (p : P) : Bool := p ∈ L.places w

def Ledger.occurrences (L : Ledger P W I) (pool : Pool P M) (queue : List I) (w : W) : Nat :=
  pool.countP (fun x => L.owns w x.1) + queue.count (L.name w)

/-- Every token is in one place, once, and nothing else is in the queue. -/
structure Accounted (L : Ledger P W I) (tokens : List W) (pool : Pool P M) (queue : List I) :
    Prop where
  nodup : tokens.Nodup
  once : ∀ w, L.occurrences pool queue w = tokens.count w
  named : ∀ id ∈ queue, ∃ w, id = L.name w

theorem Ledger.owns_of_ne (L : Ledger P W I) {v w : W} (ne : v ≠ w) {p : P}
    (own : L.owns v p = true) :
    L.owns w p = false := by
  rw [Bool.eq_false_iff]
  intro hw
  exact ne (L.owner_unique v w p (of_decide_eq_true own) (of_decide_eq_true hw))

theorem Ledger.occurrences_eq (L : Ledger P W I) (pool : Pool P M) (queue : List I) (w : W) :
    L.occurrences pool queue w =
      ((L.places w).map (fun p => (queueAt p pool).length)).sum + queue.count (L.name w) := by
  rw [Ledger.occurrences, ← countP_mem_places (L.places_nodup w)]
  rfl

variable {L : Ledger P W I} {tokens : List W} {pool rest sent : Pool P M} {queue : List I}
variable {p q : P} {m m' : M} {w : W}

theorem accounted_nil (L : Ledger P W I) : Accounted L [] ([] : Pool P M) [] :=
  ⟨List.nodup_nil, by simp [Ledger.occurrences], by simp⟩

namespace Accounted

theorem perm (h : Accounted L tokens pool queue) {pool' : Pool P M} (hp : pool'.Perm pool) :
    Accounted L tokens pool' queue := by
  refine ⟨h.nodup, ?_, h.named⟩
  intro w
  rw [Ledger.occurrences, hp.countP_eq]
  exact h.once w

theorem join (h : Accounted L tokens pool queue) (new : w ∉ tokens) (own : L.owns w q = true) :
    Accounted L (w :: tokens) (pool ++ [(q, m)]) queue := by
  refine ⟨List.nodup_cons.mpr ⟨new, h.nodup⟩, ?_, h.named⟩
  intro v
  have honce := h.once v
  simp only [Ledger.occurrences, List.countP_append, List.countP_singleton,
    List.count_cons] at honce ⊢
  by_cases here : w = v
  · subst here
    simp only [own, ↓reduceIte, beq_self_eq_true]
    omega
  · have hother := L.owns_of_ne here own
    simp only [hother, Bool.false_eq_true, ↓reduceIte, beq_iff_eq, here]
    omega

theorem send (h : Accounted L tokens pool queue)
    (elsewhere : ∀ w, ∀ x ∈ sent, L.owns w x.1 = false) :
    Accounted L tokens (pool ++ sent) queue := by
  refine ⟨h.nodup, ?_, h.named⟩
  intro w
  have hsent : sent.countP (fun x => L.owns w x.1) = 0 := by
    rw [List.countP_eq_zero]
    intro x hx
    simp [elsewhere w x hx]
  have honce := h.once w
  simp only [Ledger.occurrences, List.countP_append, hsent] at honce ⊢
  omega

theorem dispatch (h : Accounted L tokens pool (L.name w :: queue)) (own : L.owns w q = true) :
    Accounted L tokens (pool ++ [(q, m)]) queue := by
  refine ⟨h.nodup, ?_, fun id hid => h.named id (List.mem_cons_of_mem _ hid)⟩
  intro v
  have honce := h.once v
  simp only [Ledger.occurrences, List.countP_append, List.countP_singleton,
    List.count_cons] at honce ⊢
  by_cases here : w = v
  · subst here
    simp only [own, ↓reduceIte, beq_self_eq_true] at honce ⊢
    omega
  · have hother := L.owns_of_ne here own
    have hname : ¬ L.name w = L.name v := fun he => here (L.name_injective he)
    simp only [hother, Bool.false_eq_true, ↓reduceIte, beq_iff_eq, hname] at honce ⊢
    omega

theorem mem_of_mem_queue (h : Accounted L tokens pool queue) (hw : L.name w ∈ queue) :
    w ∈ tokens := by
  by_contra hnot
  have honce := h.once w
  have hcount := List.count_pos_iff.mpr hw
  rw [List.count_eq_zero.mpr hnot, Ledger.occurrences] at honce
  omega

theorem exists_of_mem_queue (h : Accounted L tokens pool queue) {id : I} (hid : id ∈ queue) :
    ∃ w ∈ tokens, id = L.name w := by
  obtain ⟨w, rfl⟩ := h.named id hid
  exact ⟨w, h.mem_of_mem_queue hid, rfl⟩

theorem occurrences_eq_one (h : Accounted L tokens pool queue) (hw : w ∈ tokens) :
    L.occurrences pool queue w = 1 := by
  rw [h.once w]
  exact List.count_eq_one_of_mem h.nodup hw

theorem queue_nodup (h : Accounted L tokens pool queue) : queue.Nodup := by
  rw [List.nodup_iff_count_le_one]
  intro id
  by_cases hid : id ∈ queue
  · obtain ⟨w, hw, rfl⟩ := h.exists_of_mem_queue hid
    have hone := h.occurrences_eq_one hw
    rw [Ledger.occurrences] at hone
    omega
  · rw [List.count_eq_zero.mpr hid]
    exact Nat.zero_le 1

theorem length_queue_le (h : Accounted L tokens pool queue) : queue.length ≤ tokens.length := by
  have hsub : ∀ id ∈ queue, id ∈ tokens.map L.name := by
    intro id hid
    obtain ⟨w, hw, rfl⟩ := h.exists_of_mem_queue hid
    exact List.mem_map_of_mem hw
  have hle := (List.subperm_of_subset h.queue_nodup hsub).length_le
  rwa [List.length_map] at hle

theorem move (h : Accounted L tokens pool queue) (got : receive p pool = some (m, rest))
    (same : ∀ w, L.owns w p = L.owns w q) : Accounted L tokens (rest ++ [(q, m')]) queue := by
  refine ⟨h.nodup, ?_, h.named⟩
  intro w
  have hgot := receive_countP got (fun x => L.owns w x.1)
  have honce := h.once w
  simp only [Ledger.occurrences, List.countP_append, List.countP_singleton, same w] at honce hgot ⊢
  omega

theorem take (h : Accounted L tokens pool queue) (got : receive p pool = some (m, rest))
    (elsewhere : ∀ w, L.owns w p = false) : Accounted L tokens rest queue := by
  refine ⟨h.nodup, ?_, h.named⟩
  intro w
  have hgot := receive_countP got (fun x => L.owns w x.1)
  have honce := h.once w
  simp only [Ledger.occurrences, elsewhere w, Bool.false_eq_true, ↓reduceIte] at honce hgot ⊢
  omega

theorem wait (h : Accounted L tokens pool queue) (got : receive p pool = some (m, rest))
    (own : L.owns w p = true) : Accounted L tokens rest (queue ++ [L.name w]) := by
  refine ⟨h.nodup, ?_, ?_⟩
  · intro v
    have hgot := receive_countP got (fun x => L.owns v x.1)
    have honce := h.once v
    simp only [Ledger.occurrences, List.count_append, List.count_singleton] at honce hgot ⊢
    by_cases here : w = v
    · subst here
      simp only [own, ↓reduceIte, beq_self_eq_true] at hgot ⊢
      omega
    · have hother := L.owns_of_ne here own
      have hname : ¬ L.name w = L.name v := fun he => here (L.name_injective he)
      simp only [hother, Bool.false_eq_true, ↓reduceIte, beq_iff_eq, hname] at hgot ⊢
      omega
  · intro id hid
    rcases List.mem_append.mp hid with hid | hid
    · exact h.named id hid
    · exact ⟨w, List.mem_singleton.mp hid⟩

theorem exists_message (h : Accounted L tokens pool queue) (hw : w ∈ tokens)
    (away : L.name w ∉ queue) : ∃ p m, (p, m) ∈ pool ∧ L.owns w p = true := by
  have hone := h.occurrences_eq_one hw
  rw [Ledger.occurrences, List.count_eq_zero.mpr away] at hone
  have hpos : 0 < pool.countP (fun x => L.owns w x.1) := by omega
  obtain ⟨⟨p, m⟩, hmem, own⟩ := List.countP_pos_iff.mp hpos
  exact ⟨p, m, hmem, own⟩

end Accounted

/-- Where each token is held by someone and nobody holds two, there are more holders than tokens if
one of them holds none. -/
theorem length_lt_of_held {K : Type*} {holders : List K} {holds : K → W → Prop} {k : K}
    (nodup : tokens.Nodup) (held : ∀ w ∈ tokens, ∃ k ∈ holders, holds k w)
    (single : ∀ k v w, holds k v → holds k w → v = w) (mem : k ∈ holders)
    (free : ∀ w, ¬ holds k w) : tokens.length < holders.length := by
  have hnonempty : Nonempty K := ⟨k⟩
  choose! f hmem hholds using held
  have hnodup : (k :: tokens.map f).Nodup := by
    refine List.nodup_cons.mpr ⟨?_, nodup.map_on ?_⟩
    · intro hk
      obtain ⟨w, hw, rfl⟩ := List.mem_map.mp hk
      exact free w (hholds w hw)
    · intro v hv w hw heq
      exact single (f w) v w (heq ▸ hholds v hv) (hholds w hw)
  have hsub : k :: tokens.map f ⊆ holders := by
    refine List.cons_subset.mpr ⟨mem, ?_⟩
    rintro _ hk
    obtain ⟨w, hw, rfl⟩ := List.mem_map.mp hk
    exact hmem w hw
  have hle := (List.subperm_of_subset hnodup hsub).length_le
  rwa [List.length_cons, List.length_map] at hle

end SimTools.Lib.Tokens
