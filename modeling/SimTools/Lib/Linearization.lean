/- Module: SimTools/Lib/Linearization
   digest: Histories of concurrent calls, and linearizability from marked points of effect. -/

import Mathlib.Data.List.Nodup
import Mathlib.Data.List.Induction

set_option autoImplicit false
set_option relaxedAutoImplicit false

namespace SimTools.Lib.Linearization

universe u v w

variable {I : Type u} {O : Type v} {R : Type w}

/-- What can be observed of a call: that it was issued and that it returned. -/
inductive Event (I : Type u) (O : Type v) (R : Type w)
  | invoke (id : I) (op : O)
  | respond (id : I) (res : R)

/-- A call with its result. -/
structure Call (I : Type u) (O : Type v) (R : Type w) where
  id : I
  op : O
  res : R

def answered (history : List (Event I O R)) : List I :=
  history.filterMap (fun | .invoke _ _ => none | .respond id _ => some id)

/-- An occurrence of `x` stands before one of `y`. -/
def Precedes {A : Type u} (xs : List A) (x y : A) : Prop :=
  ∃ before after, xs = before ++ after ∧ x ∈ before ∧ y ∈ after

/-- The calls in `order` are those that have returned and some that are under way, each of them
once, and a call that returned before another was issued stands before it. -/
structure Linearizes (history : List (Event I O R)) (order : List (Call I O R)) : Prop where
  nodup : (order.map Call.id).Nodup
  returned_once : (answered history).Nodup
  invoked : ∀ c ∈ order, .invoke c.id c.op ∈ history
  returned : ∀ id res, .respond id res ∈ history → ∃ op, ⟨id, op, res⟩ ∈ order
  realTime : ∀ a ∈ order, ∀ b ∈ order,
    Precedes history (.respond a.id a.res) (.invoke b.id b.op) → Precedes order a b

/-- An event, or the point at which a call takes effect. -/
inductive Mark (I : Type u) (O : Type v) (R : Type w)
  | event (e : Event I O R)
  | effect (c : Call I O R)

def Mark.id : Mark I O R → I
  | .event (.invoke id _) | .event (.respond id _) => id
  | .effect c => c.id

def observable (marks : List (Mark I O R)) : List (Event I O R) :=
  marks.filterMap (fun | .event e => some e | .effect _ => none)

def effects (marks : List (Mark I O R)) : List (Call I O R) :=
  marks.filterMap (fun | .event _ => none | .effect c => some c)

def issued (marks : List (Mark I O R)) : List I :=
  marks.filterMap (fun | .event (.invoke id _) => some id | _ => none)

/-- Every call takes effect once, after it was issued and before it returns. -/
inductive Pointed : List (Mark I O R) → Prop
  | nil : Pointed []
  | invoke {marks : List (Mark I O R)} {id : I} {op : O} :
      Pointed marks → id ∉ issued marks → Pointed (marks ++ [.event (.invoke id op)])
  | effect {marks : List (Mark I O R)} {c : Call I O R} :
      Pointed marks → .event (.invoke c.id c.op) ∈ marks → c.id ∉ (effects marks).map Call.id →
      Pointed (marks ++ [.effect c])
  | respond {marks : List (Mark I O R)} {c : Call I O R} :
      Pointed marks → c ∈ effects marks → c.id ∉ answered (observable marks) →
      Pointed (marks ++ [.event (.respond c.id c.res)])

section Lists

variable {marks more : List (Mark I O R)} {e : Event I O R} {c : Call I O R}

@[simp] theorem observable_append :
    observable (marks ++ more) = observable marks ++ observable more :=
  List.filterMap_append

@[simp] theorem effects_append : effects (marks ++ more) = effects marks ++ effects more :=
  List.filterMap_append

@[simp] theorem issued_append : issued (marks ++ more) = issued marks ++ issued more :=
  List.filterMap_append

@[simp] theorem answered_append {history later : List (Event I O R)} :
    answered (history ++ later) = answered history ++ answered later :=
  List.filterMap_append

@[simp] theorem answered_invoke (id : I) (op : O) :
    answered [(.invoke id op : Event I O R)] = [] := rfl

@[simp] theorem answered_respond (id : I) (res : R) :
    answered [(.respond id res : Event I O R)] = [id] := rfl

@[simp] theorem observable_event : observable [(.event e : Mark I O R)] = [e] := rfl

@[simp] theorem observable_effect : observable [(.effect c : Mark I O R)] = [] := rfl

@[simp] theorem effects_event : effects [(.event e : Mark I O R)] = [] := rfl

@[simp] theorem effects_effect : effects [(.effect c : Mark I O R)] = [c] := rfl

@[simp] theorem issued_effect : issued [(.effect c : Mark I O R)] = [] := rfl

@[simp] theorem issued_invoke (id : I) (op : O) :
    issued [(.event (.invoke id op) : Mark I O R)] = [id] := rfl

@[simp] theorem issued_respond (id : I) (res : R) :
    issued [(.event (.respond id res) : Mark I O R)] = [] := rfl

theorem mem_observable : e ∈ observable marks ↔ .event e ∈ marks := by
  rw [observable, List.mem_filterMap]
  constructor
  · rintro ⟨m, hm, he⟩
    cases m with
    | event f =>
      cases he
      exact hm
    | effect c => cases he
  · intro hm
    exact ⟨_, hm, rfl⟩

theorem mem_issued_of_invoke {id : I} {op : O} (h : .event (.invoke id op) ∈ marks) :
    id ∈ issued marks :=
  List.mem_filterMap.mpr ⟨_, h, rfl⟩

theorem mem_effects_concat {m : Mark I O R} (h : c ∈ effects (marks ++ [m])) :
    c ∈ effects marks ∨ m = .effect c := by
  rw [effects_append] at h
  refine (List.mem_append.mp h).imp_right ?_
  intro hm
  cases m with
  | event e => cases hm
  | effect c' => rw [List.mem_singleton.mp hm]

theorem mem_issued_concat {m : Mark I O R} {id : I} (h : id ∈ issued (marks ++ [m])) :
    id ∈ issued marks ∨ ∃ op, m = .event (.invoke id op) := by
  rw [issued_append] at h
  refine (List.mem_append.mp h).imp_right ?_
  intro hm
  cases m with
  | effect c => cases hm
  | event e =>
    cases e with
    | respond => cases hm
    | invoke id' op => exact ⟨op, by rw [List.mem_singleton.mp hm]⟩

theorem not_mem_effects_concat {m : Mark I O R} {id : I} (h : id ∉ (effects marks).map Call.id)
    (other : m.id ≠ id) : id ∉ (effects (marks ++ [m])).map Call.id := by
  rintro hid
  obtain ⟨c, hc, rfl⟩ := List.mem_map.mp hid
  rcases mem_effects_concat hc with hc | rfl
  · exact h (List.mem_map_of_mem hc)
  · exact other rfl

theorem not_mem_answered_concat {m : Mark I O R} {id : I} (h : id ∉ answered (observable marks))
    (other : m.id ≠ id) : id ∉ answered (observable (marks ++ [m])) := by
  cases m with
  | effect c => simpa using h
  | event e =>
    cases e with
    | invoke => simpa using h
    | respond id' res =>
      rw [observable_append, observable_event, answered_append, answered_respond, List.mem_append]
      rintro (hid | hid)
      · exact h hid
      · exact other (List.mem_singleton.mp hid).symm

end Lists

namespace Pointed

variable {marks before after : List (Mark I O R)}

theorem of_append (h : Pointed (before ++ after)) : Pointed before := by
  induction after using List.reverseRecOn with
  | nil => rwa [List.append_nil] at h
  | append_singleton after m ih =>
    apply ih
    rw [← List.append_assoc] at h
    generalize hall : before ++ after ++ [m] = all at h
    cases h with
    | nil => simp at hall
    | invoke h _ | effect h _ _ | respond h _ _ =>
      obtain ⟨rfl, _⟩ := List.append_inj' hall rfl
      exact h

theorem issued_nodup (h : Pointed marks) : (issued marks).Nodup := by
  induction h with
  | nil => exact List.nodup_nil
  | invoke _ fresh ih =>
    rw [issued_append, issued_invoke]
    exact List.nodup_append_comm.mp (List.nodup_cons.mpr ⟨fresh, ih⟩)
  | effect _ _ _ ih | respond _ _ _ ih => simpa using ih

theorem answered_nodup (h : Pointed marks) : (answered (observable marks)).Nodup := by
  induction h with
  | nil => exact List.nodup_nil
  | respond _ _ fresh ih =>
    rw [observable_append, observable_event, answered_append, answered_respond]
    exact List.nodup_append_comm.mp (List.nodup_cons.mpr ⟨fresh, ih⟩)
  | invoke _ _ ih | effect _ _ _ ih => simpa using ih

theorem effects_nodup (h : Pointed marks) : ((effects marks).map Call.id).Nodup := by
  induction h with
  | nil => exact List.nodup_nil
  | effect _ _ fresh ih =>
    rw [effects_append, effects_effect, List.map_append]
    exact List.nodup_append_comm.mp (List.nodup_cons.mpr ⟨fresh, ih⟩)
  | invoke _ _ ih | respond _ _ _ ih => simpa using ih

theorem invoked_of_effect (h : Pointed marks) {c : Call I O R} (hc : c ∈ effects marks) :
    .event (.invoke c.id c.op) ∈ marks := by
  induction h with
  | nil => cases hc
  | invoke _ _ ih | respond _ _ _ ih =>
    rw [effects_append, effects_event, List.append_nil] at hc
    exact List.mem_append_left _ (ih hc)
  | effect _ issued _ ih =>
    rw [effects_append, effects_effect] at hc
    rcases List.mem_append.mp hc with hc | hc
    · exact List.mem_append_left _ (ih hc)
    · rw [List.mem_singleton.mp hc]
      exact List.mem_append_left _ issued

theorem effect_of_respond (h : Pointed marks) {id : I} {res : R}
    (hr : .event (.respond id res) ∈ marks) : ∃ op, ⟨id, op, res⟩ ∈ effects marks := by
  induction h with
  | nil => cases hr
  | @respond marks c _ hc _ ih =>
    rw [effects_append, effects_event, List.append_nil]
    rcases List.mem_append.mp hr with hr | hr
    · exact ih hr
    · cases List.mem_singleton.mp hr
      exact ⟨c.op, hc⟩
  | invoke _ _ ih | effect _ _ _ ih =>
    rcases List.mem_append.mp hr with hr | hr
    · obtain ⟨op, hop⟩ := ih hr
      exact ⟨op, by simp [hop]⟩
    · cases List.mem_singleton.mp hr

theorem issued_of_effect (h : Pointed marks) {id : I} (hid : id ∈ (effects marks).map Call.id) :
    id ∈ issued marks := by
  obtain ⟨c, hc, rfl⟩ := List.mem_map.mp hid
  exact mem_issued_of_invoke (h.invoked_of_effect hc)

theorem issued_of_answered (h : Pointed marks) {id : I} (hid : id ∈ answered (observable marks)) :
    id ∈ issued marks := by
  obtain ⟨e, he, hres⟩ := List.mem_filterMap.mp hid
  cases e with
  | invoke => cases hres
  | respond id' res =>
    cases hres
    obtain ⟨op, hop⟩ := h.effect_of_respond (mem_observable.mp he)
    exact mem_issued_of_invoke (h.invoked_of_effect hop)

/-- An effect lies between the invocation and the return of its call. -/
theorem linearizes (h : Pointed marks) : Linearizes (observable marks) (effects marks) := by
  refine ⟨h.effects_nodup, h.answered_nodup, ?_, ?_, ?_⟩
  · intro c hc
    exact mem_observable.mpr (h.invoked_of_effect hc)
  · intro id res hr
    exact h.effect_of_respond (mem_observable.mp hr)
  · rintro a ha b hb ⟨first, last, hsplit, hreturn, hinvoke⟩
    obtain ⟨before, after, rfl, rfl, rfl⟩ := List.filterMap_eq_append_iff.mp hsplit
    refine ⟨effects before, effects after, effects_append, ?_, ?_⟩
    · obtain ⟨op, hop⟩ := h.of_append.effect_of_respond (mem_observable.mp hreturn)
      have hmem : (⟨a.id, op, a.res⟩ : Call I O R) ∈ effects (before ++ after) := by simp [hop]
      have hsame := List.inj_on_of_nodup_map h.effects_nodup ha hmem rfl
      exact hsame ▸ hop
    · rw [effects_append] at hb
      rcases List.mem_append.mp hb with hb | hb
      · have hearly := mem_issued_of_invoke (h.of_append.invoked_of_effect hb)
        have hlate := mem_issued_of_invoke (mem_observable.mp hinvoke)
        have hdisjoint := List.disjoint_of_nodup_append (issued_append ▸ h.issued_nodup)
        exact absurd hlate (hdisjoint hearly)
      · exact hb

end Pointed

end SimTools.Lib.Linearization
