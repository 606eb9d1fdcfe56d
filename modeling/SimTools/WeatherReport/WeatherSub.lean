/- Module: SimTools/WeatherReport/WeatherSub
   digest: What a subscriber accepts after a history of topics, and of the publisher's records. -/

import Mathlib.Data.List.Induction
import SimTools.WeatherReport.WeatherPub

set_option autoImplicit false
set_option relaxedAutoImplicit false

namespace SimTools.WeatherReport.WeatherSub

open Lib.Memory
open WeatherCore
open WeatherPub

/-- A subscriber that is constructed with `subTopic` and then given the topics `calls`. -/
def afterCalls (subTopic : Bytes) (calls : List Bytes) : WeatherSuber :=
  calls.foldl WeatherSuber.setSubTopic (WeatherSuber.construct subTopic)

/-- What the calls of `subscribe` read of the records that are published. -/
def received (s : WeatherSuber) (records : List WeatherInfo) : Except MemError (List WeatherInfo) :=
  ((records.map WeatherPuber.publish).filter s.accepts).mapM WeatherSuber.subscribe

/-- The records that are accepted are those named like the last topic. -/
def Selects (s : WeatherSuber) (records : List WeatherInfo) : Prop :=
  ∃ accepted, received s records = .ok accepted ∧
    accepted = records.filter (fun r => WeatherInfo.mCityName r = .ok s.mSubTopic)

/-- No record with another name than the last topic begins with a topic that was set. -/
def Apart (s : WeatherSuber) (topics : List Bytes) (records : List WeatherInfo) : Prop :=
  ∀ r ∈ records, WeatherInfo.mCityName r ≠ .ok s.mSubTopic → ∀ t ∈ topics, ¬ t <+: r.image

/-- The records that begin with `topic` have the name `last`, or no such record has a name: a topic
that has a NUL fixes the name, and a topic that fills the array leaves no room for one. -/
def Pins (last topic : Bytes) : Prop :=
  if 0 ∈ topic.take sizeofCityName then
    WeatherInfoSize < topic.length ∨ topic.takeWhile (· != 0) = last
  else sizeofCityName ≤ topic.length ∨ topic.length + 1 = sizeofCityName ∧ topic = last

section Suber

variable {s : WeatherSuber} {subTopic t : Bytes} {calls : List Bytes} {r : WeatherInfo}
  {records : List WeatherInfo}

theorem afterCalls_snoc (subTopic : Bytes) (calls : List Bytes) (t : Bytes) :
    afterCalls subTopic (calls ++ [t]) = (afterCalls subTopic calls).setSubTopic t := by
  rw [afterCalls, List.foldl_append]
  rfl

/-- The socket keeps every topic, the object the last. -/
theorem afterCalls_filters (subTopic : Bytes) (calls : List Bytes) :
    (afterCalls subTopic calls).filters = subTopic :: calls := by
  induction calls using List.reverseRecOn with
  | nil => rfl
  | append_singleton calls t ih =>
    rw [afterCalls_snoc, WeatherSuber.setSubTopic, ih, List.cons_append]

theorem mSubTopic_mem (subTopic : Bytes) (calls : List Bytes) :
    (afterCalls subTopic calls).mSubTopic ∈ subTopic :: calls := by
  induction calls using List.reverseRecOn with
  | nil => exact List.mem_cons_self
  | append_singleton calls t ih =>
    rw [afterCalls_snoc]
    exact List.mem_cons_of_mem _ (List.mem_append_right _ (List.mem_singleton_self t))

theorem accepts_iff {msg : Bytes} : s.accepts msg = true ↔ ∃ t ∈ s.filters, t <+: msg := by
  simp [WeatherSuber.accepts]

theorem received_eq (s : WeatherSuber) (records : List WeatherInfo) :
    received s records = .ok (records.filter (fun r => s.accepts r.image)) := by
  induction records with
  | nil => rfl
  | cons r records ih =>
    rw [received] at ih ⊢
    rw [List.map_cons]
    by_cases hr : s.accepts r.image = true
    · have hpublished : s.accepts (WeatherPuber.publish r) = true := hr
      have hkept : (r :: records).filter (fun r => s.accepts r.image) =
          r :: records.filter (fun r => s.accepts r.image) := List.filter_cons_of_pos hr
      rw [List.filter_cons_of_pos hpublished, List.mapM_cons, subscribe_publish, ih, hkept]
      rfl
    · have hpublished : ¬ s.accepts (WeatherPuber.publish r) = true := hr
      have hdropped : (r :: records).filter (fun r => s.accepts r.image) =
          records.filter (fun r => s.accepts r.image) := List.filter_cons_of_neg hr
      rw [List.filter_cons_of_neg hpublished, ih, hdropped]

theorem filter_eq_filter_iff {A : Type} {p q : A → Bool} {l : List A} :
    l.filter p = l.filter q ↔ ∀ a ∈ l, p a = true ↔ q a = true := by
  constructor
  · intro same a ha
    have hmem : a ∈ l.filter p ↔ a ∈ l.filter q := by rw [same]
    simpa only [List.mem_filter, ha, true_and] using hmem
  · intro same
    exact List.filter_congr fun a ha => Bool.eq_iff_iff.mpr (same a ha)

theorem topic_prefix_image (named : WeatherInfo.mCityName r = .ok t) : t <+: r.image :=
  (List.prefix_append t [0]).trans (mCityName_eq_ok_iff.mp named).2.2

theorem selects_iff (subTopic : Bytes) (calls : List Bytes) (records : List WeatherInfo) :
    Selects (afterCalls subTopic calls) records ↔
      Apart (afterCalls subTopic calls) (subTopic :: calls) records := by
  generalize hs : afterCalls subTopic calls = s
  have hfilters : s.filters = subTopic :: calls := by rw [← hs, afterCalls_filters]
  have hlast : s.mSubTopic ∈ subTopic :: calls := by rw [← hs]; exact mSubTopic_mem subTopic calls
  have hfilter : Selects s records ↔ ∀ r ∈ records,
      s.accepts r.image = true ↔ WeatherInfo.mCityName r = .ok s.mSubTopic := by
    rw [Selects, received_eq]
    constructor
    · rintro ⟨accepted, hread, rfl⟩
      simpa only [decide_eq_true_eq] using filter_eq_filter_iff.mp (Except.ok.inj hread)
    · intro same
      refine ⟨_, rfl, filter_eq_filter_iff.mpr fun r hr => ?_⟩
      rw [decide_eq_true_eq]
      exact same r hr
  rw [hfilter]
  constructor
  · intro same r hr other t ht begins
    exact other ((same r hr).mp (accepts_iff.mpr ⟨t, hfilters ▸ ht, begins⟩))
  · intro apart r hr
    refine ⟨fun accepted => ?_, fun named => ?_⟩
    · obtain ⟨t, ht, begins⟩ := accepts_iff.mp accepted
      by_contra other
      exact apart r hr other t (hfilters ▸ ht) begins
    · exact accepts_iff.mpr ⟨_, hfilters ▸ hlast, topic_prefix_image named⟩

end Suber

section Topics

variable {last t name front : Bytes} {r : WeatherInfo}

theorem exists_record (nul_free : 0 ∉ name) (short : name.length < sizeofCityName)
    (ends : name ++ [0] <+: front) (fits : front.length ≤ WeatherInfoSize) :
    ∃ r : WeatherInfo, WeatherInfo.mCityName r = .ok name ∧ front <+: r.image := by
  have hpadding : front <+: front ++ List.replicate (WeatherInfoSize - front.length) 0 :=
    List.prefix_append _ _
  refine ⟨⟨front ++ List.replicate (WeatherInfoSize - front.length) 0, ?_⟩, ?_, hpadding⟩
  · rw [List.length_append, List.length_replicate]
    omega
  · exact mCityName_eq_ok_iff.mpr ⟨nul_free, short, ends.trans hpadding⟩

theorem takeWhile_of_ends (nul_free : 0 ∉ name) (ends : name ++ [0] <+: t) :
    t.takeWhile (· != 0) = name := by
  obtain ⟨rest, rfl⟩ := ends
  rw [List.append_assoc]
  exact takeWhile_nul nul_free

theorem Pins.name_eq (pins : Pins last t) (named : WeatherInfo.mCityName r = .ok name)
    (begins : t <+: r.image) : name = last := by
  have hsize : sizeofCityName = 256 := rfl
  have hlen : r.image.length = WeatherInfoSize := r.size_eq
  have hfits := begins.length_le
  obtain ⟨nul_free, short, here⟩ := mCityName_eq_ok_iff.mp named
  have htopic : name ++ [0] <+: t ∨ t <+: name := by
    rcases List.prefix_or_prefix_of_prefix here begins with ends | inside
    · exact .inl ends
    · rcases List.prefix_concat_iff.mp inside with rfl | inside
      · exact .inl (List.prefix_refl _)
      · exact .inr inside
  rcases htopic with ends | inside
  · -- the topic has the whole name in it, and its NUL
    have hnul : 0 ∈ t.take sizeofCityName := by
      have hends : name ++ [0] <+: t.take sizeofCityName := by
        rw [List.prefix_take_iff]
        refine ⟨ends, ?_⟩
        rw [List.length_append, List.length_singleton]
        exact short
      exact hends.subset (List.mem_append_right _ (List.mem_singleton_self 0))
    rw [Pins, if_pos hnul, takeWhile_of_ends nul_free ends] at pins
    exact pins.resolve_left (by omega)
  · have hshort := inside.length_le
    have hnul : 0 ∉ t.take sizeofCityName :=
      fun h => nul_free (inside.subset (List.mem_of_mem_take h))
    rw [Pins, if_neg hnul] at pins
    obtain ⟨full, rfl⟩ := pins.resolve_left (by omega)
    exact (inside.eq_of_length_le (by omega)).symm

/-- A topic that does not pin the name is shared by records with other names. -/
theorem pins_iff : Pins last t ↔ ∀ (r : WeatherInfo) (name : Bytes),
    WeatherInfo.mCityName r = .ok name → t <+: r.image → name = last := by
  refine ⟨fun pins r name named begins => pins.name_eq named begins, fun same => ?_⟩
  have hsize : sizeofCityName = 256 := rfl
  rw [Pins]
  split
  · rename_i hnul
    refine (Nat.lt_or_ge WeatherInfoSize t.length).imp_right fun fits => ?_
    obtain ⟨name, back, hsplit, nul_free⟩ := List.eq_append_cons_of_mem hnul
    have hends : name ++ [0] <+: t.take sizeofCityName :=
      ⟨back, by rw [hsplit, List.append_assoc, List.singleton_append]⟩
    have hshort := hends.length_le
    rw [List.length_append, List.length_singleton, List.length_take] at hshort
    have hfront : name ++ [0] <+: t := hends.trans (List.take_prefix _ _)
    obtain ⟨r, named, begins⟩ := exists_record nul_free (by omega) hfront fits
    rw [takeWhile_of_ends nul_free hfront]
    exact same r name named begins
  · rename_i hnul
    refine (Nat.lt_or_ge t.length sizeofCityName).symm.imp_right fun short => ?_
    rw [List.take_of_length_le (Nat.le_of_lt short)] at hnul
    have hlast : ∀ front : Bytes, t <+: front → 0 ∉ front → front.length < sizeofCityName →
        front = last := by
      intro front begins nul_free short
      obtain ⟨r, named, hr⟩ := exists_record nul_free short (List.prefix_refl _) (by
        rw [List.length_append, List.length_singleton, WeatherInfoSize]; omega)
      exact same r front named (begins.trans ((List.prefix_append front [0]).trans hr))
    have hself : t = last := hlast t (List.prefix_refl t) hnul short
    refine ⟨?_, hself⟩
    -- one more letter behind the topic would be another name
    by_contra room
    have hmore : t ++ [1] = last := by
      refine hlast (t ++ [1]) (List.prefix_append t [1]) ?_ ?_
      · simpa using hnul
      · rw [List.length_append, List.length_singleton]
        omega
    have hlen := congrArg List.length (hself.trans hmore.symm)
    rw [List.length_append, List.length_singleton] at hlen
    omega

theorem prefix_image_iff (named : WeatherInfo.mCityName r = .ok name) (nul_free : 0 ∉ t) :
    t <+: r.image ↔ t <+: name := by
  have here := (mCityName_eq_ok_iff.mp named).2.2
  constructor
  · intro begins
    rcases List.prefix_or_prefix_of_prefix begins here with inside | ends
    · rcases List.prefix_concat_iff.mp inside with rfl | inside
      · exact absurd (List.mem_append_right _ (List.mem_singleton_self 0)) nul_free
      · exact inside
    · exact absurd (ends.subset (List.mem_append_right _ (List.mem_singleton_self 0))) nul_free
  · intro begins
    exact begins.trans ((List.prefix_append name [0]).trans here)

end Topics

/-- A subscriber gets the records named like its last topic exactly when no other record begins with
a topic that was ever set. It does so whatever is published exactly when each of these topics leaves
no other name to the records that begin with it. -/
theorem selects_iff_apart (subTopic : Bytes) (calls : List Bytes) :
    (∀ records, Selects (afterCalls subTopic calls) records ↔
      Apart (afterCalls subTopic calls) (subTopic :: calls) records) ∧
    ((∀ records : List WeatherInfo,
        (∀ r ∈ records, ∃ name, WeatherInfo.mCityName r = .ok name) →
          Selects (afterCalls subTopic calls) records) ↔
      ∀ topic ∈ subTopic :: calls, Pins (afterCalls subTopic calls).mSubTopic topic) := by
  refine ⟨selects_iff subTopic calls, ?_⟩
  constructor
  · intro always topic htopic
    rw [pins_iff]
    intro r name named begins
    have hnames : ∀ r' ∈ [r], ∃ name, WeatherInfo.mCityName r' = .ok name := by
      intro r' hr'
      rw [List.mem_singleton.mp hr']
      exact ⟨name, named⟩
    have hapart := (selects_iff subTopic calls [r]).mp (always [r] hnames)
    by_contra other
    refine hapart r (List.mem_singleton_self r) ?_ topic htopic begins
    rw [named]
    exact fun h => other (Except.ok.inj h)
  · intro pins records hnames
    rw [selects_iff]
    intro r hr other topic htopic begins
    obtain ⟨name, named⟩ := hnames r hr
    exact other (named.trans (congrArg _ ((pins topic htopic).name_eq named begins)))

/-- A record of Beijing reaches a subscriber that was turned to Shanghai, and one whose only topic
was "Bei". -/
theorem stale_topic : ∃ r, WeatherInfo.mCityName r = .ok BeiJing ∧
    ¬ Selects (afterCalls BeiJing [ShangHai]) [r] ∧
      ¬ Selects (afterCalls [66, 101, 105] []) [r] := by
  obtain ⟨r, named, begins⟩ := exists_record (by decide : 0 ∉ BeiJing) (by decide)
    (List.prefix_refl _) (by decide)
  refine ⟨r, named, ?_, ?_⟩
  · rw [selects_iff]
    intro apart
    refine apart r (List.mem_singleton_self r) ?_ BeiJing List.mem_cons_self
      (topic_prefix_image named)
    rw [named]
    exact fun h => absurd (Except.ok.inj h) (by decide)
  · rw [selects_iff]
    intro apart
    refine apart r (List.mem_singleton_self r) ?_ [66, 101, 105] List.mem_cons_self
      ((prefix_image_iff named (by decide)).mpr (by decide))
    rw [named]
    exact fun h => absurd (Except.ok.inj h) (by decide)

end SimTools.WeatherReport.WeatherSub
