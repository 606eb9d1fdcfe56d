/- Module: SimTools/WeatherReport/WeatherPub
   digest: weather_pub.cpp: which iterations of the publishing loop send the name of their city. -/

import SimTools.WeatherReport.WeatherCore

set_option autoImplicit false
set_option relaxedAutoImplicit false

namespace SimTools.WeatherReport.WeatherPub

open Lib.Memory
open WeatherCore

def chosenCity (i : Nat) : Bytes := if i &&& 1 ≠ 0 then BeiJing else ShangHai

/-- The branches of the loop, alike but for the city: the name is copied without its NUL, and the
NUL is written one byte behind the place where it belongs. -/
def setCity (weatherInfo : WeatherInfo) (city : Bytes) : Except MemError WeatherInfo := do
  let weatherInfo ← weatherInfo.store 0 city
  let weatherInfo := WeatherInfo.setCityNameLength weatherInfo (UInt32.ofNat (city.length + 1))
  weatherInfo.store (city.length + 1) [0]

/-- One iteration up to its `publish`; the two floats that it computes are parameters. -/
def iteration (temperature relhumidity : Nat → UInt32) (i : Nat) (weatherInfo : WeatherInfo) :
    Except MemError WeatherInfo := do
  let weatherInfo ← setCity weatherInfo (chosenCity i)
  let weatherInfo := WeatherInfo.setTemperature weatherInfo (temperature i)
  pure (WeatherInfo.setRelhumidity weatherInfo (relhumidity i))

/-- `n` iterations from the one with number `i` on, and the records that they publish. -/
def publishLoop (temperature relhumidity : Nat → UInt32) :
    Nat → Nat → WeatherInfo → Except MemError (List WeatherInfo)
  | 0, _, _ => pure []
  | n + 1, i, weatherInfo => do
    let weatherInfo ← iteration temperature relhumidity i weatherInfo
    let later ← publishLoop temperature relhumidity n (i + 1) weatherInfo
    pure (weatherInfo :: later)

/-- The record of iteration `i` has the name of its city and the length of it with the NUL. -/
structure Clean (i : Nat) (record : WeatherInfo) : Prop where
  name : WeatherInfo.mCityName record = .ok (chosenCity i)
  length : (WeatherInfo.mCityNameLength record).toNat = (chosenCity i).length + 1

/-- The byte behind the name is a NUL when iteration `i` begins: the city was Beijing in the
iteration before, or the first content of the record has the NUL there. -/
def Undisturbed (initial : WeatherInfo) (i : Nat) : Prop :=
  i % 2 = 0 ∧ (i = 0 → initial.image[ShangHai.length]? = some 0)

/-- What an iteration for `city` leaves in the record: behind the name is the byte `b`, which was
there before. -/
structure Written (city : Bytes) (b : Option UInt8) (record : WeatherInfo) : Prop where
  name : ∀ k < city.length, record.image[k]? = city[k]?
  behind : record.image[city.length]? = b
  ends : record.image[city.length + 1]? = some 0
  length : WeatherInfo.mCityNameLength record = UInt32.ofNat (city.length + 1)

section Iteration

variable {i : Nat} {initial info record : WeatherInfo} {city : Bytes} {b : UInt8}

theorem setCity_eq (info : WeatherInfo) (fits : city.length + 2 ≤ sizeofCityName) :
    ∃ info', setCity info city = .ok info' ∧ Written city info.image[city.length]? info' := by
  have hsize : sizeofCityName = 256 := rfl
  have hlen : info.image.length = 268 := info.size_eq
  obtain ⟨info1, hname, image1⟩ := info.store_eq_ok 0 city (by simp only [WeatherInfoSize]; omega)
  have hlen1 : info1.image.length = 268 := info1.size_eq
  generalize hlength : WeatherInfo.setCityNameLength info1 (UInt32.ofNat (city.length + 1)) = info2
  have hlen2 : info2.image.length = 268 := info2.size_eq
  have hfront : ∀ k < 256, info2.image[k]? = info1.image[k]? := by
    intro k hk
    rw [← hlength]
    exact getElem?_setWord info1 _ (by decide) hk
  obtain ⟨info3, hnul, image3⟩ := info2.store_eq_ok (city.length + 1) [0]
    (by simp only [WeatherInfoSize, List.length_singleton]; omega)
  have hfits : city.length + 1 + ([0] : Bytes).length ≤ info2.image.length := by
    rw [List.length_singleton]
    omega
  refine ⟨info3, by simp only [setCity, hname, bind, Except.bind, hlength, hnul], ?_, ?_, ?_, ?_⟩
  · intro k hk
    rw [image3, getElem?_patch_of_outside hfits (.inl (by omega)), hfront k (by omega), image1,
      getElem?_patch_of_inside (by omega) (Nat.zero_le k) (by omega), Nat.sub_zero]
  · rw [image3, getElem?_patch_of_outside hfits (.inl (by omega)), hfront _ (by omega), image1,
      getElem?_patch_of_outside (by omega) (.inr (by omega))]
  · rw [image3, getElem?_patch_of_inside hfits (Nat.le_refl _) (by simp), Nat.sub_self]
    rfl
  · have hslice : slice info3.image 256 4 = slice info2.image 256 4 := by
      rw [image3]
      exact slice_patch_of_disjoint hfits (.inr (by rw [List.length_singleton]; omega))
    rw [WeatherInfo.mCityNameLength, wordAt_of_slice_eq hslice, ← hlength]
    exact mCityNameLength_setCityNameLength info1 _

theorem Written.mCityName_eq (h : Written city (some b) record) (nul_free : 0 ∉ city)
    (fits : city.length + 2 ≤ sizeofCityName) :
    WeatherInfo.mCityName record = .ok (if b = 0 then city else city ++ [b]) := by
  split
  · rename_i hb
    subst hb
    refine WeatherCore.mCityName_eq (strAt_of_getElem? nul_free ?_ ?_) (by omega)
    · intro k hk
      rw [Nat.zero_add, h.name k hk]
    · rw [Nat.zero_add, h.behind]
  · rename_i hb
    have hlen : (city ++ [b]).length = city.length + 1 := by simp
    refine WeatherCore.mCityName_eq (strAt_of_getElem? ?_ ?_ ?_) (by omega)
    · rw [List.mem_append, List.mem_singleton, not_or]
      exact ⟨nul_free, fun h => hb h.symm⟩
    · intro k hk
      rw [Nat.zero_add]
      rcases Nat.lt_or_ge k city.length with inside | last
      · rw [h.name k inside, List.getElem?_append_left inside]
      · obtain rfl : k = city.length := by omega
        rw [h.behind, List.getElem?_concat_length]
    · rw [Nat.zero_add, hlen, h.ends]

theorem chosenCity_eq (i : Nat) : chosenCity i = if i % 2 = 1 then BeiJing else ShangHai := by
  rw [chosenCity, Nat.and_one_is_mod]
  rcases Nat.mod_two_eq_zero_or_one i with even | odd
  · simp [even]
  · simp [odd]

theorem chosenCity_fits (i : Nat) :
    0 ∉ chosenCity i ∧ (chosenCity i).length + 2 ≤ sizeofCityName := by
  rw [chosenCity_eq]
  split <;> decide

/-- A whole iteration writes both floats behind the array. -/
theorem iteration_eq (temperature relhumidity : Nat → UInt32) (i : Nat) (info : WeatherInfo) :
    ∃ info', iteration temperature relhumidity i info = .ok info' ∧
      Written (chosenCity i) info.image[(chosenCity i).length]? info' := by
  have hsize : sizeofCityName = 256 := rfl
  have hfits := (chosenCity_fits i).2
  obtain ⟨info1, hset, written⟩ := setCity_eq info hfits
  generalize hfloats : WeatherInfo.setRelhumidity
    (WeatherInfo.setTemperature info1 (temperature i)) (relhumidity i) = info2
  have hfront : ∀ k < 256, info2.image[k]? = info1.image[k]? := by
    intro k hk
    rw [← hfloats, WeatherInfo.setRelhumidity, getElem?_setWord _ _ _ (by omega),
      WeatherInfo.setTemperature, getElem?_setWord _ _ _ (by omega)]
  refine ⟨info2, by simp only [iteration, hset, bind, Except.bind, hfloats, pure, Except.pure],
    ?_, ?_, ?_, ?_⟩
  · intro k hk
    rw [hfront k (by omega), written.name k hk]
  · rw [hfront _ (by omega), written.behind]
  · rw [hfront _ (by omega), written.ends]
  · rw [← written.length, WeatherInfo.mCityNameLength, WeatherInfo.mCityNameLength]
    apply wordAt_of_slice_eq
    rw [← hfloats, WeatherInfo.setRelhumidity, slice_setWord _ _ _ (by omega),
      WeatherInfo.setTemperature, slice_setWord _ _ _ (by omega)]

/-- What the loop needs to know of the record at the start of an iteration. -/
structure Before (initial : WeatherInfo) (i : Nat) (info : WeatherInfo) : Prop where
  first : i = 0 → info = initial
  /-- the last letter of "ShangHai", where the NUL of "BeiJing" belongs -/
  odd : i % 2 = 1 → info.image[BeiJing.length]? = some 105
  even : i % 2 = 0 → i ≠ 0 → info.image[ShangHai.length]? = some 0

theorem Written.clean_iff (h : Written (chosenCity i) (some b) record) :
    Clean i record ↔ b = 0 := by
  obtain ⟨nul_free, fits⟩ := chosenCity_fits i
  have hsize : sizeofCityName = 256 := rfl
  have hread := h.mCityName_eq nul_free fits
  constructor
  · intro clean
    have hname := clean.name
    by_contra hb
    rw [hread, if_neg hb] at hname
    have hlen := congrArg List.length (Except.ok.inj hname)
    simp at hlen
  · rintro rfl
    refine ⟨hread, ?_⟩
    rw [h.length, UInt32.toNat_ofNat']
    exact Nat.mod_eq_of_lt (by omega)

def Published (initial : WeatherInfo) (i : Nat) (record : WeatherInfo) : Prop :=
  chosenCity i <+: record.image ∧ (Clean i record ↔ Undisturbed initial i)

theorem Before.step (h : Before initial i info) (temperature relhumidity : Nat → UInt32) :
    ∃ info', iteration temperature relhumidity i info = .ok info' ∧ Before initial (i + 1) info' ∧
      Published initial i info' := by
  obtain ⟨info', run, written⟩ := iteration_eq temperature relhumidity i info
  refine ⟨info', run, ?_, ?_, ?_⟩
  · have hname := written.name
    have hends := written.ends
    rcases Nat.mod_two_eq_zero_or_one i with even | odd
    · rw [chosenCity_eq, if_neg (by omega)] at hname
      refine ⟨fun h => absurd h (Nat.succ_ne_zero i), fun _ => hname 7 (by decide), fun h => ?_⟩
      omega
    · rw [chosenCity_eq, if_pos odd] at hends
      refine ⟨fun h => absurd h (Nat.succ_ne_zero i), fun h => ?_, fun _ _ => hends⟩
      omega
  · rw [List.prefix_iff_getElem?]
    intro k hk
    rw [written.name k hk, List.getElem?_eq_getElem hk]
  · obtain ⟨b, hb⟩ : ∃ b, info.image[(chosenCity i).length]? = some b := by
      have hlen : info.image.length = 268 := info.size_eq
      have hfits := (chosenCity_fits i).2
      have hsize : sizeofCityName = 256 := rfl
      exact ⟨_, List.getElem?_eq_getElem (by omega)⟩
    rw [hb] at written
    rw [written.clean_iff, Undisturbed]
    rcases Nat.mod_two_eq_zero_or_one i with even | odd
    · rw [chosenCity_eq, if_neg (by omega)] at hb
      by_cases start : i = 0
      · rw [← h.first start, hb]
        simp [start]
      · have hzero := h.even even start
        rw [hb] at hzero
        simp [even, start, Option.some.inj hzero]
    · rw [chosenCity_eq, if_pos odd, h.odd odd] at hb
      cases hb
      simp [odd]

theorem Before.publishLoop (h : Before initial i info) (temperature relhumidity : Nat → UInt32)
    (n : Nat) :
    ∃ records, publishLoop temperature relhumidity n i info = .ok records ∧ records.length = n ∧
      ∀ k record, records[k]? = some record → Published initial (i + k) record := by
  induction n generalizing i info with
  | zero => exact ⟨[], rfl, rfl, fun k record hk => by simp at hk⟩
  | succ n ih =>
    obtain ⟨info', run, hnext, hpublished⟩ := h.step temperature relhumidity
    obtain ⟨records, hloop, hlen, hrecords⟩ := ih hnext
    refine ⟨info' :: records, ?_, by rw [List.length_cons, hlen], ?_⟩
    · simp only [WeatherPub.publishLoop, run, hloop, bind, Except.bind, pure, Except.pure]
    · intro k record hk
      cases k with
      | zero =>
        cases hk
        exact hpublished
      | succ k =>
        rw [← Nat.add_assoc, Nat.add_right_comm]
        exact hrecords k record hk

/-- The whole loop, whatever the record holds at first. -/
theorem publishLoop_published (temperature relhumidity : Nat → UInt32) (n : Nat)
    (initial : WeatherInfo) :
    ∃ records, publishLoop temperature relhumidity n 0 initial = .ok records ∧
      records.length = n ∧
      ∀ i record, records[i]? = some record → Published initial i record := by
  have hstart : Before initial 0 initial := ⟨fun _ => rfl, by simp, by simp⟩
  obtain ⟨records, run, hlen, hpublished⟩ := hstart.publishLoop temperature relhumidity n
  refine ⟨records, run, hlen, fun i record hi => ?_⟩
  have h := hpublished i record hi
  rwa [Nat.zero_add] at h

end Iteration

/-- The record of an iteration is clean exactly when the iteration is even, and for the first one
when the record has a NUL behind "ShangHai" to begin with. -/
theorem clean_iff_undisturbed (temperature relhumidity : Nat → UInt32) (n : Nat)
    (initial : WeatherInfo) :
    ∃ records, publishLoop temperature relhumidity n 0 initial = .ok records ∧
      records.length = n ∧ ∀ i record, records[i]? = some record →
        (Clean i record ↔ Undisturbed initial i) := by
  obtain ⟨records, run, hlen, hpublished⟩ :=
    publishLoop_published temperature relhumidity n initial
  exact ⟨records, run, hlen, fun i record hi => (hpublished i record hi).2⟩

/-- The second record of a run that starts with a record of zeros: "BeiJing" still has behind it the
last letter of "ShangHai". -/
theorem leftover_letter : ∃ records record,
    publishLoop (fun _ => 0) (fun _ => 0) 2 0 (Obj.zero WeatherInfoSize) = .ok records ∧
      records[1]? = some record ∧ ¬ Clean 1 record := by
  obtain ⟨records, run, hlen, hpublished⟩ :=
    publishLoop_published (fun _ => 0) (fun _ => 0) 2 (Obj.zero WeatherInfoSize)
  obtain ⟨record, hsecond⟩ : ∃ record, records[1]? = some record :=
    ⟨_, List.getElem?_eq_getElem (by omega)⟩
  refine ⟨records, record, run, hsecond, fun clean => ?_⟩
  have hundisturbed := (hpublished 1 _ hsecond).2.mp clean
  exact absurd hundisturbed.1 (by decide)

end SimTools.WeatherReport.WeatherPub
