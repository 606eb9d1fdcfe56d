/- Module: SimTools/WeatherReport/Broadcast
   digest: Publisher and subscribers together: what a subscriber prints, whatever the sockets drop. -/

import SimTools.Lib.Runs
import SimTools.WeatherReport.WeatherSub
import Mathlib.Data.Fintype.Basic
import Mathlib.Data.List.Forall2
import Mathlib.Logic.Function.Basic

set_option autoImplicit false
set_option relaxedAutoImplicit false

namespace SimTools.WeatherReport.Broadcast

open Lib.Memory
open Lib.Runs
open WeatherCore
open WeatherPub
open WeatherSub

/-- What `printWeatherInfo` prints of a record; a float is its 32 bits. -/
structure Line where
  mCityName : Bytes
  mCityNameLength : UInt32
  mTemperature : UInt32
  mRelhumidity : UInt32
  deriving DecidableEq

def printWeatherInfo (weatherInfo : WeatherInfo) : Except MemError Line := do
  let mCityName ← WeatherInfo.mCityName weatherInfo
  pure ⟨mCityName, WeatherInfo.mCityNameLength weatherInfo, wordAt weatherInfo.image 260,
    wordAt weatherInfo.image 264⟩

/-- `weather_sub_beijing` and `weather_sub_shanghai` -/
inductive City
  | beiJing
  | shangHai
  deriving DecidableEq

def City.name : City → Bytes
  | .beiJing => BeiJing
  | .shangHai => ShangHai

/-- The number of iterations of weather_pub. -/
def CONST_100 : Nat := 100

/-- The loop of weather_pub, and for every subscriber its pipe and what it has printed. -/
structure System (U : Type) where
  i : Nat
  weatherInfo : WeatherInfo
  pipe : U → List Bytes
  printed : U → List Line

def System.init {U : Type} (weatherInfo : WeatherInfo) : System U :=
  ⟨0, weatherInfo, fun _ => [], fun _ => []⟩

inductive Action (U : Type)
  | publish (kept : U → Bool)
  | subscribe (u : U)

variable {U : Type} [DecidableEq U]

section Model

variable (temperature relhumidity : Nat → UInt32) (city : U → City)

/-- A PUB socket drops a message for a subscriber that is not connected yet or lags behind, and is
never held up by one. -/
inductive Step : System U → Action U → System U → Prop
  | publish {s : System U} {weatherInfo : WeatherInfo} (kept : U → Bool) :
      s.i < CONST_100 → iteration temperature relhumidity s.i s.weatherInfo = .ok weatherInfo →
      Step s (.publish kept)
        { s with
          i := s.i + 1
          weatherInfo := weatherInfo
          pipe := fun u =>
            if kept u && (WeatherSuber.construct (city u).name).accepts
                (WeatherPuber.publish weatherInfo) then
              s.pipe u ++ [WeatherPuber.publish weatherInfo]
            else s.pipe u }
  | subscribe {s : System U} {u : U} {msg : Bytes} {rest : List Bytes} {weatherInfo : WeatherInfo}
      {line : Line} :
      s.pipe u = msg :: rest → WeatherSuber.subscribe msg = .ok weatherInfo →
      printWeatherInfo weatherInfo = .ok line →
      Step s (.subscribe u)
        { s with
          pipe := Function.update s.pipe u rest
          printed := Function.update s.printed u (s.printed u ++ [line]) }

end Model

/-- What is printed behind the name of the city: the last letter of "ShangHai" behind "BeiJing", and
in the first iteration the byte that the record has there at first. -/
def behind (initial : WeatherInfo) (i : Nat) : Bytes :=
  if i % 2 = 1 then [105]
  else if i = 0 then (slice initial.image ShangHai.length 1).filter (· != 0)
  else []

section Lines

variable (temperature relhumidity : Nat → UInt32) (initial : WeatherInfo)

def line (i : Nat) : Line :=
  ⟨chosenCity i ++ behind initial i, UInt32.ofNat ((chosenCity i).length + 1), temperature i,
    relhumidity i⟩

/-- The iterations before the `n`-th that are about a city. -/
def about (city : City) (n : Nat) : List Nat :=
  (List.range n).filter (fun i => chosenCity i = city.name)

def Carries (i : Nat) (msg : Bytes) : Prop :=
  ∃ weatherInfo, WeatherSuber.subscribe msg = .ok weatherInfo ∧
    printWeatherInfo weatherInfo = .ok (line temperature relhumidity initial i)

/-- A subscriber has printed some of the iterations about its city, and later ones wait for it. -/
def Fed (city : City) (n : Nat) (pipe : List Bytes) (printed : List Line) : Prop :=
  ∃ shown waiting, (shown ++ waiting).Sublist (about city n) ∧
    printed = shown.map (line temperature relhumidity initial) ∧
    List.Forall₂ (Carries temperature relhumidity initial) waiting pipe

end Lines

variable {temperature relhumidity : Nat → UInt32} {city : U → City} {s t : System U}
  {initial info info' : WeatherInfo} {i n : Nat}

theorem words_of_iteration (run : iteration temperature relhumidity i info = .ok info') :
    wordAt info'.image 260 = temperature i ∧ wordAt info'.image 264 = relhumidity i := by
  obtain ⟨info1, -, hrest⟩ := bind_eq_ok run
  obtain rfl : WeatherInfo.setRelhumidity
      (WeatherInfo.setTemperature info1 (temperature i)) (relhumidity i) = info' :=
    Except.ok.inj hrest
  have hlen1 : info1.image.length = 268 := info1.size_eq
  generalize hinfo2 : WeatherInfo.setTemperature info1 (temperature i) = info2
  have hlen2 : info2.image.length = 268 := info2.size_eq
  constructor
  · have hframe : wordAt (WeatherInfo.setRelhumidity info2 (relhumidity i)).image 260 =
        wordAt info2.image 260 := by
      apply wordAt_of_slice_eq
      exact slice_setWord info2 _ (by decide) (by decide)
    rw [hframe, ← hinfo2]
    exact wordAt_patch_self _ (by omega)
  · exact wordAt_patch_self _ (by omega)

theorem exists_behind (h : Before initial i info) :
    ∃ b, info.image[(chosenCity i).length]? = some b ∧
      behind initial i = if b = 0 then [] else [b] := by
  rw [chosenCity_eq, behind]
  rcases Nat.mod_two_eq_zero_or_one i with even | odd
  · rw [if_neg (by omega), if_neg (by omega)]
    by_cases start : i = 0
    · obtain rfl := h.first start
      have hlen : info.image.length = 268 := info.size_eq
      have hinside : ShangHai.length < info.image.length := by
        rw [hlen]
        decide
      refine ⟨info.image[ShangHai.length], List.getElem?_eq_getElem hinside, ?_⟩
      rw [if_pos start, slice, List.drop_eq_getElem_cons hinside, List.take_succ_cons,
        List.take_zero]
      split
      · rename_i hzero
        simp [hzero]
      · rename_i hb
        simp [hb]
    · exact ⟨0, h.even even start, by rw [if_neg start, if_pos rfl]⟩
  · rw [if_pos odd, if_pos odd]
    exact ⟨105, h.odd odd, by decide⟩

theorem print_of_iteration (h : Before initial i info)
    (run : iteration temperature relhumidity i info = .ok info') :
    printWeatherInfo info' = .ok (line temperature relhumidity initial i) := by
  obtain ⟨info'', run', written⟩ := iteration_eq temperature relhumidity i info
  obtain rfl : info' = info'' := Except.ok.inj (run.symm.trans run')
  obtain ⟨htemperature, hrelhumidity⟩ := words_of_iteration run
  obtain ⟨nul_free, fits⟩ := chosenCity_fits i
  obtain ⟨b, hb, hbehind⟩ := exists_behind h
  rw [hb] at written
  have hname : WeatherInfo.mCityName info' = .ok (chosenCity i ++ behind initial i) := by
    rw [written.mCityName_eq nul_free fits, hbehind]
    split
    · rw [List.append_nil]
    · rfl
  simp only [printWeatherInfo, hname, bind, Except.bind, pure, Except.pure, written.length,
    htemperature, hrelhumidity, line]

theorem accepts_iff_about (h : Before initial i info) (c : City)
    (run : iteration temperature relhumidity i info = .ok info') :
    (WeatherSuber.construct c.name).accepts (WeatherPuber.publish info') = true ↔
      chosenCity i = c.name := by
  obtain ⟨info'', run', -, hcity, -⟩ := h.step temperature relhumidity
  obtain rfl : info' = info'' := Except.ok.inj (run.symm.trans run')
  have hfilter : (WeatherSuber.construct c.name).accepts (WeatherPuber.publish info') = true ↔
      c.name <+: info'.image := by
    rw [accepts_iff, WeatherSuber.construct, WeatherSuber.setSubTopic, WeatherPuber.publish]
    simp
  have hapart : ∀ d d' : City, d.name <+: d'.name → d.name = d'.name := by
    intro d d'
    cases d <;> cases d' <;> decide
  obtain ⟨d, hd⟩ : ∃ d : City, chosenCity i = d.name := by
    rw [chosenCity]
    split
    · exact ⟨.beiJing, rfl⟩
    · exact ⟨.shangHai, rfl⟩
  rw [hfilter]
  rw [hd] at hcity ⊢
  constructor
  · intro begins
    rcases List.prefix_or_prefix_of_prefix hcity begins with inside | inside
    · exact hapart d c inside
    · exact (hapart c d inside).symm
  · intro same
    rwa [← same]

theorem carries_of_iteration (h : Before initial i info)
    (run : iteration temperature relhumidity i info = .ok info') :
    Carries temperature relhumidity initial i (WeatherPuber.publish info') :=
  ⟨info', subscribe_publish info', print_of_iteration h run⟩

section Subscriber

variable {c : City} {pipe rest : List Bytes} {printed : List Line} {msg : Bytes}

theorem about_succ (c : City) (n : Nat) :
    about c (n + 1) = about c n ++ if chosenCity n = c.name then [n] else [] := by
  rw [about, List.range_succ, List.filter_append, about]
  congr 1
  split
  · rename_i same
    simp [same]
  · rename_i other
    simp [other]

theorem Fed.pass (h : Fed temperature relhumidity initial c n pipe printed) :
    Fed temperature relhumidity initial c (n + 1) pipe printed := by
  obtain ⟨shown, waiting, hsome, hprinted, hpipe⟩ := h
  refine ⟨shown, waiting, hsome.trans ?_, hprinted, hpipe⟩
  rw [about_succ]
  exact List.sublist_append_left _ _

theorem Fed.publish (h : Fed temperature relhumidity initial c n pipe printed)
    (same : chosenCity n = c.name) (carries : Carries temperature relhumidity initial n msg) :
    Fed temperature relhumidity initial c (n + 1) (pipe ++ [msg]) printed := by
  obtain ⟨shown, waiting, hsome, hprinted, hpipe⟩ := h
  refine ⟨shown, waiting ++ [n], ?_, hprinted, List.rel_append hpipe (.cons carries .nil)⟩
  rw [about_succ, if_pos same, ← List.append_assoc]
  exact hsome.append_right [n]

theorem Fed.subscribe {l : Line}
    (h : Fed temperature relhumidity initial c n (msg :: rest) printed)
    (read : WeatherSuber.subscribe msg = .ok info) (print : printWeatherInfo info = .ok l) :
    Fed temperature relhumidity initial c n rest (printed ++ [l]) := by
  obtain ⟨shown, waiting, hsome, hprinted, hpipe⟩ := h
  cases hpipe with
  | @cons i _ waiting _ carries hrest =>
    obtain ⟨info', read', print'⟩ := carries
    obtain rfl : info' = info := Except.ok.inj (read'.symm.trans read)
    obtain rfl := Except.ok.inj (print'.symm.trans print)
    refine ⟨shown ++ [i], waiting, ?_, ?_, hrest⟩
    · rwa [List.append_assoc, List.singleton_append]
    · rw [hprinted, List.map_append, List.map_singleton]

end Subscriber

structure Broadcasting (temperature relhumidity : Nat → UInt32) (initial : WeatherInfo)
    (city : U → City) (s : System U) : Prop where
  before : Before initial s.i s.weatherInfo
  bound : s.i ≤ CONST_100
  fed : ∀ u, Fed temperature relhumidity initial (city u) s.i (s.pipe u) (s.printed u)

omit [DecidableEq U] in
theorem Broadcasting.init : Broadcasting temperature relhumidity initial city (.init initial) := by
  refine ⟨⟨fun _ => rfl, ?_, ?_⟩, Nat.zero_le _, fun u => ⟨[], [], ?_, rfl, .nil⟩⟩
  · intro odd
    cases odd
  · intro _ later
    exact absurd rfl later
  · exact List.nil_sublist _

theorem Broadcasting.step (h : Broadcasting temperature relhumidity initial city s)
    {a : Action U} (hs : Step temperature relhumidity city s a t) :
    Broadcasting temperature relhumidity initial city t := by
  cases hs with
  | @publish info' kept more run =>
    obtain ⟨info'', run', hnext, -⟩ := h.before.step temperature relhumidity
    obtain rfl : info' = info'' := Except.ok.inj (run.symm.trans run')
    refine ⟨hnext, more, fun u => ?_⟩
    dsimp only
    split
    · rename_i taken
      rw [Bool.and_eq_true] at taken
      have hsame := (accepts_iff_about h.before (city u) run).mp taken.2
      exact (h.fed u).publish hsame (carries_of_iteration h.before run)
    · exact (h.fed u).pass
  | @subscribe u msg rest info l hpipe read print =>
    refine ⟨h.before, h.bound, fun v => ?_⟩
    by_cases hv : v = u
    · subst hv
      have hfed := h.fed v
      rw [hpipe] at hfed
      simpa only [Function.update_self] using hfed.subscribe read print
    · simpa only [Function.update_of_ne hv] using h.fed v

theorem Broadcasting.run {as : List (Action U)}
    (h : Run (Step temperature relhumidity city) (.init initial) as s) :
    Broadcasting temperature relhumidity initial city s :=
  h.invariant (fun _ _ _ hI hs => hI.step hs) Broadcasting.init

theorem exists_published (temperature relhumidity : Nat → UInt32) (initial : WeatherInfo)
    (city : U → City) (more : n ≤ CONST_100) (kept : U → List Nat)
    (hsome : ∀ u, (kept u).Sublist (about (city u) n)) :
    ∃ as s, Run (Step temperature relhumidity city) (.init initial) as s ∧ s.i = n ∧
      ∀ u, s.printed u = [] ∧
        List.Forall₂ (Carries temperature relhumidity initial) (kept u) (s.pipe u) := by
  induction n generalizing kept with
  | zero =>
    refine ⟨[], .init initial, .nil _, rfl, fun u => ⟨rfl, ?_⟩⟩
    rw [List.sublist_nil.mp (hsome u)]
    exact .nil
  | succ n ih =>
    have hsplit : ∀ u, ∃ front back, kept u = front ++ back ∧
        front.Sublist (about (city u) n) ∧
          back.Sublist (if chosenCity n = (city u).name then [n] else []) := by
      intro u
      rw [← List.sublist_append_iff, ← about_succ]
      exact hsome u
    choose front back hkept hfront hback using hsplit
    obtain ⟨as, s, run, hi, hs⟩ := ih (Nat.le_of_succ_le more) front hfront
    have hbefore := (Broadcasting.run run).before
    obtain ⟨info', hrun, -⟩ := hbefore.step temperature relhumidity
    refine ⟨_, _, run.snoc (.publish (fun u => back u = [n]) (hi ▸ more) hrun),
      congrArg (· + 1) hi, fun u => ⟨(hs u).1, ?_⟩⟩
    rw [hkept u]
    dsimp only
    have hcity := accepts_iff_about hbefore (city u) hrun
    rw [hi] at hcity
    have hcases : back u = [] ∨ back u = [n] ∧ chosenCity n = (city u).name := by
      have h := hback u
      split at h
      · rename_i same
        exact (List.sublist_singleton.mp h).imp_right (⟨·, same⟩)
      · exact .inl (List.sublist_nil.mp h)
    rcases hcases with dropped | ⟨taken, same⟩
    · rw [dropped, List.append_nil, if_neg (by simp)]
      exact (hs u).2
    · rw [taken, if_pos (by simp [hcity.mpr same])]
      refine List.rel_append (hs u).2 (.cons ?_ .nil)
      rw [← hi]
      exact carries_of_iteration hbefore hrun

/-- A subscriber prints all that waits for it, and touches nothing of the others. -/
theorem exists_read (city : U → City) {u : U} {waiting : List Nat}
    (h : List.Forall₂ (Carries temperature relhumidity initial) waiting (s.pipe u)) :
    ∃ as t, Run (Step temperature relhumidity city) s as t ∧ t.i = s.i ∧
      t.printed u = s.printed u ++ waiting.map (line temperature relhumidity initial) ∧
      ∀ v ≠ u, t.printed v = s.printed v ∧ t.pipe v = s.pipe v := by
  induction waiting generalizing s with
  | nil => exact ⟨[], s, .nil s, rfl, by rw [List.map_nil, List.append_nil], fun _ _ => ⟨rfl, rfl⟩⟩
  | cons i waiting ih =>
    obtain ⟨msg, rest, ⟨info, read, print⟩, hrest, hpipe⟩ := List.forall₂_cons_left_iff.mp h
    have hstep : Step temperature relhumidity city s (.subscribe u) _ :=
      .subscribe hpipe read print
    obtain ⟨as, t, run, hi, hprinted, hothers⟩ := ih (s := { s with
      pipe := Function.update s.pipe u rest
      printed := Function.update s.printed u
        (s.printed u ++ [line temperature relhumidity initial i]) }) (by
      dsimp only
      rwa [Function.update_self])
    dsimp only at hi hprinted hothers
    refine ⟨_, t, .cons hstep run, hi, ?_, fun v hv => ?_⟩
    · rw [hprinted, Function.update_self, List.append_assoc, List.singleton_append, List.map_cons]
    · have hv' := hothers v hv
      rwa [Function.update_of_ne hv, Function.update_of_ne hv] at hv'

theorem exists_all_read (city : U → City) (kept : U → List Nat) (us : Finset U)
    (h : ∀ u, List.Forall₂ (Carries temperature relhumidity initial) (kept u) (s.pipe u)) :
    ∃ as t, Run (Step temperature relhumidity city) s as t ∧ t.i = s.i ∧
      ∀ u, if u ∈ us then
          t.printed u = s.printed u ++ (kept u).map (line temperature relhumidity initial)
        else t.printed u = s.printed u ∧ t.pipe u = s.pipe u := by
  induction us using Finset.induction_on with
  | empty => exact ⟨[], s, .nil s, rfl, fun u => by simp⟩
  | insert u us hnew ih =>
    obtain ⟨as, t, run, hi, ht⟩ := ih
    have hu := ht u
    rw [if_neg hnew] at hu
    obtain ⟨as', t', run', hi', hprinted, hothers⟩ := exists_read city (hu.2 ▸ h u)
    refine ⟨_, t', run.append run', hi'.trans hi, fun v => ?_⟩
    by_cases hv : v = u
    · subst hv
      rw [if_pos (Finset.mem_insert_self v us), hprinted, hu.1]
    · have hv' := ht v
      rw [← (hothers v hv).1, ← (hothers v hv).2] at hv'
      simpa only [Finset.mem_insert, hv, false_or] using hv'

/-- The subscribers may print of the first `n` iterations any selection of those about their city,
in their order, each of them independently of the others, and nothing else. -/
theorem prints_iff [Fintype U] (temperature relhumidity : Nat → UInt32) (initial : WeatherInfo)
    (city : U → City) (n : Nat) (shown : U → List Line) :
    (∃ as s, Run (Step temperature relhumidity city) (.init initial) as s ∧ s.i = n ∧
      s.printed = shown) ↔
      n ≤ CONST_100 ∧
        ∀ u, (shown u).Sublist ((about (city u) n).map (line temperature relhumidity initial)) := by
  constructor
  · rintro ⟨as, s, run, rfl, rfl⟩
    have hrun := Broadcasting.run run
    refine ⟨hrun.bound, fun u => ?_⟩
    obtain ⟨shown, waiting, hsome, hprinted, -⟩ := hrun.fed u
    rw [hprinted]
    exact ((List.sublist_append_left shown waiting).trans hsome).map _
  · rintro ⟨more, hshown⟩
    have hkept : ∀ u, ∃ kept : List Nat, kept.Sublist (about (city u) n) ∧
        shown u = kept.map (line temperature relhumidity initial) := by
      intro u
      exact List.sublist_map_iff.mp (hshown u)
    choose kept hsome hlines using hkept
    obtain ⟨as, s, run, hi, hs⟩ :=
      exists_published temperature relhumidity initial city more kept hsome
    obtain ⟨as', t, run', hi', ht⟩ := exists_all_read city kept Finset.univ
      fun u => (hs u).2
    refine ⟨_, t, run.append run', hi'.trans hi, funext fun u => ?_⟩
    have hu := ht u
    rw [if_pos (Finset.mem_univ u), (hs u).1, List.nil_append] at hu
    rw [hu, hlines]

end SimTools.WeatherReport.Broadcast

