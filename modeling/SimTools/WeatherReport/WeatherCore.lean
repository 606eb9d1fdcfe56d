/- Module: SimTools/WeatherReport/WeatherCore
   digest: weather_core.h and weather_core.cpp: the weather record, its publisher, its subscriber. -/

import SimTools.Lib.Memory

set_option autoImplicit false
set_option relaxedAutoImplicit false

namespace SimTools.WeatherReport.WeatherCore

open Lib.Memory

/-- "BeiJing" -/
def BeiJing : Bytes := [66, 101, 105, 74, 105, 110, 103]

/-- "ShangHai" -/
def ShangHai : Bytes := [83, 104, 97, 110, 103, 72, 97, 105]

/-- `sizeof(WeatherInfo)`: an array of 256 characters, a 32-bit length and two floats. -/
def WeatherInfoSize : Nat := 268

abbrev WeatherInfo := Obj WeatherInfoSize

def sizeofCityName : Nat := 256

namespace WeatherInfo

/-- The array, read as a C string. -/
def mCityName (info : WeatherInfo) : Except MemError Bytes :=
  cstring (slice info.image 0 sizeofCityName) 0

def mCityNameLength (info : WeatherInfo) : UInt32 := wordAt info.image 256

/-- Assign to one of the three words behind the array; a `float` is its 32 bits. -/
def setWord (info : WeatherInfo) (off : Nat) (w : UInt32) (inside : off + 4 ≤ WeatherInfoSize) :
    WeatherInfo :=
  ⟨patch info.image off (wordBytes w), by
    rw [length_patch (by rw [info.size_eq, length_wordBytes]; exact inside), info.size_eq]⟩

def setCityNameLength (info : WeatherInfo) (v : UInt32) : WeatherInfo :=
  info.setWord 256 v (by decide)

def setTemperature (info : WeatherInfo) (v : UInt32) : WeatherInfo :=
  info.setWord 260 v (by decide)

def setRelhumidity (info : WeatherInfo) (v : UInt32) : WeatherInfo :=
  info.setWord 264 v (by decide)

end WeatherInfo

/-- The message of `WeatherPuber::publish`. -/
def WeatherPuber.publish (weatherInfo : WeatherInfo) : Bytes := weatherInfo.image

/-- `filters` is what the SUB socket has been subscribed to. -/
structure WeatherSuber where
  mSubTopic : Bytes
  mSuberName : Bytes
  filters : List Bytes
  deriving DecidableEq

namespace WeatherSuber

/-- `ZMQ_SUBSCRIBE` adds a filter to those that the socket has. -/
def setSubTopic (s : WeatherSuber) (subTopic : Bytes) : WeatherSuber :=
  { s with mSubTopic := subTopic, filters := s.filters ++ [subTopic] }

def construct (subTopic : Bytes) : WeatherSuber := setSubTopic ⟨subTopic, subTopic, []⟩ subTopic

/-- The socket delivers a message that begins with one of its filters. -/
def accepts (s : WeatherSuber) (msg : Bytes) : Bool := s.filters.any (fun f => f.isPrefixOf msg)

/-- `WeatherSuber::subscribe` behind its receive; it copies `WeatherInfoSize` bytes in any case. -/
def subscribe (msg : Bytes) : Except MemError WeatherInfo := do
  let bytes ← Obj.load ⟨msg, rfl⟩ 0 WeatherInfoSize
  (Obj.zero WeatherInfoSize).store 0 bytes

end WeatherSuber

theorem getElem?_setWord (info : WeatherInfo) {off : Nat} (w : UInt32)
    (inside : off + 4 ≤ WeatherInfoSize) {k : Nat} (front : k < off) :
    (info.setWord off w inside).image[k]? = info.image[k]? := by
  have hlen : info.image.length = WeatherInfoSize := info.size_eq
  have hword := length_wordBytes w
  exact getElem?_patch_of_outside (by omega) (.inl front)

theorem slice_setWord (info : WeatherInfo) {off : Nat} (w : UInt32)
    (inside : off + 4 ≤ WeatherInfoSize) {o n : Nat} (front : o + n ≤ off) :
    slice (info.setWord off w inside).image o n = slice info.image o n := by
  have hlen : info.image.length = WeatherInfoSize := info.size_eq
  have hword := length_wordBytes w
  exact slice_patch_of_disjoint (by omega) (.inl front)

theorem mCityNameLength_setCityNameLength (info : WeatherInfo) (v : UInt32) :
    WeatherInfo.mCityNameLength (WeatherInfo.setCityNameLength info v) = v := by
  have hlen : info.image.length = 268 := info.size_eq
  exact wordAt_patch_self v (by omega)

theorem mCityName_eq {info : WeatherInfo} {name : Bytes} (here : StrAt info.image 0 name)
    (short : name.length < sizeofCityName) : WeatherInfo.mCityName info = .ok name := by
  have hsame : slice (slice info.image 0 sizeofCityName) 0 sizeofCityName =
      slice info.image 0 sizeofCityName := slice_slice _ (Nat.le_of_eq (Nat.zero_add _))
  exact (here.of_slice short hsame).cstring_eq

theorem mCityName_eq_ok_iff {info : WeatherInfo} {name : Bytes} :
    WeatherInfo.mCityName info = .ok name ↔
      0 ∉ name ∧ name.length < sizeofCityName ∧ name ++ [0] <+: info.image := by
  constructor
  · intro read
    obtain ⟨nul_free, hstart⟩ := strAt_zero_iff.mp (cstring_eq_ok_iff.mp read)
    have hlen := hstart.length_le
    rw [List.length_append, List.length_singleton, slice, List.length_take] at hlen
    exact ⟨nul_free, by omega, hstart.trans (List.take_prefix _ _)⟩
  · rintro ⟨nul_free, short, here⟩
    exact mCityName_eq (strAt_zero_iff.mpr ⟨nul_free, here⟩) short

theorem subscribe_publish (info : WeatherInfo) :
    WeatherSuber.subscribe (WeatherPuber.publish info) = .ok info := by
  have hlen : info.image.length = WeatherInfoSize := info.size_eq
  have hload : Obj.load ⟨info.image, rfl⟩ 0 WeatherInfoSize = .ok info.image := by
    rw [Obj.load_eq_ok (by omega), slice, List.drop_zero,
      List.take_of_length_le (Nat.le_of_eq hlen)]
  have hstore : (Obj.zero WeatherInfoSize).store 0 info.image = .ok info :=
    Obj.store_whole _ info.size_eq
  simp only [WeatherSuber.subscribe, WeatherPuber.publish, hload, bind, Except.bind, hstore]

end SimTools.WeatherReport.WeatherCore
