import EmsGateway.Firmware.Arduino
import EmsGateway.Library.Timer
import Mathlib.Algebra.Field.Rat

/-!
The timer of LoRa_Antares_Test.ino. `long` and `unsigned long` have 32 bits on
the board, so `previousMillis` holds the bits of an unsigned counter as a signed
number, and the test of `loop` is made in unsigned arithmetic.
-/

namespace EmsGateway.Firmware.LoRa

open EmsGateway.Library

/-- LoRa_Antares_Test.ino, line 6. -/
def interval : Int32 := 10000

/-- LoRa_Antares_Test.ino, line 10. -/
def recvStatus : ℤ := 1

/-- LoRa_Antares_Test.ino, line 11. -/
def deviceid : String := "1579162318409543664"

/-- A call of `lora.sendToAntares`, with the true time of its iteration. -/
structure Kiriman where
  waktu : ℕ
  data : String
  recvStatus : ℤ
  deriving DecidableEq

/-- The globals that `loop` writes, and the calls of `lora.sendToAntares` made so
far. -/
structure Globals (τ : Type) where
  previousMillis : Int32
  temp : CFloat τ
  hum : CFloat τ
  sent : List Kiriman

/-- What an iteration of `loop` meets: the readings, and the milliseconds since
boot when it calls `millis()`. -/
structure Iterasi (τ : Type) where
  temperature : CFloat τ
  humidity : CFloat τ
  waktu : ℕ

def millis (waktu : ℕ) : UInt32 := UInt32.ofNat waktu

variable {τ : Type}

/-- The globals stand for a timer: `previousMillis` has the bits of its last
firing, and its firings are the sends. -/
structure Tracks (s : Globals τ) (c : Timer) : Prop where
  previousMillis : s.previousMillis.toUInt32 = millis c.last
  sent : s.sent.map Kiriman.waktu = c.fired

/-- The test of `loop`, on globals that stand for a timer. -/
theorem interval_lt_sub_iff {s : Globals τ} {c : Timer} (h : Tracks s c) (waktu : ℕ) :
    millis waktu - s.previousMillis.toUInt32 > interval.toUInt32 ↔
      10000 < (BitVec.ofNat 32 waktu - BitVec.ofNat 32 c.last).toNat := by
  rw [h.previousMillis, gt_iff_lt, UInt32.lt_iff_toNat_lt]
  rfl

/-- The true times of the iterations are in order, the first below `2 ^ 32`, with
gaps below `2 ^ 32 - 10000`. -/
def Timely (is : List (Iterasi τ)) : Prop := Timer.Timely 10000 32 (is.map Iterasi.waktu)

theorem Timely.of_append {is rest : List (Iterasi τ)} (h : Timely (is ++ rest)) : Timely is := by
  unfold Timely at h ⊢
  rw [List.map_append] at h
  exact h.of_append

/-- The true time of the last send, the time of boot before the first. -/
def lastSend (s : Globals τ) : ℕ := (s.sent.getLast?.map Kiriman.waktu).getD 0

variable [Add τ] [Neg τ] [Zero τ] [OfScientific τ]

/-- LoRa_Antares_Test.ino, line 13. -/
def kalibrasi_temp : CFloat τ := .finite (-(1.2))

/-- LoRa_Antares_Test.ino, line 14. -/
def kalibrasi_hum : CFloat τ := .finite 0

/-- The globals after boot and `setup`, which writes none of them. -/
def Globals.boot : Globals τ where
  previousMillis := 0
  temp := .finite 0
  hum := .finite 0
  sent := []

/-- LoRa_Antares_Test.ino, lines 17-21. -/
def sensorValue (s : Globals τ) (temperature humidity : CFloat τ) : Globals τ :=
  { s with temp := temperature + kalibrasi_temp, hum := humidity + kalibrasi_hum }

/-- LoRa_Antares_Test.ino, lines 38-51. The `long` operands of the test are
converted to `unsigned long`. -/
def loop (desimal : τ → String) (s : Globals τ) (i : Iterasi τ) : Globals τ :=
  let s := sensorValue s i.temperature i.humidity
  let currentMillis := millis i.waktu
  if currentMillis - s.previousMillis.toUInt32 > interval.toUInt32 then
    let data := s.temp.toText desimal ++ "," ++ s.hum.toText desimal ++ "," ++ deviceid
    { s with
      previousMillis := currentMillis.toInt32
      sent := s.sent ++ [⟨i.waktu, data, recvStatus⟩] }
  else s

def run (desimal : τ → String) (is : List (Iterasi τ)) : Globals τ :=
  is.foldl (loop desimal) .boot

variable (desimal : τ → String)

theorem run_concat (is : List (Iterasi τ)) (i : Iterasi τ) :
    run desimal (is ++ [i]) = loop desimal (run desimal is) i := by
  simp [run]

/-- An iteration does to the timer what a poll does, and sends when it fires. -/
theorem Tracks.loop {s : Globals τ} {c : Timer} (h : Tracks s c) {i : Iterasi τ}
    (hdue : 10000 < (BitVec.ofNat 32 i.waktu - BitVec.ofNat 32 c.last).toNat ↔
      c.last + 10000 < i.waktu) :
    Tracks (loop desimal s i) (c.poll 10000 i.waktu) := by
  have htest := (interval_lt_sub_iff h i.waktu).trans hdue
  unfold LoRa.loop Timer.poll sensorValue
  simp only [htest]
  split
  · exact ⟨UInt32.toUInt32_toInt32 _, by simp [h.sent]⟩
  · exact ⟨h.previousMillis, h.sent⟩

theorem tracks_run {is : List (Iterasi τ)} (h : Timely is) :
    Tracks (run desimal is) (Timer.polled 10000 (is.map Iterasi.waktu)) := by
  induction is using List.reverseRecOn with
  | nil => exact ⟨rfl, rfl⟩
  | append_singleton is i ih =>
      rw [run_concat, List.map_append, List.map_singleton, Timer.polled_concat]
      refine (ih h.of_append).loop desimal (Timer.period_lt_sub_iff ?_)
      unfold Timely at h
      rwa [List.map_append, List.map_singleton] at h

/-- An iteration sends from these globals. -/
def Sends (s : Globals τ) (i : Iterasi τ) : Prop := (loop desimal s i).sent ≠ s.sent

theorem sends_iff_test (s : Globals τ) (i : Iterasi τ) :
    Sends desimal s i ↔ millis i.waktu - s.previousMillis.toUInt32 > interval.toUInt32 := by
  unfold Sends loop sensorValue
  dsimp only
  split
  · simp [‹_›]
  · simp [‹_›]

/-- In a run whose iterations are timely an iteration sends exactly when more than
`10000` true milliseconds have passed since the previous send, and any two sends
are more than that apart. -/
theorem sends_iff_elapsed {is : List (Iterasi τ)} (h : Timely is) :
    (∀ front i rest, is = front ++ i :: rest →
      (Sends desimal (run desimal front) i ↔ lastSend (run desimal front) + 10000 < i.waktu)) ∧
    (run desimal is).sent.Pairwise fun a b => a.waktu + 10000 < b.waktu := by
  constructor
  · rintro front i rest rfl
    have hpolls : Timely (front ++ [i]) := by
      rw [List.append_cons] at h
      exact h.of_append
    have htracks := tracks_run desimal hpolls.of_append
    have hlast : lastSend (run desimal front) =
        (Timer.polled 10000 (front.map Iterasi.waktu)).last := by
      rw [(Timer.spaced_polled 10000 _).last_eq, ← htracks.sent, List.getLast?_map]
      rfl
    rw [sends_iff_test, interval_lt_sub_iff htracks, hlast]
    apply Timer.period_lt_sub_iff
    unfold Timely at hpolls
    rwa [List.map_append, List.map_singleton] at hpolls
  · have hapart := (Timer.spaced_polled 10000 (is.map Iterasi.waktu)).apart
    rwa [← (tracks_run desimal h).sent, List.pairwise_map] at hapart

/-- Five iterations over more than one turn of the counter. -/
def overTurn : List (Iterasi ℚ) :=
  [5000, 10001, 4294960000, 4294970000, 4294970001].map fun waktu => ⟨.finite 27, .nan, waktu⟩

theorem timely_overTurn : Timely overTurn :=
  ⟨by decide, by decide⟩

theorem sends_iff_elapsed_overTurn :
    (∀ front i rest, overTurn = front ++ i :: rest →
      (Sends toString (run toString front) i ↔
        lastSend (run toString front) + 10000 < i.waktu)) ∧
    (run toString overTurn).sent.Pairwise fun a b => a.waktu + 10000 < b.waktu :=
  sends_iff_elapsed toString timely_overTurn

end EmsGateway.Firmware.LoRa
