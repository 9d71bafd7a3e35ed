import EmsGateway.Firmware.Payload
import EmsGateway.Library.CString

/-!
The buffers `times` and `date` of the sketches that publish over MQTT, and the two
functions that fill them. Where the linker puts the buffers is left open, but for
their not overlapping.
-/

namespace EmsGateway.Firmware

open EmsGateway.Library

/-- The addresses of `char times[10]` and `char date[20]`. -/
structure Alamat where
  times : ℕ
  date : ℕ
  apart : times + 10 ≤ date ∨ date + 20 ≤ times

/-- A call of `sprintf`: the declared size of its buffer, and the bytes it writes,
the NUL included. -/
structure Sprintf where
  size : ℕ
  written : ℕ
  deriving DecidableEq

/-- The memory of the board, and the calls of `sprintf` since it was reset. -/
structure Ram where
  memory : Memory
  sprintfs : List Sprintf

/-- `sprintf` of a text into the buffer of this size at this address. -/
def Ram.sprintf (r : Ram) (address size : ℕ) (text : List Char) : Ram where
  memory := r.memory.copy address text
  sprintfs := r.sprintfs ++ [⟨size, text.length + 1⟩]

/-- `String(buffer)`: addresses have 32 bits. -/
def Ram.string (r : Ram) (address : ℕ) : String :=
  String.ofList (r.memory.cstring (2 ^ 32) address)

/-- What `getLocalTime` fills in when it succeeds: a valid time of a year of four
digits. -/
structure Tm where
  tm_hour : ℤ
  tm_min : ℤ
  tm_sec : ℤ
  tm_mday : ℤ
  tm_mon : ℤ
  tm_year : ℤ
  hour : 0 ≤ tm_hour ∧ tm_hour ≤ 23
  min : 0 ≤ tm_min ∧ tm_min ≤ 59
  sec : 0 ≤ tm_sec ∧ tm_sec ≤ 60
  mday : 1 ≤ tm_mday ∧ tm_mday ≤ 31
  mon : 0 ≤ tm_mon ∧ tm_mon ≤ 11
  year : 1000 ≤ tm_year + 1900 ∧ tm_year + 1900 ≤ 9999

/-- What `rtc.now()` returns. -/
structure DateTime where
  hour : ℕ
  minute : ℕ
  second : ℕ
  day : ℕ
  month : ℕ
  year : ℕ

/-- `"%02d:%02d:%02d.000"` -/
def timesText (jam menit detik : ℤ) : List Char :=
  zeroPadded 2 jam ++ ':' :: (zeroPadded 2 menit ++ ':' :: (zeroPadded 2 detik ++ ".000".toList))

/-- `"%04d-%02d-%02d"` -/
def dateText (tahun bulan tanggal : ℤ) : List Char :=
  zeroPadded 4 tahun ++ '-' :: (zeroPadded 2 bulan ++ '-' :: zeroPadded 2 tanggal)

/-- The two calls of `sprintf` that `getTime` and `RTC` end with. -/
def tulisWaktu (al : Alamat) (jam menit detik tanggal bulan tahun : ℤ) (r : Ram) : Ram :=
  (r.sprintf al.times 10 (timesText jam menit detik)).sprintf al.date 20
    (dateText tahun bulan tanggal)

/-- MQTT-Publish.ino, lines 245-264. -/
def getTime (al : Alamat) (timeinfo : Option Tm) (r : Ram) : Ram :=
  match timeinfo with
  | none => r
  | some t =>
      tulisWaktu al t.tm_hour t.tm_min t.tm_sec t.tm_mday (t.tm_mon + 1) (t.tm_year + 1900) r

/-- Kalibrasi_Sensor_ESP32.ino, lines 106-117. -/
def RTC (al : Alamat) (now : DateTime) (r : Ram) : Ram :=
  tulisWaktu al now.hour now.minute now.second now.day now.month now.year r

/-! ### What is written -/

/-- The numbers have no more digits than their formats. -/
structure Digits (jam menit detik tanggal bulan tahun : ℤ) : Prop where
  jam : 0 ≤ jam ∧ jam < 100
  menit : 0 ≤ menit ∧ menit < 100
  detik : 0 ≤ detik ∧ detik < 100
  tanggal : 0 ≤ tanggal ∧ tanggal < 100
  bulan : 0 ≤ bulan ∧ bulan < 100
  tahun : 0 ≤ tahun ∧ tahun < 10000

theorem Tm.digits (t : Tm) :
    Digits t.tm_hour t.tm_min t.tm_sec t.tm_mday (t.tm_mon + 1) (t.tm_year + 1900) := by
  have hhour := t.hour
  have hmin := t.min
  have hsec := t.sec
  have hmday := t.mday
  have hmon := t.mon
  have hyear := t.year
  constructor <;> omega

section Written

variable {jam menit detik tanggal bulan tahun : ℤ}
  (h : Digits jam menit detik tanggal bulan tahun)

include h

theorem Digits.length_timesText : (timesText jam menit detik).length = 12 := by
  simp [timesText, length_zeroPadded, h.jam, h.menit, h.detik]

theorem Digits.length_dateText : (dateText tahun bulan tanggal).length = 10 := by
  simp [dateText, length_zeroPadded, h.tahun, h.bulan, h.tanggal]

theorem Digits.mem_timesText {c : Char} (hc : c ∈ timesText jam menit detik) :
    c.isDigit = true ∨ c = ':' ∨ c = '.' := by
  have hzeros : ∀ c ∈ ".000".toList, c = '.' ∨ c.isDigit = true := by simp
  simp only [timesText, List.mem_append, List.mem_cons] at hc
  obtain hc | rfl | hc | rfl | hc | hc := hc
  · exact .inl (isDigit_of_mem_zeroPadded h.jam.1 c hc)
  · exact .inr (.inl rfl)
  · exact .inl (isDigit_of_mem_zeroPadded h.menit.1 c hc)
  · exact .inr (.inl rfl)
  · exact .inl (isDigit_of_mem_zeroPadded h.detik.1 c hc)
  · exact (hzeros c hc).elim (fun hdot => .inr (.inr hdot)) .inl

theorem Digits.mem_dateText {c : Char} (hc : c ∈ dateText tahun bulan tanggal) :
    c.isDigit = true ∨ c = '-' := by
  simp only [dateText, List.mem_append, List.mem_cons] at hc
  obtain hc | rfl | hc | rfl | hc := hc
  · exact .inl (isDigit_of_mem_zeroPadded h.tahun.1 c hc)
  · exact .inr rfl
  · exact .inl (isDigit_of_mem_zeroPadded h.bulan.1 c hc)
  · exact .inr rfl
  · exact .inl (isDigit_of_mem_zeroPadded h.tanggal.1 c hc)

theorem Digits.nul_notMem_timesText : Memory.nul ∉ timesText jam menit detik := by
  intro hmem
  have hnul := h.mem_timesText hmem
  revert hnul
  decide

theorem Digits.nul_notMem_dateText : Memory.nul ∉ dateText tahun bulan tanggal := by
  intro hmem
  have hnul := h.mem_dateText hmem
  revert hnul
  decide

variable (al : Alamat) (r : Ram)

theorem Digits.holds_date :
    (tulisWaktu al jam menit detik tanggal bulan tahun r).memory.Holds al.date
      (dateText tahun bulan tanggal) :=
  Memory.holds_copy _ _ h.nul_notMem_dateText

theorem Digits.string_date :
    (tulisWaktu al jam menit detik tanggal bulan tahun r).string al.date =
      String.ofList (dateText tahun bulan tanggal) := by
  rw [Ram.string, Memory.cstring_eq (h.holds_date al r) (by rw [h.length_dateText]; decide)]

/-- What the buffer `times` reads as: its text, unless the date begins in it or
right behind it. -/
def timesRead (al : Alamat) (jam menit detik tanggal bulan tahun : ℤ) : List Char :=
  if al.times ≤ al.date ∧ al.date ≤ al.times + 12 then
    (timesText jam menit detik).take (al.date - al.times) ++ dateText tahun bulan tanggal
  else timesText jam menit detik

theorem Digits.holds_times :
    (tulisWaktu al jam menit detik tanggal bulan tahun r).memory.Holds al.times
      (timesRead al jam menit detik tanggal bulan tahun) := by
  have hdate := h.holds_date al r
  have htimes := Memory.holds_copy r.memory al.times h.nul_notMem_timesText
  have hlength := h.length_timesText
  unfold timesRead
  split
  · rename_i hrun
    -- the date is written over the end of the text or its NUL, and read as the rest of it
    have htake : ((timesText jam menit detik).take (al.date - al.times)).length =
        al.date - al.times := by
      rw [List.length_take]
      omega
    refine Memory.Text.holds_append ((htimes.1.take _).congr fun i _ hlt => ?_) ?_
    · exact Memory.copy_before _ _ (by omega)
    · rw [htake, Nat.add_sub_cancel' hrun.1]
      exact hdate
  · rename_i hrun
    refine htimes.congr fun i hle hlt => ?_
    obtain hbefore | hbehind : i < al.date ∨ al.date + 10 < i := by
      have hapart := al.apart
      omega
    · exact Memory.copy_before _ _ hbefore
    · refine Memory.copy_behind _ ?_
      rw [h.length_dateText]
      exact hbehind

theorem Digits.string_times :
    (tulisWaktu al jam menit detik tanggal bulan tahun r).string al.times =
      String.ofList (timesRead al jam menit detik tanggal bulan tahun) := by
  have hlength : (timesRead al jam menit detik tanggal bulan tahun).length < 2 ^ 32 := by
    have htimes := h.length_timesText
    have hdate := h.length_dateText
    unfold timesRead
    split
    · rw [List.length_append, List.length_take]
      omega
    · omega
  rw [Ram.string, Memory.cstring_eq (h.holds_times al r) hlength]

/-- The buffer `times` reads as its text when the date stands clear of it. -/
theorem Digits.timesRead_eq_iff :
    timesRead al jam menit detik tanggal bulan tahun = timesText jam menit detik ↔
      ¬(al.times ≤ al.date ∧ al.date ≤ al.times + 12) := by
  unfold timesRead
  split
  · rename_i hrun
    refine iff_of_false (fun heq => ?_) (not_not_intro hrun)
    have hlength := congrArg List.length heq
    have hapart := al.apart
    rw [List.length_append, List.length_take, h.length_timesText, h.length_dateText] at hlength
    omega
  · exact iff_of_true rfl ‹_›

theorem Digits.plain_waktu :
    ∀ c ∈ (waktu (String.ofList (timesRead al jam menit detik tanggal bulan tahun))
      (String.ofList (dateText tahun bulan tanggal))).toList, Json.Plain c := by
  have htimes : ∀ c ∈ timesText jam menit detik, Json.Plain c := by
    intro c hc
    obtain hdigit | rfl | rfl := h.mem_timesText hc
    · exact Json.plain_of_isDigit hdigit
    · decide
    · decide
  have hdate : ∀ c ∈ dateText tahun bulan tanggal, Json.Plain c := by
    intro c hc
    obtain hdigit | rfl := h.mem_dateText hc
    · exact Json.plain_of_isDigit hdigit
    · decide
  have hread : ∀ c ∈ timesRead al jam menit detik tanggal bulan tahun, Json.Plain c := by
    unfold timesRead
    split
    · rw [List.forall_mem_append]
      exact ⟨fun c hc => htimes c (List.mem_of_mem_take hc), hdate⟩
    · exact htimes
  rw [plain_waktu_iff, String.toList_ofList, String.toList_ofList]
  exact ⟨hdate, hread⟩

end Written

end EmsGateway.Firmware
