import EmsGateway.Collect.Interval
import Mathlib.Data.List.Induction

/-!
The readings spooled in a window of thirty seconds. A call is on time in the
first three seconds of its window, but the flag is set again by every call at
second `1` or `2`, and it is cleared whether or not the write went through.
-/

namespace EmsGateway.Collect

open EmsGateway.Library

/-! ### What a run of calls sends and writes -/

section Runs

variable {δ : Type} {s : ParseClass δ} {cs : List (Panggilan δ)}

/-- Whether a call opens depends on the calls before it only. -/
theorem opens_append {i : ℕ} (hi : i < cs.length) (ds : List (Panggilan δ)) :
    Opens (cs ++ ds) i ↔ Opens cs i := by
  rw [Opens, Opens, List.getElem?_append_left hi, List.getElem?_append_left (by omega)]

theorem opens_concat (hnew : s.flagkirim = true) (c : Panggilan δ) :
    Opens (cs ++ [c]) cs.length ↔ onTime c.waktukirim ∧ (after s cs).flagkirim = true := by
  have hlast : (cs ++ [c])[cs.length]? = some c := List.getElem?_concat_length
  rw [opens_iff hnew hlast, List.take_left]

/-- How many of the texts passed to `datakirim` satisfy `p`. -/
theorem countP_kirim_after (hnew : s.flagkirim = true) (p : δ → Bool) :
    (after s cs).kirim.countP p = s.kirim.countP p +
      (List.range cs.length).countP fun i =>
        decide (Opens cs i ∧ ∃ c ∈ cs[i]?, p c.data = true) := by
  induction cs using List.reverseRecOn with
  | nil => rfl
  | append_singleton cs c ih =>
      have hfront : ((List.range cs.length).countP fun i =>
            decide (Opens (cs ++ [c]) i ∧ ∃ d ∈ (cs ++ [c])[i]?, p d.data = true)) =
          (List.range cs.length).countP fun i =>
            decide (Opens cs i ∧ ∃ d ∈ cs[i]?, p d.data = true) := by
        refine List.countP_congr fun i hi => ?_
        have hi := List.mem_range.mp hi
        rw [decide_eq_true_iff, decide_eq_true_iff, opens_append hi, List.getElem?_append_left hi]
      rw [List.length_append, List.length_singleton, List.range_succ, List.countP_append, hfront,
        ← Nat.add_assoc, ← ih, after_concat, kirim_panggil]
      by_cases hopens : Opens (cs ++ [c]) cs.length
      · rw [if_pos ((opens_concat hnew c).mp hopens)]
        simp [List.countP_append, List.countP_cons, hopens]
      · rw [if_neg (mt (opens_concat hnew c).mpr hopens)]
        simp [hopens]

/-- A call adds its text to one file, if it opens and the write goes through. -/
theorem lines_panggil (s : ParseClass δ) (c : Panggilan δ) (m : ℕ) :
    Directory.lines (panggil s c).spool m =
      if (onTime c.waktukirim ∧ s.flagkirim = true) ∧ Writable s c ∧ m = tanggalsekarang c.clock
      then Directory.lines s.spool m ++ [c.data] else Directory.lines s.spool m := by
  rw [spool_panggil]
  unfold Writable
  by_cases hsend : onTime c.waktukirim ∧ s.flagkirim = true
  · rw [if_pos hsend, lines_writeLine]
    simp [hsend, and_comm]
  · rw [if_neg hsend, if_neg fun h => hsend h.1]

/-- Call `i` of a run is `c`, and it adds its text to the file. -/
def Writes (s : ParseClass δ) (cs : List (Panggilan δ)) (m i : ℕ) (c : Panggilan δ) : Prop :=
  cs[i]? = some c ∧ Opens cs i ∧ Writable (after s (cs.take i)) c ∧ m = tanggalsekarang c.clock

theorem writes_concat (hnew : s.flagkirim = true) (c : Panggilan δ) (m i : ℕ) (d : Panggilan δ) :
    Writes s (cs ++ [c]) m i d ↔ Writes s cs m i d ∨ i = cs.length ∧ d = c ∧
      (onTime c.waktukirim ∧ (after s cs).flagkirim = true) ∧ Writable (after s cs) c ∧
        m = tanggalsekarang c.clock := by
  rcases Nat.lt_trichotomy i cs.length with hlt | rfl | hgt
  · rw [Writes, Writes, opens_append hlt, List.getElem?_append_left hlt,
      List.take_append_of_le_length (Nat.le_of_lt hlt)]
    simp [Nat.ne_of_lt hlt]
  · rw [Writes, Writes, opens_concat hnew, List.getElem?_concat_length, List.take_left]
    have hnone : cs[cs.length]? = none := List.getElem?_eq_none le_rfl
    simp only [hnone, Option.some.injEq, reduceCtorEq, false_and, false_or, true_and]
    constructor
    · rintro ⟨rfl, hwrites⟩
      exact ⟨rfl, hwrites⟩
    · rintro ⟨rfl, hwrites⟩
      exact ⟨rfl, hwrites⟩
  · have hnone : (cs ++ [c])[i]? = none := by
      apply List.getElem?_eq_none
      rw [List.length_append]
      exact hgt
    have hnone' : cs[i]? = none := List.getElem?_eq_none (Nat.le_of_lt hgt)
    simp [Writes, hnone, hnone', Nat.ne_of_gt hgt]

/-- A run of calls adds to a file the texts of the calls that write to it. -/
theorem lines_after (hnew : s.flagkirim = true) (m : ℕ) :
    ∃ added, Directory.lines (after s cs).spool m = Directory.lines s.spool m ++ added ∧
      ∀ x, x ∈ added ↔ ∃ i c, Writes s cs m i c ∧ c.data = x := by
  induction cs using List.reverseRecOn with
  | nil => exact ⟨[], by simp [after], by simp [Writes]⟩
  | append_singleton cs c ih =>
      obtain ⟨added, hadded, hmem⟩ := ih
      rw [after_concat, lines_panggil, hadded]
      by_cases hwrites : (onTime c.waktukirim ∧ (after s cs).flagkirim = true) ∧
          Writable (after s cs) c ∧ m = tanggalsekarang c.clock
      · refine ⟨added ++ [c.data], ?_, fun x => ?_⟩
        · rw [if_pos hwrites, List.append_assoc]
        · rw [List.mem_append, List.mem_singleton, hmem]
          constructor
          · rintro (⟨i, d, hd, hx⟩ | rfl)
            · exact ⟨i, d, (writes_concat hnew c m i d).mpr (.inl hd), hx⟩
            · exact ⟨cs.length, c, (writes_concat hnew c m _ c).mpr (.inr ⟨rfl, rfl, hwrites⟩), rfl⟩
          · rintro ⟨i, d, hd, hx⟩
            rcases (writes_concat hnew c m i d).mp hd with hold | ⟨-, rfl, -⟩
            · exact .inl ⟨i, d, hold, hx⟩
            · exact .inr hx.symm
      · refine ⟨added, if_neg hwrites, fun x => ?_⟩
        rw [hmem]
        constructor
        · rintro ⟨i, d, hd, hx⟩
          exact ⟨i, d, (writes_concat hnew c m i d).mpr (.inl hd), hx⟩
        · rintro ⟨i, d, hd, hx⟩
          rcases (writes_concat hnew c m i d).mp hd with hold | ⟨-, -, hnow⟩
          · exact ⟨i, d, hold, hx⟩
          · exact absurd hnow hwrites

end Runs

/-! ### Real times -/

/-- A text for a device, with the time at which `parse_json` passes it to
`intervalkirim`. -/
structure Reading where
  waktu : ℕ
  perangkat : String
  isi : String
  deriving DecidableEq

/-- A reading in a run of sweeps, with the time and the outcome of the write
`datakirim` would make. -/
structure Baca where
  reading : Reading
  clock : ℕ
  tulis : WriteReply

/-- collect.py, line 94. -/
def Baca.panggilan (b : Baca) : Panggilan Reading :=
  ⟨detik b.reading.waktu, b.reading, b.clock, b.tulis⟩

/-- The calls of `intervalkirim` in a run of sweeps. -/
def calls (bs : List Baca) : List (Panggilan Reading) := bs.map Baca.panggilan

/-- The window of thirty seconds, aligned at seconds `0` and `30`. -/
def window (clock : ℕ) : ℕ := clock / (30 * second)

/-- A call is on time in the first three seconds of its window. -/
theorem onTime_detik_iff (clock : ℕ) :
    onTime (detik clock) ↔ clock % (30 * second) < 3 * second := by
  unfold onTime detik second
  omega

/-- The reading is of the device and passed in the window. -/
def Reading.isIn (r : Reading) (w : ℕ) (perangkat : String) : Bool :=
  decide (window r.waktu = w) && decide (r.perangkat = perangkat)

/-- The device is read in the first three seconds of the window. -/
def ReadOnTime (bs : List Baca) (w : ℕ) (perangkat : String) : Prop :=
  ∃ b ∈ bs, b.reading.isIn w perangkat = true ∧ onTime (detik b.reading.waktu)

instance (bs : List Baca) (w : ℕ) (perangkat : String) : Decidable (ReadOnTime bs w perangkat) :=
  inferInstanceAs (Decidable (∃ b ∈ bs, _))

/-- The on-time readings of the device in the window that do not directly follow
a call at second `0` of a window. -/
def opening (bs : List Baca) (w : ℕ) (perangkat : String) : List ℕ :=
  (List.range bs.length).filter fun i =>
    decide (Opens (calls bs) i ∧ ∃ c ∈ (calls bs)[i]?, c.data.isIn w perangkat = true)

/-- The texts of a device passed to `datakirim` in a window. -/
def kirimIn (s : ParseClass Reading) (w : ℕ) (perangkat : String) : ℕ :=
  s.kirim.countP fun r => r.isIn w perangkat

section Window

variable (spool : SpoolDir Reading) (datalog : Directory (String × ℕ) Reading) (bs : List Baca)
  (w : ℕ)

theorem kirimIn_after (perangkat : String) :
    kirimIn (after (.new spool datalog) (calls bs)) w perangkat =
      (opening bs w perangkat).length := by
  have hcount := @countP_kirim_after _ (.new spool datalog) (calls bs) rfl
    fun r => r.isIn w perangkat
  have hlength : (calls bs).length = bs.length := List.length_map _
  rw [kirimIn, hcount, opening, ← List.countP_eq_length_filter, hlength]
  exact Nat.zero_add _

/-- Only an on-time reading opens. -/
theorem readOnTime_of_opening {perangkat : String} (h : opening bs w perangkat ≠ []) :
    ReadOnTime bs w perangkat := by
  obtain ⟨i, hi⟩ := List.exists_mem_of_ne_nil _ h
  obtain ⟨⟨⟨c, hc, htime⟩, -⟩, d, hd, hin⟩ := of_decide_eq_true (List.mem_filter.mp hi).2
  obtain rfl : c = d := Option.some.inj (hc.symm.trans hd)
  obtain ⟨b, hb, rfl⟩ := List.mem_map.mp (List.mem_of_getElem? hc)
  exact ⟨b, hb, hin, htime⟩

/-- A device that is read on time in a window has exactly one text passed to
`datakirim` in it, and one that is not has none, if and only if exactly one of
the on-time readings, where there are some, does not directly follow a call at
second `0` of a window. -/
theorem once_per_window_iff (perangkat : String) :
    kirimIn (after (.new spool datalog) (calls bs)) w perangkat =
        (if ReadOnTime bs w perangkat then 1 else 0) ↔
      (ReadOnTime bs w perangkat → (opening bs w perangkat).length = 1) := by
  rw [kirimIn_after]
  by_cases hread : ReadOnTime bs w perangkat
  · simp [hread]
  · have hnil : opening bs w perangkat = [] := by
      by_contra hne
      exact hread (readOnTime_of_opening bs w hne)
    simp [hread, hnil]

/-- The run has put a record of the window on the spool. -/
def OnSpool (s t : ParseClass Reading) : Prop :=
  ∃ m, ∃ r ∈ (Directory.lines t.spool m).drop (Directory.lines s.spool m).length,
    window r.waktu = w

/-- A write fails in the window, and a later on-time call in the window is made
while the file can be written. -/
def FailsThenWritable (s : ParseClass Reading) : Prop :=
  ∃ i j, i < j ∧
    (∃ c ∈ (calls bs)[i]?, window c.data.waktu = w ∧
      invocations (after s ((calls bs).take i)) c = 1 ∧
      ¬Writable (after s ((calls bs).take i)) c) ∧
    ∃ d ∈ (calls bs)[j]?, window d.data.waktu = w ∧ onTime d.waktukirim ∧
      Writable (after s ((calls bs).take j)) d

/-- Some on-time call in the window is made while the file can be written and
does not directly follow a call at second `0` of a window. -/
def OpensWritable (s : ParseClass Reading) : Prop :=
  ∃ i, ∃ c ∈ (calls bs)[i]?, window c.data.waktu = w ∧ Opens (calls bs) i ∧
    Writable (after s ((calls bs).take i)) c

theorem onSpool_iff :
    OnSpool w (.new spool datalog) (after (.new spool datalog) (calls bs)) ↔
      OpensWritable bs w (.new spool datalog) := by
  constructor
  · rintro ⟨m, r, hr, hwindow⟩
    obtain ⟨added, hadded, hmem⟩ := @lines_after _ (.new spool datalog) (calls bs) rfl m
    rw [hadded, List.drop_left] at hr
    obtain ⟨i, c, ⟨hc, hopens, hwritable, -⟩, rfl⟩ := (hmem r).mp hr
    exact ⟨i, c, hc, hwindow, hopens, hwritable⟩
  · rintro ⟨i, c, hc, hwindow, hopens, hwritable⟩
    obtain ⟨added, hadded, hmem⟩ :=
      @lines_after _ (.new spool datalog) (calls bs) rfl (tanggalsekarang c.clock)
    refine ⟨tanggalsekarang c.clock, c.data, ?_, hwindow⟩
    rw [hadded, List.drop_left]
    exact (hmem c.data).mpr ⟨i, c, ⟨hc, hopens, hwritable, rfl⟩, rfl⟩

/-- A window in which a write fails and a later on-time call could be written has
a record on the spool if and only if one of the calls that could be written does
not directly follow a call at second `0` of a window. -/
theorem window_kept_iff :
    (FailsThenWritable bs w (.new spool datalog) →
        OnSpool w (.new spool datalog) (after (.new spool datalog) (calls bs))) ↔
      (FailsThenWritable bs w (.new spool datalog) → OpensWritable bs w (.new spool datalog)) := by
  rw [onSpool_iff]

end Window

/-! ### Sweeps that send twice, and that send nothing -/

/-- Every sweep reads the devices in their order. -/
def Sweeps (devices : List String) (bs : List Baca) : Prop :=
  ∃ k, bs.map (·.reading.perangkat) = (List.replicate k devices).flatten

def Nondecreasing (bs : List Baca) : Prop :=
  bs.Pairwise fun b c => b.reading.waktu ≤ c.reading.waktu

/-- Two sweeps over one device, at seconds `1` and `2`. -/
def oneSecondApart : List Baca :=
  [⟨⟨1 * second, "Ruang Panel Listrik 2", "{}"⟩, 1 * second, .ok⟩,
    ⟨⟨2 * second, "Ruang Panel Listrik 2", "{}"⟩, 2 * second, .ok⟩]

/-- Both readings are spooled. -/
theorem not_once_per_window :
    ¬∀ (spool : SpoolDir Reading) (datalog : Directory (String × ℕ) Reading)
        (devices : List String) (bs : List Baca), Sweeps devices bs → Nondecreasing bs →
      (∀ b ∈ bs, b.tulis = .ok) → ∀ w perangkat,
        kirimIn (after (.new spool datalog) (calls bs)) w perangkat =
          if ReadOnTime bs w perangkat then 1 else 0 := by
  intro honce
  have htwice := honce ∅ ∅ ["Ruang Panel Listrik 2"] oneSecondApart ⟨2, rfl⟩
    (by simp [Nondecreasing, oneSecondApart, second]) (by decide) 0 "Ruang Panel Listrik 2"
  revert htwice
  decide

/-- Two sweeps over one device, at seconds `0` and `1`. The file cannot be opened
in the first. -/
def openFailsAtZero : List Baca :=
  [⟨⟨0 * second, "Ruang Panel Listrik 2", "{}"⟩, 0 * second, .openRaises⟩,
    ⟨⟨1 * second, "Ruang Panel Listrik 2", "{}"⟩, 1 * second, .ok⟩]

/-- The window has no record on the spool. -/
theorem not_window_kept :
    ¬∀ (spool : SpoolDir Reading) (datalog : Directory (String × ℕ) Reading) (bs : List Baca),
      Nondecreasing bs → ∀ w, FailsThenWritable bs w (.new spool datalog) →
        OnSpool w (.new spool datalog) (after (.new spool datalog) (calls bs)) := by
  intro hkept
  have hfails : FailsThenWritable openFailsAtZero 0 (.new ∅ ∅) :=
    ⟨0, 1, by decide, ⟨_, rfl, by decide⟩, ⟨_, rfl, by decide⟩⟩
  obtain ⟨m, r, hr, -⟩ := hkept ∅ ∅ openFailsAtZero
    (by simp [Nondecreasing, openFailsAtZero, second]) 0 hfails
  have hempty : (after (.new ∅ ∅) (calls openFailsAtZero)).spool = (∅ : SpoolDir Reading) := rfl
  rw [hempty, Directory.lines_empty] at hr
  cases hr

end EmsGateway.Collect
