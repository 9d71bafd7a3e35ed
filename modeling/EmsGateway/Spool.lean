import EmsGateway.Library.Directory

/-!
The directory `data/connect` through which the two services pass records. Time
is counted in microseconds from a local midnight, so a date is a number of days,
and the spool file of a day is known by that number.
-/

namespace EmsGateway

open EmsGateway.Library

/-- One second of the clock. -/
def second : ℕ := 1000000

/-- One day of the clock, `86400` seconds. -/
def day : ℕ := 86400 * second

/-- `datetime.datetime.now().strftime("%Y-%m-%d")` at a clock value. -/
def tanggalsekarang (clock : ℕ) : ℕ := clock / day

theorem tanggalsekarang_mono {a b : ℕ} (h : a ≤ b) : tanggalsekarang a ≤ tanggalsekarang b :=
  Nat.div_le_div_right h

theorem mul_tanggalsekarang_le (clock : ℕ) : tanggalsekarang clock * day ≤ clock :=
  Nat.div_mul_le_self clock day

abbrev SpoolDir (α : Type) := Directory ℕ α

/-- How the file operations of one write end. A `write` or a `close` that raises
leaves the record out of the file: the text is still in the buffer. -/
inductive WriteReply
  | ok
  | openRaises
  | writeRaises
  | closeRaises
  deriving DecidableEq

/-- `open(file,'a+')`, `write(data + '\n')` and `close()` in one step, with
whether they all returned. -/
def writeLine {ν α : Type} [DecidableEq ν] (d : Directory ν α) (file : ν) (line : α) (clock : ℕ)
    (w : WriteReply) : Directory ν α × Bool :=
  match w with
  | .ok =>
      match Directory.appendLine d file line clock with
      | some d' => (d', true)
      | none => (d, false)
  | .openRaises => (d, false)
  | .writeRaises => ((Directory.touch d file clock).getD d, false)
  | .closeRaises => ((Directory.touch d file clock).getD d, false)

/-- The test `os.stat(file).st_mtime < time.time() - days * 86400 and
os.path.isfile(file)` on an entry, none where `os.stat` raises. -/
def expiredFile? {α : Type} (e : Entry α) (days clock : ℕ) : Option Bool :=
  e.mtime?.map fun mtime => decide (mtime + days * day < clock) && e.isfile

section Expired

variable {ν α : Type} {days clock : ℕ}

theorem expiredFile?_file (lines : List α) (mtime days clock : ℕ) :
    expiredFile? (.file lines mtime) days clock = some (decide (mtime + days * day < clock)) :=
  congrArg some (Bool.and_true _)

theorem expiredFile?_folder (mtime days clock : ℕ) :
    expiredFile? (.folder mtime : Entry α) days clock = some false :=
  congrArg some (Bool.and_false _)

variable [DecidableEq ν] {d : Directory ν α} {name : ν}

/-- A file found expired was last written more than `days` days ago. -/
theorem exists_modified_of_expired
    (h : (d.lookup name).bind (expiredFile? · days clock) = some true) :
    ∃ mtime, Directory.modified d name = some mtime ∧ mtime + days * day < clock := by
  obtain ⟨e, he, hexpired⟩ := Option.bind_eq_some_iff.mp h
  rw [Directory.modified, he]
  cases e with
  | file lines mtime =>
      rw [expiredFile?_file, Option.some_inj, decide_eq_true_iff] at hexpired
      exact ⟨mtime, rfl, hexpired⟩
  | folder mtime =>
      rw [expiredFile?_folder] at hexpired
      cases hexpired
  | dangling => cases hexpired

theorem le_of_not_expired (h : (d.lookup name).bind (expiredFile? · days clock) = some false)
    {mtime : ℕ} (hmtime : Directory.modified d name = some mtime) : clock ≤ mtime + days * day := by
  obtain ⟨e, he, hyoung⟩ := Option.bind_eq_some_iff.mp h
  rw [Directory.modified, he] at hmtime
  cases e with
  | file lines mtime' =>
      obtain rfl := Option.some.inj hmtime
      rw [expiredFile?_file, Option.some_inj, decide_eq_false_iff_not] at hyoung
      omega
  | folder mtime' => cases hmtime
  | dangling => cases hmtime

end Expired

section WriteLine

variable {ν α : Type} [DecidableEq ν] (d : Directory ν α) (file : ν) (line : α) (clock : ℕ)
  (w : WriteReply)

/-- A write adds its line to its file when it succeeds and changes the lines of
no file when it does not. -/
theorem lines_writeLine (m : ν) :
    Directory.lines (writeLine d file line clock w).1 m =
      if m = file ∧ (writeLine d file line clock w).2 = true then Directory.lines d m ++ [line]
      else Directory.lines d m := by
  have htouch : Directory.lines ((Directory.touch d file clock).getD d) m =
      Directory.lines d m := by
    cases h : Directory.touch d file clock with
    | none => rfl
    | some d' => exact Directory.lines_touch h m
  unfold writeLine
  cases w with
  | ok =>
      cases h : Directory.appendLine d file line clock with
      | none => simp
      | some d' =>
          simp only [Directory.lines_appendLine h, and_true]
          split
          · subst m
            rfl
          · rfl
  | openRaises => simp
  | writeRaises => simp [htouch]
  | closeRaises => simp [htouch]

/-- A write stamps its file with the present time or leaves the stamps alone. -/
theorem modified_writeLine (m : ν) :
    Directory.modified (writeLine d file line clock w).1 m = Directory.modified d m ∨
      m = file ∧ Directory.modified (writeLine d file line clock w).1 m = some clock := by
  have htouch : Directory.modified ((Directory.touch d file clock).getD d) m =
        Directory.modified d m ∨
      m = file ∧ Directory.modified ((Directory.touch d file clock).getD d) m = some clock := by
    cases h : Directory.touch d file clock with
    | none => exact .inl rfl
    | some d' => exact Directory.modified_touch h m
  unfold writeLine
  cases w with
  | ok =>
      cases h : Directory.appendLine d file line clock with
      | none => exact .inl rfl
      | some d' =>
          simp only [Directory.modified_appendLine h]
          split
          · exact .inr ⟨‹_›, rfl⟩
          · exact .inl rfl
  | openRaises => exact .inl rfl
  | writeRaises => exact htouch
  | closeRaises => exact htouch

end WriteLine

end EmsGateway
