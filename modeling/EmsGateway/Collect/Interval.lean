import EmsGateway.Library.Exec
import EmsGateway.Spool

/-!
The collect service: the attributes of `ParseClass`, `datakirim`, and the flag
with which `intervalkirim` chooses the readings it spools.
-/

namespace EmsGateway.Collect

open EmsGateway.Library

/-- The exceptions the modelled code meets. -/
inductive PyError
  | nameError
  | attributeError
  | indexError
  | modbus
  | osError
  | typeError
  | other
  deriving DecidableEq

/-- The attributes of a `ParseClass` object, with the two directories it writes
to, the texts passed to `datakirim`, the lines added to the room logs, the lines
printed and the messages logged. A room log is known by its room and its day. -/
structure ParseClass (δ : Type) where
  flagkirim : Bool
  spool : SpoolDir δ
  datalog : Directory (String × ℕ) δ
  kirim : List δ
  dicatat : List δ
  printed : List δ
  log : List String

abbrev ParseM (δ : Type) := Stmt (ParseClass δ) PyError

variable {δ : Type}

/-- collect.py, lines 43-47. -/
def ParseClass.new (spool : SpoolDir δ) (datalog : Directory (String × ℕ) δ) : ParseClass δ :=
  ⟨true, spool, datalog, [], [], [], []⟩

/-- `logging.exception(message)`. -/
def logException (message : String) : ParseM δ Unit :=
  modify fun s => { s with log := s.log ++ [message] }

/-- `datetime.datetime.now().second`. -/
def detik (clock : ℕ) : ℕ := clock / second % 60

/-- collect.py, lines 114-125. It returns the name of the file, `none` after an
exception. -/
def datakirim (clock : ℕ) (w : WriteReply) (data : δ) : ParseM δ (Option ℕ) :=
  tryCatch (do
    modify fun s => { s with kirim := s.kirim ++ [data] }
    let filekirimsensor := tanggalsekarang clock
    let written := writeLine (← get).spool filekirimsensor data clock w
    modify fun s => { s with spool := written.1 }
    if written.2 then pure (some filekirimsensor) else throw .osError)
  fun _ => do
    logException "Exception occurred create datakirim"
    pure none

/-- collect.py, lines 100-111. -/
def intervalkirim (clock : ℕ) (w : WriteReply) (waktukirim : ℤ) (data : δ) : ParseM δ Unit :=
  tryCatch (do
    let kirim := waktukirim % 30
    if kirim ≥ 0 ∧ kirim ≤ 2 ∧ (← get).flagkirim = true then
      let _ ← datakirim clock w data
      modify fun s => { s with flagkirim := false }
    if kirim ≠ 0 then
      modify fun s => { s with flagkirim := true })
  fun _ => logException "Exception occurred interval kirim"

/-- What `datakirim` leaves: the call is counted, and the record is on the spool
if its file operations all returned. -/
theorem exec_datakirim (clock : ℕ) (w : WriteReply) (data : δ) (s : ParseClass δ) :
    ∃ log, (datakirim clock w data).exec s =
      (.ok (if (writeLine s.spool (tanggalsekarang clock) data clock w).2 then
          some (tanggalsekarang clock) else none),
        { s with
          kirim := s.kirim ++ [data]
          spool := (writeLine s.spool (tanggalsekarang clock) data clock w).1
          log := log }) := by
  rw [datakirim, Stmt.exec_tryCatch]
  simp only [Stmt.exec_bind, Stmt.exec_modify, Stmt.exec_get]
  cases (writeLine s.spool (tanggalsekarang clock) data clock w).2 with
  | true => exact ⟨s.log, rfl⟩
  | false => exact ⟨s.log ++ ["Exception occurred create datakirim"], rfl⟩

/-- A reading is on time in the first three seconds of a window. -/
def onTime (waktukirim : ℤ) : Prop := waktukirim % 30 ≥ 0 ∧ waktukirim % 30 ≤ 2

instance (waktukirim : ℤ) : Decidable (onTime waktukirim) := inferInstanceAs (Decidable (_ ∧ _))

/-- What `intervalkirim` leaves. Whatever it did, the flag then tells whether
this call was at second `0` of a window: it is cleared only at second `0`, and a
call at second `0` that sends nothing finds it cleared. -/
theorem exec_intervalkirim (clock : ℕ) (w : WriteReply) (waktukirim : ℤ) (data : δ)
    (s : ParseClass δ) :
    ∃ log, (intervalkirim clock w waktukirim data).exec s = (.ok (), { s with
      flagkirim := decide (waktukirim % 30 ≠ 0)
      kirim := if onTime waktukirim ∧ s.flagkirim = true then s.kirim ++ [data] else s.kirim
      spool := if onTime waktukirim ∧ s.flagkirim = true then
        (writeLine s.spool (tanggalsekarang clock) data clock w).1 else s.spool
      log := log }) := by
  obtain ⟨log, hkirim⟩ := exec_datakirim clock w data s
  have hge : waktukirim % 30 ≥ 0 := Int.emod_nonneg waktukirim (by decide)
  unfold intervalkirim onTime
  rw [Stmt.exec_tryCatch]
  by_cases hsend : waktukirim % 30 ≤ 2 ∧ s.flagkirim = true
  · refine ⟨log, ?_⟩
    by_cases hzero : waktukirim % 30 = 0
    · simp [Stmt.exec_bind, hkirim, hsend, hzero]
    · simp [Stmt.exec_bind, hkirim, hge, hsend, hzero]
  · refine ⟨s.log, ?_⟩
    by_cases hzero : waktukirim % 30 = 0
    · have hflag : s.flagkirim = false := by simpa [hzero] using hsend
      simp [Stmt.exec_bind, hzero, hflag]
      rw [← hflag]
    · simp [Stmt.exec_bind, hge, hsend, hzero]

/-! ### Runs -/

/-- A call of `intervalkirim`: its arguments, and when and how `datakirim` would
write the text. -/
structure Panggilan (δ : Type) where
  waktukirim : ℤ
  data : δ
  clock : ℕ
  tulis : WriteReply

/-- The state after a call. -/
def panggil (s : ParseClass δ) (c : Panggilan δ) : ParseClass δ :=
  (intervalkirim c.clock c.tulis c.waktukirim c.data).final s

/-- The state after the calls. -/
def after (s : ParseClass δ) (cs : List (Panggilan δ)) : ParseClass δ := cs.foldl panggil s

/-- How often a call invokes `datakirim`. -/
def invocations (s : ParseClass δ) (c : Panggilan δ) : ℕ :=
  (panggil s c).kirim.length - s.kirim.length

/-- The file operations of `datakirim` would return in this call. -/
def Writable (s : ParseClass δ) (c : Panggilan δ) : Prop :=
  (writeLine s.spool (tanggalsekarang c.clock) c.data c.clock c.tulis).2 = true

instance (s : ParseClass δ) (c : Panggilan δ) : Decidable (Writable s c) :=
  inferInstanceAs (Decidable (_ = true))

/-- Call `i` is on time, and it is the first call or the one before it was not at
second `0` of a window. -/
def Opens (cs : List (Panggilan δ)) (i : ℕ) : Prop :=
  (∃ c ∈ cs[i]?, onTime c.waktukirim) ∧ (i = 0 ∨ ∀ p ∈ cs[i - 1]?, p.waktukirim % 30 ≠ 0)

instance (cs : List (Panggilan δ)) (i : ℕ) : Decidable (Opens cs i) :=
  inferInstanceAs (Decidable (_ ∧ _))

theorem after_concat (s : ParseClass δ) (cs : List (Panggilan δ)) (c : Panggilan δ) :
    after s (cs ++ [c]) = panggil (after s cs) c := by
  simp [after]

theorem flagkirim_panggil (s : ParseClass δ) (c : Panggilan δ) :
    (panggil s c).flagkirim = decide (c.waktukirim % 30 ≠ 0) := by
  obtain ⟨log, hcall⟩ := exec_intervalkirim c.clock c.tulis c.waktukirim c.data s
  rw [panggil, Stmt.final, hcall]

theorem kirim_panggil (s : ParseClass δ) (c : Panggilan δ) :
    (panggil s c).kirim =
      if onTime c.waktukirim ∧ s.flagkirim = true then s.kirim ++ [c.data] else s.kirim := by
  obtain ⟨log, hcall⟩ := exec_intervalkirim c.clock c.tulis c.waktukirim c.data s
  rw [panggil, Stmt.final, hcall]

theorem spool_panggil (s : ParseClass δ) (c : Panggilan δ) :
    (panggil s c).spool = if onTime c.waktukirim ∧ s.flagkirim = true then
      (writeLine s.spool (tanggalsekarang c.clock) c.data c.clock c.tulis).1 else s.spool := by
  obtain ⟨log, hcall⟩ := exec_intervalkirim c.clock c.tulis c.waktukirim c.data s
  rw [panggil, Stmt.final, hcall]

/-- After any calls the flag remembers the last of them and nothing else. -/
theorem flagkirim_after (s : ParseClass δ) (cs : List (Panggilan δ)) :
    (after s cs).flagkirim =
      (cs.getLast?.map fun c => decide (c.waktukirim % 30 ≠ 0)).getD s.flagkirim := by
  rcases List.eq_nil_or_concat cs with rfl | ⟨front, c, rfl⟩
  · rfl
  · rw [List.concat_eq_append, after_concat, flagkirim_panggil, List.getLast?_concat]
    rfl

/-- Before call `i` of a run the flag is set exactly when the call before it, if
there is one, was not at second `0` of a window. -/
theorem flagkirim_after_take {s : ParseClass δ} (hnew : s.flagkirim = true)
    {cs : List (Panggilan δ)} {i : ℕ} (hi : i < cs.length) :
    (after s (cs.take i)).flagkirim = true ↔
      i = 0 ∨ ∀ p ∈ cs[i - 1]?, p.waktukirim % 30 ≠ 0 := by
  rw [flagkirim_after, List.getLast?_take]
  by_cases hzero : i = 0
  · simp [hzero, hnew]
  · have hprev : cs[i - 1]? = some cs[i - 1] := List.getElem?_eq_getElem (by omega)
    simp [hzero, hprev]

/-- Whether call `i` of a run finds the flag set and is on time. -/
theorem opens_iff {s : ParseClass δ} (hnew : s.flagkirim = true) {cs : List (Panggilan δ)} {i : ℕ}
    {c : Panggilan δ} (hc : cs[i]? = some c) :
    Opens cs i ↔ onTime c.waktukirim ∧ (after s (cs.take i)).flagkirim = true := by
  have hi : i < cs.length := (List.getElem?_eq_some_iff.mp hc).1
  rw [flagkirim_after_take hnew hi, Opens, hc]
  simp

theorem invocations_after_take {s : ParseClass δ} (hnew : s.flagkirim = true)
    {cs : List (Panggilan δ)} {i : ℕ} {c : Panggilan δ} (hc : cs[i]? = some c) :
    (Opens cs i → invocations (after s (cs.take i)) c = 1) ∧
      (¬Opens cs i → invocations (after s (cs.take i)) c = 0) := by
  rw [opens_iff hnew hc, invocations, kirim_panggil]
  constructor
  · intro hopens
    rw [if_pos hopens, List.length_append, List.length_singleton, Nat.add_sub_cancel_left]
  · intro hopens
    rw [if_neg hopens, Nat.sub_self]

/-- The flag is a memory of one call. On a new object, call `i` of any sequence
of calls invokes `datakirim` exactly once if it is on time and the call before
it, if there is one, was not at second `0` of a window, and otherwise not at all.
Two invocations at second `0` are separated by a call at another second. -/
theorem invocations_iff_opens (spool : SpoolDir δ) (datalog : Directory (String × ℕ) δ)
    (cs : List (Panggilan δ)) :
    (∀ i c, cs[i]? = some c →
      (Opens cs i → invocations (after (.new spool datalog) (cs.take i)) c = 1) ∧
        (¬Opens cs i → invocations (after (.new spool datalog) (cs.take i)) c = 0)) ∧
      ∀ i j c d, i < j → cs[i]? = some c → cs[j]? = some d →
        invocations (after (.new spool datalog) (cs.take i)) c = 1 →
        invocations (after (.new spool datalog) (cs.take j)) d = 1 →
        c.waktukirim % 30 = 0 → d.waktukirim % 30 = 0 →
        ∃ k e, i < k ∧ k < j ∧ cs[k]? = some e ∧ e.waktukirim % 30 ≠ 0 := by
  have hcount : ∀ i c, cs[i]? = some c →
      (Opens cs i → invocations (after (.new spool datalog) (cs.take i)) c = 1) ∧
        (¬Opens cs i → invocations (after (.new spool datalog) (cs.take i)) c = 0) :=
    fun i c hc => invocations_after_take rfl hc
  refine ⟨hcount, ?_⟩
  intro i j c d hij hc hd hinvoked hinvoked' hzero hzero'
  have hopens : Opens cs j := by
    by_contra hclosed
    have := (hcount j d hd).2 hclosed
    omega
  -- the call before `j` is not at second `0`, so it is not call `i` either
  have hj : j - 1 < cs.length := by
    have := (List.getElem?_eq_some_iff.mp hd).1
    omega
  have hprev : cs[j - 1]? = some cs[j - 1] := List.getElem?_eq_getElem hj
  have hne : cs[j - 1].waktukirim % 30 ≠ 0 := hopens.2.resolve_left (by omega) _ hprev
  refine ⟨j - 1, cs[j - 1], ?_, by omega, hprev, hne⟩
  rcases Nat.lt_or_ge i (j - 1) with hlt | hge
  · exact hlt
  · obtain rfl : i = j - 1 := by omega
    rw [hprev] at hc
    rw [Option.some.inj hc] at hne
    exact absurd hzero hne

end EmsGateway.Collect
