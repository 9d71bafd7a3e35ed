import EmsGateway.Connect.Delivery
import EmsGateway.Deletefilelog

/-!
The passes of the connect service over the spool file: `inisialisasifolder`,
`ceklog` and `sendfromlog`, with what a complete pass leaves in the file.
-/

namespace EmsGateway.Connect

open EmsGateway.Library

variable {α : Type}

/-- The connect service with the directory it works on. -/
structure Process (α : Type) where
  self : ConnectClass α
  spool : SpoolDir α
  clock : ℕ

abbrev ProcessM (α : Type) := Stmt (Process α) PyError

/-- A statement about the attributes only. -/
def onSelf {β : Type} (x : ConnectM α β) : ProcessM α β :=
  Stmt.within Process.self (fun c s => { s with self := c }) x

/-- connect.py, lines 31-37. The statements it guards do not raise. -/
def inisialisasifolder (clock : ℕ) : ConnectM α Unit :=
  modify fun s => { s with filekirimsensor := some (tanggalsekarang clock) }

/-- The loop of `ceklog`: both branches of its body return, so it looks at the
first line only. -/
def ceklogLines (isi : α → String) : List α → Option Bool
  | [] => none
  | line :: _ => if (isi line).toList.contains '{' then some true else some false

/-- connect.py, lines 69-80, over the text `isi` of a line. `none` is Python's
`None`, returned for a missing file, for an empty one and after an exception. -/
def ceklog (isi : α → String) : ProcessM α (Option Bool) :=
  tryCatch (do
    let s ← get
    match s.self.filekirimsensor with
    | none => throw .attributeError
    | some name =>
        if Directory.isfile s.spool name then
          pure (ceklogLines isi (Directory.lines s.spool name))
        else pure none)
  fun _ => do
    onSelf (logException "Exception occurred ceklog")
    pure none

/-- The body of the loop of `sendfromlog`. `writedata.write('')` writes nothing
into the file that was truncated when it was opened. -/
def sendLine (r : SendReplies) (line : α) : ConnectM α Unit := do
  kirimdatakeserver r line
  if (← get).dataflag = true then
    modify fun s => { s with printed := s.printed ++ [line] }
    setDataflag false

/-- The loop of `sendfromlog`; `r i` are the replies met while line `i` is sent. -/
def sendLines (r : ℕ → SendReplies) : List α → ConnectM α Unit
  | [] => pure ()
  | line :: rest => do
      sendLine (r 0) line
      sendLines (fun i => r (i + 1)) rest

/-- `open(self.filekirimsensor,'r').readlines()`. -/
def openRead : ProcessM α (List α) := do
  let s ← get
  match s.self.filekirimsensor with
  | none => throw .attributeError
  | some name =>
      match Directory.readlines s.spool name with
      | none => throw .osError
      | some lines => pure lines

/-- `open(self.filekirimsensor,'w')`. -/
def openWrite : ProcessM α Unit := do
  let s ← get
  match s.self.filekirimsensor with
  | none => throw .attributeError
  | some name =>
      match Directory.truncate s.spool name s.clock with
      | none => throw .osError
      | some spool => modify fun s => { s with spool := spool }

/-- connect.py, lines 83-96. -/
def sendfromlog (r : ℕ → SendReplies) : ProcessM α Unit :=
  tryCatch (do
    let lines ← openRead
    openWrite
    onSelf (sendLines r lines))
  fun _ => onSelf (logException "Exception occurred sendfromlog")

/-- connect.py, lines 99-106, over the names that `os.listdir` returns. -/
def deletefilelog (names : List ℕ) (m : Meets ℕ) (days : ℚ) : ProcessM α Unit :=
  tryCatch
    (Stmt.within Process.spool (fun d s => { s with spool := d })
      (Deletefilelog.files .osError days m names))
    fun _ => onSelf (logException "Exception occurred deletefilelog")

/-! ### What sending the lines leaves behind -/

/-- Sending a line always leaves the flag cleared for the next one. -/
theorem exec_sendLine (r : SendReplies) (line : α) (s : ConnectClass α) :
    ∃ log, (sendLine r line).exec s =
      (.ok (), { s.pika (sendChannel s.channel r) (sendEvents s.channel r line) with
        dataflag := false, log := log,
        printed := s.printed ++ if sendFlag s.channel r s.dataflag then [line] else [] }) := by
  obtain ⟨log, hsend⟩ := exec_kirimdatakeserver r line s
  refine ⟨log, ?_⟩
  rw [sendLine, setDataflag, Stmt.exec_bind, hsend]
  simp only [Stmt.exec_bind, Stmt.exec_get]
  cases sendFlag s.channel r s.dataflag with
  | true => simp [Stmt.exec_bind, ConnectClass.pika]
  | false => simp [ConnectClass.pika]

/-- The channel on which line `i` of a pass is sent. -/
def channelAt (ch : Option Channel) (r : ℕ → SendReplies) : ℕ → Option Channel
  | 0 => ch
  | i + 1 => sendChannel (channelAt ch r i) (r i)

/-- Whether the call of `kirimdatakeserver` for line `i` of a pass ends with a
confirmed publish. -/
def sent (ch : Option Channel) (r : ℕ → SendReplies) (i : ℕ) : Bool :=
  confirms (channelAt ch r i) (r i)

/-- The lines of a pass whose call of `kirimdatakeserver` did not end with a
confirmed publish, each by the calls made from the state it is sent in. -/
def unsent (r : ℕ → SendReplies) : List α → ConnectClass α → List α
  | [], _ => []
  | line :: rest, s =>
      (if endsConfirmed s (r 0) line then [] else [line]) ++
        unsent (fun i => r (i + 1)) rest ((sendLine (r 0) line).final s)

/-- The lines of a pass whose call ended with a confirmed publish. -/
def confirmedLines : Option Channel → (ℕ → SendReplies) → List α → List α
  | _, _, [] => []
  | ch, r, line :: rest =>
      (if confirms ch (r 0) then [line] else []) ++
        confirmedLines (sendChannel ch (r 0)) (fun i => r (i + 1)) rest

theorem channelAt_succ' (ch : Option Channel) (r : ℕ → SendReplies) (i : ℕ) :
    channelAt ch r (i + 1) = channelAt (sendChannel ch (r 0)) (fun j => r (j + 1)) i := by
  induction i with
  | zero => rfl
  | succ i ih => rw [channelAt, ih]; rfl

theorem sent_succ (ch : Option Channel) (r : ℕ → SendReplies) (i : ℕ) :
    sent ch r (i + 1) = sent (sendChannel ch (r 0)) (fun j => r (j + 1)) i := by
  rw [sent, channelAt_succ', sent]

theorem confirmedLines_sublist (ch : Option Channel) (r : ℕ → SendReplies) (lines : List α) :
    (confirmedLines ch r lines).Sublist lines := by
  induction lines generalizing ch r with
  | nil => exact List.Sublist.refl []
  | cons line rest ih =>
      have hfirst : (if confirms ch (r 0) then [line] else []).Sublist [line] := by
        split
        · exact List.Sublist.refl [line]
        · exact List.nil_sublist [line]
      exact hfirst.append (ih (sendChannel ch (r 0)) fun i => r (i + 1))

theorem confirmedLines_eq_self_iff (ch : Option Channel) (r : ℕ → SendReplies) (lines : List α) :
    confirmedLines ch r lines = lines ↔ ∀ i < lines.length, sent ch r i = true := by
  induction lines generalizing ch r with
  | nil => simp [confirmedLines]
  | cons line rest ih =>
      have hrest := ih (sendChannel ch (r 0)) fun i => r (i + 1)
      have hzero : sent ch r 0 = confirms ch (r 0) := rfl
      rw [List.length_cons, Nat.forall_lt_succ_left', hzero]
      simp only [sent_succ]
      rw [← hrest, confirmedLines]
      cases confirms ch (r 0) with
      | true => simp
      | false =>
          have hlength := (confirmedLines_sublist (sendChannel ch (r 0)) (fun i => r (i + 1))
            rest).length_le
          refine iff_of_false (fun heq => ?_) (by simp)
          have := congrArg List.length heq
          rw [if_neg (by decide), List.nil_append, List.length_cons] at this
          omega

/-- No line is left over exactly when every call ends with a confirmed
publish. -/
theorem unsent_eq_nil_iff (r : ℕ → SendReplies) (lines : List α) (s : ConnectClass α)
    (hmode : ConfirmMode s.channel) :
    unsent r lines s = [] ↔ ∀ i < lines.length, sent s.channel r i = true := by
  induction lines generalizing r s with
  | nil => simp [unsent]
  | cons line rest ih =>
      obtain ⟨log, hline⟩ := exec_sendLine (r 0) line s
      have hchannel : ((sendLine (r 0) line).final s).channel = sendChannel s.channel (r 0) := by
        rw [Stmt.final, hline]
        rfl
      have hrest := ih (fun i => r (i + 1)) ((sendLine (r 0) line).final s)
        (hchannel ▸ confirmMode_sendChannel hmode (r 0))
      have hfirst : (if endsConfirmed s (r 0) line then [] else [line]) = [] ↔
          sent s.channel r 0 = true := by
        rw [endsConfirmed_eq_confirms hmode]
        show _ ↔ confirms s.channel (r 0) = true
        cases confirms s.channel (r 0) <;> simp
      rw [unsent, List.append_eq_nil_iff, hfirst, hrest, hchannel, List.length_cons,
        Nat.forall_lt_succ_left']
      simp only [sent_succ]

theorem exec_sendLines_ok (r : ℕ → SendReplies) (lines : List α) (s : ConnectClass α) :
    ∃ t, (sendLines r lines).exec s = (.ok (), t) := by
  induction lines generalizing r s with
  | nil => exact ⟨s, rfl⟩
  | cons line rest ih =>
      obtain ⟨log, hline⟩ := exec_sendLine (r 0) line s
      obtain ⟨t, ht⟩ := ih (fun i => r (i + 1)) _
      exact ⟨t, by rw [sendLines, Stmt.exec_bind_ok hline, ht]⟩

/-- The lines the broker confirms in a pass, and the lines the pass prints, are
those whose call ended with a confirmed publish. -/
theorem exec_sendLines (r : ℕ → SendReplies) (lines : List α) (s : ConnectClass α)
    (hflag : s.dataflag = false) (hmode : ConfirmMode s.channel) :
    ∃ log es, (sendLines r lines).exec s =
        (.ok (), { s.pika (channelAt s.channel r lines.length) es with
          log := log, printed := s.printed ++ confirmedLines s.channel r lines }) ∧
      confirmedBodies es = confirmedLines s.channel r lines := by
  induction lines generalizing r s with
  | nil => exact ⟨s.log, [], by simp [sendLines, ConnectClass.pika, channelAt, confirmedLines], rfl⟩
  | cons line rest ih =>
      obtain ⟨log, hline⟩ := exec_sendLine (r 0) line s
      rw [hflag, sendFlag_of_false] at hline
      obtain ⟨log', es, hrest, hes⟩ := ih (fun i => r (i + 1))
        { s.pika (sendChannel s.channel (r 0)) (sendEvents s.channel (r 0) line) with
          dataflag := false, log := log,
          printed := s.printed ++ if confirms s.channel (r 0) then [line] else [] }
        rfl (confirmMode_sendChannel hmode (r 0))
      refine ⟨log', sendEvents s.channel (r 0) line ++ es, ?_, ?_⟩
      · rw [sendLines, Stmt.exec_bind_ok hline, hrest, confirmedLines, List.length_cons,
          channelAt_succ']
        simp [ConnectClass.pika, hflag]
      · rw [confirmedBodies_append, confirmedBodies_sendEvents hmode, hes, confirmedLines]
        rfl

/-! ### A complete pass -/

section Pass

variable {s : Process α} {name : ℕ} {lines : List α}

theorem exec_openRead (hname : s.self.filekirimsensor = some name)
    (hread : Directory.readlines s.spool name = some lines) :
    (openRead : ProcessM α (List α)).exec s = (.ok lines, s) := by
  rw [openRead, Stmt.exec_bind, Stmt.exec_get]
  simp [hname, hread]

theorem exec_openWrite {spool : SpoolDir α} (hname : s.self.filekirimsensor = some name)
    (htruncate : Directory.truncate s.spool name s.clock = some spool) :
    (openWrite : ProcessM α Unit).exec s = (.ok (), { s with spool := spool }) := by
  rw [openWrite, Stmt.exec_bind, Stmt.exec_get]
  simp [hname, htruncate]

/-- A pass over a file that can be read: the file is truncated, and then its
lines are sent. -/
theorem exec_sendfromlog (hname : s.self.filekirimsensor = some name)
    (hread : Directory.readlines s.spool name = some lines) (r : ℕ → SendReplies) :
    ∃ spool, Directory.truncate s.spool name s.clock = some spool ∧
      (sendfromlog r).exec s =
        (.ok (), { s with spool := spool, self := ((sendLines r lines).exec s.self).2 }) := by
  obtain ⟨spool, htruncate⟩ := Directory.exists_truncate_of_readlines hread s.clock
  obtain ⟨t, ht⟩ := exec_sendLines_ok r lines s.self
  refine ⟨spool, htruncate, ?_⟩
  rw [sendfromlog, Stmt.exec_tryCatch, Stmt.exec_bind_ok (exec_openRead hname hread),
    Stmt.exec_bind_ok (exec_openWrite hname htruncate), onSelf]
  simp [ht]

/-- Whatever the replies, a pass leaves its file empty: nothing is ever written
back. -/
theorem lines_sendfromlog (hname : s.self.filekirimsensor = some name)
    (hread : Directory.readlines s.spool name = some lines) (r : ℕ → SendReplies) :
    Directory.lines ((sendfromlog r).final s).spool name = [] := by
  obtain ⟨spool, htruncate, hpass⟩ := exec_sendfromlog hname hread r
  rw [Stmt.final, hpass]
  simp [Directory.lines_truncate htruncate]

/-- A pass leaves in the file exactly the lines that were not sent if and only if
there are none: every call of `kirimdatakeserver` ends with a confirmed publish. -/
theorem lines_sendfromlog_eq_unsent_iff (hname : s.self.filekirimsensor = some name)
    (hread : Directory.readlines s.spool name = some lines) (hmode : ConfirmMode s.self.channel)
    (r : ℕ → SendReplies) :
    Directory.lines ((sendfromlog r).final s).spool name = unsent r lines s.self ↔
      ∀ i < lines.length, sent s.self.channel r i = true := by
  rw [lines_sendfromlog hname hread, eq_comm]
  exact unsent_eq_nil_iff r lines s.self hmode

end Pass

/-- A line of the spool. -/
def isiContoh : String := "\x7b\"device_id\": \"Ruang Instrument\"\x7d"

/-- A service whose spool file of day `0` holds one record, over a channel. -/
def oneRecord (ch : Option Channel) : Process String where
  self := ⟨false, ch, some 0, [], [], []⟩
  spool := AList.singleton 0 (.file [isiContoh] 0)
  clock := second

theorem lines_sendfromlog_eq_unsent_iff_oneRecord :
    Directory.lines
          ((sendfromlog fun _ => .all .ok).final (oneRecord (some ⟨true, true⟩))).spool 0 =
        unsent (fun _ => .all .ok) [isiContoh] (oneRecord (some ⟨true, true⟩)).self ↔
      ∀ i < 1, sent (some ⟨true, true⟩) (fun _ => .all .ok) i = true :=
  @lines_sendfromlog_eq_unsent_iff _ (oneRecord (some ⟨true, true⟩)) _ _ rfl rfl
    (by rintro k ⟨⟩ -; rfl) fun _ => .all .ok

/-- With no broker, the record is neither sent nor kept. -/
theorem sendfromlog_drops_unsent :
    ¬∀ (s : Process String) (name : ℕ) (lines : List String) (r : ℕ → SendReplies),
      s.self.filekirimsensor = some name → Directory.readlines s.spool name = some lines →
        ConfirmMode s.self.channel →
          Directory.lines ((sendfromlog r).final s).spool name = unsent r lines s.self := by
  intro hkept
  have hone := hkept (oneRecord none) 0 _ (fun _ => .all .error) rfl rfl (by rintro k ⟨⟩)
  revert hone
  decide

end EmsGateway.Connect
