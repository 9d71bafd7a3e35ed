import EmsGateway.Collect.Interval
import EmsGateway.System.Invariant

/-!
The functions of the two services when nothing interrupts them. The two steps of
a `datakirim` together are `datakirim`, and the steps of a pass, from the reading
of the file to the end of the loop, together are `sendfromlog`.
-/

namespace EmsGateway.System

open EmsGateway.Library EmsGateway.Connect

/-- The two steps of a `datakirim` leave the spool that `datakirim` leaves, and
they append the record exactly when it returns the name of the file. -/
theorem run_datakirim {g : Gateway} (hidle : g.collect = .idle) (isi : String) (w : WriteReply)
    {s : Collect.ParseClass Record} (hspool : s.spool = g.spool) :
    ∃ file t g', (Collect.datakirim g.clock w (g.record (tanggalsekarang g.clock) isi)).exec s =
        (.ok file, t) ∧
      gateway.run g [.datakirim isi, .write w] = some g' ∧ g'.spool = t.spool ∧
      g'.appended = g.appended ++
        (file.map fun _ => g.record (tanggalsekarang g.clock) isi).toList := by
  obtain ⟨log, hkirim⟩ :=
    Collect.exec_datakirim g.clock w (g.record (tanggalsekarang g.clock) isi) s
  have hstep : gateway.step g (.datakirim isi) =
      some { g with collect := .writing (tanggalsekarang g.clock) isi } := by
    show g.step (.datakirim isi) = _
    simp only [Gateway.step, hidle]
  refine ⟨_, _, _, hkirim, Machine.run_cons_eq_some.mpr ⟨_, hstep, rfl⟩, ?_, ?_⟩
  · rw [hspool]
    rfl
  · rw [hspool]
    show (if _ then _ else _) = _
    split
    case isTrue hwritten =>
        rw [if_pos]
        · rfl
        · exact hwritten
    case isFalse hwritten =>
        rw [if_neg]
        · exact (List.append_nil g.appended).symm
        · exact hwritten

section Steps

variable {g : Gateway} {name : ℕ} {lines : List Record} {spool : SpoolDir Record}

theorem step_read (hpc : g.connect = .read) (hname : g.self.filekirimsensor = some name)
    (hread : Directory.readlines g.spool name = some lines) :
    gateway.step g (.connect .read) = some { g with connect := .truncate lines } := by
  show g.connectStep .read = _
  have hopen := exec_openRead hname hread
  simp only [Gateway.connectStep, hpc, hopen]

theorem step_truncate (hpc : g.connect = .truncate lines)
    (hname : g.self.filekirimsensor = some name)
    (htruncate : Directory.truncate g.spool name g.clock = some spool) :
    gateway.step g (.connect .truncate) =
      some { g with connect := .sending lines, spool := spool } := by
  show g.connectStep .truncate = _
  have hopen := exec_openWrite hname htruncate
  simp only [Gateway.connectStep, hpc, hopen]

theorem step_send {line : Record} {rest : List Record} (hpc : g.connect = .sending (line :: rest))
    (r : SendReplies) :
    gateway.step g (.connect (.send r)) = some { g with
      connect := .sending rest
      self := (sendLine r line).final g.self
      handed := g.handed ++ [line] } := by
  show g.connectStep (.send r) = _
  simp only [Gateway.connectStep, hpc]

theorem step_sent (hpc : g.connect = .sending []) :
    gateway.step g (.connect .sent) = some { g with connect := .guard } := by
  show g.connectStep .sent = _
  simp only [Gateway.connectStep, hpc]

end Steps

/-- Hand over the next `n` lines; `r i` are the replies met while line `i` is
sent. -/
def sends (r : ℕ → SendReplies) : ℕ → List Action
  | 0 => []
  | n + 1 => .connect (.send (r 0)) :: sends (fun i => r (i + 1)) n

/-- The steps of a pass up to its truncating open. -/
def opens : List Action := [.connect .read, .connect .truncate]

/-- The steps of a pass over a file of `n` lines. -/
def passSteps (r : ℕ → SendReplies) (n : ℕ) : List Action :=
  opens ++ sends r n ++ [.connect .sent]

theorem length_sends (r : ℕ → SendReplies) (n : ℕ) : (sends r n).length = n := by
  induction n generalizing r with
  | zero => rfl
  | succ n ih => rw [sends, List.length_cons, ih]

theorem length_opens_sends (r : ℕ → SendReplies) (n : ℕ) : (opens ++ sends r n).length = n + 2 := by
  rw [List.length_append, length_sends]
  exact Nat.add_comm 2 n

theorem take_sends (r : ℕ → SendReplies) (k n : ℕ) (hk : k ≤ n) :
    (sends r n).take k = sends r k := by
  induction k generalizing r n with
  | zero => rfl
  | succ k ih =>
      obtain ⟨m, rfl⟩ : ∃ m, n = m + 1 := ⟨n - 1, by omega⟩
      rw [sends, List.take_succ_cons, ih _ m (by omega), sends]

/-- Handing over the lines `lines` is the loop of `sendfromlog` over them. -/
theorem run_sends {g : Gateway} {lines rest : List Record} (r : ℕ → SendReplies)
    (hpc : g.connect = .sending (lines ++ rest)) :
    gateway.run g (sends r lines.length) = some { g with
      connect := .sending rest
      self := (sendLines r lines).final g.self
      handed := g.handed ++ lines } := by
  induction lines generalizing g r with
  | nil =>
      rw [List.nil_append] at hpc
      rw [List.append_nil, ← hpc]
      rfl
  | cons line lines ih =>
      have hstep := @step_send g line (lines ++ rest) hpc (r 0)
      have hrest := ih (g := { g with
        connect := .sending (lines ++ rest)
        self := (sendLine (r 0) line).final g.self
        handed := g.handed ++ [line] }) (fun i => r (i + 1)) rfl
      have hself : (sendLines r (line :: lines)).final g.self =
          (sendLines (fun i => r (i + 1)) lines).final ((sendLine (r 0) line).final g.self) := by
        obtain ⟨log, hline⟩ := exec_sendLine (r 0) line g.self
        rw [Stmt.final, sendLines, Stmt.exec_bind_ok hline, Stmt.final, Stmt.final, hline]
      refine Machine.run_cons_eq_some.mpr ⟨_, hstep, ?_⟩
      rw [hrest, hself, ← List.append_cons]

section Pass

variable {g : Gateway} {name : ℕ} {lines : List Record}

/-- The pass up to the truncation. -/
theorem run_upToTruncate (hpc : g.connect = .read) (hname : g.self.filekirimsensor = some name)
    (hread : Directory.readlines g.spool name = some lines) :
    ∃ spool, Directory.truncate g.spool name g.clock = some spool ∧
      gateway.run g opens =
        some { g with connect := .sending lines, spool := spool } := by
  obtain ⟨spool, htruncate⟩ := Directory.exists_truncate_of_readlines hread g.clock
  refine ⟨spool, htruncate, ?_⟩
  refine Machine.run_cons_eq_some.mpr ⟨_, step_read hpc hname hread, ?_⟩
  refine Machine.run_cons_eq_some.mpr ⟨_, step_truncate rfl hname htruncate, ?_⟩
  rfl

/-- The pass up to the handing over of its first `k` lines. -/
theorem run_upToSends (hpc : g.connect = .read) (hname : g.self.filekirimsensor = some name)
    (hread : Directory.readlines g.spool name = some lines) (r : ℕ → SendReplies) (k : ℕ)
    (hk : k ≤ lines.length) :
    ∃ spool, Directory.truncate g.spool name g.clock = some spool ∧
      gateway.run g (opens ++ sends r k) = some { g with
        connect := .sending (lines.drop k)
        spool := spool
        self := (sendLines r (lines.take k)).final g.self
        handed := g.handed ++ lines.take k } := by
  obtain ⟨spool, htruncate, hrun⟩ := run_upToTruncate hpc hname hread
  have hlines : lines = lines.take k ++ lines.drop k := (List.take_append_drop k lines).symm
  have hsends := @run_sends { g with connect := .sending lines, spool := spool } (lines.take k)
    (lines.drop k) r (congrArg ConnectPc.sending hlines)
  rw [List.length_take_of_le hk] at hsends
  exact ⟨spool, htruncate, Machine.run_append_eq_some.mpr ⟨_, hrun, hsends⟩⟩

/-- The steps of a pass, taken without interruption, do to the process what
`sendfromlog` does. -/
theorem run_passSteps (hpc : g.connect = .read) (hname : g.self.filekirimsensor = some name)
    (hread : Directory.readlines g.spool name = some lines) (r : ℕ → SendReplies) :
    gateway.run g (passSteps r lines.length) = some { g with
      toProcess := (sendfromlog r).final g.toProcess
      connect := .guard
      handed := g.handed ++ lines } := by
  obtain ⟨spool, htruncate, hrun⟩ := run_upToSends hpc hname hread r lines.length le_rfl
  obtain ⟨spool', htruncate', hpass⟩ := exec_sendfromlog hname hread r
  obtain rfl : spool = spool' := Option.some.inj (htruncate.symm.trans htruncate')
  rw [List.drop_length, List.take_length] at hrun
  rw [passSteps, Stmt.final, hpass]
  exact Machine.run_concat_eq_some.mpr ⟨_, hrun, step_sent rfl⟩

end Pass

end EmsGateway.System
