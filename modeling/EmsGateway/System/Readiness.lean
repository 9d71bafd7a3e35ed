import EmsGateway.System.Invariant

/-!
`ceklog` decides whether `main` forwards anything. It returns inside its loop for
whatever line comes first, so one line without a brace at the head of the file
holds back all the records behind it.
-/

namespace EmsGateway.System

open EmsGateway.Library EmsGateway.Connect

/-- The line contains the opening brace by which `ceklog` knows a record. -/
def HasBrace (line : Record) : Prop := '{' ∈ line.isi.toList

instance (line : Record) : Decidable (HasBrace line) := inferInstanceAs (Decidable (_ ∈ _))

section Ceklog

variable {g : Gateway} {name : ℕ}

theorem isfile_of_mem_lines {spool : SpoolDir Record} {line : Record}
    (h : line ∈ Directory.lines spool name) : Directory.isfile spool name = true := by
  unfold Directory.lines Directory.readlines at h
  unfold Directory.isfile
  cases hlookup : spool.lookup name with
  | none => simp [hlookup] at h
  | some e =>
      cases e with
      | file lines mtime => rfl
      | folder mtime => simp [hlookup, Entry.lines?] at h
      | dangling => simp [hlookup, Entry.lines?] at h

theorem ceklogLines_eq_true_iff (lines : List Record) :
    ceklogLines Record.isi lines = some true ↔ ∃ line ∈ lines.head?, HasBrace line := by
  cases lines with
  | nil => simp [ceklogLines]
  | cons line rest =>
      by_cases hbrace : '{' ∈ line.isi.toList
      · simp [ceklogLines, HasBrace, hbrace]
      · simp [ceklogLines, HasBrace, hbrace]

/-- `ceklog` finds the file ready when its first line contains a brace. -/
theorem ceklog_eq_true_iff (hname : g.self.filekirimsensor = some name) :
    g.ceklog.1 = some true ↔
      ∃ line ∈ (Directory.lines g.spool name).head?, HasBrace line := by
  rw [← ceklogLines_eq_true_iff]
  by_cases hfile : Directory.isfile g.spool name = true
  · simp [Gateway.ceklog, Connect.ceklog, Stmt.exec_tryCatch, Stmt.exec_bind, hname, hfile]
  · have hnil : Directory.lines g.spool name = [] := by
      refine List.eq_nil_iff_forall_not_mem.mpr fun line hline => ?_
      exact hfile (isfile_of_mem_lines hline)
    simp [Gateway.ceklog, Connect.ceklog, Stmt.exec_tryCatch, Stmt.exec_bind, hname, hfile, hnil,
      ceklogLines]

theorem step_ceklog (hpc : g.connect = .ceklog) :
    gateway.step g (.connect .ceklog) = some { g with
      connect := if g.ceklog.1 = some true then .read else .guard, toProcess := g.ceklog.2 } := by
  change g.connectStep .ceklog = _
  simp only [Gateway.connectStep, hpc]

/-- Where `main` asks `ceklog`, having found the network up: it answers `True`
exactly when the file exists and one of its lines contains a brace, and if one
does `sendfromlog` is called. -/
structure Unblocked (g : Gateway) (name : ℕ) : Prop where
  ceklog : g.ceklog.1 = some true ↔ Directory.isfile g.spool name = true ∧
    ∃ line ∈ Directory.lines g.spool name, HasBrace line
  sendfromlog : (∃ line ∈ Directory.lines g.spool name, HasBrace line) →
    ∃ g', gateway.step g (.connect .ceklog) = some g' ∧ g'.connect = .read

theorem unblocked_of_first (hpc : g.connect = .ceklog) (hname : g.self.filekirimsensor = some name)
    (hfirst : (∃ line ∈ Directory.lines g.spool name, HasBrace line) →
      ∃ line ∈ (Directory.lines g.spool name).head?, HasBrace line) : Unblocked g name := by
  refine ⟨?_, ?_⟩
  · rw [ceklog_eq_true_iff hname]
    constructor
    · rintro ⟨line, hhead, hbrace⟩
      have hmem := List.mem_of_head? hhead
      exact ⟨isfile_of_mem_lines hmem, line, hmem, hbrace⟩
    · rintro ⟨-, hline⟩
      exact hfirst hline
  · intro hline
    refine ⟨_, step_ceklog hpc, ?_⟩
    exact if_pos ((ceklog_eq_true_iff hname).mpr (hfirst hline))

/-- The records of a file are not held back if and only if none of its lines
contains a brace or its first line does. -/
theorem unblocked_iff (hpc : g.connect = .ceklog) (hname : g.self.filekirimsensor = some name) :
    Unblocked g name ↔ ((∃ line ∈ Directory.lines g.spool name, HasBrace line) →
      ∃ line ∈ (Directory.lines g.spool name).head?, HasBrace line) := by
  constructor
  · rintro ⟨hceklog, -⟩ ⟨line, hmem, hbrace⟩
    apply (ceklog_eq_true_iff hname).mp
    exact hceklog.mpr ⟨isfile_of_mem_lines hmem, line, hmem, hbrace⟩
  · exact unblocked_of_first hpc hname

end Ceklog

/-- `main` about to look at a file of these lines. -/
def beforeCeklog (lines : List String) : Gateway :=
  { Gateway.init 0 with
    connect := .ceklog
    self := { (Gateway.init 0).self with filekirimsensor := some 0 }
    spool := AList.insert 0 (.file (lines.map fun isi => ⟨0, 0, 0, isi⟩) 0) ∅ }

theorem unblocked_iff_recordFirst :
    Unblocked (beforeCeklog [isiContoh, ""]) 0 ↔
      ((∃ line ∈ Directory.lines (beforeCeklog [isiContoh, ""]).spool 0, HasBrace line) →
        ∃ line ∈ (Directory.lines (beforeCeklog [isiContoh, ""]).spool 0).head?, HasBrace line) :=
  unblocked_iff rfl rfl

/-- A blank line stands before a record. -/
theorem blank_blocks :
    ¬∀ (g : Gateway) (name : ℕ), g.connect = .ceklog → g.self.filekirimsensor = some name →
      Unblocked g name := by
  intro hall
  have hready := (hall (beforeCeklog ["", isiContoh]) 0 rfl rfl).ceklog
  revert hready
  decide

/-! ### Spools of whole records -/

/-- The texts given to `datakirim` contain a brace. -/
def SpoolsRecords (_ : Gateway) : Action → Prop
  | .datakirim isi => '{' ∈ isi.toList
  | _ => True

/-- All lines appended, and the one under way, contain a brace. -/
structure Braced (g : Gateway) : Prop where
  appended : ∀ x ∈ g.appended, HasBrace x
  writing : ∀ tanggal isi, g.collect = .writing tanggal isi → '{' ∈ isi.toList

theorem braced_step {g g' : Gateway} {a : Action} (h : Braced g) (hrecords : SpoolsRecords g a)
    (heffect : Effect g a g') : Braced g' := by
  cases heffect with
  | datakirim isi _ =>
      refine ⟨h.appended, ?_⟩
      rintro tanggal isi' ⟨⟩
      exact hrecords
  | write w tanggal isi hcollect =>
      refine ⟨?_, by simp [Gateway.write]⟩
      rcases write_cases g tanggal isi w with ⟨happended, -⟩ | ⟨happended, -⟩
      · rw [happended]
        intro x hx
        rcases List.mem_append.mp hx with hx | hx
        · exact h.appended x hx
        · rw [List.mem_singleton.mp hx]
          exact h.writing tanggal isi hcollect
      · rw [happended]
        exact h.appended
  | reboot ping₁ ping₂ _ => exact ⟨h.appended, by simp⟩
  | reping => exact h
  | tick | start | folder | read | truncate | send | expired | remove | quiet | killConnect
  | killSending => exact ⟨h.appended, h.writing⟩

/-- As long as only whole records are spooled no file is ever blocked. -/
theorem unblocked_of_records {clock : ℕ} {as : List Action} {g : Gateway} {name : ℕ}
    (hrecords : gateway.Along SpoolsRecords (.init clock) as)
    (hrun : gateway.run (.init clock) as = some g) (hpc : g.connect = .ceklog)
    (hname : g.self.filekirimsensor = some name) : Unblocked g name := by
  have hbraced : Braced g := by
    refine hrecords.run_invariant ?_ ⟨by simp [Gateway.init], by simp [Gateway.init]⟩ hrun
    intro s a t hs hrecord hstep
    exact braced_step hs hrecord (effect_of_step hstep)
  refine unblocked_of_first hpc hname ?_
  rintro ⟨line, hmem, -⟩
  have hne := List.ne_nil_of_mem hmem
  refine ⟨_, List.head?_eq_some_head hne, hbraced.appended _ ?_⟩
  exact ((valid_of_run hrun).relay.stored.produced name _ (List.head_mem hne)).1

end EmsGateway.System
