import EmsGateway.Collect.Sweep
import EmsGateway.Library.Aging
import EmsGateway.Library.Machine

/-!
The room logs over whole runs. A call of `parse_datalog` appends its line and then
looks at every file of the directory; the clock may advance between any two of its
operations, and no other process works on the directory.
-/

namespace EmsGateway.Collect

open EmsGateway.Library

/-- Where a call of `parse_datalog` stands, by the next line of collect.py it
executes. -/
inductive LogPc (δ : Type)
  /-- between two calls -/
  | idle
  /-- lines 56-58, with the name of the file -/
  | write (filesensor : String × ℕ) (data : δ)
  /-- line 34 -/
  | listdir
  /-- line 36, with the time at which the clean-up began and the names still to be
  looked at -/
  | stat (mulai : ℕ) (names : List (String × ℕ))
  /-- line 37, for a file that was found expired -/
  | remove (mulai : ℕ) (name : String × ℕ) (names : List (String × ℕ))
  deriving DecidableEq

inductive LogAction (δ : Type)
  /-- the clock advances -/
  | tick (dt : ℕ)
  /-- line 52, in a call of `parse_datalog` -/
  | parseDatalog (data : δ) (id_perangkat : String)
  | write
  | listdir (names : List (String × ℕ))
  | stat
  | remove
  /-- line 38 -/
  | listed
  deriving DecidableEq

structure RoomLogs (δ : Type) where
  clock : ℕ
  datalog : Directory (String × ℕ) δ
  pc : LogPc δ
  /-- the lines written, with their files and times -/
  ditulis : List (Written (String × ℕ) δ)
  /-- when the last clean-up that is over began -/
  bersih : Option ℕ

variable {δ : Type}

/-- Nothing written yet. -/
def RoomLogs.init (clock : ℕ) (datalog : Directory (String × ℕ) δ) : RoomLogs δ :=
  ⟨clock, datalog, .idle, [], none⟩

/-- A step of a call whose file operations do not raise. -/
def RoomLogs.step (s : RoomLogs δ) (a : LogAction δ) : Option (RoomLogs δ) :=
  match s.pc, a with
  | _, .tick dt => some { s with clock := s.clock + dt }
  | .idle, .parseDatalog data id_perangkat =>
      some { s with pc := .write (id_perangkat, tanggalsekarang s.clock) data }
  | .write filesensor data, .write =>
      match Directory.appendLine s.datalog filesensor data s.clock with
      | some datalog => some { s with
          datalog := datalog
          pc := .listdir
          ditulis := s.ditulis ++ [⟨filesensor, s.clock, data⟩] }
      | none => none
  | .listdir, .listdir names =>
      if names.Perm s.datalog.keys then some { s with pc := .stat s.clock names } else none
  | .stat mulai (name :: names), .stat =>
      match (s.datalog.lookup name).bind (expiredFile? · 7 s.clock) with
      | some true => some { s with pc := .remove mulai name names }
      | some false => some { s with pc := .stat mulai names }
      | none => none
  | .remove mulai name names, .remove =>
      some { s with pc := .stat mulai names, datalog := s.datalog.erase name }
  | .stat mulai [], .listed => some { s with pc := .idle, bersih := some mulai }
  | _, _ => none

def roomLogs : Machine (RoomLogs δ) (LogAction δ) where
  step := RoomLogs.step

/-! ### What a step does -/

/-- Every entry of the directory is a regular file. -/
def OnlyFiles (d : Directory (String × ℕ) δ) : Prop :=
  ∀ name e, d.lookup name = some e → e.isfile = true

theorem onlyFiles_empty : OnlyFiles (∅ : Directory (String × ℕ) δ) := by
  intro name e hlookup
  simp at hlookup

theorem OnlyFiles.insert {d : Directory (String × ℕ) δ} (h : OnlyFiles d) (name : String × ℕ)
    (lines : List δ) (mtime : ℕ) : OnlyFiles (d.insert name (.file lines mtime)) := by
  intro n e hlookup
  by_cases hn : n = name
  · subst hn
    rw [AList.lookup_insert] at hlookup
    rw [← Option.some.inj hlookup]
    rfl
  · rw [AList.lookup_insert_ne hn] at hlookup
    exact h n e hlookup

theorem OnlyFiles.erase {d : Directory (String × ℕ) δ} (h : OnlyFiles d) (name : String × ℕ) :
    OnlyFiles (d.erase name) := by
  intro n e hlookup
  by_cases hn : n = name
  · subst hn
    rw [AList.lookup_erase] at hlookup
    cases hlookup
  · rw [AList.lookup_erase_ne hn] at hlookup
    exact h n e hlookup

/-- The steps of a call by what they do. -/
inductive LogEffect (s : RoomLogs δ) : RoomLogs δ → Prop
  | tick (dt : ℕ) : LogEffect s { s with clock := s.clock + dt }
  | call (filesensor : String × ℕ) (data : δ) (hpc : s.pc = .idle) :
      LogEffect s { s with pc := .write filesensor data }
  | write (filesensor : String × ℕ) (data : δ) (hpc : s.pc = .write filesensor data) :
      LogEffect s { s with
        datalog := s.datalog.insert filesensor
          (.file (Directory.lines s.datalog filesensor ++ [data]) s.clock)
        pc := .listdir
        ditulis := s.ditulis ++ [⟨filesensor, s.clock, data⟩] }
  | listdir (names : List (String × ℕ)) (hpc : s.pc = .listdir)
      (hnames : names.Perm s.datalog.keys) : LogEffect s { s with pc := .stat s.clock names }
  | expired (mulai : ℕ) (name : String × ℕ) (names : List (String × ℕ)) (mtime : ℕ)
      (hpc : s.pc = .stat mulai (name :: names))
      (hmtime : Directory.modified s.datalog name = some mtime)
      (hexpired : mtime + 7 * day < s.clock) :
      LogEffect s { s with pc := .remove mulai name names }
  | young (mulai : ℕ) (name : String × ℕ) (names : List (String × ℕ))
      (hpc : s.pc = .stat mulai (name :: names))
      (hyoung : ∀ mtime, Directory.modified s.datalog name = some mtime →
        s.clock ≤ mtime + 7 * day) :
      LogEffect s { s with pc := .stat mulai names }
  | remove (mulai : ℕ) (name : String × ℕ) (names : List (String × ℕ))
      (hpc : s.pc = .remove mulai name names) :
      LogEffect s { s with pc := .stat mulai names, datalog := s.datalog.erase name }
  | listed (mulai : ℕ) (hpc : s.pc = .stat mulai []) :
      LogEffect s { s with pc := .idle, bersih := some mulai }

theorem logEffect_of_step {s s' : RoomLogs δ} {a : LogAction δ} (h : roomLogs.step s a = some s') :
    LogEffect s s' := by
  change s.step a = some s' at h
  unfold RoomLogs.step at h
  split at h
  case h_1 => exact Option.some.inj h ▸ .tick _
  case h_2 hpc => exact Option.some.inj h ▸ .call _ _ hpc
  case h_3 hpc =>
      split at h
      case h_1 hwrite =>
          rw [Directory.eq_insert_of_appendLine hwrite] at h
          exact Option.some.inj h ▸ .write _ _ hpc
      case h_2 => cases h
  case h_4 hpc =>
      split at h
      · rename_i hnames
        exact Option.some.inj h ▸ .listdir _ hpc hnames
      · cases h
  case h_5 hpc =>
      split at h
      case h_1 htest =>
          obtain ⟨mtime, hmtime, hexpired⟩ := exists_modified_of_expired htest
          exact Option.some.inj h ▸ .expired _ _ _ mtime hpc hmtime hexpired
      case h_2 htest =>
          exact Option.some.inj h ▸ .young _ _ _ hpc fun _ => le_of_not_expired htest
      case h_3 => cases h
  case h_6 hpc => exact Option.some.inj h ▸ .remove _ _ _ hpc
  case h_7 hpc => exact Option.some.inj h ▸ .listed _ hpc
  case h_8 => cases h

/-! ### Lines age in their files -/

/-- The room logs as aging buckets. -/
def RoomLogs.aging (s : RoomLogs δ) : Aging (String × ℕ) δ where
  now := s.clock
  content := Directory.lines s.datalog
  stamp := Directory.modified s.datalog
  written := s.ditulis

theorem aging_write (s : RoomLogs δ) (filesensor : String × ℕ) (data : δ) :
    Aging.Move (7 * day) s.aging (RoomLogs.aging { s with
      datalog := s.datalog.insert filesensor
        (.file (Directory.lines s.datalog filesensor ++ [data]) s.clock)
      pc := .listdir
      ditulis := s.ditulis ++ [⟨filesensor, s.clock, data⟩] }) := by
  have hmove : Aging.Move (7 * day) s.aging _ := .write filesensor data
  convert hmove using 1
  unfold RoomLogs.aging
  congr 1
  · ext1 f
    rw [Directory.lines_insert, Function.update_apply]
    rfl
  · ext1 f
    rw [Directory.modified_insert, Function.update_apply]
    rfl

theorem aging_remove (s : RoomLogs δ) (mulai : ℕ) (name : String × ℕ) (names : List (String × ℕ))
    {mtime : ℕ} (hmtime : Directory.modified s.datalog name = some mtime)
    (hexpired : mtime + 7 * day < s.clock) :
    Aging.Move (7 * day) s.aging
      (RoomLogs.aging { s with pc := .stat mulai names, datalog := s.datalog.erase name }) := by
  have hmove := Aging.Move.remove (r := s.aging) name mtime hmtime hexpired
  convert hmove using 1
  unfold RoomLogs.aging
  congr 1
  · ext1 f
    rw [Directory.lines_erase, Function.update_apply]
  · ext1 f
    rw [Directory.modified_erase, Function.update_apply]

/-- What holds of the room logs between any two operations. -/
structure Retained (s : RoomLogs δ) : Prop where
  files : OnlyFiles s.datalog
  kept : s.aging.Kept (7 * day)
  expired : ∀ mulai name names, s.pc = .remove mulai name names →
    ∃ mtime, Directory.modified s.datalog name = some mtime ∧ mtime + 7 * day < s.clock

theorem retained_init {datalog : Directory (String × ℕ) δ} (clock : ℕ)
    (hfiles : OnlyFiles datalog) : Retained (.init clock datalog) where
  files := hfiles
  kept := Aging.kept_of_written_eq_nil rfl
  expired := by simp [RoomLogs.init]

theorem retained_step {s s' : RoomLogs δ} (h : Retained s) (heffect : LogEffect s s') :
    Retained s' := by
  cases heffect with
  | tick dt =>
      refine ⟨h.files, Aging.kept_move h.kept (.tick dt), ?_⟩
      intro mulai name names hpc
      obtain ⟨mtime, hmtime, hexpired⟩ := h.expired mulai name names hpc
      exact ⟨mtime, hmtime, Nat.lt_add_right dt hexpired⟩
  | call filesensor data _ => exact ⟨h.files, h.kept, nofun⟩
  | write filesensor data _ =>
      exact ⟨h.files.insert _ _ _, Aging.kept_move h.kept (aging_write s filesensor data), nofun⟩
  | listdir names _ _ => exact ⟨h.files, h.kept, nofun⟩
  | expired mulai name names mtime _ hmtime hexpired =>
      refine ⟨h.files, h.kept, ?_⟩
      rintro _ _ _ ⟨⟩
      exact ⟨mtime, hmtime, hexpired⟩
  | young mulai name names _ _ => exact ⟨h.files, h.kept, nofun⟩
  | remove mulai name names hpc =>
      obtain ⟨mtime, hmtime, hexpired⟩ := h.expired mulai name names hpc
      exact ⟨h.files.erase name,
        Aging.kept_move h.kept (aging_remove s mulai name names hmtime hexpired), nofun⟩
  | listed mulai _ => exact ⟨h.files, h.kept, nofun⟩

/-! ### What a clean-up has looked at -/

/-- Of the files with these names none was last written before `mulai` less seven
days. -/
def NoneBefore (s : RoomLogs δ) (mulai : ℕ) (among : String × ℕ → Prop) : Prop :=
  ∀ f, among f → ∀ mtime, Directory.modified s.datalog f = some mtime → mulai ≤ mtime + 7 * day

/-- The names a clean-up has behind it are those of files that are young enough. -/
structure Swept (s : RoomLogs δ) : Prop where
  stat : ∀ mulai names, s.pc = .stat mulai names →
    mulai ≤ s.clock ∧ NoneBefore s mulai fun f => f ∉ names
  remove : ∀ mulai name names, s.pc = .remove mulai name names →
    mulai ≤ s.clock ∧ NoneBefore s mulai fun f => f ∉ name :: names
  idle : s.pc = .idle → ∀ mulai, s.bersih = some mulai → NoneBefore s mulai fun _ => True

theorem swept_init (clock : ℕ) (datalog : Directory (String × ℕ) δ) :
    Swept (.init clock datalog) where
  stat := by simp [RoomLogs.init]
  remove := by simp [RoomLogs.init]
  idle := by simp [RoomLogs.init]

theorem swept_step {s s' : RoomLogs δ} (h : Swept s) (heffect : LogEffect s s') : Swept s' := by
  cases heffect with
  | tick dt =>
      refine ⟨?_, ?_, h.idle⟩
      · intro mulai names hpc
        exact ⟨Nat.le_add_right_of_le (h.stat mulai names hpc).1, (h.stat mulai names hpc).2⟩
      · intro mulai name names hpc
        exact ⟨Nat.le_add_right_of_le (h.remove mulai name names hpc).1,
          (h.remove mulai name names hpc).2⟩
  | call filesensor data _ => exact ⟨by simp, by simp, by simp⟩
  | write filesensor data _ => exact ⟨by simp, by simp, by simp⟩
  | listdir names _ hnames =>
      refine ⟨?_, by simp, by simp⟩
      rintro _ _ ⟨⟩
      refine ⟨Nat.le_refl _, ?_⟩
      intro f hf mtime hmtime
      -- a name that was not listed names no file
      have hkey : f ∉ s.datalog := fun hkey => hf (hnames.mem_iff.mpr (AList.mem_keys.mp hkey))
      rw [Directory.modified, AList.lookup_eq_none.mpr hkey] at hmtime
      cases hmtime
  | expired mulai name names mtime hpc _ _ =>
      refine ⟨by simp, ?_, by simp⟩
      rintro _ _ _ ⟨⟩
      exact h.stat mulai (name :: names) hpc
  | young mulai name names hpc hyoung =>
      obtain ⟨hmulai, hbefore⟩ := h.stat mulai (name :: names) hpc
      refine ⟨?_, by simp, by simp⟩
      rintro _ _ ⟨⟩
      refine ⟨hmulai, ?_⟩
      intro f hf mtime hmtime
      by_cases hname : f = name
      · subst hname
        exact hmulai.trans (hyoung mtime hmtime)
      · exact hbefore f (by simp [hname, hf]) mtime hmtime
  | remove mulai name names hpc =>
      obtain ⟨hmulai, hbefore⟩ := h.remove mulai name names hpc
      refine ⟨?_, by simp, by simp⟩
      rintro _ _ ⟨⟩
      refine ⟨hmulai, ?_⟩
      intro f hf mtime hmtime
      -- the removed file has no stamp any more
      rw [Directory.modified_erase] at hmtime
      split at hmtime
      · cases hmtime
      · exact hbefore f (by simp [*]) mtime hmtime
  | listed mulai hpc =>
      refine ⟨by simp, by simp, ?_⟩
      rintro _ _ ⟨⟩ f _ mtime hmtime
      exact (h.stat mulai [] hpc).2 f List.not_mem_nil mtime hmtime

/-! ### Runs -/

/-- The lines that were written to a file at most seven days ago. -/
def RoomLogs.recent (s : RoomLogs δ) (f : String × ℕ) : List δ :=
  ((s.aging.writes f).filter fun w => s.clock ≤ w.time + 7 * day).map Written.item

/-- In every state of every run, from a directory of regular files only, what was
written to a room log within seven days is in it; and after a call whose clean-up
began at a time, every entry of the directory was written within seven days of
that time. -/
theorem retained_seven_days {clock : ℕ} {datalog : Directory (String × ℕ) δ}
    {as : List (LogAction δ)} {s : RoomLogs δ} (hfiles : OnlyFiles datalog)
    (hrun : roomLogs.run (.init clock datalog) as = some s) :
    (∀ f, (s.recent f).Sublist (Directory.lines s.datalog f)) ∧
    (s.pc = .idle → ∀ mulai, s.bersih = some mulai → ∀ f ∈ s.datalog.keys,
      ∃ mtime, Directory.modified s.datalog f = some mtime ∧ mulai ≤ mtime + 7 * day) := by
  have hretained : Retained s :=
    Machine.run_invariant (fun _ _ _ h hstep => retained_step h (logEffect_of_step hstep))
      (retained_init clock hfiles) hrun
  have hswept : Swept s :=
    Machine.run_invariant (fun _ _ _ h hstep => swept_step h (logEffect_of_step hstep))
      (swept_init clock datalog) hrun
  refine ⟨hretained.kept.young_sublist, ?_⟩
  intro hidle mulai hmulai f hf
  obtain ⟨e, he⟩ := Option.isSome_iff_exists.mp (AList.lookup_isSome.mpr (AList.mem_keys.mpr hf))
  have hfile := hretained.files f e he
  cases e with
  | file lines mtime =>
      have hmtime : Directory.modified s.datalog f = some mtime := by
        rw [Directory.modified, he]
        rfl
      exact ⟨mtime, hmtime, hswept.idle hidle mulai hmulai f trivial mtime hmtime⟩
  | folder mtime => cases hfile
  | dangling => cases hfile

/-- Two calls eight days apart: the clean-up of the second removes the file of the
first. -/
def eightDaysLater : List (LogAction String) :=
  [.parseDatalog "1" "Ruang", .write, .listdir [("Ruang", 0)], .stat, .listed, .tick (8 * day),
    .parseDatalog "2" "Ruang", .write, .listdir [("Ruang", 0), ("Ruang", 8)], .stat, .remove,
    .stat, .listed]

theorem retained_seven_days_eightDaysLater :
    ∃ s, roomLogs.run (.init 0 ∅) eightDaysLater = some s ∧
      (∀ f, (s.recent f).Sublist (Directory.lines s.datalog f)) ∧
      (s.pc = .idle → ∀ mulai, s.bersih = some mulai → ∀ f ∈ s.datalog.keys,
        ∃ mtime, Directory.modified s.datalog f = some mtime ∧ mulai ≤ mtime + 7 * day) :=
  ⟨_, rfl, @retained_seven_days String 0 ∅ eightDaysLater _ onlyFiles_empty rfl⟩

/-! ### The steps of a call -/

/-- The steps of a clean-up over the names, all at one time. -/
def cleanSteps (clock : ℕ) : Directory (String × ℕ) δ → List (String × ℕ) → List (LogAction δ)
  | _, [] => [.listed]
  | d, name :: names =>
      match (d.lookup name).bind (expiredFile? · 7 clock) with
      | some true => .stat :: .remove :: cleanSteps clock (d.erase name) names
      | some false => .stat :: cleanSteps clock d names
      | none => []

/-- The loop of `deletefilelog` over one more regular file, when nothing raises. -/
theorem final_files_cons {d : Directory (String × ℕ) δ} {name : String × ℕ} {lines : List δ}
    {mtime : ℕ} (hlookup : d.lookup name = some (.file lines mtime)) (clock : ℕ)
    (names : List (String × ℕ)) :
    (Deletefilelog.files PyError.osError 7 (.calm clock) (name :: names)).final d =
      (Deletefilelog.files PyError.osError 7 (.calm clock) names).final
        (if mtime + 7 * day < clock then d.erase name else d) := by
  have hexpired : Expired 7 clock mtime ↔ mtime + 7 * day < clock := by
    rw [← expired_natCast, Nat.cast_ofNat]
  have hraises : Deletefilelog.raises 7 (.calm clock) d name = false := by
    simp [Deletefilelog.raises, hlookup, Meets.calm]
  have hremovable : Deletefilelog.removable 7 (.calm clock) d name =
      decide (mtime + 7 * day < clock) := by
    simp [Deletefilelog.removable, hlookup, Meets.calm, hexpired]
  rw [Deletefilelog.files, Stmt.final, Stmt.exec_bind, Deletefilelog.exec_file, hraises,
    hremovable]
  simp only [Bool.false_eq_true, if_false, decide_eq_true_eq]
  rfl

theorem cleanSteps_cons {d : Directory (String × ℕ) δ} {name : String × ℕ} {lines : List δ}
    {mtime : ℕ} (hlookup : d.lookup name = some (.file lines mtime)) (clock : ℕ)
    (names : List (String × ℕ)) :
    cleanSteps clock d (name :: names) =
      if mtime + 7 * day < clock then .stat :: .remove :: cleanSteps clock (d.erase name) names
      else .stat :: cleanSteps clock d names := by
  rw [cleanSteps, hlookup, Option.bind_some, expiredFile?_file]
  by_cases hexpired : mtime + 7 * day < clock
  · rw [decide_eq_true hexpired, if_pos hexpired]
  · rw [decide_eq_false hexpired, if_neg hexpired]

theorem step_stat_file {s : RoomLogs δ} {mulai : ℕ} {name : String × ℕ}
    {names : List (String × ℕ)} {lines : List δ} {mtime : ℕ}
    (hpc : s.pc = .stat mulai (name :: names))
    (hlookup : s.datalog.lookup name = some (.file lines mtime)) :
    roomLogs.step s .stat = some { s with
      pc := if mtime + 7 * day < s.clock then .remove mulai name names
        else .stat mulai names } := by
  change s.step .stat = _
  simp only [RoomLogs.step, hpc, hlookup, Option.bind_some, expiredFile?_file]
  by_cases hexpired : mtime + 7 * day < s.clock
  · rw [decide_eq_true hexpired, if_pos hexpired]
  · rw [decide_eq_false hexpired, if_neg hexpired]

theorem run_cleanSteps {s : RoomLogs δ} {mulai : ℕ} {names : List (String × ℕ)}
    (hpc : s.pc = .stat mulai names) (hfiles : OnlyFiles s.datalog) (hnodup : names.Nodup)
    (hkeys : ∀ name ∈ names, name ∈ s.datalog) :
    roomLogs.run s (cleanSteps s.clock s.datalog names) = some { s with
      pc := .idle
      bersih := some mulai
      datalog :=
        (Deletefilelog.files PyError.osError 7 (.calm s.clock) names).final s.datalog } := by
  induction names generalizing s with
  | nil =>
      rw [cleanSteps, Machine.run_cons_eq_some]
      refine ⟨_, ?_, rfl⟩
      change s.step .listed = _
      simp only [RoomLogs.step, hpc]
      rfl
  | cons name names ih =>
      obtain ⟨hname, hnodup⟩ := List.nodup_cons.mp hnodup
      obtain ⟨hkey, hkeys⟩ := List.forall_mem_cons.mp hkeys
      obtain ⟨e, hlookup⟩ := Option.isSome_iff_exists.mp (AList.lookup_isSome.mpr hkey)
      have hfile := hfiles name e hlookup
      cases e with
      | file lines mtime =>
          have hstep := step_stat_file hpc hlookup
          rw [final_files_cons hlookup, cleanSteps_cons hlookup]
          by_cases hexpired : mtime + 7 * day < s.clock
          · rw [if_pos hexpired] at hstep
            rw [if_pos hexpired, if_pos hexpired, Machine.run_cons_eq_some]
            refine ⟨_, hstep, Machine.run_cons_eq_some.mpr ⟨_, rfl, ?_⟩⟩
            refine ih rfl (hfiles.erase name) hnodup fun n hn => ?_
            exact AList.mem_erase.mpr ⟨ne_of_mem_of_not_mem hn hname, hkeys n hn⟩
          · rw [if_neg hexpired] at hstep
            rw [if_neg hexpired, if_neg hexpired, Machine.run_cons_eq_some]
            exact ⟨_, hstep, ih rfl hfiles hnodup hkeys⟩
      | folder mtime => cases hfile
      | dangling => cases hfile

/-- What a call of `parse_datalog` leaves when its line was written. -/
theorem datalog_parseDatalog {saat : Saat} (hcatat : saat.catat = .ok) (data : δ)
    (id_perangkat : String) {p : ParseClass δ} {written : Directory (String × ℕ) δ}
    (hwritten : Directory.appendLine p.datalog (id_perangkat, tanggalsekarang saat.clock) data
      saat.clock = some written) :
    ((parseDatalog saat data id_perangkat).final p).datalog =
      (Deletefilelog.files PyError.osError 7 saat.hapus saat.daftar).final written := by
  have hwrite : writeLine p.datalog (id_perangkat, tanggalsekarang saat.clock) data saat.clock
      saat.catat = (written, true) := by
    rw [hcatat, writeLine, hwritten]
  rw [parseDatalog, Stmt.final, Stmt.exec_tryCatch]
  simp only [Stmt.exec_bind, Stmt.exec_get, Stmt.exec_modify, hwrite, if_true, deletefilelog,
    Stmt.exec_tryCatch, Stmt.exec_within, Stmt.final]
  cases ((Deletefilelog.files PyError.osError 7 saat.hapus saat.daftar).exec written).1 with
  | ok u => rfl
  | error e => rfl

/-- Taken one after the other at one time, the steps of a call leave the directory
that `parse_datalog` leaves when nothing in it raises. -/
theorem run_parseDatalog {s : RoomLogs δ} (hpc : s.pc = .idle) (hfiles : OnlyFiles s.datalog)
    (data : δ) (id_perangkat : String) {names : List (String × ℕ)}
    {written : Directory (String × ℕ) δ}
    (hwritten : Directory.appendLine s.datalog (id_perangkat, tanggalsekarang s.clock) data
      s.clock = some written)
    (hnames : names.Perm written.keys) {p : ParseClass δ} (hp : p.datalog = s.datalog)
    (kirim : WriteReply) :
    roomLogs.run s ([.parseDatalog data id_perangkat, .write, .listdir names] ++
        cleanSteps s.clock written names) = some { s with
      pc := .idle
      bersih := some s.clock
      ditulis := s.ditulis ++ [⟨(id_perangkat, tanggalsekarang s.clock), s.clock, data⟩]
      datalog := ((parseDatalog ⟨s.clock, .ok, kirim, names, .calm s.clock⟩ data
        id_perangkat).final p).datalog } := by
  rw [datalog_parseDatalog rfl data id_perangkat (hp ▸ hwritten)]
  refine Machine.run_cons_eq_some.mpr
    ⟨{ s with pc := .write (id_perangkat, tanggalsekarang s.clock) data }, ?_, ?_⟩
  · change s.step _ = _
    simp only [RoomLogs.step, hpc]
  refine Machine.run_cons_eq_some.mpr ⟨{ s with
    datalog := written
    pc := .listdir
    ditulis := s.ditulis ++ [⟨(id_perangkat, tanggalsekarang s.clock), s.clock, data⟩] }, ?_, ?_⟩
  · simp only [roomLogs, RoomLogs.step, hwritten]
  refine Machine.run_cons_eq_some.mpr ⟨_, if_pos hnames, ?_⟩
  have hfiles' : OnlyFiles written := by
    rw [Directory.eq_insert_of_appendLine hwritten]
    exact hfiles.insert _ _ _
  apply run_cleanSteps rfl hfiles' (hnames.nodup_iff.mpr written.nodupKeys)
  intro name hname
  exact AList.mem_keys.mpr (hnames.mem_iff.mp hname)

end EmsGateway.Collect
