import EmsGateway.Library.Relay
import EmsGateway.System.Gateway

/-!
What a step of the gateway can do. Every invariant is proved from this one
inversion: the steps that write, read, truncate or remove a spool file or hand a
line over are listed with what they do, and all the others are quiet.
-/

namespace EmsGateway.System

open EmsGateway.Library EmsGateway.Connect

/-- The lines the current pass has read and not yet handed over. -/
def ConnectPc.pending : ConnectPc → List Record
  | .truncate lines => lines
  | .sending rest => rest
  | _ => []

/-- The lines the current pass has in hand. They leave the file when it is
truncated. -/
def ConnectPc.batch : ConnectPc → Batch Record
  | .truncate lines => .copied lines
  | .sending rest => .taken rest
  | _ => .idle

theorem ConnectPc.items_batch (pc : ConnectPc) : pc.batch.items = pc.pending := by
  cases pc <;> rfl

/-- Between the test and the removal of an expired file. -/
def ConnectPc.Removing : ConnectPc → Prop
  | .remove _ _ => True
  | _ => False

/-- What the attributes keep in a step that hands no line over: the file, the
flag, the calls of `basic_publish`, and a channel that confirms. -/
structure Kept (s t : ConnectClass Record) : Prop where
  file : t.filekirimsensor = s.filekirimsensor
  flag : t.dataflag = s.dataflag
  publishes : publishes t.calls = publishes s.calls
  mode : ConfirmMode s.channel → ConfirmMode t.channel

theorem Kept.refl (s : ConnectClass Record) : Kept s s := ⟨rfl, rfl, rfl, id⟩

theorem kept_logException (s : ConnectClass Record) (message : String) :
    Kept s ((logException message).final s) := ⟨rfl, rfl, rfl, id⟩

theorem kept_initamqp (s : ConnectClass Record) (r : AmqpReplies) :
    Kept s ((initamqp r).final s) := by
  obtain ⟨log, hamqp⟩ := exec_initamqp r s
  rw [Stmt.final, hamqp]
  exact ⟨rfl, rfl, by simp [ConnectClass.pika, publishes_amqpEvents],
    fun hmode => confirmMode_amqpChannel hmode r⟩

/-- A new object has the flag cleared and no file; its calls of `initamqp`
publish nothing. -/
theorem new_spec (r : AmqpReplies) (calls : List (Event Record)) (printed : List Record) :
    (ConnectClass.new r calls printed).filekirimsensor = none ∧
      (ConnectClass.new r calls printed).dataflag = false ∧
      publishes (ConnectClass.new r calls printed).calls = publishes calls ∧
      ConfirmMode (ConnectClass.new r calls printed).channel := by
  have hkept := kept_initamqp ⟨false, none, none, calls, printed, []⟩ r
  refine ⟨hkept.file, hkept.flag, hkept.publishes, hkept.mode fun k hk => by cases hk⟩

/-- The steps of the gateway by what they do. -/
inductive Effect (g : Gateway) : Action → Gateway → Prop
  | tick (dt : ℕ) : Effect g (.tick dt) { g with clock := g.clock + dt }
  | datakirim (isi : String) (hidle : g.collect = .idle) :
      Effect g (.datakirim isi) { g with collect := .writing (tanggalsekarang g.clock) isi }
  | write (w : WriteReply) (tanggal : ℕ) (isi : String)
      (hcollect : g.collect = .writing tanggal isi) :
      Effect g (.write w) (g.write tanggal isi w)
  | start (r : AmqpReplies) (hpc : g.connect = .down) :
      Effect g (.connect (.start r)) { g with
        connect := .folder, self := .new r g.self.calls g.self.printed }
  | folder (hpc : g.connect = .folder) :
      Effect g (.connect .folder) { g with
        connect := .ping
        self := { g.self with filekirimsensor := some (tanggalsekarang g.clock) } }
  | read (name : ℕ) (lines : List Record) (hpc : g.connect = .read)
      (hname : g.self.filekirimsensor = some name)
      (hread : Directory.readlines g.spool name = some lines) :
      Effect g (.connect .read) { g with connect := .truncate lines }
  | truncate (name : ℕ) (lines : List Record) (spool : SpoolDir Record)
      (hpc : g.connect = .truncate lines) (hname : g.self.filekirimsensor = some name)
      (htruncate : Directory.truncate g.spool name g.clock = some spool) :
      Effect g (.connect .truncate) { g with connect := .sending lines, spool := spool }
  | send (r : SendReplies) (line : Record) (rest : List Record)
      (hpc : g.connect = .sending (line :: rest)) :
      Effect g (.connect (.send r)) { g with
        connect := .sending rest
        self := (sendLine r line).final g.self
        handed := g.handed ++ [line] }
  | expired (name : ℕ) (names : List ℕ) (mtime : ℕ) (hpc : g.connect = .stat (name :: names))
      (hmtime : Directory.modified g.spool name = some mtime)
      (hexpired : mtime + 3 * day < g.clock) :
      Effect g (.connect (.stat true)) { g with connect := .remove name names }
  | remove (name : ℕ) (names : List ℕ) (hpc : g.connect = .remove name names) :
      Effect g (.connect (.remove true)) { g with
        connect := .stat names, spool := g.spool.erase name }
  | quiet (i : Input) (pc : ConnectPc) (s : ConnectClass Record)
      (hsending : ∀ rest, g.connect = .sending rest → rest = []) (hbatch : pc.batch = .idle)
      (hremoving : ¬pc.Removing) (hkept : Kept g.self s) :
      Effect g (.connect i) { g with connect := pc, self := s }
  | killConnect : Effect g .killConnect { g with connect := .down }
  | killSending (r : SendReplies) (n : ℕ) (line : Record) (rest : List Record)
      (hpc : g.connect = .sending (line :: rest)) :
      Effect g (.killSending r n) { g with
        connect := .down
        handed := g.handed ++ [line]
        self := { g.self with
          calls := g.self.calls ++ (sendEvents g.self.channel r line).take n } }
  | reboot (ping₁ ping₂ : Bool) (hreboots : reboots ping₁ ping₂ = true) :
      Effect g (.reboot ping₁ ping₂) { g with collect := .idle, connect := .down }
  | reping (ping₁ ping₂ : Bool) : Effect g (.reboot ping₁ ping₂) g

/-- What `openRead` returns are the lines of the file. -/
theorem readlines_of_openRead {s p : Process Record} {lines : List Record}
    (h : openRead.exec s = (.ok lines, p)) :
    ∃ name, s.self.filekirimsensor = some name ∧
      Directory.readlines s.spool name = some lines := by
  rw [openRead, Stmt.exec_bind, Stmt.exec_get] at h
  cases hname : s.self.filekirimsensor with
  | none => simp [hname] at h
  | some name =>
      cases hread : Directory.readlines s.spool name with
      | none => simp [hname, hread] at h
      | some lines' =>
          have hlines : lines' = lines := by simpa [hname, hread] using congrArg Prod.fst h
          exact ⟨name, rfl, hlines ▸ hread⟩

theorem truncate_of_openWrite {s p : Process Record} (h : openWrite.exec s = (.ok (), p)) :
    ∃ name spool, s.self.filekirimsensor = some name ∧
      Directory.truncate s.spool name s.clock = some spool ∧ p = { s with spool := spool } := by
  rw [openWrite, Stmt.exec_bind, Stmt.exec_get] at h
  cases hname : s.self.filekirimsensor with
  | none => simp [hname] at h
  | some name =>
      cases htruncate : Directory.truncate s.spool name s.clock with
      | none => simp [hname, htruncate] at h
      | some spool =>
          refine ⟨name, spool, rfl, htruncate, ?_⟩
          simpa [hname, htruncate] using h.symm

/-- `ceklog` changes nothing but the log. -/
theorem ceklog_kept (g : Gateway) :
    ∃ s, Kept g.self s ∧ g.ceklog.2 = { g.toProcess with self := s } := by
  cases hname : g.self.filekirimsensor with
  | none =>
      refine ⟨_, kept_logException g.self "Exception occurred ceklog", ?_⟩
      simp [Gateway.ceklog, Connect.ceklog, Stmt.exec_tryCatch, Stmt.exec_bind, hname, onSelf,
        Stmt.final, -bind_pure_comp]
      rfl
  | some name =>
      refine ⟨g.self, Kept.refl g.self, ?_⟩
      by_cases hfile : Directory.isfile g.spool name = true
      · simp [Gateway.ceklog, Connect.ceklog, Stmt.exec_tryCatch, Stmt.exec_bind, hname, hfile]
      · simp [Gateway.ceklog, Connect.ceklog, Stmt.exec_tryCatch, Stmt.exec_bind, hname, hfile]

theorem effect_of_connectStep {g g' : Gateway} {i : Input} (h : g.connectStep i = some g') :
    Effect g (.connect i) g' := by
  -- a quiet step from `pc` to `pc'` which leaves the attributes `s`
  have quiet : ∀ {pc pc' : ConnectPc} {s : ConnectClass Record}, g.connect = pc →
      (∀ rest, pc = .sending rest → rest = []) → pc'.batch = .idle → ¬pc'.Removing →
      Kept g.self s → some { g with connect := pc', self := s } = some g' →
      Effect g (.connect i) g' := by
    intro pc pc' s hpc hsending hbatch hremoving hkept hg'
    have hquiet := Effect.quiet (g := g) i pc' s (hpc ▸ hsending) hbatch hremoving hkept
    exact Option.some.inj hg' ▸ hquiet
  have hlog := kept_logException g.self
  unfold Gateway.connectStep at h
  split at h
  case h_1 r hpc => exact Option.some.inj h ▸ .start r hpc
  case h_2 hpc => exact Option.some.inj h ▸ .folder hpc
  case h_3 up hpc =>
      refine quiet hpc (by simp) ?_ ?_ (Kept.refl g.self) h
      · cases up <;> rfl
      · cases up <;> exact id
  case h_4 hpc =>
      -- what `ceklog` answers decides only between two quiet steps
      obtain ⟨s, hkept, hs⟩ := ceklog_kept g
      rw [hs] at h
      refine quiet hpc (by simp) ?_ ?_ hkept h
      · split <;> rfl
      · split <;> exact id
  case h_5 hpc =>
      split at h
      case h_1 lines p hopen =>
          obtain ⟨name, hname, hread⟩ := readlines_of_openRead hopen
          exact Option.some.inj h ▸ .read name lines hpc hname hread
      case h_2 => exact quiet hpc (by simp) rfl id (hlog _) h
  case h_6 lines hpc =>
      split at h
      case h_1 u p hopen =>
          obtain ⟨name, spool, hname, htruncate, rfl⟩ := truncate_of_openWrite hopen
          exact Option.some.inj h ▸ .truncate name lines spool hpc hname htruncate
      case h_2 => exact quiet hpc (by simp) rfl id (hlog _) h
  case h_7 line rest r hpc => exact Option.some.inj h ▸ .send r line rest hpc
  case h_8 hpc => exact quiet hpc (by simp) rfl id (Kept.refl g.self) h
  case h_9 up hpc =>
      refine quiet hpc (by simp) ?_ ?_ (Kept.refl g.self) h
      · cases up <;> rfl
      · cases up <;> exact id
  case h_10 up hpc =>
      refine quiet hpc (by simp) ?_ ?_ (Kept.refl g.self) h
      · cases up <;> rfl
      · cases up <;> exact id
  case h_11 r hpc => exact quiet hpc (by simp) rfl id (kept_initamqp g.self r) h
  case h_12 names hpc =>
      split at h
      · exact quiet hpc (by simp) rfl id (Kept.refl g.self) h
      · cases h
  case h_13 name names returns hpc =>
      split at h
      case h_1 hexpired =>
          obtain ⟨mtime, hmtime, hlt⟩ := exists_modified_of_expired hexpired
          exact Option.some.inj h ▸ .expired name names mtime hpc hmtime hlt
      case h_2 => exact quiet hpc (by simp) rfl id (Kept.refl g.self) h
      case h_3 => exact quiet hpc (by simp) rfl id (hlog _) h
  case h_14 name names returns hpc =>
      split at h
      case isTrue hremove =>
          obtain ⟨rfl, -⟩ := Bool.and_eq_true_iff.mp hremove
          exact Option.some.inj h ▸ .remove name names hpc
      case isFalse => exact quiet hpc (by simp) rfl id (hlog _) h
  case h_15 hpc => exact quiet hpc (by simp) rfl id (Kept.refl g.self) h
  case h_16 hpc => exact quiet hpc (by simp) rfl id (Kept.refl g.self) h
  case h_17 => cases h

theorem effect_of_step {g g' : Gateway} {a : Action} (h : gateway.step g a = some g') :
    Effect g a g' := by
  change g.step a = some g' at h
  unfold Gateway.step at h
  split at h
  case h_1 dt => exact Option.some.inj h ▸ .tick dt
  case h_2 isi =>
      split at h
      case h_1 hidle => exact Option.some.inj h ▸ .datakirim isi hidle
      case h_2 => cases h
  case h_3 w =>
      split at h
      case h_1 => cases h
      case h_2 tanggal isi hcollect => exact Option.some.inj h ▸ .write w tanggal isi hcollect
  case h_4 i => exact effect_of_connectStep h
  case h_5 => exact Option.some.inj h ▸ .killConnect
  case h_6 r n =>
      split at h
      case h_1 line rest hpc =>
          obtain ⟨log, hsend⟩ := exec_kirimdatakeserver r line g.self
          have hcalls : ((kirimdatakeserver r line).final g.self).calls.take
              (g.self.calls.length + n) =
              g.self.calls ++ (sendEvents g.self.channel r line).take n := by
            rw [Stmt.final, hsend]
            exact List.take_length_add_append n
          rw [hcalls] at h
          exact Option.some.inj h ▸ .killSending r n line rest hpc
      case h_2 => cases h
  case h_7 ping₁ ping₂ =>
      split at h
      case isTrue hreboots => exact Option.some.inj h ▸ .reboot ping₁ ping₂ hreboots
      case isFalse => exact Option.some.inj h ▸ .reping ping₁ ping₂

end EmsGateway.System
