import EmsGateway.System.Refinement

/-!
What holds in every state of the gateway, besides what it inherits from the relay
it is: the ages of the spool files and the state of the client.
-/

namespace EmsGateway.System

open EmsGateway.Library EmsGateway.Connect

/-! ### The ages of the files -/

/-- A file is not older than its date, so a file found expired is of a past
date. -/
structure Stamped (g : Gateway) : Prop where
  modified : ∀ m mtime, Directory.modified g.spool m = some mtime → m * day ≤ mtime
  removing : ∀ name names, g.connect = .remove name names → name + 3 ≤ tanggalsekarang g.clock

theorem stamped_init (clock : ℕ) : Stamped (.init clock) where
  modified := by simp [Gateway.init]
  removing := by simp [Gateway.init]

theorem le_of_le_tanggalsekarang {m clock : ℕ} (h : m ≤ tanggalsekarang clock) :
    m * day ≤ clock :=
  (Nat.mul_le_mul_right day h).trans (mul_tanggalsekarang_le clock)

/-- A step that is not found expired, and after which every stamp is an old one
or the present one of a file that is not of a later date. -/
theorem Stamped.of_modified {g g' : Gateway} (h : Stamped g)
    (hmodified : ∀ m, Directory.modified g'.spool m = Directory.modified g.spool m ∨
      Directory.modified g'.spool m = none ∨
      m ≤ tanggalsekarang g.clock ∧ Directory.modified g'.spool m = some g.clock)
    (hclock : g.clock ≤ g'.clock)
    (hpc : g'.connect = g.connect ∨ ¬g'.connect.Removing) : Stamped g' := by
  refine ⟨?_, ?_⟩
  · intro m mtime hmtime
    rcases hmodified m with hm | hm | ⟨hle, hm⟩
    · exact h.modified m mtime (hm ▸ hmtime)
    · rw [hm] at hmtime
      cases hmtime
    · rw [hm] at hmtime
      obtain rfl := Option.some.inj hmtime
      exact le_of_le_tanggalsekarang hle
  · intro name names hremove
    rcases hpc with hpc | hpc
    · exact (h.removing name names (hpc ▸ hremove)).trans (tanggalsekarang_mono hclock)
    · rw [hremove] at hpc
      exact absurd trivial hpc

theorem stamped_step {g g' : Gateway} {a : Action} (h : Stamped g) (hdates : Dated g)
    (heffect : Effect g a g') : Stamped g' := by
  cases heffect with
  | tick dt => exact h.of_modified (fun m => .inl rfl) (Nat.le_add_right _ _) (.inl rfl)
  | write w tanggal isi hcollect =>
      have htoday := (hdates.writing tanggal isi hcollect).1
      refine h.of_modified (fun m => ?_) le_rfl (.inl rfl)
      have hwrite := modified_writeLine g.spool tanggal (g.record tanggal isi) g.clock w m
      rcases hwrite with hm | ⟨rfl, hm⟩
      · exact .inl hm
      · exact .inr (.inr ⟨htoday, hm⟩)
  | truncate name lines spool _ hname htruncate =>
      refine h.of_modified (fun m => ?_) le_rfl (.inr id)
      rw [Directory.modified_truncate htruncate]
      split
      case isTrue hm => exact .inr (.inr ⟨hm ▸ hdates.file name hname, rfl⟩)
      case isFalse => exact .inl rfl
  | remove name names _ =>
      refine h.of_modified (fun m => ?_) le_rfl (.inr id)
      show Directory.modified (g.spool.erase name) m = _ ∨ _
      rw [Directory.modified_erase]
      split
      · exact .inr (.inl rfl)
      · exact .inl rfl
  | expired name names mtime _ hmtime hexpired =>
      refine ⟨h.modified, ?_⟩
      rintro name' names' ⟨⟩
      have hdate := h.modified name mtime hmtime
      have hage : (name + 3) * day ≤ g.clock := by
        rw [Nat.add_mul]
        omega
      exact (Nat.le_div_iff_mul_le (by decide)).mpr hage
  | quiet i pc s _ _ hremoving _ => exact h.of_modified (fun m => .inl rfl) le_rfl (.inr hremoving)
  | datakirim => exact h.of_modified (fun m => .inl rfl) le_rfl (.inl rfl)
  | start | folder | read | send | killConnect | killSending | reboot =>
      exact h.of_modified (fun m => .inl rfl) le_rfl (.inr id)
  | reping => exact h

/-! ### The client -/

/-- Between two steps the flag is cleared, and a channel that still serves calls
confirms. -/
structure Cleared (s : ConnectClass Record) : Prop where
  flag : s.dataflag = false
  mode : ConfirmMode s.channel

theorem cleared_init (clock : ℕ) : Cleared (Gateway.init clock).self where
  flag := rfl
  mode := by simp [Gateway.init, ConfirmMode]

theorem cleared_sendLine {s : ConnectClass Record} (h : Cleared s) (r : SendReplies)
    (line : Record) : Cleared ((sendLine r line).final s) := by
  obtain ⟨log, hline⟩ := exec_sendLine r line s
  rw [Stmt.final, hline]
  exact ⟨rfl, confirmMode_sendChannel h.mode r⟩

theorem cleared_step {g g' : Gateway} {a : Action} (h : Cleared g.self)
    (heffect : Effect g a g') : Cleared g'.self := by
  cases heffect with
  | start r _ =>
      obtain ⟨-, hflag, -, hmode⟩ := new_spec r g.self.calls g.self.printed
      exact ⟨hflag, hmode⟩
  | folder => exact ⟨h.flag, h.mode⟩
  | quiet i pc s _ _ _ hkept => exact ⟨hkept.flag.trans h.flag, hkept.mode h.mode⟩
  | send r line rest _ => exact cleared_sendLine h r line
  | killSending => exact ⟨h.flag, h.mode⟩
  | tick | datakirim | write | read | truncate | expired | remove | killConnect | reboot
  | reping => exact h

/-! ### Runs -/

/-- The invariants together. -/
structure Valid (g : Gateway) : Prop where
  dates : Dated g
  relay : Relay.Ordered Record.posisi Record.tanggal g.relay
  stamps : Stamped g
  client : Cleared g.self

theorem valid_init (clock : ℕ) : Valid (.init clock) where
  dates := dated_init clock
  relay := by
    rw [relay_init]
    exact Relay.ordered_init
  stamps := stamped_init clock
  client := cleared_init clock

theorem valid_step {g g' : Gateway} {a : Action} (h : Valid g) (heffect : Effect g a g') :
    Valid g' where
  dates := dated_step h.dates heffect
  relay := Relay.ordered_moves h.relay (moves_of_effect h.dates heffect)
  stamps := stamped_step h.stamps h.dates heffect
  client := cleared_step h.client heffect

/-- The invariants hold in every state of every run. -/
theorem valid_of_run {clock : ℕ} {as : List Action} {g : Gateway}
    (hrun : gateway.run (.init clock) as = some g) : Valid g :=
  Machine.run_invariant (fun _ _ _ h hstep => valid_step h (effect_of_step hstep))
    (valid_init clock) hrun

/-- The lines of a file that is truncated are in no other file. -/
theorem Valid.not_mem_lines_of_truncate {g : Gateway} (h : Valid g) {spool : SpoolDir Record}
    {name clock : ℕ} (htruncate : Directory.truncate g.spool name clock = some spool) {x : Record}
    (hx : x ∈ Directory.lines g.spool name) (m : ℕ) : x ∉ Directory.lines spool m := by
  intro hmem
  rw [Directory.lines_truncate htruncate] at hmem
  split at hmem
  case isTrue => cases hmem
  case isFalse hne =>
      have hm : x.tanggal = m := (h.relay.stored.produced m x hmem).2
      have hname : x.tanggal = name := (h.relay.stored.produced name x hx).2
      exact hne (hm.symm.trans hname)

end EmsGateway.System
