import EmsGateway.System.Effect

/-!
The gateway as a relay: `datakirim` produces, the spool files are the buckets,
and a pass copies the file of its date, empties it, and forwards its lines.
Every step of the gateway is some moves of the relay, so what holds of relays
holds of the gateway in every run.
-/

namespace EmsGateway.System

open EmsGateway.Library EmsGateway.Connect

/-- The relay a gateway is: the times, the outcomes and the steps that touch no
line are forgotten. -/
def Gateway.relay (g : Gateway) : Relay ℕ Record where
  produced := g.appended
  stored := Directory.lines g.spool
  cursor := g.self.filekirimsensor
  batch := g.connect.batch
  forwarded := g.handed

/-- The moves of the relay, whose items are numbered by their positions and kept
in the bucket of their date. -/
abbrev RelayMove : Relay ℕ Record → Relay ℕ Record → Prop :=
  Relay.Move Record.posisi Record.tanggal

abbrev RelayMoves : Relay ℕ Record → Relay ℕ Record → Prop :=
  Relay.Moves Record.posisi Record.tanggal

/-- A write appends its record everywhere, or it changes no line of any file. -/
theorem write_cases (g : Gateway) (tanggal : ℕ) (isi : String) (w : WriteReply) :
    ((g.write tanggal isi w).appended = g.appended ++ [g.record tanggal isi] ∧
        ∀ m, Directory.lines (g.write tanggal isi w).spool m =
          if m = tanggal then Directory.lines g.spool m ++ [g.record tanggal isi]
          else Directory.lines g.spool m) ∨
      ((g.write tanggal isi w).appended = g.appended ∧
        ∀ m, Directory.lines (g.write tanggal isi w).spool m = Directory.lines g.spool m) := by
  have hlines := lines_writeLine g.spool tanggal (g.record tanggal isi) g.clock w
  unfold Gateway.write
  cases hw : (writeLine g.spool tanggal (g.record tanggal isi) g.clock w).2 with
  | true => exact .inl ⟨if_pos hw, fun m => by simpa [hw] using hlines m⟩
  | false => exact .inr ⟨if_neg (by simpa using hw), fun m => by simpa [hw] using hlines m⟩

/-! ### Positions and dates -/

/-- The lines appended are numbered from 0, and no line, no write under way and
no file in use is of a date after the present one. -/
structure Dated (g : Gateway) : Prop where
  posisi : g.appended.map Record.posisi = List.range g.appended.length
  today : ∀ x ∈ g.appended, x.tanggal ≤ tanggalsekarang g.clock
  writing : ∀ tanggal isi, g.collect = .writing tanggal isi →
    tanggal ≤ tanggalsekarang g.clock ∧ ∀ x ∈ g.appended, x.tanggal ≤ tanggal
  file : ∀ name, g.self.filekirimsensor = some name → name ≤ tanggalsekarang g.clock

theorem dated_init (clock : ℕ) : Dated (.init clock) where
  posisi := rfl
  today := by simp [Gateway.init]
  writing := by simp [Gateway.init]
  file := by simp [Gateway.init]

theorem Dated.posisi_lt {g : Gateway} (h : Dated g) {x : Record} (hx : x ∈ g.appended) :
    x.posisi < g.appended.length := by
  have hmem := List.mem_map_of_mem (f := Record.posisi) hx
  rw [h.posisi] at hmem
  exact List.mem_range.mp hmem

theorem dated_write {g : Gateway} (h : Dated g) {tanggal : ℕ} {isi : String}
    (hcollect : g.collect = .writing tanggal isi) (w : WriteReply) :
    Dated (g.write tanggal isi w) := by
  rcases write_cases g tanggal isi w with ⟨happended, -⟩ | ⟨happended, -⟩
  · refine ⟨?_, ?_, by simp [Gateway.write], h.file⟩
    · rw [happended, List.map_append, h.posisi, List.length_append]
      exact (List.range_succ (n := g.appended.length)).symm
    · rw [happended]
      intro x hx
      rcases List.mem_append.mp hx with hx | hx
      · exact h.today x hx
      · rw [List.mem_singleton.mp hx]
        exact (h.writing tanggal isi hcollect).1
  · refine ⟨?_, ?_, by simp [Gateway.write], h.file⟩
    · rw [happended]
      exact h.posisi
    · rw [happended]
      exact h.today

theorem filekirimsensor_sendLine (s : ConnectClass Record) (r : SendReplies) (line : Record) :
    ((sendLine r line).final s).filekirimsensor = s.filekirimsensor := by
  obtain ⟨log, hline⟩ := exec_sendLine r line s
  rw [Stmt.final, hline]
  rfl

theorem filekirimsensor_new (r : AmqpReplies) (calls : List (Event Record))
    (printed : List Record) : (ConnectClass.new r calls printed).filekirimsensor = none :=
  (new_spec r calls printed).1

theorem dated_step {g g' : Gateway} {a : Action} (h : Dated g) (heffect : Effect g a g') :
    Dated g' := by
  cases heffect with
  | tick dt =>
      have hle : tanggalsekarang g.clock ≤ tanggalsekarang (g.clock + dt) :=
        tanggalsekarang_mono (Nat.le_add_right _ _)
      refine ⟨h.posisi, fun x hx => (h.today x hx).trans hle, ?_, ?_⟩
      · intro tanggal isi hcollect
        obtain ⟨htoday, hdate⟩ := h.writing tanggal isi hcollect
        exact ⟨htoday.trans hle, hdate⟩
      · intro name hname
        exact (h.file name hname).trans hle
  | datakirim isi _ =>
      refine ⟨h.posisi, h.today, ?_, h.file⟩
      rintro tanggal isi' ⟨⟩
      exact ⟨le_rfl, h.today⟩
  | write w tanggal isi hcollect => exact dated_write h hcollect w
  | start r _ =>
      refine ⟨h.posisi, h.today, h.writing, ?_⟩
      intro name hname
      rw [filekirimsensor_new] at hname
      cases hname
  | folder _ =>
      refine ⟨h.posisi, h.today, h.writing, ?_⟩
      rintro name ⟨⟩
      exact le_rfl
  | send r line rest _ =>
      refine ⟨h.posisi, h.today, h.writing, ?_⟩
      intro name hname
      rw [filekirimsensor_sendLine] at hname
      exact h.file name hname
  | quiet i pc s _ _ _ hkept =>
      refine ⟨h.posisi, h.today, h.writing, ?_⟩
      intro name hname
      rw [hkept.file] at hname
      exact h.file name hname
  | reboot ping₁ ping₂ _ => exact ⟨h.posisi, h.today, by simp, h.file⟩
  | reping ping₁ ping₂ => exact h
  | read | truncate | expired | remove | killConnect | killSending =>
      exact ⟨h.posisi, h.today, h.writing, h.file⟩

/-! ### Steps of the gateway as moves of the relay -/

section Moves

variable {g g' : Gateway}

/-- A step is a move when it leaves what the move leaves. -/
theorem move_of_eq {r : Relay ℕ Record} (hmove : RelayMove g.relay r)
    (hproduced : g'.appended = r.produced) (hstored : ∀ m, Directory.lines g'.spool m = r.stored m)
    (hcursor : g'.self.filekirimsensor = r.cursor) (hbatch : g'.connect.batch = r.batch)
    (hforwarded : g'.handed = r.forwarded) : RelayMove g.relay g'.relay := by
  obtain rfl : g'.relay = r := by
    cases r
    rw [Gateway.relay, hproduced, funext hstored, hcursor, hbatch, hforwarded]
  exact hmove

theorem moves_write (h : Dated g) {tanggal : ℕ} {isi : String}
    (hcollect : g.collect = .writing tanggal isi) (w : WriteReply) :
    RelayMoves g.relay (g.write tanggal isi w).relay := by
  rcases write_cases g tanggal isi w with ⟨happended, hlines⟩ | ⟨happended, hlines⟩
  · have hproduce : RelayMove g.relay _ := .produce (g.record tanggal isi)
      (fun x hx => h.posisi_lt hx) (h.writing tanggal isi hcollect).2
    refine .single (move_of_eq hproduce happended (fun m => ?_) rfl rfl rfl)
    show _ = Function.update (Directory.lines g.spool) tanggal
      (Directory.lines g.spool tanggal ++ [g.record tanggal isi]) m
    rw [hlines]
    by_cases hm : m = tanggal
    · rw [if_pos hm, hm, Function.update_self]
    · rw [if_neg hm, Function.update_of_ne hm]
  · have hrelay : (g.write tanggal isi w).relay = g.relay := by
      rw [Gateway.relay, happended, funext hlines]
      rfl
    rw [hrelay]

theorem move_send {line : Record} {rest : List Record} (hpc : g.connect = .sending (line :: rest))
    (r : SendReplies) :
    RelayMove g.relay { g with
      connect := .sending rest
      self := (sendLine r line).final g.self
      handed := g.handed ++ [line] }.relay :=
  move_of_eq (.forward line rest (congrArg ConnectPc.batch hpc)) rfl (fun _ => rfl)
    (filekirimsensor_sendLine g.self r line) rfl rfl

/-- Every step of the gateway is some moves of the relay. -/
theorem moves_of_effect (h : Dated g) {a : Action} (heffect : Effect g a g') :
    RelayMoves g.relay g'.relay := by
  cases heffect with
  | tick | datakirim | reping => exact .refl
  | write w tanggal isi hcollect => exact moves_write h hcollect w
  | start r hpc =>
      refine .single (move_of_eq .restart rfl (fun _ => rfl) ?_ rfl rfl)
      exact (new_spec r g.self.calls g.self.printed).1
  | folder hpc => exact .single (.seek (tanggalsekarang g.clock) h.today)
  | read name lines _ hname hread =>
      refine .single (move_of_eq (.copy name hname) rfl (fun _ => rfl) rfl ?_ rfl)
      exact congrArg Batch.copied (Directory.lines_eq_of_readlines hread).symm
  | truncate name lines spool hpc hname htruncate =>
      have hbatch : g.relay.batch = .copied lines := congrArg ConnectPc.batch hpc
      refine .single (move_of_eq (.take name lines hname hbatch) rfl (fun m => ?_) rfl rfl rfl)
      exact (Directory.lines_truncate htruncate m).trans (Function.update_apply ..).symm
  | send r line rest hpc => exact .single (move_send hpc r)
  | remove name names hpc =>
      have hbatch : g.relay.batch = .idle := congrArg ConnectPc.batch hpc
      refine .single (move_of_eq (.discard name hbatch) rfl (fun m => ?_) rfl hbatch.symm rfl)
      exact (Directory.lines_erase m).trans (Function.update_apply ..).symm
  | quiet i pc s _ hbatch _ hkept =>
      exact .single (move_of_eq .giveUp rfl (fun _ => rfl) hkept.file hbatch rfl)
  | killSending r n line rest hpc =>
      -- the line counts as forwarded, and then the pass is given up
      refine .tail (.single (move_send hpc r)) ?_
      exact move_of_eq .giveUp rfl (fun _ => rfl)
        (filekirimsensor_sendLine g.self r line).symm rfl rfl
  | expired | killConnect | reboot => exact .single .giveUp

end Moves

theorem relay_init (clock : ℕ) : (Gateway.init clock).relay = .init := by
  rw [Gateway.relay, show Directory.lines (Gateway.init clock).spool = fun _ => [] from
    funext Directory.lines_empty]
  rfl

/-- In every run the gateway is a relay at work. -/
theorem moves_of_run {clock : ℕ} {as : List Action} {g : Gateway}
    (hrun : gateway.run (.init clock) as = some g) : Dated g ∧ RelayMoves .init g.relay := by
  refine Machine.run_invariant (I := fun g => Dated g ∧ RelayMoves .init g.relay) ?_ ?_ hrun
  · rintro g a g' ⟨hdated, hmoves⟩ hstep
    have heffect := effect_of_step hstep
    exact ⟨dated_step hdated heffect, hmoves.trans (moves_of_effect hdated heffect)⟩
  · rw [relay_init]
    exact ⟨dated_init clock, .refl⟩

end EmsGateway.System
