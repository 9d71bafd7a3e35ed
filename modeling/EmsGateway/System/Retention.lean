import EmsGateway.System.Invariant

/-!
`deletefilelog` removes the files of past dates, and a pass only ever drains the
file of the present one: what a file still holds when its date ends is never
handed over and is removed with it.
-/

namespace EmsGateway.System

open EmsGateway.Library EmsGateway.Connect

/-- A date ends with its spool file empty and no `datakirim` under way. -/
def EndsDrained (g : Gateway) : Action → Prop
  | .tick dt => tanggalsekarang (g.clock + dt) = tanggalsekarang g.clock ∨
      g.collect = .idle ∧ Directory.lines g.spool (tanggalsekarang g.clock) = []
  | _ => True

instance decidableEndsDrained (g : Gateway) : ∀ a, Decidable (EndsDrained g a)
  | .tick dt => inferInstanceAs
      (Decidable (tanggalsekarang (g.clock + dt) = tanggalsekarang g.clock ∨
        g.collect = .idle ∧ Directory.lines g.spool (tanggalsekarang g.clock) = []))
  | .datakirim _ | .write _ | .connect _ | .killConnect | .killSending _ _ | .reboot _ _ =>
      .isTrue trivial

/-- A truncated file is empty and the others are as they were. -/
theorem lines_truncate_or {g : Gateway} {name : ℕ} {spool : SpoolDir Record}
    (htruncate : Directory.truncate g.spool name g.clock = some spool) (m : ℕ) :
    Directory.lines spool m = Directory.lines g.spool m ∨ Directory.lines spool m = [] := by
  rw [Directory.lines_truncate htruncate]
  split
  · exact .inr rfl
  · exact .inl rfl

theorem lines_erase_or (spool : SpoolDir Record) (name m : ℕ) :
    Directory.lines (spool.erase name) m = Directory.lines spool m ∨
      Directory.lines (spool.erase name) m = [] := by
  rw [Directory.lines_erase]
  split
  · exact .inr rfl
  · exact .inl rfl

/-- The files of past dates are empty, and nothing is being written to them. -/
structure PastDrained (g : Gateway) : Prop where
  lines : ∀ m < tanggalsekarang g.clock, Directory.lines g.spool m = []
  writing : ∀ tanggal isi, g.collect = .writing tanggal isi → tanggal = tanggalsekarang g.clock

theorem pastDrained_init (clock : ℕ) : PastDrained (.init clock) where
  lines := by simp [Gateway.init]
  writing := by simp [Gateway.init]

theorem PastDrained.of_lines {g g' : Gateway} (h : PastDrained g) (hclock : g'.clock = g.clock)
    (hcollect : g'.collect = g.collect ∨ g'.collect = .idle)
    (hlines : ∀ m, Directory.lines g'.spool m = Directory.lines g.spool m ∨
      Directory.lines g'.spool m = []) : PastDrained g' := by
  refine ⟨?_, ?_⟩
  · intro m hm
    rw [hclock] at hm
    rcases hlines m with hsame | hnil
    · rw [hsame]
      exact h.lines m hm
    · exact hnil
  · intro tanggal isi hwriting
    rw [hclock]
    rcases hcollect with hsame | hidle
    · exact h.writing tanggal isi (hsame ▸ hwriting)
    · rw [hidle] at hwriting
      cases hwriting

/-- Between the date that ends and the present one no file holds a line: nothing
is dated in the future. -/
theorem pastDrained_tick {g : Gateway} {dt : ℕ} (h : PastDrained g) (hvalid : Valid g)
    (hends : EndsDrained g (.tick dt)) : PastDrained { g with clock := g.clock + dt } := by
  rcases hends with hsame | ⟨hidle, hnil⟩
  · refine ⟨?_, ?_⟩
    · intro m hm
      change m < tanggalsekarang (g.clock + dt) at hm
      rw [hsame] at hm
      exact h.lines m hm
    · intro tanggal isi hcollect
      exact (h.writing tanggal isi hcollect).trans hsame.symm
  · refine ⟨?_, ?_⟩
    · intro m _
      rcases Nat.lt_trichotomy m (tanggalsekarang g.clock) with hlt | rfl | hgt
      · exact h.lines m hlt
      · exact hnil
      · refine List.eq_nil_iff_forall_not_mem.mpr fun x hx => ?_
        obtain ⟨happended, hdate⟩ := hvalid.relay.stored.produced m x hx
        have htoday := hvalid.dates.today x happended
        omega
    · intro tanggal isi hcollect
      rw [show g.collect = .writing tanggal isi from hcollect] at hidle
      cases hidle

theorem pastDrained_step {g g' : Gateway} {a : Action} (h : PastDrained g) (hvalid : Valid g)
    (hends : EndsDrained g a) (heffect : Effect g a g') : PastDrained g' := by
  cases heffect with
  | tick dt => exact pastDrained_tick h hvalid hends
  | datakirim isi _ =>
      refine ⟨h.lines, ?_⟩
      rintro tanggal isi' ⟨⟩
      rfl
  | write w tanggal isi hcollect =>
      refine ⟨?_, by simp [Gateway.write]⟩
      intro m hm
      have htoday := h.writing tanggal isi hcollect
      change m < tanggalsekarang g.clock at hm
      rcases write_cases g tanggal isi w with ⟨-, hlines⟩ | ⟨-, hlines⟩
      · rw [hlines, if_neg (by omega)]
        exact h.lines m hm
      · rw [hlines]
        exact h.lines m hm
  | truncate name lines spool _ _ htruncate =>
      exact h.of_lines rfl (.inl rfl) (lines_truncate_or htruncate)
  | remove name names _ => exact h.of_lines rfl (.inl rfl) (lines_erase_or g.spool name)
  | reboot => exact h.of_lines rfl (.inr rfl) fun m => .inl rfl
  | reping => exact h
  | start | folder | read | send | expired | quiet | killConnect | killSending =>
      exact h.of_lines rfl (.inl rfl) fun m => .inl rfl

/-- A removal empties files and leaves the others as they are. -/
theorem lines_remove_or {g g' : Gateway} (hremove : Effect g (.connect (.remove true)) g') (m : ℕ) :
    Directory.lines g'.spool m = Directory.lines g.spool m ∨ Directory.lines g'.spool m = [] := by
  cases hremove with
  | remove name names _ => exact lines_erase_or g.spool name m
  | quiet => exact .inl rfl

/-- What a removal takes away was handed over only if it takes nothing away. -/
theorem all_handed_iff_lines_eq {g g' : Gateway} (hvalid : Valid g)
    (hremove : Effect g (.connect (.remove true)) g') :
    (∀ m, ∀ x ∈ Directory.lines g.spool m, x ∉ Directory.lines g'.spool m → x ∈ g.handed) ↔
      ∀ m, Directory.lines g'.spool m = Directory.lines g.spool m := by
  constructor
  · intro hall m
    rcases lines_remove_or hremove m with hsame | hnil
    · exact hsame
    · rw [hnil, eq_comm, List.eq_nil_iff_forall_not_mem]
      intro x hx
      have hgone : x ∉ Directory.lines g'.spool m := by
        rw [hnil]
        exact List.not_mem_nil
      exact hvalid.relay.not_forwarded_of_stored hx (hall m x hx hgone)
  · intro hsame m x hx hgone
    rw [hsame m] at hgone
    exact absurd hx hgone

/-- A removal takes nothing away when the files of past dates are empty. -/
theorem lines_remove_of_pastDrained {g g' : Gateway} (hvalid : Valid g) (hpast : PastDrained g)
    (hremove : Effect g (.connect (.remove true)) g') (m : ℕ) :
    Directory.lines g'.spool m = Directory.lines g.spool m := by
  cases hremove with
  | remove name names hpc =>
      have hold := hvalid.stamps.removing name names hpc
      show Directory.lines (g.spool.erase name) m = _
      rw [Directory.lines_erase]
      split
      case isTrue hm => rw [hm, hpast.lines name (by omega)]
      case isFalse => rfl
  | quiet => rfl

/-- In every run, the records that a removal takes away have all been handed to
`kirimdatakeserver` if and only if it takes none away. It takes none away in a
run in which every date ends with its spool file empty and no `datakirim` under
way. -/
theorem handed_of_removed {clock : ℕ} {as : List Action} {g g' : Gateway}
    (hrun : gateway.run (.init clock) as = some g)
    (hremove : gateway.step g (.connect (.remove true)) = some g') :
    ((∀ m, ∀ x ∈ Directory.lines g.spool m, x ∉ Directory.lines g'.spool m → x ∈ g.handed) ↔
        ∀ m, Directory.lines g'.spool m = Directory.lines g.spool m) ∧
      (gateway.Along EndsDrained (.init clock) as →
        ∀ m, ∀ x ∈ Directory.lines g.spool m, x ∉ Directory.lines g'.spool m → x ∈ g.handed) := by
  have hexact := all_handed_iff_lines_eq (valid_of_run hrun) (effect_of_step hremove)
  refine ⟨hexact, fun hends => hexact.mpr ?_⟩
  obtain ⟨hvalid, hpast⟩ : Valid g ∧ PastDrained g := by
    refine hends.run_invariant (I := fun g => Valid g ∧ PastDrained g) ?_
      ⟨valid_init clock, pastDrained_init clock⟩ hrun
    rintro g a g' ⟨hvalid, hpast⟩ hends hstep
    have heffect := effect_of_step hstep
    exact ⟨valid_step hvalid heffect, pastDrained_step hpast hvalid hends heffect⟩
  exact lines_remove_of_pastDrained hvalid hpast (effect_of_step hremove)

/-- A record is spooled and sent, and its empty file removed four days later. -/
def sentAndRemoved : List Action :=
  spooled "{}" ++ started ++ upToPass ++
    [.connect .read, .connect .truncate, .connect (.send (.all .ok)), .connect .sent,
      .tick (4 * day), .connect (.ping true), .connect (.listdir [0]), .connect (.stat true)]

theorem handed_of_removed_sentAndRemoved :
    gateway.Along EndsDrained (.init 0) sentAndRemoved ∧
      ∃ g g', gateway.run (.init 0) sentAndRemoved = some g ∧
        gateway.step g (.connect (.remove true)) = some g' ∧
        ((∀ m, ∀ x ∈ Directory.lines g.spool m, x ∉ Directory.lines g'.spool m → x ∈ g.handed) ↔
          ∀ m, Directory.lines g'.spool m = Directory.lines g.spool m) ∧
        (gateway.Along EndsDrained (.init 0) sentAndRemoved →
          ∀ m, ∀ x ∈ Directory.lines g.spool m,
            x ∉ Directory.lines g'.spool m → x ∈ g.handed) :=
  ⟨by decide, _, _, rfl, rfl, @handed_of_removed 0 sentAndRemoved _ _ rfl rfl⟩

/-- A record is spooled at the start of an outage of four days. -/
def fourDaysOffline : List Action :=
  started ++ [.connect .folder] ++ spooled "{}" ++
    [.connect (.ping false), .connect (.ping false), .tick (4 * day), .connect (.ping true),
      .connect (.amqp (.all .ok)), .connect (.ping true), .connect (.listdir [0]),
      .connect (.stat true)]

/-- The record is removed and was never handed over. -/
theorem removed_not_handed :
    ¬∀ (clock : ℕ) (as : List Action) (g g' : Gateway),
      gateway.run (.init clock) as = some g →
      gateway.step g (.connect (.remove true)) = some g' →
      ∀ m, ∀ x ∈ Directory.lines g.spool m, x ∉ Directory.lines g'.spool m → x ∈ g.handed := by
  intro hhanded
  have hlost := hhanded 0 fourDaysOffline _ _ rfl rfl 0
  revert hlost
  decide

end EmsGateway.System
