import EmsGateway.System.Order
import EmsGateway.System.PassRun

/-!
The two services share the spool file without a lock. A record appended after a
pass has read the file and before it truncates it is lost, and no record is lost
in any other way as long as the date does not change, no service dies and the
broker confirms.
-/

namespace EmsGateway.System

open EmsGateway.Library EmsGateway.Connect

/-- The date does not change, no service dies, and a line that is handed over
ends with a confirmed publish. -/
def Undisturbed (g : Gateway) : Action → Prop
  | .tick dt => tanggalsekarang (g.clock + dt) = tanggalsekarang g.clock
  | .connect (.send r) => confirms g.self.channel r = true
  | .killConnect => False
  | .killSending _ _ => False
  | .reboot ping₁ ping₂ => reboots ping₁ ping₂ = false
  | _ => True

instance decidableUndisturbed (g : Gateway) : ∀ a, Decidable (Undisturbed g a)
  | .tick dt => inferInstanceAs
      (Decidable (tanggalsekarang (g.clock + dt) = tanggalsekarang g.clock))
  | .connect (.send r) => inferInstanceAs (Decidable (confirms g.self.channel r = true))
  | .killConnect | .killSending _ _ => .isFalse id
  | .reboot ping₁ ping₂ => inferInstanceAs (Decidable (reboots ping₁ ping₂ = false))
  | .datakirim _ | .write _ => .isTrue trivial
  | .connect (.start _) | .connect .folder | .connect (.ping _) | .connect .ceklog
  | .connect .read | .connect .truncate | .connect .sent | .connect (.amqp _)
  | .connect (.listdir _) | .connect (.stat _) | .connect (.remove _) | .connect .listed
  | .connect .sleep => .isTrue trivial

/-- The file still holds what was read when it is truncated: no `datakirim` has
completed in between. -/
def TruncatesWhatWasRead (g : Gateway) (a : Action) : Prop :=
  a = .connect .truncate → ∀ lines name, g.connect = .truncate lines →
    g.self.filekirimsensor = some name → Directory.lines g.spool name = lines

/-- A record is in its spool file, read and not yet handed over, or published. -/
def Held (g : Gateway) (x : Record) : Prop :=
  x ∈ Directory.lines g.spool x.tanggal ∨ x ∈ g.connect.pending ∨
    x ∈ confirmedBodies g.self.calls

instance (g : Gateway) (x : Record) : Decidable (Held g x) :=
  inferInstanceAs (Decidable (_ ∨ _ ∨ _))

/-- No record whose `datakirim` has completed is lost. -/
def NoneLost (g : Gateway) : Prop := ∀ x ∈ g.appended, Held g x

instance (g : Gateway) : Decidable (NoneLost g) :=
  inferInstanceAs (Decidable (∀ x ∈ g.appended, Held g x))

/-- All records, and the one being written, are of the present date. -/
structure OneDate (g : Gateway) : Prop where
  appended : ∀ x ∈ g.appended, x.tanggal = tanggalsekarang g.clock
  writing : ∀ tanggal isi, g.collect = .writing tanggal isi → tanggal = tanggalsekarang g.clock

theorem oneDate_step {g g' : Gateway} {a : Action} (h : OneDate g) (hcalm : Undisturbed g a)
    (heffect : Effect g a g') : OneDate g' := by
  cases heffect with
  | tick dt =>
      change tanggalsekarang (g.clock + dt) = tanggalsekarang g.clock at hcalm
      refine ⟨?_, ?_⟩
      · intro x hx
        exact (h.appended x hx).trans hcalm.symm
      · intro tanggal isi hcollect
        exact (h.writing tanggal isi hcollect).trans hcalm.symm
  | datakirim isi _ =>
      refine ⟨h.appended, ?_⟩
      rintro tanggal isi' ⟨⟩
      rfl
  | write w tanggal isi hcollect =>
      refine ⟨?_, by simp [Gateway.write]⟩
      rcases write_cases g tanggal isi w with ⟨happended, -⟩ | ⟨happended, -⟩
      · rw [happended]
        intro x hx
        rcases List.mem_append.mp hx with hx | hx
        · exact h.appended x hx
        · rw [List.mem_singleton.mp hx]
          exact h.writing tanggal isi hcollect
      · rw [happended]
        exact h.appended
  | reboot ping₁ ping₂ _ => exact ⟨h.appended, by simp⟩
  | reping => exact h
  | start | folder | read | truncate | send | expired | remove | quiet | killConnect
  | killSending => exact ⟨h.appended, h.writing⟩

section Step

variable {g g' : Gateway} {x : Record}

theorem confirmedBodies_eq_of_publishes_eq {es fs : List (Event Record)}
    (h : publishes fs = publishes es) : confirmedBodies fs = confirmedBodies es := by
  rw [confirmedBodies, confirmedBodies, h]

/-- A record stays where it is in a step outside the pass that keeps its file and
publishes nothing. -/
theorem Held.outside (h : Held g x) (hidle : g.connect.pending = [])
    (hlines : x ∈ Directory.lines g.spool x.tanggal → x ∈ Directory.lines g'.spool x.tanggal)
    (hpublishes : publishes g'.self.calls = publishes g.self.calls) : Held g' x := by
  rcases h with hfile | hpending | hconfirmed
  · exact .inl (hlines hfile)
  · rw [hidle] at hpending
    cases hpending
  · rw [← confirmedBodies_eq_of_publishes_eq hpublishes] at hconfirmed
    exact .inr (.inr hconfirmed)

/-- A line that was read and not yet truncated is still in the file. -/
theorem mem_lines_of_pending (hvalid : Valid g)
    (hsending : ∀ rest, g.connect = .sending rest → rest = []) (hx : x ∈ g.connect.pending) :
    x ∈ Directory.lines g.spool x.tanggal := by
  have hname := hvalid.relay.passed.items x (g.connect.items_batch.symm ▸ hx)
  cases hpc : g.connect with
  | truncate lines =>
      have hprefix :=
        hvalid.relay.passed.copied lines x.tanggal (congrArg ConnectPc.batch hpc) hname
      rw [hpc] at hx
      exact hprefix.subset hx
  | sending rest =>
      rw [hpc, hsending rest hpc] at hx
      cases hx
  | _ =>
      rw [hpc] at hx
      cases hx

theorem held_truncate {name : ℕ} {lines : List Record} {spool : SpoolDir Record}
    (h : Held g x) (hpc : g.connect = .truncate lines)
    (htruncate : Directory.truncate g.spool name g.clock = some spool)
    (hread : Directory.lines g.spool name = lines) :
    Held { g with connect := .sending lines, spool := spool } x := by
  rcases h with hfile | hpending | hconfirmed
  · by_cases hdate : x.tanggal = name
    · rw [hdate, hread] at hfile
      exact .inr (.inl hfile)
    · refine .inl ?_
      rw [Directory.lines_truncate htruncate, if_neg hdate]
      exact hfile
  · rw [hpc] at hpending
    exact .inr (.inl hpending)
  · exact .inr (.inr hconfirmed)

theorem held_send {line : Record} {rest : List Record} {r : SendReplies} (h : Held g x)
    (hclient : Cleared g.self) (hpc : g.connect = .sending (line :: rest))
    (hconfirms : confirms g.self.channel r = true) :
    Held { g with
      connect := .sending rest
      self := (sendLine r line).final g.self
      handed := g.handed ++ [line] } x := by
  have hcalls : confirmedBodies ((sendLine r line).final g.self).calls =
      confirmedBodies g.self.calls ++ [line] := by
    rw [calls_sendLine, confirmedBodies_append, confirmedBodies_sendEvents hclient.mode, hconfirms]
    rfl
  rw [Held, hcalls]
  rcases h with hfile | hpending | hconfirmed
  · exact .inl hfile
  · rw [hpc] at hpending
    rcases List.mem_cons.mp hpending with rfl | hrest
    · exact .inr (.inr (List.mem_append_right _ (List.mem_singleton_self _)))
    · exact .inr (.inl hrest)
  · exact .inr (.inr (List.mem_append_left _ hconfirmed))

/-- No step loses a record, if a truncating open truncates what was read. -/
theorem held_step {a : Action} (h : Held g x) (hx : x ∈ g.appended) (hvalid : Valid g)
    (hdate : OneDate g) (hcalm : Undisturbed g a) (htruncates : TruncatesWhatWasRead g a)
    (heffect : Effect g a g') : Held g' x := by
  cases heffect with
  | tick | datakirim | reping => exact h
  | write w tanggal isi _ =>
      -- a write takes no line away
      have hgrow : ∀ m, Directory.lines g.spool m ⊆
          Directory.lines (g.write tanggal isi w).spool m := by
        intro m
        rcases write_cases g tanggal isi w with ⟨-, hlines⟩ | ⟨-, hlines⟩
        · rw [hlines]
          split
          · exact List.subset_append_left _ _
          · exact List.Subset.refl _
        · rw [hlines]
          exact List.Subset.refl _
      exact h.imp_left fun hfile => hgrow x.tanggal hfile
  | start r hpc =>
      refine h.outside (by rw [hpc]; rfl) id ?_
      exact (new_spec r g.self.calls g.self.printed).2.2.1
  | folder hpc => exact h.outside (by rw [hpc]; rfl) id rfl
  | read name lines hpc _ _ => exact h.outside (by rw [hpc]; rfl) id rfl
  | truncate name lines spool hpc hname htruncate =>
      exact held_truncate h hpc htruncate (htruncates rfl lines name hpc hname)
  | send r line rest hpc => exact held_send h hvalid.client hpc hcalm
  | expired name names mtime hpc _ _ => exact h.outside (by rw [hpc]; rfl) id rfl
  | remove name names hpc =>
      refine h.outside (by rw [hpc]; rfl) (fun hfile => ?_) rfl
      -- the removed file is of a past date, and the record is not
      have hpast := hvalid.stamps.removing name names hpc
      have htoday := hdate.appended x hx
      show x ∈ Directory.lines (g.spool.erase name) x.tanggal
      rw [Directory.lines_erase, if_neg (by omega)]
      exact hfile
  | quiet i pc s hsending hpending _ hkept =>
      rcases h with hfile | hunread | hconfirmed
      · exact .inl hfile
      · have hfile := mem_lines_of_pending hvalid hsending hunread
        exact .inl hfile
      · refine .inr (.inr ?_)
        rw [confirmedBodies_eq_of_publishes_eq hkept.publishes]
        exact hconfirmed
  | killConnect => cases hcalm
  | killSending => cases hcalm
  | reboot ping₁ ping₂ hreboots =>
      rw [show reboots ping₁ ping₂ = false from hcalm] at hreboots
      cases hreboots

/-- Only `datakirim` appends, and what it appends is in the file. -/
theorem held_of_appended {a : Action} (heffect : Effect g a g') (hx : x ∈ g'.appended)
    (hnew : x ∉ g.appended) : Held g' x := by
  cases heffect with
  | write w tanggal isi _ =>
      rcases write_cases g tanggal isi w with ⟨happended, hlines⟩ | ⟨happended, -⟩
      · rw [happended] at hx
        obtain rfl := List.mem_singleton.mp ((List.mem_append.mp hx).resolve_left hnew)
        refine .inl ?_
        rw [hlines, if_pos (show (g.record tanggal isi).tanggal = tanggal from rfl)]
        exact List.mem_append_right _ (List.mem_singleton_self _)
      · rw [happended] at hx
        exact absurd hx hnew
  | _ => exact absurd hx hnew

end Step

/-- A line of the file that was not read is lost by the truncating open: it is
later than every line handed over. -/
theorem lines_eq_of_noneLost {clock : ℕ} {as : List Action} {g g' : Gateway} {name : ℕ}
    {lines : List Record} (hrun : gateway.run (.init clock) as = some g)
    (hpc : g.connect = .truncate lines) (hname : g.self.filekirimsensor = some name)
    (hstep : gateway.step g (.connect .truncate) = some g') (hnone : NoneLost g') :
    Directory.lines g.spool name = lines := by
  have hvalid := valid_of_run hrun
  -- `late` was appended after the reading
  obtain ⟨late, hlate⟩ : lines <+: Directory.lines g.spool name :=
    hvalid.relay.passed.copied lines name (congrArg ConnectPc.batch hpc) hname
  cases htruncate : Directory.truncate g.spool name g.clock with
  | none =>
      have hnil := Directory.lines_eq_nil_of_truncate_eq_none htruncate
      rw [hnil] at hlate
      rw [hnil, (List.append_eq_nil_iff.mp hlate).1]
  | some spool =>
      rw [step_truncate hpc hname htruncate] at hstep
      obtain rfl := Option.some.inj hstep
      have hnumbered : Numbered Record.posisi (Directory.lines g.spool name) :=
        hvalid.relay.stored.numbered name
      rw [← hlate] at hnumbered
      obtain ⟨-, -, hbefore⟩ := numbered_append.mp hnumbered
      suffices hempty : late = [] by rw [← hlate, hempty, List.append_nil]
      refine List.eq_nil_iff_forall_not_mem.mpr fun x hx => ?_
      have hfile : x ∈ Directory.lines g.spool name := hlate ▸ List.mem_append_right lines hx
      obtain ⟨happended, -⟩ := hvalid.relay.stored.produced name x hfile
      rcases hnone x happended with hmem | hmem | hmem
      · exact hvalid.not_mem_lines_of_truncate htruncate hfile _ hmem
      · exact absurd (hbefore x hmem x hx) (lt_irrefl _)
      · exact not_confirmed_of_stored hrun hfile hmem

/-- In a run in which the date does not change, no service dies and the broker
confirms, no state loses a record if and only if every truncating open truncates
a file that still holds what was read. -/
theorem noneLost_iff {clock : ℕ} {as : List Action}
    (hcalm : gateway.Along Undisturbed (.init clock) as) :
    (∀ g, gateway.Visits (.init clock) as g → NoneLost g) ↔
      gateway.Along TruncatesWhatWasRead (.init clock) as := by
  constructor
  · intro hnone
    refine Machine.along_of_visits fun bs a g hpre hrun => ?_
    rintro rfl lines name hpc hname
    cases hstep : gateway.step g (.connect .truncate) with
    | none =>
        change g.connectStep .truncate = none at hstep
        simp only [Gateway.connectStep, hpc] at hstep
        split at hstep <;> cases hstep
    | some g' =>
        refine lines_eq_of_noneLost hrun hpc hname hstep (hnone g' ⟨_, hpre, ?_⟩)
        exact Machine.run_concat_eq_some.mpr ⟨g, hrun, hstep⟩
  · intro htruncates g hvisit
    -- the invariants that one step needs, and no loss so far
    have hinv : Valid g ∧ OneDate g ∧ NoneLost g := by
      refine (hcalm.and htruncates).visits_invariant
        (I := fun g => Valid g ∧ OneDate g ∧ NoneLost g) ?_ ?_ hvisit
      · rintro g a g' ⟨hvalid, hdate, hnone⟩ ⟨hcalm, htruncates⟩ hstep
        have heffect := effect_of_step hstep
        refine ⟨valid_step hvalid heffect, oneDate_step hdate hcalm heffect, fun x hx => ?_⟩
        by_cases hold : x ∈ g.appended
        · exact held_step (hnone x hold) hold hvalid hdate hcalm htruncates heffect
        · exact held_of_appended heffect hx hold
      · exact ⟨valid_init clock, ⟨by simp [Gateway.init], by simp [Gateway.init]⟩,
          by simp [NoneLost, Gateway.init]⟩
    exact hinv.2.2

/-- A `datakirim` completes between the reading and the truncation of a pass. -/
def appendedInBetween : List Action :=
  spooled "{1}" ++ started ++ upToPass ++ [.connect .read] ++ spooled "{2}" ++ [.connect .truncate]

theorem noneLost_iff_appendedInBetween :
    (∀ g, gateway.Visits (.init 0) appendedInBetween g → NoneLost g) ↔
      gateway.Along TruncatesWhatWasRead (.init 0) appendedInBetween :=
  @noneLost_iff 0 appendedInBetween (by decide)

/-- The second record is in no file, not read, and not published. -/
theorem not_noneLost :
    ¬∀ (clock : ℕ) (as : List Action), gateway.Along Undisturbed (.init clock) as →
      ∀ g, gateway.Visits (.init clock) as g → NoneLost g := by
  intro hnone
  have hlost := hnone 0 appendedInBetween (by decide) _ ⟨_, List.prefix_refl _, rfl⟩
  revert hlost
  decide

end EmsGateway.System
