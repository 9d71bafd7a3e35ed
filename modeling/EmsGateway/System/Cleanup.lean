import EmsGateway.Collect.Sweep
import EmsGateway.System.Gateway

/-!
`deletefilelog` of both services. One entry that raises ends either loop, so what
a call removes depends on where in the listing that entry stands.
-/

namespace EmsGateway.System

open EmsGateway.Library EmsGateway.Connect
open Deletefilelog (Listing RemovesExactly Unshadowed)

section Calls

variable {α δ : Type} (days : ℚ)

theorem final_connect (names : List ℕ) (m : Meets ℕ) (p : Process α) :
    ∃ s, (Connect.deletefilelog names m days).final p =
      { p with
        self := s
        spool := (Deletefilelog.files PyError.osError days m names).final p.spool } := by
  rw [Connect.deletefilelog, Stmt.final, Stmt.exec_tryCatch, Stmt.exec_within, Stmt.final]
  cases ((Deletefilelog.files PyError.osError days m names).exec p.spool).1 with
  | ok u => exact ⟨_, rfl⟩
  | error e => exact ⟨_, rfl⟩

theorem final_collect (daftar : List (String × ℕ)) (hapus : Meets (String × ℕ))
    (s : Collect.ParseClass δ) :
    ((Collect.deletefilelog daftar hapus days).final s).datalog =
      (Deletefilelog.files Collect.PyError.osError days hapus daftar).final s.datalog := by
  rw [Collect.deletefilelog, Stmt.final, Stmt.exec_tryCatch, Stmt.exec_bind, Stmt.exec_within,
    Stmt.final]
  cases ((Deletefilelog.files Collect.PyError.osError days hapus daftar).exec s.datalog).1 with
  | ok u => rfl
  | error e => rfl

theorem removesExactly_connect_iff {names : List ℕ} {m : Meets ℕ} {p : Process α}
    (h : Listing p.spool names) :
    RemovesExactly days m p.spool ((Connect.deletefilelog names m days).final p).spool ↔
      Unshadowed days m p.spool names := by
  obtain ⟨_, hfinal⟩ := final_connect days names m p
  rw [hfinal]
  exact Deletefilelog.removesExactly_files_iff h

theorem removesExactly_collect_iff {daftar : List (String × ℕ)} {hapus : Meets (String × ℕ)}
    {s : Collect.ParseClass δ} (h : Listing s.datalog daftar) :
    RemovesExactly days hapus s.datalog
        ((Collect.deletefilelog daftar hapus days).final s).datalog ↔
      Unshadowed days hapus s.datalog daftar := by
  rw [final_collect]
  exact Deletefilelog.removesExactly_files_iff h

/-- A call of either service removes exactly the expired regular files on which
its operations return if and only if none of them stands in the listing behind an
entry that raises. -/
theorem removesExactly_iff {names : List ℕ} {m : Meets ℕ} {p : Process α}
    {daftar : List (String × ℕ)} {hapus : Meets (String × ℕ)} {s : Collect.ParseClass δ}
    (hconnect : Listing p.spool names) (hcollect : Listing s.datalog daftar) :
    (RemovesExactly days m p.spool ((Connect.deletefilelog names m days).final p).spool ↔
      Unshadowed days m p.spool names) ∧
    (RemovesExactly days hapus s.datalog
        ((Collect.deletefilelog daftar hapus days).final s).datalog ↔
      Unshadowed days hapus s.datalog daftar) :=
  ⟨removesExactly_connect_iff days hconnect, removesExactly_collect_iff days hcollect⟩

end Calls

/-- A directory of a dangling link and a file written at time `0`. -/
def withLink {ν : Type} [DecidableEq ν] (link file : ν) : Directory ν String :=
  AList.insert link .dangling (AList.insert file (.file [] 0) ∅)

theorem listing_withLink {ν : Type} [DecidableEq ν] {link file : ν} (hne : link ≠ file) :
    Listing (withLink link file) [link, file] ∧ Listing (withLink link file) [file, link] := by
  have hkeys : ∀ name ∈ (withLink link file).keys, name = link ∨ name = file := by
    intro name hname
    rw [← AList.mem_keys, withLink, AList.mem_insert, AList.mem_insert] at hname
    rcases hname with rfl | rfl | hempty
    · exact .inl rfl
    · exact .inr rfl
    · exact absurd hempty (AList.notMem_empty name)
  refine ⟨⟨by simp [hne], ?_⟩, ⟨by simp [hne.symm], ?_⟩⟩
  · intro name hname
    simpa using hkeys name hname
  · intro name hname
    simpa [or_comm] using hkeys name hname

theorem unshadowed_withLink {ν : Type} [DecidableEq ν] {link file : ν} (hne : link ≠ file) :
    ¬Unshadowed 3 (.calm (4 * day)) (withLink link file) [link, file] := by
  have hlink : Deletefilelog.raises 3 (.calm (4 * day)) (withLink link file) link = true := by
    simp [Deletefilelog.raises, withLink]
  have hlookup : (withLink link file).lookup file = some (.file [] 0) := by
    rw [withLink, AList.lookup_insert_ne hne.symm, AList.lookup_insert]
  have hexpired : Expired 3 (4 * day) 0 := by
    rw [← Nat.cast_ofNat, expired_natCast]
    decide
  have hfile : Deletefilelog.removable 3 (.calm (4 * day)) (withLink link file) file = true := by
    simp [Deletefilelog.removable, hlookup, Meets.calm, hexpired]
  intro hunshadowed
  simp [Unshadowed, hlink, hfile] at hunshadowed

/-- A listing that names the link last. -/
theorem removesExactly_iff_linkLast :
    (RemovesExactly 3 (.calm (4 * day)) (withLink 0 1)
        ((Connect.deletefilelog [1, 0] (.calm (4 * day)) 3).final
          ⟨⟨false, none, none, [], [], []⟩, withLink 0 1, 4 * day⟩).spool ↔
      Unshadowed 3 (.calm (4 * day)) (withLink 0 1) [1, 0]) ∧
    (RemovesExactly 3 (.calm (4 * day)) (withLink ("", 0) ("", 1))
        ((Collect.deletefilelog [("", 1), ("", 0)] (.calm (4 * day)) 3).final
          (.new ∅ (withLink ("", 0) ("", 1)))).datalog ↔
      Unshadowed 3 (.calm (4 * day)) (withLink ("", 0) ("", 1)) [("", 1), ("", 0)]) :=
  removesExactly_iff 3 (listing_withLink (by decide)).2 (listing_withLink (by decide)).2

/-- A listing that names a dangling link before an expired file. -/
theorem not_removesExactly :
    (¬∀ (days : ℚ) (names : List ℕ) (m : Meets ℕ) (p : Process String), Listing p.spool names →
      RemovesExactly days m p.spool ((Connect.deletefilelog names m days).final p).spool) ∧
    ¬∀ (days : ℚ) (daftar : List (String × ℕ)) (hapus : Meets (String × ℕ))
      (s : Collect.ParseClass String), Listing s.datalog daftar →
      RemovesExactly days hapus s.datalog
        ((Collect.deletefilelog daftar hapus days).final s).datalog := by
  constructor
  · intro hall
    have hne : (0 : ℕ) ≠ 1 := by decide
    have hexact := hall 3 [0, 1] (.calm (4 * day))
      ⟨⟨false, none, none, [], [], []⟩, withLink 0 1, 4 * day⟩ (listing_withLink hne).1
    rw [removesExactly_connect_iff 3 (listing_withLink hne).1] at hexact
    exact unshadowed_withLink hne hexact
  · intro hall
    have hne : (("", 0) : String × ℕ) ≠ ("", 1) := by decide
    have hexact := hall 3 [("", 0), ("", 1)] (.calm (4 * day))
      (.new ∅ (withLink ("", 0) ("", 1))) (listing_withLink hne).1
    rw [removesExactly_collect_iff 3 (listing_withLink hne).1] at hexact
    exact unshadowed_withLink hne hexact

/-! ### The steps of a call -/

/-- The steps of a call of the connect service over the names. -/
def cleanSteps (m : Meets ℕ) : SpoolDir Record → List ℕ → List Action
  | _, [] => [.connect .listed]
  | d, name :: names =>
      .connect (.stat (m.stat name)) ::
        match Deletefilelog.statMtime m d name with
        | none => []
        | some mtime =>
            if Expired 3 (m.clock name) mtime ∧ Directory.isfile d name = true then
              .connect (.remove (m.remove name)) ::
                if m.remove name then cleanSteps m (d.erase name) names else []
            else cleanSteps m d names

section Steps

variable {m : Meets ℕ} {g : Gateway} {name : ℕ} {names : List ℕ}

/-- The gateway after an exception in the loop. -/
def Gateway.gaveUp (g : Gateway) : Gateway :=
  { g with
    connect := .sleep
    self := (logException "Exception occurred deletefilelog").final g.self }

theorem step_stat (hpc : g.connect = .stat (name :: names)) (hclock : m.clock name = g.clock) :
    gateway.step g (.connect (.stat (m.stat name))) =
      some (match Deletefilelog.statMtime m g.spool name with
        | none => g.gaveUp
        | some mtime =>
            if Expired 3 (m.clock name) mtime ∧ Directory.isfile g.spool name = true then
              { g with connect := .remove name names }
            else { g with connect := .stat names }) := by
  have hexpired : ∀ mtime, Expired 3 (m.clock name) mtime ↔ mtime + 3 * day < g.clock := by
    intro mtime
    rw [hclock, ← expired_natCast, Nat.cast_ofNat]
  change g.connectStep _ = _
  simp only [Gateway.connectStep, hpc, Deletefilelog.statMtime, Directory.isfile, hexpired]
  cases m.stat name with
  | false => rfl
  | true =>
      cases hlookup : g.spool.lookup name with
      | none => rfl
      | some e =>
          cases e with
          | file lines mtime =>
              rw [Option.bind_some, expiredFile?_file]
              by_cases hlt : mtime + 3 * day < g.clock
              · rw [decide_eq_true hlt]
                exact congrArg some (if_pos ⟨hlt, rfl⟩).symm
              · rw [decide_eq_false hlt]
                exact congrArg some (if_neg fun h => hlt h.1).symm
          | folder mtime =>
              rw [Option.bind_some, expiredFile?_folder]
              exact congrArg some (if_neg fun h => Bool.false_ne_true h.2).symm
          | dangling => rfl

theorem step_remove (hpc : g.connect = .remove name names)
    (hfile : Directory.isfile g.spool name = true) (returns : Bool) :
    gateway.step g (.connect (.remove returns)) =
      some (if returns then { g with connect := .stat names, spool := g.spool.erase name }
        else g.gaveUp) := by
  have hsome : (g.spool.lookup name).isSome = true := by
    unfold Directory.isfile at hfile
    cases hlookup : g.spool.lookup name with
    | none => simp [hlookup] at hfile
    | some e => rfl
  change g.connectStep _ = _
  simp only [Gateway.connectStep, hpc, hsome, Bool.and_true]
  split
  · rfl
  · rfl

theorem final_connect_cons (p : Process Record) :
    (Connect.deletefilelog (name :: names) m 3).final p =
      match Deletefilelog.statMtime m p.spool name with
      | none =>
          { p with self := (logException "Exception occurred deletefilelog").final p.self }
      | some mtime =>
          if Expired 3 (m.clock name) mtime ∧ Directory.isfile p.spool name = true then
            if m.remove name then
              (Connect.deletefilelog names m 3).final { p with spool := p.spool.erase name }
            else { p with self := (logException "Exception occurred deletefilelog").final p.self }
          else (Connect.deletefilelog names m 3).final p := by
  simp only [Connect.deletefilelog, Stmt.final, Stmt.exec_tryCatch, Stmt.exec_within,
    Deletefilelog.files, Deletefilelog.file, Stmt.exec_bind, Stmt.exec_get]
  cases Deletefilelog.statMtime m p.spool name with
  | none => rfl
  | some mtime =>
      by_cases hexpired : Expired 3 (m.clock name) mtime ∧ Directory.isfile p.spool name = true
      · cases hremove : m.remove name with
        | true => simp [hexpired]
        | false =>
            simp [hexpired]
            rfl
      · simp [hexpired]

/-- Taken one after the other at one time, the steps of the gateway do what a call
of `deletefilelog` does. -/
theorem run_cleanSteps (hpc : g.connect = .stat names) (hclock : ∀ name, m.clock name = g.clock) :
    gateway.run g (cleanSteps m g.spool names) = some { g with
      connect := .sleep
      toProcess := (Connect.deletefilelog names m 3).final g.toProcess } := by
  induction names generalizing g with
  | nil =>
      rw [cleanSteps, Machine.run_cons_eq_some]
      refine ⟨_, ?_, rfl⟩
      change g.connectStep .listed = _
      simp only [Gateway.connectStep, hpc]
      rfl
  | cons name names ih =>
      rw [cleanSteps, Machine.run_cons_eq_some, final_connect_cons]
      refine ⟨_, step_stat hpc (hclock name), ?_⟩
      cases Deletefilelog.statMtime m g.spool name with
      | none => rfl
      | some mtime =>
          dsimp only
          split
          · rename_i hexpired
            rw [Machine.run_cons_eq_some]
            refine ⟨_, step_remove (g := { g with connect := .remove name names }) rfl hexpired.2
              (m.remove name), ?_⟩
            cases m.remove name with
            | true => exact ih rfl hclock
            | false => rfl
          · exact ih rfl hclock

end Steps

end EmsGateway.System
