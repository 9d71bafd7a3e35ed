import EmsGateway.System.Order
import EmsGateway.System.PassRun

/-!
The connect service is killed between two steps of a pass. The lines of the
file are safe until it is truncated, and then only when all of them have been
handed over and confirmed.
-/

namespace EmsGateway.System

open EmsGateway.Library EmsGateway.Connect

/-- The connect service dies: its container restarts, or restart.py reboots the
device. -/
def kills : Action → Bool
  | .killConnect => true
  | .reboot ping₁ ping₂ => reboots ping₁ ping₂
  | _ => false

theorem step_of_kills {kill : Action} (hkill : kills kill = true) (g : Gateway) :
    ∃ g', gateway.step g kill = some g' ∧ g'.self = g.self ∧ g'.spool = g.spool := by
  cases kill with
  | killConnect => exact ⟨{ g with connect := .down }, rfl, rfl, rfl⟩
  | reboot ping₁ ping₂ =>
      exact ⟨{ g with collect := .idle, connect := .down }, if_pos hkill, rfl, rfl⟩
  | tick | datakirim | write | connect | killSending => cases hkill

/-- Every line that was in the spool in the first state is, in the second,
confirmed by the broker or still in a spool file. -/
def Safe (g g' : Gateway) : Prop :=
  ∀ m, ∀ x ∈ Directory.lines g.spool m,
    x ∈ confirmedBodies g'.self.calls ∨ ∃ m', x ∈ Directory.lines g'.spool m'

/-- All the lines are among the first `k` that were confirmed exactly when the
first `k` are all the lines and every call ends with a confirmed publish. -/
theorem subset_confirmedLines_take_iff {ch : Option Channel} {r : ℕ → SendReplies}
    {lines : List Record} (hnodup : lines.Nodup) {k : ℕ} (hk : k ≤ lines.length) :
    lines ⊆ confirmedLines ch r (lines.take k) ↔
      k = lines.length ∧ ∀ i < lines.length, sent ch r i = true := by
  have hsublist := confirmedLines_sublist ch r (lines.take k)
  constructor
  · intro hsub
    have hle := (List.subperm_of_subset hnodup hsub).length_le
    have hge := hsublist.length_le
    rw [List.length_take_of_le hk] at hge
    obtain rfl : k = lines.length := by omega
    rw [List.take_length] at hsublist hle
    have heq := hsublist.eq_of_length_le hle
    exact ⟨rfl, (confirmedLines_eq_self_iff ch r lines).mp heq⟩
  · rintro ⟨rfl, hall⟩
    rw [List.take_length, (confirmedLines_eq_self_iff ch r lines).mpr hall]
    exact List.Subset.refl lines

section Pass

variable {g : Gateway} {name : ℕ} {lines : List Record}

/-- The state of a pass after its truncating open and `n` further steps. -/
theorem run_take_passSteps (hpc : g.connect = .read) (hname : g.self.filekirimsensor = some name)
    (hread : Directory.readlines g.spool name = some lines) (r : ℕ → SendReplies) (n : ℕ) :
    ∃ g', gateway.run g ((passSteps r lines.length).take (n + 2)) = some g' ∧
      Directory.truncate g.spool name g.clock = some g'.spool ∧
      g'.self = (sendLines r (lines.take n)).final g.self := by
  rcases Nat.lt_or_ge lines.length n with hlt | hle
  · -- the pass has returned
    obtain ⟨spool, htruncate, hpass⟩ := exec_sendfromlog hname hread r
    have htake : (passSteps r lines.length).take (n + 2) = passSteps r lines.length := by
      apply List.take_of_length_le
      rw [passSteps, List.length_append, length_opens_sends]
      exact Nat.succ_le_succ (Nat.succ_le_succ hlt)
    refine ⟨_, htake ▸ run_passSteps hpc hname hread r, ?_, ?_⟩
    · show _ = some ((sendfromlog r).final g.toProcess).spool
      rw [Stmt.final, hpass]
      exact htruncate
    · show ((sendfromlog r).final g.toProcess).self = _
      rw [Stmt.final, hpass, List.take_of_length_le hlt.le]
      rfl
  · obtain ⟨spool, htruncate, hrun⟩ := run_upToSends hpc hname hread r n hle
    have htake : (passSteps r lines.length).take (n + 2) = opens ++ sends r n := by
      rw [passSteps, List.take_append_of_le_length (by rw [length_opens_sends]; omega)]
      exact congrArg (opens ++ ·) (take_sends r n lines.length hle)
    exact ⟨_, htake ▸ hrun, htruncate, rfl⟩

/-- Once the file is truncated the lines are safe exactly when the calls since then
confirmed all that were in it. -/
theorem safe_iff_of_truncate {clock : ℕ} {as : List Action}
    (hrun : gateway.run (.init clock) as = some g) {g' : Gateway}
    (htruncate : Directory.truncate g.spool name g.clock = some g'.spool) {es : List (Event Record)}
    (hcalls : g'.self.calls = g.self.calls ++ es) :
    Safe g g' ↔ Directory.lines g.spool name ⊆ confirmedBodies es := by
  constructor
  · intro h x hx
    rcases h name x hx with hconfirmed | ⟨m, hmem⟩
    · rw [hcalls, confirmedBodies_append] at hconfirmed
      exact (List.mem_append.mp hconfirmed).resolve_left (not_confirmed_of_stored hrun hx)
    · exact absurd hmem ((valid_of_run hrun).not_mem_lines_of_truncate htruncate hx m)
  · intro h m x hx
    by_cases hm : m = name
    · rw [hm] at hx
      rw [hcalls, confirmedBodies_append]
      exact .inl (List.mem_append_right _ (h hx))
    · -- the other files are not touched
      refine .inr ⟨m, ?_⟩
      rw [Directory.lines_truncate htruncate, if_neg hm]
      exact hx

/-- After the truncating open and `n` further steps the lines are safe exactly
when these have handed all of them over and all are confirmed. -/
theorem safe_after_truncate {clock : ℕ} {as : List Action}
    (hrun : gateway.run (.init clock) as = some g)
    (hread : Directory.readlines g.spool name = some lines) (r : ℕ → SendReplies) (n : ℕ)
    {g' : Gateway} (htruncate : Directory.truncate g.spool name g.clock = some g'.spool)
    (hself : g'.self = (sendLines r (lines.take n)).final g.self) :
    Safe g g' ↔ lines.length ≤ n ∧ ∀ i < lines.length, sent g.self.channel r i = true := by
  have hvalid := valid_of_run hrun
  have hlines : Directory.lines g.spool name = lines := Directory.lines_eq_of_readlines hread
  obtain ⟨log, es, hsend, hes⟩ :=
    exec_sendLines r (lines.take n) g.self hvalid.client.flag hvalid.client.mode
  have hcalls : g'.self.calls = g.self.calls ++ es := by
    rw [hself, Stmt.final, hsend]
    rfl
  have hnodup : lines.Nodup := by
    rw [← hlines]
    exact (hvalid.relay.stored.numbered name).nodup
  have hmin : min n lines.length = lines.length ↔ lines.length ≤ n := by omega
  rw [safe_iff_of_truncate hrun htruncate hcalls, hlines, hes, List.take_eq_take_min,
    subset_confirmedLines_take_iff hnodup (Nat.min_le_right n lines.length), hmin]

/-- When the service is killed after `n` steps of a pass, every line that was in
the spool is confirmed or on disk if and only if the file was not yet truncated,
or all its lines were handed over and confirmed. -/
theorem safe_of_killed_iff {clock : ℕ} {as : List Action}
    (hrun : gateway.run (.init clock) as = some g) (hpc : g.connect = .read)
    (hname : g.self.filekirimsensor = some name)
    (hread : Directory.readlines g.spool name = some lines) (r : ℕ → SendReplies) (n : ℕ)
    {kill : Action} (hkill : kills kill = true) :
    ∃ g', gateway.run g ((passSteps r lines.length).take n ++ [kill]) = some g' ∧
      (Safe g g' ↔ n < 2 ∨
        lines.length + 2 ≤ n ∧ ∀ i < lines.length, sent g.self.channel r i = true) := by
  -- the state before the kill, and whether the lines are safe in it
  obtain ⟨g₁, hrun₁, hsafe⟩ : ∃ g₁, gateway.run g ((passSteps r lines.length).take n) = some g₁ ∧
      (Safe g g₁ ↔ n < 2 ∨
        lines.length + 2 ≤ n ∧ ∀ i < lines.length, sent g.self.channel r i = true) := by
    match n with
    | 0 => exact ⟨g, rfl, iff_of_true (fun m x hx => .inr ⟨m, hx⟩) (.inl (by omega))⟩
    | 1 =>
        refine ⟨_, Machine.run_cons_eq_some.mpr ⟨_, step_read hpc hname hread, rfl⟩, ?_⟩
        exact iff_of_true (fun m x hx => .inr ⟨m, hx⟩) (.inl (by omega))
    | n + 2 =>
        obtain ⟨g₁, hrun₁, htruncate, hself⟩ := run_take_passSteps hpc hname hread r n
        refine ⟨g₁, hrun₁, ?_⟩
        rw [safe_after_truncate hrun hread r n htruncate hself]
        constructor
        · rintro ⟨hle, hsent⟩
          exact .inr ⟨by omega, hsent⟩
        · rintro (hlt | ⟨hle, hsent⟩)
          · omega
          · exact ⟨by omega, hsent⟩
  obtain ⟨g', hstep, hself, hspool⟩ := step_of_kills hkill g₁
  refine ⟨g', Machine.run_concat_eq_some.mpr ⟨g₁, hrun₁, hstep⟩, ?_⟩
  rw [← hsafe, Safe, Safe, hself, hspool]

end Pass

theorem safe_of_killed_iff_oneRecord :
    ∃ g, gateway.run (.init 0) (spooled "{}" ++ started ++ upToPass) = some g ∧
      ∃ g', gateway.run g
          ((passSteps (fun _ => .all .ok) 1).take 3 ++ [.reboot false false]) = some g' ∧
        (Safe g g' ↔ 3 < 2 ∨
          1 + 2 ≤ 3 ∧ ∀ i < 1, sent g.self.channel (fun _ => .all .ok) i = true) :=
  ⟨_, rfl, @safe_of_killed_iff _ _ [⟨0, 0, 0, "{}"⟩] 0 (spooled "{}" ++ started ++ upToPass) rfl rfl
    rfl rfl (fun _ => .all .ok) 3 _ rfl⟩

/-- A record is lost when the service is killed right after the truncating open. -/
theorem not_safe_of_killed :
    ¬∀ (clock : ℕ) (as : List Action) (g : Gateway) (name : ℕ) (lines : List Record)
        (r : ℕ → SendReplies) (n : ℕ) (kill : Action) (g' : Gateway),
      gateway.run (.init clock) as = some g → g.connect = .read →
      g.self.filekirimsensor = some name → Directory.readlines g.spool name = some lines →
      kills kill = true →
      gateway.run g ((passSteps r lines.length).take n ++ [kill]) = some g' → Safe g g' := by
  intro hsafe
  have hlost := hsafe 0 (spooled "{}" ++ started ++ upToPass) _ 0 [⟨0, 0, 0, "{}"⟩]
    (fun _ => .all .ok) 2 .killConnect _ rfl rfl rfl rfl rfl rfl
  rcases hlost 0 ⟨0, 0, 0, "{}"⟩ (by decide) with hconfirmed | ⟨m, hmem⟩
  · revert hconfirmed
    decide
  · -- a file that holds the record is the file of its date
    have hfiles := (@valid_of_run 0
      (spooled "{}" ++ started ++ upToPass ++ opens ++ [.killConnect]) _ rfl).relay.stored
    obtain rfl : 0 = m := (hfiles.produced m _ hmem).2
    revert hmem
    decide

end EmsGateway.System
