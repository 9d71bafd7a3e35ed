import Mathlib.Data.List.Infix

/-!
Guarded executable machines. One step function serves replay and proof: a run
is a list of actions, a concrete run is evaluated, and an invariant of the
steps holds in every state a run passes through.
-/

namespace EmsGateway.Library

/-- A machine whose `step s a` is `none` when the action `a` is not enabled in
the state `s`. -/
structure Machine (σ α : Type) where
  step : σ → α → Option σ

namespace Machine

variable {σ τ α : Type} (M : Machine σ α)

/-- Perform the actions in order. -/
def run : σ → List α → Option σ
  | s, [] => some s
  | s, a :: as => (M.step s a).bind fun t => run t as

/-- The states a run passes through, its first and its last state included. -/
def Visits (s : σ) (as : List α) (t : σ) : Prop := ∃ bs, bs <+: as ∧ M.run s bs = some t

/-- Every step of the run is taken from a state and by an action in `C`. -/
def Along (C : σ → α → Prop) : σ → List α → Prop
  | _, [] => True
  | s, a :: as => C s a ∧ ∀ t, M.step s a = some t → Along C t as

/-- The run comes to a step that is taken from a state and by an action in `C`. -/
def Meets (C : σ → α → Prop) (s : σ) (as : List α) : Prop :=
  ∃ bs a t, bs ++ [a] <+: as ∧ M.run s bs = some t ∧ C t a

/-- Whether a concrete run stays in `C` can be evaluated. -/
instance decidableAlong (C : σ → α → Prop) [∀ s a, Decidable (C s a)] :
    ∀ s as, Decidable (M.Along C s as)
  | _, [] => .isTrue trivial
  | s, a :: as =>
      have : Decidable (∀ t, M.step s a = some t → M.Along C t as) :=
        match _h : M.step s a with
        | none => .isTrue fun _ ht => nomatch ht
        | some u =>
            have := decidableAlong C u as
            decidable_of_iff (M.Along C u as)
              ⟨fun hu _ ht => Option.some.inj ht ▸ hu, fun hall => hall u rfl⟩
      inferInstanceAs (Decidable (C s a ∧ _))

variable {M}

@[simp] theorem run_nil (s : σ) : M.run s [] = some s := rfl

theorem run_cons_eq_some {s u : σ} {a : α} {as : List α} :
    M.run s (a :: as) = some u ↔ ∃ t, M.step s a = some t ∧ M.run t as = some u := by
  simp [run, Option.bind_eq_some_iff]

theorem run_append {s : σ} {as bs : List α} :
    M.run s (as ++ bs) = (M.run s as).bind fun t => M.run t bs := by
  induction as generalizing s with
  | nil => rfl
  | cons a as ih => simp [run, ih, Option.bind_assoc]

theorem run_append_eq_some {s u : σ} {as bs : List α} :
    M.run s (as ++ bs) = some u ↔ ∃ t, M.run s as = some t ∧ M.run t bs = some u := by
  simp [run_append, Option.bind_eq_some_iff]

theorem run_concat_eq_some {s u : σ} {as : List α} {a : α} :
    M.run s (as ++ [a]) = some u ↔ ∃ t, M.run s as = some t ∧ M.step t a = some u := by
  simp [run_append_eq_some, run_cons_eq_some]

/-- A predicate preserved by every step from a state and by an action in `C` is
preserved by every run whose steps are all in `C`. -/
theorem Along.run_invariant {C : σ → α → Prop} {I : σ → Prop}
    (hstep : ∀ s a t, I s → C s a → M.step s a = some t → I t)
    {s t : σ} {as : List α} (halong : M.Along C s as) (hs : I s)
    (hrun : M.run s as = some t) : I t := by
  induction as generalizing s with
  | nil =>
      simp only [run_nil, Option.some.injEq] at hrun
      exact hrun ▸ hs
  | cons a as ih =>
      obtain ⟨m, hm, hrest⟩ := run_cons_eq_some.mp hrun
      exact ih (halong.2 m hm) (hstep s a m hs halong.1 hm) hrest

theorem along_true (s : σ) (as : List α) : M.Along (fun _ _ => True) s as := by
  induction as generalizing s with
  | nil => trivial
  | cons a as ih => exact ⟨trivial, fun t _ => ih t⟩

/-- A predicate preserved by every step is preserved by every run. -/
theorem run_invariant {I : σ → Prop} (hstep : ∀ s a t, I s → M.step s a = some t → I t)
    {s t : σ} {as : List α} (hs : I s) (hrun : M.run s as = some t) : I t :=
  (along_true s as).run_invariant (fun s a t hI _ h => hstep s a t hI h) hs hrun

theorem Along.and {C D : σ → α → Prop} {s : σ} {as : List α} (hC : M.Along C s as)
    (hD : M.Along D s as) : M.Along (fun s a => C s a ∧ D s a) s as := by
  induction as generalizing s with
  | nil => trivial
  | cons a as ih => exact ⟨⟨hC.1, hD.1⟩, fun t ht => ih (hC.2 t ht) (hD.2 t ht)⟩

theorem Along.of_prefix {C : σ → α → Prop} {s : σ} {as bs : List α} (h : M.Along C s as)
    (hpre : bs <+: as) : M.Along C s bs := by
  induction bs generalizing s as with
  | nil => trivial
  | cons b bs ih =>
      obtain ⟨rest, rfl⟩ := hpre
      exact ⟨h.1, fun t ht => ih (h.2 t ht) (List.prefix_append bs rest)⟩

/-- The run rule for every state a run passes through. -/
theorem Along.visits_invariant {C : σ → α → Prop} {I : σ → Prop}
    (hstep : ∀ s a t, I s → C s a → M.step s a = some t → I t)
    {s t : σ} {as : List α} (halong : M.Along C s as) (hs : I s)
    (hvisit : M.Visits s as t) : I t := by
  obtain ⟨bs, hpre, hrun⟩ := hvisit
  exact (halong.of_prefix hpre).run_invariant hstep hs hrun

/-- Steps of a run are in `C` as soon as every step between two states it passes
through is. -/
theorem along_of_visits {C : σ → α → Prop} {s : σ} {as : List α}
    (h : ∀ bs a t, bs ++ [a] <+: as → M.run s bs = some t → C t a) : M.Along C s as := by
  induction as generalizing s with
  | nil => trivial
  | cons a as ih =>
      refine ⟨h [] a s ⟨as, rfl⟩ rfl, fun t ht => ih fun bs b u hpre hrun => ?_⟩
      exact h (a :: bs) b u (List.cons_prefix_cons.mpr ⟨rfl, hpre⟩)
        (run_cons_eq_some.mpr ⟨t, ht, hrun⟩)

theorem not_meets_nil {C : σ → α → Prop} (s : σ) : ¬M.Meets C s [] := by
  rintro ⟨bs, a, t, hpre, -⟩
  have hlen := hpre.length_le
  rw [List.length_append, List.length_singleton, List.length_nil] at hlen
  omega

theorem meets_cons {C : σ → α → Prop} {s : σ} {a : α} {as : List α} :
    M.Meets C s (a :: as) ↔ C s a ∨ ∃ t, M.step s a = some t ∧ M.Meets C t as := by
  constructor
  · rintro ⟨bs, b, t, hpre, hrun, hC⟩
    cases bs with
    | nil =>
        obtain rfl := Option.some.inj hrun
        obtain ⟨rfl, -⟩ := List.cons_prefix_cons.mp hpre
        exact .inl hC
    | cons c bs =>
        obtain ⟨rfl, htail⟩ := List.cons_prefix_cons.mp hpre
        obtain ⟨m, hstep, hrest⟩ := run_cons_eq_some.mp hrun
        exact .inr ⟨m, hstep, bs, b, t, htail, hrest, hC⟩
  · rintro (hC | ⟨m, hstep, bs, b, t, hpre, hrun, hC⟩)
    · exact ⟨[], a, s, List.prefix_append [a] as, rfl, hC⟩
    · exact ⟨a :: bs, b, t, List.cons_prefix_cons.mpr ⟨rfl, hpre⟩,
        run_cons_eq_some.mpr ⟨m, hstep, hrun⟩, hC⟩

/-- A run fails where it comes to an action that is not enabled. -/
theorem run_eq_none_iff {s : σ} {as : List α} :
    M.run s as = none ↔ M.Meets (fun t a => M.step t a = none) s as := by
  induction as generalizing s with
  | nil => exact iff_of_false (Option.some_ne_none s) (not_meets_nil s)
  | cons a as ih =>
      rw [meets_cons, run]
      cases hstep : M.step s a with
      | none => simp
      | some t => simp [ih]

/-- What does not hold at the start of a run and holds at its end has begun to hold in
some step, and held ever since. -/
theorem exists_switch {P : σ → Prop} {s t : σ} {as : List α} (hrun : M.run s as = some t)
    (hs : ¬P s) (ht : P t) :
    ∃ bs a cs u v, as = bs ++ a :: cs ∧ M.run s bs = some u ∧ ¬P u ∧ M.step u a = some v ∧
      M.run v cs = some t ∧ ∀ w, M.Visits v cs w → P w := by
  induction as using List.reverseRecOn generalizing t with
  | nil =>
      obtain rfl := Option.some.inj hrun
      exact absurd ht hs
  | append_singleton as a ih =>
      obtain ⟨m, hfront, hlast⟩ := run_concat_eq_some.mp hrun
      by_cases hm : P m
      · obtain ⟨bs, b, cs, u, v, rfl, hbefore, hu, hstep, hafter, hsince⟩ := ih hfront hm
        refine ⟨bs, b, cs ++ [a], u, v, by simp, hbefore, hu, hstep,
          run_concat_eq_some.mpr ⟨m, hafter, hlast⟩, ?_⟩
        rintro w ⟨ds, hpre, hw⟩
        obtain rfl | hpre := List.prefix_concat_iff.mp hpre
        · rw [run_append, hafter] at hw
          obtain rfl := Option.some.inj ((run_cons_eq_some.mpr ⟨t, hlast, rfl⟩).symm.trans hw)
          exact ht
        · exact hsince w ⟨ds, hpre, hw⟩
      · -- it did not hold before the last step, so this is the one
        refine ⟨as, a, [], m, t, rfl, hfront, hm, hlast, rfl, ?_⟩
        rintro w ⟨ds, hpre, hw⟩
        obtain rfl := List.prefix_nil.mp hpre
        obtain rfl := Option.some.inj hw
        exact ht

/-! ### Machines that do what others do -/

variable {β : Type} {N : Machine τ β}

/-- What a run is in the actions of another machine, of which a step may be several or
none. -/
def image (M : Machine σ α) (φ : σ → α → List β) : σ → List α → List β
  | _, [] => []
  | s, a :: as => φ s a ++ ((M.step s a).map fun t => image M φ t as).getD []

/-- When each step of a machine is a run of another, from a related state to a related
state, so is each of its runs. -/
theorem run_image {φ : σ → α → List β} {R : σ → τ → Prop} {C : α → Prop}
    (hstep : ∀ s u a t, R s u → C a → M.step s a = some t →
      ∃ v, N.run u (φ s a) = some v ∧ R t v)
    {s t : σ} {u : τ} {as : List α} (hC : ∀ a ∈ as, C a) (hR : R s u)
    (hrun : M.run s as = some t) : ∃ v, N.run u (M.image φ s as) = some v ∧ R t v := by
  induction as generalizing s u with
  | nil =>
      obtain rfl := Option.some.inj hrun
      exact ⟨u, rfl, hR⟩
  | cons a as ih =>
      obtain ⟨m, hfirst, hrest⟩ := run_cons_eq_some.mp hrun
      obtain ⟨hCa, hCas⟩ := List.forall_mem_cons.mp hC
      obtain ⟨w, hw, hRw⟩ := hstep s u a m hR hCa hfirst
      obtain ⟨v, hv, hRv⟩ := ih hCas hRw hrest
      refine ⟨v, ?_, hRv⟩
      rw [image, hfirst, Option.map_some, Option.getD_some]
      exact run_append_eq_some.mpr ⟨w, hw, hv⟩

end Machine

end EmsGateway.Library
