import EmsGateway.Library.Machine

/-!
Traces. A machine may show an event in a step, and what must come before what in
the events of a run is decided by folds over them. The pattern here is the
answer: between a trigger and the act after it there is a response.
-/

namespace EmsGateway.Library

section Answered

variable {ε : Type} (trigger response act : ε → Bool)

/-- Between a trigger and the next act there is a response. -/
def Answered (es : List ε) : Prop :=
  ∀ front t mid a rest, es = front ++ t :: (mid ++ a :: rest) → trigger t → act a →
    (∀ e ∈ mid, ¬act e) → ∃ e ∈ mid, response e

/-- Whether a trigger waits for its response after the events. -/
def waits (es : List ε) : Bool := es.foldl (fun w e => trigger e || w && !response e) false

variable {trigger response act}

@[simp] theorem waits_nil : waits trigger response [] = false := rfl

theorem waits_concat (es : List ε) (e : ε) :
    waits trigger response (es ++ [e]) =
      (trigger e || waits trigger response es && !response e) := by
  simp [waits]

/-- A trigger waits when no response has come after it. -/
theorem waits_iff {es : List ε} : waits trigger response es ↔
    ∃ front t mid, es = front ++ t :: mid ∧ trigger t ∧ ∀ e ∈ mid, ¬response e := by
  induction es using List.reverseRecOn with
  | nil => simp
  | append_singleton es e ih =>
      rw [waits_concat, Bool.or_eq_true, Bool.and_eq_true, ih]
      constructor
      · rintro (htrigger | ⟨⟨front, t, mid, rfl, htrigger, hmid⟩, hresponse⟩)
        · exact ⟨es, e, [], rfl, htrigger, by simp⟩
        · refine ⟨front, t, mid ++ [e], by simp, htrigger, ?_⟩
          intro e' he'
          rcases List.mem_append.mp he' with he' | he'
          · exact hmid e' he'
          · rw [List.mem_singleton.mp he']
            simpa using hresponse
      · rintro ⟨front, t, mid, heq, htrigger, hmid⟩
        rcases List.eq_nil_or_concat mid with rfl | ⟨mid, e', rfl⟩
        · obtain ⟨-, heq⟩ := List.append_inj' heq rfl
          obtain rfl := (List.cons.inj heq).1
          exact .inl htrigger
        · rw [List.concat_eq_append, ← List.cons_append, ← List.append_assoc] at heq
          obtain ⟨rfl, hlast⟩ := List.append_inj' heq rfl
          obtain rfl := (List.cons.inj hlast).1
          refine .inr ⟨⟨front, t, mid, rfl, htrigger, ?_⟩, ?_⟩
          · intro e' he'
            exact hmid e' (by simp [he'])
          · simpa using hmid e (by simp)

theorem waits_append {front late : List ε} (h : waits trigger response front)
    (hlate : ∀ e ∈ late, ¬response e) : waits trigger response (front ++ late) := by
  obtain ⟨before, t, mid, rfl, htrigger, hmid⟩ := waits_iff.mp h
  refine waits_iff.mpr ⟨before, t, mid ++ late, by simp, htrigger, ?_⟩
  intro e he
  obtain he | he := List.mem_append.mp he
  · exact hmid e he
  · exact hlate e he

/-- Where an act follows some events there is a first one. -/
theorem exists_first_act {a : ε} (hact : act a) (mid rest : List ε) :
    ∃ first a' late, mid ++ a :: rest = first ++ a' :: late ∧ act a' ∧
      (∀ e ∈ first, ¬act e) ∧ first <+: mid := by
  induction mid with
  | nil => exact ⟨[], a, rest, rfl, hact, by simp, List.prefix_refl []⟩
  | cons e mid ih =>
      by_cases he : act e
      · exact ⟨[], e, mid ++ a :: rest, rfl, he, by simp, List.nil_prefix⟩
      · obtain ⟨first, a', late, hsplit, hact', hfirst, hpre⟩ := ih
        refine ⟨e :: first, a', late, by simp [hsplit], hact', ?_,
          List.cons_prefix_cons.mpr ⟨rfl, hpre⟩⟩
        intro e' he'
        rcases List.mem_cons.mp he' with rfl | he'
        · exact he
        · exact hfirst e' he'

/-- All triggers are answered when none waits at an act. -/
theorem answered_iff {es : List ε} : Answered trigger response act es ↔
    ∀ front a rest, es = front ++ a :: rest → act a → ¬waits trigger response front := by
  constructor
  · intro hanswered front a rest heq hact hwaits
    obtain ⟨before, t, mid, rfl, htrigger, hmid⟩ := waits_iff.mp hwaits
    -- `Answered` speaks of the first act after the trigger, and `a` may be a later one
    obtain ⟨first, a', late, hsplit, hact', hfirst, hpre⟩ := exists_first_act hact mid rest
    have hes : es = before ++ t :: (first ++ a' :: late) := by
      rw [heq, ← hsplit, List.append_assoc, List.cons_append]
    obtain ⟨e, he, hresponse⟩ := hanswered before t first a' late hes htrigger hact' hfirst
    exact hmid e (hpre.subset he) hresponse
  · intro hnone front t mid a rest heq htrigger hact _
    by_contra hresponse
    refine hnone (front ++ t :: mid) a rest (by simp [heq]) hact (waits_iff.mpr ?_)
    exact ⟨front, t, mid, rfl, htrigger, fun e he hr => hresponse ⟨e, he, hr⟩⟩

end Answered

namespace Machine

variable {σ α ε : Type} (M : Machine σ α) (obs : σ → α → Option ε)

/-- The events the steps of a run show. -/
def trace : σ → List α → List ε
  | _, [] => []
  | s, a :: as => (obs s a).toList ++ ((M.step s a).map fun t => trace t as).getD []

variable {M obs}

theorem trace_append {s t : σ} {as : List α} (hrun : M.run s as = some t) (bs : List α) :
    M.trace obs s (as ++ bs) = M.trace obs s as ++ M.trace obs t bs := by
  induction as generalizing s with
  | nil =>
      obtain rfl := Option.some.inj hrun
      rfl
  | cons a as ih =>
      obtain ⟨m, hm, hrest⟩ := run_cons_eq_some.mp hrun
      simp only [List.cons_append, trace, hm, Option.map_some, Option.getD_some, ih hrest,
        List.append_assoc]

theorem trace_concat {s t : σ} {as : List α} (hrun : M.run s as = some t) (a : α) :
    M.trace obs s (as ++ [a]) = M.trace obs s as ++ (obs t a).toList := by
  have hlast : M.trace obs t [a] = (obs t a).toList := by
    cases hstep : M.step t a with
    | none => simp [trace, hstep]
    | some u => simp [trace, hstep]
  rw [trace_append hrun, hlast]

/-- A relation between the state and the events so far that every step preserves
holds at the end of every run. -/
theorem run_trace_invariant {I : σ → List ε → Prop}
    (hstep : ∀ s es a t, I s es → M.step s a = some t → I t (es ++ (obs s a).toList))
    {s t : σ} {as : List α} (hs : I s []) (hrun : M.run s as = some t) :
    I t (M.trace obs s as) := by
  induction as using List.reverseRecOn generalizing t with
  | nil =>
      obtain rfl := Option.some.inj hrun
      exact hs
  | append_singleton as a ih =>
      obtain ⟨m, hm, hlast⟩ := run_concat_eq_some.mp hrun
      rw [trace_concat hm]
      exact hstep m _ a t (ih hm) hlast

/-- The same for the runs of actions in `C`. -/
theorem run_trace_invariant_of {C : α → Prop} {I : σ → List ε → Prop}
    (hstep : ∀ s es a t, I s es → C a → M.step s a = some t → I t (es ++ (obs s a).toList))
    {s t : σ} {as : List α} (hC : ∀ a ∈ as, C a) (hs : I s []) (hrun : M.run s as = some t) :
    I t (M.trace obs s as) := by
  induction as using List.reverseRecOn generalizing t with
  | nil =>
      obtain rfl := Option.some.inj hrun
      exact hs
  | append_singleton as a ih =>
      rw [List.forall_mem_append, List.forall_mem_singleton] at hC
      obtain ⟨m, hm, hlast⟩ := run_concat_eq_some.mp hrun
      rw [trace_concat hm]
      exact hstep m _ a t (ih hC.1 hm) hC.2 hlast

theorem toList_append_eq {o : Option ε} {late front rest : List ε} {e : ε}
    (h : o.toList ++ late = front ++ e :: rest) :
    o = some e ∧ front = [] ∨
      ∃ front', front = o.toList ++ front' ∧ late = front' ++ e :: rest := by
  cases o with
  | none => exact .inr ⟨front, rfl, h⟩
  | some e' =>
      rw [Option.toList_some, List.singleton_append] at h
      cases front with
      | nil => exact .inl ⟨congrArg some (List.cons.inj h).1, rfl⟩
      | cons f front =>
          rw [List.cons_append] at h
          obtain ⟨rfl, hlate⟩ := List.cons.inj h
          exact .inr ⟨front, rfl, hlate⟩

/-- An event of a trace was shown by a step of the run, after the events before
it. -/
theorem exists_of_trace_eq {s : σ} {as : List α} {front rest : List ε} {e : ε}
    (h : M.trace obs s as = front ++ e :: rest) :
    ∃ bs a t, bs ++ [a] <+: as ∧ M.run s bs = some t ∧ M.trace obs s bs = front ∧
      obs t a = some e := by
  induction as generalizing s front with
  | nil => simp [trace] at h
  | cons a as ih =>
      rw [trace] at h
      rcases toList_append_eq h with ⟨hevent, rfl⟩ | ⟨front', rfl, hlate⟩
      · exact ⟨[], a, s, ⟨as, rfl⟩, rfl, rfl, hevent⟩
      · cases hstep : M.step s a with
        | none => simp [hstep] at hlate
        | some m =>
            rw [hstep] at hlate
            obtain ⟨bs, b, t, hpre, hrun, htrace, hevent⟩ := ih hlate
            refine ⟨a :: bs, b, t, List.cons_prefix_cons.mpr ⟨rfl, hpre⟩,
              run_cons_eq_some.mpr ⟨m, hstep, hrun⟩, ?_, hevent⟩
            simp only [trace, hstep, Option.map_some, Option.getD_some, htrace]

/-- What every step from an invariant state shows, every event of a trace is. -/
theorem forall_mem_trace {I : σ → Prop} {P : ε → Prop}
    (hstep : ∀ s a t, I s → M.step s a = some t → I t)
    (hobs : ∀ s a e, I s → obs s a = some e → P e) {s : σ} {as : List α} (hs : I s) :
    ∀ e ∈ M.trace obs s as, P e := by
  intro e he
  obtain ⟨front, rest, hsplit⟩ := List.append_of_mem he
  obtain ⟨bs, a, t, -, hrun, -, hevent⟩ := exists_of_trace_eq hsplit
  exact hobs t a e (run_invariant hstep hs hrun) hevent

end Machine

end EmsGateway.Library
