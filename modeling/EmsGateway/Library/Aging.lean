import Mathlib.Data.List.Infix

/-!
Items that age. They are written into buckets, a bucket is stamped with the time
of the last write to it, and a bucket may be removed once its stamp is older than
a limit. Deletion goes by buckets, and still no item is lost before its own time:
the stamp of its bucket is never older than the item.
-/

namespace EmsGateway.Library

/-- An item with the bucket and the time it was written. -/
structure Written (ν α : Type) where
  bucket : ν
  time : ℕ
  item : α

/-- Buckets named by `ν`, with the writes made to them so far. -/
structure Aging (ν α : Type) where
  now : ℕ
  content : ν → List α
  stamp : ν → Option ℕ
  written : List (Written ν α)

namespace Aging

variable {ν α : Type} [DecidableEq ν]

/-- Time passes, an item is written, a bucket that is old enough is removed. -/
inductive Move (limit : ℕ) (r : Aging ν α) : Aging ν α → Prop
  | tick (dt : ℕ) : Move limit r { r with now := r.now + dt }
  | write (b : ν) (x : α) : Move limit r { r with
      content := Function.update r.content b (r.content b ++ [x])
      stamp := Function.update r.stamp b (some r.now)
      written := r.written ++ [⟨b, r.now, x⟩] }
  | remove (b : ν) (stamp : ℕ) (hstamp : r.stamp b = some stamp) (hold : stamp + limit < r.now) :
      Move limit r { r with
        content := Function.update r.content b []
        stamp := Function.update r.stamp b none }

/-- The writes to a bucket. -/
def writes (r : Aging ν α) (b : ν) : List (Written ν α) := r.written.filter fun w => w.bucket = b

/-- The writes to a bucket are old ones, and then those whose items end its
content; the stamp is not older than these. -/
structure Split (limit : ℕ) (r : Aging ν α) (b : ν) (old kept : List (Written ν α)) : Prop where
  writes : r.writes b = old ++ kept
  old : ∀ w ∈ old, w.time + limit < r.now
  content : kept.map Written.item <:+ r.content b
  stamp : ∀ w ∈ kept, ∃ stamp, r.stamp b = some stamp ∧ w.time ≤ stamp

/-- The invariant of aging buckets. -/
structure Kept (limit : ℕ) (r : Aging ν α) : Prop where
  past : ∀ w ∈ r.written, w.time ≤ r.now
  split : ∀ b, ∃ old kept, Split limit r b old kept

variable {limit : ℕ} {r r' : Aging ν α} {b c : ν}

theorem kept_of_written_eq_nil (h : r.written = []) : Kept limit r where
  past := by simp [h]
  split b := ⟨[], [], by simp [writes, h], by simp, List.nil_suffix, by simp⟩

theorem Split.tick {old kept : List (Written ν α)} (h : Split limit r b old kept) (dt : ℕ) :
    Split limit { r with now := r.now + dt } b old kept where
  writes := h.writes
  old w hw := Nat.lt_add_right dt (h.old w hw)
  content := h.content
  stamp := h.stamp

theorem Split.write {old kept : List (Written ν α)} (h : Split limit r b old kept)
    (hpast : ∀ w ∈ r.written, w.time ≤ r.now) (c : ν) (x : α) :
    ∃ kept', Split limit { r with
      content := Function.update r.content c (r.content c ++ [x])
      stamp := Function.update r.stamp c (some r.now)
      written := r.written ++ [⟨c, r.now, x⟩] } b old kept' := by
  by_cases hbc : b = c
  · subst hbc
    refine ⟨kept ++ [⟨b, r.now, x⟩], ?_, h.old, ?_, ?_⟩
    · have hwrites := h.writes
      unfold Aging.writes at hwrites ⊢
      rw [List.filter_append, hwrites]
      simp
    · obtain ⟨before, hbefore⟩ := h.content
      refine ⟨before, ?_⟩
      simp [← hbefore]
    · intro w hw
      refine ⟨r.now, Function.update_self b _ _, ?_⟩
      rcases List.mem_append.mp hw with hw | hw
      · have hmem : w ∈ r.writes b := h.writes ▸ List.mem_append_right old hw
        exact hpast w (List.mem_filter.mp hmem).1
      · rw [List.mem_singleton.mp hw]
  · refine ⟨kept, ?_, h.old, ?_, ?_⟩
    · have hwrites := h.writes
      unfold Aging.writes at hwrites ⊢
      rw [List.filter_append, hwrites]
      simp [Ne.symm hbc]
    · simpa only [Function.update_of_ne hbc] using h.content
    · simpa only [Function.update_of_ne hbc] using h.stamp

/-- A removal makes all writes to its bucket old ones. -/
theorem Split.remove {old kept : List (Written ν α)} (h : Split limit r b old kept) {stamp : ℕ}
    (hstamp : r.stamp c = some stamp) (hold : stamp + limit < r.now) :
    ∃ old' kept', Split limit { r with
      content := Function.update r.content c []
      stamp := Function.update r.stamp c none } b old' kept' := by
  by_cases hbc : b = c
  · subst hbc
    refine ⟨old ++ kept, [], ?_, ?_, List.nil_suffix, by simp⟩
    · rw [List.append_nil]
      exact h.writes
    · intro w hw
      rcases List.mem_append.mp hw with hw | hw
      · exact h.old w hw
      · -- the stamp of the bucket is at least as late as its writes
        obtain ⟨stamp', hstamp', hle⟩ := h.stamp w hw
        obtain rfl := Option.some.inj (hstamp.symm.trans hstamp')
        show w.time + limit < r.now
        omega
  · refine ⟨old, kept, h.writes, h.old, ?_, ?_⟩
    · simpa only [Function.update_of_ne hbc] using h.content
    · simpa only [Function.update_of_ne hbc] using h.stamp

theorem kept_move (h : Kept limit r) (hmove : Move limit r r') : Kept limit r' := by
  cases hmove with
  | tick dt =>
      refine ⟨fun w hw => Nat.le_add_right_of_le (h.past w hw), fun b => ?_⟩
      obtain ⟨old, kept, hsplit⟩ := h.split b
      exact ⟨old, kept, hsplit.tick dt⟩
  | write c x =>
      refine ⟨?_, fun b => ?_⟩
      · intro w hw
        rcases List.mem_append.mp hw with hw | hw
        · exact h.past w hw
        · rw [List.mem_singleton.mp hw]
      · obtain ⟨old, kept, hsplit⟩ := h.split b
        obtain ⟨kept', hsplit'⟩ := hsplit.write h.past c x
        exact ⟨old, kept', hsplit'⟩
  | remove c stamp hstamp hold =>
      refine ⟨h.past, fun b => ?_⟩
      obtain ⟨old, kept, hsplit⟩ := h.split b
      exact hsplit.remove hstamp hold

/-- The items written to a bucket within the limit are in it, in order. -/
theorem Kept.young_sublist (h : Kept limit r) (b : ν) :
    ((r.writes b).filter fun w => r.now ≤ w.time + limit).map Written.item
      |>.Sublist (r.content b) := by
  obtain ⟨old, kept, hsplit⟩ := h.split b
  have hold : old.filter (fun w => r.now ≤ w.time + limit) = [] := by
    refine List.filter_eq_nil_iff.mpr fun w hw => ?_
    have hlt := hsplit.old w hw
    simpa using hlt
  rw [hsplit.writes, List.filter_append, hold, List.nil_append]
  exact (List.filter_sublist.map _).trans hsplit.content.sublist

end Aging

end EmsGateway.Library
