import Mathlib.Data.List.Sort

/-!
Sequences of numbered elements, and sequences whose elements are repeated in
place.
-/

namespace EmsGateway.Library

variable {ι α : Type} [Preorder ι]

/-- Every element of the first sequence is numbered below every element of the
second. -/
def Before (number : α → ι) (xs ys : List α) : Prop := ∀ x ∈ xs, ∀ y ∈ ys, number x < number y

/-- The elements are numbered in strictly increasing order. -/
def Numbered (number : α → ι) (xs : List α) : Prop := xs.Pairwise fun x y => number x < number y

section Numbered

variable {number : α → ι} {xs ys : List α}

@[simp] theorem numbered_nil : Numbered number ([] : List α) := List.Pairwise.nil

theorem numbered_append :
    Numbered number (xs ++ ys) ↔ Numbered number xs ∧ Numbered number ys ∧ Before number xs ys :=
  List.pairwise_append

theorem numbered_concat {y : α} :
    Numbered number (xs ++ [y]) ↔ Numbered number xs ∧ ∀ x ∈ xs, number x < number y := by
  rw [numbered_append]
  simp [Before, Numbered]

theorem Numbered.nodup (h : Numbered number xs) : xs.Nodup :=
  List.Pairwise.imp (fun {a b} (hlt : number a < number b) hab => hlt.ne (congrArg number hab)) h

/-- Elements of an increasingly numbered sequence that are themselves in
increasing order stand in it in that order. -/
theorem Numbered.sublist (hx : Numbered number xs) (hy : Numbered number ys) (hsub : xs ⊆ ys) :
    xs.Sublist ys := by
  let r : α → α → Prop := fun a b => number a < number b
  have : Std.Antisymm r := ⟨fun a b (hab : number a < number b) (hba : number b < number a) =>
    absurd hab (lt_asymm hba)⟩
  exact List.sublist_of_subperm_of_pairwise (r := r) (List.subperm_of_subset hx.nodup hsub) hx hy

end Numbered

/-- `ys` is `xs` with each element repeated once or twice in place. -/
inductive OnceOrTwice : List α → List α → Prop
  | nil : OnceOrTwice [] []
  | once {x : α} {xs ys : List α} : OnceOrTwice xs ys → OnceOrTwice (x :: xs) (x :: ys)
  | twice {x : α} {xs ys : List α} : OnceOrTwice xs ys → OnceOrTwice (x :: xs) (x :: x :: ys)

theorem OnceOrTwice.append {xs xs' ys ys' : List α} (h : OnceOrTwice xs ys)
    (h' : OnceOrTwice xs' ys') : OnceOrTwice (xs ++ xs') (ys ++ ys') := by
  induction h with
  | nil => exact h'
  | once _ ih => exact ih.once
  | twice _ ih => exact ih.twice

theorem OnceOrTwice.subset {xs ys : List α} (h : OnceOrTwice xs ys) : ys ⊆ xs := by
  induction h with
  | nil => exact List.Subset.refl []
  | once _ ih => exact List.cons_subset_cons _ ih
  | twice _ ih => exact List.cons_subset.mpr ⟨List.mem_cons_self, List.cons_subset_cons _ ih⟩

/-- Up to two copies of one element are a repetition of at most that element. -/
theorem exists_onceOrTwice_replicate (x : α) {n : ℕ} (h : n ≤ 2) :
    ∃ sel : List α, sel.Sublist [x] ∧ OnceOrTwice sel (List.replicate n x) := by
  match n, h with
  | 0, _ => exact ⟨[], List.nil_sublist _, .nil⟩
  | 1, _ => exact ⟨[x], List.Sublist.refl _, .once .nil⟩
  | 2, _ => exact ⟨[x], List.Sublist.refl _, .twice .nil⟩

/-! ### What a loop that stops reaches -/

section TakeWhile

variable {α : Type} {p q : α → Bool}

/-- All elements with `q` stand before the first without `p` when none stands
after an element without `p`. -/
theorem mem_takeWhile_iff_pairwise {l : List α} (hnodup : l.Nodup) (hqp : ∀ x, q x → p x) :
    (∀ x ∈ l, q x → x ∈ l.takeWhile p) ↔ l.Pairwise fun a b => p a = false → q b = false := by
  induction l with
  | nil => simp
  | cons a l ih =>
      obtain ⟨ha, hnodup⟩ := List.nodup_cons.mp hnodup
      rw [List.pairwise_cons, ← ih hnodup, List.takeWhile_cons]
      cases hp : p a with
      | true =>
          constructor
          · intro hall
            refine ⟨fun _ _ => nofun, fun x hx hq => ?_⟩
            rcases List.mem_cons.mp (hall x (List.mem_cons_of_mem a hx) hq) with rfl | hmem
            · exact absurd hx ha
            · exact hmem
          · rintro ⟨-, hall⟩ x hx hq
            rcases List.mem_cons.mp hx with rfl | hx
            · exact List.mem_cons_self
            · exact List.mem_cons_of_mem a (hall x hx hq)
      | false =>
          constructor
          · intro hall
            have hnone : ∀ x ∈ l, q x = false := by
              intro x hx
              by_contra hq
              exact List.not_mem_nil (hall x (List.mem_cons_of_mem a hx) (by simpa using hq))
            refine ⟨fun x hx _ => hnone x hx, fun x hx hq => ?_⟩
            rw [hnone x hx] at hq
            cases hq
          · rintro ⟨hnone, -⟩ x hx hq
            rcases List.mem_cons.mp hx with rfl | hx
            · rw [hqp x hq] at hp
              cases hp
            · rw [hnone x hx rfl] at hq
              cases hq

end TakeWhile

end EmsGateway.Library
