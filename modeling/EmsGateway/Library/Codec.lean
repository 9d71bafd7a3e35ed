import Mathlib.Tactic.Common

/-!
Formats that end by themselves: what is written is read back whatever comes after
it, and a stream of them is read one by one.
-/

namespace EmsGateway.Library

/-- How a value is written and read. The values that fit are read back. -/
structure Codec (α β : Type) where
  Fits : α → Prop
  write : α → List β
  read : List β → Option (α × List β)
  read_write : ∀ a rest, Fits a → read (write a ++ rest) = some (a, rest)

namespace Codec

variable {α β γ : Type} (c : Codec α β)

/-- Two values, one after the other. -/
def pair (d : Codec γ β) : Codec (α × γ) β where
  Fits p := c.Fits p.1 ∧ d.Fits p.2
  write p := c.write p.1 ++ d.write p.2
  read bs := (c.read bs).bind fun p => (d.read p.2).map fun q => ((p.1, q.1), q.2)
  read_write := by
    rintro ⟨a, b⟩ rest ⟨ha, hb⟩
    simp only [List.append_assoc, c.read_write a _ ha, Option.bind_some, d.read_write b rest hb,
      Option.map_some]

/-- A value that may be missing; whether it is there is known before. -/
def opt (b : Bool) : Codec (Option α) β where
  Fits o := o.isSome = b ∧ ∀ a ∈ o, c.Fits a
  write o := (o.map c.write).getD []
  read bs := if b then (c.read bs).map fun p => (some p.1, p.2) else some (none, bs)
  read_write := by
    rintro o rest ⟨rfl, ho⟩
    cases o with
    | none => rfl
    | some a => simp [c.read_write a rest (ho a rfl)]

/-- The value that is written by these and nothing else. -/
def readExactly (bs : List β) : Option α :=
  (c.read bs).bind fun p => if p.2.isEmpty then some p.1 else none

/-- The values of a stream, at most so many. -/
def readAll : ℕ → List β → Option (List α)
  | _, [] => some []
  | 0, _ => none
  | n + 1, bs => (c.read bs).bind fun p => (readAll n p.2).map (p.1 :: ·)

/-- The values a stream is made of. -/
def parse (bs : List β) : Option (List α) := c.readAll bs.length bs

variable {c}

theorem readExactly_write {a : α} (ha : c.Fits a) : c.readExactly (c.write a) = some a := by
  have hread := c.read_write a [] ha
  rw [List.append_nil] at hread
  rw [readExactly, hread]
  rfl

section Stream

variable (hne : ∀ a, c.write a ≠ [])

include hne

theorem length_le_flatMap (as : List α) : as.length ≤ (as.flatMap c.write).length := by
  induction as with
  | nil => exact Nat.le_refl 0
  | cons a as ih =>
      have hpos := List.length_pos_iff.mpr (hne a)
      rw [List.flatMap_cons, List.length_append, List.length_cons]
      omega

theorem readAll_flatMap {as : List α} (hfits : ∀ a ∈ as, c.Fits a) {n : ℕ} (hn : as.length ≤ n) :
    c.readAll n (as.flatMap c.write) = some as := by
  induction as generalizing n with
  | nil => cases n <;> rfl
  | cons a as ih =>
      cases n with
      | zero => simp at hn
      | succ n =>
          have hnil : (a :: as).flatMap c.write ≠ [] := by
            rw [List.flatMap_cons]
            exact fun h => hne a (List.append_eq_nil_iff.mp h).1
          have hrest := ih (fun b hb => hfits b (List.mem_cons_of_mem a hb))
            (Nat.le_of_succ_le_succ hn)
          rw [readAll.eq_3 _ _ _ hnil, List.flatMap_cons,
            c.read_write a _ (hfits a List.mem_cons_self), Option.bind_some, hrest, Option.map_some]

/-- A stream is read as the values that were written. -/
theorem parse_flatMap {as : List α} (hfits : ∀ a ∈ as, c.Fits a) :
    c.parse (as.flatMap c.write) = some as :=
  readAll_flatMap hne hfits (length_le_flatMap hne as)

end Stream

end Codec

end EmsGateway.Library
