import Mathlib.Logic.Function.Basic
import Mathlib.Tactic.Common

/-!
Arrays of a fixed size. What stands in the cells is a function of the index, and
an operation on a cell outside of the array is `none`.
-/

namespace EmsGateway.Library

/-- What stands in the cells of an array. -/
abbrev Buffer (β : Type) := ℕ → β

namespace Buffer

variable {β : Type} (size : ℕ)

/-- Write a cell. -/
def put (m : Buffer β) (i : ℕ) (v : β) : Option (Buffer β) :=
  if i < size then some (Function.update m i v) else none

/-- Write cells one after the other. -/
def putAll (m : Buffer β) : ℕ → List β → Option (Buffer β)
  | _, [] => some m
  | i, v :: vs => (put size m i v).bind fun m => putAll m (i + 1) vs

/-- So many cells from an index on. -/
def slice (m : Buffer β) (a n : ℕ) : List β := (List.range n).map fun i => m (a + i)

/-- Read cells one after the other. -/
def read (m : Buffer β) (a n : ℕ) : Option (List β) :=
  if a + n ≤ size then some (slice m a n) else none

/-- The array with the values from an index on. -/
def overwrite (m : Buffer β) (a : ℕ) (vs : List β) : Buffer β :=
  fun i => if a ≤ i then (vs[i - a]?).getD (m i) else m i

variable {size} {m : Buffer β} {a i n : ℕ} {vs : List β}

theorem overwrite_of_lt (h : i < a) : overwrite m a vs i = m i := if_neg (by omega)

theorem overwrite_of_le (h : a + vs.length ≤ i) : overwrite m a vs i = m i := by
  rw [overwrite, if_pos (by omega), List.getElem?_eq_none (by omega), Option.getD_none]

theorem overwrite_add (h : i < vs.length) : overwrite m a vs (a + i) = vs[i] := by
  rw [overwrite, if_pos (by omega), Nat.add_sub_cancel_left, List.getElem?_eq_getElem h,
    Option.getD_some]

@[simp] theorem overwrite_nil (m : Buffer β) (a : ℕ) : overwrite m a [] = m := by
  ext i
  simp [overwrite]

theorem overwrite_cons (m : Buffer β) (a : ℕ) (v : β) (vs : List β) :
    overwrite m a (v :: vs) = overwrite (Function.update m a v) (a + 1) vs := by
  ext i
  obtain hlt | rfl | hgt := Nat.lt_trichotomy i a
  · rw [overwrite_of_lt hlt, overwrite_of_lt (by omega), Function.update_of_ne (by omega)]
  · rw [overwrite_of_lt (Nat.lt_succ_self i), Function.update_self]
    have hfirst : overwrite m i (v :: vs) (i + 0) = (v :: vs)[0] := overwrite_add (by simp)
    exact hfirst
  · obtain ⟨k, rfl⟩ := Nat.exists_eq_add_of_lt hgt
    have hstart : a ≤ a + k + 1 := by omega
    have hnext : a + 1 ≤ a + k + 1 := by omega
    have hfirst : a + k + 1 - a = k + 1 := by omega
    have hrest : a + k + 1 - (a + 1) = k := by omega
    rw [overwrite, overwrite, if_pos hstart, if_pos hnext, hfirst, hrest,
      List.getElem?_cons_succ, Function.update_of_ne (by omega)]

theorem overwrite_singleton (m : Buffer β) (a : ℕ) (v : β) :
    overwrite m a [v] = Function.update m a v := by
  rw [overwrite_cons, overwrite_nil]

theorem overwrite_append (m : Buffer β) (a : ℕ) (vs ws : List β) :
    overwrite m a (vs ++ ws) = overwrite (overwrite m a vs) (a + vs.length) ws := by
  induction vs generalizing m a with
  | nil => simp
  | cons v vs ih =>
      rw [List.cons_append, overwrite_cons, ih, overwrite_cons m a v vs, List.length_cons]
      congr 1
      omega

/-- Values are written over others. -/
theorem overwrite_overwrite (m : Buffer β) (a : ℕ) (vs ws : List β) :
    overwrite (overwrite m a vs) a ws = overwrite m a (ws ++ vs.drop ws.length) := by
  ext i
  obtain hlt | hle := Nat.lt_or_ge i a
  · rw [overwrite_of_lt hlt, overwrite_of_lt hlt, overwrite_of_lt hlt]
  · obtain ⟨k, rfl⟩ := Nat.exists_eq_add_of_le hle
    obtain hover | hbehind := Nat.lt_or_ge k ws.length
    · rw [overwrite_add hover, overwrite_add (by rw [List.length_append]; omega),
        List.getElem_append_left hover]
    · obtain ⟨j, rfl⟩ := Nat.exists_eq_add_of_le hbehind
      rw [overwrite_of_le (by omega), overwrite, overwrite, if_pos hle, if_pos hle,
        Nat.add_sub_cancel_left, List.getElem?_append_right (Nat.le_add_right _ j),
        Nat.add_sub_cancel_left, List.getElem?_drop]

/-- A cell before the values may be written later. -/
theorem update_overwrite_of_lt (m : Buffer β) (v : β) (vs : List β) (h : i < a) :
    Function.update (overwrite m a vs) i v = overwrite (Function.update m i v) a vs := by
  ext j
  obtain rfl | hne := eq_or_ne j i
  · rw [Function.update_self, overwrite_of_lt h, Function.update_self]
  · rw [Function.update_of_ne hne, overwrite, overwrite, Function.update_of_ne hne]

/-- Cells of the array are written. -/
theorem putAll_eq_some (h : a + vs.length ≤ size) :
    putAll size m a vs = some (overwrite m a vs) := by
  induction vs generalizing m a with
  | nil => rw [putAll, overwrite_nil]
  | cons v vs ih =>
      rw [List.length_cons] at h
      rw [putAll, put, if_pos (by omega), Option.bind_some, ih (by omega), overwrite_cons]

/-- A cell outside of the array is not. -/
theorem putAll_eq_none (hne : vs ≠ []) (h : size < a + vs.length) : putAll size m a vs = none := by
  induction vs generalizing m a with
  | nil => exact absurd rfl hne
  | cons v vs ih =>
      rw [putAll, put]
      split
      · rw [List.length_cons] at h
        rw [Option.bind_some]
        obtain rfl | hmore := eq_or_ne vs []
        · rw [List.length_nil] at h
          omega
        · exact ih hmore (by omega)
      · rfl

theorem put_eq_some {v : β} (h : i < size) : put size m i v = some (Function.update m i v) :=
  if_pos h

theorem put_eq_none {v : β} (h : size ≤ i) : put size m i v = none := if_neg (by omega)

@[simp] theorem length_slice (m : Buffer β) (a n : ℕ) : (slice m a n).length = n := by
  simp [slice]

theorem getElem_slice (h : i < (slice m a n).length) : (slice m a n)[i] = m (a + i) := by
  simp [slice]

theorem slice_add (m : Buffer β) (a n k : ℕ) :
    slice m a (n + k) = slice m a n ++ slice m (a + n) k := by
  simp [slice, List.range_add, Nat.add_assoc]

theorem slice_succ (m : Buffer β) (a n : ℕ) : slice m a (n + 1) = m a :: slice m (a + 1) n := by
  rw [Nat.add_comm, slice_add]
  rfl

theorem slice_congr {m' : Buffer β} (h : ∀ i < n, m (a + i) = m' (a + i)) :
    slice m a n = slice m' a n := by
  apply List.map_congr_left
  intro i hi
  exact h i (List.mem_range.mp hi)

/-- A part of the cells that were read. -/
theorem take_drop_slice {k : ℕ} (h : i + k ≤ n) :
    ((slice m a n).drop i).take k = slice m (a + i) k := by
  obtain ⟨rest, rfl⟩ := Nat.exists_eq_add_of_le h
  have hfront : slice m a (i + k + rest) =
      slice m a i ++ (slice m (a + i) k ++ slice m (a + (i + k)) rest) := by
    rw [slice_add, slice_add, List.append_assoc]
  rw [hfront, List.drop_left' (length_slice m a i), List.take_left' (length_slice m (a + i) k)]

/-- The values that were written are found. -/
theorem slice_overwrite (m : Buffer β) (a : ℕ) (vs : List β) :
    slice (overwrite m a vs) a vs.length = vs := by
  apply List.ext_getElem
  · rw [length_slice]
  · intro i hi hvs
    rw [getElem_slice, overwrite_add hvs]

/-- Cells beside those that were written stay. -/
theorem slice_overwrite_of_disjoint {b : ℕ} (h : b + n ≤ a ∨ a + vs.length ≤ b) :
    slice (overwrite m a vs) b n = slice m b n := by
  apply slice_congr
  intro i hi
  obtain h | h := h
  · exact overwrite_of_lt (by omega)
  · exact overwrite_of_le (by omega)

/-- Values are written behind others. -/
theorem slice_overwrite_append {front : List β} (h : slice m a front.length = front)
    (vs : List β) :
    slice (overwrite m (a + front.length) vs) a (front ++ vs).length = front ++ vs := by
  rw [List.length_append, slice_add, slice_overwrite, slice_overwrite_of_disjoint, h]
  exact .inl (Nat.le_refl _)

end Buffer

end EmsGateway.Library
