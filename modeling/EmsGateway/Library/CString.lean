import Mathlib.Algebra.Order.Ring.Int
import Mathlib.Tactic.Common

/-!
C strings in a memory of bytes, and decimal numbers as `printf` writes them. A
string that is too long for its buffer runs on into what stands behind it.
-/

namespace EmsGateway.Library

/-- A memory: the character in each byte. -/
abbrev Memory := ℕ → Char

namespace Memory

/-- The byte that ends a string. -/
def nul : Char := '\x00'

/-- A string written from an address on, with `nul` behind it. -/
def copy (m : Memory) (a : ℕ) (s : List Char) : Memory := fun i =>
  if a ≤ i then ((s ++ [nul])[i - a]?).getD (m i) else m i

/-- The string at an address, cut off after `n` characters. -/
def cstring (m : Memory) : ℕ → ℕ → List Char
  | 0, _ => []
  | n + 1, a => if m a = nul then [] else m a :: cstring m n (a + 1)

/-- These characters stand from the address on, and none of them ends a string. -/
def Text (m : Memory) : ℕ → List Char → Prop
  | _, [] => True
  | a, c :: s => m a = c ∧ c ≠ nul ∧ Text m (a + 1) s

/-- This string stands at the address. -/
def Holds (m : Memory) (a : ℕ) (s : List Char) : Prop := Text m a s ∧ m (a + s.length) = nul

variable {m m' : Memory} {a n : ℕ} {s t : List Char}

theorem cstring_eq (h : Holds m a s) (hn : s.length < n) : cstring m n a = s := by
  induction s generalizing a n with
  | nil =>
      obtain ⟨n, rfl⟩ := Nat.exists_eq_add_of_lt hn
      exact if_pos h.2
  | cons c s ih =>
      obtain ⟨⟨hc, hnul, htext⟩, hend⟩ := h
      obtain ⟨n, rfl⟩ := Nat.exists_eq_add_of_lt hn
      rw [List.length_cons, ← Nat.add_assoc, Nat.add_right_comm] at hend
      rw [cstring, hc, if_neg hnul, ih ⟨htext, hend⟩ (by simp only [List.length_cons]; omega)]

theorem text_append : Text m a (s ++ t) ↔ Text m a s ∧ Text m (a + s.length) t := by
  induction s generalizing a with
  | nil => simp [Text]
  | cons c s ih =>
      rw [List.cons_append, Text, Text, ih, List.length_cons, Nat.add_right_comm, Nat.add_assoc,
        and_assoc, and_assoc]

theorem Text.take (h : Text m a s) (n : ℕ) : Text m a (s.take n) := by
  rw [← List.take_append_drop n s] at h
  exact (text_append.mp h).1

theorem Text.holds_append (hs : Text m a s) (ht : Holds m (a + s.length) t) :
    Holds m a (s ++ t) := by
  refine ⟨text_append.mpr ⟨hs, ht.1⟩, ?_⟩
  rw [List.length_append, ← Nat.add_assoc]
  exact ht.2

theorem Text.congr (h : Text m a s) (hsame : ∀ i, a ≤ i → i < a + s.length → m' i = m i) :
    Text m' a s := by
  induction s generalizing a with
  | nil => trivial
  | cons c s ih =>
      simp only [List.length_cons] at hsame
      obtain ⟨hc, hnul, htext⟩ := h
      refine ⟨?_, hnul, ih htext fun i hle hlt => hsame i (by omega) (by omega)⟩
      rw [hsame a (by omega) (by omega), hc]

theorem Holds.congr (h : Holds m a s) (hsame : ∀ i, a ≤ i → i ≤ a + s.length → m' i = m i) :
    Holds m' a s := by
  refine ⟨h.1.congr fun i hle hlt => hsame i hle (Nat.le_of_lt hlt), ?_⟩
  rw [hsame _ (Nat.le_add_right a _) (Nat.le_refl _)]
  exact h.2

/-! ### Writing -/

theorem copy_before (m : Memory) (s : List Char) {i : ℕ} (hi : i < a) : copy m a s i = m i :=
  if_neg (Nat.not_le_of_lt hi)

theorem copy_behind (m : Memory) {i : ℕ} (hi : a + s.length < i) : copy m a s i = m i := by
  have hnone : (s ++ [nul])[i - a]? = none := by
    apply List.getElem?_eq_none
    rw [List.length_append, List.length_singleton]
    omega
  rw [copy, if_pos (by omega), hnone, Option.getD_none]

theorem copy_cons (m : Memory) (a : ℕ) (c : Char) (s : List Char) (i : ℕ) :
    copy m a (c :: s) i = if i = a then c else copy m (a + 1) s i := by
  obtain hlt | rfl | hgt := Nat.lt_trichotomy i a
  · rw [copy_before m _ hlt, if_neg (Nat.ne_of_lt hlt), copy_before m _ (Nat.lt_succ_of_lt hlt)]
  · rw [if_pos rfl, copy, if_pos (Nat.le_refl i), Nat.sub_self]
    rfl
  · have hindex : i - a = (i - (a + 1)) + 1 := by omega
    rw [if_neg (Nat.ne_of_gt hgt), copy, copy, if_pos (Nat.le_of_lt hgt),
      if_pos (Nat.succ_le_of_lt hgt), hindex]
    rfl

theorem holds_copy (m : Memory) (a : ℕ) (hs : nul ∉ s) : Holds (copy m a s) a s := by
  induction s generalizing a with
  | nil => exact ⟨trivial, by simp [copy]⟩
  | cons c s ih =>
      rw [List.mem_cons, not_or] at hs
      have hrest : Holds (copy m a (c :: s)) (a + 1) s := by
        refine (ih (a + 1) hs.2).congr fun i hle _ => ?_
        rw [copy_cons, if_neg (by omega)]
      refine ⟨⟨?_, Ne.symm hs.1, hrest.1⟩, ?_⟩
      · rw [copy_cons, if_pos rfl]
      · rw [List.length_cons, Nat.add_comm s.length 1, ← Nat.add_assoc]
        exact hrest.2

end Memory

/-- A number as `%0wd` writes it. -/
def zeroPadded (width : ℕ) (n : ℤ) : List Char :=
  if n < 0 then '-' :: (Nat.toDigits 10 n.natAbs).leftpad (width - 1) '0'
  else (Nat.toDigits 10 n.natAbs).leftpad width '0'

/-- A number that has no more digits than the width is as long as it. -/
theorem length_zeroPadded {width : ℕ} {n : ℤ} (hwidth : 0 < width) (h₀ : 0 ≤ n)
    (hn : n < 10 ^ width) : (zeroPadded width n).length = width := by
  have habs : n.natAbs < 10 ^ width := by
    rw [← Int.ofNat_lt, Int.natAbs_of_nonneg h₀, Int.natCast_pow]
    exact hn
  rw [zeroPadded, if_neg (by omega), List.length_leftpad]
  exact Nat.max_eq_left ((Nat.length_toDigits_le_iff (by omega) hwidth).mpr habs)

theorem isDigit_of_mem_zeroPadded {width : ℕ} {n : ℤ} (h₀ : 0 ≤ n) :
    ∀ c ∈ zeroPadded width n, c.isDigit = true := by
  intro c hc
  rw [zeroPadded, if_neg (by omega), List.leftpad, List.mem_append] at hc
  obtain hc | hc := hc
  · rw [List.eq_of_mem_replicate hc]
    decide
  · exact Nat.isDigit_of_mem_toDigits (by omega) (by omega) hc

end EmsGateway.Library
