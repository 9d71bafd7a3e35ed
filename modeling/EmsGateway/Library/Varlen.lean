import Mathlib.Algebra.Order.Ring.Nat
import Mathlib.Tactic.Common

/-!
Numbers of variable length. A number is written by its digits, the low one first,
and the base is added to each digit but the last.
-/

namespace EmsGateway.Library

namespace Varlen

variable (b : ℕ)

/-- The marked digits of a number, at most so many. -/
def encode : ℕ → ℕ → List ℕ
  | 0, _ => []
  | k + 1, n => if n / b = 0 then [n % b] else (n % b + b) :: encode k (n / b)

/-- The number at the front of the digits, and how many digits it takes. -/
def decode : ℕ → List ℕ → Option (ℕ × ℕ)
  | 0, _ => none
  | _, [] => none
  | k + 1, d :: ds =>
      if d < b then some (d, 1) else (decode k ds).map fun p => (d % b + b * p.1, p.2 + 1)

variable {b} {k n : ℕ}

theorem div_lt_pow (hn : n < b ^ (k + 1)) : n / b < b ^ k :=
  Nat.div_lt_of_lt_mul (by rwa [Nat.pow_succ'] at hn)

/-- A number that has so many digits is read back. -/
theorem decode_encode (hk : 0 < k) (hn : n < b ^ k) (rest : List ℕ) :
    decode b k (encode b k n ++ rest) = some (n, (encode b k n).length) := by
  induction k generalizing n with
  | zero => cases hk
  | succ k ih =>
      have hb : 0 < b := by
        obtain rfl | hb := Nat.eq_zero_or_pos b
        · simp at hn
        · exact hb
      have hmod := Nat.mod_lt n hb
      rw [encode]
      split
      · rename_i hlast
        have hsmall : n % b = n := Nat.mod_eq_of_lt ((Nat.div_eq_zero_iff_lt hb).mp hlast)
        rw [List.singleton_append, decode, if_pos hmod, hsmall, List.length_singleton]
      · rename_i hmore
        have hk : 0 < k := by
          apply Nat.pos_of_ne_zero
          rintro rfl
          exact hmore (Nat.div_eq_of_lt (by simpa using hn))
        rw [List.cons_append, decode, if_neg (by omega), ih hk (div_lt_pow hn), Option.map_some,
          Nat.add_mod_right, Nat.mod_mod, Nat.mod_add_div, List.length_cons]

/-- A number that is read has digits, no more than are there and no more than allowed. -/
theorem bounds_of_decode {ds : List ℕ} {v j : ℕ} (h : decode b k ds = some (v, j)) :
    0 < j ∧ j ≤ k ∧ j ≤ ds.length := by
  induction k generalizing ds v j with
  | zero => simp [decode] at h
  | succ k ih =>
      cases ds with
      | nil => simp [decode] at h
      | cons d ds =>
          rw [decode] at h
          split at h
          · obtain ⟨-, rfl⟩ := Prod.mk.inj (Option.some.inj h)
            exact ⟨Nat.one_pos, by omega, by simp⟩
          · obtain ⟨⟨w, i⟩, hrest, hpair⟩ := Option.map_eq_some_iff.mp h
            obtain ⟨-, rfl⟩ := Prod.mk.inj hpair
            obtain ⟨-, hle, hlen⟩ := ih hrest
            exact ⟨Nat.succ_pos i, Nat.succ_le_succ hle, Nat.succ_le_succ hlen⟩

theorem lt_of_mem_encode (hb : 0 < b) {d : ℕ} (hd : d ∈ encode b k n) : d < 2 * b := by
  induction k generalizing n with
  | zero => cases hd
  | succ k ih =>
      have hmod := Nat.mod_lt n hb
      rw [encode] at hd
      split at hd
      · rw [List.mem_singleton.mp hd]
        omega
      · obtain rfl | hd := List.mem_cons.mp hd
        · omega
        · exact ih hd

theorem length_encode_le (b k n : ℕ) : (encode b k n).length ≤ k := by
  induction k generalizing n with
  | zero => exact Nat.le_refl 0
  | succ k ih =>
      rw [encode]
      split
      · exact Nat.succ_le_succ (Nat.zero_le k)
      · exact Nat.succ_le_succ (ih (n / b))

theorem encode_ne_nil (hk : 0 < k) (n : ℕ) : encode b k n ≠ [] := by
  obtain ⟨k, rfl⟩ := Nat.exists_eq_add_of_lt hk
  rw [encode]
  split <;> simp

/-- A number below the base is its only digit. -/
theorem length_encode_eq_one_iff (hk : 0 < k) (hn : n < b ^ k) :
    (encode b k n).length = 1 ↔ n < b := by
  obtain ⟨k, rfl⟩ : ∃ k', k = k' + 1 := ⟨k - 1, by omega⟩
  have hb : 0 < b := by
    obtain rfl | hb := Nat.eq_zero_or_pos b
    · simp at hn
    · exact hb
  rw [encode]
  split
  · rename_i hlast
    exact iff_of_true rfl ((Nat.div_eq_zero_iff_lt hb).mp hlast)
  · rename_i hmore
    have hk : 0 < k := by
      apply Nat.pos_of_ne_zero
      rintro rfl
      exact hmore (Nat.div_eq_of_lt (by simpa using hn))
    have hrest := List.length_pos_iff.mpr (encode_ne_nil (b := b) hk (n / b))
    refine iff_of_false ?_ fun hlt => hmore (Nat.div_eq_of_lt hlt)
    rw [List.length_cons]
    omega

/-- More digits than a number has are not used. -/
theorem encode_eq_encode {j : ℕ} (hj : 0 < j) (hk : 0 < k) (hnj : n < b ^ j) (hnk : n < b ^ k) :
    encode b j n = encode b k n := by
  induction j generalizing k n with
  | zero => cases hj
  | succ j ih =>
      obtain ⟨k, rfl⟩ : ∃ k', k = k' + 1 := ⟨k - 1, by omega⟩
      rw [encode, encode]
      split
      · rfl
      · rename_i hmore
        have hpos : ∀ i, n < b ^ (i + 1) → 0 < i := by
          intro i hi
          apply Nat.pos_of_ne_zero
          rintro rfl
          exact hmore (Nat.div_eq_of_lt (by simpa using hi))
        rw [ih (hpos j hnj) (hpos k hnk) (div_lt_pow hnj) (div_lt_pow hnk)]

end Varlen

end EmsGateway.Library
