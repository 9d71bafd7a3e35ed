import Mathlib.Algebra.Field.Rat
import Mathlib.Algebra.Order.Ring.Int
import Mathlib.Tactic.Common

/-!
What the sketches take from the Arduino core: the `float` of a reading, and its
text. Which numbers a `float` can hold is left open, with the operations the
sketches use on them, but where one is made of an integer or an integer of it.
-/

namespace EmsGateway.Firmware

/-- A `float` that is not infinite. The driver of the BME280 returns `NAN` for a
measurement it does not have. -/
inductive CFloat (τ : Type)
  | finite (x : τ)
  | nan
  deriving DecidableEq

namespace CFloat

variable {τ : Type}

/-- Addition, which a missing operand makes `NAN`. -/
def add [Add τ] : CFloat τ → CFloat τ → CFloat τ
  | .finite x, .finite y => .finite (x + y)
  | _, _ => .nan

instance [Add τ] : Add (CFloat τ) := ⟨add⟩

/-- `String(x)`, where `desimal` is the decimal text of a number. -/
def toText (desimal : τ → String) : CFloat τ → String
  | .finite x => desimal x
  | .nan => "nan"

@[simp] theorem add_finite [Add τ] (x y : τ) :
    (finite x + finite y : CFloat τ) = finite (x + y) := rfl

@[simp] theorem nan_add [Add τ] (x : CFloat τ) : (nan + x : CFloat τ) = nan := by
  cases x with
  | finite x => rfl
  | nan => rfl

/-- `<`, which is false for a missing operand. -/
def lt [LT τ] : CFloat τ → CFloat τ → Prop
  | .finite x, .finite y => x < y
  | _, _ => False

instance [LT τ] : LT (CFloat τ) := ⟨lt⟩

instance [LT τ] [DecidableLT τ] (x y : CFloat τ) : Decidable (x < y) :=
  match x, y with
  | .finite x, .finite y => inferInstanceAs (Decidable (x < y))
  | .finite _, .nan => .isFalse id
  | .nan, .finite _ => .isFalse id
  | .nan, .nan => .isFalse id

/-! ### Integers -/

/-- The multiple of `d` that is nearest to a number, of two the even one. -/
def nearestMultiple (d n : ℕ) : ℕ :=
  if 2 * (n % d) < d ∨ 2 * (n % d) = d ∧ n / d % 2 = 0 then n / d * d else (n / d + 1) * d

/-- What is left of an integer in the `24` significant bits of a `float`. -/
def bulatkan (n : ℤ) : ℤ :=
  n.sign * nearestMultiple (2 ^ (n.natAbs.log2 + 1 - 24)) n.natAbs

/-- `(float)n`. -/
def ofInt (n : ℤ) : CFloat ℚ := .finite (bulatkan n)

/-- `(uint8_t)x`, which is `x` truncated. Where that is out of range C++ leaves the
conversion undefined, and `terbuka` is what comes of it. -/
def toByte (terbuka : CFloat ℚ → UInt8) : CFloat ℚ → UInt8
  | .finite x =>
      let n := x.num.tdiv x.den
      if 0 ≤ n ∧ n ≤ 255 then UInt8.ofNat n.toNat else terbuka (.finite x)
  | .nan => terbuka .nan

theorem bulatkan_eq_self {n : ℤ} (hn : n.natAbs < 2 ^ 24) : bulatkan n = n := by
  -- no bit is dropped, so the rounding is to a multiple of one
  have hbits : n.natAbs.log2 + 1 - 24 = 0 := by
    obtain hzero | hpos := Nat.eq_zero_or_pos n.natAbs
    · rw [hzero]
      rfl
    · have hlog := (Nat.log2_lt (Nat.ne_of_gt hpos)).mpr hn
      omega
  rw [bulatkan, hbits, nearestMultiple, if_pos (by omega), Nat.pow_zero, Nat.div_one, Nat.mul_one]
  exact Int.sign_mul_natAbs n

theorem ofInt_eq {n : ℤ} (hn : n.natAbs < 2 ^ 24) : ofInt n = .finite n := by
  rw [ofInt, bulatkan_eq_self hn]

/-- A number that fits a byte is that byte. -/
theorem toNat_toByte_ofInt (terbuka : CFloat ℚ → UInt8) {n : ℤ} (hn : 0 ≤ n ∧ n ≤ 255) :
    (((ofInt n).toByte terbuka).toNat : ℤ) = n := by
  have hsmall : n.natAbs < 2 ^ 24 := by omega
  rw [ofInt_eq hsmall, toByte, Rat.num_intCast, Rat.den_intCast, Nat.cast_one, Int.tdiv_one,
    if_pos hn, UInt8.toNat_ofNat']
  omega

end CFloat

end EmsGateway.Firmware
