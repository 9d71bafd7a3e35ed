import Mathlib.Algebra.Field.Rat
import Mathlib.Algebra.Order.BigOperators.Group.Finset
import Mathlib.Algebra.Order.Ring.Rat
import Mathlib.Tactic.Linarith
import Mathlib.Tactic.NormNum
import Mathlib.Tactic.Ring

/-!
The battery level of MQTT-Publish.ino. A hundred samples of the ADC are summed, the
sum is scaled to the voltage before the divider, and the voltage to a percentage of
the way from `batteryMin` to `batteryMax`. The arithmetic is exact here.
-/

namespace EmsGateway.Firmware.Baterai

/-- MQTT-Publish.ino, line 50. -/
def batteryMax : ℚ := 4.1

/-- MQTT-Publish.ino, line 51. -/
def batteryMin : ℚ := 3.0

/-- What `adc1_get_voltage` returns, call by call: samples of `12` bits. -/
structure Sampel where
  adc : ℕ → ℤ
  inRange : ∀ i, 0 ≤ adc i ∧ adc i ≤ 4095

/-- `sum` after `n` turns of the loop. -/
def jumlah (adc : ℕ → ℤ) (n : ℕ) : ℤ := (List.range n).foldl (fun sum i => sum + adc i) 0

/-- MQTT-Publish.ino, lines 166-168. -/
def voltage (sum : ℤ) : ℚ :=
  let R1 : ℚ := 200000.0
  let R2 : ℚ := 200000.0
  let voltage := sum / (100 : ℚ)
  let voltage := voltage * 1.1 / 2047.0
  voltage / (R2 / (R1 + R2))

/-- MQTT-Publish.ino, line 169. -/
def output (sum : ℤ) : ℚ :=
  (voltage sum - batteryMin) / (batteryMax - batteryMin) * 100

/-- MQTT-Publish.ino, lines 152-174. -/
def batteryValue (s : Sampel) : ℚ :=
  let output := output (jumlah s.adc 100)
  if output < 100 then output else 100

/-- The battery level is a percentage, and at most that of samples at least as
great. -/
structure Percentage (s : Sampel) : Prop where
  nonneg : 0 ≤ batteryValue s
  le_hundred : batteryValue s ≤ 100
  mono : ∀ s' : Sampel, (∀ i < 100, s.adc i ≤ s'.adc i) → batteryValue s ≤ batteryValue s'

/-! ### The loop -/

theorem jumlah_succ (adc : ℕ → ℤ) (n : ℕ) : jumlah adc (n + 1) = jumlah adc n + adc n := by
  rw [jumlah, List.range_succ, List.foldl_append]
  rfl

theorem jumlah_eq_sum (adc : ℕ → ℤ) (n : ℕ) : jumlah adc n = ∑ i ∈ Finset.range n, adc i := by
  induction n with
  | zero => rfl
  | succ n ih => rw [jumlah_succ, Finset.sum_range_succ, ih]

theorem jumlah_le_jumlah {adc adc' : ℕ → ℤ} {n : ℕ} (h : ∀ i < n, adc i ≤ adc' i) :
    jumlah adc n ≤ jumlah adc' n := by
  rw [jumlah_eq_sum, jumlah_eq_sum]
  apply Finset.sum_le_sum
  intro i hi
  exact h i (Finset.mem_range.mp hi)

/-! ### The scale -/

theorem voltage_eq (sum : ℤ) : voltage sum = 11 * sum / 1023500 := by
  unfold voltage
  norm_num
  ring

/-- A level is an affine function of the sum, which is `0` at `279136.3` and `100`
at `381486.3`. -/
theorem output_eq (sum : ℤ) : output sum = 2 * sum / 2047 - 3000 / 11 := by
  rw [output, voltage_eq, batteryMin, batteryMax]
  norm_num
  ring

theorem output_le_output {m n : ℤ} (h : m ≤ n) : output m ≤ output n := by
  have hcast : (m : ℚ) ≤ n := Int.cast_le.mpr h
  rw [output_eq, output_eq]
  linarith

theorem batteryMin_le_voltage_iff (sum : ℤ) : batteryMin ≤ voltage sum ↔ 279137 ≤ sum := by
  rw [batteryMin, voltage_eq]
  constructor
  · intro h
    -- the voltage is that of a sum between `279136` and `279137`, and sums are integers
    have hlt : (279136 : ℚ) < sum := by linarith
    have hsum : 279136 < sum := by exact_mod_cast hlt
    omega
  · intro h
    have hcast : (279137 : ℚ) ≤ sum := by exact_mod_cast h
    linarith

theorem output_nonneg_iff (sum : ℤ) : 0 ≤ output sum ↔ batteryMin ≤ voltage sum := by
  rw [output_eq, batteryMin, voltage_eq]
  constructor
  · intro h
    linarith
  · intro h
    linarith

/-! ### The level -/

/-- Only the upper end of the range is clamped. -/
theorem batteryValue_eq_min (s : Sampel) :
    batteryValue s = min (output (jumlah s.adc 100)) 100 := by
  rw [batteryValue, min_def_lt]

theorem batteryValue_le (s : Sampel) : batteryValue s ≤ 100 := by
  rw [batteryValue_eq_min]
  exact min_le_right _ _

theorem batteryValue_mono {s s' : Sampel} (h : ∀ i < 100, s.adc i ≤ s'.adc i) :
    batteryValue s ≤ batteryValue s' := by
  rw [batteryValue_eq_min, batteryValue_eq_min]
  exact min_le_min_right 100 (output_le_output (jumlah_le_jumlah h))

theorem batteryValue_nonneg_iff (s : Sampel) :
    0 ≤ batteryValue s ↔ 279137 ≤ ∑ i ∈ Finset.range 100, s.adc i := by
  rw [batteryValue_eq_min, le_min_iff, output_nonneg_iff, batteryMin_le_voltage_iff,
    jumlah_eq_sum]
  constructor
  · intro h
    exact h.1
  · intro h
    exact ⟨h, by norm_num⟩

/-- The level is a percentage if and only if the battery has at least the voltage
`batteryMin`. -/
theorem percentage_iff (s : Sampel) :
    Percentage s ↔ 279137 ≤ ∑ i ∈ Finset.range 100, s.adc i := by
  rw [← batteryValue_nonneg_iff]
  constructor
  · intro h
    exact h.nonneg
  · intro h
    exact ⟨h, batteryValue_le s, fun _ => batteryValue_mono⟩

/-- An input at ground. -/
def kosong : Sampel where
  adc _ := 0
  inRange _ := by omega

theorem output_jumlah_kosong : output (jumlah kosong.adc 100) = -(3000 / 11) := by
  rw [output_eq, jumlah_eq_sum, kosong]
  norm_num

theorem batteryValue_kosong : batteryValue kosong = -(3000 / 11) := by
  rw [batteryValue_eq_min, output_jumlah_kosong]
  norm_num

theorem not_percentage : ¬∀ s, Percentage s := by
  intro h
  have hnonneg := (h kosong).nonneg
  rw [batteryValue_kosong] at hnonneg
  norm_num at hnonneg

end EmsGateway.Firmware.Baterai
