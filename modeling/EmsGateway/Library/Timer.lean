import Mathlib.Algebra.Ring.Nat
import Mathlib.Data.List.Chain

/-!
Timers that are polled. A timer fires when more than a period has passed since
it last fired. One that keeps the time of its last firing in `w` bits fires at
the same polls, as long as no two polls are so far apart that the counter hides
a turn.
-/

namespace EmsGateway.Library

/-- A timer, with the time of its last firing and the times of all. -/
structure Timer where
  last : ℕ
  fired : List ℕ

namespace Timer

variable (period : ℕ)

/-- Look at the timer at a time. -/
def poll (c : Timer) (t : ℕ) : Timer :=
  if c.last + period < t then ⟨t, c.fired ++ [t]⟩ else c

/-- The timer after polls at the times, started at time `0`. -/
def polled (times : List ℕ) : Timer := times.foldl (poll period) ⟨0, []⟩

theorem polled_concat (times : List ℕ) (t : ℕ) :
    polled period (times ++ [t]) = poll period (polled period times) t := by
  simp [polled]

theorem last_poll (c : Timer) (t : ℕ) :
    (poll period c t).last = t ∨ (poll period c t).last = c.last ∧ t ≤ c.last + period := by
  unfold poll
  split
  · exact .inl rfl
  · exact .inr ⟨rfl, by omega⟩

/-- Any two firings are more than a period apart, and none is after the last. -/
structure Spaced (c : Timer) : Prop where
  apart : c.fired.Pairwise fun a b => a + period < b
  le_last : ∀ a ∈ c.fired, a ≤ c.last
  last_eq : c.last = c.fired.getLast?.getD 0

variable {period}

theorem Spaced.poll {c : Timer} (hc : Spaced period c) (t : ℕ) :
    Spaced period (poll period c t) := by
  unfold Timer.poll
  split
  · rename_i hdue
    refine ⟨?_, ?_, by simp⟩
    · refine List.pairwise_append.mpr ⟨hc.apart, List.pairwise_singleton _ t, ?_⟩
      intro a ha b hb
      have hle := hc.le_last a ha
      rw [List.mem_singleton.mp hb]
      omega
    · intro a ha
      rcases List.mem_append.mp ha with ha | ha
      · have hle := hc.le_last a ha
        show a ≤ t
        omega
      · exact le_of_eq (List.mem_singleton.mp ha)
  · exact hc

variable (period) in
theorem spaced_polled (times : List ℕ) : Spaced period (polled period times) := by
  induction times using List.reverseRecOn with
  | nil => exact ⟨List.Pairwise.nil, by simp [polled], rfl⟩
  | append_singleton times t ih =>
      rw [polled_concat]
      exact ih.poll t

/-! ### Counters that wrap around -/

variable (w : ℕ)

/-- The times of the polls are in order, the first before the counter's first
turn, and each next one so soon that a turn less a period is not over. -/
structure Timely (period w : ℕ) (times : List ℕ) : Prop where
  first : ∀ t ∈ times.head?, t < 2 ^ w
  next : times.IsChain fun t t' => t ≤ t' ∧ t' - t < 2 ^ w - period

variable {w} {times : List ℕ} {t : ℕ}

theorem Timely.of_append {rest : List ℕ} (h : Timely period w (times ++ rest)) :
    Timely period w times := by
  refine ⟨fun t ht => ?_, h.next.left_of_append⟩
  apply h.first
  cases times with
  | nil => cases ht
  | cons a times => exact ht

/-- After polls the last firing is at most a period before the last poll. -/
theorem le_last_polled (h : Timely period w times) (ht : t ∈ times.getLast?) :
    (polled period times).last ≤ t ∧ t ≤ (polled period times).last + period := by
  induction times using List.reverseRecOn generalizing t with
  | nil => cases ht
  | append_singleton times u ih =>
      obtain rfl : u = t := by simpa using ht
      rw [polled_concat]
      rcases last_poll period (polled period times) u with hlast | ⟨hlast, hnear⟩
      · omega
      · rw [hlast]
        refine ⟨?_, hnear⟩
        cases hprev : times.getLast? with
        | none =>
            rw [List.getLast?_eq_none_iff.mp hprev]
            exact Nat.zero_le u
        | some v =>
            have hv := ih h.of_append hprev
            have hstep := (List.isChain_append.mp h.next).2.2 v hprev u rfl
            omega

/-- At the time of the next poll less than a turn has passed since the last
firing. -/
theorem near_of_timely (h : Timely period w (times ++ [t])) :
    (polled period times).last ≤ t ∧ t < (polled period times).last + 2 ^ w := by
  cases hprev : times.getLast? with
  | none =>
      rw [List.getLast?_eq_none_iff.mp hprev] at h ⊢
      have hfirst := h.first t rfl
      exact ⟨Nat.zero_le t, by simpa [polled] using hfirst⟩
  | some u =>
      have hu := le_last_polled h.of_append hprev
      have hstep := (List.isChain_append.mp h.next).2.2 u hprev t rfl
      omega

/-- The difference of two counter values is the time between them when that is
less than a turn. -/
theorem toNat_ofNat_sub_ofNat {a b : ℕ} (hle : a ≤ b) (hlt : b < a + 2 ^ w) :
    (BitVec.ofNat w b - BitVec.ofNat w a).toNat = b - a := by
  obtain ⟨d, rfl⟩ := Nat.exists_eq_add_of_le hle
  rw [BitVec.ofNat_add, BitVec.add_comm, BitVec.add_sub_cancel, BitVec.toNat_ofNat,
    Nat.mod_eq_of_lt (by omega)]
  omega

/-- A timer on a counter fires at a poll exactly when the timer on the true time
does. -/
theorem period_lt_sub_iff (h : Timely period w (times ++ [t])) :
    period < (BitVec.ofNat w t - BitVec.ofNat w (polled period times).last).toNat ↔
      (polled period times).last + period < t := by
  obtain ⟨hle, hlt⟩ := near_of_timely h
  rw [toNat_ofNat_sub_ofNat hle hlt]
  omega

end Timer

end EmsGateway.Library
