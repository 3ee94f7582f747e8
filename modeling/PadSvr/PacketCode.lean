import PadSvr.Cfgfile
import Mathlib.Algebra.Order.Ring.Int
import Mathlib.Data.Nat.Log

/-!
# Packet-size codes

`faclen` shifts a packet size to zero and counts the shifts, `paclen` shifts the size back.
Between 0 and `INT_MAX` the code is the binary logarithm; a negative size is never shifted to zero.

## Main results

* `faclenLoop_natCast`, `faclenLoop_of_neg`: the loop of `faclen`, from both sides of zero
* `faclen_two_pow`: a code comes back from its packet size
* `faclen_eq_none_iff`: the sizes that have no code
-/

namespace PadSvr

section Natural

variable {m : ℕ}

theorem natCast_shiftRight_one : (m : ℤ) >>> (1 : ℕ) = ((m / 2 : ℕ) : ℤ) := by
  rw [Int.shiftRight_eq_div_pow]
  rfl

/-- **The loop counts the binary logarithm.** -/
theorem faclenLoop_natCast :
    ∀ k : ℕ, m < 2 ^ (k + 1) → ∀ i, faclenLoop (k + 1) m i = some (i + Nat.log 2 m) := by
  intro k
  induction k generalizing m with
  | zero =>
    intro hlt i
    have hdiv : m / 2 = 0 := by omega
    have hlog : Nat.log 2 m = 0 := Nat.log_of_lt (by omega)
    rw [faclenLoop, natCast_shiftRight_one, hdiv, hlog]
    simp
  | succ k ih =>
    intro hlt i
    rw [faclenLoop, natCast_shiftRight_one]
    by_cases hm : m < 2
    · have hdiv : m / 2 = 0 := by omega
      rw [hdiv, Nat.log_of_lt hm]
      simp
    · -- the bit that is shifted out is the one the logarithm loses
      have hlog : Nat.log 2 m = Nat.log 2 (m / 2) + 1 :=
        Nat.log_of_one_lt_of_le (by decide) (by omega)
      have hne : ((m / 2 : ℕ) : ℤ) ≠ 0 := by omega
      have hhalf : m / 2 < 2 ^ (k + 1) := by
        rw [pow_succ] at hlt
        omega
      simp only [if_neg hne]
      rw [ih hhalf, hlog, Nat.cast_add, Nat.cast_one, add_assoc, add_comm (1 : ℤ)]

theorem faclen_natCast (h : m < 2 ^ 32) : faclen m = some (Nat.log 2 m : ℤ) := by
  rw [faclen, faclenLoop_natCast 31 h, zero_add]

theorem paclen_natCast (c : ℕ) : paclen (c : ℤ) = 2 ^ c := by
  rw [paclen, Int.toNat_natCast]

/-- Every code up to 30 survives the way through the packet size. -/
theorem faclen_two_pow {k : ℕ} (h : k ≤ 30) : faclen (paclen k) = some (k : ℤ) := by
  have hpow : (2 : ℕ) ^ k < 2 ^ 32 := Nat.pow_lt_pow_right (by decide) (by omega)
  have hcast : paclen k = ((2 ^ k : ℕ) : ℤ) := by
    rw [paclen_natCast]
    push_cast
    rfl
  rw [hcast, faclen_natCast hpow, Nat.log_pow (by decide)]

end Natural

section Integer

variable {n : ℤ}

theorem faclenLoop_of_neg (hn : n < 0) : ∀ k i, faclenLoop k n i = none := by
  intro k
  induction k generalizing n with
  | zero => exact fun i => rfl
  | succ k ih =>
    intro i
    -- the shift of a negative `int` is arithmetic: it stays negative
    have hneg : n >>> (1 : ℕ) < 0 := by
      rw [Int.shiftRight_eq_div_pow]
      omega
    rw [faclenLoop, if_neg (by omega)]
    exact ih hneg _

/-- The loop over the bits of a packet size ends unless the size is negative. -/
theorem faclen_eq_none_iff (hn : n < 2 ^ 31) : faclen n = none ↔ n < 0 := by
  constructor
  · intro h
    by_contra hneg
    obtain ⟨m, rfl⟩ := Int.eq_ofNat_of_zero_le (not_lt.mp hneg)
    have hsome : faclen m = some (Nat.log 2 m : ℤ) := faclen_natCast (by omega)
    rw [hsome] at h
    cases h
  · exact fun hneg => faclenLoop_of_neg hneg 32 0

end Integer

end PadSvr
