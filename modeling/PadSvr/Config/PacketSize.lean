import PadSvr.Config.Setting
import PadSvr.Writecfg
import Mathlib.Order.Bounds.Basic

/-!
# The packet size of a line

What `readcfg` makes of a packet size that is not negative is the largest power of two not above
the size, moved into 16..4096. At a negative one it does not come back.

## Main definitions

* `Endless n`: the loop of `faclen` does not end at `n`
* `IsLimitedSize n s`: `s` is the largest power of two not above `n`, limited to 16..4096
* `PacketSize n`: what the conversion of the packet size `n` is to give

## Main results

* `isLimitedSize_clamp`: a code that was moved into its limits stands for a size in its limits
* `packetSize_iff`: the conversion is right at every size that a line can give, but the negative
  ones
-/

namespace PadSvr

open CString

/-- No number of rounds is enough for the loop of `faclen`. -/
def Endless (n : ℤ) : Prop := ∀ k, faclenLoop k n 0 = none

/-- `s` is the largest power of two not above `n`, limited to 16..4096. -/
def IsLimitedSize (n s : ℤ) : Prop :=
  IsGreatest {p : ℤ | (∃ k : ℕ, p = 2 ^ k) ∧ p ≤ max 16 n ∧ p ≤ 4096} s

/-- What the conversion of a packet size is to give. -/
structure PacketSize (n : ℤ) : Prop where
  terminates : ¬ Endless n
  log : 1 ≤ n → ∃ i : ℕ, faclen n = some (i : ℤ) ∧ 2 ^ i ≤ n ∧ n < 2 ^ (i + 1)
  inverse : ∀ k : ℕ, k ≤ 30 → faclen (paclen k) = some (k : ℤ)
  limited : ∀ buf val, nameValue buf = some (litpin, val) → atoi val = n →
    ∃ i, cfgLine buf = .ok (.pacsizeIn i) ∧ IsLimitedSize n (paclen i)

section Limits

variable {m c : ℕ}

/-- The power that a code in the limits stands for, told by the logarithm of the size. -/
theorem isLimitedSize_two_pow (hle : c ≤ 12) (hlog : c ≤ max 4 (Nat.log 2 m))
    (hge : min 12 (max 4 (Nat.log 2 m)) ≤ c) : IsLimitedSize m (2 ^ c) := by
  constructor
  · refine ⟨⟨c, rfl⟩, ?_, ?_⟩
    · rcases le_max_iff.mp hlog with h4 | hm
      · have hpow : (2 : ℤ) ^ c ≤ 2 ^ 4 := pow_le_pow_right₀ (by decide) h4
        exact le_max_of_le_left hpow
      · by_cases hm0 : m = 0
        · subst hm0
          have hc : c = 0 := by simpa using hm
          simp [hc]
        · have hpow : 2 ^ c ≤ m :=
            (Nat.pow_le_pow_right (by decide) hm).trans (Nat.pow_log_le_self 2 hm0)
          exact le_max_of_le_right (by exact_mod_cast hpow)
    · exact pow_le_pow_right₀ (by decide : (1 : ℤ) ≤ 2) hle
  · rintro p ⟨⟨k, rfl⟩, hmax, h4096⟩
    -- a larger power would have a code within the limits and within the size
    have hk12 : k ≤ 12 := (Nat.pow_le_pow_iff_right (by decide : 1 < 2)).mp (mod_cast h4096)
    have hk : k ≤ max 4 (Nat.log 2 m) := by
      rcases le_max_iff.mp hmax with h16 | hm
      · have hk4 : k ≤ 4 :=
          (Nat.pow_le_pow_iff_right (by decide : 1 < 2)).mp (mod_cast h16)
        exact le_max_of_le_left hk4
      · have hpow : 2 ^ k ≤ m := by exact_mod_cast hm
        exact le_max_of_le_right (Nat.le_log_of_pow_le (by decide) hpow)
    exact pow_le_pow_right₀ (by decide) (by omega)

theorem isLimitedSize_clamp : IsLimitedSize m (paclen (clamp 4 12 (Nat.log 2 m : ℤ))) := by
  obtain ⟨c, hc⟩ : ∃ c : ℕ, clamp 4 12 (Nat.log 2 m : ℤ) = c :=
    Int.eq_ofNat_of_zero_le (by unfold clamp; grind)
  rw [hc, paclen_natCast]
  unfold clamp at hc
  exact isLimitedSize_two_pow (by grind) (by grind) (by grind)

end Limits

section Conversion

variable {n : ℤ} {buf val : List Char}

/-- A negative size stays negative, however often it is shifted. -/
theorem endless_iff (hn : n < 2 ^ 31) : Endless n ↔ n < 0 := by
  constructor
  · intro h
    exact (faclen_eq_none_iff hn).mp (h 32)
  · intro hneg k
    exact faclenLoop_of_neg hneg k 0

/-- A size that is not negative is converted as it is to be. -/
theorem packetSize_of_nonneg (h0 : 0 ≤ n) (hn : n < 2 ^ 31) : PacketSize n := by
  obtain ⟨m, rfl⟩ := Int.eq_ofNat_of_zero_le h0
  have hfac : faclen m = some (Nat.log 2 m : ℤ) := faclen_natCast (by omega)
  constructor
  · rw [endless_iff hn]
    omega
  · intro h1
    have hm : m ≠ 0 := by omega
    exact ⟨Nat.log 2 m, hfac, mod_cast Nat.pow_log_le_self 2 hm,
      mod_cast Nat.lt_pow_succ_log_self (by decide) m⟩
  · exact fun k hk => faclen_two_pow hk
  · intro buf val hnv hval
    refine ⟨_, cfgLine_litpin hnv (hval ▸ hfac), ?_⟩
    exact isLimitedSize_clamp

/-- **The conversion of a packet size is right unless the size is negative.** -/
theorem packetSize_iff (val : List Char) : PacketSize (atoi val) ↔ 0 ≤ atoi val := by
  have hhi := (atoi_bounds val).2
  constructor
  · intro h
    by_contra hneg
    exact h.terminates ((endless_iff hhi).mpr (by omega))
  · exact fun h0 => packetSize_of_nonneg h0 hhi

/-- A packet size of -1: `readcfg` does not come back from the line. -/
theorem not_packetSize :
    ¬ ∀ buf val, nameValue buf = some (litpin, val) → PacketSize (atoi val) := by
  intro h
  have hsize := h "Pacsize_in -1\n".toList "-1".toList (by decide +kernel)
  have hval : atoi "-1".toList = -1 := by decide +kernel
  rw [hval] at hsize
  exact hsize.terminates fun k => faclenLoop_of_neg (by decide) k 0

end Conversion

end PadSvr
