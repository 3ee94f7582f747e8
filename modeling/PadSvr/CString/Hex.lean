import Mathlib.Data.Nat.Digits.Lemmas
import Mathlib.Data.List.Basic

/-!
# C strings: hexadecimal numbers

## Main definitions

* `hexText w n`: the text of `%0wX`
* `hexNumber s`: the number that hexadecimal digits stand for

## Main results

* `hexNumber_hexText`: a number is read as it was written
* `length_hexText_le`: how long the text is
-/

namespace CString

/-- A hexadecimal digit, in capitals. -/
def hexDigit (d : ℕ) : Char := Char.ofNat (if d < 10 then 48 + d else 55 + d)

/-- The value of a hexadecimal digit. -/
def hexValue (c : Char) : ℕ := if c.isDigit then c.toNat - 48 else c.toNat - 55

/-- `%0wX`: the hexadecimal digits of `n`, filled up with zeros to `w` of them. -/
def hexText (w n : ℕ) : List Char :=
  ((Nat.digits 16 n).map hexDigit).reverse.leftpad w '0'

/-- The number that hexadecimal digits stand for. -/
def hexNumber (s : List Char) : ℕ := Nat.ofDigits 16 (s.reverse.map hexValue)

section Digits

variable {d : ℕ}

theorem hexValue_hexDigit (h : d < 16) : hexValue (hexDigit d) = d := by
  have key : ∀ d : ℕ, d < 16 → hexValue (hexDigit d) = d := by decide
  exact key d h

theorem hexDigit_ne_space (h : d < 16) : hexDigit d ≠ ' ' := by
  have key : ∀ d : ℕ, d < 16 → hexDigit d ≠ ' ' := by decide
  exact key d h

end Digits

section Text

variable {w n k : ℕ} {c : Char}

theorem hexText_eq :
    hexText w n = List.replicate (w - (Nat.digits 16 n).length) '0' ++
      ((Nat.digits 16 n).map hexDigit).reverse := by
  simp [hexText, List.leftpad]

/-- **A number is read as it was written.** -/
theorem hexNumber_hexText : hexNumber (hexText w n) = n := by
  have hmap : ((Nat.digits 16 n).map hexDigit).map hexValue = Nat.digits 16 n := by
    rw [List.map_map]
    refine (List.map_congr_left fun d hd => ?_).trans (List.map_id _)
    exact hexValue_hexDigit (Nat.digits_lt_base (by decide) hd)
  -- the zeros in front add nothing
  have hzero : hexValue '0' = 0 := rfl
  rw [hexNumber, hexText_eq, List.reverse_append, List.reverse_reverse, List.map_append, hmap,
    List.reverse_replicate, List.map_replicate, hzero, Nat.ofDigits_append_replicate_zero,
    Nat.ofDigits_digits]

theorem length_hexText : (hexText w n).length = max w (Nat.digits 16 n).length := by
  rw [hexText_eq, List.length_append, List.length_replicate, List.length_reverse, List.length_map]
  omega

theorem length_hexText_le (hw : w ≤ k) (h : n < 16 ^ k) : (hexText w n).length ≤ k := by
  rw [length_hexText]
  exact max_le hw ((Nat.digits_length_le_iff (by decide) n).mpr h)

theorem length_hexText_eq (h : n < 16 ^ w) : (hexText w n).length = w := by
  rw [length_hexText]
  exact max_eq_left ((Nat.digits_length_le_iff (by decide) n).mpr h)

theorem ne_space_of_mem_hexText (h : c ∈ hexText w n) : c ≠ ' ' := by
  rw [hexText_eq, List.mem_append] at h
  rcases h with h | h
  · rw [List.eq_of_mem_replicate h]
    decide
  · rw [List.mem_reverse, List.mem_map] at h
    obtain ⟨d, hd, rfl⟩ := h
    exact hexDigit_ne_space (Nat.digits_lt_base (by decide) hd)

end Text

end CString
