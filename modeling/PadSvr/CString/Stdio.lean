import PadSvr.CString.Strtok
import Mathlib.Algebra.Group.Nat.Defs
import Mathlib.Algebra.Group.Int.Defs

/-!
# C strings: numbers, lines and formatted text

## Main definitions

* `int32 x`: the `int` an integer wraps to
* `atoi s`: the `int` a string denotes
* `fgetsLines size text`: what successive calls of `fgets` read from a file
* `snprintf buf size text`: a character array after formatted output
* `decimal x`: the text of `%i`
* `strncpy src n`: a string cut to a field

## Main results

* `cstr_snprintf`: a text that fits is the string the array holds
* `decimal_inj`, `length_decimal_le_iff`: decimal texts, and how long they are
* `atoi_decimal`: a number is read as it was written
* `fgetsLines_line`, `fgetsLines_full`: a line that fits the buffer, and one that leaves no room for
  its newline
-/

namespace CString

/-- The `int` an integer wraps to. -/
def int32 (x : ℤ) : ℤ := Int.bmod x (2 ^ 32)

/-- The characters `strtol` and `atoi` skip in front of a number. -/
def isspace (c : Char) : Bool :=
  c = ' ' || c = '\t' || c = '\n' || c = '\x0b' || c = '\x0c' || c = '\r'

/-- The number at the front of a string, zero without digits. -/
def digits (s : List Char) : ℤ := Nat.ofDigitChars 10 (s.takeWhile Char.isDigit) 0

/-- `strtol` in base ten: a 64-bit result, at the bounds on overflow. -/
def strtol (s : List Char) : ℤ :=
  max (-2 ^ 63) (min (2 ^ 63 - 1) (match s.dropWhile isspace with
    | '-' :: s' => -digits s'
    | '+' :: s' => digits s'
    | s' => digits s'))

/-- `atoi`: the result of `strtol` as an `int`. -/
def atoi (s : List Char) : ℤ := int32 (strtol s)

/-- The lines of a file as `fgets` reads them, with room for `left` characters in the line being
read, of which `acc` holds those read so far, last first. -/
def fgetsFrom (room : ℕ) : List Char → ℕ → List Char → List (List Char)
  | [], _, [] => []
  | [], _, acc => [acc.reverse]
  | c :: s, left, acc =>
    if c = '\n' ∨ left ≤ 1 then (c :: acc).reverse :: fgetsFrom room s room []
    else fgetsFrom room s (left - 1) (c :: acc)

/-- What successive calls of `fgets` with a buffer of `size` characters read from a file: each
call stops after a newline, or when `size - 1` characters are read. -/
def fgetsLines (size : ℕ) (text : List Char) : List (List Char) :=
  fgetsFrom (size - 1) text (size - 1) []

/-- A character array after `snprintf` with bound `size`: the text, cut to `size - 1` characters,
and a NUL; the characters after that are those the array held. -/
def snprintf (buf : List Char) (size : ℕ) (text : List Char) : List Char :=
  text.take (size - 1) ++ '\x00' :: buf.drop ((text.take (size - 1)).length + 1)

/-- The text of `%i`. -/
def decimal (x : ℤ) : List Char :=
  if x < 0 then '-' :: Nat.toDigits 10 x.natAbs else Nat.toDigits 10 x.natAbs

/-- The string in an array after `strncpy` with bound `n` and a NUL behind the first `n`
characters. -/
def strncpy (src : List Char) (n : ℕ) : List Char := src.take n

section Snprintf

variable {buf text : List Char} {size : ℕ}

theorem length_snprintf (hbuf : buf.length = size) (hsize : 0 < size) :
    (snprintf buf size text).length = size := by
  simp only [snprintf, List.length_append, List.length_cons, List.length_drop, List.length_take]
  omega

/-- A text that fits is the string the array holds, whatever it held before. -/
theorem cstr_snprintf (hlen : text.length < size) (htext : ∀ c ∈ text, c ≠ '\x00') :
    cstr (snprintf buf size text) = text := by
  have htake : text.take (size - 1) = text := List.take_of_length_le (by omega)
  rw [snprintf, htake, cstr, List.takeWhile_append_of_pos (by simpa using htext)]
  simp

end Snprintf

section Decimal

variable {m n : ℕ}

theorem decimal_natCast (n : ℕ) : decimal n = Nat.toDigits 10 n := by simp [decimal]

theorem decimal_ne_nil (n : ℕ) : decimal n ≠ [] := by
  rw [decimal_natCast]
  exact Nat.toDigits_ne_nil

theorem isDigit_of_mem_decimal {c : Char} (h : c ∈ decimal n) : c.isDigit := by
  rw [decimal_natCast] at h
  exact Nat.isDigit_of_mem_toDigits (by decide) (by decide) h

theorem length_decimal_le_iff {k : ℕ} (hk : 0 < k) : (decimal n).length ≤ k ↔ n < 10 ^ k := by
  rw [decimal_natCast]
  exact Nat.length_toDigits_le_iff (by decide) hk

theorem decimal_inj (h : decimal m = decimal n) : m = n := by
  rw [decimal_natCast, decimal_natCast] at h
  rw [← Nat.ofDigitChars_ten_toDigits (n := m), h, Nat.ofDigitChars_ten_toDigits]

theorem digits_decimal (n : ℕ) : digits (decimal n) = n := by
  have hd : ∀ c ∈ decimal n, c.isDigit := fun c h => isDigit_of_mem_decimal h
  rw [digits, List.takeWhile_eq_self_iff.mpr hd, decimal_natCast, Nat.ofDigitChars_ten_toDigits]

/-- A number that fits an `int` is read as it was written. -/
theorem atoi_decimal (h : n < 2 ^ 31) : atoi (decimal n) = n := by
  have hstrtol : strtol (decimal n) = n := by
    obtain ⟨c, s, hcs⟩ := List.exists_cons_of_ne_nil (decimal_ne_nil n)
    have hc : c.isDigit := isDigit_of_mem_decimal (n := n) (by simp [hcs])
    -- the text begins with a digit: no blank to skip, no sign
    have hspace : isspace c = false := by
      by_contra hs
      simp only [isspace, Bool.not_eq_false, Bool.or_eq_true, decide_eq_true_eq] at hs
      rcases hs with ((((rfl | rfl) | rfl) | rfl) | rfl) | rfl <;> simp at hc
    have hm : c ≠ '-' := by rintro rfl; simp at hc
    have hp : c ≠ '+' := by rintro rfl; simp at hc
    have hsign : (match c :: s with
        | '-' :: s' => -digits s'
        | '+' :: s' => digits s'
        | s' => digits s' : ℤ) = n := by
      rw [← digits_decimal n, hcs]
      split
      · next he => exact absurd (List.cons.inj he).1 hm
      · next he => exact absurd (List.cons.inj he).1 hp
      · rfl
    rw [strtol, hcs, List.dropWhile_cons_of_neg (by simp [hspace]), hsign]
    omega
  rw [atoi, hstrtol, int32]
  exact Int.bmod_eq_of_le (by omega) (by omega)

theorem atoi_bounds (s : List Char) : -2 ^ 31 ≤ atoi s ∧ atoi s < 2 ^ 31 := by
  have hle := Int.le_bmod (x := strtol s) (m := 2 ^ 32) (by decide)
  have hlt := Int.bmod_lt (x := strtol s) (m := 2 ^ 32) (by decide)
  rw [atoi, int32]
  omega

end Decimal

section Lines

variable {w : List Char} {size : ℕ}

theorem fgetsFrom_append {room left : ℕ} (hw : ∀ c ∈ w, c ≠ '\n') (hlen : w.length < left)
    (s acc : List Char) :
    fgetsFrom room (w ++ s) left acc = fgetsFrom room s (left - w.length) (w.reverse ++ acc) := by
  induction w generalizing left acc with
  | nil => rfl
  | cons c w ih =>
    rw [List.length_cons] at hlen
    have hc : ¬ (c = '\n' ∨ left ≤ 1) := by
      have := hw c (by simp)
      simp only [this, false_or]
      omega
    rw [List.cons_append, fgetsFrom, if_neg hc, ih (fun x h => hw x (by simp [h])) (by omega)]
    rw [List.length_cons, show left - 1 - w.length = left - (w.length + 1) by omega]
    simp

/-- A line that fits the buffer is read whole. -/
theorem fgetsLines_line (hw : ∀ c ∈ w, c ≠ '\n') (hlen : w.length + 1 < size) (s : List Char) :
    fgetsLines size (w ++ '\n' :: s) = (w ++ ['\n']) :: fgetsLines size s := by
  rw [fgetsLines, fgetsFrom_append hw (by omega), fgetsFrom, if_pos (Or.inl rfl)]
  simp [fgetsLines]

/-- A line that leaves no room for its newline is read without it. -/
theorem fgetsLines_full (hw : ∀ c ∈ w, c ≠ '\n') (hne : w ≠ []) (hlen : w.length + 1 = size)
    (s : List Char) : fgetsLines size (w ++ '\n' :: s) = w :: ['\n'] :: fgetsLines size s := by
  rcases List.eq_nil_or_concat w with rfl | ⟨v, c, rfl⟩
  · exact absurd rfl hne
  · rw [List.concat_eq_append] at hw hlen ⊢
    rw [List.length_append, List.length_singleton] at hlen
    have hv : ∀ x ∈ v, x ≠ '\n' := fun x h => hw x (by simp [h])
    rw [fgetsLines, List.append_assoc, fgetsFrom_append hv (by omega), List.singleton_append,
      fgetsFrom, if_pos (Or.inr (by omega)), fgetsFrom, if_pos (Or.inl rfl)]
    simp [fgetsLines]

theorem length_of_mem_fgetsFrom {room : ℕ} (hroom : 0 < room) :
    ∀ {s : List Char} {left : ℕ} {acc : List Char}, 0 < left → acc.length + left = room →
      ∀ l ∈ fgetsFrom room s left acc, l.length ≤ room
  | [], left, [], _, _, l, h => by simp [fgetsFrom] at h
  | [], left, a :: acc, hl, hr, l, h => by
    obtain rfl : l = (a :: acc).reverse := by simpa [fgetsFrom] using h
    rw [List.length_reverse]
    omega
  | c :: s, left, acc, hl, hr, l, h => by
    rw [fgetsFrom] at h
    split at h
    · rcases List.mem_cons.mp h with rfl | h
      · rw [List.length_reverse, List.length_cons]
        omega
      · exact length_of_mem_fgetsFrom hroom hroom (by simp) l h
    · next hc =>
      rw [not_or] at hc
      exact length_of_mem_fgetsFrom hroom (by omega) (by rw [List.length_cons]; omega) l h

theorem length_of_mem_fgetsLines {text l : List Char} (hsize : 1 < size)
    (h : l ∈ fgetsLines size text) : l.length < size := by
  have := length_of_mem_fgetsFrom (by omega) (by omega) (by simp) l h
  omega

theorem flatten_fgetsFrom {room : ℕ} : ∀ (s : List Char) (left : ℕ) (acc : List Char),
    (fgetsFrom room s left acc).flatten = acc.reverse ++ s
  | [], _, [] => rfl
  | [], _, a :: acc => by simp [fgetsFrom]
  | c :: s, left, acc => by
    rw [fgetsFrom]
    split
    · rw [List.flatten_cons, flatten_fgetsFrom s room []]
      simp
    · rw [flatten_fgetsFrom s (left - 1) (c :: acc)]
      simp

/-- Nothing of a file is left out or read twice. -/
theorem flatten_fgetsLines (size : ℕ) (text : List Char) :
    (fgetsLines size text).flatten = text := flatten_fgetsFrom text (size - 1) []

end Lines

example : atoi "-12abc".toList = -12 := by decide

example : fgetsLines 4 "ab\ncdef".toList = ["ab\n".toList, "cde".toList, "f".toList] := by decide

end CString
