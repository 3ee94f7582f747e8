import PadSvr.CString.Hex
import Mathlib.Algebra.Order.Group.Nat

/-!
# The hex dump

`hex_dump` writes a line for every sixteen bytes: the offset, the bytes as hexadecimal columns and
the bytes as characters. Two pointers walk the data. The one of the columns takes sixteen bytes for
every line and looks at its counter only afterwards, so it leaves the data when the last line is
not a full one.

## Main definitions

* `Dumping`: the locals of `hex_dump`, with the bytes it has read and the lines it has printed
* `hexDump logLevel level1 level2 mem length`: the dump of the `length` bytes at `mem`
* `offsetField`, `hexField`, `textField`: the three parts of a line
* `Faithful mem n s`: a dump that stays inside its `n` bytes and shows them all

## Main results

* `line_eq`: what one line reads and prints
* `hexDump_eq`: what the whole dump reads and prints
* `faithful_iff`: a dump is faithful exactly when the data fills its lines
-/

namespace PadSvr

open CString

/-- The locals of `hex_dump`. The pointers are offsets into the data, `sbuf` is the text in the
buffer, and `reads` and `printed` are what was read through the pointers and given to `Printf`. -/
structure Dumping where
  data : ℕ
  length : ℤ
  data2 : ℕ
  length2 : ℤ
  i : ℕ
  sbuf : List Char
  reads : List ℕ
  printed : List (List Char)
deriving DecidableEq, Repr

/-- The size of `sbuf`. -/
def sizeSbuf : ℕ := 1000

/-- A byte as it is shown in the text column. -/
def shown (c : UInt8) : Char :=
  if 0x20 ≤ c ∧ c < 0x7F then Char.ofNat c.toNat else '.'

section Dump

variable (mem : ℕ → UInt8)

/-- A round of the loop over the hexadecimal columns. The byte is read first. -/
def hexColumn (s : Dumping) : Dumping :=
  let c := mem s.data2
  let length2 := s.length2 - 1
  { s with
    data2 := s.data2 + 1
    length2 := length2
    sbuf := s.sbuf ++ if 0 ≤ length2 then hexText 2 c.toNat ++ [' '] else [' ', ' ', ' ']
    reads := s.reads ++ [s.data2] }

/-- The loop over the hexadecimal columns, with `k` rounds left. -/
def hexColumns : ℕ → Dumping → Dumping
  | 0, s => s
  | k + 1, s => hexColumns k (hexColumn mem s)

/-- A round of the loop over the characters. -/
def textColumn (s : Dumping) : Dumping :=
  { s with
    data := s.data + 1
    length := s.length - 1
    sbuf := s.sbuf ++ [shown (mem s.data)]
    reads := s.reads ++ [s.data] }

/-- The loop over the characters, with `k` rounds left. -/
def textColumns : ℕ → Dumping → Dumping
  | 0, s => s
  | k + 1, s => if 0 < s.length then textColumns k (textColumn mem s) else s

/-- A line. -/
def dumpLine (s : Dumping) : Dumping :=
  let s := { s with sbuf := hexText 4 s.i ++ [' ', ' '] }
  let s := hexColumns mem 16 s
  let s := { s with sbuf := s.sbuf ++ [' ', '|', ' '] }
  let s := textColumns mem 16 s
  let s := { s with sbuf := s.sbuf ++ ['\n'] }
  { s with printed := s.printed ++ [s.sbuf] }

/-- The loop over the lines, cut after `k` rounds. -/
def dumpLines (fla1str : Bool) : ℕ → Dumping → Option Dumping
  | 0, _ => none
  | k + 1, s =>
    if 0 < s.length then
      let s := dumpLine mem s
      if fla1str then some s else dumpLines fla1str k { s with i := s.i + 16 }
    else some s

/-- The locals at the start. -/
def Dumping.start (length : ℤ) : Dumping where
  data := 0
  length := length
  data2 := 0
  length2 := length
  i := 0
  sbuf := []
  reads := []
  printed := []

/-- `hex_dump`. A line takes one byte at least, so `length` rounds are enough. -/
def hexDump (logLevel level1 level2 length : ℤ) : Option Dumping :=
  if level1 ≤ logLevel then
    dumpLines mem (logLevel < level2) (length.toNat + 1) (.start length)
  else some (.start length)

end Dump

/-- The hexadecimal columns of `k` bytes from `off` on, `len` of them inside the data. -/
def columns (mem : ℕ → UInt8) (off : ℕ) (len : ℤ) : ℕ → List Char
  | 0 => []
  | k + 1 =>
    (if 0 ≤ len - 1 then hexText 2 (mem off).toNat ++ [' '] else [' ', ' ', ' ']) ++
      columns mem (off + 1) (len - 1) k

/-- The line of the bytes from `off` on, `n` being left. -/
def lineText (mem : ℕ → UInt8) (off n : ℕ) : List Char :=
  hexText 4 off ++ ' ' :: ' ' :: (columns mem off n 16 ++ ' ' :: '|' :: ' ' ::
    ((List.range' off (min 16 n)).map (fun k => shown (mem k)) ++ ['\n']))

/-- The offset of a line. -/
def offsetField (line : List Char) : List Char := line.takeWhile (· ≠ ' ')

/-- The hexadecimal columns of a line. -/
def hexField (line : List Char) : List Char :=
  ((line.drop (offsetField line).length).drop 2).take 48

/-- The characters of a line. -/
def textField (line : List Char) : List Char :=
  ((line.drop (offsetField line).length).drop 53).dropLast

/-- The bytes in hexadecimal columns; a blank column is none. -/
def columnBytes : List Char → List UInt8
  | a :: b :: _ :: cols =>
    if a = ' ' then columnBytes cols else UInt8.ofNat (hexNumber [a, b]) :: columnBytes cols
  | _ => []

/-- The `n` bytes of the data. -/
def dataBytes (mem : ℕ → UInt8) (n : ℕ) : List UInt8 := (List.range n).map mem

/-- A dump that stays inside its data and shows all of it. -/
structure Faithful (mem : ℕ → UInt8) (n : ℕ) (s : Dumping) : Prop where
  reads : ∀ k ∈ s.reads, k < n
  offsets : s.printed.map (fun line => hexNumber (offsetField line)) =
    (List.range ((n + 15) / 16)).map (16 * ·)
  hex : s.printed.flatMap (fun line => columnBytes (hexField line)) = dataBytes mem n
  text : s.printed.map textField =
    (List.range ((n + 15) / 16)).map fun k =>
      (((dataBytes mem n).drop (16 * k)).take 16).map shown
  sbuf : ∀ line ∈ s.printed, line.length < sizeSbuf

section Line

variable {mem : ℕ → UInt8} {s : Dumping} {off n : ℕ}

theorem hexColumns_eq : ∀ (k : ℕ) (s : Dumping),
    hexColumns mem k s =
      { s with
        data2 := s.data2 + k
        length2 := s.length2 - k
        sbuf := s.sbuf ++ columns mem s.data2 s.length2 k
        reads := s.reads ++ List.range' s.data2 k } := by
  intro k
  induction k with
  | zero => simp [hexColumns, columns]
  | succ k ih =>
    intro s
    rw [hexColumns, ih]
    simp only [hexColumn, columns, List.range'_succ, List.append_assoc, List.singleton_append]
    congr 1 <;> push_cast <;> ring

theorem textColumns_eq : ∀ (k n : ℕ) (s : Dumping), s.length = n →
    textColumns mem k s =
      { s with
        data := s.data + min k n
        length := ((n - k : ℕ) : ℤ)
        sbuf := s.sbuf ++ (List.range' s.data (min k n)).map (fun k => shown (mem k))
        reads := s.reads ++ List.range' s.data (min k n) } := by
  intro k
  induction k with
  | zero =>
    intro n s hn
    simp [textColumns, ← hn]
  | succ k ih =>
    intro n s hn
    cases n with
    | zero =>
      have hs : ¬ 0 < s.length := by omega
      have hzero : s.length = 0 := hn
      rw [textColumns, if_neg hs]
      simp [← hzero]
    | succ n =>
      have hs : 0 < s.length := by omega
      have hlen : (textColumn mem s).length = n := by
        simp only [textColumn]
        omega
      rw [textColumns, if_pos hs, ih n _ hlen]
      simp only [textColumn, Nat.add_min_add_right, List.range'_succ, List.map_cons,
        List.append_assoc, List.singleton_append, Nat.add_sub_add_right]
      congr 1
      omega

/-- The head of the loop over the lines, with `n` bytes left from `off` on. -/
structure AtLine (off n : ℕ) (s : Dumping) : Prop where
  data : s.data = off
  data2 : s.data2 = off
  i : s.i = off
  length : s.length = n
  length2 : s.length2 = n

/-- **A line**: sixteen bytes are read for the columns, and those that are left for the text. -/
theorem line_eq (h : AtLine off n s) :
    dumpLine mem s =
      { s with
        data := off + min 16 n
        length := ((n - 16 : ℕ) : ℤ)
        data2 := off + 16
        length2 := (n : ℤ) - 16
        sbuf := lineText mem off n
        reads := s.reads ++ List.range' off 16 ++ List.range' off (min 16 n)
        printed := s.printed ++ [lineText mem off n] } := by
  obtain ⟨hdata, hdata2, hi, hlength, hlength2⟩ := h
  subst hdata
  simp only [dumpLine, hexColumns_eq, hdata2, hi, hlength2]
  rw [textColumns_eq 16 n]
  · simp [lineText]
  · exact hlength

/-- A full line leads to the next one. -/
theorem AtLine.next (h : AtLine off n s) (h16 : 16 ≤ n) :
    AtLine (off + 16) (n - 16) { dumpLine mem s with i := (dumpLine mem s).i + 16 } := by
  rw [line_eq h]
  refine ⟨?_, rfl, ?_, rfl, ?_⟩
  · show off + min 16 n = off + 16
    omega
  · show s.i + 16 = off + 16
    rw [h.i]
  · show (n : ℤ) - 16 = ((n - 16 : ℕ) : ℤ)
    omega

/-- What a line reads: its bytes, for the text, and sixteen bytes from the same place on. -/
theorem mem_reads_dumpLine (mem : ℕ → UInt8) (h : AtLine off n s) (r : ℕ) :
    r ∈ (dumpLine mem s).reads ↔ r ∈ s.reads ∨ off ≤ r ∧ r < off + 16 := by
  rw [line_eq h]
  simp only [List.mem_append, List.mem_range'_1, or_assoc]
  refine or_congr_right ?_
  omega

end Line

section Dump

variable {mem : ℕ → UInt8} {n off : ℕ}

/-- The lines of `n` bytes from `off` on. -/
def lineTexts (mem : ℕ → UInt8) (off n : ℕ) : List (List Char) :=
  (List.range ((n + 15) / 16)).map fun k => lineText mem (off + 16 * k) (n - 16 * k)

theorem lineTexts_zero : lineTexts mem off 0 = [] := rfl

theorem lineTexts_of_pos (hn : 0 < n) :
    lineTexts mem off n = lineText mem off n :: lineTexts mem (off + 16) (n - 16) := by
  have hcount : (n + 15) / 16 = (n - 16 + 15) / 16 + 1 := by omega
  rw [lineTexts, hcount, List.range_succ_eq_map, List.map_cons, List.map_map, lineTexts]
  refine congrArg₂ List.cons rfl (List.map_congr_left fun k _ => ?_)
  simp only [Function.comp, Nat.succ_eq_add_one]
  congr 1 <;> omega

/-- **The dump**: every line reads its sixteen bytes, and the lines are those of the data. -/
theorem dumpLines_eq : ∀ (k n off : ℕ) (s : Dumping), AtLine off n s → n < k →
    ∃ s', dumpLines mem false k s = some s' ∧ s'.printed = s.printed ++ lineTexts mem off n ∧
      ∀ r, r ∈ s'.reads ↔ r ∈ s.reads ∨ off ≤ r ∧ r < off + 16 * ((n + 15) / 16) := by
  intro k
  induction k with
  | zero => exact fun n off s _ hk => absurd hk (Nat.not_lt_zero n)
  | succ k ih =>
    intro n off s h hk
    have hlength := h.length
    have hreads := mem_reads_dumpLine mem h
    rw [dumpLines]
    by_cases hn : n = 0
    · subst hn
      refine ⟨s, by rw [if_neg (by omega)], ?_, ?_⟩
      · rw [lineTexts_zero, List.append_nil]
      · intro r
        simp
    · rw [if_pos (by omega)]
      simp only [Bool.false_eq_true, if_false]
      have hprinted : (dumpLine mem s).printed = s.printed ++ [lineText mem off n] := by
        rw [line_eq h]
      by_cases h16 : n ≤ 16
      · -- the last line: its columns take sixteen bytes all the same
        have hz : n - 16 = 0 := by omega
        have hend : ¬ 0 < (dumpLine mem s).length := by
          rw [line_eq h]
          simp [hz]
        obtain ⟨j, rfl⟩ : ∃ j, k = j + 1 := ⟨k - 1, by omega⟩
        rw [dumpLines]
        refine ⟨_, by rw [if_neg hend], ?_, ?_⟩
        · rw [hprinted, lineTexts_of_pos (by omega), hz, lineTexts_zero]
        · intro r
          rw [hreads]
          refine or_congr_right ?_
          omega
      · obtain ⟨s', hs', hprinted', hreads'⟩ :=
          ih (n - 16) (off + 16) _ (h.next (by omega)) (by omega)
        refine ⟨s', hs', ?_, ?_⟩
        · rw [hprinted', hprinted, lineTexts_of_pos (n := n) (by omega), List.append_assoc]
          rfl
        · intro r
          rw [hreads', hreads, or_assoc]
          refine or_congr_right ?_
          omega

theorem hexDump_eq {logLevel level1 level2 : ℤ} (h1 : level1 ≤ logLevel)
    (h2 : level2 ≤ logLevel) :
    ∃ s, hexDump mem logLevel level1 level2 n = some s ∧ s.printed = lineTexts mem 0 n ∧
      ∀ r, r ∈ s.reads ↔ r < 16 * ((n + 15) / 16) := by
  have hfla : decide (logLevel < level2) = false := by simpa using h2
  rw [hexDump, if_pos h1, hfla, Int.toNat_natCast]
  obtain ⟨s, hs, hprinted, hreads⟩ :=
    dumpLines_eq (n + 1) n 0 (.start n) ⟨rfl, rfl, rfl, rfl, rfl⟩ (by omega)
  refine ⟨s, hs, hprinted, fun r => ?_⟩
  rw [hreads]
  simp [Dumping.start]

end Dump

section Fields

variable {mem : ℕ → UInt8} {off n : ℕ}

theorem offsetField_lineText : offsetField (lineText mem off n) = hexText 4 off := by
  rw [offsetField, lineText, List.takeWhile_append_of_pos]
  · simp
  · intro c hc
    simpa using ne_space_of_mem_hexText hc

theorem length_hexText_byte (c : UInt8) : (hexText 2 c.toNat).length = 2 :=
  length_hexText_eq (by have := c.toNat_lt; omega)

theorem length_columns : ∀ (k : ℕ) (off : ℕ) (len : ℤ), (columns mem off len k).length = 3 * k := by
  intro k
  induction k with
  | zero => exact fun off len => rfl
  | succ k ih =>
    intro off len
    rw [columns, List.length_append, ih]
    split
    · rw [List.length_append, length_hexText_byte, List.length_singleton]
      omega
    · simp only [List.length_cons, List.length_nil]
      omega

theorem columnBytes_byte (c : UInt8) (cols : List Char) :
    columnBytes (hexText 2 c.toNat ++ [' '] ++ cols) = c :: columnBytes cols := by
  -- a column is told from a blank one by its first digit
  obtain ⟨a, b, hab⟩ := List.length_eq_two.mp (length_hexText_byte c)
  have ha : a ≠ ' ' := by
    refine ne_space_of_mem_hexText (w := 2) (n := c.toNat) ?_
    simp [hab]
  have hc : hexNumber [a, b] = c.toNat := by rw [← hab, hexNumber_hexText]
  rw [hab]
  simp only [List.cons_append, List.nil_append, columnBytes, if_neg ha, hc, UInt8.ofNat_toNat]

/-- The columns give the bytes back. -/
theorem columnBytes_columns : ∀ (k : ℕ) (len : ℤ) (off : ℕ),
    columnBytes (columns mem off len k) = (List.range' off (min k len.toNat)).map mem := by
  intro k
  induction k with
  | zero => simp [columns, columnBytes]
  | succ k ih =>
    intro len off
    rw [columns]
    by_cases hlen : 0 ≤ len - 1
    · have hmin : min (k + 1) len.toNat = min k (len - 1).toNat + 1 := by omega
      rw [if_pos hlen, columnBytes_byte, ih, hmin, List.range'_succ, List.map_cons]
    · -- past the data the columns stay blank
      have hmin : min (k + 1) len.toNat = 0 := by omega
      have hmin' : min k (len - 1).toNat = 0 := by omega
      rw [if_neg hlen, hmin]
      simp only [List.cons_append, List.nil_append, columnBytes, if_true, ih, hmin']
      rfl

theorem hexField_lineText : hexField (lineText mem off n) = columns mem off n 16 := by
  have hlen : (columns mem off n 16).length = 48 := length_columns 16 off n
  rw [hexField, offsetField_lineText, lineText, List.drop_left]
  simp only [List.drop_succ_cons, List.drop_zero]
  exact List.take_left' hlen

theorem textField_lineText :
    textField (lineText mem off n) = (List.range' off (min 16 n)).map fun k => shown (mem k) := by
  have hlen : (columns mem off n 16).length = 48 := length_columns 16 off n
  have hdrop : ∀ l : List Char, (columns mem off n 16 ++ l).drop 51 = l.drop 3 := by
    intro l
    rw [← List.drop_drop (i := 3) (j := 48), List.drop_left' hlen]
  rw [textField, offsetField_lineText, lineText, List.drop_left]
  simp only [List.drop_succ_cons, hdrop, List.drop_zero]
  exact List.dropLast_concat

theorem length_lineText_lt (h : off < 2 ^ 31) : (lineText mem off n).length < sizeSbuf := by
  have hoff : (hexText 4 off).length ≤ 8 := length_hexText_le (by decide) (by omega)
  have hcols : (columns mem off n 16).length = 48 := length_columns 16 off n
  simp only [lineText, List.length_append, List.length_cons, List.length_map, List.length_range',
    List.length_nil, hcols, sizeSbuf]
  omega

end Fields

section Whole

variable {mem : ℕ → UInt8} {n : ℕ}

theorem offsets_lineTexts :
    (lineTexts mem 0 n).map (fun line => hexNumber (offsetField line)) =
      (List.range ((n + 15) / 16)).map (16 * ·) := by
  rw [lineTexts, List.map_map]
  refine List.map_congr_left fun k _ => ?_
  simp only [Function.comp, offsetField_lineText, hexNumber_hexText, zero_add]

theorem hex_lineTexts : ∀ n off : ℕ,
    (lineTexts mem off n).flatMap (fun line => columnBytes (hexField line)) =
      (List.range' off n).map mem := by
  intro n
  induction n using Nat.strong_induction_on with
  | h n ih =>
    intro off
    by_cases hn : n = 0
    · subst hn
      rfl
    · -- the bytes of the first line, and those of the others
      have hsplit : List.range' off n =
          List.range' off (min 16 n) ++ List.range' (off + 16) (n - 16) := by
        by_cases h16 : n ≤ 16
        · have hz : n - 16 = 0 := by omega
          rw [min_eq_right h16, hz, List.range'_zero, List.append_nil]
        · have hmin : min 16 n = 16 := by omega
          have hsum : n = 16 + (n - 16) := by omega
          rw [hmin]
          nth_rewrite 1 [hsum]
          exact (List.range'_append_1).symm
      rw [lineTexts_of_pos (by omega), List.flatMap_cons, ih (n - 16) (by omega),
        hexField_lineText, columnBytes_columns, Int.toNat_natCast, hsplit, List.map_append]

theorem text_lineTexts :
    (lineTexts mem 0 n).map textField =
      (List.range ((n + 15) / 16)).map fun k =>
        (((dataBytes mem n).drop (16 * k)).take 16).map shown := by
  have htake : ∀ a m : ℕ, (List.range' a m).take 16 = List.range' a (min 16 m) := by
    intro a m
    rcases le_total m 16 with h | h
    · rw [List.take_range'_of_length_le h, min_eq_right h]
    · rw [List.take_range'_of_length_ge h, min_eq_left h]
  rw [lineTexts, List.map_map]
  refine List.map_congr_left fun k _ => ?_
  rw [Function.comp, textField_lineText, dataBytes, ← List.map_drop, ← List.map_take,
    List.map_map, List.range_eq_range', List.drop_range', htake, mul_one]
  rfl

theorem length_lt_of_mem_lineTexts (hn : n < 2 ^ 31) {line : List Char}
    (h : line ∈ lineTexts mem 0 n) : line.length < sizeSbuf := by
  obtain ⟨k, hk, rfl⟩ := List.mem_map.mp h
  have hlt := List.mem_range.mp hk
  exact length_lineText_lt (by omega)

/-- **A dump is faithful exactly when its data fills the lines.** Otherwise the columns of the last
line take bytes from behind the data. -/
theorem faithful_iff {logLevel level1 level2 : ℤ} (hn : n < 2 ^ 31) (h1 : level1 ≤ logLevel)
    (h2 : level2 ≤ logLevel) :
    (∃ s, hexDump mem logLevel level1 level2 n = some s ∧ Faithful mem n s) ↔ 16 ∣ n := by
  obtain ⟨s, hs, hprinted, hreads⟩ := hexDump_eq (n := n) h1 h2
  rw [hs]
  constructor
  · rintro ⟨_, ⟨⟩, hf⟩
    -- a last line that is not full takes the byte behind the data
    by_contra hdvd
    have hmem : n ∈ s.reads := (hreads n).mpr (by omega)
    exact (hf.reads n hmem).false
  · intro hdvd
    refine ⟨s, rfl, fun k hk => ?_, ?_, ?_, ?_, ?_⟩
    · have hlt := (hreads k).mp hk
      omega
    · rw [hprinted, offsets_lineTexts]
    · rw [hprinted, hex_lineTexts, dataBytes, List.range_eq_range']
    · rw [hprinted, text_lineTexts]
    · intro line hline
      rw [hprinted] at hline
      exact length_lt_of_mem_lineTexts hn hline

theorem faithful_iff_32 :
    (∃ s, hexDump (fun _ => 0x41) 10 8 10 (32 : ℕ) = some s ∧ Faithful (fun _ => 0x41) 32 s) ↔
      16 ∣ 32 :=
  faithful_iff (by decide) (by decide) (by decide)

/-- The two bytes of an invitation to clear: the columns read fourteen more. -/
theorem not_faithful :
    ¬ ∀ (mem : ℕ → UInt8) (n : ℕ) (logLevel level1 level2 : ℤ), n < 2 ^ 31 →
      level1 ≤ logLevel → level2 ≤ logLevel →
      ∃ s, hexDump mem logLevel level1 level2 n = some s ∧ Faithful mem n s := by
  intro h
  let buf (k : ℕ) : UInt8 := if k < 2 then 1 else 0
  obtain ⟨s, hs, hf⟩ := h buf 2 10 8 10 (by decide) (by decide) (by decide)
  have hread : 2 ∈ s.reads := by
    obtain ⟨s', hs', -, hreads⟩ := hexDump_eq (n := 2)
      (show (8 : ℤ) ≤ 10 by decide) (show (10 : ℤ) ≤ 10 by decide)
    rw [hs] at hs'
    cases hs'
    exact (hreads 2).mpr (by decide)
  exact (hf.reads 2 hread).false

end Whole

end PadSvr
