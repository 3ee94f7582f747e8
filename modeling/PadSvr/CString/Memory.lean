import PadSvr.CString.Stdio
import Mathlib.Logic.Function.Basic

/-!
# C strings in memory

The string functions walk from character to character. In a memory with a NUL at `k` a walk that
begins at or before `k` ends there at the latest.

## Main definitions

* `scan p mem n i`: the first character from `i` on that has not the property `p`
* `strtokR delim mem n s`: a call of `strtok_r` in memory
* `atoiScan mem n`: how far `atoi` looks
* `strAt mem k s`: the string at an address

## Main results

* `scan_spec`: a walk ends at the NUL
* `strtokR_spec`: a call stays before the NUL, and is `strtok` on the string at its address
* `atoiScan_spec`: so does `atoi`
-/

namespace CString

/-- The first index from `i` on whose character has not the property `p`, looked for in `n`
rounds. -/
def scan (p : Char → Bool) (mem : ℕ → Char) : ℕ → ℕ → Option ℕ
  | 0, _ => none
  | n + 1, i => if p (mem i) then scan p mem n (i + 1) else some i

/-- What a call of `strtok_r` leaves: the token, the save pointer and the memory, and the last
index it has looked at. -/
structure TokenAt where
  token : Option ℕ
  save : ℕ
  mem : ℕ → Char
  stop : ℕ

/-- `strtok_r` on the string at `s`. -/
def strtokR (delim : List Char) (mem : ℕ → Char) (n s : ℕ) : Option TokenAt :=
  match scan (fun c => decide (c ∈ delim)) mem n s with
  | none => none
  | some b =>
    if mem b = '\x00' then some ⟨none, b, mem, b⟩
    else
      match scan (fun c => decide (c ≠ '\x00') && isWord delim c) mem n b with
      | none => none
      | some e =>
        if mem e = '\x00' then some ⟨some b, e, mem, e⟩
        else some ⟨some b, e + 1, Function.update mem e '\x00', e⟩

/-- The indices at which the two walks of `atoi` end: over blanks, and behind a sign over
digits. -/
def atoiScan (mem : ℕ → Char) (n : ℕ) : Option (List ℕ) :=
  match scan isspace mem n 0 with
  | none => none
  | some i =>
    let i' := if mem i = '-' ∨ mem i = '+' then i + 1 else i
    (scan Char.isDigit mem n i').map fun j => [i, j]

/-- The string at `s`, in a memory with a NUL at `k`. -/
def strAt (mem : ℕ → Char) (k s : ℕ) : List Char := cstr ((List.range' s (k - s)).map mem)

section Scan

variable {p : Char → Bool} {mem mem' : ℕ → Char} {k s : ℕ}

/-- **A walk ends**, at `k` at the latest if the property fails there. -/
theorem scan_spec (hk : p (mem k) = false) : ∀ (n i : ℕ), i ≤ k → k < i + n →
    ∃ j, scan p mem n i = some j ∧ i ≤ j ∧ j ≤ k ∧ p (mem j) = false ∧
      ∀ x, i ≤ x → x < j → p (mem x) = true := by
  intro n
  induction n with
  | zero => exact fun i hi hn => absurd hn (by omega)
  | succ n ih =>
    intro i hi hn
    rw [scan]
    cases hp : p (mem i) with
    | false => exact ⟨i, rfl, le_rfl, hi, hp, fun x hx hx' => absurd hx (by omega)⟩
    -- the walk goes on, so it has not come to `k`
    | true =>
      have hne : i ≠ k := by
        rintro rfl
        rw [hk] at hp
        cases hp
      obtain ⟨j, hj, hij, hjk, hpj, hall⟩ := ih (i + 1) (by omega) (by omega)
      refine ⟨j, hj, by omega, hjk, hpj, fun x hx hxj => ?_⟩
      rcases Nat.eq_or_lt_of_le hx with rfl | hlt
      · exact hp
      · exact hall x hlt hxj

theorem strAt_self (mem : ℕ → Char) (k : ℕ) : strAt mem k k = [] := by
  simp [strAt, cstr]

theorem strAt_of_lt (mem : ℕ → Char) (h : s < k) :
    strAt mem k s = if mem s = '\x00' then [] else mem s :: strAt mem k (s + 1) := by
  have hlen : k - s = (k - (s + 1)) + 1 := by omega
  rw [strAt, hlen, List.range'_succ, List.map_cons, cstr, List.takeWhile_cons]
  by_cases h0 : mem s = '\x00' <;> simp [h0, strAt, cstr]

/-- The string at a NUL. -/
theorem strAt_of_nul (h : s ≤ k) (h0 : mem s = '\x00') : strAt mem k s = [] := by
  -- at `k` itself no character of the memory is part of the string
  rcases Nat.eq_or_lt_of_le h with rfl | hlt
  · exact strAt_self mem s
  · rw [strAt_of_lt mem hlt, if_pos h0]

/-- A string depends on the memory up to its NUL. -/
theorem strAt_congr {e : ℕ} (he : e ≤ k) (h0 : mem e = '\x00') (h0' : mem' e = '\x00') :
    ∀ n s, s + n = e → (∀ i, s ≤ i → i < e → mem' i = mem i) → strAt mem' k s = strAt mem k s := by
  intro n
  induction n with
  | zero =>
    intro s hs _
    obtain rfl : s = e := by omega
    rw [strAt_of_nul he h0, strAt_of_nul he h0']
  | succ n ih =>
    intro s hs heq
    have hlt : s < k := by omega
    rw [strAt_of_lt mem' hlt, strAt_of_lt mem hlt, heq s le_rfl (by omega),
      ih (s + 1) (by omega) fun i hi hie => heq i (by omega) hie]

/-- A walk over characters that are no NUL takes them off the string. -/
theorem strAt_walk {e : ℕ} (he : e ≤ k) : ∀ n s, s + n = e →
    (∀ i, s ≤ i → i < e → mem i ≠ '\x00') →
    strAt mem k s = (List.range' s n).map mem ++ strAt mem k e := by
  intro n
  induction n with
  | zero =>
    intro s hs _
    obtain rfl : s = e := by omega
    rfl
  | succ n ih =>
    intro s hs hne
    rw [strAt_of_lt mem (by omega), if_neg (hne s le_rfl (by omega)), List.range'_succ,
      List.map_cons, List.cons_append, ih (s + 1) (by omega) fun i hi hie => hne i (by omega) hie]

end Scan

section Strtok

variable {delim : List Char} {mem : ℕ → Char} {k n s : ℕ}

/-- Delimiters in front of a string change nothing. -/
theorem strtok_skip {ds : List Char} (hds : ∀ c ∈ ds, c ∈ delim) (s : List Char) :
    strtok delim (ds ++ s) = strtok delim s := by
  rw [strtok, List.dropWhile_append_of_pos (by simpa using hds), strtok]

/-- What a call of `strtok_r` leaves of the memory. -/
structure Kept (mem : ℕ → Char) (k s : ℕ) (r : TokenAt) : Prop where
  stop : r.stop ≤ k
  le_save : s ≤ r.save
  save_le : r.save ≤ k
  front : ∀ i, i < s → r.mem i = mem i
  nul : ∀ i, mem i = '\x00' → r.mem i = '\x00'

/-- A token in memory, which a NUL ends in front of the save pointer. -/
def IsTokenAt (k : ℕ) (r : TokenAt) (t : List Char) : Prop :=
  ∃ b e, r.token = some b ∧ b ≤ e ∧ e ≤ r.save ∧ r.mem e = '\x00' ∧ strAt r.mem k b = t

/-- The delimiters from `s` on are skipped. -/
theorem strtok_strAt_skip {b : ℕ} (hdelim : '\x00' ∉ delim) (hsb : s ≤ b) (hbk : b ≤ k)
    (hall : ∀ i, s ≤ i → i < b → mem i ∈ delim) :
    strtok delim (strAt mem k s) = strtok delim (strAt mem k b) := by
  -- no delimiter is a NUL, so the string goes on up to `b`
  have hne : ∀ i, s ≤ i → i < b → mem i ≠ '\x00' := fun i hi hib h0 =>
    hdelim (h0 ▸ hall i hi hib)
  rw [strAt_walk hbk (b - s) s (by omega) hne]
  refine strtok_skip (fun c hc => ?_) _
  obtain ⟨i, hi, rfl⟩ := List.mem_map.mp hc
  rw [List.mem_range'_1] at hi
  exact hall i hi.1 (by omega)

/-- A NUL at `e` changes nothing behind it. -/
theorem strAt_update_succ (mem : ℕ → Char) (k e : ℕ) :
    strAt (Function.update mem e '\x00') k (e + 1) = strAt mem k (e + 1) := by
  rw [strAt, strAt]
  refine congrArg cstr (List.map_congr_left fun i hi => ?_)
  rw [List.mem_range'_1] at hi
  exact Function.update_of_ne (by omega) ..

/-- A NUL at `e` ends the string in front of it. -/
theorem strAt_update {b e : ℕ} (hbe : b ≤ e) (hek : e ≤ k)
    (hne : ∀ i, b ≤ i → i < e → mem i ≠ '\x00') :
    strAt (Function.update mem e '\x00') k b = (List.range' b (e - b)).map mem := by
  have hother : ∀ i, i < e → Function.update mem e '\x00' i = mem i :=
    fun i hi => Function.update_of_ne (by omega) ..
  have hne' : ∀ i, b ≤ i → i < e → Function.update mem e '\x00' i ≠ '\x00' := fun i hi hie => by
    rw [hother i hie]
    exact hne i hi hie
  rw [strAt_walk hek (e - b) b (by omega) hne', strAt_of_nul hek (Function.update_self ..),
    List.append_nil]
  refine List.map_congr_left fun i hi => ?_
  rw [List.mem_range'_1] at hi
  exact hother i (by omega)

/-- The characters of a word, which a walk over it has taken. -/
theorem word_of_walk {b e : ℕ} (hne : b < e)
    (hword : ∀ i, b ≤ i → i < e → mem i ≠ '\x00' ∧ mem i ∉ delim) :
    (List.range' b (e - b)).map mem ≠ [] ∧
      ∀ c ∈ (List.range' b (e - b)).map mem, c ∉ delim := by
  constructor
  · rw [ne_eq, List.map_eq_nil_iff, List.range'_eq_nil_iff]
    omega
  · intro c hc
    obtain ⟨i, hi, rfl⟩ := List.mem_map.mp hc
    rw [List.mem_range'_1] at hi
    exact (hword i hi.1 (by omega)).2

/-- **A call of `strtok_r` stays before the NUL**, and is a call of `strtok` on the string at its
address. -/
theorem strtokR_spec (hdelim : '\x00' ∉ delim) (hk : mem k = '\x00') (hs : s ≤ k) (hn : k < s + n) :
    ∃ r, strtokR delim mem n s = some r ∧ Kept mem k s r ∧
      (strtok delim (strAt mem k s) = none ∧ r.token = none ∧ strAt r.mem k r.save = [] ∨
        ∃ t, strtok delim (strAt mem k s) = some (t, strAt r.mem k r.save) ∧ IsTokenAt k r t) := by
  have hkd : decide (mem k ∈ delim) = false := by simpa [hk] using hdelim
  obtain ⟨b, hb, hsb, hbk, hpb, hall⟩ :=
    scan_spec (p := fun c => decide (c ∈ delim)) hkd n s hs hn
  simp only [decide_eq_false_iff_not, decide_eq_true_eq] at hpb hall
  have hskip := strtok_strAt_skip hdelim hsb hbk hall
  rw [strtokR, hb]
  by_cases hb0 : mem b = '\x00'
  · -- the string has delimiters only
    simp only [if_pos hb0]
    refine ⟨_, rfl, ⟨hbk, hsb, hbk, fun i _ => rfl, fun i h => h⟩, Or.inl ⟨?_, rfl, ?_⟩⟩
    · rw [hskip, strAt_of_nul hbk hb0]
      rfl
    · exact strAt_of_nul hbk hb0
  · have hkw : (decide (mem k ≠ '\x00') && isWord delim (mem k)) = false := by simp [hk]
    obtain ⟨e, he, hbe, hek, hpe, hword⟩ :=
      scan_spec (p := fun c => decide (c ≠ '\x00') && isWord delim c) hkw n b hbk (by omega)
    simp only [Bool.and_eq_true, decide_eq_true_eq, isWord_eq_true] at hword
    -- the walk over the token takes its first character
    have hlt : b < e := by
      refine Nat.lt_of_le_of_ne hbe ?_
      rintro rfl
      simp [isWord, hb0, hpb] at hpe
    have hnul : ∀ i, b ≤ i → i < e → mem i ≠ '\x00' := fun i hi hie => (hword i hi hie).1
    obtain ⟨hw, hwd⟩ := word_of_walk hlt hword
    have hwalk := strAt_walk hek (e - b) b (by omega) hnul
    simp only [if_neg hb0, he]
    by_cases he0 : mem e = '\x00'
    · -- the token ends the string
      have hend := strAt_of_nul hek he0
      rw [hend, List.append_nil] at hwalk
      simp only [if_pos he0]
      refine ⟨_, rfl, ⟨hek, by simp only; omega, hek, fun i _ => rfl, fun i h => h⟩,
        Or.inr ⟨_, ?_, b, e, rfl, hbe, le_rfl, he0, hwalk⟩⟩
      rw [hskip, hwalk, hend, strtok_last hw hwd]
    · -- a delimiter ends it, and is replaced by a NUL
      have hek' : e < k := Nat.lt_of_le_of_ne hek fun heq => he0 (heq ▸ hk)
      have hed : mem e ∈ delim := by simpa [isWord, he0] using hpe
      simp only [if_neg he0]
      refine ⟨_, rfl, ⟨hek, by simp only; omega, hek', fun i hi => ?_, fun i hi => ?_⟩,
        Or.inr ⟨_, ?_, b, e, rfl, hbe, Nat.le_succ e, Function.update_self ..,
          strAt_update hbe hek hnul⟩⟩
      · exact Function.update_of_ne (by omega) ..
      · by_cases hie : i = e
        · rw [hie]
          exact Function.update_self ..
        · simp only
          rw [Function.update_of_ne hie, hi]
      · rw [hskip, hwalk, strAt_of_lt mem hek', if_neg he0, strAt_update_succ]
        exact strtok_token hw hwd hed _

/-- A token is still there in a memory that is the same up to its save pointer. -/
theorem IsTokenAt.congr {r : TokenAt} {t : List Char} (h : IsTokenAt k r t) (hk : r.save ≤ k)
    {m : ℕ → Char} (hfront : ∀ i, i < r.save → m i = r.mem i)
    (hnul : ∀ i, r.mem i = '\x00' → m i = '\x00') :
    ∃ b, r.token = some b ∧ strAt m k b = t := by
  obtain ⟨b, e, htok, hbe, he, he0, rfl⟩ := h
  refine ⟨b, htok, ?_⟩
  exact strAt_congr (by omega) he0 (hnul e he0) (e - b) b (by omega)
    fun i _ hie => hfront i (by omega)

end Strtok

section Atoi

variable {mem : ℕ → Char} {k n : ℕ}

/-- **`atoi` stays before the NUL.** -/
theorem atoiScan_spec (hk : mem k = '\x00') (hn : k < n) :
    ∃ js, atoiScan mem n = some js ∧ ∀ j ∈ js, j ≤ k := by
  have hspace : isspace (mem k) = false := by
    rw [hk]
    decide
  have hdigit : (mem k).isDigit = false := by
    rw [hk]
    decide
  obtain ⟨i, hi, -, hik, -, -⟩ := scan_spec hspace n 0 (Nat.zero_le k) (by omega)
  rw [atoiScan, hi]
  simp only
  have hsign : (if mem i = '-' ∨ mem i = '+' then i + 1 else i) ≤ k := by
    split
    · next h =>
      -- a sign is no NUL, so there is one behind it
      have hne : i ≠ k := by
        rintro rfl
        rw [hk] at h
        revert h
        decide
      omega
    · exact hik
  -- the digits behind the sign
  obtain ⟨j, hj, -, hjk, -, -⟩ := scan_spec hdigit n _ hsign (by omega)
  rw [hj]
  refine ⟨_, rfl, fun x hx => ?_⟩
  rcases List.mem_cons.mp hx with rfl | hx
  · exact hik
  · rw [List.mem_singleton.mp hx]
    exact hjk

end Atoi

end CString
