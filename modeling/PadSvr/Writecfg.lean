import PadSvr.X29.SetDefault
import PadSvr.PacketCode
import Mathlib.Data.Bool.AllAny

/-!
# Writing the configuration file

`writecfg` prints the settings in the form that `readcfg` reads. Eight of them come back as they
were; the profile is written as a constant.

## Main definitions

* `writecfg c`: the text of the file
* `Settings.InRange`: what every configured program satisfies

## Main results

* `Configured.inRange`: settings that were read, or built in, are in range
* `readcfg_writecfg`: the settings after reading the file back, whatever they were before
* `writecfg_readcfg_iff`: when writing and reading back leaves all nine settings
-/

namespace PadSvr

open CString

/-- One line of the file: `"%s %s\n"`. -/
def cfgEntry (lit val : List Char) : List Char := lit ++ ' ' :: (val ++ ['\n'])

/-- The profile that `writecfg` writes. -/
def writtenProfile : List Char := "1:0,2:0,3:0,4:1,13:4,15:0".toList

/-- The file that `writecfg` makes. -/
def writecfg (c : Settings) : List Char :=
  "#This is config file for pad_svr program.\n".toList ++ ("#\n".toList ++
  (cfgEntry litadr c.chaddr ++
  (cfgEntry litlvl (decimal c.logLevel) ++
  (cfgEntry litlog c.nameLogFile ++
  (cfgEntry litwch (decimal c.watchdogTimeout) ++
  (cfgEntry litwin (decimal c.winsizeIn) ++
  (cfgEntry litpin (decimal (paclen c.pacsizeIn)) ++
  (cfgEntry litifo (decimal c.forwardtimer) ++
  (cfgEntry litx29 writtenProfile ++
  cfgEntry litbuf (decimal c.bufferSize))))))))))

/-- A string that `strtok_r` returns whole from a line of the file. -/
structure IsValue (val : List Char) : Prop where
  ne_nil : val ≠ []
  noBlank : ∀ x ∈ val, x ∉ " \t\n".toList
  noNul : ∀ x ∈ val, x ≠ '\x00'

instance (val : List Char) : Decidable (IsValue val) :=
  decidable_of_iff
    (val ≠ [] ∧ val.all (fun x => x ∉ " \t\n".toList) ∧ val.all (fun x => x ≠ '\x00'))
    ⟨fun h => ⟨h.1, List.all_iff_forall_prop.mp h.2.1, List.all_iff_forall_prop.mp h.2.2⟩,
      fun h => ⟨h.1, List.all_iff_forall_prop.mpr h.2, List.all_iff_forall_prop.mpr h.3⟩⟩

/-- An X.121 address. -/
structure IsAddress (val : List Char) : Prop where
  ne_nil : val ≠ []
  digits : ∀ x ∈ val, x.isDigit
  length : val.length ≤ 15

instance (val : List Char) : Decidable (IsAddress val) :=
  decidable_of_iff (val ≠ [] ∧ val.all Char.isDigit ∧ val.length ≤ 15)
    ⟨fun h => ⟨h.1, List.all_eq_true.mp h.2.1, h.2.2⟩,
      fun h => ⟨h.1, List.all_eq_true.mpr h.2, h.3⟩⟩

/-- The settings that a line can leave. -/
structure Settings.InRange (c : Settings) : Prop where
  chaddr : IsAddress c.chaddr
  logLevel : 0 ≤ c.logLevel ∧ c.logLevel ≤ 10
  nameLogFile : IsValue c.nameLogFile ∧ c.nameLogFile.length ≤ 190
  watchdogTimeout : 1 ≤ c.watchdogTimeout ∧ c.watchdogTimeout ≤ 600
  winsizeIn : 1 ≤ c.winsizeIn ∧ c.winsizeIn ≤ 7
  pacsizeIn : 4 ≤ c.pacsizeIn ∧ c.pacsizeIn ≤ 12
  forwardtimer : 0 ≤ c.forwardtimer ∧ c.forwardtimer ≤ 199
  bufferSize : 0 ≤ c.bufferSize ∧ c.bufferSize < 2 ^ 31

/-- A line that assigns a value in range. -/
def CfgLine.InRange : CfgLine → Prop
  | .ignore => True
  | .quit => True
  | .x29Profile _ => True
  | .chaddr val => IsAddress val
  | .logLevel n => 0 ≤ n ∧ n ≤ 10
  | .nameLogFile val => IsValue val ∧ val.length ≤ 190
  | .watchdogTimeout n => 1 ≤ n ∧ n ≤ 600
  | .winsizeIn n => 1 ≤ n ∧ n ≤ 7
  | .pacsizeIn n => 4 ≤ n ∧ n ≤ 12
  | .forwardtimer n => 0 ≤ n ∧ n ≤ 199
  | .bufferSize n => 0 ≤ n ∧ n < 2 ^ 31

theorem clamp_bounds {lo hi : ℤ} (h : lo ≤ hi) (n : ℤ) :
    lo ≤ clamp lo hi n ∧ clamp lo hi n ≤ hi := by
  simp only [clamp]
  omega

theorem clamp_of_bounds {lo hi n : ℤ} (h : lo ≤ n ∧ n ≤ hi) : clamp lo hi n = n := by
  simp only [clamp]
  omega

section Range

variable {buf lit val : List Char} {l : CfgLine} {c c' : Settings}

/-- The value of a line is a word of its own, behind the name and a blank. -/
theorem isValue_of_nameValue (h : nameValue buf = some (lit, val)) (hnul : ∀ x ∈ buf, x ≠ '\x00') :
    IsValue val ∧ lit.length + 1 + val.length ≤ buf.length := by
  obtain ⟨-, rest, rest', h₁, h₂⟩ := nameValue_eq_some h
  have w₁ := strtok_word h₁
  have w₂ := strtok_word h₂
  have hrest : rest ≠ [] := by
    rintro rfl
    simp [strtok] at h₂
  have l₁ := (strtok_length h₁).2 hrest
  have l₂ := (strtok_length h₂).1
  refine ⟨⟨w₂.1, w₂.2.1, fun x hx => hnul x ?_⟩, by omega⟩
  exact w₁.2.2 x (List.mem_append_right _ (w₂.2.2 x (List.mem_append_left _ hx)))

/-- What a line assigns is in range. -/
theorem cfgLine_inRange (hlen : buf.length < 200) (hnul : ∀ x ∈ buf, x ≠ '\x00')
    (h : cfgLine buf = .ok l) : l.InRange := by
  rcases hnv : nameValue buf with _ | ⟨lit, val⟩
  · rw [cfgLine_of_nameValue_none hnv] at h
    cases h
    trivial
  · obtain ⟨hval, hl⟩ := isValue_of_nameValue hnv hnul
    obtain ⟨hc, rest, rest', h₁, h₂⟩ := nameValue_eq_some hnv
    have hat := atoi_bounds val
    -- name by name: clamped, or bounded by the length of the line
    let P (r : Except Fault CfgLine) : Prop := r = .ok l → l.InRange
    have hok : ∀ l' : CfgLine, l'.InRange → P (.ok l') := by
      rintro l' hl' ⟨⟩
      exact hl'
    refine cfgLine_induction (P := P) hnv (fun _ => ?_) (fun _ => ?_)
      (hok _ (clamp_bounds (by decide) _)) (fun hlog => hok _ ⟨hval, ?_⟩)
      (hok _ (clamp_bounds (by decide) _)) (hok _ (clamp_bounds (by decide) _))
      (fun _ _ => hok _ (clamp_bounds (by decide) _)) nofun
      (hok _ (clamp_bounds (by decide) _)) (hok _ ?_) (hok _ trivial) h
    · exact iteInduction (motive := P) (fun hle => iteInduction (motive := P)
        (fun hdig => hok _ ⟨hval.ne_nil, by simpa using hdig, hle⟩) fun _ => hok _ trivial)
        fun _ => hok _ trivial
    · -- whatever the profile is, it is no concern here
      intro hx
      unfold cfgX29 at hx
      split at hx
      · cases hx
      · split at hx
        · cases hx
          trivial
        · cases hx
    · have : litlog.length = 8 := by decide
      rw [hlog] at hl
      omega
    · show 0 ≤ (if atoi val < 0 then 16000 else atoi val) ∧ _ < _
      split
      · exact ⟨by decide, by decide⟩
      · exact ⟨by omega, hat.2⟩

theorem Settings.InRange.apply (hc : c.InRange) (hl : l.InRange) : (l.apply c).InRange := by
  cases l with
  | ignore | quit | x29Profile => exact { hc with }
  | chaddr => exact { hc with chaddr := hl }
  | logLevel => exact { hc with logLevel := hl }
  | nameLogFile => exact { hc with nameLogFile := hl }
  | watchdogTimeout => exact { hc with watchdogTimeout := hl }
  | winsizeIn => exact { hc with winsizeIn := hl }
  | pacsizeIn => exact { hc with pacsizeIn := hl }
  | forwardtimer => exact { hc with forwardtimer := hl }
  | bufferSize => exact { hc with bufferSize := hl }

theorem readcfgLines_inRange {lines : List (List Char)} (hlines : ∀ buf ∈ lines, buf.length < 200)
    (hc : c.InRange) (h : readcfgLines lines c = .ok c') : c'.InRange := by
  induction lines generalizing c with
  | nil =>
    cases h
    exact hc
  | cons buf lines ih =>
    rw [readcfgLines] at h
    split at h
    · cases h
    · cases h
      exact hc
    · next l _ hl =>
      have hlen : (cstr buf).length < 200 :=
        lt_of_le_of_lt (List.takeWhile_sublist _).length_le (hlines buf (by simp))
      have hnul : ∀ x ∈ cstr buf, x ≠ '\x00' := fun x hx => by
        simpa using List.mem_takeWhile_imp hx
      exact ih (fun b hb => hlines b (by simp [hb])) (hc.apply (cfgLine_inRange hlen hnul hl)) h

theorem CfgFile.length_of_mem_lines {file : CfgFile} {buf : List Char} (h : buf ∈ file.lines) :
    buf.length < 200 := by
  cases file with
  | readable text => exact length_of_mem_fgetsLines (by decide) h
  | missing _ => cases h

/-- **Settings that were read, or built in, are in range.** -/
theorem Configured.inRange {p : Option (List X29Par)} (h : Configured c p) : c.InRange := by
  induction h with
  | defaults =>
    constructor
    all_goals decide
  | readcfg _ hr ih =>
    exact readcfgLines_inRange (fun _ => CfgFile.length_of_mem_lines) ih
      (readcfgLines_of_readcfg hr)

end Range

/-- An entry of the file has the effect of `l`, whatever follows it. -/
def EntryReads (lit val : List Char) (l : CfgLine) : Prop :=
  ∀ rest c, readcfgLines (fgetsLines 200 (cfgEntry lit val ++ rest)) c =
    readcfgLines (fgetsLines 200 rest) (l.apply c)

section Entry

variable {buf lit val rest : List Char} {l : CfgLine} {c : Settings}

/-- What the names assign, those apart that test their value. -/
theorem cfgLine_of_nameValue (h : nameValue buf = some (lit, val)) :
    (lit = litx29 → cfgLine buf = cfgX29 val) ∧
    (lit = litlvl → cfgLine buf = .ok (.logLevel (clamp 0 10 (atoi val)))) ∧
    (lit = litlog → cfgLine buf = .ok (.nameLogFile val)) ∧
    (lit = litwch → cfgLine buf = .ok (.watchdogTimeout (clamp 1 600 (atoi val)))) ∧
    (lit = litwin → cfgLine buf = .ok (.winsizeIn (clamp 1 7 (atoi val)))) ∧
    (lit = litifo → cfgLine buf = .ok (.forwardtimer (clamp 0 199 (atoi val)))) := by
  obtain ⟨hc, rest, rest', h₁, h₂⟩ := nameValue_eq_some h
  rw [cfgLine, if_neg hc]
  simp only [h₁, h₂]
  refine ⟨?_, ?_, ?_, ?_, ?_, ?_⟩ <;> rintro rfl <;> rfl

theorem cfgLine_litadr (h : nameValue buf = some (litadr, val)) (hval : IsAddress val) :
    cfgLine buf = .ok (.chaddr val) := by
  obtain ⟨hc, rest, rest', h₁, h₂⟩ := nameValue_eq_some h
  have hdig : val.all Char.isDigit := List.all_eq_true.mpr hval.digits
  rw [cfgLine, if_neg hc]
  simp only [h₁, h₂, hval.length, hdig, if_true]

theorem cfgLine_litpin (h : nameValue buf = some (litpin, val)) {n : ℤ}
    (hn : faclen (atoi val) = some n) : cfgLine buf = .ok (.pacsizeIn (clamp 4 12 n)) := by
  obtain ⟨hc, rest, rest', h₁, h₂⟩ := nameValue_eq_some h
  rw [cfgLine, if_neg hc]
  simp only [h₁, h₂, hn]
  rfl

theorem cfgLine_litbuf (h : nameValue buf = some (litbuf, val)) (hval : 0 ≤ atoi val) :
    cfgLine buf = .ok (.bufferSize (atoi val)) := by
  obtain ⟨hc, rest, rest', h₁, h₂⟩ := nameValue_eq_some h
  rw [cfgLine, if_neg hc]
  simp only [h₁, h₂, if_neg (show ¬ atoi val < 0 by omega)]
  rfl

/-- An entry is read as its name and its value, with its newline or without it. -/
theorem nameValue_entry (hlit : IsValue lit) (hhash : lit.head? ≠ some '#') (hval : IsValue val)
    {tail : List Char} (htail : tail = [] ∨ tail = ['\n']) :
    nameValue (lit ++ ' ' :: (val ++ tail)) = some (lit, val) := by
  obtain ⟨x, lit', rfl⟩ := List.exists_cons_of_ne_nil hlit.ne_nil
  have hnl : x ≠ '\n' := by
    rintro rfl
    exact hlit.noBlank '\n' (by simp) (by decide)
  have hx : x ≠ '#' := by simpa using hhash
  have h₂ : strtok " \t\n".toList (val ++ tail) = some (val, []) := by
    rcases htail with rfl | rfl
    · rw [List.append_nil]
      exact strtok_last hval.ne_nil hval.noBlank
    · exact strtok_token hval.ne_nil hval.noBlank (by decide) []
  rw [nameValue, if_neg (by simp [hx, hnl]),
    strtok_token hlit.ne_nil hlit.noBlank (by decide) (val ++ tail)]
  simp only [h₂, Option.map_some]

theorem readcfgLines_cons {lines : List (List Char)} (hl : cfgLine (cstr buf) = .ok l)
    (hq : l ≠ .quit) : readcfgLines (buf :: lines) c = readcfgLines lines (l.apply c) := by
  rw [readcfgLines, hl]
  cases l with
  | quit => exact absurd rfl hq
  | _ => rfl

/-- **An entry of the file does what its name and its value ask for**, also where `fgets` has to
leave its newline for the next line. -/
theorem entryReads (hlit : IsValue lit) (hhash : lit.head? ≠ some '#') (hval : IsValue val)
    (hlen : lit.length + 1 + val.length < 200)
    (hl : ∀ buf, nameValue buf = some (lit, val) → cfgLine buf = .ok l) (hq : l ≠ .quit) :
    EntryReads lit val l := by
  intro rest c
  have hblank : ∀ x, x ∉ " \t\n".toList → x ≠ '\n' := by
    rintro x hx rfl
    exact hx (by decide)
  have hnl : ∀ x ∈ lit ++ ' ' :: val, x ≠ '\n' := by
    intro x hx
    rcases List.mem_append.mp hx with h | h
    · exact hblank x (hlit.noBlank x h)
    · rcases List.mem_cons.mp h with rfl | h
      · decide
      · exact hblank x (hval.noBlank x h)
  have hnul : ∀ x ∈ lit ++ ' ' :: val, x ≠ '\x00' := by
    intro x hx
    rcases List.mem_append.mp hx with h | h
    · exact hlit.noNul x h
    · rcases List.mem_cons.mp h with rfl | h
      · decide
      · exact hval.noNul x h
  have htext : cfgEntry lit val ++ rest = (lit ++ ' ' :: val) ++ '\n' :: rest := by
    simp [cfgEntry]
  rw [htext]
  by_cases hfull : (lit ++ ' ' :: val).length + 1 = 200
  · have hn := nameValue_entry hlit hhash hval (Or.inl rfl)
    rw [List.append_nil] at hn
    have hline : cfgLine (cstr (lit ++ ' ' :: val)) = .ok l := by
      rw [cstr_of_noNul hnul]
      exact hl _ hn
    -- the newline that was left is a line of its own
    have hnewline : cfgLine (cstr ['\n']) = .ok .ignore := by decide
    rw [fgetsLines_full hnl (by simp) hfull, readcfgLines_cons hline hq,
      readcfgLines_cons hnewline (by decide)]
    rfl
  · have hroom : (lit ++ ' ' :: val).length + 1 < 200 := by
      simp only [List.length_append, List.length_cons] at hfull ⊢
      omega
    have hline : cfgLine (cstr (lit ++ ' ' :: val ++ ['\n'])) = .ok l := by
      rw [cstr_of_noNul]
      · rw [List.append_assoc, List.cons_append]
        exact hl _ (nameValue_entry hlit hhash hval (Or.inr rfl))
      · intro x hx
        rcases List.mem_append.mp hx with h | h
        · exact hnul x h
        · rw [List.mem_singleton.mp h]
          decide
    rw [fgetsLines_line hnl hroom, readcfgLines_cons hline hq]

/-- A comment line does nothing. -/
theorem readcfgLines_comment (lit : List Char) (hend : lit = lit.dropLast ++ ['\n'])
    (hnl : ∀ x ∈ lit.dropLast, x ≠ '\n') (hlen : lit.length < 200)
    (hc : cfgLine (cstr lit) = .ok .ignore) (rest : List Char) (c : Settings) :
    readcfgLines (fgetsLines 200 (lit ++ rest)) c = readcfgLines (fgetsLines 200 rest) c := by
  have hroom : lit.dropLast.length + 1 < 200 := by
    have := congrArg List.length hend
    rw [List.length_append, List.length_singleton] at this
    omega
  have hlines : fgetsLines 200 (lit ++ rest) = lit :: fgetsLines 200 rest := by
    rw [hend, List.append_assoc, List.singleton_append, fgetsLines_line hnl hroom, ← hend]
  rw [hlines, readcfgLines_cons hc (by decide)]
  rfl

end Entry

section Number

variable {n : ℤ}

theorem isValue_decimal (h : 0 ≤ n) : IsValue (decimal n) := by
  obtain ⟨m, rfl⟩ := Int.eq_ofNat_of_zero_le h
  refine ⟨decimal_ne_nil m, fun x hx => ?_, fun x hx => ?_⟩
  · have hblank : ∀ y ∈ " \t\n".toList, y.isDigit = false :=
      List.all_iff_forall_prop.mp (by decide)
    intro hb
    have hd := isDigit_of_mem_decimal hx
    rw [hblank x hb] at hd
    cases hd
  · have hd := isDigit_of_mem_decimal hx
    rintro rfl
    simp at hd

theorem atoi_decimal_int (h : 0 ≤ n) (hlt : n < 2 ^ 31) : atoi (decimal n) = n := by
  obtain ⟨m, rfl⟩ := Int.eq_ofNat_of_zero_le h
  exact atoi_decimal (by omega)

theorem length_decimal_int (h : 0 ≤ n) (hlt : n < 2 ^ 31) : (decimal n).length ≤ 10 := by
  obtain ⟨m, rfl⟩ := Int.eq_ofNat_of_zero_le h
  exact (length_decimal_le_iff (by decide)).mpr (by omega)

/-- A packet-size code in range survives the way through the packet size. -/
theorem faclen_paclen (h : 4 ≤ n ∧ n ≤ 12) :
    0 ≤ paclen n ∧ paclen n < 2 ^ 31 ∧ faclen (paclen n) = some n := by
  obtain ⟨m, rfl⟩ := Int.eq_ofNat_of_zero_le (show 0 ≤ n by omega)
  have hpow : (2 : ℤ) ^ m < 2 ^ 31 := pow_lt_pow_right₀ (by decide) (by omega)
  refine ⟨?_, ?_, faclen_two_pow (by omega)⟩
  · rw [paclen_natCast]
    exact pow_nonneg (by decide) m
  · rw [paclen_natCast]
    exact hpow

end Number

section RoundTrip

variable {c : Settings}

/-- The settings after the file that `c` was written to is read, `c₀` being those before. -/
def Settings.readBack (c c₀ : Settings) : Settings :=
  { c with
    x29Profile := x29ProfileDefault ++ c₀.x29Profile.drop x29ProfileDefault.length
    x29ProfileLen := 5 }

/-- The names that `writecfg` writes. -/
def lits : List (List Char) :=
  [litadr, litlvl, litlog, litwch, litwin, litpin, litifo, litx29, litbuf]

theorem lits_spec : ∀ lit ∈ lits, IsValue lit ∧ lit.head? ≠ some '#' ∧ lit.length ≤ 20 := by
  decide

/-- A number that is written comes back from `atoi`. -/
theorem entryReads_number {lit : List Char} (hlit : lit ∈ lits) {n : ℤ} (hn : 0 ≤ n ∧ n < 2 ^ 31)
    {l : CfgLine}
    (hl : ∀ buf, nameValue buf = some (lit, decimal n) → atoi (decimal n) = n →
      cfgLine buf = .ok l) (hq : l ≠ .quit) : EntryReads lit (decimal n) l := by
  have hlen := length_decimal_int hn.1 hn.2
  obtain ⟨hv, hh, hlit⟩ := lits_spec lit hlit
  exact entryReads hv hh (isValue_decimal hn.1) (by omega)
    (fun buf hb => hl buf hb (atoi_decimal_int hn.1 hn.2)) hq

theorem isValue_of_isAddress {val : List Char} (h : IsAddress val) : IsValue val := by
  refine ⟨h.ne_nil, fun x hx hb => ?_, fun x hx => ?_⟩
  · have hblank : ∀ y ∈ " \t\n".toList, y.isDigit = false :=
      List.all_iff_forall_prop.mp (by decide)
    have hd := h.digits x hx
    rw [hblank x hb] at hd
    cases hd
  · rintro rfl
    have hd := h.digits _ hx
    cases hd

/-- **Reading the file back**: eight settings are those that were written, and the profile is the
constant of `writecfg`. -/
theorem readcfg_writecfg (h : c.InRange) (c₀ : Settings) :
    readcfg (.readable (writecfg c)) c₀ = .ok (true, c.readBack c₀) := by
  have hadr : EntryReads litadr c.chaddr (.chaddr c.chaddr) := by
    obtain ⟨hv, hh, hlit⟩ := lits_spec litadr (by decide)
    have hlen := h.chaddr.length
    exact entryReads hv hh (isValue_of_isAddress h.chaddr) (by omega)
      (fun buf hb => cfgLine_litadr hb h.chaddr) (by simp)
  have hlvl : EntryReads litlvl (decimal c.logLevel) (.logLevel c.logLevel) := by
    have hr := h.logLevel
    refine entryReads_number (by decide) (by omega) (fun buf hb ha => ?_) (by simp)
    rw [(cfgLine_of_nameValue hb).2.1 rfl, ha, clamp_of_bounds hr]
  have hlog : EntryReads litlog c.nameLogFile (.nameLogFile c.nameLogFile) := by
    obtain ⟨hv, hh, -⟩ := lits_spec litlog (by decide)
    have hlen := h.nameLogFile.2
    have hlit : litlog.length = 8 := by decide
    exact entryReads hv hh h.nameLogFile.1 (by omega)
      (fun buf hb => (cfgLine_of_nameValue hb).2.2.1 rfl) (by simp)
  have hwch : EntryReads litwch (decimal c.watchdogTimeout)
      (.watchdogTimeout c.watchdogTimeout) := by
    have hr := h.watchdogTimeout
    refine entryReads_number (by decide) (by omega) (fun buf hb ha => ?_) (by simp)
    rw [(cfgLine_of_nameValue hb).2.2.2.1 rfl, ha, clamp_of_bounds hr]
  have hwin : EntryReads litwin (decimal c.winsizeIn) (.winsizeIn c.winsizeIn) := by
    have hr := h.winsizeIn
    refine entryReads_number (by decide) (by omega) (fun buf hb ha => ?_) (by simp)
    rw [(cfgLine_of_nameValue hb).2.2.2.2.1 rfl, ha, clamp_of_bounds hr]
  have hpin : EntryReads litpin (decimal (paclen c.pacsizeIn)) (.pacsizeIn c.pacsizeIn) := by
    obtain ⟨h0, h31, hf⟩ := faclen_paclen h.pacsizeIn
    refine entryReads_number (by decide) ⟨h0, h31⟩ (fun buf hb ha => ?_) (by simp)
    rw [cfgLine_litpin hb (ha.symm ▸ hf), clamp_of_bounds h.pacsizeIn]
  have hifo : EntryReads litifo (decimal c.forwardtimer) (.forwardtimer c.forwardtimer) := by
    have hr := h.forwardtimer
    refine entryReads_number (by decide) (by omega) (fun buf hb ha => ?_) (by simp)
    rw [(cfgLine_of_nameValue hb).2.2.2.2.2 rfl, ha, clamp_of_bounds hr]
  have hx29 : EntryReads litx29 writtenProfile (.x29Profile x29ProfileDefault) := by
    obtain ⟨hv, hh, -⟩ := lits_spec litx29 (by decide)
    have hval : IsValue writtenProfile := by decide
    refine entryReads hv hh hval (by decide) (fun buf hb => ?_) (by simp)
    rw [(cfgLine_of_nameValue hb).1 rfl]
    decide
  have hbuf : EntryReads litbuf (decimal c.bufferSize) (.bufferSize c.bufferSize) := by
    have hr := h.bufferSize
    refine entryReads_number (by decide) hr (fun buf hb ha => ?_) (by simp)
    rw [cfgLine_litbuf hb (by omega), ha]
  -- the last entry ends the file, and the two lines at its head are comments
  have hlast := hbuf []
  rw [List.append_nil] at hlast
  have hc₁ := readcfgLines_comment "#This is config file for pad_svr program.\n".toList (by decide)
    (List.all_iff_forall_prop.mp (by decide)) (by decide) (by decide)
  have hc₂ := readcfgLines_comment "#\n".toList (by decide)
    (List.all_iff_forall_prop.mp (by decide)) (by decide) (by decide)
  have hlines : readcfgLines (fgetsLines 200 (writecfg c)) c₀ = .ok (c.readBack c₀) := by
    -- in the order in which they are written
    refine (hc₁ _ _).trans ((hc₂ _ _).trans ?_)
    refine (hadr _ _).trans ((hlvl _ _).trans ((hlog _ _).trans ?_))
    refine (hwch _ _).trans ((hwin _ _).trans ((hpin _ _).trans ?_))
    refine (hifo _ _).trans ((hx29 _ _).trans ((hlast _).trans ?_))
    have hnil : fgetsLines 200 [] = [] := rfl
    rw [hnil, readcfgLines]
    simp only [CfgLine.apply, Settings.readBack, Except.ok.injEq, Settings.mk.injEq, true_and,
      and_true]
    rfl
  rw [readcfg, hlines]
  rfl

variable {p : Option (List X29Par)}

theorem Settings.readBack_holds (h : c.HoldsProfile p) :
    (c.readBack c).HoldsProfile (some x29ProfileDefault) := by
  have hle : x29ProfileDefault.length ≤ maxX29Profile := by decide
  exact (h.apply hle).congr rfl rfl

/-- Only the six pairs of the default table, read from a file, make the message they spell. -/
theorem x29SetMessage_eq_default_iff (h : c.HoldsProfile p) (behind : List X29Par) :
    x29SetMessage behind c = .ok (some (0x01 :: x29Set :: parBytes x29ProfileDefault)) ↔
      p = some x29ProfileDefault := by
  constructor
  · intro hm
    rcases p with _ | ⟨_ | ⟨q, _ | ⟨q', pars⟩⟩⟩
    · have := length_of_x29SetMessage_default (h.unread rfl) hm
      simp [x29ProfileDefault] at this
    · rw [x29SetMessage_nil h] at hm
      cases hm
    · have := length_of_x29SetMessage_default (h.read [q] rfl).2.1 hm
      simp [x29ProfileDefault] at this
    · rw [x29SetMessage_read h (by simp)] at hm
      split at hm
      · simp only [Except.ok.injEq, Option.some.injEq, List.cons.injEq, true_and] at hm
        rw [parBytes_inj hm]
      · cases hm
  · rintro rfl
    rw [x29SetMessage_read h (by decide), if_pos (by decide)]

/-- **When writing the settings and reading them back leaves all nine**: always the first eight,
and the profile that is sent if it is the one `writecfg` has as a constant. -/
theorem writecfg_readcfg_iff (h : Configured c p) :
    ∃ c', readcfg (.readable (writecfg c)) c = .ok (true, c') ∧
      (c'.chaddr = c.chaddr ∧ c'.logLevel = c.logLevel ∧ c'.nameLogFile = c.nameLogFile ∧
        c'.watchdogTimeout = c.watchdogTimeout ∧ c'.winsizeIn = c.winsizeIn ∧
        c'.pacsizeIn = c.pacsizeIn ∧ c'.forwardtimer = c.forwardtimer ∧
        c'.bufferSize = c.bufferSize) ∧
      ∀ behind, x29SetMessage behind c' = x29SetMessage behind c ↔
        p = some x29ProfileDefault := by
  refine ⟨c.readBack c, readcfg_writecfg h.inRange c, ⟨rfl, rfl, rfl, rfl, rfl, rfl, rfl, rfl⟩,
    fun behind => ?_⟩
  have hback := (x29SetMessage_eq_default_iff (Settings.readBack_holds h.holds) behind).mpr rfl
  rw [hback, eq_comm]
  exact x29SetMessage_eq_default_iff h.holds behind

theorem writecfg_readcfg_defaults :
    ∃ c', readcfg (.readable (writecfg .defaults)) .defaults = .ok (true, c') ∧
      c'.nameLogFile = "/var/log/pad_svr.log".toList ∧
      x29SetMessage [] c' ≠ x29SetMessage [] .defaults := by
  obtain ⟨c', hr, heq, hset⟩ := writecfg_readcfg_iff .defaults
  exact ⟨c', hr, heq.2.2.1, fun hm => by cases (hset []).mp hm⟩

/-- A profile of two pairs is replaced by the constant. -/
theorem writecfg_readcfg_two_pairs :
    ∃ c c', readcfg (.readable "x29_profile 2:1,3:2".toList) .defaults = .ok (true, c) ∧
      readcfg (.readable (writecfg c)) c = .ok (true, c') ∧
      x29SetMessage [] c = .ok (some [1, 2, 2, 1, 3, 2]) ∧
      x29SetMessage [] c' = .ok (some [1, 2, 1, 0, 2, 0, 3, 0, 4, 1, 13, 4, 15, 0]) := by
  have hr : readcfg (.readable "x29_profile 2:1,3:2".toList) .defaults =
      .ok (true, CfgLine.apply (.x29Profile [⟨2, 1⟩, ⟨3, 2⟩]) .defaults) := by decide
  have hc := Configured.defaults.readcfg hr
  exact ⟨_, _, hr, readcfg_writecfg hc.inRange _, by decide,
    (x29SetMessage_eq_default_iff (Settings.readBack_holds hc.holds) []).mpr rfl⟩

end RoundTrip

end PadSvr
