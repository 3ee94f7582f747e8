import PadSvr.X29.Profile

/-!
# Null pointers in the configuration reader

`readcfg` closes the file it could not open, and the loop over the pairs of a profile measures its
first pair before it tests that there is one. There is no other way to a null pointer.

## Main results

* `cfgLine_eq_nullPointer_iff`: which lines pass a null pointer to `strlen`
* `readcfg_ne_nullPointer_iff`: when a configuration is read without one
-/

namespace PadSvr

open CString

section Line

variable {buf lit val : List Char}

theorem cfgX29_eq_nullPointer_iff : cfgX29 val = .error .nullPointer ↔ ∀ x ∈ val, x = ',' := by
  rw [show (∀ x ∈ val, x = ',') ↔ ∀ x ∈ val, x ∈ [','] by simp, ← strtoks_eq_nil_iff, cfgX29]
  rcases strtoks [','] val with _ | ⟨tok, toks⟩
  · simp
  · simp only [reduceCtorEq, iff_false]
    split <;> simp

/-- **A null pointer comes from a profile of commas**, and from no other line. -/
theorem cfgLine_eq_nullPointer_iff :
    cfgLine buf = .error .nullPointer ↔
      ∃ val, nameValue buf = some (litx29, val) ∧ ∀ x ∈ val, x = ',' := by
  constructor
  · intro h
    rcases hnv : nameValue buf with _ | ⟨lit, val⟩
    · rw [cfgLine_of_nameValue_none hnv] at h
      cases h
    · by_cases hlit : lit = litx29
      · subst hlit
        rw [cfgLine_of_x29 hnv, cfgX29_eq_nullPointer_iff] at h
        exact ⟨val, rfl, h⟩
      · -- every other name assigns, is passed over, or loops
        let P (r : Except Fault CfgLine) : Prop := r ≠ .error .nullPointer
        have hne : P (cfgLine buf) :=
          cfgLine_induction hnv
            (fun _ => iteInduction (fun _ => iteInduction (fun _ => nofun) fun _ => nofun)
              fun _ => nofun)
            (fun hx29 => absurd hx29 hlit) nofun (fun _ => nofun) nofun nofun (fun _ _ => nofun)
            nofun nofun nofun nofun
        exact absurd h hne
  · rintro ⟨val, hnv, hval⟩
    rw [cfgLine_of_x29 hnv]
    exact cfgX29_eq_nullPointer_iff.mpr hval

end Line

/-- **When a configuration is read without a null pointer**: the file is there, or cannot be
created, and no profile that is looked at is made of commas alone. -/
theorem readcfg_ne_nullPointer_iff (file : CfgFile) (c : Settings) :
    readcfg file c ≠ .error .nullPointer ↔
      file ≠ .missing true ∧ ∀ buf ∈ file.linesRead, ∀ val,
        nameValue (cstr buf) = some (litx29, val) → ∃ x ∈ val, x ≠ ',' := by
  match file with
  | .missing true => simp [readcfg]
  | .missing false => simp [readcfg, CfgFile.linesRead, CfgFile.lines, linesUntil]
  | .readable text =>
    have hread : readcfg (.readable text) c = .error .nullPointer ↔
        readcfgLines (fgetsLines 200 text) c = .error .nullPointer := by
      rw [readcfg]
      rcases readcfgLines (fgetsLines 200 text) c with f | c' <;> simp [Except.map]
    rw [Ne, hread, readcfgLines_eq_error_iff]
    simp only [cfgLine_eq_nullPointer_iff, CfgFile.linesRead, CfgFile.lines]
    push Not
    simp

/-- A profile of one comma, and a file that can be created. -/
theorem readcfg_nullPointer :
    ¬ ∀ (file : CfgFile) (c : Settings), readcfg file c ≠ .error .nullPointer := by
  intro h
  exact h (.readable "x29_profile ,\n".toList) .defaults (by decide)

end PadSvr
