import PadSvr.Config.Setting
import PadSvr.CString.Lines

/-!
# Long configuration lines

A line of the file should be one request. `readcfg` gets it through a buffer of 200 characters, so
what stands behind the 199th character of a line comes back as a line of its own, with a comment
sign no more and perhaps with a name in front.

## Main definitions

* `firstField l`: the name on a line, whatever its length
* `CameTo text c l c₁`: `readcfg` comes to the line `l` of `text` with the settings `c₁`
* `LinesAreUnits text c`: every line that is come to is one request
* `Inert buf`: text that asks for nothing

## Main results

* `cfgLine_eq_ignore_iff`: which texts ask for nothing
* `lineStep_firstField`: the first piece of a line changes the setting the line names
* `linesAreUnits_iff`: when the lines of a file are its units
-/

namespace PadSvr

open CString

/-- The name on a line. -/
def firstField (l : List Char) : Option (List Char) :=
  (strtok " \t\n".toList (cstr l)).map Prod.fst

/-- `readcfg` comes to the line `l`: no line in front of it ends the reading. The settings are then
`c₁`. -/
def CameTo (text : List Char) (c : Settings) (l : List Char) (c₁ : Settings) : Prop :=
  ∃ before behind, textLines text = before ++ l :: behind ∧
    (∀ buf ∈ before.flatMap (fgetsLines 200), stopsReading (cstr buf) = false) ∧
    (before.flatMap (fgetsLines 200)).foldl lineStep c = c₁

/-- The pieces of a line behind the first one that `readcfg` looks at. -/
def tailsRead (l : List Char) : List (List Char) := (linesUntil (fgetsLines 200 l)).tail

/-- Every line that `readcfg` comes to is one request: a comment changes nothing, another line
changes the setting in its first field at most, and no tail of a line is a request. -/
structure LinesAreUnits (text : List Char) (c : Settings) : Prop where
  comment : ∀ l c₁ c₂, CameTo text c l c₁ → readcfgLines (fgetsLines 200 l) c₁ = .ok c₂ →
    l.head? = some '#' → c₂ = c₁
  other : ∀ l c₁ c₂, CameTo text c l c₁ → readcfgLines (fgetsLines 200 l) c₁ = .ok c₂ →
    ∀ k : Setting, firstField l ≠ some k.lit → c₂.get k = c₁.get k
  tails : ∀ l c₁, CameTo text c l c₁ → ∀ buf ∈ tailsRead l, cfgLine (cstr buf) = .ok .ignore

/-- Text that asks for nothing: it has no name of a setting with a value behind it, or the value is
an address of the right length with another character than digits. -/
def Inert (buf : List Char) : Prop :=
  ∀ (k : Setting) (val : List Char), nameValue buf = some (k.lit, val) →
    k = .chaddr ∧ val.length ≤ 15 ∧ ∃ x ∈ val, x.isDigit = false

section Pieces

variable {buf l text : List Char} {lines : List (List Char)} {c c₁ c₂ : Settings} {k : Setting}

/-- **Which texts ask for nothing.** -/
theorem cfgLine_eq_ignore_iff : cfgLine buf = .ok .ignore ↔ Inert buf := by
  constructor
  · intro h k val hnv
    rw [cfgLine_of_setting hnv] at h
    -- an address with a non-digit is the only value that asks for nothing
    have ha := assigned_ask h
    cases k with
    | chaddr =>
      rw [Setting.ask] at h
      split at h
      · next hlen =>
        split at h
        · cases h
        · next hdig => exact ⟨rfl, hlen, by simpa using hdig⟩
      · cases h
    | x29Profile => cases ha
    | pacsizeIn =>
      rw [Setting.ask] at h
      split at h <;> cases h
    | _ => cases h
  · intro h
    rcases line_cases buf with ⟨k, val, hnv⟩ | ⟨hl, -, -⟩
    · obtain ⟨rfl, hlen, x, hx, hdig⟩ := h k val hnv
      have hall : val.all Char.isDigit ≠ true := by
        intro hall
        rw [List.all_eq_true.mp hall x hx] at hdig
        cases hdig
      rw [cfgLine_of_setting hnv, Setting.ask, if_pos hlen, if_neg hall]
    · exact hl

/-- Texts that ask for nothing leave the settings. -/
theorem foldl_lineStep_of_ignore (h : ∀ buf ∈ lines, cfgLine (cstr buf) = .ok .ignore)
    (c : Settings) : lines.foldl lineStep c = c := by
  induction lines with
  | nil => rfl
  | cons buf lines ih =>
    rw [List.forall_mem_cons] at h
    have hstep : lineStep c buf = c := by
      rw [lineStep, h.1]
      rfl
    rw [List.foldl_cons, hstep]
    exact ih h.2

/-- The first piece of a line, and whether the others are looked at. -/
theorem linesUntil_pieces (h : IsLine l) :
    linesUntil (fgetsLines 200 l) = l.take 199 :: tailsRead l := by
  rw [tailsRead, h.fgetsLines (by decide), linesUntil]
  rfl

/-- The string in front of a piece is where the string of the line begins. -/
theorem cstr_take (l : List Char) (n : ℕ) : cstr (l.take n) = (cstr l).take n :=
  List.take_takeWhile.symm

/-- The name and the value on the first piece stand on the line. -/
theorem nameValue_take {lit val : List Char} {n : ℕ}
    (h : nameValue (cstr (l.take n)) = some (lit, val)) : firstField l = some lit := by
  obtain ⟨-, rest, rest', h₁, h₂⟩ := nameValue_eq_some h
  -- the value stands behind the name on the same piece, so the name is not cut
  have hrest : rest ≠ [] := by
    rintro rfl
    cases h₂
  rw [cstr_take] at h₁
  rw [firstField, ← List.take_append_drop n (cstr l), strtok_append h₁ hrest]
  rfl

/-- **The first piece of a line changes the setting the line names**, and no other. -/
theorem lineStep_firstField {n : ℕ} (h : firstField l ≠ some k.lit) :
    (lineStep c (l.take n)).get k = c.get k := by
  refine updates_lineStep.other c (l.take n) k fun v hv => ?_
  obtain ⟨val, hnv⟩ := nameValue_of_assigned hv
  exact h (nameValue_take hnv)

theorem lineStep_comment {n : ℕ} (h : l.head? = some '#') : lineStep c (l.take (n + 1)) = c := by
  obtain ⟨s, rfl⟩ : ∃ s, l = '#' :: s := by
    cases l with
    | nil => cases h
    | cons x s => exact ⟨s, by rw [Option.some.inj h]⟩
  rw [lineStep, cfgLine_of_nameValue_none]
  · rfl
  -- the `#` is on the first piece
  · rw [List.take_succ_cons, nameValue, if_pos]
    exact Or.inl rfl

theorem isLine_of_cameTo (h : CameTo text c l c₁) : IsLine l := by
  obtain ⟨before, behind, hsplit, -⟩ := h
  have hmem : l ∈ textLines text := by simp [hsplit]
  exact isLine_of_mem_textLines l hmem

end Pieces

/-- **When the lines of a file are its units**: what stands behind each 199 characters of a line
asks for nothing. -/
theorem linesAreUnits_iff (text : List Char) (c : Settings) :
    LinesAreUnits text c ↔ ∀ before l behind, textLines text = before ++ l :: behind →
      (∀ buf ∈ before.flatMap (fgetsLines 200), stopsReading (cstr buf) = false) →
        ∀ buf ∈ tailsRead l, Inert (cstr buf) := by
  constructor
  · intro h before l behind hsplit hreach buf hbuf
    rw [← cfgLine_eq_ignore_iff]
    exact h.tails l _ ⟨before, behind, hsplit, hreach, rfl⟩ buf hbuf
  · intro h
    have htails : ∀ l c₁, CameTo text c l c₁ → ∀ buf ∈ tailsRead l,
        cfgLine (cstr buf) = .ok .ignore := by
      rintro l c₁ ⟨before, behind, hsplit, hreach, -⟩ buf hbuf
      exact cfgLine_eq_ignore_iff.mpr (h before l behind hsplit hreach buf hbuf)
    -- a line comes down to its first piece
    have hfirst : ∀ l c₁ c₂, CameTo text c l c₁ →
        readcfgLines (fgetsLines 200 l) c₁ = .ok c₂ → c₂ = lineStep c₁ (l.take 199) := by
      intro l c₁ c₂ hl hr
      have hfold := (readcfgLines_eq_ok_iff.mp hr).2
      rw [linesUntil_pieces (isLine_of_cameTo hl), List.foldl_cons,
        foldl_lineStep_of_ignore (htails l c₁ hl)] at hfold
      exact hfold.symm
    constructor
    · intro l c₁ c₂ hl hr hhead
      rw [hfirst l c₁ c₂ hl hr]
      exact lineStep_comment hhead
    · intro l c₁ c₂ hl hr k hk
      rw [hfirst l c₁ c₂ hl hr]
      exact lineStep_firstField hk
    · exact htails

/-- A comment of 199 characters with a name and a value behind it. -/
theorem linesAreUnits_longComment :
    ¬ ∀ (text : List Char) (c : Settings), LinesAreUnits text c := by
  intro h
  have hunits := h ('#' :: List.replicate 198 'x' ++ "log_level 5\n".toList) .defaults
  have hlines : textLines ('#' :: List.replicate 198 'x' ++ "log_level 5\n".toList) =
      ['#' :: List.replicate 198 'x' ++ "log_level 5\n".toList] := by
    decide +kernel
  have hread : readcfgLines (fgetsLines 200
      ('#' :: List.replicate 198 'x' ++ "log_level 5\n".toList)) .defaults =
      .ok { Settings.defaults with logLevel := 5 } := by
    decide +kernel
  have hsame := hunits.comment _ _ _ ⟨[], [], hlines, by simp, rfl⟩ hread rfl
  revert hsame
  decide

end PadSvr
