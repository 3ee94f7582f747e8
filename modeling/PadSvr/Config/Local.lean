import PadSvr.Config.Setting
import PadSvr.CString.Lines

/-!
# Errors in configuration lines

A bad line should concern no other line: every setting should have the value of the last well-formed
line that names it. An address that is too long ends the reading instead, three kinds of values end
the program or run over an array, and a profile without a valid pair empties the profile.

## Main definitions

* `LastLineWins text c`: the settings after `text` are those of its well-formed lines
* `FaultyLine buf`: a line `readcfg` does not get over
* `linesBehind lines`: the lines that are not looked at
* `ErrorsLocal text c`: no bad line of `text` has an effect of its own

## Main results

* `stopsReading_iff`: the lines that end the reading
* `readcfgLines_textLines`: lines that fit the buffer are read whole
* `lastLineWins_iff`: when the last well-formed line decides
-/

namespace PadSvr

open CString

/-- A line `readcfg` does not get over. -/
def FaultyLine (buf : List Char) : Prop :=
  ∃ (k : Setting) (val : List Char), nameValue buf = some (k.lit, val) ∧ k.Faulty val

/-- The lines behind the one that stops the reading. -/
def linesBehind : List (List Char) → List (List Char)
  | [] => []
  | buf :: lines => if stopsReading (cstr buf) then lines else linesBehind lines

/-- The value that the well-formed lines give a setting last. -/
def lastGiven (k : Setting) (lines : List (List Char)) : Option Value :=
  Keyed.last (fun l => wellFormed (cstr l)) k lines

/-- The value that `readcfg` assigns to a setting last. -/
def lastAssigned (k : Setting) (lines : List (List Char)) : Option Value :=
  Keyed.last (fun l => assigned (cstr l)) k lines

/-- After the file is read, every setting has the value of the last well-formed line that names it,
or the one it had before. -/
def LastLineWins (text : List Char) (c : Settings) : Prop :=
  ∃ c', readcfg (.readable text) c = .ok (true, c') ∧
    ∀ k, c'.get k = (lastGiven k (textLines text)).getD (c.get k)

/-- No bad line has an effect of its own. -/
structure ErrorsLocal (text : List Char) (c : Settings) : Prop where
  /-- every line that is looked at is one `readcfg` gets over -/
  faultless : ∀ l ∈ linesUntil (textLines text), ¬ FaultyLine (cstr l)
  /-- the lines that are not looked at give what the others give already -/
  behind : ∀ k v, lastGiven k (linesBehind (textLines text)) = some v →
    (lastGiven k (linesUntil (textLines text))).getD (c.get k) = v
  /-- where the last profile looked at is without a pair, there was none before -/
  emptied : lastPars (linesUntil (textLines text)) = some [] →
    lastGiven .x29Profile (textLines text) = none ∧ c.get .x29Profile = .profile []

section Stop

variable {buf : List Char}

theorem cfgLine_eq_error_iff : (∃ f, cfgLine buf = .error f) ↔ FaultyLine buf := by
  constructor
  · rintro ⟨f, hf⟩
    -- a line that names no setting is passed over, and has no fault
    rcases line_cases buf with ⟨k, val, hnv⟩ | ⟨hl, -, -⟩
    · rw [cfgLine_of_setting hnv] at hf
      exact ⟨k, val, hnv, ask_eq_error_iff.mp ⟨f, hf⟩⟩
    · rw [hl] at hf
      cases hf
  · rintro ⟨k, val, hnv, hfaulty⟩
    rw [cfgLine_of_setting hnv]
    exact ask_eq_error_iff.mpr hfaulty

/-- **The lines that end the reading**: a faulty one, and an address that is too long. -/
theorem stopsReading_iff :
    stopsReading buf = true ↔
      FaultyLine buf ∨ ∃ val, nameValue buf = some (litadr, val) ∧ 15 < val.length := by
  rw [← cfgLine_eq_error_iff]
  constructor
  · intro h
    unfold stopsReading at h
    rcases hl : cfgLine buf with f | l
    · exact Or.inl ⟨f, rfl⟩
    · rw [hl] at h
      obtain rfl : l = .quit := by simpa using h
      rcases line_cases buf with ⟨k, val, hnv⟩ | ⟨hi, -, -⟩
      · rw [cfgLine_of_setting hnv] at hl
        have ha := assigned_ask hl
        -- of all settings only an address can ask to stop
        cases k with
        | chaddr =>
          refine Or.inr ⟨val, hnv, ?_⟩
          by_contra hlen
          rw [Setting.ask, if_pos (by omega)] at hl
          split at hl <;> cases hl
        | x29Profile => cases ha
        | pacsizeIn =>
          rw [Setting.ask] at hl
          split at hl <;> cases hl
        | _ => cases hl
      · rw [hi] at hl
        cases hl
  · rintro (⟨f, hf⟩ | ⟨val, hnv, hlen⟩)
    · rw [stopsReading, hf]
    · have hnv' : nameValue buf = some (Setting.chaddr.lit, val) := hnv
      rw [stopsReading, cfgLine_of_setting hnv', Setting.ask, if_neg (by omega)]
      rfl

instance (buf : List Char) : Decidable (FaultyLine buf) :=
  match h : cfgLine buf with
  | .error f => isTrue (cfgLine_eq_error_iff.mp ⟨f, h⟩)
  | .ok _ => isFalse fun hf => by
    obtain ⟨f, hf⟩ := cfgLine_eq_error_iff.mpr hf
    rw [h] at hf
    cases hf

end Stop

section Newline

variable {w buf buf' : List Char}

theorem cfgLine_congr (h : nameValue buf = nameValue buf') : cfgLine buf = cfgLine buf' := by
  rcases hnv : nameValue buf with _ | ⟨lit, val⟩
  · rw [cfgLine_of_nameValue_none hnv, cfgLine_of_nameValue_none (h ▸ hnv)]
  · rw [cfgLine_eq hnv, cfgLine_eq (h ▸ hnv)]

/-- The newline at the end of a line is no part of its name or its value. -/
theorem nameValue_newline (hw : w.head? ≠ some '\n') : nameValue (w ++ ['\n']) = nameValue w := by
  rcases w with _ | ⟨c, w⟩
  · rfl
  · have hnewline : '\n' ∈ " \t\n".toList := by decide
    have hhead : ((c :: w) ++ ['\n']).head? = (c :: w).head? := rfl
    unfold nameValue
    rw [hhead]
    split
    · rfl
    -- a newline is a delimiter of both scans: it only ends the last token
    · rcases strtok_concat hnewline (c :: w) with
        ⟨h, h'⟩ | ⟨t, rest, rest', h, h', rfl | rfl⟩
      · rw [h, h']
      · rw [h, h']
      · rw [h, h']
        have ht := strtok_concat_token hnewline rest
        have hmap : ∀ o : Option (List Char × List Char),
            (o.map fun u => (t, u.1)) = (o.map Prod.fst).map fun u => (t, u) := fun o => by
          cases o <;> rfl
        dsimp only
        rw [hmap, hmap, ht]

theorem nameValue_cstr_newline (hw : ∀ c ∈ w, c ≠ '\n') :
    nameValue (cstr (w ++ ['\n'])) = nameValue (cstr w) := by
  by_cases hnul : ∀ c ∈ w, c ≠ '\x00'
  · have hcut : cstr (w ++ ['\n']) = w ++ ['\n'] := by
      refine List.takeWhile_eq_self_iff.mpr fun c hc => ?_
      rcases List.mem_append.mp hc with hc | hc
      · simpa using hnul c hc
      · simp [List.mem_singleton.mp hc]
    have hcut' : cstr w = w := List.takeWhile_eq_self_iff.mpr (by simpa using hnul)
    rw [hcut, hcut', nameValue_newline]
    intro hhead
    exact hw '\n' (List.mem_of_mem_head? hhead) rfl
  · -- the string ends in front of the newline
    have hcut : cstr (w ++ ['\n']) = cstr w := by
      rw [cstr, List.takeWhile_append, if_neg]
      · rfl
      · intro hlen
        refine hnul fun c hc => ?_
        rw [← (List.takeWhile_prefix _).eq_of_length hlen] at hc
        simpa using List.mem_takeWhile_imp hc
    rw [hcut]

end Newline

section Lines

variable {lines : List (List Char)} {text l : List Char} {c : Settings} {k : Setting}

theorem linesUntil_append_linesBehind : linesUntil lines ++ linesBehind lines = lines := by
  induction lines with
  | nil => rfl
  | cons buf lines ih =>
    rw [linesUntil, linesBehind]
    split
    · rfl
    · rw [List.cons_append, ih]

/-- **Lines that fit the buffer are read whole**, their newline perhaps as a line of its own. -/
theorem readcfgLines_textLines (h : ∀ l ∈ textLines text, (content l).length < 200)
    (c : Settings) : readcfgLines (fgetsLines 200 text) c = readcfgLines (textLines text) c := by
  induction text using text_induction generalizing c with
  | nil => rfl
  | last w hne hw =>
    rw [textLines_last hne hw] at h ⊢
    have hlen : w.length < 200 := by
      rw [← content_last hw]
      exact h w (by simp)
    rw [fgetsLines_short hne hw hlen]
  | line w s hw ih =>
    rw [textLines_line hw, List.forall_mem_cons, content_ended hw] at h
    rw [textLines_line hw]
    -- a line of 199 characters fills the buffer, and its newline is read by the next call
    by_cases hfull : w.length + 1 = 200
    · have hne : w ≠ [] := by
        rintro rfl
        simp at hfull
      have hcfg : cfgLine (cstr (w ++ ['\n'])) = cfgLine (cstr w) :=
        cfgLine_congr (nameValue_cstr_newline hw)
      -- that newline is a line that asks for nothing
      have hnl : ∀ c, readcfgLines (['\n'] :: fgetsLines 200 s) c =
          readcfgLines (fgetsLines 200 s) c := fun c => rfl
      rw [fgetsLines_full hw hne hfull, readcfgLines, readcfgLines, hcfg]
      simp only [hnl, ih h.2]
    · rw [fgetsLines_line hw (by omega), readcfgLines, readcfgLines]
      simp only [ih h.2]

theorem lastPars_concat : lastPars (lines ++ [l]) = (linePars (cstr l)).or (lastPars lines) := by
  unfold lastPars
  rcases hp : linePars (cstr l) with _ | pars <;> simp [hp]

/-- What the lines assign last is what the well-formed ones give last, unless a profile is
emptied. -/
theorem last_assigned (hf : ∀ l ∈ lines, ¬ FaultyLine (cstr l))
    (hp : k = .x29Profile → lastPars lines ≠ some []) :
    lastAssigned k lines = lastGiven k lines := by
  unfold lastAssigned lastGiven at *
  induction lines using List.reverseRecOn with
  | nil => rfl
  | append_singleton lines l ih =>
    have ih := ih fun x hx => hf x (by simp [hx])
    have hl : ¬ FaultyLine (cstr l) := hf l (by simp)
    rw [← cfgLine_eq_error_iff] at hl
    rw [lastPars_concat] at hp
    rw [Keyed.last_concat, Keyed.last_concat]
    -- the lines from the last one back: it decides, or the ones in front of it do
    rcases hline : cfgLine (cstr l) with f | r
    · exact absurd ⟨f, hline⟩ hl
    · by_cases hnil : linePars (cstr l) = some []
      · -- the line empties the profile: another setting is meant
        have hk : k ≠ .x29Profile := fun hk => hp hk (by rw [hnil]; rfl)
        obtain ⟨ha, hw⟩ := assigned_of_linePars_nil hline hnil
        have h₁ : Keyed.under (fun l => assigned (cstr l)) k l = none := by
          rw [Keyed.under_eq_none, ha]
          rintro v hv
          cases hv
          exact hk rfl
        have h₂ : Keyed.under (fun l => wellFormed (cstr l)) k l = none := by
          rw [Keyed.under_eq_none, hw]
          nofun
        rw [h₁, h₂, Option.none_or, Option.none_or]
        exact ih fun h => absurd h hk
      · have hsame : Keyed.under (fun l => assigned (cstr l)) k l =
            Keyed.under (fun l => wellFormed (cstr l)) k l := by
          simp only [Keyed.under, assigned_eq_wellFormed hline hnil]
        rw [hsame]
        rcases hu : Keyed.under (fun l => wellFormed (cstr l)) k l with _ | v
        · rw [Option.none_or, Option.none_or]
          -- the last line is about another setting, so it is no profile line either
          refine ih fun hk => ?_
          have hpars : linePars (cstr l) = none := by
            rcases hp' : linePars (cstr l) with _ | pars
            · rfl
            · have hw := wellFormed_of_linePars hp' fun he => hnil (by rw [hp', he])
              exact absurd (hk ▸ hw) (Keyed.under_eq_none.mp hu _)
          have hlast := hp hk
          rwa [hpars, Option.none_or] at hlast
        · rfl

/-- The last profile line, without a pair, is what was assigned last. -/
theorem last_assigned_of_nil (hf : ∀ l ∈ lines, ¬ FaultyLine (cstr l))
    (hp : lastPars lines = some []) :
    lastAssigned .x29Profile lines = some (.profile []) := by
  unfold lastAssigned
  induction lines using List.reverseRecOn with
  | nil => cases hp
  | append_singleton lines l ih =>
    have hl : ¬ FaultyLine (cstr l) := hf l (by simp)
    rw [← cfgLine_eq_error_iff] at hl
    rw [lastPars_concat] at hp
    rw [Keyed.last_concat]
    rcases hline : cfgLine (cstr l) with f | r
    · exact absurd ⟨f, hline⟩ hl
    · rcases hpars : linePars (cstr l) with _ | pars
      · rw [hpars, Option.none_or] at hp
        have hu : Keyed.under (fun l => assigned (cstr l)) .x29Profile l = none := by
          rw [Keyed.under_eq_none]
          intro v hv
          obtain ⟨val, hnv⟩ := nameValue_of_assigned hv
          rw [linePars_of_setting hnv, if_pos rfl] at hpars
          cases hpars
        rw [hu, Option.none_or]
        exact ih (fun x hx => hf x (by simp [hx])) hp
      -- the last line is the profile line without a pair
      · obtain rfl : pars = [] := by simpa [hpars] using hp
        have hu : Keyed.under (fun l => assigned (cstr l)) .x29Profile l = some (.profile []) :=
          Keyed.under_eq_some.mpr (assigned_of_linePars_nil hline hpars).1
        rw [hu]
        rfl

end Lines

section Law

variable {text : List Char} {c : Settings}

/-- The law in terms of what is assigned last. -/
theorem lastLineWins_iff_last (h : ∀ l ∈ textLines text, (content l).length < 200) :
    LastLineWins text c ↔
      (∀ l ∈ linesUntil (textLines text), ¬ FaultyLine (cstr l)) ∧ ∀ k,
        (lastAssigned k (linesUntil (textLines text))).getD (c.get k) =
          (lastGiven k (textLines text)).getD (c.get k) := by
  have hok : ∀ c', readcfg (.readable text) c = .ok (true, c') ↔
      readcfgLines (textLines text) c = .ok c' := by
    intro c'
    rw [readcfg, readcfgLines_textLines h]
    rcases readcfgLines (textLines text) c with f | c₁ <;> simp [Except.map]
  have hfault : (∀ l ∈ linesUntil (textLines text), ∀ f, cfgLine (cstr l) ≠ .error f) ↔
      ∀ l ∈ linesUntil (textLines text), ¬ FaultyLine (cstr l) := by
    simp only [← cfgLine_eq_error_iff, not_exists, Ne]
  constructor
  · rintro ⟨c', hr, hget⟩
    rw [hok] at hr
    refine ⟨hfault.mp (readcfgLines_eq_ok_iff.mp hr).1, fun k => ?_⟩
    rw [lastAssigned, ← get_readcfgLines hr, hget k]
  · rintro ⟨hf, hlast⟩
    have hr : readcfgLines (textLines text) c =
        .ok ((linesUntil (textLines text)).foldl lineStep c) :=
      readcfgLines_eq_ok_iff.mpr ⟨hfault.mpr hf, rfl⟩
    refine ⟨_, (hok _).mpr hr, fun k => ?_⟩
    rw [get_readcfgLines hr, ← hlast k, lastAssigned]

/-- No well-formed line gives an empty profile. -/
theorem wellFormed_ne_nil (buf : List Char) :
    wellFormed buf ≠ some (.x29Profile, .profile []) := by
  intro h
  rcases line_cases buf with ⟨k, val, hnv⟩ | ⟨-, hw, -⟩
  · rw [wellFormed_of_setting hnv] at h
    obtain ⟨v, hv, he⟩ := Option.map_eq_some_iff.mp h
    obtain ⟨rfl, rfl⟩ : k = .x29Profile ∧ v = .profile [] := by simpa using he
    rw [Setting.value] at hv
    split at hv
    · cases hv
    · next hne => exact hne (by simpa using hv)
  · rw [hw] at h
    cases h

/-- **When the last well-formed line decides** about every setting, of a file whose lines fit the
buffer. -/
theorem lastLineWins_iff (h : ∀ l ∈ textLines text, (content l).length < 200) :
    LastLineWins text c ↔ ErrorsLocal text c := by
  rw [lastLineWins_iff_last h]
  have hsplit : ∀ k, lastGiven k (textLines text) =
      (lastGiven k (linesBehind (textLines text))).or
        (lastGiven k (linesUntil (textLines text))) := by
    intro k
    unfold lastGiven
    rw [← Keyed.last_append, linesUntil_append_linesBehind]
  constructor
  · rintro ⟨hf, hlast⟩
    have hemptied : lastPars (linesUntil (textLines text)) = some [] →
        lastGiven .x29Profile (textLines text) = none ∧ c.get .x29Profile = .profile [] := by
      intro hp
      have hk := hlast .x29Profile
      rw [last_assigned_of_nil hf hp, Option.getD_some] at hk
      rcases hw : lastGiven .x29Profile (textLines text) with _ | v
      · rw [hw] at hk
        exact ⟨rfl, hk.symm⟩
      · rw [hw] at hk
        obtain ⟨l, -, hl⟩ := Keyed.exists_of_last hw
        rw [Option.getD_some] at hk
        rw [← hk] at hl
        exact absurd hl (wellFormed_ne_nil _)
    refine ⟨hf, fun k v hv => ?_, hemptied⟩
    -- what is behind the end of the reading must repeat what was assigned in front of it ...
    by_cases hp : k = .x29Profile → lastPars (linesUntil (textLines text)) ≠ some []
    · have hk := hlast k
      rwa [last_assigned hf hp, hsplit, hv, Option.some_or, Option.getD_some] at hk
    -- ... and there is nothing to repeat for a profile that was emptied
    · push Not at hp
      obtain ⟨rfl, hp⟩ := hp
      have hnone := (hemptied hp).1
      rw [hsplit, hv] at hnone
      cases hnone
  · rintro ⟨hf, hbehind, hemptied⟩
    refine ⟨hf, fun k => ?_⟩
    by_cases hp : k = .x29Profile → lastPars (linesUntil (textLines text)) ≠ some []
    · rw [last_assigned hf hp, hsplit]
      rcases hv : lastGiven k (linesBehind (textLines text)) with _ | v
      · rfl
      · exact hbehind k v hv
    · push Not at hp
      obtain ⟨rfl, hp⟩ := hp
      obtain ⟨hnone, hc⟩ := hemptied hp
      rw [last_assigned_of_nil hf hp, hnone, hc]
      rfl

end Law

/-- An address that is no number, between two lines of one setting. -/
theorem lastLineWins_badAddress :
    LastLineWins "log_level 5\nlocal_x121_address 12a\nlog_level 6\n".toList .defaults := by
  refine (lastLineWins_iff (by decide)).mpr ⟨by decide, fun k v hv => ?_, ?_⟩
  · have hb : linesBehind (textLines
        "log_level 5\nlocal_x121_address 12a\nlog_level 6\n".toList) = [] := by
      decide
    rw [hb] at hv
    cases hv
  · decide

/-- An address that is too long ends the reading. -/
theorem lastLineWins_longAddress :
    ¬ ∀ (text : List Char) (c : Settings), (∀ l ∈ textLines text, (content l).length < 200) →
      LastLineWins text c := by
  intro h
  obtain ⟨c', hr, hget⟩ :=
    h "local_x121_address 1234567890123456\nlog_level 5\n".toList .defaults (by decide)
  have hread : readcfg (.readable
      "local_x121_address 1234567890123456\nlog_level 5\n".toList) .defaults =
      .ok (true, .defaults) := by
    decide
  rw [hread] at hr
  cases hr
  have hlevel : Settings.defaults.get .logLevel = .number 5 := by
    rw [hget .logLevel]
    decide
  cases hlevel

end PadSvr
