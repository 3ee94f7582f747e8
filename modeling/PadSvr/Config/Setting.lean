import PadSvr.X29.Profile
import PadSvr.Keyed.Updates
import PadSvr.PacketCode

/-!
# The nine settings by name

What a configuration line does, told by the name on it and by the value behind that name. The name
decides which setting is concerned, `Setting.value` what the value stands for, and `Setting.ask`
what `readcfg` makes of it.

## Main definitions

* `Setting`, `Setting.lit`, `settingOf`: the settings and their names
* `Settings.get c k`: what the settings hold under `k`
* `Setting.value k val`: what a text stands for as a value of `k`, if it is one
* `wellFormed buf`: the setting and the value on a line
* `assigned buf`: the setting and the value that `readcfg` assigns

## Main results

* `cfgLine_eq`: what `readcfg` makes of a line is decided by its name
* `ask_eq_error_iff`: the values `readcfg` does not get over
* `readcfgLines_eq_ok_iff`, `get_readcfgLines`: the settings after the lines of a file
-/

namespace PadSvr

open CString

/-- The settings that a line of the file can name. -/
inductive Setting
  | chaddr
  | x29Profile
  | logLevel
  | nameLogFile
  | watchdogTimeout
  | winsizeIn
  | pacsizeIn
  | forwardtimer
  | bufferSize
deriving DecidableEq, Repr

/-- The name of a setting in the file. -/
def Setting.lit : Setting → List Char
  | .chaddr => litadr
  | .x29Profile => litx29
  | .logLevel => litlvl
  | .nameLogFile => litlog
  | .watchdogTimeout => litwch
  | .winsizeIn => litwin
  | .pacsizeIn => litpin
  | .forwardtimer => litifo
  | .bufferSize => litbuf

/-- The setting of a name. -/
def settingOf (lit : List Char) : Option Setting :=
  [Setting.chaddr, .x29Profile, .logLevel, .nameLogFile, .watchdogTimeout, .winsizeIn, .pacsizeIn,
    .forwardtimer, .bufferSize].find? fun k => k.lit = lit

/-- The value of a setting. -/
inductive Value
  | text (val : List Char)
  | number (n : ℤ)
  | profile (pars : List X29Par)
deriving DecidableEq, Repr

/-- What the settings hold. The profile ends at index `X29_profile_len`. -/
def Settings.get (c : Settings) : Setting → Value
  | .chaddr => .text c.chaddr
  | .x29Profile => .profile (c.x29Profile.take (c.x29ProfileLen + 1).toNat)
  | .logLevel => .number c.logLevel
  | .nameLogFile => .text c.nameLogFile
  | .watchdogTimeout => .number c.watchdogTimeout
  | .winsizeIn => .number c.winsizeIn
  | .pacsizeIn => .number c.pacsizeIn
  | .forwardtimer => .number c.forwardtimer
  | .bufferSize => .number c.bufferSize

/-- The value a text stands for: a number is moved into the bounds of its setting, an address has
at most 15 characters, all of them digits, and a profile has a valid pair. -/
def Setting.value : Setting → List Char → Option Value
  | .chaddr, val => if val.length ≤ 15 ∧ val.all Char.isDigit then some (.text val) else none
  | .x29Profile, val =>
    if (strtoks [','] val).filterMap x29Pair = [] then none
    else some (.profile ((strtoks [','] val).filterMap x29Pair))
  | .logLevel, val => some (.number (clamp 0 10 (atoi val)))
  | .nameLogFile, val => some (.text val)
  | .watchdogTimeout, val => some (.number (clamp 1 600 (atoi val)))
  | .winsizeIn, val => some (.number (clamp 1 7 (atoi val)))
  | .pacsizeIn, val => (faclen (atoi val)).map fun n => .number (clamp 4 12 n)
  | .forwardtimer, val => some (.number (clamp 0 199 (atoi val)))
  | .bufferSize, val => some (.number (if atoi val < 0 then 16000 else atoi val))

/-- The setting that a line names and the value it gives, if it is well-formed. -/
def wellFormed (buf : List Char) : Option (Setting × Value) :=
  match nameValue buf with
  | none => none
  | some (lit, val) =>
    match settingOf lit with
    | none => none
    | some k => (k.value val).map (k, ·)

/-- What `readcfg` makes of a value. -/
def Setting.ask : Setting → List Char → Except Fault CfgLine
  | .chaddr, val =>
    if val.length ≤ 15 then
      if val.all Char.isDigit then .ok (.chaddr val) else .ok .ignore
    else .ok .quit
  | .x29Profile, val => cfgX29 val
  | .logLevel, val => .ok (.logLevel (clamp 0 10 (atoi val)))
  | .nameLogFile, val => .ok (.nameLogFile val)
  | .watchdogTimeout, val => .ok (.watchdogTimeout (clamp 1 600 (atoi val)))
  | .winsizeIn, val => .ok (.winsizeIn (clamp 1 7 (atoi val)))
  | .pacsizeIn, val =>
    match faclen (atoi val) with
    | none => .error .endless
    | some n => .ok (.pacsizeIn (clamp 4 12 n))
  | .forwardtimer, val => .ok (.forwardtimer (clamp 0 199 (atoi val)))
  | .bufferSize, val => .ok (.bufferSize (if atoi val < 0 then 16000 else atoi val))

/-- The setting that a line's request assigns, and the value. -/
def CfgLine.assigned : CfgLine → Option (Setting × Value)
  | .ignore => none
  | .quit => none
  | .chaddr val => some (.chaddr, .text val)
  | .x29Profile pars => some (.x29Profile, .profile pars)
  | .logLevel n => some (.logLevel, .number n)
  | .nameLogFile val => some (.nameLogFile, .text val)
  | .watchdogTimeout n => some (.watchdogTimeout, .number n)
  | .winsizeIn n => some (.winsizeIn, .number n)
  | .pacsizeIn n => some (.pacsizeIn, .number n)
  | .forwardtimer n => some (.forwardtimer, .number n)
  | .bufferSize n => some (.bufferSize, .number n)

/-- The setting that `readcfg` assigns at a line, and the value. -/
def assigned (buf : List Char) : Option (Setting × Value) :=
  match cfgLine buf with
  | .error _ => none
  | .ok l => l.assigned

/-- A value that `readcfg` does not get over: a profile of commas, a profile with more pairs than
its array holds, a negative packet size. -/
def Setting.Faulty : Setting → List Char → Prop
  | .x29Profile, val =>
    (∀ x ∈ val, x = ',') ∨ maxX29Profile < ((strtoks [','] val).filterMap x29Pair).length
  | .pacsizeIn, val => atoi val < 0
  | _, _ => False

section Names

variable {k : Setting} {lit : List Char}

@[simp] theorem settingOf_lit (k : Setting) : settingOf k.lit = some k := by
  cases k <;> decide

theorem settingOf_eq_some : settingOf lit = some k ↔ lit = k.lit := by
  constructor
  · intro h
    have hlit : k.lit = lit := by simpa using List.find?_some h
    exact hlit.symm
  · rintro rfl
    exact settingOf_lit k

theorem settingOf_eq_none : settingOf lit = none ↔ ∀ k : Setting, lit ≠ k.lit := by
  simp only [Option.eq_none_iff_forall_ne_some, Ne, settingOf_eq_some]

end Names

section Line

variable {buf lit val : List Char} {k : Setting} {v : Value} {l : CfgLine}

/-- **What `readcfg` makes of a line** is decided by its name and its value. -/
theorem cfgLine_eq (h : nameValue buf = some (lit, val)) :
    cfgLine buf =
      match settingOf lit with
      | none => .ok .ignore
      | some k => k.ask val := by
  obtain ⟨hc, rest, rest', h₁, h₂⟩ := nameValue_eq_some h
  rw [cfgLine, if_neg hc]
  simp only [h₁, h₂]
  rcases hs : settingOf lit with _ | k
  · have hne := settingOf_eq_none.mp hs
    simp only [show lit ≠ litadr from hne .chaddr, show lit ≠ litx29 from hne .x29Profile,
      show lit ≠ litlvl from hne .logLevel, show lit ≠ litlog from hne .nameLogFile,
      show lit ≠ litwch from hne .watchdogTimeout, show lit ≠ litwin from hne .winsizeIn,
      show lit ≠ litpin from hne .pacsizeIn, show lit ≠ litifo from hne .forwardtimer,
      show lit ≠ litbuf from hne .bufferSize, if_false]
  · rw [settingOf_eq_some.mp hs]
    cases k <;> rfl

theorem cfgLine_of_setting (h : nameValue buf = some (k.lit, val)) : cfgLine buf = k.ask val := by
  rw [cfgLine_eq h, settingOf_lit]

theorem wellFormed_of_setting (h : nameValue buf = some (k.lit, val)) :
    wellFormed buf = (k.value val).map (k, ·) := by
  rw [wellFormed, h]
  simp only [settingOf_lit]

/-- A line concerns a setting, or `readcfg` passes it over. -/
theorem line_cases (buf : List Char) :
    (∃ k val, nameValue buf = some (Setting.lit k, val)) ∨
      cfgLine buf = .ok .ignore ∧ wellFormed buf = none ∧ linePars buf = none := by
  rcases hnv : nameValue buf with _ | ⟨lit, val⟩
  · exact Or.inr ⟨cfgLine_of_nameValue_none hnv, by rw [wellFormed, hnv], by rw [linePars, hnv]⟩
  · rcases hs : settingOf lit with _ | k
    · have hx29 : lit ≠ litx29 := settingOf_eq_none.mp hs .x29Profile
      refine Or.inr ⟨by rw [cfgLine_eq hnv, hs], ?_, ?_⟩
      · rw [wellFormed, hnv]
        simp only [hs]
      · rw [linePars, hnv]
        exact if_neg hx29
    · exact Or.inl ⟨k, val, by rw [settingOf_eq_some.mp hs]⟩

/-- The pairs on a line with a name and a value. -/
theorem linePars_of_setting (h : nameValue buf = some (k.lit, val)) :
    linePars buf =
      if k = .x29Profile then some ((strtoks [','] val).filterMap x29Pair) else none := by
  rw [linePars, h]
  cases k <;> rfl

end Line

section Ask

variable {buf val : List Char} {k : Setting} {l : CfgLine}

/-- **The values `readcfg` does not get over.** -/
theorem ask_eq_error_iff : (∃ f, k.ask val = .error f) ↔ k.Faulty val := by
  cases k with
  | chaddr =>
    simp only [Setting.ask, Setting.Faulty, iff_false, not_exists]
    intro f
    split
    · split <;> simp
    · simp
  | x29Profile =>
    -- a profile of commas has no token at all, and too many pairs do not fit the array
    have hnil : (∀ x ∈ val, x = ',') ↔ strtoks [','] val = [] := by simp [strtoks_eq_nil_iff]
    simp only [Setting.ask, Setting.Faulty, hnil, cfgX29]
    rcases strtoks [','] val with _ | ⟨tok, toks⟩
    · simp
    · by_cases hle : ((tok :: toks).filterMap x29Pair).length ≤ maxX29Profile
      · simp [hle]
      · simp [hle, not_le.mp hle]
  | pacsizeIn =>
    have hn := faclen_eq_none_iff (atoi_bounds val).2
    simp only [Setting.ask, Setting.Faulty, ← hn]
    rcases faclen (atoi val) with _ | n <;> simp
  | _ => simp [Setting.ask, Setting.Faulty]

/-- What is assigned is the value the text stands for; a profile without a valid pair is assigned
as well. -/
theorem assigned_ask (h : k.ask val = .ok l) :
    l.assigned =
      if k = .x29Profile then some (.x29Profile, .profile ((strtoks [','] val).filterMap x29Pair))
      else (k.value val).map (k, ·) := by
  cases k with
  | chaddr =>
    rw [Setting.ask] at h
    split at h
    · next hlen =>
      split at h
      · next hdig =>
        cases h
        simp [CfgLine.assigned, Setting.value, hlen, hdig]
      · next hdig =>
        cases h
        simp [CfgLine.assigned, Setting.value, hdig]
    · next hlen =>
      cases h
      simp [CfgLine.assigned, Setting.value, hlen]
  | x29Profile =>
    rw [Setting.ask, cfgX29] at h
    rw [if_pos rfl]
    split at h
    · cases h
    · split at h
      · cases h
        rfl
      · cases h
  | pacsizeIn =>
    rw [Setting.ask] at h
    split at h
    · cases h
    · next n hn =>
      cases h
      simp [CfgLine.assigned, Setting.value, hn]
  | _ =>
    cases h
    rfl

/-- A line assigns the setting that it names. -/
theorem nameValue_of_assigned {v : Value} (h : assigned buf = some (k, v)) :
    ∃ val, nameValue buf = some (k.lit, val) := by
  unfold assigned at h
  rcases hl : cfgLine buf with f | l
  · rw [hl] at h
    cases h
  · rw [hl] at h
    rcases line_cases buf with ⟨k', val, hnv⟩ | ⟨hi, -, -⟩
    · rw [cfgLine_of_setting hnv] at hl
      have ha : l.assigned = some (k, v) := h
      rw [assigned_ask hl] at ha
      -- whatever is assigned, it is the setting that the line names
      obtain rfl : k' = k := by
        split at ha
        · next hk => cases ha; exact hk
        · obtain ⟨v', -, hv⟩ := Option.map_eq_some_iff.mp ha
          exact congrArg Prod.fst hv
      exact ⟨val, hnv⟩
    · rw [hi] at hl
      cases hl
      cases h

/-- **What is assigned at a line that names a valid value**, or no profile at all. -/
theorem assigned_eq_wellFormed (h : cfgLine buf = .ok l) (hp : linePars buf ≠ some []) :
    assigned buf = wellFormed buf := by
  rw [assigned, h]
  dsimp only
  rcases line_cases buf with ⟨k, val, hnv⟩ | ⟨hl, hw, -⟩
  · rw [wellFormed_of_setting hnv]
    rw [cfgLine_of_setting hnv] at h
    rw [assigned_ask h]
    split
    · next hk =>
      rw [linePars_of_setting hnv, if_pos hk] at hp
      subst hk
      rw [Setting.value, if_neg (by simpa using hp)]
      rfl
    · rfl
  · rw [hl] at h
    cases h
    rw [hw]
    rfl

/-- A line with the pairs of a profile. -/
theorem line_of_linePars {pars : List X29Par} (h : linePars buf = some pars) :
    ∃ val, nameValue buf = some (Setting.x29Profile.lit, val) ∧
      (strtoks [','] val).filterMap x29Pair = pars := by
  rcases line_cases buf with ⟨k, val, hnv⟩ | ⟨-, -, hnone⟩
  · rw [linePars_of_setting hnv] at h
    split at h
    · next hk =>
      cases h
      exact ⟨val, hk ▸ hnv, rfl⟩
    · cases h
  · rw [hnone] at h
    cases h

theorem wellFormed_of_linePars {pars : List X29Par} (h : linePars buf = some pars)
    (hne : pars ≠ []) : wellFormed buf = some (.x29Profile, .profile pars) := by
  obtain ⟨val, hnv, rfl⟩ := line_of_linePars h
  rw [wellFormed_of_setting hnv, Setting.value, if_neg hne]
  rfl

/-- A line whose profile has no valid pair empties the profile. -/
theorem assigned_of_linePars_nil (h : cfgLine buf = .ok l) (hp : linePars buf = some []) :
    assigned buf = some (.x29Profile, .profile []) ∧ wellFormed buf = none := by
  obtain ⟨val, hnv, hnil⟩ := line_of_linePars hp
  rw [wellFormed_of_setting hnv, assigned, h]
  rw [cfgLine_of_setting hnv] at h
  refine ⟨?_, by rw [Setting.value, if_pos hnil]; rfl⟩
  dsimp only
  rw [assigned_ask h, if_pos rfl, hnil]

end Ask

/-! ## The lines of a file -/

/-- The settings after a line that is no fault. -/
def lineStep (c : Settings) (buf : List Char) : Settings :=
  match cfgLine (cstr buf) with
  | .error _ => c
  | .ok l => l.apply c

/-- **A line assigns its setting and no other.** -/
theorem updates_lineStep :
    Keyed.Updates (fun k c => Settings.get c k) lineStep fun buf => assigned (cstr buf) := by
  constructor
  · intro c buf k v h
    unfold assigned at h
    unfold lineStep
    rcases hl : cfgLine (cstr buf) with f | l
    · rw [hl] at h
      cases h
    · rw [hl] at h
      dsimp only at h ⊢
      cases l with
      | ignore | quit => cases h
      | x29Profile pars =>
        cases h
        simp [Settings.get, CfgLine.apply]
      | _ =>
        cases h
        rfl
  · intro c buf k h
    unfold assigned at h
    unfold lineStep
    rcases hl : cfgLine (cstr buf) with f | l
    · rfl
    · rw [hl] at h
      dsimp only at h ⊢
      cases l with
      -- two settings: the same one is excluded, another one is left alone
      | ignore | quit => rfl
      | _ =>
        cases k
        all_goals first
          | rfl
          | exact absurd rfl (h _)

section File

variable {lines : List (List Char)} {c c' : Settings}

/-- **The reading of the lines** comes to an end when none that is looked at is a fault, and then
each of these was processed. -/
theorem readcfgLines_eq_ok_iff :
    readcfgLines lines c = .ok c' ↔
      (∀ buf ∈ linesUntil lines, ∀ f, cfgLine (cstr buf) ≠ .error f) ∧
        (linesUntil lines).foldl lineStep c = c' := by
  induction lines generalizing c with
  | nil => simp [readcfgLines, linesUntil]
  | cons buf lines ih =>
    rw [readcfgLines, linesUntil, List.forall_mem_cons, List.foldl_cons]
    rcases hl : cfgLine (cstr buf) with f | l
    · simp
    · by_cases hq : l = .quit
      · simp [stopsReading, hl, hq, lineStep, CfgLine.apply]
      · have hs : stopsReading (cstr buf) = false := by simp [stopsReading, hl, hq]
        have hstep : lineStep c buf = l.apply c := by simp [lineStep, hl]
        simpa [hs, hstep] using ih

/-- **What the settings hold after the lines of a file.** -/
theorem get_readcfgLines (h : readcfgLines lines c = .ok c') (k : Setting) :
    c'.get k = (Keyed.last (fun buf => assigned (cstr buf)) k (linesUntil lines)).getD (c.get k) := by
  rw [← (readcfgLines_eq_ok_iff.mp h).2]
  exact updates_lineStep.get_foldl k (linesUntil lines) c

end File

end PadSvr
