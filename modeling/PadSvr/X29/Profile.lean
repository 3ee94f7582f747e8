import PadSvr.Cfgfile

/-!
# The profile in effect

What a configuration file says of the X.29 profile, and which profile the settings hold after any
number of readings. `readcfg` looks at the lines of the file until one of them stops it, so a
profile further down is never read.

## Main definitions

* `linePars buf`: the pairs an `x29_profile` line yields
* `CfgFile.linesRead`, `CfgFile.profileRead`: the lines that are looked at, and the last profile
  on them
* `Configured c p`: settings `c` that the program can have, `p` the profile read last

## Main results

* `readcfg_ne_outOfBounds_iff`: when a file is read within the bounds of `X29_profile`
* `Configured.holds`: how the settings hold the profile read last
-/

namespace PadSvr

open CString

/-- The name and the value on a line that is no comment. -/
def nameValue (buf : List Char) : Option (List Char × List Char) :=
  if buf.head? = some '#' ∨ buf.head? = some '\n' then none
  else
    match strtok " \t\n".toList buf with
    | none => none
    | some (lit, rest) => (strtok " \t\n".toList rest).map fun t => (lit, t.1)

/-- The valid pairs of an `x29_profile` line, in their order. -/
def linePars (buf : List Char) : Option (List X29Par) :=
  match nameValue buf with
  | none => none
  | some (lit, val) => if lit = litx29 then some ((strtoks [','] val).filterMap x29Pair) else none

/-- The lines of a file that can be opened, each as `fgets` reads it. -/
def CfgFile.lines : CfgFile → List (List Char)
  | .readable text => fgetsLines 200 text
  | .missing _ => []

/-- A line behind which `readcfg` reads no other. -/
def stopsReading (buf : List Char) : Bool :=
  match cfgLine buf with
  | .error _ => true
  | .ok l => l = .quit

/-- The lines up to the first one that stops the reading. -/
def linesUntil : List (List Char) → List (List Char)
  | [] => []
  | buf :: lines => buf :: if stopsReading (cstr buf) then [] else linesUntil lines

/-- The pairs of the last `x29_profile` line. -/
def lastPars (lines : List (List Char)) : Option (List X29Par) :=
  (lines.filterMap fun buf => linePars (cstr buf)).getLast?

/-- The lines that `readcfg` looks at. -/
def CfgFile.linesRead (file : CfgFile) : List (List Char) := linesUntil file.lines

/-- The last profile of the file. -/
def CfgFile.profile (file : CfgFile) : Option (List X29Par) := lastPars file.lines

/-- The last profile that `readcfg` comes to. -/
def CfgFile.profileRead (file : CfgFile) : Option (List X29Par) := lastPars file.linesRead

/-- The profile read last after a file is read, `p` being the one before. -/
def CfgFile.profileAfter (file : CfgFile) (p : Option (List X29Par)) : Option (List X29Par) :=
  file.profileRead.or p

/-- The settings the program can have, with the profile that was read last. -/
inductive Configured : Settings → Option (List X29Par) → Prop
  | defaults : Configured .defaults none
  | readcfg {c p file b c'} : Configured c p → readcfg file c = .ok (b, c') →
      Configured c' (file.profileAfter p)

/-- How the settings hold a profile. The length is the index of the last pair; it is zero as well
where no profile was read. -/
structure Settings.HoldsProfile (c : Settings) (p : Option (List X29Par)) : Prop where
  length : c.x29Profile.length = maxX29Profile
  unread : p = none → c.x29ProfileLen = 0
  read : ∀ pars, p = some pars →
    pars.length ≤ maxX29Profile ∧ c.x29ProfileLen = pars.length - 1 ∧ pars <+: c.x29Profile

section Lines

variable {buf lit val : List Char} {lines : List (List Char)} {pars : List X29Par}
  {p : Option (List X29Par)} {c c' : Settings}

theorem nameValue_eq_some (h : nameValue buf = some (lit, val)) :
    ¬ (buf.head? = some '#' ∨ buf.head? = some '\n') ∧ ∃ rest rest',
      strtok " \t\n".toList buf = some (lit, rest) ∧
        strtok " \t\n".toList rest = some (val, rest') := by
  unfold nameValue at h
  split at h
  · cases h
  · next hc =>
    split at h
    · cases h
    · next lit' rest h₁ =>
      obtain ⟨⟨val', rest'⟩, h₂, he⟩ := Option.map_eq_some_iff.mp h
      obtain ⟨rfl, rfl⟩ : lit' = lit ∧ val' = val := by simpa using he
      exact ⟨hc, rest, rest', h₁, h₂⟩

theorem cfgLine_of_nameValue_none (h : nameValue buf = none) : cfgLine buf = .ok .ignore := by
  unfold nameValue at h
  unfold cfgLine
  by_cases hc : buf.head? = some '#' ∨ buf.head? = some '\n'
  · rw [if_pos hc]
  · rw [if_neg hc] at h ⊢
    rcases htok : strtok " \t\n".toList buf with _ | ⟨lit, rest⟩
    · rfl
    · rw [htok] at h
      have hval : strtok " \t\n".toList rest = none := Option.map_eq_none_iff.mp h
      dsimp only
      rw [hval]

/-- **What a line with a name and a value comes to**, name by name. -/
theorem cfgLine_induction {P : Except Fault CfgLine → Prop} (h : nameValue buf = some (lit, val))
    (hadr : lit = litadr → P (if val.length ≤ 15 then
      if val.all Char.isDigit then .ok (.chaddr val) else .ok .ignore else .ok .quit))
    (hx29 : lit = litx29 → P (cfgX29 val))
    (hlvl : P (.ok (.logLevel (clamp 0 10 (atoi val)))))
    (hlog : lit = litlog → P (.ok (.nameLogFile val)))
    (hwch : P (.ok (.watchdogTimeout (clamp 1 600 (atoi val)))))
    (hwin : P (.ok (.winsizeIn (clamp 1 7 (atoi val)))))
    (hpin : ∀ n, faclen (atoi val) = some n → P (.ok (.pacsizeIn (clamp 4 12 n))))
    (hend : P (.error .endless))
    (hifo : P (.ok (.forwardtimer (clamp 0 199 (atoi val)))))
    (hbuf : P (.ok (.bufferSize (if atoi val < 0 then 16000 else atoi val))))
    (hrest : P (.ok .ignore)) : P (cfgLine buf) := by
  obtain ⟨hc, rest, rest', h₁, h₂⟩ := nameValue_eq_some h
  rw [cfgLine, if_neg hc]
  simp only [h₁, h₂]
  refine iteInduction hadr fun _ => iteInduction hx29 fun _ => iteInduction (fun _ => hlvl)
    fun _ => iteInduction hlog fun _ => iteInduction (fun _ => hwch) fun _ =>
    iteInduction (fun _ => hwin) fun _ => iteInduction (fun _ => ?_) fun _ =>
    iteInduction (fun _ => hifo) fun _ => iteInduction (fun _ => hbuf) fun _ => hrest
  rcases hf : faclen (atoi val) with _ | n
  · exact hend
  · exact hpin n hf

theorem cfgLine_of_x29 (h : nameValue buf = some (litx29, val)) : cfgLine buf = cfgX29 val := by
  obtain ⟨hc, rest, rest', h₁, h₂⟩ := nameValue_eq_some h
  rw [cfgLine, if_neg hc]
  simp only [h₁, h₂, show litx29 ≠ litadr by decide, if_true, if_false]

/-- An `x29_profile` line is left at the null pointer or at the end of the array, or assigns the
pairs it yields. -/
theorem cfgLine_of_linePars (h : linePars buf = some pars) :
    cfgLine buf = .error .nullPointer ∧ pars = [] ∨
      cfgLine buf = .ok (.x29Profile pars) ∧ pars.length ≤ maxX29Profile ∨
      cfgLine buf = .error .outOfBounds ∧ maxX29Profile < pars.length := by
  unfold linePars at h
  split at h
  · cases h
  · next lit val hnv =>
    split at h
    · next hlit =>
      subst hlit
      cases h
      rw [cfgLine_of_x29 hnv, cfgX29]
      split
      · next ht => exact Or.inl ⟨rfl, by rw [ht]; rfl⟩
      · split
        · next hle => exact Or.inr (Or.inl ⟨rfl, hle⟩)
        · next hle => exact Or.inr (Or.inr ⟨rfl, by omega⟩)
    · cases h

/-- A line of another kind leaves the profile alone. -/
theorem cfgLine_of_linePars_none (h : linePars buf = none) :
    cfgLine buf ≠ .error .outOfBounds ∧ ∀ l, cfgLine buf = .ok l → ∀ c,
      (l.apply c).x29Profile = c.x29Profile ∧ (l.apply c).x29ProfileLen = c.x29ProfileLen := by
  rcases hnv : nameValue buf with _ | ⟨lit, val⟩
  · rw [cfgLine_of_nameValue_none hnv]
    refine ⟨nofun, ?_⟩
    rintro _ ⟨⟩ c
    exact ⟨rfl, rfl⟩
  · have hlit : lit ≠ litx29 := fun he => by simp [linePars, hnv, he] at h
    let P (r : Except Fault CfgLine) : Prop := r ≠ .error .outOfBounds ∧ ∀ l, r = .ok l → ∀ c,
      (l.apply c).x29Profile = c.x29Profile ∧ (l.apply c).x29ProfileLen = c.x29ProfileLen
    have hok : ∀ l : CfgLine, (∀ c, (l.apply c).x29Profile = c.x29Profile ∧
        (l.apply c).x29ProfileLen = c.x29ProfileLen) → P (.ok l) := by
      intro l hl
      refine ⟨nofun, ?_⟩
      rintro _ ⟨⟩
      exact hl
    refine cfgLine_induction (P := P) hnv (fun _ => ?_) (fun hx29 => absurd hx29 hlit)
      (hok _ fun _ => ⟨rfl, rfl⟩) (fun _ => hok _ fun _ => ⟨rfl, rfl⟩) (hok _ fun _ => ⟨rfl, rfl⟩)
      (hok _ fun _ => ⟨rfl, rfl⟩) (fun _ _ => hok _ fun _ => ⟨rfl, rfl⟩) ⟨nofun, nofun⟩
      (hok _ fun _ => ⟨rfl, rfl⟩) (hok _ fun _ => ⟨rfl, rfl⟩) (hok _ fun _ => ⟨rfl, rfl⟩)
    exact iteInduction (fun _ => iteInduction (fun _ => hok _ fun _ => ⟨rfl, rfl⟩)
      fun _ => hok _ fun _ => ⟨rfl, rfl⟩) fun _ => hok _ fun _ => ⟨rfl, rfl⟩

theorem lastPars_cons : lastPars (buf :: lines) = (lastPars lines).or (linePars (cstr buf)) := by
  unfold lastPars
  rcases h : linePars (cstr buf) with _ | pars
  · simp [h]
  · simp only [List.filterMap_cons, h, List.getLast?_cons]
    cases (lines.filterMap fun buf => linePars (cstr buf)).getLast? <;> rfl

theorem Settings.HoldsProfile.apply (hc : c.HoldsProfile p) (hle : pars.length ≤ maxX29Profile) :
    (CfgLine.apply (.x29Profile pars) c).HoldsProfile (some pars) := by
  constructor
  · simp only [CfgLine.apply, List.length_append, List.length_drop, hc.length]
    omega
  · simp
  · rintro _ ⟨⟩
    exact ⟨hle, rfl, List.prefix_append _ _⟩

theorem Settings.HoldsProfile.congr (hc : c.HoldsProfile p) (h : c'.x29Profile = c.x29Profile)
    (hl : c'.x29ProfileLen = c.x29ProfileLen) : c'.HoldsProfile p := by
  constructor
  · rw [h]; exact hc.length
  · rw [hl]; exact hc.unread
  · rw [h, hl]; exact hc.read

/-- The lines that are looked at leave the last profile on them. -/
theorem readcfgLines_holds (hc : c.HoldsProfile p) (h : readcfgLines lines c = .ok c') :
    c'.HoldsProfile ((lastPars (linesUntil lines)).or p) := by
  induction lines generalizing c p with
  | nil =>
    cases h
    exact hc
  | cons buf lines ih =>
    rw [readcfgLines] at h
    rw [linesUntil, lastPars_cons, Option.or_assoc]
    rcases hp : linePars (cstr buf) with _ | pars
    · have hkeep := (cfgLine_of_linePars_none hp).2
      rcases hl : cfgLine (cstr buf) with f | l
      · simp [hl] at h
      · by_cases hq : l = .quit
        · subst hq
          simp only [hl] at h
          cases h
          simpa [stopsReading, hl, lastPars] using hc
        · have hs : stopsReading (cstr buf) = false := by simp [stopsReading, hl, hq]
          rw [hs]
          simp only [hl] at h
          exact ih (hc.congr (hkeep l hl c).1 (hkeep l hl c).2) h
    · rcases cfgLine_of_linePars hp with ⟨hl, -⟩ | ⟨hl, hle⟩ | ⟨hl, -⟩
      · simp [hl] at h
      · have hs : stopsReading (cstr buf) = false := by simp [stopsReading, hl]
        rw [hs]
        simp only [hl] at h
        exact ih (hc.apply hle) h
      · simp [hl] at h

/-- The reading of the lines runs into a fault where a line that is looked at does. -/
theorem readcfgLines_eq_error_iff {f : Fault} :
    readcfgLines lines c = .error f ↔ ∃ buf ∈ linesUntil lines, cfgLine (cstr buf) = .error f := by
  induction lines generalizing c with
  | nil => simp [readcfgLines, linesUntil]
  | cons buf lines ih =>
    rw [readcfgLines, linesUntil]
    simp only [List.mem_cons, exists_eq_or_imp]
    rcases hl : cfgLine (cstr buf) with f' | l
    · simp [stopsReading, hl]
    · by_cases hq : l = .quit
      · simp [stopsReading, hl, hq]
      · have hs : stopsReading (cstr buf) = false := by simp [stopsReading, hl, hq]
        simpa [hs] using ih

theorem readcfgLines_ne_outOfBounds_iff :
    readcfgLines lines c ≠ .error .outOfBounds ↔
      ∀ buf ∈ linesUntil lines, ∀ pars, linePars (cstr buf) = some pars →
        pars.length ≤ maxX29Profile := by
  rw [Ne, readcfgLines_eq_error_iff, not_exists]
  refine forall_congr' fun buf => ?_
  rw [not_and]
  refine imp_congr_right fun _ => ?_
  rcases hp : linePars (cstr buf) with _ | pars
  · simpa using (cfgLine_of_linePars_none hp).1
  · rcases cfgLine_of_linePars hp with ⟨hl, rfl⟩ | ⟨hl, hle⟩ | ⟨hl, hlt⟩
    · simp [hl]
    · simp [hl, hle]
    · simpa [hl] using hlt

end Lines

/-- **When `X29_profile` is written within its bounds**: no line that is looked at yields more
pairs than the array holds. -/
theorem readcfg_ne_outOfBounds_iff {file : CfgFile} {c : Settings} :
    readcfg file c ≠ .error .outOfBounds ↔
      ∀ buf ∈ file.linesRead, ∀ pars, linePars (cstr buf) = some pars →
        pars.length ≤ maxX29Profile := by
  match file with
  | .missing true => simp [readcfg, CfgFile.linesRead, CfgFile.lines, linesUntil]
  | .missing false => simp [readcfg, CfgFile.linesRead, CfgFile.lines, linesUntil]
  | .readable text =>
    rw [readcfg, CfgFile.linesRead, CfgFile.lines, ← readcfgLines_ne_outOfBounds_iff (c := c)]
    rcases readcfgLines (fgetsLines 200 text) c with f | c' <;> simp [Except.map]

/-- A file leaves what its lines leave. -/
theorem readcfgLines_of_readcfg {file : CfgFile} {c c' : Settings} {b : Bool}
    (h : readcfg file c = .ok (b, c')) : readcfgLines file.lines c = .ok c' := by
  match file with
  | .missing true => cases h
  | .missing false =>
    cases h
    rfl
  | .readable text =>
    rw [readcfg] at h
    rcases hl : readcfgLines (fgetsLines 200 text) c with f | c₁
    · simp [hl, Except.map] at h
    · obtain ⟨-, rfl⟩ : true = b ∧ c₁ = c' := by simpa [hl, Except.map] using h
      exact hl

/-- **The settings hold the profile that was read last.** -/
theorem Configured.holds {c : Settings} {p : Option (List X29Par)} (h : Configured c p) :
    c.HoldsProfile p := by
  induction h with
  | defaults => exact ⟨rfl, fun _ => rfl, by simp⟩
  | readcfg _ hr ih => exact readcfgLines_holds ih (readcfgLines_of_readcfg hr)

end PadSvr
