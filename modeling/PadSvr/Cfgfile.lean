import PadSvr.CString.Stdio

/-!
# The configuration file

`readcfg` reads the file line by line through a 200-byte buffer and assigns the nine settings.
What a line does depends on its text alone, so a line is first read as a `CfgLine` and then
applied to the settings.

## Main definitions

* `Settings`, `Settings.defaults`: the settings of the program and their built-in values
* `cfgLine buf`: what one line asks for
* `readcfg file c`: the settings after reading `file`, or the fault it runs into
* `faclen`, `paclen`: packet-size codes and packet sizes

## Main results

* `readcfg_ok_congr`: whether a file is read without a fault does not depend on the settings, and
  a setting the file assigns gets the same value whatever it was before
-/

namespace PadSvr

open CString

/-- An X.3 parameter and its value. -/
structure X29Par where
  parRef : UInt8
  parValue : UInt8
deriving DecidableEq, Repr

/-- `MAXX29PROFILE`, the entries of `X29_profile`. -/
def maxX29Profile : ℕ := 25

/-- The settings: the globals that `readcfg` assigns. -/
structure Settings where
  chaddr : List Char
  logLevel : ℤ
  nameLogFile : List Char
  watchdogTimeout : ℤ
  winsizeIn : ℤ
  pacsizeIn : ℤ
  forwardtimer : ℤ
  x29Profile : List X29Par
  x29ProfileLen : ℤ
  bufferSize : ℤ
deriving DecidableEq, Repr

/-- The settings of a program that has read no file: initial values and `set_defaults`. -/
def Settings.defaults : Settings where
  chaddr := "35071".toList
  logLevel := 3
  nameLogFile := "/var/log/pad_svr.log".toList
  watchdogTimeout := 10
  winsizeIn := 2
  pacsizeIn := 7
  forwardtimer := 1
  x29Profile := List.replicate maxX29Profile ⟨0, 0⟩
  x29ProfileLen := 0
  bufferSize := 32000

/-- What ends a program without a result: a null pointer passed to a function of the C library,
a write past the end of an array, a loop that never ends. -/
inductive Fault
  | nullPointer
  | outOfBounds
  | endless
deriving DecidableEq, Repr

/-- The packet size of a packet-size code. -/
def paclen (faci : ℤ) : ℤ := 2 ^ faci.toNat

/-- The rounds of `faclen`'s loop, cut after `n` of them. -/
def faclenLoop : ℕ → ℤ → ℤ → Option ℤ
  | 0, _, _ => none
  | n + 1, packetLen, i =>
    let packetLen' := packetLen >>> (1 : ℕ)
    if packetLen' = 0 then some i else faclenLoop n packetLen' (i + 1)

/-- The packet-size code of a packet size. An `int` that is not zero after 32 shifts is negative
and never gets there. -/
def faclen (packetLen : ℤ) : Option ℤ := faclenLoop 32 packetLen 0

def litadr : List Char := "local_x121_address".toList
def litlvl : List Char := "log_level".toList
def litlog : List Char := "log_path".toList
def litwch : List Char := "Watchdog_timeout".toList
def litwin : List Char := "Winsize_in".toList
def litpin : List Char := "Pacsize_in".toList
def litifo : List Char := "Forward_idle_timeout".toList
def litx29 : List Char := "x29_profile".toList
def litbuf : List Char := "Buffer_size".toList

/-- What a line asks for: nothing, an end of the reading, or a value of one setting. -/
inductive CfgLine
  | ignore
  | quit
  | chaddr (val : List Char)
  | x29Profile (pars : List X29Par)
  | logLevel (n : ℤ)
  | nameLogFile (val : List Char)
  | watchdogTimeout (n : ℤ)
  | winsizeIn (n : ℤ)
  | pacsizeIn (n : ℤ)
  | forwardtimer (n : ℤ)
  | bufferSize (n : ℤ)
deriving DecidableEq, Repr

/-- `n` moved into the bounds `lo` and `hi`, one test after the other. -/
def clamp (lo hi n : ℤ) : ℤ :=
  let n := if n < lo then lo else n
  if n > hi then hi else n

/-- One token of a profile: `reference:value`, both in range, in 3 to 6 characters. -/
def x29Pair (partok : List Char) : Option X29Par :=
  if 2 < partok.length ∧ partok.length < 7 then
    match strtok [':'] partok with
    | none => none
    | some (parnum, rest) =>
      match strtok [':'] rest with
      | none => none
      | some (parval, _) =>
        if 1 ≤ atoi parnum ∧ atoi parnum ≤ 30 ∧ 0 ≤ atoi parval ∧ atoi parval ≤ 255 then
          some ⟨UInt8.ofNat (atoi parnum).toNat, UInt8.ofNat (atoi parval).toNat⟩
        else none
  else none

/-- The value of an `x29_profile` line. The loop measures the first token before it tests it. -/
def cfgX29 (val : List Char) : Except Fault CfgLine :=
  match strtoks [','] val with
  -- a value of commas only has no token, and `strlen` gets a null pointer
  | [] => .error .nullPointer
  | toks =>
    if (toks.filterMap x29Pair).length ≤ maxX29Profile then
      .ok (.x29Profile (toks.filterMap x29Pair))
    -- `X29_profile` is written behind its end
    else .error .outOfBounds

/-- One line, as `fgets` left it in the buffer. -/
def cfgLine (buf : List Char) : Except Fault CfgLine :=
  if buf.head? = some '#' ∨ buf.head? = some '\n' then .ok .ignore
  else
    match strtok " \t\n".toList buf with
    | none => .ok .ignore
    | some (lit, rest) =>
      match strtok " \t\n".toList rest with
      | none => .ok .ignore
      | some (val, _) =>
        if lit = litadr then
          if val.length ≤ 15 then
            if val.all Char.isDigit then .ok (.chaddr val) else .ok .ignore
          -- the `break` here leaves the loop over the lines
          else .ok .quit
        else if lit = litx29 then cfgX29 val
        else if lit = litlvl then .ok (.logLevel (clamp 0 10 (atoi val)))
        else if lit = litlog then .ok (.nameLogFile val)
        else if lit = litwch then .ok (.watchdogTimeout (clamp 1 600 (atoi val)))
        else if lit = litwin then .ok (.winsizeIn (clamp 1 7 (atoi val)))
        else if lit = litpin then
          -- the loop of `faclen` shifts a negative number for ever
          match faclen (atoi val) with
          | none => .error .endless
          | some n => .ok (.pacsizeIn (clamp 4 12 n))
        else if lit = litifo then .ok (.forwardtimer (clamp 0 199 (atoi val)))
        else if lit = litbuf then
          -- here the test has a lower bound only, and lets 0 pass
          .ok (.bufferSize (if atoi val < 0 then 16000 else atoi val))
        else .ok .ignore

/-- The settings after a line. -/
def CfgLine.apply : CfgLine → Settings → Settings
  | .ignore, c => c
  | .quit, c => c
  | .chaddr val, c => { c with chaddr := val }
  | .x29Profile pars, c =>
    { c with
      x29Profile := pars ++ c.x29Profile.drop pars.length
      x29ProfileLen := pars.length - 1 }
  | .logLevel n, c => { c with logLevel := n }
  | .nameLogFile val, c => { c with nameLogFile := val }
  | .watchdogTimeout n, c => { c with watchdogTimeout := n }
  | .winsizeIn n, c => { c with winsizeIn := n }
  | .pacsizeIn n, c => { c with pacsizeIn := n }
  | .forwardtimer n, c => { c with forwardtimer := n }
  | .bufferSize n, c => { c with bufferSize := n }

/-- The settings after the lines of a file, each as `fgets` reads it. -/
def readcfgLines : List (List Char) → Settings → Except Fault Settings
  | [], c => .ok c
  | buf :: lines, c =>
    match cfgLine (cstr buf) with
    | .error f => .error f
    | .ok .quit => .ok c
    | .ok l => readcfgLines lines (l.apply c)

/-- The configuration file as `fopen` finds it: its text, or missing, and then whether it can be
created. -/
inductive CfgFile
  | readable (text : List Char)
  | missing (creatable : Bool)
deriving DecidableEq, Repr

/-- `readcfg`: whether it returns 1, and the settings it leaves. A file that is missing and can be
created is written with the current settings, and then the null pointer that `fopen` returned is
closed. -/
def readcfg : CfgFile → Settings → Except Fault (Bool × Settings)
  | .readable text, c => (readcfgLines (fgetsLines 200 text) c).map (true, ·)
  | .missing true, _ => .error .nullPointer
  | .missing false, c => .ok (false, c)

/-- What the lines leave of a setting `f` that each line keeps or assigns. -/
theorem readcfgLines_ok_congr {α : Type} {f : Settings → α}
    (hf : ∀ l : CfgLine, (∀ c, f (l.apply c) = f c) ∨ ∀ c c₁, f (l.apply c) = f (l.apply c₁)) :
    ∀ {lines : List (List Char)} {c c' : Settings}, readcfgLines lines c = .ok c' → ∀ c₁,
      ∃ c₁', readcfgLines lines c₁ = .ok c₁' ∧ (f c' = f c ∧ f c₁' = f c₁ ∨ f c₁' = f c') := by
  intro lines
  induction lines with
  | nil =>
    intro c c' h c₁
    obtain rfl : c = c' := by simpa [readcfgLines] using h
    exact ⟨c₁, rfl, Or.inl ⟨rfl, rfl⟩⟩
  | cons buf lines ih =>
    intro c c' h c₁
    unfold readcfgLines at h ⊢
    split at h
    · cases h
    · next hl =>
      obtain rfl : c = c' := by simpa using h
      exact ⟨c₁, rfl, Or.inl ⟨rfl, rfl⟩⟩
    · next l _ _ =>
      obtain ⟨c₁', hr, hc⟩ := ih h (l.apply c₁)
      refine ⟨c₁', hr, ?_⟩
      rcases hf l with hkeep | hset
      · rwa [hkeep, hkeep] at hc
      · -- the lines after this one keep what it assigns, or assign the setting again
        refine Or.inr ?_
        rcases hc with ⟨h₁, h₂⟩ | h₂
        · rw [h₁, h₂, hset c c₁]
        · exact h₂

/-- **What a file does to a setting does not depend on the settings before**: it keeps it or
assigns it. -/
theorem readcfg_ok_congr {α : Type} {f : Settings → α}
    (hf : ∀ l : CfgLine, (∀ c, f (l.apply c) = f c) ∨ ∀ c c₁, f (l.apply c) = f (l.apply c₁))
    {file : CfgFile} {c c' : Settings} {b : Bool} (h : readcfg file c = .ok (b, c'))
    (c₁ : Settings) :
    ∃ c₁', readcfg file c₁ = .ok (b, c₁') ∧ (f c' = f c ∧ f c₁' = f c₁ ∨ f c₁' = f c') := by
  match file with
  | .missing true => cases h
  | .missing false =>
    cases h
    exact ⟨c₁, rfl, Or.inl ⟨rfl, rfl⟩⟩
  | .readable text =>
    simp only [readcfg] at h ⊢
    rcases hl : readcfgLines (fgetsLines 200 text) c with e | c₂
    · rw [hl] at h
      cases h
    · rw [hl] at h
      cases h
      obtain ⟨c₁', hr, hc⟩ := readcfgLines_ok_congr hf hl c₁
      exact ⟨c₁', by rw [hr]; rfl, hc⟩

/-- A line keeps `Buffer_size` or assigns it. -/
theorem bufferSize_apply (l : CfgLine) :
    (∀ c, (l.apply c).bufferSize = c.bufferSize) ∨
      ∀ c c₁, (l.apply c).bufferSize = (l.apply c₁).bufferSize := by
  cases l with
  | bufferSize n => exact Or.inr fun _ _ => rfl
  | _ => exact Or.inl fun _ => rfl

example : (readcfg (.readable "Buffer_size 64000\n#Buffer_size 1\nPacsize_in 300".toList)
    .defaults).map (fun r => (r.2.bufferSize, r.2.pacsizeIn)) = .ok (64000, 8) := by decide

end PadSvr
