import PadSvr.Config.Setting
import PadSvr.Writecfg

/-!
# Usable settings

The copy loop and the timers calculate with the settings. The clamps of `readcfg` keep them in the
ranges this needs, but for `Buffer_size`: zero passes its test, and so does the number whose
successor is no `int`.

## Main definitions

* `readcfgs files c`: the settings after files were read one after the other
* `Settings.Usable`: settings that the copy loop and the timers can calculate with
* `bufferSizeRead files`: the text of the last `Buffer_size` line

## Main results

* `readcfgs_bufferSize`: the buffer size after any files
* `usable_iff`: when the settings are usable
-/

namespace PadSvr

open CString

/-- The settings after the files were read one after the other. -/
def readcfgs : List CfgFile → Settings → Except Fault Settings
  | [], c => .ok c
  | file :: files, c =>
    match readcfg file c with
    | .error f => .error f
    | .ok (_, c') => readcfgs files c'

/-- The sizes and the times that are calculated from the settings are in their ranges. -/
structure Settings.Usable (c : Settings) : Prop where
  logLevel : 0 ≤ c.logLevel ∧ c.logLevel ≤ 10
  watchdogTimeout : 1 ≤ c.watchdogTimeout ∧ c.watchdogTimeout ≤ 600
  winsizeIn : 1 ≤ c.winsizeIn ∧ c.winsizeIn ≤ 7
  pacsizeIn : 4 ≤ c.pacsizeIn ∧ c.pacsizeIn ≤ 12
  forwardtimer : 0 ≤ c.forwardtimer ∧ c.forwardtimer ≤ 199
  chaddr : IsAddress c.chaddr
  bufferSize : 1 ≤ c.bufferSize ∧ c.bufferSize + 1 < 2 ^ 31
  /-- `tv_nsec` as `set_read_timeout` sets it -/
  tvNsec : 0 ≤ c.forwardtimer * 5000000 ∧ c.forwardtimer * 5000000 < 10 ^ 9
  /-- the size of the blocks that `do_copy` allocates -/
  block : 0 < int32 (c.bufferSize + 1)

/-- The text of the last `Buffer_size` line that was looked at. -/
def bufferSizeRead (files : List CfgFile) : Option (List Char) :=
  Keyed.last (fun buf => nameValue (cstr buf)) litbuf (files.flatMap CfgFile.linesRead)

/-- The buffer size of a number text. -/
def bufferSizeOf (val : List Char) : ℤ := if atoi val < 0 then 16000 else atoi val

section Files

variable {file : CfgFile} {files : List CfgFile} {c c' : Settings} {b : Bool}

/-- What a line assigns to `Buffer_size` is told by its name and its text. -/
theorem assigned_bufferSize (buf : List Char) :
    Keyed.under assigned .bufferSize buf =
      (Keyed.under nameValue litbuf buf).map fun val => Value.number (bufferSizeOf val) := by
  rcases hu : Keyed.under nameValue litbuf buf with _ | val
  · rw [Option.map_none, Keyed.under_eq_none]
    intro v hv
    obtain ⟨val, hnv⟩ := nameValue_of_assigned hv
    exact Keyed.under_eq_none.mp hu val hnv
  · have hnv : nameValue buf = some (Setting.bufferSize.lit, val) := Keyed.under_eq_some.mp hu
    rw [Option.map_some, Keyed.under_eq_some, assigned, cfgLine_of_setting hnv]
    rfl

/-- **The buffer size after any files** is that of the last `Buffer_size` line. -/
theorem readcfgs_bufferSize (h : readcfgs files c = .ok c') :
    c'.bufferSize = ((bufferSizeRead files).map bufferSizeOf).getD c.bufferSize := by
  induction files generalizing c with
  | nil =>
    cases h
    rfl
  | cons file files ih =>
    rw [readcfgs] at h
    rcases hr : readcfg file c with f | ⟨b, c₁⟩
    · rw [hr] at h
      cases h
    · rw [hr] at h
      have hfile : c₁.bufferSize = ((bufferSizeRead [file]).map bufferSizeOf).getD c.bufferSize := by
        have hget := get_readcfgLines (readcfgLines_of_readcfg hr) .bufferSize
        rw [Keyed.last_map fun buf _ => assigned_bufferSize (cstr buf)] at hget
        have hread : bufferSizeRead [file] = Keyed.last (fun buf => nameValue (cstr buf)) litbuf
            (linesUntil file.lines) := by
          rw [bufferSizeRead, List.flatMap_singleton, CfgFile.linesRead]
        rw [hread]
        revert hget
        rcases Keyed.last (fun buf => nameValue (cstr buf)) litbuf (linesUntil file.lines)
        · exact fun hget => Value.number.inj hget
        · exact fun hget => Value.number.inj hget
      have hread : bufferSizeRead (file :: files) =
          (bufferSizeRead files).or (bufferSizeRead [file]) := by
        simp only [bufferSizeRead, List.flatMap_cons, List.flatMap_nil, List.append_nil,
          Keyed.last_append]
      -- the later files decide, and then this one
      rw [ih h, hfile, hread]
      rcases bufferSizeRead files with _ | val <;> rfl

/-- Files that are read are a way to settings the program can have. -/
theorem configured_readcfgs {p : Option (List X29Par)} (hc : Configured c p)
    (h : readcfgs files c = .ok c') : ∃ p', Configured c' p' := by
  induction files generalizing c p with
  | nil =>
    cases h
    exact ⟨p, hc⟩
  | cons file files ih =>
    rw [readcfgs] at h
    rcases hr : readcfg file c with f | ⟨b, c₁⟩
    · rw [hr] at h
      cases h
    · rw [hr] at h
      exact ih (hc.readcfg hr) h

/-- **When the settings are usable**, after any files: the text of the last `Buffer_size` line
denotes neither zero nor the largest `int`. -/
theorem usable_iff (h : readcfgs files .defaults = .ok c) :
    c.Usable ↔ ∀ val, bufferSizeRead files = some val → atoi val ≠ 0 ∧ atoi val ≠ 2 ^ 31 - 1 := by
  have hsize := readcfgs_bufferSize h
  constructor
  · intro hu val hval
    have hb := hu.bufferSize
    rw [hsize, hval, Option.map_some, Option.getD_some, bufferSizeOf] at hb
    -- a negative text is replaced by 16000, any other one is taken as it is
    split at hb <;> omega
  · intro hval
    obtain ⟨p, hc⟩ := configured_readcfgs .defaults h
    have hr := hc.inRange
    have hb : 1 ≤ c.bufferSize ∧ c.bufferSize + 1 < 2 ^ 31 := by
      rcases hread : bufferSizeRead files with _ | val
      · have hdef : c.bufferSize = 32000 := by
          rw [hsize, hread]
          rfl
        omega
      -- `atoi` returns an `int`, so the size lies between the two texts that are excluded
      · obtain ⟨hz, hmax⟩ := hval val hread
        have hat := atoi_bounds val
        rw [hread, Option.map_some, Option.getD_some, bufferSizeOf] at hsize
        split at hsize <;> omega
    have hf := hr.forwardtimer
    exact
      { logLevel := hr.logLevel
        watchdogTimeout := hr.watchdogTimeout
        winsizeIn := hr.winsizeIn
        pacsizeIn := hr.pacsizeIn
        forwardtimer := hf
        chaddr := hr.chaddr
        bufferSize := hb
        tvNsec := by omega
        block := by
          rw [int32, Int.bmod_eq_of_le (by omega) (by omega)]
          omega }

end Files

/-- A file with a size, and a second one without. -/
theorem usable_two_files :
    ({ Settings.defaults with logLevel := 10, forwardtimer := 199, bufferSize := 16000 } :
      Settings).Usable := by
  have h : readcfgs [.readable "Buffer_size -5\nlog_level 99\n".toList,
      .readable "Forward_idle_timeout 500\n".toList] .defaults =
      .ok { Settings.defaults with logLevel := 10, forwardtimer := 199, bufferSize := 16000 } := by
    decide
  have hread : bufferSizeRead [.readable "Buffer_size -5\nlog_level 99\n".toList,
      .readable "Forward_idle_timeout 500\n".toList] = some "-5".toList := by
    decide
  refine (usable_iff h).mpr fun val hval => ?_
  rw [hread] at hval
  cases hval
  decide

/-- A buffer size of zero. -/
theorem bufferSize_zero :
    ¬ ∀ (files : List CfgFile) (c : Settings), readcfgs files .defaults = .ok c → c.Usable := by
  intro h
  have hread : readcfgs [.readable "Buffer_size 0\n".toList] .defaults =
      .ok { Settings.defaults with bufferSize := 0 } := by
    decide
  have hb : 1 ≤ (0 : ℤ) := (h _ _ hread).bufferSize.1
  omega

end PadSvr
