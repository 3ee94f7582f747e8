import PadSvr.CString.Stdio
import Mathlib.Data.List.TakeDrop

/-!
# The issue file

`issue_out` prints `/etc/issue.net` chunk by chunk, and replaces letters behind an escape
character. What it prints of a chunk is put together in `bufout`, and whatever has no room there
is left out.

## Main definitions

* `Issue`: the buffer, the position in it and the two variables of the automaton
* `insc`, `insstr`, `issueChar`, `issueOut`: the functions of the source
* `yields`, `pendingNext`, `expand`: the reference expansion

## Main results

* `holds_insc`, `holds_insstr`: both insertions append and cut at the same place
* `issueOut_eq`: what is printed of a chunk, and where the position is meanwhile
-/

namespace PadSvr

open CString

/-- The size of `buf` and `bufout`. -/
def sizeBufout : ℕ := 1000

/-- A string whose length is far below the bound of an `int`, as those of `uname`, `ttyname_r` and
`strftime` are. -/
structure IssueText where
  text : List Char
  length_lt : text.length + sizeBufout < 2 ^ 31
  noNul : ∀ c ∈ text, c ≠ '\x00'

instance : Inhabited IssueText := ⟨⟨[], by decide, nofun⟩⟩

/-- The strings that letters stand for. The one of the terminal is empty if it has no name. -/
structure IssueStrings where
  ttyname : IssueText
  nodename : IssueText
  time : IssueText
  sysname : IssueText
  machine : IssueText
  release : IssueText
  version : IssueText
deriving Inhabited

/-- The locals of `issue_out`, and how many characters it has looked at. -/
structure Issue where
  bufout : List Char
  itout : ℕ
  flagc : Bool
  pcc : Char
  count : ℕ

/-- `memcpy(*where, src, len)`. -/
def memcpy (buf : List Char) (offset : ℕ) (src : List Char) (len : ℕ) : List Char :=
  buf.take offset ++ src.take len ++ buf.drop (offset + len)

/-- `insc`. -/
def insc (s : Issue) (c : Char) : Issue :=
  if s.itout < sizeBufout - 1 then
    { s with bufout := s.bufout.set s.itout c, itout := s.itout + 1 }
  else s

/-- `insstr`. The difference is taken in `size_t`, and `ost` is what an `int` makes of it. -/
def insstr (s : Issue) (src : List Char) : Issue :=
  let ost := int32 (sizeBufout - 1 - (s.itout + src.length))
  let len := if 0 < ost then int32 src.length else sizeBufout - 1 - s.itout
  { s with bufout := memcpy s.bufout s.itout src len.toNat, itout := (s.itout + len).toNat }

/-- The `switch` over a letter behind an escape character. -/
def issueLetter (u : IssueStrings) (s : Issue) (cc : Char) : Issue :=
  if cc = '\n' then s
  else if cc = 'l' then insstr s u.ttyname.text
  else if cc = 'h' ∨ cc = 'n' then insstr s u.nodename.text
  else if cc = 'D' ∨ cc = 'o' then s
  else if cc = 'd' ∨ cc = 't' then insstr s u.time.text
  else if cc = 's' then insstr s u.sysname.text
  else if cc = 'm' then insstr s u.machine.text
  else if cc = 'r' then insstr s u.release.text
  else if cc = 'v' then insstr s u.version.text
  else s

section Source

variable (sys : ℕ → IssueStrings)

/-- A round of the loop over the characters. The strings are those of the moment. -/
def issueChar (s : Issue) (cc : Char) : Issue :=
  let s' :=
    if s.flagc then
      let s' := if cc ≠ s.pcc then issueLetter (sys s.count) s cc else insc s cc
      { s' with flagc := false }
    else if cc = '\\' ∨ cc = '%' then { s with flagc := true }
    else insc { s with flagc := false } cc
  { s' with pcc := cc, count := s.count + 1 }

/-- The loop over the characters of a chunk. -/
def issueChars (s : Issue) (cs : List Char) : Issue := cs.foldl (issueChar sys) s

/-- The state before the characters of a chunk. -/
def Issue.rewind (s : Issue) : Issue := { s with itout := 0 }

/-- `*itout = 0`. -/
def Issue.close (s : Issue) : Issue := { s with bufout := s.bufout.set s.itout '\x00' }

/-- The state after a chunk. -/
def issueChunk (s : Issue) (buf : List Char) : Issue :=
  (issueChars sys s.rewind (cstr buf)).close

/-- The texts that are printed for some chunks. -/
def issueChunks : Issue → List (List Char) → List (List Char)
  | _, [] => []
  | s, buf :: bufs =>
    let s := issueChunk sys s buf
    cstr s.bufout :: issueChunks s bufs

/-- The locals at the start. `pcc` has no value yet. -/
def Issue.start (pcc : Char) : Issue where
  bufout := List.replicate sizeBufout '-'
  itout := 0
  flagc := false
  pcc := pcc
  count := 0

/-- `issue_out`: the texts that are printed for a file. -/
def issueOut (pcc : Char) (text : List Char) : List (List Char) :=
  issueChunks sys (.start pcc) (fgetsLines sizeBufout text)

end Source

/-- The escape characters. -/
def IsEscape (c : Char) : Prop := c = '\\' ∨ c = '%'

instance (c : Char) : Decidable (IsEscape c) := inferInstanceAs (Decidable (_ ∨ _))

/-- The string of a letter; one that is not known has none. -/
def IssueStrings.letter (u : IssueStrings) (c : Char) : List Char :=
  if c = 'l' then u.ttyname.text
  else if c = 'h' ∨ c = 'n' then u.nodename.text
  else if c = 'd' ∨ c = 't' then u.time.text
  else if c = 's' then u.sysname.text
  else if c = 'm' then u.machine.text
  else if c = 'r' then u.release.text
  else if c = 'v' then u.version.text
  else []

/-- What a character yields behind the escape character `p`, if there is one. -/
def yields (u : IssueStrings) (p : Option Char) (c : Char) : List Char :=
  match p with
  | none => if IsEscape c then [] else [c]
  | some e => if c = e then [e] else u.letter c

/-- The escape character that waits for the next character. -/
def pendingNext (p : Option Char) (c : Char) : Option Char :=
  match p with
  | none => if IsEscape c then some c else none
  | some _ => none

/-- The reference expansion of a text, `count` characters being in front of it and `p` the escape
character of those that is not completed. -/
def expand (sys : ℕ → IssueStrings) (count : ℕ) (p : Option Char) : List Char → List Char
  | [] => []
  | c :: cs => yields (sys count) p c ++ expand sys (count + 1) (pendingNext p c) cs

/-- The first 999 characters of the expansions of some chunks. -/
def expandChunks (sys : ℕ → IssueStrings) (count : ℕ) (p : Option Char) :
    List (List Char) → List (List Char)
  | [] => []
  | buf :: bufs =>
    (expand sys count p buf).take (sizeBufout - 1) ::
      expandChunks sys (count + buf.length) (buf.foldl pendingNext p) bufs

/-- The buffer holds what there was room for of `out`. -/
structure Holds (s : Issue) (out : List Char) : Prop where
  length : s.bufout.length = sizeBufout
  itout : s.itout = min (sizeBufout - 1) out.length
  text : s.bufout.take s.itout = out.take (sizeBufout - 1)

section Insert

variable {s : Issue} {out src : List Char} {c : Char}

theorem length_memcpy {buf : List Char} {offset len : ℕ} (hsrc : len ≤ src.length)
    (hbuf : offset + len ≤ buf.length) : (memcpy buf offset src len).length = buf.length := by
  simp only [memcpy, List.length_append, List.length_take, List.length_drop]
  omega

theorem take_memcpy {buf : List Char} {offset len : ℕ} (hsrc : len ≤ src.length)
    (hbuf : offset ≤ buf.length) :
    (memcpy buf offset src len).take (offset + len) = buf.take offset ++ src.take len := by
  refine List.take_left' ?_
  simp only [List.length_append, List.length_take]
  omega

theorem Holds.itout_le (h : Holds s out) : s.itout ≤ 999 := by
  rw [h.itout, sizeBufout]
  omega

/-- What is appended to a text of 999 characters is cut off. -/
theorem Holds.append (h : Holds s out) {s' : Issue} {len : ℕ}
    (hlen : len = min src.length (sizeBufout - 1 - s.itout))
    (hbuf : s'.bufout.length = sizeBufout) (hitout : s'.itout = s.itout + len)
    (htext : s'.bufout.take s'.itout = s.bufout.take s.itout ++ src.take len) :
    Holds s' (out ++ src) := by
  have hs := h.itout
  refine ⟨hbuf, ?_, ?_⟩
  · rw [hitout, List.length_append]
    omega
  · rw [htext, h.text, List.take_append]
    refine congrArg (out.take (sizeBufout - 1) ++ ·) ?_
    -- beyond 999 characters nothing more is taken, on either side
    by_cases hout : out.length ≤ sizeBufout - 1
    · have hmin : sizeBufout - 1 - out.length = sizeBufout - 1 - s.itout := by omega
      rw [hmin, hlen, List.take_eq_take_iff]
      omega
    · have hz : len = 0 := by omega
      have hz' : sizeBufout - 1 - out.length = 0 := by omega
      rw [hz, hz']

theorem holds_insc (h : Holds s out) (c : Char) : Holds (insc s c) (out ++ [c]) := by
  have hle := h.itout_le
  have hbuf := h.length
  rw [sizeBufout] at hbuf
  rw [insc]
  split
  · next hlt =>
    have hmin : 1 = min [c].length (sizeBufout - 1 - s.itout) := by
      rw [List.length_singleton]
      omega
    refine h.append hmin (by simp [h.length]) rfl ?_
    simp only [List.take_add_one, List.take_set_of_le le_rfl, List.getElem?_set_self',
      List.take_zero]
    rw [List.getElem?_eq_getElem (by omega)]
    rfl
  · next hge =>
    have hmin : 0 = min [c].length (sizeBufout - 1 - s.itout) := by omega
    exact h.append hmin h.length rfl (by simp)

/-- The difference in `size_t` tells whether there is room, and both ways put in what there is room
for. -/
theorem holds_insstr (h : Holds s out) (src : IssueText) :
    Holds (insstr s src.text) (out ++ src.text) := by
  have hle := h.itout_le
  have hbuf := h.length
  have hsrc : src.text.length + 1000 < 2 ^ 31 := src.length_lt
  rw [sizeBufout] at hbuf
  have hint : ∀ x : ℤ, -2 ^ 31 ≤ x → x < 2 ^ 31 → int32 x = x :=
    fun x h₁ h₂ => Int.bmod_eq_of_le (by omega) (by omega)
  have hlen : (if 0 < int32 (sizeBufout - 1 - (s.itout + src.text.length)) then int32 src.text.length
      else sizeBufout - 1 - s.itout : ℤ) =
        ((min src.text.length (sizeBufout - 1 - s.itout) : ℕ) : ℤ) := by
    rw [sizeBufout, hint _ (by omega) (by omega), hint _ (by omega) (by omega)]
    split <;> omega
  have hsize : sizeBufout = 1000 := rfl
  have hmem : min src.text.length (sizeBufout - 1 - s.itout) ≤ src.text.length := by omega
  simp only [insstr, hlen, Int.toNat_natCast]
  refine h.append rfl ?_ ?_ ?_
  · rw [length_memcpy hmem (by omega), h.length]
  · simp only
    omega
  · have hadd : ((s.itout : ℤ) + (min src.text.length (sizeBufout - 1 - s.itout) : ℕ)).toNat =
        s.itout + min src.text.length (sizeBufout - 1 - s.itout) := by omega
    simp only [hadd]
    exact take_memcpy hmem (by omega)

end Insert

section Chunk

variable {sys : ℕ → IssueStrings} {s : Issue} {out : List Char} {p : Option Char} {cc : Char}

/-- The two variables of the automaton stand for the escape character that is not completed. -/
def Pends (s : Issue) (p : Option Char) : Prop := p = if s.flagc then some s.pcc else none

theorem holds_issueLetter (u : IssueStrings) (h : Holds s out) (cc : Char) :
    Holds (issueLetter u s cc) (out ++ u.letter cc) := by
  have hid : Holds s (out ++ []) := by rwa [List.append_nil]
  rw [issueLetter, IssueStrings.letter]
  by_cases hnl : cc = '\n'
  · subst hnl
    exact hid
  · by_cases hl : cc = 'l'
    · simp only [if_neg hnl, if_pos hl]
      exact holds_insstr h _
    · by_cases hD : cc = 'D' ∨ cc = 'o'
      -- the letters that are known and stand for nothing
      · rcases hD with rfl | rfl <;> exact hid
      · simp only [if_neg hnl, if_neg hl, if_neg hD]
        split_ifs <;> first | exact holds_insstr h _ | exact hid

/-- The buffer, not the variables of the automaton, decides what it holds. -/
theorem Holds.congr {s' : Issue} (h : Holds s out) (hbuf : s'.bufout = s.bufout)
    (hitout : s'.itout = s.itout) : Holds s' out :=
  ⟨hbuf ▸ h.length, hitout ▸ h.itout, by rw [hbuf, hitout, h.text]⟩

/-- **One character**: what it yields is appended. -/
theorem holds_issueChar (h : Holds s out) (hp : Pends s p) (cc : Char) :
    Holds (issueChar sys s cc) (out ++ yields (sys s.count) p cc) ∧
      Pends (issueChar sys s cc) (pendingNext p cc) ∧
      (issueChar sys s cc).count = s.count + 1 := by
  subst hp
  cases hflag : s.flagc with
  | true =>
    simp only [issueChar, hflag, if_true, yields, pendingNext]
    refine ⟨?_, rfl, trivial⟩
    by_cases hcc : cc = s.pcc
    · rw [if_pos hcc, hcc]
      -- the escape character a second time: it yields itself
      simp only [ne_eq, not_true_eq_false, if_false]
      exact (holds_insc h s.pcc).congr rfl rfl
    · rw [if_neg hcc]
      simp only [ne_eq, hcc, not_false_eq_true, if_true]
      exact (holds_issueLetter (sys s.count) h cc).congr rfl rfl
  | false =>
    -- an escape character opens an escape, any other goes to the buffer
    by_cases hesc : IsEscape cc
    · have hesc' : cc = '\\' ∨ cc = '%' := hesc
      simp only [issueChar, hflag, Bool.false_eq_true, if_false, if_pos hesc', yields, pendingNext,
        if_pos hesc, List.append_nil]
      exact ⟨h.congr rfl rfl, rfl, trivial⟩
    · have hesc' : ¬ (cc = '\\' ∨ cc = '%') := hesc
      simp only [issueChar, hflag, Bool.false_eq_true, if_false, if_neg hesc', yields, pendingNext,
        if_neg hesc]
      have hflag' : (insc { s with flagc := false } cc).flagc = false := by
        rw [insc]
        split <;> rfl
      have h₀ : Holds { s with flagc := false } out := h.congr rfl rfl
      refine ⟨(holds_insc h₀ cc).congr rfl rfl, ?_, trivial⟩
      rw [Pends, hflag']
      rfl

/-- **The characters of a chunk**, by the step for one of them. -/
theorem holds_issueChars (cs : List Char) : ∀ (s : Issue) (out : List Char) (p : Option Char),
    Holds s out → Pends s p →
      Holds (issueChars sys s cs) (out ++ expand sys s.count p cs) ∧
        Pends (issueChars sys s cs) (cs.foldl pendingNext p) ∧
        (issueChars sys s cs).count = s.count + cs.length := by
  induction cs with
  | nil =>
    intro s out p h hp
    refine ⟨?_, hp, rfl⟩
    rwa [expand, List.append_nil]
  | cons c cs ih =>
    intro s out p h hp
    obtain ⟨h', hp', hcount⟩ := holds_issueChar h hp c
    obtain ⟨hend, hpend, hcend⟩ := ih _ _ _ h' hp'
    refine ⟨?_, hpend, ?_⟩
    · rw [expand, ← List.append_assoc, ← hcount]
      exact hend
    · rw [List.length_cons, Nat.add_comm cs.length, ← Nat.add_assoc, ← hcount]
      exact hcend

end Chunk

section File

variable {sys : ℕ → IssueStrings} {s : Issue} {p : Option Char} {buf : List Char}

/-- The state between two chunks. -/
structure AtChunk (s : Issue) (p : Option Char) : Prop where
  length : s.bufout.length = sizeBufout
  pends : Pends s p

theorem AtChunk.holds (h : AtChunk s p) : Holds s.rewind [] := ⟨h.length, rfl, rfl⟩

theorem noNul_letter (u : IssueStrings) (c : Char) : ∀ x ∈ u.letter c, x ≠ '\x00' := by
  rw [IssueStrings.letter]
  split_ifs <;> first | exact IssueText.noNul _ | simp

theorem noNul_expand (hbuf : ∀ c ∈ buf, c ≠ '\x00') (count : ℕ) (p : Option Char) :
    ∀ c ∈ expand sys count p buf, c ≠ '\x00' := by
  induction buf generalizing count p with
  | nil => simp [expand]
  | cons c cs ih =>
    have hc := hbuf c List.mem_cons_self
    intro x hx
    rw [expand, List.mem_append] at hx
    rcases hx with hx | hx
    · rcases p with _ | e
      · rw [yields] at hx
        split at hx
        · cases hx
        · rwa [List.mem_singleton.mp hx]
      · rw [yields] at hx
        split at hx
        · next hce => rwa [List.mem_singleton.mp hx, ← hce]
        · exact noNul_letter _ c x hx
    · exact ih (fun y hy => hbuf y (List.mem_cons_of_mem c hy)) _ _ x hx

/-- **A chunk**: the terminator is inside the buffer, and what is in front of it is what there was
room for. -/
theorem ready_issueChunk (h : AtChunk s p) (hbuf : ∀ c ∈ buf, c ≠ '\x00') :
    cstr (issueChunk sys s buf).bufout = (expand sys s.count p buf).take (sizeBufout - 1) ∧
      AtChunk (issueChunk sys s buf) (buf.foldl pendingNext p) ∧
      (issueChunk sys s buf).count = s.count + buf.length := by
  obtain ⟨hend, hpend, hcend⟩ := holds_issueChars buf _ _ p h.holds h.pends
  rw [issueChunk, cstr_of_noNul hbuf]
  refine ⟨?_, ⟨?_, hpend⟩, hcend⟩
  · have hlt : (issueChars sys s.rewind buf).itout < (issueChars sys s.rewind buf).bufout.length := by
      have hle := hend.itout_le
      rw [hend.length, sizeBufout]
      omega
    rw [Issue.close, cstr_set_nul hlt, hend.text]
    · rfl
    · intro c hc
      rw [hend.text] at hc
      exact noNul_expand hbuf _ _ c (List.mem_of_mem_take hc)
  · rw [Issue.close, List.length_set, hend.length]

theorem issueChunks_eq {bufs : List (List Char)} (h : AtChunk s p)
    (hbufs : ∀ buf ∈ bufs, ∀ c ∈ buf, c ≠ '\x00') :
    issueChunks sys s bufs = expandChunks sys s.count p bufs := by
  induction bufs generalizing s p with
  | nil => rfl
  | cons buf bufs ih =>
    obtain ⟨htext, hready, hcount⟩ :=
      ready_issueChunk h (hbufs buf List.mem_cons_self)
    rw [issueChunks, expandChunks, htext, ← hcount]
    exact congrArg _ (ih hready fun b hb => hbufs b (List.mem_cons_of_mem buf hb))

theorem ready_foldl_issueChunk {bufs : List (List Char)} (h : AtChunk s p)
    (hbufs : ∀ buf ∈ bufs, ∀ c ∈ buf, c ≠ '\x00') :
    ∃ p', AtChunk (bufs.foldl (issueChunk sys) s) p' := by
  induction bufs generalizing s p with
  | nil => exact ⟨p, h⟩
  | cons buf bufs ih =>
    obtain ⟨-, hready, -⟩ := ready_issueChunk h (hbufs buf List.mem_cons_self)
    exact ih hready fun b hb => hbufs b (List.mem_cons_of_mem buf hb)

/-- **The issue file is expanded**, each chunk to its first 999 characters, and an escape character
at the end of a chunk waits for the next one. The position is never past 999. -/
theorem issueOut_eq (sys : ℕ → IssueStrings) (pcc : Char) {text : List Char}
    (htext : ∀ c ∈ text, c ≠ '\x00') :
    issueOut sys pcc text = expandChunks sys 0 none (fgetsLines sizeBufout text) ∧
      ∀ pre buf post w, fgetsLines sizeBufout text = pre ++ buf :: post → w <+: buf →
        (issueChars sys (pre.foldl (issueChunk sys) (.start pcc)).rewind w).itout ≤ 999 := by
  have hstart : AtChunk (.start pcc) none := ⟨List.length_replicate, rfl⟩
  have hlines : ∀ buf ∈ fgetsLines sizeBufout text, ∀ c ∈ buf, c ≠ '\x00' := by
    intro buf hbuf c hc
    refine htext c ?_
    rw [← flatten_fgetsLines sizeBufout text]
    exact List.mem_flatten.mpr ⟨buf, hbuf, hc⟩
  -- the position in the middle of a chunk, from the state behind the chunks before it
  refine ⟨issueChunks_eq hstart hlines, fun pre buf post w hsplit hw => ?_⟩
  have hpre : ∀ b ∈ pre, ∀ c ∈ b, c ≠ '\x00' := fun b hb => hlines b (by simp [hsplit, hb])
  obtain ⟨p, hready⟩ := ready_foldl_issueChunk hstart hpre
  exact (holds_issueChars w _ _ p hready.holds hready.pends).1.itout_le

theorem issueOut_eq_percent :
    issueOut (fun _ => default) '-' "5%%\n".toList =
        expandChunks (fun _ => default) 0 none (fgetsLines sizeBufout "5%%\n".toList) ∧
      ∀ pre buf post w, fgetsLines sizeBufout "5%%\n".toList = pre ++ buf :: post → w <+: buf →
        (issueChars (fun _ => default)
          (pre.foldl (issueChunk fun _ => default) (.start '-')).rewind w).itout ≤ 999 :=
  issueOut_eq _ _ (by simp)

example : issueOut (fun _ => default) '-' "5%%\n".toList = ["5%\n".toList] := by decide +kernel

end File

end PadSvr
