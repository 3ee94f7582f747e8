import PadSvr.X29.Profile

/-!
# The X.29 Set message

`x29set_default` copies the profile into a buffer, behind the Q byte and the code of the message.
`X29_profile_len` serves it twice: as the index of the last pair, and, being zero, as the sign that
no profile was read. The length of the default table is a count, but the loop takes it for an index
as well.

## Main definitions

* `x29SetMessage behind c`: the message, if one is sent, or the fault of the copy loop
* `messageOf p`: the same by the profile that was read last

## Main results

* `x29SetMessage_eq`: what the message is, for every profile read last
* `x29SetMessage_file_iff`: when the message carries the profile of a file
* `x29_within_arrays_iff`: when the profile arrays and the buffer are kept to
-/

namespace PadSvr

open CString

/-- `X29_profile_default`. -/
def x29ProfileDefault : List X29Par := [⟨1, 0⟩, ⟨2, 0⟩, ⟨3, 0⟩, ⟨4, 1⟩, ⟨13, 4⟩, ⟨15, 0⟩]

/-- `X29_profile_default_len`. -/
def x29ProfileDefaultLen : ℤ := 6

/-- The code `X29Set`. -/
def x29Set : UInt8 := 2

/-- The bytes of pairs, as a message has them. -/
def parBytes (pars : List X29Par) : List UInt8 := pars.flatMap fun p => [p.parRef, p.parValue]

/-- `n` more rounds of the copy loop, from index `i`, with the bytes `buf` in the buffer. -/
def x29Fill (table : List X29Par) : ℕ → ℕ → List UInt8 → Except Fault (List UInt8)
  | 0, _, buf => .ok buf
  | n + 1, i, buf =>
    match table[i]? with
    | none => .error .outOfBounds
    | some p =>
      if buf.length + 2 ≤ 2 * maxX29Profile then
        x29Fill table n (i + 1) (buf ++ [p.parRef, p.parValue])
      else .error .outOfBounds

/-- What `x29set_default` hands to `writensockint`: nothing after a loop without rounds. The pairs
`behind` are what the memory holds behind the default table, where reading is no fault. -/
def x29SetMessage (behind : List X29Par) (c : Settings) : Except Fault (Option (List UInt8)) :=
  let (table, len) :=
    if c.x29ProfileLen = 0 then (x29ProfileDefault ++ behind, x29ProfileDefaultLen)
    else (c.x29Profile, c.x29ProfileLen)
  -- the loop runs while `i <= len`, and leaves `i` at the number of its rounds
  let rounds := (len + 1).toNat
  (x29Fill table rounds 0 [0x01, x29Set]).map fun buf => if 0 < rounds then some buf else none

/-- The message by the profile that was read last. -/
def messageOf : Option (List X29Par) → Except Fault (Option (List UInt8))
  | none => .error .outOfBounds
  | some [] => .ok none
  | some [_] => .error .outOfBounds
  | some pars =>
    if pars.length < maxX29Profile then .ok (some (0x01 :: x29Set :: parBytes pars))
    else .error .outOfBounds

section Fill

variable {table : List X29Par} {n i : ℕ} {buf : List UInt8}

@[simp] theorem length_parBytes (pars : List X29Par) :
    (parBytes pars).length = 2 * pars.length := by
  induction pars with
  | nil => rfl
  | cons p pars ih =>
    simp only [parBytes, List.flatMap_cons, List.length_append, List.length_cons,
      List.length_nil] at ih ⊢
    omega

theorem parBytes_inj : ∀ {pars pars' : List X29Par}, parBytes pars = parBytes pars' → pars = pars'
  | [], [], _ => rfl
  | [], _ :: _, h => by simp [parBytes] at h
  | _ :: _, [], h => by simp [parBytes] at h
  | ⟨r, v⟩ :: pars, ⟨r', v'⟩ :: pars', h => by
    obtain ⟨rfl, rfl, ht⟩ : r = r' ∧ v = v' ∧ parBytes pars = parBytes pars' := by
      simpa [parBytes] using h
    rw [parBytes_inj ht]

/-- Rounds that stay within the table and the buffer. -/
theorem x29Fill_ok (ht : i + n ≤ table.length) (hb : buf.length + 2 * n ≤ 2 * maxX29Profile) :
    x29Fill table n i buf = .ok (buf ++ parBytes ((table.drop i).take n)) := by
  induction n generalizing i buf with
  | zero => simp [x29Fill, parBytes]
  | succ n ih =>
    have hi : i < table.length := by omega
    rw [x29Fill, List.getElem?_eq_getElem hi]
    simp only
    rw [if_pos (by omega), ih (by omega) (by simp; omega), List.drop_eq_getElem_cons hi,
      List.take_succ_cons]
    simp [parBytes]

/-- Rounds that leave the table or the buffer. -/
theorem x29Fill_error (hn : 0 < n)
    (h : table.length < i + n ∨ 2 * maxX29Profile < buf.length + 2 * n) :
    x29Fill table n i buf = .error .outOfBounds := by
  induction n generalizing i buf with
  | zero => omega
  | succ n ih =>
    rw [x29Fill]
    rcases ht : table[i]? with _ | p
    · rfl
    · have hi : i < table.length := (List.getElem?_eq_some_iff.mp ht).1
      simp only
      split
      · refine ih ?_ ?_
        · omega
        · simp
          omega
      · rfl

end Fill

section Message

variable {c : Settings} {p : Option (List X29Par)} {pars : List X29Par}

/-- A profile of two pairs or more, as long as the buffer has room for it. -/
theorem x29SetMessage_read (h : c.HoldsProfile (some pars)) (h2 : 2 ≤ pars.length)
    (behind : List X29Par) :
    x29SetMessage behind c =
      if pars.length < maxX29Profile then .ok (some (0x01 :: x29Set :: parBytes pars))
      else .error .outOfBounds := by
  obtain ⟨hle, hlen, hpre⟩ := h.read pars rfl
  have hlen0 : c.x29ProfileLen ≠ 0 := by omega
  have hr : (c.x29ProfileLen + 1).toNat = pars.length := by omega
  have htab : c.x29Profile.length = 25 := h.length
  have hmax : maxX29Profile = 25 := rfl
  have hpos : 0 < pars.length := by omega
  simp only [x29SetMessage, if_neg hlen0, hr, if_pos hpos]
  split
  · next hlt =>
    rw [x29Fill_ok (by omega) (by simp; omega), List.drop_zero, ← List.prefix_iff_eq_take.mp hpre]
    simp [Except.map]
  · rw [x29Fill_error (by omega) (Or.inr (by simp; omega))]
    rfl

/-- A profile without pairs: no message. -/
theorem x29SetMessage_nil (h : c.HoldsProfile (some [])) (behind : List X29Par) :
    x29SetMessage behind c = .ok none := by
  obtain ⟨-, hlen, -⟩ := h.read [] rfl
  have hlen : c.x29ProfileLen = -1 := hlen
  simp [x29SetMessage, hlen, x29Fill, Except.map]

/-- The length zero: seven pairs are sent, the last one from behind the default table. -/
theorem length_of_x29SetMessage_default (h : c.x29ProfileLen = 0) {behind : List X29Par}
    {msg : List UInt8} (hm : x29SetMessage behind c = .ok (some msg)) : msg.length = 16 := by
  simp only [x29SetMessage, h, if_true, x29ProfileDefaultLen] at hm
  have hm : (x29Fill (x29ProfileDefault ++ behind) 7 0 [0x01, x29Set]).map
      (fun buf => some buf) = .ok (some msg) := hm
  by_cases hb : behind = []
  · rw [hb, x29Fill_error (by decide) (Or.inl (by decide))] at hm
    cases hm
  · have hpos : 0 < behind.length := List.length_pos_iff.mpr hb
    have htab : 0 + 7 ≤ (x29ProfileDefault ++ behind).length := by
      simp only [List.length_append, x29ProfileDefault, List.length_cons, List.length_nil]
      omega
    rw [x29Fill_ok htab (by decide)] at hm
    cases hm
    simp only [List.length_append, length_parBytes, List.length_take, List.length_drop,
      List.length_cons, List.length_nil] at htab ⊢
    omega

/-- The length zero: the default table, and a read behind its end. -/
theorem x29SetMessage_default (h : c.x29ProfileLen = 0) :
    x29SetMessage [] c = .error .outOfBounds := by
  have hfill : x29Fill x29ProfileDefault 7 0 [0x01, x29Set] = .error .outOfBounds :=
    x29Fill_error (by decide) (Or.inl (by decide))
  simp only [x29SetMessage, h, if_true, List.append_nil, x29ProfileDefaultLen]
  show (x29Fill x29ProfileDefault 7 0 [0x01, x29Set]).map _ = _
  rw [hfill]
  rfl

/-- **What `x29set_default` sends**, for every profile that was read last. -/
theorem x29SetMessage_eq (h : c.HoldsProfile p) : x29SetMessage [] c = messageOf p := by
  match p with
  | none => exact x29SetMessage_default (h.unread rfl)
  | some [] => exact x29SetMessage_nil h []
  | some [q] => exact x29SetMessage_default (h.read [q] rfl).2.1
  | some (q :: q' :: pars) => exact x29SetMessage_read h (by simp) []

/-- **When the message carries the profile of the file**: `readcfg` comes to the last profile line,
or to one with the same pairs, and it has two pairs at least. A program that has read no profile
never sends the default one. -/
theorem x29SetMessage_file_iff {c' : Settings} {file : CfgFile} {b : Bool} (h : Configured c p)
    (hr : readcfg file c = .ok (b, c')) :
    (∀ pars, file.profile = some pars → 1 ≤ pars.length →
      2 + 2 * pars.length ≤ 2 * maxX29Profile →
        (x29SetMessage [] c' = .ok (some (0x01 :: x29Set :: parBytes pars)) ↔
          file.profileAfter p = some pars ∧ 2 ≤ pars.length)) ∧
      (file.profileAfter p = none →
        x29SetMessage [] c' ≠ .ok (some (0x01 :: x29Set :: parBytes x29ProfileDefault))) := by
  have hq := x29SetMessage_eq (h.readcfg hr).holds
  have hmax : maxX29Profile = 25 := rfl
  refine ⟨fun pars _ h1 hfit => ?_, fun hnone => ?_⟩
  · rw [hq]
    -- the cases are those of the profile in effect, which need not be the last one of the file
    rcases file.profileAfter p with _ | ⟨_ | ⟨q, _ | ⟨q', pars'⟩⟩⟩
    · simp [messageOf]
    · simp only [messageOf, Except.ok.injEq, reduceCtorEq, Option.some.injEq, false_iff, not_and]
      rintro rfl
      simp at h1
    · simp only [messageOf, reduceCtorEq, Option.some.injEq, false_iff, not_and]
      rintro rfl
      simp
    · simp only [messageOf, Option.some.injEq]
      constructor
      · intro hm
        split at hm
        · simp only [Except.ok.injEq, Option.some.injEq, List.cons.injEq, true_and] at hm
          have hp := parBytes_inj hm
          exact ⟨hp, by simp [← hp]⟩
        · cases hm
      · rintro ⟨rfl, -⟩
        rw [if_pos (by omega)]
  · rw [hq, hnone]
    simp [messageOf]

theorem x29SetMessage_file_two_pairs :
    (readcfg (.readable "x29_profile 2:1,3:2".toList) .defaults).bind
        (fun r => x29SetMessage [] r.2) = .ok (some [1, 2, 2, 1, 3, 2]) := by
  have hr : readcfg (.readable "x29_profile 2:1,3:2".toList) .defaults =
      .ok (true, CfgLine.apply (.x29Profile [⟨2, 1⟩, ⟨3, 2⟩]) .defaults) := by decide
  rw [hr]
  exact ((x29SetMessage_file_iff .defaults hr).1 [⟨2, 1⟩, ⟨3, 2⟩] (by decide) (by decide)
    (by decide)).mpr (by decide)

/-- A file with one pair, and no file at all: what is sent is taken from behind the default
table. -/
theorem x29SetMessage_one_pair :
    (CfgFile.readable "x29_profile 5:1".toList).profile = some [⟨5, 1⟩] ∧
      (readcfg (.readable "x29_profile 5:1".toList) .defaults).bind
        (fun r => x29SetMessage [] r.2) ≠ .ok (some (0x01 :: x29Set :: parBytes [⟨5, 1⟩])) ∧
      x29SetMessage [] .defaults ≠
        .ok (some (0x01 :: x29Set :: parBytes x29ProfileDefault)) := by decide

/-- **When the arrays of the profile are kept to.** `readcfg` writes no further than
`X29_profile` goes if no line it looks at yields more pairs. `x29set_default` reads and writes
within its arrays if a profile was read, with no pair or with 2 to 24 of them. -/
theorem x29_within_arrays_iff (h : Configured c p) (file : CfgFile) :
    (readcfg file c ≠ .error .outOfBounds ↔
      ∀ buf ∈ file.linesRead, ∀ pars, linePars (cstr buf) = some pars →
        pars.length ≤ maxX29Profile) ∧
      (x29SetMessage [] c ≠ .error .outOfBounds ↔
        ∃ pars, p = some pars ∧ pars.length ≠ 1 ∧ pars.length < maxX29Profile) := by
  refine ⟨readcfg_ne_outOfBounds_iff, ?_⟩
  rw [x29SetMessage_eq h.holds]
  rcases p with _ | ⟨_ | ⟨q, _ | ⟨q', pars⟩⟩⟩
  · simp [messageOf]
  · simp [messageOf, maxX29Profile]
  · simp [messageOf]
  · simp [messageOf]

theorem x29_within_arrays_two_pairs :
    (readcfg (.readable "x29_profile 2:1,3:2".toList) .defaults ≠ .error .outOfBounds) ∧
      x29SetMessage [] Settings.defaults = .error .outOfBounds := by
  obtain ⟨hread, hset⟩ :=
    x29_within_arrays_iff .defaults (.readable "x29_profile 2:1,3:2".toList)
  refine ⟨hread.mpr (by decide), ?_⟩
  by_contra hne
  obtain ⟨pars, hp, -⟩ := hset.mp hne
  cases hp

/-- A line of 26 pairs, and the settings of a program that has read no profile. -/
theorem x29_outside_arrays :
    readcfg (.readable ("x29_profile ".toList ++ (List.replicate 26 "1:0,".toList).flatten))
        .defaults = .error .outOfBounds ∧
      x29SetMessage [] .defaults = .error .outOfBounds := by decide

end Message

end PadSvr
