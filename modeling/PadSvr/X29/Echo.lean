import PadSvr.Writecfg
import Mathlib.Data.List.Basic
import Mathlib.Algebra.Order.Ring.Nat

/-!
# The profile in the log

`x29profile_echo` writes the pairs of the profile to the log, in the form they have in the file.
It counts on five characters for a pair in a buffer of 140, and says nothing of a profile that is
as short as possible.

## Main definitions

* `parText par`: the text of a pair
* `x29profileEcho c`: the text that is printed, if there is one
* `IsProfile pars`: the profiles that the file can give
* `Echoed pars`: the text is the profile, and is read as such

## Main results

* `foldl_echoEntry`: the text before its last character is taken off
* `echoed_iff`: which profiles are echoed
-/

namespace PadSvr

open CString

/-- The text of a pair. -/
def parText (par : X29Par) : List Char :=
  decimal par.parRef.toNat ++ ':' :: decimal par.parValue.toNat

/-- The size of the buffer of `x29profile_echo`. -/
def sizeEcho : ℕ := maxX29Profile * 5 + 15

/-- A round of the loop: `snprintf` to the end of the string in the buffer. -/
def echoEntry (buf : List Char) (par : X29Par) : List Char :=
  let len := buf.length
  buf ++ (parText par ++ [',']).take (sizeEcho - len - 1)

/-- `x29profile_echo`: what is printed behind the name, if there is anything. -/
def x29profileEcho (c : Settings) : Option (List Char) :=
  if 0 < c.x29ProfileLen then
    -- the last comma, or whatever is last, is taken off
    some ((c.x29Profile.take (c.x29ProfileLen + 1).toNat).foldl echoEntry []).dropLast
  else none

/-- A profile that `readcfg` can store. -/
structure IsProfile (pars : List X29Par) : Prop where
  ne_nil : pars ≠ []
  length_le : pars.length ≤ maxX29Profile
  parRef : ∀ par ∈ pars, 1 ≤ par.parRef ∧ par.parRef ≤ 30

instance (pars : List X29Par) : Decidable (IsProfile pars) :=
  decidable_of_iff (pars ≠ [] ∧ pars.length ≤ maxX29Profile ∧
      pars.all fun par => 1 ≤ par.parRef ∧ par.parRef ≤ 30)
    ⟨fun h => ⟨h.1, h.2.1, by simpa using h.2.2⟩,
      fun h => ⟨h.ne_nil, h.length_le, by simpa using h.parRef⟩⟩

/-- The pairs of a profile with commas between them. -/
def profileText (pars : List X29Par) : List Char := List.intercalate [','] (pars.map parText)

/-- The characters of all pairs, a comma behind each of them. -/
def echoLength (pars : List X29Par) : ℕ := (pars.map fun par => (parText par).length + 1).sum

/-- Once `pars` is stored, its text is printed, and an entry with that text stores it again. -/
def Echoed (pars : List X29Par) : Prop :=
  (∀ c, x29profileEcho ((CfgLine.x29Profile pars).apply c) = some (profileText pars)) ∧
    EntryReads litx29 (profileText pars) (.x29Profile pars)

section Text

variable {pars : List X29Par} {par : X29Par}

theorem take_append_take {α : Type*} (n : ℕ) (l m : List α) :
    (l.take n ++ m).take n = (l ++ m).take n := by
  rw [List.take_append, List.take_append, List.take_take, min_self, List.length_take]
  refine congrArg (l.take n ++ ·) ?_
  rcases le_total n l.length with h | h
  · simp [h]
  · rw [min_eq_right h]

/-- **The text that is put together** is the whole one as far as there is room. -/
theorem foldl_echoEntry : ∀ (pars : List X29Par) (buf : List Char), buf.length ≤ sizeEcho - 1 →
    pars.foldl echoEntry buf =
      (buf ++ pars.flatMap fun par => parText par ++ [',']).take (sizeEcho - 1)
  | [], buf, hbuf => by simp [List.take_of_length_le hbuf]
  | par :: pars, buf, hbuf => by
    -- `snprintf` leaves one place for its NUL
    have hroom : sizeEcho - buf.length - 1 = sizeEcho - 1 - buf.length := by omega
    have hentry : echoEntry buf par = (buf ++ (parText par ++ [','])).take (sizeEcho - 1) := by
      conv_rhs => rw [List.take_append, List.take_of_length_le hbuf]
      rw [echoEntry, hroom]
    have hlen : (echoEntry buf par).length ≤ sizeEcho - 1 := by
      rw [hentry]
      exact List.length_take_le ..
    rw [List.foldl_cons, foldl_echoEntry pars _ hlen, hentry, take_append_take, List.flatMap_cons,
      List.append_assoc]

theorem flatMap_parText (hne : pars ≠ []) :
    pars.flatMap (fun par => parText par ++ [',']) = profileText pars ++ [','] := by
  induction pars with
  | nil => exact absurd rfl hne
  | cons par pars ih =>
    rw [List.flatMap_cons, profileText]
    cases pars with
    | nil => simp
    | cons par' pars =>
      rw [ih (List.cons_ne_nil _ _), List.map_cons, List.map_cons, List.intercalate_cons_cons,
        profileText, List.map_cons, List.append_assoc, List.append_assoc, List.append_assoc]

theorem length_flatMap_parText :
    (pars.flatMap fun par => parText par ++ [',']).length = echoLength pars := by
  rw [List.length_flatMap, echoLength]
  simp

/-- What the echo prints of a profile with more than one pair. -/
theorem x29profileEcho_apply (c : Settings) (h : 2 ≤ pars.length) :
    x29profileEcho ((CfgLine.x29Profile pars).apply c) =
      some ((profileText pars ++ [',']).take (sizeEcho - 1)).dropLast := by
  have hne : pars ≠ [] := by
    rintro rfl
    simp at h
  have hlen : ((CfgLine.x29Profile pars).apply c).x29ProfileLen = pars.length - 1 := rfl
  have hpars : ((CfgLine.x29Profile pars).apply c).x29Profile =
      pars ++ c.x29Profile.drop pars.length := rfl
  have hcount : (pars.length - 1 + 1 : ℤ).toNat = pars.length := by omega
  rw [x29profileEcho, hlen, hpars, hcount, List.take_left, if_pos (by omega),
    foldl_echoEntry pars [] (by simp), List.nil_append, flatMap_parText hne]

end Text

section Read

variable {pars : List X29Par} {par : X29Par}

theorem length_decimal_byte (c : UInt8) :
    0 < (decimal c.toNat).length ∧ (decimal c.toNat).length ≤ 3 := by
  have hlt := c.toNat_lt
  exact ⟨List.length_pos_iff.mpr (decimal_ne_nil _),
    (length_decimal_le_iff (by decide)).mpr (by omega)⟩

/-- The text of a pair has 3 to 6 characters. -/
theorem length_parText (h : par.parRef ≤ 30) :
    2 < (parText par).length ∧ (parText par).length < 7 := by
  have hle : par.parRef.toNat ≤ 30 := UInt8.le_iff_toNat_le.mp h
  have href : (decimal par.parRef.toNat).length ≤ 2 :=
    (length_decimal_le_iff (by decide)).mpr (by omega)
  have href0 := (length_decimal_byte par.parRef).1
  have hval := length_decimal_byte par.parValue
  rw [parText, List.length_append, List.length_cons]
  omega

theorem isDigit_or_of_mem_parText {c : Char} (h : c ∈ parText par) : c.isDigit ∨ c = ':' := by
  rw [parText, List.mem_append, List.mem_cons] at h
  rcases h with h | h | h
  · exact Or.inl (isDigit_of_mem_decimal h)
  · exact Or.inr h
  · exact Or.inl (isDigit_of_mem_decimal h)

/-- **A pair is read as it was written.** -/
theorem x29Pair_parText (h1 : 1 ≤ par.parRef) (h30 : par.parRef ≤ 30) :
    x29Pair (parText par) = some par := by
  have hlo : 1 ≤ par.parRef.toNat := UInt8.le_iff_toNat_le.mp h1
  have hhi : par.parRef.toNat ≤ 30 := UInt8.le_iff_toNat_le.mp h30
  have hval := par.parValue.toNat_lt
  have hcolon : ∀ n : ℕ, ∀ c ∈ decimal n, c ∉ [':'] := by
    intro n c hc hmem
    have hd := isDigit_of_mem_decimal hc
    rw [List.mem_singleton.mp hmem] at hd
    simp at hd
  have href : strtok [':'] (parText par) =
      some (decimal par.parRef.toNat, decimal par.parValue.toNat) :=
    strtok_token (decimal_ne_nil _) (hcolon _) (by simp) _
  have hrest : strtok [':'] (decimal par.parValue.toNat) = some (decimal par.parValue.toNat, []) :=
    strtok_last (decimal_ne_nil _) (hcolon _)
  have hbounds : 1 ≤ (par.parRef.toNat : ℤ) ∧ (par.parRef.toNat : ℤ) ≤ 30 ∧
      0 ≤ (par.parValue.toNat : ℤ) ∧ (par.parValue.toNat : ℤ) ≤ 255 := by omega
  -- the reference ends at the colon, and the value at the end
  rw [x29Pair, if_pos (length_parText h30), href]
  simp only [hrest, atoi_decimal (show par.parRef.toNat < 2 ^ 31 by omega),
    atoi_decimal (show par.parValue.toNat < 2 ^ 31 by omega)]
  rw [if_pos hbounds]
  simp

/-- The tokens of a profile's text are those of its pairs. -/
theorem strtoks_profileText : strtoks [','] (profileText pars) = pars.map parText := by
  refine strtoks_intercalate (List.mem_singleton_self _) fun w hw => ?_
  obtain ⟨par, -, rfl⟩ := List.mem_map.mp hw
  refine ⟨by simp [parText], fun c hc hmem => ?_⟩
  rw [List.mem_singleton.mp hmem] at hc
  rcases isDigit_or_of_mem_parText hc with h | h <;> simp at h

theorem cfgX29_profileText (h : IsProfile pars) :
    cfgX29 (profileText pars) = .ok (.x29Profile pars) := by
  have hpairs : (pars.map parText).filterMap x29Pair = pars := by
    rw [List.filterMap_map]
    refine (List.filterMap_congr fun par hpar => ?_).trans List.filterMap_some
    exact x29Pair_parText (h.parRef par hpar).1 (h.parRef par hpar).2
  rw [cfgX29, strtoks_profileText]
  rcases hmap : pars.map parText with _ | ⟨tok, toks⟩
  · exact absurd (List.map_eq_nil_iff.mp hmap) h.ne_nil
  · rw [hmap] at hpairs
    simp only [hpairs, h.length_le, if_true]

theorem isValue_profileText (h : IsProfile pars) : IsValue (profileText pars) := by
  have hchar : ∀ c ∈ profileText pars, c.isDigit ∨ c = ':' ∨ c = ',' := by
    intro c hc
    have hmem : c ∈ profileText pars ++ [','] := List.mem_append_left _ hc
    rw [← flatMap_parText h.ne_nil, List.mem_flatMap] at hmem
    obtain ⟨par, -, hc⟩ := hmem
    rcases List.mem_append.mp hc with hc | hc
    · rcases isDigit_or_of_mem_parText hc with hd | hd
      · exact Or.inl hd
      · exact Or.inr (Or.inl hd)
    · exact Or.inr (Or.inr (List.mem_singleton.mp hc))
  refine ⟨?_, fun c hc hb => ?_, fun c hc h0 => ?_⟩
  · obtain ⟨par, pars', rfl⟩ := List.exists_cons_of_ne_nil h.ne_nil
    intro hnil
    have htoks : strtoks [','] (profileText (par :: pars')) = _ := strtoks_profileText
    rw [hnil] at htoks
    cases htoks
  · have hblank : ∀ y ∈ " \t\n".toList, y.isDigit = false ∧ y ≠ ':' ∧ y ≠ ',' :=
      List.all_iff_forall_prop.mp (by decide)
    obtain ⟨h₁, h₂, h₃⟩ := hblank c hb
    rcases hchar c hc with hd | hd | hd
    · rw [h₁] at hd
      cases hd
    · exact h₂ hd
    · exact h₃ hd
  · subst h0
    rcases hchar _ hc with hd | hd | hd <;> simp at hd

end Read

section Echo

variable {pars : List X29Par}

theorem length_profileText (hne : pars ≠ []) :
    (profileText pars).length + 1 = echoLength pars := by
  rw [← length_flatMap_parText, flatMap_parText hne, List.length_append, List.length_singleton]

/-- A line has room for every profile. -/
theorem entryReads_profileText (h : IsProfile pars) (hlen : echoLength pars < sizeEcho) :
    EntryReads litx29 (profileText pars) (.x29Profile pars) := by
  obtain ⟨hv, hhash, -⟩ := lits_spec litx29 (by decide)
  have htext := length_profileText h.ne_nil
  refine entryReads hv hhash (isValue_profileText h) ?_ (fun buf hbuf => ?_) nofun
  · have hlit : litx29.length = 11 := by decide
    have hsize : sizeEcho = 140 := rfl
    omega
  · rw [cfgLine_of_x29 hbuf, cfgX29_profileText h]

/-- **The profiles that are echoed**: those of two pairs at least whose text with its last comma
fits the buffer. -/
theorem echoed_iff (h : IsProfile pars) :
    Echoed pars ↔ 2 ≤ pars.length ∧ echoLength pars < sizeEcho := by
  have htext := length_profileText h.ne_nil
  constructor
  · rintro ⟨hecho, -⟩
    -- a single pair is stored as the length 0, which the echo takes for none
    have h2 : 2 ≤ pars.length := by
      by_contra hlt
      have hnot : ¬ (0 : ℤ) < pars.length - 1 := by omega
      have hnone : x29profileEcho ((CfgLine.x29Profile pars).apply .defaults) = none := if_neg hnot
      rw [hecho] at hnone
      cases hnone
    refine ⟨h2, ?_⟩
    -- a text that was cut is shorter than the profile's
    by_contra hge
    have hcut := hecho .defaults
    rw [x29profileEcho_apply _ h2, Option.some.injEq] at hcut
    have hlen := congrArg List.length hcut
    have hsize : sizeEcho = 140 := rfl
    rw [List.length_dropLast, List.length_take, List.length_append, List.length_singleton] at hlen
    omega
  · rintro ⟨h2, hlen⟩
    refine ⟨fun c => ?_, entryReads_profileText h hlen⟩
    -- nothing is cut, and the character taken off is the last comma
    rw [x29profileEcho_apply c h2, List.take_of_length_le, List.dropLast_concat]
    rw [List.length_append, List.length_singleton]
    omega

theorem echoed_iff_default :
    Echoed x29ProfileDefault ↔
      2 ≤ x29ProfileDefault.length ∧ echoLength x29ProfileDefault < sizeEcho :=
  echoed_iff (by decide)

/-- Twenty-five pairs with values of three digits do not fit. -/
theorem not_echoed : ¬ ∀ pars, IsProfile pars → Echoed pars := by
  intro h
  have hp : IsProfile (List.replicate 25 ⟨1, 100⟩) := by decide
  have hlen := ((echoed_iff hp).mp (h _ hp)).2
  revert hlen
  decide +kernel

end Echo

end PadSvr
