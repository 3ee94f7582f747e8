import Mathlib.Data.List.TakeWhile
import Mathlib.Tactic.Common

/-!
# C strings: tokens

A C string is the list of its characters before the terminating NUL.

## Main definitions

* `cstr buf`: the string a character array holds
* `strtok delim s`: one call of `strtok_r`, with the rest the save pointer is left at
* `strtoks delim s`: the tokens of calls repeated until one returns `NULL`

## Main results

* `strtoks_eq_strtok`: `strtoks` is what repeated calls of `strtok` return
* `strtok_token`, `strtok_last`: the token at the front of a string
* `strtok_word`, `strtok_length`: what a token is made of
-/

namespace CString

/-- The string a character array holds: up to its first NUL. -/
def cstr (buf : List Char) : List Char := buf.takeWhile (· ≠ '\x00')

/-- A character of a token: none of the delimiters. -/
def isWord (delim : List Char) (c : Char) : Bool := !decide (c ∈ delim)

@[simp] theorem isWord_eq_true {delim : List Char} {c : Char} :
    isWord delim c = true ↔ c ∉ delim := by
  simp [isWord]

/-- One call of `strtok_r`: skip delimiters; on the end of the string return `NULL`, otherwise
the characters up to the next delimiter, and what follows that delimiter. -/
def strtok (delim s : List Char) : Option (List Char × List Char) :=
  match s.dropWhile (· ∈ delim) with
  | [] => none
  | t => some (t.takeWhile (isWord delim), (t.dropWhile (isWord delim)).tail)

/-- The tokens of a string, the characters of the token being read in `acc`, last first. -/
def strtoksFrom (delim : List Char) : List Char → List Char → List (List Char)
  | [], [] => []
  | [], acc => [acc.reverse]
  | c :: s, acc =>
    if c ∈ delim then
      if acc = [] then strtoksFrom delim s [] else acc.reverse :: strtoksFrom delim s []
    else strtoksFrom delim s (c :: acc)

/-- The tokens that `strtok_r` returns, call after call, before it returns `NULL`. -/
def strtoks (delim s : List Char) : List (List Char) := strtoksFrom delim s []

/-- Characters without a NUL are a string as they are. -/
theorem cstr_of_noNul {s : List Char} (h : ∀ c ∈ s, c ≠ '\x00') : cstr s = s :=
  List.takeWhile_eq_self_iff.mpr (by simpa using h)

/-- The string before a NUL that is stored. -/
theorem cstr_set_nul {buf : List Char} {i : ℕ} (hi : i < buf.length)
    (h : ∀ c ∈ buf.take i, c ≠ '\x00') : cstr (buf.set i '\x00') = buf.take i := by
  rw [cstr, List.set_eq_take_append_cons_drop, if_pos hi,
    List.takeWhile_append_of_pos (by simpa using h)]
  simp

theorem strtoksFrom_append_of_notMem {delim : List Char} :
    ∀ {w : List Char}, (∀ c ∈ w, c ∉ delim) → ∀ s acc : List Char,
      strtoksFrom delim (w ++ s) acc = strtoksFrom delim s (w.reverse ++ acc)
  | [], _, s, acc => rfl
  | c :: w, hw, s, acc => by
    have hc : c ∉ delim := hw c (List.mem_cons_self ..)
    have hw' : ∀ c ∈ w, c ∉ delim := fun c' h => hw c' (List.mem_cons_of_mem _ h)
    rw [List.cons_append, strtoksFrom, if_neg hc, strtoksFrom_append_of_notMem hw']
    simp

theorem strtoksFrom_dropWhile (delim s : List Char) :
    strtoksFrom delim (s.dropWhile (· ∈ delim)) [] = strtoksFrom delim s [] := by
  induction s with
  | nil => rfl
  | cons c s ih =>
    by_cases hc : c ∈ delim
    · simp [hc, ih, strtoksFrom]
    · simp [hc]

/-- **Repeated calls of `strtok`**: the next token, then the tokens of the rest. -/
theorem strtoks_eq_strtok (delim s : List Char) :
    strtoks delim s =
      match strtok delim s with
      | none => []
      | some (t, rest) => t :: strtoks delim rest := by
  rw [strtoks, ← strtoksFrom_dropWhile, strtok]
  rcases ht : s.dropWhile (· ∈ delim) with _ | ⟨c, t⟩
  · rfl
  · have hc : c ∉ delim := by
      have := List.head?_dropWhile_not (· ∈ delim) s
      simpa [ht] using this
    have hw : ∀ x ∈ (c :: t).takeWhile (isWord delim), x ∉ delim := fun x hx =>
      isWord_eq_true.mp (List.all_eq_true.mp List.all_takeWhile x hx)
    have hsplit := List.takeWhile_append_dropWhile (p := isWord delim) (l := c :: t)
    conv_lhs => rw [← hsplit]
    rw [strtoksFrom_append_of_notMem hw, List.append_nil]
    have htail : (c :: t).dropWhile (isWord delim) = t.dropWhile (isWord delim) := by simp [hc]
    rw [htail]
    rcases hd : t.dropWhile (isWord delim) with _ | ⟨d, r⟩
    · simp [strtoksFrom, strtoks, hc, hd]
    · have hd' : d ∈ delim := by
        have := List.head?_dropWhile_not (isWord delim) t
        rw [hd] at this
        simpa [isWord] using this
      simp [strtoksFrom, hd', hc, hd, strtoks]

/-- There is no token in a string of delimiters. -/
theorem strtoks_eq_nil_iff {delim s : List Char} : strtoks delim s = [] ↔ ∀ c ∈ s, c ∈ delim := by
  have hdrop : s.dropWhile (· ∈ delim) = [] ↔ ∀ c ∈ s, c ∈ delim := by
    simp [List.dropWhile_eq_nil_iff]
  rw [strtoks_eq_strtok, ← hdrop, strtok]
  rcases s.dropWhile (· ∈ delim) with _ | ⟨c, t⟩ <;> simp

section Token

variable {delim w : List Char}

/-- A token has characters, and none of them is a delimiter. -/
theorem strtok_word {s t rest : List Char} (h : strtok delim s = some (t, rest)) :
    t ≠ [] ∧ (∀ c ∈ t, c ∉ delim) ∧ ∀ c ∈ t ++ rest, c ∈ s := by
  unfold strtok at h
  split at h
  · cases h
  · next hs =>
    cases h
    rcases hd : s.dropWhile (· ∈ delim) with _ | ⟨c, u⟩
    · exact absurd hd hs
    · have hc : isWord delim c = true := by
        have := List.head?_dropWhile_not (· ∈ delim) s
        simpa [hd] using this
      refine ⟨by simp [hc], fun x hx => ?_, fun x hx => ?_⟩
      · exact isWord_eq_true.mp (List.all_eq_true.mp List.all_takeWhile x hx)
      · have hu : x ∈ c :: u := by
          rcases List.mem_append.mp hx with hx | hx
          · exact (List.takeWhile_sublist _).subset hx
          · exact (List.dropWhile_sublist _).subset (List.mem_of_mem_tail hx)
        exact (List.dropWhile_sublist _).subset (hd ▸ hu)

/-- A token and what follows the delimiter behind it are together shorter than the string. -/
theorem strtok_length {s t rest : List Char} (h : strtok delim s = some (t, rest)) :
    t.length + rest.length ≤ s.length ∧ (rest ≠ [] → t.length + rest.length < s.length) := by
  unfold strtok at h
  split at h
  · cases h
  · cases h
    have hlen := (List.dropWhile_sublist (· ∈ delim) (l := s)).length_le
    have hsplit := congrArg List.length
      (List.takeWhile_append_dropWhile (p := isWord delim) (l := s.dropWhile (· ∈ delim)))
    rw [List.length_append] at hsplit
    rcases hu : (s.dropWhile (· ∈ delim)).dropWhile (isWord delim) with _ | ⟨d, u⟩
    · rw [hu] at hsplit
      simp only [List.length_nil, List.tail_nil] at hsplit ⊢
      exact ⟨by omega, fun hne => absurd rfl hne⟩
    · rw [hu] at hsplit
      simp only [List.length_cons, List.tail_cons] at hsplit ⊢
      exact ⟨by omega, fun _ => by omega⟩

theorem dropWhile_mem_of_notMem (hne : w ≠ []) (hw : ∀ c ∈ w, c ∉ delim) (s : List Char) :
    (w ++ s).dropWhile (· ∈ delim) = w ++ s := by
  cases w with
  | nil => exact absurd rfl hne
  | cons c w => simp [hw c (List.mem_cons_self ..)]

/-- A word followed by a delimiter is the first token. -/
theorem strtok_token (hne : w ≠ []) (hw : ∀ c ∈ w, c ∉ delim) {d : Char} (hd : d ∈ delim)
    (rest : List Char) : strtok delim (w ++ d :: rest) = some (w, rest) := by
  have hw' : ∀ c ∈ w, isWord delim c := fun c h => isWord_eq_true.mpr (hw c h)
  have hd' : ¬ isWord delim d := by simpa using hd
  have ht : (w ++ d :: rest).takeWhile (isWord delim) = w := by
    rw [List.takeWhile_append_of_pos hw', List.takeWhile_cons_of_neg hd', List.append_nil]
  have hr : (w ++ d :: rest).dropWhile (isWord delim) = d :: rest := by
    rw [List.dropWhile_append_of_pos hw', List.dropWhile_cons_of_neg hd']
  rw [strtok, dropWhile_mem_of_notMem hne hw]
  cases w with
  | nil => exact absurd rfl hne
  | cons c w => rw [List.cons_append] at ht hr ⊢; simp only [ht, hr, List.tail_cons]

/-- A word that ends the string is its last token. -/
theorem strtok_last (hne : w ≠ []) (hw : ∀ c ∈ w, c ∉ delim) :
    strtok delim w = some (w, []) := by
  have hw' : ∀ c ∈ w, isWord delim c := fun c h => isWord_eq_true.mpr (hw c h)
  have hdrop := dropWhile_mem_of_notMem hne hw []
  rw [List.append_nil] at hdrop
  rw [strtok, hdrop]
  cases w with
  | nil => exact absurd rfl hne
  | cons c w =>
    simp only [List.takeWhile_eq_self_iff.mpr hw', List.dropWhile_eq_nil_iff.mpr hw',
      List.tail_nil]

/-- A token with something behind its delimiter is the first token of every longer string. -/
theorem strtok_append {s t rest : List Char} (h : strtok delim s = some (t, rest))
    (hne : rest ≠ []) (u : List Char) : strtok delim (s ++ u) = some (t, rest ++ u) := by
  unfold strtok at h ⊢
  rw [List.dropWhile_append]
  rcases hs : s.dropWhile (· ∈ delim) with _ | ⟨c, v⟩
  · rw [hs] at h
    cases h
  · rw [hs] at h
    dsimp only at h
    cases h
    have hdrop : (c :: v).dropWhile (isWord delim) ≠ [] := by
      intro hd
      rw [hd] at hne
      exact hne rfl
    have hlen : ((c :: v).takeWhile (isWord delim)).length ≠ (c :: v).length := by
      intro hlen
      have hall := (List.takeWhile_prefix (isWord delim)).eq_of_length hlen
      exact hdrop (List.dropWhile_eq_nil_iff.mpr (List.takeWhile_eq_self_iff.mp hall))
    rw [List.isEmpty_cons, if_neg Bool.false_ne_true]
    show some ((c :: v ++ u).takeWhile (isWord delim),
      ((c :: v ++ u).dropWhile (isWord delim)).tail) = _
    rw [List.takeWhile_append, if_neg hlen, List.dropWhile_append,
      if_neg (by simpa using hdrop), List.tail_append_of_ne_nil hdrop]

/-- A delimiter at the end of a string changes no token. -/
theorem strtok_concat {d : Char} (hd : d ∈ delim) (s : List Char) :
    strtok delim s = none ∧ strtok delim (s ++ [d]) = none ∨
      ∃ t rest rest', strtok delim s = some (t, rest) ∧ strtok delim (s ++ [d]) = some (t, rest') ∧
        (rest' = rest ∨ rest' = rest ++ [d]) := by
  have hd' : isWord delim d = false := by simpa [isWord] using hd
  unfold strtok
  rw [List.dropWhile_append]
  rcases hs : s.dropWhile (· ∈ delim) with _ | ⟨c, u⟩
  · left
    simp [hd]
  · right
    have htake : (c :: u ++ [d]).takeWhile (isWord delim) = (c :: u).takeWhile (isWord delim) := by
      rw [List.takeWhile_append]
      split
      · next hlen =>
        rw [List.takeWhile_cons_of_neg (by simp [hd']), List.append_nil]
        exact ((List.takeWhile_prefix _).eq_of_length hlen).symm
      · rfl
    rw [List.isEmpty_cons, if_neg Bool.false_ne_true]
    refine ⟨_, _, _, rfl, congrArg (fun t => some (t, _)) htake, ?_⟩
    rw [List.dropWhile_append]
    rcases hr : (c :: u).dropWhile (isWord delim) with _ | ⟨e, v⟩
    · left
      simp [hd']
    · right
      simp

theorem strtok_concat_token {d : Char} (hd : d ∈ delim) (s : List Char) :
    (strtok delim (s ++ [d])).map Prod.fst = (strtok delim s).map Prod.fst := by
  rcases strtok_concat hd s with ⟨h, h'⟩ | ⟨t, rest, rest', h, h', -⟩
  · rw [h, h']
  · rw [h, h']
    rfl

/-- Words with delimiters between them are its tokens. -/
theorem strtoks_intercalate {d : Char} (hd : d ∈ delim) : ∀ {ws : List (List Char)},
    (∀ w ∈ ws, w ≠ [] ∧ ∀ c ∈ w, c ∉ delim) → strtoks delim (List.intercalate [d] ws) = ws
  | [], _ => rfl
  | [w], hws => by
    obtain ⟨hne, hw⟩ := hws w List.mem_cons_self
    rw [List.intercalate_singleton, strtoks_eq_strtok, strtok_last hne hw]
    rfl
  | w :: v :: ws, hws => by
    obtain ⟨hne, hw⟩ := hws w List.mem_cons_self
    rw [List.intercalate_cons_cons, List.append_assoc, List.singleton_append, strtoks_eq_strtok,
      strtok_token hne hw hd]
    exact congrArg (w :: ·)
      (strtoks_intercalate hd fun w' hw' => hws w' (List.mem_cons_of_mem w hw'))

end Token

end CString
