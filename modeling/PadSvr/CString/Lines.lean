import PadSvr.CString.Stdio

/-!
# Lines of a text

The lines of a text are its pieces between newlines, whatever their length. `fgets` with a bounded
buffer reads a long line in several calls, but never a character of two lines in one.

## Main definitions

* `textLines text`: the lines of a text, each with its newline
* `content l`: a line without its newline
* `IsLine l`: text with no newline but at its end

## Main results

* `text_induction`: a text is built from its lines
* `fgetsLines_eq_flatMap`: `fgets` reads line by line
* `IsLine.fgetsLines`: how it cuts one line
-/

namespace CString

/-- The lines of a text, each with its newline. -/
def textLines : List Char → List (List Char)
  | [] => []
  | c :: s =>
    if c = '\n' then [c] :: textLines s
    else
      match textLines s with
      | [] => [[c]]
      | l :: lines => (c :: l) :: lines

/-- A line without its newline. -/
def content (l : List Char) : List Char := l.takeWhile (· ≠ '\n')

/-- A line, with its newline or without it. -/
inductive IsLine : List Char → Prop
  | ended {w} : (∀ c ∈ w, c ≠ '\n') → IsLine (w ++ ['\n'])
  | last {w} : w ≠ [] → (∀ c ∈ w, c ≠ '\n') → IsLine w

section Lines

variable {w l s text : List Char} {size : ℕ}

/-- **A text is built from its lines**, the last one perhaps without a newline. -/
theorem text_induction {P : List Char → Prop} (nil : P [])
    (last : ∀ w, w ≠ [] → (∀ c ∈ w, c ≠ '\n') → P w)
    (line : ∀ w s, (∀ c ∈ w, c ≠ '\n') → P s → P (w ++ '\n' :: s)) (text : List Char) :
    P text := by
  -- what is split off in front of a newline, and the rest by induction on the length
  induction hn : text.length using Nat.strong_induction_on generalizing text with
  | _ n ih =>
    have hsplit := List.takeWhile_append_dropWhile (p := (· ≠ '\n')) (l := text)
    have hw : ∀ c ∈ text.takeWhile (· ≠ '\n'), c ≠ '\n' := fun c hc => by
      simpa using List.mem_takeWhile_imp hc
    rcases hd : text.dropWhile (· ≠ '\n') with _ | ⟨d, s⟩
    · rw [hd, List.append_nil] at hsplit
      rw [hsplit] at hw
      by_cases hne : text = []
      · exact hne ▸ nil
      · exact last text hne hw
    · have hnl : d = '\n' := by
        have := List.head?_dropWhile_not (· ≠ '\n') text
        rw [hd] at this
        simpa using this
      subst hnl
      rw [hd] at hsplit
      have hlen := congrArg List.length hsplit
      rw [List.length_append, List.length_cons] at hlen
      rw [← hsplit]
      exact line _ s hw (ih s.length (by omega) s rfl)

theorem textLines_last (hne : w ≠ []) (hw : ∀ c ∈ w, c ≠ '\n') : textLines w = [w] := by
  induction w with
  | nil => exact absurd rfl hne
  | cons c w ih =>
    rw [textLines, if_neg (hw c (by simp))]
    rcases w with _ | ⟨d, w⟩
    · rfl
    · rw [ih (by simp) fun x hx => hw x (List.mem_cons_of_mem c hx)]

theorem textLines_line (hw : ∀ c ∈ w, c ≠ '\n') (s : List Char) :
    textLines (w ++ '\n' :: s) = (w ++ ['\n']) :: textLines s := by
  induction w with
  | nil => rw [List.nil_append, textLines, if_pos rfl, List.nil_append]
  | cons c w ih =>
    rw [List.cons_append, textLines, if_neg (hw c (by simp)),
      ih fun x hx => hw x (List.mem_cons_of_mem c hx)]
    rfl

theorem isLine_of_mem_textLines : ∀ l ∈ textLines text, IsLine l := by
  induction text using text_induction with
  | nil => simp [textLines]
  | last w hne hw =>
    rw [textLines_last hne hw]
    simpa using IsLine.last hne hw
  | line w s hw ih =>
    rw [textLines_line hw, List.forall_mem_cons]
    exact ⟨IsLine.ended hw, ih⟩

theorem IsLine.ne_nil (h : IsLine l) : l ≠ [] := by
  cases h with
  | ended => simp
  | last hne => exact hne

theorem content_last (hw : ∀ c ∈ w, c ≠ '\n') : content w = w :=
  List.takeWhile_eq_self_iff.mpr (by simpa using hw)

theorem content_ended (hw : ∀ c ∈ w, c ≠ '\n') : content (w ++ ['\n']) = w := by
  rw [content, List.takeWhile_append_of_pos (by simpa using hw)]
  simp

/-- `fgets` reads nothing behind a newline together with what is in front of it. -/
theorem fgetsFrom_line {room : ℕ} (hw : ∀ c ∈ w, c ≠ '\n') (s : List Char) (left : ℕ)
    (acc : List Char) :
    fgetsFrom room (w ++ '\n' :: s) left acc =
      fgetsFrom room (w ++ ['\n']) left acc ++ fgetsFrom room s room [] := by
  induction w generalizing left acc with
  | nil => simp [fgetsFrom]
  | cons c w ih =>
    have ih := ih fun x hx => hw x (List.mem_cons_of_mem c hx)
    rw [List.cons_append, List.cons_append, fgetsFrom, fgetsFrom]
    split
    · rw [ih, List.cons_append]
    · rw [ih]

/-- **`fgets` reads line by line.** -/
theorem fgetsLines_eq_flatMap (size : ℕ) (text : List Char) :
    fgetsLines size text = (textLines text).flatMap (fgetsLines size) := by
  induction text using text_induction with
  | nil => rfl
  | last w hne hw => rw [textLines_last hne hw, List.flatMap_singleton]
  | line w s hw ih =>
    rw [textLines_line hw, List.flatMap_cons, ← ih]
    exact fgetsFrom_line hw s _ _

/-- A line that is not longer than the buffer holds is read by one call, up to its newline. -/
theorem fgetsLines_short (hne : w ≠ []) (hw : ∀ c ∈ w, c ≠ '\n') (hlen : w.length < size) :
    fgetsLines size w = [w] := by
  rcases List.eq_nil_or_concat w with rfl | ⟨v, c, rfl⟩
  · exact absurd rfl hne
  · rw [List.concat_eq_append] at hw hlen ⊢
    rw [List.length_append, List.length_singleton] at hlen
    rw [fgetsLines, fgetsFrom_append (fun x hx => hw x (by simp [hx])) (by omega), fgetsFrom]
    split
    · simp [fgetsFrom]
    · simp [fgetsFrom]

/-- The string that `fgets` returns next, from a text whose only newline may be its last character:
what is read already, and as much of the text as there is room for. -/
theorem fgetsFrom_cut {room : ℕ} : ∀ (u : List Char) (left : ℕ) (acc : List Char), u ≠ [] →
    0 < left → (∀ c ∈ u.dropLast, c ≠ '\n') →
    fgetsFrom room u left acc =
      (acc.reverse ++ u.take left) :: fgetsFrom room (u.drop left) room [] := by
  intro u
  induction u with
  | nil => exact fun left acc hne => absurd rfl hne
  | cons c u ih =>
    intro left acc _ hleft hu
    rw [fgetsFrom]
    rcases u with _ | ⟨d, u⟩
    · -- the last character, a newline or not
      obtain ⟨k, rfl⟩ : ∃ k, left = k + 1 := ⟨left - 1, by omega⟩
      split <;> simp [fgetsFrom]
    · have hc : c ≠ '\n' := hu c (by simp)
      have hu' : ∀ x ∈ (d :: u).dropLast, x ≠ '\n' := by
        intro x hx
        refine hu x ?_
        rw [List.dropLast_cons_cons]
        exact List.mem_cons_of_mem c hx
      by_cases h1 : left ≤ 1
      · obtain rfl : left = 1 := by omega
        simp
      · obtain ⟨k, rfl⟩ : ∃ k, left = k + 1 := ⟨left - 1, by omega⟩
        rw [if_neg (by simp [hc]; omega), Nat.add_sub_cancel,
          ih k (c :: acc) (by simp) (by omega) hu']
        simp

/-- How `fgets` cuts a line: full buffers, and what is left. -/
theorem IsLine.fgetsLines (h : IsLine l) (hsize : 1 < size) :
    fgetsLines size l = l.take (size - 1) :: CString.fgetsLines size (l.drop (size - 1)) := by
  have hinner : ∀ c ∈ l.dropLast, c ≠ '\n' := by
    cases h with
    | ended hw => simpa using hw
    | last _ hw => exact fun c hc => hw c ((List.dropLast_sublist _).subset hc)
  simpa [CString.fgetsLines] using fgetsFrom_cut l (size - 1) [] h.ne_nil (by omega) hinner

end Lines

example : textLines "ab\n\nc".toList = ["ab\n".toList, "\n".toList, "c".toList] := by decide

end CString
