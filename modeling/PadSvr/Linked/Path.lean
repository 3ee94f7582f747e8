import Mathlib.Data.List.Basic
import Mathlib.Data.List.Nodup
import Mathlib.Logic.Function.Basic
import Mathlib.Tactic.Common

/-!
# Linked lists in memory

Cells at addresses, each with a value and the address of the next one. A path is the list of the
addresses that the pointers lead through.

## Main definitions

* `Path h p as`: the pointers from `p` on lead through `as`, and then to `NULL`
* `vals h as`: the values of cells
* `findFrom`, `mapFrom`, `valsFrom`: loops over a list, cut after a number of rounds

## Main results

* `Path.congr`, `Path.link`: a path in a memory that has changed, and one that is made longer
* `findFrom_eq`, `mapFrom_eq`, `valsFrom_eq`: what the loops do, if they may take the whole path
-/

namespace Linked

variable {α : Type*}

/-- A cell of a linked list. -/
structure Cell (α : Type*) where
  val : α
  next : Option ℕ
deriving DecidableEq, Repr

/-- A memory of cells. -/
abbrev Heap (α : Type*) : Type _ := ℕ → Option (Cell α)

/-- The pointers from `p` on lead through `as`, and then to `NULL`. -/
def Path (h : Heap α) : Option ℕ → List ℕ → Prop
  | p, [] => p = none
  | p, a :: as => p = some a ∧ ∃ c, h a = some c ∧ Path h c.next as

/-- The values of the cells at some addresses. -/
def vals (h : Heap α) (as : List ℕ) : List α := as.filterMap fun a => (h a).map Cell.val

/-- The first cell from `p` on whose value has the property `q`. -/
def findFrom (q : α → Bool) (h : Heap α) : ℕ → Option ℕ → Option (Option ℕ)
  | 0, _ => none
  | _ + 1, none => some none
  | n + 1, some a =>
    match h a with
    | none => none
    | some c => if q c.val then some (some a) else findFrom q h n c.next

/-- The memory after the values of all cells from `p` on are changed by `f`. -/
def mapFrom (f : α → α) : ℕ → Option ℕ → Heap α → Option (Heap α)
  | 0, _, _ => none
  | _ + 1, none, h => some h
  | n + 1, some a, h =>
    match h a with
    | none => none
    | some c => mapFrom f n c.next (Function.update h a (some { c with val := f c.val }))

/-- The values of all cells from `p` on. -/
def valsFrom (h : Heap α) : ℕ → Option ℕ → Option (List α)
  | 0, _ => none
  | _ + 1, none => some []
  | n + 1, some a =>
    match h a with
    | none => none
    | some c => (valsFrom h n c.next).map (c.val :: ·)

section Path

variable {h h' : Heap α} {p : Option ℕ} {as : List ℕ} {a b : ℕ} {c : Cell α}

@[simp] theorem path_nil : Path h p [] ↔ p = none := Iff.rfl

@[simp] theorem path_cons :
    Path h p (a :: as) ↔ p = some a ∧ ∃ c, h a = some c ∧ Path h c.next as := Iff.rfl

/-- A path stays a path as long as its cells keep their pointers. -/
theorem Path.congr (hp : Path h p as)
    (heq : ∀ a ∈ as, (h' a).map Cell.next = (h a).map Cell.next) : Path h' p as := by
  induction as generalizing p with
  | nil => exact hp
  | cons a as ih =>
    obtain ⟨hpa, c, hc, has⟩ := hp
    have hnext := heq a List.mem_cons_self
    rw [hc, Option.map_some, Option.map_eq_some_iff] at hnext
    obtain ⟨c', hc', hn⟩ := hnext
    exact ⟨hpa, c', hc', hn ▸ ih has fun b hb => heq b (List.mem_cons_of_mem a hb)⟩

/-- **A cell is linked in at the end.** -/
theorem Path.link (hp : Path h p (as ++ [a])) (hnd : (as ++ [a]).Nodup) (hb : b ∉ as ++ [a])
    {v : α} :
    Path (Function.update (Function.update h b (some ⟨v, none⟩)) a
      (some { c with next := some b })) p (as ++ [a] ++ [b]) := by
  have hba : b ≠ a := fun hba => hb (by simp [hba])
  induction as generalizing p with
  | nil =>
    obtain ⟨rfl, -, -, -⟩ := hp
    exact ⟨rfl, _, Function.update_self .., rfl, ⟨v, none⟩,
      by rw [Function.update_of_ne hba, Function.update_self], rfl⟩
  | cons d as ih =>
    obtain ⟨rfl, e, he, has⟩ := hp
    rw [List.cons_append, List.nodup_cons] at hnd
    rw [List.cons_append, List.mem_cons, not_or] at hb
    -- the cell in front is neither the new one nor the last one
    have hda : d ≠ a := fun hda => hnd.1 (by simp [hda])
    refine ⟨rfl, e, ?_, ih has hnd.2 hb.2⟩
    rw [Function.update_of_ne hda, Function.update_of_ne (Ne.symm hb.1), he]

end Path

section Vals

variable {h h' : Heap α} {pre post as : List ℕ} {a : ℕ} {c : Cell α}

@[simp] theorem vals_append (h : Heap α) (as bs : List ℕ) :
    vals h (as ++ bs) = vals h as ++ vals h bs := List.filterMap_append

theorem vals_congr (heq : ∀ a ∈ as, (h' a).map Cell.val = (h a).map Cell.val) :
    vals h' as = vals h as := List.filterMap_congr heq

theorem vals_split (hc : h a = some c) :
    vals h (pre ++ a :: post) = vals h pre ++ c.val :: vals h post := by
  rw [vals_append, vals, vals, List.filterMap_cons, hc]
  rfl

/-- One value of a list is changed. -/
theorem vals_update (hnd : (pre ++ a :: post).Nodup) :
    vals (Function.update h a (some c)) (pre ++ a :: post) =
      vals h pre ++ c.val :: vals h post := by
  have hnot := (List.nodup_middle.mp hnd)
  rw [List.nodup_cons, List.mem_append, not_or] at hnot
  -- the cell is in no other place of the list
  have hother : ∀ as : List ℕ, a ∉ as → vals (Function.update h a (some c)) as = vals h as := by
    intro as ha
    refine vals_congr fun b hb => ?_
    rw [Function.update_of_ne (ne_of_mem_of_not_mem hb ha)]
  rw [vals_split (Function.update_self ..), hother pre hnot.1.1, hother post hnot.1.2]

end Vals

section Loops

variable {h : Heap α} {p : Option ℕ} {as : List ℕ}

theorem length_vals (hp : Path h p as) : (vals h as).length = as.length := by
  induction as generalizing p with
  | nil => rfl
  | cons a as ih =>
    obtain ⟨-, c, hc, has⟩ := hp
    rw [vals, List.filterMap_cons, hc]
    simp only [Option.map_some, List.length_cons]
    exact congrArg (· + 1) (ih has)

/-- The search finds the first cell there is, and ends. -/
theorem findFrom_eq (q : α → Bool) (hp : Path h p as) :
    ∀ {n : ℕ}, as.length < n →
      findFrom q h n p = some (as.find? fun a => (h a).any fun c => q c.val) := by
  induction as generalizing p with
  | nil =>
    intro n hn
    obtain ⟨n, rfl⟩ : ∃ m, n = m + 1 := ⟨n - 1, by omega⟩
    rw [path_nil] at hp
    rw [hp]
    rfl
  | cons a as ih =>
    intro n hn
    obtain ⟨n, rfl⟩ : ∃ m, n = m + 1 := ⟨n - 1, by omega⟩
    obtain ⟨rfl, c, hc, has⟩ := hp
    rw [List.length_cons] at hn
    rw [List.find?_cons, findFrom, hc]
    simp only [Option.any_some]
    cases hq : q c.val with
    | true => rfl
    | false => exact ih has (by omega)

/-- The loop over all cells changes each of them once, and ends. -/
theorem mapFrom_eq (f : α → α) (hp : Path h p as) (hnd : as.Nodup) :
    ∀ {n : ℕ}, as.length < n →
      mapFrom f n p h = some fun a =>
        if a ∈ as then (h a).map fun c => { c with val := f c.val } else h a := by
  induction as generalizing p h with
  | nil =>
    intro n hn
    obtain ⟨n, rfl⟩ : ∃ m, n = m + 1 := ⟨n - 1, by omega⟩
    rw [path_nil] at hp
    rw [hp]
    simp [mapFrom]
  | cons a as ih =>
    intro n hn
    obtain ⟨n, rfl⟩ : ∃ m, n = m + 1 := ⟨n - 1, by omega⟩
    obtain ⟨rfl, c, hc, has⟩ := hp
    rw [List.length_cons] at hn
    rw [List.nodup_cons] at hnd
    -- the rest of the path does not meet the cell that is changed
    have hrest : Path (Function.update h a (some { c with val := f c.val })) c.next as := by
      refine has.congr fun b hb => ?_
      rw [Function.update_of_ne (ne_of_mem_of_not_mem hb hnd.1)]
    rw [mapFrom, hc]
    simp only
    rw [ih hrest hnd.2 (by omega)]
    congr 1
    funext b
    by_cases hba : b = a
    · subst hba
      simp [hnd.1, hc]
    · simp [hba]

theorem valsFrom_eq (hp : Path h p as) :
    ∀ {n : ℕ}, as.length < n → valsFrom h n p = some (vals h as) := by
  induction as generalizing p with
  | nil =>
    intro n hn
    obtain ⟨n, rfl⟩ : ∃ m, n = m + 1 := ⟨n - 1, by omega⟩
    rw [path_nil] at hp
    rw [hp]
    rfl
  | cons a as ih =>
    intro n hn
    obtain ⟨n, rfl⟩ : ∃ m, n = m + 1 := ⟨n - 1, by omega⟩
    obtain ⟨rfl, c, hc, has⟩ := hp
    rw [List.length_cons] at hn
    rw [valsFrom, hc]
    simp only
    rw [ih has (by omega)]
    simp [vals, hc]

end Loops

end Linked
