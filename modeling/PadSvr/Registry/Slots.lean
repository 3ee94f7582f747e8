import Mathlib.Data.Multiset.Filter
import Mathlib.Tactic.Common

/-!
# Registries

A registry holds a bag of rows. Requests arrive in a queue, and add a row or drop the rows with a
key. What the registry is meant to hold is what it will hold once the queue is served, so a
request changes that when it is queued, and serving it changes nothing.

A table of slots implements the bag: a row goes to the first free slot, or to a new one, and a
slot is freed in place.

## Main definitions

* `Request κ ρ`: what can be asked of a registry
* `serveAll key qs m`: the bag after the requests `qs`
* `place free row t`, `release key wipe k t`: the operations of a table of slots
* `occupied free t`: the bag it holds

## Main results

* `serveAll_concat`, `serveAll_cons`: queueing and serving a request
* `occupied_place`, `occupied_release`: the table holds what the bag does
* `length_place`: how long the table gets
-/

namespace Registry

variable {κ ρ : Type*}

/-- A request: add a row, or drop the rows with a key. -/
inductive Request (κ ρ : Type*)
  | add (row : ρ)
  | drop (k : κ)

section Bag

variable [DecidableEq κ] (key : ρ → κ)

/-- The bag after a request. -/
def Request.serve : Request κ ρ → Multiset ρ → Multiset ρ
  | .add row, m => row ::ₘ m
  | .drop k, m => m.filter fun row => key row ≠ k

/-- The bag after a queue of requests. -/
def serveAll (qs : List (Request κ ρ)) (m : Multiset ρ) : Multiset ρ :=
  qs.foldl (fun m q => q.serve key m) m

@[simp] theorem serveAll_nil (m : Multiset ρ) : serveAll key [] m = m := rfl

/-- Serving the first request. -/
@[simp] theorem serveAll_cons (q : Request κ ρ) (qs : List (Request κ ρ)) (m : Multiset ρ) :
    serveAll key (q :: qs) m = serveAll key qs (q.serve key m) := rfl

/-- Queueing a request. -/
@[simp] theorem serveAll_concat (qs : List (Request κ ρ)) (q : Request κ ρ) (m : Multiset ρ) :
    serveAll key (qs ++ [q]) m = q.serve key (serveAll key qs m) := by
  simp [serveAll]

/-- A dropped row. -/
theorem serve_drop_of_eq {k : κ} {row : ρ} (h : key row = k) (m : Multiset ρ) :
    (Request.drop k).serve key (row ::ₘ m) = (Request.drop k).serve key m :=
  Multiset.filter_cons_of_neg (p := fun row => key row ≠ k) m (not_not_intro h)

/-- A row that stays. -/
theorem serve_drop_of_ne {k : κ} {row : ρ} (h : key row ≠ k) (m : Multiset ρ) :
    (Request.drop k).serve key (row ::ₘ m) = row ::ₘ (Request.drop k).serve key m :=
  Multiset.filter_cons_of_pos (p := fun row => key row ≠ k) m h

/-- Dropping the key of one row only. -/
theorem serve_drop_add {m m' : Multiset ρ} {row : ρ} (hm : ∀ r ∈ m, key r ≠ key row)
    (hm' : ∀ r ∈ m', key r ≠ key row) :
    (Request.drop (key row)).serve key (m + row ::ₘ m') = m + m' := by
  calc (Request.drop (key row)).serve key (m + row ::ₘ m')
    _ = (Request.drop (key row)).serve key (row ::ₘ (m + m')) := by rw [Multiset.add_cons]
    _ = (Request.drop (key row)).serve key (m + m') := serve_drop_of_eq key rfl _
    _ = m + m' := Multiset.filter_eq_self.mpr fun r hr =>
      (Multiset.mem_add.mp hr).elim (hm r) (hm' r)

end Bag

section Slots

variable (free : ρ → Bool)

/-- Put a row in the first free slot, or in a new one. -/
def place (row : ρ) : List ρ → List ρ
  | [] => [row]
  | r :: t => if free r then row :: t else r :: place row t

/-- Free the slots with a key. -/
def release [DecidableEq κ] (key : ρ → κ) (wipe : ρ → ρ) (k : κ) (t : List ρ) : List ρ :=
  t.map fun r => if key r = k then wipe r else r

/-- The rows in the slots that are not free. -/
def occupied (t : List ρ) : Multiset ρ := (t.filter fun r => !free r : List ρ)

@[simp] theorem occupied_nil : occupied free [] = 0 := rfl

theorem occupied_cons_of_free {r : ρ} (h : free r = true) (t : List ρ) :
    occupied free (r :: t) = occupied free t := by
  simp [occupied, h]

theorem occupied_cons_of_not_free {r : ρ} (h : free r = false) (t : List ρ) :
    occupied free (r :: t) = r ::ₘ occupied free t := by
  simp [occupied, h]

/-- A table holds no more rows than it has slots. -/
theorem card_occupied_le (t : List ρ) : (occupied free t).card ≤ t.length :=
  List.length_filter_le _ t

/-- **The table with a row more holds the bag with that row more.** -/
theorem occupied_place {row : ρ} (h : free row = false) (t : List ρ) :
    occupied free (place free row t) = row ::ₘ occupied free t := by
  induction t with
  | nil => exact occupied_cons_of_not_free free h []
  | cons r t ih =>
    cases hr : free r with
    | true =>
      rw [place, if_pos hr, occupied_cons_of_not_free free h, occupied_cons_of_free free hr]
    | false =>
      rw [place, if_neg (by simp [hr]), occupied_cons_of_not_free free hr, ih,
        occupied_cons_of_not_free free hr, Multiset.cons_swap]

/-- A table grows by a slot when there is no other way. -/
theorem length_place (row : ρ) (t : List ρ) :
    (place free row t).length = max t.length ((occupied free t).card + 1) := by
  induction t with
  | nil => rfl
  | cons r t ih =>
    cases hr : free r with
    | true =>
      have hle := card_occupied_le free t
      rw [place, if_pos hr, occupied_cons_of_free free hr, List.length_cons, List.length_cons]
      omega
    | false =>
      rw [place, if_neg (by simp [hr]), occupied_cons_of_not_free free hr, List.length_cons, ih,
        List.length_cons, Multiset.card_cons]
      omega

/-- A row goes to the first free slot. -/
theorem place_append {l : List ρ} (hl : ∀ r ∈ l, free r = false) {r : ρ} (hr : free r = true)
    (row : ρ) (l' : List ρ) : place free row (l ++ r :: l') = l ++ row :: l' := by
  induction l with
  | nil => rw [List.nil_append, place, if_pos hr, List.nil_append]
  | cons x l ih =>
    have hx := hl x List.mem_cons_self
    rw [List.cons_append, place, if_neg (by simp [hx]),
      ih fun y hy => hl y (List.mem_cons_of_mem x hy), List.cons_append]

/-- A row goes to a new slot when none is free. -/
theorem place_of_full {l : List ρ} (hl : ∀ r ∈ l, free r = false) (row : ρ) :
    place free row l = l ++ [row] := by
  induction l with
  | nil => rfl
  | cons x l ih =>
    have hx := hl x List.mem_cons_self
    rw [place, if_neg (by simp [hx]), ih fun y hy => hl y (List.mem_cons_of_mem x hy),
      List.cons_append]

/-- **The table with the slots of a key freed holds the bag without the rows of that key.** -/
theorem occupied_release [DecidableEq κ] {key : ρ → κ} {wipe : ρ → ρ}
    (hw : ∀ r, free (wipe r) = true) (k : κ) (t : List ρ) :
    occupied free (release key wipe k t) = (Request.drop k).serve key (occupied free t) := by
  induction t with
  | nil => rfl
  | cons r t ih =>
    have hcons : release key wipe k (r :: t) =
        (if key r = k then wipe r else r) :: release key wipe k t := rfl
    rw [hcons]
    by_cases hk : key r = k
    · rw [if_pos hk, occupied_cons_of_free free (hw r), ih]
      cases hr : free r with
      | true => rw [occupied_cons_of_free free hr]
      | false =>
        rw [occupied_cons_of_not_free free hr, serve_drop_of_eq key hk]
    · rw [if_neg hk]
      cases hr : free r with
      | true => rw [occupied_cons_of_free free hr, occupied_cons_of_free free hr, ih]
      | false =>
        rw [occupied_cons_of_not_free free hr, occupied_cons_of_not_free free hr, ih,
          serve_drop_of_ne key hk]

end Slots

end Registry
