import Mathlib.Data.List.Induction

/-!
# Updates under keys

A state has a value under every key, and every item of a list assigns one of them or none. After all
items, a key has the value that was assigned to it last.

## Main definitions

* `last given k xs`: the value that the items `xs` assign under `k` last
* `Updates get step given`: a step assigns what its item gives, and nothing else

## Main results

* `last_append`, `last_map`: the last value of a list from those of its parts, or of other items
* `Updates.get_foldl`: what a key has after all items
-/

namespace Keyed

variable {σ α κ ν : Type} [DecidableEq κ]

/-- What an item assigns under `k`. -/
def under (given : α → Option (κ × ν)) (k : κ) (x : α) : Option ν :=
  (given x).bind fun a => if a.1 = k then some a.2 else none

/-- The value that is assigned under `k` last. -/
def last (given : α → Option (κ × ν)) (k : κ) (xs : List α) : Option ν :=
  (xs.filterMap (under given k)).getLast?

section Last

variable {given : α → Option (κ × ν)} {k : κ} {v : ν} {x : α} {xs ys : List α}

theorem under_eq_some : under given k x = some v ↔ given x = some (k, v) := by
  unfold under
  rcases given x with _ | ⟨k', v'⟩
  · simp
  · by_cases hk : k' = k
    · simp [hk]
    · simp [hk]

theorem under_eq_none : under given k x = none ↔ ∀ v, given x ≠ some (k, v) := by
  rw [Option.eq_none_iff_forall_ne_some]
  exact forall_congr' fun v => not_congr under_eq_some

@[simp] theorem last_nil : last given k ([] : List α) = none := rfl

theorem last_append : last given k (xs ++ ys) = (last given k ys).or (last given k xs) := by
  simp [last]

theorem last_concat : last given k (xs ++ [x]) = (under given k x).or (last given k xs) := by
  rw [last_append]
  unfold last
  rcases h : under given k x with _ | v
  · simp [h]
  · simp [h]

/-- Two lists whose items assign alike, one by one. -/
theorem last_map {κ' ν' : Type} [DecidableEq κ'] {other : α → Option (κ' × ν')} {k' : κ'}
    {f : ν' → ν} (h : ∀ x ∈ xs, under given k x = (under other k' x).map f) :
    last given k xs = (last other k' xs).map f := by
  induction xs using List.reverseRecOn with
  | nil => rfl
  | append_singleton xs x ih =>
    rw [last_concat, last_concat, ih fun y hy => h y (by simp [hy]), h x (by simp), Option.map_or]

theorem exists_of_last (h : last given k xs = some v) : ∃ x ∈ xs, given x = some (k, v) := by
  obtain ⟨x, hx, hv⟩ := List.mem_filterMap.mp (List.mem_of_getLast? h)
  exact ⟨x, hx, under_eq_some.mp hv⟩

end Last

/-- A step assigns what its item gives, and nothing else. -/
structure Updates (get : κ → σ → ν) (step : σ → α → σ) (given : α → Option (κ × ν)) : Prop where
  assigned : ∀ c x k v, given x = some (k, v) → get k (step c x) = v
  other : ∀ c x k, (∀ v, given x ≠ some (k, v)) → get k (step c x) = get k c

variable {get : κ → σ → ν} {step : σ → α → σ} {given : α → Option (κ × ν)}

/-- **A key has the value that was assigned to it last**, or the one it had before. -/
theorem Updates.get_foldl (h : Updates get step given) (k : κ) (xs : List α) (c : σ) :
    get k (xs.foldl step c) = (last given k xs).getD (get k c) := by
  induction xs using List.reverseRecOn with
  | nil => rfl
  | append_singleton xs x ih =>
    rw [List.foldl_append, List.foldl_cons, List.foldl_nil, last_concat]
    rcases hx : under given k x with _ | v
    · rw [h.other _ x k (under_eq_none.mp hx), ih, Option.none_or]
    · rw [h.assigned _ x k v (under_eq_some.mp hx), Option.some_or, Option.getD_some]

end Keyed
