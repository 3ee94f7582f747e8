import PadSvr.Scripted.Program

/-!
# Programs that return

`within E n m Q w` says that `m` returns from `w` in `Q`, whatever the script of `E`, as soon as it
has `n` entries. What is left of the script is then at most `n` entries shorter, so bounds add up
along a program, and a loop is bounded by a measure of its variables and its state.

## Main definitions

* `within E n m Q w`: `m` returns within `n` entries

## Main results

* `within_bind`, `within_step`, `within_iter`: the rules of composition, of atomic statements and of
  loops
-/

namespace Scripted

namespace Prog

variable {ε κ σ α β γ ρ : Type}

/-- Every run of `m` from `w` under a script of `E` with `n` entries returns in `Q`, and takes `n`
entries at most. -/
def within (E : ε → Prop) (n : ℕ) (m : Prog ε κ σ α) (Q : α → Run κ σ → Prop) (w : Run κ σ) :
    Prop :=
  ∀ es : List ε, (∀ e ∈ es, E e) → n ≤ es.length → ∃ a w' es', m es w = (w', some (a, es')) ∧
    Q a w' ∧ es.length ≤ es'.length + n ∧ ∀ e ∈ es', E e

variable {E : ε → Prop} {n n' : ℕ} {w : Run κ σ}

theorem within_pure {a : α} {Q : α → Run κ σ → Prop} (h : Q a w) :
    within E n (Pure.pure a) Q w :=
  fun es hes _ => ⟨a, w, es, rfl, h, Nat.le_add_right _ _, hes⟩

theorem within_get {Q : σ → Run κ σ → Prop} (h : Q w.st w) : within E n get Q w :=
  fun es hes _ => ⟨w.st, w, es, rfl, h, Nat.le_add_right _ _, hes⟩

/-- An atomic statement that returns on every entry of `E`. -/
theorem within_step {f : ε → σ → Option (List (κ × σ) × σ × α)} {Q : α → Run κ σ → Prop}
    (h : ∀ e, E e → ∃ r, f e w.st = some r ∧ Q r.2.2 ⟨r.2.1, w.trace ++ r.1⟩) :
    within E 1 (step f) Q w := by
  intro es hes hn
  cases es with
  | nil => cases hn
  | cons e es =>
    obtain ⟨r, hr, hQ⟩ := h e (hes e (List.mem_cons_self ..))
    refine ⟨r.2.2, _, es, ?_, hQ, Nat.le_refl _, fun e' h' => hes e' (List.mem_cons_of_mem _ h')⟩
    simp only [step, hr]

/-- Bounds add up along a program. -/
theorem within_bind {N : ℕ} (n n' : ℕ) (hN : n + n' ≤ N) {m : Prog ε κ σ α}
    {f : α → Prog ε κ σ β} {Q : β → Run κ σ → Prop}
    (h : within E n m (fun a w' => within E n' (f a) Q w') w) : within E N (m >>= f) Q w := by
  intro es hes hle
  obtain ⟨a, w₁, es₁, hm, hf, hlen, hes₁⟩ := h es hes (by omega)
  obtain ⟨b, w₂, es₂, hr, hQ, hlen', hes₂⟩ := hf es₁ hes₁ (by omega)
  refine ⟨b, w₂, es₂, ?_, hQ, by omega, hes₂⟩
  rw [bind_run, hm]
  exact hr

theorem within_mono {m : Prog ε κ σ α} {Q Q' : α → Run κ σ → Prop} (h : within E n m Q w)
    (hn : n ≤ n') (hQ : ∀ a w', Q a w' → Q' a w') : within E n' m Q' w := by
  intro es hes hle
  obtain ⟨a, w', es', hm, ha, hlen, hes'⟩ := h es hes (by omega)
  exact ⟨a, w', es', hm, hQ a w' ha, by omega, hes'⟩

/-- **The loop rule**: every round returns within `n` entries and keeps the invariant, and every
round that asks for another lowers the measure. -/
theorem within_iter {body : γ → Prog ε κ σ (γ ⊕ ρ)} {Q : ρ → Run κ σ → Prop}
    (Inv : γ → Run κ σ → Prop) (μ : γ → Run κ σ → ℕ)
    (hbody : ∀ x w, Inv x w → within E (n + 1) (body x) (fun r w' => r.elim
      (fun x' => Inv x' w' ∧ μ x' w' < μ x w) fun a => Q a w') w)
    {x : γ} (hx : Inv x w) : within E ((n + 1) * (μ x w + 1)) (iter body x) Q w := by
  -- the rounds that are left, and a bound on them
  have key : ∀ (m k : ℕ) (x : γ) (w : Run κ σ), Inv x w → μ x w < k → k ≤ m →
      within E ((n + 1) * k) (iterN body m x) Q w := by
    intro m
    induction m with
    | zero => intro k x w _ hk hle; omega
    | succ m ih =>
      intro k x w hw hk hle
      obtain ⟨k, rfl⟩ : ∃ k', k = k' + 1 := ⟨k - 1, by omega⟩
      refine within_bind (n + 1) ((n + 1) * k) (Nat.le_of_eq (by rw [Nat.mul_succ, Nat.add_comm]))
        (within_mono (hbody x w hw) (Nat.le_refl _) fun r w' hr => ?_)
      rcases r with x' | a
      · exact ih k x' w' hr.1 (by have := hr.2; omega) (by omega)
      · exact within_pure hr
  intro es hes hle
  refine key (es.length + 1) (μ x w + 1) x w hx (Nat.lt_succ_self _) ?_ es hes hle
  calc μ x w + 1 ≤ (n + 1) * (μ x w + 1) := Nat.le_mul_of_pos_left _ (Nat.succ_pos n)
    _ ≤ es.length := hle
    _ ≤ es.length + 1 := Nat.le_succ _

end Prog

end Scripted
