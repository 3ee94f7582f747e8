import PadSvr.Scripted.Loop

/-!
# Runs under longer scripts

A run that has returned does not change when its script gets longer: what is behind its end is left.
What is recorded stays recorded. So a run can be asked for its next call, by one more entry.

## Main definitions

* `Prog.Extends m`: longer scripts leave the runs of `m` that return as they are
* `Prog.Grows m`: what a run starts with stays the beginning of its trace

## Main results

* `Extends.bind`, `extends_step`, `Productive.extends_iter`: the rules of composition, of atomic
  statements and of loops
* `prefix_bind`: what a program has recorded stays when another one follows
-/

namespace Scripted

namespace Prog

variable {ε κ σ α β γ ρ : Type}

/-- A run that returns does so under every longer script, and leaves what is behind its end. -/
def Extends (m : Prog ε κ σ α) : Prop :=
  ∀ es w w' a es', m es w = (w', some (a, es')) → ∀ es₂, m (es ++ es₂) w = (w', some (a, es' ++ es₂))

theorem extends_pure (a : α) : Extends (Pure.pure a : Prog ε κ σ α) := by
  intro es w w' a' es' hr es₂
  cases hr
  rfl

theorem extends_get : Extends (get : Prog ε κ σ σ) := by
  intro es w w' a es' hr es₂
  cases hr
  rfl

theorem extends_modify (f : σ → σ) : Extends (modify f : Prog ε κ σ Unit) := by
  intro es w w' a es' hr es₂
  cases hr
  rfl

theorem extends_step (f : ε → σ → Option (List (κ × σ) × σ × α)) : Extends (Prog.step f) := by
  intro es w w' a es' hr es₂
  rcases es with _ | ⟨e, es⟩
  · cases hr
  · simp only [Prog.step, List.cons_append] at hr ⊢
    split at hr
    · cases hr
    · cases hr
      rfl

theorem Extends.bind {m : Prog ε κ σ α} {f : α → Prog ε κ σ β} (hm : Extends m)
    (hf : ∀ a, Extends (f a)) : Extends (m >>= f) := by
  intro es w w' b es' hr es₂
  obtain ⟨w₁, a, es₁, hm₁, hf₁⟩ := bind_some hr
  -- the second program starts with the rest that the first one leaves, and with what is added
  rw [bind_run, hm es w w₁ a es₁ hm₁ es₂]
  exact hf a es₁ w₁ w' b es' hf₁ es₂

theorem Extends.ite {c : Prop} [Decidable c] {m m' : Prog ε κ σ α} (hm : Extends m)
    (hm' : Extends m') : Extends (if c then m else m') := by
  split
  · exact hm
  · exact hm'

/-- **A loop keeps its runs under longer scripts** when its body does. -/
theorem Productive.extends_iter {body : γ → Prog ε κ σ (γ ⊕ ρ)} (hb : Productive body)
    (he : ∀ x, Extends (body x)) (x : γ) : Extends (iter body x) := by
  intro es w
  refine hb.induction (P := fun x es w => ∀ w' a es', iter body x es w = (w', some (a, es')) →
    ∀ es₂, iter body x (es ++ es₂) w = (w', some (a, es' ++ es₂))) (fun x es w ih => ?_) x es w
  intro w' a es' hr es₂
  rw [iter_run hb] at hr ⊢
  rcases hbody : body x es w with ⟨w₁, _ | ⟨x₁ | r, es₁⟩⟩
  · rw [hbody] at hr
    cases hr
  · rw [hbody] at hr
    rw [he x es w w₁ _ es₁ hbody es₂]
    exact ih w₁ x₁ es₁ hbody w' a es' hr es₂
  · rw [hbody] at hr
    rw [he x es w w₁ _ es₁ hbody es₂]
    cases hr
    rfl

/-! ## Traces that grow -/

/-- A run goes on from the trace it starts with. -/
def Grows (m : Prog ε κ σ α) : Prop :=
  ∀ t, Keeps (fun _ => True) (fun w => t <+: w.trace) m

theorem prefix_bind {m : Prog ε κ σ α} {f : α → Prog ε κ σ β} (hf : ∀ a, Grows (f a))
    {t : List (κ × σ)} {es : List ε} {w : Run κ σ} (h : t <+: (m es w).1.trace) :
    t <+: ((m >>= f) es w).1.trace := by
  rw [bind_run]
  rcases hr : m es w with ⟨w', _ | ⟨a, es'⟩⟩
  · rw [hr] at h
    exact h
  · rw [hr] at h
    exact always_of_wp (hf a t w' h) (fun _ _ h' => h') fun _ _ => trivial

end Prog

end Scripted
