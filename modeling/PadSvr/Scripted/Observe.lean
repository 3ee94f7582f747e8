import PadSvr.Scripted.Longer

/-!
# Programs observed as calls

A program can be looked at as one call: it does what it does, and what is recorded of it is its
result. Programs that differ in what they record only are alike, and so are loops made of them: what
is observed of a loop is what happens in it.

## Main definitions

* `Prog.observe k m`: the program `m`, recorded as the call `k`
* `Prog.Alike m m'`: the programs differ in what they record only

## Main results

* `wp_observe`: the rule of an observed program
* `alike_observe`, `Alike.bind`, `Alike.iter`: what is observed does what it did
-/

namespace Scripted

namespace Prog

variable {ε κ κ' σ α β γ ρ : Type}

/-- The program as one call, recorded with the state it starts in. -/
def observe (k : σ → α → κ') (m : Prog ε κ σ α) : Prog ε κ' σ α := fun es w =>
  match m es ⟨w.st, []⟩ with
  | (w', none) => (⟨w'.st, w.trace⟩, none)
  | (w', some (a, es')) => (⟨w'.st, w.trace ++ [(k w'.st a, w.st)]⟩, some (a, es'))

theorem wp_observe {k : σ → α → κ'} {m : Prog ε κ σ α} {E : ε → Prop} {I : Run κ σ → Prop}
    {I' : Run κ' σ → Prop} {Q : α → Run κ σ → Prop} {Q' : α → Run κ' σ → Prop} {w : Run κ' σ}
    (h : wp E I m Q ⟨w.st, []⟩) (hI : ∀ w₁, I w₁ → I' ⟨w₁.st, w.trace⟩)
    (hQ : ∀ a w₁, Q a w₁ → Q' a ⟨w₁.st, w.trace ++ [(k w₁.st a, w.st)]⟩) :
    wp E I' (observe k m) Q' w := by
  intro es hes
  have hm := h es hes
  unfold observe
  rcases hr : m es ⟨w.st, []⟩ with ⟨w₁, _ | ⟨a, es'⟩⟩
  · rw [hr] at hm
    exact hI w₁ hm
  · rw [hr] at hm
    exact ⟨hQ a w₁ hm.1, hm.2⟩

theorem observe_some {k : σ → α → κ'} {m : Prog ε κ σ α} {es es' : List ε} {w w' : Run κ' σ} {a : α}
    (hr : observe k m es w = (w', some (a, es'))) :
    ∃ w₁, m es ⟨w.st, []⟩ = (w₁, some (a, es')) ∧
      w' = ⟨w₁.st, w.trace ++ [(k w₁.st a, w.st)]⟩ := by
  unfold observe at hr
  rcases hm : m es ⟨w.st, []⟩ with ⟨w₁, _ | ⟨a₁, es₁⟩⟩
  · rw [hm] at hr
    cases hr
  · rw [hm] at hr
    cases hr
    exact ⟨w₁, rfl, rfl⟩

theorem Thrifty.observe {m : Prog ε κ σ α} (hm : Thrifty m) (k : σ → α → κ') :
    Thrifty (observe k m) := by
  intro es w w' a es' hr
  obtain ⟨w₁, hm₁, -⟩ := observe_some hr
  exact hm es _ w₁ a es' hm₁

theorem Takes.observe {m : Prog ε κ σ α} (hm : Takes m) (k : σ → α → κ') :
    Takes (observe k m) := by
  intro es w w' a es' hr
  obtain ⟨w₁, hm₁, -⟩ := observe_some hr
  exact hm es _ w₁ a es' hm₁

theorem Extends.observe {m : Prog ε κ σ α} (hm : Extends m) (k : σ → α → κ') :
    Extends (observe k m) := by
  intro es w w' a es' hr es₂
  obtain ⟨w₁, hm₁, rfl⟩ := observe_some hr
  unfold Prog.observe
  rw [hm es _ w₁ a es' hm₁ es₂]

theorem grows_observe (m : Prog ε κ σ α) (k : σ → α → κ') : Grows (observe k m) := by
  intro t w h
  refine wp_observe (wp_true m) (fun w₁ _ => h) fun a w₁ _ => ?_
  exact h.trans (List.prefix_append _ _)

/-- What the call of an observed program cannot break holds wherever it can stand. -/
theorem keeps_observe {J : List (κ' × σ) → Prop} {k : σ → α → κ'} (m : Prog ε κ σ α)
    (h : ∀ t s s' a, J t → J (t ++ [(k s' a, s)])) :
    Keeps (fun _ => True) (fun w => J w.trace) (observe k m) := by
  intro w hw
  exact wp_observe (wp_true m) (fun _ _ => hw) fun a w₁ _ => h w.trace w.st w₁.st a hw

theorem keeps_label {J : List (κ × σ) → Prop} {k : κ} {E : ε → Prop}
    (h : ∀ t s, J t → J (t ++ [(k, s)])) :
    Keeps E (fun w => J w.trace) (label k) :=
  fun w hw => wp_label (h w.trace w.st hw)

/-! ## Programs that differ in what they record -/

/-- From one state, the programs reach one state, with one result and one rest of the script. -/
def Alike (m : Prog ε κ σ α) (m' : Prog ε κ' σ α) : Prop :=
  ∀ es w w', w.st = w'.st → (m es w).1.st = (m' es w').1.st ∧ (m es w).2 = (m' es w').2

theorem alike_pure (a : α) : Alike (Pure.pure a : Prog ε κ σ α) (Pure.pure a : Prog ε κ' σ α) :=
  fun _ _ _ h => ⟨h, rfl⟩

theorem alike_get : Alike (get : Prog ε κ σ σ) (get : Prog ε κ' σ σ) := by
  intro es w w' h
  refine ⟨h, ?_⟩
  simp only [get, h]

theorem alike_modify (f : σ → σ) :
    Alike (modify f : Prog ε κ σ Unit) (modify f : Prog ε κ' σ Unit) :=
  fun _ _ _ h => ⟨congrArg f h, rfl⟩

/-- A point of the code, recorded under two names. -/
theorem alike_label (k : κ) (k' : κ') :
    Alike (label k : Prog ε κ σ Unit) (label k' : Prog ε κ' σ Unit) :=
  fun _ _ _ h => ⟨h, rfl⟩

theorem alike_stop : Alike (stop : Prog ε κ σ α) (stop : Prog ε κ' σ α) := fun _ _ _ h => ⟨h, rfl⟩

theorem alike_step (f : ε → σ → Option (List (κ × σ) × σ × α)) :
    Alike (Prog.step f) (Prog.step f) := by
  intro es w w' h
  rcases es with _ | ⟨e, es⟩
  · exact ⟨h, rfl⟩
  · simp only [Prog.step, ← h]
    split
    · exact ⟨h, rfl⟩
    · exact ⟨rfl, rfl⟩

theorem Alike.bind {m : Prog ε κ σ α} {m' : Prog ε κ' σ α} {f : α → Prog ε κ σ β}
    {f' : α → Prog ε κ' σ β} (hm : Alike m m') (hf : ∀ a, Alike (f a) (f' a)) :
    Alike (m >>= f) (m' >>= f') := by
  intro es w w' h
  obtain ⟨hst, hres⟩ := hm es w w' h
  rw [bind_run, bind_run]
  -- both are cut, or both return, with one result and one rest
  rcases hr : m es w with ⟨w₁, _ | ⟨a, es₁⟩⟩ <;> rcases hr' : m' es w' with ⟨w₂, _ | ⟨a', es₂⟩⟩
  all_goals rw [hr, hr'] at hst hres
  · exact ⟨hst, rfl⟩
  · cases hres
  · cases hres
  · cases hres
    exact hf a es₁ w₁ w₂ hst

theorem Alike.ite {c : Prop} [Decidable c] {m₁ m₂ : Prog ε κ σ α} {m₁' m₂' : Prog ε κ' σ α}
    (h₁ : Alike m₁ m₁') (h₂ : Alike m₂ m₂') :
    Alike (if c then m₁ else m₂) (if c then m₁' else m₂') := by
  split
  · exact h₁
  · exact h₂

/-- A point that is recorded on one side only. -/
theorem Alike.label_right {m : Prog ε κ σ α} {m' : Prog ε κ' σ α} (h : Alike m m') (k : κ') :
    Alike m (label k >>= fun _ => m') :=
  fun es w w' hst => h es w ⟨w'.st, w'.trace ++ [(k, w'.st)]⟩ hst

/-- The state is looked at on one side only. -/
theorem Alike.get_right {m : Prog ε κ σ α} {f : σ → Prog ε κ' σ α} (h : ∀ s, Alike m (f s)) :
    Alike m (get >>= f) :=
  fun es w w' hst => h w'.st es w w' hst

/-- **Loops are alike** when their bodies are. -/
theorem Alike.iter {body : γ → Prog ε κ σ (γ ⊕ ρ)} {body' : γ → Prog ε κ' σ (γ ⊕ ρ)}
    (h : ∀ x, Alike (body x) (body' x)) (x : γ) : Alike (Prog.iter body x) (Prog.iter body' x) := by
  have key : ∀ n x, Alike (iterN body n x) (iterN body' n x) := by
    intro n
    induction n with
    | zero => exact fun _ _ _ _ hst => ⟨hst, rfl⟩
    | succ n ih =>
      intro x
      refine (h x).bind fun r => ?_
      rcases r with x' | r
      · exact ih x'
      · exact alike_pure r
  exact fun es => key (es.length + 1) x es

/-- **What is observed does what it did**, when that does not depend on what was recorded. -/
theorem alike_observe {m : Prog ε κ σ α} (hm : Alike m m) (k : σ → α → κ') :
    Alike m (observe k m) := by
  intro es w w' h
  obtain ⟨hst, hres⟩ := hm es w ⟨w'.st, []⟩ h
  unfold observe
  rw [hst, hres]
  rcases m es ⟨w'.st, []⟩ with ⟨w₁, _ | ⟨a, es'⟩⟩
  · exact ⟨rfl, rfl⟩
  · exact ⟨rfl, rfl⟩

end Prog

end Scripted
