import PadSvr.Scripted.Zoom

/-!
# Loops without a bound

The rounds of a loop are bounded by the length of its script. A body that takes an entry of the
script in every round it asks to repeat is not cut short by that: its loop is the body, followed by
the loop. What matters for it is how much of its script a program leaves, and each construct says so
once.

## Main definitions

* `Prog.Thrifty`: a program that leaves no more script than it gets
* `Prog.Takes`: a program that leaves less
* `Prog.Again`: a round that leaves less when it asks to be repeated
* `Prog.Productive`: a loop body all whose rounds do

## Main results

* `Prog.iter_eq`: a loop with a productive body is its body followed by the loop
* `Prog.Productive.thrifty`: such a loop leaves no more script than it gets
* `Prog.Productive.induction`, `Prog.Productive.wp_iter`: such loops by induction on the script
-/

namespace Scripted

namespace Prog

variable {ε ε' κ κ' σ σ' α β γ ρ : Type}

/-- A program that leaves no more script than it gets. -/
def Thrifty (m : Prog ε κ σ α) : Prop :=
  ∀ es w w' a es', m es w = (w', some (a, es')) → es'.length ≤ es.length

/-- A program that leaves less script than it gets. -/
def Takes (m : Prog ε κ σ α) : Prop :=
  ∀ es w w' a es', m es w = (w', some (a, es')) → es'.length < es.length

/-- A round that leaves less script than it gets when it asks to be repeated. -/
structure Again (m : Prog ε κ σ (γ ⊕ ρ)) : Prop where
  thrifty : Thrifty m
  less : ∀ es w w' x es', m es w = (w', some (.inl x, es')) → es'.length < es.length

/-- A loop body that consumes script at every round it asks to repeat. -/
def Productive (body : γ → Prog ε κ σ (γ ⊕ ρ)) : Prop := ∀ x, Again (body x)

theorem bind_bind (m : Prog ε κ σ α) (f : α → Prog ε κ σ β) (g : β → Prog ε κ σ γ) :
    (m >>= f) >>= g = m >>= fun a => f a >>= g := by
  funext es w
  simp only [bind_run]
  rcases m es w with ⟨w', _ | ⟨a, es'⟩⟩
  · rfl
  · rfl

/-! ## What the constructs leave -/

theorem Takes.thrifty {m : Prog ε κ σ α} (h : Takes m) : Thrifty m :=
  fun es w w' a es' hr => Nat.le_of_lt (h es w w' a es' hr)

theorem Takes.again {m : Prog ε κ σ (γ ⊕ ρ)} (h : Takes m) : Again m where
  thrifty := h.thrifty
  less := fun es w w' x es' hr => h es w w' (.inl x) es' hr

theorem takes_step (f : ε → σ → Option (List (κ × σ) × σ × α)) : Takes (Prog.step f) := by
  intro es w w' a es' hr
  rcases es with _ | ⟨e, es⟩
  · cases hr
  · simp only [Prog.step] at hr
    split at hr
    · cases hr
    · cases hr
      exact Nat.lt_succ_self _

theorem takes_stop : Takes (stop : Prog ε κ σ α) := nofun

theorem thrifty_pure (a : α) : Thrifty (Pure.pure a : Prog ε κ σ α) := by
  intro es w w' a' es' hr
  cases hr
  exact Nat.le_refl _

theorem thrifty_get : Thrifty (get : Prog ε κ σ σ) := by
  intro es w w' a es' hr
  cases hr
  exact Nat.le_refl _

theorem thrifty_modify (f : σ → σ) : Thrifty (modify f : Prog ε κ σ Unit) := by
  intro es w w' a es' hr
  cases hr
  exact Nat.le_refl _

theorem thrifty_label (k : κ) : Thrifty (label k : Prog ε κ σ Unit) := by
  intro es w w' a es' hr
  cases hr
  exact Nat.le_refl _

theorem again_inr (r : ρ) : Again (Pure.pure (.inr r) : Prog ε κ σ (γ ⊕ ρ)) where
  thrifty := thrifty_pure _
  less := nofun

/-- A result of `m >>= f` is one of `f`, from where `m` has left off. -/
theorem bind_some {m : Prog ε κ σ α} {f : α → Prog ε κ σ β} {es es' : List ε} {w w' : Run κ σ}
    {b : β} (hr : (m >>= f) es w = (w', some (b, es'))) :
    ∃ w₁ a es₁, m es w = (w₁, some (a, es₁)) ∧ f a es₁ w₁ = (w', some (b, es')) := by
  rw [bind_run] at hr
  rcases hm : m es w with ⟨w₁, _ | ⟨a, es₁⟩⟩
  · rw [hm] at hr
    cases hr
  · rw [hm] at hr
    exact ⟨w₁, a, es₁, rfl, hr⟩

theorem Thrifty.bind {m : Prog ε κ σ α} {f : α → Prog ε κ σ β} (hm : Thrifty m)
    (hf : ∀ a, Thrifty (f a)) : Thrifty (m >>= f) := by
  intro es w w' b es' hr
  obtain ⟨w₁, a, es₁, hm₁, hf₁⟩ := bind_some hr
  exact Nat.le_trans (hf a es₁ w₁ w' b es' hf₁) (hm es w w₁ a es₁ hm₁)

theorem Takes.bind {m : Prog ε κ σ α} {f : α → Prog ε κ σ β} (hm : Takes m)
    (hf : ∀ a, Thrifty (f a)) : Takes (m >>= f) := by
  intro es w w' b es' hr
  obtain ⟨w₁, a, es₁, hm₁, hf₁⟩ := bind_some hr
  exact Nat.lt_of_le_of_lt (hf a es₁ w₁ w' b es' hf₁) (hm es w w₁ a es₁ hm₁)

theorem Thrifty.bind_takes {m : Prog ε κ σ α} {f : α → Prog ε κ σ β} (hm : Thrifty m)
    (hf : ∀ a, Takes (f a)) : Takes (m >>= f) := by
  intro es w w' b es' hr
  obtain ⟨w₁, a, es₁, hm₁, hf₁⟩ := bind_some hr
  exact Nat.lt_of_lt_of_le (hf a es₁ w₁ w' b es' hf₁) (hm es w w₁ a es₁ hm₁)

theorem Thrifty.bind_again {m : Prog ε κ σ α} {f : α → Prog ε κ σ (γ ⊕ ρ)} (hm : Thrifty m)
    (hf : ∀ a, Again (f a)) : Again (m >>= f) where
  thrifty := hm.bind fun a => (hf a).thrifty
  less := by
    intro es w w' x es' hr
    obtain ⟨w₁, a, es₁, hm₁, hf₁⟩ := bind_some hr
    exact Nat.lt_of_lt_of_le ((hf a).less es₁ w₁ w' x es' hf₁) (hm es w w₁ a es₁ hm₁)

section Ite

variable {c : Prop} [Decidable c]

theorem Thrifty.ite {m m' : Prog ε κ σ α} (hm : Thrifty m) (hm' : Thrifty m') :
    Thrifty (if c then m else m') := by
  split
  · exact hm
  · exact hm'

theorem Again.ite {m m' : Prog ε κ σ (γ ⊕ ρ)} (hm : Again m) (hm' : Again m') :
    Again (if c then m else m') := by
  split
  · exact hm
  · exact hm'

end Ite

/-! ## Loops -/

theorem Productive.thrifty {body : γ → Prog ε κ σ (γ ⊕ ρ)} (hb : Productive body) (x : γ) :
    Thrifty (iter body x) := by
  have key : ∀ n x, Thrifty (iterN body n x) := by
    intro n
    induction n with
    | zero => exact fun _ => takes_stop.thrifty
    | succ n ih =>
      intro x
      refine (hb x).thrifty.bind fun r => ?_
      rcases r with x' | r
      · exact ih x'
      · exact thrifty_pure r
  exact fun es => key (es.length + 1) x es

/-- Past the length of the script, the bound on the rounds of a productive loop is not felt. -/
theorem iterN_eq_of_length_lt {body : γ → Prog ε κ σ (γ ⊕ ρ)} (hb : Productive body) :
    ∀ (n m : ℕ) (x : γ) (es : List ε) (w : Run κ σ), es.length < n → es.length < m →
      iterN body n x es w = iterN body m x es w := by
  intro n
  induction n with
  | zero => intro m x es w hn; omega
  | succ n ih =>
    intro m x es w hn hm
    cases m with
    | zero => omega
    | succ m =>
      simp only [iterN, bind_run]
      rcases hr : body x es w with ⟨w', _ | ⟨x' | r, es'⟩⟩
      · rfl
      · have hlt := (hb x).less es w w' x' es' hr
        exact ih m x' es' w' (by omega) (by omega)
      · rfl

/-- **A loop is its body followed by the loop**, when its body consumes script. -/
theorem iter_eq {body : γ → Prog ε κ σ (γ ⊕ ρ)} (hb : Productive body) (x : γ) :
    iter body x = (body x >>= fun
      | .inl x' => iter body x'
      | .inr r => Pure.pure r) := by
  funext es w
  simp only [iter, iterN, bind_run]
  rcases hr : body x es w with ⟨w', _ | ⟨x' | r, es'⟩⟩
  · rfl
  · have hlt := (hb x).less es w w' x' es' hr
    exact iterN_eq_of_length_lt hb _ _ x' es' w' (by omega) (by omega)
  · rfl

theorem Productive.takes {body : γ → Prog ε κ σ (γ ⊕ ρ)} (hb : Productive body) {x : γ}
    (hx : Takes (body x)) : Takes (iter body x) := by
  rw [iter_eq hb]
  refine hx.bind fun r => ?_
  rcases r with x' | r
  · exact hb.thrifty x'
  · exact thrifty_pure r

/-! ## Induction on the script -/

/-- The run of a productive loop, by the run of its body. -/
theorem iter_run {body : γ → Prog ε κ σ (γ ⊕ ρ)} (hb : Productive body) (x : γ) (es : List ε)
    (w : Run κ σ) :
    iter body x es w =
      match body x es w with
      | (w', none) => (w', none)
      | (w', some (.inl x', es')) => iter body x' es' w'
      | (w', some (.inr r, es')) => (w', some (r, es')) := by
  rw [iter_eq hb, bind_run]
  rcases body x es w with ⟨w', _ | ⟨x' | r, es'⟩⟩
  · rfl
  · rfl
  · rfl

/-- A property of all runs of a productive loop, by induction on the script: the rounds that are
left get less of it. -/
theorem Productive.induction {body : γ → Prog ε κ σ (γ ⊕ ρ)} (hb : Productive body)
    {P : γ → List ε → Run κ σ → Prop}
    (h : ∀ x es w, (∀ w' x' es', body x es w = (w', some (.inl x', es')) → P x' es' w') → P x es w)
    (x : γ) (es : List ε) (w : Run κ σ) : P x es w := by
  induction hn : es.length using Nat.strongRecOn generalizing x es w with
  | ind n ih =>
    refine h x es w fun w' x' es' hr => ?_
    have hlt := (hb x).less es w w' x' es' hr
    exact ih es'.length (by omega) x' es' w' rfl

/-- **The rule of a productive loop**: its invariant need not hold where a run is cut, since no
bound cuts it between two rounds. -/
theorem Productive.wp_iter {body : γ → Prog ε κ σ (γ ⊕ ρ)} (hb : Productive body) {E : ε → Prop}
    {I : Run κ σ → Prop} {Q : ρ → Run κ σ → Prop} (Inv : γ → Run κ σ → Prop)
    (hbody : ∀ x w, Inv x w →
      wp E I (body x) (fun r w' => r.elim (fun x' => Inv x' w') fun a => Q a w') w)
    {x : γ} {w : Run κ σ} (hx : Inv x w) : wp E I (iter body x) Q w := by
  -- where the run is cut, and what it returns, by induction on the script
  have key := hb.induction (P := fun x es w => Inv x w → (∀ e ∈ es, E e) →
    (∀ w', iter body x es w = (w', none) → I w') ∧
      ∀ w' a es', iter body x es w = (w', some (a, es')) → Q a w' ∧ ∀ e ∈ es', E e) <| by
    intro x es w ih hw hes
    have hround := hbody x w hw es hes
    rw [iter_run hb]
    rcases hr : body x es w with ⟨w', _ | ⟨x' | a, es'⟩⟩
    · rw [hr] at hround
      refine ⟨fun w'' h => ?_, nofun⟩
      obtain ⟨rfl, -⟩ := Prod.ext_iff.mp h
      exact hround
    · rw [hr] at hround
      exact ih w' x' es' hr hround.1 hround.2
    · rw [hr] at hround
      refine ⟨nofun, fun w'' b es'' h => ?_⟩
      cases h
      exact hround
  intro es hes
  obtain ⟨hcut, hret⟩ := key x es w hx hes
  rcases hr : iter body x es w with ⟨w', _ | ⟨a, es'⟩⟩
  · exact hcut w' hr
  · exact hret w' a es' hr

/-! ## Parts -/

section Zoom

variable {entry : ε' → ε} {view : σ' → σ} {put : σ' → σ → σ'} {call : κ → κ'}

/-- Whatever a part leaves, the whole leaves no more script than it gets. -/
theorem thrifty_zoom (m : Prog ε κ σ α) : Thrifty (zoom entry view put call m) := by
  intro es w w' a es' hr
  obtain ⟨-, h⟩ := Prod.ext_iff.mp hr
  obtain ⟨x, -, hx⟩ := Option.map_eq_some_iff.mp h
  obtain ⟨-, rfl⟩ := Prod.ext_iff.mp hx
  simp

theorem Takes.zoom {m : Prog ε κ σ α} (hm : Takes m) : Takes (zoom entry view put call m) := by
  intro es w w' a es' hr
  obtain ⟨-, h⟩ := Prod.ext_iff.mp hr
  obtain ⟨x, hx, hx'⟩ := Option.map_eq_some_iff.mp h
  obtain ⟨-, rfl⟩ := Prod.ext_iff.mp hx'
  have hlt := hm (es.map entry) ⟨view w.st, []⟩ _ x.1 x.2 (Prod.ext rfl hx)
  rw [List.length_map] at hlt
  rw [List.length_drop]
  omega

end Zoom

end Prog

end Scripted
