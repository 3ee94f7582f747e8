import PadSvr.Scripted.Program
import Mathlib.Data.List.Induction

/-!
# Weakest preconditions of scripted programs

`wp E I m Q w` says what holds of every run of `m` from `w` under the scripts whose entries all
satisfy `E`: a run that returns ends in `Q`, and a run that is cut ends in `I`. Since every
prefix of a run is the run of a shorter script, `I` holds wherever the program can stand.

## Main definitions

* `wp E I m Q w`: the weakest precondition
* `Restores E I J m`: `m` starts and ends in `J`, and stands in `I` meanwhile
* `Keeps E J m`: `m` keeps `J` at every point of its runs
* `Always G t`: every call of the trace `t` satisfies `G`, given the calls before it

## Main results

* `wp_bind`, `wp_step`, `wp_iter`: the rules of composition, of atomic statements and of loops
* `wp_mono`, `wp_and`: consequence and conjunction
* `always_of_wp`, `post_of_wp`: what holds at every point of a run, and where it returns
-/

namespace Scripted

namespace Prog

variable {ε κ σ α β γ ρ : Type}

/-- Every run of `m` from `w` under scripts of `E` either returns in `Q` or is cut in `I`. -/
def wp (E : ε → Prop) (I : Run κ σ → Prop) (m : Prog ε κ σ α) (Q : α → Run κ σ → Prop)
    (w : Run κ σ) : Prop :=
  ∀ es : List ε, (∀ e ∈ es, E e) →
    match m es w with
    | (w', none) => I w'
    | (w', some (a, es')) => Q a w' ∧ ∀ e ∈ es', E e

section Rules

variable {E E' : ε → Prop} {I I' J : Run κ σ → Prop} {w : Run κ σ}

theorem wp_pure {a : α} {Q : α → Run κ σ → Prop} (h : Q a w) :
    wp E I (Pure.pure a) Q w := fun _ hes => ⟨h, hes⟩

theorem wp_bind {m : Prog ε κ σ α} {f : α → Prog ε κ σ β} {Q : β → Run κ σ → Prop}
    (h : wp E I m (fun a w' => wp E I (f a) Q w') w) : wp E I (m >>= f) Q w := by
  intro es hes
  have hm := h es hes
  rw [bind_run]
  rcases hr : m es w with ⟨w', _ | ⟨a, es'⟩⟩
  · simpa [hr] using hm
  · rw [hr] at hm
    exact hm.1 es' hm.2

theorem wp_get {Q : σ → Run κ σ → Prop} (h : Q w.st w) : wp E I get Q w :=
  fun _ hes => ⟨h, hes⟩

theorem wp_modify {f : σ → σ} {Q : Unit → Run κ σ → Prop} (h : Q () ⟨f w.st, w.trace⟩) :
    wp E I (modify f) Q w := fun _ hes => ⟨h, hes⟩

theorem wp_label {k : κ} {Q : Unit → Run κ σ → Prop}
    (h : Q () ⟨w.st, w.trace ++ [(k, w.st)]⟩) : wp E I (label k) Q w := fun _ hes => ⟨h, hes⟩

theorem wp_stop {Q : α → Run κ σ → Prop} (h : I w) : wp E I stop Q w := fun _ _ => h

/-- An atomic statement: the run may be cut before it, and otherwise the environment picks an
entry of `E` on which the statement returns. -/
theorem wp_step {f : ε → σ → Option (List (κ × σ) × σ × α)} {Q : α → Run κ σ → Prop} (hI : I w)
    (h : ∀ e, E e → ∀ r, f e w.st = some r → Q r.2.2 ⟨r.2.1, w.trace ++ r.1⟩) :
    wp E I (step f) Q w := by
  intro es hes
  cases es with
  | nil => exact hI
  | cons e es' =>
    have he : E e := hes e (List.mem_cons_self ..)
    have hes' : ∀ e' ∈ es', E e' := fun e' h' => hes e' (List.mem_cons_of_mem _ h')
    rcases hf : f e w.st with _ | r
    · simpa [step, hf] using hI
    · simpa [step, hf] using ⟨h e he r hf, hes'⟩

/-- **The loop rule**: the invariant ranges over the loop-carried variables and the run. -/
theorem wp_iter {body : γ → Prog ε κ σ (γ ⊕ ρ)} {Q : ρ → Run κ σ → Prop}
    (Inv : γ → Run κ σ → Prop) (hI : ∀ x w, Inv x w → I w)
    (hbody : ∀ x w, Inv x w →
      wp E I (body x) (fun r w' => r.elim (fun x' => Inv x' w') fun a => Q a w') w)
    {x : γ} (hx : Inv x w) : wp E I (iter body x) Q w := by
  have key : ∀ n x w, Inv x w → wp E I (iterN body n x) Q w := by
    intro n
    induction n with
    | zero => exact fun x w h => wp_stop (hI x w h)
    | succ n ih =>
      intro x w h
      refine wp_bind fun es hes => ?_
      have hb := hbody x w h es hes
      rcases hr : body x es w with ⟨w', _ | ⟨x' | a, es'⟩⟩
      · simpa [hr] using hb
      · rw [hr] at hb
        exact ⟨ih x' w' hb.1, hb.2⟩
      · rw [hr] at hb
        exact ⟨wp_pure hb.1, hb.2⟩
  exact fun es hes => key (es.length + 1) x w hx es hes

theorem wp_mono {m : Prog ε κ σ α} {Q Q' : α → Run κ σ → Prop} (h : wp E I m Q w)
    (hI : ∀ w', I w' → I' w') (hQ : ∀ a w', Q a w' → Q' a w') : wp E I' m Q' w := by
  intro es hes
  have hm := h es hes
  rcases hr : m es w with ⟨w', _ | ⟨a, es'⟩⟩
  · rw [hr] at hm
    exact hI w' hm
  · rw [hr] at hm
    exact ⟨hQ a w' hm.1, hm.2⟩

/-- Nothing is asked of the run, nor of the script. -/
theorem wp_true (m : Prog ε κ σ α) :
    wp (fun _ => True) (fun _ => True) m (fun _ _ => True) w := by
  intro es _
  rcases m es w with ⟨w', _ | ⟨a, es'⟩⟩
  · trivial
  · exact ⟨trivial, fun _ _ => trivial⟩

theorem wp_and {m : Prog ε κ σ α} {Q Q' : α → Run κ σ → Prop} (h : wp E I m Q w)
    (h' : wp E I' m Q' w) :
    wp E (fun w' => I w' ∧ I' w') m (fun a w' => Q a w' ∧ Q' a w') w := by
  intro es hes
  have hm := h es hes
  have hm' := h' es hes
  rcases hr : m es w with ⟨w', _ | ⟨a, es'⟩⟩
  · rw [hr] at hm hm'
    exact ⟨hm, hm'⟩
  · rw [hr] at hm hm'
    exact ⟨⟨hm.1, hm'.1⟩, hm.2⟩

/-- A program, and what comes after it. -/
theorem wp_seq {m : Prog ε κ σ α} {f : α → Prog ε κ σ β} {Q : α → Run κ σ → Prop}
    {Q' : β → Run κ σ → Prop} (h : wp E I m Q w) (hf : ∀ a w', Q a w' → wp E I (f a) Q' w') :
    wp E I (m >>= f) Q' w :=
  wp_bind (wp_mono h (fun _ h => h) hf)

/-- What a weakest precondition says of a run that returns. -/
theorem post_of_wp {m : Prog ε κ σ α} {Q : α → Run κ σ → Prop} (h : wp E I m Q w) {es es' : List ε}
    (hes : ∀ e ∈ es, E e) {w' : Run κ σ} {a : α} (hr : m es w = (w', some (a, es'))) :
    Q a w' := by
  have hm := h es hes
  rw [hr] at hm
  exact hm.1

/-- What a weakest precondition says of every run, returned or cut. -/
theorem always_of_wp {m : Prog ε κ σ α} {Q : α → Run κ σ → Prop} (h : wp E I m Q w)
    (hQ : ∀ a w', Q a w' → I w') {es : List ε} (hes : ∀ e ∈ es, E e) : I (m es w).1 := by
  have hm := h es hes
  rcases hr : m es w with ⟨w', _ | ⟨a, es'⟩⟩
  · simpa [hr] using hm
  · rw [hr] at hm
    exact hQ a w' hm.1

/-- The program restores `J`: a run that starts in it stands in `I`, and returns in `J`. -/
def Restores (E : ε → Prop) (I J : Run κ σ → Prop) (m : Prog ε κ σ α) : Prop :=
  ∀ w, J w → wp E I m (fun _ => J) w

theorem Restores.pure {a : α} : Restores E I J (Pure.pure a : Prog ε κ σ α) := fun _ h => wp_pure h

theorem Restores.get : Restores E I J (get : Prog ε κ σ σ) := fun _ h => wp_get h

theorem Restores.bind {m : Prog ε κ σ α} {f : α → Prog ε κ σ β} (hm : Restores E I J m)
    (hf : ∀ a, Restores E I J (f a)) : Restores E I J (m >>= f) := fun w h =>
  wp_seq (hm w h) fun a w' h' => hf a w' h'

theorem Restores.ite {c : Prop} [Decidable c] {m m' : Prog ε κ σ α} (hm : Restores E I J m)
    (hm' : Restores E I J m') : Restores E I J (if c then m else m') := by
  split
  · exact hm
  · exact hm'

theorem Restores.iter {body : γ → Prog ε κ σ (γ ⊕ ρ)} (hI : ∀ w, J w → I w)
    (hb : ∀ x, Restores E I J (body x)) (x : γ) : Restores E I J (Prog.iter body x) :=
  fun _ hw => wp_iter (fun _ => J) (fun _ w h => hI w h)
    (fun x w h => wp_mono (hb x w h) (fun _ h' => h') fun r _ h' => by cases r <;> exact h') hw

/-- The program keeps `J`: it holds wherever a run that starts in it can stand. -/
def Keeps (E : ε → Prop) (J : Run κ σ → Prop) (m : Prog ε κ σ α) : Prop :=
  ∀ w, J w → wp E J m (fun _ => J) w

theorem Keeps.restores {m : Prog ε κ σ α} (hm : Keeps E J m) (hI : ∀ w, J w → I w) :
    Restores E I J m := fun w h => wp_mono (hm w h) hI fun _ _ h' => h'

theorem Keeps.pure {a : α} : Keeps E J (Pure.pure a : Prog ε κ σ α) := Restores.pure

theorem Keeps.get : Keeps E J (get : Prog ε κ σ σ) := Restores.get

theorem Keeps.bind {m : Prog ε κ σ α} {f : α → Prog ε κ σ β} (hm : Keeps E J m)
    (hf : ∀ a, Keeps E J (f a)) : Keeps E J (m >>= f) := Restores.bind hm hf

theorem Keeps.ite {c : Prop} [Decidable c] {m m' : Prog ε κ σ α} (hm : Keeps E J m)
    (hm' : Keeps E J m') : Keeps E J (if c then m else m') := Restores.ite hm hm'

/-- What keeps two assertions keeps both together. -/
theorem Keeps.and {J' : Run κ σ → Prop} {m : Prog ε κ σ α} (hm : Keeps E J m)
    (hm' : Keeps E J' m) : Keeps E (fun w => J w ∧ J' w) m := fun w h =>
  wp_and (hm w h.1) (hm' w h.2)

theorem Keeps.iter {body : γ → Prog ε κ σ (γ ⊕ ρ)} (hb : ∀ x, Keeps E J (body x)) (x : γ) :
    Keeps E J (Prog.iter body x) := Restores.iter (fun _ h => h) hb x

end Rules

end Prog

section Trace

variable {κ σ : Type} {G : List (κ × σ) → κ → σ → Prop}

/-- Every call of the trace satisfies `G`, given the calls before it. -/
def Always (G : List (κ × σ) → κ → σ → Prop) (t : List (κ × σ)) : Prop :=
  ∀ t₁ k s t₂, t = t₁ ++ (k, s) :: t₂ → G t₁ k s

@[simp] theorem always_nil : Always G [] := by
  intro t₁ k s t₂ h
  simp at h

theorem always_of_append {t t' : List (κ × σ)} (h : Always G (t ++ t')) : Always G t :=
  fun t₁ k s t₂ ht => h t₁ k s (t₂ ++ t') (by rw [ht]; simp)

@[simp] theorem always_concat {t : List (κ × σ)} {k : κ} {s : σ} :
    Always G (t ++ [(k, s)]) ↔ Always G t ∧ G t k s := by
  constructor
  · intro h
    exact ⟨fun t₁ k' s' t₂ ht => h t₁ k' s' (t₂ ++ [(k, s)]) (by simp [ht]), h t k s [] rfl⟩
  · rintro ⟨h, hk⟩ t₁ k' s' t₂ ht
    rcases List.eq_nil_or_concat t₂ with rfl | ⟨t₃, x, rfl⟩
    · obtain ⟨rfl, hx⟩ := List.append_inj' ht rfl
      obtain ⟨rfl, rfl⟩ : k = k' ∧ s = s' := by simpa using hx
      exact hk
    · have ht' : t ++ [(k, s)] = (t₁ ++ (k', s') :: t₃) ++ [x] := by simpa using ht
      exact h t₁ k' s' t₃ (List.append_inj' ht' rfl).1

/-- One of the calls of the trace is a `p`. -/
def occurs (p : κ → Bool) (t : List (κ × σ)) : Bool := t.any fun x => p x.1

@[simp] theorem occurs_nil (p : κ → Bool) : occurs p ([] : List (κ × σ)) = false := rfl

@[simp] theorem occurs_append (p : κ → Bool) (t t' : List (κ × σ)) :
    occurs p (t ++ t') = (occurs p t || occurs p t') := List.any_append

@[simp] theorem occurs_singleton (p : κ → Bool) (x : κ × σ) : occurs p [x] = p x.1 := by
  simp [occurs]

/-- New calls that satisfy `G` whatever came before them. -/
theorem always_append {t t' : List (κ × σ)} (h : Always G t)
    (ht : ∀ x ∈ t', ∀ t₁, G t₁ x.1 x.2) : Always G (t ++ t') := by
  induction t' using List.reverseRecOn with
  | nil => simpa using h
  | append_singleton t' x ih =>
    rw [← List.append_assoc]
    exact always_concat.mpr ⟨ih fun y hy => ht y (by simp [hy]), ht x (by simp) _⟩

/-- New calls that come from another trace. -/
theorem always_append_map {κ' σ' : Type} {G' : List (κ' × σ') → κ' → σ' → Prop}
    {f : κ' × σ' → κ × σ} {t : List (κ × σ)} {t' : List (κ' × σ')} (h : Always G t)
    (h' : Always G' t')
    (hG : ∀ t₁ k s, G' t₁ k s → G (t ++ t₁.map f) (f (k, s)).1 (f (k, s)).2) :
    Always G (t ++ t'.map f) := by
  induction t' using List.reverseRecOn with
  | nil => simpa using h
  | append_singleton t' x ih =>
    obtain ⟨ht', hx⟩ := always_concat.mp h'
    rw [List.map_append, ← List.append_assoc]
    exact always_concat.mpr ⟨ih ht', hG _ _ _ hx⟩

theorem always_iff_get {t : List (κ × σ)} :
    Always G t ↔ ∀ i : Fin t.length, G (t.take i) (t.get i).1 (t.get i).2 := by
  constructor
  · intro h i
    refine h _ _ _ (t.drop (i + 1)) ?_
    show t = t.take i ++ t.get i :: t.drop (i + 1)
    rw [List.get_eq_getElem, ← List.drop_eq_getElem_cons i.isLt, List.take_append_drop]
  · intro h t₁ k s t₂ ht
    subst ht
    have hi := h ⟨t₁.length, by simp⟩
    simpa using hi

instance [∀ t k s, Decidable (G t k s)] (t : List (κ × σ)) : Decidable (Always G t) :=
  decidable_of_iff _ always_iff_get.symm

end Trace

end Scripted
