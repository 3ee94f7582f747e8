import PadSvr.Scripted.Wp

/-!
# Programs as parts of programs

A program written for a part of a state runs on the whole of it: it sees the part only, and what
it leaves behind is put back. Its script and its calls are read off those of the whole. A program
can also be given up at any of its statements, and what the environment decides on then is the
result.

## Main definitions

* `Run.under put call w w₁`: the run `w`, continued by what `w₁` did to a part of its state
* `zoom entry view put call m`: `m` on a part of the state
* `upTo stop m`: `m`, unless it is given up

## Main results

* `wp_zoom`, `wp_upTo`: their rules
-/

namespace Scripted

open Prog

variable {ε ε' κ κ' σ σ' α β : Type}

/-- The run `w`, continued by the run `w₁` of a part of its state. -/
def Run.under (put : σ' → σ → σ') (call : κ → κ') (w : Run κ' σ') (w₁ : Run κ σ) : Run κ' σ' :=
  ⟨put w.st w₁.st, w.trace ++ w₁.trace.map fun x => (call x.1, put w.st x.2)⟩

namespace Prog

/-- The program `m` on the part of the state that `view` shows. -/
def zoom (entry : ε' → ε) (view : σ' → σ) (put : σ' → σ → σ') (call : κ → κ')
    (m : Prog ε κ σ α) : Prog ε' κ' σ' α := fun es w =>
  let r := m (es.map entry) ⟨view w.st, []⟩
  (w.under put call r.1, r.2.map fun x => (x.1, es.drop (es.length - x.2.length)))

variable {E : ε → Prop} {E' : ε' → Prop} {I : Run κ σ → Prop} {I' : Run κ' σ' → Prop}
  {entry : ε' → ε} {view : σ' → σ} {put : σ' → σ → σ'} {call : κ → κ'} {w : Run κ' σ'}

/-- **A program on a part of the state** does to the whole what it does to the part. -/
theorem wp_zoom {m : Prog ε κ σ α} {Q : α → Run κ σ → Prop} {Q' : α → Run κ' σ' → Prop}
    (h : wp E I m Q ⟨view w.st, []⟩) (hE : ∀ e, E' e → E (entry e))
    (hI : ∀ w₁, I w₁ → I' (w.under put call w₁))
    (hQ : ∀ a w₁, Q a w₁ → Q' a (w.under put call w₁)) :
    wp E' I' (zoom entry view put call m) Q' w := by
  intro es hes
  have hrun := h (es.map entry) (by simpa using fun e he => hE e (hes e he))
  unfold zoom
  dsimp only
  rcases hr : m (es.map entry) ⟨view w.st, []⟩ with ⟨w₁, _ | ⟨a, es₁⟩⟩
  · rw [hr] at hrun
    exact hI w₁ hrun
  · rw [hr] at hrun
    exact ⟨hQ a w₁ hrun.1, fun e he => hes e (List.mem_of_mem_drop he)⟩

/-- The script before the first entry at which the environment has the program given up, that entry
with its decision, and the script behind it. -/
def firstStop (stop : ε → Option β) : List ε → Option (List ε × (ε × β) × List ε)
  | [] => none
  | e :: es =>
    match stop e with
    | some b => some ([], (e, b), es)
    | none => (firstStop stop es).map fun r => (e :: r.1, r.2)

/-- The program `m`, unless an entry of its script has it given up. -/
def upTo (stop : ε → Option β) (m : Prog ε κ σ α) : Prog ε κ σ (α ⊕ β) := fun es w =>
  match firstStop stop es with
  | none => ((m es w).1, (m es w).2.map fun x => (.inl x.1, x.2))
  | some (es₁, (e, b), es₂) =>
    match m es₁ w with
    | (w', none) => (w', some (.inr b, es₂))
    | (w', some (a, es')) => (w', some (.inl a, es' ++ e :: es₂))

theorem firstStop_eq {stop : ε → Option β} {es es₁ es₂ : List ε} {e : ε} {b : β}
    (h : firstStop stop es = some (es₁, (e, b), es₂)) : es = es₁ ++ e :: es₂ := by
  induction es generalizing es₁ with
  | nil => cases h
  | cons x es ih =>
    unfold firstStop at h
    split at h
    · cases h
      rfl
    · obtain ⟨⟨r₁, r₂⟩, hr, heq⟩ := Option.map_eq_some_iff.mp h
      cases heq
      rw [ih hr, List.cons_append]

/-- **A program that can be given up**: where it can stand, it can be given up. -/
theorem wp_upTo {E : ε → Prop} {I I' : Run κ σ → Prop} {w : Run κ σ} {stop : ε → Option β}
    {m : Prog ε κ σ α} {Q : α → Run κ σ → Prop} {Q' : α ⊕ β → Run κ σ → Prop}
    (h : wp E I m Q w) (hI : ∀ w', I w' → I' w') (hQ : ∀ a w', Q a w' → Q' (.inl a) w')
    (hstop : ∀ b w', I w' → Q' (.inr b) w') : wp E I' (upTo stop m) Q' w := by
  intro es hes
  unfold upTo
  rcases hf : firstStop stop es with _ | ⟨es₁, ⟨e, b⟩, es₂⟩
  · have hrun := h es hes
    rcases hr : m es w with ⟨w', _ | ⟨a, es'⟩⟩
    · rw [hr] at hrun
      exact hI w' hrun
    · rw [hr] at hrun
      exact ⟨hQ a w' hrun.1, hrun.2⟩
  · obtain rfl := firstStop_eq hf
    have hes₂ : ∀ x ∈ es₂, E x := fun x hx => hes x (by simp [hx])
    have hrun := h es₁ fun x hx => hes x (by simp [hx])
    dsimp only
    rcases hr : m es₁ w with ⟨w', _ | ⟨a, es'⟩⟩
    · rw [hr] at hrun
      exact ⟨hstop b w' hrun, hes₂⟩
    · rw [hr] at hrun
      refine ⟨hQ a w' hrun.1, fun x hx => ?_⟩
      rcases List.mem_append.mp hx with hx | hx
      · exact hrun.2 x hx
      · exact hes x (List.mem_append_right es₁ hx)

end Prog

end Scripted
