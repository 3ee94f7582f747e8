import Mathlib.Data.List.Basic
import Mathlib.Tactic.Common

/-!
# Scripted programs

A program that runs inside an environment it does not control. At every atomic statement it
takes one entry of a script: what the environment does just before the statement, and how it
answers. A run is cut where its script ends, so the runs of all scripts are all the finite
prefixes of all executions. The calls a run makes are recorded in its trace, each with the
state it was made in.

## Main definitions

* `Run κ σ`: a state and the trace of the calls that led to it
* `Prog ε κ σ α`: programs over script entries `ε`, calls `κ` and states `σ`
* `Prog.step`: one atomic statement
* `Prog.iter`: a loop over loop-carried variables
-/

namespace Scripted

/-- Where a run stands: its state, and the calls made so far, each with the state it was made
in. -/
structure Run (κ σ : Type) where
  st : σ
  trace : List (κ × σ)

/-- A program: from a script and a run, the run it reaches and, unless the script ended or the
program stopped for good, its result with the rest of the script. -/
def Prog (ε κ σ α : Type) : Type :=
  List ε → Run κ σ → Run κ σ × Option (α × List ε)

namespace Prog

variable {ε κ σ α β γ ρ : Type}

/-- The program that does nothing. -/
protected def pure (a : α) : Prog ε κ σ α := fun es w => (w, some (a, es))

/-- One program after another. -/
protected def bind (m : Prog ε κ σ α) (f : α → Prog ε κ σ β) : Prog ε κ σ β := fun es w =>
  match m es w with
  | (w', none) => (w', none)
  | (w', some (a, es')) => f a es' w'

instance : Monad (Prog ε κ σ) where
  pure := Prog.pure
  bind := Prog.bind

/-- The program that never gets further. -/
def stop : Prog ε κ σ α := fun _ w => (w, none)

/-- The current state. -/
def get : Prog ε κ σ σ := fun es w => (w, some (w.st, es))

/-- A statement on data the environment cannot see: it consumes no script. -/
def modify (f : σ → σ) : Prog ε κ σ Unit := fun es w => (⟨f w.st, w.trace⟩, some ((), es))

/-- Record a point of the code in the trace. -/
def label (k : κ) : Prog ε κ σ Unit := fun es w =>
  (⟨w.st, w.trace ++ [(k, w.st)]⟩, some ((), es))

/-- One atomic statement: it takes an entry of the script, records calls, and changes the state.
On `none` the environment never lets it return. -/
def step (f : ε → σ → Option (List (κ × σ) × σ × α)) : Prog ε κ σ α := fun es w =>
  match es with
  | [] => (w, none)
  | e :: es' =>
    match f e w.st with
    | none => (w, none)
    | some (ks, s, a) => (⟨s, w.trace ++ ks⟩, some (a, es'))

/-- A loop cut after `n` rounds: the body returns the variables of the next round, or the
result. -/
def iterN (body : γ → Prog ε κ σ (γ ⊕ ρ)) : ℕ → γ → Prog ε κ σ ρ
  | 0, _ => stop
  | n + 1, x => body x >>= fun
    | .inl x' => iterN body n x'
    | .inr r => Pure.pure r

/-- A loop. The length of the script bounds its rounds, and cuts no body short that takes an entry
in every round. -/
def iter (body : γ → Prog ε κ σ (γ ⊕ ρ)) (x : γ) : Prog ε κ σ ρ := fun es w =>
  iterN body (es.length + 1) x es w

@[simp] theorem pure_run (a : α) (es : List ε) (w : Run κ σ) :
    (Pure.pure a : Prog ε κ σ α) es w = (w, some (a, es)) := rfl

theorem bind_run (m : Prog ε κ σ α) (f : α → Prog ε κ σ β) (es : List ε) (w : Run κ σ) :
    (m >>= f) es w =
      match m es w with
      | (w', none) => (w', none)
      | (w', some (a, es')) => f a es' w' := rfl

end Prog

end Scripted
