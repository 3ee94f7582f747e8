import PadSvr.Scripted.Wp

/-!
# Protocols

A protocol says which calls are allowed one after the other: a state says of each call whether it
may come now, and which state comes next. A trace keeps to the protocol when all its calls, from
the first on, are allowed.

## Main definitions

* `Protocol κ σ τ`: a protocol with states `τ`
* `Protocol.after P q t`: where the trace `t` leads from `q`, unless a call of it is not allowed
* `Protocol.Allows P q t`: all calls of `t` are allowed
* `Protocol.At P q₀ q w`: the run `w` has come to `q`

## Main results

* `Protocol.after_append`, `Protocol.At.append`: a protocol is kept to part by part
* `Protocol.after_map`: a part of a program keeps to its part of the protocol
* `Protocol.keeps_label`, `Protocol.keeps_modify`: what stays in one state of the protocol
-/

namespace Scripted

open Prog

/-- What a state makes of a call: the next state, or `none` where the call is not allowed. -/
structure Protocol (κ σ τ : Type) where
  next : τ → κ → σ → Option τ

namespace Protocol

variable {ε κ κ' σ σ' τ : Type} (P : Protocol κ σ τ)

/-- The state after the calls of a trace. -/
def after (q : τ) (t : List (κ × σ)) : Option τ := t.foldlM (fun q x => P.next q x.1 x.2) q

/-- All calls of the trace are allowed. -/
def Allows (q : τ) (t : List (κ × σ)) : Prop := (P.after q t).isSome

instance (q : τ) (t : List (κ × σ)) : Decidable (P.Allows q t) :=
  inferInstanceAs (Decidable (_ = true))

/-- The run has kept to the protocol so far, and has come to `q`. -/
def At (q₀ q : τ) (w : Run κ σ) : Prop := P.after q₀ w.trace = some q

variable {P} {q q' q₀ : τ} {w : Run κ σ}

@[simp] theorem after_nil : P.after q [] = some q := rfl

theorem after_append (t t' : List (κ × σ)) :
    P.after q (t ++ t') = (P.after q t).bind fun q' => P.after q' t' := by
  rw [after, List.foldlM_append]
  rfl

theorem after_concat (t : List (κ × σ)) (k : κ) (s : σ) :
    P.after q (t ++ [(k, s)]) = (P.after q t).bind fun q' => P.next q' k s := by
  rw [after_append]
  congr 1
  funext q'
  simp [after]

/-- A trace that has been cut. -/
theorem Allows.of_prefix {t t' : List (κ × σ)} (h : P.Allows q t) (ht : t' <+: t) :
    P.Allows q t' := by
  obtain ⟨u, rfl⟩ := ht
  obtain ⟨q₁, hq₁⟩ := Option.isSome_iff_exists.mp h
  rw [after_append] at hq₁
  obtain ⟨q', hq', -⟩ := Option.bind_eq_some_iff.mp hq₁
  exact Option.isSome_iff_exists.mpr ⟨q', hq'⟩

theorem At.allows (h : P.At q₀ q w) : P.Allows q₀ w.trace := by
  rw [Allows, show P.after q₀ w.trace = some q from h]
  rfl

/-- The trace does not change. -/
theorem At.silent (h : P.At q₀ q w) (s : σ) : P.At q₀ q ⟨s, w.trace⟩ := h

/-- One more call. -/
theorem At.call (h : P.At q₀ q w) {k : κ} {s : σ} (hk : P.next q k s = some q') (s' : σ) :
    P.At q₀ q' ⟨s', w.trace ++ [(k, s)]⟩ := by
  show P.after q₀ (w.trace ++ [(k, s)]) = some q'
  rw [after_concat, show P.after q₀ w.trace = some q from h]
  exact hk

/-- Calls that come from a part of the program, when the protocol makes of them what the part's
own protocol does. -/
theorem after_map {P' : Protocol κ' σ' τ} {f : κ × σ → κ' × σ'}
    (hf : ∀ q x, P'.next q (f x).1 (f x).2 = P.next q x.1 x.2) (t : List (κ × σ)) :
    P'.after q (t.map f) = P.after q t := by
  induction t generalizing q with
  | nil => rfl
  | cons x t ih =>
    simp only [after, List.map_cons, List.foldlM_cons, hf]
    rcases P.next q x.1 x.2 with _ | q'
    · rfl
    · exact ih

/-- A part of the program has brought the protocol from `q` to `q'`. -/
theorem At.append (h : P.At q₀ q w) {t : List (κ × σ)} (ht : P.after q t = some q') (s : σ) :
    P.At q₀ q' ⟨s, w.trace ++ t⟩ := by
  show P.after q₀ (w.trace ++ t) = some q'
  rw [after_append, show P.after q₀ w.trace = some q from h]
  exact ht

section Rules

variable {E : ε → Prop}

/-- A point of the code that leaves the state as it is. -/
theorem keeps_label {k : κ} (hk : ∀ s, P.next q k s = some q) :
    Keeps E (P.At q₀ q) (label k) := fun _ hw => wp_label (hw.call (hk _) _)

theorem keeps_modify (f : σ → σ) : Keeps E (P.At q₀ q) (modify f : Prog ε κ σ Unit) :=
  fun _ hw => wp_modify hw

end Rules

end Protocol

end Scripted
