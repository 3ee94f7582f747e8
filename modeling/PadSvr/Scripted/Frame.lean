import PadSvr.Scripted.Wp
import Mathlib.Order.Defs.Unbundled

/-!
# Frames

What a part of a program can do at most: its state moves along a preorder, and the calls it makes
are of some kinds. A composition stays within a frame when each of its components does.

## Main definitions

* `Within R N w w'`: from `w` to `w'` the state moves along `R`, with new calls in `N`

## Main results

* `Within.trans`, `Within.call`: frames compose, and take one more call
* `Within.always`: what the calls of a frame satisfy, the trace still does
* `wp_within`: what keeps a frame stays within it from where it starts
-/

namespace Scripted

open Prog

variable {ε κ σ α : Type} {R R' : σ → σ → Prop} {N N' : κ → σ → Prop} {w w' w'' : Run κ σ}

/-- From `w` to `w'` the state moves along `R`. Every new call satisfies `N`, in a state that `R`
relates to the first one. -/
def Within (R : σ → σ → Prop) (N : κ → σ → Prop) (w w' : Run κ σ) : Prop :=
  R w.st w'.st ∧ ∃ t, w'.trace = w.trace ++ t ∧ ∀ x ∈ t, R w.st x.2 ∧ N x.1 x.2

theorem Within.refl [Std.Refl R] (w : Run κ σ) : Within R N w w :=
  ⟨Std.Refl.refl w.st, [], by simp⟩

theorem Within.trans [IsTrans σ R] (h : Within R N w w') (h' : Within R N w' w'') :
    Within R N w w'' := by
  obtain ⟨hR, t, ht, hN⟩ := h
  obtain ⟨hR', t', ht', hN'⟩ := h'
  refine ⟨IsTrans.trans _ _ _ hR hR', t ++ t', by rw [ht', ht, List.append_assoc], fun x hx => ?_⟩
  rcases List.mem_append.mp hx with hx | hx
  · exact hN x hx
  · exact ⟨IsTrans.trans _ _ _ hR (hN' x hx).1, (hN' x hx).2⟩

theorem Within.mono (h : Within R N w w') (hR : ∀ s s', R s s' → R' s s')
    (hN : ∀ k s, N k s → N' k s) : Within R' N' w w' := by
  obtain ⟨h, t, ht, hx⟩ := h
  exact ⟨hR _ _ h, t, ht, fun x hm => ⟨hR _ _ (hx x hm).1, hN _ _ (hx x hm).2⟩⟩

/-- A state change that makes no call. -/
theorem Within.of_rel {s : σ} (h : R w.st s) : Within R N w ⟨s, w.trace⟩ := ⟨h, [], by simp⟩

/-- One more call, in a state `s` within the frame. -/
theorem Within.call [IsTrans σ R] (h : Within R N w w') {k : κ} {s s' : σ} (hs : R w'.st s)
    (hs' : R w'.st s') (hk : N k s) : Within R N w ⟨s', w'.trace ++ [(k, s)]⟩ :=
  h.trans ⟨hs', [_], rfl, by simpa using ⟨hs, hk⟩⟩

/-- New calls of the kinds of a frame, whatever came before them. -/
theorem Within.always {G : List (κ × σ) → κ → σ → Prop} (hw : Within R N w w')
    (h : Always G w.trace) (hG : ∀ t k s, N k s → G t k s) : Always G w'.trace := by
  obtain ⟨-, t, ht, hx⟩ := hw
  rw [ht]
  exact always_append h fun x hm t₁ => hG t₁ x.1 x.2 (hx x hm).2

section Keeps

variable {E : ε → Prop} {w₀ : Run κ σ}

/-- What keeps a frame stays within it from where it starts. -/
theorem wp_within [Std.Refl R] {m : Prog ε κ σ α} (h : Keeps E (Within R N w) m) :
    wp E (Within R N w) m (fun _ => Within R N w) w := h w (.refl w)

variable [IsTrans σ R]

theorem keeps_within_modify {f : σ → σ} (h : ∀ s, R s (f s)) :
    Keeps E (Within R N w₀) (modify f) := fun _ hw =>
  wp_modify (hw.trans (.of_rel (h _)))

end Keeps

end Scripted
