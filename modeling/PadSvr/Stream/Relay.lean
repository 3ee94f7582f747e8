import Mathlib.Data.List.Infix
import Mathlib.Tactic.Common

/-!
# Relays

What a program that copies a stream is for: it takes items in, holds some of them, and passes them
on in order, each once. Whatever a relay takes in is either passed on already or held, so what has
been passed on is always a prefix of what was taken in.

## Main definitions

* `Relay α`: a relay of items of type `α`
* `Relay.feed`, `Relay.send`: its two steps

## Main results

* `Relay.passed_isPrefix`: what is passed on is a prefix of what was taken in
-/

namespace Stream

variable {α : Type*}

/-- A relay: what it has taken in, what it has passed on, and what it holds. -/
structure Relay (α : Type*) where
  taken : List α
  passed : List α
  held : List α
  whole : passed ++ held = taken

namespace Relay

/-- The relay that has seen nothing. -/
def empty : Relay α := ⟨[], [], [], rfl⟩

/-- Take in `xs`. -/
def feed (r : Relay α) (xs : List α) : Relay α :=
  ⟨r.taken ++ xs, r.passed, r.held ++ xs, by rw [← r.whole, List.append_assoc]⟩

/-- Pass on the first `k` of the items held. -/
def send (r : Relay α) (k : ℕ) : Relay α :=
  ⟨r.taken, r.passed ++ r.held.take k, r.held.drop k, by
    rw [List.append_assoc, List.take_append_drop, r.whole]⟩

variable (r : Relay α)

@[simp] theorem feed_taken (xs : List α) : (r.feed xs).taken = r.taken ++ xs := rfl

@[simp] theorem feed_passed (xs : List α) : (r.feed xs).passed = r.passed := rfl

@[simp] theorem feed_held (xs : List α) : (r.feed xs).held = r.held ++ xs := rfl

@[simp] theorem send_taken (k : ℕ) : (r.send k).taken = r.taken := rfl

@[simp] theorem send_passed (k : ℕ) : (r.send k).passed = r.passed ++ r.held.take k := rfl

@[simp] theorem send_held (k : ℕ) : (r.send k).held = r.held.drop k := rfl

/-- **What a relay passes on is a prefix of what it takes in.** -/
theorem passed_isPrefix : r.passed <+: r.taken := ⟨r.held, r.whole⟩

/-- A relay that holds nothing has passed everything on. -/
theorem passed_eq_of_held_nil (h : r.held = []) : r.passed = r.taken := by
  rw [← r.whole, h, List.append_nil]

end Relay

end Stream
