import Mathlib.Data.List.Chain
import Mathlib.Tactic.Common

/-!
# Senders that start over

A sender passes on one message after the other in several attempts. An attempt is accepted in
part, and then the rest is tried, or it fails, and then the whole message is tried again. What
was accepted of it before is passed on once more. So the messages are passed on each item once
exactly when no failure follows an attempt that was accepted in part.

## Main definitions

* `Attempt α`: an attempt, and what became of it
* `NoResend as`: no failure follows an attempt that was accepted in part
* `Sender α`: a sender
* `Sender.start`, `Sender.accept`, `Sender.fail`: its steps

## Main results

* `Sender.passed_eq_iff`: what is passed on is what was to be sent exactly when nothing is sent
  again
-/

namespace Stream

variable {α : Type*}

/-- An attempt to pass on `data`: the number of items accepted, or `none` if it failed. -/
structure Attempt (α : Type*) where
  data : List α
  accepted : Option ℕ
deriving DecidableEq

/-- The items accepted. -/
def Attempt.passed (a : Attempt α) : List α :=
  match a.accepted with
  | some k => a.data.take k
  | none => []

/-- The attempt was accepted, but not all of it. -/
def Attempt.Short (a : Attempt α) : Prop := ∃ k ∈ a.accepted, k < a.data.length

instance (a : Attempt α) : Decidable a.Short :=
  match h : a.accepted with
  | some k => decidable_of_iff (k < a.data.length) (by simp [Attempt.Short, h])
  | none => isFalse (by simp [Attempt.Short, h])

/-- What the attempts have passed on. -/
def passed (as : List (Attempt α)) : List α := as.flatMap Attempt.passed

@[simp] theorem passed_nil : passed ([] : List (Attempt α)) = [] := rfl

@[simp] theorem passed_append (as as' : List (Attempt α)) :
    passed (as ++ as') = passed as ++ passed as' := List.flatMap_append

@[simp] theorem passed_singleton (a : Attempt α) : passed [a] = a.passed := by simp [passed]

/-- No failure comes directly after an attempt that was accepted in part. -/
def NoResend (as : List (Attempt α)) : Prop := as.IsChain fun a b => ¬ (a.Short ∧ b.accepted = none)

instance [DecidableEq α] (as : List (Attempt α)) : Decidable (NoResend as) :=
  inferInstanceAs (Decidable (List.IsChain _ as))

theorem noResend_append_accepted {as : List (Attempt α)} {data : List α} {k : ℕ} :
    NoResend (as ++ [⟨data, some k⟩]) ↔ NoResend as := by
  simp [NoResend, List.isChain_append]

theorem noResend_append_failed {as : List (Attempt α)} {data : List α} :
    NoResend (as ++ [⟨data, none⟩]) ↔ NoResend as ∧ ∀ a ∈ as.getLast?, ¬ a.Short := by
  simp [NoResend, List.isChain_append]

/-- A sender: its attempts so far, the messages it is done with, and of the message at hand what is
accepted since the last start and what is left. -/
structure Sender (α : Type*) where
  log : List (Attempt α)
  given : List α
  sent : List α
  left : List α
  once : NoResend log → passed log = given ++ sent
  again : ¬ NoResend log → (given ++ sent).length < (passed log).length
  short : (∃ a ∈ log.getLast?, a.Short) ↔ sent ≠ [] ∧ left ≠ []

namespace Sender

/-- The sender that has seen nothing. -/
def empty : Sender α where
  log := []
  given := []
  sent := []
  left := []
  once := fun _ => rfl
  again := fun h => absurd List.IsChain.nil h
  short := by simp

/-- Take up a message, when nothing is left of the one before. -/
def start (r : Sender α) (h : r.left = []) (msg : List α) : Sender α where
  log := r.log
  given := r.given ++ r.sent
  sent := []
  left := msg
  once := fun hn => by rw [r.once hn, List.append_nil]
  again := fun hn => by simpa using r.again hn
  short := by
    rw [r.short]
    simp [h]

/-- The first `k` items of what is left are accepted. -/
def accept (r : Sender α) (h : r.left ≠ []) {k : ℕ} (hk : 0 < k) : Sender α where
  log := r.log ++ [⟨r.left, some k⟩]
  given := r.given
  sent := r.sent ++ r.left.take k
  left := r.left.drop k
  once := fun hn => by
    rw [passed_append, r.once (noResend_append_accepted.mp hn), passed_singleton, List.append_assoc]
    rfl
  again := fun hn => by
    have hlt := r.again fun hn' => hn (noResend_append_accepted.mpr hn')
    simp only [List.length_append, passed_append, passed_singleton, Attempt.passed] at hlt ⊢
    omega
  short := by
    have hsent : r.sent ++ r.left.take k ≠ [] := by simp [h, hk.ne']
    have hleft : r.left.drop k ≠ [] ↔ k < r.left.length := by simp
    rw [hleft]
    simpa [Attempt.Short] using fun _ => hsent

/-- An attempt fails, and the message is tried again from its start. -/
def fail (r : Sender α) (h : r.left ≠ []) : Sender α where
  log := r.log ++ [⟨r.left, none⟩]
  given := r.given
  sent := []
  left := r.sent ++ r.left
  once := fun hn => by
    -- nothing of the message was accepted, as the last attempt was not accepted in part
    obtain ⟨hn', hlast⟩ := noResend_append_failed.mp hn
    have hsent : r.sent = [] := by
      by_contra hs
      obtain ⟨a, ha, hshort⟩ := r.short.mpr ⟨hs, h⟩
      exact hlast a ha hshort
    simp [r.once hn', hsent, Attempt.passed]
  again := fun hn => by
    simp only [passed_append, passed_singleton, Attempt.passed, List.append_nil]
    by_cases hn' : NoResend r.log
    · -- this failure is the first one to send something again
      have hshort : ∃ a ∈ r.log.getLast?, a.Short := by
        by_contra hs
        exact hn (noResend_append_failed.mpr ⟨hn', fun a ha hsh => hs ⟨a, ha, hsh⟩⟩)
      have hpos := List.length_pos_iff.mpr (r.short.mp hshort).1
      rw [r.once hn', List.length_append]
      omega
    · have hlt := r.again hn'
      rw [List.length_append] at hlt
      omega
  short := by simp [Attempt.Short]

section Fields

variable (r : Sender α)

@[simp] theorem start_log (h : r.left = []) (msg : List α) : (r.start h msg).log = r.log := rfl

@[simp] theorem start_given (h : r.left = []) (msg : List α) :
    (r.start h msg).given = r.given ++ r.sent := rfl

@[simp] theorem start_sent (h : r.left = []) (msg : List α) : (r.start h msg).sent = [] := rfl

@[simp] theorem start_left (h : r.left = []) (msg : List α) : (r.start h msg).left = msg := rfl

variable (h : r.left ≠ []) {k : ℕ} (hk : 0 < k)

@[simp] theorem accept_log : (r.accept h hk).log = r.log ++ [⟨r.left, some k⟩] := rfl

@[simp] theorem accept_given : (r.accept h hk).given = r.given := rfl

@[simp] theorem accept_sent : (r.accept h hk).sent = r.sent ++ r.left.take k := rfl

@[simp] theorem accept_left : (r.accept h hk).left = r.left.drop k := rfl

@[simp] theorem fail_log : (r.fail h).log = r.log ++ [⟨r.left, none⟩] := rfl

@[simp] theorem fail_given : (r.fail h).given = r.given := rfl

@[simp] theorem fail_sent : (r.fail h).sent = [] := rfl

@[simp] theorem fail_left : (r.fail h).left = r.sent ++ r.left := rfl

end Fields

/-- **What is passed on is what was to be sent** exactly when nothing was sent again. -/
theorem passed_eq_iff (r : Sender α) : passed r.log = r.given ++ r.sent ↔ NoResend r.log := by
  refine ⟨fun heq => ?_, r.once⟩
  by_contra hn
  have hlt := r.again hn
  rw [heq] at hlt
  exact lt_irrefl _ hlt

end Sender

end Stream
