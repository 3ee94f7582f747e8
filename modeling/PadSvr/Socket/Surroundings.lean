import PadSvr.Session.Writen
import PadSvr.Scripted.Total

/-!
# `writensockint` in any surroundings

The loop of `writensockint` knows of its surroundings a `write`, the test `errno == EINTR` and two
handlers. Here it is written over these four, so that the session is one case, and another one are
answers that were fixed beforehand: what every write comes to, and what every call of a handler
returns.

## Main definitions

* `Surroundings ε κ σ`: what `writensockint` calls
* `Surroundings.writensockint`: the loop over it
* `Answers`: fixed answers, and `Answers.surroundings` with a record of the calls

## Main results

* `writensockint_eq`: the `writensockint` of a session
* `wp_answersWrite`, `within_answersWrite`: the write by the answer it gets
-/

namespace PadSvr

open Scripted Scripted.Prog

variable {ε κ σ : Type}

/-- What `writensockint` calls, and whether `errno` is `EINTR`. -/
structure Surroundings (ε κ σ : Type) where
  write : List UInt8 → Prog ε κ σ ℤ
  interrupted : σ → Bool
  interHandler : Prog ε κ σ ℤ
  errorHandler : Prog ε κ σ ℤ

/-- A write that accepts nothing. -/
def Surroundings.failed (x : Surroundings ε κ σ) (nbytes : ℕ) (v : WriteVars) :
    Prog ε κ σ (WriteVars ⊕ (ℕ × List UInt8)) := do
  if x.interrupted (← Prog.get) then
    if (← x.interHandler) = 0 then pure (.inr (nbytes - v.nleft, v.buf)) else pure (.inl v)
  else if v.cerr + 1 < maxErrorWrite then pure (.inl { v with cerr := v.cerr + 1 })
  else do
    let _ ← x.errorHandler
    pure (.inr (nbytes - v.nleft, v.buf))

/-- One round of the loop. -/
def Surroundings.round (x : Surroundings ε κ σ) (qbait : UInt8) (nbytes : ℕ) (v : WriteVars) :
    Prog ε κ σ (WriteVars ⊕ (ℕ × List UInt8)) :=
  if v.nleft = 0 then pure (.inr (nbytes - v.nleft, v.buf))
  else do
    let v := { v with buf := v.buf.set v.ptr qbait }
    let nwritten ← x.write v.packet
    if nwritten ≤ 0 then x.failed nbytes v
    else
      pure (.inl
        { v with
          cerr := 0
          nleft := v.nleft + 1 - nwritten.toNat
          ptr := v.ptr + nwritten.toNat - 1 })

/-- `writensockint` over its surroundings, with the result and the buffer as it leaves it. -/
def Surroundings.writensockint (x : Surroundings ε κ σ) (buf : List UInt8) (nbytes : ℤ) :
    Prog ε κ σ (ℕ × List UInt8) :=
  if nbytes < 2 then pure (0, buf)
  else Prog.iter (x.round (buf.headD 0) nbytes.toNat) ⟨buf, 0, nbytes.toNat - 1, 0⟩

/-- The surroundings of a session. -/
def sessionSurroundings (interHandler errorHandler : SProg ℤ) :
    Surroundings Env Event Session where
  write := writeSock
  interrupted s := s.sys.errno = .eintr
  interHandler := interHandler
  errorHandler := errorHandler

/-- **The `writensockint` of a session** is the one over its surroundings. -/
theorem writensockint_eq (buf : List UInt8) (nbytes : ℕ) (interHandler errorHandler : SProg ℤ) :
    writensockint buf nbytes interHandler errorHandler =
      (sessionSurroundings interHandler errorHandler).writensockint buf nbytes := by
  have hfailed : ∀ v, writensockintFailed nbytes interHandler errorHandler v =
      (sessionSurroundings interHandler errorHandler).failed nbytes v := by
    intro v
    unfold writensockintFailed Surroundings.failed sessionSurroundings
    simp only [decide_eq_true_eq]
  have hround : writensockintRound (buf.headD 0) nbytes interHandler errorHandler =
      (sessionSurroundings interHandler errorHandler).round (buf.headD 0) nbytes := by
    funext v
    unfold writensockintRound Surroundings.round
    simp only [hfailed]
    rfl
  rw [writensockint, Surroundings.writensockint, hround]
  by_cases h : nbytes < 2
  · rw [if_pos h, if_pos (by omega)]
  · rw [if_neg h, if_neg (by omega)]
    rfl

/-! ## Fixed answers -/

/-- What the writes come to, one after the other, and what the calls of the handlers return and
leave in `errno`. -/
structure Answers where
  outcome : ℕ → Except Errno ℕ
  handler : ℕ → ℤ × Errno

/-- A call of `writensockint`, with its result. -/
inductive SockCall
  | write (pkt : List UInt8) (res : Except Errno ℕ)
  | interHandler (r : ℤ)
  | errorHandler (r : ℤ)

/-- `errno`, and how many answers of each kind were given. -/
structure SockState where
  errno : Errno := .other 0
  writes : ℕ := 0
  handled : ℕ := 0

/-- The calls made, each with the state it was made in. -/
abbrev SockTrace := List (SockCall × SockState)

/-- A write: it accepts what its answer says, and never more than it is given. -/
def Answers.write (x : Answers) (pkt : List UInt8) : Prog Unit SockCall SockState ℤ :=
  Prog.step fun _ s =>
    match x.outcome s.writes with
    | .error er =>
      some ([(.write pkt (.error er), s)], { s with writes := s.writes + 1, errno := er }, -1)
    | .ok k =>
      some ([(.write pkt (.ok (min k pkt.length)), s)], { s with writes := s.writes + 1 },
        (min k pkt.length : ℕ))

/-- A call of a handler. -/
def Answers.handle (x : Answers) (record : ℤ → SockCall) : Prog Unit SockCall SockState ℤ :=
  Prog.step fun _ s =>
    some ([(record (x.handler s.handled).1, s)],
      { s with errno := (x.handler s.handled).2, handled := s.handled + 1 },
      (x.handler s.handled).1)

/-- The surroundings that give the answers. -/
def Answers.surroundings (x : Answers) : Surroundings Unit SockCall SockState where
  write := x.write
  interrupted s := s.errno = .eintr
  interHandler := x.handle .interHandler
  errorHandler := x.handle .errorHandler

/-- Every write that succeeds accepts at least two bytes, unless it is given less. -/
def Answers.Sound (x : Answers) : Prop := ∀ i k, x.outcome i = .ok k → 2 ≤ k

/-- The state after a write. -/
def SockState.wrote (s : SockState) : SockState := { s with writes := s.writes + 1 }

section Rules

variable {x : Answers} {E : Unit → Prop} {I : Run SockCall SockState → Prop}
  {Q : ℤ → Run SockCall SockState → Prop} {w : Run SockCall SockState} {pkt : List UInt8}
  {record : ℤ → SockCall}

theorem wp_answersWrite (hI : I w)
    (hfail : ∀ er, x.outcome w.st.writes = .error er → Q (-1)
      ⟨{ w.st.wrote with errno := er }, w.trace ++ [(.write pkt (.error er), w.st)]⟩)
    (hok : ∀ k, x.outcome w.st.writes = .ok k → Q (min k pkt.length : ℕ)
      ⟨w.st.wrote, w.trace ++ [(.write pkt (.ok (min k pkt.length)), w.st)]⟩) :
    wp E I (x.write pkt) Q w := by
  refine wp_step hI fun _ _ r hr => ?_
  rcases ho : x.outcome w.st.writes with er | k
  · rw [ho] at hr
    cases hr
    exact hfail er ho
  · rw [ho] at hr
    cases hr
    exact hok k ho

theorem within_answersWrite
    (hfail : ∀ er, x.outcome w.st.writes = .error er → Q (-1)
      ⟨{ w.st.wrote with errno := er }, w.trace ++ [(.write pkt (.error er), w.st)]⟩)
    (hok : ∀ k, x.outcome w.st.writes = .ok k → Q (min k pkt.length : ℕ)
      ⟨w.st.wrote, w.trace ++ [(.write pkt (.ok (min k pkt.length)), w.st)]⟩) :
    within E 1 (x.write pkt) Q w := by
  refine within_step fun _ _ => ?_
  rcases ho : x.outcome w.st.writes with er | k
  · exact ⟨_, rfl, hfail er ho⟩
  · exact ⟨_, rfl, hok k ho⟩

theorem wp_handle (hI : I w)
    (h : ∀ r er, Q r ⟨{ w.st with errno := er, handled := w.st.handled + 1 },
      w.trace ++ [(record r, w.st)]⟩) : wp E I (x.handle record) Q w := by
  refine wp_step hI fun _ _ r hr => ?_
  cases hr
  exact h _ _

theorem within_handle
    (h : ∀ r er, Q r ⟨{ w.st with errno := er, handled := w.st.handled + 1 },
      w.trace ++ [(record r, w.st)]⟩) : within E 1 (x.handle record) Q w :=
  within_step fun _ _ => ⟨_, rfl, h _ _⟩

end Rules

end PadSvr
