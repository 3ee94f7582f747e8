import PadSvr.Socket.Fragments
import PadSvr.Scripted.Wp

/-!
# The handlers of a fragmented write

`writensockint` starts over after an interrupt, as long as its handler wants to go on, and after a
failure, but for the third one since the last success. An interrupt neither counts as a failure nor
starts the count anew. So a call ends when the interrupts do.

## Main definitions

* `failuresSince t`: the failures since the last success
* `HandlerPolicy t`: when the handlers are called, and what follows
* `bytesAndFailuresLeft M v w`: what every round lowers

## Main results

* `writensockint_ends`: a call returns unless it is interrupted for ever, and keeps the policy
-/

namespace PadSvr

open Scripted Scripted.Prog

/-- The failures since the last success, when `y` is the next call. -/
def countSince (k : ℕ) (y : SockCall × SockState) : ℕ :=
  match y.1 with
  | .write _ (.ok _) => 0
  | .write _ (.error er) => if er = .eintr then k else k + 1
  | _ => k

/-- The failures that are no interrupts, since the last write that succeeded. -/
def failuresSince (t : SockTrace) : ℕ := t.foldl countSince 0

/-- The call is one of `error_handler`. -/
def SockCall.isErrorHandler : SockCall → Bool
  | .errorHandler _ => true
  | _ => false

/-- The call is a write. -/
def SockCall.IsWrite : SockCall → Prop
  | .write _ _ => True
  | _ => False

/-- Three writes have failed since the last success, and the handler was not called yet. -/
def ErrorDue (t : SockTrace) : Prop :=
  failuresSince t = maxErrorWrite ∧ occurs SockCall.isErrorHandler t = false

/-- When the handlers are called in a whole call, and what follows. -/
structure HandlerPolicy (t : SockTrace) : Prop where
  /-- `error_handler` is called at most once -/
  once : t.countP (fun y => y.1.isErrorHandler) ≤ 1
  /-- it is the next call exactly when three writes have failed -/
  due : Always (fun t₁ k _ => k.isErrorHandler = true ↔ ErrorDue t₁) t
  called : ¬ ErrorDue t
  /-- no write comes after a handler that asked for an end -/
  stops : Always (fun t₁ k _ => k.IsWrite → ∀ y ∈ t₁, ¬ y.1.AsksToStop) t

/-- A call that no handler has ended, and in which no third failure was met. -/
def Undisturbed (t : SockTrace) : Prop :=
  Always (fun t₁ k _ => failuresSince t₁ < maxErrorWrite ∧ ¬ k.AsksToStop) t

section Policy

variable {t : SockTrace} {k : SockCall} {s : SockState}

@[simp] theorem failuresSince_nil : failuresSince [] = 0 := rfl

@[simp] theorem failuresSince_concat (t : SockTrace) (y : SockCall × SockState) :
    failuresSince (t ++ [y]) = countSince (failuresSince t) y := by
  simp [failuresSince]

theorem Undisturbed.not_asksToStop (h : Undisturbed t) : ∀ y ∈ t, ¬ y.1.AsksToStop := by
  intro y hy
  obtain ⟨t₁, t₂, rfl⟩ := List.append_of_mem hy
  exact (h t₁ y.1 y.2 t₂ rfl).2

theorem SockCall.asksToStop_of_isErrorHandler (h : k.isErrorHandler = true) : k.AsksToStop := by
  cases k with
  | errorHandler r => trivial
  | _ => cases h

theorem Undisturbed.occurs (h : Undisturbed t) : occurs SockCall.isErrorHandler t = false := by
  rw [Scripted.occurs, List.any_eq_false]
  intro y hy he
  exact h.not_asksToStop y hy (SockCall.asksToStop_of_isErrorHandler he)

theorem Undisturbed.countP (h : Undisturbed t) : t.countP (fun y => y.1.isErrorHandler) = 0 := by
  rw [List.countP_eq_zero]
  intro y hy he
  exact h.not_asksToStop y hy (SockCall.asksToStop_of_isErrorHandler he)

/-- As long as nothing disturbs a call, `error_handler` is neither called nor due. -/
theorem Undisturbed.due (h : Undisturbed t) :
    Always (fun t₁ k _ => k.isErrorHandler = true ↔ ErrorDue t₁) t := by
  intro t₁ k s t₂ ht
  obtain ⟨hlt, hk⟩ := h t₁ k s t₂ ht
  constructor
  · intro he
    exact absurd (SockCall.asksToStop_of_isErrorHandler he) hk
  · rintro ⟨heq, -⟩
    omega

theorem Undisturbed.stops (h : Undisturbed t) :
    Always (fun t₁ k _ => k.IsWrite → ∀ y ∈ t₁, ¬ y.1.AsksToStop) t := by
  intro t₁ k s t₂ ht _ y hy
  exact h.not_asksToStop y (by rw [ht]; simp [hy])

/-- A call that ends with all bytes sent. -/
theorem Undisturbed.policy (h : Undisturbed t) (hlt : failuresSince t < maxErrorWrite) :
    HandlerPolicy t where
  once := by rw [h.countP]; exact Nat.zero_le _
  due := h.due
  called := fun hd => by
    have := hd.1
    omega
  stops := h.stops

/-- A call that ends with the call of a handler: `error_handler` if three writes have failed. -/
theorem Undisturbed.policy_concat (h : Undisturbed t) (hw : ¬ k.IsWrite)
    (hk : k.isErrorHandler = true ↔ failuresSince t = maxErrorWrite) :
    HandlerPolicy (t ++ [(k, s)]) where
  once := by
    rw [List.countP_append, h.countP, Nat.zero_add]
    exact List.countP_le_length
  due := always_concat.mpr ⟨h.due, hk.trans (by rw [ErrorDue, h.occurs]; simp)⟩
  called := by
    rintro ⟨heq, hocc⟩
    rw [failuresSince_concat] at heq
    -- the call of a handler counts for nothing
    have hsame : countSince (failuresSince t) (k, s) = failuresSince t := by
      cases k with
      | write => exact absurd trivial hw
      | _ => rfl
    rw [hsame, ← hk] at heq
    rw [occurs_append, h.occurs, occurs_singleton, heq] at hocc
    cases hocc
  stops := always_concat.mpr ⟨h.stops, fun hk => absurd hk hw⟩

end Policy

/-! ## The rounds of a call -/

/-- The loop has met no more than `cerr` failures since the last success. -/
structure Trying (buf : List UInt8) (n : ℕ) (v : WriteVars) (w : Run SockCall SockState) :
    Prop where
  covers : v.Covers buf n
  undisturbed : Undisturbed w.trace
  cerr : failuresSince w.trace = v.cerr
  lt : v.cerr < maxErrorWrite

/-- What every round lowers: the writes that may still be interrupted, the bytes left, and the
failures left. -/
def bytesAndFailuresLeft (M : ℕ) (v : WriteVars) (w : Run SockCall SockState) : ℕ :=
  M - w.st.writes + (maxErrorWrite + 1) * v.nleft + (maxErrorWrite - v.cerr)

section Rounds

variable {x : Answers} {buf : List UInt8} {n M : ℕ} {v : WriteVars} {w : Run SockCall SockState}

theorem maxErrorWrite_pos : 0 < maxErrorWrite := by decide

theorem Trying.planted (h : Trying buf n v w) (c : ℕ) :
    WriteVars.Covers buf n { v.planted (buf.headD 0) with cerr := c } :=
  have hp := h.covers.plant (buf.headD 0)
  ⟨hp.count, hp.lt, hp.length, hp.rest⟩

/-- A write that is no third failure does not disturb the call. -/
theorem Trying.write (h : Trying buf n v w) (pkt : List UInt8) (res : Except Errno ℕ) :
    Undisturbed (w.trace ++ [(.write pkt res, w.st)]) :=
  always_concat.mpr ⟨h.undisturbed, by rw [h.cerr]; exact h.lt, fun hs => hs⟩

/-- An interrupt is no failure. -/
theorem Trying.interrupted (h : Trying buf n v w) (pkt : List UInt8) :
    failuresSince (w.trace ++ [(.write pkt (.error .eintr), w.st)]) = v.cerr := by
  rw [failuresSince_concat, ← h.cerr]
  rfl

/-- One round lowers the measure, or ends the call by the policy. -/
theorem roundCases_trying (h : Trying buf n v w) (hn : n ≤ buf.length)
    (hM : ∀ i, M ≤ i → x.outcome i ≠ .error .eintr) :
    RoundCases x buf n v w fun r w' => r.elim
      (fun v' => Trying buf n v' w' ∧ bytesAndFailuresLeft M v' w' < bytesAndFailuresLeft M v w)
      fun _ => HandlerPolicy w'.trace where
  done hz := h.undisturbed.policy (by rw [h.cerr]; exact h.lt)
  accepted m s hm hle hs := by
    have hc := h.covers.count
    have hl := h.covers.length
    refine ⟨⟨?_, h.write _ _, ?_, maxErrorWrite_pos⟩, ?_⟩
    · refine (h.covers.plant (buf.headD 0)).accept (by omega) hle ?_
      dsimp only
      rw [List.length_set]
      omega
    · rw [failuresSince_concat]
      rfl
    -- at least one byte less is left, which outweighs the failures counted again from zero
    · have hlt := h.lt
      simp only [bytesAndFailuresLeft, maxErrorWrite, hs] at hlt ⊢
      omega
  resumed r s s' ho hr hs := by
    have hw := h.write (v.next buf n) (.error .eintr)
    have hcount := h.interrupted (v.next buf n)
    refine ⟨⟨h.planted v.cerr, always_concat.mpr ⟨hw, ?_, hr⟩, ?_, h.lt⟩, ?_⟩
    · rw [hcount]
      exact h.lt
    · rw [failuresSince_concat, hcount]
      rfl
    · -- an interrupt brings the last one nearer
      have hlt : w.st.writes < M := by
        by_contra hge
        exact hM _ (by omega) ho
      simp only [bytesAndFailuresLeft, WriteVars.planted, hs]
      omega
  stopped s s' := by
    have hcount := h.interrupted (v.next buf n)
    refine (h.write _ _).policy_concat (fun hk => hk) ?_
    rw [hcount]
    have hlt := h.lt
    constructor
    · nofun
    · intro heq
      omega
  failed er s hne hlt hs := by
    refine ⟨⟨h.planted (v.cerr + 1), h.write _ _, ?_, hlt⟩, ?_⟩
    · rw [failuresSince_concat, h.cerr]
      exact if_neg hne
    · simp only [bytesAndFailuresLeft, WriteVars.planted, hs]
      omega
  gaveUp er r s s' hne hge := by
    refine (h.write _ _).policy_concat (fun hk => hk) ?_
    rw [failuresSince_concat, h.cerr]
    have hlt := h.lt
    -- this failure is the third one
    have hcount : countSince v.cerr (.write (v.next buf n) (.error er), w.st) = v.cerr + 1 :=
      if_neg hne
    rw [hcount]
    constructor
    · intro _
      omega
    · exact fun _ => rfl

/-- **A call returns**, unless it is interrupted for ever, and its handlers are called as they
should. -/
theorem writensockint_ends (hx : x.Sound) (hM : ∃ M, ∀ i, M ≤ i → x.outcome i ≠ .error .eintr)
    {nbytes : ℤ} (hn : nbytes ≤ buf.length) (s : SockState) :
    ∃ N, ∀ es : List Unit, N ≤ es.length → ∃ r w' es',
      x.surroundings.writensockint buf nbytes es ⟨s, []⟩ = (w', some (r, es')) ∧
        HandlerPolicy w'.trace := by
  obtain ⟨M, hM⟩ := hM
  unfold Surroundings.writensockint
  split
  · refine ⟨0, fun es _ => ⟨_, _, es, rfl, ?_⟩⟩
    exact Undisturbed.policy always_nil maxErrorWrite_pos
  · obtain ⟨n, rfl⟩ := Int.eq_ofNat_of_zero_le (show 0 ≤ nbytes by omega)
    rw [Int.toNat_natCast]
    have hstart : Trying buf n ⟨buf, 0, n - 1, 0⟩ ⟨s, []⟩ :=
      ⟨⟨by dsimp only; omega, by dsimp only; omega, rfl, rfl⟩, always_nil, rfl, maxErrorWrite_pos⟩
    -- each round takes two answers at most, and the measure bounds the rounds
    have hwithin := within_iter (E := fun _ => True) (n := 1) (Q := fun _ w' => HandlerPolicy w'.trace)
      (Trying buf n) (bytesAndFailuresLeft M)
      (fun v w h => within_round (roundCases_trying h (by omega) hM) hx h.covers (by omega)) hstart
    refine ⟨(1 + 1) * (bytesAndFailuresLeft M ⟨buf, 0, n - 1, 0⟩ ⟨s, []⟩ + 1), fun es hes => ?_⟩
    obtain ⟨r, w', es', hr, hp, -, -⟩ := hwithin es (fun _ _ => trivial) hes
    exact ⟨r, w', es', hr, hp⟩

end Rounds

/-- Two failures, an interrupt and a third failure. -/
theorem ends_three_failures : ∃ N, ∀ es : List Unit, N ≤ es.length → ∃ r w' es',
    (Answers.surroundings
      { outcome := fun i => if i = 2 then .error .eintr else .error (.other 5)
        handler := fun _ => (1, .other 0) }).writensockint [1, 10, 20] 3 es ⟨{}, []⟩ =
        (w', some (r, es')) ∧ HandlerPolicy w'.trace := by
  refine writensockint_ends ?_ ⟨3, ?_⟩ (by decide) {}
  · intro i k h
    dsimp only at h
    split at h <;> cases h
  · intro i hi
    dsimp only
    rw [if_neg (by omega)]
    nofun

end PadSvr
