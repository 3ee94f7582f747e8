import PadSvr.Session.Heed
import PadSvr.Session.Timed

/-!
# The last wait of a phase

The closing phases learn of an expired timer or an exit signal as the loop does: from the byte that
the handler has written. The phase ends in the round that finds it, so no part of a session waits
again once its `poll` has told it.

## Main definitions

* `Event.tellsStop`: a `poll` that tells the session to end
* `WaitsUntold`: the session waits only while nothing has told it
* `Hears c`: what has told it is heard, or `c` will see to that

## Main results

* `wp_closingSignals_hears`: a closing phase hears what its `poll` has told it
* `wp_doCopyLoop_untold`, `wp_closeLine_untold`, `wp_waitExitstatus_untold`: no part of a session
  waits again
-/

namespace PadSvr

open Scripted Scripted.Prog

/-- `poll` finds the byte of a handler, with the flag of the watchdog or of an exit signal up. The
`poll` of the loop is also told when it is interrupted. -/
def Event.tellsStop : Event → Session → Bool
  | .poll (.fail er), s => er = .eintr && (s.flags.alrm || s.flags.exit)
  | .poll (.ready _ _ pipe), s | .closingPoll (.ready _ _ pipe), s =>
    pipe.pollin && (s.flags.alrm || s.flags.exit)
  | _, _ => false

/-- The session waits only while nothing has told it to end. -/
def WaitsUntold (t : STrace) (k : Event) (_ : Session) : Prop :=
  k.waits = true → ∀ x ∈ t, x.1.tellsStop x.2 = false

/-- What has told the session is heard, or `c` holds. -/
structure Hears (c : Session → Prop) (w : SRun) : Prop where
  waits : Always WaitsUntold w.trace
  told : w.st.done ≠ 0 ∨ (∀ x ∈ w.trace, x.1.tellsStop x.2 = false) ∨ c w.st

theorem not_calm_iff {s : Session} : ¬ s.Calm ↔ (s.flags.alrm || s.flags.exit) = true := by
  rw [Session.Calm]
  cases s.flags.alrm <;> cases s.flags.exit <;> simp

theorem tellsStop_of_not_waits {k : Event} (h : k.waits = false) (s : Session) :
    k.tellsStop s = false := by
  cases k with
  | poll a => cases h
  | closingPoll a => cases h
  | _ => rfl

/-- In the loop it is what `doCopy_obeys` speaks of. -/
theorem tellsStop_iff {k : Event} {s : Session} (h : k.isPoll = true) :
    k.tellsStop s = true ↔ k.TellsEnd s := by
  cases k with
  | poll a =>
    cases a with
    | fail er => simp [Event.tellsStop, Event.TellsEnd, not_calm_iff]
    | ready so ma pi => simp [Event.tellsStop, Event.TellsEnd, not_calm_iff]
  | _ => cases h

section Hears

variable {α : Type} {E : Env → Prop} {w : SRun} {c c' : Session → Prop}

/-- A call that does not wait. -/
theorem Hears.call (h : Hears c w) {k : Event} (hk : k.waits = false) (s : Session) {s' : Session}
    (hd : w.st.done ≠ 0 → s'.done ≠ 0) (hc : c w.st → c' s') :
    Hears c' ⟨s', w.trace ++ [(k, s)]⟩ where
  waits := always_concat.mpr ⟨h.waits, fun hw => by rw [hk] at hw; cases hw⟩
  told := h.told.imp hd fun hu => hu.imp (fun hu x hx => by
    rcases List.mem_append.mp hx with hx | hx
    · exact hu x hx
    · rw [List.mem_singleton.mp hx]
      exact tellsStop_of_not_waits hk s) hc

theorem Hears.state (h : Hears c w) {s : Session} (hd : w.st.done ≠ 0 → s.done ≠ 0)
    (hc : c w.st → c' s) : Hears c' ⟨s, w.trace⟩ := ⟨h.waits, h.told.imp hd (Or.imp_right hc)⟩

theorem abides_hears : Abides (Hears fun _ => False) where
  state h hd := h.state hd id
  call h hk hd := h.call hk _ hd id

/-! ## The closing phases -/

/-- **A flag is tested** after the byte was read. -/
theorem wp_onUp_hears {up : Flags → Bool} {f : Session → Session} (h : Hears c w)
    (hf : ∀ s, (f s).done ≠ 0) (hup : ∀ e s, c s → up (deliver e s).flags = false →
      c' (deliver e s)) :
    wp E (fun w => Always WaitsUntold w.trace) (onUp up (assign f)) (fun _ => Hears c') w := by
  refine wp_bind (wp_test h.waits fun e _ => ?_)
  split
  · exact wp_assign h.waits fun _ _ => ⟨h.waits, Or.inl (hf _)⟩
  · next hno => exact wp_pure (h.state (by simp) fun hc => hup e _ hc (by simpa using hno))

/-- **A closing phase hears** what its `poll` has told it. -/
theorem wp_closingSignals_hears (pipe : Revents) {ended : SProg Unit}
    (hended : Keeps E (Hears fun _ => False) ended)
    (h : Hears (fun s => pipe.pollin = true ∧ ¬ s.Calm) w) :
    wp E (fun w => Always WaitsUntold w.trace) (closingSignals pipe ended)
      (fun _ => Hears fun _ => False) w := by
  unfold closingSignals
  split
  · refine wp_bind (wp_get (wp_seq (Q := fun _ => Hears fun s => ¬ s.Calm) ?_ fun _ w h => ?_))
    · refine wp_readPipe h.waits (fun e _ => ?_) fun e _ k => ?_
      all_goals exact h.call rfl _ (by simp) fun hc => not_calm_deliver e hc.2
    -- without the timer it is the exit signal, and without that it is neither
    refine wp_seq (Q := fun _ => Hears fun s => s.flags.exit = true)
      (wp_onUp_hears h (fun _ => by simp) fun e s hc ha => ?_) fun _ w h => ?_
    · have hd := not_calm_iff.mp (not_calm_deliver e hc)
      rwa [show (deliver e s).flags.alrm = false from ha, Bool.false_or] at hd
    refine wp_seq (Q := fun _ => Hears fun _ => False)
      (wp_onUp_hears h (fun _ => by simp) fun e s hc hx => ?_) fun _ w h => ?_
    · rw [(deliver_raises e s).2 hc] at hx
      cases hx
    have hchld : Keeps E (Hears fun _ => False) (onUp Flags.chld ended) :=
      .bind (abides_hears.stmt fun _ _ => rfl) fun _ => .ite hended .pure
    exact wp_mono (hchld w h) (fun _ h => h.waits) fun _ _ h => h
  · next hin => exact wp_pure (h.state id fun hc => hin hc.1)

theorem keeps_interChld_hears : Keeps E (Hears fun _ => False) interChld := by
  unfold interChld recvExitStatus
  refine .bind (abides_hears.stmt fun e s => ?_) fun _ => abides_hears.stmt fun _ _ => rfl
  split
  · split <;> rfl
  · rfl

/-- A `poll` of a closing phase, and what it tells. -/
theorem wp_closingPoll_hears (h : Hears (fun _ => False) w) (hd : w.st.done = 0) :
    wp E (fun w => Always WaitsUntold w.trace) closingPoll
      (fun answer => Hears fun s => ∃ sock pipe, answer = some (sock, pipe) ∧
        pipe.pollin = true ∧ ¬ s.Calm) w := by
  have huntold : ∀ x ∈ w.trace, x.1.tellsStop x.2 = false :=
    (h.told.resolve_left fun hn => hn hd).resolve_right id
  have hwaits : ∀ a s, Always WaitsUntold (w.trace ++ [(.closingPoll a, s)]) := fun a s =>
    always_concat.mpr ⟨h.waits, fun _ => huntold⟩
  have hrest : ∀ a s, Event.tellsStop (.closingPoll a) s = false →
      ∀ x ∈ w.trace ++ [(.closingPoll a, s)], x.1.tellsStop x.2 = false := by
    intro a s ha x hx
    rcases List.mem_append.mp hx with hx | hx
    · exact huntold x hx
    · rw [List.mem_singleton.mp hx]
      exact ha
  refine wp_call h.waits fun e _ r hr => ?_
  split at hr
  · next er hp =>
    cases hr
    exact ⟨hwaits _ _, Or.inr (Or.inl (hrest _ _ (by rw [hp]; rfl)))⟩
  · next sock master pipe hp =>
    cases hr
    refine ⟨hwaits _ _, Or.inr ?_⟩
    by_cases ht : pipe.pollin = true ∧ ¬ (deliver e w.st).Calm
    · exact Or.inr ⟨sock, pipe, rfl, ht⟩
    · refine Or.inl (hrest _ _ ?_)
      rw [not_calm_iff] at ht
      rw [hp]
      simpa [Event.tellsStop] using ht

/-- The answer of the `poll` is that of its round. -/
theorem Hears.answered {answer : Option (Revents × Revents)} {pipe : Revents}
    (h : Hears (fun s => ∃ sock pipe, answer = some (sock, pipe) ∧
      pipe.pollin = true ∧ ¬ s.Calm) w)
    (ha : ∀ sock pipe', answer = some (sock, pipe') → pipe' = pipe) :
    Hears (fun s => pipe.pollin = true ∧ ¬ s.Calm) w :=
  h.state id fun ⟨sock, pipe', hs, hc⟩ => by rwa [ha sock pipe' hs] at hc

theorem wp_waitNetRound_hears (h : Hears (fun _ => False) w) :
    wp E (fun w => Always WaitsUntold w.trace) waitNetRound
      (fun _ => Hears fun _ => False) w := by
  have hset : ∀ {n : ℕ} {c : Session → Prop} {w : SRun} {x : Unit ⊕ Unit}, n ≠ 0 →
      Hears c w → wp E (fun w => Always WaitsUntold w.trace) (setDone n >>= fun _ => pure x)
        (fun _ => Hears fun _ => False) w := fun hn h =>
    wp_bind (wp_modify (wp_pure ⟨h.waits, Or.inl hn⟩))
  unfold waitNetRound
  refine wp_bind (wp_get ?_)
  split
  · exact wp_pure h
  · next hd =>
    refine wp_seq (wp_closingPoll_hears h (by simpa using hd)) fun answer w h => ?_
    refine wp_bind (wp_get ?_)
    split
    · exact hset (n := 11) (by decide) h
    · rcases hget : answer.getD ({}, {}) with ⟨sock, pipe⟩
      have h : Hears (fun s => pipe.pollin = true ∧ ¬ s.Calm) w :=
        h.answered fun sock' pipe' ha => by
          rw [ha] at hget
          cases hget
          rfl
      refine wp_seq (wp_closingSignals_hears _ keeps_interChld_hears h) fun _ w h => ?_
      split
      · exact hset (n := 1) (by decide) h
      · split
        · refine wp_bind (wp_get (wp_seq (Q := fun _ => Hears fun _ => False) ?_ fun i w h => ?_))
          · refine wp_readSock h.waits (fun e _ er => ?_) fun e _ pkt => ?_
            all_goals exact h.call rfl _ (by simp) id
          · refine wp_bind (wp_get ?_)
            split
            · exact wp_pure h
            · exact hset (n := 1) (by decide) h
        · exact wp_pure h

theorem wp_waitExitstatusRound_hears (h : Hears (fun _ => False) w) :
    wp E (fun w => Always WaitsUntold w.trace) waitExitstatusRound
      (fun _ => Hears fun _ => False) w := by
  unfold waitExitstatusRound
  refine wp_bind (wp_get ?_)
  split
  · exact wp_pure h
  · next hd =>
    refine wp_seq (wp_closingPoll_hears h (by simpa using hd)) fun answer w h => ?_
    refine wp_bind (wp_get ?_)
    split
    · exact wp_bind (wp_modify (wp_pure ⟨h.waits, Or.inl (by simp)⟩))
    · have h : Hears (fun s => ((answer.map Prod.snd).getD {}).pollin = true ∧ ¬ s.Calm) w :=
        h.answered fun sock pipe' ha => by
          rw [ha]
          rfl
      exact wp_seq (wp_closingSignals_hears _ (.bind keeps_interChld_hears fun _ =>
        abides_hears.setDone (by decide)) h) fun _ w h => wp_pure h

/-! ## The parts of a session -/

/-- Nothing has waited yet. -/
def Unwaiting (w : SRun) : Prop := ∀ x ∈ w.trace, x.1.waits = false

theorem Unwaiting.call (h : Unwaiting w) {k : Event} (hk : k.waits = false) (s s' : Session) :
    Unwaiting ⟨s', w.trace ++ [(k, s)]⟩ := by
  intro x hx
  rcases List.mem_append.mp hx with hx | hx
  · exact h x hx
  · rwa [List.mem_singleton.mp hx]

theorem Unwaiting.untold (h : Unwaiting w) : Always WaitsUntold w.trace := by
  have hall := always_append (G := WaitsUntold) always_nil fun x hx _ hw => by
    rw [h x hx] at hw
    cases hw
  simpa using hall

/-- A phase, from its start on. -/
theorem wp_phase_untold {round : SProg (Unit ⊕ Unit)}
    (hround : ∀ w, Hears (fun _ => False) w → wp E (fun w => Always WaitsUntold w.trace)
      round (fun _ => Hears fun _ => False) w) (h : Unwaiting w) :
    wp E (fun w => Always WaitsUntold w.trace) (do
      setNetTimeout
      Prog.iter (fun () => round) ()
      resetTimer) (fun _ w => Always WaitsUntold w.trace) w := by
  unfold setNetTimeout resetTimer
  refine wp_bind (wp_assign h.untold fun e _ => ?_)
  refine wp_seq (wp_iter (fun _ => Hears fun _ => False) (fun _ _ h => h.waits) (fun _ w h => ?_)
    ⟨h.untold, Or.inr (Or.inl fun x hx => tellsStop_of_not_waits (h x hx) _)⟩)
    fun _ w (h : Hears (fun _ => False) w) => wp_assign h.waits fun _ _ => h.waits
  exact wp_mono (hround w h) (fun _ h => h) fun r _ h => by cases r <;> exact h

theorem wp_waitNet_untold (buf : List UInt8) (h : Unwaiting w) :
    wp E (fun w => Always WaitsUntold w.trace) (waitNet buf)
      (fun _ w => Always WaitsUntold w.trace) w := by
  unfold waitNet
  exact wp_bind (wp_modify (wp_phase_untold (fun _ => wp_waitNetRound_hears) h))

/-- **The wait for the login process** ends when it is told to. -/
theorem wp_waitExitstatus_untold (buf : List UInt8) (h : Unwaiting w) :
    wp E (fun w => Always WaitsUntold w.trace) (waitExitstatus buf)
      (fun _ w => Always WaitsUntold w.trace) w := by
  unfold waitExitstatus
  refine wp_bind (wp_get ?_)
  split
  · exact wp_bind (wp_modify
      (wp_phase_untold (fun _ => wp_waitExitstatusRound_hears) h))
  · exact wp_pure h.untold

/-- **The closing of the line** ends when it is told to. -/
theorem wp_closeLine_untold (buf : List UInt8) (h : Unwaiting w) :
    wp E (fun w => Always WaitsUntold w.trace) (closeLine buf)
      (fun _ w => Always WaitsUntold w.trace) w := by
  have hclose : Keeps E (fun w => Always WaitsUntold w.trace) closeCall := fun _ h =>
    wp_stmt h fun _ _ => h
  have hwait : ∀ w, Unwaiting w → wp E (fun w => Always WaitsUntold w.trace)
      (waitNet buf >>= fun _ => closeCall) (fun _ w => Always WaitsUntold w.trace) w :=
    fun w h => wp_seq (wp_waitNet_untold buf h) fun _ w h => hclose w h
  unfold closeLine
  refine wp_bind (wp_get ?_)
  dsimp only
  split
  · exact hclose w h.untold
  · split
    · have hclear : Keeps E Unwaiting x29InvClear :=
        .bind (keeps_controlWrite_abides (fun _ _ h => h) (fun _ _ s s' h hk => h.call hk s s') _)
          fun _ => .pure
      exact wp_seq (wp_mono (hclear w h) (fun _ h => h.untold) fun _ _ h => h)
        fun _ w h => hwait w h
    · split
      · exact hwait w h
      · exact wp_pure h.untold

/-- The loop waits in no closing phase. -/
def InLoop (w : SRun) : Prop := ∀ x ∈ w.trace, x.1.waits = x.1.isPoll

theorem InLoop.call (h : InLoop w) {k : Event} (hk : k.waits = k.isPoll) (s s' : Session) :
    InLoop ⟨s', w.trace ++ [(k, s)]⟩ := by
  intro x hx
  rcases List.mem_append.mp hx with hx | hx
  · exact h x hx
  · rw [List.mem_singleton.mp hx]
    exact hk

theorem abides_inLoop : Abides InLoop where
  state h _ := h
  call h hk _ := h.call (hk.trans (Event.isPoll_of_waits hk).symm) _ _

theorem keeps_doCopyLoop_inLoop : Keeps E InLoop doCopyLoop := by
  have ha := abides_inLoop
  refine keeps_doCopyLoop (fun w k hk h => h.call (by rcases hk with rfl | rfl <;> rfl) _ _)
    (fun w h => ?_) ha.signalPart ha.reventsPart ha.readMasterPart ha.readSocketPart ha.forwardPart
  unfold pollPart setWatchDog
  refine wp_bind (wp_assign h fun e₁ _ => wp_bind (wp_pollCall h (fun e _ er => ?_)
    fun e _ so ma pi _ => ?_))
  · rw [if_neg (by simp)]
    refine wp_bind (wp_get ?_)
    split
    · exact wp_bind (wp_modify (wp_pure (h.call rfl _ _)))
    · exact wp_seq (ha.doInter _ (h.call rfl _ _)) fun _ _ h => wp_pure h
  · rw [if_pos rfl]
    exact wp_pure (h.call rfl _ _)

/-- **The loop** ends when it is told to. -/
theorem wp_doCopyLoop_untold (s : Session) :
    wp E (fun w => Always WaitsUntold w.trace) doCopyLoop
      (fun _ w => Always WaitsUntold w.trace) ⟨s, []⟩ := by
  have hall : ∀ w : SRun, Always PollsUntold w.trace → InLoop w →
      Always WaitsUntold w.trace := by
    intro w hp hin t₁ k s t₂ ht hw x hx
    have hmem : ∀ y, y ∈ t₁ ∨ y = (k, s) → y ∈ w.trace := by
      rintro y (hy | rfl)
      · rw [ht]
        exact List.mem_append_left _ hy
      · rw [ht]
        simp
    have hk : k.isPoll = true := by
      rw [← hin (k, s) (hmem _ (Or.inr rfl))]
      exact hw
    have huntold := hp t₁ k s t₂ ht hk x hx
    -- only a `poll` of the loop could have told it
    cases hxw : x.1.waits with
    | false => exact tellsStop_of_not_waits hxw x.2
    | true =>
      rw [hin x (hmem x (Or.inl hx))] at hxw
      rw [← tellsStop_iff hxw] at huntold
      simpa using huntold
  refine wp_mono (wp_and (wp_doCopyLoop_obeys (w := ⟨s, []⟩) ⟨always_nil, Or.inr (by simp)⟩)
    (keeps_doCopyLoop_inLoop ⟨s, []⟩ (by simp [InLoop]))) (fun w h => hall w h.1 h.2)
    fun _ w h => hall w h.1.polls h.2

end Hears

end PadSvr
