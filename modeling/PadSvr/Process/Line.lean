import PadSvr.Session.Line
import PadSvr.Process.Phases

/-!
# The line of a session process

Around the phases of the line, a session process forks its login process and creates its signal
pipe. Both belong to the first phase, and whatever fails, the calls that were made have kept to the
protocol.

## Main definitions

* `sessionProtocol payload`: the protocol of the line, for the calls of a process

## Main results

* `serve_line`: a session keeps to the protocol, whatever happens to it
-/

namespace PadSvr

open Scripted Scripted.Prog

/-- What a phase makes of a call of the process. A login process is forked, and the pipe is created,
before the loop. -/
def sessionNext (payload : List UInt8) : LinePhase → PEvent → Process → Option LinePhase
  | q, .sys k, p => lineNext payload q k p.sess
  | .greeting sent, .fork, _ => some (.greeting sent)
  | .greeting sent, .exec, _ => some (.greeting sent)
  | .greeting sent, .pipe, _ => some (.greeting sent)
  | _, .fork, _ => none
  | _, .exec, _ => none
  | _, .pipe, _ => none
  | q, _, _ => some q

def sessionProtocol (payload : List UInt8) : Protocol PEvent Process LinePhase :=
  ⟨sessionNext payload⟩

section Phases

variable {α : Type} {payload : List UInt8} {q₀ q q' : LinePhase} {w : PRun}

/-- The calls so far are those of the protocol. -/
abbrev OnCall (payload : List UInt8) (q₀ : LinePhase) (w : PRun) : Prop :=
  (sessionProtocol payload).Allows q₀ w.trace

/-- Where the calls of the process have brought it. -/
abbrev Reached (payload : List UInt8) (q₀ q : LinePhase) : PRun → Prop :=
  (sessionProtocol payload).At q₀ q

/-- No phase minds the calls that leave the process. -/
theorem sessionNext_leaving {k : PEvent} (hk : k.isLeaving = true) (q : LinePhase) (p : Process) :
    (sessionProtocol payload).next q k p = some q := by
  cases k with
  | sys k => cases hk
  | pipe => cases hk
  | fork => cases hk
  | exec => cases hk
  | _ => cases q <;> rfl

theorem passes_leaving {r : Process → Process → Prop} :
    Passes r PEvent.isLeaving (Reached payload q₀ q) := fun _ _ p p' h hk _ _ =>
  h.call (sessionNext_leaving hk q p) p'

theorem passes_onCall : Passes Similar PEvent.isLeaving (OnCall payload q₀) :=
  fun _ _ p p' h hk _ _ => by
    obtain ⟨q, hq⟩ := Option.isSome_iff_exists.mp h
    exact (Protocol.At.call hq (sessionNext_leaving hk q p) p').allows

@[simp] theorem hold_done (p : Process) (s : Session) : (p.hold s).sess.done = s.done := by
  unfold Process.hold
  split <;> rfl

/-- The protocol of the line looks at `Done` only. -/
theorem lineNext_hold (p : Process) (q : LinePhase) (k : Event) (s : Session) :
    lineNext payload q k (p.hold s).sess = lineNext payload q k s := by
  cases q with
  | copying => cases k <;> simp [lineNext]
  | _ => cases k <;> rfl

/-- A part of the session has brought it from `q` to `q'`. -/
theorem at_after {w₁ : SRun} (h : Reached payload q₀ q w)
    (h₁ : (lineProtocol payload).At q q' w₁) : Reached payload q₀ q' (after w w₁) := by
  refine h.append ?_ _
  rw [Protocol.after_map (P := lineProtocol payload) fun q x => lineNext_hold w.st q x.1 x.2]
  exact h₁

theorem onCall_after {w₁ : SRun} (h : Reached payload q₀ q w) (h₁ : OnLine payload q w₁) :
    OnCall payload q₀ (after w w₁) := by
  obtain ⟨q', hq'⟩ := Option.isSome_iff_exists.mp h₁
  exact (at_after h hq').allows

/-- **A part of the session**, which `Exit` may cut short. -/
theorem wp_orExit_line {m : SProg α} {Q₁ : α → SRun → Prop} {Q : α → PRun → Prop}
    (h : Reached payload q₀ q w)
    (hm : wp (fun _ => True) (OnLine payload q) m Q₁ ⟨w.st.sess, []⟩)
    (hQ : ∀ a w₁, Q₁ a w₁ → Q a (after w w₁)) :
    wp anyEntry (OnCall payload q₀) (orExit m) Q w :=
  wp_orExit (wp_part hm (fun _ _ => trivial) (fun _ h₁ => onCall_after h h₁) hQ) (fun _ h => h)
    fun kod _ h => wp_exit_passes passes_onCall kod h

/-- The Set message has been sent, or given up. -/
def Greeted (payload : List UInt8) (q₀ : LinePhase) (w : PRun) : Prop :=
  ∃ sent, Reached payload q₀ (.greeting sent) w

/-- The session has left the loop for the reason in `Done`. -/
def LoopLeft (payload : List UInt8) (q₀ : LinePhase) (w : PRun) : Prop :=
  Reached payload q₀ (.clearing w.st.sess.done 0) w

/-- The session has left the loop, and closes the line. -/
def Ending (payload : List UInt8) (q₀ : LinePhase) (w : PRun) : Prop :=
  ∃ done, (∃ sent, Reached payload q₀ (.clearing done sent) w) ∨
    Reached payload q₀ (.waiting done) w

theorem stays_loopLeft : Stays SameSession (LoopLeft payload q₀) := fun w p' h hs => by
  show Reached payload q₀ (.clearing p'.sess.done 0) _
  rw [hs.sess]
  exact h

theorem Greeted.onCall (h : Greeted payload q₀ w) : OnCall payload q₀ w := by
  obtain ⟨sent, h⟩ := h
  exact h.allows

theorem Ending.onCall (h : Ending payload q₀ w) : OnCall payload q₀ w := by
  obtain ⟨done, ⟨sent, h⟩ | h⟩ := h
  · exact h.allows
  · exact h.allows

/-- What the closing phases of a session come to. -/
theorem Ending.of_closing {done : ℕ} {w₁ : SRun} (h : Reached payload q₀ q w)
    (h₁ : Closing payload q done w₁) : Ending payload q₀ (after w w₁) := by
  obtain ⟨sent, h₁⟩ | h₁ := h₁
  · exact ⟨done, Or.inl ⟨sent, at_after h h₁⟩⟩
  · exact ⟨done, Or.inr (at_after h h₁)⟩

/-- The Set message. -/
theorem wp_x29SetDefault_greeted (behind : List X29Par) (h : Reached payload q₀ (.greeting 0) w)
    (hp : payload = setPayload behind w.st.sess.cfg) :
    wp anyEntry (OnCall payload q₀) (orExit (x29SetDefault behind))
      (fun _ => Greeted payload q₀) w := by
  let start : SRun := ⟨w.st.sess, []⟩
  have hstart : InPhase (setPayload behind start.st.cfg) (.greeting 0) (.greeting 0) start := rfl
  have hgreet := wp_x29SetDefault_line (E := fun _ => True) behind hstart
  rw [show setPayload behind start.st.cfg = payload from hp.symm] at hgreet
  exact wp_orExit_line h hgreet fun _ w₁ ⟨sent, h₁⟩ => ⟨sent, at_after h h₁⟩

/-- The wait for the login process. -/
theorem wp_waitExitstatus_ending (buf : List UInt8)
    (h : Ending payload q₀ w) :
    wp anyEntry (OnCall payload q₀) (orExit (waitExitstatus buf))
      (fun _ => Ending payload q₀) w := by
  -- from wherever the line has been left
  have hfrom : ∀ {q done}, Closing payload q done ⟨w.st.sess, []⟩ → Reached payload q₀ q w →
      wp anyEntry (OnCall payload q₀) (orExit (waitExitstatus buf))
        (fun _ => Ending payload q₀) w := fun hc hq =>
    wp_orExit_line hq (restores_waitExitstatus_closing buf _ hc) fun _ _ h =>
      .of_closing hq h
  obtain ⟨done, ⟨sent, h⟩ | h⟩ := h
  · exact hfrom (Or.inl ⟨sent, rfl⟩) h
  · exact hfrom (Or.inr rfl) h

/-- The parts of a session, and the phases of its line. -/
theorem phases_line (behind : List X29Par) :
    ServePhases anyEntry behind (OnCall payload q₀)
      (fun w => Reached payload q₀ (.greeting 0) w ∧ payload = setPayload behind w.st.sess.cfg)
      (Greeted payload q₀) (Greeted payload q₀) (Greeted payload q₀) (LoopLeft payload q₀)
      (Ending payload q₀) := by
  have hstays : Stays SameSession (Greeted payload q₀) := fun _ _ h _ => h
  have hcalls : Passes SameSession PEvent.isStarting (Greeted payload q₀) := by
    rintro w k p p' ⟨sent, h⟩ hk - -
    refine ⟨sent, h.call ?_ p'⟩
    cases k <;> first | rfl | cases hk
  have hgreeted : ∀ w, Greeted payload q₀ w → OnCall payload q₀ w := fun _ h => h.onCall
  refine ⟨passes_onCall, ⟨hstays, hcalls, hgreeted⟩,
    ⟨fun _ _ h hs => hstays h hs.sameSession, hgreeted⟩,
    ⟨fun _ _ h hs => hstays h hs.sameSession, hgreeted⟩,
    ⟨fun _ _ h hs => stays_loopLeft h hs.sameSession, ?_, fun _ h => h.allows⟩,
    ?_, fun w h =>
      wp_chilSetsignal_stays hstays hcalls hgreeted passes_onCall h, ?_, ?_, ?_, ?_⟩
  · intro w k p p' h hk hs hs'
    show Reached payload q₀ (.clearing p'.sess.done 0) _
    rw [hs'.sess]
    exact passes_leaving h hk hs hs'
  · exact fun w h => wp_x29SetDefault_greeted behind h.1 h.2
  · rintro w bufn bufd ⟨sent, h⟩ -
    have hstart : wp (fun _ => True) (OnLine payload (.greeting sent))
        (modify (doCopyStart · bufn bufd) : SProg Unit)
        (fun _ => InPhase payload (.greeting sent) (.greeting sent)) ⟨w.st.sess, []⟩ :=
      wp_modify rfl
    exact wp_orExit_line h hstart fun _ w₁ h₁ => ⟨sent, at_after h h₁⟩
  · rintro w ⟨sent, h⟩
    refine wp_orExit_line h (wp_doCopyLoop_line (i := sent) rfl) fun _ w₁ h₁ => ?_
    show Reached payload q₀ (.clearing (w.st.hold w₁.st).sess.done 0) _
    rw [hold_done]
    exact at_after h h₁
  · exact fun w block h => wp_orExit_line h (wp_closeLine_line block rfl)
      fun _ w₁ h₁ => .of_closing h h₁
  · exact fun w block h => wp_mono (wp_waitExitstatus_ending block h)
      (fun _ h => h) fun _ _ h => h.onCall

end Phases

/-- **A session keeps to the protocol of its line**, whatever arrives, fails or is interrupted. The
Set message comes first, piece by piece and in order, then the loop copies, and after it the other
side is asked for a clear at most once, and only when the socket has neither failed nor been
closed. No process is forked after the first phase. -/
theorem serve_line (behind : List X29Par) (es : List PEnv) (p : Process) :
    (sessionProtocol (setPayload behind p.sess.cfg)).Allows (.greeting 0)
      (serveTrace behind es p) :=
  always_of_wp (I := OnCall (setPayload behind p.sess.cfg) (.greeting 0))
    ((phases_line behind).wp_serve (w := ⟨serveStart p, []⟩) (Q := fun _ _ => False) ⟨rfl, rfl⟩)
    (fun _ _ h => h.elim) fun _ _ => trivial

/-- The terminal side hangs up, and the other side takes what it is sent. -/
example :
    let hungUp : PEnv :=
      { before := [.hangup], env := { Env.willing with poll := .ready {} { pollhup := true } {} } }
    (sessionProtocol (setPayload [⟨0, 0⟩] smallProcess.sess.cfg)).after (.greeting 0)
      (serveTrace [⟨0, 0⟩] (List.replicate 60 hungUp) smallProcess) = some (.waiting 3) := by
  decide +kernel

end PadSvr
