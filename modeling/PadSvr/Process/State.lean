import PadSvr.Scripted.Zoom
import PadSvr.Process.Signals
import PadSvr.Session.Syscall
import PadSvr.Monitor.Message

/-!
# A process around a session

What `do_copy` and the X.29 messages do to a session is a part of what its process does. Around it
are the handlers that are installed, the signal pipe that may not be open yet, and the flags that
tell `Exit` which of the processes it ends.

## Main definitions

* `Process`: a process of the daemon
* `Incident`: what can happen before one of its statements
* `Process.meet e p`: the state after all that happens before a statement
* `part m`: a program of a session, run by its process

## Main results

* `meet_hold`: what happens to a process, happens to its session
* `wp_part`, `wp_pcall`, `wp_pstmt`: the rules of a part and of the statements
-/

namespace PadSvr

open Scripted Scripted.Prog

/-- Which of the processes one is. Only the fork that starts a process decides on it. -/
inductive Role
  | monitor
  | acceptor
  | session
  | login
deriving DecidableEq, Repr

/-- A process of the daemon, with the globals that its functions share. -/
structure Process where
  role : Role
  pid : ℕ
  tab : SigTable
  /-- all signals are blocked -/
  blocked : Bool := false
  /-- `Chil_pipefd` has been created -/
  pipeOpen : Bool := false
  sess : Session
  flagIamboss : Bool := false
  flagIamchild : Bool := false
  flagDoPtsAddr : Bool := true
  flagPtsAddrSendStatus : ℕ := 0
  bufFifo : List Char := []

/-- What can happen before a statement of a process. -/
inductive Incident
  | signal (g : Signo)
  | rtimer
  | wtimer
  | typed (bytes : List UInt8)
  | hangup
deriving DecidableEq, Repr

/-- How `fork` returns, and in which of the two processes. -/
inductive ForkAnswer
  | fail
  | child (pid : ℕ)
  | parent
deriving DecidableEq, Repr

/-- One entry of the script: what happens before a statement, and the answer to the call it
makes. -/
structure PEnv where
  before : List Incident := []
  /-- the call succeeds -/
  ok : Bool := true
  /-- a call within a part of the process fails, and it calls `Exit` with this code -/
  exit : Option ℕ := none
  fork : ForkAnswer := .parent
  /-- the block `malloc` returns -/
  block : List UInt8 := []
  /-- the name of the pseudo terminal -/
  name : List Char := []
  /-- the code of the packet size of the call -/
  pacsizeOut : ℤ := 7
  /-- the answer to a call of the session -/
  env : Env := .willing

/-- The calls of a process: those of its session, and its own. -/
inductive PEvent
  | sys (k : Event)
  | pipe
  | fork
  | exec
  | clearPid
  | sendPtsAddr (pid : ℕ) (pts addr bytes : List Char)
  | exit (kod : ℕ)

abbrev PProg := Prog PEnv PEvent Process

abbrev PRun := Run PEvent Process

abbrev PTrace := List (PEvent × Process)

/-- A handler runs. One that writes to the pipe before there is one has no effect there: the
descriptor is that of `/dev/null` still. -/
def Handler.run (h : Handler) (p : Process) : Process :=
  { p with sess := { p.sess with
      flags := h.flag.elim p.sess.flags fun g => g.raise p.sess.flags
      sys := { p.sess.sys with
        pipe := if h.pipes && p.pipeOpen then p.sess.sys.pipe + 1 else p.sess.sys.pipe } } }

/-- An expiry disarms the timer. -/
def Session.rtimerOff (s : Session) : Session := { s with sys := { s.sys with rtimer := false } }

def Session.wtimerOff (s : Session) : Session := { s with sys := { s.sys with wtimer := none } }

/-- Without a handler, the default action of a signal ends the process. A run in which it does is
cut there, and is a run in which the signal has not come yet. -/
def Incident.run : Incident → Process → Process
  | .signal g, p => (p.tab g).elim p fun h => h.run p
  | .rtimer, p => (p.tab .sigrtmin).elim p fun h =>
    if p.sess.sys.rtimer then h.run { p with sess := p.sess.rtimerOff } else p
  | .wtimer, p => (p.tab .sigalrm).elim p fun h =>
    if p.sess.sys.wtimer.isSome then h.run { p with sess := p.sess.wtimerOff } else p
  | .typed bytes, p => { p with sess := (Happening.typed bytes).run p.sess }
  | .hangup, p => { p with sess := Happening.hangup.run p.sess }

/-- The state after all that happens before a statement. Signals that are blocked come later. -/
def Process.meet (e : PEnv) (p : Process) : Process :=
  if p.blocked then p else e.before.foldl (fun p i => i.run p) p

/-- A call of the process: on `none` it does not return. -/
def pcall {α : Type} (f : PEnv → Process → Option (PEvent × Process × α)) : PProg α :=
  Prog.step fun e p => (f e (p.meet e)).map fun r => ([(r.1, p.meet e)], r.2.1, r.2.2)

/-- A statement of the process. -/
def pstmt {α : Type} (f : PEnv → Process → Process × α) : PProg α :=
  Prog.step fun e p => some ([], f e (p.meet e))

/-! ## The session of a process -/

/-- What an incident is to the session, under the handlers `t`. -/
def Incident.happening (t : SigTable) : Incident → Option Happening
  | .signal g => ((t g).bind Handler.flag).map .signal
  | .rtimer => (t .sigrtmin).map fun _ => .rtimer
  | .wtimer => (t .sigalrm).map fun _ => .wtimer
  | .typed bytes => some (.typed bytes)
  | .hangup => some .hangup

/-- The entry of the session. -/
def PEnv.entry (p : Process) (e : PEnv) : Env :=
  { e.env with
    before := if p.blocked then [] else e.before.filterMap (Incident.happening p.tab) }

/-- The process with `s` for its session. Before there is a pipe, nothing is in it. -/
def Process.hold (p : Process) (s : Session) : Process :=
  { p with sess := if p.pipeOpen then s else { s with sys.pipe := 0 } }

/-- The part of a process that is its session's. -/
def part {α : Type} (m : SProg α) : PProg α := do
  let p ← Prog.get
  zoom (PEnv.entry p) Process.sess Process.hold PEvent.sys m

/-- The handlers raise the flags of their signals, and write to the pipe once there is one. -/
structure Process.Settled (p : Process) : Prop where
  proper : Proper p.tab
  pipes : p.pipeOpen = true → ∀ g h, p.tab g = some h → h.flag.isSome → h.pipes

section Hold

variable {p : Process}

@[simp] theorem hold_tab (s : Session) : (p.hold s).tab = p.tab := rfl

@[simp] theorem hold_pipeOpen (s : Session) : (p.hold s).pipeOpen = p.pipeOpen := rfl

/-- A handler of the process does to it what the handler of a session does to its session. -/
theorem handler_run_hold {h : Handler} (hp : p.pipeOpen = true → h.flag.isSome → h.pipes)
    (s : Session) : h.run (p.hold s) = p.hold (h.flag.elim s fun g => g.handler s) := by
  by_cases hopen : p.pipeOpen = true
  · have hpipes := hp hopen
    cases h <;> simp_all [Handler.run, Process.hold, Handler.flag, Handler.pipes, Signal.raise,
      Signal.handler, chilSig, chilSigExit, chilSigChld, chilSigHup, chilSigAlrm, chilSigIdle]
  · cases h <;> simp_all [Handler.run, Process.hold, Handler.flag, Handler.pipes, Signal.raise,
      Signal.handler, chilSig, chilSigExit, chilSigChld, chilSigHup, chilSigAlrm, chilSigIdle]

/-- What does not concern the pipe, and does not look at it. -/
theorem hold_comm {f : Session → Session}
    (hf : ∀ s, f { s with sys := { s.sys with pipe := 0 } } =
      { f s with sys := { (f s).sys with pipe := 0 } }) (s : Session) :
    { p.hold s with sess := f (p.hold s).sess } = p.hold (f s) := by
  by_cases hopen : p.pipeOpen = true
  · simp [Process.hold, hopen]
  · simp [Process.hold, hopen, hf]

@[simp] theorem hold_rtimer (s : Session) : (p.hold s).sess.sys.rtimer = s.sys.rtimer := by
  unfold Process.hold
  split <;> rfl

@[simp] theorem hold_wtimer (s : Session) : (p.hold s).sess.sys.wtimer = s.sys.wtimer := by
  unfold Process.hold
  split <;> rfl

/-- An incident of the process does to it what its happening does to its session. -/
theorem incident_run_hold (hp : p.Settled) (i : Incident) (s : Session) :
    i.run (p.hold s) = p.hold ((i.happening p.tab).elim s fun h => h.run s) := by
  cases i with
  | signal g =>
    rcases ht : p.tab g with _ | h
    · simp [Incident.run, Incident.happening, ht]
    · have hrun := handler_run_hold (fun hopen => hp.pipes hopen g h ht) s
      rcases hf : h.flag with _ | g'
      · simpa [Incident.run, Incident.happening, ht, hf] using hrun
      · simpa [Incident.run, Incident.happening, ht, hf, Happening.run] using hrun
  | rtimer =>
    rcases ht : p.tab .sigrtmin with _ | h
    · simp [Incident.run, Incident.happening, ht]
    · have hf : h.flag = some .idle := hp.proper _ _ ht
      -- the timer is off when its handler runs, in the process and in its session alike
      have hrun := handler_run_hold (fun hopen => hp.pipes hopen _ h ht) s.rtimerOff
      rw [hf, ← hold_comm (f := Session.rtimerOff) (fun _ => rfl)] at hrun
      by_cases hr : s.sys.rtimer = true
      · have hidle : Happening.rtimer.run s = Signal.idle.handler s.rtimerOff := if_pos hr
        simpa [Incident.run, Incident.happening, ht, hr, hidle] using hrun
      · simp [Incident.run, Incident.happening, ht, hr, Happening.run]
  | wtimer =>
    rcases ht : p.tab .sigalrm with _ | h
    · simp [Incident.run, Incident.happening, ht]
    · have hf : h.flag = some .alrm := hp.proper _ _ ht
      have hrun := handler_run_hold (fun hopen => hp.pipes hopen _ h ht) s.wtimerOff
      rw [hf, ← hold_comm (f := Session.wtimerOff) (fun _ => rfl)] at hrun
      by_cases hw : s.sys.wtimer.isSome = true
      · have halrm : Happening.wtimer.run s = Signal.alrm.handler s.wtimerOff := if_pos hw
        simpa [Incident.run, Incident.happening, ht, hw, halrm] using hrun
      · simp [Incident.run, Incident.happening, ht, hw, Happening.run]
  | typed bytes =>
    refine hold_comm (f := (Happening.typed bytes).run) (fun s => ?_) s
    by_cases hc : s.sys.closed = true
    · simp [Happening.run, hc]
    · simp [Happening.run, hc]
  | hangup => exact hold_comm (f := Happening.hangup.run) (fun _ => rfl) s

/-- **What happens before a statement of the process**, happens to its session. -/
theorem meet_hold (hp : p.Settled) (e : PEnv) (s : Session) :
    (p.hold s).meet e = p.hold (deliver (e.entry p) s) := by
  have key : ∀ (is : List Incident) (s : Session),
      is.foldl (fun p i => i.run p) (p.hold s) =
        p.hold ((is.filterMap (Incident.happening p.tab)).foldl (fun s h => h.run s) s) := by
    intro is
    induction is with
    | nil => exact fun _ => rfl
    | cons i is ih =>
      intro s
      rw [List.foldl_cons, incident_run_hold hp, ih, List.filterMap_cons]
      rcases i.happening p.tab with _ | h
      · rfl
      · rfl
  unfold Process.meet PEnv.entry deliver
  by_cases hb : p.blocked = true
  · simp [Process.hold, hb]
  · simpa [Process.hold, hb] using key e.before s

end Hold

section Frame

/-- What happens before a statement happens to the session of the process alone. -/
theorem meet_frame (e : PEnv) (p : Process) : p.meet e = { p with sess := (p.meet e).sess } := by
  have hrun : ∀ (i : Incident) (p' : Process), p' = { p with sess := p'.sess } →
      i.run p' = { p with sess := (i.run p').sess } := by
    intro i p' hp'
    rw [hp']
    cases i with
    | signal g => rcases ht : p.tab g with _ | h <;> simp [Incident.run, ht, Handler.run]
    | rtimer =>
      rcases ht : p.tab .sigrtmin with _ | h
      · simp [Incident.run, ht]
      · by_cases hr : p'.sess.sys.rtimer = true <;> simp [Incident.run, ht, hr, Handler.run]
    | wtimer =>
      rcases ht : p.tab .sigalrm with _ | h
      · simp [Incident.run, ht]
      · by_cases hw : p'.sess.sys.wtimer.isSome = true <;>
          simp [Incident.run, ht, hw, Handler.run]
    | typed bytes => rfl
    | hangup => rfl
  have key : ∀ (is : List Incident) (p' : Process), p' = { p with sess := p'.sess } →
      is.foldl (fun p i => i.run p) p' =
        { p with sess := (is.foldl (fun p i => i.run p) p').sess } := by
    intro is
    induction is with
    | nil => exact fun _ h => h
    | cons i is ih => exact fun p' h => ih (i.run p') (hrun i p' h)
  unfold Process.meet
  split
  · rfl
  · exact key e.before p rfl

@[simp] theorem meet_tab (e : PEnv) (p : Process) : (p.meet e).tab = p.tab := by
  rw [meet_frame]

end Frame

/-- Every entry is one the environment may choose. -/
abbrev anyEntry (_ : PEnv) : Prop := True

section Rules

variable {α : Type} {E : PEnv → Prop} {I : PRun → Prop} {w : PRun}

theorem wp_pstmt {f : PEnv → Process → Process × α} {Q : α → PRun → Prop} (hI : I w)
    (h : ∀ e, E e → Q (f e (w.st.meet e)).2 ⟨(f e (w.st.meet e)).1, w.trace⟩) :
    wp E I (pstmt f) Q w := by
  refine wp_step hI fun e he r hf => ?_
  obtain rfl := Option.some.inj hf
  simpa using h e he

theorem wp_pcall {f : PEnv → Process → Option (PEvent × Process × α)} {Q : α → PRun → Prop}
    (hI : I w)
    (h : ∀ e, E e → ∀ r, f e (w.st.meet e) = some r →
      Q r.2.2 ⟨r.2.1, w.trace ++ [(r.1, w.st.meet e)]⟩) :
    wp E I (pcall f) Q w := by
  refine wp_step hI fun e he r hf => ?_
  obtain ⟨r', hf', rfl⟩ := Option.map_eq_some_iff.mp hf
  exact h e he r' hf'

/-- The run of a process, continued by a run of its session. -/
abbrev after (w : PRun) (w₁ : SRun) : PRun := w.under Process.hold PEvent.sys w₁

theorem wp_part {E₁ : Env → Prop} {I₁ : SRun → Prop} {m : SProg α} {Q₁ : α → SRun → Prop}
    {Q : α → PRun → Prop} (h : wp E₁ I₁ m Q₁ ⟨w.st.sess, []⟩)
    (hE : ∀ e, E e → E₁ (e.entry w.st)) (hI : ∀ w₁, I₁ w₁ → I (after w w₁))
    (hQ : ∀ a w₁, Q₁ a w₁ → Q a (after w w₁)) : wp E I (part m) Q w :=
  wp_bind (wp_get (wp_zoom h hE hI hQ))

end Rules

end PadSvr
