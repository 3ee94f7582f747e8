import PadSvr.Process.Signals
import PadSvr.Process.State

/-!
# The accepting process

`do_main_work` accepts calls until it is asked to stop, and forks a session for each. Its flags are
looked at only after `accept` has been interrupted.

## Main definitions

* `Acceptor`: the accepting process, with the sessions it has to reap
* `Coming`: what can happen before a statement
* `Place`: the statements of its loop, and the wait in `accept`
* `bossInter`: the function `do_inter` of `pad_svr3.c`
* `acceptLoop`, `mainWork`: the loop, and what is before it

## Main results

* `wp_astmt`: the rule of a statement
-/

namespace PadSvr

open Scripted Scripted.Prog

/-- A session, as its parent sees it. -/
inductive ChildState
  | running
  /-- it has terminated, and the parent has not been signalled yet -/
  | ended
  /-- it has terminated, and `SIGCHLD` has been delivered -/
  | noticed
deriving DecidableEq, Repr

/-- The accepting process. -/
structure Acceptor where
  flags : Flags := {}
  done : Bool := false
  cfg : Settings
  children : List ChildState := []
deriving DecidableEq

/-- What can happen before a statement: a signal, or the end of a session. -/
inductive Coming
  | signal (g : Signo)
  | ends (i : ℕ)
deriving DecidableEq, Repr

/-- The statements of the loop and of `do_inter`, in the order of the source. `blocked` is the wait
in `accept`. -/
inductive Place
  | setup
  | accept
  | blocked
  | fork
  | close
  | chldTest
  | waitpid
  | chldClear
  | hupTest
  | reread
  | hupClear
  | alrmTest
  | alrmClear
  | exitTest
  | exitClear
deriving DecidableEq, Repr

/-- One entry of the script: what happens before a statement, and the answer to the call it
makes. -/
structure AEnv where
  before : List Coming := []
  /-- the call does not fail -/
  ok : Bool := true
  fork : ForkAnswer := .parent
  /-- the child that `waitpid` reports, if it has terminated -/
  pick : ℕ := 0
  file : CfgFile := .missing false

/-- The calls of the accepting process, what comes between them, and the wait in `accept`. -/
inductive AEvent
  | arrived (pl : Place) (c : Coming)
  | blocked
  | waitpid (reaped : Bool)
  | readcfg (file : CfgFile)
  | fork

abbrev AProg := Prog AEnv AEvent Acceptor

abbrev ARun := Run AEvent Acceptor

abbrev ATrace := List (AEvent × Acceptor)

/-- `SIGCHLD` stands for all sessions that have terminated so far. -/
def ChildState.notice : ChildState → ChildState
  | .running => .running
  | _ => .noticed

/-- The flag that the handler of a signal raises. -/
def bossSignal (g : Signo) : Option Signal := (bossTable g).bind Handler.flag

/-- A handler runs. -/
def Signal.runBoss (g : Signal) (s : Acceptor) : Acceptor :=
  { s with
    flags := g.raise s.flags
    children := if g = .chld then s.children.map .notice else s.children }

/-- A signal without a handler would end the process: that run is cut there. -/
def Coming.run : Coming → Acceptor → Acceptor
  | .signal g, s => (bossSignal g).elim s fun g => g.runBoss s
  | .ends i, s =>
    if s.children[i]? = some .running then { s with children := s.children.set i .ended } else s

/-- A handler runs, so that a call that waits is interrupted. -/
def Coming.interrupts : Coming → Bool
  | .signal g => (bossTable g).isSome
  | .ends _ => false

/-- What comes before a statement, one after the other. -/
def arrivals (pl : Place) : List Coming → Acceptor → ATrace × Acceptor
  | [], s => ([], s)
  | c :: cs, s => ((.arrived pl c, s) :: (arrivals pl cs (c.run s)).1, (arrivals pl cs (c.run s)).2)

/-- A statement. -/
def astmt {α : Type} (pl : Place) (f : AEnv → Acceptor → Option (List AEvent × Acceptor × α)) :
    AProg α :=
  Prog.step fun e s =>
    let r := arrivals pl e.before s
    (f e r.2).map fun x => (r.1 ++ x.1.map fun k => (k, r.2), x.2)

/-- Test a flag. -/
def atest (pl : Place) (up : Flags → Bool) : AProg Bool :=
  astmt pl fun _ s => some ([], s, up s.flags)

def aassign (pl : Place) (f : Acceptor → Acceptor) : AProg Unit :=
  astmt pl fun _ s => some ([], f s, ())

/-- `waitpid(-1, &stat, WNOHANG)`: whether a session was reaped. It is one that has terminated, if
there is one. -/
def waitpid : AProg Bool :=
  astmt .waitpid fun e s =>
    let ended (i : ℕ) : Bool := s.children[i]?.any (· ≠ .running)
    if ended e.pick then
      some ([.waitpid true], { s with children := s.children.eraseIdx e.pick }, true)
    else
      -- otherwise any session that has terminated is reaped
      match s.children.findIdx? (· ≠ .running) with
      | some i => some ([.waitpid true], { s with children := s.children.eraseIdx i }, true)
      | none => some ([.waitpid false], s, false)

/-- The loop around `waitpid`. -/
def reapAll : AProg Unit :=
  Prog.iter (fun () => do
    if ← waitpid then pure (.inl ()) else pure (.inr ())) ()

def bossChld : AProg Unit := do
  if ← atest .chldTest Flags.chld then do
    reapAll
    aassign .chldClear fun s => { s with flags := { s.flags with chld := false } }
  else pure ()

/-- A fault of `readcfg` ends the process. -/
def bossHup : AProg Unit := do
  if ← atest .hupTest Flags.hup then do
    astmt .reread fun e s =>
      match PadSvr.readcfg e.file s.cfg with
      | .error _ => none
      | .ok (_, c) => some ([.readcfg e.file], { s with cfg := c }, ())
    aassign .hupClear fun s => { s with flags := { s.flags with hup := false } }
  else pure ()

def bossAlrm : AProg Unit := do
  if ← atest .alrmTest Flags.alrm then
    aassign .alrmClear fun s => { s with flags := { s.flags with alrm := false } }
  else pure ()

def bossExit : AProg Unit := do
  if ← atest .exitTest Flags.exit then
    aassign .exitClear fun s => { s with done := true, flags := { s.flags with exit := false } }
  else pure ()

/-- `do_inter` of `pad_svr3.c`. -/
def bossInter : AProg Unit := do
  bossChld
  bossHup
  bossAlrm
  bossExit

/-- How `accept` returns. -/
inductive Accepted
  | intr
  | fail
  | call
deriving DecidableEq, Repr

/-- The process waits in `accept`. A handler that runs ends the wait, and nothing else that comes
does. -/
def acceptWait : AProg (Unit ⊕ Accepted) :=
  Prog.step fun e s =>
    match e.before with
    | [] => some ([], s, .inr (if e.ok then .call else .fail))
    | c :: _ =>
      if c.interrupts then some ([(.arrived .blocked c, s)], c.run s, .inr .intr)
      else some ([(.arrived .blocked c, s), (.blocked, c.run s)], c.run s, .inl ())

/-- `accept`: what comes before the call does not interrupt it. -/
def acceptCall : AProg Accepted := do
  astmt .accept fun _ s => some ([.blocked], s, ())
  Prog.iter (fun () => acceptWait) ()

/-- `fork`: in the child, the loop is over. -/
def forkSession : AProg ForkAnswer :=
  astmt .fork fun e s =>
    match e.fork with
    | .parent => some ([.fork], { s with children := s.children ++ [.running] }, .parent)
    -- the child has no children of its own
    | .child pid => some ([.fork], { s with children := [] }, .child pid)
    | .fail => some ([.fork], s, .fail)

/-- How the loop is left: `Done` is set, a call has failed, or this is a session. -/
inductive Left
  | stopped
  | failed
  | child (pid : ℕ)
deriving DecidableEq, Repr

/-- The loop of `do_main_work`. -/
def acceptLoop : AProg Left :=
  Prog.iter (fun () => do
    if (← Prog.get).done then pure (.inr .stopped)
    else
      match ← acceptCall with
      | .intr => do
        bossInter
        pure (.inl ())
      | .fail => pure (.inr .failed)
      | .call =>
        match ← forkSession with
        | .fail => pure (.inr .failed)
        | .child pid => pure (.inr (.child pid))
        | .parent => do
          -- the monitor's child goes on: the accepted socket is closed, and the loop repeated
          aassign .close id
          pure (.inl ())) ()

/-- `do_main_work`: the handlers, the socket, the loop. -/
def mainWork : AProg Left := do
  if ← astmt .setup fun e s => some ([], { s with done := false }, e.ok) then acceptLoop
  else pure .failed

/-- The accepting process as the monitor forks it. There is no session yet, and the monitor has no
handler that raises `Flag_Exit`. -/
def mainWorkStart (fl : Flags) (c : Settings) : Acceptor where
  flags := { fl with exit := false }
  cfg := c

/-- The trace of a run. -/
def mainWorkTrace (es : List AEnv) (fl : Flags) (c : Settings) : ATrace :=
  (mainWork es ⟨mainWorkStart fl c, []⟩).1.trace

section Rules

variable {α : Type} {E : AEnv → Prop} {I : ARun → Prop} {w : ARun}

/-- The run after what comes before a statement. -/
abbrev ARun.come (w : ARun) (pl : Place) (c : Coming) : ARun :=
  ⟨c.run w.st, w.trace ++ [(.arrived pl c, w.st)]⟩

/-- **A statement**: what comes before it keeps the assertion that its effect starts from. -/
theorem wp_astmt {pl : Place} {P : ARun → Prop}
    {f : AEnv → Acceptor → Option (List AEvent × Acceptor × α)} {Q : α → ARun → Prop}
    (hw : P w) (hI : I w) (hcome : ∀ w, P w → ∀ c, P (w.come pl c))
    (h : ∀ w, P w → ∀ e, E e → ∀ r, f e w.st = some r →
      Q r.2.2 ⟨r.2.1, w.trace ++ r.1.map fun k => (k, w.st)⟩) :
    wp E I (astmt pl f) Q w := by
  have key : ∀ (cs : List Coming) (w : ARun), P w →
      P ⟨(arrivals pl cs w.st).2, w.trace ++ (arrivals pl cs w.st).1⟩ := by
    intro cs
    induction cs with
    | nil =>
      intro w hw
      simpa [arrivals] using hw
    | cons c cs ih =>
      intro w hw
      simpa [arrivals] using ih (w.come pl c) (hcome w hw c)
  refine wp_step hI fun e he r hr => ?_
  obtain ⟨x, hx, rfl⟩ := Option.map_eq_some_iff.mp hr
  have hrun := h _ (key e.before w hw) e he x hx
  rwa [List.append_assoc] at hrun

end Rules

end PadSvr
