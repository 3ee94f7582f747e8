import PadSvr.Monitor.DoMonitor
import PadSvr.Process.Accept
import PadSvr.Process.Serve

/-!
# The processes of the daemon

The monitor forks the accepting process, that one forks the sessions, and a session forks its login
process. A run follows one path down this tree: at each `fork` the script says in which of the two
processes it goes on. What a process has not set itself, it has from those above it.

## Main definitions

* `Daemon`: a process, with the data of its role
* `asMoni`, `asAcc`, `asProc`: the programs of the roles
* `mainWorkProcess`: the accepting process, from its fork to `Exit`
* `monitor`: the daemon, from the end of `go_daemon` on
-/

namespace PadSvr

open Scripted Scripted.Prog

/-- A process, with what it needs as the monitor and as the accepting process. -/
structure Daemon where
  moni : Moni
  acc : Acceptor
  proc : Process

/-- One entry of the script, for each of the roles. -/
structure DEnv where
  moni : MEnv := {}
  acc : AEnv := {}
  proc : PEnv := {}

inductive DEvent
  | moni (k : MEvent)
  | acc (k : AEvent)
  | proc (k : PEvent)

abbrev DProg := Prog DEnv DEvent Daemon

abbrev DRun := Run DEvent Daemon

abbrev DTrace := List (DEvent × Daemon)

def asMoni {α : Type} (m : MProg α) : DProg α :=
  zoom DEnv.moni Daemon.moni (fun d s => { d with moni := s }) DEvent.moni m

def asAcc {α : Type} (m : AProg α) : DProg α :=
  zoom DEnv.acc Daemon.acc (fun d s => { d with acc := s }) DEvent.acc m

def asProc {α : Type} (m : PProg α) : DProg α :=
  zoom DEnv.proc Daemon.proc (fun d p => { d with proc := p }) DEvent.proc m

/-- The accepting process, right after its fork. -/
def Daemon.startMainWork (d : Daemon) : Daemon where
  moni := d.moni
  acc := mainWorkStart { hup := d.moni.flags.hup, chld := d.moni.flags.chld } d.moni.cfg
  proc := { d.proc with flagIamboss := false, blocked := false }

/-- A session, right after its fork. -/
def Daemon.startSession (d : Daemon) (pid : ℕ) : Daemon :=
  { d with proc := { d.proc with
      role := .session
      pid := pid
      tab := bossTable
      sess := { d.proc.sess with flags := d.acc.flags, cfg := d.acc.cfg } } }

/-- Lines 72 to 75 of `do_monitor`, and what the forks of `do_main_work` lead to. -/
def mainWorkProcess (behind : List X29Par) (addr : List Char) : DProg Unit := do
  modify Daemon.startMainWork
  match ← asAcc mainWork with
  | .stopped => asProc (exit 0)
  | .failed => asProc (exit 1)
  | .child pid => do
    modify (·.startSession pid)
    asProc (session behind addr)

/-- Lines 60 to 76 of `do_monitor`. -/
def forkMainWork (behind : List X29Par) (addr : List Char) : DProg Unit := do
  if (← Prog.get).moni.flagNeedStart then
    match ← asProc (forkCall .acceptor) with
    | .fail => asProc (exit 1)
    | .child _ => mainWorkProcess behind addr
    | .parent => modify fun d =>
      { d with moni := { d.moni with
        children := d.moni.children ++ [none], flagNeedStart := false } }
  else pure ()

/-- The loop of `do_monitor`, with both sides of its `fork`. -/
def monitorLoop (behind : List X29Par) (addr : List Char) : DProg Unit :=
  Prog.iter (fun () => do
    forkMainWork behind addr
    asMoni sigsuspend
    if ← asMoni chldPart then pure (.inr ())
    else do
      asMoni hupPart
      asMoni ioPart
      asMoni usr1Part
      pure (.inl ())) ()

/-- The end of `main`: `leave_pid`, `setup_pts_addr`, `moni_setsignal`, `do_monitor`. -/
def monitor (row : Row) (behind : List X29Par) (addr : List Char) : DProg Unit := do
  modify fun d => { d with proc := { d.proc with flagIamboss := true } }
  asProc require
  asProc (pstmt fun e p => ({ p with flagDoPtsAddr := p.flagDoPtsAddr && e.ok }, ()))
  asProc (install moniActions)
  modify fun d => { d with
    moni := doMonitorStart d.moni row
    proc := { d.proc with blocked := true } }
  monitorLoop behind addr
  asProc (exit 0)

/-- The daemon, right after `go_daemon`: the globals have their initial values. -/
def Daemon.start (d : Daemon) : Daemon :=
  { d with proc := { d.proc with
      role := .monitor
      tab := fun _ => none
      blocked := false
      pipeOpen := false
      flagIamboss := false
      flagIamchild := false
      flagDoPtsAddr := true
      flagPtsAddrSendStatus := 0 } }

/-- The trace of a path. The call that a session of it serves is from `addr`. -/
def daemonTrace (es : List DEnv) (d : Daemon) (row : Row) (behind : List X29Par)
    (addr : List Char) : DTrace :=
  (monitor row behind addr es ⟨d.start, []⟩).1.trace

end PadSvr
