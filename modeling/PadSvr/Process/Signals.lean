import PadSvr.Session.State

/-!
# The handlers of the processes

`sighandler.c` has three sets of handlers. The monitor installs the first, the accepting process
the second over it, and a session the third over both, for a process inherits the handlers of the
one that forked it.

## Main definitions

* `Signo`, `Handler`, `SigTable`: the signals, the handlers, and which one is installed
* `moniActions`, `bossActions`, `chilActions`: the calls of `sigaction`, in the order of the source
* `moniTable`, `bossTable`, `chilTable`: the handlers of the three kinds of processes
* `Proper t`: every handler raises the flag of its signal

## Main results

* `proper_bossTable`, `proper_chilTable`: so do those of the accepting process and of a session
* `chilTable_pipes`: the handlers of a session write to its pipe
-/

namespace PadSvr

/-- The signals that some process catches. -/
inductive Signo
  | sigchld
  | sighup
  | sigalrm
  | sigrtmin
  | sigio
  | sigusr1
  | sigint
  | sigquit
  | sigabrt
  | sigterm
deriving DecidableEq, Repr

/-- The handlers. -/
inductive Handler
  | bossSigExit
  | bossSigChld
  | bossSigHup
  | chilSigExit
  | chilSigChld
  | chilSigHup
  | chilSigAlrm
  | chilSigIdle
  | moniSigHup
  | moniSigChld
  | moniSigIo
  | moniSigUsr1
deriving DecidableEq, Repr

/-- The handlers a process has installed. A signal without one has its default action. -/
abbrev SigTable := Signo → Option Handler

/-- `sigaction`. -/
def sigaction (t : SigTable) (a : Signo × Handler) : SigTable :=
  fun g => if g = a.1 then some a.2 else t g

/-- The calls of `moni_setsignal`. -/
def moniActions : List (Signo × Handler) :=
  [(.sigchld, .moniSigChld), (.sighup, .moniSigHup), (.sigio, .moniSigIo), (.sigusr1, .moniSigUsr1)]

/-- The calls of `boss_setsignal`. -/
def bossActions : List (Signo × Handler) :=
  [(.sigchld, .bossSigChld), (.sighup, .bossSigHup), (.sigint, .bossSigExit),
    (.sigquit, .bossSigExit), (.sigabrt, .bossSigExit), (.sigterm, .bossSigExit)]

/-- The calls of `chil_setsignal`. -/
def chilActions : List (Signo × Handler) :=
  [(.sigchld, .chilSigChld), (.sigalrm, .chilSigAlrm), (.sighup, .chilSigHup),
    (.sigrtmin, .chilSigIdle), (.sigint, .chilSigExit), (.sigquit, .chilSigExit),
    (.sigabrt, .chilSigExit), (.sigterm, .chilSigExit)]

/-- The handlers of the monitor, which starts with none. -/
def moniTable : SigTable := moniActions.foldl sigaction fun _ => none

/-- The handlers of the accepting process, which inherits those of the monitor. -/
def bossTable : SigTable := bossActions.foldl sigaction moniTable

/-- The handlers of a session, which inherits those of the accepting process. -/
def chilTable : SigTable := chilActions.foldl sigaction bossTable

/-- The flag of a session that a signal is for. `Flag_Io` and `Flag_Usr1` are read by the monitor
alone. -/
def Signo.flag : Signo → Option Signal
  | .sigchld => some .chld
  | .sighup => some .hup
  | .sigalrm => some .alrm
  | .sigrtmin => some .idle
  | .sigint | .sigquit | .sigabrt | .sigterm => some .exit
  | .sigio | .sigusr1 => none

/-- The flag that a handler raises. -/
def Handler.flag : Handler → Option Signal
  | .bossSigExit | .chilSigExit => some .exit
  | .bossSigChld | .chilSigChld | .moniSigChld => some .chld
  | .bossSigHup | .chilSigHup | .moniSigHup => some .hup
  | .chilSigAlrm => some .alrm
  | .chilSigIdle => some .idle
  | .moniSigIo | .moniSigUsr1 => none

def Signal.raise : Signal → Flags → Flags
  | .chld, f => { f with chld := true }
  | .alrm, f => { f with alrm := true }
  | .hup, f => { f with hup := true }
  | .idle, f => { f with idle := true }
  | .exit, f => { f with exit := true }

/-- Whether a handler writes to `Chil_pipefd`. -/
def Handler.pipes : Handler → Bool
  | .chilSigExit | .chilSigChld | .chilSigHup | .chilSigAlrm | .chilSigIdle => true
  | _ => false

/-- Every handler raises the flag of its signal. -/
def Proper (t : SigTable) : Prop := ∀ g h, t g = some h → h.flag = g.flag

theorem Proper.sigaction {t : SigTable} (ht : Proper t) {a : Signo × Handler}
    (ha : a.2.flag = a.1.flag) : Proper (sigaction t a) := by
  intro g h hg
  unfold PadSvr.sigaction at hg
  split at hg
  · next heq =>
    obtain rfl := Option.some.inj hg
    rw [heq]
    exact ha
  · exact ht g h hg

theorem Proper.actions {as : List (Signo × Handler)} (has : ∀ a ∈ as, a.2.flag = a.1.flag)
    {t : SigTable} (ht : Proper t) : Proper (as.foldl PadSvr.sigaction t) := by
  induction as generalizing t with
  | nil => exact ht
  | cons a as ih =>
    exact ih (fun b hb => has b (List.mem_cons_of_mem a hb))
      (ht.sigaction (has a (List.mem_cons_self ..)))

theorem proper_moniTable : Proper moniTable :=
  .actions (by decide) fun _ _ => nofun

theorem proper_bossTable : Proper bossTable := proper_moniTable.actions (by decide)

theorem proper_chilTable : Proper chilTable := proper_bossTable.actions (by decide)

/-- Every handler of a session that raises one of its flags writes to the pipe. -/
theorem chilTable_pipes {g : Signo} {h : Handler} (hg : chilTable g = some h)
    (hf : h.flag.isSome) : h.pipes := by
  cases g with
  | sigio => cases hg; cases hf
  | sigusr1 => cases hg; cases hf
  | _ => cases hg; rfl

end PadSvr
