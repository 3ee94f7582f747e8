import PadSvr.Cfgfile
import PadSvr.Scripted.Wp

/-!
# A session and its environment

The state of a session process while `do_copy` runs: the flags and globals, the kernel objects
it talks to, and the local variables and buffers of `do_copy`. Signal handlers run atomically
between statements; what may happen before a statement is a list of `Happening`s.

## Main definitions

* `Session`: the state of a session process
* `Happening.run`: a signal handler, an expiry of a timer, or bytes of the terminal side
* `Env`: one entry of the script
* `Event`: the recorded calls, and three points of the loop
* `deliver e s`: the state after all that happens before a statement

## Main results

* `interfered_deliver`: what happens before a statement changes the flags and the kernel objects
  only
-/

namespace PadSvr

open Scripted

/-- `errno`. The code tests for `EINTR` only. -/
inductive Errno
  | eintr
  | other (code : ℕ)
deriving DecidableEq, Repr

/-- The signals `chil_setsignal` catches: `SIGCHLD`, `SIGALRM`, `SIGHUP`, `SIGRTMIN`, and the
signals that ask for an exit. -/
inductive Signal
  | chld
  | alrm
  | hup
  | idle
  | exit
deriving DecidableEq, Repr

/-- `Flag_Hup`, `Flag_Chld`, `Flag_Alrm`, `Flag_Exit`, `Flag_Idle`. -/
structure Flags where
  hup : Bool := false
  chld : Bool := false
  alrm : Bool := false
  exit : Bool := false
  idle : Bool := false
deriving DecidableEq, Repr

/-- The bits of `revents` that are tested. -/
structure Revents where
  pollin : Bool := false
  pollerr : Bool := false
  pollnval : Bool := false
  pollhup : Bool := false
deriving DecidableEq, Repr

/-- The kernel's side of a session. -/
structure Kernel where
  /-- bytes of `Chil_pipefd` not yet read -/
  pipe : ℕ := 0
  /-- `Rtimer` is armed -/
  rtimer : Bool := false
  /-- the value `Wtimer` was last armed with, while it is armed -/
  wtimer : Option ℤ := none
  errno : Errno := .other 0
  /-- bytes the terminal side has written and the master has not delivered yet -/
  pty : List UInt8 := []
  /-- the terminal side is closed -/
  closed : Bool := false
deriving DecidableEq, Repr

/-- The local variables of `do_copy`; `tbufd2` is the offset of the pointer in `bufd2`. -/
structure Locals where
  sockRevents : Revents := {}
  masterRevents : Revents := {}
  pipeRevents : Revents := {}
  tbufd2 : ℕ
  totali : ℕ
  freesize : ℕ
  minlimit : ℤ
  flagMinlimitEx : Bool := false
  flagLastWritesock : Bool := false
  flagMinlimitIncrd : Bool := false
  lastreadmaster : ℕ := 10
  lastwritesock : ℕ := 10
deriving DecidableEq, Repr

/-- A session process in `do_copy`. `bufn` and `bufd` are the allocated blocks, so that `bufd2` is
`bufd` from its second byte on. -/
structure Session where
  flags : Flags := {}
  done : ℕ := 0
  flagForwardtimerEx : Bool := false
  flagExitstatusRecvd : ℤ := 0
  datalengthMin : ℤ := 128
  netTimeout : ℤ := 3
  cfg : Settings
  sys : Kernel := {}
  loc : Locals
  bufn : List UInt8
  bufd : List UInt8
deriving DecidableEq, Repr

/-- What can happen before a statement: a signal, an expiry of one of the two timers, bytes
written by the terminal side, and its hang-up. -/
inductive Happening
  | signal (g : Signal)
  | rtimer
  | wtimer
  | typed (bytes : List UInt8)
  | hangup
deriving DecidableEq, Repr

/-- A handler of a session: raise a flag and write one byte to the pipe. -/
def chilSig (raise : Flags → Flags) (s : Session) : Session :=
  { s with flags := raise s.flags, sys := { s.sys with pipe := s.sys.pipe + 1 } }

def chilSigExit : Session → Session := chilSig fun f => { f with exit := true }
def chilSigChld : Session → Session := chilSig fun f => { f with chld := true }
def chilSigHup : Session → Session := chilSig fun f => { f with hup := true }
def chilSigAlrm : Session → Session := chilSig fun f => { f with alrm := true }
def chilSigIdle : Session → Session := chilSig fun f => { f with idle := true }

/-- The handlers `chil_setsignal` installs. -/
def Signal.handler : Signal → Session → Session
  | .chld => chilSigChld
  | .alrm => chilSigAlrm
  | .hup => chilSigHup
  | .idle => chilSigIdle
  | .exit => chilSigExit

/-- A timer expires only while it is armed, and only once: `it_interval` is zero. -/
def Happening.run : Happening → Session → Session
  | .signal g, s => g.handler s
  | .rtimer, s =>
    if s.sys.rtimer then chilSigIdle { s with sys := { s.sys with rtimer := false } } else s
  | .wtimer, s =>
    if s.sys.wtimer.isSome then
      chilSigAlrm { s with sys := { s.sys with wtimer := none } }
    else s
  | .typed bytes, s =>
    if s.sys.closed then s else { s with sys := { s.sys with pty := s.sys.pty ++ bytes } }
  | .hangup, s => { s with sys := { s.sys with closed := true } }

/-- How `poll` returns. -/
inductive PollAnswer
  | fail (e : Errno)
  | ready (sock master pipe : Revents)
deriving DecidableEq, Repr

/-- One entry of the script: what happens before a statement, and the answer to the call it
makes. -/
structure Env where
  before : List Happening := []
  poll : PollAnswer := .ready {} {} {}
  /-- the read of the pipe is interrupted -/
  pipeIntr : Bool := false
  /-- bytes a read of the master returns -/
  master : Except Errno ℕ := .ok 0
  /-- packet a read of the X.25 socket returns -/
  sock : Except Errno (List UInt8) := .ok []
  /-- bytes a write to the X.25 socket accepts -/
  wsock : Except Errno ℕ := .ok 0
  /-- bytes a write to the master accepts -/
  wmaster : Except Errno ℕ := .ok 0
  /-- the configuration file -/
  file : CfgFile := .missing false
  /-- `errno` as reading the file and reopening the log leave it -/
  errno : Errno := .other 0
  /-- the process `waitpid` reports -/
  child : Option ℤ := none

/-- Nothing happens before the statement, and writes are accepted as they are. -/
def Env.willing : Env where
  wsock := .ok 65536
  wmaster := .ok 65536

/-- The calls a run records with their results, and the three points `loopHead` (line 320),
`forwardTest` (line 509) and `loopEnd` (line 544) of `do_copy`. The `poll` of the closing phases is
`closingPoll`. -/
inductive Event
  | loopHead
  | forwardTest
  | loopEnd
  | poll (a : PollAnswer)
  | readPipe (n : ℕ)
  | readMaster (off n : ℕ) (res : Except Errno (List UInt8))
  | readSock (n : ℕ) (res : Except Errno (List UInt8))
  | writeSock (pkt : List UInt8) (res : Except Errno ℕ)
  | writeMaster (data : List UInt8) (res : Except Errno ℕ)
  | reload (file : CfgFile)
  | closingPoll (a : PollAnswer)

/-- Programs of a session process. -/
abbrev SProg := Prog Env Event Session

/-- Runs of a session process. -/
abbrev SRun := Run Event Session

/-- The trace of a run, each event with the state it happened in. -/
abbrev STrace := List (Event × Session)

/-- The state after all that happens before a statement. -/
def deliver (e : Env) (s : Session) : Session := e.before.foldl (fun s h => h.run s) s

/-- What a happening or a list of them can do: raise flags, each with a byte in the pipe, let
timers expire, and add bytes of the terminal side. -/
structure Interfered (s s' : Session) : Prop where
  frame : s' = { s with flags := s'.flags, sys := s'.sys }
  errno : s'.sys.errno = s.sys.errno
  pipe : s.sys.pipe ≤ s'.sys.pipe
  idle : s.flags.idle = true → s'.flags.idle = true
  rtimer : s.sys.rtimer = true →
    s'.sys.rtimer = true ∨ s'.flags.idle = true ∧ 0 < s'.sys.pipe
  closed : s.sys.closed = true → s'.sys.closed = true ∧ s'.sys.pty = s.sys.pty

theorem Interfered.refl (s : Session) : Interfered s s :=
  ⟨rfl, rfl, le_refl _, id, Or.inl, fun h => ⟨h, rfl⟩⟩

theorem Interfered.trans {s s' s'' : Session} (h : Interfered s s') (h' : Interfered s' s'') :
    Interfered s s'' where
  frame := by
    have h₁ := h.frame
    have h₂ := h'.frame
    rw [h₁] at h₂
    exact h₂
  errno := h'.errno.trans h.errno
  pipe := h.pipe.trans h'.pipe
  idle := fun hi => h'.idle (h.idle hi)
  rtimer := fun hr => by
    rcases h.rtimer hr with hr' | ⟨hi, hp⟩
    · exact h'.rtimer hr'
    · exact Or.inr ⟨h'.idle hi, hp.trans_le h'.pipe⟩
  closed := fun hc =>
    have ⟨hc', hpty⟩ := h.closed hc
    have ⟨hc'', hpty'⟩ := h'.closed hc'
    ⟨hc'', hpty'.trans hpty⟩

theorem interfered_run (h : Happening) (s : Session) : Interfered s (h.run s) := by
  cases h with
  | signal g =>
    cases g <;> constructor <;>
      simp +contextual [Happening.run, Signal.handler, chilSig, chilSigExit, chilSigChld,
        chilSigHup, chilSigAlrm, chilSigIdle]
  | rtimer =>
    by_cases hr : s.sys.rtimer = true
    · constructor <;> simp [Happening.run, hr, chilSigIdle, chilSig]
    · simpa [Happening.run, hr] using Interfered.refl s
  | wtimer =>
    by_cases hw : s.sys.wtimer.isSome = true
    · constructor <;> simp +contextual [Happening.run, hw, chilSigAlrm, chilSig]
    · simpa [Happening.run, hw] using Interfered.refl s
  | typed bytes =>
    by_cases hc : s.sys.closed = true
    · simpa [Happening.run, hc] using Interfered.refl s
    · constructor <;> simp +contextual [Happening.run, hc]
  | hangup => constructor <;> simp +contextual [Happening.run]

/-- **What happens before a statement** is a sequence of happenings, each within
`Interfered`. -/
theorem interfered_deliver (e : Env) (s : Session) : Interfered s (deliver e s) := by
  have key : ∀ (hs : List Happening) (s' : Session), Interfered s s' →
      Interfered s (hs.foldl (fun s h => h.run s) s') := by
    intro hs
    induction hs with
    | nil => exact fun s' h => h
    | cons h hs ih => exact fun s' h' => ih (h.run s') (h'.trans (interfered_run h s'))
  exact key e.before s (Interfered.refl s)

section Frame

variable (e : Env) (s : Session)

@[simp] theorem deliver_done : (deliver e s).done = s.done := by
  rw [(interfered_deliver e s).frame]

@[simp] theorem deliver_flagForwardtimerEx :
    (deliver e s).flagForwardtimerEx = s.flagForwardtimerEx := by
  rw [(interfered_deliver e s).frame]

@[simp] theorem deliver_cfg : (deliver e s).cfg = s.cfg := by
  rw [(interfered_deliver e s).frame]

@[simp] theorem deliver_loc : (deliver e s).loc = s.loc := by
  rw [(interfered_deliver e s).frame]

@[simp] theorem deliver_bufn : (deliver e s).bufn = s.bufn := by
  rw [(interfered_deliver e s).frame]

@[simp] theorem deliver_bufd : (deliver e s).bufd = s.bufd := by
  rw [(interfered_deliver e s).frame]

@[simp] theorem deliver_errno : (deliver e s).sys.errno = s.sys.errno :=
  (interfered_deliver e s).errno

end Frame

end PadSvr
