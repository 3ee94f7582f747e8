import PadSvr.Session.DoCopy
import PadSvr.X29.Control

/-!
# The closing phases

What `do_copy` does after its loop: the line is closed as the reason for the end asks for, and the
exit status of the login process is awaited. Both waits are limited by the timer of the watchdog.

## Main definitions

* `waitNet`: the line is read until the other side has closed it
* `waitExitstatus`: the login process is awaited
* `closeLine`: the `switch` over `Done`
-/

namespace PadSvr

open Scripted Scripted.Prog

def resetTimer : SProg Unit :=
  assign fun s => { s with sys := { s.sys with wtimer := none } }

/-- A call that touches nothing of the session: `close`, on an end of the line or of the terminal.
It is made again when it is interrupted. -/
def closeCall : SProg Unit := stmt fun _ s => (s, ())

/-- `poll` of the closing phases: the `revents` of the socket and of the pipe. A failure is `none`.
-/
def closingPoll : SProg (Option (Revents × Revents)) :=
  call fun e s =>
    match e.poll with
    | .fail er => some (.closingPoll e.poll, s.failing er, none)
    | .ready sock _ pipe => some (.closingPoll e.poll, s, some (sock, pipe))

/-- One flag: it is handled if it is up. -/
def onUp (up : Flags → Bool) (handle : SProg Unit) : SProg Unit := do
  if ← test fun s => up s.flags then handle else pure ()

/-- A signal has arrived in a closing phase. Its timer or an exit signal ends the phase, and
`ended` is done when the login process may have ended. -/
def closingSignals (pipe : Revents) (ended : SProg Unit) : SProg Unit :=
  if pipe.pollin then do
    readPipe (← Prog.get).cfg.bufferSize.toNat
    onUp Flags.alrm
      (assign fun s => { s with done := 1, flags := { s.flags with alrm := false } })
    onUp Flags.exit
      (assign fun s => { s with done := 1, flags := { s.flags with exit := false } })
    onUp Flags.chld ended
  else pure ()

/-- One round of `wait_net`. -/
def waitNetRound : SProg (Unit ⊕ Unit) := do
  if (← Prog.get).done ≠ 0 then pure (.inr ())
  else
    let answer ← closingPoll
    if answer = none ∧ (← Prog.get).sys.errno ≠ .eintr then do
      setDone 11
      pure (.inr ())
    else
      -- a `poll` that is interrupted has cleared the `revents`
      let (sock, pipe) := answer.getD ({}, {})
      closingSignals pipe interChld
      if sock.pollerr ∨ sock.pollnval ∨ sock.pollhup then do
        setDone 1
        pure (.inr ())
      else if sock.pollin then do
        let i ← readSock ((← Prog.get).cfg.bufferSize.toNat + 1)
        if 1 < i ∨ (← Prog.get).sys.errno = .eintr then pure (.inl ())
        else do
          setDone 1
          pure (.inr ())
      else pure (.inl ())

/-- `wait_net`, with the block `malloc` returned. -/
def waitNet (buf : List UInt8) : SProg Unit := do
  modify fun s => { s with bufn := buf, done := 0 }
  setNetTimeout
  Prog.iter (fun () => waitNetRound) ()
  resetTimer

/-- One round of `wait_exitstatus`. -/
def waitExitstatusRound : SProg (Unit ⊕ Unit) := do
  if (← Prog.get).done ≠ 0 then pure (.inr ())
  else
    let answer ← closingPoll
    if answer = none ∧ (← Prog.get).sys.errno ≠ .eintr then do
      setDone 11
      pure (.inr ())
    else
      let pipe := (answer.map Prod.snd).getD {}
      closingSignals pipe (do
        interChld
        setDone 1)
      pure (.inl ())

/-- `wait_exitstatus`: unless its exit status is known, the login process is awaited. -/
def waitExitstatus (buf : List UInt8) : SProg Unit := do
  if (← Prog.get).flagExitstatusRecvd = 0 then do
    modify fun s => { s with bufn := buf, done := 0 }
    setNetTimeout
    Prog.iter (fun () => waitExitstatusRound) ()
    resetTimer
  else pure ()

/-- Lines 554 to 604: the end of the line, by the reason `Done` for the end of the loop. -/
def closeLine (buf : List UInt8) : SProg Unit := do
  let done := (← Prog.get).done
  -- the socket has failed or is closed: there is nobody left to be asked for a clear
  if done = 10 ∨ done = 2 ∨ done = 9 then closeCall
  -- the terminal side has ended, or the session is given up: ask for a clear, and wait for it
  else if done = 1 ∨ done = 3 ∨ done = 6 ∨ done = 7 ∨ done = 8 ∨ done = 11 then do
    x29InvClear
    waitNet buf
    closeCall
  -- the reasons that the X.29 messages would give; no statement sets them
  else if done = 4 ∨ done = 5 then do
    waitNet buf
    closeCall
  else pure ()

end PadSvr
