import PadSvr.Process.State
import PadSvr.Session.Shutdown

/-!
# A session process

The branch of `do_main_work` that serves one call, from the fork to `Exit`, and the login process
it forks. A failing call leads to `Exit` from almost everywhere.

## Main definitions

* `exit`: the function `Exit`
* `chilSetsignal`: the handlers of a session, and its pipe
* `login`: the login process
* `register`, `serve`: a session up to `sig_unblock`, and from there on
* `session`: a session

## Main results

* `wp_orExit`: the rule of a part that can fail
-/

namespace PadSvr

open Scripted Scripted.Prog

/-- `send_pts_addr` of the own pid. -/
def sendPtsAddrCall (pts addr : List Char) : PProg Unit :=
  pcall fun _ p =>
    let r := sendPtsAddr p.flagDoPtsAddr p.bufFifo p.pid pts (some addr)
    some (.sendPtsAddr p.pid pts addr r.2, { p with bufFifo := r.1 }, ())

/-- What `Exit` does before it ends the process. -/
def exitCalls : PProg Unit := do
  let p ← Prog.get
  if p.flagIamboss then pcall fun _ p => some (.clearPid, p, ())
  else if p.flagIamchild ∧ p.flagPtsAddrSendStatus = 1 then sendPtsAddrCall ['-'] ['-']
  else pure ()

/-- `Exit`. -/
def exit {α : Type} (kod : ℕ) : PProg α := do
  exitCalls
  label (.exit kod)
  Prog.stop

/-- A call without which the process exits. -/
def require : PProg Unit := do
  if ← pstmt fun e p => (p, e.ok) then pure () else exit 1

/-- A part of the session. Some call of it may fail for good, and then the process exits. -/
def orExit {α : Type} (m : SProg α) : PProg α := do
  match ← upTo PEnv.exit (part m) with
  | .inl a => pure a
  | .inr kod => exit kod

/-- `fork`. The child gets its pid, and the role the code has for it. -/
def forkCall (role : Role) : PProg ForkAnswer :=
  pcall fun e p =>
    match e.fork with
    | .child pid => some (.fork, { p with pid := pid, role := role }, e.fork)
    | _ => some (.fork, p, e.fork)

/-- `malloc(n)`, or `Exit`. -/
def malloc (n : ℕ) : PProg (List UInt8) := do
  match ← pstmt fun e p => (p, if e.ok then some (e.block.takeD n 0) else none) with
  | some block => pure block
  | none => exit 1

/-- Calls of `sigaction`. -/
def install : List (Signo × Handler) → PProg Unit
  | [] => pure ()
  | a :: as => do
    pstmt fun _ p => ({ p with tab := sigaction p.tab a }, ())
    install as

/-- `chil_setsignal`: the handlers, then the pipe they write to. -/
def chilSetsignal : PProg Unit := do
  install chilActions
  let created ← pcall fun e p =>
    if e.ok then
      some (.pipe, { p with
        pipeOpen := true, sess := { p.sess with sys := { p.sess.sys with pipe := 0 } } }, true)
    else some (.pipe, p, false)
  if created then pure () else exit 1

/-- `do_copy` around its loop, with the calls of `cre_timers`. -/
def doCopy : PProg Unit := do
  let size := (← Prog.get).sess.cfg.bufferSize.toNat + 1
  let bufn ← malloc size
  let bufd ← malloc size
  -- `timer_create` for the watchdog and for the idle timer come next
  orExit (modify (doCopyStart · bufn bufd))
  require
  require
  orExit doCopyLoop
  orExit resetTimer
  orExit resetReadTimeout
  orExit closeCall
  sendPtsAddrCall ['-'] ['-']
  modify fun p => { p with flagPtsAddrSendStatus := 2 }
  -- the closing phases read into another block
  let block ← pstmt fun e p => (p, e.block)
  orExit (closeLine block)
  orExit (waitExitstatus block)

/-- The login process: `init_env`, `do_login`. Once `/bin/login` runs, it is no process of this
program any more. -/
def login : PProg Unit := do
  modify fun p => { p with flagIamchild := false }
  -- the slave side of the pseudo terminal, the session of its own, the controlling terminal
  require
  require
  require
  require
  label .exec
  Prog.stop

/-- Lines 366 to 382, with all signals blocked. A FIFO without a reader is no failure. -/
def register (addr : List Char) : PProg Unit := do
  modify fun p => { p with blocked := true, flagIamchild := true }
  require
  let name ← pstmt fun e p => (p, e.name)
  pstmt fun e p => ({ p with flagDoPtsAddr := p.flagDoPtsAddr && e.ok }, ())
  modify fun p => { p with flagPtsAddrSendStatus := 1 }
  sendPtsAddrCall name addr
  require
  pstmt fun e p => ({ p with sess := { p.sess with datalengthMin := paclen e.pacsizeOut } }, ())

/-- Lines 382 to 403, from `sig_unblock` on. -/
def serve (behind : List X29Par) : PProg Unit := do
  modify fun p => { p with blocked := false }
  orExit (x29SetDefault behind)
  match ← forkCall .login with
  | .fail => exit 1
  | .child _ => login
  | .parent => do
    chilSetsignal
    doCopy
    exit 0

/-- A session, called from `addr`. -/
def session (behind : List X29Par) (addr : List Char) : PProg Unit := do
  register addr
  serve behind

section Rules

variable {α : Type} {E : PEnv → Prop} {I J : PRun → Prop} {w : PRun}

theorem restores_require (hexit : ∀ w, J w → wp E I (exit 1 : PProg Unit) (fun _ => J) w)
    (h : Restores E I J (pstmt fun e p => (p, e.ok))) : Restores E I J require := by
  unfold require
  exact .bind h fun _ => .ite .pure hexit

theorem restores_malloc (n : ℕ)
    (hexit : ∀ w, J w → wp E I (exit 1 : PProg (List UInt8)) (fun _ => J) w)
    (h : Restores E I J (pstmt fun e p => (p, if e.ok then some (e.block.takeD n 0) else none))) :
    Restores E I J (malloc n) := by
  unfold malloc
  refine .bind h fun block => ?_
  rcases block with _ | block
  · exact hexit
  · exact .pure

/-- **A part of the session**, and what `Exit` makes of it where it fails. -/
theorem wp_orExit {m : SProg α} {Q : α → PRun → Prop} (hm : wp E J (part m) Q w)
    (hJ : ∀ w, J w → I w) (hexit : ∀ kod w, J w → wp E I (exit kod : PProg α) Q w) :
    wp E I (orExit m) Q w :=
  wp_bind (wp_upTo hm hJ (fun _ _ h => wp_pure h) fun kod w h => hexit kod w h)

end Rules

end PadSvr
