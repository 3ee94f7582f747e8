import PadSvr.Session.Oblivious

/-!
# A session observed

What a session does to its timer and makes of its reads is not all seen in its calls. Here the copy
loop and the closing phases are observed: each part is recorded as one call, and the points where
the timer is armed, a read is classified and a wait is given up are recorded by name.

## Main definitions

* `ReadClass`, `doCopyClass`, `waitNetClass`: what a read of the socket is taken for
* `Observed`: what is recorded
* `observedDoCopyLoop`, `observedWaitNet`, `observedWaitExitstatus`: the loop and the two waits
* `doCopyObserved`: the observed run of the loop
* `shutdown`, `observedShutdown`, `shutdownObserved`: what comes after the loop

## Main results

* `alike_observedDoCopyLoop`, `alike_observedShutdown`: what is observed is what the code does
* `keeps_observedDoCopyLoop`: a law of the traces of the copy loop, by its calls
-/

namespace PadSvr

open Scripted Scripted.Prog

/-- What a read of the socket is taken for: the branches behind it. -/
inductive ReadClass
  | packet
  | eof
  | interrupted
  | failed
deriving DecidableEq, Repr

/-- The tests of `do_copy`, lines 446 to 506, on the result of the read and `errno`. -/
def doCopyClass (i : ℤ) (errno : Errno) : ReadClass :=
  if 1 < i then .packet
  else if i = 0 then .eof
  else if errno = .eintr then .interrupted
  else .failed

/-- The tests of `wait_net`, lines 226 to 258. -/
def waitNetClass (i : ℤ) (errno : Errno) : ReadClass :=
  if 1 < i then .packet
  else if errno = .eintr then .interrupted
  else .failed

/-- What is recorded of a session. -/
inductive Observed
  /-- `set_watch_dog` has armed the timer -/
  | watchDog (t : ℤ)
  /-- `set_net_timeout` has armed the timer, and `Flag_Alrm` is up then or not -/
  | netTimeout (t : ℤ) (alrm : Bool)
  /-- the call of `poll` in the copy loop -/
  | poll
  /-- a read of the socket, with its result and `errno` -/
  | read (i : ℤ) (errno : Errno)
  /-- the branch taken behind it -/
  | taken (c : ReadClass)
  /-- an invitation to clear or an indication of break is received -/
  | invited
  /-- the timeout of a wait -/
  | timedOut
  /-- the exit signal of a wait -/
  | exitSignal
  /-- the `poll` of the last wait has failed -/
  | pollFailed
  /-- `Flag_Chld` of the last wait, and whether an exit status is known then -/
  | childEnded (known : Bool)
  /-- the end of the last wait -/
  | ended
  /-- anything else -/
  | work
deriving DecidableEq, Repr

/-- Observed programs of a session. -/
abbrev OProg := Prog Env Observed Session

/-- Runs of them. -/
abbrev ORun := Run Observed Session

/-- Their traces. -/
abbrev OTrace := List (Observed × Session)

/-- A part of the program that is not looked into. -/
def work {α : Type} (m : SProg α) : OProg α := observe (fun _ _ => Observed.work) m

def observedWatchDog : OProg Unit :=
  observe (fun s _ => .watchDog s.cfg.watchdogTimeout) setWatchDog

def observedNetTimeout : OProg Unit :=
  observe (fun s _ => .netTimeout s.netTimeout s.flags.alrm) setNetTimeout

def observedRead (n : ℕ) : OProg ℤ := observe (fun s i => .read i s.sys.errno) (readSock n)

/-! ## The copy loop -/

/-- `pollPart`. -/
def observedPollPart : OProg Ctl := do
  observedWatchDog
  label .poll
  if ← work pollCall then pure .next
  else if (← get).sys.errno ≠ .eintr then do
    work (setDone 11)
    pure .leave
  else do
    let _ ← work doInter
    pure .next

/-- `socketReceived`. -/
def observedSocketReceived (i : ℕ) : OProg Unit := do
  let bufn := (← get).bufn
  if bufn.headD 0 = 0 then
    work (setLoc fun l => { l with flagLastWritesock := false })
    work (writeBack ((bufn.drop 1).take (i - 1)))
  else
    let x29type := (bufn.drop 1).headD 0
    if x29type = x29InvitationToClear ∨ x29type = x29IndicationOfBreak then do
      label .invited
      observedNetTimeout
    else pure ()

/-- The branch that is taken behind a read of `i` bytes. -/
def observedBranch (i : ℤ) : ReadClass → OProg Unit
  | .packet => observedSocketReceived i.toNat
  | .eof => work (setDone 9)
  | .interrupted => do
    let _ ← work doInter
  | .failed => work (setDone 10)

/-- `readSocketPart`. -/
def observedReadSocketPart : OProg Unit := do
  if (← get).loc.sockRevents.pollin then
    let i ← observedRead ((← get).cfg.bufferSize.toNat + 1)
    let c := doCopyClass i (← get).sys.errno
    label (.taken c)
    observedBranch i c
  else pure ()

/-- `doCopyRound`. -/
def observedDoCopyRound : OProg Ctl := do
  match ← observedPollPart with
  | .leave => pure .leave
  | .next =>
    work signalPart
    match ← work reventsPart with
    | .leave => pure .leave
    | .next =>
      work readMasterPart
      observedReadSocketPart
      work forwardPart
      pure .next

/-- `doCopyLoop`. -/
def observedDoCopyLoop : OProg Unit := do
  Prog.iter (fun () => do
    label .work
    if (← get).done ≠ 0 then pure (.inr ())
    else
      match ← observedDoCopyRound with
      | .leave => pure (.inr ())
      | .next => pure (.inl ())) ()
  label .work

/-- The observed run of the copy loop. -/
def doCopyObserved (es : List Env) (s : Session) (bufn bufd : List UInt8) : OTrace :=
  (observedDoCopyLoop es ⟨doCopyStart s bufn bufd, []⟩).1.trace

/-! ## The closing phases -/

/-- A flag of a wait: `k` is recorded when it is up. -/
def observedUp (up : Flags → Bool) (k : Observed) (handle : SProg Unit) : OProg Unit := do
  if ← work (test fun s => up s.flags) then do
    label k
    work handle
  else pure ()

/-- `closingSignals`. -/
def observedClosingSignals (pipe : Revents) (ended : OProg Unit) : OProg Unit :=
  if pipe.pollin then do
    work (readPipe (← get).cfg.bufferSize.toNat)
    observedUp Flags.alrm .timedOut
      (assign fun s => { s with done := 1, flags := { s.flags with alrm := false } })
    observedUp Flags.exit .exitSignal
      (assign fun s => { s with done := 1, flags := { s.flags with exit := false } })
    if ← work (test fun s => s.flags.chld) then ended else pure ()
  else pure ()

/-- The branch that is taken behind a read in `wait_net`: only a failure ends the wait. -/
def observedWaitNetBranch : ReadClass → OProg (Unit ⊕ Unit)
  | .failed => do
    work (setDone 1)
    pure (.inr ())
  | _ => pure (.inl ())

/-- `waitNetRound`. -/
def observedWaitNetRound : OProg (Unit ⊕ Unit) := do
  if (← get).done ≠ 0 then pure (.inr ())
  else
    let answer ← work closingPoll
    if answer = none ∧ (← get).sys.errno ≠ .eintr then do
      work (setDone 11)
      pure (.inr ())
    else
      let (sock, pipe) := answer.getD ({}, {})
      observedClosingSignals pipe (work interChld)
      if sock.pollerr ∨ sock.pollnval ∨ sock.pollhup then do
        work (setDone 1)
        pure (.inr ())
      else if sock.pollin then do
        let i ← observedRead ((← get).cfg.bufferSize.toNat + 1)
        let c := waitNetClass i (← get).sys.errno
        label (.taken c)
        observedWaitNetBranch c
      else pure (.inl ())

/-- `waitNet`. -/
def observedWaitNet (buf : List UInt8) : OProg Unit := do
  work (modify fun s => { s with bufn := buf, done := 0 })
  observedNetTimeout
  Prog.iter (fun () => observedWaitNetRound) ()
  work resetTimer

/-- `waitExitstatusRound`. -/
def observedWaitExitstatusRound : OProg (Unit ⊕ Unit) := do
  if (← get).done ≠ 0 then pure (.inr ())
  else
    let answer ← work closingPoll
    if answer = none ∧ (← get).sys.errno ≠ .eintr then do
      label .pollFailed
      work (setDone 11)
      pure (.inr ())
    else
      let pipe := (answer.map Prod.snd).getD {}
      observedClosingSignals pipe (do
        observe (fun s _ => .childEnded (s.flagExitstatusRecvd ≠ 0)) interChld
        work (setDone 1))
      pure (.inl ())

/-- `waitExitstatus`. -/
def observedWaitExitstatus (buf : List UInt8) : OProg Unit := do
  if (← get).flagExitstatusRecvd = 0 then do
    work (modify fun s => { s with bufn := buf, done := 0 })
    observedNetTimeout
    Prog.iter (fun () => observedWaitExitstatusRound) ()
    label .ended
    work resetTimer
  else pure ()

/-- `closeLine`. -/
def observedCloseLine (buf : List UInt8) : OProg Unit := do
  let done := (← get).done
  if done = 10 ∨ done = 2 ∨ done = 9 then work closeCall
  else if done = 1 ∨ done = 3 ∨ done = 6 ∨ done = 7 ∨ done = 8 ∨ done = 11 then do
    work x29InvClear
    observedWaitNet buf
    work closeCall
  else if done = 4 ∨ done = 5 then do
    observedWaitNet buf
    work closeCall
  else pure ()

/-- Lines 544 to 605: what comes after the loop, but for the message to the monitor. -/
def shutdown (buf : List UInt8) : SProg Unit := do
  resetTimer
  resetReadTimeout
  closeCall
  closeLine buf
  waitExitstatus buf

/-- `shutdown`. -/
def observedShutdown (buf : List UInt8) : OProg Unit := do
  work resetTimer
  work resetReadTimeout
  work closeCall
  observedCloseLine buf
  observedWaitExitstatus buf

/-- The observed run of what comes after the loop. -/
def shutdownObserved (es : List Env) (s : Session) (buf : List UInt8) : OTrace :=
  (observedShutdown buf es ⟨s, []⟩).1.trace

/-! ## What is observed is what the code does -/

theorem alike_work {α : Type} {m : SProg α} (hm : Alike m m) : Alike m (work m) :=
  alike_observe hm _

theorem alike_observedPollPart : Alike pollPart observedPollPart := by
  have hwatch : Alike setWatchDog observedWatchDog := alike_observe (alike_stmt _) _
  have hpoll : Alike pollCall pollCall := alike_call _
  refine hwatch.bind fun _ => .label_right ?_ _
  refine (alike_work hpoll).bind fun b => .ite (alike_pure _) (alike_get.bind fun s => .ite ?_ ?_)
  · exact (alike_work (alike_setDone 11)).bind fun _ => alike_pure _
  · exact (alike_work alike_doInter).bind fun _ => alike_pure _

theorem alike_observedNetTimeout : Alike setNetTimeout observedNetTimeout :=
  alike_observe (alike_stmt _) _

theorem alike_observedRead (n : ℕ) : Alike (readSock n) (observedRead n) :=
  alike_observe (alike_call _) _

theorem alike_observedSocketReceived (i : ℕ) :
    Alike (socketReceived i) (observedSocketReceived i) := by
  refine alike_get.bind fun s => .ite ?_ (.ite ?_ (alike_pure _))
  · exact (alike_work (alike_setLoc _)).bind fun _ => alike_work (alike_writeBack _)
  · exact alike_observedNetTimeout.label_right _

/-- Behind a read, the branch of the code is the one that is named. -/
theorem alike_observedBranch (i : ℤ) :
    Alike (if 1 < i then socketReceived i.toNat else if i = 0 then setDone 9 else failed 10)
      (get >>= fun s => label (.taken (doCopyClass i s.sys.errno)) >>= fun _ =>
        observedBranch i (doCopyClass i s.sys.errno)) := by
  by_cases h1 : 1 < i
  · rw [if_pos h1]
    simp only [doCopyClass, if_pos h1]
    exact .get_right fun s => (alike_observedSocketReceived _).label_right _
  · by_cases h0 : i = 0
    · rw [if_neg h1, if_pos h0]
      simp only [doCopyClass, if_neg h1, if_pos h0]
      exact .get_right fun s => (alike_work (alike_setDone 9)).label_right _
    · rw [if_neg h1, if_neg h0]
      simp only [doCopyClass, if_neg h1, if_neg h0]
      -- here both sides look at `errno`
      refine alike_get.bind fun s => .label_right ?_ _
      split
      · exact (alike_work alike_doInter).bind fun _ => alike_pure _
      · exact alike_work (alike_setDone 10)

theorem alike_observedReadSocketPart : Alike readSocketPart observedReadSocketPart := by
  refine alike_get.bind fun s => .ite ?_ (alike_pure _)
  refine alike_get.bind fun s => (alike_observedRead _).bind fun i => ?_
  exact alike_observedBranch i

theorem alike_observedDoCopyRound : Alike doCopyRound observedDoCopyRound := by
  refine alike_observedPollPart.bind fun ctl => ?_
  cases ctl with
  | leave => exact alike_pure _
  | next =>
    refine (alike_work alike_signalPart).bind fun _ => ?_
    refine (alike_work alike_reventsPart).bind fun ctl => ?_
    cases ctl with
    | leave => exact alike_pure _
    | next =>
      refine (alike_work alike_readMasterPart).bind fun _ => ?_
      refine alike_observedReadSocketPart.bind fun _ => ?_
      exact (alike_work alike_forwardPart).bind fun _ => alike_pure _

/-- **The copy loop, as it is observed.** -/
theorem alike_observedDoCopyLoop : Alike doCopyLoop observedDoCopyLoop := by
  refine .bind (.iter (fun _ => ?_) ()) fun _ => alike_label _ _
  refine (alike_label _ _).bind fun _ => alike_get.bind fun s => .ite (alike_pure _) ?_
  refine alike_observedDoCopyRound.bind fun ctl => ?_
  cases ctl with
  | leave => exact alike_pure _
  | next => exact alike_pure _

theorem alike_observedClosingSignals (pipe : Revents) {ended : SProg Unit} {ended' : OProg Unit}
    (h : Alike ended ended') :
    Alike (closingSignals pipe ended) (observedClosingSignals pipe ended') := by
  have htest : ∀ up : Flags → Bool, Alike (test fun s => up s.flags)
      (work (test fun s => up s.flags)) := fun _ => alike_work (alike_stmt _)
  have hup : ∀ (up : Flags → Bool) (k : Observed) f,
      Alike (onUp up (assign f)) (observedUp up k (assign f)) := by
    intro up k f
    have hassign : Alike (assign f) (assign f) := alike_stmt _
    refine (htest up).bind fun b => .ite ?_ (alike_pure _)
    exact (alike_work hassign).label_right k
  have hpipe : ∀ n, Alike (readPipe n) (work (readPipe n)) := fun _ => alike_work (alike_call _)
  refine .ite (alike_get.bind fun s => (hpipe _).bind fun _ => ?_) (alike_pure _)
  refine (hup _ _ _).bind fun _ => (hup _ _ _).bind fun _ => ?_
  exact (htest _).bind fun b => .ite h (alike_pure _)

theorem alike_observedWaitNet (buf : List UInt8) : Alike (waitNet buf) (observedWaitNet buf) := by
  have hpoll : Alike closingPoll (work closingPoll) := alike_work (alike_call _)
  have hreset : Alike resetTimer (work resetTimer) := alike_work (alike_stmt _)
  have hleave : ∀ n, Alike (do setDone n; pure (.inr ()) : SProg (Unit ⊕ Unit))
      (do work (setDone n); pure (.inr ())) := fun n =>
    (alike_work (alike_setDone n)).bind fun _ => alike_pure _
  have hround : Alike waitNetRound observedWaitNetRound := by
    refine alike_get.bind fun s => .ite (alike_pure _) (hpoll.bind fun answer => ?_)
    refine alike_get.bind fun s => .ite (hleave 11) ?_
    refine (alike_observedClosingSignals _ (alike_work alike_interChld)).bind fun _ => ?_
    refine .ite (hleave 1) (.ite (alike_get.bind fun s => ?_) (alike_pure _))
    -- `wait_net` goes on behind a packet or an interrupt, in one test of the code
    refine (alike_observedRead _).bind fun i => alike_get.bind fun s => .label_right ?_ _
    by_cases h1 : 1 < i
    · rw [if_pos (Or.inl h1), waitNetClass, if_pos h1]
      exact alike_pure _
    · rw [waitNetClass, if_neg h1]
      by_cases he : s.sys.errno = .eintr
      · rw [if_pos (Or.inr he), if_pos he]
        exact alike_pure _
      · rw [if_neg (not_or.mpr ⟨h1, he⟩), if_neg he]
        exact hleave 1
  refine (alike_work (alike_modify _)).bind fun _ => alike_observedNetTimeout.bind fun _ => ?_
  exact (Alike.iter (fun _ => hround) ()).bind fun _ => hreset

theorem alike_observedWaitExitstatus (buf : List UInt8) :
    Alike (waitExitstatus buf) (observedWaitExitstatus buf) := by
  have hpoll : Alike closingPoll (work closingPoll) := alike_work (alike_call _)
  have hreset : Alike resetTimer (work resetTimer) := alike_work (alike_stmt _)
  have hround : Alike waitExitstatusRound observedWaitExitstatusRound := by
    refine alike_get.bind fun s => .ite (alike_pure _) (hpoll.bind fun answer => ?_)
    refine alike_get.bind fun s => .ite (.label_right ?_ _) (.bind ?_ fun _ => alike_pure _)
    · exact (alike_work (alike_setDone 11)).bind fun _ => alike_pure _
    · refine alike_observedClosingSignals _ (.bind ?_ fun _ => alike_work (alike_setDone 1))
      exact alike_observe alike_interChld _
  refine alike_get.bind fun s => .ite ?_ (alike_pure _)
  refine (alike_work (alike_modify _)).bind fun _ => alike_observedNetTimeout.bind fun _ => ?_
  exact (Alike.iter (fun _ => hround) ()).bind fun _ => hreset.label_right _

/-- **The closing phases, as they are observed.** -/
theorem alike_observedShutdown (buf : List UInt8) :
    Alike (shutdown buf) (observedShutdown buf) := by
  have hreset : Alike resetTimer (work resetTimer) := alike_work (alike_stmt _)
  have hread : Alike resetReadTimeout (work resetReadTimeout) := alike_work (alike_stmt _)
  have hclose : Alike closeCall (work closeCall) := alike_work (alike_stmt _)
  have hwait : Alike (do waitNet buf; closeCall)
      (do observedWaitNet buf; work closeCall) :=
    (alike_observedWaitNet buf).bind fun _ => hclose
  have hline : Alike (closeLine buf) (observedCloseLine buf) := by
    refine alike_get.bind fun s => .ite hclose (.ite ?_ (.ite hwait (alike_pure _)))
    exact (alike_work alike_x29InvClear).bind fun _ => hwait
  refine hreset.bind fun _ => hread.bind fun _ => hclose.bind fun _ => hline.bind fun _ => ?_
  exact alike_observedWaitExitstatus buf

/-! ## Laws of the traces -/

section Laws

variable {J : OTrace → Prop}

theorem keeps_work {α : Type} (hwork : ∀ t s, J t → J (t ++ [(.work, s)])) (m : SProg α) :
    Keeps (fun _ => True) (fun w : ORun => J w.trace) (work m) :=
  keeps_observe m fun t s _ _ h => hwork t s h

/-- **A law of the traces of the copy loop**: the plain calls cannot break it, and it holds again
once the timer is armed for a `poll` and once the branch behind a read is taken. -/
theorem keeps_observedDoCopyLoop (hwork : ∀ t s, J t → J (t ++ [(.work, s)]))
    (hinvited : ∀ t s, J t → J (t ++ [(.invited, s)]))
    (hnet : ∀ t v b s, J t → J (t ++ [(.netTimeout v b, s)]))
    (hhead : ∀ w : ORun, J w.trace → wp (fun _ => True) (fun w => J w.trace) observedWatchDog
      (fun _ w' => J (w'.trace ++ [(.poll, w'.st)])) w)
    (hread : ∀ n (w : ORun), J w.trace → wp (fun _ => True) (fun w => J w.trace) (observedRead n)
      (fun i w' => J (w'.trace ++ [(.taken (doCopyClass i w'.st.sys.errno), w'.st)])) w) :
    Keeps (fun _ => True) (fun w : ORun => J w.trace) observedDoCopyLoop := by
  have hk := fun {α : Type} (m : SProg α) => keeps_work (J := J) hwork m
  have hlabel : Keeps (fun _ => True) (fun w : ORun => J w.trace) (label .work : OProg Unit) :=
    keeps_label hwork
  have hpoll : Keeps (fun _ => True) (fun w : ORun => J w.trace) observedPollPart := by
    intro w hw
    -- the head and the `poll` together keep the law
    refine wp_seq (hhead w hw) fun _ w' h => wp_bind (wp_label ?_)
    refine Keeps.bind (hk _) (fun b => .ite .pure (.bind .get fun _ => .ite ?_ ?_)) _ h
    · exact .bind (hk _) fun _ => .pure
    · exact .bind (hk _) fun _ => .pure
  have hgot : ∀ i, Keeps (fun _ => True) (fun w : ORun => J w.trace)
      (observedSocketReceived i) := by
    intro i
    refine .bind .get fun _ => .ite (.bind (hk _) fun _ => hk _) (.ite ?_ .pure)
    exact .bind (keeps_label hinvited) fun _ => keeps_observe _ fun _ _ _ _ h => hnet _ _ _ _ h
  have hbranch : ∀ i c, Keeps (fun _ => True) (fun w : ORun => J w.trace) (observedBranch i c) := by
    intro i c
    cases c with
    | packet => exact hgot _
    | eof => exact hk _
    | interrupted => exact .bind (hk _) fun _ => .pure
    | failed => exact hk _
  have hsocket : Keeps (fun _ => True) (fun w : ORun => J w.trace) observedReadSocketPart := by
    refine .bind .get fun _ => .ite (.bind .get fun _ => fun w hw => ?_) .pure
    -- so do a read and the branch behind it
    refine wp_seq (hread _ w hw) fun i w' h => wp_bind (wp_get (wp_bind (wp_label ?_)))
    exact hbranch i _ _ h
  have hround : Keeps (fun _ => True) (fun w : ORun => J w.trace) observedDoCopyRound := by
    refine .bind hpoll fun ctl => ?_
    cases ctl with
    | leave => exact .pure
    | next =>
      refine .bind (hk _) fun _ => .bind (hk _) fun ctl => ?_
      cases ctl with
      | leave => exact .pure
      | next => exact .bind (hk _) fun _ => .bind hsocket fun _ => .bind (hk _) fun _ => .pure
  refine .bind (.iter (fun _ => ?_) ()) fun _ => hlabel
  refine .bind hlabel fun _ => .bind .get fun _ => .ite .pure (.bind hround fun ctl => ?_)
  cases ctl with
  | leave => exact .pure
  | next => exact .pure

end Laws

end PadSvr
