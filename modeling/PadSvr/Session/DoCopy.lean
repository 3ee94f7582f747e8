import PadSvr.Session.Writen

/-!
# The copy loop

`do_copy` copies between the master side of the pseudo terminal and the X.25 socket until `Done`
is set. One round of its loop is the sequence of its parts, in the order of the source.

## Main definitions

* `doInter`: the flags handled, called wherever a signal may have arrived
* `failed n`: the end of a call that failed
* `pollPart`, `signalPart`, `reventsPart`, `readMasterPart`, `readSocketPart`, `forwardPart`: the
  parts of a round
* `doCopyLoop`: the loop
* `doCopyStart`: the state at its start
* `doCopyTrace`, `doCopyLeft`: the trace of a run, and where it has left the loop
-/

namespace PadSvr

open Scripted Scripted.Prog CString

/-- Assign local variables of `do_copy`. -/
def setLoc (f : Locals → Locals) : SProg Unit := modify fun s => { s with loc := f s.loc }

/-- Assign `Done`, which no handler reads or writes. -/
def setDone (n : ℕ) : SProg Unit := modify fun s => { s with done := n }

/-- `recv_exit_status`: the login process, if it has ended. -/
def recvExitStatus : SProg Unit :=
  stmt fun e s =>
    match e.child with
    | some pid => if 0 < pid then ({ s with flagExitstatusRecvd := pid }, ()) else (s, ())
    | none => (s, ())

/-- One flag: it is handled if it is up, and then the result is `ret`. -/
def onFlag (up : Flags → Bool) (handle : SProg Unit) (ret ret₀ : ℤ) : SProg ℤ := do
  if ← test fun s => up s.flags then do
    handle
    pure ret
  else pure ret₀

def interHup : SProg Unit := do
  reload
  assign fun s => { s with flags := { s.flags with hup := false } }

def interAlrm : SProg Unit :=
  assign fun s => { s with done := 7, flags := { s.flags with alrm := false } }

def interExit : SProg Unit :=
  assign fun s => { s with done := 8, flags := { s.flags with exit := false } }

def interIdle : SProg Unit :=
  assign fun s => { s with flags := { s.flags with idle := false }, flagForwardtimerEx := true }

def interChld : SProg Unit := do
  recvExitStatus
  assign fun s => { s with flags := { s.flags with chld := false } }

/-- The flags, one after the other. The result is 0 when the caller must give up. -/
def doInter : SProg ℤ := do
  -- only the watchdog and an exit signal make the caller give up
  let ret ← onFlag Flags.hup interHup 1 1
  let ret ← onFlag Flags.alrm interAlrm 0 ret
  let ret ← onFlag Flags.exit interExit 0 ret
  let ret ← onFlag Flags.idle interIdle ret ret
  onFlag Flags.chld interChld ret ret

/-- A call has returned -1: it was interrupted, or the loop ends with `n`. -/
def failed (n : ℕ) : SProg Unit := do
  if (← get).sys.errno = .eintr then
    let _ ← doInter
  else setDone n

/-- `wr_error`. -/
def wrError : SProg ℤ := do
  setDone 10
  pure 0

/-- Whether a part of the round leaves the loop. -/
inductive Ctl
  | next
  | leave
deriving DecidableEq, Repr

/-- Lines 322 to 335: the watchdog, and the wait for something to do. Behind an interrupted `poll`,
the round goes on as behind one that has reported nothing. -/
def pollPart : SProg Ctl := do
  setWatchDog
  if ← pollCall then pure .next
  else if (← get).sys.errno ≠ .eintr then do
    setDone 11
    pure .leave
  else do
    let _ ← doInter
    pure .next

/-- Lines 337 to 341: a signal has arrived. -/
def signalPart : SProg Unit := do
  if (← get).loc.pipeRevents.pollin then
    readPipe (← get).cfg.bufferSize.toNat
    let _ ← doInter

/-- A hang-up of the terminal side: it does not leave the loop at once. -/
def masterHangup : SProg Unit := do
  if (← get).loc.masterRevents.pollhup then setDone 3

/-- Lines 343 to 373: errors and hang-ups. -/
def reventsPart : SProg Ctl := do
  let l := (← get).loc
  if l.masterRevents.pollerr ∨ l.masterRevents.pollnval then do
    setDone 1
    pure .leave
  else do
    masterHangup
    if l.sockRevents.pollerr ∨ l.sockRevents.pollnval then do
      setDone 10
      pure .leave
    else if l.sockRevents.pollhup then do
      setDone 2
      pure .leave
    else pure .next

/-- Lines 398 to 417, the variables: `i` bytes more in the buffer. -/
def Locals.received (i : ℕ) (l : Locals) : Locals :=
  let totali := l.totali + i
  { l with
    freesize := l.freesize - i
    tbufd2 := l.tbufd2 + i
    totali := totali
    lastreadmaster := i
    minlimit := if l.flagLastWritesock then int32 (l.lastwritesock + totali / 2) else l.minlimit
    flagMinlimitIncrd := l.flagLastWritesock || l.flagMinlimitIncrd }

/-- Lines 376 to 383: read behind what the buffer holds, or from its start when nothing stays
in it. -/
def readMasterCall : SProg ℤ := do
  let s ← get
  if s.cfg.forwardtimer = 0 then readMaster 1 s.cfg.bufferSize.toNat
  else readMaster (1 + s.loc.tbufd2) s.loc.freesize

/-- Lines 385 to 421: `i` bytes are read. Without the idle timer they are sent at once, otherwise
they stay in the buffer. -/
def masterReceived (i : ℕ) : SProg Unit := do
  if (← get).cfg.forwardtimer = 0 then
    let r ← writensockint (← get).bufd (i + 1) doInter wrError
    modify fun s => { s with bufd := r.2 }
  else
    setLoc (Locals.received i)
    let l := (← get).loc
    if l.minlimit ≤ l.totali then
      setLoc fun l => { l with flagMinlimitEx := true }
      resetReadTimeout
    else setReadTimeout

/-- Lines 375 to 438: read from the master. -/
def readMasterPart : SProg Unit := do
  if (← get).loc.masterRevents.pollin then
    let i ← readMasterCall
    if 0 < i then masterReceived i.toNat
    -- an end of file does not leave the loop here, and the socket is read in the same round
    else if i = 0 then setDone 6
    else failed 1

/-- Lines 459 to 469: write a packet to the master, again from its start after a failure. -/
def writeBack (data : List UInt8) : SProg Unit :=
  Prog.iter (fun () => do
    let iw ← writen writeMaster data
    if iw < 0 then do
      -- whatever the failure was, `writen` is called again, with the whole payload
      failed 1
      pure (.inl ())
    else pure (.inr ())) ()

/-- `X29InvitationToClear` and `X29IndicationOfBreak`. -/
def x29InvitationToClear : UInt8 := 1
def x29IndicationOfBreak : UInt8 := 3

/-- Lines 446 to 492: a packet of `i` bytes is read. -/
def socketReceived (i : ℕ) : SProg Unit := do
  let bufn := (← get).bufn
  if bufn.headD 0 = 0 then
    -- a data packet: the payload is behind the Q byte
    setLoc fun l => { l with flagLastWritesock := false }
    writeBack ((bufn.drop 1).take (i - 1))
  else
    -- a qualified one: other X.29 codes are passed over
    let x29type := (bufn.drop 1).headD 0
    if x29type = x29InvitationToClear ∨ x29type = x29IndicationOfBreak then setNetTimeout

/-- Lines 440 to 507: read from the socket. -/
def readSocketPart : SProg Unit := do
  if (← get).loc.sockRevents.pollin then
    let i ← readSock ((← get).cfg.bufferSize.toNat + 1)
    if 1 < i then socketReceived i.toNat
    -- a result of 1, the Q byte alone, is tested for neither, and `errno` decides
    else if i = 0 then setDone 9
    else failed 10

/-- Lines 515 to 523, the variables of a flush before its write. -/
def Session.flushing (s : Session) : Session :=
  { s with
    flagForwardtimerEx := false
    bufd := s.bufd.set 0 0
    loc := { s.loc with
      minlimit :=
        if s.flagForwardtimerEx ∧ ¬ s.loc.flagMinlimitIncrd then
          s.loc.totali - s.loc.lastreadmaster / 4
        else s.loc.minlimit
      flagMinlimitEx := false
      flagLastWritesock := true
      flagMinlimitIncrd := false } }

/-- Lines 534 to 539, the variables of a flush after its write. -/
def Session.flushed (iw : ℕ) (bufd : List UInt8) (s : Session) : Session :=
  { s with
    bufd := bufd
    loc := { s.loc with
      lastwritesock := iw
      tbufd2 := 0
      freesize := s.cfg.bufferSize.toNat
      totali := 0 } }

/-- Lines 509 to 541: send what the buffer holds, when the timer has expired, the terminal side
has hung up, or there is a lot of it. -/
def forwardPart : SProg Unit := do
  label .forwardTest
  let s ← get
  if (s.done = 3 ∨ s.flagForwardtimerEx ∨ s.loc.flagMinlimitEx) ∧ s.cfg.forwardtimer ≠ 0 then
    if s.loc.totali = 0 then
      modify fun s =>
        { s with flagForwardtimerEx := false, loc := { s.loc with flagMinlimitEx := false } }
    else
      -- the variables are set before the write, which handles flags itself
      modify Session.flushing
      let s ← get
      let r ← writensockint s.bufd (s.loc.totali + 1) doInter wrError
      modify (Session.flushed r.1 r.2)

/-- One round of the loop, from the `poll` on. -/
def doCopyRound : SProg Ctl := do
  match ← pollPart with
  | .leave => pure .leave
  | .next =>
    signalPart
    match ← reventsPart with
    | .leave => pure .leave
    | .next =>
      readMasterPart
      readSocketPart
      forwardPart
      pure .next

/-- The loop of `do_copy`, lines 320 to 543. -/
def doCopyLoop : SProg Unit := do
  Prog.iter (fun () => do
    label .loopHead
    if (← get).done ≠ 0 then pure (.inr ())
    else
      match ← doCopyRound with
      | .leave => pure (.inr ())
      | .next => pure (.inl ())) ()
  label .loopEnd

/-- The state at the start of the loop, lines 267 to 318, from the globals of the process, the
`revents` that happen to be on the stack, and the two blocks `malloc` returned. -/
def doCopyStart (s : Session) (bufn bufd : List UInt8) : Session :=
  { s with
    flagExitstatusRecvd := 0
    bufn := bufn
    bufd := bufd
    done := 0
    flagForwardtimerEx := false
    sys := { s.sys with rtimer := false, wtimer := none }
    loc :=
      { sockRevents := s.loc.sockRevents
        masterRevents := s.loc.masterRevents
        pipeRevents := s.loc.pipeRevents
        tbufd2 := 0
        totali := 0
        freesize := s.cfg.bufferSize.toNat
        minlimit := s.datalengthMin } }

/-- A session with settings of its own, before `do_copy`. -/
def Session.fresh (forwardtimer bufferSize : ℤ) : Session where
  cfg := { Settings.defaults with forwardtimer := forwardtimer, bufferSize := bufferSize }
  loc := { tbufd2 := 0, totali := 0, freesize := 0, minlimit := 0 }
  bufn := []
  bufd := []

/-- Entries of a script: `n` statements before which nothing happens. -/
def quiet (n : ℕ) : List Env := List.replicate n .willing

/-- The entries of a round up to the `poll` that reports what can be read. -/
def polled (before : List Happening) (master pipe : Bool) : List Env :=
  [.willing, { Env.willing with
    before := before, poll := .ready {} { pollin := master } { pollin := pipe } }]

/-- The trace of the loop under a script. -/
def doCopyTrace (es : List Env) (s : Session) (bufn bufd : List UInt8) :
    List (Event × Session) :=
  (doCopyLoop es ⟨doCopyStart s bufn bufd, []⟩).1.trace

/-- Where the loop has been left, unless the script ends before. -/
def doCopyLeft (es : List Env) (s : Session) (bufn bufd : List UInt8) : Option SRun :=
  match doCopyLoop es ⟨doCopyStart s bufn bufd, []⟩ with
  | (w, some _) => some w
  | (_, none) => none

theorem left_of_wp {E : Env → Prop} {I Q : SRun → Prop} {es : List Env} {s : Session}
    {bufn bufd : List UInt8} (h : wp E I doCopyLoop (fun _ => Q) ⟨doCopyStart s bufn bufd, []⟩)
    (hes : ∀ e ∈ es, E e) {w : SRun} (hw : w ∈ doCopyLeft es s bufn bufd) : Q w := by
  unfold doCopyLeft at hw
  split at hw
  · next hr =>
    obtain rfl := Option.some.inj hw
    exact post_of_wp h hes hr
  · cases hw

end PadSvr
