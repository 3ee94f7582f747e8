import PadSvr.Process.Daemon
import PadSvr.Scripted.Loop

/-!
# The loops of the program

Every loop takes an entry of the script in each round, in its `poll`, its read, its write, its
`waitpid` or its `accept`. So none of them is cut short by the bound on its rounds, and each is its
first round followed by the loop itself. The two loops that write a whole buffer do so whatever
their handlers are, as long as these leave no more script than they get.

## Main results

* `productive_writensockint`, `productive_writen`, `writeBack_eq`, `doCopyLoop_eq`: the loops of
  `do_copy`
* `productive_waitNetRound`, `productive_waitExitstatusRound`: the loops behind it
* `readFifo_eq`, `doMonitor_eq`, `monitorLoop_eq`: the loops of the monitor
* `reapAll_eq`, `acceptLoop_eq`: the loops of the accepting process
-/

namespace PadSvr

open Scripted Scripted.Prog CString

/-! ## The statements -/

theorem takes_stmt {α : Type} (f : Env → Session → Session × α) : Takes (stmt f) := takes_step _

theorem takes_assign (f : Session → Session) : Takes (assign f) := takes_stmt _

theorem takes_call {α : Type} (f : Env → Session → Option (Event × Session × α)) :
    Takes (call f) := takes_step _

theorem takes_monitorCall {α : Type} (f : MEnv → Moni → Option (MEvent × Moni × α)) :
    Takes (monitorCall f) := takes_step _

theorem takes_astmt {α : Type} (pl : Place)
    (f : AEnv → Acceptor → Option (List AEvent × Acceptor × α)) : Takes (astmt pl f) :=
  takes_step _

/-! ## Writing whole buffers -/

/-- The loop of `writensockint`. -/
theorem productive_writensockint {inter error : SProg ℤ} (hi : Thrifty inter) (he : Thrifty error)
    (q : UInt8) (n : ℕ) : Productive (writensockintRound q n inter error) := by
  have hfailed : ∀ v, Thrifty (writensockintFailed n inter error v) := by
    intro v
    unfold writensockintFailed
    refine .bind thrifty_get fun s => .ite ?_ (.ite (thrifty_pure _) ?_)
    · exact .bind hi fun _ => .ite (thrifty_pure _) (thrifty_pure _)
    · exact .bind he fun _ => thrifty_pure _
  intro v
  unfold writensockintRound
  refine .ite (again_inr _) (Takes.again ?_)
  exact (takes_call _).bind fun _ => .ite (hfailed _) (thrifty_pure _)

theorem thrifty_writensockint {inter error : SProg ℤ} (hi : Thrifty inter) (he : Thrifty error)
    (buf : List UInt8) (n : ℕ) : Thrifty (writensockint buf n inter error) := by
  unfold writensockint
  exact .ite (thrifty_pure _) ((productive_writensockint hi he _ _).thrifty _)

/-- The loop of `writen`, over any call that writes. -/
theorem productive_writen {write : List UInt8 → SProg ℤ} (hw : ∀ data, Takes (write data))
    (n : ℕ) : Productive (writenRound write n) := by
  intro left
  unfold writenRound
  refine .ite (again_inr _) (Takes.again ?_)
  exact (hw left).bind fun _ => .ite (thrifty_pure _) (thrifty_pure _)

/-! ## The flags -/

theorem thrifty_setDone (n : ℕ) : Thrifty (setDone n) := thrifty_modify _

theorem thrifty_setLoc (f : Locals → Locals) : Thrifty (setLoc f) := thrifty_modify _

theorem thrifty_onFlag {up : Flags → Bool} {handle : SProg Unit} (hh : Thrifty handle)
    (ret ret₀ : ℤ) : Thrifty (onFlag up handle ret ret₀) := by
  unfold onFlag
  refine (takes_stmt _).thrifty.bind fun b => .ite ?_ (thrifty_pure _)
  exact hh.bind fun _ => thrifty_pure _

theorem thrifty_interAlrm : Thrifty interAlrm := (takes_assign _).thrifty

theorem thrifty_interExit : Thrifty interExit := (takes_assign _).thrifty

theorem thrifty_interIdle : Thrifty interIdle := (takes_assign _).thrifty

theorem thrifty_interChld : Thrifty interChld :=
  (takes_stmt _).thrifty.bind fun _ => (takes_assign _).thrifty

theorem thrifty_doInter : Thrifty doInter := by
  have hup : Thrifty interHup :=
    (takes_call _).thrifty.bind fun _ => (takes_assign _).thrifty
  unfold doInter
  refine (thrifty_onFlag hup _ _).bind fun _ => ?_
  refine (thrifty_onFlag thrifty_interAlrm _ _).bind fun _ => ?_
  refine (thrifty_onFlag thrifty_interExit _ _).bind fun _ => ?_
  refine (thrifty_onFlag thrifty_interIdle _ _).bind fun _ => ?_
  exact thrifty_onFlag thrifty_interChld _ _

theorem thrifty_failed (n : ℕ) : Thrifty (failed n) := by
  unfold failed
  refine thrifty_get.bind fun s => .ite ?_ (thrifty_setDone n)
  exact thrifty_doInter.bind fun _ => thrifty_pure _

theorem thrifty_wrError : Thrifty wrError := (thrifty_setDone 10).bind fun _ => thrifty_pure _

/-! ## The loop of `do_copy` -/

theorem takes_writen {write : List UInt8 → SProg ℤ} (hw : ∀ data, Takes (write data))
    {data : List UInt8} (hd : data ≠ []) : Takes (writen write data) := by
  unfold writen
  refine (productive_writen hw _).takes ?_
  rw [writenRound, if_neg hd]
  exact (hw data).bind fun _ => .ite (thrifty_pure _) (thrifty_pure _)

theorem productive_writeBack (data : List UInt8) :
    Productive fun _ : Unit => (do
      let iw ← writen writeMaster data
      if iw < 0 then do
        failed 1
        pure (.inl ())
      else pure (.inr ()) : SProg (Unit ⊕ Unit)) := by
  intro _
  by_cases hd : data = []
  · -- there is nothing to write, and the first round is the last one
    subst hd
    exact again_inr ()
  · refine ((takes_writen (fun d => takes_call _) hd).bind fun iw => ?_).again
    exact .ite ((thrifty_failed 1).bind fun _ => thrifty_pure _) (thrifty_pure _)

/-- **A packet is written to the master again** as long as its write fails. -/
theorem writeBack_eq (data : List UInt8) :
    writeBack data = (do
      let iw ← writen writeMaster data
      if iw < 0 then do
        failed 1
        writeBack data
      else pure ()) := by
  refine (iter_eq (productive_writeBack data) ()).trans ?_
  rw [bind_bind]
  refine bind_congr fun iw => ?_
  split
  · rw [bind_bind]
    rfl
  · rfl

theorem thrifty_writeBack (data : List UInt8) : Thrifty (writeBack data) :=
  (productive_writeBack data).thrifty ()

/-! ## The loop of `do_copy` -/

theorem takes_pollPart : Takes pollPart := by
  unfold pollPart
  refine (takes_assign _).bind fun _ => (takes_call _).thrifty.bind fun _ => ?_
  refine .ite (thrifty_pure _) (thrifty_get.bind fun _ => .ite ?_ ?_)
  · exact (thrifty_setDone 11).bind fun _ => thrifty_pure _
  · exact thrifty_doInter.bind fun _ => thrifty_pure _

theorem thrifty_signalPart : Thrifty signalPart := by
  unfold signalPart
  refine thrifty_get.bind fun _ => .ite (thrifty_get.bind fun _ => ?_) (thrifty_pure _)
  exact (takes_call _).thrifty.bind fun _ => thrifty_doInter.bind fun _ => thrifty_pure _

theorem thrifty_reventsPart : Thrifty reventsPart := by
  have hdone : ∀ n, Thrifty (do setDone n; pure Ctl.leave : SProg Ctl) := fun n =>
    (thrifty_setDone n).bind fun _ => thrifty_pure _
  have hhup : Thrifty masterHangup := by
    unfold masterHangup
    exact thrifty_get.bind fun _ => .ite (thrifty_setDone 3) (thrifty_pure _)
  unfold reventsPart
  refine thrifty_get.bind fun _ => .ite (hdone 1) (hhup.bind fun _ => ?_)
  exact .ite (hdone 10) (.ite (hdone 2) (thrifty_pure _))

theorem thrifty_masterReceived (i : ℕ) : Thrifty (masterReceived i) := by
  unfold masterReceived
  refine thrifty_get.bind fun _ => .ite (thrifty_get.bind fun _ => ?_) ?_
  · exact (thrifty_writensockint thrifty_doInter thrifty_wrError _ _).bind fun _ =>
      thrifty_modify _
  · refine (thrifty_setLoc _).bind fun _ => thrifty_get.bind fun _ => .ite ?_ ?_
    · exact (thrifty_setLoc _).bind fun _ => (takes_assign _).thrifty
    · exact (takes_step _).thrifty

theorem thrifty_readMasterPart : Thrifty readMasterPart := by
  have hcall : Thrifty readMasterCall := by
    unfold readMasterCall
    exact thrifty_get.bind fun _ => .ite (takes_call _).thrifty (takes_call _).thrifty
  unfold readMasterPart
  refine thrifty_get.bind fun _ => .ite (hcall.bind fun i => ?_) (thrifty_pure _)
  exact .ite (thrifty_masterReceived _) (.ite (thrifty_setDone 6) (thrifty_failed 1))

theorem thrifty_readSocketPart : Thrifty readSocketPart := by
  have hgot : ∀ i, Thrifty (socketReceived i) := by
    intro i
    unfold socketReceived
    refine thrifty_get.bind fun _ => .ite ?_ (.ite (takes_assign _).thrifty (thrifty_pure _))
    exact (thrifty_setLoc _).bind fun _ => thrifty_writeBack _
  unfold readSocketPart
  refine thrifty_get.bind fun _ => .ite (thrifty_get.bind fun _ => ?_) (thrifty_pure _)
  refine (takes_call _).thrifty.bind fun i => ?_
  exact .ite (hgot _) (.ite (thrifty_setDone 9) (thrifty_failed 10))

theorem thrifty_forwardPart : Thrifty forwardPart := by
  unfold forwardPart
  refine (thrifty_label _).bind fun _ => thrifty_get.bind fun s => .ite ?_ (thrifty_pure _)
  refine .ite (thrifty_modify _) ((thrifty_modify _).bind fun _ => thrifty_get.bind fun _ => ?_)
  exact (thrifty_writensockint thrifty_doInter thrifty_wrError _ _).bind fun _ => thrifty_modify _

/-- A round polls, and none of its parts gives anything back. -/
theorem takes_doCopyRound : Takes doCopyRound := by
  unfold doCopyRound
  refine takes_pollPart.bind fun ctl => ?_
  cases ctl with
  | leave => exact thrifty_pure _
  | next =>
    refine thrifty_signalPart.bind fun _ => thrifty_reventsPart.bind fun ctl => ?_
    cases ctl with
    | leave => exact thrifty_pure _
    | next =>
      exact thrifty_readMasterPart.bind fun _ => thrifty_readSocketPart.bind fun _ =>
        thrifty_forwardPart.bind fun _ => thrifty_pure _

/-- **The loop of `do_copy`** is one round, and the loop again. -/
theorem doCopyLoop_eq :
    doCopyLoop = (do
      label .loopHead
      if (← get).done ≠ 0 then label .loopEnd
      else
        match ← doCopyRound with
        | .leave => label .loopEnd
        | .next => doCopyLoop) := by
  refine (congrArg (fun m : SProg Unit => m >>= fun _ => label Event.loopEnd)
    (iter_eq (fun _ => ?_) ())).trans ?_
  · refine (thrifty_label _).bind_again fun _ => thrifty_get.bind_again fun s => ?_
    refine .ite (again_inr ()) (Takes.again (takes_doCopyRound.bind fun ctl => ?_))
    cases ctl <;> exact thrifty_pure _
  · simp only [bind_bind]
    refine bind_congr fun _ => ?_
    refine bind_congr fun s => ?_
    split
    · rfl
    · rw [bind_bind]
      refine bind_congr fun ctl => ?_
      cases ctl <;> rfl

/-! ## The loops behind it -/

theorem thrifty_closingSignals {pipe : Revents} {ended : SProg Unit} (he : Thrifty ended) :
    Thrifty (closingSignals pipe ended) := by
  have hup : ∀ {up : Flags → Bool} {handle : SProg Unit}, Thrifty handle →
      Thrifty (onUp up handle) := by
    intro up handle hh
    unfold onUp
    exact (takes_stmt _).thrifty.bind fun _ => .ite hh (thrifty_pure _)
  unfold closingSignals
  refine .ite (thrifty_get.bind fun _ => (takes_call _).thrifty.bind fun _ => ?_) (thrifty_pure _)
  refine (hup (takes_assign _).thrifty).bind fun _ => ?_
  exact (hup (takes_assign _).thrifty).bind fun _ => hup he

/-- The loop of `wait_net`. -/
theorem productive_waitNetRound : Productive fun () => waitNetRound := by
  rintro ⟨⟩
  unfold waitNetRound
  refine thrifty_get.bind_again fun _ => .ite (again_inr ()) (Takes.again ?_)
  have hdone : ∀ n, Thrifty (do setDone n; pure (.inr ()) : SProg (Unit ⊕ Unit)) :=
    fun n => (thrifty_setDone n).bind fun _ => thrifty_pure _
  refine (takes_call _).bind fun answer => thrifty_get.bind fun _ => .ite (hdone 11) ?_
  refine (thrifty_closingSignals thrifty_interChld).bind fun _ => .ite (hdone 1) (.ite ?_ ?_)
  · refine thrifty_get.bind fun _ => (takes_call _).thrifty.bind fun _ => ?_
    exact thrifty_get.bind fun _ => .ite (thrifty_pure _) (hdone 1)
  · exact thrifty_pure _

/-- The loop of `wait_exitstatus`. -/
theorem productive_waitExitstatusRound : Productive fun () => waitExitstatusRound := by
  rintro ⟨⟩
  unfold waitExitstatusRound
  refine thrifty_get.bind_again fun _ => .ite (again_inr ()) (Takes.again ?_)
  refine (takes_call _).bind fun answer => thrifty_get.bind fun _ => .ite ?_ ?_
  · exact (thrifty_setDone 11).bind fun _ => thrifty_pure _
  · refine (thrifty_closingSignals ?_).bind fun _ => thrifty_pure _
    exact thrifty_interChld.bind fun _ => thrifty_setDone 1

/-! ## The loops of the monitor -/

/-- **`sigsuspend`** waits as long as no signal is pending. -/
theorem takes_sigsuspend : Takes sigsuspend :=
  Productive.takes (fun _ => (takes_step _).again) (takes_step _)

theorem thrifty_walkTab : Thrifty walkTab := by
  unfold walkTab
  refine thrifty_get.bind fun s => .ite (thrifty_pure _) ?_
  exact (thrifty_label _).bind fun _ => takes_stop.thrifty

theorem thrifty_serveFifo : Thrifty serveFifo := by
  unfold serveFifo
  refine thrifty_get.bind fun s => ?_
  cases fifoFields s.bufFifo with
  | none => exact thrifty_pure _
  | some _ => exact thrifty_walkTab.bind fun _ => thrifty_modify _

/-- **`read_fifo`** serves a message, and looks for the next one. -/
theorem readFifo_eq :
    readFifo = (do
      let ir ← readFifoCall
      if 0 < ir then do
        serveFifo
        readFifo
      else pure ()) := by
  refine (iter_eq (fun _ => ?_) ()).trans ?_
  · exact ((takes_monitorCall _).bind fun ir => .ite
      (thrifty_serveFifo.bind fun _ => thrifty_pure _) (thrifty_pure _)).again
  · rw [bind_bind]
    refine bind_congr fun ir => ?_
    split
    · rw [bind_bind]
      rfl
    · rfl

theorem thrifty_readFifo : Thrifty readFifo := by
  refine Productive.thrifty (fun _ => ?_) ()
  exact ((takes_monitorCall _).bind fun ir => .ite
    (thrifty_serveFifo.bind fun _ => thrifty_pure _) (thrifty_pure _)).again

theorem thrifty_startMainWork : Thrifty startMainWork := by
  unfold startMainWork
  exact thrifty_get.bind fun _ => .ite (takes_monitorCall _).thrifty (thrifty_pure _)

theorem thrifty_chldPart : Thrifty chldPart := by
  have hwait : Thrifty waitMainWork :=
    (takes_monitorCall _).thrifty.bind fun _ => (takes_monitorCall _).thrifty
  unfold chldPart
  refine thrifty_get.bind fun _ => .ite ((thrifty_modify _).bind fun _ => ?_) (thrifty_pure _)
  refine hwait.bind fun _ => thrifty_get.bind fun s => ?_
  cases s.stat with
  | exited code =>
    exact .ite (thrifty_pure _) ((thrifty_modify _).bind fun _ => thrifty_pure _)
  | signaled => exact thrifty_pure _

theorem thrifty_hupPart : Thrifty hupPart := by
  unfold hupPart
  refine thrifty_get.bind fun _ => .ite ((thrifty_modify _).bind fun _ => ?_) (thrifty_pure _)
  exact (takes_monitorCall _).thrifty

theorem thrifty_ioPart : Thrifty ioPart := by
  unfold ioPart
  exact thrifty_get.bind fun _ =>
    .ite ((thrifty_modify _).bind fun _ => thrifty_readFifo) (thrifty_pure _)

theorem thrifty_usr1Part : Thrifty usr1Part := by
  unfold usr1Part
  refine thrifty_get.bind fun _ => .ite ((thrifty_modify _).bind fun _ => ?_) (thrifty_pure _)
  exact (takes_monitorCall _).thrifty.bind fun _ => .ite thrifty_walkTab (thrifty_pure _)

/-- **The loop of `do_monitor`** is one round, and the loop again. -/
theorem doMonitor_eq :
    doMonitor = (do
      startMainWork
      sigsuspend
      if ← chldPart then pure ()
      else do
        hupPart
        ioPart
        usr1Part
        doMonitor) := by
  refine (iter_eq (fun _ => ?_) ()).trans ?_
  · refine (thrifty_startMainWork.bind_takes fun _ => takes_sigsuspend.bind fun _ => ?_).again
    refine thrifty_chldPart.bind fun stop => .ite (thrifty_pure _) ?_
    exact thrifty_hupPart.bind fun _ => thrifty_ioPart.bind fun _ =>
      thrifty_usr1Part.bind fun _ => thrifty_pure _
  · simp only [bind_bind]
    refine bind_congr fun _ => ?_
    refine bind_congr fun _ => ?_
    refine bind_congr fun stop => ?_
    split
    · rfl
    · simp only [bind_bind]
      rfl

theorem thrifty_mainWorkProcess (behind : List X29Par) (addr : List Char) :
    Thrifty (mainWorkProcess behind addr) := by
  unfold mainWorkProcess
  refine (thrifty_modify _).bind fun _ => (thrifty_zoom _).bind fun left => ?_
  cases left with
  | stopped => exact thrifty_zoom _
  | failed => exact thrifty_zoom _
  | child pid => exact (thrifty_modify _).bind fun _ => thrifty_zoom _

theorem thrifty_forkMainWork (behind : List X29Par) (addr : List Char) :
    Thrifty (forkMainWork behind addr) := by
  unfold forkMainWork
  refine thrifty_get.bind fun _ => .ite ((thrifty_zoom _).bind fun answer => ?_) (thrifty_pure _)
  cases answer with
  | fail => exact thrifty_zoom _
  | child pid => exact thrifty_mainWorkProcess behind addr
  | parent => exact thrifty_modify _

/-- **The same loop, with both sides of its `fork`.** -/
theorem monitorLoop_eq (behind : List X29Par) (addr : List Char) :
    monitorLoop behind addr = (do
      forkMainWork behind addr
      asMoni sigsuspend
      if ← asMoni chldPart then pure ()
      else do
        asMoni hupPart
        asMoni ioPart
        asMoni usr1Part
        monitorLoop behind addr) := by
  refine (iter_eq (fun _ => ?_) ()).trans ?_
  · -- a round that is repeated has waited for a signal
    refine ((thrifty_forkMainWork behind addr).bind_takes fun _ =>
      takes_sigsuspend.zoom.bind fun _ => ?_).again
    refine (thrifty_zoom _).bind fun stop => .ite (thrifty_pure _) ?_
    exact (thrifty_zoom _).bind fun _ => (thrifty_zoom _).bind fun _ =>
      (thrifty_zoom _).bind fun _ => thrifty_pure _
  · simp only [bind_bind]
    refine bind_congr fun _ => ?_
    refine bind_congr fun _ => ?_
    refine bind_congr fun stop => ?_
    split
    · rfl
    · simp only [bind_bind]
      rfl

/-! ## The loops of the accepting process -/

/-- **The loop around `waitpid`** is one call, and the loop again. -/
theorem reapAll_eq :
    reapAll = (do if ← waitpid then reapAll else pure ()) := by
  refine (iter_eq (fun _ => ?_) ()).trans ?_
  · exact ((takes_astmt _ _).bind fun b => .ite (thrifty_pure _) (thrifty_pure _)).again
  · rw [bind_bind]
    refine bind_congr fun reaped => ?_
    cases reaped <;> rfl

end PadSvr
