import PadSvr.Session.Round
import PadSvr.Session.Shutdown

/-!
# The settings of a session

A session changes its settings only where it reloads them. Whatever it does, the settings it does it
with come from those at the start by reloads.

## Main definitions

* `Reloads E`, `Reloading E`: the frame of what a session does to its settings

## Main results

* `keeps_x29SetDefault_reloading`, `keeps_doCopyLoop_reloading`, `keeps_closeLine_reloading`,
  `keeps_waitExitstatus_reloading`: the parts of a session are within it
-/

namespace PadSvr

open Scripted Scripted.Prog

/-- The settings are reloaded, or stay the same. `Net_timeout` is in no file. -/
structure Reloads (E : Env → Prop) (s s' : Session) : Prop where
  cfg : CfgReach E s.cfg s'.cfg
  netTimeout : s'.netTimeout = s.netTimeout

variable {E : Env → Prop}

theorem Reloads.of_eq {s s' : Session} (h : s'.cfg = s.cfg) (hn : s'.netTimeout = s.netTimeout) :
    Reloads E s s' where
  cfg := by
    rw [h]
    exact .refl
  netTimeout := hn

instance : Std.Refl (Reloads E) where
  refl _ := .of_eq rfl rfl

instance : IsTrans Session (Reloads E) where
  trans _ _ _ h h' := ⟨Relation.ReflTransGen.trans h.cfg h'.cfg, h'.netTimeout.trans h.netTimeout⟩

/-- The frame of what a session does to its settings. -/
abbrev Reloading (E : Env → Prop) : SRun → SRun → Prop := Within (Reloads E) fun _ _ => True

@[simp] theorem deliver_netTimeout (e : Env) (s : Session) :
    (deliver e s).netTimeout = s.netTimeout := by
  rw [(interfered_deliver e s).frame]

section Statements

variable {α : Type} {w₀ w w' : SRun}

theorem Reloading.call (h : Reloading E w₀ w) {k : Event} {s s' : Session}
    (hs : s.cfg = w.st.cfg ∧ s.netTimeout = w.st.netTimeout)
    (hs' : s'.cfg = w.st.cfg ∧ s'.netTimeout = w.st.netTimeout) :
    Reloading E w₀ ⟨s', w.trace ++ [(k, s)]⟩ :=
  Within.call h (.of_eq hs.1 hs.2) (.of_eq hs'.1 hs'.2) trivial

theorem keeps_stmt_reloading {f : Env → Session → Session × α}
    (hf : ∀ e s, (f e s).1.cfg = s.cfg ∧ (f e s).1.netTimeout = s.netTimeout) :
    Keeps E (Reloading E w₀) (stmt f) := fun _ hw =>
  wp_stmt hw fun e _ => hw.trans (.of_rel (.of_eq (by simp [hf]) (by simp [hf])))

theorem keeps_assign_reloading {f : Session → Session}
    (hf : ∀ s, (f s).cfg = s.cfg ∧ (f s).netTimeout = s.netTimeout) :
    Keeps E (Reloading E w₀) (assign f) := keeps_stmt_reloading fun _ s => hf s

theorem keeps_modify_reloading {f : Session → Session}
    (hf : ∀ s, (f s).cfg = s.cfg ∧ (f s).netTimeout = s.netTimeout) :
    Keeps E (Reloading E w₀) (modify f) := keeps_within_modify fun s => .of_eq (hf s).1 (hf s).2

/-- The files of the script are read. -/
theorem keeps_reload_reloading : Keeps E (Reloading E w₀) reload := fun _ hw =>
  wp_reload hw fun e he b c hr => by
    rw [deliver_cfg] at hr
    exact Within.call hw (.of_eq (by simp) (by simp)) ⟨.single ⟨e, he, b, hr⟩, by simp⟩ trivial

theorem keeps_readPipe_reloading (n : ℕ) : Keeps E (Reloading E w₀) (readPipe n) := fun _ hw =>
  wp_readPipe hw (fun e _ => hw.call (by simp) (by simp)) fun e _ k => hw.call (by simp) (by simp)

theorem keeps_readSock_reloading (n : ℕ) : Keeps E (Reloading E w₀) (readSock n) := fun _ hw =>
  wp_readSock hw (fun e _ er => hw.call (by simp) (by simp))
    fun e _ pkt => hw.call (by simp) (by simp)

theorem keeps_writeSock_reloading (pkt : List UInt8) :
    Keeps E (Reloading E w₀) (writeSock pkt) := fun _ hw =>
  wp_writeSock hw (fun e _ er _ => hw.call (by simp) (by simp))
    fun e _ k _ => hw.call (by simp) (by simp)

end Statements

/-! ## The loop -/

section Loop

variable {w₀ : SRun}

theorem keeps_setDone_reloading (n : ℕ) : Keeps E (Reloading E w₀) (setDone n) :=
  keeps_modify_reloading fun _ => ⟨rfl, rfl⟩

theorem keeps_onFlag_reloading {up : Flags → Bool} {handle : SProg Unit} {r r₀ : ℤ}
    (h : Keeps E (Reloading E w₀) handle) :
    Keeps E (Reloading E w₀) (onFlag up handle r r₀) :=
  .bind (keeps_stmt_reloading fun _ _ => ⟨rfl, rfl⟩) fun _ => .ite (.bind h fun _ => .pure) .pure

theorem keeps_interHup_reloading : Keeps E (Reloading E w₀) interHup :=
  .bind keeps_reload_reloading fun _ => keeps_assign_reloading fun _ => ⟨rfl, rfl⟩

theorem keeps_interChld_reloading : Keeps E (Reloading E w₀) interChld := by
  unfold interChld recvExitStatus
  refine .bind (keeps_stmt_reloading fun e s => ?_) fun _ =>
    keeps_assign_reloading fun _ => ⟨rfl, rfl⟩
  split
  · split <;> exact ⟨rfl, rfl⟩
  · exact ⟨rfl, rfl⟩

theorem keeps_doInter_reloading : Keeps E (Reloading E w₀) doInter :=
  .bind (keeps_onFlag_reloading keeps_interHup_reloading) fun _ =>
    .bind (keeps_onFlag_reloading (keeps_assign_reloading fun _ => ⟨rfl, rfl⟩)) fun _ =>
      .bind (keeps_onFlag_reloading (keeps_assign_reloading fun _ => ⟨rfl, rfl⟩)) fun _ =>
        .bind (keeps_onFlag_reloading (keeps_assign_reloading fun _ => ⟨rfl, rfl⟩)) fun _ =>
          keeps_onFlag_reloading keeps_interChld_reloading

theorem keeps_failed_reloading (n : ℕ) : Keeps E (Reloading E w₀) (failed n) := by
  unfold failed
  exact .bind .get fun _ => .ite (.bind keeps_doInter_reloading fun _ => .pure)
    (keeps_setDone_reloading n)

theorem keeps_writensockint_reloading (buf : List UInt8) (n : ℕ) :
    Keeps E (Reloading E w₀) (writensockint buf n doInter wrError) := by
  refine restores_writensockint (fun _ h => h) keeps_writeSock_reloading keeps_doInter_reloading ?_
    _ _
  unfold wrError
  exact .bind (keeps_setDone_reloading 10) fun _ => .pure

theorem keeps_pollPart_reloading : Keeps E (Reloading E w₀) pollPart := by
  have hpoll : Keeps E (Reloading E w₀) pollCall := fun w hw =>
    wp_pollCall hw (fun e _ er => hw.call (by simp) (by simp))
      fun e _ so ma pi _ => hw.call (by simp) (by simp)
  unfold pollPart setWatchDog
  exact .bind (keeps_assign_reloading fun _ => ⟨rfl, rfl⟩) fun _ => .bind hpoll fun _ =>
    .ite .pure (.bind .get fun _ => .ite (.bind (keeps_setDone_reloading 11) fun _ => .pure)
      (.bind keeps_doInter_reloading fun _ => .pure))

theorem keeps_signalPart_reloading : Keeps E (Reloading E w₀) signalPart := by
  unfold signalPart
  exact .bind .get fun _ => .ite (.bind .get fun _ => .bind (keeps_readPipe_reloading _) fun _ =>
    .bind keeps_doInter_reloading fun _ => .pure) .pure

theorem keeps_reventsPart_reloading : Keeps E (Reloading E w₀) reventsPart := by
  have hset : ∀ n, Keeps E (Reloading E w₀) (setDone n) := keeps_setDone_reloading
  unfold reventsPart masterHangup
  exact .bind .get fun _ => .ite (.bind (hset 1) fun _ => .pure)
    (.bind (.bind .get fun _ => .ite (hset 3) .pure) fun _ =>
      .ite (.bind (hset 10) fun _ => .pure) (.ite (.bind (hset 2) fun _ => .pure) .pure))

theorem keeps_readMasterPart_reloading : Keeps E (Reloading E w₀) readMasterPart := by
  have hread : ∀ off n, Keeps E (Reloading E w₀) (readMaster off n) := fun off n w hw =>
    wp_readMaster hw (fun e _ er _ => hw.call (by simp) (by simp))
      fun e _ data _ _ _ => hw.call (by simp) (by simp)
  have hset : Keeps E (Reloading E w₀) setReadTimeout := fun w hw =>
    wp_setReadTimeout hw fun e _ _ => hw.trans (.of_rel (.of_eq (by simp) (by simp)))
  unfold readMasterPart readMasterCall masterReceived resetReadTimeout setLoc
  refine .bind .get fun _ => .ite (.bind (.bind .get fun _ => .ite (hread _ _) (hread _ _))
    fun i => .ite ?_ (.ite (keeps_setDone_reloading 6) (keeps_failed_reloading 1))) .pure
  refine .bind .get fun _ => .ite ?_ ?_
  · exact .bind .get fun _ => .bind (keeps_writensockint_reloading _ _) fun _ =>
      keeps_modify_reloading fun _ => ⟨rfl, rfl⟩
  · exact .bind (keeps_modify_reloading fun _ => ⟨rfl, rfl⟩) fun _ => .bind .get fun _ =>
      .ite (.bind (keeps_modify_reloading fun _ => ⟨rfl, rfl⟩) fun _ =>
        keeps_assign_reloading fun _ => ⟨rfl, rfl⟩) hset

theorem keeps_readSocketPart_reloading : Keeps E (Reloading E w₀) readSocketPart := by
  have hwrite : ∀ left, Keeps E (Reloading E w₀) (writeMaster left) := fun left w hw =>
    wp_writeMaster hw (fun e _ er _ => hw.call (by simp) (by simp))
      fun e _ k _ => hw.call (by simp) (by simp)
  have hback : ∀ data, Keeps E (Reloading E w₀) (writeBack data) := fun data =>
    .iter (fun _ => .bind (keeps_writen hwrite data) fun _ =>
      .ite (.bind (keeps_failed_reloading 1) fun _ => .pure) .pure) _
  unfold readSocketPart socketReceived setLoc setNetTimeout
  exact .bind .get fun _ => .ite (.bind .get fun _ => .bind (keeps_readSock_reloading _) fun _ =>
    .ite (.bind .get fun _ => .ite (.bind (keeps_modify_reloading fun _ => ⟨rfl, rfl⟩)
      fun _ => hback _) (.ite (keeps_assign_reloading fun _ => ⟨rfl, rfl⟩) .pure))
        (.ite (keeps_setDone_reloading 9) (keeps_failed_reloading 10))) .pure

theorem keeps_forwardPart_reloading : Keeps E (Reloading E w₀) forwardPart := by
  unfold forwardPart
  refine .bind (fun w hw => wp_label (hw.call ⟨rfl, rfl⟩ ⟨rfl, rfl⟩)) fun _ => .bind .get fun _ =>
    .ite ?_ .pure
  exact .ite (keeps_modify_reloading fun _ => ⟨rfl, rfl⟩)
    (.bind (keeps_modify_reloading fun _ => ⟨rfl, rfl⟩) fun _ => .bind .get fun _ =>
      .bind (keeps_writensockint_reloading _ _) fun _ =>
        keeps_modify_reloading fun _ => ⟨rfl, rfl⟩)

/-- **The loop** changes the settings by reloads. -/
theorem keeps_doCopyLoop_reloading : Keeps E (Reloading E w₀) doCopyLoop :=
  keeps_doCopyLoop (fun _ _ _ h => h.call ⟨rfl, rfl⟩ ⟨rfl, rfl⟩) keeps_pollPart_reloading
    keeps_signalPart_reloading keeps_reventsPart_reloading keeps_readMasterPart_reloading
    keeps_readSocketPart_reloading keeps_forwardPart_reloading

end Loop

/-! ## Before and behind the loop -/

section Line

variable {w₀ : SRun}

theorem keeps_x29DoInter_reloading : Keeps E (Reloading E w₀) x29DoInter := by
  have hstop : Keeps E (Reloading E w₀) (Prog.stop : SProg ℤ) := fun _ hw => wp_stop hw
  have htest : ∀ {b}, Keeps E (Reloading E w₀) (test b) :=
    keeps_stmt_reloading fun _ _ => ⟨rfl, rfl⟩
  unfold x29DoInter
  exact .bind (keeps_onFlag_reloading keeps_interHup_reloading) fun _ => .bind htest fun _ =>
    .ite (.bind (keeps_assign_reloading fun _ => ⟨rfl, rfl⟩) fun _ => hstop) (.bind htest fun _ =>
      .ite (.bind (keeps_assign_reloading fun _ => ⟨rfl, rfl⟩) fun _ => hstop) .pure)

theorem keeps_controlWrite_reloading (msg : List UInt8) :
    Keeps E (Reloading E w₀) (controlWrite msg) :=
  restores_writensockint (fun _ h => h) keeps_writeSock_reloading keeps_x29DoInter_reloading .pure
    _ _

theorem keeps_x29SetDefault_reloading (behind : List X29Par) :
    Keeps E (Reloading E w₀) (x29SetDefault behind) := by
  unfold x29SetDefault
  refine .bind .get fun s => ?_
  split
  · exact fun _ hw => wp_stop hw
  · exact .pure
  · exact .bind (keeps_controlWrite_reloading _) fun _ => .pure

theorem keeps_closingSignals_reloading (pipe : Revents) {ended : SProg Unit}
    (h : Keeps E (Reloading E w₀) ended) :
    Keeps E (Reloading E w₀) (closingSignals pipe ended) := by
  have hup : ∀ up {handle : SProg Unit}, Keeps E (Reloading E w₀) handle →
      Keeps E (Reloading E w₀) (onUp up handle) := fun _ _ hh =>
    .bind (keeps_stmt_reloading fun _ _ => ⟨rfl, rfl⟩) fun _ => .ite hh .pure
  unfold closingSignals
  exact .ite (.bind .get fun _ => .bind (keeps_readPipe_reloading _) fun _ =>
    .bind (hup _ (keeps_stmt_reloading fun _ _ => ⟨rfl, rfl⟩)) fun _ =>
      .bind (hup _ (keeps_stmt_reloading fun _ _ => ⟨rfl, rfl⟩)) fun _ => hup _ h) .pure

theorem keeps_closingPoll_reloading : Keeps E (Reloading E w₀) closingPoll := fun w hw =>
  wp_call hw fun e _ r hr => by
    split at hr
    · cases hr
      exact hw.call (by simp) (by simp)
    · cases hr
      exact hw.call (by simp) (by simp)

theorem keeps_waitNet_reloading (buf : List UInt8) : Keeps E (Reloading E w₀) (waitNet buf) := by
  have hset : ∀ n, Keeps E (Reloading E w₀) (setDone n) := keeps_setDone_reloading
  have hround : Keeps E (Reloading E w₀) waitNetRound := by
    unfold waitNetRound
    refine .bind .get fun _ => .ite .pure (.bind keeps_closingPoll_reloading fun answer => ?_)
    refine .bind .get fun _ => .ite (.bind (hset 11) fun _ => .pure) ?_
    refine .bind (keeps_closingSignals_reloading _ keeps_interChld_reloading) fun _ =>
      .ite (.bind (hset 1) fun _ => .pure) (.ite ?_ .pure)
    exact .bind .get fun _ => .bind (keeps_readSock_reloading _) fun _ => .bind .get fun _ =>
      .ite .pure (.bind (hset 1) fun _ => .pure)
  unfold waitNet setNetTimeout resetTimer assign
  exact .bind (keeps_modify_reloading fun _ => ⟨rfl, rfl⟩) fun _ =>
    .bind (keeps_stmt_reloading fun _ _ => ⟨rfl, rfl⟩) fun _ =>
      .bind (.iter (fun _ => hround) _) fun _ => keeps_stmt_reloading fun _ _ => ⟨rfl, rfl⟩

/-- The wait for the login process. -/
theorem keeps_waitExitstatus_reloading (buf : List UInt8) :
    Keeps E (Reloading E w₀) (waitExitstatus buf) := by
  have hset : ∀ n, Keeps E (Reloading E w₀) (setDone n) := keeps_setDone_reloading
  have hround : Keeps E (Reloading E w₀) waitExitstatusRound := by
    unfold waitExitstatusRound
    refine .bind .get fun _ => .ite .pure (.bind keeps_closingPoll_reloading fun answer => ?_)
    refine .bind .get fun _ => .ite (.bind (hset 11) fun _ => .pure) ?_
    exact .bind (keeps_closingSignals_reloading _ (.bind keeps_interChld_reloading fun _ =>
      hset 1)) fun _ => .pure
  unfold waitExitstatus setNetTimeout resetTimer assign
  exact .bind .get fun _ => .ite (.bind (keeps_modify_reloading fun _ => ⟨rfl, rfl⟩) fun _ =>
    .bind (keeps_stmt_reloading fun _ _ => ⟨rfl, rfl⟩) fun _ =>
      .bind (.iter (fun _ => hround) _) fun _ => keeps_stmt_reloading fun _ _ => ⟨rfl, rfl⟩) .pure

/-- The closing of the line. -/
theorem keeps_closeLine_reloading (buf : List UInt8) :
    Keeps E (Reloading E w₀) (closeLine buf) := by
  have hclose : Keeps E (Reloading E w₀) closeCall := keeps_stmt_reloading fun _ _ => ⟨rfl, rfl⟩
  unfold closeLine x29InvClear
  exact .bind .get fun _ => .ite hclose (.ite (.bind (.bind (keeps_controlWrite_reloading _)
    fun _ => .pure) fun _ => .bind (keeps_waitNet_reloading _) fun _ => hclose)
      (.ite (.bind (keeps_waitNet_reloading _) fun _ => hclose) .pure))

end Line

end PadSvr
