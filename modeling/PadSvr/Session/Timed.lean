import PadSvr.Session.Heed
import PadSvr.Session.Settings

/-!
# Waits with a limit

A session arms its timer in front of every `poll` of the loop, and at the start of each closing
phase. Until the phase is over, the timer runs, or it has expired and the byte of its handler is
still in the pipe. So a session that waits is woken after some time, whatever the other side and the
login process do.

## Main definitions

* `Session.Timed`: the timer runs, or has told of its expiry
* `WaitsTimed`: wherever the session has waited, it was timed
* `Limited`: a closing phase is over, or timed

## Main results

* `keeps_doCopyLoop_timed`: the loop waits with its timer running
* `keeps_closeLine_timed`, `keeps_waitExitstatus_timed`: so do the closing phases
-/

namespace PadSvr

open Scripted Scripted.Prog

/-- The timer is running, or it has expired, and the byte of its handler is in the pipe. -/
def Session.Timed (s : Session) : Prop :=
  s.sys.wtimer.isSome = true ∨ s.flags.alrm = true ∧ 0 < s.sys.pipe

instance (s : Session) : Decidable s.Timed := inferInstanceAs (Decidable (_ ∨ _))

/-- Where the session has waited, the wait was limited. -/
def WaitsTimed (w : SRun) : Prop := ∀ x ∈ w.trace, x.1.waits = true → x.2.Timed

/-- Nothing that happens takes the limit away. -/
theorem Session.Timed.delivered {s : Session} (h : s.Timed) (e : Env) : (deliver e s).Timed := by
  have hrun : ∀ (x : Happening) (s : Session), s.Timed → (x.run s).Timed := by
    intro x s hs
    cases x with
    | signal g =>
      rcases hs with hs | ⟨ha, hp⟩
      · exact Or.inl (by cases g <;> simpa [Happening.run, Signal.handler, chilSig, chilSigExit,
          chilSigChld, chilSigHup, chilSigAlrm, chilSigIdle] using hs)
      · exact Or.inr (by cases g <;> simp [Happening.run, Signal.handler, chilSig, chilSigExit,
          chilSigChld, chilSigHup, chilSigAlrm, chilSigIdle, ha])
    | rtimer =>
      by_cases hr : s.sys.rtimer = true
      · rcases hs with hs | ⟨ha, hp⟩
        · exact Or.inl (by simpa [Happening.run, hr, chilSigIdle, chilSig] using hs)
        · exact Or.inr (by simp [Happening.run, hr, chilSigIdle, chilSig, ha])
      · simpa [Happening.run, hr] using hs
    | wtimer =>
      -- the expiry itself: the flag goes up, and a byte into the pipe
      by_cases hw : s.sys.wtimer.isSome = true
      · exact Or.inr (by simp [Happening.run, hw, chilSigAlrm, chilSig])
      · simpa [Happening.run, hw] using hs
    | typed bytes =>
      by_cases hc : s.sys.closed = true
      · simpa [Happening.run, hc] using hs
      · simpa [Happening.run, hc, Session.Timed] using hs
    | hangup => exact hs
  have key : ∀ (xs : List Happening) (s : Session), s.Timed →
      (xs.foldl (fun s x => x.run s) s).Timed := by
    intro xs
    induction xs with
    | nil => exact fun _ h => h
    | cons x xs ih => exact fun s h => ih (x.run s) (hrun x s h)
  exact key e.before s h

theorem timed_armed {s : Session} {t : ℤ} (ht : t ≠ 0) :
    ({ s with sys := { s.sys with wtimer := armed t } } : Session).Timed := by
  left
  simp [armed, ht]

section Timed

variable {α : Type} {E : Env → Prop} {w : SRun}

/-- A call that does not wait. -/
theorem WaitsTimed.call (h : WaitsTimed w) {k : Event} (hk : k.waits = false) (s s' : Session) :
    WaitsTimed ⟨s', w.trace ++ [(k, s)]⟩ := by
  intro x hx hw
  rcases List.mem_append.mp hx with hx | hx
  · exact h x hx hw
  · rw [List.mem_singleton.mp hx, hk] at hw
    cases hw

/-- A call that waits. -/
theorem WaitsTimed.wait (h : WaitsTimed w) {k : Event} {s : Session} (hs : s.Timed) (s' : Session) :
    WaitsTimed ⟨s', w.trace ++ [(k, s)]⟩ := by
  intro x hx hw
  rcases List.mem_append.mp hx with hx | hx
  · exact h x hx hw
  · rwa [List.mem_singleton.mp hx]

theorem abides_waitsTimed : Abides WaitsTimed where
  state h _ := h
  call h hk _ := h.call hk _ _

/-! ## The loop -/

/-- **A `poll` of the loop** comes right behind the call that arms the timer. -/
theorem wp_pollPart_timed (h : WaitsTimed w) (hc : w.st.cfg.watchdogTimeout ≠ 0) :
    wp E WaitsTimed pollPart (fun _ => WaitsTimed) w := by
  unfold pollPart setWatchDog
  refine wp_bind (wp_assign h fun e₁ _ => ?_)
  have htimed : ({ deliver e₁ w.st with sys := { (deliver e₁ w.st).sys with
      wtimer := armed (deliver e₁ w.st).cfg.watchdogTimeout } } : Session).Timed :=
    timed_armed (by rwa [deliver_cfg])
  refine wp_bind (wp_pollCall h (fun e _ er => ?_) fun e _ so ma pi _ => ?_)
  · rw [if_neg (by simp)]
    have hpoll := h.wait (k := .poll (.fail er)) (htimed.delivered e)
    refine wp_bind (wp_get ?_)
    split
    · exact wp_bind (wp_modify (wp_pure (hpoll _)))
    · exact wp_seq (abides_waitsTimed.doInter _ (hpoll _)) fun _ _ h => wp_pure h
  · rw [if_pos rfl]
    exact wp_pure (h.wait (htimed.delivered e) _)

/-- **The loop waits with its timer running**, as long as no file switches it off. -/
theorem keeps_doCopyLoop_timed {w₀ : SRun}
    (hwatch : ∀ c, CfgReach E w₀.st.cfg c → c.watchdogTimeout ≠ 0) :
    Keeps E (fun w => WaitsTimed w ∧ Reloading E w₀ w) doCopyLoop := by
  have ha := abides_waitsTimed
  refine keeps_doCopyLoop (fun w k hk h => ⟨?_, h.2.call ⟨rfl, rfl⟩ ⟨rfl, rfl⟩⟩) (fun w h => ?_)
    (ha.signalPart.and keeps_signalPart_reloading) (ha.reventsPart.and keeps_reventsPart_reloading)
    (ha.readMasterPart.and keeps_readMasterPart_reloading)
    (ha.readSocketPart.and keeps_readSocketPart_reloading)
    (ha.forwardPart.and keeps_forwardPart_reloading)
  · exact h.1.call (by rcases hk with rfl | rfl <;> rfl) _ _
  · exact wp_and (wp_pollPart_timed h.1 (hwatch _ h.2.1.cfg)) (keeps_pollPart_reloading w h.2)

/-! ## The closing phases -/

/-- The phase is over, or its next wait is limited. -/
structure Limited (w : SRun) : Prop where
  waits : WaitsTimed w
  limit : w.st.done ≠ 0 ∨ w.st.Timed

/-- Nothing is lost of it by a statement that leaves the timer and its flag alone. -/
theorem Limited.state (h : Limited w) {s : Session} (hd : w.st.done ≠ 0 → s.done ≠ 0)
    (hs : w.st.Timed → s.Timed) : Limited ⟨s, w.trace⟩ :=
  ⟨h.waits, h.limit.imp hd hs⟩

theorem Limited.deliver (h : Limited w) (e : Env) : Limited ⟨PadSvr.deliver e w.st, w.trace⟩ :=
  h.state (by simp) fun ht => ht.delivered e

theorem keeps_stmt_limited {f : Env → Session → Session × α}
    (hf : ∀ e s, (f e s).1.done = s.done ∧ (f e s).1.flags.alrm = s.flags.alrm ∧
      (f e s).1.sys = s.sys) : Keeps E Limited (stmt f) := fun w hw =>
  wp_stmt hw fun e _ => by
    obtain ⟨hd, ha, hs⟩ := hf e (deliver e w.st)
    refine (hw.deliver e).state (fun h => by rwa [hd]) fun h => ?_
    rw [Session.Timed, ha, hs]
    exact h

theorem keeps_interChld_limited : Keeps E Limited interChld := by
  unfold interChld recvExitStatus
  refine .bind (keeps_stmt_limited fun e s => ?_) fun _ =>
    keeps_stmt_limited fun _ _ => ⟨rfl, rfl, rfl⟩
  split
  · split <;> exact ⟨rfl, rfl, rfl⟩
  · exact ⟨rfl, rfl, rfl⟩

theorem keeps_setDone_limited {n : ℕ} (hn : n ≠ 0) : Keeps E Limited (setDone n) := fun _ hw =>
  wp_modify ⟨hw.waits, Or.inl hn⟩

/-- The byte of the handler may have been read, and the flag not yet tested. -/
structure Alert (w : SRun) : Prop where
  waits : WaitsTimed w
  limit : w.st.done ≠ 0 ∨ w.st.sys.wtimer.isSome = true ∨ w.st.flags.alrm = true

theorem Limited.alert (h : Limited w) : Alert w :=
  ⟨h.waits, h.limit.imp_right fun ht => ht.imp_right And.left⟩

theorem wp_readPipe_alert (n : ℕ) (h : Limited w) :
    wp E WaitsTimed (readPipe n) (fun _ => Alert) w := by
  refine wp_readPipe h.waits (fun e _ => ?_) fun e _ k => ?_
  all_goals
    obtain ⟨hw, hl⟩ := (h.deliver e).alert
    exact ⟨hw.call rfl _ _, hl⟩

/-- **The flag of the timer is tested** behind the read: if it is up, the phase is over. -/
theorem wp_onUp_alrm_limited (h : Alert w) :
    wp E WaitsTimed (onUp Flags.alrm
      (assign fun s => { s with done := 1, flags := { s.flags with alrm := false } }))
      (fun _ => Limited) w := by
  refine wp_bind (wp_test h.waits fun e _ => ?_)
  split
  · exact wp_assign h.waits fun _ _ => ⟨h.waits, Or.inl (by simp)⟩
  · next ha =>
    refine wp_pure ⟨h.waits, ?_⟩
    rcases h.limit with hd | hs | ha'
    · exact Or.inl (by simpa using hd)
    · exact Or.inr (Session.Timed.delivered (Or.inl hs) e)
    · exact absurd ((deliver_raises e w.st).1 ha') ha

theorem wp_closingSignals_limited (pipe : Revents) {ended : SProg Unit}
    (hended : Keeps E Limited ended) (h : Limited w) :
    wp E WaitsTimed (closingSignals pipe ended) (fun _ => Limited) w := by
  have hup : ∀ up {handle : SProg Unit}, Keeps E Limited handle →
      Keeps E Limited (onUp up handle) := fun _ _ hh =>
    .bind (keeps_stmt_limited fun _ _ => ⟨rfl, rfl, rfl⟩) fun _ => .ite hh .pure
  have hexit : Keeps E Limited
      (assign fun s => { s with done := 1, flags := { s.flags with exit := false } }) := fun w hw =>
    wp_assign hw fun _ _ => ⟨hw.waits, Or.inl (by simp)⟩
  unfold closingSignals
  split
  · refine wp_bind (wp_get (wp_seq (wp_readPipe_alert _ h) fun _ w h => ?_))
    refine wp_seq (wp_onUp_alrm_limited h) fun _ w h => ?_
    refine wp_mono (Keeps.bind (hup Flags.exit hexit) (fun _ => hup Flags.chld hended) w h)
      (fun _ h => h.waits) fun _ _ h => h
  · exact wp_pure h

/-- A `poll` of a closing phase. -/
theorem wp_closingPoll_limited (h : Limited w) (hd : w.st.done = 0) :
    wp E WaitsTimed closingPoll (fun _ => Limited) w := by
  have htimed : w.st.Timed := h.limit.resolve_left fun hn => hn hd
  refine wp_call h.waits fun e _ r hr => ?_
  have ht := htimed.delivered e
  split at hr
  · cases hr
    exact ⟨h.waits.wait ht _, Or.inr ht⟩
  · cases hr
    exact ⟨h.waits.wait ht _, Or.inr ht⟩

theorem wp_waitNetRound_limited (h : Limited w) :
    wp E WaitsTimed waitNetRound (fun _ => Limited) w := by
  have hset : ∀ {n : ℕ} {w : SRun} {x : Unit ⊕ Unit}, n ≠ 0 → Limited w →
      wp E WaitsTimed (setDone n >>= fun _ => pure x) (fun _ => Limited) w := fun hn h =>
    wp_bind (wp_modify (wp_pure ⟨h.waits, Or.inl hn⟩))
  unfold waitNetRound
  refine wp_bind (wp_get ?_)
  split
  · exact wp_pure h
  · next hd =>
    refine wp_seq (wp_closingPoll_limited h (by simpa using hd)) fun answer w h => ?_
    refine wp_bind (wp_get ?_)
    split
    · exact hset (n := 11) (by decide) h
    · obtain ⟨sock, pipe⟩ := answer.getD ({}, {})
      refine wp_seq (wp_closingSignals_limited _ keeps_interChld_limited h) fun _ w h => ?_
      split
      · exact hset (n := 1) (by decide) h
      · split
        · refine wp_bind (wp_get (wp_seq (Q := fun _ => Limited) ?_ fun i w h => ?_))
          · refine wp_readSock h.waits (fun e _ er => ?_) fun e _ pkt => ?_
            all_goals exact ⟨h.waits.call rfl _ _, (h.deliver e).limit⟩
          · refine wp_bind (wp_get ?_)
            split
            · exact wp_pure h
            · exact hset (n := 1) (by decide) h
        · exact wp_pure h

theorem wp_waitExitstatusRound_limited (h : Limited w) :
    wp E WaitsTimed waitExitstatusRound (fun _ => Limited) w := by
  unfold waitExitstatusRound
  refine wp_bind (wp_get ?_)
  split
  · exact wp_pure h
  · next hd =>
    refine wp_seq (wp_closingPoll_limited h (by simpa using hd)) fun answer w h => ?_
    refine wp_bind (wp_get ?_)
    split
    · exact wp_bind (wp_modify (wp_pure ⟨h.waits, Or.inl (by simp)⟩))
    · exact wp_seq (wp_closingSignals_limited _ (.bind keeps_interChld_limited fun _ =>
        keeps_setDone_limited (by decide)) h) fun _ w h => wp_pure h

/-- A phase: the timer is set for all its rounds. -/
theorem wp_phase_timed {round : SProg (Unit ⊕ Unit)}
    (hround : ∀ w, Limited w → wp E WaitsTimed round (fun _ => Limited) w)
    (h : WaitsTimed w) (hn : w.st.netTimeout ≠ 0) :
    wp E WaitsTimed (do
      setNetTimeout
      Prog.iter (fun () => round) ()
      resetTimer) (fun _ => WaitsTimed) w := by
  unfold setNetTimeout resetTimer
  refine wp_bind (wp_assign h fun e _ => ?_)
  have hlimited : Limited ⟨{ deliver e w.st with sys := { (deliver e w.st).sys with
      wtimer := armed (deliver e w.st).netTimeout } }, w.trace⟩ :=
    ⟨h, Or.inr (timed_armed (by rwa [deliver_netTimeout]))⟩
  refine wp_seq (wp_iter (fun _ => Limited) (fun _ _ h => h.waits) (fun _ w h => ?_) hlimited)
    fun _ w (h : Limited w) => wp_assign h.waits fun _ _ => h.waits
  exact wp_mono (hround w h) (fun _ h => h) fun r _ h => by cases r <;> exact h

theorem wp_waitNet_timed (buf : List UInt8) (h : WaitsTimed w) (hn : w.st.netTimeout ≠ 0) :
    wp E WaitsTimed (waitNet buf) (fun _ => WaitsTimed) w := by
  unfold waitNet
  exact wp_bind (wp_modify (wp_phase_timed (fun _ => wp_waitNetRound_limited) h hn))

/-- **The wait for the login process** is limited. -/
theorem wp_waitExitstatus_timed (buf : List UInt8) (h : WaitsTimed w) (hn : w.st.netTimeout ≠ 0) :
    wp E WaitsTimed (waitExitstatus buf) (fun _ => WaitsTimed) w := by
  unfold waitExitstatus
  refine wp_bind (wp_get ?_)
  split
  · exact wp_bind (wp_modify
      (wp_phase_timed (fun _ => wp_waitExitstatusRound_limited) h hn))
  · exact wp_pure h

/-- The control messages do not wait. -/
theorem keeps_controlWrite_abides {J : SRun → Prop} (hstate : ∀ w s, J w → J ⟨s, w.trace⟩)
    (hcall : ∀ w k s s', J w → k.waits = false → J ⟨s', w.trace ++ [(k, s)]⟩) (msg : List UInt8) :
    Keeps E J (controlWrite msg) := by
  have hstop : Keeps E J (Prog.stop : SProg ℤ) := fun _ hw => wp_stop hw
  have hstmt : ∀ {β : Type} {f : Env → Session → Session × β}, Keeps E J (stmt f) :=
    fun w hw => wp_stmt hw fun e _ => hstate w _ hw
  have hreload : Keeps E J reload := fun w hw =>
    wp_reload hw fun e _ b c _ => hcall w _ _ _ hw rfl
  have hinter : Keeps E J x29DoInter := by
    unfold x29DoInter onFlag interHup
    exact .bind (.bind hstmt fun _ => .ite (.bind (.bind hreload fun _ => hstmt) fun _ => .pure)
      .pure) fun _ => .bind hstmt fun _ => .ite (.bind hstmt fun _ => hstop)
        (.bind hstmt fun _ => .ite (.bind hstmt fun _ => hstop) .pure)
  exact restores_writensockint (fun _ h => h) (fun pkt w hw => wp_writeSock hw
    (fun e _ er _ => hcall w _ _ _ hw rfl) fun e _ k _ => hcall w _ _ _ hw rfl) hinter .pure _ _

theorem keeps_x29SetDefault_abides {J : SRun → Prop} (hstate : ∀ w s, J w → J ⟨s, w.trace⟩)
    (hcall : ∀ w k s s', J w → k.waits = false → J ⟨s', w.trace ++ [(k, s)]⟩)
    (behind : List X29Par) : Keeps E J (x29SetDefault behind) := by
  unfold x29SetDefault
  refine .bind .get fun s => ?_
  split
  · exact fun _ hw => wp_stop hw
  · exact .pure
  · exact .bind (keeps_controlWrite_abides hstate hcall _) fun _ => .pure

/-- **The closing of the line** waits with the timer running. -/
theorem keeps_closeLine_timed {w₀ : SRun} (hn : w₀.st.netTimeout ≠ 0) (buf : List UInt8) :
    Keeps E (fun w => WaitsTimed w ∧ Reloading E w₀ w) (closeLine buf) := by
  have hclose : Keeps E (fun w => WaitsTimed w ∧ Reloading E w₀ w) closeCall :=
    (abides_waitsTimed.stmt fun _ _ => rfl).and (keeps_stmt_reloading fun _ _ => ⟨rfl, rfl⟩)
  have hclear : Keeps E (fun w => WaitsTimed w ∧ Reloading E w₀ w) x29InvClear :=
    .bind ((keeps_controlWrite_abides (fun _ _ h => h) (fun _ _ _ _ h hk => h.call hk _ _) _).and
      (keeps_controlWrite_reloading _)) fun _ => .pure
  have hwait : Keeps E (fun w => WaitsTimed w ∧ Reloading E w₀ w) (waitNet buf) :=
    fun w h => wp_and (wp_waitNet_timed buf h.1 (by rwa [h.2.1.netTimeout]))
      (keeps_waitNet_reloading buf w h.2)
  unfold closeLine
  exact .bind .get fun _ => .ite hclose (.ite (.bind hclear fun _ => .bind hwait fun _ => hclose)
    (.ite (.bind hwait fun _ => hclose) .pure))

theorem keeps_waitExitstatus_timed {w₀ : SRun} (hn : w₀.st.netTimeout ≠ 0) (buf : List UInt8) :
    Keeps E (fun w => WaitsTimed w ∧ Reloading E w₀ w) (waitExitstatus buf) := fun w h =>
  wp_and (wp_waitExitstatus_timed buf h.1 (by rwa [h.2.1.netTimeout]))
    (keeps_waitExitstatus_reloading buf w h.2)

end Timed

end PadSvr
