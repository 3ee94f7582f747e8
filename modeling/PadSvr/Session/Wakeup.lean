import PadSvr.Session.Round

/-!
# The wake-up of the loop

With the idle timer, bytes held in the buffer wait for its expiry. The handler of the expiry
raises a flag and writes a byte to the pipe, `do_inter` turns the flag into another one wherever it
runs, and the flush test of the round acts on that one. No interleaving of these loses the
wake-up: while bytes are held, one of them is on its way whenever the loop waits.

## Main definitions

* `Session.Armed`, `Session.Awake`, `Session.Roused`: a wake-up is on its way, at the head of the
  loop, within a round, and after the pipe has been read
* `Wakeful`: a `poll` is made with a wake-up on its way

## Main results

* `wp_doInter_awake`: `do_inter` does not lose a wake-up
* `doCopy_wakeful`: no run loses it
-/

namespace PadSvr

open Scripted Scripted.Prog

/-- Nothing is held, or the timer or its signal will end the next `poll`. -/
def Session.Armed (s : Session) : Prop :=
  s.loc.totali = 0 ∨ s.sys.rtimer = true ∨ s.flags.idle = true ∧ 0 < s.sys.pipe

/-- The same, or the flush test of this round will find one of its flags set. -/
def Session.Awake (s : Session) : Prop :=
  s.flagForwardtimerEx = true ∨ s.loc.flagMinlimitEx = true ∨ s.Armed

/-- The same once the pipe has been read. -/
def Session.Roused (s : Session) : Prop :=
  s.flagForwardtimerEx = true ∨ s.loc.flagMinlimitEx = true ∨ s.loc.totali = 0 ∨
    s.sys.rtimer = true ∨ s.flags.idle = true

/-- Where `poll` is called with bytes held, the timer is armed, or its flag is raised and the pipe
holds a byte. -/
def Wakeful (_ : STrace) : Event → Session → Prop
  | .poll _, s => s.done = 0 → 0 < s.loc.totali →
    s.sys.rtimer = true ∨ s.flags.idle = true ∧ 0 < s.sys.pipe
  | _, _ => True

/-! ## What happens before a statement -/

section Deliver

variable {s : Session}

theorem Session.Armed.delivered (h : s.Armed) (e : Env) : (deliver e s).Armed := by
  have hi := interfered_deliver e s
  rcases h with hz | hr | ⟨hf, hp⟩
  · exact Or.inl (by simpa using hz)
  · exact Or.inr (hi.rtimer hr)
  · exact Or.inr (Or.inr ⟨hi.idle hf, hp.trans_le hi.pipe⟩)

theorem Session.Awake.delivered (h : s.Awake) (e : Env) : (deliver e s).Awake := by
  rcases h with hx | hm | ha
  · exact Or.inl (by simpa using hx)
  · exact Or.inr (Or.inl (by simpa using hm))
  · exact Or.inr (Or.inr (ha.delivered e))

theorem Session.Awake.roused (h : s.Awake) : s.Roused := by
  rcases h with hx | hm | hz | hr | ⟨hf, -⟩
  · exact Or.inl hx
  · exact Or.inr (Or.inl hm)
  · exact Or.inr (Or.inr (Or.inl hz))
  · exact Or.inr (Or.inr (Or.inr (Or.inl hr)))
  · exact Or.inr (Or.inr (Or.inr (Or.inr hf)))

theorem Session.Roused.delivered (h : s.Roused) (e : Env) : (deliver e s).Roused := by
  have hi := interfered_deliver e s
  rcases h with hx | hm | hz | hr | hf
  · exact Or.inl (by simpa using hx)
  · exact Or.inr (Or.inl (by simpa using hm))
  · exact Or.inr (Or.inr (Or.inl (by simpa using hz)))
  · have ha : (deliver e s).Awake := Or.inr (Or.inr (Or.inr (hi.rtimer hr)))
    exact ha.roused
  · exact Or.inr (Or.inr (Or.inr (Or.inr (hi.idle hf))))

/-- Without its flag, what rouses the loop is still on its way. -/
theorem Session.Roused.awake (h : s.Roused) (hf : s.flags.idle = false) : s.Awake := by
  rcases h with hx | hm | hz | hr | hf'
  · exact Or.inl hx
  · exact Or.inr (Or.inl hm)
  · exact Or.inr (Or.inr (Or.inl hz))
  · exact Or.inr (Or.inr (Or.inr (Or.inl hr)))
  · simp [hf] at hf'

end Deliver

/-! ## The parts of a round -/

/-- The session satisfies `P`, and every `poll` so far was wakeful. -/
structure Holding (P : Session → Prop) (w : SRun) : Prop where
  now : P w.st
  polls : Always Wakeful w.trace

section Parts

variable {E : Env → Prop} {P : Session → Prop} {w w' : SRun}

theorem Holding.call (h : Holding P w) {k : Event} (hk : ∀ a, k ≠ .poll a) {s s' : Session}
    {P' : Session → Prop} (hs : P' s') : Holding P' ⟨s', w.trace ++ [(k, s)]⟩ :=
  ⟨hs, always_concat.mpr ⟨h.polls, by cases k <;> simp_all [Wakeful]⟩⟩

theorem keeps_stmt_holding {α : Type} {f : Env → Session → Session × α}
    (hd : ∀ e s, P s → P (deliver e s)) (h : ∀ e s, P s → P (f e s).1) :
    Keeps E (Holding P) (stmt f) := fun _ hw =>
  wp_stmt hw fun e _ => ⟨h e _ (hd e _ hw.now), hw.polls⟩

theorem keeps_modify_holding {f : Session → Session} (h : ∀ s, P s → P (f s)) :
    Keeps E (Holding P) (modify f) := fun _ hw => wp_modify ⟨h _ hw.now, hw.polls⟩

/-- An assertion that what happens before a statement cannot break, nor a reload, nor the handling
of the flags other than that of the timer. -/
structure Steady (P : Session → Prop) : Prop where
  delivered : ∀ e s, P s → P (deliver e s)
  settings : ∀ s c er, P s → P { s with cfg := c, sys := { s.sys with errno := er } }
  flags : ∀ s n fl p, fl.idle = s.flags.idle → P s →
    P { s with done := n, flags := fl, flagExitstatusRecvd := p }

theorem steady_awake : Steady Session.Awake where
  delivered := fun e _ h => h.delivered e
  settings := fun _ _ _ h => h
  flags := fun s n fl p hf h => by simpa [Session.Awake, Session.Armed, hf] using h

theorem steady_roused : Steady Session.Roused where
  delivered := fun e _ h => h.delivered e
  settings := fun _ _ _ h => h
  flags := fun s n fl p hf h => by simpa [Session.Roused, hf] using h

section Flags

variable (hP : Steady P)

include hP

theorem keeps_onFlag_holding (up : Flags → Bool) {handle : SProg Unit}
    (hm : Keeps E (Holding P) handle) (ret ret₀ : ℤ) :
    Keeps E (Holding P) (onFlag up handle ret ret₀) :=
  .bind (keeps_stmt_holding hP.delivered fun _ _ h => h) fun _ =>
    .ite (.bind hm fun _ => .pure) .pure

theorem keeps_interHup_holding : Keeps E (Holding P) interHup := by
  refine .bind (fun w hw => wp_reload hw fun e he b c _ => ?_) fun _ =>
    keeps_stmt_holding hP.delivered fun _ s h => hP.flags s _ _ _ rfl h
  exact hw.call (by simp) (hP.settings (deliver e w.st) c e.errno (hP.delivered e w.st hw.now))

theorem keeps_interAlrm_holding : Keeps E (Holding P) interAlrm := by
  unfold interAlrm assign
  exact keeps_stmt_holding hP.delivered fun _ s h => hP.flags s _ _ _ rfl h

theorem keeps_interExit_holding : Keeps E (Holding P) interExit := by
  unfold interExit assign
  exact keeps_stmt_holding hP.delivered fun _ s h => hP.flags s _ _ _ rfl h

theorem keeps_interChld_holding : Keeps E (Holding P) interChld := by
  refine .bind (keeps_stmt_holding hP.delivered fun e s h => ?_) fun _ =>
    keeps_stmt_holding hP.delivered fun _ s h => hP.flags s _ _ _ rfl h
  rcases e.child with _ | pid
  · exact h
  · dsimp only
    split
    · exact hP.flags s _ _ _ rfl h
    · exact h

end Flags

/-- `do_inter` keeps the loop awake at every statement. -/
theorem keeps_doInter_awake : Keeps E (Holding Session.Awake) doInter := by
  have hP := steady_awake
  have hidle : Keeps E (Holding Session.Awake) interIdle := by
    unfold interIdle assign
    exact keeps_stmt_holding hP.delivered fun _ _ _ => Or.inl rfl
  unfold doInter
  exact .bind (keeps_onFlag_holding hP _ (keeps_interHup_holding hP) _ _) fun _ =>
    .bind (keeps_onFlag_holding hP _ (keeps_interAlrm_holding hP) _ _) fun _ =>
    .bind (keeps_onFlag_holding hP _ (keeps_interExit_holding hP) _ _) fun _ =>
    .bind (keeps_onFlag_holding hP _ hidle _ _) fun _ =>
    keeps_onFlag_holding hP _ (keeps_interChld_holding hP) _ _

/-- **`do_inter` does not lose a wake-up.** The flag of the timer becomes that of the flush test,
whether or not its byte is still in the pipe. -/
theorem wp_doInter_awake (h : Holding Session.Roused w) :
    wp E (fun w => Always Wakeful w.trace) doInter (fun _ => Holding Session.Awake) w := by
  have hflag : ∀ {P : Session → Prop}, Steady P → ∀ up {handle : SProg Unit} (ret ret₀ : ℤ),
      Keeps E (Holding P) handle → ∀ w', Holding P w' →
        wp E (fun w => Always Wakeful w.trace) (onFlag up handle ret ret₀)
          (fun _ => Holding P) w' :=
    fun hP up _ ret ret₀ hm w' hw' =>
      wp_mono (keeps_onFlag_holding hP up hm ret ret₀ w' hw') (fun _ h => h.polls) fun _ _ h => h
  have hP := steady_roused
  unfold doInter
  refine wp_seq (hflag hP _ _ _ (keeps_interHup_holding hP) w h) fun _ w₁ h₁ => ?_
  refine wp_seq (hflag hP _ _ _ (keeps_interAlrm_holding hP) w₁ h₁) fun _ w₂ h₂ => ?_
  refine wp_seq (hflag hP _ _ _ (keeps_interExit_holding hP) w₂ h₂) fun ret w₃ h₃ => ?_
  -- the flag of the timer is handled, or it is not raised
  have hidle : wp E (fun w => Always Wakeful w.trace) (onFlag Flags.idle interIdle ret ret)
      (fun _ => Holding Session.Awake) w₃ := by
    refine wp_bind (wp_test h₃.polls fun e he => ?_)
    split
    · exact wp_bind (wp_assign h₃.polls fun e he => wp_pure ⟨Or.inl rfl, h₃.polls⟩)
    · next hf => exact wp_pure ⟨(h₃.now.delivered e).awake (by simpa using hf), h₃.polls⟩
  refine wp_seq hidle fun _ w₄ h₄ => ?_
  exact hflag steady_awake _ _ _ (keeps_interChld_holding steady_awake) w₄ h₄

/-- The wait, and what a failure of it does. -/
theorem wp_pollPart_awake (h : Holding Session.Armed w) :
    wp E (fun w => Always Wakeful w.trace) pollPart (fun _ => Holding Session.Awake) w := by
  unfold pollPart setWatchDog
  refine wp_bind (wp_assign h.polls fun e he => ?_)
  have ha : Session.Armed { deliver e w.st with
    sys := { (deliver e w.st).sys with wtimer := armed (deliver e w.st).cfg.watchdogTimeout } } :=
    h.now.delivered e
  generalize { deliver e w.st with sys := { (deliver e w.st).sys with
    wtimer := armed (deliver e w.st).cfg.watchdogTimeout } } = s₁ at ha ⊢
  -- nothing that happens before the call disarms the session
  have hpolls : ∀ e a, Always Wakeful (w.trace ++ [(.poll a, deliver e s₁)]) := by
    intro e a
    refine always_concat.mpr ⟨h.polls, fun _ hz => ?_⟩
    exact (ha.delivered e).resolve_left (by omega)
  refine wp_bind (wp_pollCall h.polls (fun e he er => ?_) fun e he so ma pi _ =>
    wp_pure ⟨Or.inr (Or.inr (ha.delivered e)), hpolls e _⟩)
  have hawake : Holding Session.Awake ⟨((deliver e s₁).failing er).reported {} {} {},
      w.trace ++ [(.poll (.fail er), deliver e s₁)]⟩ :=
    ⟨Or.inr (Or.inr (ha.delivered e)), hpolls e _⟩
  refine wp_bind (wp_get ?_)
  split
  · exact wp_bind (wp_modify (wp_pure ⟨hawake.now, hawake.polls⟩))
  · exact wp_bind (wp_mono (keeps_doInter_awake _ hawake) (fun _ h => h.polls)
      fun _ _ h => wp_pure h)

/-- A signal: the byte in the pipe is read, and the flags are handled. -/
theorem wp_signalPart_awake (h : Holding Session.Awake w) :
    wp E (fun w => Always Wakeful w.trace) signalPart (fun _ => Holding Session.Awake) w := by
  unfold signalPart
  refine wp_bind (wp_get ?_)
  split
  · have hroused : ∀ e, (deliver e w.st).Roused := fun e => (h.now.delivered e).roused
    -- the byte of the pipe may be gone now, so only the flag still tells of the timer
    have hinter : ∀ w', Holding Session.Roused w' → wp E (fun w => Always Wakeful w.trace)
        (doInter >>= fun _ => pure ()) (fun _ => Holding Session.Awake) w' := fun w' hw' =>
      wp_seq (wp_doInter_awake hw') fun _ _ h => wp_pure h
    refine wp_bind (wp_get (wp_bind (wp_readPipe h.polls (fun e he => ?_) fun e he k => ?_)))
    · exact hinter _ (h.call (by simp) (hroused e))
    · exact hinter _ (h.call (by simp) (hroused e))
  · exact wp_pure h

theorem keeps_setDone_awake (n : ℕ) : Keeps E (Holding Session.Awake) (setDone n) :=
  keeps_modify_holding fun _ h => h

theorem keeps_failed_awake (n : ℕ) : Keeps E (Holding Session.Awake) (failed n) := by
  unfold failed
  exact .bind .get fun s => .ite (.bind keeps_doInter_awake fun _ => .pure) (keeps_setDone_awake n)

theorem keeps_writeBack_awake (data : List UInt8) :
    Keeps E (Holding Session.Awake) (writeBack data) := by
  have hwrite : ∀ left, Keeps E (Holding Session.Awake) (writeMaster left) := by
    intro left w hw
    refine wp_writeMaster hw (fun e he er _ => ?_) fun e he k _ => ?_
    · exact hw.call (by simp) (hw.now.delivered e)
    · exact hw.call (by simp) (hw.now.delivered e)
  unfold writeBack
  exact .iter (fun _ => .bind (keeps_writen hwrite data) fun iw =>
    .ite (.bind (keeps_failed_awake 1) fun _ => .pure) .pure) ()

theorem keeps_readSocketPart_awake : Keeps E (Holding Session.Awake) readSocketPart := by
  unfold readSocketPart
  refine .bind .get fun s => .ite (.bind .get fun s => .bind ?_ fun i => .ite ?_ (.ite
    (keeps_setDone_awake 9) (keeps_failed_awake 10))) .pure
  · intro w hw
    refine wp_readSock hw (fun e he er => ?_) fun e he pkt => ?_
    · exact hw.call (by simp) (hw.now.delivered e)
    · exact hw.call (by simp) (hw.now.delivered e)
  · unfold socketReceived
    refine .bind .get fun s => .ite (.bind (keeps_modify_holding fun _ h => h) fun _ =>
      keeps_writeBack_awake _) (.ite ?_ .pure)
    unfold setNetTimeout assign
    exact keeps_stmt_holding steady_awake.delivered fun _ _ h => h

/-- Bytes that stay in the buffer: the timer is armed for them, or their flush is due. -/
theorem wp_masterReceived_awake (h : Always Wakeful w.trace) (hft : w.st.cfg.forwardtimer ≠ 0)
    (i : ℕ) :
    wp E (fun w => Always Wakeful w.trace) (masterReceived i) (fun _ w' =>
      Holding Session.Awake w' ∧ w'.st.cfg = w.st.cfg ∧ w'.st.bufd = w.st.bufd) w := by
  unfold masterReceived
  refine wp_bind (wp_get ?_)
  rw [if_neg hft]
  refine wp_bind (wp_modify (wp_bind (wp_get ?_)))
  dsimp only
  split
  · refine wp_bind (wp_modify (wp_assign h fun e he => ⟨⟨Or.inr (Or.inl ?_), h⟩, ?_, ?_⟩))
    all_goals simp
  · refine wp_setReadTimeout h fun e he _ => ⟨⟨Or.inr (Or.inr (Or.inr (Or.inl ?_))), h⟩, ?_, ?_⟩
    · have hne : w.st.cfg.forwardtimer * 5000000 ≠ 0 := by omega
      simpa using hne
    all_goals simp

end Parts

/-! ## The loop -/

section Watched

/-- The session is in a state of `P`, with a block and the settings of its start. -/
structure Watched (E : Env → Prop) (s₀ : Session) (P : Session → Prop) (w : SRun) : Prop where
  holding : Holding P w
  cfg : CfgReach E s₀.cfg w.st.cfg
  bufd : w.st.bufd ≠ []

variable {E : Env → Prop} {s₀ : Session} {w w' : SRun}
  (hfix : ∀ c, CfgReach E s₀.cfg c → c.forwardtimer ≠ 0)

/-- A part beside the path of the stream. -/
theorem Watched.aside {P P' : Session → Prop} (h : Watched E s₀ P w) (ha : Aside E True w w')
    (hh : Holding P' w') : Watched E s₀ P' w' :=
  ⟨hh, h.cfg.trans ha.1.cfg, by rw [ha.1.bufd]; exact h.bufd⟩

theorem wp_aside_watched {α : Type} {m : SProg α} {P P' : Session → Prop} (h : Watched E s₀ P w)
    (ha : Keeps E (Aside E True w) m)
    (hm : wp E (fun w => Always Wakeful w.trace) m (fun _ => Holding P') w) :
    wp E (fun w => Always Wakeful w.trace) m (fun _ => Watched E s₀ P') w :=
  wp_mono (wp_and hm (wp_within ha)) (fun _ hw => hw.1) fun _ _ hw => h.aside hw.2 hw.1

include hfix in
theorem wp_readMasterPart_watched (h : Watched E s₀ Session.Awake w) :
    wp E (fun w => Always Wakeful w.trace) readMasterPart
      (fun _ => Watched E s₀ Session.Awake) w := by
  have hon := hfix _ h.cfg
  -- a read that delivers nothing
  have hread : ∀ (e : Env) res s, s.Awake → s.cfg = w.st.cfg → s.bufd = w.st.bufd →
      Watched E s₀ Session.Awake (readRun w e res s) := fun e res s hs hc hb =>
    ⟨h.holding.call (by simp) hs, by rw [hc]; exact h.cfg, by rw [hb]; exact h.bufd⟩
  refine wp_readMasterPart h.holding.polls (fun _ => h) (fun e he er _ => ?_) (fun e he _ => ?_)
    fun e he data hne _ _ => ?_
  · have h₁ := hread e (.error er) ((deliver e w.st).failing er) (h.holding.now.delivered e)
      (by simp) (by simp)
    exact wp_aside_watched h₁ (keeps_failed_aside _ (by simp) fun _ => trivial)
      (wp_mono (keeps_failed_awake 1 _ h₁.holding) (fun _ h => h.polls) fun _ _ h => h)
  · exact hread e _ _ (h.holding.now.delivered e) (by simp) (by simp)
  · have hpolls : Always Wakeful (readRun w e (.ok data)
        ((deliver e w.st).gotMaster w.st.readArgs.1 data)).trace :=
      always_concat.mpr ⟨h.holding.polls, trivial⟩
    refine wp_mono (wp_masterReceived_awake hpolls (by simpa using hon) data.length)
      (fun _ h => h) fun _ w' hw' => ?_
    obtain ⟨hh, hc, hb⟩ := hw'
    refine ⟨hh, ?_, List.length_pos_iff.mp ?_⟩
    · rw [hc]
      simpa using h.cfg
    · rw [hb]
      show 0 < ((deliver e w.st).gotMaster w.st.readArgs.1 data).bufd.length
      rw [gotMaster_length, deliver_bufd]
      exact List.length_pos_iff.mpr h.bufd

/-- Packets are no `poll`. -/
theorem wakeful_sent {q : UInt8} {payload : List UInt8} {k : ℕ} (h : Always Wakeful w.trace)
    (hs : Sent E q payload k w w') : Always Wakeful w'.trace :=
  hs.always h fun _ _ _ hk => by
    rcases hk.eq with ⟨_, rfl⟩ | ⟨_, _, rfl, -⟩ <;> trivial

include hfix in
/-- The flush of a round: what is held afterwards waits for the timer. -/
theorem wp_forwardPart_watched (h : Watched E s₀ Session.Awake w) :
    wp E (fun w => Always Wakeful w.trace) forwardPart
      (fun _ => Watched E s₀ Session.Armed) w := by
  have hon := hfix _ h.cfg
  have htest : Always Wakeful (w.trace ++ [(.forwardTest, w.st)]) :=
    always_concat.mpr ⟨h.holding.polls, trivial⟩
  refine wp_forwardPart (fun hf => ⟨⟨?_, htest⟩, h.cfg, h.bufd⟩)
    (fun hf hz => ⟨⟨Or.inl hz, htest⟩, h.cfg, h.bufd⟩) h.bufd
    (fun _ _ k w' hs => wakeful_sent (w := ⟨w.st.flushing, _⟩) htest hs) fun hf hz r w' hw =>
      ⟨⟨Or.inl rfl, (wakeful_sent (w := ⟨w.st.flushing, _⟩) htest hw.sent :)⟩,
        h.cfg.trans hw.sent.state.cfg, List.length_pos_iff.mp ?_⟩
  · obtain ⟨⟨-, hx⟩, hm⟩ : (w.st.done ≠ 3 ∧ w.st.flagForwardtimerEx = false) ∧
        w.st.loc.flagMinlimitEx = false := by
      simpa [Session.flushes, Session.due, hon] using hf
    rcases h.holding.now with hx' | hm' | ha
    · simp [hx] at hx'
    · simp [hm] at hm'
    · exact ha
  · rw [Session.flushed, hw.length, flushing_length]
    exact List.length_pos_iff.mpr h.bufd

end Watched

/-! ## The theorem -/

/-- **No stranded data.** With the idle timer on for the whole session, every `poll` made with bytes
held has a wake-up on its way, whatever signals arrive between the statements. -/
theorem doCopy_wakeful {es : List Env} {s : Session} {bufn bufd : List UInt8}
    (hft : 1 ≤ s.cfg.forwardtimer ∧ s.cfg.forwardtimer ≤ 199)
    (hbufd : bufd.length = s.cfg.bufferSize.toNat + 1)
    (hfix : ∀ c, CfgReach (· ∈ es) s.cfg c →
      c.forwardtimer = s.cfg.forwardtimer ∧ c.bufferSize = s.cfg.bufferSize) :
    Always Wakeful (doCopyTrace es s bufn bufd) := by
  have hon : ∀ c, CfgReach (· ∈ es) s.cfg c → c.forwardtimer ≠ 0 := fun c hc => by
    rw [(hfix c hc).1]
    omega
  have hstart : Watched (· ∈ es) s Session.Armed ⟨doCopyStart s bufn bufd, []⟩ :=
    ⟨⟨Or.inl rfl, always_nil⟩, .refl, List.length_pos_iff.mp (by rw [doCopyStart, hbufd]; omega)⟩
  refine always_of_wp (E := (· ∈ es)) (I := fun w => Always Wakeful w.trace)
    (wp_doCopyLoop (H := Watched (· ∈ es) s Session.Armed)
      (L := Watched (· ∈ es) s Session.Awake) (Q := fun w => Always Wakeful w.trace)
      (fun _ h => h.holding.polls) (fun w h _ => ?_) (fun w h _ => ?_) (fun w h => ?_) hstart)
    (fun _ _ h => h) (fun _ he => he)
  -- a round: the timer is armed up to the `poll`, and from there on the loop is awake
  · have hhead : Watched (· ∈ es) s Session.Armed ⟨w.st, w.trace ++ [(.loopHead, w.st)]⟩ :=
      ⟨h.holding.call (by simp) h.holding.now, h.cfg, h.bufd⟩
    refine wp_doCopyRound (A := Watched (· ∈ es) s Session.Awake)
      (B := Watched (· ∈ es) s Session.Awake) (C := Watched (· ∈ es) s Session.Awake)
      (D := Watched (· ∈ es) s Session.Awake) (F := Watched (· ∈ es) s Session.Awake)
      (wp_mono (wp_aside_watched hhead (keeps_pollPart_aside _) (wp_pollPart_awake hhead.holding))
        (fun _ h => h) fun c _ h => ?_)
      (fun w h => wp_aside_watched h (keeps_signalPart_aside w) (wp_signalPart_awake h.holding))
      (fun w h => wp_reventsPart (fun _ => ?_) (fun s hs n _ => ?_) fun _ => ?_)
      (fun w h => wp_readMasterPart_watched hon h) (fun w h => ?_)
      fun w h => wp_forwardPart_watched hon h
    · split <;> exact h
    · exact ⟨⟨h.holding.now, h.holding.polls⟩, h.cfg, h.bufd⟩
    · rw [if_pos rfl]
      rcases hs with rfl | rfl
      · exact ⟨⟨h.holding.now, h.holding.polls⟩, h.cfg, h.bufd⟩
      · exact ⟨⟨h.holding.now, h.holding.polls⟩, h.cfg, h.bufd⟩
    · rw [if_neg (by simp)]
      split
      · exact ⟨⟨h.holding.now, h.holding.polls⟩, h.cfg, h.bufd⟩
      · exact h
    · exact wp_aside_watched h (keeps_readSocketPart_aside w)
        (wp_mono (keeps_readSocketPart_awake w h.holding) (fun _ h => h.polls) fun _ _ h => h)
  · exact always_concat.mpr ⟨always_concat.mpr ⟨h.holding.polls, trivial⟩, trivial⟩
  · exact always_concat.mpr ⟨h.holding.polls, trivial⟩

/-- A byte is read and held, the timer expires during the read of a packet from the network, and
`do_inter` handles its flag from within the write to the master. -/
def wakeupScript : List Env :=
  polled [.typed [97]] true false ++ [{ Env.willing with master := .ok 1 }] ++ quiet 2 ++
    [{ Env.willing with poll := .ready { pollin := true } {} {} }] ++
    [{ Env.willing with before := [.rtimer], sock := .ok [0, 65] }] ++
    [{ Env.willing with wmaster := .error .eintr }] ++ quiet 12

theorem doCopy_wakeful_script :
    Always Wakeful (doCopyTrace wakeupScript (.fresh 10 8) (List.replicate 9 0)
        (List.replicate 9 0)) ∧
      accepted (doCopyTrace wakeupScript (.fresh 10 8) (List.replicate 9 0)
        (List.replicate 9 0)) = [97] := by
  have hall : ∀ e ∈ wakeupScript, e.file = .missing false := by decide
  refine ⟨doCopy_wakeful (s := .fresh 10 8) (by decide) (by decide) fun c hc => ?_, by
    decide +kernel⟩
  rw [cfgReach_of_missing hall hc]
  exact ⟨rfl, rfl⟩

end PadSvr
