import PadSvr.Session.Round

/-!
# Flags and the pipe

Every handler of a session raises its flag and writes a byte to the pipe. The loop of `do_copy`
reads the pipe at one place only, and handles all the flags right behind it, so a flag that is up
has a byte in the pipe wherever the loop waits.

## Main definitions

* `Flags.up`: the flag of a signal
* `Session.Signalled gs s`: the flags of `gs` that are up have a byte in the pipe

## Main results

* `wp_doInter_tells`: `do_inter` leaves no flag without its byte, whatever it starts from
* `telling_doCopyLoop`: the loop leaves none without where it waits
-/

namespace PadSvr

open Scripted Scripted.Prog

/-- The flag of a signal. -/
def Flags.up (f : Flags) : Signal → Bool
  | .chld => f.chld
  | .alrm => f.alrm
  | .hup => f.hup
  | .idle => f.idle
  | .exit => f.exit

/-- The flags with that of a signal lowered. -/
def Flags.lower (f : Flags) : Signal → Flags
  | .chld => { f with chld := false }
  | .alrm => { f with alrm := false }
  | .hup => { f with hup := false }
  | .idle => { f with idle := false }
  | .exit => { f with exit := false }

@[simp] theorem up_lower (f : Flags) (g : Signal) : (f.lower g).up g = false := by
  cases g <;> rfl

theorem up_of_up_lower {f : Flags} {g g' : Signal} (h : (f.lower g).up g' = true) :
    f.up g' = true := by
  cases g <;> cases g' <;> first | exact h | cases h

/-- The signals. -/
def Signal.all : List Signal := [.chld, .idle, .exit, .alrm, .hup]

theorem Signal.mem_all (g : Signal) : g ∈ Signal.all := by
  cases g <;> simp [Signal.all]

instance {P : Signal → Prop} [DecidablePred P] : Decidable (∀ g, P g) :=
  decidable_of_iff (∀ g ∈ Signal.all, P g) ⟨fun h g => h g g.mem_all, fun h g _ => h g⟩

/-- The flags of `gs` that are up have a byte in the pipe. -/
def Session.Signalled (gs : List Signal) (s : Session) : Prop :=
  ∀ g ∈ gs, s.flags.up g = true → 0 < s.sys.pipe

section Signalled

variable {gs : List Signal} {s s' : Session}

/-- Flags are lowered at most, and the pipe is not read. -/
theorem Session.Signalled.lowered (h : s.Signalled gs)
    (hf : ∀ g, s'.flags.up g = true → s.flags.up g = true) (hp : s'.sys.pipe = s.sys.pipe) :
    s'.Signalled gs := fun g hg hup => hp ▸ h g hg (hf g hup)

/-- A flag that is down, besides. -/
theorem Session.Signalled.cons (h : s.Signalled gs) {g : Signal} (hg : s.flags.up g = false) :
    s.Signalled (g :: gs) := by
  intro g' hg' hup
  rcases List.mem_cons.mp hg' with rfl | hmem
  · simp [hg] at hup
  · exact h g' hmem hup

/-- A handler that runs writes a byte. What else can happen raises no flag. -/
theorem Happening.signalled (x : Happening) (h : s.Signalled gs) : (x.run s).Signalled gs := by
  cases x with
  | signal g =>
    intro g' _ _
    cases g <;> exact Nat.succ_pos _
  | rtimer =>
    by_cases hr : s.sys.rtimer = true
    · intro g' _ _
      simp [Happening.run, hr, chilSigIdle, chilSig]
    · simpa [Happening.run, hr] using h
  | wtimer =>
    by_cases hw : s.sys.wtimer.isSome = true
    · intro g' _ _
      simp [Happening.run, hw, chilSigAlrm, chilSig]
    · simpa [Happening.run, hw] using h
  | typed bytes =>
    by_cases hc : s.sys.closed = true
    · simpa [Happening.run, hc] using h
    · exact h.lowered (by simp [Happening.run, hc]) (by simp [Happening.run, hc])
  | hangup => exact h.lowered (fun _ hg => hg) rfl

theorem Session.Signalled.delivered (h : s.Signalled gs) (e : Env) :
    (deliver e s).Signalled gs := by
  have key : ∀ (xs : List Happening) (s : Session), s.Signalled gs →
      (xs.foldl (fun s x => x.run s) s).Signalled gs := by
    intro xs
    induction xs with
    | nil => exact fun _ h => h
    | cons x xs ih => exact fun s h => ih (x.run s) (x.signalled h)
  exact key e.before s h

end Signalled

/-! ## The statements -/

/-- The flags of `gs` have their bytes, and all of them had where the loop waited. -/
structure Tells (gs : List Signal) (w : SRun) : Prop where
  now : w.st.Signalled gs
  polls : ∀ x ∈ w.trace, ∀ a, x.1 = .poll a → x.2.Signalled Signal.all

section Tells

variable {E : Env → Prop} {gs : List Signal} {w : SRun}

/-- A state with the flags and the pipe of `s`. -/
theorem Session.Signalled.same {s s' : Session} (h : s.Signalled gs) (hf : s'.flags = s.flags)
    (hp : s'.sys.pipe = s.sys.pipe) : s'.Signalled gs :=
  h.lowered (fun g hg => by rwa [hf] at hg) hp

theorem Tells.call (h : Tells gs w) {k : Event} (hk : ∀ a, k ≠ .poll a) {s s' : Session}
    {gs' : List Signal} (hs : s'.Signalled gs') : Tells gs' ⟨s', w.trace ++ [(k, s)]⟩ where
  now := hs
  polls := by
    intro x hx a hxa
    rcases List.mem_append.mp hx with hx | hx
    · exact h.polls x hx a hxa
    · rw [List.mem_singleton.mp hx] at hxa
      exact absurd hxa (hk a)

theorem keeps_stmt_tells {α : Type} {f : Env → Session → Session × α}
    (h : ∀ e s, s.Signalled gs → (f e s).1.Signalled gs) : Keeps E (Tells gs) (stmt f) :=
  fun _ hw => wp_stmt hw fun e _ => ⟨h e _ (hw.now.delivered e), hw.polls⟩

theorem keeps_assign_tells {f : Session → Session} (hf : ∀ s, (f s).flags = s.flags)
    (hp : ∀ s, (f s).sys.pipe = s.sys.pipe) : Keeps E (Tells gs) (assign f) :=
  keeps_stmt_tells fun _ s h => h.same (hf s) (hp s)

theorem keeps_modify_tells {f : Session → Session} (hf : ∀ s, (f s).flags = s.flags)
    (hp : ∀ s, (f s).sys.pipe = s.sys.pipe) : Keeps E (Tells gs) (modify f) :=
  fun w hw => wp_modify ⟨hw.now.same (hf w.st) (hp w.st), hw.polls⟩

theorem keeps_reload_tells : Keeps E (Tells gs) reload := fun _ hw =>
  wp_reload hw fun e _ _ _ _ => hw.call (by simp) ((hw.now.delivered e).same rfl rfl)

/-- The flag of `g` is handled: it is down at the end, unless it is raised again with a byte. -/
theorem wp_onFlag_tells {I : SRun → Prop} {g : Signal} {up : Flags → Bool} {handle : SProg Unit}
    {ret ret₀ : ℤ} (hup : ∀ f, up f = f.up g) (hI : ∀ gs w, Tells gs w → I w)
    (hh : ∀ w, Tells gs w → wp E I handle (fun _ => Tells (g :: gs)) w) (hw : Tells gs w) :
    wp E I (onFlag up handle ret ret₀) (fun _ => Tells (g :: gs)) w := by
  refine wp_bind (wp_test (hI gs w hw) fun e _ => ?_)
  have hw' : Tells gs ⟨deliver e w.st, w.trace⟩ := ⟨hw.now.delivered e, hw.polls⟩
  split
  · exact wp_seq (hh _ hw') fun _ _ h => wp_pure h
  · next hdown =>
    have hg : (deliver e w.st).flags.up g = false := by
      rw [← hup]
      simpa using hdown
    exact wp_pure ⟨hw'.now.cons hg, hw.polls⟩

/-- An assignment that lowers the flag of `g`. -/
theorem wp_lower_tells {I : SRun → Prop} {g : Signal} {f : Session → Session}
    (hf : ∀ s, (f s).flags = s.flags.lower g) (hp : ∀ s, (f s).sys.pipe = s.sys.pipe)
    (hI : ∀ gs w, Tells gs w → I w) (hw : Tells gs w) :
    wp E I (assign f) (fun _ => Tells (g :: gs)) w := by
  refine wp_assign (hI gs w hw) fun e _ => ⟨?_, hw.polls⟩
  have hs : (f (deliver e w.st)).Signalled gs :=
    (hw.now.delivered e).lowered (fun g' hg' => up_of_up_lower (by rwa [hf] at hg')) (hp _)
  exact hs.cons (by rw [hf, up_lower])

theorem keeps_recvExitStatus_tells : Keeps E (Tells gs) recvExitStatus := by
  unfold recvExitStatus
  refine keeps_stmt_tells fun e s h => ?_
  rcases e.child with _ | pid
  · exact h
  · dsimp only
    split
    · exact h.same rfl rfl
    · exact h

/-- The polls of a run had the bytes of all flags. -/
def PollsTold (w : SRun) : Prop :=
  ∀ x ∈ w.trace, ∀ a, x.1 = .poll a → x.2.Signalled Signal.all

/-- **`do_inter` leaves no flag without its byte**, whatever it starts from: the flag is lowered
behind its test, and raised later only with a byte that nothing has read. -/
theorem wp_doInter_tells (h : Tells gs w) :
    wp E PollsTold doInter (fun _ => Tells Signal.all) w := by
  have hI : ∀ gs w, Tells gs w → PollsTold w := fun _ _ h => h.polls
  unfold doInter
  refine wp_seq (wp_onFlag_tells (g := .hup) (fun _ => rfl) hI (fun w h => ?_) h) fun _ w h => ?_
  · refine wp_bind (wp_mono (keeps_reload_tells w h) (hI _) fun _ w h => ?_)
    exact wp_lower_tells (fun _ => rfl) (fun _ => rfl) hI h
  refine wp_seq (wp_onFlag_tells (g := .alrm) (fun _ => rfl) hI (fun w h => ?_) h) fun _ w h => ?_
  · exact wp_lower_tells (fun _ => rfl) (fun _ => rfl) hI h
  refine wp_seq (wp_onFlag_tells (g := .exit) (fun _ => rfl) hI (fun w h => ?_) h) fun _ w h => ?_
  · exact wp_lower_tells (fun _ => rfl) (fun _ => rfl) hI h
  refine wp_seq (wp_onFlag_tells (g := .idle) (fun _ => rfl) hI (fun w h => ?_) h) fun _ w h => ?_
  · exact wp_lower_tells (fun _ => rfl) (fun _ => rfl) hI h
  -- all five flags are told now, and those before the call with them
  refine wp_mono (wp_onFlag_tells (g := .chld) (fun _ => rfl) hI (fun w h => ?_) h) (fun _ h => h)
    fun _ w h => ⟨fun g hg => h.now g ?_, h.polls⟩
  · refine wp_bind (wp_mono (keeps_recvExitStatus_tells w h) (hI _) fun _ w h => ?_)
    exact wp_lower_tells (fun _ => rfl) (fun _ => rfl) hI h
  · cases g <;> simp

/-! ## The parts of a round -/

/-- The part ends with all flags told, when it starts so. -/
abbrev Telling {α : Type} (E : Env → Prop) (m : SProg α) : Prop :=
  Restores E PollsTold (Tells Signal.all) m

theorem telling_of_keeps {α : Type} {m : SProg α} (h : Keeps E (Tells Signal.all) m) :
    Telling E m := h.restores fun _ h => h.polls

theorem telling_doInter : Telling E doInter := fun _ h => wp_doInter_tells h

theorem telling_failed (n : ℕ) : Telling E (failed n) := by
  unfold failed setDone
  exact .bind .get fun _ => .ite (.bind telling_doInter fun _ => .pure)
    (telling_of_keeps (keeps_modify_tells (fun _ => rfl) fun _ => rfl))

theorem telling_setDone (n : ℕ) : Telling E (setDone n) :=
  telling_of_keeps (keeps_modify_tells (fun _ => rfl) fun _ => rfl)

theorem telling_writeSock (pkt : List UInt8) : Telling E (writeSock pkt) :=
  telling_of_keeps fun w hw => wp_writeSock hw
    (fun e _ er _ => hw.call (by simp) ((hw.now.delivered e).same rfl rfl))
    fun e _ k _ => hw.call (by simp) (hw.now.delivered e)

theorem telling_writensockint (buf : List UInt8) (n : ℕ) :
    Telling E (writensockint buf n doInter wrError) :=
  restores_writensockint (fun _ h => h.polls) telling_writeSock telling_doInter
    (.bind (telling_setDone 10) fun _ => .pure) buf n

/-- The wait of the loop: what is told at its call is recorded. -/
theorem telling_pollPart : Telling E pollPart := by
  have hpoll : Telling E pollCall := by
    refine telling_of_keeps fun w hw => ?_
    have hcall : ∀ e a s, s.flags = (deliver e w.st).flags →
        s.sys.pipe = (deliver e w.st).sys.pipe →
        Tells Signal.all ⟨s, w.trace ++ [(.poll a, deliver e w.st)]⟩ := by
      intro e a s hf hp
      have hd := hw.now.delivered e
      refine ⟨hd.same hf hp, fun x hx b _ => ?_⟩
      rcases List.mem_append.mp hx with hx | hx
      · exact hw.polls x hx b ‹_›
      · rw [List.mem_singleton.mp hx]
        exact hd
    exact wp_pollCall hw (fun e _ er => hcall e _ _ rfl rfl)
      fun e _ so ma pi _ => hcall e _ _ rfl rfl
  unfold pollPart
  refine .bind (telling_of_keeps (keeps_assign_tells (fun _ => rfl) fun _ => rfl)) fun _ =>
    .bind hpoll fun _ => .ite .pure (.bind .get fun _ => .ite ?_ ?_)
  · exact .bind (telling_setDone 11) fun _ => .pure
  · exact .bind telling_doInter fun _ => .pure

/-- The pipe is read, and the flags are handled at once. -/
theorem telling_signalPart : Telling E signalPart := by
  -- with bytes of the pipe gone, nothing is known of the flags until `do_inter` has returned
  have hinter : ∀ w, Tells [] w →
      wp E PollsTold (doInter >>= fun _ => pure ()) (fun _ => Tells Signal.all) w := fun w h =>
    wp_seq (wp_doInter_tells h) fun _ _ h => wp_pure h
  unfold signalPart
  refine .bind .get fun _ => .ite (fun w hw => wp_bind (wp_get (wp_bind ?_))) .pure
  refine wp_readPipe hw.polls (fun e _ => hinter _ ?_) fun e _ k => hinter _ ?_
  · exact hw.call (by simp) (fun g hg => absurd hg (by simp))
  · exact hw.call (by simp) (fun g hg => absurd hg (by simp))

theorem telling_reventsPart : Telling E reventsPart := by
  unfold reventsPart masterHangup
  refine .bind .get fun _ => .ite (.bind (telling_setDone 1) fun _ => .pure) ?_
  refine .bind (.bind .get fun _ => .ite (telling_setDone 3) .pure) fun _ => ?_
  exact .ite (.bind (telling_setDone 10) fun _ => .pure)
    (.ite (.bind (telling_setDone 2) fun _ => .pure) .pure)

theorem telling_setLoc (f : Locals → Locals) : Telling E (setLoc f) :=
  telling_of_keeps (keeps_modify_tells (fun _ => rfl) fun _ => rfl)

theorem telling_readMaster (off n : ℕ) : Telling E (readMaster off n) :=
  telling_of_keeps fun w hw => wp_readMaster hw
    (fun e _ er _ => hw.call (by simp) ((hw.now.delivered e).same rfl rfl))
    fun e _ data _ _ _ => hw.call (by simp) ((hw.now.delivered e).same rfl rfl)

theorem telling_readMasterPart : Telling E readMasterPart := by
  have hreset : Telling E resetReadTimeout :=
    telling_of_keeps (keeps_assign_tells (fun _ => rfl) fun _ => rfl)
  have hset : Telling E setReadTimeout := telling_of_keeps fun w hw =>
    wp_setReadTimeout hw fun e _ _ => ⟨(hw.now.delivered e).same rfl rfl, hw.polls⟩
  have hreceived : ∀ i, Telling E (masterReceived i) := by
    intro i
    unfold masterReceived
    refine .bind .get fun _ => .ite (.bind .get fun _ => .bind (telling_writensockint _ _)
      fun r => telling_of_keeps (keeps_modify_tells (fun _ => rfl) fun _ => rfl)) ?_
    exact .bind (telling_setLoc _) fun _ => .bind .get fun _ =>
      .ite (.bind (telling_setLoc _) fun _ => hreset) hset
  unfold readMasterPart readMasterCall
  refine .bind .get fun _ => .ite (.bind (.bind .get fun _ => .ite (telling_readMaster _ _)
    (telling_readMaster _ _)) fun i => ?_) .pure
  exact .ite (hreceived _) (.ite (telling_setDone 6) (telling_failed 1))

theorem telling_readSocketPart : Telling E readSocketPart := by
  have hread : ∀ n, Telling E (readSock n) := fun n => telling_of_keeps fun w hw =>
    wp_readSock hw (fun e _ er => hw.call (by simp) ((hw.now.delivered e).same rfl rfl))
      fun e _ pkt => hw.call (by simp) ((hw.now.delivered e).same rfl rfl)
  have hwrite : ∀ data, Keeps E (Tells Signal.all) (writeMaster data) := fun data w hw =>
    wp_writeMaster hw
      (fun e _ er _ => hw.call (by simp) ((hw.now.delivered e).same rfl rfl))
      fun e _ k _ => hw.call (by simp) (hw.now.delivered e)
  have hback : ∀ data, Telling E (writeBack data) := by
    intro data
    unfold writeBack
    exact .iter (fun _ h => h.polls) (fun _ => .bind (telling_of_keeps (keeps_writen hwrite data))
      fun _ => .ite (.bind (telling_failed 1) fun _ => .pure) .pure) ()
  have hreceived : ∀ i, Telling E (socketReceived i) := by
    intro i
    unfold socketReceived
    refine .bind .get fun _ => .ite (.bind (telling_setLoc _) fun _ => hback _) (.ite ?_ .pure)
    exact telling_of_keeps (keeps_assign_tells (fun _ => rfl) fun _ => rfl)
  unfold readSocketPart
  refine .bind .get fun _ => .ite (.bind .get fun _ => .bind (hread _) fun i => ?_) .pure
  exact .ite (hreceived _) (.ite (telling_setDone 9) (telling_failed 10))

theorem telling_label {k : Event} (hk : ∀ a, k ≠ .poll a) : Telling E (label k) :=
  fun _ hw => wp_label (hw.call hk hw.now)

theorem telling_forwardPart : Telling E forwardPart := by
  have hmodify : ∀ {f : Session → Session}, (∀ s, (f s).flags = s.flags) →
      (∀ s, (f s).sys.pipe = s.sys.pipe) → Telling E (modify f) := fun hf hp =>
    telling_of_keeps (keeps_modify_tells hf hp)
  unfold forwardPart
  refine .bind (telling_label (by simp)) fun _ => .bind .get fun _ => .ite (.ite ?_ ?_) .pure
  · exact hmodify (fun _ => rfl) fun _ => rfl
  · refine .bind (hmodify (fun _ => rfl) fun _ => rfl) fun _ => .bind .get fun _ =>
      .bind (telling_writensockint _ _) fun r => hmodify (fun _ => rfl) fun _ => rfl

/-- **The loop of `do_copy` leaves no flag without its byte where it waits**, when it starts with
none. -/
theorem telling_doCopyLoop : Telling E doCopyLoop := by
  have hround : Telling E doCopyRound := by
    unfold doCopyRound
    refine .bind telling_pollPart fun c => ?_
    cases c with
    | leave => exact .pure
    | next =>
      refine .bind telling_signalPart fun _ => .bind telling_reventsPart fun c => ?_
      cases c with
      | leave => exact .pure
      | next =>
        exact .bind telling_readMasterPart fun _ => .bind telling_readSocketPart fun _ =>
          .bind telling_forwardPart fun _ => .pure
  unfold doCopyLoop
  refine .bind (.iter (fun _ h => h.polls) (fun _ => .bind (telling_label (by simp)) fun _ =>
    .bind .get fun _ => .ite .pure (.bind hround fun c => ?_)) ()) fun _ => telling_label (by simp)
  cases c with
  | leave => exact .pure
  | next => exact .pure

end Tells

end PadSvr
