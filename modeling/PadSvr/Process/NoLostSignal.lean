import PadSvr.Process.Serve
import PadSvr.Session.Signalled

/-!
# Signals of a session

`chil_setsignal` replaces the handlers of the accepting process one after the other, and creates
the pipe they write to at last. What comes before raises its flag without a byte, and the loop of
`do_copy` can wait for good with the flag up. What comes later is never lost.

## Main definitions

* `serveTrace behind es p`: a run of a session from `sig_unblock` on
* `Told`: the loop waits with every flag that is up told by a byte in the pipe
* `PipeClear`: the pipe is created with no flag up

## Main results

* `serve_told`: no signal is lost when the pipe is created with no flag up
-/

namespace PadSvr

open Scripted Scripted.Prog

/-- A session at `sig_unblock`, with the handlers it has inherited. -/
def serveStart (p : Process) : Process :=
  { p with role := .session, tab := bossTable, pipeOpen := false }

/-- The trace of a session from `sig_unblock` on. -/
def serveTrace (behind : List X29Par) (es : List PEnv) (p : Process) : PTrace :=
  (serve behind es ⟨serveStart p, []⟩).1.trace

/-- The `poll` of the loop of `do_copy`. -/
def PEvent.isPoll : PEvent → Bool
  | .sys (.poll _) => true
  | _ => false

/-- The creation of the pipe. -/
def PEvent.isPipe : PEvent → Bool
  | .pipe => true
  | _ => false

/-- Where `do_copy` waits without limit, each flag that is up has a byte in the pipe. -/
def Told (_ : PTrace) (k : PEvent) (p : Process) : Prop :=
  k.isPoll = true → ∀ g, p.sess.flags.up g = true → 0 < p.sess.sys.pipe

/-- Where the pipe is created, no flag is up. -/
def PipeClear (_ : PTrace) (k : PEvent) (p : Process) : Prop :=
  k.isPipe = true → ∀ g, p.sess.flags.up g = false

instance (t : PTrace) (k : PEvent) (p : Process) : Decidable (Told t k p) :=
  inferInstanceAs (Decidable (_ → _))

instance (t : PTrace) (k : PEvent) (p : Process) : Decidable (PipeClear t k p) :=
  inferInstanceAs (Decidable (_ → _))

/-! ## The programs that make no such call -/

/-- No call of the run is the `poll` of the loop. -/
def Unpolled (w : SRun) : Prop := ∀ x ∈ w.trace, ∀ a, x.1 ≠ .poll a

section Unpolled

variable {α : Type} {E : Env → Prop} {w : SRun}

theorem keeps_stmt_unpolled {f : Env → Session → Session × α} : Keeps E Unpolled (stmt f) :=
  fun _ hw => wp_stmt hw fun _ _ => hw

theorem keeps_modify_unpolled {f : Session → Session} : Keeps E Unpolled (modify f) :=
  fun _ hw => wp_modify hw

theorem keeps_call_unpolled {f : Env → Session → Option (Event × Session × α)}
    (hf : ∀ e s r, f e s = some r → ∀ a, r.1 ≠ .poll a) : Keeps E Unpolled (call f) := by
  intro w hw
  refine wp_call hw fun e _ r hr x hx a => ?_
  rcases List.mem_append.mp hx with hx | hx
  · exact hw x hx a
  · rw [List.mem_singleton.mp hx]
    exact hf e _ r hr a

theorem keeps_reload_unpolled : Keeps E Unpolled reload := by
  refine keeps_call_unpolled fun e s r hr a => ?_
  split at hr
  · cases hr
  · cases hr
    simp

theorem keeps_writeSock_unpolled (pkt : List UInt8) : Keeps E Unpolled (writeSock pkt) := by
  refine keeps_call_unpolled fun e s r hr a => ?_
  split at hr <;> cases hr <;> simp

theorem keeps_readPipe_unpolled (n : ℕ) : Keeps E Unpolled (readPipe n) := by
  refine keeps_call_unpolled fun e s r hr a => ?_
  split at hr
  · cases hr
    simp
  · split at hr
    · cases hr
    · cases hr
      simp

theorem keeps_readSock_unpolled (n : ℕ) : Keeps E Unpolled (readSock n) := by
  refine keeps_call_unpolled fun e s r hr a => ?_
  split at hr <;> cases hr <;> simp

theorem keeps_closingPoll_unpolled : Keeps E Unpolled closingPoll := by
  refine keeps_call_unpolled fun e s r hr a => ?_
  split at hr <;> cases hr <;> simp

theorem keeps_x29DoInter_unpolled : Keeps E Unpolled x29DoInter := by
  have hstop : Keeps E Unpolled (Prog.stop : SProg ℤ) := fun _ hw => wp_stop hw
  have hflag : ∀ up ret ret₀, Keeps E Unpolled (onFlag up interHup ret ret₀) := fun _ _ _ =>
    .bind keeps_stmt_unpolled fun _ => .ite (.bind (.bind keeps_reload_unpolled fun _ =>
      keeps_stmt_unpolled) fun _ => .pure) .pure
  unfold x29DoInter
  exact .bind (hflag _ _ _) fun _ => .bind keeps_stmt_unpolled fun _ =>
    .ite (.bind keeps_stmt_unpolled fun _ => hstop) (.bind keeps_stmt_unpolled fun _ =>
      .ite (.bind keeps_stmt_unpolled fun _ => hstop) .pure)

theorem keeps_controlWrite_unpolled (msg : List UInt8) : Keeps E Unpolled (controlWrite msg) :=
  restores_writensockint (fun _ h => h) keeps_writeSock_unpolled keeps_x29DoInter_unpolled .pure _ _

theorem keeps_x29SetDefault_unpolled (behind : List X29Par) :
    Keeps E Unpolled (x29SetDefault behind) := by
  unfold x29SetDefault
  refine .bind .get fun s => ?_
  split
  · exact fun _ hw => wp_stop hw
  · exact .pure
  · exact .bind (keeps_controlWrite_unpolled _) fun _ => .pure

theorem keeps_setDone_unpolled (n : ℕ) : Keeps E Unpolled (setDone n) := keeps_modify_unpolled

theorem keeps_interChld_unpolled : Keeps E Unpolled interChld :=
  .bind keeps_stmt_unpolled fun _ => keeps_stmt_unpolled

theorem keeps_closingSignals_unpolled (pipe : Revents) {ended : SProg Unit}
    (h : Keeps E Unpolled ended) : Keeps E Unpolled (closingSignals pipe ended) := by
  have hup : ∀ up {handle : SProg Unit}, Keeps E Unpolled handle →
      Keeps E Unpolled (onUp up handle) := fun _ _ hh =>
    .bind keeps_stmt_unpolled fun _ => .ite hh .pure
  unfold closingSignals
  exact .ite (.bind .get fun _ => .bind (keeps_readPipe_unpolled _) fun _ =>
    .bind (hup _ keeps_stmt_unpolled) fun _ => .bind (hup _ keeps_stmt_unpolled) fun _ => hup _ h)
    .pure

theorem keeps_waitNet_unpolled (buf : List UInt8) : Keeps E Unpolled (waitNet buf) := by
  have hround : Keeps E Unpolled waitNetRound := by
    unfold waitNetRound
    refine .bind .get fun _ => .ite .pure (.bind keeps_closingPoll_unpolled fun _ =>
      .bind .get fun _ => .ite (.bind (keeps_setDone_unpolled 11) fun _ => .pure) ?_)
    refine .bind (keeps_closingSignals_unpolled _ keeps_interChld_unpolled) fun _ =>
      .ite (.bind (keeps_setDone_unpolled 1) fun _ => .pure) (.ite ?_ .pure)
    exact .bind .get fun _ => .bind (keeps_readSock_unpolled _) fun _ => .bind .get fun _ =>
      .ite .pure (.bind (keeps_setDone_unpolled 1) fun _ => .pure)
  unfold waitNet setNetTimeout resetTimer assign
  exact .bind keeps_modify_unpolled fun _ => .bind keeps_stmt_unpolled fun _ =>
    .bind (.iter (fun _ => hround) _) fun _ => keeps_stmt_unpolled

theorem keeps_waitExitstatus_unpolled (buf : List UInt8) :
    Keeps E Unpolled (waitExitstatus buf) := by
  have hround : Keeps E Unpolled waitExitstatusRound := by
    unfold waitExitstatusRound
    refine .bind .get fun _ => .ite .pure (.bind keeps_closingPoll_unpolled fun _ =>
      .bind .get fun _ => .ite (.bind (keeps_setDone_unpolled 11) fun _ => .pure) ?_)
    exact .bind (keeps_closingSignals_unpolled _ (.bind keeps_interChld_unpolled fun _ =>
      keeps_setDone_unpolled 1)) fun _ => .pure
  unfold waitExitstatus setNetTimeout resetTimer assign
  exact .bind .get fun _ => .ite (.bind keeps_modify_unpolled fun _ =>
    .bind keeps_stmt_unpolled fun _ =>
    .bind (.iter (fun _ => hround) _) fun _ => keeps_stmt_unpolled) .pure

theorem keeps_closeLine_unpolled (buf : List UInt8) : Keeps E Unpolled (closeLine buf) := by
  have hnet := keeps_waitNet_unpolled (E := E) buf
  have hclose : Keeps E Unpolled closeCall := keeps_stmt_unpolled
  have hclear : Keeps E Unpolled x29InvClear := .bind (keeps_controlWrite_unpolled _) fun _ => .pure
  unfold closeLine
  exact .bind .get fun _ => .ite hclose (.ite (.bind hclear fun _ => .bind hnet fun _ => hclose)
    (.ite (.bind hnet fun _ => hclose) .pure))

end Unpolled

/-! ## The process -/

/-- Nothing is lost, unless a flag was up where the pipe was created. -/
def Lossless (w : PRun) : Prop := Always PipeClear w.trace → Always Told w.trace

section Process

variable {α : Type} {w : PRun}

theorem keeps_pstmt_lossless {f : PEnv → Process → Process × α} :
    Keeps anyEntry Lossless (pstmt f) :=
  fun _ hw => wp_pstmt hw fun _ _ => hw

theorem keeps_modify_lossless {f : Process → Process} : Keeps anyEntry Lossless (modify f) :=
  fun _ hw => wp_modify hw

/-- A call that is no `poll`. -/
theorem Lossless.call (h : Lossless w) {k : PEvent} (hk : k.isPoll = false) (p p' : Process) :
    Lossless ⟨p', w.trace ++ [(k, p)]⟩ := by
  intro hclear
  refine always_concat.mpr ⟨h (always_of_append hclear), fun hpoll => ?_⟩
  simp [hk] at hpoll

theorem keeps_pcall_lossless {f : PEnv → Process → Option (PEvent × Process × α)}
    (hf : ∀ e p r, f e p = some r → r.1.isPoll = false) :
    Keeps anyEntry Lossless (pcall f) := fun _ hw =>
  wp_pcall hw fun e _ r hr => hw.call (hf e _ r hr) _ _

/-- A part that does not make the `poll` of the loop. -/
theorem Lossless.after (h : Lossless w) {w₁ : SRun} (hw₁ : Unpolled w₁) :
    Lossless (after w w₁) := by
  intro hclear
  refine always_append (h (always_of_append hclear)) fun x hx _ => ?_
  obtain ⟨⟨k, s⟩, hy, rfl⟩ := List.mem_map.mp hx
  intro hpoll
  cases k with
  | poll a => exact absurd rfl (hw₁ _ hy a)
  | _ => cases hpoll

theorem keeps_part_lossless {m : SProg α} (hm : Keeps (fun _ => True) Unpolled m) :
    Keeps anyEntry Lossless (part m) := fun w hw =>
  wp_part (hm ⟨w.st.sess, []⟩ (by simp [Unpolled])) (fun _ _ => trivial) (fun _ h => hw.after h)
    fun _ _ h => hw.after h

theorem keeps_sendPtsAddrCall_lossless (pts addr : List Char) :
    Keeps anyEntry Lossless (sendPtsAddrCall pts addr) := by
  refine keeps_pcall_lossless fun e p r hr => ?_
  cases hr
  rfl

theorem keeps_exitCalls_lossless : Keeps anyEntry Lossless exitCalls := by
  unfold exitCalls
  refine .bind .get fun p => .ite (keeps_pcall_lossless fun e p r hr => ?_)
    (.ite (keeps_sendPtsAddrCall_lossless _ _) .pure)
  cases hr
  rfl

/-- `Exit` does not return. -/
theorem wp_exit_lossless (kod : ℕ) {Q : α → PRun → Prop} (hw : Lossless w) :
    wp anyEntry Lossless (exit kod) Q w :=
  wp_seq (keeps_exitCalls_lossless w hw) fun _ w' h =>
    wp_bind (wp_label (wp_stop (h.call rfl w'.st w'.st)))

theorem keeps_require_lossless : Keeps anyEntry Lossless require :=
  restores_require (fun _ h => wp_exit_lossless 1 h) keeps_pstmt_lossless

/-- A part, and what it makes of the assertion before it. -/
theorem wp_orExit_lossless {m : SProg α} {Q : α → PRun → Prop}
    (hm : wp anyEntry Lossless (part m) Q w) : wp anyEntry Lossless (orExit m) Q w :=
  wp_orExit hm (fun _ h => h) fun kod _ h => wp_exit_lossless kod h

theorem keeps_orExit_lossless {m : SProg α} (hm : Keeps (fun _ => True) Unpolled m) :
    Keeps anyEntry Lossless (orExit m) := fun w hw =>
  wp_orExit_lossless (keeps_part_lossless hm w hw)

theorem keeps_login_lossless : Keeps anyEntry Lossless login := by
  unfold login
  refine .bind keeps_modify_lossless fun _ => .bind keeps_require_lossless fun _ =>
    .bind keeps_require_lossless fun _ => .bind keeps_require_lossless fun _ =>
    .bind keeps_require_lossless fun _ w hw => ?_
  exact wp_bind (wp_label (wp_stop (hw.call rfl w.st w.st)))

/-! ## The pipe -/

theorem settled_chilTable {p : Process} (ht : p.tab = chilTable) : p.Settled :=
  ⟨ht ▸ proper_chilTable, fun _ _ _ hg => chilTable_pipes (ht ▸ hg)⟩

/-- Before `chil_setsignal`. -/
structure Early (w : PRun) : Prop where
  lossless : Lossless w
  tab : w.st.tab = bossTable

/-- From the creation of the pipe on, to the loop. -/
structure Piped (w : PRun) : Prop where
  lossless : Lossless w
  tab : w.st.tab = chilTable
  created : w.st.pipeOpen = true
  told : Always PipeClear w.trace → w.st.sess.Signalled Signal.all

theorem Piped.hold_self (h : Piped w) : w.st = w.st.hold w.st.sess := by
  rw [Process.hold, if_pos h.created]

/-- What happens to the process writes a byte for each flag. -/
theorem Piped.meet (h : Piped w) (e : PEnv) : Piped ⟨w.st.meet e, w.trace⟩ where
  lossless := h.lossless
  tab := by simpa using h.tab
  created := by
    rw [meet_frame]
    exact h.created
  told := by
    intro hclear
    have hd := (h.told hclear).delivered (e.entry w.st)
    have hmeet := meet_hold (settled_chilTable h.tab) e w.st.sess
    rw [← h.hold_self] at hmeet
    rw [hmeet]
    simpa [Process.hold, h.created] using hd

theorem restores_meet_piped {f : PEnv → Process → Process × α} (hf : ∀ e p, (f e p).1 = p) :
    Restores anyEntry Lossless Piped (pstmt f) := fun w hw =>
  wp_pstmt hw.lossless fun e _ => by
    rw [hf]
    exact hw.meet e

theorem restores_require_piped : Restores anyEntry Lossless Piped require :=
  restores_require (fun _ h => wp_exit_lossless 1 h.lossless) (restores_meet_piped fun _ _ => rfl)

theorem restores_malloc_piped (n : ℕ) : Restores anyEntry Lossless Piped (malloc n) :=
  restores_malloc n (fun _ h => wp_exit_lossless 1 h.lossless) (restores_meet_piped fun _ _ => rfl)

/-- The handlers are replaced one by one. -/
theorem wp_install (as : List (Signo × Handler)) (hw : Lossless w) :
    wp anyEntry Lossless (install as)
      (fun _ w' => Lossless w' ∧ w'.st.tab = as.foldl sigaction w.st.tab) w := by
  induction as generalizing w with
  | nil => exact wp_pure ⟨hw, rfl⟩
  | cons a as ih =>
    refine wp_bind (wp_pstmt hw fun e _ => ?_)
    have hrest := ih (w := ⟨{ w.st.meet e with tab := sigaction (w.st.meet e).tab a }, w.trace⟩) hw
    refine wp_mono hrest (fun _ h => h) fun _ w' h => ⟨h.1, ?_⟩
    rw [h.2, List.foldl_cons, meet_tab]

theorem wp_chilSetsignal (hw : Early w) :
    wp anyEntry Lossless chilSetsignal (fun _ => Piped) w := by
  unfold chilSetsignal
  refine wp_seq (wp_install chilActions hw.lossless) fun _ w₁ h₁ => ?_
  obtain ⟨hl, htab⟩ := h₁
  rw [hw.tab] at htab
  refine wp_bind (wp_pcall hl fun e _ r hr => ?_)
  split at hr
  · cases hr
    refine wp_pure ⟨hl.call rfl _ _, (meet_tab e w₁.st).trans htab, rfl, fun hclear g _ hup => ?_⟩
    -- the flags are those the pipe is created with
    have hdown := (always_concat.mp hclear).2 rfl g
    simp [hdown] at hup
  · cases hr
    exact wp_exit_lossless 1 (hl.call rfl _ _)

/-- A part that assigns variables of the session. -/
theorem restores_modify_piped {f : Session → Session} (hf : ∀ s, (f s).flags = s.flags)
    (hp : ∀ s, (f s).sys.pipe = s.sys.pipe) :
    Restores anyEntry Lossless Piped (orExit (modify f)) := by
  intro w hw
  have hmod : wp (fun _ => True) (fun _ : SRun => False) (modify f : SProg Unit)
      (fun _ w₁ => w₁ = ⟨f w.st.sess, []⟩) ⟨w.st.sess, []⟩ := wp_modify rfl
  refine wp_orExit_lossless
    (wp_part hmod (fun _ _ => trivial) (fun _ h => h.elim) fun _ w₁ h₁ => ?_)
  subst h₁
  have hrun : after w ⟨f w.st.sess, []⟩ = ⟨w.st.hold (f w.st.sess), w.trace⟩ := by
    simp [after, Run.under]
  rw [hrun]
  refine ⟨hw.lossless, hw.tab, hw.created, fun hclear => ?_⟩
  rw [Process.hold, if_pos hw.created]
  exact (hw.told hclear).same (hf _) (hp _)

/-- The loop: told at its start, it is told wherever it waits. -/
theorem wp_doCopyLoop_lossless (hw : Piped w) :
    wp anyEntry Lossless (part doCopyLoop) (fun _ => Lossless) w := by
  by_cases hclear : Always PipeClear w.trace
  · have hend : ∀ w₁, PollsTold w₁ → Lossless (after w w₁) := by
      intro w₁ h₁ _
      refine always_append (hw.lossless hclear) fun x hx _ => ?_
      obtain ⟨⟨k, s⟩, hy, rfl⟩ := List.mem_map.mp hx
      intro hpoll g hup
      rw [Process.hold, if_pos hw.created] at hup ⊢
      cases k with
      | poll a => exact h₁ _ hy a rfl g g.mem_all hup
      | _ => cases hpoll
    have hstart : Tells Signal.all ⟨w.st.sess, []⟩ := ⟨hw.told hclear, by simp⟩
    exact wp_part (telling_doCopyLoop (E := fun _ => True) _ hstart) (fun _ _ => trivial) hend
      fun _ w₁ h₁ => hend w₁ h₁.polls
  · -- a flag was up already
    have hend : ∀ w₁, Lossless (after w w₁) := fun w₁ h => absurd (always_of_append h) hclear
    exact wp_part (wp_true _) (fun _ _ => trivial) (fun w₁ _ => hend w₁) fun _ w₁ _ => hend w₁

theorem wp_doCopy_lossless (hw : Piped w) :
    wp anyEntry Lossless doCopy (fun _ => Lossless) w := by
  have hassign : ∀ {f : Session → Session}, Keeps (fun _ => True) Unpolled (assign f) := by
    unfold assign
    exact keeps_stmt_unpolled
  unfold doCopy
  refine wp_bind (wp_get ?_)
  refine wp_seq (restores_malloc_piped _ w hw) fun bufn w h => ?_
  refine wp_seq (restores_malloc_piped _ w h) fun bufd w h => ?_
  refine wp_seq (restores_modify_piped (f := (doCopyStart · bufn bufd)) (fun _ => rfl)
    (fun _ => rfl) w h) fun _ w h => ?_
  refine wp_seq (restores_require_piped w h) fun _ w h => ?_
  refine wp_seq (restores_require_piped w h) fun _ w h => ?_
  refine wp_seq (wp_orExit_lossless (wp_doCopyLoop_lossless h)) fun _ w h => ?_
  -- behind the loop there is no `poll` that could wait
  refine wp_seq (keeps_orExit_lossless hassign w h) fun _ w h => ?_
  refine wp_seq (keeps_orExit_lossless hassign w h) fun _ w h => ?_
  refine wp_seq (keeps_orExit_lossless keeps_stmt_unpolled w h) fun _ w h => ?_
  refine wp_seq (keeps_sendPtsAddrCall_lossless _ _ w h) fun _ w h => ?_
  refine wp_seq (keeps_modify_lossless w h) fun _ w h => ?_
  refine wp_seq (keeps_pstmt_lossless w h) fun x w h => ?_
  refine wp_seq (keeps_orExit_lossless (keeps_closeLine_unpolled _) w h) fun _ w h => ?_
  exact keeps_orExit_lossless (keeps_waitExitstatus_unpolled _) w h

theorem wp_serve_lossless (behind : List X29Par) (hw : Early w) :
    wp anyEntry Lossless (serve behind) (fun _ => Lossless) w := by
  have hmsg : wp anyEntry Lossless (part (x29SetDefault behind)) (fun _ => Early)
      ⟨{ w.st with blocked := false }, w.trace⟩ := by
    refine wp_part (keeps_x29SetDefault_unpolled (E := fun _ => True) behind ⟨w.st.sess, []⟩
      (by simp [Unpolled]))
      (fun _ _ => trivial) (fun w₁ h => ?_) fun _ w₁ h => ⟨?_, hw.tab⟩
    · exact Lossless.after (w := ⟨{ w.st with blocked := false }, w.trace⟩) hw.lossless h
    · exact Lossless.after (w := ⟨{ w.st with blocked := false }, w.trace⟩) hw.lossless h
  unfold serve
  refine wp_bind (wp_modify (wp_seq (wp_orExit_lossless hmsg) fun _ w₁ h₁ => ?_))
  refine wp_bind (wp_pcall h₁.lossless fun e _ r hr => ?_)
  have hl : Lossless ⟨r.2.1, w₁.trace ++ [(r.1, w₁.st.meet e)]⟩ := by
    refine h₁.lossless.call ?_ _ _
    split at hr <;> cases hr <;> rfl
  rcases hf : e.fork with _ | pid | _
  · simp only [hf, Option.some.injEq] at hr
    subst hr
    exact wp_exit_lossless 1 hl
  · simp only [hf, Option.some.injEq] at hr
    subst hr
    exact keeps_login_lossless _ hl
  · simp only [hf, Option.some.injEq] at hr
    subst hr
    refine wp_seq (wp_chilSetsignal ⟨hl, (meet_tab e w₁.st).trans h₁.tab⟩) fun _ w₂ h₂ => ?_
    exact wp_seq (wp_doCopy_lossless h₂) fun _ w₃ h₃ =>
      wp_exit_lossless 0 h₃

end Process

/-- **No signal is lost** by a session whose pipe is created with no flag up. -/
theorem serve_told {behind : List X29Par} {es : List PEnv} {p : Process}
    (hclear : Always PipeClear (serveTrace behind es p)) :
    Always Told (serveTrace behind es p) := by
  have hstart : Early ⟨serveStart p, []⟩ := ⟨fun _ => always_nil, rfl⟩
  exact always_of_wp (wp_serve_lossless behind hstart) (fun _ _ h => h) (fun _ _ => trivial) hclear

/-- A session process with buffers of eight bytes. -/
def smallProcess : Process where
  role := .session
  pid := 2
  tab := bossTable
  sess := .fresh 1 8

/-- `SIGHUP` arrives once the statements before it are done, and nothing else happens. -/
def hupAfter (n : ℕ) : List PEnv :=
  List.replicate n ({} : PEnv) ++
    { before := [.signal .sighup] } :: List.replicate (20 - n) ({} : PEnv)

/-- `SIGHUP` arrives after the pipe is created, and is told. -/
theorem serve_told_hup :
    Always Told (serveTrace [⟨0, 0⟩] (hupAfter 11) smallProcess) ∧
      (serveTrace [⟨0, 0⟩] (hupAfter 11) smallProcess).any fun x =>
        x.1.isPoll && x.2.sess.flags.hup :=
  ⟨serve_told (by decide +kernel), by decide +kernel⟩

/-- `SIGHUP` arrives before the fork of the login process: the loop waits with its flag up and
nothing in the pipe. -/
theorem not_serve_told :
    ¬ Always Told (serveTrace [⟨0, 0⟩] (hupAfter 1) smallProcess) := by decide +kernel

end PadSvr
