import PadSvr.Process.NoLostSignal

/-!
# The phases of a session process

From `sig_unblock` on, a session process sends the Set message, installs its handlers, runs the loop
of `do_copy`, and closes the line. Between these parts it makes calls of its own, which touch
nothing that the parts work on. So a property of all of it is one of the parts, as long as it does
not mind the calls in between.

## Main definitions

* `Similar p p'`: nothing has happened to the process but signals, timers and typing
* `Stays Similar K`, `Passes Similar ks K`: the assertion does not mind that, nor the calls `ks` of
  the process
* `ServePhases`: the assertions around the parts of a session

## Main results

* `similar_meet`: what happens before a statement leaves a process similar
* `ServePhases.wp_serve`: the rule of `serve`
-/

namespace PadSvr

open Scripted Scripted.Prog

/-! ## What happens between the parts -/

/-- The flags, the timers, the pipe and what has been typed may differ, and all that is not the
session's. A process may have become the login process. -/
structure SameSession (p p' : Process) : Prop where
  sess : p'.sess = { p.sess with flags := p'.sess.flags, sys := p'.sess.sys }
  role : p'.role = p.role ∨ p'.role = .login

/-- And it is the same process, with the same handlers. -/
structure Similar (p p' : Process) : Prop where
  sess : p'.sess = { p.sess with flags := p'.sess.flags, sys := p'.sess.sys }
  role : p'.role = p.role
  tab : p'.tab = p.tab
  pipeOpen : p'.pipeOpen = p.pipeOpen

namespace Similar

variable {p p' p'' : Process}

theorem refl (p : Process) : Similar p p := ⟨rfl, rfl, rfl, rfl⟩

theorem trans (h : Similar p p') (h' : Similar p' p'') : Similar p p'' where
  sess := by rw [h'.sess, h.sess]
  role := h'.role.trans h.role
  tab := h'.tab.trans h.tab
  pipeOpen := h'.pipeOpen.trans h.pipeOpen

theorem sameSession (h : Similar p p') : SameSession p p' := ⟨h.sess, Or.inl h.role⟩

theorem cfg (h : Similar p p') : p'.sess.cfg = p.sess.cfg := by rw [h.sess]

end Similar

/-- A handler, a timer or a key leaves the process similar. -/
theorem similar_run (i : Incident) (p : Process) : Similar p (i.run p) := by
  have hhandler : ∀ (h : Handler) (p : Process), Similar p (h.run p) := fun _ _ =>
    ⟨rfl, rfl, rfl, rfl⟩
  cases i with
  | signal g =>
    rcases ht : p.tab g with _ | h
    · simpa [Incident.run, ht] using Similar.refl p
    · simpa [Incident.run, ht] using hhandler h p
  | rtimer =>
    rcases ht : p.tab .sigrtmin with _ | h
    · simpa [Incident.run, ht] using Similar.refl p
    · by_cases hr : p.sess.sys.rtimer = true
      · have hoff : Similar p { p with sess := p.sess.rtimerOff } :=
        ⟨rfl, rfl, rfl, rfl⟩
        simpa [Incident.run, ht, hr] using hoff.trans (hhandler h _)
      · simpa [Incident.run, ht, hr] using Similar.refl p
  | wtimer =>
    rcases ht : p.tab .sigalrm with _ | h
    · simpa [Incident.run, ht] using Similar.refl p
    · by_cases hw : p.sess.sys.wtimer.isSome = true
      · have hoff : Similar p { p with sess := p.sess.wtimerOff } :=
        ⟨rfl, rfl, rfl, rfl⟩
        simpa [Incident.run, ht, hw] using hoff.trans (hhandler h _)
      · simpa [Incident.run, ht, hw] using Similar.refl p
  | typed bytes => exact ⟨(interfered_run (.typed bytes) p.sess).frame, rfl, rfl, rfl⟩
  | hangup => exact ⟨(interfered_run .hangup p.sess).frame, rfl, rfl, rfl⟩

/-- **What happens before a statement** leaves the process similar. -/
theorem similar_meet (e : PEnv) (p : Process) : Similar p (p.meet e) := by
  have key : ∀ (is : List Incident) (p : Process), Similar p (is.foldl (fun p i => i.run p) p) := by
    intro is
    induction is with
    | nil => exact .refl
    | cons i is ih => exact fun p => (similar_run i p).trans (ih (i.run p))
  unfold Process.meet
  split
  · exact .refl p
  · exact key e.before p

/-- The settings of a process are those of its session. -/
theorem hold_cfg (p : Process) (s : Session) : (p.hold s).sess.cfg = s.cfg := by
  unfold Process.hold
  split <;> rfl

/-- The calls that `Exit` and the end of the loop make. -/
def PEvent.isLeaving : PEvent → Bool
  | .clearPid | .sendPtsAddr .. | .exit _ => true
  | _ => false

/-- The calls that the process makes before the loop. -/
def PEvent.isStarting : PEvent → Bool
  | .pipe | .fork | .exec => true
  | _ => false

/-- The assertion does not mind a change of the process within `r`. -/
def Stays (r : Process → Process → Prop) (K : PRun → Prop) : Prop :=
  ∀ ⦃w : PRun⦄ ⦃p' : Process⦄, K w → r w.st p' → K ⟨p', w.trace⟩

/-- Nor the calls `ks` of the process. -/
def Passes (r : Process → Process → Prop) (ks : PEvent → Bool) (K : PRun → Prop) : Prop :=
  ∀ ⦃w : PRun⦄ ⦃k : PEvent⦄ ⦃p p' : Process⦄, K w → ks k = true → r w.st p → r w.st p' →
    K ⟨p', w.trace ++ [(k, p)]⟩

section Rules

variable {α : Type} {E : PEnv → Prop} {I K : PRun → Prop} {w : PRun}

/-- `Exit`. -/
theorem wp_exit_passes (hI : Passes Similar PEvent.isLeaving I) (kod : ℕ) {Q : α → PRun → Prop}
    (h : I w) :
    wp E I (exit kod) Q w := by
  have hexit : ∀ w', I w' →
      wp E I (label (.exit kod) >>= fun _ => (Prog.stop : PProg α)) Q w' := fun w' h' =>
    wp_bind (wp_label (wp_stop (hI h' rfl (.refl w'.st) (.refl w'.st))))
  unfold exit exitCalls
  refine wp_bind (wp_bind (wp_get ?_))
  split
  · refine wp_pcall h fun e _ r hr => ?_
    cases hr
    exact hexit _ (hI h rfl (similar_meet e w.st) (similar_meet e w.st))
  · split
    · refine wp_pcall h fun e _ r hr => ?_
      cases hr
      exact hexit _ (hI h rfl (similar_meet e w.st)
        ((similar_meet e w.st).trans ⟨rfl, rfl, rfl, rfl⟩))
    · exact wp_pure (hexit w h)

variable (hK : Stays Similar K) (hKI : ∀ w, K w → I w) (hI : Passes Similar PEvent.isLeaving I)

include hK hKI in
theorem restores_pstmt_stays {f : PEnv → Process → Process × α}
    (hf : ∀ e p, Similar p (f e p).1) : Restores E I K (pstmt f) := fun w hw =>
  wp_pstmt (hKI w hw) fun e _ => hK hw ((similar_meet e w.st).trans (hf e _))

include hK hKI hI in
theorem restores_require_stays : Restores E I K require :=
  restores_require (fun w h => wp_exit_passes hI 1 (hKI w h))
    (restores_pstmt_stays hK hKI fun _ p => .refl p)

include hK hKI hI in
/-- A block of `n` bytes. -/
theorem wp_malloc_stays (n : ℕ) (h : K w) :
    wp E I (malloc n) (fun block w => K w ∧ block.length = n) w := by
  unfold malloc
  refine wp_bind (wp_pstmt (hKI w h) fun e _ => ?_)
  have hmeet := hK h (similar_meet e w.st)
  split
  · next block hb =>
    split at hb
    · cases hb
      exact wp_pure ⟨hmeet, List.takeD_length _ _ _⟩
    · cases hb
  · exact wp_exit_passes hI 1 (hKI _ hmeet)

include hK in
/-- A part that makes no call, and changes no more than what stays similar. -/
theorem stays_after (h : K w) {s : Session}
    (hs : s = { w.st.sess with flags := s.flags, sys := s.sys }) : K (after w ⟨s, []⟩) := by
  have hsim : Similar w.st (w.st.hold s) := by
    refine ⟨?_, rfl, rfl, rfl⟩
    unfold Process.hold
    split
    · exact hs
    · rw [hs]
  have hafter := hK h hsim
  rwa [← List.append_nil w.trace] at hafter

include hK hKI hI in
/-- A statement of the session that sets timers or closes something. -/
theorem restores_orExit_stays {f : Env → Session → Session × α}
    (hf : ∀ e s, (f e s).1 = { s with flags := (f e s).1.flags, sys := (f e s).1.sys }) :
    Restores E I K (orExit (stmt f)) := by
  intro w hw
  have hstmt : wp (fun _ => True) (fun w₁ => w₁ = ⟨w.st.sess, []⟩) (stmt f)
      (fun _ w₁ => ∃ e, w₁ = ⟨(f e (deliver e w.st.sess)).1, []⟩) ⟨w.st.sess, []⟩ :=
    wp_stmt rfl fun e _ => ⟨e, rfl⟩
  refine wp_orExit (J := K) (wp_part hstmt (fun _ _ => trivial) ?_ ?_) hKI
    fun kod w h => wp_exit_passes hI kod (hKI w h)
  · rintro _ rfl
    exact stays_after hK hw rfl
  · rintro _ _ ⟨e, rfl⟩
    refine stays_after hK hw ?_
    have hd := (interfered_deliver e w.st.sess).frame
    rw [hf, hd]

end Rules

section Handlers

variable {E : PEnv → Prop} {I A : PRun → Prop} {w : PRun} (hA : Stays SameSession A)
  (hcalls : Passes SameSession PEvent.isStarting A) (hAI : ∀ w, A w → I w)
  (hI : Passes Similar PEvent.isLeaving I)

include hA hAI in
/-- Calls of `sigaction`, for an assertion that does not look at the handlers. -/
theorem restores_install_stays (as : List (Signo × Handler)) : Restores E I A (install as) := by
  induction as with
  | nil => exact .pure
  | cons a as ih =>
    refine .bind (fun w hw => wp_pstmt (hAI w hw) fun e _ => ?_) fun _ => ih
    exact hA hw ⟨(similar_meet e w.st).sess, Or.inl (similar_meet e w.st).role⟩

include hA hcalls hAI hI in
/-- `chil_setsignal`, for an assertion that does not look at the pipe either. -/
theorem wp_chilSetsignal_stays (h : A w) : wp E I chilSetsignal (fun _ => A) w := by
  unfold chilSetsignal
  refine wp_seq (restores_install_stays hA hAI _ w h) fun _ w h => ?_
  refine wp_bind (wp_pcall (hAI w h) fun e _ r hr => ?_)
  split at hr
  · cases hr
    refine wp_pure (hcalls h rfl (similar_meet e w.st).sameSession ⟨?_, ?_⟩)
    · rw [(similar_meet e w.st).sess]
    · exact Or.inl (similar_meet e w.st).role
  · cases hr
    have hsame := (similar_meet e w.st).sameSession
    exact wp_exit_passes hI 1 (hAI _ (hcalls h rfl hsame hsame))

end Handlers

/-! ## A session -/

/-- The assertions around the parts of a session: `G` before the Set message and `A` behind it, `H`
with the handlers installed, `R` at the head of the loop, `B` where the loop has been left, `C`
where the line has been closed, and `I` everywhere. -/
structure ServePhases (E : PEnv → Prop) (behind : List X29Par) (I G A H R B C : PRun → Prop) :
    Prop where
  everywhere : Passes Similar PEvent.isLeaving I
  starting : Stays SameSession A ∧ Passes SameSession PEvent.isStarting A ∧ ∀ w, A w → I w
  handling : Stays Similar H ∧ ∀ w, H w → I w
  ready : Stays Similar R ∧ ∀ w, R w → I w
  left : Stays Similar B ∧ Passes Similar PEvent.isLeaving B ∧ ∀ w, B w → I w
  greet : ∀ w, G w → wp E I (orExit (x29SetDefault behind)) (fun _ => A) w
  handlers : ∀ w, A w → wp E I chilSetsignal (fun _ => H) w
  start : ∀ w bufn bufd, H w → bufd.length = w.st.sess.cfg.bufferSize.toNat + 1 →
    wp E I (orExit (modify (doCopyStart · bufn bufd))) (fun _ => R) w
  loop : ∀ w, R w → wp E I (orExit doCopyLoop) (fun _ => B) w
  close : ∀ w block, B w → wp E I (orExit (closeLine block)) (fun _ => C) w
  await : ∀ w block, C w → wp E I (orExit (waitExitstatus block)) (fun _ => I) w

namespace ServePhases

variable {E : PEnv → Prop} {behind : List X29Par} {I G A H R B C : PRun → Prop} {w : PRun}

/-- `do_copy`. -/
theorem doCopy (h : ServePhases E behind I G A H R B C) (hw : H w) :
    wp E I doCopy (fun _ => I) w := by
  obtain ⟨hH, hHI⟩ := h.handling
  obtain ⟨hR, hRI⟩ := h.ready
  obtain ⟨hB, hBcalls, hBI⟩ := h.left
  unfold PadSvr.doCopy
  refine wp_bind (wp_get ?_)
  -- the blocks are as large as the settings ask for, which stay the same meanwhile
  have hsized : Stays Similar fun w' => H w' ∧ w'.st.sess.cfg = w.st.sess.cfg := fun w' p' hw' hs =>
    ⟨hH hw'.1 hs, hs.cfg.trans hw'.2⟩
  refine wp_seq (wp_malloc_stays hsized (fun w' hw' => hHI w' hw'.1) h.everywhere _ ⟨hw, rfl⟩)
    fun bufn w₁ h₁ => ?_
  refine wp_seq (wp_malloc_stays hsized (fun w' hw' => hHI w' hw'.1) h.everywhere _ h₁.1)
    fun bufd w₂ h₂ => ?_
  refine wp_seq (h.start w₂ bufn bufd h₂.1.1 (by rw [h₂.1.2]; exact h₂.2)) fun _ w₃ h₃ => ?_
  have hrequire : Restores E I R require := restores_require_stays hR hRI h.everywhere
  refine wp_seq (hrequire w₃ h₃) fun _ w₄ h₄ => wp_seq (hrequire w₄ h₄) fun _ w₅ h₅ => ?_
  refine wp_seq (h.loop w₅ h₅) fun _ w₆ h₆ => ?_
  -- two timers are stopped, and the terminal is closed
  refine wp_seq (restores_orExit_stays hB hBI h.everywhere (fun _ _ => rfl) w₆ h₆) fun _ w₇ h₇ => ?_
  refine wp_seq (restores_orExit_stays hB hBI h.everywhere (fun _ _ => rfl) w₇ h₇) fun _ w₈ h₈ => ?_
  refine wp_seq (restores_orExit_stays hB hBI h.everywhere (fun _ _ => rfl) w₈ h₈) fun _ w₉ h₉ => ?_
  refine wp_bind (wp_pcall (hBI w₉ h₉) fun e _ r hr => wp_bind (wp_modify ?_))
  have hsent : B ⟨{ r.2.1 with flagPtsAddrSendStatus := 2 },
      w₉.trace ++ [(r.1, w₉.st.meet e)]⟩ := by
    cases hr
    exact hBcalls h₉ rfl (similar_meet e w₉.st)
      ((similar_meet e w₉.st).trans ⟨rfl, rfl, rfl, rfl⟩)
  refine wp_bind (wp_pstmt (hBI _ hsent) fun e' _ => ?_)
  refine wp_seq (h.close _ _ (hB hsent (similar_meet e' _))) fun _ w' h' => ?_
  exact h.await w' _ h'

/-- The login process. -/
theorem login (h : ServePhases E behind I G A H R B C) {Q : Unit → PRun → Prop} (hw : A w) :
    wp E I login Q w := by
  obtain ⟨hA, hAcalls, hAI⟩ := h.starting
  have hrequire : Restores E I A require :=
    restores_require_stays (fun _ _ hw hs => hA hw hs.sameSession) hAI h.everywhere
  unfold PadSvr.login
  refine wp_bind (wp_modify ?_)
  have hw : A ⟨{ w.st with flagIamchild := false }, w.trace⟩ := hA hw ⟨rfl, Or.inl rfl⟩
  refine wp_seq (hrequire _ hw) fun _ w₁ h₁ => wp_seq (hrequire w₁ h₁) fun _ w₂ h₂ => ?_
  refine wp_seq (hrequire w₂ h₂) fun _ w₃ h₃ => wp_seq (hrequire w₃ h₃) fun _ w₄ h₄ => ?_
  have hsame := (Similar.refl w₄.st).sameSession
  exact wp_bind (wp_label (wp_stop (hAI _ (hAcalls h₄ rfl hsame hsame))))

/-- **The phases of a session**: what its parts do under their assertions, `serve` does. -/
theorem wp_serve (h : ServePhases E behind I G A H R B C) {Q : Unit → PRun → Prop}
    (hw : G ⟨{ w.st with blocked := false }, w.trace⟩) : wp E I (serve behind) Q w := by
  obtain ⟨-, hAcalls, hAI⟩ := h.starting
  unfold serve
  refine wp_bind (wp_modify ?_)
  refine wp_seq (h.greet _ hw) fun _ w₁ h₁ => wp_bind (wp_pcall (hAI w₁ h₁) fun e _ r hr => ?_)
  have hmeet := (similar_meet e w₁.st).sameSession
  rcases hf : e.fork with _ | pid | _
  all_goals
    simp only [hf, Option.some.injEq] at hr
    subst hr
  · exact wp_exit_passes h.everywhere 1 (hAI _ (hAcalls h₁ rfl hmeet hmeet))
  · -- the login process leaves the program
    have hchild : A ⟨{ w₁.st.meet e with pid := pid, role := .login },
        w₁.trace ++ [(.fork, w₁.st.meet e)]⟩ :=
      hAcalls h₁ rfl hmeet ⟨hmeet.sess, Or.inr rfl⟩
    exact h.login hchild
  · refine wp_seq (h.handlers _ (hAcalls h₁ rfl hmeet hmeet)) fun _ w₂ h₂ => ?_
    exact wp_seq (h.doCopy h₂) fun _ w₃ h₃ => wp_exit_passes h.everywhere 0 h₃

end ServePhases

end PadSvr
