import PadSvr.Process.Path

/-!
# Who removes the pid file

`Exit` removes the pid file where `Flag_Iamboss` is up. The accepting process is forked with the
flag up, and lowers it before it can exit, so that a session that fails does not take the file of
the daemon with it.

## Main definitions

* `ClearsLast`: the monitor alone removes the file, in front of its end
* `Fit`: the flag of a process tells what it is

## Main results

* `wp_exit_fit`: `Exit` of a process whose flag tells what it is
* `daemon_clears`: so it is on every path through the tree of processes
-/

namespace PadSvr

open Scripted Scripted.Prog

def PEvent.isClear : PEvent → Bool
  | .clearPid => true
  | _ => false

def PEvent.isExit : PEvent → Bool
  | .exit _ => true
  | _ => false

/-- The pid file is removed by the monitor only, right before it ends by `Exit`, and each time it
does. -/
structure ClearsLast (cleared : Bool) (k : PEvent) (p : Process) : Prop where
  monitor : k.isClear = true → p.role = .monitor
  exit : k.isExit = true → (cleared = true ↔ p.role = .monitor)
  last : k.isExit = false → cleared = false

/-- For the calls of a process. -/
def ClearsProcess (t : PTrace) : PEvent → Process → Prop := ClearsLast (occurs PEvent.isClear t)

def DEvent.isClear : DEvent → Bool
  | .proc k => k.isClear
  | _ => false

/-- For the calls on a path. Those of the monitor and of the accepting process are no `Exit`. -/
def ClearsPath (t : DTrace) (k : DEvent) (d : Daemon) : Prop :=
  match k with
  | .proc k => ClearsLast (occurs DEvent.isClear t) k d.proc
  | _ => occurs DEvent.isClear t = false

/-! ## The statements of a process -/

section Process

variable {α : Type} {b : Bool} {w : PRun}

/-- Wherever it stands. -/
def AllClear (w : PRun) : Prop := Always ClearsProcess w.trace

/-- The flag of a process is `b`, which tells what it is, and the file is still there. -/
structure Fit (b : Bool) (w : PRun) : Prop where
  all : AllClear w
  uncleared : occurs PEvent.isClear w.trace = false
  flagIamboss : w.st.flagIamboss = b
  role : w.st.role = .monitor ↔ b = true

/-- The flag and the role may change together. -/
def SameBoss (p p' : Process) : Prop :=
  p'.flagIamboss = p.flagIamboss ∧ (p'.role = .monitor ↔ p.role = .monitor)

theorem sameBoss_meet (e : PEnv) (p : Process) : SameBoss p (p.meet e) := by
  rw [meet_frame]
  exact ⟨rfl, Iff.rfl⟩

theorem Fit.state (h : Fit b w) {p : Process} (hp : SameBoss w.st p) : Fit b ⟨p, w.trace⟩ :=
  ⟨h.all, h.uncleared, hp.1.trans h.flagIamboss, hp.2.trans h.role⟩

/-- A call that is no part of `Exit`. -/
theorem AllClear.call (h : AllClear w) (hu : occurs PEvent.isClear w.trace = false) {k : PEvent}
    (hk : k.isClear = false ∧ k.isExit = false) (p p' : Process) :
    AllClear ⟨p', w.trace ++ [(k, p)]⟩ :=
  always_concat.mpr ⟨h, ⟨fun hc => by simp [hk.1] at hc, fun he => by simp [hk.2] at he,
    fun _ => hu⟩⟩

theorem Fit.call (h : Fit b w) {k : PEvent} (hk : k.isClear = false ∧ k.isExit = false)
    {p p' : Process} (hp : SameBoss w.st p') : Fit b ⟨p', w.trace ++ [(k, p)]⟩ :=
  ⟨h.all.call h.uncleared hk p p', by simp [h.uncleared, hk.1], hp.1.trans h.flagIamboss,
    hp.2.trans h.role⟩

theorem restores_pstmt_fit {f : PEnv → Process → Process × α}
    (hf : ∀ e p, SameBoss p (f e p).1) : Restores anyEntry AllClear (Fit b) (pstmt f) := fun w hw =>
  wp_pstmt hw.all fun e _ => (hw.state (sameBoss_meet e w.st)).state (hf e _)

theorem restores_pcall_fit {f : PEnv → Process → Option (PEvent × Process × α)}
    (hf : ∀ e p r, f e p = some r → (r.1.isClear = false ∧ r.1.isExit = false) ∧ SameBoss p r.2.1) :
    Restores anyEntry AllClear (Fit b) (pcall f) := fun w hw =>
  wp_pcall hw.all fun e _ r hr => by
    obtain ⟨hk, hp⟩ := hf e _ r hr
    exact hw.call hk ⟨hp.1.trans (sameBoss_meet e w.st).1, hp.2.trans (sameBoss_meet e w.st).2⟩

theorem restores_modify_fit {f : Process → Process} (hf : ∀ p, SameBoss p (f p)) :
    Restores anyEntry AllClear (Fit b) (modify f : PProg Unit) := fun w hw =>
  wp_modify (hw.state (hf w.st))

theorem restores_sendPtsAddrCall_fit (pts addr : List Char) :
    Restores anyEntry AllClear (Fit b) (sendPtsAddrCall pts addr) :=
  restores_pcall_fit fun e p r hr => by
    cases hr
    exact ⟨⟨rfl, rfl⟩, rfl, Iff.rfl⟩

/-- **`Exit`** of a process whose flag tells what it is. -/
theorem wp_exit_fit (kod : ℕ) {Q : α → PRun → Prop} (h : Fit b w) :
    wp anyEntry AllClear (exit kod) Q w := by
  unfold PadSvr.exit exitCalls
  refine wp_bind (wp_bind (wp_get ?_))
  split
  · next hboss =>
    -- the monitor: the file goes, and then it
    have hrole := h.role.mpr (h.flagIamboss.symm.trans hboss)
    refine wp_pcall h.all fun e _ r hr => ?_
    have hmeet : (w.st.meet e).role = .monitor := (sameBoss_meet e w.st).2.mpr hrole
    cases hr
    have hclear : AllClear ⟨w.st.meet e, w.trace ++ [(.clearPid, w.st.meet e)]⟩ :=
      always_concat.mpr ⟨h.all, ⟨fun _ => hmeet, nofun, fun _ => h.uncleared⟩⟩
    refine wp_bind (wp_label (wp_stop (always_concat.mpr ⟨hclear, ⟨nofun, fun _ => ?_, nofun⟩⟩)))
    simp [hmeet, PEvent.isClear]
  · next hboss =>
    have hb : b = false := by simpa [h.flagIamboss] using hboss
    have hend : ∀ w, Fit b w → wp anyEntry AllClear (do
        label (.exit kod)
        Prog.stop : PProg α) Q w := by
      refine fun w h => wp_bind (wp_label (wp_stop (always_concat.mpr
        ⟨h.all, ⟨nofun, fun _ => ?_, nofun⟩⟩)))
      rw [h.uncleared, h.role, hb]
    split
    · exact wp_mono (restores_sendPtsAddrCall_fit _ _ w h) (fun _ h => h) fun _ => hend
    · exact wp_pure (hend w h)

theorem restores_require_fit : Restores anyEntry AllClear (Fit b) require :=
  restores_require (fun _ h => wp_exit_fit 1 h) (restores_pstmt_fit fun _ _ => ⟨rfl, Iff.rfl⟩)

theorem restores_malloc_fit (n : ℕ) : Restores anyEntry AllClear (Fit b) (malloc n) :=
  restores_malloc n (fun _ h => wp_exit_fit 1 h) (restores_pstmt_fit fun _ _ => ⟨rfl, Iff.rfl⟩)

theorem restores_install_fit (as : List (Signo × Handler)) :
    Restores anyEntry AllClear (Fit b) (install as) := by
  induction as with
  | nil => exact .pure
  | cons a as ih => exact .bind (restores_pstmt_fit fun _ _ => ⟨rfl, Iff.rfl⟩) fun _ => ih

/-- A part of the session makes none of these calls. -/
theorem restores_orExit_fit (m : SProg α) : Restores anyEntry AllClear (Fit b) (orExit m) := by
  intro w hw
  have hafter : ∀ w₁ : SRun, Fit b (after w w₁) := by
    intro w₁
    have hsys : ∀ x ∈ w₁.trace.map fun x => (PEvent.sys x.1, w.st.hold x.2),
        x.1.isClear = false ∧ x.1.isExit = false := by
      intro x hx
      obtain ⟨y, -, rfl⟩ := List.mem_map.mp hx
      exact ⟨rfl, rfl⟩
    have hkeep : ∀ (t : PTrace) (p : Process), (∀ x ∈ t, x.1.isClear = false ∧
        x.1.isExit = false) → SameBoss w.st p → Fit b ⟨p, w.trace ++ t⟩ := by
      intro t
      induction t using List.reverseRecOn with
      | nil =>
        intro p _ hp
        rw [List.append_nil]
        exact hw.state hp
      | append_singleton t x ih =>
        intro p ht hp
        rw [← List.append_assoc]
        exact (ih w.st (fun y hy => ht y (List.mem_append_left _ hy)) ⟨rfl, Iff.rfl⟩).call
          (ht x (by simp)) hp
    exact hkeep _ _ hsys ⟨rfl, Iff.rfl⟩
  exact wp_orExit (wp_part (wp_true m) (fun _ _ => trivial) (fun w₁ _ => hafter w₁)
    fun _ w₁ _ => hafter w₁) (fun _ h => h.all) fun kod _ h => wp_exit_fit kod h

/-! ## A session -/

theorem restores_doCopy_fit : Restores anyEntry AllClear (Fit b) doCopy := by
  have hmodify : Restores anyEntry AllClear (Fit b)
      (modify fun p : Process => { p with flagPtsAddrSendStatus := 2 } : PProg Unit) :=
    restores_modify_fit fun _ => ⟨rfl, Iff.rfl⟩
  unfold doCopy
  exact .bind .get fun _ => .bind (restores_malloc_fit _) fun _ => .bind (restores_malloc_fit _)
    fun _ => .bind (restores_orExit_fit _) fun _ => .bind restores_require_fit fun _ =>
    .bind restores_require_fit fun _ => .bind (restores_orExit_fit _) fun _ =>
    .bind (restores_orExit_fit _) fun _ => .bind (restores_orExit_fit _) fun _ =>
    .bind (restores_orExit_fit _) fun _ => .bind (restores_sendPtsAddrCall_fit _ _) fun _ =>
    .bind hmodify fun _ => .bind (restores_pstmt_fit fun _ _ => ⟨rfl, Iff.rfl⟩) fun _ =>
    .bind (restores_orExit_fit _) fun _ => restores_orExit_fit _

theorem restores_chilSetsignal_fit : Restores anyEntry AllClear (Fit b) chilSetsignal := by
  unfold chilSetsignal
  refine .bind (restores_install_fit _) fun _ => .bind (restores_pcall_fit fun e p r hr => ?_)
    fun _ => .ite .pure fun _ h => wp_exit_fit 1 h
  split at hr
  · cases hr
    exact ⟨⟨rfl, rfl⟩, rfl, Iff.rfl⟩
  · cases hr
    exact ⟨⟨rfl, rfl⟩, rfl, Iff.rfl⟩

theorem wp_login_fit {Q : Unit → PRun → Prop} (h : Fit b w) : wp anyEntry AllClear login Q w := by
  unfold login
  refine wp_bind (wp_modify ?_)
  have h : Fit b ⟨{ w.st with flagIamchild := false }, w.trace⟩ := h.state ⟨rfl, Iff.rfl⟩
  refine wp_seq (restores_require_fit _ h) fun _ w h => wp_seq (restores_require_fit w h)
    fun _ w h => wp_seq (restores_require_fit w h) fun _ w h => wp_seq (restores_require_fit w h)
      fun _ w h => ?_
  exact wp_bind (wp_label (wp_stop (h.all.call h.uncleared ⟨rfl, rfl⟩ _ _)))

/-- Both sides of a `fork`. -/
theorem wp_forkCall_fit {role : Role} (h : Fit b w) :
    wp anyEntry AllClear (forkCall role) (fun a w' => match a with
      | .child _ => AllClear w' ∧ occurs PEvent.isClear w'.trace = false ∧ w'.st.role = role ∧
          w'.st.flagIamboss = b
      | _ => Fit b w') w := by
  refine wp_pcall h.all fun e _ r hr => ?_
  have hmeet := sameBoss_meet e w.st
  rcases hf : e.fork with _ | pid | _
  all_goals
    simp only [hf] at hr
    cases hr
  · exact h.call ⟨rfl, rfl⟩ hmeet
  · exact ⟨h.all.call h.uncleared ⟨rfl, rfl⟩ _ _, by simp [h.uncleared, PEvent.isClear], rfl,
      hmeet.1.trans h.flagIamboss⟩
  · exact h.call ⟨rfl, rfl⟩ hmeet

/-- A session, from its fork to its end. -/
theorem wp_session_fit (behind : List X29Par) (addr : List Char) {Q : Unit → PRun → Prop}
    (h : Fit false w) : wp anyEntry AllClear (session behind addr) Q w := by
  have hstate : ∀ {w : PRun} {p : Process}, Fit false w → SameBoss w.st p →
      Fit false ⟨p, w.trace⟩ := fun h hp => h.state hp
  have hregister : Restores anyEntry AllClear (Fit false) (register addr) := by
    unfold register
    exact .bind (fun w h => wp_modify (hstate h ⟨rfl, Iff.rfl⟩)) fun _ =>
      .bind restores_require_fit fun _ => .bind (restores_pstmt_fit fun _ _ => ⟨rfl, Iff.rfl⟩)
        fun _ => .bind (restores_pstmt_fit fun _ _ => ⟨rfl, Iff.rfl⟩) fun _ =>
        .bind (fun w h => wp_modify (hstate h ⟨rfl, Iff.rfl⟩)) fun _ =>
        .bind (restores_sendPtsAddrCall_fit _ _) fun _ => .bind restores_require_fit fun _ =>
        restores_pstmt_fit fun _ _ => ⟨rfl, Iff.rfl⟩
  unfold session serve
  refine wp_seq (hregister w h) fun _ w h => wp_bind (wp_modify ?_)
  refine wp_seq (restores_orExit_fit _ _ (hstate h ⟨rfl, Iff.rfl⟩)) fun _ w h => ?_
  refine wp_seq (wp_forkCall_fit h) fun a w h => ?_
  cases a with
  | fail => exact wp_exit_fit 1 h
  | child pid =>
    obtain ⟨hall, hu, hrole, hboss⟩ := h
    exact wp_login_fit ⟨hall, hu, hboss, by simp [hrole]⟩
  | parent =>
    refine wp_seq (restores_chilSetsignal_fit w h) fun _ w h => ?_
    exact wp_seq (restores_doCopy_fit w h) fun _ w h => wp_exit_fit 0 h

end Process

/-! ## The tree of processes -/

section Path

variable {α : Type} {b : Bool} {w : DRun}

/-- Wherever the path stands. -/
def AllClearPath (w : DRun) : Prop := Always ClearsPath w.trace

/-- The flag of the process that the path has come to tells what it is. -/
structure FitPath (b : Bool) (w : DRun) : Prop where
  all : AllClearPath w
  uncleared : occurs DEvent.isClear w.trace = false
  flagIamboss : w.st.proc.flagIamboss = b
  role : w.st.proc.role = .monitor ↔ b = true

theorem FitPath.state (h : FitPath b w) {d : Daemon} (hd : SameBoss w.st.proc d.proc) :
    FitPath b ⟨d, w.trace⟩ :=
  ⟨h.all, h.uncleared, hd.1.trans h.flagIamboss, hd.2.trans h.role⟩

/-- Calls of the monitor and of the accepting process. -/
theorem FitPath.others (h : FitPath b w) {d : Daemon} {t : DTrace} (hd : d.proc = w.st.proc)
    (ht : ∀ x ∈ t, ∀ k, x.1 ≠ .proc k) : FitPath b ⟨d, w.trace ++ t⟩ := by
  have hnone : ∀ x ∈ t, x.1.isClear = false := fun x hx => by
    rcases hk : x.1 with k | k | k
    · rfl
    · rfl
    · exact absurd hk (ht x hx k)
  have hkeep : AllClearPath ⟨d, w.trace ++ t⟩ ∧ occurs DEvent.isClear (w.trace ++ t) = false := by
    induction t using List.reverseRecOn with
    | nil => exact ⟨by simpa [AllClearPath] using h.all, by simpa using h.uncleared⟩
    | append_singleton t x ih =>
      obtain ⟨hall, hu⟩ := ih (fun y hy => ht y (List.mem_append_left _ hy))
        fun y hy => hnone y (List.mem_append_left _ hy)
      rw [AllClearPath, ← List.append_assoc]
      refine ⟨always_concat.mpr ⟨hall, ?_⟩, ?_⟩
      · rcases hk : x.1 with k | k | k
        · exact hu
        · exact hu
        · exact absurd hk (ht x (by simp) k)
      · rw [occurs_append, hu, occurs_singleton, hnone x (by simp), Bool.or_false]
  exact ⟨hkeep.1, hkeep.2, (congrArg Process.flagIamboss hd).trans h.flagIamboss, by
    rw [← h.role, hd]⟩

/-- What a process does is done on the path. -/
theorem wp_asProc_fit {m : PProg α} {Q : α → PRun → Prop} {Q' : α → DRun → Prop} (h : FitPath b w)
    (hm : wp anyEntry AllClear m Q ⟨w.st.proc, []⟩)
    (hQ : ∀ a w₁, Q a w₁ → ∀ w', w'.st = { w.st with proc := w₁.st } →
      (AllClear w₁ → AllClearPath w') →
      occurs DEvent.isClear w'.trace = occurs PEvent.isClear w₁.trace → Q' a w') :
    wp (fun _ => True) AllClearPath (asProc m) Q' w := by
  have hocc : ∀ t : PTrace, occurs DEvent.isClear (w.trace ++ t.map fun x =>
      (.proc x.1, { w.st with proc := x.2 })) = occurs PEvent.isClear t := fun t => by
    rw [occurs_append, h.uncleared, Bool.false_or]
    exact List.any_map
  have hunder : ∀ w₁, AllClear w₁ →
      AllClearPath (w.under (fun d p => { d with proc := p }) DEvent.proc w₁) := fun w₁ h₁ =>
    always_append_map h.all h₁ fun t₁ k p hk => by
      show ClearsLast (occurs DEvent.isClear _) k p
      rw [hocc t₁]
      exact hk
  exact wp_zoom hm (fun _ _ => trivial) hunder fun a w₁ h₁ =>
    hQ a w₁ h₁ _ rfl (hunder w₁) (hocc w₁.trace)

theorem FitPath.fit (h : FitPath b w) : Fit b ⟨w.st.proc, []⟩ :=
  ⟨always_nil, rfl, h.flagIamboss, h.role⟩

/-- A statement of a process. -/
theorem restores_asProc_fit {m : PProg α} (hm : Restores anyEntry AllClear (Fit b) m) :
    Restores (fun _ => True) AllClearPath (FitPath b) (asProc m) := fun w h =>
  wp_asProc_fit h (hm _ h.fit) fun a w₁ h₁ w' hw' hall hu =>
    ⟨hall h₁.all, hu.trans h₁.uncleared, by rw [hw']; exact h₁.flagIamboss,
      by rw [hw']; exact h₁.role⟩

theorem wp_exit_fitPath (kod : ℕ) {Q : α → DRun → Prop} (h : FitPath b w) :
    wp (fun _ => True) AllClearPath (asProc (exit kod)) Q w :=
  wp_asProc_fit h (wp_exit_fit (Q := fun _ _ => False) kod h.fit) fun _ _ h => h.elim

theorem restores_asMoni_fit (m : MProg α) :
    Restores (fun _ => True) AllClearPath (FitPath b) (asMoni m) := by
  intro w h
  have hunder : ∀ w₁, FitPath b (w.under (fun d s => { d with moni := s }) DEvent.moni w₁) :=
    fun w₁ => h.others rfl fun x hx k => by
      obtain ⟨y, -, rfl⟩ := List.mem_map.mp hx
      exact nofun
  exact wp_zoom (wp_true m) (fun _ _ => trivial) (fun w₁ _ => (hunder w₁).all)
    fun _ w₁ _ => hunder w₁

theorem restores_asAcc_fit (m : AProg α) :
    Restores (fun _ => True) AllClearPath (FitPath b) (asAcc m) := by
  intro w h
  have hunder : ∀ w₁, FitPath b (w.under (fun d s => { d with acc := s }) DEvent.acc w₁) :=
    fun w₁ => h.others rfl fun x hx k => by
      obtain ⟨y, -, rfl⟩ := List.mem_map.mp hx
      exact nofun
  exact wp_zoom (wp_true m) (fun _ _ => trivial) (fun w₁ _ => (hunder w₁).all)
    fun _ w₁ _ => hunder w₁

/-- Behind the fork of an accepting process, which has the flag of the monitor still. -/
structure Forked (w : DRun) : Prop where
  all : AllClearPath w
  uncleared : occurs DEvent.isClear w.trace = false
  role : w.st.proc.role = .acceptor

/-- `fork` in the monitor. -/
theorem wp_forkCall_fitPath (h : FitPath true w) :
    wp (fun _ => True) AllClearPath (asProc (forkCall .acceptor))
      (fun a w' => if a.isChild then Forked w' else FitPath true w') w := by
  refine wp_asProc_fit h (wp_forkCall_fit h.fit) fun a w₁ h₁ w' hw' hall hu => ?_
  cases a with
  | child pid => exact ⟨hall h₁.1, hu.trans h₁.2.1, by rw [hw']; exact h₁.2.2.1⟩
  | _ =>
    exact ⟨hall h₁.all, hu.trans h₁.uncleared, by rw [hw']; exact h₁.flagIamboss,
      by rw [hw']; exact h₁.role⟩

/-- The parts of a path. The accepting process lowers the flag of the monitor first. -/
theorem pathPhases_fit (behind : List X29Par) (addr : List Char) :
    PathPhases (fun _ => True) behind addr AllClearPath (FitPath true) Forked (FitPath false)
      (FitPath false) where
  everywhere _ h := h.all
  steered w d h hd := h.state (by rw [hd.proc]; exact ⟨rfl, Iff.rfl⟩)
  require := restores_asProc_fit restores_require_fit
  setup := restores_asProc_fit (restores_pstmt_fit fun _ _ => ⟨rfl, Iff.rfl⟩)
  handlers := restores_asProc_fit (restores_install_fit _)
  sigsuspend := restores_asMoni_fit _
  chldPart := restores_asMoni_fit _
  hupPart := restores_asMoni_fit _
  ioPart := restores_asMoni_fit _
  usr1Part := restores_asMoni_fit _
  fork _ h := wp_forkCall_fitPath h
  start w h := ⟨h.all, h.uncleared, rfl, by
    show w.st.proc.role = .monitor ↔ _
    simp [h.role]⟩
  mainWork w h := by
    refine wp_mono (restores_asAcc_fit mainWork w h) (fun _ h => h) fun a w' h' => ⟨h', ?_⟩
    refine fun pid _ => ⟨h'.all, h'.uncleared, h'.flagIamboss, ?_⟩
    show Role.session = .monitor ↔ _
    simp
  session w h := wp_asProc_fit h (wp_session_fit (Q := fun _ _ => False) behind addr h.fit)
    fun _ _ h => h.elim
  exits kod w h := by
    rcases h with h | h
    · exact wp_exit_fitPath kod h
    · exact wp_exit_fitPath kod h

end Path

/-- **The pid file goes with the monitor.** On every path through the tree of processes, only the
monitor removes the file in `Exit`, it does so whenever it ends by `Exit`, and the file is there as
long as it does anything else: no accepting process, session or login process removes it, however
it ends. -/
theorem daemon_clears (es : List DEnv) (d : Daemon) (row : Row) (behind : List X29Par)
    (addr : List Char) : Always ClearsPath (daemonTrace es d row behind addr) := by
  have hstart : FitPath true ⟨{ d.start with proc := { d.start.proc with flagIamboss := true } },
      []⟩ := by
    refine ⟨always_nil, rfl, rfl, ?_⟩
    show Role.monitor = .monitor ↔ _
    simp
  exact always_of_wp ((pathPhases_fit behind addr).wp_monitor (Q := fun _ _ => False)
    (w := ⟨d.start, []⟩) row hstart) (fun _ _ h => h.elim) fun _ _ => trivial

end PadSvr
