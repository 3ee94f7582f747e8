import PadSvr.Session.Observed

/-!
# The timers of the closing phases

Each wait of the closing phases arms the timer for itself, and takes `Flag_Alrm` for its own
timeout. `reset_timer` disarms the timer between two phases, but the flag stays up when the alarm
was there before. So a wait can end by the alarm of an earlier phase.

## Main definitions

* `Session.expired`: the timer a wait has armed has expired
* `OwnTimers t`: the waits are given up by their own timers, or an exit signal
* `Observed.Fine`, `NoForeignAlarm`: a flag that is down where a timer is armed, a `poll` that does
  not fail, a child that has ended, and no `SIGALRM` from elsewhere

## Main results

* `shutdown_ownTimers`: a run whose steps are all fine is given up by its own timers only
-/

namespace PadSvr

open Scripted Scripted.Prog

/-- The timer that a wait has armed with `Net_timeout` has expired. -/
def Session.expired (s : Session) : Prop := s.sys.wtimer = none ∧ s.netTimeout ≠ 0

instance (s : Session) : Decidable s.expired :=
  inferInstanceAs (Decidable (s.sys.wtimer = none ∧ s.netTimeout ≠ 0))

/-- Whether a wait has met its timeout or an exit signal, when `y` is the next call. -/
def meetsStop (b : Bool) (y : Observed × Session) : Bool :=
  match y.1 with
  | .netTimeout _ _ => false
  | .timedOut => true
  | .exitSignal => true
  | _ => b

/-- The wait that has begun last has met its timeout or an exit signal. -/
def stopMet (t : OTrace) : Bool := t.foldl meetsStop false

/-- The waits are given up by their own timers. -/
structure OwnTimers (t : OTrace) : Prop where
  /-- a timeout is that of the timer the wait has armed -/
  timeout : Always (fun _ k s => k = .timedOut → s.expired) t
  /-- the login process is given up by a timeout or an exit signal only -/
  gaveUp : Always (fun t₁ k s => k = .ended → s.flagExitstatusRecvd = 0 → stopMet t₁ = true) t

/-- What a run should find: `Flag_Alrm` down where a wait arms its timer, and in the last wait no
`poll` that fails and no `Flag_Chld` without an exit status. -/
def Observed.Fine : Observed → Prop
  | .netTimeout _ alrm => alrm = false
  | .pollFailed => False
  | .childEnded known => known = true
  | _ => True

/-- All that has been found is fine. -/
def AllFine (t : OTrace) : Prop := ∀ y ∈ t, y.1.Fine

/-- No `SIGALRM` but those of the timer. -/
def NoForeignAlarm (e : Env) : Prop := .signal .alrm ∉ e.before

instance (k : Observed) : Decidable k.Fine := by
  unfold Observed.Fine
  split <;> infer_instance

instance (t : OTrace) : Decidable (AllFine t) :=
  inferInstanceAs (Decidable (∀ y ∈ t, y.1.Fine))

instance (e : Env) : Decidable (NoForeignAlarm e) :=
  inferInstanceAs (Decidable (.signal .alrm ∉ e.before))

@[simp] theorem allFine_concat {t : OTrace} {y : Observed × Session} :
    AllFine (t ++ [y]) ↔ AllFine t ∧ y.1.Fine := by
  simp [AllFine, or_imp, forall_and]

@[simp] theorem stopMet_concat (t : OTrace) (y : Observed × Session) :
    stopMet (t ++ [y]) = meetsStop (stopMet t) y := by
  simp [stopMet]

/-! ## The alarm of a wait -/

/-- `Flag_Alrm` is up only if the timer of the wait has expired. -/
structure Session.Own (s : Session) : Prop where
  raised : s.flags.alrm = true → s.expired
  armed : s.sys.wtimer ≠ none → s.netTimeout ≠ 0

theorem Session.Own.run {s : Session} (hs : s.Own) {h : Happening} (hh : h ≠ .signal .alrm) :
    (h.run s).Own := by
  cases h with
  | signal g =>
    cases g with
    | alrm => exact absurd rfl hh
    | _ => exact ⟨hs.raised, hs.armed⟩
  | rtimer =>
    rw [Happening.run]
    split
    · exact ⟨hs.raised, hs.armed⟩
    · exact hs
  | wtimer =>
    rw [Happening.run]
    split
    · next hw =>
      -- the timer of the wait expires: it is disarmed, and the flag goes up
      refine ⟨fun _ => ⟨rfl, hs.armed fun hn => ?_⟩, fun hne => absurd rfl hne⟩
      rw [hn] at hw
      cases hw
    · exact hs
  | typed bytes =>
    rw [Happening.run]
    split
    · exact hs
    · exact ⟨hs.raised, hs.armed⟩
  | hangup => exact ⟨hs.raised, hs.armed⟩

theorem Session.Own.deliver {s : Session} (hs : s.Own) {e : Env} (he : NoForeignAlarm e) :
    (deliver e s).Own := by
  have key : ∀ (hs : List Happening) (s : Session), .signal .alrm ∉ hs → s.Own →
      (hs.foldl (fun s h => h.run s) s).Own := by
    intro hs
    induction hs with
    | nil => exact fun _ _ h => h
    | cons h hs ih =>
      intro s hn hs
      obtain ⟨hne, hn⟩ := not_or.mp fun h' => hn (List.mem_cons.mpr h')
      exact ih (h.run s) hn (hs.run (Ne.symm hne))
  exact key e.before s he hs

/-- What the calls of a wait do, but for those that end it: `Done` stays, and an exit status that is
known stays known. -/
structure WaitFrame (s s' : Session) : Prop where
  own : s.Own → s'.Own
  done : s'.done = s.done
  known : s.flagExitstatusRecvd ≠ 0 → s'.flagExitstatusRecvd ≠ 0

theorem WaitFrame.refl (s : Session) : WaitFrame s s := ⟨id, rfl, id⟩

theorem WaitFrame.trans {s s' s'' : Session} (h : WaitFrame s s') (h' : WaitFrame s' s'') :
    WaitFrame s s'' :=
  ⟨fun hs => h'.own (h.own hs), h'.done.trans h.done, fun hs => h'.known (h.known hs)⟩

/-- A call that leaves the timer, its flag, `Done` and the exit status alone. -/
theorem WaitFrame.same {s s' : Session} (halrm : s'.flags.alrm = s.flags.alrm)
    (hwtimer : s'.sys.wtimer = s.sys.wtimer) (hnet : s'.netTimeout = s.netTimeout)
    (hdone : s'.done = s.done) (hrecvd : s'.flagExitstatusRecvd = s.flagExitstatusRecvd) :
    WaitFrame s s' where
  own := by
    intro hs
    refine ⟨fun ha => ?_, fun ha => ?_⟩
    · rw [Session.expired, hwtimer, hnet]
      exact hs.raised (halrm ▸ ha)
    · rw [hnet]
      exact hs.armed (hwtimer ▸ ha)
  done := hdone
  known := fun hk => hrecvd ▸ hk

theorem waitFrame_deliver {e : Env} (he : NoForeignAlarm e) (s : Session) :
    WaitFrame s (deliver e s) where
  own := fun hs => hs.deliver he
  done := deliver_done e s
  known := fun hs => by
    rw [(interfered_deliver e s).frame]
    exact hs

/-- The program keeps to that wherever it can stand. -/
def KeepsFrame {α : Type} (m : SProg α) : Prop :=
  ∀ s₀, Keeps NoForeignAlarm (fun w : SRun => WaitFrame s₀ w.st) m

section KeepsFrame

variable {α : Type}

theorem keepsFrame_stmt {f : Env → Session → Session × α} (h : ∀ e s, WaitFrame s (f e s).1) :
    KeepsFrame (stmt f) := fun _ _ hw =>
  wp_stmt hw fun e he => (hw.trans (waitFrame_deliver he _)).trans (h e _)

theorem keepsFrame_test (b : Session → Bool) : KeepsFrame (test b) :=
  keepsFrame_stmt fun _ s => .refl s

theorem keepsFrame_call {f : Env → Session → Option (Event × Session × α)}
    (h : ∀ e s r, f e s = some r → WaitFrame s r.2.1) : KeepsFrame (call f) := fun _ _ hw =>
  wp_call hw fun e he r hr => (hw.trans (waitFrame_deliver he _)).trans (h e _ r hr)

theorem keepsFrame_closingPoll : KeepsFrame closingPoll := by
  refine keepsFrame_call fun e s r hr => ?_
  split at hr
  · cases hr
    exact .same rfl rfl rfl rfl rfl
  · cases hr
    exact .refl s

theorem keepsFrame_readPipe (n : ℕ) : KeepsFrame (readPipe n) := by
  refine keepsFrame_call fun e s r hr => ?_
  split at hr
  · cases hr
    exact .same rfl rfl rfl rfl rfl
  · split at hr
    · cases hr
    · cases hr
      exact .same rfl rfl rfl rfl rfl

theorem keepsFrame_readSock (n : ℕ) : KeepsFrame (readSock n) := by
  refine keepsFrame_call fun e s r hr => ?_
  split at hr
  · cases hr
    exact .same rfl rfl rfl rfl rfl
  · cases hr
    exact .same rfl rfl rfl rfl rfl

/-- Flags are lowered. -/
theorem keepsFrame_lower {f : Flags → Flags} (hf : ∀ fl, (f fl).alrm = true → fl.alrm = true) :
    KeepsFrame (assign fun s => { s with flags := f s.flags }) :=
  keepsFrame_stmt fun _ _ => ⟨fun hs => ⟨fun ha => hs.raised (hf _ ha), hs.armed⟩, rfl, id⟩

theorem keepsFrame_interChld : KeepsFrame interChld := by
  have hrecv : KeepsFrame recvExitStatus := by
    refine keepsFrame_stmt fun e s => ?_
    rcases e.child with _ | pid
    · exact .refl s
    · dsimp only
      split
      · next hpos =>
        refine ⟨fun hs => ⟨hs.raised, hs.armed⟩, rfl, fun _ => ?_⟩
        show pid ≠ 0
        omega
      · exact .refl s
  exact fun s₀ => .bind (hrecv s₀) fun _ =>
    keepsFrame_lower (f := fun fl => { fl with chld := false }) (fun _ h => h) s₀

theorem keepsFrame_reload : KeepsFrame reload := by
  refine keepsFrame_call fun e s r hr => ?_
  split at hr
  · cases hr
  · cases hr
    exact .same rfl rfl rfl rfl rfl

/-- The flags, as the clear request handles them: the process exits on an alarm or an exit signal.
-/
theorem keepsFrame_x29DoInter : KeepsFrame x29DoInter := by
  intro s₀
  have hstop : Keeps NoForeignAlarm (fun w : SRun => WaitFrame s₀ w.st) (Prog.stop : SProg ℤ) :=
    fun _ hw => wp_stop hw
  have htest : ∀ up : Session → Bool, Keeps NoForeignAlarm (fun w : SRun => WaitFrame s₀ w.st)
      (test up) := fun up => keepsFrame_test up s₀
  refine .bind ?_ fun _ => .bind (htest _) fun _ => .ite ?_ ?_
  · refine .bind (htest _) fun _ => .ite (.bind ?_ fun _ => .pure) .pure
    exact .bind (keepsFrame_reload s₀) fun _ =>
      keepsFrame_lower (f := fun fl => { fl with hup := false }) (fun _ h => h) s₀
  · exact .bind (keepsFrame_lower (f := fun fl => { fl with alrm := false }) nofun s₀) fun _ =>
      hstop
  · refine .bind (htest _) fun _ => .ite ?_ .pure
    exact .bind (keepsFrame_lower (f := fun fl => { fl with exit := false }) (fun _ h => h) s₀)
      fun _ => hstop

theorem keepsFrame_x29InvClear : KeepsFrame x29InvClear := by
  intro s₀
  have hwrite : ∀ pkt, KeepsFrame (writeSock pkt) := by
    refine fun pkt => keepsFrame_call fun e s r hr => ?_
    split at hr
    · cases hr
      exact .same rfl rfl rfl rfl rfl
    · cases hr
      exact .refl s
  have herror : Keeps NoForeignAlarm (fun w : SRun => WaitFrame s₀ w.st) x29WrError := .pure
  have hmsg := restores_writensockint (fun _ h => h) (fun pkt => hwrite pkt s₀)
    (keepsFrame_x29DoInter s₀) herror [0x01, x29InvitationToClear] 2
  exact .bind hmsg fun _ => .pure

end KeepsFrame

/-! ## The invariant of a wait -/

/-- What is neither the beginning of a wait, nor its timeout, nor its end. -/
def Observed.Plain : Observed → Prop
  | .netTimeout _ _ => False
  | .timedOut => False
  | .ended => False
  | _ => True

theorem OwnTimers.concat {t : OTrace} (h : OwnTimers t) {k : Observed} {s : Session}
    (htimeout : k = .timedOut → s.expired)
    (hended : k = .ended → s.flagExitstatusRecvd = 0 → stopMet t = true) :
    OwnTimers (t ++ [(k, s)]) where
  timeout := always_concat.mpr ⟨h.timeout, htimeout⟩
  gaveUp := always_concat.mpr ⟨h.gaveUp, hended⟩

theorem OwnTimers.plain {t : OTrace} (h : OwnTimers t) {k : Observed} (hk : k.Plain) (s : Session) :
    OwnTimers (t ++ [(k, s)]) := by
  refine h.concat (fun he => ?_) fun he => ?_
  · rw [he] at hk
    exact hk.elim
  · rw [he] at hk
    exact hk.elim

theorem stopMet_plain {t : OTrace} {k : Observed} {s : Session} (hk : k.Plain)
    (ht : stopMet t = true) : stopMet (t ++ [(k, s)]) = true := by
  rw [stopMet_concat, ht]
  cases k with
  | netTimeout => exact hk.elim
  | _ => rfl

/-- In a wait: the timer is its own, and the last one goes on until it has met its timeout, an exit
signal or the exit status. -/
structure InWait (last : Prop) (w : ORun) : Prop where
  owned : OwnTimers w.trace
  timer : w.st.Own
  answered : last → w.st.done ≠ 0 → stopMet w.trace = true ∨ w.st.flagExitstatusRecvd ≠ 0

/-- The invariant of a wait, for the runs that are fine so far. -/
def Awaits (last : Prop) (w : ORun) : Prop := AllFine w.trace → InWait last w

section Waits

variable {last : Prop} {t : OTrace} {s s' : Session} {w : ORun}

theorem InWait.frame (h : InWait last ⟨s, t⟩) (hs : WaitFrame s s') : InWait last ⟨s', t⟩ where
  owned := h.owned
  timer := hs.own h.timer
  answered := fun hl hd => (h.answered hl fun h0 => hd (hs.done.trans h0)).imp_right hs.known

theorem InWait.plain (h : InWait last ⟨s, t⟩) {k : Observed} (hk : k.Plain) (s₁ : Session) :
    InWait last ⟨s, t ++ [(k, s₁)]⟩ where
  owned := h.owned.plain hk s₁
  timer := h.timer
  answered := fun hl hd => (h.answered hl hd).imp_left (stopMet_plain hk)

/-- A part of a wait that leaves `Done` alone. -/
theorem keeps_plain {α : Type} {m : SProg α} (hm : KeepsFrame m) {k : Session → α → Observed}
    (hk : ∀ s a, (k s a).Plain) : Keeps NoForeignAlarm (Awaits last) (observe k m) := by
  intro w hw
  refine wp_observe (hm w.st ⟨w.st, []⟩ (.refl _)) (fun w₁ h hfine => (hw hfine).frame h) ?_
  intro a w₁ h hfine
  exact ((hw (allFine_concat.mp hfine).1).frame h).plain (hk _ a) w.st

theorem keeps_workFrame {α : Type} {m : SProg α} (hm : KeepsFrame m) :
    Keeps NoForeignAlarm (Awaits last) (work m) := keeps_plain hm fun _ _ => trivial

theorem keeps_plainLabel {k : Observed} (hk : k.Plain) :
    Keeps NoForeignAlarm (Awaits last) (label k : OProg Unit) := fun w hw =>
  wp_label fun hfine => (hw (allFine_concat.mp hfine).1).plain hk w.st

/-- `Done` is set, when there is a reason for it. -/
theorem wp_workSetDone {n : ℕ} (hw : Awaits last w)
    (hreason : AllFine w.trace → last → stopMet w.trace = true ∨ w.st.flagExitstatusRecvd ≠ 0) :
    wp NoForeignAlarm (Awaits last) (work (setDone n))
      (fun _ w' => Awaits last w' ∧ w'.st.done = n) w := by
  have hset : wp NoForeignAlarm (fun _ : SRun => False) (setDone n)
      (fun _ w₁ => w₁.st = { w.st with done := n }) ⟨w.st, []⟩ := wp_modify rfl
  refine wp_observe hset (fun _ h => h.elim) fun _ w₁ h => ⟨fun hfine => ?_, ?_⟩
  · have hfine' := (allFine_concat.mp hfine).1
    refine InWait.plain (k := .work) (s := w₁.st) ⟨(hw hfine').owned, ?_, ?_⟩ trivial w.st
    · show w₁.st.Own
      rw [h]
      exact ⟨(hw hfine').timer.raised, (hw hfine').timer.armed⟩
    · show last → w₁.st.done ≠ 0 → stopMet w.trace = true ∨ w₁.st.flagExitstatusRecvd ≠ 0
      rw [h]
      exact fun hl _ => hreason hfine' hl
  · show w₁.st.done = n
    rw [h]

/-- A flag that is up ends the wait. -/
theorem keeps_observedUp {up : Flags → Bool} {k : Observed} {f : Session → Session}
    (hk : ∀ s : Session, s.Own → up s.flags = true → k = .timedOut → s.expired) (hne : k ≠ .ended)
    (hstop : ∀ b s, meetsStop b (k, s) = true) (hown : ∀ s : Session, s.Own → (f s).Own) :
    Keeps NoForeignAlarm (Awaits last) (observedUp up k (assign f)) := by
  intro w hw
  refine wp_seq (Q := fun b w' => Awaits last w' ∧ (b = true → up w'.st.flags = true)) ?_ ?_
  · refine wp_observe (I := fun w₁ => WaitFrame w.st w₁.st)
      (Q := fun b w₁ => WaitFrame w.st w₁.st ∧ (b = true → up w₁.st.flags = true))
      (wp_test (.refl _) fun e he => ⟨waitFrame_deliver he _, id⟩)
      (fun w₁ h hfine => (hw hfine).frame h) fun b w₁ h => ⟨fun hfine => ?_, h.2⟩
    exact ((hw (allFine_concat.mp hfine).1).frame h.1).plain (k := .work) trivial w.st
  · rintro b w' ⟨hw', hup⟩
    split
    · next hb =>
      refine wp_bind (wp_label (wp_observe (I := fun w₁ => w₁.st = w'.st)
        (Q := fun _ w₁ => w'.st.Own → w₁.st.Own)
        (wp_assign rfl fun e he hs => hown _ (hs.deliver he)) ?_ ?_))
      -- the flag is found up by a test behind which nothing has happened yet
      · intro w₁ h hfine
        have hin := hw' (allFine_concat.mp hfine).1
        rw [h]
        refine ⟨hin.owned.concat (hk _ hin.timer (hup hb)) fun he => absurd he hne, hin.timer, ?_⟩
        exact fun _ _ => .inl ((stopMet_concat _ _).trans (hstop _ _))
      · intro _ w₁ h hfine
        have hin := hw' (allFine_concat.mp (allFine_concat.mp hfine).1).1
        refine InWait.plain (k := .work) (s := w₁.st) ⟨?_, h hin.timer, ?_⟩ trivial _
        · exact hin.owned.concat (hk _ hin.timer (hup hb)) fun he => absurd he hne
        · exact fun _ _ => .inl ((stopMet_concat _ _).trans (hstop _ _))
    · exact wp_pure hw'

theorem keeps_observedClosingSignals (pipe : Revents) {ended : OProg Unit}
    (hended : Keeps NoForeignAlarm (Awaits last) ended) :
    Keeps NoForeignAlarm (Awaits last) (observedClosingSignals pipe ended) := by
  refine .ite (.bind .get fun s => .bind (keeps_workFrame (keepsFrame_readPipe _)) fun _ => ?_)
    .pure
  refine .bind (keeps_observedUp (fun s hs ha _ => hs.raised ha) nofun (fun _ _ => rfl) ?_)
    fun _ => ?_
  · exact fun s hs => ⟨nofun, hs.armed⟩
  refine .bind (keeps_observedUp (fun _ _ _ => nofun) nofun (fun _ _ => rfl) ?_) fun _ => ?_
  · exact fun s hs => ⟨hs.raised, hs.armed⟩
  exact .bind (keeps_workFrame (keepsFrame_test _)) fun _ => .ite hended .pure

/-- The wait for the network may be given up at any time. -/
theorem keeps_observedWaitNetRound : Keeps NoForeignAlarm (Awaits False) observedWaitNetRound := by
  have hleave : ∀ n, Keeps NoForeignAlarm (Awaits False)
      (do work (setDone n); pure (.inr ()) : OProg (Unit ⊕ Unit)) := fun n =>
    .bind (fun _ hw => wp_mono (wp_workSetDone hw fun _ h => h.elim) (fun _ h => h) fun _ _ h => h.1)
      fun _ => .pure
  have hbranch : ∀ c, Keeps NoForeignAlarm (Awaits False) (observedWaitNetBranch c) := by
    intro c
    cases c with
    | failed => exact hleave 1
    | _ => exact .pure
  have hread : ∀ n, Keeps NoForeignAlarm (Awaits False) (observedRead n) := fun n =>
    keeps_plain (keepsFrame_readSock n) fun _ _ => trivial
  refine .bind .get fun s => .ite .pure (.bind (keeps_workFrame keepsFrame_closingPoll) ?_)
  refine fun answer => .bind .get fun s => .ite (hleave 11) ?_
  refine .bind (keeps_observedClosingSignals _ (keeps_workFrame keepsFrame_interChld)) fun _ => ?_
  refine .ite (hleave 1) (.ite (.bind .get fun s => .bind (hread _) fun i => ?_) .pure)
  exact .bind .get fun s => .bind (keeps_plainLabel trivial) fun _ => hbranch _

/-- The last wait is given up for one of its reasons only, and `Done` is set then. -/
theorem wp_observedWaitExitstatusRound (hw : Awaits True w) :
    wp NoForeignAlarm (Awaits True) observedWaitExitstatusRound
      (fun r w' => Awaits True w' ∧ (r = .inr () → w'.st.done ≠ 0)) w := by
  have hended : Keeps NoForeignAlarm (Awaits True)
      (do observe (fun s _ => .childEnded (s.flagExitstatusRecvd ≠ 0)) interChld
          work (setDone 1) : OProg Unit) := by
    intro w hw
    have hchld : Keeps NoForeignAlarm (Awaits True)
        (observe (fun s _ => .childEnded (s.flagExitstatusRecvd ≠ 0)) interChld) :=
      keeps_plain keepsFrame_interChld fun _ _ => trivial
    -- in a fine run the child has been received: that is the reason for `Done`
    have hknown : wp NoForeignAlarm (fun _ => True)
        (observe (fun s _ => .childEnded (s.flagExitstatusRecvd ≠ 0)) interChld)
        (fun _ w' => AllFine w'.trace → w'.st.flagExitstatusRecvd ≠ 0) w := by
      refine wp_observe (keepsFrame_interChld w.st ⟨w.st, []⟩ (.refl _)) (fun _ _ => trivial) ?_
      exact fun _ w₁ _ hfine => of_decide_eq_true (allFine_concat.mp hfine).2
    refine wp_seq (wp_mono (wp_and (hchld w hw) hknown) (fun _ h => h.1) fun _ _ h => h)
      fun _ w' h => ?_
    exact wp_mono (wp_workSetDone h.1 fun hfine _ => .inr (h.2 hfine)) (fun _ h => h)
      fun _ _ h => h.1
  refine wp_bind (wp_get ?_)
  split
  · next hd => exact wp_pure ⟨hw, fun _ => hd⟩
  refine wp_seq (keeps_workFrame keepsFrame_closingPoll w hw) fun answer w₁ h₁ => ?_
  refine wp_bind (wp_get ?_)
  split
  · -- a `poll` that fails is not fine
    have hnot : ∀ {P : Prop}, AllFine (w₁.trace ++ [(.pollFailed, w₁.st)]) → P := fun hfine =>
      (allFine_concat.mp hfine).2.elim
    refine wp_bind (wp_label (wp_seq (wp_workSetDone hnot hnot) fun _ w₂ h => wp_pure ⟨h.1, ?_⟩))
    exact fun _ hd => absurd (h.2.symm.trans hd) (by decide)
  · refine wp_seq (keeps_observedClosingSignals _ hended w₁ h₁) fun _ w₂ h => ?_
    exact wp_pure ⟨h, nofun⟩

end Waits

/-! ## The closing phases -/

/-- The invariant between the waits. -/
def Between (w : ORun) : Prop := AllFine w.trace → OwnTimers w.trace

/-- What is between the waits does not matter. -/
theorem keeps_between {α : Type} {m : SProg α}
    (hm : ∀ w : SRun, wp NoForeignAlarm (fun _ => True) m (fun _ _ => True) w) :
    Keeps NoForeignAlarm Between (work m) := by
  intro w hw
  refine wp_observe (hm ⟨w.st, []⟩) (fun _ _ => hw) fun a w₁ _ hfine => ?_
  exact (hw (allFine_concat.mp hfine).1).plain (k := .work) trivial w.st

/-- Where a wait arms the timer and finds the flag down, the timer is its own. -/
theorem wp_beginWait {last : Prop} {w : ORun} (hw : Between w) (hdone : last → w.st.done = 0) :
    wp NoForeignAlarm Between observedNetTimeout (fun _ => Awaits last) w := by
  refine wp_observe (I := fun _ => True)
    (Q := fun _ w₁ => w₁.st.done = w.st.done ∧ w₁.st.netTimeout = w.st.netTimeout ∧
      w₁.st.sys.wtimer = armed w₁.st.netTimeout)
    (wp_assign trivial fun e _ => ⟨deliver_done e w.st, ?_, rfl⟩) (fun _ _ => hw) ?_
  · show (deliver e w.st).netTimeout = w.st.netTimeout
    rw [(interfered_deliver e w.st).frame]
  · intro _ w₁ h hfine
    obtain ⟨hfine', hdown⟩ := allFine_concat.mp hfine
    -- the flag is down, the timer is armed unless `Net_timeout` is 0, and `Done` is still down
    refine ⟨(hw hfine').concat nofun nofun, ⟨fun ha => ?_, fun hne h0 => hne ?_⟩, fun hl hd => ?_⟩
    · rw [show w₁.st.flags.alrm = false from hdown] at ha
      cases ha
    · rw [h.2.2, h0]
      rfl
    · exact absurd (h.1.trans (hdone hl)) hd

theorem Awaits.between {last : Prop} {w : ORun} (hw : Awaits last w) : Between w := fun hfine =>
  (hw hfine).owned

/-- A wait begins with `Done` down. -/
theorem wp_clearDone {w : ORun} (hw : Between w) (buf : List UInt8) :
    wp NoForeignAlarm Between (work (modify fun s => { s with bufn := buf, done := 0 }))
      (fun _ w' => Between w' ∧ w'.st.done = 0) w := by
  have hset : wp NoForeignAlarm (fun _ : SRun => True)
      (modify fun s : Session => { s with bufn := buf, done := 0 })
      (fun _ w₁ => w₁.st.done = 0) ⟨w.st, []⟩ := wp_modify rfl
  refine wp_observe hset (fun _ _ => hw) fun _ w₁ h => ⟨fun hfine => ?_, h⟩
  exact (hw (allFine_concat.mp hfine).1).plain (k := .work) trivial w.st

theorem keeps_betweenReset : Keeps NoForeignAlarm Between (work resetTimer) :=
  keeps_between fun _ => wp_assign trivial fun _ _ => trivial

theorem keeps_observedWaitNet (buf : List UInt8) :
    Keeps NoForeignAlarm Between (observedWaitNet buf) := by
  intro w hw
  refine wp_seq (wp_clearDone hw buf) fun _ w₁ h₁ => ?_
  have hbegin : wp NoForeignAlarm Between observedNetTimeout (fun _ => Awaits False) w₁ :=
    wp_beginWait h₁.1 nofun
  refine wp_seq hbegin fun _ w₂ h₂ => ?_
  have hloop := Keeps.iter (fun _ => keeps_observedWaitNetRound) () w₂ h₂
  exact wp_seq (wp_mono hloop (fun _ => Awaits.between) fun _ _ => Awaits.between) fun _ w₃ h₃ =>
    keeps_betweenReset w₃ h₃

theorem keeps_observedWaitExitstatus (buf : List UInt8) :
    Keeps NoForeignAlarm Between (observedWaitExitstatus buf) := by
  refine .bind .get fun s => .ite (fun w hw => ?_) .pure
  refine wp_seq (wp_clearDone hw buf) fun _ w₁ h₁ => ?_
  have hbegin : wp NoForeignAlarm Between observedNetTimeout (fun _ => Awaits True) w₁ :=
    wp_beginWait h₁.1 fun _ => h₁.2
  refine wp_seq hbegin fun _ w₂ h₂ => ?_
  have hloop : wp NoForeignAlarm (Awaits True) (iter (fun () => observedWaitExitstatusRound) ())
      (fun _ w' => Awaits True w' ∧ w'.st.done ≠ 0) w₂ := by
    refine wp_iter (fun _ => Awaits True) (fun _ _ h => h) (fun r w h => ?_) h₂
    refine wp_mono (wp_observedWaitExitstatusRound h) (fun _ h => h) fun r' w' h' => ?_
    cases r' with
    | inl _ => exact h'.1
    | inr _ => exact ⟨h'.1, h'.2 rfl⟩
  refine wp_seq (wp_mono hloop (fun _ => Awaits.between) fun _ _ h => h) fun _ w₃ h₃ => ?_
  refine wp_bind (wp_label (keeps_betweenReset _ fun hfine => ?_))
  -- `Done` is set: the wait has met one of its reasons
  have hin := h₃.1 (allFine_concat.mp hfine).1
  exact hin.owned.concat nofun fun _ hunknown =>
    (hin.answered trivial h₃.2).resolve_right fun hknown => hknown hunknown

theorem keeps_observedShutdown (buf : List UInt8) :
    Keeps NoForeignAlarm Between (observedShutdown buf) := by
  have hread : Keeps NoForeignAlarm Between (work resetReadTimeout) :=
    keeps_between fun _ => wp_assign trivial fun _ _ => trivial
  have hclose : Keeps NoForeignAlarm Between (work closeCall) :=
    keeps_between fun _ => wp_stmt trivial fun _ _ => trivial
  have hclear : Keeps NoForeignAlarm Between (work x29InvClear) := keeps_between fun w =>
    wp_mono (keepsFrame_x29InvClear w.st w (.refl _)) (fun _ _ => trivial) fun _ _ _ => trivial
  have hwait := keeps_observedWaitNet buf
  have hline : Keeps NoForeignAlarm Between (observedCloseLine buf) := by
    refine .bind .get fun s => .ite hclose (.ite ?_ (.ite ?_ .pure))
    · exact .bind hclear fun _ => .bind hwait fun _ => hclose
    · exact .bind hwait fun _ => hclose
  refine .bind keeps_betweenReset fun _ => .bind hread fun _ => .bind hclose fun _ => ?_
  exact .bind hline fun _ => keeps_observedWaitExitstatus buf

/-- **The closing phases are given up by their own timers**, in a run that finds the flag down
wherever a wait arms its timer, and to which no alarm comes from elsewhere. -/
theorem shutdown_ownTimers (es : List Env) (s : Session) (buf : List UInt8)
    (hes : ∀ e ∈ es, NoForeignAlarm e) (hfine : AllFine (shutdownObserved es s buf)) :
    OwnTimers (shutdownObserved es s buf) :=
  always_of_wp (keeps_observedShutdown buf ⟨s, []⟩ fun _ => ⟨always_nil, always_nil⟩)
    (fun _ _ h => h) hes hfine

/-! ## Two ends of a session -/

/-- The terminal side hangs up. -/
def hangupRound : List Env :=
  [.willing, { Env.willing with before := [.hangup], poll := .ready {} { pollhup := true } {} }]

/-- The session behind that: the loop has been left, and the watchdog is armed. -/
def hungUp : Session :=
  (doCopyLoop hangupRound ⟨doCopyStart (Session.fresh 0 128) (List.replicate 129 0)
    (List.replicate 129 0), []⟩).1.st

/-- The timer expires, and the wait is woken up by the byte in the pipe. -/
def expiry : Env :=
  { Env.willing with before := [.wtimer], poll := .ready {} {} { pollin := true } }

/-- Both waits go on until their timers expire. -/
def ownExpiries : List Env := quiet 5 ++ expiry :: quiet 8 ++ expiry :: quiet 5

theorem shutdown_ownTimers_hungUp :
    OwnTimers (shutdownObserved ownExpiries hungUp (List.replicate 129 0)) :=
  shutdown_ownTimers ownExpiries hungUp (List.replicate 129 0) (by decide)
    (by decide +kernel)

/-- The watchdog expires when the loop has been left, before `reset_timer`. -/
def lateExpiry : List Env :=
  { Env.willing with before := [.wtimer] } :: quiet 4 ++
    { Env.willing with poll := .ready {} {} { pollin := true } } :: quiet 3

/-- The wait for the network ends at once, by the alarm of the watchdog. -/
theorem foreignTimeout_hungUp : ¬ ∀ (es₀ es : List Env) (s : Session) (bufn bufd buf : List UInt8),
    (∀ e ∈ es, NoForeignAlarm e) →
      ∀ w ∈ doCopyLeft es₀ s bufn bufd, OwnTimers (shutdownObserved es w.st buf) := by
  intro h
  have hlaw : ∀ w ∈ doCopyLeft hangupRound (Session.fresh 0 128) (List.replicate 129 0)
      (List.replicate 129 0), Always (fun _ k s => k = .timedOut → s.expired)
        (shutdownObserved lateExpiry w.st (List.replicate 129 0)) := fun w hw =>
    (h hangupRound lateExpiry _ _ _ _ (by decide) w hw).timeout
  exact absurd hlaw (by decide +kernel)

end PadSvr
