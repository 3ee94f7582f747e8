import PadSvr.Process.Settings
import PadSvr.Session.Timed
import PadSvr.Writecfg

/-!
# A session never waits for good

The waits of a session process, over its whole life: the loop of `do_copy`, the invitation to clear
and the wait for the login process. The handler of the timer is installed, and its pipe open, before
the first of them.

## Main definitions

* `PEvent.waits`: the calls of a process that wait
* `OnTime F s₀`: every wait so far was limited, and the timers can be set

## Main results

* `serve_timed`: a session waits only with its timer running, or with the byte of its expiry in
  the pipe
-/

namespace PadSvr

open Scripted Scripted.Prog

/-- A call that waits for whatever comes first. -/
def PEvent.waits : PEvent → Bool
  | .sys k => k.waits
  | _ => false

/-- Where a process waits, the wait is limited. -/
def TimedWait (_ : PTrace) (k : PEvent) (p : Process) : Prop := k.waits = true → p.sess.Timed

instance (t : PTrace) (k : PEvent) (p : Process) : Decidable (TimedWait t k p) :=
  inferInstanceAs (Decidable (_ → _))

section OnTime

variable {α : Type} {F : CfgFile → Prop} {s₀ : Session} {w : PRun}

/-- So far. -/
def AllTimed (w : PRun) : Prop := Always TimedWait w.trace

/-- The settings that the timers are set by come from those of `s₀`. -/
structure OnTime (F : CfgFile → Prop) (s₀ : Session) (w : PRun) : Prop where
  timed : AllTimed w
  reloads : Reloads (Offers F) s₀ w.st.sess

/-- The handlers write to the pipe. -/
structure Awake (F : CfgFile → Prop) (s₀ : Session) (w : PRun) : Prop extends OnTime F s₀ w where
  pipeOpen : w.st.pipeOpen = true

theorem SameSession.reloads {p p' : Process} (h : SameSession p p') :
    Reloads (Offers F) p.sess p'.sess := by
  rw [h.sess]
  exact .of_eq rfl rfl

theorem AllTimed.call (h : AllTimed w) {k : PEvent} (hk : k.waits = false) (p p' : Process) :
    AllTimed ⟨p', w.trace ++ [(k, p)]⟩ :=
  always_concat.mpr ⟨h, fun hw => by rw [hk] at hw; cases hw⟩

theorem not_waits_of_isLeaving {k : PEvent} (hk : k.isLeaving = true) : k.waits = false := by
  cases k with
  | sys k => cases hk
  | _ => rfl

theorem not_waits_of_isStarting {k : PEvent} (hk : k.isStarting = true) : k.waits = false := by
  cases k with
  | sys k => cases hk
  | _ => rfl

theorem passes_allTimed : Passes Similar PEvent.isLeaving AllTimed := fun _ _ p p' h hk _ _ =>
  h.call (not_waits_of_isLeaving hk) p p'

theorem stays_onTime : Stays SameSession (OnTime F s₀) := fun _ _ h hs =>
  ⟨h.timed, IsTrans.trans _ _ _ h.reloads hs.reloads⟩

theorem passes_onTime : Passes SameSession PEvent.isStarting (OnTime F s₀) :=
  fun _ _ p p' h hk _ hs' => ⟨h.timed.call (not_waits_of_isStarting hk) p p',
    IsTrans.trans _ _ _ h.reloads hs'.reloads⟩

theorem stays_awake : Stays Similar (Awake F s₀) := fun _ _ h hs =>
  ⟨stays_onTime h.toOnTime hs.sameSession, hs.pipeOpen.trans h.pipeOpen⟩

theorem passes_awake : Passes Similar PEvent.isLeaving (Awake F s₀) := fun _ _ p p' h hk _ hs' =>
  ⟨⟨h.timed.call (not_waits_of_isLeaving hk) p p',
    IsTrans.trans _ _ _ h.reloads hs'.sameSession.reloads⟩, hs'.pipeOpen.trans h.pipeOpen⟩

/-- What a part does to the settings of the session, it does to those of the process. -/
theorem reloads_hold {s : Session} (h : Reloads (Offers F) w.st.sess s) :
    Reloads (Offers F) w.st.sess (w.st.hold s).sess := by
  refine IsTrans.trans _ _ _ h ?_
  unfold Process.hold
  split
  · exact Std.Refl.refl _
  · exact .of_eq rfl rfl

/-- **A part of the session**, with the pipe open. -/
theorem restores_orExit_awake {m : SProg α}
    (hm : ∀ w₀ : SRun, Reloads (Offers F) s₀ w₀.st →
      Keeps (Offers F) (fun w => WaitsTimed w ∧ Reloading (Offers F) w₀ w) m) :
    Restores (PEnv.Offers F) AllTimed (Awake F s₀) (orExit m) := by
  intro w hw
  have hafter : ∀ w₁, WaitsTimed w₁ ∧ Reloading (Offers F) ⟨w.st.sess, []⟩ w₁ →
      Awake F s₀ (after w w₁) := by
    rintro w₁ ⟨ht, hr⟩
    refine ⟨⟨always_append hw.timed fun x hx _ => ?_, IsTrans.trans _ _ _ hw.reloads
      (reloads_hold hr.1)⟩, hw.pipeOpen⟩
    obtain ⟨⟨k, s⟩, hy, rfl⟩ := List.mem_map.mp hx
    intro hk
    have htimed : s.Timed := ht _ hy hk
    rwa [Process.hold, if_pos hw.pipeOpen]
  have hpart := hm ⟨w.st.sess, []⟩ hw.reloads ⟨w.st.sess, []⟩ ⟨by simp [WaitsTimed], .refl _⟩
  exact wp_orExit (J := Awake F s₀) (wp_part hpart (fun _ he => he) hafter fun _ => hafter)
    (fun _ h => h.timed) fun kod _ h => wp_exit_passes passes_allTimed kod h.timed

/-- The Set message is sent before there is a handler, and without any wait. -/
theorem wp_x29SetDefault_onTime (behind : List X29Par) (h : OnTime F s₀ w) :
    wp (PEnv.Offers F) AllTimed (orExit (x29SetDefault behind)) (fun _ => OnTime F s₀) w := by
  have hquiet : Keeps (Offers F) (fun w₁ : SRun => ∀ x ∈ w₁.trace, x.1.waits = false)
      (x29SetDefault behind) := by
    refine keeps_x29SetDefault_abides (fun _ _ h => h) (fun w₁ k s s' h hk x hx => ?_) behind
    rcases List.mem_append.mp hx with hx | hx
    · exact h x hx
    · rwa [List.mem_singleton.mp hx]
  have hreload : Keeps (Offers F) (Reloading (Offers F) ⟨w.st.sess, []⟩) (x29SetDefault behind) :=
    keeps_x29SetDefault_reloading behind
  have hpart := (hquiet.and hreload) ⟨w.st.sess, []⟩ ⟨by simp, .refl _⟩
  have hafter : ∀ w₁ : SRun, (∀ x ∈ w₁.trace, x.1.waits = false) ∧
      Reloading (Offers F) ⟨w.st.sess, []⟩ w₁ → OnTime F s₀ (after w w₁) := by
    rintro w₁ ⟨hq, hr⟩
    refine ⟨always_append h.timed fun x hx _ => ?_, IsTrans.trans _ _ _ h.reloads
      (reloads_hold hr.1)⟩
    obtain ⟨⟨k, s⟩, hy, rfl⟩ := List.mem_map.mp hx
    intro hk
    have hno : k.waits = false := hq _ hy
    rw [show PEvent.waits (.sys k) = k.waits from rfl, hno] at hk
    cases hk
  exact wp_orExit (J := OnTime F s₀) (wp_part hpart (fun _ he => he) hafter fun _ => hafter)
    (fun _ h => h.timed) fun kod _ h => wp_exit_passes passes_allTimed kod h.timed

/-- `chil_setsignal` ends with the pipe open. -/
theorem wp_chilSetsignal_awake (h : OnTime F s₀ w) :
    wp (PEnv.Offers F) AllTimed chilSetsignal (fun _ => Awake F s₀) w := by
  unfold chilSetsignal
  refine wp_seq (restores_install_stays stays_onTime (fun _ h => h.timed) _ w h) fun _ w h => ?_
  refine wp_bind (wp_pcall h.timed fun e _ r hr => ?_)
  have hmeet := (similar_meet e w.st).sameSession
  split at hr
  · cases hr
    refine wp_pure ⟨passes_onTime h rfl hmeet ⟨?_, hmeet.role⟩, rfl⟩
    rw [hmeet.sess]
  · cases hr
    exact wp_exit_passes passes_allTimed 1 (h.timed.call rfl _ _)

/-- The parts of a session. -/
theorem phases_timed (behind : List X29Par) (hn : s₀.netTimeout ≠ 0)
    (hwatch : ∀ c, CfgReach (Offers F) s₀.cfg c → c.watchdogTimeout ≠ 0) :
    ServePhases (PEnv.Offers F) behind AllTimed (OnTime F s₀) (OnTime F s₀) (Awake F s₀)
      (Awake F s₀) (Awake F s₀) (Awake F s₀) where
  everywhere := passes_allTimed
  starting := ⟨stays_onTime, passes_onTime, fun _ h => h.timed⟩
  handling := ⟨stays_awake, fun _ h => h.timed⟩
  ready := ⟨stays_awake, fun _ h => h.timed⟩
  left := ⟨stays_awake, passes_awake, fun _ h => h.timed⟩
  greet _ h := wp_x29SetDefault_onTime behind h
  handlers _ h := wp_chilSetsignal_awake h
  start w bufn bufd h _ := restores_orExit_awake (fun w₀ _ =>
    (show Keeps (Offers F) WaitsTimed (modify (doCopyStart · bufn bufd)) from
      fun _ h => wp_modify h).and (keeps_modify_reloading fun _ => ⟨rfl, rfl⟩)) w h
  loop := restores_orExit_awake fun w₀ h => keeps_doCopyLoop_timed fun c hc =>
    hwatch c (h.cfg.trans hc)
  close w block h := restores_orExit_awake (fun w₀ hr =>
    keeps_closeLine_timed (by rwa [hr.netTimeout]) block) w h
  await w block h := wp_mono (restores_orExit_awake (fun w₀ hr =>
    keeps_waitExitstatus_timed (by rwa [hr.netTimeout]) block) w h) (fun _ h => h)
    fun _ _ h => h.timed

end OnTime

/-- Reloads leave the settings in their ranges. -/
theorem inRange_of_reach {E : Env → Prop} {c c' : Settings} (h : CfgReach E c c')
    (hc : c.InRange) : c'.InRange := by
  induction h with
  | refl => exact hc
  | tail _ hstep ih =>
    obtain ⟨e, -, b, hr⟩ := hstep
    exact readcfgLines_inRange (fun _ => CfgFile.length_of_mem_lines) ih
      (readcfgLines_of_readcfg hr)

/-- **A session never waits for good.** Wherever it waits, in the loop of `do_copy` or behind it,
the timer of the watchdog is running, or it has expired and the byte of its handler is in the pipe,
whatever happens, fails or is reloaded meanwhile. -/
theorem serve_timed {p : Process} (hc : p.sess.cfg.InRange) (hn : p.sess.netTimeout ≠ 0)
    (behind : List X29Par) (es : List PEnv) : Always TimedWait (serveTrace behind es p) := by
  have hwatch : ∀ c, CfgReach (Offers fun _ => True) p.sess.cfg c → c.watchdogTimeout ≠ 0 :=
    fun c h => by
      have hr := (inRange_of_reach h hc).watchdogTimeout
      omega
  have hstart : OnTime (fun _ => True) p.sess ⟨{ serveStart p with blocked := false }, []⟩ :=
    ⟨always_nil, Std.Refl.refl _⟩
  exact always_of_wp (I := AllTimed) ((phases_timed behind hn hwatch).wp_serve
    (w := ⟨serveStart p, []⟩) (Q := fun _ _ => False) hstart) (fun _ _ h => h.elim)
    fun _ _ => trivial

/-- The timer expires as soon as it runs, and `poll` reports the byte. -/
def expiring : PEnv :=
  { before := [.wtimer], env := { Env.willing with poll := .ready {} {} { pollin := true } } }

/-- One wait of the loop, and one of each closing phase. -/
theorem serve_timed_expiring :
    Always TimedWait (serveTrace [⟨0, 0⟩] (List.replicate 60 expiring) smallProcess) ∧
      ((serveTrace [⟨0, 0⟩] (List.replicate 60 expiring) smallProcess).filter fun x =>
        x.1.waits).length = 3 := by
  have hrange : smallProcess.sess.cfg.InRange := by
    constructor
    all_goals decide
  exact ⟨serve_timed hrange (by decide) _ _, by decide +kernel⟩

end PadSvr
