import PadSvr.Config.Unedited
import PadSvr.Process.Path
import PadSvr.Process.Phases
import PadSvr.Session.Settings

/-!
# The settings of the daemon

The accepting process starts with the settings of the monitor, and a session with those of the
accepting process. From then on each of them has its own, and rereads the configuration file when it
is told to. Nothing else touches the settings.

## Main definitions

* `Offers F`: the files of the script are in `F`
* `Rereads F cfg`: the frame of what the other processes do to their settings
* `Daemon.cfg`: the settings of the process that a path has come to
* `Descends F`: what a process does to its settings

## Main results

* `daemon_reloads`: on every path, the settings come from those at its start by reloads
* `daemon_unedited`: they stay the same while nobody edits the file
-/

namespace PadSvr

open Scripted Scripted.Prog

/-- The files that are read are in `F`. -/
abbrev Offers (F : CfgFile → Prop) (e : Env) : Prop := F e.file

/-- The settings that `cfg` shows are reloaded, or stay the same. -/
def Rereads {σ : Type} (F : CfgFile → Prop) (cfg : σ → Settings) (s s' : σ) : Prop :=
  CfgReach (Offers F) (cfg s) (cfg s')

section Parts

variable {α : Type} {F : CfgFile → Prop}

section Rereads

variable {σ : Type} {cfg : σ → Settings} {s s' : σ}

theorem Rereads.of_eq (h : cfg s' = cfg s) : Rereads F cfg s s' := by
  rw [Rereads, h]
  exact .refl

theorem Rereads.of_readcfg {file : CfgFile} {b : Bool} (hF : F file)
    (h : readcfg file (cfg s) = .ok (b, cfg s')) : Rereads F cfg s s' :=
  .single ⟨{ Env.willing with file := file }, hF, b, h⟩

instance : Std.Refl (Rereads F cfg) where
  refl _ := .of_eq rfl

instance : IsTrans σ (Rereads F cfg) where
  trans _ _ _ h h' := Relation.ReflTransGen.trans h h'

end Rereads

/-! ## The monitor -/

section Monitor

/-- What the monitor does to its settings. -/
abbrev MoniReloading (F : CfgFile → Prop) : MRun → MRun → Prop :=
  Within (Rereads F Moni.cfg) fun _ _ => True

variable {w₀ : MRun}

/-- The entry offers a file that is in `F`. -/
abbrev MEnv.Offers (F : CfgFile → Prop) (e : MEnv) : Prop := F e.file

theorem arrive_cfg (e : MEnv) (s : Moni) : (arrive e s).cfg = s.cfg :=
  arrive_induction (P := fun s' => s'.cfg = s.cfg) (fun s' a _ h => by
    rcases run_cases a s' with ⟨i, p, -, -, hr⟩ | ⟨g, cs, hr⟩
    · rw [hr]
      exact h
    · rw [hr]
      exact h) rfl

theorem keeps_monitorCall_reloading {f : MEnv → Moni → Option (MEvent × Moni × α)}
    (hf : ∀ e s r, F e.file → f e s = some r → Rereads F Moni.cfg s r.2.1) :
    Keeps (MEnv.Offers F) (MoniReloading F w₀) (monitorCall f) := fun w hw =>
  wp_monitorCall hw fun e he r hr =>
    have harrive : Rereads F Moni.cfg w.st (arrive e w.st) := .of_eq (arrive_cfg e w.st)
    Within.call hw harrive (IsTrans.trans _ _ _ harrive (hf e _ r he hr)) trivial

/-- A call that does not read the file. -/
theorem keeps_monitorCall_same {f : MEnv → Moni → Option (MEvent × Moni × α)}
    (hf : ∀ e s r, f e s = some r → r.2.1.cfg = s.cfg) :
    Keeps (MEnv.Offers F) (MoniReloading F w₀) (monitorCall f) :=
  keeps_monitorCall_reloading fun e s r _ hr => .of_eq (hf e s r hr)

theorem keeps_sigsuspend_reloading : Keeps (MEnv.Offers F) (MoniReloading F w₀) sigsuspend := by
  unfold sigsuspend
  refine .iter (fun _ w hw => wp_step hw fun e _ r hr => ?_) _
  have harrive : Rereads F Moni.cfg w.st (arrive e w.st) := .of_eq (arrive_cfg e w.st)
  dsimp only at hr
  split at hr
  · cases hr
    exact Within.call hw harrive harrive trivial
  · cases hr
    rw [List.append_nil]
    exact Within.trans hw (.of_rel (IsTrans.trans _ _ _ harrive (.of_eq rfl)))

theorem keeps_chldPart_reloading : Keeps (MEnv.Offers F) (MoniReloading F w₀) chldPart := by
  have hsame : ∀ {f : Moni → Moni}, (∀ s, (f s).cfg = s.cfg) →
      Keeps (MEnv.Offers F) (MoniReloading F w₀) (modify f : MProg Unit) := fun hf =>
    keeps_within_modify fun s => .of_eq (hf s)
  have hwait : Keeps (MEnv.Offers F) (MoniReloading F w₀) waitMainWork := by
    unfold waitMainWork
    refine .bind (keeps_monitorCall_same fun e s r hr => ?_) fun _ =>
      keeps_monitorCall_same fun e s r hr => ?_
    · cases hr
      rfl
    · split at hr
      · cases hr
        rfl
      · split at hr
        · cases hr
          rfl
        · cases hr
  unfold chldPart
  refine .bind .get fun _ => .ite (.bind (hsame fun _ => rfl) fun _ => .bind hwait fun _ =>
    .bind .get fun s => ?_) .pure
  split
  · exact .ite .pure (.bind (hsame fun _ => rfl) fun _ => .pure)
  · exact .pure

/-- The monitor rereads the file. -/
theorem keeps_hupPart_reloading : Keeps (MEnv.Offers F) (MoniReloading F w₀) hupPart := by
  unfold hupPart
  refine .bind .get fun _ => .ite (.bind (keeps_within_modify fun _ => .of_eq rfl) fun _ =>
    keeps_monitorCall_reloading fun e s r hF hr => ?_) .pure
  split at hr
  · cases hr
  · next b c hread =>
    cases hr
    exact Rereads.of_readcfg hF hread

theorem tableFree_reloading :
    TableFree (MEnv.Offers F) (MoniReloading F w₀) (MoniReloading F w₀) where
  everywhere _ hw := hw
  state _ _ hw hs := Within.trans hw (.of_rel (.of_eq hs.cfg))
  call w e _ hw _ _ :=
    have harrive : Rereads F Moni.cfg w.st (arrive e w.st) := .of_eq (arrive_cfg e w.st)
    Within.call hw harrive harrive trivial
  fault _ hw := Within.call hw (.of_eq rfl) (.of_eq rfl) trivial

end Monitor

/-! ## The accepting process -/

section Acceptor

/-- What the accepting process does to its settings. -/
abbrev AccReloading (F : CfgFile → Prop) : ARun → ARun → Prop :=
  Within (Rereads F Acceptor.cfg) fun _ _ => True

/-- The entry offers a file that is in `F`. -/
abbrev AEnv.Offers (F : CfgFile → Prop) (e : AEnv) : Prop := F e.file

variable {w₀ : ARun}

theorem come_cfg (c : Coming) (s : Acceptor) : (c.run s).cfg = s.cfg := by
  cases c with
  | signal g => rcases h : bossSignal g with _ | g' <;> simp [Coming.run, h, Signal.runBoss]
  | ends i => by_cases h : s.children[i]? = some .running <;> simp [Coming.run, h]

theorem keeps_astmt_reloading {pl : Place}
    {f : AEnv → Acceptor → Option (List AEvent × Acceptor × α)}
    (hf : ∀ e s r, F e.file → f e s = some r → Rereads F Acceptor.cfg s r.2.1) :
    Keeps (AEnv.Offers F) (AccReloading F w₀) (astmt pl f) := fun w hw =>
  wp_astmt hw hw (fun w hw c => Within.call hw (Std.Refl.refl _) (.of_eq (come_cfg c w.st)) trivial)
    fun w hw e he r hr => Within.trans hw ⟨hf e _ r he hr, _, rfl, fun x hx => by
      obtain ⟨k, -, rfl⟩ := List.mem_map.mp hx
      exact ⟨Std.Refl.refl _, trivial⟩⟩

/-- A statement that does not read the file. -/
theorem keeps_astmt_same {pl : Place} {f : AEnv → Acceptor → Option (List AEvent × Acceptor × α)}
    (hf : ∀ e s r, f e s = some r → r.2.1.cfg = s.cfg) :
    Keeps (AEnv.Offers F) (AccReloading F w₀) (astmt pl f) :=
  keeps_astmt_reloading fun e s r _ hr => .of_eq (hf e s r hr)

theorem keeps_bossInter_reloading : Keeps (AEnv.Offers F) (AccReloading F w₀) bossInter := by
  have htest : ∀ {pl up}, Keeps (AEnv.Offers F) (AccReloading F w₀) (atest pl up) :=
    keeps_astmt_same fun e s r hr => by
      cases hr
      rfl
  have hassign : ∀ {pl f}, (∀ s : Acceptor, (f s).cfg = s.cfg) →
      Keeps (AEnv.Offers F) (AccReloading F w₀) (aassign pl f) := fun hf =>
    keeps_astmt_same fun e s r hr => by
      cases hr
      exact hf s
  have hwaitpid : Keeps (AEnv.Offers F) (AccReloading F w₀) waitpid :=
    keeps_astmt_same fun e s r hr => by
      dsimp only at hr
      split at hr
      · cases hr
        rfl
      · split at hr <;> cases hr <;> rfl
  have hread : Keeps (AEnv.Offers F) (AccReloading F w₀) bossHup := by
    unfold bossHup
    refine .bind htest fun _ => .ite (.bind (keeps_astmt_reloading fun e s r hF hr => ?_)
      fun _ => hassign fun _ => rfl) .pure
    split at hr
    · cases hr
    · next b c hread =>
      cases hr
      exact Rereads.of_readcfg hF hread
  unfold bossInter bossChld bossAlrm bossExit reapAll
  refine .bind (.bind htest fun _ => .ite (.bind (.iter (fun _ => .bind hwaitpid fun _ =>
    .ite .pure .pure) _) fun _ => hassign fun _ => rfl) .pure) fun _ => .bind hread fun _ => ?_
  exact .bind (.bind htest fun _ => .ite (hassign fun _ => rfl) .pure) fun _ =>
    .bind htest fun _ => .ite (hassign fun _ => rfl) .pure

theorem keeps_acceptCall_reloading : Keeps (AEnv.Offers F) (AccReloading F w₀) acceptCall := by
  unfold acceptCall acceptWait
  refine .bind (keeps_astmt_same fun e s r hr => ?_) fun _ =>
    .iter (fun _ w hw => wp_step hw fun e _ r hr => ?_) _
  · cases hr
    rfl
  · split at hr
    · cases hr
      rwa [List.append_nil]
    · next c _ _ =>
      have hc := come_cfg c w.st
      split at hr
      · cases hr
        exact Within.call hw (Std.Refl.refl _) (.of_eq hc) trivial
      · cases hr
        refine Within.trans hw ⟨.of_eq hc, _, rfl, fun x hx => ?_⟩
        rcases List.mem_cons.mp hx with rfl | hx
        · exact ⟨Std.Refl.refl _, trivial⟩
        · obtain rfl := List.mem_singleton.mp hx
          exact ⟨.of_eq hc, trivial⟩

/-- **`do_main_work`** changes the settings by reloads. -/
theorem keeps_mainWork_reloading : Keeps (AEnv.Offers F) (AccReloading F w₀) mainWork := by
  have hfork : Keeps (AEnv.Offers F) (AccReloading F w₀) forkSession :=
    keeps_astmt_same fun e s r hr => by
      split at hr <;> cases hr <;> rfl
  have hclose : Keeps (AEnv.Offers F) (AccReloading F w₀) (aassign .close id) :=
    keeps_astmt_same fun e s r hr => by
      cases hr
      rfl
  unfold mainWork acceptLoop
  refine .bind (keeps_astmt_same fun e s r hr => ?_) fun _ => .ite (.iter (fun _ => ?_) _) .pure
  · cases hr
    rfl
  · refine .bind .get fun _ => .ite .pure (.bind keeps_acceptCall_reloading fun a => ?_)
    cases a with
    | intr => exact .bind keeps_bossInter_reloading fun _ => .pure
    | fail => exact .pure
    | call =>
      refine .bind hfork fun a => ?_
      cases a with
      | fail => exact .pure
      | child pid => exact .pure
      | parent => exact .bind hclose fun _ => .pure

end Acceptor

/-! ## A session -/

section Session

/-- What a process does to its settings, and to its role. -/
structure Descends (F : CfgFile → Prop) (p p' : Process) : Prop where
  cfg : CfgReach (Offers F) p.sess.cfg p'.sess.cfg
  role : p'.role = p.role ∨ p'.role = .login

instance : Std.Refl (Descends F) where
  refl _ := ⟨.refl, Or.inl rfl⟩

instance : IsTrans Process (Descends F) where
  trans _ _ _ h h' := ⟨h.cfg.trans h'.cfg, by
    rcases h'.role with hr | hr
    · rw [hr]
      exact h.role
    · exact Or.inr hr⟩

/-- The frame of a session. -/
abbrev Descending (F : CfgFile → Prop) : PRun → PRun → Prop := Within (Descends F) fun _ _ => True

/-- The entry offers a file that is in `F`. -/
abbrev PEnv.Offers (F : CfgFile → Prop) (e : PEnv) : Prop := F e.env.file

variable {w₀ w : PRun}

theorem SameSession.descends {p p' : Process} (h : SameSession p p') : Descends F p p' :=
  ⟨by rw [h.sess]; exact .refl, h.role⟩

theorem stays_descending : Stays SameSession (Descending F w₀) := fun _ _ h hs =>
  Within.trans h (.of_rel hs.descends)

theorem passes_descending {ks : PEvent → Bool} : Passes SameSession ks (Descending F w₀) :=
  fun _ _ _ _ h _ hs hs' => Within.call h hs.descends hs'.descends trivial

theorem passes_descending_similar {ks : PEvent → Bool} : Passes Similar ks (Descending F w₀) :=
  fun _ _ _ _ h hk hs hs' => passes_descending h hk hs.sameSession hs'.sameSession

theorem stays_descending_similar : Stays Similar (Descending F w₀) := fun _ _ h hs =>
  stays_descending h hs.sameSession

/-- What a part does to the settings of the session, it does to those of the process. -/
theorem Descending.after (h : Descending F w₀ w) {w₁ : SRun}
    (h₁ : Reloading (Offers F) ⟨w.st.sess, []⟩ w₁) : Descending F w₀ (after w w₁) := by
  have hhold : ∀ s : Session, Reloads (Offers F) w.st.sess s → Descends F w.st (w.st.hold s) :=
    fun s hs => ⟨by rw [hold_cfg]; exact hs.cfg, Or.inl rfl⟩
  obtain ⟨hR, t, ht, hcalls⟩ := h₁
  refine Within.trans h ⟨hhold _ hR, _, rfl, fun x hx => ?_⟩
  obtain ⟨y, hy, rfl⟩ := List.mem_map.mp hx
  rw [ht, List.nil_append] at hy
  exact ⟨hhold _ (hcalls y hy).1, trivial⟩

/-- **A part of the session**, which `Exit` may cut short. -/
theorem restores_orExit_descending {m : SProg α}
    (hm : ∀ w₁, Keeps (Offers F) (Reloading (Offers F) w₁) m) :
    Keeps (PEnv.Offers F) (Descending F w₀) (orExit m) := fun w hw =>
  wp_orExit (wp_part (wp_within (hm ⟨w.st.sess, []⟩)) (fun _ he => he) (fun _ h₁ => hw.after h₁)
    fun _ _ h₁ => hw.after h₁) (fun _ h => h)
    fun kod _ h => wp_exit_passes passes_descending_similar kod h

/-- The parts of a session. -/
theorem phases_descending (behind : List X29Par) :
    ServePhases (PEnv.Offers F) behind (Descending F w₀) (Descending F w₀) (Descending F w₀)
      (Descending F w₀) (Descending F w₀) (Descending F w₀) (Descending F w₀) where
  everywhere := passes_descending_similar
  starting := ⟨stays_descending, passes_descending, fun _ h => h⟩
  handling := ⟨stays_descending_similar, fun _ h => h⟩
  ready := ⟨stays_descending_similar, fun _ h => h⟩
  left := ⟨stays_descending_similar, passes_descending_similar, fun _ h => h⟩
  greet := restores_orExit_descending fun _ => keeps_x29SetDefault_reloading behind
  handlers _ h := wp_chilSetsignal_stays stays_descending passes_descending (fun _ h => h)
    passes_descending_similar h
  start w bufn bufd h _ :=
    restores_orExit_descending
      (fun _ => keeps_modify_reloading (f := (doCopyStart · bufn bufd)) fun _ => ⟨rfl, rfl⟩) w h
  loop := restores_orExit_descending fun _ => keeps_doCopyLoop_reloading
  close w block h :=
    restores_orExit_descending (fun _ => keeps_closeLine_reloading block) w h
  await w block h :=
    restores_orExit_descending (fun _ => keeps_waitExitstatus_reloading block) w h

/-- **A session**, from its fork to its end, changes its settings by reloads. -/
theorem wp_session_descending (behind : List X29Par) (addr : List Char)
    {Q : Unit → PRun → Prop} (h : Descending F w₀ w) :
    wp (PEnv.Offers F) (Descending F w₀) (session behind addr) Q w := by
  have hrequire : Keeps (PEnv.Offers F) (Descending F w₀) require :=
    restores_require_stays stays_descending_similar (fun _ h => h) passes_descending_similar
  have hpstmt : ∀ {β : Type} {f : PEnv → Process → Process × β},
      (∀ e p, (f e p).1.sess.cfg = p.sess.cfg ∧ (f e p).1.role = p.role) →
        Keeps (PEnv.Offers F) (Descending F w₀) (pstmt f) := fun hf w hw =>
    wp_pstmt hw fun e _ => by
      obtain ⟨hc, hr⟩ := hf e (w.st.meet e)
      refine Within.trans (stays_descending hw (similar_meet e w.st).sameSession)
        (.of_rel ⟨?_, Or.inl hr⟩)
      rw [hc]
      exact .refl
  have hsend : ∀ pts addr, Keeps (PEnv.Offers F) (Descending F w₀) (sendPtsAddrCall pts addr) :=
    fun pts addr w hw => wp_pcall hw fun e _ r hr => by
      have hmeet := (similar_meet e w.st).sameSession
      cases hr
      exact (passes_descending : Passes SameSession PEvent.isLeaving (Descending F w₀)) hw rfl hmeet
        ⟨hmeet.sess, hmeet.role⟩
  unfold session register
  refine wp_bind (wp_bind (wp_modify ?_))
  have h₁ : Descending F w₀ ⟨{ w.st with blocked := true, flagIamchild := true }, w.trace⟩ :=
    stays_descending h ⟨rfl, Or.inl rfl⟩
  refine wp_seq (hrequire _ h₁) fun _ w h => ?_
  refine wp_seq (hpstmt (fun _ _ => ⟨rfl, rfl⟩) w h) fun name w h => ?_
  refine wp_seq (hpstmt (fun _ _ => ⟨rfl, rfl⟩) w h) fun _ w h => wp_bind (wp_modify ?_)
  have h₂ : Descending F w₀ ⟨{ w.st with flagPtsAddrSendStatus := 1 }, w.trace⟩ :=
    stays_descending h ⟨rfl, Or.inl rfl⟩
  refine wp_seq (hsend _ _ _ h₂) fun _ w h => wp_seq (hrequire w h) fun _ w h => ?_
  refine wp_mono (hpstmt (fun _ _ => ⟨rfl, rfl⟩) w h) (fun _ h => h) fun _ w h => ?_
  exact (phases_descending behind).wp_serve (stays_descending h ⟨rfl, Or.inl rfl⟩)

end Session

/-! ## Above the sessions -/

section Above

/-- It is the same process. -/
def SameRole (p p' : Process) : Prop := p'.role = p.role

instance : Std.Refl SameRole where
  refl _ := rfl

instance : IsTrans Process SameRole where
  trans _ _ _ h h' := Eq.trans h' h

/-- The frame of a process that does not fork. -/
abbrev Alone : PRun → PRun → Prop := Within SameRole fun _ _ => True

variable {w₀ w : PRun}

theorem passes_alone : Passes Similar PEvent.isLeaving (Alone w₀) := fun _ _ _ _ h _ hs hs' =>
  Within.call h hs.role hs'.role trivial

theorem keeps_pstmt_alone {f : PEnv → Process → Process × α} (hf : ∀ e p, (f e p).1.role = p.role) :
    Keeps anyEntry (Alone w₀) (pstmt f) := fun w hw =>
  wp_pstmt hw fun e _ => Within.trans hw (.of_rel ((hf e _).trans (similar_meet e w.st).role))

theorem keeps_require_alone : Keeps anyEntry (Alone w₀) require :=
  restores_require (fun _ h => wp_exit_passes passes_alone 1 h) (keeps_pstmt_alone fun _ _ => rfl)

theorem keeps_install_alone (as : List (Signo × Handler)) :
    Keeps anyEntry (Alone w₀) (install as) := by
  induction as with
  | nil => exact .pure
  | cons a as ih => exact .bind (keeps_pstmt_alone fun _ _ => rfl) fun _ => ih

end Above

end Parts

/-! ## The tree of processes -/

/-- The settings of the process that the path has come to. -/
def Daemon.cfg (d : Daemon) : Settings :=
  match d.proc.role with
  | .monitor => d.moni.cfg
  | .acceptor => d.acc.cfg
  | _ => d.proc.sess.cfg

/-- Whichever process reads a file, it is in `F`. -/
structure DEnv.Offers (F : CfgFile → Prop) (e : DEnv) : Prop where
  moni : F e.moni.file
  acc : F e.acc.file
  proc : F e.proc.env.file

section Path

variable {α : Type} {F : CfgFile → Prop} {c₀ : Settings} {r : Role} {w : DRun}

/-- Every call so far was made with settings that reloads lead to. -/
def Sourced (F : CfgFile → Prop) (c₀ : Settings) (w : DRun) : Prop :=
  ∀ x ∈ w.trace, CfgReach (Offers F) c₀ x.2.cfg

/-- And so will the next one be, in a process of the role `r`. -/
structure Acting (F : CfgFile → Prop) (c₀ : Settings) (r : Role) (w : DRun) : Prop where
  calls : Sourced F c₀ w
  role : w.st.proc.role = r
  cfg : CfgReach (Offers F) c₀ w.st.cfg

/-- A part of the path. -/
theorem Sourced.under {κ σ : Type} {put : Daemon → σ → Daemon} {call : κ → DEvent}
    {w₁ : Run κ σ} (h : Sourced F c₀ w)
    (h₁ : ∀ x ∈ w₁.trace, CfgReach (Offers F) c₀ (put w.st x.2).cfg) :
    Sourced F c₀ (w.under put call w₁) := by
  intro x hx
  rcases List.mem_append.mp hx with hx | hx
  · exact h x hx
  · obtain ⟨y, hy, rfl⟩ := List.mem_map.mp hx
    exact h₁ y hy

/-- The calls of a frame that starts with the part. -/
theorem Sourced.within {κ σ : Type} {put : Daemon → σ → Daemon} {call : κ → DEvent}
    {R : σ → σ → Prop} {N : κ → σ → Prop} {s : σ} {w₁ : Run κ σ} (h : Sourced F c₀ w)
    (h₁ : Within R N ⟨s, []⟩ w₁) (hR : ∀ s', R s s' → CfgReach (Offers F) c₀ (put w.st s').cfg) :
    Sourced F c₀ (w.under put call w₁) := by
  obtain ⟨-, t, ht, hcalls⟩ := h₁
  refine h.under fun x hx => hR _ (hcalls x ?_).1
  rwa [← List.nil_append t, ← ht]

theorem Acting.moni_cfg (h : Acting F c₀ .monitor w) :
    CfgReach (Offers F) c₀ w.st.moni.cfg := by
  have hc := h.cfg
  rwa [Daemon.cfg, h.role] at hc

/-- The monitor assigns some of its variables. -/
theorem Acting.modify (h : Acting F c₀ .monitor w) {d : Daemon}
    (hrole : d.proc.role = w.st.proc.role) (hm : d.moni.cfg = w.st.moni.cfg) :
    Acting F c₀ .monitor ⟨d, w.trace⟩ := by
  refine ⟨h.calls, hrole.trans h.role, ?_⟩
  rw [Daemon.cfg, hrole.trans h.role, hm]
  exact h.moni_cfg

theorem wp_asMoni_acting {m : MProg α} (hm : ∀ w₁, Keeps (MEnv.Offers F) (MoniReloading F w₁) m)
    (h : Acting F c₀ .monitor w) :
    wp (DEnv.Offers F) (Sourced F c₀) (asMoni m) (fun _ => Acting F c₀ .monitor) w := by
  have hreach : ∀ s : Moni, Rereads F Moni.cfg w.st.moni s →
      CfgReach (Offers F) c₀ ({ w.st with moni := s } : Daemon).cfg := fun s hs => by
    rw [Daemon.cfg, h.role]
    exact h.moni_cfg.trans hs
  exact wp_zoom (wp_within (hm ⟨w.st.moni, []⟩)) (fun _ he => he.moni)
    (fun _ h₁ => h.calls.within h₁ hreach)
    fun _ _ h₁ => ⟨h.calls.within h₁ hreach, h.role, hreach _ h₁.1⟩

theorem wp_asAcc_acting {m : AProg α} (hm : ∀ w₁, Keeps (AEnv.Offers F) (AccReloading F w₁) m)
    (h : Acting F c₀ .acceptor w) :
    wp (DEnv.Offers F) (Sourced F c₀) (asAcc m) (fun _ => Acting F c₀ .acceptor) w := by
  have hreach : ∀ s : Acceptor, Rereads F Acceptor.cfg w.st.acc s →
      CfgReach (Offers F) c₀ ({ w.st with acc := s } : Daemon).cfg := fun s hs => by
    have hc := h.cfg
    rw [Daemon.cfg, h.role] at hc ⊢
    exact hc.trans hs
  exact wp_zoom (wp_within (hm ⟨w.st.acc, []⟩)) (fun _ he => he.acc)
    (fun _ h₁ => h.calls.within h₁ hreach)
    fun _ _ h₁ => ⟨h.calls.within h₁ hreach, h.role, hreach _ h₁.1⟩

/-- The monitor and the accepting process have their settings for themselves. -/
theorem Acting.cfg_proc (h : Acting F c₀ r w) (hr : r = .monitor ∨ r = .acceptor) {p : Process}
    (hp : SameRole w.st.proc p) :
    CfgReach (Offers F) c₀ ({ w.st with proc := p } : Daemon).cfg := by
  have hc := h.cfg
  have hrole : p.role = r := Eq.trans hp h.role
  unfold Daemon.cfg at hc ⊢
  rcases hr with rfl | rfl
  · simpa [hrole, h.role] using hc
  · simpa [hrole, h.role] using hc

/-- What the monitor or the accepting process does as any process does. -/
theorem wp_asProc_acting {m : PProg α} (hr : r = .monitor ∨ r = .acceptor)
    (hm : ∀ w₁, Keeps anyEntry (Alone w₁) m) (h : Acting F c₀ r w) :
    wp (DEnv.Offers F) (Sourced F c₀) (asProc m) (fun _ => Acting F c₀ r) w :=
  wp_zoom (wp_within (hm ⟨w.st.proc, []⟩)) (fun _ _ => trivial)
    (fun _ h₁ => h.calls.within h₁ fun _ hp => h.cfg_proc hr hp)
    fun _ _ h₁ => ⟨h.calls.within h₁ fun _ hp => h.cfg_proc hr hp, Eq.trans h₁.1 h.role,
      h.cfg_proc hr h₁.1⟩

theorem wp_exit_acting (hr : r = .monitor ∨ r = .acceptor) (kod : ℕ) {Q : α → DRun → Prop}
    (h : Acting F c₀ r w) : wp (DEnv.Offers F) (Sourced F c₀) (asProc (exit kod)) Q w :=
  wp_zoom (E := anyEntry) (Q := fun _ _ => False) (wp_exit_passes passes_alone kod (.refl _))
    (fun _ _ => trivial) (fun _ h₁ => h.calls.within h₁ fun _ hp => h.cfg_proc hr hp)
    fun _ _ h => h.elim

/-- The accepting process starts with the settings of the monitor. -/
theorem Acting.startMainWork (hcalls : Sourced F c₀ w) (hrole : w.st.proc.role = .acceptor)
    (hc : CfgReach (Offers F) c₀ w.st.moni.cfg) :
    Acting F c₀ .acceptor ⟨w.st.startMainWork, w.trace⟩ := by
  refine ⟨hcalls, hrole, ?_⟩
  have hrole' : w.st.startMainWork.proc.role = .acceptor := hrole
  rw [Daemon.cfg, hrole']
  exact hc

/-- Behind the fork of an accepting process, which has the settings of the monitor at hand. -/
structure Descended (F : CfgFile → Prop) (c₀ : Settings) (w : DRun) : Prop where
  calls : Sourced F c₀ w
  role : w.st.proc.role = .acceptor
  cfg : CfgReach (Offers F) c₀ w.st.moni.cfg

/-- Behind the fork of a session, which starts with the settings of the accepting process. -/
structure Inherited (F : CfgFile → Prop) (c₀ : Settings) (w : DRun) : Prop where
  calls : Sourced F c₀ w
  role : w.st.proc.role = .session
  cfg : CfgReach (Offers F) c₀ w.st.proc.sess.cfg

theorem wp_session_inherited (behind : List X29Par) (addr : List Char) {Q : Unit → DRun → Prop}
    (h : Inherited F c₀ w) :
    wp (DEnv.Offers F) (Sourced F c₀) (asProc (session behind addr)) Q w := by
  have hsess : wp (PEnv.Offers F) (Descending F ⟨w.st.proc, []⟩) (session behind addr)
      (fun _ _ => False) ⟨w.st.proc, []⟩ := wp_session_descending behind addr (.refl _)
  refine wp_zoom hsess (fun _ he => he.proc) (fun w₁ h₁ => ?_) fun _ _ h => h.elim
  refine h.calls.within h₁ fun p hp => ?_
  have hreach : CfgReach (Offers F) c₀ p.sess.cfg := h.cfg.trans hp.cfg
  rcases hp.role with hrole | hrole
  · have hrole : p.role = .session := hrole.trans h.role
    rwa [Daemon.cfg, hrole]
  · rwa [Daemon.cfg, hrole]

/-- `fork` in the monitor, which returns in it or in the accepting process. -/
theorem wp_forkCall_acting (h : Acting F c₀ .monitor w) :
    wp (DEnv.Offers F) (Sourced F c₀) (asProc (forkCall .acceptor))
      (fun a w' => if a.isChild then Descended F c₀ w' else Acting F c₀ .monitor w') w := by
  have hfork : wp anyEntry (Alone ⟨w.st.proc, []⟩) (forkCall .acceptor) (fun a w₁ =>
      Alone ⟨w.st.proc, []⟩ ⟨w.st.proc, w₁.trace⟩ ∧
        w₁.st.role = if a.isChild then .acceptor else w.st.proc.role) ⟨w.st.proc, []⟩ := by
    refine wp_pcall (.refl _) fun e _ r hr => ?_
    have hrole : (w.st.proc.meet e).role = w.st.proc.role := (similar_meet e w.st.proc).role
    refine ⟨Within.call (.refl _) hrole rfl trivial, ?_⟩
    rcases hf : e.fork with _ | pid | _
    all_goals
      simp only [hf] at hr
      cases hr
    · exact hrole
    · rfl
    · exact hrole
  refine wp_zoom hfork (fun _ _ => trivial)
    (fun _ h₁ => h.calls.within h₁ fun _ hp => h.cfg_proc (Or.inl rfl) hp) fun a w₁ h₁ => ?_
  have hcalls : Sourced F c₀ (w.under (fun d p => { d with proc := p }) DEvent.proc w₁) := by
    refine h.calls.under fun x hx => h.cfg_proc (Or.inl rfl) ?_
    obtain ⟨⟨-, t, ht, hx'⟩, -⟩ := h₁
    refine (hx' x ?_).1
    rwa [← List.nil_append t, ← ht]
  have hrole := h₁.2
  split
  · next hc => exact ⟨hcalls, by rwa [if_pos hc] at hrole, h.moni_cfg⟩
  · next hc =>
    rw [if_neg hc] at hrole
    exact ⟨hcalls, hrole.trans h.role, h.cfg_proc (Or.inl rfl) hrole⟩

/-- The parts of a path. -/
theorem pathPhases_acting (behind : List X29Par) (addr : List Char) :
    PathPhases (DEnv.Offers F) behind addr (Sourced F c₀) (Acting F c₀ .monitor)
      (Descended F c₀) (Acting F c₀ .acceptor) (Inherited F c₀) where
  everywhere _ h := h.calls
  steered w d h hd := h.modify (by rw [hd.proc]) hd.cfg
  require w h := wp_asProc_acting (Or.inl rfl) (fun _ => keeps_require_alone) h
  setup w h := wp_asProc_acting (Or.inl rfl) (fun _ => keeps_pstmt_alone fun _ _ => rfl) h
  handlers w h := wp_asProc_acting (Or.inl rfl) (fun _ => keeps_install_alone _) h
  sigsuspend w h := wp_asMoni_acting (fun _ => keeps_sigsuspend_reloading) h
  chldPart w h := wp_asMoni_acting (fun _ => keeps_chldPart_reloading) h
  hupPart w h := wp_asMoni_acting (fun _ => keeps_hupPart_reloading) h
  ioPart w h := wp_asMoni_acting (fun _ => tableFree_reloading.ioPart) h
  usr1Part w h := wp_asMoni_acting (fun _ => tableFree_reloading.usr1Part) h
  fork _ h := wp_forkCall_acting h
  start _ h := Acting.startMainWork h.calls h.role h.cfg
  mainWork w h := by
    refine wp_mono (wp_asAcc_acting (fun _ => keeps_mainWork_reloading) h) (fun _ h => h)
      fun a w' h' => ⟨h', fun pid _ => ⟨h'.calls, rfl, ?_⟩⟩
    have hc := h'.cfg
    rwa [Daemon.cfg, h'.role] at hc
  session _ h := wp_session_inherited behind addr h
  exits kod w h := by
    rcases h with h | h
    · exact wp_exit_acting (Or.inl rfl) kod h
    · exact wp_exit_acting (Or.inr rfl) kod h

end Path

/-- **Whatever process a path comes to**, its settings come from those that the monitor has started
with, by reloads of the files that are there. -/
theorem daemon_reloads {F : CfgFile → Prop} {es : List DEnv} (hes : ∀ e ∈ es, e.Offers F)
    (d : Daemon) (row : Row) (behind : List X29Par) (addr : List Char) :
    ∀ x ∈ daemonTrace es d row behind addr, CfgReach (Offers F) d.moni.cfg x.2.cfg := by
  have hstart : Acting F d.moni.cfg .monitor ⟨d.start, []⟩ := by
    refine ⟨fun x hx => ?_, rfl, .refl⟩
    cases hx
  have hsourced : Sourced F d.moni.cfg (monitor row behind addr es ⟨d.start, []⟩).1 :=
    always_of_wp ((pathPhases_acting behind addr).wp_monitor (Q := fun _ _ => False) row
      (hstart.modify rfl rfl)) (fun _ _ h => h.elim) hes
  exact hsourced

/-- **Nothing but an edited file changes a setting.** When the file stays the one that the daemon
was started with, every call of the monitor, the accepting process, a session or its login process
is made with the settings that the file says, however often they are told to reread it. -/
theorem daemon_unedited {file : CfgFile} {c : Settings} {b : Bool} {es : List DEnv} {d : Daemon}
    (hread : readcfg file c = .ok (b, d.moni.cfg)) (hes : ∀ e ∈ es, e.Offers (· = file))
    (row : Row) (behind : List X29Par) (addr : List Char) :
    ∀ x ∈ daemonTrace es d row behind addr, d.moni.cfg.Agree x.2.cfg := fun x hx =>
  agree_of_reach (fun _ he => he) hread (daemon_reloads hes d row behind addr x hx)

/-- A file with one line. -/
def loggingFile : CfgFile := .readable "log_level 9\n".toList

/-- The daemon that has read it. -/
def loggingDaemon : Daemon where
  moni := { tabAt := 0x55d0c0a0f200, cfg := { Settings.defaults with logLevel := 9 } }
  acc := mainWorkStart {} .defaults
  proc := { role := .monitor, pid := 1, tab := fun _ => none, sess := .fresh 1 8 }

/-- The accepting process rereads the file, and forks process 3 for a call. -/
def loggingScript : List DEnv :=
  let offer (e : DEnv) : DEnv :=
    { moni := { e.moni with file := loggingFile }
      acc := { e.acc with file := loggingFile }
      proc := { e.proc with env := { e.proc.env with file := loggingFile } } }
  let idle : DEnv := {}
  let up : List DEnv := List.replicate 6 idle ++ [{ proc := { fork := .child 2 } }]
  let hup : List DEnv := List.replicate 2 idle ++ [{ acc := { before := [.signal .sighup] } }]
  let call : List DEnv := List.replicate 8 idle ++ [{ acc := { fork := .child 3 } }]
  (up ++ hup ++ call ++ List.replicate 12 idle).map offer

theorem daemon_unedited_hup :
    (∀ x ∈ daemonTrace loggingScript loggingDaemon ⟨[], [], []⟩ [⟨0, 0⟩] ['7'],
      loggingDaemon.moni.cfg.Agree x.2.cfg) ∧
    (daemonTrace loggingScript loggingDaemon ⟨[], [], []⟩ [⟨0, 0⟩] ['7']).any fun x =>
      decide (x.2.proc.role = .session ∧ x.2.cfg.logLevel = 9) := by
  have hread : readcfg loggingFile .defaults = .ok (true, loggingDaemon.moni.cfg) := by decide
  refine ⟨daemon_unedited hread (fun e he => ?_) _ _ _, ?_⟩
  · obtain ⟨e', -, rfl⟩ := List.mem_map.mp he
    exact ⟨rfl, rfl, rfl⟩
  · decide +kernel

end PadSvr
