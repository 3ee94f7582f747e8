import PadSvr.Session.DoCopy
import PadSvr.Scripted.Frame
import Mathlib.Logic.Relation

/-!
# Handling the flags

`do_inter` runs at many places of a round, also inside the writes to the X.25 socket. What it can
do is said once here: it leaves the buffers and the variables of the loop alone, its only calls are
reloads, and it returns 0 exactly when it sets `Done`.

## Main definitions

* `CfgReach E`: the settings that reloads can lead to
* `Env.Calm`, `Session.Calm`: neither an exit signal nor an expiry of the watchdog
* `Handled E`: what the handling of flags can do to a session
* `Served E`: the frame of `do_inter`

## Main results

* `CfgReach.keeps`: what no file of the script changes, no reload changes
* `wp_doInter`: `do_inter` is within `Handled`, and its result tells whether `Done` is set
-/

namespace PadSvr

open Scripted Scripted.Prog

/-- The settings a session can get from `c` by reloads of files the script offers. -/
def CfgReach (E : Env → Prop) : Settings → Settings → Prop :=
  Relation.ReflTransGen fun c c' => ∃ e, E e ∧ ∃ b, readcfg e.file c = .ok (b, c')

/-- What no file of the script changes, no reload changes. -/
theorem CfgReach.keeps {E : Env → Prop} {α : Type} {f : Settings → α} {c c' : Settings}
    (h : CfgReach E c c')
    (hE : ∀ e, E e → ∀ c b c', readcfg e.file c = .ok (b, c') → f c' = f c) : f c' = f c := by
  induction h with
  | refl => rfl
  | tail _ hstep ih =>
    obtain ⟨e, he, b, hr⟩ := hstep
    rw [hE e he _ b _ hr, ih]

theorem cfgReach_of_missing {E : Env → Prop} (hE : ∀ e, E e → e.file = .missing false)
    {c c' : Settings} (h : CfgReach E c c') : c' = c := by
  refine h.keeps (f := id) fun e he c b c' hr => ?_
  rw [hE e he] at hr
  cases hr
  rfl

/-- Before the statement, no signal asks for an exit and the watchdog does not expire. -/
def Env.Calm (e : Env) : Prop :=
  ∀ h ∈ e.before, h ≠ .signal .alrm ∧ h ≠ .signal .exit ∧ h ≠ .wtimer

instance (e : Env) : Decidable e.Calm :=
  inferInstanceAs (Decidable (∀ h ∈ e.before, h ≠ .signal .alrm ∧ h ≠ .signal .exit ∧ h ≠ .wtimer))

/-- No handled signal asks for an exit. -/
def Session.Calm (s : Session) : Prop := s.flags.alrm = false ∧ s.flags.exit = false

theorem calm_deliver {e : Env} {s : Session} (he : e.Calm) (hs : s.Calm) : (deliver e s).Calm := by
  have key : ∀ (hs : List Happening) (s : Session),
      (∀ h ∈ hs, h ≠ .signal .alrm ∧ h ≠ .signal .exit ∧ h ≠ .wtimer) → s.Calm →
        (hs.foldl (fun s h => h.run s) s).Calm := by
    intro hs
    induction hs with
    | nil => exact fun _ _ h => h
    | cons h hs ih =>
      intro s hh hc
      refine ih (h.run s) (fun h' hm => hh h' (List.mem_cons_of_mem _ hm)) ?_
      have h₀ := hh h (List.mem_cons_self ..)
      obtain ⟨h₁, h₂⟩ := hc
      cases h with
      | signal g =>
        cases g <;> simp_all [Happening.run, Signal.handler, chilSig, chilSigChld, chilSigHup,
          chilSigIdle, Session.Calm]
      | wtimer => exact absurd rfl h₀.2.2
      | rtimer =>
        by_cases hr : s.sys.rtimer = true <;>
          simp [Happening.run, hr, chilSigIdle, chilSig, Session.Calm, h₁, h₂]
      | typed bytes =>
        by_cases hr : s.sys.closed = true <;> simp [Happening.run, hr, Session.Calm, h₁, h₂]
      | hangup => exact ⟨h₁, h₂⟩
  exact key e.before s he hs

/-- What the handling of flags can do to a session. -/
structure Handled (E : Env → Prop) (s s' : Session) : Prop where
  loc : s'.loc = s.loc
  bufn : s'.bufn = s.bufn
  bufd : s'.bufd = s.bufd
  done : s'.done = s.done ∨ s'.done = 7 ∨ s'.done = 8
  cfg : CfgReach E s.cfg s'.cfg
  calm : (∀ e, E e → e.Calm) → s.Calm → s'.Calm ∧ s'.done = s.done
  closed : s.sys.closed = true → s'.sys.closed = true ∧ s'.sys.pty = s.sys.pty

/-- What the handling of a flag that asks for no exit can do. -/
structure Noted (E : Env → Prop) (s s' : Session) : Prop extends Handled E s s' where
  same : s'.done = s.done

/-- The calls of `do_inter`. -/
def Event.IsReload : Event → Prop
  | .reload _ => True
  | _ => False

theorem Event.IsReload.eq {k : Event} (h : k.IsReload) : ∃ file, k = .reload file := by
  cases k with
  | reload file => exact ⟨file, rfl⟩
  | _ => exact h.elim

variable {E : Env → Prop}

instance : Std.Refl (Handled E) where
  refl _ := ⟨rfl, rfl, rfl, Or.inl rfl, .refl, fun _ h => ⟨h, rfl⟩, fun h => ⟨h, rfl⟩⟩

instance : IsTrans Session (Handled E) where
  trans _ _ _ h h' :=
    { loc := h'.loc.trans h.loc
      bufn := h'.bufn.trans h.bufn
      bufd := h'.bufd.trans h.bufd
      done := by
        rcases h'.done with hd | hd
        · exact hd ▸ h.done
        · exact Or.inr hd
      cfg := h.cfg.trans h'.cfg
      calm := fun hE hc =>
        have ⟨hc', hd⟩ := h.calm hE hc
        have ⟨hc'', hd'⟩ := h'.calm hE hc'
        ⟨hc'', hd'.trans hd⟩
      closed := fun hc =>
        have ⟨hc', hp⟩ := h.closed hc
        have ⟨hc'', hp'⟩ := h'.closed hc'
        ⟨hc'', hp'.trans hp⟩ }

instance : Std.Refl (Noted E) where
  refl s := ⟨Std.Refl.refl s, rfl⟩

instance : IsTrans Session (Noted E) where
  trans _ _ _ h h' := ⟨IsTrans.trans _ _ _ h.toHandled h'.toHandled, h'.same.trans h.same⟩

theorem noted_deliver (e : Env) (he : E e) (s : Session) : Noted E s (deliver e s) :=
  { loc := by simp
    bufn := by simp
    bufd := by simp
    done := by simp
    cfg := by simpa using .refl
    calm := fun hE hc => ⟨calm_deliver (hE e he) hc, by simp⟩
    closed := (interfered_deliver e s).closed
    same := by simp }

theorem noted_reload {e : Env} (he : E e) {s : Session} {b : Bool} {c : Settings}
    (hc : readcfg e.file s.cfg = .ok (b, c)) (er : Errno) :
    Noted E s { s with cfg := c, sys := { s.sys with errno := er } } :=
  { loc := rfl
    bufn := rfl
    bufd := rfl
    done := Or.inl rfl
    cfg := .single ⟨e, he, b, hc⟩
    calm := fun _ h => ⟨h, rfl⟩
    closed := fun h => ⟨h, rfl⟩
    same := rfl }

theorem noted_flags (s : Session) {fl : Flags} (ha : s.flags.alrm = false → fl.alrm = false)
    (he : s.flags.exit = false → fl.exit = false) (b : Bool) (p : ℤ) :
    Noted E s { s with flags := fl, flagForwardtimerEx := b, flagExitstatusRecvd := p } :=
  { loc := rfl
    bufn := rfl
    bufd := rfl
    done := Or.inl rfl
    cfg := .refl
    calm := fun _ h => ⟨⟨ha h.1, he h.2⟩, rfl⟩
    closed := fun h => ⟨h, rfl⟩
    same := rfl }

/-- A change of the timers. -/
theorem noted_timers (s : Session) (r : Bool) (t : Option ℤ) :
    Noted E s { s with sys := { s.sys with rtimer := r, wtimer := t } } :=
  { loc := rfl
    bufn := rfl
    bufd := rfl
    done := Or.inl rfl
    cfg := .refl
    calm := fun _ h => ⟨h, rfl⟩
    closed := fun h => ⟨h, rfl⟩
    same := rfl }

/-- Setting `Done` on a signal that asks for an exit. -/
theorem handled_exit {e : Env} (he : E e) {s : Session} (hs : ¬ s.Calm) {n : ℕ}
    (hn : n = 7 ∨ n = 8) (fl : Flags) :
    Handled E s { deliver e s with done := n, flags := fl } :=
  have hd := (noted_deliver e he s).toHandled
  ⟨hd.loc, hd.bufn, hd.bufd, Or.inr hn, hd.cfg, fun _ hc => absurd hc hs, hd.closed⟩

/-- The frame of `do_inter`. -/
abbrev Served (E : Env → Prop) : SRun → SRun → Prop := Within (Handled E) fun k _ => k.IsReload

/-- The frame of the flags that ask for no exit. -/
abbrev Quiet (E : Env → Prop) : SRun → SRun → Prop := Within (Noted E) fun k _ => k.IsReload

theorem keeps_reload_quiet (w₀ : SRun) : Keeps E (Quiet E w₀) reload := by
  intro w hw
  refine wp_reload hw fun e he b c hc => ?_
  have hd := noted_deliver e he w.st
  exact hw.call hd (IsTrans.trans _ _ _ hd (noted_reload he hc e.errno)) trivial

theorem keeps_interHup_quiet (w₀ : SRun) : Keeps E (Quiet E w₀) interHup :=
  .bind (keeps_reload_quiet w₀) fun _ =>
    keeps_within_stmt noted_deliver fun _ _ s => noted_flags s (by simp) (by simp) _ _

theorem keeps_interIdle_quiet (w₀ : SRun) : Keeps E (Quiet E w₀) interIdle := by
  unfold interIdle assign
  exact keeps_within_stmt noted_deliver fun _ _ s => noted_flags s (by simp) (by simp) _ _

theorem keeps_interChld_quiet (w₀ : SRun) : Keeps E (Quiet E w₀) interChld := by
  refine .bind (keeps_within_stmt noted_deliver fun e _ s => ?_) fun _ =>
    keeps_within_stmt noted_deliver fun _ _ s => noted_flags s (by simp) (by simp) _ _
  rcases e.child with _ | pid
  · exact Std.Refl.refl s
  · dsimp only
    split
    · exact noted_flags s (by simp) (by simp) _ _
    · exact Std.Refl.refl s

/-- One flag, under an assertion `P` on the result that what happens before a statement cannot
break. -/
theorem wp_onFlag {I : SRun → Prop} {P : ℤ → SRun → Prop} {up : Flags → Bool}
    {handle : SProg Unit} {ret ret₀ : ℤ} (hI : ∀ w, P ret₀ w → I w)
    (hd : ∀ w e, E e → P ret₀ w → P ret₀ ⟨deliver e w.st, w.trace⟩)
    (hh : ∀ w, up w.st.flags = true → P ret₀ w → wp E I handle (fun _ => P ret) w) {w : SRun}
    (hw : P ret₀ w) : wp E I (onFlag up handle ret ret₀) P w := by
  refine wp_bind (wp_test (hI w hw) fun e he => ?_)
  have hw' := hd w e he hw
  split
  · next hup => exact wp_seq (hh _ hup hw') fun _ _ h => wp_pure h
  · exact wp_pure hw'

/-- **What `do_inter` does to a session.** It returns 0 exactly when it sets `Done`. -/
theorem wp_doInter (w : SRun) :
    wp E (Served E w) doInter (fun r w' => Served E w w' ∧
      (r = 1 ∧ w'.st.done = w.st.done ∨ r = 0 ∧ (w'.st.done = 7 ∨ w'.st.done = 8))) w := by
  let P : ℤ → SRun → Prop := fun r w' => Served E w w' ∧
    (r = 1 ∧ w'.st.done = w.st.done ∨ r = 0 ∧ (w'.st.done = 7 ∨ w'.st.done = 8))
  have hI : ∀ r w', P r w' → Served E w w' := fun r w' h => h.1
  have hd : ∀ r w' e, E e → P r w' → P r ⟨deliver e w'.st, w'.trace⟩ := fun r w' e he h =>
    ⟨h.1.trans (.of_rel (noted_deliver e he w'.st).toHandled), by simpa using h.2⟩
  -- a handling that leaves `Done` alone keeps the assertion whatever the result
  have hquiet : ∀ {m : SProg Unit}, (∀ w₀, Keeps E (Quiet E w₀) m) → ∀ r w', P r w' →
      wp E (Served E w) m (fun _ => P r) w' := by
    intro m hm r w' h
    have hserved : ∀ w'', Quiet E w' w'' → Served E w w'' := fun w'' hq =>
      h.1.trans (hq.mono (fun _ _ hn => hn.toHandled) fun _ _ hk => hk)
    exact wp_mono (wp_within (hm w')) hserved fun _ w'' hq =>
      ⟨hserved w'' hq, by rw [hq.1.same]; exact h.2⟩
  have hexit : ∀ (r : ℤ) n w' e, E e → n = 7 ∨ n = 8 → ¬ w'.st.Calm → P r w' → ∀ fl,
      P 0 ⟨{ deliver e w'.st with done := n, flags := fl }, w'.trace⟩ :=
    fun r n w' e he hn hc h fl => ⟨h.1.trans (.of_rel (handled_exit he hc hn fl)), Or.inr ⟨rfl, hn⟩⟩
  refine wp_seq (wp_onFlag (hI 1) (hd 1) (fun w' _ => hquiet keeps_interHup_quiet 1 w')
    ⟨.refl w, Or.inl ⟨rfl, rfl⟩⟩) fun r₁ w₁ h₁ => ?_
  refine wp_seq (wp_onFlag (P := P) (hI r₁) (hd r₁) (fun w' hup h =>
    wp_assign (hI _ _ h) fun e he => hexit r₁ 7 w' e he (by simp) (fun hc => ?_) h _) h₁)
    fun r₂ w₂ h₂ => ?_
  · simp [hc.1] at hup
  refine wp_seq (wp_onFlag (P := P) (hI r₂) (hd r₂) (fun w' hup h =>
    wp_assign (hI _ _ h) fun e he => hexit r₂ 8 w' e he (by simp) (fun hc => ?_) h _) h₂)
    fun r₃ w₃ h₃ => ?_
  · simp [hc.2] at hup
  refine wp_seq (wp_onFlag (hI r₃) (hd r₃)
    (fun w' _ => hquiet keeps_interIdle_quiet r₃ w') h₃) fun r₄ w₄ h₄ => ?_
  exact wp_onFlag (hI r₄) (hd r₄) (fun w' _ => hquiet keeps_interChld_quiet r₄ w') h₄

end PadSvr
