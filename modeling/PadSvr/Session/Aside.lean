import PadSvr.Session.Packets

/-!
# Beside the terminal-to-network path

The loop of `do_copy` touches the buffer of the terminal side in two parts only: where it reads
from the master, and where it flushes. Every other part stays within one frame, which says what
such a part leaves alone, and which calls it makes in which states.

## Main definitions

* `Beside E hup`, `Aside E hup`: what the other parts of a round can do, and `hup` allows them to
  poll and to notice a hang-up of the terminal side

## Main results

* `keeps_pollPart_aside`, `keeps_signalPart_aside`, `keeps_reventsPart_aside`,
  `keeps_readSocketPart_aside`: they stay within the frame
-/

namespace PadSvr

open Scripted Scripted.Prog

/-- What a session can do beside the reads from the master and the flushes. -/
structure Beside (E : Env → Prop) (hup : Prop) (s s' : Session) : Prop where
  loc : ∃ so ma pi ws, (ws = true → s.loc.flagLastWritesock = true) ∧
    s'.loc = { s.loc with
      sockRevents := so, masterRevents := ma, pipeRevents := pi, flagLastWritesock := ws }
  revents : hup ∨ s'.loc.masterRevents = s.loc.masterRevents
  bufn : s'.bufn.length = s.bufn.length
  bufd : s'.bufd = s.bufd
  done : s.done ≠ 0 → s'.done ≠ 0
  three : s'.done = 3 → s.done = 3 ∨ hup
  cfg : CfgReach E s.cfg s'.cfg
  calm : (∀ e, E e → e.Calm) → s.Calm → s'.Calm
  closed : s.sys.closed = true → s'.sys.closed = true ∧ s'.sys.pty = s.sys.pty

/-- The calls beside those of the terminal-to-network path, in the state they are made in. -/
def Event.IsBeside (hup : Prop) : Event → Session → Prop
  | .poll a, s =>
    hup ∧ ∀ so ma pi, a = .ready so ma pi → ma.pollhup = true → s.sys.closed = true
  | .readPipe n, s => n = s.cfg.bufferSize.toNat
  | .readSock n _, s => n = s.cfg.bufferSize.toNat + 1
  | .writeMaster _ _, _ => True
  | .reload _, _ => True
  | _, _ => False

variable {E : Env → Prop} {hup : Prop}

theorem Event.IsBeside.eq {k : Event} {s : Session} (h : k.IsBeside hup s) :
    (hup ∧ ∃ a, k = .poll a) ∨ (∃ n, k = .readPipe n) ∨ (∃ n r, k = .readSock n r) ∨
      (∃ data res, k = .writeMaster data res) ∨ ∃ file, k = .reload file := by
  cases k with
  | poll a => exact Or.inl ⟨h.1, a, rfl⟩
  | readPipe n => exact Or.inr (Or.inl ⟨n, rfl⟩)
  | readSock n r => exact Or.inr (Or.inr (Or.inl ⟨n, r, rfl⟩))
  | writeMaster data res => exact Or.inr (Or.inr (Or.inr (Or.inl ⟨data, res, rfl⟩)))
  | reload file => exact Or.inr (Or.inr (Or.inr (Or.inr ⟨file, rfl⟩)))
  | _ => exact h.elim

instance : Std.Refl (Beside E hup) where
  refl s := ⟨⟨s.loc.sockRevents, s.loc.masterRevents, s.loc.pipeRevents,
    s.loc.flagLastWritesock, id, rfl⟩, Or.inr rfl, rfl, rfl, id, Or.inl, .refl, fun _ h => h,
    fun h => ⟨h, rfl⟩⟩

instance : IsTrans Session (Beside E hup) where
  trans _ _ _ h h' :=
    { loc := by
        obtain ⟨so, ma, pi, ws, hws, hl⟩ := h.loc
        obtain ⟨so', ma', pi', ws', hws', hl'⟩ := h'.loc
        exact ⟨so', ma', pi', ws', fun h => hws (by simpa [hl] using hws' h), by rw [hl', hl]⟩
      revents := by
        rcases h.revents with hh | hm
        · exact Or.inl hh
        · exact h'.revents.imp_right fun hm' => hm'.trans hm
      bufn := h'.bufn.trans h.bufn
      bufd := h'.bufd.trans h.bufd
      done := fun hd => h'.done (h.done hd)
      three := fun h3 => (h'.three h3).elim h.three Or.inr
      cfg := h.cfg.trans h'.cfg
      calm := fun hE hc => h'.calm hE (h.calm hE hc)
      closed := fun hc =>
        have ⟨hc', hp⟩ := h.closed hc
        have ⟨hc'', hp'⟩ := h'.closed hc'
        ⟨hc'', hp'.trans hp⟩ }

/-- What can be done without noticing a hang-up. -/
theorem Beside.noticed {s s' : Session} (h : Beside E False s s') : Beside E hup s s' where
  loc := h.loc
  revents := Or.inr (h.revents.resolve_left id)
  bufn := h.bufn
  bufd := h.bufd
  done := h.done
  three := fun h3 => (h.three h3).imp_right False.elim
  cfg := h.cfg
  calm := h.calm
  closed := h.closed

theorem Handled.beside {s s' : Session} (h : Handled E s s') : Beside E hup s s' where
  loc := ⟨s.loc.sockRevents, s.loc.masterRevents, s.loc.pipeRevents, s.loc.flagLastWritesock, id,
    h.loc⟩
  revents := Or.inr (by rw [h.loc])
  bufn := by rw [h.bufn]
  bufd := h.bufd
  done := h.sending.done
  three := fun h3 => by rcases h.done with hd | hd | hd <;> omega
  cfg := h.cfg
  calm := fun hE hc => (h.calm hE hc).1
  closed := h.closed

theorem beside_deliver (e : Env) (he : E e) (s : Session) : Beside E hup s (deliver e s) :=
  (noted_deliver e he s).toHandled.beside

/-- The frame of the parts of a round beside the terminal-to-network path. -/
abbrev Aside (E : Env → Prop) (hup : Prop) : SRun → SRun → Prop :=
  Within (Beside E hup) (Event.IsBeside hup)

/-- What is aside without noticing a hang-up. -/
theorem Aside.noticed {w w' : SRun} (h : Aside E False w w') : Aside E hup w w' :=
  h.mono (fun _ _ hb => hb.noticed) fun k _ hk => by
    cases k <;> simp_all [Event.IsBeside]

theorem served_aside {w w' : SRun} (h : Served E w w') : Aside E hup w w' :=
  h.mono (fun _ _ h => h.beside) fun k _ h => by
    obtain ⟨file, rfl⟩ := h.eq
    trivial

section Keeps

variable (w₀ : SRun)

theorem keeps_doInter_aside : Keeps E (Aside E hup w₀) doInter := fun w hw =>
  wp_mono (wp_doInter w) (fun _ h => hw.trans (served_aside h)) fun _ _ h =>
    hw.trans (served_aside h.1)

theorem keeps_assign_aside {f : Session → Session} (h : ∀ s, Beside E hup s (f s)) :
    Keeps E (Aside E hup w₀) (assign f) := keeps_within_stmt beside_deliver fun _ _ s => h s

theorem keeps_setDone_aside {n : ℕ} (hn : n ≠ 0) (h3 : n = 3 → hup) :
    Keeps E (Aside E hup w₀) (setDone n) :=
  keeps_within_modify fun s =>
    have h : Beside E hup s s := Std.Refl.refl s
    ⟨h.loc, h.revents, rfl, rfl, fun _ => hn, fun h3' => Or.inr (h3 h3'), h.cfg, h.calm, h.closed⟩

/-- A change of the kernel's timers, or of `errno`. -/
theorem beside_sys (s : Session) {k : Kernel} (hc : k.closed = s.sys.closed)
    (hp : k.pty = s.sys.pty) : Beside E hup s { s with sys := k } :=
  have h : Beside E hup s s := Std.Refl.refl s
  ⟨h.loc, h.revents, rfl, rfl, h.done, h.three, h.cfg, h.calm, fun h' => ⟨hc.trans h', hp⟩⟩

theorem length_store (buf : List UInt8) (off : ℕ) (data : List UInt8) :
    (store buf off data).length = buf.length := by
  simp only [store, List.length_take, List.length_append, List.length_drop]
  omega

/-- What `poll` writes. -/
theorem beside_reported (s : Session) (so ma pi : Revents) :
    Beside E True s (s.reported so ma pi) :=
  have h : Beside E True s s := Std.Refl.refl s
  ⟨⟨so, ma, pi, _, id, rfl⟩, Or.inl trivial, rfl, rfl, h.done, h.three, h.cfg, h.calm, h.closed⟩

/-- A change of `bufn` within its length, and of the kernel's side of it. -/
theorem beside_bufn (s : Session) {k : Kernel} (hc : k.closed = s.sys.closed)
    (hp : k.pty = s.sys.pty) (data : List UInt8) :
    Beside E hup s { s with sys := k, bufn := store s.bufn 0 data } :=
  have h : Beside E hup s s := Std.Refl.refl s
  ⟨h.loc, h.revents, length_store _ _ _, rfl, h.done, h.three, h.cfg, h.calm,
    fun h' => ⟨hc.trans h', hp⟩⟩

/-- A call made in the state that `e` leads to. -/
theorem Aside.call {w : SRun} (hw : Aside E hup w₀ w) {e : Env} (he : E e) {k : Event}
    {s : Session} (hb : Beside E hup (deliver e w.st) s) (hk : k.IsBeside hup (deliver e w.st)) :
    Aside E hup w₀ ⟨s, w.trace ++ [(k, deliver e w.st)]⟩ :=
  have hd : Beside E hup w.st (deliver e w.st) := beside_deliver e he w.st
  Within.call hw hd (IsTrans.trans _ _ _ hd hb) hk

theorem keeps_pollCall_aside : Keeps E (Aside E True w₀) pollCall := by
  intro w hw
  refine wp_pollCall hw (fun e he er => ?_) fun e he so ma pi hcl => ?_
  · have hfail : Beside E True (deliver e w.st) ((deliver e w.st).failing er) :=
      beside_sys _ rfl rfl
    exact hw.call w₀ he (IsTrans.trans _ _ _ hfail (beside_reported _ _ _ _))
      (by simp [Event.IsBeside])
  · refine hw.call w₀ he (beside_reported _ so ma pi) ⟨trivial, ?_⟩
    rintro so' ma' pi' ⟨⟩ hh
    exact hcl hh

theorem keeps_pollPart_aside : Keeps E (Aside E True w₀) pollPart := by
  unfold pollPart
  refine .bind (keeps_assign_aside w₀ fun s => beside_sys s rfl rfl) fun _ =>
    .bind (keeps_pollCall_aside w₀) fun b => .ite .pure (.bind .get fun s => .ite ?_ ?_)
  · exact .bind (keeps_setDone_aside w₀ (by simp) (by simp)) fun _ => .pure
  · exact .bind (keeps_doInter_aside w₀) fun _ => .pure

theorem keeps_signalPart_aside : Keeps E (Aside E hup w₀) signalPart := by
  unfold signalPart
  refine .bind .get fun s => .ite (fun w hw => wp_bind (wp_get (wp_bind ?_))) .pure
  have hinter : Keeps E (Aside E hup w₀) (doInter >>= fun _ => pure ()) :=
    .bind (keeps_doInter_aside w₀) fun _ => .pure
  -- the length asked for is that of the settings, which nothing changes before the call
  have hn : ∀ e : Env, w.st.cfg.bufferSize.toNat = (deliver e w.st).cfg.bufferSize.toNat :=
    fun e => by simp
  refine wp_readPipe hw (fun e he => hinter _ ?_) fun e he k => hinter _ ?_
  · exact hw.call w₀ he (beside_sys _ rfl rfl) (hn e)
  · exact hw.call w₀ he (beside_bufn _ (by rfl) (by rfl) _) (hn e)

theorem keeps_reventsPart_aside : Keeps E (Aside E True w₀) reventsPart := by
  unfold reventsPart masterHangup
  have hdone : ∀ n, n ≠ 0 → Keeps E (Aside E True w₀) (setDone n) := fun n hn =>
    keeps_setDone_aside w₀ hn fun _ => trivial
  refine .bind .get fun s => .ite (.bind (hdone 1 (by simp)) fun _ => .pure) ?_
  refine .bind (.bind .get fun s => .ite (hdone 3 (by simp)) .pure) fun _ => ?_
  refine .ite (.bind (hdone 10 (by simp)) fun _ => .pure) (.ite ?_ .pure)
  exact .bind (hdone 2 (by simp)) fun _ => .pure

theorem keeps_failed_aside {n : ℕ} (hn : n ≠ 0) (h3 : n = 3 → hup) :
    Keeps E (Aside E hup w₀) (failed n) := by
  unfold failed
  exact .bind .get fun s => .ite (.bind (keeps_doInter_aside w₀) fun _ => .pure)
    (keeps_setDone_aside w₀ hn h3)

theorem keeps_writeMaster_aside (data : List UInt8) :
    Keeps E (Aside E hup w₀) (writeMaster data) := by
  intro w hw
  refine wp_writeMaster hw (fun e he er _ => ?_) fun e he k _ => ?_
  · exact hw.call w₀ he (beside_sys _ rfl rfl) trivial
  · exact hw.call w₀ he (Std.Refl.refl _) trivial

theorem keeps_writeBack_aside (data : List UInt8) : Keeps E (Aside E hup w₀) (writeBack data) := by
  unfold writeBack
  exact .iter (fun _ => .bind (keeps_writen (keeps_writeMaster_aside w₀) data) fun iw =>
    .ite (.bind (keeps_failed_aside w₀ (by simp) (by simp)) fun _ => .pure) .pure) ()

theorem keeps_socketReceived_aside (i : ℕ) : Keeps E (Aside E hup w₀) (socketReceived i) := by
  unfold socketReceived
  refine .bind .get fun s => .ite (.bind (keeps_within_modify fun s => ?_) fun _ =>
    keeps_writeBack_aside w₀ _) (.ite (keeps_assign_aside w₀ fun s => beside_sys s rfl rfl) .pure)
  have h : Beside E hup s s := Std.Refl.refl s
  exact ⟨⟨_, _, _, false, nofun, rfl⟩, Or.inr rfl, rfl, rfl, id, h.three, h.cfg, h.calm, h.closed⟩

theorem keeps_readSocketPart_aside : Keeps E (Aside E hup w₀) readSocketPart := by
  unfold readSocketPart
  refine .bind .get fun s => .ite (fun w hw => wp_bind (wp_get (wp_bind ?_))) .pure
  have hrest : ∀ i : ℤ, Keeps E (Aside E hup w₀) (if 1 < i then socketReceived i.toNat
      else if i = 0 then setDone 9 else failed 10) := fun i =>
    .ite (keeps_socketReceived_aside w₀ _) (.ite (keeps_setDone_aside w₀ (by simp) (by simp))
      (keeps_failed_aside w₀ (by simp) (by simp)))
  have hn : ∀ e : Env,
      w.st.cfg.bufferSize.toNat + 1 = (deliver e w.st).cfg.bufferSize.toNat + 1 := fun e => by simp
  refine wp_readSock hw (fun e he er => hrest _ _ ?_) fun e he pkt => hrest _ _ ?_
  · exact hw.call w₀ he (beside_sys _ rfl rfl) (hn e)
  · exact hw.call w₀ he (beside_bufn _ rfl rfl _) (hn e)

end Keeps

end PadSvr
