import PadSvr.Session.Round

/-!
# The buffer of the terminal side

`bufd` holds a Q byte and behind it the `totali` bytes read from the master and not sent yet. The
layout of the buffer is kept by everything the loop does while `Buffer_size` stays the same.

## Main definitions

* `Session.held`: the bytes of the buffer not sent yet
* `Session.Layout`, `Laid`: where they lie, and how much room there is behind them

## Main results

* `held_store`: a read behind what the buffer holds appends to it
* `wp_readMasterPart_laid`, `wp_forwardPart_laid`: the rules of the two parts that work on the
  buffer, which keep the layout
-/

namespace PadSvr

open Scripted Scripted.Prog

/-- The bytes read from the master and not sent yet, `bufd2[0..totali)`. -/
def Session.held (s : Session) : List UInt8 := (s.bufd.drop 1).take s.loc.totali

section Store

variable {buf data : List UInt8} {n off : ℕ}

theorem store_eq (h : off + data.length ≤ buf.length) :
    store buf off data = buf.take off ++ data ++ buf.drop (off + data.length) := by
  unfold store
  refine List.take_of_length_le ?_
  simp only [List.length_append, List.length_take, List.length_drop]
  omega

/-- What is stored behind the first `n` bytes of `bufd2` is appended to them. -/
theorem held_store (h : 1 + n + data.length ≤ buf.length) :
    ((store buf (1 + n) data).drop 1).take (n + data.length) = (buf.drop 1).take n ++ data := by
  have hn : 1 ≤ (buf.take (1 + n)).length := by
    rw [List.length_take]
    omega
  have hlen : ((buf.drop 1).take n ++ data).length = n + data.length := by
    rw [List.length_append, List.length_take, List.length_drop]
    omega
  rw [store_eq h, List.append_assoc, List.drop_append_of_le_length hn, List.drop_take,
    Nat.add_sub_cancel_left, ← List.append_assoc]
  exact List.take_left' hlen

/-- A read behind the Q byte leaves it alone. -/
theorem headD_store (h : 0 < off) : (store buf off data).headD 0 = buf.headD 0 := by
  obtain ⟨off, rfl⟩ : ∃ k, off = k + 1 := ⟨off - 1, by omega⟩
  cases buf with
  | nil => simp [store]
  | cons b buf => simp [store]

end Store

theorem readArgs_pos (s : Session) : 1 ≤ s.readArgs.1 := by
  unfold Session.readArgs
  split
  · exact le_refl 1
  · exact Nat.le_add_right 1 _

/-- The layout of a block of `B + 1` bytes: the bytes not sent yet lie from its second byte on, and
a read behind them has no more room than the block. -/
structure Session.Layout (B : ℕ) (s : Session) : Prop where
  tbufd2 : s.loc.tbufd2 = s.loc.totali
  free : s.loc.totali + s.loc.freesize ≤ B
  bufd : s.bufd.length = B + 1

/-- The settings come from those of `s₀`, and the buffer is in the layout of its start. -/
structure Laid (E : Env → Prop) (s₀ : Session) (s : Session) : Prop
    extends s.Layout s₀.cfg.bufferSize.toNat where
  cfg : CfgReach E s₀.cfg s.cfg
  full : (∀ c, CfgReach E s₀.cfg c → c.bufferSize = s₀.cfg.bufferSize) →
    s.loc.totali + s.loc.freesize = s₀.cfg.bufferSize.toNat

variable {E : Env → Prop} {hup : Prop} {s₀ s s' : Session} {w w' : SRun} {I Q : SRun → Prop}

theorem Session.Layout.held_length {B : ℕ} (h : s.Layout B) : s.held.length = s.loc.totali := by
  have h₁ := h.free
  have h₂ := h.bufd
  rw [Session.held, List.length_take, List.length_drop]
  omega

/-- The start of the loop. -/
theorem laid_doCopyStart (E : Env → Prop) (s : Session) (bufn : List UInt8) {bufd : List UInt8}
    (hbufd : bufd.length = s.cfg.bufferSize.toNat + 1) : Laid E s (doCopyStart s bufn bufd) :=
  ⟨⟨rfl, by simp [doCopyStart], hbufd⟩, .refl, fun _ => by simp [doCopyStart]⟩

namespace Laid

theorem of_eq (h : Laid E s₀ s) (hl : s'.loc = s.loc) (hb : s'.bufd.length = s.bufd.length)
    (hc : CfgReach E s.cfg s'.cfg) : Laid E s₀ s' :=
  ⟨⟨by rw [hl, h.tbufd2], by rw [hl]; exact h.free, by rw [hb, h.bufd]⟩, h.cfg.trans hc,
    fun hf => by rw [hl, h.full hf]⟩

theorem delivered (h : Laid E s₀ s) (e : Env) : Laid E s₀ (deliver e s) :=
  h.of_eq (by simp) (by simp) (by simpa using .refl)

theorem beside (h : Laid E s₀ s) (hb : Beside E hup s s') :
    Laid E s₀ s' ∧ s'.held = s.held ∧ s'.loc.totali = s.loc.totali := by
  obtain ⟨so, ma, pi, ws, -, hl⟩ := hb.loc
  refine ⟨⟨⟨?_, ?_, by rw [hb.bufd, h.bufd]⟩, h.cfg.trans hb.cfg, fun hf => ?_⟩, ?_, ?_⟩
  · simpa [hl] using h.tbufd2
  · simpa [hl] using h.free
  · simpa [hl] using h.full hf
  · simp [Session.held, hl, hb.bufd]
  · simp [hl]

/-- A read from the master into the start of the buffer, whose bytes are sent. -/
theorem written {r : ℕ × List UInt8} {n : ℕ} (h : Laid E s₀ w.st)
    (hw : Written E w.st.bufd n w r w') : Laid E s₀ { w'.st with bufd := r.2 } :=
  h.of_eq hw.sent.state.loc hw.length hw.sent.state.cfg

/-- Bytes that stay in the buffer. -/
theorem held (h : Laid E s₀ s) {i : ℕ} (hi : i ≤ s.loc.freesize)
    (hn : Noted E { s with loc := s.loc.held i } s') : Laid E s₀ s' := by
  have h₁ := h.tbufd2
  have h₂ := h.free
  refine ⟨⟨?_, ?_, by rw [hn.bufd, h.bufd]⟩, h.cfg.trans hn.cfg, fun hf => ?_⟩
  · rw [hn.loc]
    simp [h₁]
  · rw [hn.loc, held_totali, held_freesize]
    omega
  · have h₃ := h.full hf
    rw [hn.loc, held_totali, held_freesize]
    omega

end Laid

section Rules

variable (hB : ∀ c, CfgReach E s₀.cfg c → c.bufferSize ≤ s₀.cfg.bufferSize)

include hB in
/-- The room a read from the master asks for is there. -/
theorem Laid.readArgs_le (h : Laid E s₀ s) : s.readArgs.1 + s.readArgs.2 ≤ s.bufd.length := by
  have h₁ := h.tbufd2
  have h₂ := h.free
  have h₃ := h.bufd
  have h₄ : s.cfg.bufferSize ≤ s₀.cfg.bufferSize := hB _ h.cfg
  unfold Session.readArgs
  split
  · dsimp only
    omega
  · dsimp only
    omega

include hB in
/-- **The read from the master in the layout.** The bytes it delivers are the payload of the next
packets, or they are appended to the bytes held. -/
theorem wp_readMasterPart_laid (h : Laid E s₀ w.st) (hI : I w)
    (hskip : w.st.loc.masterRevents.pollin = false → Q w)
    (hfail : ∀ e, E e → ∀ er, (er ≠ .eintr → (deliver e w.st).sys.pty = []) →
      wp E I (failed 1) (fun _ => Q) (readRun w e (.error er) ((deliver e w.st).failing er)))
    (heof : ∀ e, E e → w.st.readArgs.2 = 0 ∨ (deliver e w.st).sys.pty = [] →
      Q (readRun w e (.ok []) { deliver e w.st with done := 6 }))
    (hcut : w.st.cfg.forwardtimer = 0 → ∀ e, E e → ∀ data, data ≠ [] →
      data <+: (deliver e w.st).sys.pty → ∀ w₁, w₁ = readRun w e (.ok data)
        ((deliver e w.st).gotMaster 1 data) → ∀ k w',
          Sent E (w.st.bufd.headD 0) data k w₁ w' → I w')
    (hsent : w.st.cfg.forwardtimer = 0 → ∀ e, E e → ∀ data, data ≠ [] →
      data <+: (deliver e w.st).sys.pty → ∀ w₁, w₁ = readRun w e (.ok data)
        ((deliver e w.st).gotMaster 1 data) → ∀ r w',
          Written E w₁.st.bufd (data.length + 1) w₁ r w' →
          Sent E (w.st.bufd.headD 0) data (r.1 - 1) w₁ w' → Laid E s₀ { w'.st with bufd := r.2 } →
            Q ⟨{ w'.st with bufd := r.2 }, w'.trace⟩)
    (hheld : w.st.cfg.forwardtimer ≠ 0 → ∀ e, E e → ∀ data, data ≠ [] →
      data.length ≤ w.st.loc.freesize → data <+: (deliver e w.st).sys.pty → ∀ s,
        s = { (deliver e w.st).gotMaster (1 + w.st.loc.totali) data with
          loc := w.st.loc.held data.length } →
        I (readRun w e (.ok data) s) ∧ ∀ s', Noted E s s' → Laid E s₀ s' →
          s'.held = w.st.held ++ data → Q (readRun w e (.ok data) s')) :
    wp E I readMasterPart (fun _ => Q) w := by
  have hroom := h.readArgs_le hB
  have hpos := readArgs_pos w.st
  refine wp_readMasterPart hI hskip hfail heof fun e he data hne hlen hpre => ?_
  have hlay : Laid E s₀ ((deliver e w.st).gotMaster w.st.readArgs.1 data) :=
    (h.delivered e).of_eq rfl (gotMaster_length _ _ _) .refl
  have hargs : w.st.cfg.forwardtimer = 0 → w.st.readArgs.1 = 1 := fun hz => by
    rw [Session.readArgs, if_pos hz]
  have hargs' : w.st.cfg.forwardtimer ≠ 0 →
      w.st.readArgs = (1 + w.st.loc.totali, w.st.loc.freesize) :=
    fun hz => by rw [Session.readArgs, if_neg hz, h.tbufd2]
  -- the payload and the Q byte of a packet sent at once
  have hpay : w.st.cfg.forwardtimer = 0 → (((deliver e w.st).gotMaster 1 data).bufd.drop 1).take
      data.length = data := by
    intro hz
    have hle : 1 + 0 + data.length ≤ (deliver e w.st).bufd.length := by
      rw [deliver_bufd]
      omega
    simpa [Session.gotMaster] using held_store hle
  have hq : ((deliver e w.st).gotMaster 1 data).bufd.headD 0 = w.st.bufd.headD 0 := by
    rw [← deliver_bufd e w.st]
    exact headD_store Nat.one_pos
  -- the four outcomes: cut while it sends, sent, cut while the timer is set, held
  have hb : ((deliver e w.st).gotMaster w.st.readArgs.1 data).bufd ≠ [] :=
    List.length_pos_iff.mp (by rw [hlay.bufd]; omega)
  refine wp_masterReceived (List.length_pos_iff.mpr hne) hb (fun hz k w' hs => ?_)
    (fun hz r w' hw => ?_) (fun hz => ?_) fun hz s hn => ?_
  · have hz : w.st.cfg.forwardtimer = 0 := by simpa using hz
    rw [hargs hz] at hs
    rw [hpay hz, hq] at hs
    exact hcut hz e he data hne hpre _ rfl k w' hs
  · have hz : w.st.cfg.forwardtimer = 0 := by simpa using hz
    rw [hargs hz] at hw hlay
    have hs := hw.sent
    rw [Nat.add_sub_cancel, hpay hz, hq] at hs
    exact hsent hz e he data hne hpre _ rfl r w' hw hs (hlay.written hw)
  · have hz : w.st.cfg.forwardtimer ≠ 0 := by simpa using hz
    have hlen' : data.length ≤ w.st.loc.freesize := by simpa [hargs' hz] using hlen
    refine (hheld hz e he data hne hlen' hpre _ ?_).1
    rw [hargs' hz, gotMaster_loc, deliver_loc]
  · have hz : w.st.cfg.forwardtimer ≠ 0 := by simpa using hz
    have hlen' : data.length ≤ w.st.loc.freesize := by simpa [hargs' hz] using hlen
    have hroom' : 1 + w.st.loc.totali + data.length ≤ (deliver e w.st).bufd.length := by
      rw [hargs' hz] at hroom
      rw [deliver_bufd]
      dsimp only at hroom
      omega
    have hfit : data.length ≤ ((deliver e w.st).gotMaster w.st.readArgs.1 data).loc.freesize := by
      simpa using hlen'
    have hloc : s.loc = w.st.loc.held data.length := by simpa using hn.loc
    refine (hheld hz e he data hne hlen' hpre _ rfl).2 s ?_ (hlay.held hfit hn) ?_
    · simpa [hargs' hz] using hn
    · rw [Session.held, hloc, held_totali, hn.bufd]
      simpa [Session.gotMaster, hargs' hz, Session.held] using held_store hroom'

include hB in
/-- **The flush in the layout.** -/
theorem wp_forwardPart_laid (h : Laid E s₀ w.st)
    (hskip : w.st.flushes = false → Q ⟨w.st, w.trace ++ [(.forwardTest, w.st)]⟩)
    (hclear : w.st.flushes = true → w.st.loc.totali = 0 → ∀ s, s = { w.st with
      flagForwardtimerEx := false
      loc := { w.st.loc with flagMinlimitEx := false } } → Laid E s₀ s →
        Q ⟨s, w.trace ++ [(.forwardTest, w.st)]⟩)
    (hcut : w.st.flushes = true → w.st.loc.totali ≠ 0 → ∀ k w',
      Sent E 0 w.st.held k ⟨w.st.flushing, w.trace ++ [(.forwardTest, w.st)]⟩ w' → I w')
    (hsent : w.st.flushes = true → w.st.loc.totali ≠ 0 → ∀ r w',
      Written E w.st.flushing.bufd (w.st.loc.totali + 1)
        ⟨w.st.flushing, w.trace ++ [(.forwardTest, w.st)]⟩ r w' →
      Sent E 0 w.st.held (r.1 - 1) ⟨w.st.flushing, w.trace ++ [(.forwardTest, w.st)]⟩ w' →
      Laid E s₀ (w'.st.flushed r.1 r.2) → Q ⟨w'.st.flushed r.1 r.2, w'.trace⟩) :
    wp E I forwardPart (fun _ => Q) w := by
  have hb : w.st.bufd ≠ [] := List.length_pos_iff.mp (by rw [h.bufd]; omega)
  refine wp_forwardPart hskip (fun hf hz => ?_) hb hcut fun hf hz r w' hw => ?_
  · exact hclear hf hz _ rfl ⟨⟨h.tbufd2, h.free, h.bufd⟩, h.cfg, h.full⟩
  · have hs := hw.sent
    have hc := h.cfg.trans hs.state.cfg
    rw [Nat.add_sub_cancel, flushing_headD, flushing_drop] at hs
    refine hsent hf hz r w' hw hs ⟨⟨rfl, ?_, ?_⟩, hc, fun hf => ?_⟩
    · have hle := hB _ hc
      simp only [Session.flushed]
      omega
    · exact hw.length.trans ((flushing_length w.st).trans h.bufd)
    · simp [Session.flushed, hf _ hc]

end Rules

end PadSvr
