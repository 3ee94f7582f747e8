import PadSvr.Session.Buffer

/-!
# The adaptive threshold

With the idle timer the threshold of a flush moves. While nothing comes from the network, a read
raises it to half of `totali` above the last packet; a flush that the timer has asked for lowers it
to what was read, less a quarter of the last read. The two rules use variables that were set in
other rounds, and keep each other's bounds.

## Main definitions

* `Session.Adapted`: the bounds of the threshold and of the variables it is computed from
* `Event.Lowers`, `Event.Sized`: what a flush may lower the threshold to, and the packets it writes
* `TakesPackets`: the X.25 socket of the kernel takes packets of at most 65535 bytes

## Main results

* `wp_writensockint_sized`: the packets of a call of `writensockint`
* `doCopy_adapted`: the bounds hold in every state of every run
-/

namespace PadSvr

open Scripted Scripted.Prog CString

/-- The bounds of the threshold, and of the variables it is computed from. -/
structure Session.Adapted (s : Session) : Prop where
  minlimit : 1 ≤ s.loc.minlimit
  lastwritesock : 1 ≤ s.loc.lastwritesock
  lastreadmaster : 0 < s.loc.totali →
    1 ≤ s.loc.lastreadmaster ∧ s.loc.lastreadmaster ≤ s.loc.totali

/-- A flush sends between 1 and `B` bytes. If the timer has asked for it and no read has raised the
threshold since the one before it, it lowers the threshold to a number between 1 and theirs. -/
def Event.Lowers (B : ℕ) : Event → Session → Prop
  | .forwardTest, s => s.flushes = true → s.loc.totali ≠ 0 →
    1 ≤ s.held.length ∧ s.held.length ≤ B ∧
      (s.flagForwardtimerEx = true → s.loc.flagMinlimitIncrd = false →
        1 ≤ s.flushing.loc.minlimit ∧ s.flushing.loc.minlimit ≤ s.held.length)
  | _, _ => True

/-- A packet carries at least one byte behind its Q byte, and has at most `n` bytes. -/
def Event.Sized (n : ℕ) : Event → Prop
  | .writeSock pkt _ => 2 ≤ pkt.length ∧ pkt.length ≤ n
  | _ => True

/-- What holds of every call of the loop, and of the state it is made in. -/
structure ThresholdBounds (B : ℕ) (_ : STrace) (k : Event) (s : Session) : Prop where
  adapted : s.Adapted
  lowers : k.Lowers B s
  sized : k.Sized (B + 1)

/-- The longest packet that the X.25 sockets of the kernel take. -/
def maxPacket : ℕ := 65535

/-- A packet that is taken is not too long for the X.25 socket. -/
def TakesPackets (_ : STrace) : Event → Session → Prop
  | .writeSock pkt (.ok _), _ => pkt.length ≤ maxPacket
  | _, _ => True

/-- The length of a packet and half of `Buffer_size` are an `int` together: `Buffer_size` is small
enough for that, or the socket takes no longer packets than those of the kernel do. -/
def Addable (B : ℕ) (t : STrace) : Prop := 2 ^ 31 ≤ B + 1 + B / 2 → Always TakesPackets t

/-- A buffer below two thirds of the ints asks nothing of the socket. -/
theorem Addable.of_lt {B : ℕ} {t : STrace} (h : B + 1 + B / 2 < 2 ^ 31) : Addable B t :=
  fun hB => absurd hB (Nat.not_le.mpr h)

theorem Addable.of_append {B : ℕ} {t t' : STrace} (h : Addable B (t ++ t')) : Addable B t :=
  fun hB => always_of_append (h hB)

/-! ## The variables -/

section Variables

variable {s : Session} {B i : ℕ}

/-- `Adapted` is a fact of four variables. -/
theorem Session.Adapted.of_eq {s' : Session} (h : s.Adapted)
    (hm : s'.loc.minlimit = s.loc.minlimit) (hw : s'.loc.lastwritesock = s.loc.lastwritesock)
    (hr : s'.loc.lastreadmaster = s.loc.lastreadmaster) (ht : s'.loc.totali = s.loc.totali) :
    s'.Adapted where
  minlimit := hm ▸ h.minlimit
  lastwritesock := hw ▸ h.lastwritesock
  lastreadmaster := by
    rw [hr, ht]
    exact h.lastreadmaster

theorem Session.Adapted.of_loc {s' : Session} (h : s.Adapted) (hl : s'.loc = s.loc) :
    s'.Adapted := h.of_eq (by rw [hl]) (by rw [hl]) (by rw [hl]) (by rw [hl])

/-- A read raises the threshold, if it moves it. -/
theorem minlimit_held (h : s.Adapted) (hlast : s.loc.lastwritesock + B / 2 < 2 ^ 31)
    (hi : s.loc.totali + i ≤ B) : 1 ≤ (s.loc.held i).minlimit := by
  show 1 ≤ if s.loc.flagLastWritesock then
    int32 (s.loc.lastwritesock + (s.loc.totali + i : ℕ) / 2) else s.loc.minlimit
  split
  -- the sum is an `int`, so it does not wrap
  · have hpos := h.lastwritesock
    rw [int32, Int.bmod_eq_of_le (by omega) (by omega)]
    omega
  · exact h.minlimit

theorem Session.Adapted.held {s' : Session} (h : s.Adapted)
    (hlast : s.loc.lastwritesock + B / 2 < 2 ^ 31) (hi : 0 < i) (hle : s.loc.totali + i ≤ B)
    (hl : s'.loc = s.loc.held i) : s'.Adapted where
  minlimit := hl ▸ minlimit_held h hlast hle
  lastwritesock := hl ▸ h.lastwritesock
  lastreadmaster := by
    rw [hl]
    exact fun _ => ⟨hi, Nat.le_add_left i s.loc.totali⟩

/-- What a flush lowers the threshold to. -/
theorem flushing_minlimit (h : s.Adapted) (hz : s.loc.totali ≠ 0)
    (hx : s.flagForwardtimerEx = true) (hinc : s.loc.flagMinlimitIncrd = false) :
    1 ≤ s.flushing.loc.minlimit ∧ s.flushing.loc.minlimit ≤ s.loc.totali := by
  obtain ⟨hpos, hle⟩ := h.lastreadmaster (Nat.pos_of_ne_zero hz)
  have hlow : s.flushing.loc.minlimit = s.loc.totali - s.loc.lastreadmaster / 4 :=
    if_pos ⟨hx, by simp [hinc]⟩
  rw [hlow]
  omega

theorem Session.Adapted.flushing (h : s.Adapted) (hz : s.loc.totali ≠ 0) :
    s.flushing.Adapted where
  minlimit := by
    by_cases hlow : s.flagForwardtimerEx = true ∧ s.loc.flagMinlimitIncrd = false
    · exact (flushing_minlimit h hz hlow.1 hlow.2).1
    · have hsame : s.flushing.loc.minlimit = s.loc.minlimit :=
        if_neg fun hc => hlow ⟨hc.1, by simpa using hc.2⟩
      exact hsame ▸ h.minlimit
  lastwritesock := h.lastwritesock
  lastreadmaster := h.lastreadmaster

/-- Behind a flush there is nothing in the buffer, and the packet had its Q byte at least. -/
theorem Session.Adapted.flushed (h : s.Adapted) {iw : ℕ} (hiw : 0 < iw) (buf : List UInt8) :
    (s.flushed iw buf).Adapted where
  minlimit := h.minlimit
  lastwritesock := hiw
  lastreadmaster := nofun

end Variables

/-! ## The packets of a call -/

section Packets

variable {E : Env → Prop} {buf : List UInt8} {n m : ℕ} {w w' : SRun} {v : WriteVars}

/-- The loop of `writensockint`: as long as the socket has taken nothing, a packet is the whole
buffer. -/
structure Sizing (buf : List UInt8) (n m : ℕ) (v : WriteVars) (w : SRun) : Prop where
  covers : v.Covers buf n
  sized : Always (fun _ k _ => k.Sized m) w.trace
  whole : Always TakesPackets w.trace → v.ptr = 0 ∨ n ≤ maxPacket

theorem Sizing.inter (h : Sizing buf n m v w) (hs : Served E w w') : Sizing buf n m v w' where
  covers := h.covers
  sized := hs.always h.sized fun _ k _ hk => by
    obtain ⟨file, rfl⟩ := hk.eq
    trivial
  whole := fun ht => by
    obtain ⟨-, t, hw', -⟩ := hs
    exact h.whole (always_of_append (hw' ▸ ht))

/-- The result of a call: what was sent with the Q byte. -/
theorem Sizing.result (h : Sizing buf n m v w) (ht : Always TakesPackets w.trace) :
    n - v.nleft ≤ maxPacket := by
  have hc := h.covers.count
  have hmax : maxPacket = 65535 := rfl
  have hw := h.whole ht
  omega

/-- A write that accepts nothing. -/
theorem wp_writensockintFailed_sized (h : Sizing buf n m v w) :
    wp E (fun w' => Always (fun _ k _ => k.Sized m) w'.trace)
      (writensockintFailed n doInter wrError v)
      (fun r w' => r.elim (fun v' => Sizing buf n m v' w') fun a =>
        Always (fun _ k _ => k.Sized m) w'.trace ∧
          (Always TakesPackets w'.trace → a.1 ≤ maxPacket)) w := by
  refine wp_bind (wp_get ?_)
  split
  · refine wp_bind (wp_mono (wp_doInter w) (fun w' hs => (h.inter hs).sized) fun r w' hr => ?_)
    have h' := h.inter hr.1
    split
    -- the handler ends the call, or the packet is written again
    · exact wp_pure ⟨h'.sized, h'.result⟩
    · exact wp_pure h'
  · split
    · exact wp_pure ⟨⟨h.covers.count, h.covers.lt, h.covers.length, h.covers.rest⟩, h.sized,
        h.whole⟩
    · exact wp_bind (wp_bind (wp_modify (wp_pure (wp_pure ⟨h.sized, h.result⟩))))

/-- One round: the packet is the Q byte and all bytes left. -/
theorem wp_writensockintRound_sized (hn : n ≤ buf.length) (hm : n ≤ m)
    (h : Sizing buf n m v w) :
    wp E (fun w' => Always (fun _ k _ => k.Sized m) w'.trace)
      (writensockintRound (buf.headD 0) n doInter wrError v)
      (fun r w' => r.elim (fun v' => Sizing buf n m v' w') fun a =>
        Always (fun _ k _ => k.Sized m) w'.trace ∧
          (Always TakesPackets w'.trace → a.1 ≤ maxPacket)) w := by
  unfold writensockintRound
  split
  · exact wp_pure ⟨h.sized, h.result⟩
  · next hz =>
    have hp := h.covers.plant (buf.headD 0)
    have hc := h.covers.count
    have hlen : (WriteVars.packet { v with buf := v.buf.set v.ptr (buf.headD 0) }).length =
        v.nleft + 1 := by
      rw [h.covers.packet_eq, List.length_cons, List.length_drop, List.length_take,
        List.length_drop]
      omega
    have hlt : v.ptr + (v.nleft + 1) ≤ (v.buf.set v.ptr (buf.headD 0)).length := by
      rw [List.length_set, h.covers.length]
      omega
    dsimp only
    generalize WriteVars.packet { v with buf := v.buf.set v.ptr (buf.headD 0) } = pkt at *
    have hsized : ∀ res s, Always (fun _ k _ => k.Sized m)
        (w.trace ++ [(.writeSock pkt res, s)]) := fun res s =>
      always_concat.mpr ⟨h.sized, by omega, by omega⟩
    refine wp_bind (wp_writeSock h.sized (fun e _ er _ => ?_) fun e _ k _ => ?_)
    · exact wp_writensockintFailed_sized ⟨hp, hsized _ _, fun ht => h.whole (always_of_append ht)⟩
    · split
      · exact wp_writensockintFailed_sized ⟨hp, hsized _ _,
          fun ht => h.whole (always_of_append ht)⟩
      · next hk =>
        refine wp_pure ⟨hp.accept (m := min k pkt.length) (by omega) (by dsimp only; omega) ?_,
          hsized _ _, fun ht => ?_⟩
        · dsimp only
          omega
        · -- the first packet that is taken is the whole buffer
          obtain ⟨ht, hfit⟩ := always_concat.mp ht
          have hfit : pkt.length ≤ maxPacket := hfit
          have hw := h.whole ht
          omega

/-- **The packets of a call of `writensockint`.** Each carries at least one byte of the payload and
none is longer than the buffer; what a socket that takes packets sends is one packet. -/
theorem wp_writensockint_sized (h2 : 2 ≤ n) (hn : n ≤ buf.length) (hm : n ≤ m)
    (hw : Always (fun _ k _ => k.Sized m) w.trace) :
    wp E (fun w' => Always (fun _ k _ => k.Sized m) w'.trace) (writensockint buf n doInter wrError)
      (fun r w' => Always (fun _ k _ => k.Sized m) w'.trace ∧
        (Always TakesPackets w'.trace → r.1 ≤ maxPacket)) w := by
  unfold writensockint
  rw [if_neg (by omega)]
  refine wp_iter (Sizing buf n m) (fun _ _ h => h.sized)
    (fun v w h => wp_writensockintRound_sized hn hm h) ⟨⟨?_, ?_, rfl, rfl⟩, hw, fun _ => Or.inl rfl⟩
  · dsimp only
    omega
  · dsimp only
    omega

end Packets

/-! ## The loop -/

section Loop

/-- The bounds hold, now and at every call before. -/
def InBounds (B : ℕ) (w : SRun) : Prop :=
  Addable B w.trace → w.st.Adapted ∧ Always (fun _ k s => s.Adapted ∧ k.Lowers B s) w.trace

/-- What holds wherever a run stands, with a block of `B + 1` bytes. -/
structure Controlled (B : ℕ) (w : SRun) : Prop where
  sized : Always (fun _ k _ => k.Sized (B + 1)) w.trace
  bounds : InBounds B w

/-- The invariant of the loop: the length of the last packet is known besides, in both cases of
`Addable`. -/
structure Adapting (E : Env → Prop) (s₀ : Session) (w : SRun) : Prop
    extends Controlled s₀.cfg.bufferSize.toNat w where
  laid : Laid E s₀ w.st
  last : w.st.loc.lastwritesock ≤ max 10 (s₀.cfg.bufferSize.toNat + 1)
  packet : Always TakesPackets w.trace → w.st.loc.lastwritesock ≤ maxPacket

variable {E : Env → Prop} {s₀ s : Session} {w w' : SRun} {hup : Prop} {B : ℕ}

/-- New calls, in states within the bounds. -/
theorem InBounds.append (h : InBounds B w) {t : STrace} (ht : w'.trace = w.trace ++ t)
    (hst : Addable B w.trace → w.st.Adapted → w'.st.Adapted)
    (hx : w.st.Adapted → ∀ x ∈ t, x.2.Adapted ∧ x.1.Lowers B x.2) : InBounds B w' := by
  intro hadd
  rw [ht] at hadd ⊢
  obtain ⟨ha, hall⟩ := h hadd.of_append
  exact ⟨hst hadd.of_append ha, always_append hall fun x hm _ => hx ha x hm⟩

/-- Packets leave the variables alone. -/
theorem InBounds.sent {q : UInt8} {payload : List UInt8} {k : ℕ} (h : InBounds B w)
    (hs : Sent E q payload k w w') : InBounds B w' := by
  obtain ⟨t, ht, hx, -⟩ := hs.trace
  refine h.append ht (fun _ ha => ha.of_loc hs.state.loc) fun ha x hm => ?_
  obtain ⟨hs₁, hk⟩ := hx x hm
  refine ⟨ha.of_loc hs₁.loc, ?_⟩
  rcases hk.eq with ⟨_, h⟩ | ⟨_, _, h, -⟩
  · rw [h]
    trivial
  · rw [h]
    trivial

/-- The length of the last packet and half of the buffer are an `int` together. -/
theorem Adapting.last_add_lt (h : Adapting E s₀ w) (hint : s₀.cfg.bufferSize < 2 ^ 31)
    (hadd : Addable s₀.cfg.bufferSize.toNat w.trace) :
    w.st.loc.lastwritesock + s₀.cfg.bufferSize.toNat / 2 < 2 ^ 31 := by
  have hmax : maxPacket = 65535 := rfl
  -- with a larger buffer it is the socket that keeps the packets short
  by_cases hB : 2 ^ 31 ≤ s₀.cfg.bufferSize.toNat + 1 + s₀.cfg.bufferSize.toNat / 2
  · have hp := h.packet (hadd hB)
    omega
  · have hl := h.last
    omega

/-- Calls that are no packets, and leave the variables of the threshold alone. -/
theorem Adapting.of_eq (h : Adapting E s₀ w) {t : STrace} (ht : w'.trace = w.trace ++ t)
    (hlaid : Laid E s₀ w'.st) (hm : w'.st.loc.minlimit = w.st.loc.minlimit)
    (hw : w'.st.loc.lastwritesock = w.st.loc.lastwritesock)
    (hr : w'.st.loc.lastreadmaster = w.st.loc.lastreadmaster)
    (hti : w'.st.loc.totali = w.st.loc.totali)
    (hx : ∀ x ∈ t, x.1.Sized (s₀.cfg.bufferSize.toNat + 1) ∧ (w.st.Adapted →
      x.2.Adapted ∧ x.1.Lowers s₀.cfg.bufferSize.toNat x.2)) : Adapting E s₀ w' where
  sized := ht ▸ always_append h.sized fun x hm _ => (hx x hm).1
  bounds := h.bounds.append ht (fun _ ha => ha.of_eq hm hw hr hti)
    fun ha x hm => (hx x hm).2 ha
  laid := hlaid
  last := hw ▸ h.last
  packet := fun htp => hw ▸ h.packet (always_of_append (ht ▸ htp))

/-- Beside the terminal-to-network path no flush is tested for, and no packet is written. -/
theorem Event.IsBeside.unbounded {k : Event} (h : k.IsBeside hup s) (B : ℕ) :
    k.Sized (B + 1) ∧ ∀ s', k.Lowers B s' := by
  rcases h.eq with ⟨-, _, rfl⟩ | ⟨_, rfl⟩ | ⟨_, _, rfl⟩ | ⟨_, _, rfl⟩ | ⟨_, rfl⟩
  all_goals exact ⟨trivial, fun _ => trivial⟩

/-- The other parts of a round work on none of these variables. -/
theorem Adapting.aside (h : Adapting E s₀ w) (ha : Aside E hup w w') : Adapting E s₀ w' := by
  obtain ⟨hb, t, ht, hx⟩ := ha
  obtain ⟨so, ma, pi, ws, -, hl⟩ := hb.loc
  refine h.of_eq ht (h.laid.beside hb).1 (by rw [hl]) (by rw [hl]) (by rw [hl]) (by rw [hl])
    fun x hm => ?_
  obtain ⟨so', ma', pi', ws', -, hl'⟩ := (hx x hm).1.loc
  obtain ⟨hsized, hlow⟩ := (hx x hm).2.unbounded s₀.cfg.bufferSize.toNat
  exact ⟨hsized, fun ha => ⟨ha.of_eq (by rw [hl']) (by rw [hl']) (by rw [hl']) (by rw [hl']),
    hlow x.2⟩⟩

/-- The points of the loop. -/
theorem Adapting.label (h : Adapting E s₀ w) {k : Event} (hk : k = .loopHead ∨ k = .loopEnd) :
    Adapting E s₀ ⟨w.st, w.trace ++ [(k, w.st)]⟩ := by
  refine h.of_eq rfl h.laid rfl rfl rfl rfl fun x hm => ?_
  rw [List.mem_singleton.mp hm]
  rcases hk with rfl | rfl
  · exact ⟨trivial, fun ha => ⟨ha, trivial⟩⟩
  · exact ⟨trivial, fun ha => ⟨ha, trivial⟩⟩

/-- A read from the master that leaves the variables alone. -/
theorem Adapting.read (h : Adapting E s₀ w) (e : Env) (res : Except Errno (List UInt8))
    (hl : s.loc = w.st.loc) (hlaid : Laid E s₀ s) : Adapting E s₀ (readRun w e res s) := by
  refine h.of_eq rfl hlaid (by rw [hl]) (by rw [hl]) (by rw [hl]) (by rw [hl]) fun x hm => ?_
  rw [List.mem_singleton.mp hm]
  exact ⟨trivial, fun ha => ⟨ha.of_loc (deliver_loc e w.st), trivial⟩⟩

variable (hfix : ∀ c, CfgReach E s₀.cfg c → c.forwardtimer = s₀.cfg.forwardtimer ∧
    c.bufferSize = s₀.cfg.bufferSize) (hft : s₀.cfg.forwardtimer ≠ 0)
  (hint : s₀.cfg.bufferSize < 2 ^ 31)

include hfix hint in
/-- A read from the master that stays in the buffer. -/
theorem Adapting.controlled_heldRead (h : Adapting E s₀ w) (e : Env) {data : List UInt8}
    (hne : data ≠ []) (hlen : data.length ≤ w.st.loc.freesize)
    (hl : s.loc = w.st.loc.held data.length) :
    Controlled s₀.cfg.bufferSize.toNat (readRun w e (.ok data) s) where
  sized := always_concat.mpr ⟨h.sized, trivial⟩
  bounds := by
    have hfull := h.laid.full fun c hc => (hfix c hc).2
    refine h.bounds.append rfl (fun hadd ha => ?_) fun ha x hm => ?_
    · exact ha.held (h.last_add_lt hint hadd) (List.length_pos_iff.mpr hne) (by omega) hl
    · rw [List.mem_singleton.mp hm]
      exact ⟨ha.of_loc (deliver_loc e w.st), trivial⟩

include hfix hft hint in
theorem wp_readMasterPart_adapting (h : Adapting E s₀ w) :
    wp E (Controlled s₀.cfg.bufferSize.toNat) readMasterPart (fun _ => Adapting E s₀) w := by
  have hon : w.st.cfg.forwardtimer ≠ 0 := by rwa [(hfix _ h.laid.cfg).1]
  refine wp_readMasterPart_laid (fun c hc => Int.le_of_eq (hfix c hc).2) h.laid h.toControlled
    (fun _ => h) (fun e he er _ => ?_) (fun e he _ => ?_) (fun hz => absurd hz hon)
    (fun hz => absurd hz hon) fun _ e he data hne hlen _ s hs => ⟨?_, fun s' hn hl _ => ?_⟩
  · have h₁ : Adapting E s₀ (readRun w e (.error er) ((deliver e w.st).failing er)) :=
      h.read e _ (by simp) ((h.laid.delivered e).of_eq rfl rfl .refl)
    exact wp_failed_aside (fun _ h => h.toControlled) (fun _ ha => h₁.aside ha) (by simp) (by simp)
  · exact h.read e _ (by simp) ((h.laid.delivered e).of_eq rfl rfl .refl)
  · exact h.controlled_heldRead hfix hint e hne hlen (by simp [hs])
  · have hloc : s'.loc = w.st.loc.held data.length := by simpa [hs] using hn.loc
    exact ⟨h.controlled_heldRead hfix hint e hne hlen hloc, hl, hloc ▸ h.last,
      fun ht => hloc ▸ h.packet (always_of_append ht)⟩

include hfix in
/-- The packets of a flush. -/
theorem wp_forwardPart_sized (h : Adapting E s₀ w) :
    wp E (fun w' => Always (fun _ k _ => k.Sized (s₀.cfg.bufferSize.toNat + 1)) w'.trace)
      forwardPart (fun _ w' =>
        Always (fun _ k _ => k.Sized (s₀.cfg.bufferSize.toNat + 1)) w'.trace ∧
          (Always TakesPackets w'.trace → w'.st.loc.lastwritesock ≤ maxPacket)) w := by
  have hfull := h.laid.full fun c hc => (hfix c hc).2
  have htest : Always (fun _ k _ => k.Sized (s₀.cfg.bufferSize.toNat + 1))
      (w.trace ++ [(.forwardTest, w.st)]) := always_concat.mpr ⟨h.sized, trivial⟩
  have hsame : Always TakesPackets (w.trace ++ [(.forwardTest, w.st)]) →
      w.st.loc.lastwritesock ≤ maxPacket := fun ht => h.packet (always_of_append ht)
  unfold forwardPart
  refine wp_bind (wp_label (wp_bind (wp_get ?_)))
  split
  · split
    · exact wp_modify ⟨htest, hsame⟩
    · next hz =>
      have hz : w.st.loc.totali ≠ 0 := hz
      have hlen : w.st.loc.totali + 1 ≤ w.st.flushing.bufd.length := by
        rw [flushing_length, h.laid.bufd]
        omega
      refine wp_bind (wp_modify (wp_bind (wp_get (wp_bind (wp_mono
        (wp_writensockint_sized (m := s₀.cfg.bufferSize.toNat + 1) ?_ hlen ?_ htest)
        (fun _ hs => hs) fun r w' hr => wp_modify hr)))))
      · show 2 ≤ w.st.loc.totali + 1
        omega
      · show w.st.loc.totali + 1 ≤ _
        omega
  · exact wp_pure ⟨htest, hsame⟩

include hfix in
/-- The variables of a flush. -/
theorem wp_forwardPart_inBounds (h : Adapting E s₀ w) :
    wp E (InBounds s₀.cfg.bufferSize.toNat) forwardPart (fun _ w' => Laid E s₀ w'.st ∧
      w'.st.loc.lastwritesock ≤ max 10 (s₀.cfg.bufferSize.toNat + 1) ∧
      InBounds s₀.cfg.bufferSize.toNat w') w := by
  have hfull := h.laid.full fun c hc => (hfix c hc).2
  -- what a flush test finds
  have htest : ∀ s : Session, (w.st.Adapted → s.Adapted) →
      InBounds s₀.cfg.bufferSize.toNat ⟨s, w.trace ++ [(.forwardTest, w.st)]⟩ := fun s hs => by
    refine h.bounds.append rfl (fun _ ha => hs ha) fun ha x hm => ?_
    rw [List.mem_singleton.mp hm]
    refine ⟨ha, fun hf hz => ?_⟩
    rw [h.laid.held_length]
    exact ⟨Nat.pos_of_ne_zero hz, by omega, flushing_minlimit ha hz⟩
  have hflushing : w.st.loc.totali ≠ 0 → InBounds s₀.cfg.bufferSize.toNat
      ⟨w.st.flushing, w.trace ++ [(.forwardTest, w.st)]⟩ := fun hz =>
    htest _ fun ha => ha.flushing hz
  refine wp_forwardPart_laid (Q := fun w' => Laid E s₀ w'.st ∧
      w'.st.loc.lastwritesock ≤ max 10 (s₀.cfg.bufferSize.toNat + 1) ∧
      InBounds s₀.cfg.bufferSize.toNat w') (fun c hc => Int.le_of_eq (hfix c hc).2) h.laid
    (fun _ => ⟨h.laid, h.last, htest _ id⟩) (fun _ _ s hs hl => ⟨hl, ?_, ?_⟩)
    (fun _ hz k w' hs => (hflushing hz).sent hs) fun _ hz r w' hw hs hl => ⟨hl, ?_, ?_⟩
  · rw [hs]
    exact h.last
  · refine htest s fun ha => ?_
    rw [hs]
    exact ha.of_eq rfl rfl rfl rfl
  · have hle := hw.le
    show r.1 ≤ _
    omega
  · intro hadd
    obtain ⟨ha, hall⟩ := (hflushing hz).sent hs hadd
    exact ⟨ha.flushed hw.pos r.2, hall⟩

include hfix in
theorem wp_forwardPart_adapting (h : Adapting E s₀ w) :
    wp E (Controlled s₀.cfg.bufferSize.toNat) forwardPart (fun _ => Adapting E s₀) w := by
  -- the variables by the rule of the flush, the packets by that of `writensockint`
  refine wp_mono (wp_and (wp_forwardPart_inBounds hfix h) (wp_forwardPart_sized hfix h))
    (fun w' hI => ⟨hI.2, hI.1⟩) fun _ w' hQ => ?_
  obtain ⟨⟨hlaid, hlast, hbounds⟩, hsized, hpacket⟩ := hQ
  exact ⟨⟨hsized, hbounds⟩, hlaid, hlast, hpacket⟩

end Loop

/-! ## The theorem -/

/-- **The bounds of the adaptive threshold.** With the idle timer and fixed settings, in every state
of every run: the threshold is positive, so is the length of the last packet, and what is in the
buffer includes the last read. A flush lowers the threshold to between 1 and the number of bytes it
sends, and every packet carries between 1 and `Buffer_size` bytes. A `Buffer_size` above two thirds
of the ints rests on the X.25 socket, which takes no packets of such a size. -/
theorem doCopy_adapted {es : List Env} {s : Session} {bufn bufd : List UInt8}
    (hft : s.cfg.forwardtimer ≠ 0) (hmin : 1 ≤ s.datalengthMin)
    (hint : s.cfg.bufferSize < 2 ^ 31) (hbufd : bufd.length = s.cfg.bufferSize.toNat + 1)
    (hfix : ∀ c, CfgReach (· ∈ es) s.cfg c →
      c.forwardtimer = s.cfg.forwardtimer ∧ c.bufferSize = s.cfg.bufferSize)
    (hsock : Addable s.cfg.bufferSize.toNat (doCopyTrace es s bufn bufd)) :
    (doCopyLoop es ⟨doCopyStart s bufn bufd, []⟩).1.st.Adapted ∧
      Always (ThresholdBounds s.cfg.bufferSize.toNat) (doCopyTrace es s bufn bufd) := by
  have hstart : Adapting (· ∈ es) s ⟨doCopyStart s bufn bufd, []⟩ :=
    ⟨⟨always_nil, fun _ => ⟨⟨hmin, Nat.succ_pos 9, nofun⟩, always_nil⟩⟩,
      laid_doCopyStart _ s bufn hbufd, le_max_left _ _,
      fun _ => show 10 ≤ 65535 from Nat.le_add_right 10 65525⟩
  have hrun : Controlled s.cfg.bufferSize.toNat (doCopyLoop es ⟨doCopyStart s bufn bufd, []⟩).1 :=
    always_of_wp (wp_doCopyLoop_invariant (fun _ h => h.toControlled) (fun _ _ hk h => h.label hk)
      (fun _ _ h ha => h.aside ha) (fun _ h => wp_readMasterPart_adapting hfix hft hint h)
      (fun _ h => wp_forwardPart_adapting hfix h) hstart) (fun _ _ h => h.toControlled)
      fun _ he => he
  obtain ⟨hst, hall⟩ := hrun.bounds hsock
  refine ⟨hst, fun t₁ k s₁ t₂ ht => ?_⟩
  obtain ⟨ha, hlow⟩ := hall t₁ k s₁ t₂ ht
  exact ⟨ha, hlow, hrun.sized t₁ k s₁ t₂ ht⟩

/-- Three bytes bring `totali` above a threshold of 2, and are sent. -/
def burstScript : List Env :=
  polled [.typed [97, 98, 99]] true false ++ [{ Env.willing with master := .ok 3 }] ++ quiet 3

theorem doCopy_adapted_burst :
    (doCopyLoop burstScript ⟨doCopyStart { Session.fresh 10 4 with datalengthMin := 2 } []
        (List.replicate 5 0), []⟩).1.st.Adapted ∧
      Always (ThresholdBounds 4) (doCopyTrace burstScript
        { Session.fresh 10 4 with datalengthMin := 2 } [] (List.replicate 5 0)) := by
  refine doCopy_adapted (s := { Session.fresh 10 4 with datalengthMin := 2 }) (by decide)
    (by decide) (by decide) (by decide) (fun c hc => ?_) (.of_lt (by decide))
  have hall : ∀ e ∈ burstScript, e.file = .missing false := by decide
  rw [cfgReach_of_missing hall hc]
  exact ⟨rfl, rfl⟩

end PadSvr
