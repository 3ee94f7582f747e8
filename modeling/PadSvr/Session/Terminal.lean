import PadSvr.Session.Buffer
import PadSvr.Stream.Relay

/-!
# The terminal-to-network stream

The loop of `do_copy` is a relay of the bytes of the terminal side: it takes them in by reads from
the master, holds them in `bufd2`, and passes them on as the payloads of the packets the X.25
socket accepts. It stays one in every run in which `Forward_idle_timeout` is not set to zero while
bytes are held, and so in every run that leaves it alone.

## Main definitions

* `NoStrand`: no read and no flush finds the idle timer switched off while bytes are held
* `StreamAt`: what holds of the stream at the head of the loop
* `Relays r w`: the run `w` has done what the relay `r` has

## Main results

* `doCopy_stream_whole`: the stream of a session whose settings stay the same
* `doCopy_stream_of_noStrand`: the stream under reloads that change `Forward_idle_timeout`
* `not_reload_stream`: a reload that switches the timer off while bytes are held
-/

namespace PadSvr

open Scripted Scripted.Prog Stream

/-! ## The properties -/

/-- Every prefix of the trace has passed on a prefix of what it has taken in. -/
def StreamPrefix (t : STrace) : Prop := ∀ t₁, t₁ <+: t → accepted t₁ <+: received t₁

/-- At a read from the master that delivers something, and at a flush that is due, the buffer is
empty if `Forward_idle_timeout` is zero. -/
def NoStrand (_ : STrace) : Event → Session → Prop
  | .readMaster _ _ (.ok data), s => data ≠ [] → s.cfg.forwardtimer = 0 → s.loc.totali = 0
  | .forwardTest, s => s.due = true → s.cfg.forwardtimer = 0 → s.loc.totali = 0
  | _, _ => True

/-- At the head of the loop, the bytes passed on and the bytes held are those read, no flush stays
due, and after a hang-up nothing is held back. -/
def StreamAt (B : ℕ) (t : STrace) : Event → Session → Prop
  | .loopHead, s =>
    (s.done = 0 → accepted t ++ s.held = received t ∧ s.loc.tbufd2 = s.loc.totali ∧
      s.loc.totali + s.loc.freesize = B ∧
      (s.flagForwardtimerEx ∨ s.loc.flagMinlimitEx → s.loc.totali = 0)) ∧
    (s.done = 3 → accepted t = received t)
  | _, _ => True

/-! ## Traces -/

theorem accepted_mono {t t' : STrace} (h : t <+: t') : accepted t <+: accepted t' := by
  obtain ⟨u, rfl⟩ := h
  exact ⟨accepted u, (accepted_append t u).symm⟩

theorem received_mono {t t' : STrace} (h : t <+: t') : received t <+: received t' := by
  obtain ⟨u, rfl⟩ := h
  exact ⟨received u, (received_append t u).symm⟩

/-- New calls that read nothing, and accept no more than was read before. -/
theorem StreamPrefix.append {t t' : STrace} (h : StreamPrefix t)
    (ha : accepted (t ++ t') <+: received t) : StreamPrefix (t ++ t') := by
  intro t₁ ht₁
  rcases List.prefix_or_prefix_of_prefix ht₁ (List.prefix_append t t') with h₁ | ⟨t₂, rfl⟩
  · exact h t₁ h₁
  · have h₂ : t₂ <+: t' := (List.prefix_append_right_inj t).mp ht₁
    calc accepted (t ++ t₂)
      _ <+: accepted (t ++ t') := accepted_mono ((List.prefix_append_right_inj t).mpr h₂)
      _ <+: received t := ha
      _ <+: received (t ++ t₂) := received_mono (List.prefix_append t t₂)

/-- New calls away from the head of the loop. -/
theorem streamAt_append {B : ℕ} {t t' : STrace} (h : Always (StreamAt B) t)
    (hn : ∀ x ∈ t', x.1 ≠ .loopHead) : Always (StreamAt B) (t ++ t') :=
  always_append h fun x hx _ => by
    have hx := hn x hx
    rcases x with ⟨_ | _, _⟩ <;> simp_all [StreamAt]

/-! ## The refinement -/

/-- The run has taken in and passed on what the relay has. -/
structure Relays (r : Relay UInt8) (w : SRun) : Prop where
  taken : r.taken = received w.trace
  passed : r.passed = accepted w.trace

/-- The properties of the stream, at every point of the trace. -/
structure Sound (B : ℕ) (t : STrace) : Prop where
  pre : StreamPrefix t
  good : Always (StreamAt B) t

/-- The relay holds what the buffer does, or the session has lost it and is about to end. -/
def Keeping (r : Relay UInt8) (s : Session) : Prop :=
  r.held = s.held ∨ s.done ≠ 0 ∧ s.done ≠ 3 ∧ s.loc.totali = 0

section Steps

variable {E : Env → Prop} {s₀ : Session} {r : Relay UInt8} {w w' : SRun} {hup : Prop} {B : ℕ}

/-- Nothing is passed on or taken in beside the path of the stream. -/
theorem eq_nil_of_isBeside {t : STrace} (ht : ∀ x ∈ t, x.1.IsBeside hup x.2) :
    accepted t = [] ∧ received t = [] ∧ ∀ x ∈ t, x.1 ≠ .loopHead := by
  refine ⟨List.flatMap_eq_nil_iff.mpr fun x hx => ?_, List.flatMap_eq_nil_iff.mpr fun x hx => ?_,
    fun x hx => ?_⟩
  all_goals
    rcases (ht x hx).eq with ⟨-, _, h⟩ | ⟨_, h⟩ | ⟨_, _, h⟩ | ⟨_, _, h⟩ | ⟨_, h⟩ <;>
      simp [h, Event.accepted, Event.received]

/-- `writensockint` takes nothing in. -/
theorem eq_nil_of_isPacket {q : UInt8} {t : STrace} (ht : ∀ x ∈ t, x.1.IsPacket q) :
    received t = [] ∧ ∀ x ∈ t, x.1 ≠ .loopHead := by
  refine ⟨List.flatMap_eq_nil_iff.mpr fun x hx => ?_, fun x hx => ?_⟩
  all_goals
    rcases (ht x hx).eq with ⟨_, h⟩ | ⟨_, _, h, -⟩ <;> simp [h, Event.received]

/-- A call that passes nothing on, away from the head of the loop. -/
theorem Sound.call {t : STrace} (h : Sound B t) {k : Event} (s : Session) (hk : k ≠ .loopHead)
    (ha : k.accepted = []) : Sound B (t ++ [(k, s)]) where
  pre := h.pre.append (by simpa [ha] using h.pre t (List.prefix_refl t))
  good := streamAt_append h.good (by simpa using hk)

theorem Sound.aside (h : Sound B w.trace) (ha : Aside E hup w w') : Sound B w'.trace := by
  obtain ⟨-, t, ht, hx⟩ := ha
  obtain ⟨h₁, -, h₃⟩ := eq_nil_of_isBeside fun x hm => (hx x hm).2
  rw [ht]
  exact ⟨h.pre.append (by simpa [h₁] using h.pre _ (List.prefix_refl _)), streamAt_append h.good h₃⟩

theorem Relays.aside (h : Relays r w) (ha : Aside E hup w w') : Relays r w' := by
  obtain ⟨-, t, ht, hx⟩ := ha
  obtain ⟨h₁, h₂, -⟩ := eq_nil_of_isBeside fun x hm => (hx x hm).2
  exact ⟨by rw [ht, received_append, h₂, List.append_nil, h.taken],
    by rw [ht, accepted_append, h₁, List.append_nil, h.passed]⟩

/-- Packets pass on the first bytes of what the relay holds. -/
theorem Relays.sent {q : UInt8} {k : ℕ} (h : Relays r w) (hs : Sent E q r.held k w w') :
    Relays (r.send k) w' := by
  obtain ⟨t, ht, hx, ha, -⟩ := hs.trace
  obtain ⟨h₁, -⟩ := eq_nil_of_isPacket fun x hm => (hx x hm).2
  exact ⟨by rw [ht, received_append, h₁, List.append_nil, Relay.send_taken, h.taken],
    by rw [ht, accepted_append, ha, Relay.send_passed, h.passed]⟩

theorem Sound.sent {q : UInt8} {k : ℕ} (h : Sound B w.trace) (hr : Relays r w)
    (hs : Sent E q r.held k w w') : Sound B w'.trace := by
  have hr' := hr.sent hs
  obtain ⟨t, ht, hx, -⟩ := hs.trace
  obtain ⟨h₁, h₂⟩ := eq_nil_of_isPacket fun x hm => (hx x hm).2
  have hpre : accepted w'.trace <+: received w'.trace := by
    rw [← hr'.passed, ← hr'.taken]
    exact (r.send k).passed_isPrefix
  rw [ht] at hpre ⊢
  rw [received_append, h₁, List.append_nil] at hpre
  exact ⟨h.pre.append hpre, streamAt_append h.good h₂⟩

theorem Keeping.aside (h : Keeping r w.st) (ha : Aside E False w w') (hh : w'.st.held = w.st.held)
    (ht : w'.st.loc.totali = w.st.loc.totali) : Keeping r w'.st := by
  rcases h with h | ⟨h₀, h₃, hz⟩
  · exact Or.inl (h.trans hh.symm)
  · refine Or.inr ⟨ha.1.done h₀, fun h => ?_, ht.trans hz⟩
    rcases ha.1.three h with h' | h'
    · exact h₃ h'
    · exact h'

end Steps

/-! ## The invariants -/

section Invariants

/-- Before the read of a round: unless bytes were stranded, the relay holds what the buffer does. -/
def BeforeRead (E : Env → Prop) (s₀ : Session) (w : SRun) : Prop :=
  Laid E s₀ w.st ∧ (Always NoStrand w.trace → Sound s₀.cfg.bufferSize.toNat w.trace ∧
    ∃ r, Relays r w ∧ r.held = w.st.held)

/-- After the read of a round. -/
def AfterRead (E : Env → Prop) (s₀ : Session) (w : SRun) : Prop :=
  Laid E s₀ w.st ∧ (Always NoStrand w.trace → Sound s₀.cfg.bufferSize.toNat w.trace ∧
    ∃ r, Relays r w ∧ Keeping r w.st)

/-- At the head of the loop: no flush is due while bytes are held. -/
def AtHead (E : Env → Prop) (s₀ : Session) (w : SRun) : Prop :=
  Laid E s₀ w.st ∧ (Always NoStrand w.trace → Sound s₀.cfg.bufferSize.toNat w.trace ∧
    ∃ r, Relays r w ∧ Keeping r w.st ∧ (w.st.due = true → w.st.loc.totali = 0))

/-- Everywhere. -/
def Anywhere (s₀ : Session) (w : SRun) : Prop :=
  Always NoStrand w.trace → Sound s₀.cfg.bufferSize.toNat w.trace

variable {E : Env → Prop} {s₀ : Session} {w w' : SRun}

theorem BeforeRead.anywhere (h : BeforeRead E s₀ w) : Anywhere s₀ w := fun hc => (h.2 hc).1

theorem AfterRead.anywhere (h : AfterRead E s₀ w) : Anywhere s₀ w := fun hc => (h.2 hc).1

theorem AtHead.anywhere (h : AtHead E s₀ w) : Anywhere s₀ w := fun hc => (h.2 hc).1

theorem BeforeRead.after (h : BeforeRead E s₀ w) : AfterRead E s₀ w :=
  ⟨h.1, fun hc =>
    have ⟨hs, r, hr, hh⟩ := h.2 hc
    ⟨hs, r, hr, Or.inl hh⟩⟩

variable (hB : ∀ c, CfgReach E s₀.cfg c → c.bufferSize = s₀.cfg.bufferSize)

theorem always_of_aside {G : STrace → Event → Session → Prop} {hup : Prop}
    (ha : Aside E hup w w') (h : Always G w'.trace) : Always G w.trace := by
  obtain ⟨-, t, ht, -⟩ := ha
  rw [ht] at h
  exact always_of_append h

theorem BeforeRead.aside {hup : Prop} (h : BeforeRead E s₀ w) (ha : Aside E hup w w') :
    BeforeRead E s₀ w' := by
  obtain ⟨hl, hh, -⟩ := h.1.beside ha.1
  refine ⟨hl, fun hc => ?_⟩
  obtain ⟨hs, r, hr, hrh⟩ := h.2 (always_of_aside ha hc)
  exact ⟨hs.aside ha, r, hr.aside ha, hrh.trans hh.symm⟩

theorem AfterRead.aside (h : AfterRead E s₀ w) (ha : Aside E False w w') : AfterRead E s₀ w' := by
  obtain ⟨hl, hh, ht⟩ := h.1.beside ha.1
  refine ⟨hl, fun hc => ?_⟩
  obtain ⟨hs, r, hr, hk⟩ := h.2 (always_of_aside ha hc)
  exact ⟨hs.aside ha, r, hr.aside ha, hk.aside ha hh ht⟩

/-- A read that delivers nothing. -/
theorem BeforeRead.nothing (h : BeforeRead E s₀ w) (e : Env) {res : Except Errno (List UInt8)}
    (hres : Event.received (.readMaster 0 0 res) = []) {s : Session} (hl : s.loc = w.st.loc)
    (hb : s.bufd = w.st.bufd) (hc : s.cfg = w.st.cfg) : AfterRead E s₀ (readRun w e res s) := by
  refine ⟨h.1.of_eq hl (by rw [hb]) (by rw [hc]; exact .refl), fun hns => ?_⟩
  obtain ⟨hs, r, hr, hh⟩ := h.2 (always_of_append hns)
  refine ⟨hs.call _ (by simp) rfl, r, ⟨?_, by simp [hr.passed, Event.accepted]⟩, Or.inl ?_⟩
  · rw [hr.taken, received_append, received_singleton]
    cases res with
    | error er => simp [Event.received]
    | ok data => simpa [Event.received] using hres
  · rw [hh, Session.held, Session.held, hl, hb]

/-- The relay takes in what a read delivers. -/
theorem BeforeRead.read (h : BeforeRead E s₀ w) (e : Env) {data : List UInt8} (hne : data ≠ [])
    {s : Session} (hc : Always NoStrand (readRun w e (.ok data) s).trace) :
    (w.st.cfg.forwardtimer = 0 → w.st.loc.totali = 0) ∧
      Sound s₀.cfg.bufferSize.toNat (readRun w e (.ok data) s).trace ∧
        ∃ r, Relays r (readRun w e (.ok data) s) ∧ r.held = w.st.held ++ data := by
  obtain ⟨hc', hn⟩ := always_concat.mp hc
  obtain ⟨hs, r, hr, hh⟩ := h.2 hc'
  refine ⟨by simpa using hn hne, hs.call _ (by simp) rfl, r.feed data, ⟨?_, ?_⟩, ?_⟩
  · simp [hr.taken, Event.received]
  · simp [hr.passed, Event.accepted]
  · rw [Relay.feed_held, hh]

/-- After a call of `writensockint` with everything the relay holds as its payload. -/
theorem Keeping.written {buf : List UInt8} {n : ℕ} {p : ℕ × List UInt8} {r : Relay UInt8}
    (hw : Written E buf n w p w') (hn : r.held.length + 1 = n) {s : Session}
    (hd : s.done = w'.st.done) (ht : s.loc.totali = 0) : Keeping (r.send (p.1 - 1)) s := by
  rcases hw.all with ⟨hp, -⟩ | hd'
  · refine Or.inl ?_
    rw [Relay.send_held, hp, ← hn, Nat.add_sub_cancel, List.drop_length, Session.held, ht,
      List.take_zero]
  · refine Or.inr ⟨?_, ?_, ht⟩
    · rcases hd' with h | h | h <;> simp [hd, h]
    · rcases hd' with h | h | h <;> simp [hd, h]

include hB in
/-- The read from the master, and the packets without the idle timer. -/
theorem wp_readMasterPart_stream (h : BeforeRead E s₀ w) :
    wp E (Anywhere s₀) readMasterPart (fun _ => AfterRead E s₀) w := by
  refine wp_readMasterPart_laid (fun c hc => Int.le_of_eq (hB c hc)) h.1 h.anywhere
    (fun _ => h.after) (fun e he er _ => ?_)
    (fun e he _ => h.nothing e rfl (by simp) (by simp) (by simp))
    (fun hz e he data hne _ w₁ hw₁ k w' hs hc => ?_)
    (fun hz e he data hne _ w₁ hw₁ p w' hw hs hl => ⟨hl, fun hc => ?_⟩)
    fun hz e he data hne hlen _ s hs => ⟨fun hc => ?_, fun s' hn hl hh => ⟨hl, fun hc => ?_⟩⟩
  -- the read fails: it was interrupted, or the loop ends
  · have h₁ : AfterRead E s₀ (readRun w e (.error er) ((deliver e w.st).failing er)) :=
      h.nothing e rfl (by simp) (by simp) (by simp)
    exact wp_failed_aside (fun _ h => h.anywhere) (fun _ ha => h₁.aside ha) (by simp) (by simp)
  · -- the socket has not accepted all of it yet
    obtain ⟨t, ht, -⟩ := hs.trace
    subst hw₁
    obtain ⟨hz', hsound, r, hr, hrh⟩ := h.read e hne (always_of_append (ht ▸ hc))
    rw [Session.held, hz' hz, List.take_zero, List.nil_append] at hrh
    have hs' : Sent E (w.st.bufd.headD 0) r.held k
        (readRun w e (.ok data) ((deliver e w.st).gotMaster 1 data)) w' := by
      rw [hrh]
      exact hs
    exact hsound.sent hr hs'
  · -- the write is over: with all of it sent, or with `Done` set
    obtain ⟨t, ht, -⟩ := hs.trace
    subst hw₁
    obtain ⟨hz', hsound, r, hr, hrh⟩ := h.read e hne (always_of_append (ht ▸ hc))
    rw [Session.held, hz' hz, List.take_zero, List.nil_append] at hrh
    have hs' : Sent E (w.st.bufd.headD 0) r.held (p.1 - 1)
        (readRun w e (.ok data) ((deliver e w.st).gotMaster 1 data)) w' := by
      rw [hrh]
      exact hs
    have hrs := hr.sent hs'
    have hsound' := hsound.sent hr hs'
    have htot : w'.st.loc.totali = 0 := by
      rw [hs.state.loc]
      simpa using hz' hz
    exact ⟨hsound', r.send (p.1 - 1), ⟨hrs.taken, hrs.passed⟩,
      Keeping.written hw (by rw [hrh]) rfl htot⟩
  -- the bytes are read, and the timer is not set yet
  · exact (h.read e hne hc).2.1
  · -- the bytes stay in the buffer
    obtain ⟨-, hsound, r, hr, hrh⟩ := h.read e hne hc
    exact ⟨hsound, r, hr, Or.inl (hrh.trans hh.symm)⟩

include hB in
/-- The flush of a round. -/
theorem wp_forwardPart_stream (h : AfterRead E s₀ w) :
    wp E (Anywhere s₀) forwardPart (fun _ => AtHead E s₀) w := by
  -- the relay at the test of a flush, and what the test tells
  have htest : ∀ s, Always NoStrand (w.trace ++ [(.forwardTest, w.st)]) →
      (w.st.due = true → w.st.cfg.forwardtimer = 0 → w.st.loc.totali = 0) ∧
        Sound s₀.cfg.bufferSize.toNat (w.trace ++ [(.forwardTest, w.st)]) ∧
          ∃ r, Relays r ⟨s, w.trace ++ [(.forwardTest, w.st)]⟩ ∧ Keeping r w.st := by
    intro s hc
    obtain ⟨hc', hn⟩ := always_concat.mp hc
    obtain ⟨hs, r, hr, hk⟩ := h.2 hc'
    exact ⟨hn, hs.call _ (by simp) rfl, r, ⟨by simp [hr.taken, Event.received],
      by simp [hr.passed, Event.accepted]⟩, hk⟩
  have hheld : ∀ r : Relay UInt8, w.st.loc.totali ≠ 0 → Keeping r w.st → r.held = w.st.held :=
    fun r hz hk => hk.elim id fun h => absurd h.2.2 hz
  refine wp_forwardPart_laid (fun c hc => Int.le_of_eq (hB c hc)) h.1
    (fun hf => ⟨h.1, fun hc => ?_⟩) (fun hf hz s hs hl => ⟨hl, fun hc => ?_⟩)
    (fun hf hz k w' hs hc => ?_) fun hf hz p w' hw hs hl => ⟨hl, fun hc => ?_⟩
  -- no flush is due
  · obtain ⟨hn, hsound, r, hr, hk⟩ := htest w.st hc
    refine ⟨hsound, r, hr, hk, fun hd => hn hd ?_⟩
    simpa [Session.flushes, hd] using hf
  -- a flush of nothing
  · obtain ⟨-, hsound, r, hr, hk⟩ := htest s hc
    subst hs
    exact ⟨hsound, r, hr, hk, fun _ => hz⟩
  · -- the flush is cut
    obtain ⟨t, ht, -⟩ := hs.trace
    obtain ⟨-, hsound, r, hr, hk⟩ := htest w.st.flushing (always_of_append (ht ▸ hc))
    rw [← hheld r hz hk] at hs
    exact hsound.sent hr hs
  · -- the flush is over: with all of it sent, or with `Done` set
    obtain ⟨t, ht, -⟩ := hs.trace
    obtain ⟨-, hsound, r, hr, hk⟩ := htest w.st.flushing (always_of_append (ht ▸ hc))
    have hlen := h.1.held_length
    rw [← hheld r hz hk] at hs hlen
    have hrs := hr.sent hs
    have hsound' := hsound.sent hr hs
    exact ⟨hsound', r.send (p.1 - 1), ⟨hrs.taken, hrs.passed⟩,
      Keeping.written hw (by rw [hlen]) rfl rfl, fun _ => rfl⟩

include hB in
/-- At the head of the loop the stream is as it should be. -/
theorem AtHead.sound (h : AtHead E s₀ w) (hc : Always NoStrand w.trace) :
    Sound s₀.cfg.bufferSize.toNat (w.trace ++ [(.loopHead, w.st)]) := by
  obtain ⟨hs, r, hr, hk, hd⟩ := h.2 hc
  refine ⟨hs.pre.append (by simpa [Event.accepted] using hs.pre _ (List.prefix_refl _)),
    always_concat.mpr ⟨hs.good, fun h₀ => ?_, fun h₃ => ?_⟩⟩
  · have hh : r.held = w.st.held := hk.elim id fun h' => absurd h₀ h'.1
    refine ⟨by rw [← hr.passed, ← hr.taken, ← hh, r.whole], h.1.tbufd2, h.1.full hB,
      fun hf => hd ?_⟩
    simpa [Session.due, h₀] using hf
  · have hh : r.held = w.st.held := hk.elim id fun h' => absurd h₃ h'.2.1
    have hz := hd (by simp [Session.due, h₃])
    rw [← hr.passed, ← hr.taken]
    exact r.passed_eq_of_held_nil (by rw [hh, Session.held, hz, List.take_zero])

include hB in
theorem AtHead.beforeRead (h : AtHead E s₀ w) (hd : w.st.done = 0) :
    BeforeRead E s₀ ⟨w.st, w.trace ++ [(.loopHead, w.st)]⟩ := by
  refine ⟨h.1, fun hc => ?_⟩
  have hc' := always_of_append hc
  obtain ⟨-, r, hr, hk, -⟩ := h.2 hc'
  exact ⟨h.sound hB hc', r,
    ⟨by simp [hr.taken, Event.received], by simp [hr.passed, Event.accepted]⟩,
    hk.elim id fun h' => absurd hd h'.1⟩

include hB in
/-- The loop. -/
theorem wp_doCopyLoop_stream (h : AtHead E s₀ w) :
    wp E (Anywhere s₀) doCopyLoop (fun _ => Anywhere s₀) w := by
  refine wp_doCopyLoop (L := BeforeRead E s₀) (fun _ h => h.anywhere) (fun w h hd => ?_)
    (fun w h _ hc => ?_) (fun w h hc => ?_) h
  · exact wp_doCopyRound_aside (fun _ h => h.anywhere) (fun _ h => h.anywhere)
      (fun _ _ h ha => h.aside ha) (fun _ _ h ha => h.aside ha)
      (fun _ h => wp_readMasterPart_stream hB h) (fun _ h => wp_forwardPart_stream hB h)
      (h.beforeRead hB hd)
  · exact (h.sound hB (always_of_append (always_of_append hc))).call _ (by simp) rfl
  · exact (h.anywhere (always_of_append hc)).call _ (by simp) rfl

end Invariants

/-- The start of the loop, with nothing read. -/
theorem atHead_doCopyStart (E : Env → Prop) (s : Session) (bufn : List UInt8) {bufd : List UInt8}
    (hbufd : bufd.length = s.cfg.bufferSize.toNat + 1) :
    AtHead E s ⟨doCopyStart s bufn bufd, []⟩ := by
  refine ⟨laid_doCopyStart E s bufn hbufd, fun _ => ⟨⟨?_, always_nil⟩, .empty, ⟨rfl, rfl⟩,
    Or.inl rfl, fun _ => rfl⟩⟩
  intro t₁ ht
  rw [List.prefix_nil.mp ht]
  exact List.prefix_refl _

/-! ## Runs that leave the settings alone -/

section Fixed

/-- Without the idle timer nothing is held, and so nothing has been stranded. -/
def Unstranded (E : Env → Prop) (s₀ : Session) (w : SRun) : Prop :=
  Laid E s₀ w.st ∧ (s₀.cfg.forwardtimer = 0 → w.st.loc.totali = 0) ∧ Always NoStrand w.trace

variable {E : Env → Prop} {s₀ : Session} {w w' : SRun} {hup : Prop}
  (hfix : ∀ c, CfgReach E s₀.cfg c → c.forwardtimer = s₀.cfg.forwardtimer ∧
    c.bufferSize = s₀.cfg.bufferSize)

theorem noStrand_append {t t' : STrace} (h : Always NoStrand t)
    (ht : ∀ x ∈ t', x.1 ≠ .forwardTest ∧ ∀ o n d, x.1 ≠ .readMaster o n (.ok d)) :
    Always NoStrand (t ++ t') :=
  always_append h fun x hx _ => by
    obtain ⟨hx₁, hx₂⟩ := ht x hx
    rcases x with ⟨_ | _ | _ | _ | _ | ⟨_, _, _ | _⟩ | _ | _ | _ | _, _⟩ <;> simp_all [NoStrand]

theorem Unstranded.aside (h : Unstranded E s₀ w) (ha : Aside E hup w w') :
    Unstranded E s₀ w' := by
  obtain ⟨hl, -, ht⟩ := h.1.beside ha.1
  refine ⟨hl, fun hz => ht.trans (h.2.1 hz), ha.always h.2.2 fun t k s hk => ?_⟩
  rcases hk.eq with ⟨-, _, rfl⟩ | ⟨_, rfl⟩ | ⟨_, _, rfl⟩ | ⟨_, _, rfl⟩ | ⟨_, rfl⟩ <;> trivial

theorem noStrand_sent {q : UInt8} {payload : List UInt8} {k : ℕ}
    (h : Always NoStrand w.trace) (hs : Sent E q payload k w w') : Always NoStrand w'.trace :=
  hs.always h fun _ _ _ hk => by
    rcases hk.eq with ⟨_, rfl⟩ | ⟨_, _, rfl, -⟩ <;> trivial

include hfix in
theorem wp_readMasterPart_unstranded (h : Unstranded E s₀ w) :
    wp E (fun w => Always NoStrand w.trace) readMasterPart (fun _ => Unstranded E s₀) w := by
  have hft : w.st.cfg.forwardtimer = s₀.cfg.forwardtimer := (hfix _ h.1.cfg).1
  -- no read delivers anything in the wrong mode
  have hread : ∀ (e : Env) res s, Always NoStrand (readRun w e res s).trace := by
    intro e res s
    refine always_concat.mpr ⟨h.2.2, ?_⟩
    cases res with
    | error er => trivial
    | ok data => exact fun _ hz => by simpa using h.2.1 (by simpa [hft] using hz)
  refine wp_readMasterPart_laid (fun c hc => Int.le_of_eq (hfix c hc).2) h.1 h.2.2 (fun _ => h)
    (fun e he er _ => ?_) (fun e he _ => ⟨?_, fun hz => ?_, hread e _ _⟩)
    (fun hz e he data hne _ w₁ hw₁ k w' hs => ?_)
    (fun hz e he data hne _ w₁ hw₁ p w' hw hs hl => ⟨hl, fun hz' => ?_, ?_⟩)
    fun hz e he data hne hlen _ s hs => ⟨hread e _ s, fun s' hn hl hh => ⟨hl, fun hz' => ?_,
      hread e _ s'⟩⟩
  · have h₁ : Unstranded E s₀ (readRun w e (.error er) ((deliver e w.st).failing er)) :=
      ⟨(h.1.delivered e).of_eq rfl rfl .refl, fun hz => by simpa using h.2.1 hz, hread e _ _⟩
    exact wp_failed_aside (fun _ h => h.2.2) (fun _ ha => h₁.aside ha) (by simp) (by simp)
  · exact (h.1.delivered e).of_eq rfl rfl .refl
  · simpa using h.2.1 hz
  · exact noStrand_sent (hw₁ ▸ hread e _ _) hs
  · have hl' : w'.st.loc = w₁.st.loc := hs.state.loc
    rw [hl', hw₁]
    simpa using h.2.1 hz'
  · exact (noStrand_sent (hw₁ ▸ hread e _ _) hs :)
  · exact absurd (hft.trans hz') hz

include hfix in
theorem wp_forwardPart_unstranded (h : Unstranded E s₀ w) :
    wp E (fun w => Always NoStrand w.trace) forwardPart (fun _ => Unstranded E s₀) w := by
  have hft : w.st.cfg.forwardtimer = s₀.cfg.forwardtimer := (hfix _ h.1.cfg).1
  have htest : Always NoStrand (w.trace ++ [(.forwardTest, w.st)]) :=
    always_concat.mpr ⟨h.2.2, fun _ hz => h.2.1 (hft.symm.trans hz)⟩
  exact wp_forwardPart_laid (fun c hc => Int.le_of_eq (hfix c hc).2) h.1
    (fun _ => ⟨h.1, h.2.1, htest⟩) (fun _ hz s hs hl => ⟨hl, fun _ => by rw [hs]; exact hz, htest⟩)
    (fun _ _ k w' hs => noStrand_sent htest hs)
    fun _ _ p w' _ hs hl => ⟨hl, fun _ => rfl, (noStrand_sent htest hs :)⟩

end Fixed

/-- Runs that leave the settings alone strand nothing. -/
theorem doCopy_noStrand {es : List Env} {s : Session} {bufn bufd : List UInt8}
    (hbufd : bufd.length = s.cfg.bufferSize.toNat + 1)
    (hfix : ∀ c, CfgReach (· ∈ es) s.cfg c →
      c.forwardtimer = s.cfg.forwardtimer ∧ c.bufferSize = s.cfg.bufferSize) :
    Always NoStrand (doCopyTrace es s bufn bufd) := by
  refine always_of_wp (E := (· ∈ es)) (wp_doCopyLoop_invariant (J := Unstranded (· ∈ es) s)
    (I := fun w => Always NoStrand w.trace) (fun _ h => h.2.2) (fun w k hk h => ?_)
    (fun _ _ h ha => h.aside ha) (fun _ h => wp_readMasterPart_unstranded hfix h)
    (fun _ h => wp_forwardPart_unstranded hfix h)
    ⟨laid_doCopyStart _ s bufn hbufd, fun _ => rfl, always_nil⟩) (fun _ _ h => h.2.2)
    (fun _ he => he)
  refine ⟨h.1, h.2.1, noStrand_append h.2.2 fun x hx => ?_⟩
  rw [List.mem_singleton.mp hx]
  rcases hk with rfl | rfl <;> simp

/-- As long as nothing is stranded, the stream is as it should be. -/
theorem doCopy_sound {es : List Env} {s : Session} {bufn bufd : List UInt8}
    (hbufd : bufd.length = s.cfg.bufferSize.toNat + 1)
    (hfix : ∀ c, CfgReach (· ∈ es) s.cfg c → c.bufferSize = s.cfg.bufferSize)
    (hns : Always NoStrand (doCopyTrace es s bufn bufd)) :
    Sound s.cfg.bufferSize.toNat (doCopyTrace es s bufn bufd) :=
  always_of_wp (wp_doCopyLoop_stream hfix (atHead_doCopyStart _ s bufn hbufd))
    (fun _ _ h => h) (fun _ he => he) hns

/-! ## The theorems -/

/-- At the head of the loop, the bytes passed on and those in the buffer are the bytes read. -/
def StreamWhole (bufferSize : ℤ) (t : STrace) : Event → Session → Prop
  | .loopHead, s => s.done = 0 → accepted t ++ s.held = received t ∧
    (s.cfg.forwardtimer ≠ 0 →
      s.loc.tbufd2 = s.loc.totali ∧ (s.loc.totali + s.loc.freesize : ℤ) = bufferSize)
  | _, _ => True

/-- **The stream of a session whose settings stay the same.** Nothing is lost, duplicated or
reordered, whatever is read, whatever part of a packet each write accepts and whatever signals
arrive. -/
theorem doCopy_stream_whole {es : List Env} {s : Session} {bufn bufd : List UInt8}
    (hB : 1 ≤ s.cfg.bufferSize) (hbufd : bufd.length = s.cfg.bufferSize.toNat + 1)
    (hfix : ∀ c, CfgReach (· ∈ es) s.cfg c →
      c.forwardtimer = s.cfg.forwardtimer ∧ c.bufferSize = s.cfg.bufferSize) :
    Always (StreamWhole s.cfg.bufferSize) (doCopyTrace es s bufn bufd) := by
  have hsound : Sound s.cfg.bufferSize.toNat (doCopyTrace es s bufn bufd) :=
    doCopy_sound hbufd (fun c hc => (hfix c hc).2) (doCopy_noStrand hbufd hfix)
  intro t₁ k s₁ t₂ ht
  have hat := hsound.good t₁ k s₁ t₂ ht
  cases k with
  | loopHead =>
    intro hd
    obtain ⟨heq, htb, hfree, -⟩ := hat.1 hd
    exact ⟨heq, fun _ => ⟨htb, by omega⟩⟩
  | _ => trivial

/-- Two reads, an expiry of the timer between them, and a flush in two packets with an interrupt
between them. -/
def flushScript : List Env :=
  polled [.typed [97, 98, 99]] true false ++ [{ Env.willing with master := .ok 2 }] ++ quiet 1 ++
  polled [.rtimer] false true ++ quiet 7 ++
    [{ Env.willing with wsock := .ok 2 }, { Env.willing with wsock := .error .eintr }] ++ quiet 6 ++
  polled [] true false ++ [{ Env.willing with master := .ok 1 }] ++ quiet 1

theorem doCopy_stream_whole_flush :
    Always (StreamWhole 8) (doCopyTrace flushScript (.fresh 10 8) [] (List.replicate 9 7)) ∧
      accepted (doCopyTrace flushScript (.fresh 10 8) [] (List.replicate 9 7)) = [97, 98] := by
  refine ⟨doCopy_stream_whole (s := .fresh 10 8) (by decide) (by decide) fun c hc => ?_, by
    decide +kernel⟩
  rw [cfgReach_of_missing (fun e he => ?_) hc]
  · exact ⟨rfl, rfl⟩
  · have hall : ∀ e ∈ flushScript, e.file = .missing false := by decide
    exact hall e he

instance (t : STrace) (k : Event) (s : Session) : Decidable (NoStrand t k s) :=
  match k with
  | .readMaster _ _ (.ok _) => inferInstanceAs (Decidable (_ → _ → _))
  | .readMaster _ _ (.error _) => isTrue trivial
  | .forwardTest => inferInstanceAs (Decidable (_ → _ → _))
  | .loopHead => isTrue trivial
  | .loopEnd => isTrue trivial
  | .poll _ => isTrue trivial
  | .readPipe _ => isTrue trivial
  | .readSock _ _ => isTrue trivial
  | .writeSock _ _ => isTrue trivial
  | .writeMaster _ _ => isTrue trivial
  | .reload _ => isTrue trivial
  | .closingPoll _ => isTrue trivial

/-- **The stream under reloads of `Forward_idle_timeout`.** As long as no read and no flush finds
the idle timer switched off while bytes are held, what is passed on is a prefix of what is read,
what is held follows in order, and a flush that is due is made. -/
theorem doCopy_stream_of_noStrand {es : List Env} {s : Session} {bufn bufd : List UInt8}
    (hbufd : bufd.length = s.cfg.bufferSize.toNat + 1)
    (hfix : ∀ c, CfgReach (· ∈ es) s.cfg c → c.bufferSize = s.cfg.bufferSize)
    (hns : Always NoStrand (doCopyTrace es s bufn bufd)) :
    StreamPrefix (doCopyTrace es s bufn bufd) ∧
      Always (StreamAt s.cfg.bufferSize.toNat) (doCopyTrace es s bufn bufd) :=
  have h := doCopy_sound hbufd hfix hns
  ⟨h.pre, h.good⟩

/-- A configuration file that switches the idle timer off. -/
def timerOff : CfgFile := .readable "Forward_idle_timeout 0\n".toList

/-- A round that reads a byte of the terminal side after a reload of `timerOff`. -/
def reloadScript (byte : UInt8) : List Env :=
  polled [.typed [byte], .signal .hup] true true ++ quiet 2 ++
    [{ Env.willing with file := timerOff }] ++ quiet 5 ++ [{ Env.willing with master := .ok 1 }] ++
    quiet 1

theorem bufferSize_of_timerOff {es : List Env}
    (hes : ∀ e ∈ es, e.file = .missing false ∨ e.file = timerOff) {c c' : Settings}
    (h : CfgReach (· ∈ es) c c') : c'.bufferSize = c.bufferSize := by
  refine h.keeps fun e he c b c' hr => ?_
  rcases hes e he with hf | hf
  · rw [hf] at hr
    cases hr
    rfl
  · have hoff : readcfg timerOff c = .ok (true, { c with forwardtimer := 0 }) := rfl
    rw [hf, hoff] at hr
    cases hr
    rfl

/-- The timer is switched off while nothing is held. -/
theorem doCopy_stream_of_noStrand_reload :
    StreamPrefix (doCopyTrace (reloadScript 98) (.fresh 10 8) [] (List.replicate 9 7)) ∧
      Always (StreamAt 8) (doCopyTrace (reloadScript 98) (.fresh 10 8) [] (List.replicate 9 7)) :=
  doCopy_stream_of_noStrand (s := .fresh 10 8) (by decide)
    (fun _ hc => bufferSize_of_timerOff (by decide) hc) (by decide +kernel)

/-- With a byte in the buffer, the same reload sends the next byte first. -/
theorem not_reload_stream :
    ¬ ∀ (es : List Env) (s : Session) (bufn bufd : List UInt8), 1 ≤ s.cfg.bufferSize →
      bufd.length = s.cfg.bufferSize.toNat + 1 →
      (∀ c, CfgReach (· ∈ es) s.cfg c → c.bufferSize = s.cfg.bufferSize) →
      (∀ e ∈ es, Writes e.wsock) →
      StreamPrefix (doCopyTrace es s bufn bufd) ∧
        Always (StreamAt s.cfg.bufferSize.toNat) (doCopyTrace es s bufn bufd) := by
  intro h
  have hpre := (h (polled [.typed [97]] true false ++ [{ Env.willing with master := .ok 1 }] ++
    quiet 1 ++ reloadScript 98) (.fresh 10 8) [] (List.replicate 9 7) (by decide) (by decide)
    (fun _ hc => bufferSize_of_timerOff (by decide) hc) (by decide)).1 _ (List.prefix_refl _)
  revert hpre
  decide +kernel

end PadSvr
