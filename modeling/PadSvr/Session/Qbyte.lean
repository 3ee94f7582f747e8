import PadSvr.Session.Buffer

/-!
# The Q byte of terminal data

A packet with terminal data must not be qualified: its Q byte is 0. A flush sets the first byte of
`bufd` before it writes, but the branch without the idle timer sends whatever `malloc` left there.
Once a packet has been written with Q byte 0, all later ones are.

## Main definitions

* `Event.Unqualified`: a packet the call writes has Q byte 0
* `firstWrite t`: the first write to the X.25 socket
* `Qbytes q₀ t q`: what the trace tells of the Q byte `q` at hand

## Main results

* `doCopy_unqualified_iff`: when all packets of a session have Q byte 0
* `not_doCopy_unqualified`: without the idle timer a fresh buffer can qualify terminal data
-/

namespace PadSvr

open Scripted Scripted.Prog

/-! ## The first write -/

/-- The packet that a call writes to the X.25 socket. -/
def Event.packet? : Event → Option (List UInt8)
  | .writeSock pkt _ => some pkt
  | _ => none

/-- A packet that the call writes has Q byte 0. -/
def Event.Unqualified (k : Event) : Prop := ∀ pkt ∈ k.packet?, pkt.head? = some 0

instance (k : Event) : Decidable k.Unqualified :=
  inferInstanceAs (Decidable (∀ pkt ∈ k.packet?, pkt.head? = some 0))

/-- The first write to the X.25 socket, with the state it is made in. -/
def firstWrite (t : STrace) : Option (Event × Session) := t.find? fun x => x.1.packet?.isSome

theorem firstWrite_append (t t' : STrace) :
    firstWrite (t ++ t') = (firstWrite t).or (firstWrite t') := List.find?_append

theorem firstWrite_eq_none {t : STrace} :
    firstWrite t = none ↔ ∀ x ∈ t, x.1.packet? = none := by
  simp [firstWrite]

/-- The buffer holds `q` where the Q byte goes. Before the first write that is what `malloc` left
there. The first write goes out with it if the idle timer is off, and sets it to 0 otherwise. -/
structure Qbytes (q₀ : UInt8) (t : STrace) (q : UInt8) : Prop where
  fresh : firstWrite t = none → q = q₀
  off : ∀ x ∈ firstWrite t, x.2.cfg.forwardtimer = 0 → ∀ pkt ∈ x.1.packet?, pkt.head? = some q₀
  clear : ∀ x ∈ firstWrite t, q₀ = 0 ∨ x.2.cfg.forwardtimer ≠ 0 → q = 0 ∧ ∀ y ∈ t, y.1.Unqualified

namespace Qbytes

variable {E : Env → Prop} {q₀ q q' : UInt8} {t t' : STrace} {w w' : SRun}

theorem nil (q₀ : UInt8) : Qbytes q₀ [] q₀ :=
  ⟨fun _ => rfl, by simp [firstWrite], by simp [firstWrite]⟩

/-- Calls that write no packet. -/
theorem other (h : Qbytes q₀ t q) (ht : ∀ x ∈ t', x.1.packet? = none) : Qbytes q₀ (t ++ t') q := by
  have hf : firstWrite (t ++ t') = firstWrite t := by
    rw [firstWrite_append, firstWrite_eq_none.mpr ht, Option.or_none]
  refine ⟨fun hn => h.fresh (hf ▸ hn), fun x hx => h.off x (hf ▸ hx), fun x hx hq => ?_⟩
  obtain ⟨hq, hall⟩ := h.clear x (hf ▸ hx) hq
  refine ⟨hq, fun y hy => ?_⟩
  rcases List.mem_append.mp hy with hy | hy
  · exact hall y hy
  · intro pkt hp
    rw [ht y hy] at hp
    cases hp

/-- A call of `writensockint` that writes at least once: with the Q byte at hand when the idle
timer is off, and with 0 otherwise. -/
theorem written {payload : List UInt8} {k : ℕ} (h : Qbytes q₀ w.trace q)
    (hoff : w.st.cfg.forwardtimer = 0 → q' = q) (hon : w.st.cfg.forwardtimer ≠ 0 → q' = 0)
    (hs : Sent E q' payload k w w') (hlt : w.trace.length < w'.trace.length) :
    Qbytes q₀ w'.trace q' := by
  obtain ⟨t, ht, hx, -, -, hfirst⟩ := hs.trace
  have hpkt : ∀ x ∈ t, ∀ pkt ∈ x.1.packet?, pkt.head? = some q' := by
    intro x hm pkt hp
    rcases (hx x hm).2.eq with ⟨_, h⟩ | ⟨_, _, h, hq⟩
    · simp [h, Event.packet?] at hp
    · simp only [h, Event.packet?, Option.mem_some_iff] at hp
      rwa [← hp]
  rw [ht]
  rcases hf : firstWrite w.trace with _ | x
  · -- the first write of the session
    rcases t with _ | ⟨x, t⟩
    · simp [ht] at hlt
    obtain ⟨⟨pkt, res, hk⟩, hcfg⟩ := hfirst x (by simp)
    have hf' : firstWrite (w.trace ++ x :: t) = some x := by
      rw [firstWrite_append, hf, Option.none_or]
      simp [firstWrite, hk, Event.packet?]
    have hq := h.fresh hf
    refine ⟨fun hn => by simp [hf'] at hn, fun y hy hz => ?_, fun y hy hc => ?_⟩
    · obtain rfl : x = y := by simpa [hf'] using hy
      rw [hcfg] at hz
      rw [← hq, ← hoff hz]
      exact hpkt x (by simp)
    -- the settings are those at the start of the call: no reload comes before its first packet
    · obtain rfl : x = y := by simpa [hf'] using hy
      rw [hcfg] at hc
      have hz : q' = 0 := by
        by_cases hft : w.st.cfg.forwardtimer = 0
        · rw [hoff hft, hq]
          exact hc.resolve_right fun h => h hft
        · exact hon hft
      refine ⟨hz, fun y hy pkt hp => ?_⟩
      rcases List.mem_append.mp hy with hy | hy
      · rw [firstWrite_eq_none.mp hf y hy] at hp
        cases hp
      · rw [← hz]
        exact hpkt y hy pkt hp
  -- the first write has been before this call, so only the packets of the call are new
  · have hf' : firstWrite (w.trace ++ t) = some x := by rw [firstWrite_append, hf, Option.some_or]
    refine ⟨fun hn => by simp [hf'] at hn, fun y hy => h.off y (by rw [hf, ← hf']; exact hy),
      fun y hy hc => ?_⟩
    obtain ⟨hq, hall⟩ := h.clear y (by rw [hf, ← hf']; exact hy) hc
    have hz : q' = 0 := by
      by_cases hft : w.st.cfg.forwardtimer = 0
      · rw [hoff hft, hq]
      · exact hon hft
    refine ⟨hz, fun y hy pkt hp => ?_⟩
    rcases List.mem_append.mp hy with hy | hy
    · exact hall y hy pkt hp
    · rw [← hz]
      exact hpkt y hy pkt hp

/-- A call of `writensockint` that may have been cut before its first write. -/
theorem cut {payload : List UInt8} {k : ℕ} (h : Qbytes q₀ w.trace q)
    (hoff : w.st.cfg.forwardtimer = 0 → q' = q) (hon : w.st.cfg.forwardtimer ≠ 0 → q' = 0)
    (hs : Sent E q' payload k w w') : ∃ q, Qbytes q₀ w'.trace q := by
  obtain ⟨t, ht, -⟩ := hs.trace
  rcases t with _ | ⟨x, t⟩
  · exact ⟨q, by simpa [ht] using h⟩
  · exact ⟨q', h.written hoff hon hs (by simp [ht])⟩

/-- All packets have Q byte 0 unless the first one was written with another one. -/
theorem unqualified_iff (h : Qbytes q₀ t q) : (∀ x ∈ t, x.1.Unqualified) ↔
    q₀ = 0 ∨ ∀ x ∈ firstWrite t, x.2.cfg.forwardtimer ≠ 0 := by
  rcases hf : firstWrite t with _ | x
  · refine ⟨fun _ => Or.inr (by simp), fun _ x hx pkt hp => ?_⟩
    rw [firstWrite_eq_none.mp hf x hx] at hp
    cases hp
  · constructor
    · intro hall
      by_cases hft : x.2.cfg.forwardtimer = 0
      · left
        have hsome := List.find?_some (show t.find? (fun x => x.1.packet?.isSome) = some x from hf)
        obtain ⟨pkt, hpkt⟩ := Option.isSome_iff_exists.mp hsome
        have hq₀ := h.off x hf hft pkt hpkt
        have h₀ := hall x (List.mem_of_find?_eq_some hf) pkt hpkt
        simpa [hq₀] using h₀
      · right
        intro y hy
        obtain rfl : x = y := by simpa using hy
        exact hft
    · intro hc
      exact (h.clear x hf (hc.imp_right fun hy => hy x rfl)).2

end Qbytes

/-! ## The loop -/

/-- The Q byte at hand is the first byte of the buffer. -/
def AtHand (q₀ : UInt8) (w : SRun) : Prop :=
  w.st.bufd ≠ [] ∧ Qbytes q₀ w.trace (w.st.bufd.headD 0)

/-- Everywhere: the call before may have changed the Q byte at hand already. -/
def SomeAtHand (q₀ : UInt8) (w : SRun) : Prop := ∃ q, Qbytes q₀ w.trace q

section Loop

variable {E : Env → Prop} {hup : Prop} {q₀ : UInt8} {w w' : SRun}

theorem AtHand.some (h : AtHand q₀ w) : SomeAtHand q₀ w := ⟨_, h.2⟩

/-- A call that writes no packet and leaves the buffer's first byte alone. -/
theorem AtHand.call (h : AtHand q₀ w) {k : Event} {s s' : Session} (hk : k.packet? = none)
    (hl : s'.bufd.length = w.st.bufd.length) (hb : s'.bufd.headD 0 = w.st.bufd.headD 0) :
    AtHand q₀ ⟨s', w.trace ++ [(k, s)]⟩ := by
  refine ⟨List.length_pos_iff.mp ?_, ?_⟩
  · rw [hl]
    exact List.length_pos_iff.mpr h.1
  · rw [hb]
    exact h.2.other (by simpa using hk)

theorem AtHand.aside (h : AtHand q₀ w) (ha : Aside E hup w w') : AtHand q₀ w' := by
  obtain ⟨hb, t, ht, hx⟩ := ha
  refine ⟨by rw [hb.bufd]; exact h.1, ?_⟩
  rw [hb.bufd, ht]
  refine h.2.other fun x hm => ?_
  rcases (hx x hm).2.eq with ⟨-, _, h⟩ | ⟨_, h⟩ | ⟨_, _, h⟩ | ⟨_, _, h⟩ | ⟨_, h⟩ <;>
    simp [h, Event.packet?]

theorem wp_readMasterPart_atHand (h : AtHand q₀ w) :
    wp E (SomeAtHand q₀) readMasterPart (fun _ => AtHand q₀) w := by
  refine wp_readMasterPart h.some (fun _ => h) (fun e he er _ => ?_)
    (fun e he _ => h.call rfl (by simp) (by simp)) fun e he data hne _ _ => ?_
  · have h₁ : AtHand q₀ (readRun w e (.error er) ((deliver e w.st).failing er)) :=
      h.call rfl (by simp) (by simp)
    exact wp_failed_aside (fun _ h => h.some) (fun _ ha => h₁.aside ha) (by simp) (by simp)
  · -- the bytes go behind the Q byte
    have h₁ : AtHand q₀
        (readRun w e (.ok data) ((deliver e w.st).gotMaster w.st.readArgs.1 data)) := by
      refine h.call rfl ?_ ?_
      · rw [gotMaster_length, deliver_bufd]
      · rw [← deliver_bufd e w.st]
        exact headD_store (readArgs_pos w.st)
    refine wp_masterReceived (List.length_pos_iff.mpr hne) h₁.1 (fun hz k w' hs => ?_)
      (fun hz r w' hw => ⟨?_, ?_⟩) (fun _ => h₁.some) fun _ s hn => ⟨?_, ?_⟩
    · exact h₁.2.cut (fun _ => rfl) (fun hft => absurd hz hft) hs
    · exact List.length_pos_iff.mp (by rw [hw.length]; exact List.length_pos_iff.mpr h₁.1)
    · rw [hw.head]
      exact (h₁.2.written (fun _ => rfl) (fun hft => absurd hz hft) hw.sent hw.any :)
    · rw [hn.bufd]
      exact h₁.1
    · rw [hn.bufd]
      exact h₁.2

/-- A flush sets the Q byte. -/
theorem wp_forwardPart_atHand (h : AtHand q₀ w) :
    wp E (SomeAtHand q₀) forwardPart (fun _ => AtHand q₀) w := by
  have h₁ : AtHand q₀ ⟨w.st, w.trace ++ [(.forwardTest, w.st)]⟩ := h.call rfl rfl rfl
  have hon : w.st.flushes = true → w.st.cfg.forwardtimer ≠ 0 := fun hf => by
    simp only [Session.flushes, Bool.and_eq_true] at hf
    exact of_decide_eq_true hf.2
  refine wp_forwardPart (fun _ => h₁) (fun _ _ => h₁) h.1 (fun hf _ k w' hs => ?_)
    fun hf _ r w' hw => ⟨?_, ?_⟩
  · exact h₁.2.cut (w := ⟨w.st.flushing, _⟩) (fun hz => absurd hz (hon hf)) (fun _ => rfl) hs
  · refine List.length_pos_iff.mp ?_
    rw [Session.flushed, hw.length, flushing_length]
    exact List.length_pos_iff.mpr h.1
  · have hs := hw.sent
    rw [flushing_headD] at hs
    rw [Session.flushed, hw.head, flushing_headD]
    exact (h₁.2.written (w := ⟨w.st.flushing, _⟩) (fun hz => absurd hz (hon hf)) (fun _ => rfl) hs
      hw.any :)

end Loop

/-- The loop keeps track of the Q byte at hand. -/
theorem doCopy_someAtHand (es : List Env) (s : Session) (bufn : List UInt8) {bufd : List UInt8}
    (hb : bufd ≠ []) : ∃ q, Qbytes (bufd.headD 0) (doCopyTrace es s bufn bufd) q := by
  refine always_of_wp (E := (· ∈ es)) (wp_doCopyLoop_invariant (J := AtHand (bufd.headD 0))
    (I := SomeAtHand (bufd.headD 0)) (fun _ h => h.some) (fun w k hk h => ?_)
    (fun _ _ h ha => h.aside ha) (fun _ h => wp_readMasterPart_atHand h)
    (fun _ h => wp_forwardPart_atHand h) ⟨hb, .nil _⟩) (fun _ _ h => h.some) (fun _ he => he)
  exact h.call (by rcases hk with rfl | rfl <;> rfl) rfl rfl

/-! ## The theorems -/

/-- **When terminal data goes out unqualified.** If no read goes behind its block, all packets of a
session have Q byte 0 exactly when the fresh buffer starts with 0, or the idle timer is on at the
first write. -/
theorem doCopy_unqualified_iff {es : List Env} {s : Session} {bufn bufd : List UInt8}
    (hbufd : bufd.length = s.cfg.bufferSize.toNat + 1)
    (_hread : ∀ x ∈ doCopyTrace es s bufn bufd, x.1.InBlock x.2) :
    (∀ x ∈ doCopyTrace es s bufn bufd, x.1.Unqualified) ↔
      bufd.headD 0 = 0 ∨
        ∀ x ∈ firstWrite (doCopyTrace es s bufn bufd), x.2.cfg.forwardtimer ≠ 0 := by
  obtain ⟨q, h⟩ := doCopy_someAtHand es s bufn (List.length_pos_iff.mp (by rw [hbufd]; omega))
  exact h.unqualified_iff

/-- A round that reads two bytes of the terminal side, and sends them in two packets. -/
def packetScript : List Env :=
  polled [.typed [97, 98]] true false ++ [{ Env.willing with master := .ok 2 }] ++
    [{ Env.willing with wsock := .ok 2 }] ++ quiet 8

/-- A fresh buffer that starts with 0. -/
theorem doCopy_unqualified_iff_zero :
    (∀ x ∈ doCopyTrace packetScript (.fresh 0 8) [] (List.replicate 9 0), x.1.Unqualified) ∧
      ((doCopyTrace packetScript (.fresh 0 8) [] (List.replicate 9 0)).filterMap fun x =>
        x.1.packet?) = [[0, 97, 98], [0, 98]] :=
  ⟨(doCopy_unqualified_iff (s := .fresh 0 8) (by decide) (by decide +kernel)).mpr (Or.inl rfl),
    by decide +kernel⟩

/-- A fresh buffer that starts with 7: both packets are qualified. -/
theorem not_doCopy_unqualified :
    ¬ ∀ (es : List Env) (s : Session) (bufn bufd : List UInt8),
      bufd.length = s.cfg.bufferSize.toNat + 1 →
        ∀ x ∈ doCopyTrace es s bufn bufd, x.1.Unqualified := by
  intro h
  have h₁ := h packetScript (.fresh 0 8) [] (List.replicate 9 7) (by decide)
  revert h₁
  decide +kernel

end PadSvr
