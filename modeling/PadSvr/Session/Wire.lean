import PadSvr.Session.Line
import PadSvr.Session.Settings
import PadSvr.Session.Terminal
import PadSvr.Session.Qbyte

/-!
# What the line carries

The X.25 socket accepts control messages in qualified packets and the bytes of the terminal side in
packets that are not. Each phase of the line adds its own part to what the other side gets.

## Main definitions

* `wire t`: the bytes the socket has accepted, each with whether it was qualified
* `Carried payload t i`: the trace has carried a beginning of a control message
* `Copied t`: the trace has carried bytes of the terminal side, in the order they were read in
* `Parted payload t`, `OnWire payload t`: all of a session, and what it comes to on the line

## Main results

* `wp_x29SetDefault_control`, `wp_doCopyLoop_copied`: what the parts of a session carry
* `Parted.onWire`, `Parted.hangup`: what the other side gets
-/

namespace PadSvr

open Scripted Scripted.Prog

/-- The bytes behind the Q byte that a call makes the X.25 socket accept, each with whether its
packet is qualified. -/
def Event.wire : Event → List (Bool × UInt8)
  | .writeSock pkt res =>
    (Event.writeSock pkt res).accepted.map fun b => (decide (pkt.headD 0 ≠ 0), b)
  | _ => []

/-- The bytes the other side gets, in order. -/
def wire (t : STrace) : List (Bool × UInt8) := t.flatMap fun x => x.1.wire

/-- Bytes of control messages, and bytes of the terminal side. -/
def qualified (bytes : List UInt8) : List (Bool × UInt8) := bytes.map fun b => (true, b)
def plain (bytes : List UInt8) : List (Bool × UInt8) := bytes.map fun b => (false, b)

@[simp] theorem wire_append (t t' : STrace) : wire (t ++ t') = wire t ++ wire t' :=
  List.flatMap_append

@[simp] theorem wire_singleton (x : Event × Session) : wire [x] = x.1.wire := by simp [wire]

/-- Packets that are not qualified carry what the socket has accepted. -/
theorem wire_of_unqualified {t : STrace} (h : ∀ x ∈ t, x.1.Unqualified) :
    wire t = plain (accepted t) := by
  induction t with
  | nil => rfl
  | cons x t ih =>
    have hx := h x (List.mem_cons_self ..)
    have htail := ih fun y hy => h y (List.mem_cons_of_mem _ hy)
    have hwire : x.1.wire = plain x.1.accepted := by
      obtain ⟨k, s⟩ := x
      cases k with
      | writeSock pkt res =>
        have hhead : pkt.head? = some 0 := hx pkt rfl
        simp [Event.wire, plain, hhead]
      | _ => rfl
    calc wire (x :: t)
      _ = x.1.wire ++ wire t := List.flatMap_cons ..
      _ = plain x.1.accepted ++ plain (accepted t) := by rw [hwire, htail]
      _ = plain (accepted (x :: t)) := (List.map_append ..).symm

/-! ## Control messages -/

/-- The trace has carried a beginning of the message: `i` bytes of it, unless it was given up. -/
def Carried (payload : List UInt8) (t : STrace) (i : ℕ) : Prop :=
  received t = [] ∧
    ∃ sent, wire t = qualified (payload.take sent) ∧ (sent = i ∨ payload.length ≤ i)

namespace Carried

variable {payload : List UInt8} {t : STrace} {i j : ℕ} {k : Event} {s : Session}

theorem nil : Carried payload [] 0 := ⟨rfl, 0, rfl, Or.inl rfl⟩

/-- A call that carries nothing. -/
theorem call (h : Carried payload t i) (hw : k.wire = []) (hr : k.received = []) :
    Carried payload (t ++ [(k, s)]) i := by
  obtain ⟨hread, sent, hwire, hi⟩ := h
  exact ⟨by simp [hread, hr], sent, by simp [hwire, hw], hi⟩

/-- A call while the message is on its way. -/
theorem step (h : Carried payload t i) (hk : controlNext payload i k = some j) :
    Carried payload (t ++ [(k, s)]) j := by
  obtain ⟨hread, sent, hwire, hi⟩ := h
  cases k with
  | writeSock pkt res =>
    rw [controlNext] at hk
    split at hk
    · next hpkt =>
      obtain ⟨hlt, rfl⟩ := hpkt
      obtain rfl : sent = i := hi.resolve_right (by omega)
      obtain rfl := Option.some.inj hk
      refine ⟨by simp [hread, Event.received], _, ?_, Or.inl rfl⟩
      rw [wire_append, wire_singleton, hwire]
      cases res with
      | error er => simp [Event.wire, Event.accepted]
      | ok k =>
        have hacc : (Event.writeSock (0x01 :: payload.drop sent) (.ok k)).accepted =
            (payload.drop sent).take (k - 1) := by
          cases k with
          | zero => simp [Event.accepted]
          | succ k => simp [Event.accepted]
        have hmin : payload.take (sent + min (k - 1) (payload.length - sent)) =
            payload.take (sent + (k - 1)) := by
          rcases Nat.le_total (k - 1) (payload.length - sent) with hle | hle
          · rw [Nat.min_eq_left hle]
          · rw [Nat.min_eq_right hle, List.take_of_length_le (by omega),
              List.take_of_length_le (by omega)]
        rw [Event.wire, hacc, List.length_take, List.length_drop, hmin, List.take_add]
        simp [qualified]
    · cases hk
  | reload file =>
    obtain rfl := Option.some.inj hk
    exact ⟨by simp [hread, Event.received], sent, by simp [hwire, Event.wire], Or.inr le_rfl⟩
  | _ => cases hk

end Carried

/-- A control message alone. -/
def controlProtocol (payload : List UInt8) : Protocol Event Session ℕ :=
  ⟨fun sent k _ => controlNext payload sent k⟩

theorem carried_of_control {payload : List UInt8} {t : STrace} {i : ℕ}
    (h : (controlProtocol payload).after 0 t = some i) : Carried payload t i := by
  induction t using List.reverseRecOn generalizing i with
  | nil =>
    obtain rfl := Option.some.inj h
    exact .nil
  | append_singleton t x ih =>
    rw [Protocol.after_concat] at h
    obtain ⟨i', hi', hk⟩ := Option.bind_eq_some_iff.mp h
    exact (ih hi').step hk

/-- Where the closing phases of a line have come to, and what they have carried. -/
theorem carried_of_closing {payload : List UInt8} {done : ℕ} {t : STrace} {q : LinePhase}
    (h : (lineProtocol payload).after (.clearing done 0) t = some q) :
    ∃ i, Carried [x29InvitationToClear] t i ∧ (q = .clearing done i ∨ q = .waiting done) := by
  induction t using List.reverseRecOn generalizing q with
  | nil =>
    obtain rfl := Option.some.inj h
    exact ⟨0, .nil, Or.inl rfl⟩
  | append_singleton t x ih =>
    obtain ⟨k, s⟩ := x
    rw [Protocol.after_concat] at h
    obtain ⟨q', hq', hk⟩ := Option.bind_eq_some_iff.mp h
    obtain ⟨i, hi, rfl | rfl⟩ := ih hq'
    · -- the invitation to clear, until the first `poll`
      have hcontrol : ∀ k', (if lineGone done then none else
            (controlNext [x29InvitationToClear] i k').map (.clearing done)) = some q →
          ∃ j, Carried [x29InvitationToClear] (t ++ [(k', s)]) j ∧
            (q = .clearing done j ∨ q = .waiting done) := by
        intro k' hk'
        split at hk'
        · cases hk'
        · obtain ⟨j, hj, rfl⟩ := Option.map_eq_some_iff.mp hk'
          exact ⟨j, hi.step hj, Or.inl rfl⟩
      cases k with
      | closingPoll a =>
        obtain rfl := Option.some.inj hk
        exact ⟨i, hi.call rfl rfl, Or.inr rfl⟩
      | _ => exact hcontrol _ hk
    · -- only reads are left
      cases k with
      | closingPoll a =>
        obtain rfl := Option.some.inj hk
        exact ⟨i, hi.call rfl rfl, Or.inr rfl⟩
      | readPipe n =>
        obtain rfl := Option.some.inj hk
        exact ⟨i, hi.call rfl rfl, Or.inr rfl⟩
      | readSock n res =>
        change (if lineGone done then none else some (LinePhase.waiting done)) = some q at hk
        split at hk
        · cases hk
        · obtain rfl := Option.some.inj hk
          exact ⟨i, hi.call rfl rfl, Or.inr rfl⟩
      | _ => cases hk

section SetMessage

variable {E : Env → Prop} {w : SRun}

/-- **The Set message**, and the settings behind it. -/
theorem wp_x29SetDefault_control (behind : List X29Par) (s : Session) :
    wp E (fun w => (controlProtocol (setPayload behind s.cfg)).Allows 0 w.trace)
      (x29SetDefault behind)
      (fun _ w => (controlProtocol (setPayload behind s.cfg)).Allows 0 w.trace ∧
        CfgReach E s.cfg w.st.cfg) ⟨s, []⟩ := by
  unfold x29SetDefault
  refine wp_bind (wp_get ?_)
  split
  · exact wp_stop rfl
  · exact wp_pure ⟨rfl, .refl⟩
  · next msg hmsg =>
    rw [setMessage_eq hmsg]
    set payload := setPayload behind s.cfg
    have hcarries : Carries (controlProtocol payload) payload id := fun _ _ _ _ h => h
    have hallows : ∀ {w : SRun}, Underway (controlProtocol payload) 0 id w →
        (controlProtocol payload).Allows 0 w.trace := fun ⟨_, hi⟩ => hi.allows
    have hstart : (controlProtocol payload).At 0 (id 0) ⟨s, []⟩ := rfl
    have hwrite := wp_controlWrite_underway (E := E) hcarries hstart
    have hreload : Keeps E (Reloading E ⟨s, []⟩) (controlWrite (0x01 :: payload)) :=
      keeps_controlWrite_reloading (0x01 :: payload)
    have hreloading := wp_within hreload
    exact wp_bind (wp_mono (wp_and hwrite hreloading) (fun _ h => hallows h.1) fun _ _ h =>
      wp_pure ⟨hallows h.1, h.2.1.cfg⟩)

end SetMessage

/-! ## The loop -/

/-- After a hang-up of the terminal side nothing is held back. -/
def AtHangup (t : STrace) : Event → Session → Prop
  | .loopHead, s => s.done = 3 → accepted t = received t
  | _, _ => True

/-- The packets are not qualified, and carry a beginning of what has been read. -/
structure Copied (t : STrace) : Prop where
  unqualified : ∀ x ∈ t, x.1.Unqualified
  pre : StreamPrefix t
  hangup : Always AtHangup t

theorem Copied.nil : Copied [] where
  unqualified := by simp
  pre := fun t ht => by
    rw [List.prefix_nil.mp ht]
    exact List.prefix_refl _
  hangup := always_nil

section Loop

/-- In the layout of the buffer, with the idle timer on, no packet has been qualified. -/
def Timered (E : Env → Prop) (s₀ : Session) (w : SRun) : Prop :=
  Laid E s₀ w.st ∧ Always NoStrand w.trace ∧ ∀ x ∈ w.trace, x.1.Unqualified

variable {E : Env → Prop} {s₀ : Session} {w w' : SRun} {hup : Prop}
  (hfix : ∀ c, CfgReach E s₀.cfg c → c.forwardtimer ≠ 0 ∧ c.bufferSize = s₀.cfg.bufferSize)

theorem Timered.aside (h : Timered E s₀ w) (ha : Aside E hup w w') : Timered E s₀ w' := by
  obtain ⟨hl, -, -⟩ := h.1.beside ha.1
  have hns := ha.always h.2.1 fun t k s hk => by
    rcases hk.eq with ⟨-, _, rfl⟩ | ⟨_, rfl⟩ | ⟨_, _, rfl⟩ | ⟨_, _, rfl⟩ | ⟨_, rfl⟩ <;> trivial
  refine ⟨hl, hns, ?_⟩
  obtain ⟨-, t, ht, hx⟩ := ha
  rw [ht]
  intro x hm
  rcases List.mem_append.mp hm with hm | hm
  · exact h.2.2 x hm
  · intro pkt hp
    rcases (hx x hm).2.eq with ⟨-, _, h⟩ | ⟨_, h⟩ | ⟨_, _, h⟩ | ⟨_, _, h⟩ | ⟨_, h⟩ <;>
      simp [h, Event.packet?] at hp

/-- A call that writes no packet. -/
theorem unqualified_call {t : STrace} {k : Event} (h : ∀ x ∈ t, x.1.Unqualified)
    (hk : k.packet? = none) (s : Session) : ∀ x ∈ t ++ [(k, s)], x.1.Unqualified := by
  intro x hm pkt hp
  rcases List.mem_append.mp hm with hm | hm
  · exact h x hm pkt hp
  · rw [List.mem_singleton.mp hm, hk] at hp
    cases hp

include hfix in
theorem wp_readMasterPart_timered (h : Timered E s₀ w) :
    wp E (fun w => Always NoStrand w.trace ∧ ∀ x ∈ w.trace, x.1.Unqualified) readMasterPart
      (fun _ => Timered E s₀) w := by
  have hon : w.st.cfg.forwardtimer ≠ 0 := (hfix _ h.1.cfg).1
  have hread : ∀ (e : Env) res s, Always NoStrand (readRun w e res s).trace ∧
      ∀ x ∈ (readRun w e res s).trace, x.1.Unqualified := by
    intro e res s
    refine ⟨always_concat.mpr ⟨h.2.1, ?_⟩, unqualified_call h.2.2 rfl _⟩
    cases res with
    | error er => trivial
    | ok data => exact fun _ hz => absurd (by simpa using hz) hon
  refine wp_readMasterPart_laid (fun c hc => Int.le_of_eq (hfix c hc).2) h.1 h.2 (fun _ => h)
    (fun e he er _ => ?_) (fun e he _ => ⟨?_, hread e _ _⟩) (fun hz => absurd hz hon)
    (fun hz => absurd hz hon)
    fun _ e he data hne hlen _ s hs => ⟨hread e _ s, fun s' hn hl hh => ⟨hl, hread e _ s'⟩⟩
  · have h₁ : Timered E s₀ (readRun w e (.error er) ((deliver e w.st).failing er)) :=
      ⟨(h.1.delivered e).of_eq rfl rfl .refl, hread e _ _⟩
    exact wp_failed_aside (fun _ h => h.2) (fun _ ha => h₁.aside ha) (by simp) (by simp)
  · exact (h.1.delivered e).of_eq rfl rfl .refl

include hfix in
/-- A flush sets the Q byte. -/
theorem wp_forwardPart_timered (h : Timered E s₀ w) :
    wp E (fun w => Always NoStrand w.trace ∧ ∀ x ∈ w.trace, x.1.Unqualified) forwardPart
      (fun _ => Timered E s₀) w := by
  have hon : w.st.cfg.forwardtimer ≠ 0 := (hfix _ h.1.cfg).1
  have htest : Always NoStrand (w.trace ++ [(.forwardTest, w.st)]) ∧
      ∀ x ∈ w.trace ++ [(.forwardTest, w.st)], x.1.Unqualified :=
    ⟨always_concat.mpr ⟨h.2.1, fun _ hz => absurd hz hon⟩, unqualified_call h.2.2 rfl _⟩
  have hflush : ∀ k (w' : SRun),
      Sent E 0 w.st.held k ⟨w.st.flushing, w.trace ++ [(.forwardTest, w.st)]⟩ w' →
        Always NoStrand w'.trace ∧ ∀ x ∈ w'.trace, x.1.Unqualified := by
    intro k w' hs
    refine ⟨noStrand_sent htest.1 hs, ?_⟩
    obtain ⟨t, ht, hx, -⟩ := hs.trace
    rw [ht]
    intro x hm pkt hp
    rcases List.mem_append.mp hm with hm | hm
    · exact htest.2 x hm pkt hp
    · rcases (hx x hm).2.eq with ⟨_, h⟩ | ⟨_, _, h, hq⟩
      · simp [h, Event.packet?] at hp
      · simp only [h, Event.packet?, Option.mem_some_iff] at hp
        rwa [← hp]
  exact wp_forwardPart_laid (fun c hc => Int.le_of_eq (hfix c hc).2) h.1 (fun _ => ⟨h.1, htest⟩)
    (fun _ hz s hs hl => ⟨hl, htest⟩) (fun _ _ k w' hs => hflush k w' hs)
    fun _ _ p w' _ hs hl => ⟨hl, hflush _ w' hs⟩

include hfix in
/-- **The loop copies the bytes of the terminal side**, in packets that are not qualified. -/
theorem wp_doCopyLoop_copied {s : Session} (hl : Laid E s₀ s) (hz : s.loc.totali = 0) :
    wp E (fun w => Copied w.trace) doCopyLoop (fun _ w => Copied w.trace) ⟨s, []⟩ := by
  have htimered : Timered E s₀ ⟨s, []⟩ := ⟨hl, always_nil, by simp⟩
  have hhead : AtHead E s₀ ⟨s, []⟩ := ⟨hl, fun _ => ⟨⟨Copied.nil.pre, always_nil⟩, .empty,
    ⟨rfl, rfl⟩, Or.inl (by simp [Session.held, hz, Stream.Relay.empty]), fun _ => hz⟩⟩
  have hplain := wp_doCopyLoop_invariant (J := Timered E s₀) (E := E)
    (I := fun w => Always NoStrand w.trace ∧ ∀ x ∈ w.trace, x.1.Unqualified) (fun _ h => h.2)
    (fun w k hk h => ?_) (fun _ _ h ha => h.aside ha) (fun _ h => wp_readMasterPart_timered hfix h)
    (fun _ h => wp_forwardPart_timered hfix h) htimered
  · have hstream := wp_doCopyLoop_stream (fun c hc => (hfix c hc).2) hhead
    have hcopied : ∀ {w : SRun}, Anywhere s₀ w →
        (Always NoStrand w.trace ∧ ∀ x ∈ w.trace, x.1.Unqualified) → Copied w.trace := by
      intro w hs hu
      have hsound := hs hu.1
      refine ⟨hu.2, hsound.pre, fun t k s' t' ht => ?_⟩
      have hat := hsound.good t k s' t' ht
      cases k with
      | loopHead => exact hat.2
      | _ => trivial
    exact wp_mono (wp_and hstream hplain) (fun _ h => hcopied h.1 h.2) fun _ _ h =>
      hcopied h.1 h.2.2
  · refine ⟨h.1, noStrand_append h.2.1 fun x hx => ?_, unqualified_call h.2.2 ?_ _⟩
    · rw [List.mem_singleton.mp hx]
      rcases hk with rfl | rfl <;> simp
    · rcases hk with rfl | rfl <;> rfl

end Loop

theorem Copied.of_prefix {t t' : STrace} (h : Copied t) (ht : t' <+: t) : Copied t' := by
  obtain ⟨u, rfl⟩ := ht
  exact ⟨fun x hx => h.unqualified x (List.mem_append_left _ hx),
    fun t₁ h₁ => h.pre t₁ (h₁.trans (List.prefix_append _ _)), always_of_append h.hangup⟩

/-! ## All of a session -/

/-- The Set message, the bytes of the terminal side, and the closing phases of the line. -/
def Parted (payload : List UInt8) (t : STrace) : Prop :=
  ∃ t₁ t₂ t₃ done, t = t₁ ++ (t₂ ++ t₃) ∧ (controlProtocol payload).Allows 0 t₁ ∧ Copied t₂ ∧
    (lineProtocol payload).Allows (.clearing done 0) t₃

/-- What the other side has got: a beginning of the Set message, then a beginning of what has been
read from the terminal side, and then perhaps the invitation to clear. -/
def OnWire (payload : List UInt8) (t : STrace) : Prop :=
  ∃ set data clear, set <+: payload ∧ data <+: received t ∧ clear <+: [x29InvitationToClear] ∧
    wire t = qualified set ++ plain data ++ qualified clear

namespace Parted

variable {payload : List UInt8} {t t' : STrace}

/-- A run that has been cut. -/
theorem of_prefix (h : Parted payload t) (ht : t' <+: t) : Parted payload t' := by
  obtain ⟨t₁, t₂, t₃, done, rfl, h₁, h₂, h₃⟩ := h
  rcases List.prefix_or_prefix_of_prefix ht (List.prefix_append t₁ _) with h' | ⟨u, rfl⟩
  · exact ⟨t', [], [], done, by simp, h₁.of_prefix h', .nil, rfl⟩
  have hu := (List.prefix_append_right_inj t₁).mp ht
  rcases List.prefix_or_prefix_of_prefix hu (List.prefix_append t₂ _) with h' | ⟨v, rfl⟩
  · exact ⟨t₁, u, [], done, by simp, h₁, h₂.of_prefix h', rfl⟩
  · exact ⟨t₁, t₂, v, done, rfl, h₁, h₂,
      h₃.of_prefix ((List.prefix_append_right_inj t₂).mp hu)⟩

theorem onWire (h : Parted payload t) : OnWire payload t := by
  obtain ⟨t₁, t₂, t₃, done, rfl, h₁, h₂, h₃⟩ := h
  obtain ⟨i, hi⟩ := Option.isSome_iff_exists.mp h₁
  obtain ⟨hread₁, sent, hwire₁, -⟩ := carried_of_control hi
  obtain ⟨q, hq⟩ := Option.isSome_iff_exists.mp h₃
  obtain ⟨j, ⟨hread₃, sent', hwire₃, -⟩, -⟩ := carried_of_closing hq
  refine ⟨payload.take sent, accepted t₂, [x29InvitationToClear].take sent', List.take_prefix _ _,
    ?_, List.take_prefix _ _, ?_⟩
  · simpa [hread₁, hread₃] using h₂.pre t₂ (List.prefix_refl _)
  · simp [hwire₁, hwire₃, wire_of_unqualified h₂.unqualified]

/-- After a hang-up of the terminal side, the other side has got all of what has been read. -/
theorem hangup {s : Session} (h : Parted payload (t ++ [(.loopHead, s)])) (hd : s.done = 3) :
    ∃ set, set <+: payload ∧ wire t = qualified set ++ plain (received t) := by
  obtain ⟨t₁, t₂, t₃, done, ht, h₁, h₂, h₃⟩ := h
  rcases List.eq_nil_or_concat t₃ with rfl | ⟨t₃, x, rfl⟩
  · rcases List.eq_nil_or_concat t₂ with rfl | ⟨t₂, x, rfl⟩
    · -- no control message passes the head of the loop
      obtain rfl : t₁ = t ++ [(.loopHead, s)] := by simpa using ht.symm
      obtain ⟨i, hi⟩ := Option.isSome_iff_exists.mp h₁
      rw [Protocol.after_concat] at hi
      obtain ⟨_, _, hk⟩ := Option.bind_eq_some_iff.mp hi
      cases hk
    · obtain ⟨rfl, rfl⟩ : t = t₁ ++ t₂ ∧ x = (.loopHead, s) := by
        rw [List.append_nil, List.concat_eq_append, ← List.append_assoc] at ht
        obtain ⟨ht, hx⟩ := List.append_inj' ht rfl
        exact ⟨ht, (List.singleton_inj.mp hx).symm⟩
      obtain ⟨i, hi⟩ := Option.isSome_iff_exists.mp h₁
      obtain ⟨hread₁, sent, hwire₁, -⟩ := carried_of_control hi
      have hall := h₂.hangup t₂ .loopHead s [] (by simp) hd
      have hplain := wire_of_unqualified (h₂.of_prefix (List.prefix_concat _ _)).unqualified
      refine ⟨payload.take sent, List.take_prefix _ _, ?_⟩
      rw [wire_append, hwire₁, hplain, hall, received_append, hread₁, List.nil_append]
  · -- nor do the closing phases
    obtain rfl : x = (.loopHead, s) := by
      rw [List.concat_eq_append, ← List.append_assoc, ← List.append_assoc] at ht
      exact (List.singleton_inj.mp (List.append_inj' ht rfl).2).symm
    obtain ⟨q, hq⟩ := Option.isSome_iff_exists.mp h₃
    rw [List.concat_eq_append, Protocol.after_concat] at hq
    obtain ⟨q', hq', hk⟩ := Option.bind_eq_some_iff.mp hq
    obtain ⟨j, -, rfl | rfl⟩ := carried_of_closing hq'
    · change (if lineGone done then none else
        (controlNext [x29InvitationToClear] j .loopHead).map (.clearing done)) = some q at hk
      split at hk <;> cases hk
    · cases hk

end Parted

end PadSvr
