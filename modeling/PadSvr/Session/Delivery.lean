import PadSvr.Session.Round
import PadSvr.Stream.Retry

/-!
# The network-to-terminal stream

A packet of the X.25 socket with Q byte 0 goes to the master by `writen`, and again from its start
whenever `writen` fails: `do_copy` is a sender that starts over. So the bytes the master accepts
are the payloads of the packets, each byte once, exactly in the runs in which no write is
interrupted directly after one that was accepted in part.

## Main definitions

* `payloads t`, `delivered t`: the bytes for the master, and the bytes it has accepted
* `masterWrites t`: the attempts to write them
* `DeliversOnce`: what holds of them once the packets are handled
* `Tracked P w`: the run `w` has done what a sender in `P` has

## Main results

* `wp_writeBack`: the two nested loops of the writes are one message of the sender
* `doCopy_delivered_iff`: when every byte is delivered once
* `not_doCopy_delivered`: a run that delivers a byte twice
-/

namespace PadSvr

open Scripted Scripted.Prog Stream

/-! ## The byte streams of a trace -/

/-- The bytes of a packet that are for the terminal side. -/
def payload (pkt : List UInt8) : List UInt8 := if pkt.headD 0 = 0 then pkt.tail else []

/-- The bytes for the terminal side that a call reads from the X.25 socket. -/
def Event.payload : Event → List UInt8
  | .readSock _ (.ok pkt) => PadSvr.payload pkt
  | _ => []

/-- The bytes that a call makes the master accept. -/
def Event.delivered : Event → List UInt8
  | .writeMaster data (.ok k) => data.take k
  | _ => []

/-- A write to the master as an attempt to pass bytes on. -/
def Event.attempt? : Event → Option (Attempt UInt8)
  | .writeMaster data (.ok k) => some ⟨data, some k⟩
  | .writeMaster data (.error _) => some ⟨data, none⟩
  | _ => none

/-- The payloads of the packets with Q byte 0, in order. -/
def payloads (t : STrace) : List UInt8 := t.flatMap fun x => x.1.payload

/-- The bytes the master has accepted, in order. -/
def delivered (t : STrace) : List UInt8 := t.flatMap fun x => x.1.delivered

/-- The writes to the master, in order. -/
def masterWrites (t : STrace) : List (Attempt UInt8) := t.filterMap fun x => x.1.attempt?

/-- A packet that is read fits in its block. -/
def Event.Fits : Event → Session → Prop
  | .readSock _ (.ok pkt), s => pkt.length ≤ s.bufn.length
  | _, _ => True

instance (k : Event) (s : Session) : Decidable (k.Fits s) :=
  match k with
  | .readSock _ (.ok pkt) => inferInstanceAs (Decidable (pkt.length ≤ s.bufn.length))
  | .readSock _ (.error _) => isTrue trivial
  | .loopHead => isTrue trivial
  | .forwardTest => isTrue trivial
  | .loopEnd => isTrue trivial
  | .poll _ => isTrue trivial
  | .readPipe _ => isTrue trivial
  | .readMaster _ _ _ => isTrue trivial
  | .writeSock _ _ => isTrue trivial
  | .writeMaster _ _ => isTrue trivial
  | .reload _ => isTrue trivial
  | .closingPoll _ => isTrue trivial

/-- The points where the packets read so far are handled. -/
def Event.Settled : Event → Bool
  | .loopHead => true
  | .loopEnd => true
  | _ => false

/-- Once the packets read so far are handled, the master has accepted their payloads, each byte
once. -/
def DeliveredOnce (t : STrace) (k : Event) (_ : Session) : Prop :=
  k.Settled → delivered t = payloads t

/-- The same, exactly when no failed write came directly after one accepted in part. -/
def DeliversOnce (t : STrace) (k : Event) (_ : Session) : Prop :=
  k.Settled → (delivered t = payloads t ↔ NoResend (masterWrites t))

@[simp] theorem payloads_append (t t' : STrace) :
    payloads (t ++ t') = payloads t ++ payloads t' := List.flatMap_append

@[simp] theorem payloads_singleton (x : Event × Session) : payloads [x] = x.1.payload := by
  simp [payloads]

@[simp] theorem masterWrites_append (t t' : STrace) :
    masterWrites (t ++ t') = masterWrites t ++ masterWrites t' := List.filterMap_append

theorem delivered_eq (t : STrace) : delivered t = passed (masterWrites t) := by
  induction t with
  | nil => rfl
  | cons x t ih =>
    have hx : x.1.delivered = passed (masterWrites [x]) := by
      rcases x with ⟨_ | _ | _ | _ | _ | _ | _ | _ | ⟨data, er | k⟩ | _, s⟩ <;>
        simp [masterWrites, Event.attempt?, Event.delivered, Attempt.passed]
    calc delivered (x :: t)
      _ = x.1.delivered ++ delivered t := rfl
      _ = passed (masterWrites [x] ++ masterWrites t) := by rw [hx, ih, passed_append]
      _ = passed (masterWrites (x :: t)) := by rw [← masterWrites_append, List.singleton_append]

/-! ## The refinement -/

/-- The run has read and written what the sender has been given and has tried. -/
structure Delivers (r : Sender UInt8) (w : SRun) : Prop where
  log : r.log = masterWrites w.trace
  whole : r.given ++ r.sent ++ r.left = payloads w.trace

/-- As long as all packets fit in their block, the run has done what a sender in `P` has, and every
packet handled so far has been delivered as it should be. -/
def Tracked (P : Sender UInt8 → Prop) (w : SRun) : Prop :=
  (∀ x ∈ w.trace, x.1.Fits x.2) → Always DeliversOnce w.trace ∧ ∃ r, Delivers r w ∧ P r

/-- Every packet handled so far has been delivered as it should be. -/
def Delivering (w : SRun) : Prop :=
  (∀ x ∈ w.trace, x.1.Fits x.2) → Always DeliversOnce w.trace

/-- Between two packets. -/
abbrev AtRest : SRun → Prop := Tracked fun r => r.left = []

/-- The writes of `data` start. -/
abbrev Starting (data : List UInt8) : SRun → Prop := Tracked fun r => r.sent = [] ∧ r.left = data

/-- Of the writes of `data`, `left` is left. -/
abbrev Midway (data left : List UInt8) : SRun → Prop :=
  Tracked fun r => r.sent ++ r.left = data ∧ r.left = left

/-- A call apart from the packets read and from the writes to the master. -/
def Event.IsApart : Event → Prop
  | .readSock _ (.ok _) => False
  | .writeMaster _ _ => False
  | .loopHead => False
  | .loopEnd => False
  | _ => True

variable {E : Env → Prop} {P P' : Sender UInt8 → Prop} {w w' : SRun}

theorem Event.IsApart.streams {k : Event} (hk : k.IsApart) :
    k.payload = [] ∧ k.attempt? = none ∧ k.Settled = false := by
  rcases k with _ | _ | _ | _ | _ | _ | ⟨_, _ | _⟩ | _ | _ | _ <;>
    simp_all [Event.IsApart, Event.payload, Event.attempt?, Event.Settled]

theorem Tracked.delivering (h : Tracked P w) : Delivering w := fun hf => (h hf).1

theorem Tracked.mono (h : Tracked P w)
    (hP : (∀ x ∈ w.trace, x.1.Fits x.2) → ∀ r, P r → P' r) : Tracked P' w := fun hf =>
  have ⟨hd, r, hr, hp⟩ := h hf
  ⟨hd, r, hr, hP hf r hp⟩

/-- Only the trace matters. -/
theorem Tracked.state (h : Tracked P w) (s : Session) : Tracked P ⟨s, w.trace⟩ := fun hf =>
  have ⟨hd, r, hr, hp⟩ := h hf
  ⟨hd, r, ⟨hr.log, hr.whole⟩, hp⟩

theorem Tracked.append (h : Tracked P w) {t : STrace} (ht : w'.trace = w.trace ++ t)
    (hx : ∀ x ∈ t, x.1.IsApart) : Tracked P w' := by
  intro hf
  rw [ht] at hf
  obtain ⟨hd, r, hr, hp⟩ := h fun x hm => hf x (List.mem_append_left t hm)
  have hpay : payloads t = [] := List.flatMap_eq_nil_iff.mpr fun x hm => (hx x hm).streams.1
  have hatt : masterWrites t = [] := List.filterMap_eq_nil_iff.mpr fun x hm => (hx x hm).streams.2.1
  refine ⟨?_, r, ⟨?_, ?_⟩, hp⟩
  · rw [ht]
    refine always_append hd fun x hm _ hk => ?_
    rw [(hx x hm).streams.2.2] at hk
    cases hk
  · rw [ht, masterWrites_append, hatt, List.append_nil, hr.log]
  · rw [ht, payloads_append, hpay, List.append_nil, hr.whole]

/-- What the master has been given, at rest. -/
theorem Delivers.iff {r : Sender UInt8} (h : Delivers r w) (hl : r.left = []) :
    delivered w.trace = payloads w.trace ↔ NoResend (masterWrites w.trace) := by
  rw [delivered_eq, ← h.log, ← h.whole, hl, List.append_nil]
  exact r.passed_eq_iff

/-- The two points of the loop. -/
theorem Tracked.label (h : AtRest w) {k : Event} (hk : k = .loopHead ∨ k = .loopEnd)
    (s : Session) : AtRest ⟨s, w.trace ++ [(k, s)]⟩ := by
  intro hf
  obtain ⟨hd, r, hr, hl⟩ := h fun x hm => hf x (List.mem_append_left _ hm)
  have hpay : k.payload = [] := by rcases hk with rfl | rfl <;> rfl
  have hatt : masterWrites [(k, s)] = [] := by rcases hk with rfl | rfl <;> rfl
  exact ⟨always_concat.mpr ⟨hd, fun _ => hr.iff hl⟩, r,
    ⟨by rw [masterWrites_append, hatt, List.append_nil, hr.log], by simp [hpay, hr.whole]⟩, hl⟩

/-! ## The parts of a round beside the sender -/

section Keeps

theorem keeps_stmt_tracked {α : Type} {f : Env → Session → Session × α} :
    Keeps E (Tracked P) (stmt f) := fun _ hw => wp_stmt hw fun _ _ => hw.state _

theorem keeps_modify_tracked {f : Session → Session} : Keeps E (Tracked P) (modify f) :=
  fun _ hw => wp_modify (hw.state _)

/-- A call apart from the two streams. -/
theorem Tracked.call (h : Tracked P w) {k : Event} (hk : k.IsApart) (s s' : Session) :
    Tracked P ⟨s', w.trace ++ [(k, s)]⟩ := h.append rfl (by simpa using hk)

theorem keeps_doInter_tracked : Keeps E (Tracked P) doInter := by
  have hserved : ∀ {w w' : SRun}, Tracked P w → Served E w w' → Tracked P w' := fun hw hs => by
    obtain ⟨-, t, ht, hx⟩ := hs
    refine hw.append ht fun x hm => ?_
    obtain ⟨file, hf⟩ := (hx x hm).2.eq
    rw [hf]
    trivial
  exact fun w hw => wp_mono (wp_doInter w) (fun _ h => hserved hw h) fun _ _ h => hserved hw h.1

theorem keeps_failed_tracked (n : ℕ) : Keeps E (Tracked P) (failed n) := by
  unfold failed setDone
  exact .bind .get fun s => .ite (.bind keeps_doInter_tracked fun _ => .pure) keeps_modify_tracked

theorem keeps_pollPart_tracked : Keeps E (Tracked P) pollPart := by
  unfold pollPart setWatchDog setDone assign
  refine .bind keeps_stmt_tracked fun _ => .bind (fun w hw => ?_) fun b =>
    .ite .pure (.bind .get fun s => .ite (.bind keeps_modify_tracked fun _ => .pure)
      (.bind keeps_doInter_tracked fun _ => .pure))
  exact wp_pollCall hw (fun e _ er => hw.call (by trivial) _ _) fun e _ so ma pi _ =>
    hw.call (by trivial) _ _

theorem keeps_signalPart_tracked : Keeps E (Tracked P) signalPart := by
  unfold signalPart
  refine .bind .get fun s => .ite (.bind .get fun s => .bind (fun w hw => ?_)
    fun _ => .bind keeps_doInter_tracked fun _ => .pure) .pure
  exact wp_readPipe hw (fun e _ => hw.call (by trivial) _ _) fun e _ k => hw.call (by trivial) _ _

theorem keeps_reventsPart_tracked : Keeps E (Tracked P) reventsPart := by
  unfold reventsPart masterHangup setDone
  exact .bind .get fun s => .ite (.bind keeps_modify_tracked fun _ => .pure)
    (.bind (.bind .get fun s => .ite keeps_modify_tracked .pure) fun _ =>
      .ite (.bind keeps_modify_tracked fun _ => .pure)
        (.ite (.bind keeps_modify_tracked fun _ => .pure) .pure))

theorem keeps_writensockint_tracked (buf : List UInt8) (n : ℕ) :
    Keeps E (Tracked P) (writensockint buf n doInter wrError) := by
  unfold writensockint
  refine .ite .pure (.iter (fun v => ?_) _)
  unfold writensockintRound
  refine .ite .pure (.bind (fun w hw => ?_) fun k => .ite ?_ .pure)
  · exact wp_writeSock hw (fun e _ er _ => hw.call (by trivial) _ _) fun e _ k _ =>
      hw.call (by trivial) _ _
  · unfold writensockintFailed wrError setDone
    exact .bind .get fun s => .ite (.bind keeps_doInter_tracked fun r => .ite .pure .pure)
      (.ite .pure (.bind (.bind keeps_modify_tracked fun _ => .pure) fun _ => .pure))

theorem keeps_readMasterPart_tracked : Keeps E (Tracked P) readMasterPart := by
  have hread : ∀ off n, Keeps E (Tracked P) (readMaster off n) := fun off n w hw =>
    wp_readMaster hw (fun e _ er _ => hw.call (by trivial) _ _) fun e _ data _ _ _ =>
      hw.call (by trivial) _ _
  have htimer : Keeps E (Tracked P) setReadTimeout := fun w hw =>
    wp_setReadTimeout hw fun e _ _ => hw.state _
  have hreceived : ∀ i, Keeps E (Tracked P) (masterReceived i) := fun i => by
    unfold masterReceived setLoc resetReadTimeout assign
    exact .bind .get fun s => .ite
      (.bind .get fun s => .bind (keeps_writensockint_tracked _ _) fun r => keeps_modify_tracked)
      (.bind keeps_modify_tracked fun _ => .bind .get fun s => .ite
        (.bind keeps_modify_tracked fun _ => keeps_stmt_tracked) htimer)
  unfold readMasterPart readMasterCall setDone
  exact .bind .get fun s => .ite (.bind (.bind .get fun s => .ite (hread _ _) (hread _ _)) fun i =>
    .ite (hreceived _) (.ite keeps_modify_tracked (keeps_failed_tracked 1))) .pure

theorem keeps_forwardPart_tracked : Keeps E (Tracked P) forwardPart := by
  have hlabel : Keeps E (Tracked P) (label .forwardTest) := fun w hw =>
    wp_label (hw.append rfl (by simp [Event.IsApart]))
  unfold forwardPart
  exact .bind hlabel fun _ => .bind .get fun s => .ite (.ite keeps_modify_tracked
    (.bind keeps_modify_tracked fun _ => .bind .get fun s =>
      .bind (keeps_writensockint_tracked _ _) fun r => keeps_modify_tracked)) .pure

end Keeps

/-! ## The writes to the master -/

section Writes

variable {data left : List UInt8}

/-- A write that is accepted, at least in part. -/
theorem Midway.accepted (h : Midway data left w) (hl : left ≠ []) {k : ℕ} (hk : 0 < k)
    (s s' : Session) :
    Midway data (left.drop k) ⟨s', w.trace ++ [(.writeMaster left (.ok k), s)]⟩ := by
  intro hf
  obtain ⟨hd, r, hr, hs, rfl⟩ := h fun x hm => hf x (List.mem_append_left _ hm)
  have hw := hr.whole
  refine ⟨always_concat.mpr ⟨hd, by simp [DeliversOnce, Event.Settled]⟩, r.accept hl hk,
    ⟨?_, ?_⟩, ?_, rfl⟩
  · simp [hr.log, masterWrites, Event.attempt?]
  · rw [List.append_assoc] at hw
    simpa [List.append_assoc, Event.payload] using hw
  · simpa [List.append_assoc] using hs

/-- A write that fails: the next one starts over. -/
theorem Midway.failed (h : Midway data left w) (hl : left ≠ []) (er : Errno) (s s' : Session) :
    Starting data ⟨s', w.trace ++ [(.writeMaster left (.error er), s)]⟩ := by
  intro hf
  obtain ⟨hd, r, hr, hs, rfl⟩ := h fun x hm => hf x (List.mem_append_left _ hm)
  refine ⟨always_concat.mpr ⟨hd, by simp [DeliversOnce, Event.Settled]⟩, r.fail hl,
    ⟨?_, ?_⟩, rfl, hs⟩
  · simp [hr.log, masterWrites, Event.attempt?]
  · have hw := hr.whole
    rw [List.append_assoc] at hw
    simpa [Event.payload] using hw

/-- `writen`: all of the message is accepted, or the next call starts over. -/
theorem wp_writen (hE : ∀ e, E e → Writes e.wmaster) (h : Starting data w) :
    wp E Delivering (writen writeMaster data) (fun iw w' =>
      0 ≤ iw ∧ AtRest w' ∨ iw < 0 ∧ Starting data w') w := by
  unfold writen
  refine wp_iter (Midway data) (fun _ _ h => h.delivering) (fun left w h => ?_)
    (h.mono fun _ r hr => ⟨by simp [hr.1, hr.2], hr.2⟩)
  unfold writenRound
  by_cases hl : left = []
  · rw [if_pos hl]
    exact wp_pure (Or.inl ⟨Int.natCast_nonneg _, h.mono fun _ r hr => hr.2.trans hl⟩)
  · rw [if_neg hl]
    refine wp_bind (wp_writeMaster h.delivering (fun e he er _ => ?_) fun e he k hk => ?_)
    · exact wp_pure (Or.inr ⟨by decide, h.failed hl er _ _⟩)
    · have hpos : 0 < min k left.length :=
        lt_min (by simpa [hk, Writes] using hE e he) (List.length_pos_iff.mpr hl)
      have hpos' : ¬ ((min k left.length : ℕ) : ℤ) ≤ 0 := by omega
      rw [if_neg hpos']
      refine wp_pure ?_
      show Midway data (left.drop ((min k left.length : ℕ) : ℤ).toNat) _
      rw [Int.toNat_natCast]
      exact h.accepted hl hpos _ _

/-- **The two nested loops of the writes** are one message of the sender. -/
theorem wp_writeBack (hE : ∀ e, E e → Writes e.wmaster) (h : Starting data w) :
    wp E Delivering (writeBack data) (fun _ => AtRest) w := by
  unfold writeBack
  refine wp_iter (fun _ => Starting data) (fun _ _ h => h.delivering) (fun _ w h => ?_) h
  refine wp_seq (wp_writen hE h) fun iw w' h' => ?_
  rcases h' with ⟨hiw, h'⟩ | ⟨hiw, h'⟩
  · rw [if_neg (by omega)]
    exact wp_pure h'
  · rw [if_pos hiw]
    exact wp_bind (wp_mono (keeps_failed_tracked 1 w' h') (fun _ h => h.delivering)
      fun _ _ h => wp_pure h)

end Writes

/-! ## The read from the socket -/

section Socket

theorem payload_eq_nil {pkt : List UInt8} (h : pkt.length ≤ 1) : payload pkt = [] := by
  have htail : pkt.tail = [] := by
    apply List.eq_nil_of_length_eq_zero
    rw [List.length_tail]
    omega
  simp [payload, htail]

/-- A packet is read: its payload is the next message of the sender. -/
theorem Tracked.packet (h : AtRest w) (n : ℕ) (pkt : List UInt8) (s s' : Session) :
    Starting (payload pkt) ⟨s', w.trace ++ [(.readSock n (.ok pkt), s)]⟩ := by
  intro hf
  obtain ⟨hd, r, hr, hl⟩ := h fun x hm => hf x (List.mem_append_left _ hm)
  refine ⟨always_concat.mpr ⟨hd, by simp [DeliversOnce, Event.Settled]⟩,
    r.start hl (payload pkt), ⟨?_, ?_⟩, rfl, rfl⟩
  · simp [hr.log, masterWrites, Event.attempt?]
  · have hw := hr.whole
    rw [hl, List.append_nil] at hw
    simp [hw, Event.payload]

/-- A packet without a payload needs no write. -/
theorem Tracked.atRest {data : List UInt8} (h : Starting data w)
    (hd : (∀ x ∈ w.trace, x.1.Fits x.2) → data = []) : AtRest w :=
  h.mono fun hf _ hr => hr.2.trans (hd hf)

/-- A packet that fits lies at the start of the block. -/
theorem store_packet {buf pkt : List UInt8} (h : pkt.length ≤ buf.length) (hne : pkt ≠ []) :
    (store buf 0 pkt).headD 0 = pkt.headD 0 ∧
      ((store buf 0 pkt).drop 1).take (pkt.length - 1) = pkt.tail := by
  cases pkt with
  | nil => exact absurd rfl hne
  | cons b pkt =>
    simp only [store, List.take_zero, List.nil_append, List.cons_append, Nat.zero_add]
    rw [List.length_cons] at h
    obtain ⟨n, hn⟩ : ∃ n, buf.length = n + 1 := ⟨buf.length - 1, by omega⟩
    rw [hn, List.take_succ_cons]
    refine ⟨rfl, ?_⟩
    rw [List.length_cons, Nat.add_sub_cancel, List.drop_one, List.tail_cons, List.take_take,
      min_eq_left (by omega)]
    exact List.take_left' rfl

/-- A part that keeps the packets handled, as a part of the round. -/
theorem restores_atRest {α : Type} {m : SProg α} (hm : Keeps E AtRest m) :
    Restores E Delivering AtRest m := hm.restores fun _ h => h.delivering

theorem wp_readSocketPart_tracked (hE : ∀ e, E e → Writes e.wmaster) (h : AtRest w) :
    wp E Delivering readSocketPart (fun _ => AtRest) w := by
  unfold readSocketPart
  refine wp_bind (wp_get ?_)
  split
  · refine wp_bind (wp_get (wp_bind (wp_readSock h.delivering (fun e he er => ?_)
      fun e he p => ?_)))
    · exact restores_atRest (keeps_failed_tracked 10) _ (h.call (by simp [Event.IsApart]) _ _)
    · have hread := h.packet (w.st.cfg.bufferSize.toNat + 1) p (deliver e w.st)
        { deliver e w.st with bufn := store (deliver e w.st).bufn 0 p }
      by_cases h1 : 1 < (p.length : ℤ)
      · rw [if_pos h1]
        have hne : p ≠ [] := List.length_pos_iff.mp (by omega)
        have hfit : (∀ x ∈ w.trace ++ [(Event.readSock (w.st.cfg.bufferSize.toNat + 1) (.ok p),
            deliver e w.st)], x.1.Fits x.2) → p.length ≤ (deliver e w.st).bufn.length := fun hf =>
          hf _ (List.mem_append_right _ (List.mem_singleton_self _))
        unfold socketReceived
        refine wp_bind (wp_get ?_)
        dsimp only
        split
        · next hq =>
          refine wp_bind (wp_modify (wp_writeBack hE ((hread.state _).mono fun hf r hr => ?_)))
          obtain ⟨hhead, htail⟩ := store_packet (hfit hf) hne
          rw [hhead] at hq
          refine ⟨hr.1, hr.2.trans ?_⟩
          rw [Int.toNat_natCast, htail, payload, if_pos hq]
        · next hq =>
          have hrest' := hread.atRest fun hf => by
            rw [(store_packet (hfit hf) hne).1] at hq
            rw [payload, if_neg hq]
          unfold setNetTimeout assign
          exact restores_atRest (.ite keeps_stmt_tracked .pure) _ hrest'
      · rw [if_neg h1]
        have hrest' := hread.atRest fun _ => payload_eq_nil (by omega)
        unfold setDone
        exact restores_atRest (.ite keeps_modify_tracked (keeps_failed_tracked 10)) _ hrest'
  · exact wp_pure h

end Socket

/-! ## The loop -/

theorem wp_doCopyLoop_tracked (hE : ∀ e, E e → Writes e.wmaster) (h : AtRest w) :
    wp E Delivering doCopyLoop (fun _ => AtRest) w := by
  refine wp_doCopyLoop (H := AtRest) (L := AtRest) (fun _ h => h.delivering) (fun w h _ => ?_)
    (fun w h _ => ?_) (fun w h => h.label (Or.inr rfl) w.st) h
  · refine wp_doCopyRound (A := AtRest) (B := AtRest) (C := AtRest) (D := AtRest) (F := AtRest) ?_
      (restores_atRest keeps_signalPart_tracked) (fun w h => ?_)
      (restores_atRest keeps_readMasterPart_tracked) (fun w h => wp_readSocketPart_tracked hE h)
      (restores_atRest keeps_forwardPart_tracked)
    · exact wp_mono (restores_atRest keeps_pollPart_tracked _ (h.label (Or.inl rfl) w.st))
        (fun _ h => h) fun c _ h => by split <;> exact h
    · exact wp_mono (restores_atRest keeps_reventsPart_tracked w h) (fun _ h => h)
        fun c _ h => by split <;> exact h
  · exact (h.label (Or.inl rfl) w.st).label (Or.inr rfl) w.st

/-! ## The theorems -/

/-- **When every byte is delivered once.** If every packet read fits in the block and no write to
the master fails otherwise than by an interrupt, then wherever the packets read are handled, the
bytes the master has accepted are their payloads exactly when no interrupted write came directly
after one accepted in part. -/
theorem doCopy_delivered_iff {es : List Env} {s : Session} {bufn bufd : List UInt8}
    (hw : ∀ e ∈ es, Writes e.wmaster)
    (hfit : ∀ x ∈ doCopyTrace es s bufn bufd, x.1.Fits x.2) :
    Always DeliversOnce (doCopyTrace es s bufn bufd) := by
  have hstart : AtRest ⟨doCopyStart s bufn bufd, []⟩ := fun _ =>
    ⟨always_nil, .empty, ⟨rfl, rfl⟩, rfl⟩
  exact always_of_wp (E := (· ∈ es)) (wp_doCopyLoop_tracked hw hstart)
    (fun _ _ h => h.delivering) (fun _ he => he) hfit

/-- A round that reads a packet, with the entries of the writes to the master. -/
def packetRound (pkt : List UInt8) (writes : List Env) : List Env :=
  [.willing, { Env.willing with poll := .ready { pollin := true } {} {} },
    { Env.willing with sock := .ok pkt }] ++ writes

instance (t : STrace) (k : Event) (s : Session) : Decidable (DeliveredOnce t k s) :=
  inferInstanceAs (Decidable (k.Settled = true → delivered t = payloads t))

/-- A packet whose first write is interrupted, and whose second one is accepted in part. -/
theorem doCopy_delivered_iff_packet :
    Always DeliversOnce (doCopyTrace (packetRound [0, 97, 98]
      ([{ Env.willing with wmaster := .error .eintr }] ++ quiet 5 ++
        [{ Env.willing with wmaster := .ok 1 }] ++ quiet 1))
      (.fresh 10 8) (List.replicate 9 0) []) :=
  doCopy_delivered_iff (by decide) (by decide +kernel)

/-- A write that accepts the first byte, and an interrupt of the next one: that byte is delivered
twice. -/
theorem not_doCopy_delivered :
    ¬ ∀ (es : List Env) (s : Session) (bufn bufd : List UInt8),
      bufn.length = s.cfg.bufferSize.toNat + 1 → (∀ e ∈ es, e.file = .missing false) →
        (∀ e ∈ es, Writes e.wmaster) → Always DeliveredOnce (doCopyTrace es s bufn bufd) := by
  intro h
  have h₁ := h (packetRound [0, 97, 98] ([{ Env.willing with wmaster := .ok 1 },
    { Env.willing with wmaster := .error .eintr }] ++ quiet 6)) (.fresh 10 8) (List.replicate 9 0)
    [] (by decide) (by decide) (by decide)
  revert h₁
  decide +kernel

end PadSvr
