import PadSvr.Socket.Surroundings

/-!
# Packets of a fragmented write

However a write to the socket is cut, the packets that `writensockint` sends carry the payload once
and in order, each behind the Q byte.

## Main definitions

* `packets t`: the packets that were accepted
* `RoundCases x buf n v w Q`: the cases of one round, each with what it leaves
* `Fragmented buf n r t`: what a call that returns `r` has sent

## Main results

* `wp_round`, `within_round`: the cases are all there are, and a round takes two answers at most
* `writensockint_fragmented`: what a call sends, for any answers
-/

namespace PadSvr

open Scripted Scripted.Prog

/-- The packet that a call makes the socket accept. -/
def SockCall.packet : SockCall → Option (List UInt8)
  | .write pkt (.ok k) => some (pkt.take k)
  | _ => none

/-- The packets that were accepted. -/
def packets (t : SockTrace) : List (List UInt8) := t.filterMap fun y => y.1.packet

/-- A handler has asked for an end of the call. -/
def SockCall.AsksToStop : SockCall → Prop
  | .interHandler r => r = 0
  | .errorHandler _ => True
  | _ => False

/-- The payload of a buffer with `n` bytes. -/
def payloadOf (buf : List UInt8) (n : ℕ) : List UInt8 := (buf.drop 1).take (n - 1)

/-- The packet of the next write. -/
def WriteVars.next (buf : List UInt8) (n : ℕ) (v : WriteVars) : List UInt8 :=
  buf.headD 0 :: (payloadOf buf n).drop v.ptr

/-- The variables with the Q byte planted. -/
def WriteVars.planted (v : WriteVars) (q : UInt8) : WriteVars := { v with buf := v.buf.set v.ptr q }

/-- **The cases of one round**, each with what it leaves. -/
structure RoundCases (x : Answers) (buf : List UInt8) (n : ℕ) (v : WriteVars)
    (w : Run SockCall SockState) (Q : WriteVars ⊕ (ℕ × List UInt8) → Run SockCall SockState → Prop) :
    Prop where
  /-- all is sent -/
  done : v.nleft = 0 → Q (.inr (n - v.nleft, v.buf)) w
  /-- a write accepts `m` bytes -/
  accepted : ∀ m s, 2 ≤ m → m ≤ v.nleft + 1 → s.writes = w.st.writes + 1 →
    Q (.inl { v.planted (buf.headD 0) with
        cerr := 0, nleft := v.nleft + 1 - m, ptr := v.ptr + m - 1 })
      ⟨s, w.trace ++ [(.write (v.next buf n) (.ok m), w.st)]⟩
  /-- a write is interrupted, and the handler wants to go on -/
  resumed : ∀ r s s', x.outcome w.st.writes = .error .eintr → r ≠ 0 →
    s'.writes = w.st.writes + 1 → Q (.inl (v.planted (buf.headD 0)))
      ⟨s', w.trace ++ [(.write (v.next buf n) (.error .eintr), w.st)] ++ [(.interHandler r, s)]⟩
  /-- a write is interrupted, and the handler wants to stop -/
  stopped : ∀ s s', Q (.inr (n - v.nleft, (v.planted (buf.headD 0)).buf))
    ⟨s', w.trace ++ [(.write (v.next buf n) (.error .eintr), w.st)] ++ [(.interHandler 0, s)]⟩
  /-- a write fails, for the first or the second time -/
  failed : ∀ er s, er ≠ .eintr → v.cerr + 1 < maxErrorWrite → s.writes = w.st.writes + 1 →
    Q (.inl { v.planted (buf.headD 0) with cerr := v.cerr + 1 })
      ⟨s, w.trace ++ [(.write (v.next buf n) (.error er), w.st)]⟩
  /-- a write fails for the third time -/
  gaveUp : ∀ er r s s', er ≠ .eintr → ¬ v.cerr + 1 < maxErrorWrite →
    Q (.inr (n - v.nleft, (v.planted (buf.headD 0)).buf))
      ⟨s', w.trace ++ [(.write (v.next buf n) (.error er), w.st)] ++ [(.errorHandler r, s)]⟩

section Round

variable {x : Answers} {buf : List UInt8} {n : ℕ} {v : WriteVars} {w : Run SockCall SockState}
  {E : Unit → Prop} {Q : WriteVars ⊕ (ℕ × List UInt8) → Run SockCall SockState → Prop}

theorem length_payloadOf (hn : n ≤ buf.length) : (payloadOf buf n).length = n - 1 := by
  rw [payloadOf, List.length_take, List.length_drop]
  omega

/-- The next packet has the Q byte and all bytes left. -/
theorem WriteVars.Covers.length_next (h : v.Covers buf n) (hn : n ≤ buf.length) :
    (v.next buf n).length = v.nleft + 1 := by
  have hc := h.count
  rw [WriteVars.next, List.length_cons, List.length_drop, length_payloadOf hn]
  omega

/-- What a round comes to when its write fails. -/
theorem wp_failed (h : RoundCases x buf n v w Q) {er : Errno} {s : SockState}
    (hs : s.writes = w.st.writes + 1) (he : s.errno = er)
    (ho : x.outcome w.st.writes = .error er) :
    wp E (fun _ => True) (x.surroundings.failed n (v.planted (buf.headD 0))) Q
      ⟨s, w.trace ++ [(.write (v.next buf n) (.error er), w.st)]⟩ := by
  refine wp_bind (wp_get ?_)
  split
  · next hi =>
    -- an interrupt: `inter_handler` decides whether the call goes on
    obtain rfl : er = .eintr := by simpa [Answers.surroundings, he] using hi
    refine wp_bind (wp_handle trivial fun r er' => ?_)
    split
    · next hr =>
      subst hr
      exact wp_pure (h.stopped _ _)
    · next hr => exact wp_pure (h.resumed r _ _ ho hr hs)
  · next hi =>
    have hne : er ≠ .eintr := by simpa [Answers.surroundings, he] using hi
    -- another error counts, and the third one ends the call
    split
    · next hc => exact wp_pure (h.failed er s hne hc hs)
    · next hc => exact wp_bind (wp_handle trivial fun r er' => wp_pure (h.gaveUp er r _ _ hne hc))

theorem within_failed (h : RoundCases x buf n v w Q) {er : Errno} {s : SockState}
    (hs : s.writes = w.st.writes + 1) (he : s.errno = er)
    (ho : x.outcome w.st.writes = .error er) :
    within E 1 (x.surroundings.failed n (v.planted (buf.headD 0))) Q
      ⟨s, w.trace ++ [(.write (v.next buf n) (.error er), w.st)]⟩ := by
  refine within_bind 0 1 (Nat.le_refl _) (within_get ?_)
  split
  · next hi =>
    obtain rfl : er = .eintr := by simpa [Answers.surroundings, he] using hi
    refine within_bind 1 0 (Nat.le_refl _) (within_handle fun r er' => ?_)
    split
    · next hr =>
      subst hr
      exact within_pure (h.stopped _ _)
    · next hr => exact within_pure (h.resumed r _ _ ho hr hs)
  · next hi =>
    have hne : er ≠ .eintr := by simpa [Answers.surroundings, he] using hi
    split
    · next hc => exact within_pure (h.failed er s hne hc hs)
    · next hc =>
      exact within_bind 1 0 (Nat.le_refl _) (within_handle fun r er' =>
        within_pure (h.gaveUp er r _ _ hne hc))

/-- What a round comes to when its write accepts something. -/
theorem RoundCases.of_ok (h : RoundCases x buf n v w Q) (hx : x.Sound) (hv : v.Covers buf n)
    (hn : n ≤ buf.length) (hz : v.nleft ≠ 0) {k : ℕ} (ho : x.outcome w.st.writes = .ok k) {m : ℕ}
    (hm : m = min k (v.next buf n).length) :
    2 ≤ m ∧ Q (.inl { v.planted (buf.headD 0) with
        cerr := 0, nleft := v.nleft + 1 - m, ptr := v.ptr + m - 1 })
      ⟨w.st.wrote, w.trace ++ [(.write (v.next buf n) (.ok m), w.st)]⟩ := by
  have hk := hx _ k ho
  have hlen := hv.length_next hn
  have hm2 : 2 ≤ m := by omega
  exact ⟨hm2, h.accepted m _ hm2 (by omega) rfl⟩

/-- The round after the test of its loop. -/
theorem wp_round (h : RoundCases x buf n v w Q) (hx : x.Sound) (hv : v.Covers buf n)
    (hn : n ≤ buf.length) :
    wp E (fun _ => True) (x.surroundings.round (buf.headD 0) n v) Q w := by
  unfold Surroundings.round
  split
  · next hz => exact wp_pure (h.done hz)
  · next hz =>
    have hpkt : WriteVars.packet { v with buf := v.buf.set v.ptr (buf.headD 0) } = v.next buf n :=
      hv.packet_eq _
    dsimp only
    rw [hpkt]
    refine wp_bind (wp_answersWrite trivial (fun er ho => ?_) fun k ho => ?_)
    · exact wp_failed h rfl rfl ho
    · obtain ⟨hm, hQ⟩ := h.of_ok hx hv hn hz ho rfl
      rw [if_neg (by omega)]
      exact wp_pure hQ

/-- **A round takes two answers at most.** -/
theorem within_round (h : RoundCases x buf n v w Q) (hx : x.Sound) (hv : v.Covers buf n)
    (hn : n ≤ buf.length) : within E 2 (x.surroundings.round (buf.headD 0) n v) Q w := by
  unfold Surroundings.round
  split
  · next hz => exact within_pure (h.done hz)
  · next hz =>
    have hpkt : WriteVars.packet { v with buf := v.buf.set v.ptr (buf.headD 0) } = v.next buf n :=
      hv.packet_eq _
    dsimp only
    rw [hpkt]
    refine within_bind 1 1 (Nat.le_refl _) (within_answersWrite (fun er ho => ?_) fun k ho => ?_)
    · exact within_failed h rfl rfl ho
    · obtain ⟨hm, hQ⟩ := h.of_ok hx hv hn hz ho rfl
      rw [if_neg (by omega)]
      exact within_pure hQ

end Round

/-! ## What a call sends -/

/-- What a call that returns `r` has sent. -/
structure Fragmented (buf : List UInt8) (n : ℕ) (r : ℕ × List UInt8) (t : SockTrace) : Prop where
  bounds : 1 ≤ r.1 ∧ r.1 ≤ n
  /-- every packet starts with the Q byte -/
  qbyte : ∀ p ∈ packets t, p.head? = some (buf.headD 0)
  /-- behind it, the packets carry the first `r - 1` bytes of the payload -/
  bytes : (packets t).flatMap List.tail = (payloadOf buf n).take (r.1 - 1)
  /-- they carry all of it, or a handler has ended the call -/
  all : r.1 = n ∨ ∃ y ∈ t, y.1.AsksToStop
  /-- the buffer is as it was from offset `r` on -/
  behind : r.2.length = buf.length ∧ r.2.drop r.1 = buf.drop r.1

/-- Where the loop stands: what it has sent, and no handler has ended it. -/
structure SentSoFar (buf : List UInt8) (n : ℕ) (v : WriteVars)
    (w : Run SockCall SockState) : Prop where
  covers : v.Covers buf n
  qbyte : ∀ p ∈ packets w.trace, p.head? = some (buf.headD 0)
  bytes : (packets w.trace).flatMap List.tail = (payloadOf buf n).take v.ptr

section Fragments

variable {x : Answers} {buf : List UInt8} {n : ℕ} {v : WriteVars} {w : Run SockCall SockState}

@[simp] theorem packets_append (t t' : SockTrace) : packets (t ++ t') = packets t ++ packets t' :=
  List.filterMap_append

/-- Calls that no packet comes of. -/
theorem packets_append_of_none {t t' : SockTrace} (h : ∀ y ∈ t', y.1.packet = none) :
    packets (t ++ t') = packets t := by
  rw [packets_append, packets, packets, List.filterMap_eq_nil_iff.mpr h, List.append_nil]

theorem SentSoFar.plant (h : SentSoFar buf n v w) {s : SockState} {t : SockTrace}
    (ht : ∀ y ∈ t, y.1.packet = none) (c : ℕ) :
    SentSoFar buf n { v.planted (buf.headD 0) with cerr := c } ⟨s, w.trace ++ t⟩ := by
  have hp := h.covers.plant (buf.headD 0)
  refine ⟨⟨hp.count, hp.lt, hp.length, hp.rest⟩, ?_, ?_⟩
  · rw [packets_append_of_none ht]
    exact h.qbyte
  · rw [packets_append_of_none ht]
    exact h.bytes

/-- What a call that ends here has sent. -/
theorem SentSoFar.fragmented (h : SentSoFar buf n v w)
    (hall : v.nleft = 0 ∨ ∃ y ∈ w.trace, y.1.AsksToStop) :
    Fragmented buf n (n - v.nleft, v.buf) w.trace := by
  have hc := h.covers.count
  have hr : n - v.nleft = v.ptr + 1 := by omega
  refine ⟨by dsimp only; omega, h.qbyte, ?_, ?_, h.covers.length, ?_⟩
  · dsimp only
    rw [hr, Nat.add_sub_cancel]
    exact h.bytes
  · exact hall.imp_left fun hz => by rw [hz]; rfl
  · dsimp only
    rw [hr]
    exact h.covers.rest

/-- A write of the next packet accepts the Q byte and the payload behind what is sent. -/
theorem SentSoFar.accept (h : SentSoFar buf n v w) (hn : n ≤ buf.length) {m : ℕ}
    (hm : 2 ≤ m) (hle : m ≤ v.nleft + 1) (s : SockState) :
    SentSoFar buf n { v.planted (buf.headD 0) with
        cerr := 0, nleft := v.nleft + 1 - m, ptr := v.ptr + m - 1 }
      ⟨s, w.trace ++ [(.write (v.next buf n) (.ok m), w.st)]⟩ := by
  obtain ⟨k, rfl⟩ : ∃ k, m = k + 1 := ⟨m - 1, by omega⟩
  have hc := h.covers.count
  have hl := h.covers.length
  -- of the packet offered, the Q byte and `k` bytes of the payload are accepted
  have hone : packets [(SockCall.write (v.next buf n) (.ok (k + 1)), w.st)] =
      [buf.headD 0 :: ((payloadOf buf n).drop v.ptr).take k] := rfl
  constructor
  · refine (h.covers.plant (buf.headD 0)).accept (by omega) hle ?_
    dsimp only
    rw [List.length_set]
    omega
  · rw [packets_append, hone]
    intro p hp
    rcases List.mem_append.mp hp with hp | hp
    · exact h.qbyte p hp
    · rw [List.mem_singleton.mp hp]
      rfl
  · rw [packets_append, hone, List.flatMap_append, h.bytes, List.flatMap_singleton, List.tail_cons,
      ← List.take_add]
    rfl

/-- One round keeps what was sent, or ends with it. -/
theorem roundCases_fragment (h : SentSoFar buf n v w) (hn : n ≤ buf.length) :
    RoundCases x buf n v w fun r w' => r.elim (fun v' => SentSoFar buf n v' w')
      fun a => Fragmented buf n a w'.trace where
  done hz := h.fragmented (Or.inl hz)
  accepted m s hm hle _ := h.accept hn hm hle s
  resumed r s s' _ _ _ := by
    rw [List.append_assoc]
    exact h.plant (by simp [SockCall.packet]) v.cerr
  stopped s s' := by
    rw [List.append_assoc]
    refine (h.plant (t := _) (by simp [SockCall.packet]) v.cerr).fragmented (Or.inr ?_)
    exact ⟨(.interHandler 0, s), by simp, rfl⟩
  failed er s _ _ _ := h.plant (by simp [SockCall.packet]) _
  gaveUp er r s s' _ _ := by
    rw [List.append_assoc]
    refine (h.plant (t := _) (by simp [SockCall.packet]) v.cerr).fragmented (Or.inr ?_)
    exact ⟨(.errorHandler r, s), by simp, trivial⟩

/-- **However the writes are cut**, interrupted or refused, a call that returns `r` has sent the
first `r - 1` bytes of the payload, each packet behind the Q byte, and left the buffer behind them
alone. -/
theorem writensockint_fragmented (hx : x.Sound) (h2 : 2 ≤ n) (hn : n ≤ buf.length) {s : SockState}
    {es es' : List Unit} {w' : Run SockCall SockState} {r : ℕ × List UInt8}
    (hr : x.surroundings.writensockint buf n es ⟨s, []⟩ = (w', some (r, es'))) :
    Fragmented buf n r w'.trace := by
  have hwp : wp (fun _ => True) (fun _ => True) (x.surroundings.writensockint buf n)
      (fun r w' => Fragmented buf n r w'.trace) ⟨s, []⟩ := by
    unfold Surroundings.writensockint
    rw [if_neg (by omega), Int.toNat_natCast]
    refine wp_iter (SentSoFar buf n) (fun _ _ _ => trivial)
      (fun v w h => wp_round (roundCases_fragment h hn) hx h.covers hn)
      ⟨⟨by dsimp only; omega, by dsimp only; omega, rfl, rfl⟩, by simp [packets], rfl⟩
  exact post_of_wp hwp (fun _ _ => trivial) hr

end Fragments

/-- Three bytes of payload in two packets, with an interrupt between them. -/
theorem fragmented_interrupted : ∃ r t, Fragmented [1, 10, 20, 30] 4 r t ∧ r.1 = 4 ∧
    packets t = [[1, 10], [1, 20, 30]] := by
  let x : Answers :=
    { outcome := fun i => if i = 0 then .ok 2 else if i = 1 then .error .eintr else .ok 9
      handler := fun _ => (1, .other 0) }
  have hx : x.Sound := by
    intro i k h
    dsimp only [x] at h
    split at h
    · cases h; decide
    · split at h
      · cases h
      · cases h; decide
  have hr : ∃ w' r es', x.surroundings.writensockint [1, 10, 20, 30] 4 (List.replicate 6 ())
      ⟨{}, []⟩ = (w', some (r, es')) ∧ r.1 = 4 ∧ packets w'.trace = [[1, 10], [1, 20, 30]] :=
    ⟨_, _, _, rfl, rfl, rfl⟩
  obtain ⟨w', r, es', hr, hlast⟩ := hr
  exact ⟨r, w'.trace, writensockint_fragmented hx (by decide) (by decide) hr, hlast⟩

end PadSvr
