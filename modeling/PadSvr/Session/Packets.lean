import PadSvr.Session.Inter

/-!
# Packets to the X.25 socket

What one call of `writensockint` does, whatever its writes accept and whenever it is interrupted:
the packets the socket accepts carry a prefix of the payload, and a call that gives up early has
set `Done`.

## Main definitions

* `accepted t`, `received t`: the byte streams of a trace
* `Sent E q payload k w w'`: `k` bytes of `payload` sent, as packets with Q byte `q`

## Main results

* `wp_writensockint`: `writensockint` sends a prefix, and all of it unless it sets `Done`
-/

namespace PadSvr

open Scripted Scripted.Prog

/-! ## The byte streams of a trace -/

/-- The bytes after the Q byte that a call makes the X.25 socket accept. -/
def Event.accepted : Event → List UInt8
  | .writeSock pkt (.ok k) => (pkt.take k).tail
  | _ => []

/-- The bytes that a call reads from the master. -/
def Event.received : Event → List UInt8
  | .readMaster _ _ (.ok data) => data
  | _ => []

/-- The payloads the X.25 socket has accepted, in order. -/
def accepted (t : STrace) : List UInt8 := t.flatMap fun x => x.1.accepted

/-- The bytes read from the master, in order. -/
def received (t : STrace) : List UInt8 := t.flatMap fun x => x.1.received

@[simp] theorem accepted_nil : accepted [] = [] := rfl

@[simp] theorem accepted_append (t t' : STrace) :
    accepted (t ++ t') = accepted t ++ accepted t' := List.flatMap_append

@[simp] theorem accepted_singleton (x : Event × Session) : accepted [x] = x.1.accepted := by
  simp [accepted]

@[simp] theorem received_nil : received [] = [] := rfl

@[simp] theorem received_append (t t' : STrace) :
    received (t ++ t') = received t ++ received t' := List.flatMap_append

@[simp] theorem received_singleton (x : Event × Session) : received [x] = x.1.received := by
  simp [received]

/-! ## What `writensockint` does -/

/-- A call of `writensockint` with Q byte `q`: a reload, or a write of a packet that starts with
`q`. -/
def Event.IsPacket (q : UInt8) : Event → Prop
  | .reload _ => True
  | .writeSock pkt _ => pkt.head? = some q
  | _ => False

theorem Event.IsPacket.eq {q : UInt8} {k : Event} (h : k.IsPacket q) :
    (∃ file, k = .reload file) ∨ ∃ pkt res, k = .writeSock pkt res ∧ pkt.head? = some q := by
  cases k with
  | reload file => exact Or.inl ⟨file, rfl⟩
  | writeSock pkt res => exact Or.inr ⟨pkt, res, rfl, h⟩
  | _ => exact h.elim

theorem Event.IsReload.isPacket {q : UInt8} {k : Event} (h : k.IsReload) : k.IsPacket q := by
  obtain ⟨file, rfl⟩ := h.eq
  trivial

/-- A write accepts something, or is interrupted. -/
def Writes : Except Errno ℕ → Bool
  | .ok k => 0 < k
  | .error er => er = .eintr

/-- What `writensockint` can do to a session. -/
structure Sending (E : Env → Prop) (s s' : Session) : Prop where
  loc : s'.loc = s.loc
  bufn : s'.bufn = s.bufn
  bufd : s'.bufd = s.bufd
  done : s.done ≠ 0 → s'.done ≠ 0
  cfg : CfgReach E s.cfg s'.cfg
  calm : (∀ e, E e → e.Calm) → s.Calm → s'.Calm ∧ (s'.done = s.done ∨ s'.done = 10)
  closed : s.sys.closed = true → s'.sys.closed = true ∧ s'.sys.pty = s.sys.pty

variable {E : Env → Prop}

instance : Std.Refl (Sending E) where
  refl _ := ⟨rfl, rfl, rfl, id, .refl, fun _ h => ⟨h, Or.inl rfl⟩, fun h => ⟨h, rfl⟩⟩

instance : IsTrans Session (Sending E) where
  trans _ _ _ h h' :=
    { loc := h'.loc.trans h.loc
      bufn := h'.bufn.trans h.bufn
      bufd := h'.bufd.trans h.bufd
      done := fun hd => h'.done (h.done hd)
      cfg := h.cfg.trans h'.cfg
      calm := fun hE hc => by
        obtain ⟨hc', hd⟩ := h.calm hE hc
        obtain ⟨hc'', hd' | hd'⟩ := h'.calm hE hc'
        · exact ⟨hc'', hd' ▸ hd⟩
        · exact ⟨hc'', Or.inr hd'⟩
      closed := fun hc =>
        have ⟨hc', hp⟩ := h.closed hc
        have ⟨hc'', hp'⟩ := h'.closed hc'
        ⟨hc'', hp'.trans hp⟩ }

theorem Handled.sending {s s' : Session} (h : Handled E s s') : Sending E s s' where
  loc := h.loc
  bufn := h.bufn
  bufd := h.bufd
  done := fun hd => by rcases h.done with h | h | h <;> omega
  cfg := h.cfg
  calm := fun hE hc => ⟨(h.calm hE hc).1, Or.inl (h.calm hE hc).2⟩
  closed := h.closed

/-- `writensockint` has sent `k` bytes of `payload`, as packets with Q byte `q`. -/
structure Sent (E : Env → Prop) (q : UInt8) (payload : List UInt8) (k : ℕ) (w w' : SRun) :
    Prop where
  state : Sending E w.st w'.st
  trace : ∃ t, w'.trace = w.trace ++ t ∧ (∀ x ∈ t, Sending E w.st x.2 ∧ x.1.IsPacket q) ∧
    accepted t = payload.take k ∧
    -- no reload comes before the first packet
    (t = [] → w'.st.cfg = w.st.cfg) ∧
    ∀ x ∈ t.head?, (∃ pkt res, x.1 = .writeSock pkt res) ∧ x.2.cfg = w.st.cfg

section Sent

variable {q : UInt8} {payload : List UInt8} {k : ℕ} {w w' w'' : SRun}

theorem Sent.refl (w : SRun) : Sent E q payload 0 w w :=
  ⟨Std.Refl.refl w.st, [], by simp⟩

theorem accepted_eq_nil {t : STrace} (h : ∀ x ∈ t, x.1.accepted = []) : accepted t = [] :=
  List.flatMap_eq_nil_iff.mpr h

/-- A write of a packet, and what it accepts. -/
theorem Sent.write (h : Sent E q payload k w w') {e : Env} (he : E e) {n : ℕ} {pkt : List UInt8}
    {res : Except Errno ℕ} (hpkt : pkt.head? = some q)
    (hacc : Event.accepted (.writeSock pkt res) = (payload.drop k).take n) (er : Errno) :
    Sent E q payload (k + n) w
      ⟨{ deliver e w'.st with sys := { (deliver e w'.st).sys with errno := er } },
        w'.trace ++ [(.writeSock pkt res, deliver e w'.st)]⟩ := by
  obtain ⟨t, ht, hp, ha, hnil, hfirst⟩ := h.trace
  have hd : Sending E w.st (deliver e w'.st) :=
    IsTrans.trans _ _ _ h.state (noted_deliver e he w'.st).toHandled.sending
  refine ⟨⟨hd.loc, hd.bufn, hd.bufd, hd.done, hd.cfg, hd.calm, hd.closed⟩, t ++ [_],
    by rw [ht, List.append_assoc], ?_, ?_, by simp, ?_⟩
  · intro x hx
    rcases List.mem_append.mp hx with hx | hx
    · exact hp x hx
    · rw [List.mem_singleton.mp hx]
      exact ⟨hd, hpkt⟩
  · rw [accepted_append, accepted_singleton, ha, hacc, ← List.take_add]
  · rcases t with _ | ⟨y, t⟩
    · simpa using hnil rfl
    · simpa using hfirst

/-- What `do_inter` does between two packets. -/
theorem Sent.inter (h : Sent E q payload k w w') (hlt : w.trace.length < w'.trace.length)
    (hs : Served E w' w'') : Sent E q payload k w w'' := by
  obtain ⟨t, ht, hp, ha, -, hfirst⟩ := h.trace
  obtain ⟨hs, t', ht', hr⟩ := hs
  have htne : t ≠ [] := by
    rintro rfl
    simp [ht] at hlt
  refine ⟨IsTrans.trans _ _ _ h.state hs.sending, t ++ t', by rw [ht', ht, List.append_assoc],
    ?_, ?_, fun hnil => absurd (List.append_eq_nil_iff.mp hnil).1 htne, ?_⟩
  · intro x hx
    rcases List.mem_append.mp hx with hx | hx
    · exact hp x hx
    · obtain ⟨hx₁, hx₂⟩ := hr x hx
      exact ⟨IsTrans.trans _ _ _ h.state hx₁.sending, hx₂.isPacket⟩
  · rw [accepted_append, ha, accepted_eq_nil fun x hx => ?_, List.append_nil]
    obtain ⟨file, hf⟩ := (hr x hx).2.eq
    rw [hf]
    rfl
  · rcases t with _ | ⟨y, t⟩
    · exact absurd rfl htne
    · simpa using hfirst

/-- The packets of a call, whatever came before them. -/
theorem Sent.always {G : STrace → Event → Session → Prop} (hs : Sent E q payload k w w')
    (h : Always G w.trace) (hG : ∀ t k s, k.IsPacket q → G t k s) : Always G w'.trace := by
  obtain ⟨t, ht, hx, -⟩ := hs.trace
  rw [ht]
  exact always_append h fun x hm t₁ => hG t₁ x.1 x.2 (hx x hm).2

theorem Sent.length_le (h : Sent E q payload k w w') : w.trace.length ≤ w'.trace.length := by
  obtain ⟨t, ht, -⟩ := h.trace
  simp [ht]

theorem Sent.wrError (h : Sent E q payload k w w') :
    Sent E q payload k w ⟨{ w'.st with done := 10 }, w'.trace⟩ :=
  have hs := h.state
  ⟨⟨hs.loc, hs.bufn, hs.bufd, by simp, hs.cfg, fun hE hc => ⟨(hs.calm hE hc).1, Or.inr rfl⟩,
    hs.closed⟩, h.trace⟩

end Sent

/-- The invariant of the loop of `writensockint`: `ptr` bytes of the payload are sent, and the
bytes behind `ptr` are those of the buffer. -/
structure Writing (E : Env → Prop) (buf : List UInt8) (n : ℕ) (w : SRun) (v : WriteVars)
    (w' : SRun) : Prop where
  count : v.ptr + v.nleft + 1 = n
  lt : v.ptr < v.buf.length
  length : v.buf.length = buf.length
  head : v.buf.headD 0 = buf.headD 0
  rest : v.buf.drop (v.ptr + 1) = buf.drop (v.ptr + 1)
  done : w'.st.done = w.st.done
  any : v.nleft = 0 → w.trace.length < w'.trace.length
  sent : Sent E (buf.headD 0) ((buf.drop 1).take (n - 1)) v.ptr w w'

/-- The result of `writensockint`: the number of bytes sent with the Q byte, and the buffer. -/
structure Written (E : Env → Prop) (buf : List UInt8) (n : ℕ) (w : SRun) (r : ℕ × List UInt8)
    (w' : SRun) : Prop where
  pos : 0 < r.1
  le : r.1 ≤ n
  all : r.1 = n ∧ w'.st.done = w.st.done ∨ w'.st.done = 7 ∨ w'.st.done = 8 ∨ w'.st.done = 10
  writes : (∀ e, E e → Writes e.wsock) → w'.st.done = w.st.done ∨ w'.st.done = 7 ∨ w'.st.done = 8
  length : r.2.length = buf.length
  head : r.2.headD 0 = buf.headD 0
  any : w.trace.length < w'.trace.length
  sent : Sent E (buf.headD 0) ((buf.drop 1).take (n - 1)) (r.1 - 1) w w'

section Writensockint

variable {buf : List UInt8} {n : ℕ} {w w' : SRun} {v : WriteVars}

theorem headD_set {l : List UInt8} {q : UInt8} (h : l.headD 0 = q) (p : ℕ) :
    (l.set p q).headD 0 = q := by
  cases l with
  | nil => exact h
  | cons b l =>
    cases p with
    | zero => rfl
    | succ p => exact h

theorem Writing.covers (h : Writing E buf n w v w') : v.Covers buf n :=
  ⟨h.count, h.lt, h.length, h.rest⟩

theorem Writing.plant (h : Writing E buf n w v w') :
    Writing E buf n w { v with buf := v.buf.set v.ptr (buf.headD 0) } w' where
  count := h.count
  lt := (h.covers.plant _).lt
  length := (h.covers.plant _).length
  head := headD_set h.head v.ptr
  rest := (h.covers.plant _).rest
  done := h.done
  any := h.any
  sent := h.sent

/-- A write that accepts nothing. -/
theorem Writing.nothing (h : Writing E buf n w v w') {e : Env} (he : E e) {pkt : List UInt8}
    {res : Except Errno ℕ} (hpkt : pkt.head? = some (buf.headD 0))
    (hacc : Event.accepted (.writeSock pkt res) = []) (er : Errno) :
    Writing E buf n w v
      ⟨{ deliver e w'.st with sys := { (deliver e w'.st).sys with errno := er } },
        w'.trace ++ [(.writeSock pkt res, deliver e w'.st)]⟩ where
  count := h.count
  lt := h.lt
  length := h.length
  head := h.head
  rest := h.rest
  done := by simpa using h.done
  any := fun _ => by
    have hle := h.sent.length_le
    rw [List.length_append, List.length_singleton]
    omega
  sent := by simpa using h.sent.write he hpkt (n := 0) (by simpa using hacc) er

/-- A write that accepts `m` bytes, the Q byte among them. -/
theorem Writing.some (h : Writing E buf n w v w') {e : Env} (he : E e)
    {m : ℕ} (hm : 0 < m) (hle : m ≤ v.nleft + 1) (hlt : v.ptr + m ≤ v.buf.length)
    {pkt : List UInt8} (hpkt : pkt = buf.headD 0 :: ((buf.drop 1).take (n - 1)).drop v.ptr) :
    Writing E buf n w { v with cerr := 0, nleft := v.nleft + 1 - m, ptr := v.ptr + m - 1 }
      ⟨deliver e w'.st, w'.trace ++ [(.writeSock pkt (.ok m), deliver e w'.st)]⟩ where
  count := (h.covers.accept hm hle hlt).count
  lt := (h.covers.accept hm hle hlt).lt
  length := h.length
  head := h.head
  rest := (h.covers.accept hm hle hlt).rest
  done := by simpa using h.done
  any := fun _ => by
    have hle := h.sent.length_le
    rw [List.length_append, List.length_singleton]
    omega
  sent := by
    have hacc : Event.accepted (.writeSock pkt (.ok m)) =
        (((buf.drop 1).take (n - 1)).drop v.ptr).take (m - 1) := by
      obtain ⟨k, rfl⟩ : ∃ k, m = k + 1 := ⟨m - 1, by omega⟩
      simp [Event.accepted, hpkt]
    rw [Nat.add_sub_assoc hm v.ptr]
    exact h.sent.write he (by simp [hpkt]) hacc (deliver e w'.st).sys.errno

theorem Writing.inter (h : Writing E buf n w v w') (hlt : w.trace.length < w'.trace.length)
    {w'' : SRun} (hs : Served E w' w'') (hd : w''.st.done = w'.st.done) :
    Writing E buf n w v w'' where
  count := h.count
  lt := h.lt
  length := h.length
  head := h.head
  rest := h.rest
  done := hd.trans h.done
  any := fun _ => by
    obtain ⟨-, t', ht', -⟩ := hs
    rw [ht', List.length_append]
    omega
  sent := h.sent.inter hlt hs

/-- The result of a loop that ends with `nleft` bytes left. -/
theorem Writing.written {w'' : SRun} (h : Writing E buf n w v w')
    (hs : Sent E (buf.headD 0) ((buf.drop 1).take (n - 1)) v.ptr w w'')
    (hlt : w.trace.length < w''.trace.length)
    (hall : v.nleft = 0 ∧ w''.st.done = w.st.done ∨ w''.st.done = 7 ∨ w''.st.done = 8 ∨
      w''.st.done = 10)
    (hw : (∀ e, E e → Writes e.wsock) →
      w''.st.done = w.st.done ∨ w''.st.done = 7 ∨ w''.st.done = 8) :
    Written E buf n w (n - v.nleft, v.buf) w'' := by
  have hc := h.count
  refine ⟨by dsimp only; omega, Nat.sub_le _ _, ?_, hw, h.length, h.head, hlt, ?_⟩
  · rcases hall with ⟨hz, hd⟩ | hd
    · exact Or.inl ⟨by rw [hz]; rfl, hd⟩
    · exact Or.inr hd
  · have hk : n - v.nleft - 1 = v.ptr := by omega
    rwa [hk]

/-- What follows a write that accepts nothing. -/
theorem wp_writensockintFailed (h : Writing E buf n w v w')
    (hlt : w.trace.length < w'.trace.length)
    (hw : (∀ e, E e → Writes e.wsock) → w'.st.sys.errno = .eintr) :
    wp E (fun w' => ∃ k, Sent E (buf.headD 0) ((buf.drop 1).take (n - 1)) k w w')
      (writensockintFailed n doInter wrError v)
      (fun r w'' => r.elim (fun v' => Writing E buf n w v' w'') fun a => Written E buf n w a w'')
      w' := by
  have hgrow : ∀ w'', Served E w' w'' → w.trace.length < w''.trace.length := by
    rintro w'' ⟨-, t, ht, -⟩
    rw [ht, List.length_append]
    omega
  refine wp_bind (wp_get ?_)
  split
  · refine wp_bind (wp_mono (wp_doInter w') (fun w'' hs => ⟨_, h.sent.inter hlt hs⟩)
      fun r w'' hr => ?_)
    obtain ⟨hs, ⟨rfl, hd⟩ | ⟨rfl, hd⟩⟩ := hr
    · exact wp_pure (h.inter hlt hs hd)
    · refine wp_pure (h.written (h.sent.inter hlt hs) (hgrow w'' hs) (Or.inr ?_) fun _ =>
        Or.inr hd)
      exact hd.imp_right Or.inl
  · next hne =>
    split
    · exact wp_pure ⟨h.count, h.lt, h.length, h.head, h.rest, h.done, h.any, h.sent⟩
    · refine wp_bind (wp_bind (wp_modify (wp_pure (wp_pure ?_))))
      exact h.written h.sent.wrError hlt (by simp) fun hE => absurd (hw hE) hne

/-- One round keeps the invariant, or ends with the result. -/
theorem wp_writensockintRound (h : Writing E buf n w v w') :
    wp E (fun w' => ∃ k, Sent E (buf.headD 0) ((buf.drop 1).take (n - 1)) k w w')
      (writensockintRound (buf.headD 0) n doInter wrError v)
      (fun r w'' => r.elim (fun v' => Writing E buf n w v' w'') fun a => Written E buf n w a w'')
      w' := by
  unfold writensockintRound
  split
  · next hz =>
    exact wp_pure (h.written h.sent (h.any hz) (Or.inl ⟨hz, h.done⟩) fun _ => Or.inl h.done)
  · have hp := h.plant
    have hpkt := h.covers.packet_eq (buf.headD 0)
    have hlen : (WriteVars.packet { v with buf := v.buf.set v.ptr (buf.headD 0) }).length ≤
        v.nleft + 1 := List.length_take_le _ _
    have hlt : v.ptr + (WriteVars.packet
        { v with buf := v.buf.set v.ptr (buf.headD 0) }).length ≤ v.buf.length := by
      have := h.lt
      simp only [WriteVars.packet, List.length_take, List.length_drop, List.length_set]
      omega
    -- the write is one call more, whatever comes of it
    have hgrow : ∀ x, w.trace.length < (w'.trace ++ [x]).length := fun x => by
      rw [List.length_append]
      exact Nat.lt_succ_of_le h.sent.length_le
    dsimp only
    generalize WriteVars.packet { v with buf := v.buf.set v.ptr (buf.headD 0) } = pkt at *
    have hhead : pkt.head? = some (buf.headD 0) := by rw [hpkt, List.head?_cons]
    refine wp_bind (wp_writeSock ⟨_, h.sent⟩ (fun e he er hw => ?_) fun e he k hw => ?_)
    · -- the write fails
      refine wp_writensockintFailed (hp.nothing he hhead rfl er) (hgrow _) fun hE => ?_
      simpa [Writes, hw] using hE e he
    · split
      · -- it accepts no byte at all
        next hz =>
        have hz' : min k pkt.length = 0 := by omega
        refine wp_writensockintFailed (hp.nothing he hhead (by simp [Event.accepted, hz'])
          (deliver e w'.st).sys.errno) (hgrow _) fun hE => ?_
        have hk : 0 < k := by simpa [Writes, hw] using hE e he
        rw [hpkt, List.length_cons] at hz'
        omega
      · next hz =>
        exact wp_pure (hp.some he (m := min k pkt.length) (by omega) (by dsimp only; omega)
          (by simp only [List.length_set]; omega) hpkt)

/-- **What a call of `writensockint` does.** It sends a prefix of the payload and returns how much;
unless that is all of it, `Done` is set. -/
theorem wp_writensockint (h2 : 2 ≤ n) (hb : buf ≠ []) (w : SRun) :
    wp E (fun w' => ∃ k, Sent E (buf.headD 0) ((buf.drop 1).take (n - 1)) k w w')
      (writensockint buf n doInter wrError) (Written E buf n w) w := by
  unfold writensockint
  rw [if_neg (by omega)]
  refine wp_iter (Writing E buf n w) (fun v w' h => ⟨_, h.sent⟩)
    (fun v w' h => wp_writensockintRound h)
    ⟨?_, List.length_pos_iff.mpr hb, rfl, rfl, rfl, rfl, ?_, .refl w⟩
  · dsimp only
    omega
  · dsimp only
    omega

end Writensockint

end PadSvr
