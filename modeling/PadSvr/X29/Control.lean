import PadSvr.Session.Packets
import PadSvr.X29.SetDefault
import Mathlib.Data.List.Infix

/-!
# Writing the X.29 control messages

`x29set_default` and `x29inv_clear` hand their message to `writensockint` with handlers of their
own. A signal that asks for an exit ends the process inside the handler. After any other signal the
handler returns 0, and `writensockint` gives the message up.

## Main definitions

* `x29DoInter`, `x29WrError`: the two handlers
* `controlWrite`, `x29SetDefault`, `x29InvClear`: the messages
* `writeOutcome`, `failuresInRow`: what the writes of a trace came to

## Main results

* `x29DoInter_exits`: a handler that is entered with an exit flag up does not return
* `x29_control_iff`: when a call that returns has sent the message, or has met three failures
-/

namespace PadSvr

open Scripted Scripted.Prog

/-- `do_inter` of `x29proto.c`. `Exit` does not return. -/
def x29DoInter : SProg ℤ := do
  let _ ← onFlag Flags.hup interHup 0 0
  if ← test fun s => s.flags.alrm then
    assign fun s => { s with flags := { s.flags with alrm := false } }
    Prog.stop
  else if ← test fun s => s.flags.exit then
    assign fun s => { s with flags := { s.flags with exit := false } }
    Prog.stop
  else
    -- this 0 makes `writensockint` return
    pure 0

/-- `wr_error` of `x29proto.c`. -/
def x29WrError : SProg ℤ := pure 0

/-- A control message on its way to the socket. -/
def controlWrite (msg : List UInt8) : SProg (ℕ × List UInt8) :=
  writensockint msg msg.length x29DoInter x29WrError

/-- `x29set_default`, with the pairs `behind` behind the default table. A fault of the copy loop
ends the process. -/
def x29SetDefault (behind : List X29Par) : SProg Unit := do
  match x29SetMessage behind (← Prog.get).cfg with
  | .error _ => Prog.stop
  | .ok none => pure ()
  | .ok (some msg) =>
    let _ ← controlWrite msg

/-- `x29inv_clear`. -/
def x29InvClear : SProg Unit := do
  let _ ← controlWrite [0x01, x29InvitationToClear]

/-! ## What the writes of a trace came to -/

/-- What a write came to. One that accepts nothing counts as interrupted while `errno` says so. -/
inductive Outcome
  | success
  | interrupted
  | failure
deriving DecidableEq, Repr

/-- The outcome of a write to the socket, made in the state beside it. -/
def writeOutcome : Event × Session → Option Outcome
  | (.writeSock _ (.ok k), s) =>
    if 0 < k then some .success
    else if s.sys.errno = .eintr then some .interrupted else some .failure
  | (.writeSock _ (.error er), _) => if er = .eintr then some .interrupted else some .failure
  | _ => none

/-- The failures after the last success, when a write comes to `x`. -/
def countFailure (n : ℕ) (x : Event × Session) : ℕ :=
  match writeOutcome x with
  | some .success => 0
  | some .failure => n + 1
  | _ => n

/-- The failures of a trace with no success after them. -/
def failuresInRow (t : STrace) : ℕ := t.foldl countFailure 0

/-- No write of the trace was interrupted. -/
def Uninterrupted (t : STrace) : Prop := ∀ x ∈ t, writeOutcome x ≠ some .interrupted

/-- At some point of the trace three writes had failed with no success between them. -/
def GaveUp (t : STrace) : Prop := ∃ t₁, t₁ <+: t ∧ maxErrorWrite ≤ failuresInRow t₁

instance (t : STrace) : Decidable (GaveUp t) :=
  decidable_of_iff (∃ t₁ ∈ t.inits, maxErrorWrite ≤ failuresInRow t₁)
    (by simp only [List.mem_inits, GaveUp])

instance (t : STrace) : Decidable (Uninterrupted t) :=
  inferInstanceAs (Decidable (∀ x ∈ t, writeOutcome x ≠ some .interrupted))

@[simp] theorem failuresInRow_nil : failuresInRow [] = 0 := rfl

@[simp] theorem failuresInRow_concat (t : STrace) (x : Event × Session) :
    failuresInRow (t ++ [x]) = countFailure (failuresInRow t) x := by
  simp [failuresInRow]

@[simp] theorem uninterrupted_concat {t : STrace} {x : Event × Session} :
    Uninterrupted (t ++ [x]) ↔ Uninterrupted t ∧ writeOutcome x ≠ some .interrupted := by
  simp [Uninterrupted, or_imp, forall_and]

theorem not_gaveUp_nil : ¬ GaveUp [] := by
  rintro ⟨t₁, ht, h3⟩
  rw [List.prefix_nil.mp ht] at h3
  simp [maxErrorWrite] at h3

theorem gaveUp_concat {t : STrace} {x : Event × Session} :
    GaveUp (t ++ [x]) ↔ GaveUp t ∨ maxErrorWrite ≤ countFailure (failuresInRow t) x := by
  constructor
  · rintro ⟨t₁, ht, h3⟩
    rcases List.prefix_concat_iff.mp ht with rfl | ht
    · exact Or.inr (by simpa using h3)
    · exact Or.inl ⟨t₁, ht, h3⟩
  · rintro (⟨t₁, ht, h3⟩ | h3)
    · exact ⟨t₁, ht.trans (List.prefix_append _ _), h3⟩
    · exact ⟨t ++ [x], List.prefix_refl _, by simpa using h3⟩

/-- Events that are no writes change nothing here. -/
theorem writes_append {t t' : STrace} (h : ∀ x ∈ t', writeOutcome x = none) :
    failuresInRow (t ++ t') = failuresInRow t ∧ (Uninterrupted (t ++ t') ↔ Uninterrupted t) ∧
      (GaveUp (t ++ t') ↔ GaveUp t) := by
  induction t' using List.reverseRecOn with
  | nil => simp
  | append_singleton t' x ih =>
    have hx : writeOutcome x = none := h x (by simp)
    obtain ⟨hrow, hun, hgave⟩ := ih fun y hy => h y (by simp [hy])
    have hcount : ∀ n, countFailure n x = n := fun n => by simp [countFailure, hx]
    rw [← List.append_assoc, failuresInRow_concat, uninterrupted_concat, gaveUp_concat, hcount,
      hrow, hun, hgave, hx]
    refine ⟨rfl, by simp, ?_⟩
    constructor
    · rintro (hg | h3)
      · exact hg
      · exact ⟨t, List.prefix_refl _, h3⟩
    · exact Or.inl

/-! ## What a call does -/

section Handler

variable {E : Env → Prop}

/-- What the handler does when it returns: it has handled a hang-up at most, and the result is
always 0. -/
theorem wp_x29DoInter (w : SRun) :
    wp E (fun _ => True) x29DoInter (fun r w' => r = 0 ∧ Quiet E w w') w := by
  unfold x29DoInter
  have hquiet : ∀ w', Quiet E w w' → ∀ e, E e → Quiet E w ⟨deliver e w'.st, w'.trace⟩ :=
    fun w' h e he => h.trans (.of_rel (noted_deliver e he w'.st))
  refine wp_seq (wp_onFlag (P := fun _ => Quiet E w) (I := fun _ => True)
    (fun _ _ => trivial) (fun w' e he h => hquiet w' h e he) (fun w' _ h => ?_) (.refl w))
    fun _ w₁ h₁ => ?_
  · exact wp_mono (keeps_interHup_quiet w w' h) (fun _ _ => trivial) fun _ _ h => h
  · refine wp_bind (wp_test trivial fun e he => ?_)
    have h₂ := hquiet w₁ h₁ e he
    split
    · exact wp_bind (wp_assign trivial fun _ _ => wp_stop trivial)
    · refine wp_bind (wp_test trivial fun e' he' => ?_)
      have h₃ := hquiet _ h₂ e' he'
      split
      · exact wp_bind (wp_assign trivial fun _ _ => wp_stop trivial)
      · exact wp_pure ⟨rfl, h₃⟩

/-- A flag that asks for an exit stays up until it is handled. -/
theorem deliver_raises (e : Env) (s : Session) :
    (s.flags.alrm = true → (deliver e s).flags.alrm = true) ∧
      (s.flags.exit = true → (deliver e s).flags.exit = true) := by
  have key : ∀ (hs : List Happening) (s' : Session),
      (s.flags.alrm = true → s'.flags.alrm = true) ∧
        (s.flags.exit = true → s'.flags.exit = true) →
      (s.flags.alrm = true → (hs.foldl (fun s h => h.run s) s').flags.alrm = true) ∧
        (s.flags.exit = true → (hs.foldl (fun s h => h.run s) s').flags.exit = true) := by
    intro hs
    induction hs with
    | nil => exact fun _ h => h
    | cons x hs ih =>
      rintro s' ⟨ha, he⟩
      refine ih _ ?_
      cases x with
      | signal g =>
        cases g <;> simp_all [Happening.run, Signal.handler, chilSig, chilSigExit, chilSigChld,
          chilSigHup, chilSigAlrm, chilSigIdle]
      | rtimer =>
        by_cases hr : s'.sys.rtimer = true <;>
          simp_all [Happening.run, chilSigIdle, chilSig]
      | wtimer =>
        by_cases hw : s'.sys.wtimer.isSome = true <;>
          simp_all [Happening.run, chilSigAlrm, chilSig]
      | typed bytes =>
        by_cases hr : s'.sys.closed = true <;> simp_all [Happening.run]
      | hangup => exact ⟨ha, he⟩
  exact key e.before s ⟨id, id⟩

theorem not_calm_deliver {s : Session} (e : Env) (h : ¬ s.Calm) : ¬ (deliver e s).Calm := by
  obtain ⟨ha, he⟩ := deliver_raises e s
  rintro ⟨hna, hne⟩
  refine h ⟨?_, ?_⟩
  · by_contra hup
    simp [ha (by simpa using hup)] at hna
  · by_contra hup
    simp [he (by simpa using hup)] at hne

/-- **A handler that is entered with an exit flag up does not return.** -/
theorem x29DoInter_exits {w : SRun} (h : ¬ w.st.Calm) (es : List Env) :
    (x29DoInter es w).2 = none := by
  have hwp : wp (fun _ => True) (fun _ => True) x29DoInter (fun _ _ => False) w := by
    unfold x29DoInter
    -- a hang-up is handled first, and leaves the two flags as they are
    refine wp_seq (wp_onFlag (P := fun _ w' => ¬ w'.st.Calm) (I := fun _ => True)
      (fun _ _ => trivial) (fun _ e _ hw => not_calm_deliver e hw) (fun w' _ hw => ?_) h)
      fun _ w₁ h₁ => ?_
    · refine wp_bind (wp_reload trivial fun e _ b c _ => wp_assign trivial fun e' _ => ?_)
      have h₁ : ¬ (Session.Calm { (deliver e w'.st).failing e.errno with cfg := c }) :=
        not_calm_deliver e hw
      exact not_calm_deliver e' h₁
    · refine wp_bind (wp_test trivial fun e _ => ?_)
      split
      · exact wp_bind (wp_assign trivial fun _ _ => wp_stop trivial)
      · next ha =>
        have hexit : (deliver e w₁.st).flags.exit = true := by
          have hn := not_calm_deliver e h₁
          by_contra hne
          exact hn ⟨by simpa using ha, by simpa using hne⟩
        refine wp_bind (wp_test trivial fun e' _ => ?_)
        rw [if_pos ((deliver_raises e' _).2 hexit)]
        exact wp_bind (wp_assign trivial fun _ _ => wp_stop trivial)
  have hrun := hwp es fun _ _ => trivial
  rcases hr : x29DoInter es w with ⟨w', _ | r⟩
  · rfl
  · rw [hr] at hrun
    exact hrun.1.elim

end Handler

section Write

variable {msg : List UInt8} {s : Session} {w' w'' : SRun} {v : WriteVars}

/-- The loop, with nothing interrupted and fewer than three failures in a row. -/
structure Unbroken (msg : List UInt8) (s : Session) (v : WriteVars) (w' : SRun) : Prop where
  writing : Writing (fun _ => True) msg msg.length ⟨s, []⟩ v w'
  calm : Uninterrupted w'.trace
  row : failuresInRow w'.trace = v.cerr
  few : ¬ GaveUp w'.trace

/-- Where the loop ends: with the message, after three failures, or cut short by an interrupt. -/
inductive Ended (msg : List UInt8) (t : STrace) : Prop
  | sent (ht : accepted t = msg.tail) (hc : Uninterrupted t)
  | gaveUp (ht : GaveUp t) (hc : Uninterrupted t)
  | cut (k : ℕ) (hk : k < msg.tail.length) (ht : accepted t = msg.tail.take k) (hn : ¬ GaveUp t)
    (hi : ¬ Uninterrupted t)

theorem accepted_of_writing {w₀ : SRun} (h : Writing (fun _ => True) msg msg.length w₀ v w')
    (hw₀ : w₀.trace = []) : accepted w'.trace = msg.tail.take v.ptr := by
  obtain ⟨t, ht, -, hacc, -⟩ := h.sent.trace
  have hpayload : (msg.drop 1).take (msg.length - 1) = msg.tail := by
    rw [List.drop_one, List.take_of_length_le (by simp)]
  rw [ht, hw₀, List.nil_append, hacc, hpayload]

/-- A write that accepts nothing: the handler gives up, or the failure is counted. -/
theorem wp_failed_unbroken (hw : Writing (fun _ => True) msg msg.length ⟨s, []⟩ v w')
    (hleft : v.nleft ≠ 0) {t : STrace} {x : Event × Session} (ht : w'.trace = t ++ [x])
    (hcalm : Uninterrupted t) (hrow : failuresInRow t = v.cerr) (hfew : ¬ GaveUp t)
    (hx : writeOutcome x =
      if w'.st.sys.errno = .eintr then some .interrupted else some .failure) :
    wp (fun _ => True) (fun _ => True)
      (writensockintFailed msg.length x29DoInter x29WrError v)
      (fun r w'' => r.elim (fun v' => Unbroken msg s v' w'') fun _ => Ended msg w''.trace) w' := by
  have hacc := accepted_of_writing hw rfl
  unfold writensockintFailed
  refine wp_bind (wp_get ?_)
  split
  · next herr =>
    rw [if_pos herr] at hx
    refine wp_bind (wp_mono (wp_x29DoInter w') (fun _ _ => trivial) fun r w'' hr => ?_)
    obtain ⟨rfl, -, t', ht', hquiet⟩ := hr
    -- the handler reloads at most
    have hother : ∀ y ∈ t', writeOutcome y = none ∧ y.1.accepted = [] := by
      intro y hy
      obtain ⟨k, s'⟩ := y
      obtain ⟨file, rfl⟩ := (hquiet _ hy).2.eq
      exact ⟨rfl, rfl⟩
    obtain ⟨-, hun, hgave⟩ := writes_append (t := w'.trace) fun y hy => (hother y hy).1
    have hcount : ¬ maxErrorWrite ≤ countFailure (failuresInRow t) x := by
      intro h3
      refine hfew ⟨t, List.prefix_refl t, ?_⟩
      simpa [countFailure, hx] using h3
    refine wp_pure (Ended.cut v.ptr ?_ ?_ ?_ ?_)
    · have hc := hw.count
      rw [List.length_tail]
      omega
    · rw [ht', accepted_append, hacc, accepted_eq_nil fun y hy => (hother y hy).2, List.append_nil]
    · rw [ht', hgave, ht, gaveUp_concat, not_or]
      exact ⟨hfew, hcount⟩
    · rw [ht', hun, ht, uninterrupted_concat]
      exact fun h => h.2 hx
  · next herr =>
    rw [if_neg herr] at hx
    have hcalm' : Uninterrupted w'.trace := by
      rw [ht, uninterrupted_concat]
      exact ⟨hcalm, by simp [hx]⟩
    have hcount : countFailure (failuresInRow t) x = v.cerr + 1 := by
      simp [countFailure, hx, hrow]
    split
    · next hlt =>
      refine wp_pure ⟨⟨hw.count, hw.lt, hw.length, hw.head, hw.rest, hw.done, hw.any, hw.sent⟩,
        hcalm', ?_, ?_⟩
      · rw [ht, failuresInRow_concat, hcount]
      · rw [ht, gaveUp_concat, hcount]
        rintro (hg | h3)
        · exact hfew hg
        · omega
    · next hlt =>
      refine wp_bind (wp_pure (wp_pure (Ended.gaveUp ?_ hcalm')))
      rw [ht, gaveUp_concat, hcount]
      exact Or.inr (by omega)

/-- One round keeps the loop unbroken, or ends it. -/
theorem wp_round_unbroken (h : Unbroken msg s v w') :
    wp (fun _ => True) (fun _ => True)
      (writensockintRound (msg.headD 0) msg.length x29DoInter x29WrError v)
      (fun r w'' => r.elim (fun v' => Unbroken msg s v' w'') fun _ => Ended msg w''.trace) w' := by
  have hw := h.writing
  unfold writensockintRound
  split
  -- nothing is left to write: the whole message has been accepted
  · next hz =>
    refine wp_pure (Ended.sent ?_ h.calm)
    have hc := hw.count
    rw [accepted_of_writing hw rfl, List.take_of_length_le]
    rw [List.length_tail]
    omega
  · next hz =>
    have hp := hw.plant
    have hpkt := hw.covers.packet_eq (msg.headD 0)
    have hlen : (WriteVars.packet { v with buf := v.buf.set v.ptr (msg.headD 0) }).length ≤
        v.nleft + 1 := List.length_take_le _ _
    have hlt : v.ptr + (WriteVars.packet
        { v with buf := v.buf.set v.ptr (msg.headD 0) }).length ≤ v.buf.length := by
      have := hw.lt
      simp only [WriteVars.packet, List.length_take, List.length_drop, List.length_set]
      omega
    dsimp only
    -- only the first byte and the length of the packet matter from here on
    generalize WriteVars.packet { v with buf := v.buf.set v.ptr (msg.headD 0) } = pkt at *
    have hhead : pkt.head? = some (msg.headD 0) := by rw [hpkt, List.head?_cons]
    refine wp_bind (wp_writeSock trivial (fun e _ er _ => ?_) fun e _ k _ => ?_)
    · -- the write fails
      exact wp_failed_unbroken (hp.nothing trivial hhead rfl er) hz rfl h.calm h.row h.few
        (by simp [writeOutcome])
    · split
      · -- it accepts no byte at all
        next hk =>
        have hk' : min k pkt.length = 0 := by omega
        exact wp_failed_unbroken (hp.nothing trivial hhead (by simp [Event.accepted, hk'])
          (deliver e w'.st).sys.errno) hz rfl h.calm h.row h.few (by simp [writeOutcome, hk'])
      · next hk =>
        have hpos : 0 < min k pkt.length := by omega
        have hout : ∀ st, writeOutcome (.writeSock pkt (.ok (min k pkt.length)), st) =
            some .success := fun st => by rw [writeOutcome, if_pos hpos]
        -- a success ends the row of failures
        refine wp_pure ⟨hp.some trivial (by omega) (by dsimp only; omega)
          (by simp only [List.length_set]; omega) hpkt, ?_, ?_, ?_⟩
        · rw [uninterrupted_concat, hout]
          exact ⟨h.calm, by simp⟩
        · rw [failuresInRow_concat]
          simp [countFailure, hout]
        · rw [gaveUp_concat, not_or]
          exact ⟨h.few, by simp [countFailure, hout, maxErrorWrite]⟩

/-- **Where a call of `writensockint` with the handlers of `x29proto.c` ends.** -/
theorem wp_controlWrite (h2 : 2 ≤ msg.length) (s : Session) :
    wp (fun _ => True) (fun _ => True) (controlWrite msg) (fun _ w' => Ended msg w'.trace)
      ⟨s, []⟩ := by
  have hne : msg ≠ [] := by
    rintro rfl
    simp at h2
  unfold controlWrite writensockint
  rw [if_neg (by omega)]
  refine wp_iter (Unbroken msg s) (fun _ _ _ => trivial) (fun v w' h => wp_round_unbroken h)
    ⟨⟨?_, List.length_pos_iff.mpr hne, rfl, rfl, rfl, rfl, ?_, .refl _⟩, ?_, rfl, not_gaveUp_nil⟩
  · dsimp only
    omega
  · dsimp only
    omega
  · intro x hx
    cases hx

/-- The message was sent or given up after three failures exactly when nothing was interrupted. -/
theorem Ended.iff {t : STrace} (h : Ended msg t) :
    (accepted t = msg.tail ∨ GaveUp t) ↔ Uninterrupted t := by
  cases h with
  | sent ht hc => exact ⟨fun _ => hc, fun _ => Or.inl ht⟩
  | gaveUp ht hc => exact ⟨fun _ => hc, fun _ => Or.inr ht⟩
  | cut k hk ht hn hi =>
    refine ⟨fun hor => ?_, fun hc => absurd hc hi⟩
    rcases hor with hall | hgave
    · have hlen := congrArg List.length (ht.symm.trans hall)
      rw [List.length_take] at hlen
      omega
    · exact absurd hgave hn

end Write

section Message

variable {behind : List X29Par} {msg : List UInt8} {s : Session}

/-- The pairs of a profile are stored behind what is in the message. -/
theorem length_le_of_x29Fill : ∀ (table : List X29Par) (n i : ℕ) (buf msg : List UInt8),
    x29Fill table n i buf = .ok msg → buf.length ≤ msg.length := by
  intro table n
  induction n with
  | zero =>
    intro i buf msg h
    cases h
    exact le_refl _
  | succ n ih =>
    intro i buf msg h
    rw [x29Fill] at h
    split at h
    · cases h
    · split at h
      · have hle := ih _ _ _ h
        rw [List.length_append] at hle
        omega
      · cases h

/-- A Set message has its two first bytes and a pair at least. -/
theorem length_of_x29SetMessage {c : Settings} (h : x29SetMessage behind c = .ok (some msg)) :
    2 ≤ msg.length := by
  have key : ∀ (r : Except Fault (List UInt8)) (b : Prop) [Decidable b],
      r.map (fun buf => if b then some buf else none) = .ok (some msg) → r = .ok msg := by
    rintro (f | buf) b _ hb
    · cases hb
    · by_cases hb' : b
      · simpa [Except.map, hb'] using hb
      · simp [Except.map, hb'] at hb
  by_cases hlen : c.x29ProfileLen = 0
  · simp only [x29SetMessage, if_pos hlen] at h
    exact length_le_of_x29Fill _ _ _ _ _ (key _ _ h)
  · simp only [x29SetMessage, if_neg hlen] at h
    exact length_le_of_x29Fill _ _ _ _ _ (key _ _ h)

/-- **When a control message survives.** A call that returns has sent the whole message, or has met
three failures with no success between them, exactly if none of its writes was interrupted. An
interrupt that finds `Flag_Alrm` or `Flag_Exit` up does not return. -/
theorem x29_control_iff (behind : List X29Par) (s : Session) (es : List Env) :
    (∀ msg, x29SetMessage behind s.cfg = .ok (some msg) →
      (x29SetDefault behind es ⟨s, []⟩).2.isSome →
        (accepted (x29SetDefault behind es ⟨s, []⟩).1.trace = msg.tail ∨
          GaveUp (x29SetDefault behind es ⟨s, []⟩).1.trace ↔
            Uninterrupted (x29SetDefault behind es ⟨s, []⟩).1.trace)) ∧
      ((x29InvClear es ⟨s, []⟩).2.isSome →
        (accepted (x29InvClear es ⟨s, []⟩).1.trace = [x29InvitationToClear] ∨
          GaveUp (x29InvClear es ⟨s, []⟩).1.trace ↔
            Uninterrupted (x29InvClear es ⟨s, []⟩).1.trace)) ∧
      ∀ w, ¬ w.st.Calm → (x29DoInter es w).2 = none := by
  refine ⟨fun msg hmsg hret => ?_, fun hret => ?_, fun w hw => x29DoInter_exits hw es⟩
  · have hwp : wp (fun _ => True) (fun _ => True) (x29SetDefault behind)
        (fun _ w' => Ended msg w'.trace) ⟨s, []⟩ := by
      refine wp_bind (wp_get ?_)
      simp only [hmsg]
      refine wp_seq (wp_controlWrite (length_of_x29SetMessage hmsg) s) fun _ _ h => wp_pure h
    obtain ⟨r, hr⟩ := Option.isSome_iff_exists.mp hret
    exact (post_of_wp hwp (fun _ _ => trivial) (Prod.ext rfl hr)).iff
  · have hwp : wp (fun _ => True) (fun _ => True) x29InvClear
        (fun _ w' => Ended [0x01, x29InvitationToClear] w'.trace) ⟨s, []⟩ :=
      wp_seq (wp_controlWrite (le_refl 2) s) fun _ _ h => wp_pure h
    obtain ⟨r, hr⟩ := Option.isSome_iff_exists.mp hret
    exact (post_of_wp hwp (fun _ _ => trivial) (Prod.ext rfl hr)).iff

/-- An Invitation to Clear that the socket accepts at once. -/
theorem x29_control_willing :
    accepted (x29InvClear (quiet 9) ⟨.fresh 1 32000, []⟩).1.trace = [x29InvitationToClear] ∨
      GaveUp (x29InvClear (quiet 9) ⟨.fresh 1 32000, []⟩).1.trace :=
  ((x29_control_iff [] (.fresh 1 32000) (quiet 9)).2.1 (by decide)).mpr (by decide)

/-- `SIGCHLD` arrives during the write of the Invitation to Clear. -/
def chldScript : List Env :=
  { before := [.signal .chld], wsock := .error .eintr } :: quiet 9

/-- The call returns, and the message is lost. -/
theorem not_x29_control :
    (x29InvClear chldScript ⟨.fresh 1 32000, []⟩).2.isSome ∧
      ¬ (accepted (x29InvClear chldScript ⟨.fresh 1 32000, []⟩).1.trace = [x29InvitationToClear] ∨
        GaveUp (x29InvClear chldScript ⟨.fresh 1 32000, []⟩).1.trace) := by decide

end Message

end PadSvr
