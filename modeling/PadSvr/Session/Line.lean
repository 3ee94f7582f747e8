import PadSvr.Scripted.Protocol
import PadSvr.Session.Shutdown
import PadSvr.Session.Round

/-!
# The line of a session

A session uses its X.25 line in four phases. It sends the Set message, copies, asks the other side
for a clear unless nobody is left there to be asked, and waits until the line is closed and the
login process has ended.

## Main definitions

* `controlNext payload sent k`: a call `k` while a control message is on its way
* `LinePhase`, `lineProtocol payload`: the phases, and the calls each of them allows
* `Closing`: the run has left the loop

## Main results

* `wp_controlWrite_underway`: a control message goes out piece by piece, in order, or is given up
* `wp_doCopyLoop_line`: the loop copies, and its end ends the copying
* `wp_closeLine_line`, `restores_waitExitstatus_closing`: the closing phases
-/

namespace PadSvr

open Scripted Scripted.Prog

/-- How many bytes of a control message have been accepted after a call, `sent` of them before. The
call writes what is left of the message. After a reload of the settings nothing is left to be
written: the handler that reloads them makes `writensockint` give up. -/
def controlNext (payload : List UInt8) (sent : ℕ) : Event → Option ℕ
  | .writeSock pkt res =>
    if sent < payload.length ∧ pkt = 0x01 :: payload.drop sent then
      some (sent + (Event.writeSock pkt res).accepted.length)
    else none
  | .reload _ => some payload.length
  | _ => none

/-- How far a session has come with its line: `sent` counts bytes of the control message, and
`done` is the reason for the end of the loop. -/
inductive LinePhase
  | greeting (sent : ℕ)
  | copying
  | clearing (done sent : ℕ)
  | waiting (done : ℕ)
deriving DecidableEq, Repr

/-- The loop has ended because the socket failed or was closed. -/
def lineGone (done : ℕ) : Prop := done = 10 ∨ done = 2 ∨ done = 9

instance (done : ℕ) : Decidable (lineGone done) :=
  inferInstanceAs (Decidable (_ ∨ _ ∨ _))

/-- What a phase makes of a call, with `payload` for the Set message. -/
def lineNext (payload : List UInt8) : LinePhase → Event → Session → Option LinePhase
  | .greeting _, .loopHead, _ => some .copying
  | .greeting sent, k, _ => (controlNext payload sent k).map .greeting
  | .copying, .loopEnd, s => some (.clearing s.done 0)
  | .copying, .closingPoll _, _ => none
  | .copying, _, _ => some .copying
  | .clearing done _, .closingPoll _, _ => some (.waiting done)
  | .clearing done sent, k, _ =>
    if lineGone done then none
    else (controlNext [x29InvitationToClear] sent k).map (.clearing done)
  | .waiting done, .closingPoll _, _ => some (.waiting done)
  | .waiting done, .readPipe _, _ => some (.waiting done)
  | .waiting done, .readSock _ _, _ => if lineGone done then none else some (.waiting done)
  | .waiting _, _, _ => none

/-- The protocol of the line. -/
def lineProtocol (payload : List UInt8) : Protocol Event Session LinePhase := ⟨lineNext payload⟩

section Control

variable {E : Env → Prop} {τ : Type} {P : Protocol Event Session τ} {q₀ : τ} {q : ℕ → τ}
  {payload : List UInt8} {w : SRun}

/-- The states `q` of the protocol let a control message go out. -/
def Carries (P : Protocol Event Session τ) (payload : List UInt8) (q : ℕ → τ) : Prop :=
  ∀ i j k s, controlNext payload i k = some j → P.next (q i) k s = some (q j)

/-- The message is on its way, or has been given up. -/
def Underway (P : Protocol Event Session τ) (q₀ : τ) (q : ℕ → τ) (w : SRun) : Prop :=
  ∃ i, P.At q₀ (q i) w

/-- `do_inter` of `x29proto.c` reloads the settings at most. -/
theorem keeps_x29DoInter_underway (hP : Carries P payload q) :
    Keeps E (Underway P q₀ q) x29DoInter := by
  have hsilent : ∀ {α : Type} {f : Env → Session → Session × α},
      Keeps E (Underway P q₀ q) (stmt f) := fun w hw => wp_stmt hw fun _ _ => hw
  have hreload : Keeps E (Underway P q₀ q) reload := by
    rintro w ⟨i, hi⟩
    exact wp_reload ⟨i, hi⟩ fun e _ b c _ => ⟨_, hi.call (hP i _ _ _ rfl) _⟩
  have hstop : Keeps E (Underway P q₀ q) (Prog.stop : SProg ℤ) := fun _ hw => wp_stop hw
  unfold x29DoInter onFlag interHup test assign
  exact .bind (.bind hsilent fun _ => .ite (.bind (.bind hreload fun _ => hsilent) fun _ => .pure)
    .pure) fun _ => .bind hsilent fun _ => .ite (.bind hsilent fun _ => hstop)
      (.bind hsilent fun _ => .ite (.bind hsilent fun _ => hstop) .pure)

/-- A write that accepts nothing. Unless the failure is counted, the message is given up. -/
theorem wp_failed_underway (hP : Carries P payload q) {n : ℕ} {v : WriteVars}
    {J : WriteVars → Prop} (hJ : ∀ c, J { v with cerr := c }) (h : P.At q₀ (q v.ptr) w) :
    wp E (Underway P q₀ q) (writensockintFailed n x29DoInter x29WrError v)
      (fun r w' => r.elim (fun v' => P.At q₀ (q v'.ptr) w' ∧ J v') fun _ => Underway P q₀ q w')
      w := by
  unfold writensockintFailed
  refine wp_bind (wp_get ?_)
  split
  · -- the handler returns 0, so nothing is written after what it does
    have hinter : wp E (Underway P q₀ q) x29DoInter
        (fun r w' => r = 0 ∧ Underway P q₀ q w') w :=
      wp_mono (wp_and (keeps_x29DoInter_underway hP w ⟨_, h⟩) (wp_x29DoInter w))
        (fun _ h => h.1) fun _ _ h => ⟨h.2.1, h.1⟩
    refine wp_seq hinter fun r w' h' => ?_
    rw [if_pos h'.1]
    exact wp_pure h'.2
  · split
    · exact wp_pure ⟨h, hJ _⟩
    · exact wp_bind (wp_pure (wp_pure ⟨_, h⟩))

/-- **A control message goes out** piece by piece, in order, or is given up. -/
theorem wp_controlWrite_underway (hP : Carries P payload q) (h : P.At q₀ (q 0) w) :
    wp E (Underway P q₀ q) (controlWrite (0x01 :: payload)) (fun _ => Underway P q₀ q) w := by
  unfold controlWrite writensockint
  split
  · exact wp_pure ⟨0, h⟩
  refine wp_iter (fun v w => P.At q₀ (q v.ptr) w ∧ v.Covers (0x01 :: payload) (payload.length + 1))
    (fun v _ h => ⟨v.ptr, h.1⟩) (fun v w hv => ?_)
    ⟨h, by simp, by simp, rfl, rfl⟩
  obtain ⟨hat, hc⟩ := hv
  unfold writensockintRound
  split
  · exact wp_pure ⟨_, hat⟩
  next hleft =>
  have hplant := hc.plant 0x01
  have hpkt := hc.packet_eq 0x01
  have hcount := hc.count
  have hlen := hc.length
  simp only [List.drop_one, List.tail_cons, Nat.add_sub_cancel, List.take_length] at hpkt
  simp only [List.length_cons] at hlen
  -- a write of what is left, and how many bytes of it are accepted
  have hwrite : ∀ (res : Except Errno ℕ) (s : Session),
      P.next (q v.ptr) (.writeSock (0x01 :: payload.drop v.ptr) res) s =
        some (q (v.ptr + (Event.writeSock (0x01 :: payload.drop v.ptr) res).accepted.length)) :=
    fun res s => hP _ _ _ s (if_pos ⟨by omega, rfl⟩)
  have hfailed : ∀ (w' : SRun), P.At q₀ (q v.ptr) w' → wp E (Underway P q₀ q)
      (writensockintFailed (payload.length + 1) x29DoInter x29WrError
        { v with buf := v.buf.set v.ptr 0x01 })
      (fun r w' => r.elim (fun v' => P.At q₀ (q v'.ptr) w' ∧
        v'.Covers (0x01 :: payload) (payload.length + 1)) fun _ => Underway P q₀ q w') w' :=
    fun w' h' => wp_failed_underway hP (J := fun v' => v'.Covers _ _)
      (fun _ => ⟨hplant.count, hplant.lt, hplant.length, hplant.rest⟩) h'
  dsimp only [List.headD_cons, List.length_cons]
  rw [hpkt]
  refine wp_bind (wp_writeSock ⟨_, hat⟩ (fun e _ er _ => ?_) fun e _ k _ => ?_)
  · rw [if_pos (by decide)]
    exact hfailed _ (hat.call (hwrite (.error er) _) _)
  · set m := min k (0x01 :: payload.drop v.ptr).length with hm
    have hle : m ≤ v.nleft + 1 := by
      simp only [List.length_cons, List.length_drop] at hm
      omega
    have hacc : (Event.writeSock (0x01 :: payload.drop v.ptr) (.ok m)).accepted.length = m - 1 := by
      simp only [Event.accepted, List.length_tail, List.length_take, List.length_cons,
        List.length_drop]
      omega
    have hstep := hat.call (hwrite (.ok m) (deliver e w.st)) (deliver e w.st)
    rw [hacc] at hstep
    split
    · next hz =>
      have hz : m = 0 := by omega
      rw [hz] at hstep ⊢
      exact hfailed _ hstep
    · next hz =>
      refine wp_pure ⟨?_, hplant.accept (by omega) hle ?_⟩
      · simp only [Int.toNat_natCast]
        rw [Nat.add_sub_assoc (by omega)]
        exact hstep
      · simp only [List.length_set]
        omega

end Control

section Phases

variable {E : Env → Prop} {payload : List UInt8} {q₀ q : LinePhase} {done : ℕ} {w : SRun}

theorem carries_greeting : Carries (lineProtocol payload) payload .greeting := by
  intro i j k s hk
  cases k with
  | writeSock pkt res => exact congrArg (Option.map LinePhase.greeting) hk
  | reload file => exact congrArg (Option.map LinePhase.greeting) hk
  | _ => cases hk

theorem carries_clearing (h : ¬ lineGone done) :
    Carries (lineProtocol payload) [x29InvitationToClear] (.clearing done) := by
  intro i j k s hk
  cases k with
  | writeSock pkt res =>
    exact (if_neg h).trans (congrArg (Option.map (LinePhase.clearing done)) hk)
  | reload file => exact (if_neg h).trans (congrArg (Option.map (LinePhase.clearing done)) hk)
  | _ => cases hk

/-- The calls so far are those of the protocol. -/
abbrev OnLine (payload : List UInt8) (q₀ : LinePhase) (w : SRun) : Prop :=
  (lineProtocol payload).Allows q₀ w.trace

/-- Where the calls of the session have brought it. -/
abbrev InPhase (payload : List UInt8) (q₀ q : LinePhase) : SRun → Prop :=
  (lineProtocol payload).At q₀ q

theorem keeps_stmt_phase {α : Type} {f : Env → Session → Session × α} :
    Keeps E (InPhase payload q₀ q) (stmt f) := fun _ hw => wp_stmt hw fun _ _ => hw

theorem keeps_setDone_phase (n : ℕ) : Keeps E (InPhase payload q₀ q) (setDone n) :=
  Protocol.keeps_modify _

/-! ## The Set message -/

/-- What is sent behind the Q byte of the Set message, where one is sent. -/
def setPayload (behind : List X29Par) (c : Settings) : List UInt8 :=
  match x29SetMessage behind c with
  | .ok (some msg) => msg.tail
  | _ => []

/-- The copy loop of the message appends. -/
theorem prefix_of_x29Fill {table : List X29Par} {n i : ℕ} {buf buf' : List UInt8}
    (h : x29Fill table n i buf = .ok buf') : buf <+: buf' := by
  induction n generalizing i buf with
  | zero =>
    cases h
    exact List.prefix_refl _
  | succ n ih =>
    rw [x29Fill] at h
    split at h
    · cases h
    · split at h
      · exact (List.prefix_append _ _).trans (ih h)
      · cases h

theorem setMessage_eq {behind : List X29Par} {c : Settings} {msg : List UInt8}
    (h : x29SetMessage behind c = .ok (some msg)) : msg = 0x01 :: setPayload behind c := by
  have hpre : ∀ {table : List X29Par} {n : ℕ},
      (x29Fill table n 0 [0x01, x29Set]).map (fun buf => if 0 < n then some buf else none) =
        .ok (some msg) → [0x01, x29Set] <+: msg := by
    intro table n hm
    rcases hf : x29Fill table n 0 [0x01, x29Set] with er | buf
    · rw [hf] at hm
      cases hm
    · rw [hf] at hm
      have hbuf := Except.ok.inj hm
      split at hbuf
      · exact Option.some.inj hbuf ▸ prefix_of_x29Fill hf
      · cases hbuf
  obtain ⟨t, rfl⟩ := hpre h
  simp [setPayload, h]

/-- A session starts with the Set message. -/
theorem wp_x29SetDefault_line (behind : List X29Par)
    (h : InPhase (setPayload behind w.st.cfg) q₀ (.greeting 0) w) :
    wp E (OnLine (setPayload behind w.st.cfg) q₀) (x29SetDefault behind)
      (fun _ w' => ∃ i, InPhase (setPayload behind w.st.cfg) q₀ (.greeting i) w') w := by
  unfold x29SetDefault
  refine wp_bind (wp_get ?_)
  split
  · exact wp_stop h.allows
  · exact wp_pure ⟨0, h⟩
  · next msg hmsg =>
    rw [setMessage_eq hmsg]
    refine wp_bind (wp_mono (wp_controlWrite_underway carries_greeting h) (fun _ h' => ?_)
      fun _ w' h' => wp_pure h')
    obtain ⟨i, h'⟩ := h'
    exact h'.allows

/-! ## The loop -/

/-- The calls of a round. -/
def Event.InRound : Event → Prop
  | .loopEnd => False
  | .closingPoll _ => False
  | _ => True

theorem lineNext_copying {k : Event} (hk : k.InRound) (s : Session) :
    (lineProtocol payload).next .copying k s = some .copying := by
  cases k with
  | loopEnd => exact hk.elim
  | closingPoll a => exact hk.elim
  | _ => rfl

/-- The session copies. -/
abbrev AtCopy (payload : List UInt8) (q₀ : LinePhase) : SRun → Prop :=
  InPhase payload q₀ .copying

theorem copying_aside {hup : Prop} {w' : SRun} (h : AtCopy payload q₀ w)
    (ha : Aside E hup w w') : AtCopy payload q₀ w' := by
  obtain ⟨-, t, ht, hx⟩ := ha
  have hround : ∀ x ∈ t, x.1.InRound := fun x hm => by
    rcases (hx x hm).2.eq with ⟨-, _, h⟩ | ⟨_, h⟩ | ⟨_, _, h⟩ | ⟨_, _, h⟩ | ⟨_, h⟩ <;>
      exact h ▸ trivial
  show (lineProtocol payload).after q₀ w'.trace = _
  rw [ht]
  refine Protocol.At.append h (?_ : _ = some .copying) w.st
  clear ht hx
  induction t using List.reverseRecOn with
  | nil => rfl
  | append_singleton t x ih =>
    rw [Protocol.after_concat, ih fun y hy => hround y (by simp [hy])]
    exact lineNext_copying (hround x (by simp)) x.2

theorem keeps_doInter_copying : Keeps E (AtCopy payload q₀) doInter := fun w hw =>
  wp_mono (wp_within (R := Beside E True) (N := Event.IsBeside True) (keeps_doInter_aside w))
    (fun _ h => copying_aside hw h) fun _ _ h => copying_aside hw h

theorem keeps_failed_copying (n : ℕ) : Keeps E (AtCopy payload q₀) (failed n) := by
  unfold failed
  exact .bind .get fun _ => .ite (.bind keeps_doInter_copying fun _ => .pure)
    (keeps_setDone_phase n)

theorem keeps_writensockint_copying (buf : List UInt8) (n : ℕ) :
    Keeps E (AtCopy payload q₀) (writensockint buf n doInter wrError) := by
  refine restores_writensockint (fun _ h => h) (fun pkt w hw => ?_) keeps_doInter_copying ?_ _ _
  · exact wp_writeSock hw (fun e _ er _ => hw.call rfl _) fun e _ k _ => hw.call rfl _
  · unfold wrError
    exact .bind (keeps_setDone_phase 10) fun _ => .pure

theorem keeps_readMasterPart_copying : Keeps E (AtCopy payload q₀) readMasterPart := by
  have hread : ∀ off n, Keeps E (AtCopy payload q₀) (readMaster off n) := fun off n w hw =>
    wp_readMaster hw (fun e _ er _ => hw.call rfl _) fun e _ data _ _ _ => hw.call rfl _
  have hloc : ∀ f, Keeps E (AtCopy payload q₀) (setLoc f) := fun f => Protocol.keeps_modify _
  have hset : Keeps E (AtCopy payload q₀) setReadTimeout := fun w hw =>
    wp_setReadTimeout hw fun e _ _ => hw
  unfold readMasterPart readMasterCall masterReceived resetReadTimeout assign
  refine .bind .get fun _ => .ite (.bind (.bind .get fun _ => .ite (hread _ _) (hread _ _))
    fun i => .ite ?_ (.ite (keeps_setDone_phase 6) (keeps_failed_copying 1))) .pure
  refine .bind .get fun _ => .ite ?_ ?_
  · exact .bind .get fun _ => .bind (keeps_writensockint_copying _ _) fun _ =>
      Protocol.keeps_modify _
  · exact .bind (hloc _) fun _ => .bind .get fun _ =>
      .ite (.bind (hloc _) fun _ => keeps_stmt_phase) hset

theorem keeps_forwardPart_copying : Keeps E (AtCopy payload q₀) forwardPart := by
  unfold forwardPart
  refine .bind (Protocol.keeps_label fun _ => rfl) fun _ => .bind .get fun _ => .ite ?_ .pure
  exact .ite (Protocol.keeps_modify _) (.bind (Protocol.keeps_modify _) fun _ => .bind .get fun _ =>
    .bind (keeps_writensockint_copying _ _) fun _ => Protocol.keeps_modify _)

/-- **The loop copies**, and leaves the line for the closing phases. -/
theorem wp_doCopyLoop_line {i : ℕ} (h : InPhase payload q₀ (.greeting i) w) :
    wp E (OnLine payload q₀) doCopyLoop
      (fun _ w' => InPhase payload q₀ (.clearing w'.st.done 0) w') w := by
  have hend : ∀ w', AtCopy payload q₀ w' → InPhase payload q₀ (.clearing w'.st.done 0)
      ⟨w'.st, w'.trace ++ [(.loopEnd, w'.st)]⟩ := fun w' h' => h'.call rfl _
  -- at the head of the first round the Set message has just been sent
  have hhead : ∀ w', InPhase payload q₀ (.greeting i) w' ∨ AtCopy payload q₀ w' →
      AtCopy payload q₀ ⟨w'.st, w'.trace ++ [(.loopHead, w'.st)]⟩ := by
    rintro w' (h' | h')
    · exact h'.call rfl _
    · exact h'.call rfl _
  refine wp_doCopyLoop (L := AtCopy payload q₀)
    (H := fun w => InPhase payload q₀ (.greeting i) w ∨ AtCopy payload q₀ w) ?_
    (fun w' h' _ => ?_) (fun w' h' _ => hend _ (hhead w' h')) hend (Or.inl h)
  · rintro w' (h' | h')
    · exact h'.allows
    · exact h'.allows
  · refine wp_mono (wp_doCopyRound_aside (J := AtCopy payload q₀) (H := AtCopy payload q₀)
      (fun _ h => h) (fun _ h => h) (fun _ _ => copying_aside)
      (fun _ _ => copying_aside) keeps_readMasterPart_copying keeps_forwardPart_copying
      (hhead w' h')) (fun _ h => h.allows) fun c w'' h'' => ?_
    split
    · next hc => simpa [hc] using h''
    · next hc => exact Or.inr (by simpa [hc] using h'')

/-! ## The closing phases -/

/-- The session has left the loop for `done`. -/
def Closing (payload : List UInt8) (q₀ : LinePhase) (done : ℕ) (w : SRun) : Prop :=
  (∃ i, InPhase payload q₀ (.clearing done i) w) ∨ InPhase payload q₀ (.waiting done) w

theorem Closing.onLine (h : Closing payload q₀ done w) : OnLine payload q₀ w := by
  obtain ⟨i, h⟩ | h := h
  · exact h.allows
  · exact h.allows

/-- Each round of a wait starts with a `poll`. -/
theorem wp_closingPoll_line (h : Closing payload q₀ done w) :
    wp E (OnLine payload q₀) closingPoll (fun _ => InPhase payload q₀ (.waiting done)) w := by
  have hcall : ∀ a s s', InPhase payload q₀ (.waiting done)
      ⟨s', w.trace ++ [(.closingPoll a, s)]⟩ := fun a s s' => by
    obtain ⟨i, h⟩ | h := h
    · exact h.call rfl _
    · exact h.call rfl _
  refine wp_call h.onLine fun e _ r hr => ?_
  split at hr
  · cases hr
    exact hcall _ _ _
  · cases hr
    exact hcall _ _ _

theorem keeps_closingSignals_waiting (pipe : Revents) {ended : SProg Unit}
    (h : Keeps E (InPhase payload q₀ (.waiting done)) ended) :
    Keeps E (InPhase payload q₀ (.waiting done)) (closingSignals pipe ended) := by
  have hread : ∀ n, Keeps E (InPhase payload q₀ (.waiting done)) (readPipe n) := fun n w hw =>
    wp_readPipe hw (fun e _ => hw.call rfl _) fun e _ k => hw.call rfl _
  have hup : ∀ up {handle : SProg Unit}, Keeps E (InPhase payload q₀ (.waiting done)) handle →
      Keeps E (InPhase payload q₀ (.waiting done)) (onUp up handle) := fun _ _ hh =>
    .bind keeps_stmt_phase fun _ => .ite hh .pure
  unfold closingSignals
  exact .ite (.bind .get fun _ => .bind (hread _) fun _ => .bind (hup _ keeps_stmt_phase) fun _ =>
    .bind (hup _ keeps_stmt_phase) fun _ => hup _ h) .pure

theorem keeps_interChld_phase : Keeps E (InPhase payload q₀ q) interChld :=
  .bind keeps_stmt_phase fun _ => keeps_stmt_phase

/-- What comes behind the `poll` of a round. -/
theorem wp_closing {α : Type} {m : SProg α}
    (hm : Keeps E (InPhase payload q₀ (.waiting done)) m)
    (h : InPhase payload q₀ (.waiting done) w) :
    wp E (OnLine payload q₀) m (fun _ => Closing payload q₀ done) w :=
  wp_mono (hm w h) (fun _ h => h.allows) fun _ _ h => Or.inr h

theorem restores_stmt_closing {α : Type} {f : Env → Session → Session × α} :
    Restores E (OnLine payload q₀) (Closing payload q₀ done) (stmt f) := fun _ hw =>
  wp_stmt hw.onLine fun _ _ => hw

theorem restores_waitNet_closing (hgone : ¬ lineGone done) (buf : List UInt8) :
    Restores E (OnLine payload q₀) (Closing payload q₀ done) (waitNet buf) := by
  have hnext : ∀ n res s, (lineProtocol payload).next (.waiting done) (.readSock n res) s =
      some (.waiting done) := fun _ _ _ => if_neg hgone
  have hread : ∀ n, Keeps E (InPhase payload q₀ (.waiting done)) (readSock n) := fun n w hw =>
    wp_readSock hw (fun e _ er => hw.call (hnext _ _ _) _) fun e _ pkt => hw.call (hnext _ _ _) _
  have hround : Restores E (OnLine payload q₀) (Closing payload q₀ done) waitNetRound := by
    intro w hw
    unfold waitNetRound
    refine wp_bind (wp_get ?_)
    split
    · exact wp_pure hw
    refine wp_seq (wp_closingPoll_line hw) fun answer w' h' => wp_closing ?_ h'
    refine .bind .get fun _ => .ite (.bind (keeps_setDone_phase 11) fun _ => .pure) ?_
    refine .bind (keeps_closingSignals_waiting _ keeps_interChld_phase) fun _ =>
      .ite (.bind (keeps_setDone_phase 1) fun _ => .pure) (.ite ?_ .pure)
    exact .bind .get fun _ => .bind (hread _) fun _ => .bind .get fun _ =>
      .ite .pure (.bind (keeps_setDone_phase 1) fun _ => .pure)
  unfold waitNet setNetTimeout resetTimer assign
  exact .bind (fun _ hw => wp_modify hw) fun _ => .bind restores_stmt_closing fun _ =>
    .bind (.iter (fun _ h => h.onLine) (fun _ => hround) _) fun _ => restores_stmt_closing

/-- The wait for the login process does not touch the line. -/
theorem restores_waitExitstatus_closing (buf : List UInt8) :
    Restores E (OnLine payload q₀) (Closing payload q₀ done) (waitExitstatus buf) := by
  have hround : Restores E (OnLine payload q₀) (Closing payload q₀ done)
      waitExitstatusRound := by
    intro w hw
    unfold waitExitstatusRound
    refine wp_bind (wp_get ?_)
    split
    · exact wp_pure hw
    refine wp_seq (wp_closingPoll_line hw) fun answer w' h' => wp_closing ?_ h'
    refine .bind .get fun _ => .ite (.bind (keeps_setDone_phase 11) fun _ => .pure) ?_
    exact .bind (keeps_closingSignals_waiting _ (.bind keeps_interChld_phase fun _ =>
      keeps_setDone_phase 1)) fun _ => .pure
  unfold waitExitstatus setNetTimeout resetTimer assign
  exact .bind .get fun _ => .ite (.bind (fun _ hw => wp_modify hw) fun _ =>
    .bind restores_stmt_closing fun _ =>
    .bind (.iter (fun _ h => h.onLine) (fun _ => hround) _) fun _ => restores_stmt_closing) .pure

/-- **The line is closed** as the reason for the end of the loop asks for. -/
theorem wp_closeLine_line (buf : List UInt8) (h : InPhase payload q₀ (.clearing w.st.done 0) w) :
    wp E (OnLine payload q₀) (closeLine buf)
      (fun _ => Closing payload q₀ w.st.done) w := by
  have hclosing : Closing payload q₀ w.st.done w := Or.inl ⟨0, h⟩
  unfold closeLine
  refine wp_bind (wp_get ?_)
  dsimp only
  split
  · exact restores_stmt_closing w hclosing
  · next hgone =>
    have hnet : Restores E (OnLine payload q₀) (Closing payload q₀ w.st.done) (waitNet buf) :=
      restores_waitNet_closing hgone buf
    split
    · unfold x29InvClear
      have hclear := wp_controlWrite_underway (E := E) (carries_clearing hgone) h
      refine wp_bind (wp_bind (wp_mono hclear (fun _ h => ?_) fun _ w' h' => wp_pure ?_))
      · obtain ⟨i, h⟩ := h
        exact h.allows
      · exact wp_seq (hnet w' (Or.inl h')) fun _ => restores_stmt_closing
    · split
      · exact wp_seq (hnet w hclosing) fun _ => restores_stmt_closing
      · exact wp_pure hclosing

end Phases

end PadSvr
