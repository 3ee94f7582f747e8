import PadSvr.Scripted.Protocol
import PadSvr.Session.Round

/-!
# The order of a round

A round of the loop waits in `poll`, and then looks at the pipe, the master and the socket in this
order, at each of them once, and only if the last report of `poll` has it ready. What it sends comes
behind the read that it belongs to. A `poll` that is interrupted reports nothing, and the round only
sends what is due.

## Main definitions

* `RoundState`: how far a round has come, and the last report
* `roundProtocol`: the calls of the loop in their order

## Main results

* `doCopy_round`: the loop keeps to the order
-/

namespace PadSvr

open Scripted Scripted.Prog

/-- The `revents` of the socket, the master and the pipe. -/
structure Report where
  sock : Revents := {}
  master : Revents := {}
  pipe : Revents := {}
deriving DecidableEq, Repr

/-- How far a round has come, in the order of the source. -/
inductive RoundStage
  | flushed
  | waiting
  | polled
  | signalled
  | masterRead
  | sockRead
  | flushing
  | left
deriving DecidableEq, Repr

/-- The place of a stage in the round. -/
def RoundStage.rank : RoundStage → ℕ
  | .flushed => 0
  | .waiting => 1
  | .polled => 2
  | .signalled => 3
  | .masterRead => 4
  | .sockRead => 5
  | .flushing => 6
  | .left => 7

/-- How far a round has come, with the last report of `poll`. -/
structure RoundState where
  stage : RoundStage
  report : Report
deriving DecidableEq, Repr

/-- Some stage between the answer of `poll` and the flush. -/
def RoundStage.within (lo hi : RoundStage) (st : RoundStage) : Prop :=
  lo.rank ≤ st.rank ∧ st.rank ≤ hi.rank

instance (lo hi st : RoundStage) : Decidable (st.within lo hi) :=
  inferInstanceAs (Decidable (_ ∧ _))

/-- Between a stage and itself there is no other one. -/
theorem RoundStage.eq_of_within {st st' : RoundStage} (h : RoundStage.within st st st') :
    st' = st := by
  have hrank : st'.rank = st.rank := le_antisymm h.2 h.1
  cases st <;> cases st' <;> first | rfl | cases hrank

/-- The state `q` with another stage, if `p` holds. -/
def RoundState.step (q : RoundState) (p : Prop) [Decidable p] (st : RoundStage) :
    Option RoundState :=
  if p then some { q with stage := st } else none

/-- What a stage makes of a call. -/
def roundNext (q : RoundState) : Event → Session → Option RoundState
  | .loopHead, _ => q.step (q.stage = .flushed ∨ q.stage = .flushing) .waiting
  | .poll (.ready sock master pipe), _ =>
    if q.stage = .waiting then some ⟨.polled, ⟨sock, master, pipe⟩⟩ else none
  | .poll (.fail _), _ => if q.stage = .waiting then some ⟨.polled, {}⟩ else none
  | .readPipe _, _ => q.step (q.stage = .polled ∧ q.report.pipe.pollin = true) .signalled
  | .readMaster _ _ _, _ =>
    q.step (RoundStage.within .polled .signalled q.stage ∧ q.report.master.pollin = true)
      .masterRead
  | .readSock _ _, _ =>
    q.step (RoundStage.within .polled .masterRead q.stage ∧ q.report.sock.pollin = true) .sockRead
  | .writeMaster _ _, _ => q.step (q.stage = .sockRead) q.stage
  | .forwardTest, _ => q.step (RoundStage.within .polled .sockRead q.stage) .flushing
  | .writeSock _ _, _ => q.step (q.stage = .masterRead ∨ q.stage = .flushing) q.stage
  | .reload _, _ => q.step (RoundStage.within .polled .flushing q.stage) q.stage
  | .loopEnd, _ => q.step (RoundStage.within .waiting .signalled q.stage) .left
  | .closingPoll _, _ => none

def roundProtocol : Protocol Event Session RoundState := ⟨roundNext⟩

/-- The report that the session goes by. -/
def Session.report (s : Session) : Report :=
  ⟨s.loc.sockRevents, s.loc.masterRevents, s.loc.pipeRevents⟩

section Round

variable {α : Type} {E : Env → Prop} {q₀ : RoundState} {lo hi : RoundStage} {w : SRun}

/-- The calls so far are in order. -/
abbrev InOrder (q₀ : RoundState) (w : SRun) : Prop := roundProtocol.Allows q₀ w.trace

/-- The round stands between two stages, and goes by the last report. -/
def InStage (q₀ : RoundState) (lo hi : RoundStage) (w : SRun) : Prop :=
  ∃ st, RoundStage.within lo hi st ∧ roundProtocol.At q₀ ⟨st, w.st.report⟩ w

variable {lo' hi' : RoundStage} {s s' : Session} {k : Event}

theorem InStage.inOrder (h : InStage q₀ lo hi w) : InOrder q₀ w := by
  obtain ⟨st, -, h⟩ := h
  exact h.allows

theorem InStage.silent (h : InStage q₀ lo hi w) (hs : s'.report = w.st.report) :
    InStage q₀ lo hi ⟨s', w.trace⟩ := by
  obtain ⟨st, hst, h⟩ := h
  refine ⟨st, hst, ?_⟩
  show roundProtocol.At q₀ ⟨st, s'.report⟩ _
  rw [hs]
  exact h

theorem InStage.weaken (h : InStage q₀ lo hi w) (hlo : lo'.rank ≤ lo.rank)
    (hhi : hi.rank ≤ hi'.rank) : InStage q₀ lo' hi' w := by
  obtain ⟨st, hst, h⟩ := h
  exact ⟨st, ⟨hlo.trans hst.1, hst.2.trans hhi⟩, h⟩

/-- A call that brings every stage to `st'`. -/
theorem InStage.call (h : InStage q₀ lo hi w) {st' : RoundStage}
    (hk : ∀ st, RoundStage.within lo hi st →
      roundNext ⟨st, w.st.report⟩ k s = some ⟨st', s'.report⟩) :
    InStage q₀ st' st' ⟨s', w.trace ++ [(k, s)]⟩ := by
  obtain ⟨st, hst, h⟩ := h
  exact ⟨st', ⟨le_rfl, le_rfl⟩, h.call (hk st hst) _⟩

/-- A call that leaves every stage. -/
theorem InStage.stay (h : InStage q₀ lo hi w) (hs : s'.report = w.st.report)
    (hk : ∀ st, RoundStage.within lo hi st →
      roundNext ⟨st, w.st.report⟩ k s = some ⟨st, w.st.report⟩) :
    InStage q₀ lo hi ⟨s', w.trace ++ [(k, s)]⟩ := by
  obtain ⟨st, hst, h⟩ := h
  refine ⟨st, hst, ?_⟩
  show roundProtocol.At q₀ ⟨st, s'.report⟩ _
  rw [hs]
  exact h.call (hk st hst) _

theorem step_of {q : RoundState} {p : Prop} [Decidable p] (hp : p) (st : RoundStage) :
    q.step p st = some { q with stage := st } := if_pos hp

@[simp] theorem deliver_report (e : Env) (s : Session) : (deliver e s).report = s.report := by
  simp [Session.report]

/-- What keeps a run between two stages. -/
abbrev RestoresStage (E : Env → Prop) (q₀ : RoundState) (lo hi : RoundStage) (m : SProg α) : Prop :=
  Restores E (InOrder q₀) (InStage q₀ lo hi) m

theorem restores_stmt_stage {f : Env → Session → Session × α}
    (hf : ∀ e s, (f e s).1.report = s.report) : RestoresStage E q₀ lo hi (stmt f) := fun _ hw =>
  wp_stmt hw.inOrder fun e _ => hw.silent (by simp [hf])

theorem restores_assign_stage {f : Session → Session} (hf : ∀ s, (f s).report = s.report) :
    RestoresStage E q₀ lo hi (assign f) := restores_stmt_stage fun _ s => hf s

theorem restores_modify_stage {f : Session → Session} (hf : ∀ s, (f s).report = s.report) :
    RestoresStage E q₀ lo hi (modify f) := fun _ hw => wp_modify (hw.silent (hf _))

theorem restores_setDone_stage (n : ℕ) : RestoresStage E q₀ lo hi (setDone n) :=
  restores_modify_stage fun _ => rfl

/-- The flags are looked at behind the answer of `poll`. -/
theorem restores_doInter_stage (hlo : RoundStage.polled.rank ≤ lo.rank)
    (hhi : hi.rank ≤ RoundStage.flushing.rank) : RestoresStage E q₀ lo hi doInter := by
  have hflag : ∀ {up handle ret ret₀}, RestoresStage E q₀ lo hi handle →
      RestoresStage E q₀ lo hi (onFlag up handle ret ret₀) := fun hh =>
    .bind (restores_stmt_stage fun _ _ => rfl) fun _ => .ite (.bind hh fun _ => .pure) .pure
  have hreload : RestoresStage E q₀ lo hi reload := fun w hw =>
    wp_reload hw.inOrder fun e _ b c _ => hw.stay (by simp [Session.report]) fun st hst =>
      step_of ⟨hlo.trans hst.1, hst.2.trans hhi⟩ st
  have hchld : RestoresStage E q₀ lo hi recvExitStatus := restores_stmt_stage fun e s => by
    split
    · split <;> rfl
    · rfl
  unfold doInter
  exact .bind (hflag (.bind hreload fun _ => restores_assign_stage fun _ => rfl)) fun _ =>
    .bind (hflag (restores_assign_stage fun _ => rfl)) fun _ =>
    .bind (hflag (restores_assign_stage fun _ => rfl)) fun _ =>
    .bind (hflag (restores_assign_stage fun _ => rfl)) fun _ =>
      hflag (.bind hchld fun _ => restores_assign_stage fun _ => rfl)

theorem restores_failed_stage (hlo : RoundStage.polled.rank ≤ lo.rank)
    (hhi : hi.rank ≤ RoundStage.flushing.rank) (n : ℕ) : RestoresStage E q₀ lo hi (failed n) := by
  unfold failed
  exact .bind .get fun _ => .ite (.bind (restores_doInter_stage hlo hhi) fun _ => .pure)
    (restores_setDone_stage n)

/-- Packets are written behind a read from the master, and in the flush. -/
theorem restores_writensockint_stage {st : RoundStage} (hst : st = .masterRead ∨ st = .flushing)
    (buf : List UInt8) (n : ℕ) :
    RestoresStage E q₀ st st (writensockint buf n doInter wrError) := by
  have hwithin : RoundStage.polled.rank ≤ st.rank ∧ st.rank ≤ RoundStage.flushing.rank := by
    rcases hst with rfl | rfl <;> decide
  have hwrite : ∀ st', RoundStage.within st st st' → st' = .masterRead ∨ st' = .flushing :=
    fun st' h => RoundStage.eq_of_within h ▸ hst
  refine restores_writensockint (fun _ h => h.inOrder) (fun pkt w hw => ?_)
    (restores_doInter_stage hwithin.1 hwithin.2) ?_ _ _
  · exact wp_writeSock hw.inOrder
      (fun e _ er _ => hw.stay (by simp [Session.report]) fun st' h => step_of (hwrite st' h) st')
      fun e _ k _ => hw.stay (by simp) fun st' h => step_of (hwrite st' h) st'
  · unfold wrError
    exact .bind (restores_setDone_stage 10) fun _ => .pure

/-! ## The parts -/

/-- The wait, and the report. -/
theorem wp_pollPart_stage (h : InStage q₀ .waiting .waiting w) :
    wp E (InOrder q₀) pollPart (fun _ => InStage q₀ .polled .polled) w := by
  have hwatch : RestoresStage E q₀ .waiting .waiting setWatchDog :=
    restores_assign_stage fun _ => rfl
  unfold pollPart
  refine wp_seq (hwatch w h) fun _ w h => ?_
  refine wp_bind (wp_pollCall h.inOrder (fun e _ er => ?_) fun e _ so ma pi _ => ?_)
  · have hpolled : InStage q₀ .polled .polled ⟨((deliver e w.st).failing er).reported {} {} {},
        w.trace ++ [(.poll (.fail er), deliver e w.st)]⟩ :=
      h.call fun st hst => if_pos (RoundStage.eq_of_within hst)
    rw [if_neg (by simp)]
    refine wp_bind (wp_get ?_)
    split
    · exact wp_seq (restores_setDone_stage 11 _ hpolled) fun _ _ h => wp_pure h
    · exact wp_seq (restores_doInter_stage le_rfl (by decide) _ hpolled) fun _ _ h => wp_pure h
  · rw [if_pos rfl]
    exact wp_pure (h.call fun st hst => if_pos (RoundStage.eq_of_within hst))

theorem wp_signalPart_stage (h : InStage q₀ .polled .polled w) :
    wp E (InOrder q₀) signalPart (fun _ => InStage q₀ .polled .signalled) w := by
  unfold signalPart
  refine wp_bind (wp_get ?_)
  split
  · next hin =>
    have hread : ∀ (s s' : Session) n, s'.report = w.st.report →
        InStage q₀ .signalled .signalled ⟨s', w.trace ++ [(.readPipe n, s)]⟩ := by
      intro s s' n hs
      refine h.call fun st hst => ?_
      rw [hs]
      exact step_of ⟨RoundStage.eq_of_within hst, hin⟩ .signalled
    have hrest : ∀ w', InStage q₀ .signalled .signalled w' → wp E (InOrder q₀)
        (do let _ ← doInter; pure PUnit.unit : SProg PUnit)
        (fun _ => InStage q₀ .polled .signalled) w' := fun w' h' =>
      wp_seq (restores_doInter_stage (by decide) (by decide) w' h') fun _ _ h =>
        wp_pure (h.weaken (by decide) le_rfl)
    refine wp_bind (wp_get (wp_bind (wp_readPipe h.inOrder (fun e _ => ?_) fun e _ k => ?_)))
    · exact hrest _ (hread _ _ _ (by simp [Session.report]))
    · exact hrest _ (hread _ _ _ (by simp [Session.report]))
  · exact wp_pure (h.weaken le_rfl (by decide))

theorem restores_reventsPart_stage : RestoresStage E q₀ lo hi reventsPart := by
  unfold reventsPart masterHangup
  exact .bind .get fun _ => .ite (.bind (restores_setDone_stage 1) fun _ => .pure)
    (.bind (.bind .get fun _ => .ite (restores_setDone_stage 3) .pure) fun _ =>
      .ite (.bind (restores_setDone_stage 10) fun _ => .pure)
        (.ite (.bind (restores_setDone_stage 2) fun _ => .pure) .pure))

theorem restores_masterReceived_stage (i : ℕ) :
    RestoresStage E q₀ .masterRead .masterRead (masterReceived i) := by
  have hloc : ∀ f : Locals → Locals, (∀ l, (f l).sockRevents = l.sockRevents ∧
      (f l).masterRevents = l.masterRevents ∧ (f l).pipeRevents = l.pipeRevents) →
      RestoresStage E q₀ .masterRead .masterRead (setLoc f) := fun f hf =>
    restores_modify_stage fun s => by simp [Session.report, hf]
  have hset : RestoresStage E q₀ .masterRead .masterRead setReadTimeout := fun w hw =>
    wp_setReadTimeout hw.inOrder fun e _ _ => hw.silent (by simp [Session.report])
  unfold masterReceived
  refine .bind .get fun _ => .ite (.bind .get fun _ =>
    .bind (restores_writensockint_stage (Or.inl rfl) _ _) fun _ =>
      restores_modify_stage fun _ => rfl) ?_
  exact .bind (hloc _ fun _ => ⟨rfl, rfl, rfl⟩) fun _ => .bind .get fun _ =>
    .ite (.bind (hloc _ fun _ => ⟨rfl, rfl, rfl⟩) fun _ => restores_assign_stage fun _ => rfl) hset

theorem wp_readMasterPart_stage (h : InStage q₀ .polled .signalled w) :
    wp E (InOrder q₀) readMasterPart (fun _ => InStage q₀ .polled .masterRead) w := by
  unfold readMasterPart
  refine wp_bind (wp_get ?_)
  split
  · next hin =>
    have hread : ∀ (s s' : Session) off n res, s'.report = w.st.report →
        InStage q₀ .masterRead .masterRead ⟨s', w.trace ++ [(.readMaster off n res, s)]⟩ := by
      intro s s' off n res hs
      refine h.call fun st hst => ?_
      rw [hs]
      exact step_of ⟨hst, hin⟩ .masterRead
    -- whatever the read has come to
    have hrest : ∀ (i : ℤ) w', InStage q₀ .masterRead .masterRead w' → wp E (InOrder q₀)
        (if 0 < i then masterReceived i.toNat else if i = 0 then setDone 6 else failed 1)
        (fun _ => InStage q₀ .polled .masterRead) w' := fun i w' h' =>
      wp_mono (Restores.ite (restores_masterReceived_stage _)
        (.ite (restores_setDone_stage 6) (restores_failed_stage (by decide) (by decide) 1)) w' h')
        (fun _ h => h) fun _ _ h => h.weaken (by decide) le_rfl
    refine wp_bind (wp_readMasterCall h.inOrder (fun e _ er _ => ?_) fun e _ data _ _ _ => ?_)
    · exact hrest _ _ (hread _ _ _ _ _ (by simp [Session.report]))
    · exact hrest _ _ (hread _ _ _ _ _ (by simp [Session.report]))
  · exact wp_pure (h.weaken le_rfl (by decide))

theorem restores_writeBack_stage (data : List UInt8) :
    RestoresStage E q₀ .sockRead .sockRead (writeBack data) := by
  have hwrite : ∀ left, RestoresStage E q₀ .sockRead .sockRead (writeMaster left) :=
    fun left w hw => wp_writeMaster hw.inOrder
      (fun e _ er _ => hw.stay (by simp [Session.report]) fun st h =>
        step_of (RoundStage.eq_of_within h) st)
      fun e _ k _ => hw.stay (by simp) fun st h => step_of (RoundStage.eq_of_within h) st
  have hwriten : RestoresStage E q₀ .sockRead .sockRead (writen writeMaster data) := by
    unfold writen
    refine .iter (fun _ h => h.inOrder) (fun left => ?_) _
    unfold writenRound
    exact .ite .pure (.bind (hwrite left) fun _ => .ite .pure .pure)
  unfold writeBack
  exact .iter (fun _ h => h.inOrder) (fun _ => .bind hwriten fun _ =>
    .ite (.bind (restores_failed_stage (by decide) (by decide) 1) fun _ => .pure) .pure) _

theorem wp_readSocketPart_stage (h : InStage q₀ .polled .masterRead w) :
    wp E (InOrder q₀) readSocketPart (fun _ => InStage q₀ .polled .sockRead) w := by
  unfold readSocketPart
  refine wp_bind (wp_get ?_)
  split
  · next hin =>
    have hread : ∀ (s s' : Session) n res, s'.report = w.st.report →
        InStage q₀ .sockRead .sockRead ⟨s', w.trace ++ [(.readSock n res, s)]⟩ := by
      intro s s' n res hs
      refine h.call fun st hst => ?_
      rw [hs]
      exact step_of ⟨hst, hin⟩ .sockRead
    have hreceived : ∀ i, RestoresStage E q₀ .sockRead .sockRead (socketReceived i) := by
      intro i
      unfold socketReceived
      exact .bind .get fun _ => .ite (.bind (restores_modify_stage fun _ => rfl) fun _ =>
        restores_writeBack_stage _) (.ite (restores_assign_stage fun _ => rfl) .pure)
    have hrest : ∀ (i : ℤ) w', InStage q₀ .sockRead .sockRead w' → wp E (InOrder q₀)
        (if 1 < i then socketReceived i.toNat else if i = 0 then setDone 9 else failed 10)
        (fun _ => InStage q₀ .polled .sockRead) w' := fun i w' h' =>
      wp_mono (Restores.ite (hreceived _)
        (.ite (restores_setDone_stage 9) (restores_failed_stage (by decide) (by decide) 10)) w' h')
        (fun _ h => h) fun _ _ h => h.weaken (by decide) le_rfl
    refine wp_bind (wp_get (wp_bind (wp_readSock h.inOrder (fun e _ er => ?_) fun e _ pkt => ?_)))
    · exact hrest _ _ (hread _ _ _ _ (by simp [Session.report]))
    · exact hrest _ _ (hread _ _ _ _ (by simp [Session.report]))
  · exact wp_pure (h.weaken le_rfl (by decide))

theorem wp_forwardPart_stage (h : InStage q₀ .polled .sockRead w) :
    wp E (InOrder q₀) forwardPart (fun _ => InStage q₀ .flushing .flushing) w := by
  have hflush : InStage q₀ .flushing .flushing ⟨w.st, w.trace ++ [(.forwardTest, w.st)]⟩ :=
    h.call fun st hst => step_of hst .flushing
  unfold forwardPart
  refine wp_bind (wp_label ?_)
  refine (show RestoresStage E q₀ .flushing .flushing _ from ?_) _ hflush
  refine .bind .get fun _ => .ite (.ite (restores_modify_stage fun _ => rfl) ?_) .pure
  exact .bind (restores_modify_stage fun _ => rfl) fun _ => .bind .get fun _ =>
    .bind (restores_writensockint_stage (Or.inr rfl) _ _) fun _ =>
      restores_modify_stage fun _ => rfl

/-- Where a round starts: behind the one before it, or at the start of the loop. -/
def AtRoundHead (q₀ : RoundState) (w : SRun) : Prop :=
  InStage q₀ .flushed .flushed w ∨ InStage q₀ .flushing .flushing w

theorem wp_doCopyLoop_stage (h : InStage q₀ .flushed .flushed w) :
    wp E (InOrder q₀) doCopyLoop (fun _ => InOrder q₀) w := by
  have hhead : ∀ w', AtRoundHead q₀ w' →
      InStage q₀ .waiting .waiting ⟨w'.st, w'.trace ++ [(.loopHead, w'.st)]⟩ := by
    rintro w' (h' | h')
    · exact h'.call fun st hst => step_of (Or.inl (RoundStage.eq_of_within hst)) .waiting
    · exact h'.call fun st hst => step_of (Or.inr (RoundStage.eq_of_within hst)) .waiting
  have hend : ∀ w', InStage q₀ .waiting .signalled w' →
      InOrder q₀ ⟨w'.st, w'.trace ++ [(.loopEnd, w'.st)]⟩ := fun w' h' =>
    have hleft : InStage q₀ .left .left ⟨w'.st, w'.trace ++ [(.loopEnd, w'.st)]⟩ :=
      h'.call fun st hst => step_of hst .left
    hleft.inOrder
  refine wp_doCopyLoop (L := InStage q₀ .waiting .signalled) (H := AtRoundHead q₀) ?_
    (fun w' h' _ => ?_) (fun w' h' _ => hend _ ((hhead w' h').weaken le_rfl (by decide))) hend
    (Or.inl h)
  · rintro w' (h' | h')
    · exact h'.inOrder
    · exact h'.inOrder
  · refine wp_mono (wp_doCopyRound (L := InStage q₀ .waiting .signalled)
      (A := InStage q₀ .polled .polled) (B := InStage q₀ .polled .signalled)
      (C := InStage q₀ .polled .signalled) (D := InStage q₀ .polled .masterRead)
      (F := InStage q₀ .polled .sockRead) (H := InStage q₀ .flushing .flushing) ?_
      (fun _ => wp_signalPart_stage) ?_ (fun _ => wp_readMasterPart_stage)
      (fun _ => wp_readSocketPart_stage) fun _ => wp_forwardPart_stage) (fun _ h => h)
      fun c w'' h'' => ?_
    · refine wp_mono (wp_pollPart_stage (hhead w' h')) (fun _ h => h) fun c _ h => ?_
      split
      · exact h.weaken (by decide) (by decide)
      · exact h
    · refine fun w h => wp_mono (restores_reventsPart_stage w h) (fun _ h => h) fun c _ h => ?_
      split
      · exact h.weaken (by decide) le_rfl
      · exact h
    · split
      · next hc => simpa [hc] using h''
      · next hc => exact Or.inr (by simpa [hc] using h'')

end Round

/-- **The loop keeps to the order of its rounds.** In each round it polls once, and then reads the
pipe, the master and the socket at most once each and in this order, only where the last report has
them ready; packets for the other side come behind a read from the master or in the flush, and
bytes for the terminal side behind a read from the socket. -/
theorem doCopy_round (es : List Env) (s : Session) (bufn bufd : List UInt8) :
    roundProtocol.Allows ⟨.flushed, s.report⟩ (doCopyTrace es s bufn bufd) :=
  always_of_wp (I := InOrder ⟨.flushed, s.report⟩) (E := fun _ => True)
    (wp_doCopyLoop_stage (w := ⟨doCopyStart s bufn bufd, []⟩)
      ⟨.flushed, ⟨le_rfl, le_rfl⟩, rfl⟩) (fun _ _ h => h) fun _ _ => trivial

end PadSvr
