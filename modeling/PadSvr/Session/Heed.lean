import PadSvr.Session.Round
import PadSvr.X29.Control

/-!
# The last poll

The watchdog and the signals that ask for an exit raise a flag, and the loop of `do_copy` learns of
it when its `poll` is interrupted, or reports the byte that the handler has written. The round is
finished, and the loop does not poll again.

## Main definitions

* `Event.TellsEnd`: the `poll` in which the loop learns that it has to end
* `Obeys`: no `poll` comes after such a one, and none will
* `Abides J`: what stays whatever is called that does not wait, as long as `Done` stays set

## Main results

* `Abides.signalPart` to `Abides.forwardPart`: so the parts of a round behind its `poll` keep it
* `wp_doInter_uncalm`: `do_inter` sets `Done` when one of the two flags is up
* `doCopy_obeys`: the loop does not poll after such a `poll`
-/

namespace PadSvr

open Scripted Scripted.Prog

/-- `poll` is interrupted, or reports a byte in the pipe, with one of the two flags up. -/
def Event.TellsEnd : Event → Session → Prop
  | .poll (.fail er), s => er = .eintr ∧ ¬ s.Calm
  | .poll (.ready _ _ pipe), s => pipe.pollin = true ∧ ¬ s.Calm
  | _, _ => False

def Event.isPoll : Event → Bool
  | .poll _ => true
  | _ => false

/-- A call that waits for whatever comes first, in the loop or behind it. -/
def Event.waits : Event → Bool
  | .poll _ | .closingPoll _ => true
  | _ => false

theorem Event.isPoll_of_waits {k : Event} (h : k.waits = false) : k.isPoll = false := by
  cases k with
  | poll a => cases h
  | _ => rfl

/-- The loop polls only while nothing has told it to end. -/
def PollsUntold (t : STrace) (k : Event) (_ : Session) : Prop :=
  k.isPoll = true → ∀ x ∈ t, ¬ x.1.TellsEnd x.2

/-- No `poll` comes after the loop was told to end, and none will: `Done` is set. -/
structure Obeys (w : SRun) : Prop where
  polls : Always PollsUntold w.trace
  told : w.st.done ≠ 0 ∨ ∀ x ∈ w.trace, ¬ x.1.TellsEnd x.2

/-- The assertion stays, whatever is called that does not wait, and whatever changes, as long as
`Done` stays set. -/
structure Abides (J : SRun → Prop) : Prop where
  state : ∀ {w : SRun} {s : Session}, J w → (w.st.done ≠ 0 → s.done ≠ 0) → J ⟨s, w.trace⟩
  call : ∀ {w : SRun} {s : Session} {k : Event} {s' : Session}, J w → k.waits = false →
    (w.st.done ≠ 0 → s'.done ≠ 0) → J ⟨s', w.trace ++ [(k, s)]⟩

/-! ## The parts behind the poll -/

section Abides

variable {α : Type} {E : Env → Prop} {J : SRun → Prop} {w w' : SRun}

namespace Abides

variable (hJ : Abides J)

include hJ

/-- Calls that do not wait, and leave `Done` set. -/
theorem append {s : Session} (h : J w) (t : STrace) (ht : ∀ x ∈ t, x.1.waits = false)
    (hd : w.st.done ≠ 0 → s.done ≠ 0) : J ⟨s, w.trace ++ t⟩ := by
  induction t using List.reverseRecOn with
  | nil =>
    rw [List.append_nil]
    exact hJ.state h hd
  | append_singleton t x ih =>
    rw [← List.append_assoc]
    exact hJ.call (ih fun y hy => ht y (List.mem_append_left _ hy)) (ht x (by simp)) id

theorem stmt {f : Env → Session → Session × α} (hf : ∀ e s, (f e s).1.done = s.done) :
    Keeps E J (stmt f) := fun _ hw =>
  wp_stmt hw fun e _ => hJ.state hw fun hd => by simpa [hf] using hd

theorem assign {f : Session → Session} (hf : ∀ s, (f s).done = s.done) : Keeps E J (assign f) :=
  hJ.stmt fun _ s => hf s

theorem modify {f : Session → Session} (hf : ∀ s, (f s).done = s.done) : Keeps E J (modify f) :=
  fun _ hw => wp_modify (hJ.state hw fun hd => by simpa [hf] using hd)

theorem setDone {n : ℕ} (hn : n ≠ 0) : Keeps E J (setDone n) := fun _ hw =>
  wp_modify (hJ.state hw fun _ => hn)

/-- Flags are handled, and the settings reloaded. -/
theorem served (h : J w) (hs : Served E w w') : J w' := by
  obtain ⟨hh, t, ht, hx⟩ := hs
  have happ : J ⟨w'.st, w.trace ++ t⟩ := hJ.append h t (fun x hm => ?_) hh.sending.done
  · rwa [← ht] at happ
  · obtain ⟨_, hk⟩ := (hx x hm).2.eq
    rw [hk]
    rfl

theorem doInter : Keeps E J doInter := fun w hw =>
  wp_mono (wp_doInter w) (fun _ h => hJ.served hw h) fun _ _ h => hJ.served hw h.1

theorem failed {n : ℕ} (hn : n ≠ 0) : Keeps E J (failed n) := by
  unfold PadSvr.failed
  exact .bind .get fun _ => .ite (.bind hJ.doInter fun _ => .pure) (hJ.setDone hn)

theorem writensockint (buf : List UInt8) (n : ℕ) :
    Keeps E J (writensockint buf n PadSvr.doInter wrError) := by
  refine restores_writensockint (fun _ h => h) (fun pkt w hw => ?_) hJ.doInter ?_ _ _
  · exact wp_writeSock hw (fun e _ er _ => hJ.call hw rfl (by simp))
      fun e _ k _ => hJ.call hw rfl (by simp)
  · unfold wrError
    exact .bind (hJ.setDone (by decide)) fun _ => .pure

theorem readPipe (n : ℕ) : Keeps E J (readPipe n) := fun _ hw =>
  wp_readPipe hw (fun e _ => hJ.call hw rfl (by simp)) fun e _ k => hJ.call hw rfl (by simp)

theorem signalPart : Keeps E J signalPart := by
  unfold PadSvr.signalPart
  exact .bind .get fun _ => .ite (.bind .get fun _ => .bind (hJ.readPipe _) fun _ =>
    .bind hJ.doInter fun _ => .pure) .pure

theorem reventsPart : Keeps E J reventsPart := by
  unfold PadSvr.reventsPart masterHangup
  exact .bind .get fun _ => .ite (.bind (hJ.setDone (by decide)) fun _ => .pure)
    (.bind (.bind .get fun _ => .ite (hJ.setDone (by decide)) .pure) fun _ =>
      .ite (.bind (hJ.setDone (by decide)) fun _ => .pure)
        (.ite (.bind (hJ.setDone (by decide)) fun _ => .pure) .pure))

theorem masterReceived (i : ℕ) : Keeps E J (masterReceived i) := by
  have hset : Keeps E J setReadTimeout := fun w hw =>
    wp_setReadTimeout hw fun e _ _ => hJ.state hw (by simp)
  have hreset : Keeps E J resetReadTimeout := hJ.assign fun _ => rfl
  unfold PadSvr.masterReceived setLoc
  exact .bind .get fun _ => .ite
    (.bind .get fun _ => .bind (hJ.writensockint _ _) fun _ => hJ.modify fun _ => rfl)
    (.bind (hJ.modify fun _ => rfl) fun _ => .bind .get fun _ => .ite
      (.bind (hJ.modify fun _ => rfl) fun _ => hreset) hset)

theorem readMasterPart : Keeps E J readMasterPart := by
  have hread : ∀ off n, Keeps E J (readMaster off n) := fun off n w hw =>
    wp_readMaster hw (fun e _ er _ => hJ.call hw rfl (by simp)) fun e _ data _ _ _ =>
      hJ.call hw rfl (by simp)
  unfold PadSvr.readMasterPart readMasterCall
  exact .bind .get fun _ => .ite (.bind (.bind .get fun _ => .ite (hread _ _) (hread _ _)) fun _ =>
    .ite (hJ.masterReceived _) (.ite (hJ.setDone (by decide)) (hJ.failed (by decide)))) .pure

theorem writeBack (data : List UInt8) : Keeps E J (writeBack data) := by
  have hwrite : ∀ left, Keeps E J (writeMaster left) := fun left w hw =>
    wp_writeMaster hw (fun e _ er _ => hJ.call hw rfl (by simp))
      fun e _ k _ => hJ.call hw rfl (by simp)
  unfold PadSvr.writeBack
  exact .iter (fun _ => .bind (keeps_writen hwrite data) fun _ =>
    .ite (.bind (hJ.failed (by decide)) fun _ => .pure) .pure) _

theorem readSocketPart : Keeps E J readSocketPart := by
  have hread : ∀ n, Keeps E J (readSock n) := fun n w hw =>
    wp_readSock hw (fun e _ er => hJ.call hw rfl (by simp)) fun e _ pkt => hJ.call hw rfl (by simp)
  have hnet : Keeps E J setNetTimeout := hJ.assign fun _ => rfl
  unfold PadSvr.readSocketPart socketReceived setLoc
  exact .bind .get fun _ => .ite (.bind .get fun _ => .bind (hread _) fun _ =>
    .ite (.bind .get fun _ => .ite (.bind (hJ.modify fun _ => rfl) fun _ => hJ.writeBack _)
      (.ite hnet .pure)) (.ite (hJ.setDone (by decide)) (hJ.failed (by decide)))) .pure

theorem forwardPart : Keeps E J forwardPart := by
  have hlabel : Keeps E J (label .forwardTest) := fun w hw => wp_label (hJ.call hw rfl id)
  unfold PadSvr.forwardPart
  exact .bind hlabel fun _ => .bind .get fun _ => .ite (.ite (hJ.modify fun _ => rfl)
    (.bind (hJ.modify fun _ => rfl) fun _ => .bind .get fun _ =>
      .bind (hJ.writensockint _ _) fun _ => hJ.modify fun _ => rfl)) .pure

end Abides

end Abides

section Obeys

variable {E : Env → Prop} {w : SRun}

theorem not_tellsEnd {k : Event} (hk : k.isPoll = false) (s : Session) : ¬ k.TellsEnd s := by
  cases k with
  | poll a => cases hk
  | _ => exact id

/-- What is no `poll` breaks no rule on polls. -/
theorem abides_obeys : Abides Obeys where
  state h hd := ⟨h.polls, h.told.imp_left hd⟩
  call := by
    intro w s k s' h hk hd
    have hk := Event.isPoll_of_waits hk
    refine ⟨always_concat.mpr ⟨h.polls, fun hp => ?_⟩, h.told.imp hd fun hn x hx => ?_⟩
    · rw [hk] at hp
      cases hp
    · rcases List.mem_append.mp hx with hx | hx
      · exact hn x hx
      · rw [List.mem_singleton.mp hx]
        exact not_tellsEnd hk s

/-! ## The poll -/

/-- **`do_inter` sets `Done`** when the watchdog has expired or an exit signal has come. -/
theorem wp_doInter_uncalm (h : ¬ w.st.Calm) :
    wp E (fun _ => True) doInter (fun _ w' => w'.st.done ≠ 0) w := by
  have hdone : ∀ {up handle} {r r₀ : ℤ}, (∀ w : SRun, w.st.done ≠ 0 →
      wp E (fun _ => True) handle (fun _ w' => w'.st.done ≠ 0) w) → ∀ w : SRun, w.st.done ≠ 0 →
      wp E (fun _ => True) (onFlag up handle r r₀) (fun _ w' => w'.st.done ≠ 0) w :=
    fun hh w hw => wp_onFlag (P := fun _ w' => w'.st.done ≠ 0) (fun _ _ => trivial)
      (fun _ e _ h => by simpa using h) (fun w _ h => hh w h) hw
  have hidle : ∀ w : SRun, w.st.done ≠ 0 →
      wp E (fun _ => True) interIdle (fun _ w' => w'.st.done ≠ 0) w :=
    fun w hw => wp_assign trivial fun e _ => by simpa using hw
  unfold doInter
  -- a hang-up is handled first, and leaves the two flags as they are
  refine wp_seq (wp_onFlag (P := fun _ w' => ¬ w'.st.Calm) (fun _ _ => trivial)
    (fun _ e _ hw => not_calm_deliver e hw) (fun w' _ hw => ?_) h) fun _ w₁ h₁ => ?_
  · refine wp_bind (wp_reload trivial fun e _ b c _ => wp_assign trivial fun e' _ => ?_)
    exact not_calm_deliver e' (show ¬ (Session.Calm _) from not_calm_deliver e hw)
  -- the watchdog sets `Done`, and without it the exit flag is up
  refine wp_seq (Q := fun _ w' => w'.st.done ≠ 0 ∨ w'.st.flags.exit = true) (wp_bind
    (wp_test trivial fun e _ => ?_)) fun _ w₂ h₂ => ?_
  · have hd := not_calm_deliver e h₁
    split
    · exact wp_bind (wp_assign trivial fun e' _ => wp_pure (Or.inl (by simp)))
    · next ha =>
      refine wp_pure (Or.inr ?_)
      by_contra hne
      exact hd ⟨by simpa using ha, by simpa using hne⟩
  refine wp_seq (Q := fun _ w' => w'.st.done ≠ 0) (wp_bind (wp_test trivial fun e _ => ?_))
    fun _ w₃ h₃ => ?_
  · split
    · exact wp_bind (wp_assign trivial fun e' _ => wp_pure (by simp))
    · next hx =>
      refine wp_pure ?_
      rcases h₂ with hd | hexit
      · simpa using hd
      · exact absurd ((deliver_raises e _).2 hexit) (by simpa using hx)
  refine wp_seq (hdone hidle w₃ h₃) fun _ w₄ h₄ => ?_
  refine hdone (fun w hw => wp_bind (wp_stmt trivial fun e _ => ?_)) w₄ h₄
  refine wp_assign trivial fun e' _ => ?_
  split
  · split
    · simpa using hw
    · simpa using hw
  · simpa using hw

/-- Behind the `poll` of a round: what told the loop to end is heard in this round. -/
structure Hearing (w : SRun) : Prop where
  polls : Always PollsUntold w.trace
  told : (w.st.done ≠ 0 ∨ ∀ x ∈ w.trace, ¬ x.1.TellsEnd x.2) ∨
    w.st.loc.pipeRevents.pollin = true ∧ ¬ w.st.Calm

theorem wp_pollPart_hearing (h : Obeys w) (hd : w.st.done = 0) :
    wp E (fun w => Always PollsUntold w.trace) pollPart
      (fun c w' => if c = .leave then Obeys w' else Hearing w') w := by
  have huntold : ∀ x ∈ w.trace, ¬ x.1.TellsEnd x.2 := h.told.resolve_left fun hn => hn hd
  have hpolls : ∀ a s, Always PollsUntold (w.trace ++ [(.poll a, s)]) := fun a s =>
    always_concat.mpr ⟨h.polls, fun _ => huntold⟩
  unfold pollPart setWatchDog
  refine wp_bind (wp_assign h.polls fun e₁ _ => ?_)
  generalize { deliver e₁ w.st with sys := { (deliver e₁ w.st).sys with
    wtimer := armed (deliver e₁ w.st).cfg.watchdogTimeout } } = s₁
  refine wp_bind (wp_pollCall h.polls (fun e _ er => ?_) fun e _ so ma pi _ => ?_)
  · rw [if_neg (by simp)]
    refine wp_bind (wp_get ?_)
    split
    · exact wp_bind (wp_modify (wp_pure ⟨hpolls _ _, Or.inl (by simp)⟩))
    · next her =>
      obtain rfl : er = .eintr := by simpa using her
      dsimp only
      by_cases hcalm : (deliver e s₁).Calm
      · -- nothing to be told
        have hobeys : Obeys ⟨((deliver e s₁).failing .eintr).reported {} {} {},
            w.trace ++ [(.poll (.fail .eintr), deliver e s₁)]⟩ := by
          refine ⟨hpolls _ _, Or.inr fun x hx => ?_⟩
          rcases List.mem_append.mp hx with hx | hx
          · exact huntold x hx
          · rw [List.mem_singleton.mp hx]
            exact fun ht => ht.2 hcalm
        refine wp_seq (wp_mono (abides_obeys.doInter _ hobeys) (fun _ h => h.polls) fun _ _ h => h)
          fun _ w' h' => wp_pure ?_
        rw [if_neg (by simp)]
        exact ⟨h'.polls, Or.inl h'.told⟩
      · have hinter := wp_and (wp_doInter_uncalm (E := E)
          (w := ⟨((deliver e s₁).failing .eintr).reported {} {} {},
            w.trace ++ [(.poll (.fail .eintr), deliver e s₁)]⟩) hcalm) (wp_doInter _)
        refine wp_bind (wp_mono hinter (fun w' h' => ?_) fun _ w' h' => wp_pure ?_)
        · exact (h'.2.always (hpolls _ _) fun _ _ _ hk => by
            obtain ⟨_, rfl⟩ := hk.eq
            exact fun hp => by cases hp)
        · rw [if_neg (by simp)]
          refine ⟨h'.2.1.always (hpolls _ _) fun _ _ _ hk => ?_, Or.inl (Or.inl h'.1)⟩
          obtain ⟨_, rfl⟩ := hk.eq
          exact fun hp => by cases hp
  · rw [if_pos rfl]
    refine wp_pure ?_
    rw [if_neg (by simp)]
    refine ⟨hpolls _ _, ?_⟩
    by_cases htold : pi.pollin = true ∧ ¬ (deliver e s₁).Calm
    · exact Or.inr htold
    · refine Or.inl (Or.inr fun x hx => ?_)
      rcases List.mem_append.mp hx with hx | hx
      · exact huntold x hx
      · rw [List.mem_singleton.mp hx]
        exact htold

theorem wp_signalPart_obeys (h : Hearing w) :
    wp E (fun w => Always PollsUntold w.trace) signalPart (fun _ => Obeys) w := by
  rcases h.told with htold | ⟨hin, hcalm⟩
  · -- it has not been told, or has been heard
    have hobeys : Obeys w := ⟨h.polls, htold⟩
    exact wp_mono (abides_obeys.signalPart w hobeys) (fun _ h => h.polls) fun _ _ h => h
  · unfold signalPart
    refine wp_bind (wp_get ?_)
    rw [if_pos hin]
    -- the byte is read, and `do_inter` finds the flag
    have hrest : ∀ (s s' : Session) n, ¬ s'.Calm →
        wp E (fun w => Always PollsUntold w.trace) (do let _ ← doInter; pure PUnit.unit)
          (fun _ => Obeys) ⟨s', w.trace ++ [(.readPipe n, s)]⟩ := by
      intro s s' n hs
      have hpolls : Always PollsUntold (w.trace ++ [(.readPipe n, s)]) :=
        always_concat.mpr ⟨h.polls, fun hp => by cases hp⟩
      have hserved : ∀ w', Served E ⟨s', w.trace ++ [(.readPipe n, s)]⟩ w' →
          Always PollsUntold w'.trace := fun w' h' => h'.always hpolls fun _ _ _ hk => by
        obtain ⟨_, rfl⟩ := hk.eq
        exact fun hp => by cases hp
      refine wp_bind (wp_mono (wp_and (wp_doInter_uncalm (E := E) hs) (wp_doInter _))
        (fun w' h' => hserved w' h'.2) fun _ w' h' => wp_pure ?_)
      exact ⟨hserved w' h'.2.1, Or.inl h'.1⟩
    refine wp_bind (wp_get (wp_bind (wp_readPipe h.polls (fun e _ => ?_) fun e _ k => ?_)))
    · exact hrest _ _ _ (not_calm_deliver e hcalm)
    · exact hrest _ _ _ (not_calm_deliver e hcalm)

/-- A round. -/
theorem wp_doCopyRound_obeys (h : Obeys w) (hd : w.st.done = 0) :
    wp E (fun w => Always PollsUntold w.trace) doCopyRound (fun _ => Obeys) w := by
  have hround := wp_doCopyRound (E := E) (I := fun w => Always PollsUntold w.trace) (L := Obeys)
    (A := Hearing) (B := Obeys) (C := Obeys) (D := Obeys) (F := Obeys) (H := Obeys)
    (wp_pollPart_hearing h hd) (fun _ => wp_signalPart_obeys)
    (fun w h => wp_mono (abides_obeys.reventsPart w h) (fun _ h => h.polls) fun _ _ h => by
      split <;> exact h)
    (fun w h => wp_mono (abides_obeys.readMasterPart w h) (fun _ h => h.polls) fun _ _ h => h)
    (fun w h => wp_mono (abides_obeys.readSocketPart w h) (fun _ h => h.polls) fun _ _ h => h)
    fun w h => wp_mono (abides_obeys.forwardPart w h) (fun _ h => h.polls) fun _ _ h => h
  exact wp_mono hround (fun _ h => h) fun c _ h => by
    split at h <;> exact h

theorem wp_doCopyLoop_obeys (h : Obeys w) :
    wp E (fun w => Always PollsUntold w.trace) doCopyLoop (fun _ => Obeys) w := by
  have hlabel : ∀ w k, k = .loopHead ∨ k = .loopEnd → Obeys w →
      Obeys ⟨w.st, w.trace ++ [(k, w.st)]⟩ := fun w k hk h =>
    abides_obeys.call h (by rcases hk with rfl | rfl <;> rfl) id
  refine wp_doCopyLoop (H := Obeys) (L := Obeys) (fun _ h => h.polls) (fun w h hd => ?_)
    (fun w h _ => hlabel _ .loopEnd (Or.inr rfl) (hlabel w .loopHead (Or.inl rfl) h))
    (fun w h => hlabel w .loopEnd (Or.inr rfl) h) h
  exact wp_mono (wp_doCopyRound_obeys (hlabel w .loopHead (Or.inl rfl) h) hd) (fun _ h => h)
    fun _ _ h => by split <;> exact h

end Obeys

/-- **The loop heeds the watchdog and the exit signals.** Once its `poll` was interrupted or has
reported a byte in the pipe with one of their flags up, the loop does not poll again. -/
theorem doCopy_obeys (es : List Env) (s : Session) (bufn bufd : List UInt8) :
    Always PollsUntold (doCopyTrace es s bufn bufd) :=
  always_of_wp (E := fun _ => True) (I := fun w => Always PollsUntold w.trace)
    (wp_doCopyLoop_obeys ⟨always_nil, Or.inr (by simp)⟩) (fun _ _ h => h.polls) fun _ _ => trivial

end PadSvr
