import PadSvr.Session.Aside

/-!
# The rounds of the loop

The rules of the two parts of a round that work on the buffer of the terminal side, and from them
the rules of a round and of the loop of `do_copy`. An invariant of the loop is an assertion that
the frame of the other parts cannot break and that these two parts keep.

## Main definitions

* `Session.readArgs`: where a read from the master goes, and how much it asks for
* `readRun`, `Session.gotMaster`, `Locals.held`: the effect of such a read

## Main results

* `wp_readMasterPart`, `wp_masterReceived`, `wp_forwardPart`: the rules of the two parts
* `wp_reventsPart`: the rule of the part that notices errors and hang-ups
* `wp_doCopyRound`, `wp_doCopyRound_aside`, `wp_doCopyLoop`: the rules of a round and of the loop
* `wp_doCopyLoop_invariant`: the rule of the loop for one assertion
-/

namespace PadSvr

open Scripted Scripted.Prog

variable {E : Env → Prop} {I : SRun → Prop} {w : SRun}

/-- A call that failed, under an assertion that it cannot break. -/
theorem wp_failed_aside {J : SRun → Prop} {n : ℕ} (hJI : ∀ w, J w → I w)
    (hJ : ∀ w', Aside E False w w' → J w') (hn : n ≠ 0) (h3 : n ≠ 3) :
    wp E I (failed n) (fun _ => J) w :=
  wp_mono (wp_within (keeps_failed_aside w hn fun h => absurd h h3))
    (fun w' ha => hJI w' (hJ w' ha)) fun _ w' ha => hJ w' ha

/-! ## Reading from the master -/

/-- Where a read from the master goes in `bufd`, and how much it asks for. -/
def Session.readArgs (s : Session) : ℕ × ℕ :=
  if s.cfg.forwardtimer = 0 then (1, s.cfg.bufferSize.toNat)
  else (1 + s.loc.tbufd2, s.loc.freesize)

/-- The session after the master has delivered `data` to offset `off` of `bufd`. -/
def Session.gotMaster (s : Session) (off : ℕ) (data : List UInt8) : Session :=
  { s with
    sys := { s.sys with pty := s.sys.pty.drop data.length }
    bufd := store s.bufd off data }

@[simp] theorem gotMaster_cfg (s : Session) (off : ℕ) (data : List UInt8) :
    (s.gotMaster off data).cfg = s.cfg := rfl

@[simp] theorem gotMaster_done (s : Session) (off : ℕ) (data : List UInt8) :
    (s.gotMaster off data).done = s.done := rfl

@[simp] theorem gotMaster_loc (s : Session) (off : ℕ) (data : List UInt8) :
    (s.gotMaster off data).loc = s.loc := rfl

@[simp] theorem gotMaster_length (s : Session) (off : ℕ) (data : List UInt8) :
    (s.gotMaster off data).bufd.length = s.bufd.length := length_store _ _ _

/-- The run after a read from the master has returned `res` and left the session in `s`. -/
abbrev readRun (w : SRun) (e : Env) (res : Except Errno (List UInt8)) (s : Session) : SRun :=
  ⟨s, w.trace ++ [(.readMaster w.st.readArgs.1 w.st.readArgs.2 res, deliver e w.st)]⟩

theorem gotMaster_nil (s : Session) (off : ℕ) : s.gotMaster off [] = s := by
  simp [Session.gotMaster]

/-- A read from the master fails, or delivers the first bytes of what is there. -/
theorem wp_readMasterCall {Q : ℤ → SRun → Prop} (hI : I w)
    (hfail : ∀ e, E e → ∀ er, (er ≠ .eintr → (deliver e w.st).sys.pty = []) →
      Q (-1) (readRun w e (.error er) ((deliver e w.st).failing er)))
    (hok : ∀ e, E e → ∀ data, data.length ≤ w.st.readArgs.2 → data <+: (deliver e w.st).sys.pty →
      (data = [] → w.st.readArgs.2 = 0 ∨ (deliver e w.st).sys.pty = []) →
      Q data.length (readRun w e (.ok data) ((deliver e w.st).gotMaster w.st.readArgs.1 data))) :
    wp E I readMasterCall Q w := by
  have hcall : wp E I (readMaster w.st.readArgs.1 w.st.readArgs.2) Q w :=
    wp_readMaster hI hfail hok
  unfold readMasterCall
  refine wp_bind (wp_get ?_)
  unfold Session.readArgs at hcall
  split at hcall
  · next hz => rwa [if_pos hz]
  · next hz => rwa [if_neg hz]

/-- The part of a round that reads from the master. -/
theorem wp_readMasterPart {Q : SRun → Prop} (hI : I w)
    (hskip : w.st.loc.masterRevents.pollin = false → Q w)
    (hfail : ∀ e, E e → ∀ er, (er ≠ .eintr → (deliver e w.st).sys.pty = []) →
      wp E I (failed 1) (fun _ => Q) (readRun w e (.error er) ((deliver e w.st).failing er)))
    (heof : ∀ e, E e → w.st.readArgs.2 = 0 ∨ (deliver e w.st).sys.pty = [] →
      Q (readRun w e (.ok []) { deliver e w.st with done := 6 }))
    (hdata : ∀ e, E e → ∀ data, data ≠ [] → data.length ≤ w.st.readArgs.2 →
      data <+: (deliver e w.st).sys.pty → wp E I (masterReceived data.length) (fun _ => Q)
        (readRun w e (.ok data) ((deliver e w.st).gotMaster w.st.readArgs.1 data))) :
    wp E I readMasterPart (fun _ => Q) w := by
  unfold readMasterPart
  refine wp_bind (wp_get ?_)
  split
  · refine wp_bind (wp_readMasterCall hI (fun e he er her => ?_) fun e he data hlen hp hnil => ?_)
    · simpa using hfail e he er her
    · rcases data with _ | ⟨b, data⟩
      · rw [if_neg (by simp), if_pos (by simp)]
        refine wp_modify ?_
        rw [gotMaster_nil]
        exact heof e he (hnil rfl)
      · have hpos : (0 : ℤ) < ((b :: data).length : ℕ) := by simp
        rw [if_pos hpos]
        exact hdata e he (b :: data) (by simp) hlen hp
  · next hp => exact wp_pure (hskip (by simpa using hp))

/-- The variables after `i` bytes went into the buffer to stay there. -/
def Locals.held (i : ℕ) (l : Locals) : Locals :=
  let l := l.received i
  { l with flagMinlimitEx := l.minlimit ≤ l.totali || l.flagMinlimitEx }

section Held

variable (l : Locals) (i : ℕ)

@[simp] theorem held_tbufd2 : (l.held i).tbufd2 = l.tbufd2 + i := rfl

@[simp] theorem held_totali : (l.held i).totali = l.totali + i := rfl

@[simp] theorem held_freesize : (l.held i).freesize = l.freesize - i := rfl

end Held

/-- Bytes of the master are sent at once, from the start of the buffer, or stay in it. -/
theorem wp_masterReceived {Q : SRun → Prop} {i : ℕ} (hi : 0 < i)
    (hb : w.st.bufd ≠ [])
    (hcut : w.st.cfg.forwardtimer = 0 →
      ∀ k w', Sent E (w.st.bufd.headD 0) ((w.st.bufd.drop 1).take i) k w w' → I w')
    (hsent : w.st.cfg.forwardtimer = 0 → ∀ r w', Written E w.st.bufd (i + 1) w r w' →
      Q ⟨{ w'.st with bufd := r.2 }, w'.trace⟩)
    (hcut' : w.st.cfg.forwardtimer ≠ 0 → I ⟨{ w.st with loc := w.st.loc.held i }, w.trace⟩)
    (hheld : w.st.cfg.forwardtimer ≠ 0 → ∀ s, Noted E { w.st with loc := w.st.loc.held i } s →
      Q ⟨s, w.trace⟩) :
    wp E I (masterReceived i) (fun _ => Q) w := by
  unfold masterReceived
  refine wp_bind (wp_get ?_)
  split
  · next hz =>
    refine wp_bind (wp_get (wp_bind (wp_mono
      (wp_writensockint (by omega) hb w) (fun w' h => ?_) fun r w' h => ?_)))
    · obtain ⟨k, hk⟩ := h
      exact hcut hz k w' hk
    · exact wp_modify (hsent hz r w' h)
  · next hz =>
    -- the timer is set or reset, whichever way the threshold goes
    have htimer : ∀ (e : Env) (he : E e) (l : Locals) (b : Bool), l = w.st.loc.held i →
        Noted E { w.st with loc := w.st.loc.held i }
          { deliver e { w.st with loc := l } with
            sys := { (deliver e { w.st with loc := l }).sys with rtimer := b } } := by
      rintro e he l b rfl
      exact IsTrans.trans _ _ _ (noted_deliver e he _) (noted_timers _ b _)
    refine wp_bind (wp_modify (wp_bind (wp_get ?_)))
    have hcut := hcut' hz
    by_cases hmin : (w.st.loc.received i).minlimit ≤ (w.st.loc.received i).totali
    · have hl : w.st.loc.held i = { w.st.loc.received i with flagMinlimitEx := true } := by
        simp [Locals.held, hmin]
      rw [if_pos hmin]
      rw [hl] at hcut
      refine wp_bind (wp_modify (wp_assign hcut fun e he => ?_))
      exact hheld hz _ (htimer e he _ false hl.symm)
    · have hl : w.st.loc.held i = w.st.loc.received i := by simp [Locals.held, hmin]
      rw [if_neg hmin]
      rw [hl] at hcut
      exact wp_setReadTimeout hcut fun e he _ => hheld hz _ (htimer e he _ _ hl.symm)

/-! ## The flush -/

/-- A flush is due: the terminal side has hung up, the timer has expired, or there is a lot of
bytes in the buffer. -/
def Session.due (s : Session) : Bool :=
  s.done = 3 || s.flagForwardtimerEx || s.loc.flagMinlimitEx

/-- The condition of a flush. -/
def Session.flushes (s : Session) : Bool := s.due && s.cfg.forwardtimer ≠ 0

/-- The Q byte of a flush is 0. -/
@[simp] theorem flushing_headD (s : Session) : s.flushing.bufd.headD 0 = 0 := by
  unfold Session.flushing
  cases s.bufd with
  | nil => rfl
  | cons b bufd => rfl

@[simp] theorem flushing_drop (s : Session) : s.flushing.bufd.drop 1 = s.bufd.drop 1 :=
  List.drop_set_of_lt (Nat.lt_succ_self 0)

@[simp] theorem flushing_length (s : Session) : s.flushing.bufd.length = s.bufd.length :=
  List.length_set

/-- The flush of a round: it is not due, or there is nothing to send, or all of it is sent. -/
theorem wp_forwardPart {Q : SRun → Prop}
    (hskip : w.st.flushes = false → Q ⟨w.st, w.trace ++ [(.forwardTest, w.st)]⟩)
    (hclear : w.st.flushes = true → w.st.loc.totali = 0 →
      Q ⟨{ w.st with
        flagForwardtimerEx := false
        loc := { w.st.loc with flagMinlimitEx := false } }, w.trace ++ [(.forwardTest, w.st)]⟩)
    (hb : w.st.bufd ≠ [])
    (hcut : w.st.flushes = true → w.st.loc.totali ≠ 0 → ∀ k w',
      Sent E 0 ((w.st.bufd.drop 1).take w.st.loc.totali) k
        ⟨w.st.flushing, w.trace ++ [(.forwardTest, w.st)]⟩ w' → I w')
    (hsent : w.st.flushes = true → w.st.loc.totali ≠ 0 → ∀ r w',
      Written E w.st.flushing.bufd (w.st.loc.totali + 1)
        ⟨w.st.flushing, w.trace ++ [(.forwardTest, w.st)]⟩ r w' →
      Q ⟨w'.st.flushed r.1 r.2, w'.trace⟩) :
    wp E I forwardPart (fun _ => Q) w := by
  unfold forwardPart
  refine wp_bind (wp_label (wp_bind (wp_get ?_)))
  -- the test of the source is the condition of a flush
  have hfl : (((w.st.done = 3 ∨ w.st.flagForwardtimerEx = true ∨ w.st.loc.flagMinlimitEx = true) ∧
      w.st.cfg.forwardtimer ≠ 0)) ↔ w.st.flushes = true := by
    simp [Session.flushes, Session.due, or_assoc]
  split
  · next hc =>
    have hf := hfl.mp hc
    split
    · next hz => exact wp_modify (hclear hf hz)
    · next hz =>
      have hz : w.st.loc.totali ≠ 0 := hz
      have hb' : w.st.flushing.bufd ≠ [] := List.length_pos_iff.mp (by
        rw [flushing_length]
        exact List.length_pos_iff.mpr hb)
      have h2 : 2 ≤ w.st.loc.totali + 1 := by omega
      refine wp_bind (wp_modify (wp_bind (wp_get (wp_bind (wp_mono
        (wp_writensockint h2 hb' _) (fun w' h => ?_) fun r w' h => ?_)))))
      · obtain ⟨k, hk⟩ := h
        rw [flushing_headD, flushing_drop] at hk
        exact hcut hf hz k w' hk
      · exact wp_modify (hsent hf hz r w' h)
  · next hc => exact wp_pure (hskip (by simpa using fun h => hc (hfl.mpr h)))

/-! ## The round and the loop -/

/-- The wait for something to do: `poll` reports what there is, or it fails. -/
theorem wp_pollPart {Q : Ctl → SRun → Prop} (hI : ∀ w', Aside E True w w' → I w')
    (hready : ∀ s so ma pi, Noted E w.st s → (ma.pollhup = true → s.sys.closed = true) →
      Q .next ⟨s.reported so ma pi, w.trace ++ [(.poll (.ready so ma pi), s)]⟩)
    (hfail : ∀ s er, Noted E w.st s → er ≠ .eintr →
      Q .leave ⟨{ (s.failing er).reported {} {} {} with done := 11 },
        w.trace ++ [(.poll (.fail er), s)]⟩)
    (hintr : ∀ s w', Noted E w.st s →
      Served E ⟨(s.failing .eintr).reported {} {} {},
        w.trace ++ [(.poll (.fail .eintr), s)]⟩ w' → Q .next w') :
    wp E I pollPart Q w := by
  have hI₀ := hI w (.refl w)
  unfold pollPart setWatchDog
  -- the watchdog is armed first; the run may be cut in front of it and behind it
  refine wp_bind (wp_assign hI₀ fun e he => ?_)
  have hn₁ : Noted E w.st { deliver e w.st with
      sys := { (deliver e w.st).sys with wtimer := armed (deliver e w.st).cfg.watchdogTimeout } } :=
    IsTrans.trans _ _ _ (noted_deliver e he w.st) (noted_timers _ _ _)
  have hI₁ := hI _ (.of_rel hn₁.toHandled.beside)
  generalize { deliver e w.st with sys := { (deliver e w.st).sys with
    wtimer := armed (deliver e w.st).cfg.watchdogTimeout } } = s₁ at hn₁ hI₁
  have hn : ∀ e, E e → Noted E w.st (deliver e s₁) := fun e he =>
    IsTrans.trans _ _ _ hn₁ (noted_deliver e he s₁)
  refine wp_bind (wp_pollCall hI₁ (fun e he er => ?_) fun e he so ma pi hcl =>
    wp_pure (hready _ so ma pi (hn e he) hcl))
  · have hn := hn e he
    dsimp only
    generalize deliver e s₁ = s at hn ⊢
    refine wp_bind (wp_get ?_)
    by_cases her : er = .eintr
    · subst her
      rw [if_neg (by simp)]
      -- interrupted: the flags are looked at, and nothing is reported
      have hb : Beside E True w.st (s.failing .eintr) :=
        IsTrans.trans _ _ _ hn.toHandled.beside (beside_sys s rfl rfl)
      have hb : Beside E True w.st ((s.failing .eintr).reported {} {} {}) :=
        IsTrans.trans _ _ _ hb (beside_reported _ _ _ _)
      have ha : Aside E True w ⟨(s.failing .eintr).reported {} {} {},
          w.trace ++ [(.poll (.fail .eintr), s)]⟩ := by
        refine ⟨hb, [_], rfl, fun x hx => ?_⟩
        rw [List.mem_singleton.mp hx]
        exact ⟨hn.toHandled.beside, trivial, fun _ _ _ h => by cases h⟩
      refine wp_bind (wp_mono (wp_doInter _) (fun w' hs => ?_) fun _ w' hs => ?_)
      · exact hI w' (ha.trans (served_aside hs))
      · exact wp_pure (hintr s w' hn hs.1)
    · rw [if_pos (by simpa using her)]
      exact wp_bind (wp_modify (wp_pure (hfail s er hn her)))

/-- The end of the round by an error or a hang-up, from what the last `poll` reported. -/
theorem wp_reventsPart {Q : Ctl → SRun → Prop}
    (herr : w.st.loc.masterRevents.pollerr ∨ w.st.loc.masterRevents.pollnval →
      Q .leave ⟨{ w.st with done := 1 }, w.trace⟩)
    (hsock : ∀ s, s = w.st ∨ s = { w.st with done := 3 } → ∀ n, n = 10 ∨ n = 2 →
      Q .leave ⟨{ s with done := n }, w.trace⟩)
    (hnext : ¬ (w.st.loc.masterRevents.pollerr ∨ w.st.loc.masterRevents.pollnval) →
      Q .next ⟨if w.st.loc.masterRevents.pollhup then { w.st with done := 3 } else w.st,
        w.trace⟩) :
    wp E I reventsPart Q w := by
  unfold reventsPart masterHangup
  refine wp_bind (wp_get ?_)
  dsimp only
  split
  · next he => exact wp_bind (wp_modify (wp_pure (herr he)))
  · next he =>
    refine wp_bind (wp_bind (wp_get ?_))
    -- a hang-up of the terminal side only sets `Done`; the socket is looked at all the same
    have hnext := hnext he
    split
    · next hh =>
      rw [if_pos hh] at hnext
      refine wp_modify ?_
      split
      · exact wp_bind (wp_modify (wp_pure (hsock _ (Or.inr rfl) 10 (Or.inl rfl))))
      · split
        · exact wp_bind (wp_modify (wp_pure (hsock _ (Or.inr rfl) 2 (Or.inr rfl))))
        · exact wp_pure hnext
    · next hh =>
      rw [if_neg hh] at hnext
      refine wp_pure ?_
      split
      · exact wp_bind (wp_modify (wp_pure (hsock _ (Or.inl rfl) 10 (Or.inl rfl))))
      · split
        · exact wp_bind (wp_modify (wp_pure (hsock _ (Or.inl rfl) 2 (Or.inr rfl))))
        · exact wp_pure hnext

/-- A round, part by part. -/
theorem wp_doCopyRound {L H A B C D F : SRun → Prop}
    (hpoll : wp E I pollPart (fun c w' => if c = .leave then L w' else A w') w)
    (hsignal : ∀ w, A w → wp E I signalPart (fun _ => B) w)
    (hrevents : ∀ w, B w →
      wp E I reventsPart (fun c w' => if c = .leave then L w' else C w') w)
    (hmaster : ∀ w, C w → wp E I readMasterPart (fun _ => D) w)
    (hsocket : ∀ w, D w → wp E I readSocketPart (fun _ => F) w)
    (hforward : ∀ w, F w → wp E I forwardPart (fun _ => H) w) :
    wp E I doCopyRound (fun c w' => if c = .leave then L w' else H w') w := by
  unfold doCopyRound
  refine wp_seq hpoll fun c w₁ h₁ => ?_
  cases c with
  | leave => exact wp_pure h₁
  | next =>
    refine wp_seq (hsignal w₁ h₁) fun _ w₂ h₂ => ?_
    refine wp_seq (hrevents w₂ h₂) fun c w₃ h₃ => ?_
    cases c with
    | leave => exact wp_pure h₃
    | next =>
      refine wp_seq (hmaster w₃ h₃) fun _ w₄ h₄ => ?_
      refine wp_seq (hsocket w₄ h₄) fun _ w₅ h₅ => ?_
      exact wp_seq (hforward w₅ h₅) fun _ _ h => wp_pure h

/-- **A round under an assertion that its other parts keep**: `J` up to the read from the master,
and `J'` from there to the flush. -/
theorem wp_doCopyRound_aside {J J' H : SRun → Prop} (hJI : ∀ w, J w → I w)
    (hJI' : ∀ w, J' w → I w) (hJ : ∀ w w', J w → Aside E True w w' → J w')
    (hJ' : ∀ w w', J' w → Aside E False w w' → J' w')
    (hmaster : ∀ w, J w → wp E I readMasterPart (fun _ => J') w)
    (hforward : ∀ w, J' w → wp E I forwardPart (fun _ => H) w) (hw : J w) :
    wp E I doCopyRound (fun c w' => if c = .leave then J w' else H w') w := by
  have haside : ∀ {α : Type} {m : SProg α}, (∀ w₀, Keeps E (Aside E True w₀) m) → ∀ w', J w' →
      wp E I m (fun _ => J) w' := fun hm w' hw' =>
    wp_mono (wp_within (hm w')) (fun w'' h => hJI w'' (hJ w' w'' hw' h)) fun _ w'' h =>
      hJ w' w'' hw' h
  refine wp_doCopyRound (A := J) (B := J) (C := J) (D := J') (F := J') ?_
    (haside keeps_signalPart_aside) (fun w' hw' => ?_) hmaster (fun w' hw' => ?_) hforward
  · exact wp_mono (haside keeps_pollPart_aside w hw) (fun _ h => h) fun c _ h => by
      split <;> exact h
  · exact wp_mono (haside keeps_reventsPart_aside w' hw') (fun _ h => h) fun c _ h => by
      split <;> exact h
  · exact wp_mono (wp_within (keeps_readSocketPart_aside w'))
      (fun w'' h => hJI' w'' (hJ' w' w'' hw' h)) fun _ w'' h => hJ' w' w'' hw' h

/-- **The loop.** `H` holds at its head, and `L` where a round leaves it. -/
theorem wp_doCopyLoop {H L : SRun → Prop} {Q : SRun → Prop} (hHI : ∀ w, H w → I w)
    (hround : ∀ w, H w → w.st.done = 0 →
      wp E I doCopyRound (fun c w' => if c = .leave then L w' else H w')
        ⟨w.st, w.trace ++ [(.loopHead, w.st)]⟩)
    (hexit : ∀ w, H w → w.st.done ≠ 0 →
      Q ⟨w.st, w.trace ++ [(.loopHead, w.st)] ++ [(.loopEnd, w.st)]⟩)
    (hleave : ∀ w, L w → Q ⟨w.st, w.trace ++ [(.loopEnd, w.st)]⟩) (hw : H w) :
    wp E I doCopyLoop (fun _ => Q) w := by
  unfold doCopyLoop
  refine wp_bind (wp_iter (fun _ => H) (fun _ w h => hHI w h) (fun _ w h => ?_) hw)
  refine wp_bind (wp_label (wp_bind (wp_get ?_)))
  split
  · next hd =>
    refine wp_pure ?_
    show wp E I (label .loopEnd) (fun _ => Q) _
    exact wp_label (hexit w h hd)
  · next hd =>
    refine wp_seq (hround w h (by simpa using hd)) fun c w' h' => ?_
    cases c with
    | leave =>
      refine wp_pure ?_
      show wp E I (label .loopEnd) (fun _ => Q) w'
      exact wp_label (hleave w' (by simpa using h'))
    | next => exact wp_pure (by simpa using h')

/-- **One assertion for the whole loop**, that the points of the loop and the other parts of a round
cannot break, and that the read from the master and the flush keep. -/
theorem wp_doCopyLoop_invariant {J : SRun → Prop} (hJI : ∀ w, J w → I w)
    (hlabel : ∀ w k, k = .loopHead ∨ k = .loopEnd → J w → J ⟨w.st, w.trace ++ [(k, w.st)]⟩)
    (haside : ∀ w w', J w → Aside E True w w' → J w')
    (hmaster : ∀ w, J w → wp E I readMasterPart (fun _ => J) w)
    (hforward : ∀ w, J w → wp E I forwardPart (fun _ => J) w) (hw : J w) :
    wp E I doCopyLoop (fun _ => J) w := by
  refine wp_doCopyLoop (H := J) (L := J) hJI (fun w h _ => ?_) (fun w h _ => ?_) (fun w h => ?_) hw
  · exact wp_doCopyRound_aside hJI hJI haside (fun w w' h ha => haside w w' h ha.noticed) hmaster
      hforward (hlabel w _ (Or.inl rfl) h)
  · exact hlabel _ .loopEnd (Or.inr rfl) (hlabel w _ (Or.inl rfl) h)
  · exact hlabel w _ (Or.inr rfl) h

/-- **What every part of a round keeps**, and the points of the loop, the loop keeps. -/
theorem keeps_doCopyLoop {J : SRun → Prop}
    (hlabel : ∀ w k, k = .loopHead ∨ k = .loopEnd → J w → J ⟨w.st, w.trace ++ [(k, w.st)]⟩)
    (hpoll : Keeps E J pollPart) (hsignal : Keeps E J signalPart) (hrevents : Keeps E J reventsPart)
    (hmaster : Keeps E J readMasterPart) (hsocket : Keeps E J readSocketPart)
    (hforward : Keeps E J forwardPart) : Keeps E J doCopyLoop := by
  have hround : Keeps E J doCopyRound := by
    unfold doCopyRound
    refine .bind hpoll fun c => ?_
    cases c with
    | leave => exact .pure
    | next =>
      refine .bind hsignal fun _ => .bind hrevents fun c => ?_
      cases c with
      | leave => exact .pure
      | next => exact .bind hmaster fun _ => .bind hsocket fun _ => .bind hforward fun _ => .pure
  unfold doCopyLoop
  refine .bind (.iter (fun _ => .bind (fun w hw => wp_label (hlabel w _ (Or.inl rfl) hw)) fun _ =>
    .bind .get fun _ => .ite .pure (.bind hround fun c => ?_)) _) fun _ w hw =>
      wp_label (hlabel w _ (Or.inr rfl) hw)
  cases c with
  | leave => exact .pure
  | next => exact .pure

end PadSvr
