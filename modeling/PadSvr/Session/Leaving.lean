import PadSvr.Session.Buffer

/-!
# Leaving the loop on the terminal side

When the loop ends because of the master, the bytes held must have been handed to
`writensockint`. A flush test sees to that for a hang-up, `Done = 3`, but `POLLERR` and `POLLNVAL`
leave the round before it, and an end of file or a failed read change `Done` to 6 or 1, for which
no flush is due.

## Main definitions

* `FlushedAtEnd`: no error report and no flush test lets bytes held go

## Main results

* `doCopy_left_iff`: what the buffer holds when the loop is left on the terminal side
* `not_doCopy_left`: a hang-up whose read fails
-/

namespace PadSvr

open Scripted Scripted.Prog

/-- `POLLERR` or `POLLNVAL`. -/
def Revents.Fails (r : Revents) : Prop := r.pollerr = true ∨ r.pollnval = true

instance (r : Revents) : Decidable r.Fails :=
  inferInstanceAs (Decidable (_ ∨ _))

/-- The loop ends because of the master. -/
def Session.Hung (s : Session) : Prop := s.done = 1 ∨ s.done = 3 ∨ s.done = 6

instance (s : Session) : Decidable s.Hung := inferInstanceAs (Decidable (_ ∨ _ ∨ _))

/-- Where an error of the master is reported, and where a flush test finds `Done` 1 or 6, no byte is
held, or a flush is due. -/
def FlushedAtEnd (_ : STrace) : Event → Session → Prop
  | .poll (.ready _ master _), s => master.Fails → s.loc.totali = 0
  | .forwardTest, s => s.done = 1 ∨ s.done = 6 → s.loc.totali = 0 ∨ s.due = true
  | _, _ => True

instance (t : STrace) (k : Event) (s : Session) : Decidable (FlushedAtEnd t k s) := by
  unfold FlushedAtEnd
  split <;> infer_instance

/-! ## The invariants -/

/-- The loop ends on the terminal side with an empty buffer exactly if nothing let bytes go. -/
def Ends (w : SRun) : Prop :=
  w.st.Hung → (w.st.loc.totali = 0 ↔ Always FlushedAtEnd w.trace)

/-- At the head of the loop. -/
structure Running (E : Env → Prop) (s₀ : Session) (w : SRun) : Prop where
  laid : Laid E s₀ w.st
  running : w.st.done = 0 → Always FlushedAtEnd w.trace
  ends : Ends w

/-- After the `poll` of a round. -/
structure Polled (E : Env → Prop) (s₀ : Session) (w : SRun) : Prop where
  laid : Laid E s₀ w.st
  fine : ¬ w.st.loc.masterRevents.Fails → Always FlushedAtEnd w.trace
  fails : w.st.loc.masterRevents.Fails → (w.st.loc.totali = 0 ↔ Always FlushedAtEnd w.trace)

/-- From the reports of `poll` to the flush. -/
structure Copying (E : Env → Prop) (s₀ : Session) (w : SRun) : Prop where
  laid : Laid E s₀ w.st
  fine : ¬ w.st.loc.masterRevents.Fails
  good : Always FlushedAtEnd w.trace

section Steps

variable {E : Env → Prop} {s₀ : Session} {w w' : SRun}

theorem flushedAtEnd_served (hs : Served E w w') (h : Always FlushedAtEnd w.trace) :
    Always FlushedAtEnd w'.trace :=
  hs.always h fun _ _ _ hk => by
    obtain ⟨_, rfl⟩ := hk.eq
    trivial

theorem flushedAtEnd_sent {q : UInt8} {payload : List UInt8} {k : ℕ}
    (h : Always FlushedAtEnd w.trace) (hs : Sent E q payload k w w') :
    Always FlushedAtEnd w'.trace :=
  hs.always h fun _ _ _ hk => by
    rcases hk.eq with ⟨_, rfl⟩ | ⟨_, _, rfl, -⟩ <;> trivial

/-- The other parts of a round after the `poll`. -/
theorem flushedAtEnd_aside (ha : Aside E False w w') :
    w'.st.loc.masterRevents = w.st.loc.masterRevents ∧
      (Always FlushedAtEnd w'.trace ↔ Always FlushedAtEnd w.trace) := by
  refine ⟨ha.1.revents.resolve_left id, fun h => ?_, fun h => ha.always h fun _ _ _ hk => ?_⟩
  · obtain ⟨-, t, ht, -⟩ := ha
    rw [ht] at h
    exact always_of_append h
  · rcases hk.eq with ⟨hf, -⟩ | ⟨_, rfl⟩ | ⟨_, _, rfl⟩ | ⟨_, _, rfl⟩ | ⟨_, rfl⟩
    · exact hf.elim
    all_goals trivial

theorem Polled.aside (h : Polled E s₀ w) (ha : Aside E False w w') : Polled E s₀ w' := by
  obtain ⟨hm, hiff⟩ := flushedAtEnd_aside ha
  obtain ⟨hl, -, ht⟩ := h.laid.beside ha.1
  refine ⟨hl, fun hf => hiff.mpr (h.fine ?_), fun hf => ?_⟩
  · rwa [← hm]
  · rw [ht, hiff]
    exact h.fails (by rwa [← hm])

theorem Copying.aside (h : Copying E s₀ w) (ha : Aside E False w w') : Copying E s₀ w' := by
  obtain ⟨hm, hiff⟩ := flushedAtEnd_aside ha
  exact ⟨(h.laid.beside ha.1).1, by rw [hm]; exact h.fine, hiff.mpr h.good⟩

/-- The `poll` of a round. -/
theorem wp_pollPart_polled (h : Running E s₀ w) (hd : w.st.done = 0) :
    wp E (fun _ => True) pollPart (fun c w' => if c = .leave then Ends w' else Polled E s₀ w')
      ⟨w.st, w.trace ++ [(.loopHead, w.st)]⟩ := by
  have hgood : Always FlushedAtEnd (w.trace ++ [(.loopHead, w.st)]) :=
    always_concat.mpr ⟨h.running hd, trivial⟩
  refine wp_pollPart (fun _ _ => trivial) (fun s so ma pi hn _ => ?_) (fun s er hn _ => ?_)
    fun s w' hn hs => ?_
  · -- the report of this round
    have hl : Laid E s₀ s := h.laid.of_eq hn.loc (by rw [hn.bufd]) hn.cfg
    rw [if_neg (by simp)]
    refine ⟨⟨⟨hl.tbufd2, hl.free, hl.bufd⟩, hl.cfg, hl.full⟩, fun hf => ?_, fun hf => ?_⟩
    · exact always_concat.mpr ⟨hgood, fun h => absurd h hf⟩
    · exact ⟨fun hz => always_concat.mpr ⟨hgood, fun _ => hz⟩,
        fun hall => (always_concat.mp hall).2 hf⟩
  · rw [if_pos rfl]
    rintro (h₁ | h₃ | h₆)
    · cases h₁
    · cases h₃
    · cases h₆
  · -- an interrupted `poll` reports no error
    rw [if_neg (by simp)]
    have hl : Laid E s₀ s := h.laid.of_eq hn.loc (by rw [hn.bufd]) hn.cfg
    have hl' : Laid E s₀ ((s.failing .eintr).reported {} {} {}) :=
      ⟨⟨hl.tbufd2, hl.free, hl.bufd⟩, hl.cfg, hl.full⟩
    have hm : ¬ w'.st.loc.masterRevents.Fails := by
      rw [hs.1.loc]
      simp [Revents.Fails]
    refine ⟨hl'.of_eq hs.1.loc (by rw [hs.1.bufd]) hs.1.cfg, fun _ => ?_, fun hf => absurd hf hm⟩
    exact flushedAtEnd_served hs (always_concat.mpr ⟨hgood, trivial⟩)

/-- The errors and hang-ups of a round. -/
theorem wp_reventsPart_polled (h : Polled E s₀ w) :
    wp E (fun _ => True) reventsPart
      (fun c w' => if c = .leave then Ends w' else Copying E s₀ w') w := by
  refine wp_reventsPart (fun hf => ?_) (fun s _ n hn => ?_) fun hf => ?_
  · rw [if_pos rfl]
    exact fun _ => h.fails hf
  · rw [if_pos rfl]
    rintro (h₁ | h₃ | h₆)
    all_goals
      dsimp only at *
      omega
  · rw [if_neg (by simp)]
    split
    · exact ⟨⟨⟨h.laid.tbufd2, h.laid.free, h.laid.bufd⟩, h.laid.cfg, h.laid.full⟩, hf, h.fine hf⟩
    · exact ⟨h.laid, hf, h.fine hf⟩

variable (hfix : ∀ c, CfgReach E s₀.cfg c → c.forwardtimer = s₀.cfg.forwardtimer ∧
    c.bufferSize = s₀.cfg.bufferSize) (hft : s₀.cfg.forwardtimer ≠ 0)

include hfix hft in
theorem wp_readMasterPart_copying (h : Copying E s₀ w) :
    wp E (fun _ => True) readMasterPart (fun _ => Copying E s₀) w := by
  have hon : w.st.cfg.forwardtimer ≠ 0 := by rwa [(hfix _ h.laid.cfg).1]
  have hread : ∀ (e : Env) res s, Always FlushedAtEnd (readRun w e res s).trace := fun e res s =>
    always_concat.mpr ⟨h.good, trivial⟩
  refine wp_readMasterPart_laid (fun c hc => Int.le_of_eq (hfix c hc).2) h.laid trivial
    (fun _ => h) (fun e he er _ => ?_) (fun e he _ => ⟨?_, ?_, hread e _ _⟩)
    (fun hz => absurd hz hon) (fun hz => absurd hz hon) fun _ e he data hne hlen _ s hs =>
      ⟨trivial, fun s' hn hl hh => ⟨hl, ?_, hread e _ s'⟩⟩
  · have h₁ : Copying E s₀ (readRun w e (.error er) ((deliver e w.st).failing er)) :=
      ⟨(h.laid.delivered e).of_eq rfl rfl .refl, by simpa using h.fine, hread e _ _⟩
    exact wp_failed_aside (fun _ _ => trivial) (fun _ ha => h₁.aside ha) (by simp) (by simp)
  · exact (h.laid.delivered e).of_eq rfl rfl .refl
  · simpa using h.fine
  · rw [hn.loc, hs]
    exact h.fine

include hfix hft in
/-- The flush of a round: where it is not due, the buffer keeps what it holds. -/
theorem wp_forwardPart_copying (h : Copying E s₀ w) :
    wp E (fun _ => True) forwardPart (fun _ => Running E s₀) w := by
  have hon : w.st.cfg.forwardtimer ≠ 0 := by rwa [(hfix _ h.laid.cfg).1]
  have hfl : w.st.flushes = w.st.due := by simp [Session.flushes, hon]
  have htest : w.st.due = true ∨ w.st.loc.totali = 0 →
      Always FlushedAtEnd (w.trace ++ [(.forwardTest, w.st)]) := fun hd =>
    always_concat.mpr ⟨h.good, fun _ => hd.symm⟩
  refine wp_forwardPart_laid (fun c hc => Int.le_of_eq (hfix c hc).2) h.laid (fun hf => ?_)
    (fun hf hz s hs hl => ?_) (fun _ _ _ _ _ => trivial) fun hf hz p w' hw hs hl => ?_
  · rw [hfl] at hf
    have h₃ : w.st.done ≠ 3 := fun h₃ => by simp [Session.due, h₃] at hf
    have htest : (w.st.done = 1 ∨ w.st.done = 6 → w.st.loc.totali = 0) ↔
        Always FlushedAtEnd (w.trace ++ [(.forwardTest, w.st)]) := by
      rw [always_concat]
      simp [h.good, FlushedAtEnd, hf]
    refine ⟨h.laid, fun (hd : w.st.done = 0) => ?_,
      fun (hd : w.st.Hung) => ?_⟩
    · exact htest.mp fun h => by omega
    · have hd : w.st.done = 1 ∨ w.st.done = 6 := by
        rcases hd with hd | hd | hd
        · exact Or.inl hd
        · exact absurd hd h₃
        · exact Or.inr hd
      exact ⟨fun hz => htest.mp fun _ => hz, fun hall => htest.mpr hall hd⟩
  · have hall := htest (Or.inr hz)
    subst hs
    exact ⟨hl, fun _ => hall, fun _ => ⟨fun _ => hall, fun _ => hz⟩⟩
  · have hall := flushedAtEnd_sent (htest (Or.inl (hfl ▸ hf))) hs
    exact ⟨hl, fun _ => hall, fun _ => ⟨fun _ => hall, fun _ => rfl⟩⟩

end Steps

/-! ## The theorems -/

/-- **What is held when the loop is left on the terminal side.** With the idle timer and fixed
settings, a run that leaves the loop with `Done` 1, 3 or 6 leaves nothing in the buffer exactly
when no report of an error and no flush test has let bytes go. -/
theorem doCopy_left_iff {es : List Env} {s : Session} {bufn bufd : List UInt8} {w : SRun}
    (hft : s.cfg.forwardtimer ≠ 0) (hbufd : bufd.length = s.cfg.bufferSize.toNat + 1)
    (hfix : ∀ c, CfgReach (· ∈ es) s.cfg c →
      c.forwardtimer = s.cfg.forwardtimer ∧ c.bufferSize = s.cfg.bufferSize)
    (hw : w ∈ doCopyLeft es s bufn bufd) (hd : w.st.Hung) :
    w.st.loc.totali = 0 ↔ Always FlushedAtEnd w.trace := by
  have hstart : Running (· ∈ es) s ⟨doCopyStart s bufn bufd, []⟩ :=
    ⟨laid_doCopyStart _ s bufn hbufd, fun _ => always_nil,
      fun _ => ⟨fun _ => always_nil, fun _ => rfl⟩⟩
  have hloop : wp (· ∈ es) (fun _ => True) doCopyLoop (fun _ => Ends)
      ⟨doCopyStart s bufn bufd, []⟩ := by
    refine wp_doCopyLoop (H := Running (· ∈ es) s) (L := Ends) (fun _ _ => trivial)
      (fun w h hd => wp_doCopyRound (A := Polled (· ∈ es) s) (B := Polled (· ∈ es) s)
        (C := Copying (· ∈ es) s) (D := Copying (· ∈ es) s) (F := Copying (· ∈ es) s)
        (wp_pollPart_polled h hd) (fun w h => ?_) (fun w h => wp_reventsPart_polled h)
        (fun w h => wp_readMasterPart_copying hfix hft h) (fun w h => ?_)
        fun w h => wp_forwardPart_copying hfix hft h)
      (fun w h hd h' => ?_) (fun w h h' => ?_) hstart
    · exact wp_mono (wp_within (keeps_signalPart_aside w)) (fun _ _ => trivial)
        fun _ _ ha => h.aside ha
    · exact wp_mono (wp_within (keeps_readSocketPart_aside w)) (fun _ _ => trivial)
        fun _ _ ha => h.aside ha
    · rw [always_concat, always_concat]
      simpa [FlushedAtEnd] using h.ends h'
    · rw [always_concat]
      simpa [FlushedAtEnd] using h h'
  exact left_of_wp hloop (fun _ he => he) hw hd

/-- Three bytes are read and held; then the terminal side hangs up, with nothing more to read. -/
def hangupScript (master : Except Errno ℕ) : List Env :=
  polled [.typed [97, 98, 99]] true false ++ [{ Env.willing with master := .ok 3 }] ++ quiet 2 ++
    [{ Env.willing with
      before := [.hangup], poll := .ready {} { pollin := true, pollhup := true } {} }] ++
    [{ Env.willing with master := master }] ++ quiet 7

/-- The read after the hang-up is interrupted: `Done` stays 3, and the flush sends what is held. -/
theorem doCopy_left_iff_hangup :
    ∃ w ∈ doCopyLeft (hangupScript (.error .eintr)) (.fresh 10 8) [] (List.replicate 9 0),
      w.st.Hung ∧ w.st.loc.totali = 0 := by
  have hall : ∀ e ∈ hangupScript (.error .eintr), e.file = .missing false := by decide
  have hleft : (doCopyLeft (hangupScript (.error .eintr)) (.fresh 10 8) []
      (List.replicate 9 0)).any
      (fun w => w.st.Hung ∧ Always FlushedAtEnd w.trace) = true := by decide +kernel
  obtain ⟨w, hw, hw'⟩ := (Option.any_eq_true _ _).mp hleft
  obtain ⟨hd, hgood⟩ := of_decide_eq_true hw'
  refine ⟨w, hw, hd, (doCopy_left_iff (s := .fresh 10 8) (by decide) (by decide) (fun c hc => ?_)
    hw hd).mpr hgood⟩
  rw [cfgReach_of_missing hall hc]
  exact ⟨rfl, rfl⟩

/-- The read after the hang-up fails: `Done` becomes 1, and three bytes stay behind. -/
theorem not_doCopy_left :
    ¬ ∀ (es : List Env) (s : Session) (bufn bufd : List UInt8), s.cfg.forwardtimer ≠ 0 →
      bufd.length = s.cfg.bufferSize.toNat + 1 →
      (∀ c, CfgReach (· ∈ es) s.cfg c →
        c.forwardtimer = s.cfg.forwardtimer ∧ c.bufferSize = s.cfg.bufferSize) →
      s.Calm → (∀ e ∈ es, e.Calm ∧ Writes e.wsock) →
        ∀ w ∈ doCopyLeft es s bufn bufd, w.st.Hung → w.st.loc.totali = 0 := by
  intro h
  have hall : ∀ e ∈ hangupScript (.error (.other 5)), e.file = .missing false := by decide
  have h₁ := h (hangupScript (.error (.other 5))) (.fresh 10 8) [] (List.replicate 9 0) (by decide)
    (by decide) (fun c hc => by rw [cfgReach_of_missing hall hc]; exact ⟨rfl, rfl⟩) ⟨rfl, rfl⟩
    (by decide)
  revert h₁
  decide +kernel

end PadSvr
