import PadSvr.Process.Accept

/-!
# Signals of the accepting process

`do_inter` looks at each flag once, and runs only after `accept` has been interrupted. A signal is
served when it arrives in the wait, or in `do_inter` before its own work is done. A later one is
overlooked: its flag is not looked at any more, or it is lowered with the flag of an earlier one.

## Main definitions

* `hupDue t`: no `readcfg` has begun since the last `SIGHUP`
* `Attended`: the process waits with nothing left to do
* `late`: a signal that arrives too late to be served
* `Punctual`: the process waits, and no signal was late

## Main results

* `mainWork_attended_iff`: nothing is lost exactly when no signal is late
-/

namespace PadSvr

open Scripted Scripted.Prog

/-- Whether a `readcfg` is due after one more event. -/
def hupStep (due : Bool) (x : AEvent × Acceptor) : Bool :=
  match x.1 with
  | .arrived _ (.signal g) => bossSignal g = some .hup || due
  | .readcfg _ => false
  | _ => due

/-- No `readcfg` has begun since the last `SIGHUP`. -/
def hupDue (t : ATrace) : Bool := t.foldl hupStep false

def AEvent.isBlocked : AEvent → Bool
  | .blocked => true
  | _ => false

/-- Where the process waits in `accept`, no exit is asked for, the sessions it was told of are
reaped, and the last `readcfg` began after the last `SIGHUP`. -/
def Attended (t : ATrace) (k : AEvent) (s : Acceptor) : Prop :=
  k.isBlocked = true → s.flags.exit = false ∧ .noticed ∉ s.children ∧ hupDue t = false

/-- The order in which `do_inter` comes to its statements, from the wait to what follows it. -/
def Place.rank : Place → ℕ
  | .blocked => 0
  | .chldTest => 1
  | .waitpid => 2
  | .chldClear => 3
  | .hupTest => 4
  | .reread => 5
  | .hupClear => 6
  | .alrmTest => 7
  | .alrmClear => 8
  | .exitTest => 9
  | .exitClear => 10
  | .setup | .accept | .fork | .close => 11

/-- The last statement before which a signal is still served: the call of `waitpid`, that of
`readcfg`, and the one that sets `Done`. -/
def Signal.last : Signal → ℕ
  | .chld => Place.waitpid.rank
  | .hup => Place.reread.rank
  | .exit => Place.exitClear.rank
  | .alrm | .idle => Place.setup.rank

/-- A signal arrives too late. `SIGCHLD` does when there is a session to tell of. -/
def late (x : AEvent × Acceptor) : Bool :=
  match x.1 with
  | .arrived pl (.signal g) =>
    (bossSignal g).any fun g => g.last < pl.rank && (g ≠ .chld || x.2.children.contains .ended)
  | _ => false

/-- Where the process waits in `accept`, no signal was late. -/
def Punctual (t : ATrace) (k : AEvent) (_ : Acceptor) : Prop :=
  k.isBlocked = true → ∀ x ∈ t, late x = false

instance (t : ATrace) (k : AEvent) (s : Acceptor) : Decidable (Attended t k s) :=
  inferInstanceAs (Decidable (_ → _))

instance (t : ATrace) (k : AEvent) (s : Acceptor) : Decidable (Punctual t k s) :=
  inferInstanceAs (Decidable (_ → _))

/-! ## What comes before a statement -/

section Coming

variable {s : Acceptor} {t : ATrace} {pl : Place}

@[simp] theorem hupDue_concat (t : ATrace) (x : AEvent × Acceptor) :
    hupDue (t ++ [x]) = hupStep (hupDue t) x := by
  simp [hupDue]

theorem notice_eq_noticed {c : ChildState} : c.notice = .noticed ↔ c ≠ .running := by
  cases c <;> simp [ChildState.notice]

/-- The end of a session is not noticed at once. -/
theorem noticed_ends (i : ℕ) (s : Acceptor) :
    .noticed ∈ ((Coming.ends i).run s).children ↔ .noticed ∈ s.children := by
  by_cases hi : s.children[i]? = some .running
  · simp only [Coming.run, if_pos hi]
    constructor
    · intro h
      rcases List.mem_or_eq_of_mem_set h with h | h
      · exact h
      · cases h
    · intro h
      obtain ⟨j, hj, hget⟩ := List.getElem_of_mem h
      have hne : i ≠ j := by
        rintro rfl
        rw [List.getElem?_eq_getElem hj, hget] at hi
        cases hi
      refine List.mem_iff_getElem.mpr ⟨j, by simpa using hj, ?_⟩
      rw [List.getElem_set_ne hne, hget]
  · simp only [Coming.run, if_neg hi]

theorem ends_flags (i : ℕ) (s : Acceptor) : ((Coming.ends i).run s).flags = s.flags := by
  by_cases hi : s.children[i]? = some .running
  · simp only [Coming.run, if_pos hi]
  · simp only [Coming.run, if_neg hi]

/-- `SIGCHLD` tells of the sessions that have ended, and of those it told of before. -/
theorem noticed_chld (s : Acceptor) :
    .noticed ∈ (Signal.chld.runBoss s).children ↔ .noticed ∈ s.children ∨ .ended ∈ s.children := by
  have hiff : .noticed ∈ s.children.map ChildState.notice ↔
      ∃ c ∈ s.children, c ≠ .running := by
    simp [notice_eq_noticed]
  rw [Signal.runBoss, if_pos rfl, hiff]
  constructor
  · rintro ⟨c, hc, hne⟩
    cases c with
    | running => exact absurd rfl hne
    | ended => exact Or.inr hc
    | noticed => exact Or.inl hc
  · rintro (h | h)
    · exact ⟨_, h, by simp⟩
    · exact ⟨_, h, by simp⟩

end Coming

/-! ## The stages of the loop -/

/-- Before the statement of rank `r`, with no signal late so far: what is left to do has its flag
up as long as that flag will be looked at, and is done afterwards. -/
structure Clean (r : ℕ) (w : ARun) : Prop where
  punctual : ∀ x ∈ w.trace, late x = false
  chld : r ≤ 1 → .noticed ∈ w.st.children → w.st.flags.chld = true
  reaped : 2 < r → .noticed ∉ w.st.children
  hup : r ≤ 4 → hupDue w.trace = true → w.st.flags.hup = true
  reread : 5 < r → hupDue w.trace = false
  exit : 10 < r → w.st.flags.exit = false

/-- Before the statement of rank `r`, a signal was late, and what it asked for is left to do. -/
structure Lost (r : ℕ) (w : ARun) : Prop where
  late : ∃ x ∈ w.trace, late x = true
  left : 2 < r ∧ .noticed ∈ w.st.children ∨ 5 < r ∧ hupDue w.trace = true ∨
    10 < r ∧ w.st.flags.exit = true

/-- Before the statement of rank `r`: the waits so far were attended and no signal was late before
them, or neither. -/
inductive Stage (r : ℕ) (w : ARun) : Prop
  | good (ha : Always Attended w.trace) (hp : Always Punctual w.trace) (h : Clean r w ∨ Lost r w)
  | bad (ha : ¬ Always Attended w.trace) (hp : ¬ Always Punctual w.trace)

theorem Stage.iff {r : ℕ} {w : ARun} (h : Stage r w) :
    Always Attended w.trace ↔ Always Punctual w.trace := by
  cases h with
  | good ha hp _ => exact ⟨fun _ => hp, fun _ => ha⟩
  | bad ha hp => exact ⟨fun h => absurd h ha, fun h => absurd h hp⟩

section Stage

variable {r r' : ℕ} {w : ARun}

/-- Events other than waits. -/
theorem Stage.move (h : Stage r w) {t : ATrace} {s : Acceptor}
    (ht : ∀ x ∈ t, x.1.isBlocked = false)
    (hmove : Clean r w ∨ Lost r w → Clean r' ⟨s, w.trace ++ t⟩ ∨ Lost r' ⟨s, w.trace ++ t⟩) :
    Stage r' ⟨s, w.trace ++ t⟩ := by
  cases h with
  | good ha hp h =>
    refine .good (always_append ha fun x hx _ hb => ?_) (always_append hp fun x hx _ hb => ?_)
      (hmove h)
    · simp [ht x hx] at hb
    · simp [ht x hx] at hb
  | bad ha hp =>
    exact .bad (fun h => ha (always_of_append h)) fun h => hp (always_of_append h)

/-- A statement that records nothing. -/
theorem Stage.assign (h : Stage r w) {s : Acceptor}
    (hmove : Clean r w ∨ Lost r w → Clean r' ⟨s, w.trace⟩ ∨ Lost r' ⟨s, w.trace⟩) :
    Stage r' ⟨s, w.trace⟩ := by
  simpa using h.move (t := []) (s := s) (by simp) (by simpa using hmove)

theorem rank_le (pl : Place) : pl.rank ≤ 11 := by
  cases pl <;> decide

/-- Nothing changes but the end of a session that nobody has told of. -/
theorem Clean.ends {pl : Place} (h : Clean r w) (i : ℕ) : Clean r (w.come pl (.ends i)) where
  punctual := by
    intro x hx
    rcases List.mem_append.mp hx with hx | hx
    · exact h.punctual x hx
    · rw [List.mem_singleton.mp hx]
      rfl
  chld := by
    intro hr hn
    rw [noticed_ends] at hn
    rw [ends_flags]
    exact h.chld hr hn
  reaped := fun hr hn => h.reaped hr ((noticed_ends i w.st).mp hn)
  hup := by
    intro hr hd
    rw [ends_flags]
    exact h.hup hr (by simpa [hupStep] using hd)
  reread := fun hr => by simpa [hupStep] using h.reread hr
  exit := by
    intro hr
    rw [ends_flags]
    exact h.exit hr

theorem Lost.ends {pl : Place} (h : Lost r w) (i : ℕ) : Lost r (w.come pl (.ends i)) where
  late := by
    obtain ⟨x, hx, hl⟩ := h.late
    exact ⟨x, List.mem_append_left _ hx, hl⟩
  left := by
    rw [noticed_ends, ends_flags]
    simpa [hupStep] using h.left

/-- A signal in time: its flag is up, and will be looked at. -/
theorem Clean.signal {pl : Place} (h : Clean pl.rank w) {g : Signo}
    (hl : late (.arrived pl (.signal g), w.st) = false) :
    Clean pl.rank (w.come pl (.signal g)) := by
  have hpunctual : ∀ x ∈ (w.come pl (.signal g)).trace, late x = false := by
    intro x hx
    rcases List.mem_append.mp hx with hx | hx
    · exact h.punctual x hx
    · rwa [List.mem_singleton.mp hx]
  -- a signal without a handler changes nothing
  rcases hg : bossSignal g with _ | sig
  · have hrun : (Coming.signal g).run w.st = w.st := by simp [Coming.run, hg]
    refine ⟨hpunctual, ?_, ?_, ?_, ?_, ?_⟩
    all_goals simp only [hrun, hupDue_concat]
    · exact h.chld
    · exact h.reaped
    · simpa [hupStep, hg] using h.hup
    · simpa [hupStep, hg] using h.reread
    · exact h.exit
  · have hrun : (Coming.signal g).run w.st = sig.runBoss w.st := by simp [Coming.run, hg]
    -- in time: the test of its flag is still to come, or no session has ended
    have hin : pl.rank ≤ sig.last ∨ sig = .chld ∧ .ended ∉ w.st.children := by
      simp only [late, hg, Option.any_some] at hl
      grind
    refine ⟨hpunctual, ?_, ?_, ?_, ?_, ?_⟩
    all_goals simp only [hrun, hupDue_concat]
    · intro hr hn
      by_cases hs : sig = .chld
      · subst hs
        rfl
      · have hn' : .noticed ∈ w.st.children := by simpa [Signal.runBoss, hs] using hn
        have hup := h.chld hr hn'
        cases sig <;> simp_all [Signal.runBoss, Signal.raise]
    · intro hr hn
      by_cases hs : sig = .chld
      · subst hs
        rcases (noticed_chld w.st).mp hn with hn | hn
        · exact h.reaped hr hn
        · rcases hin with hin | ⟨-, hin⟩
          · have hlast : Signal.chld.last = 2 := rfl
            omega
          · exact hin hn
      · exact h.reaped hr (by simpa [Signal.runBoss, hs] using hn)
    · intro hr hd
      cases sig <;> simp_all [hupStep, Signal.runBoss, Signal.raise, h.hup hr]
    · intro hr
      have hd := h.reread hr
      cases sig <;> simp_all [hupStep, Signal.last, Place.rank]
      omega
    · intro hr
      have hd := h.exit hr
      cases sig <;> simp_all [Signal.runBoss, Signal.raise, Signal.last, Place.rank]
      omega

/-- A signal takes nothing back that was left to do. -/
theorem signal_left (pl : Place) (g : Signo) (w : ARun) :
    (.noticed ∈ w.st.children → .noticed ∈ (w.come pl (.signal g)).st.children) ∧
      (hupDue w.trace = true → hupDue (w.come pl (.signal g)).trace = true) ∧
      (w.st.flags.exit = true → (w.come pl (.signal g)).st.flags.exit = true) := by
  rcases hg : bossSignal g with _ | sig
  · have hrun : (Coming.signal g).run w.st = w.st := by simp [Coming.run, hg]
    simp only [hrun, hupDue_concat, hupStep, hg]
    simp
  · have hrun : (Coming.signal g).run w.st = sig.runBoss w.st := by simp [Coming.run, hg]
    simp only [hrun, hupDue_concat]
    refine ⟨fun hn => ?_, fun hd => ?_, fun he => ?_⟩
    · by_cases hs : sig = .chld
      · subst hs
        exact (noticed_chld w.st).mpr (Or.inl hn)
      · simpa [Signal.runBoss, hs] using hn
    · simp [hupStep, hd]
    · cases sig with
      | exit => rfl
      | _ => exact he

theorem Lost.signal {pl : Place} (h : Lost r w) (g : Signo) :
    Lost r (w.come pl (.signal g)) where
  late := by
    obtain ⟨x, hx, hl⟩ := h.late
    exact ⟨x, List.mem_append_left _ hx, hl⟩
  left := by
    obtain ⟨hn, hd, he⟩ := signal_left pl g w
    exact h.left.imp (And.imp_right hn) (Or.imp (And.imp_right hd) (And.imp_right he))

/-- A late signal: nothing will look at its flag. -/
theorem lost_of_late {pl : Place} {g : Signo}
    (hl : late (.arrived pl (.signal g), w.st) = true) :
    Lost pl.rank (w.come pl (.signal g)) where
  late := ⟨_, List.mem_append_right _ (List.mem_singleton.mpr rfl), hl⟩
  left := by
    rcases hg : bossSignal g with _ | sig
    · simp [late, hg] at hl
    · have hrun : (Coming.signal g).run w.st = sig.runBoss w.st := by simp [Coming.run, hg]
      have hle := rank_le pl
      obtain ⟨hlast, hended⟩ : sig.last < pl.rank ∧ (sig = .chld → .ended ∈ w.st.children) := by
        simp only [late, hg, Option.any_some] at hl
        grind
      simp only [hrun, hupDue_concat]
      cases sig with
      | chld => exact Or.inl ⟨hlast, (noticed_chld w.st).mpr (Or.inr (hended rfl))⟩
      | hup => exact Or.inr (Or.inl ⟨hlast, by simp [hupStep, hg]⟩)
      | exit => exact Or.inr (Or.inr ⟨hlast, rfl⟩)
      | alrm => exact absurd hlast (by simpa [Signal.last, Place.rank] using hle)
      | idle => exact absurd hlast (by simpa [Signal.last, Place.rank] using hle)

/-- **What comes before a statement** keeps its stage: a signal in time is served, and a late one is
lost. -/
theorem Stage.come {pl : Place} (h : Stage pl.rank w) (c : Coming) :
    Stage pl.rank (w.come pl c) := by
  refine h.move (by simp [AEvent.isBlocked]) ?_
  show Clean pl.rank w ∨ Lost pl.rank w →
    Clean pl.rank (w.come pl c) ∨ Lost pl.rank (w.come pl c)
  rintro (hc | hl)
  · cases c with
    | ends i => exact Or.inl (hc.ends i)
    | signal g =>
      by_cases hlate : late (.arrived pl (.signal g), w.st) = true
      · exact Or.inr (lost_of_late hlate)
      · exact Or.inl (hc.signal (by simpa using hlate))
  · cases c with
    | ends i => exact Or.inr (hl.ends i)
    | signal g => exact Or.inr (hl.signal g)

/-! ## The statements of `do_inter` -/

section Inter

variable {α : Type}

abbrev anyAnswer (_ : AEnv) : Prop := True

/-- Wherever it stands, the process has attended to all it was told of in time. -/
def Fair (w : ARun) : Prop := Always Attended w.trace ↔ Always Punctual w.trace

/-- A statement from its stage to the next. -/
theorem wp_astmt_stage (pl : Place) {f : AEnv → Acceptor → Option (List AEvent × Acceptor × α)}
    {Q : α → ARun → Prop} (h : Stage pl.rank w)
    (hf : ∀ w, Stage pl.rank w → ∀ e r, f e w.st = some r →
      Q r.2.2 ⟨r.2.1, w.trace ++ r.1.map fun k => (k, w.st)⟩) :
    wp anyAnswer Fair (astmt pl f) Q w :=
  wp_astmt h h.iff (fun _ h c => h.come c) fun w h e _ r hr => hf w h e r hr

theorem wp_atest_stage (pl : Place) {up : Flags → Bool} {Q : Bool → ARun → Prop}
    (h : Stage pl.rank w) (hQ : ∀ w, Stage pl.rank w → Q (up w.st.flags) w) :
    wp anyAnswer Fair (atest pl up) Q w := by
  refine wp_astmt_stage pl h fun w hw e r hr => ?_
  cases hr
  simpa using hQ w hw

theorem wp_aassign_stage (pl : Place) {f : Acceptor → Acceptor} {Q : Unit → ARun → Prop}
    (h : Stage pl.rank w) (hQ : ∀ w, Stage pl.rank w → Q () ⟨f w.st, w.trace⟩) :
    wp anyAnswer Fair (aassign pl f) Q w := by
  refine wp_astmt_stage pl h fun w hw e r hr => ?_
  cases hr
  simpa using hQ w hw

theorem Lost.later (h : Lost r w) (hr : r ≤ r') : Lost r' w where
  late := h.late
  left := by
    rcases h.left with ⟨hlt, hn⟩ | ⟨hlt, hd⟩ | ⟨hlt, he⟩
    · exact Or.inl ⟨by omega, hn⟩
    · exact Or.inr (Or.inl ⟨by omega, hd⟩)
    · exact Or.inr (Or.inr ⟨by omega, he⟩)

/-- A later statement of `do_inter`, with nothing done in between. -/
theorem Stage.later (h : Stage r w) (hr : r ≤ r') (hc : Clean r w → Clean r' w) : Stage r' w :=
  h.assign (s := w.st) fun hs => hs.imp hc fun hl => hl.later hr

/-- A signal is not lost before `do_inter` has come to its end of the work. -/
theorem not_lost_two : ¬ Lost 2 w := by
  intro h
  rcases h.left with ⟨hlt, -⟩ | ⟨hlt, -⟩ | ⟨hlt, -⟩ <;> omega

/-- The sessions are reaped, one by one, until there is none that has terminated. -/
theorem wp_reapAll (h : Stage 2 w) : wp anyAnswer Fair reapAll (fun _ => Stage 3) w := by
  unfold reapAll
  refine wp_iter (fun _ => Stage 2) (fun _ _ h => h.iff) (fun _ w h => ?_) h
  -- whichever session `waitpid` picks, the others stay to be reaped
  have hreap : ∀ w : ARun, Stage 2 w → ∀ i, Stage 2
      ⟨{ w.st with children := w.st.children.eraseIdx i }, w.trace ++ [(.waitpid true, w.st)]⟩ := by
    intro w h i
    refine h.move (by simp [AEvent.isBlocked]) fun hs => Or.inl ?_
    have hc := hs.resolve_right not_lost_two
    refine ⟨fun x hx => ?_, by omega, by omega, ?_, by omega, by omega⟩
    · rcases List.mem_append.mp hx with hx | hx
      · exact hc.punctual x hx
      · rw [List.mem_singleton.mp hx]
        rfl
    · simpa [hupStep] using hc.hup
  -- when it finds none, no session that has sent its `SIGCHLD` is left
  have hnone : ∀ w : ARun, Stage 2 w → w.st.children.findIdx? (· ≠ .running) = none →
      Stage 3 ⟨w.st, w.trace ++ [(.waitpid false, w.st)]⟩ := by
    intro w h hno
    refine h.move (by simp [AEvent.isBlocked]) fun hs => Or.inl ?_
    have hc := hs.resolve_right not_lost_two
    refine ⟨fun x hx => ?_, by omega, fun _ hn => ?_, ?_, by omega, by omega⟩
    · rcases List.mem_append.mp hx with hx | hx
      · exact hc.punctual x hx
      · rw [List.mem_singleton.mp hx]
        rfl
    · simpa using List.findIdx?_eq_none_iff.mp hno _ hn
    · simpa [hupStep] using hc.hup
  refine wp_bind (wp_astmt_stage .waitpid h fun w h e r hr => ?_)
  dsimp only at hr
  split at hr
  · cases hr
    exact wp_pure (hreap w h e.pick)
  · split at hr
    · next i hi =>
      cases hr
      exact wp_pure (hreap w h i)
    · next hno =>
      cases hr
      exact wp_pure (hnone w h hno)

/-- The flag of `SIGCHLD`. -/
theorem wp_bossChld (h : Stage 1 w) : wp anyAnswer Fair bossChld (fun _ => Stage 4) w := by
  refine wp_bind (wp_atest_stage .chldTest h fun w h => ?_)
  have h₁ : Stage 1 w := h
  split
  · have h₂ : Stage 2 w := h₁.later (by omega) fun hc =>
      ⟨hc.punctual, by omega, by omega, fun _ => hc.hup (by omega), by omega, by omega⟩
    refine wp_seq (wp_reapAll h₂) fun _ w h₃ => ?_
    refine wp_aassign_stage .chldClear h₃ fun w h => ?_
    have h₄ : Stage 3 w := h
    refine h₄.assign fun hs => hs.imp (fun hc => ?_) fun hl => ⟨hl.late, (hl.later (by omega)).left⟩
    exact ⟨hc.punctual, by omega, fun _ => hc.reaped (by omega), fun _ => hc.hup (by omega),
      by omega, by omega⟩
  · next hdown =>
    exact wp_pure (h₁.later (by omega) fun hc => ⟨hc.punctual, by omega,
      fun _ hn => hdown (hc.chld (by omega) hn), fun _ => hc.hup (by omega), by omega, by omega⟩)

/-- `readcfg` is for the signals so far. -/
theorem Stage.readcfg (h : Stage 5 w) {c : Settings} {file : CfgFile} :
    Stage 6 ⟨{ w.st with cfg := c }, w.trace ++ [(.readcfg file, w.st)]⟩ := by
  refine h.move (by simp [AEvent.isBlocked]) fun hs => ?_
  rcases hs with hc | hl
  · refine Or.inl ⟨fun x hx => ?_, by omega, fun _ => hc.reaped (by omega), by omega, ?_, by omega⟩
    · rcases List.mem_append.mp hx with hx | hx
      · exact hc.punctual x hx
      · rw [List.mem_singleton.mp hx]
        rfl
    · intro _
      simp [hupStep]
  · obtain ⟨x, hx, hlate⟩ := hl.late
    -- only a session can have been lost before it
    refine Or.inr ⟨⟨x, List.mem_append_left _ hx, hlate⟩, ?_⟩
    rcases hl.left with ⟨-, hn⟩ | ⟨hlt, -⟩ | ⟨hlt, -⟩
    · exact Or.inl ⟨by omega, hn⟩
    · omega
    · omega

/-- The flag of `SIGHUP`. -/
theorem wp_bossHup (h : Stage 4 w) : wp anyAnswer Fair bossHup (fun _ => Stage 7) w := by
  refine wp_bind (wp_atest_stage .hupTest h fun w h => ?_)
  have h₄ : Stage 4 w := h
  split
  · have h₅ : Stage 5 w := h₄.later (by omega) fun hc =>
      ⟨hc.punctual, by omega, fun _ => hc.reaped (by omega), by omega, by omega, by omega⟩
    refine wp_bind (wp_astmt_stage .reread h₅ fun w h e r hr => ?_)
    split at hr
    · cases hr
    · cases hr
      refine wp_aassign_stage .hupClear (Stage.readcfg h) fun w h => ?_
      have h₆ : Stage 6 w := h
      refine h₆.assign fun hs =>
        hs.imp (fun hc => ?_) fun hl => ⟨hl.late, (hl.later (by omega)).left⟩
      exact ⟨hc.punctual, by omega, fun _ => hc.reaped (by omega), by omega,
        fun _ => hc.reread (by omega), by omega⟩
  · next hdown =>
    exact wp_pure (h₄.later (by omega) fun hc => ⟨hc.punctual, by omega,
      fun _ => hc.reaped (by omega), by omega, fun _ => by
        simpa using fun hd => hdown (hc.hup (by omega) hd), by omega⟩)

/-- The flag of `SIGALRM`, which asks for nothing. -/
theorem wp_bossAlrm (h : Stage 7 w) : wp anyAnswer Fair bossAlrm (fun _ => Stage 9) w := by
  have hclean : ∀ {r r' : ℕ} {w : ARun}, 5 < r → r ≤ r' → r' ≤ 10 → Clean r w → Clean r' w :=
    fun hr hle hr' hc => ⟨hc.punctual, by omega, fun _ => hc.reaped (by omega), by omega,
      fun _ => hc.reread (by omega), by omega⟩
  refine wp_bind (wp_atest_stage .alrmTest h fun w h => ?_)
  have h₇ : Stage 7 w := h
  split
  · have h₈ : Stage 8 w := h₇.later (by omega) (hclean (by omega) (by omega) (by omega))
    refine wp_aassign_stage .alrmClear h₈ fun w h => ?_
    have h₈ : Stage 8 w := h
    refine h₈.assign fun hs => hs.imp (fun hc => ?_) fun hl => ⟨hl.late, (hl.later (by omega)).left⟩
    exact ⟨hc.punctual, by omega, fun _ => hc.reaped (by omega), by omega,
      fun _ => hc.reread (by omega), by omega⟩
  · exact wp_pure (h₇.later (by omega) (hclean (by omega) (by omega) (by omega)))

/-- Either the loop is over, or the process will wait again. -/
def ToAccept (w : ARun) : Prop := w.st.done = true ∧ Fair w ∨ Stage 11 w

theorem ToAccept.fair (h : ToAccept w) : Fair w := h.elim And.right Stage.iff

/-- The flag of the signals that ask for an exit. -/
theorem wp_bossExit (h : Stage 9 w) : wp anyAnswer Fair bossExit (fun _ => ToAccept) w := by
  refine wp_bind (wp_atest_stage .exitTest h fun w h => ?_)
  have h₉ : Stage 9 w := h
  split
  · have h₁₀ : Stage 10 w := h₉.later (by omega) fun hc =>
      ⟨hc.punctual, by omega, fun _ => hc.reaped (by omega), by omega,
        fun _ => hc.reread (by omega), by omega⟩
    exact wp_aassign_stage .exitClear h₁₀ fun w h => Or.inl ⟨rfl, h.iff⟩
  · next hdown =>
    exact wp_pure (Or.inr (h₉.later (by omega) fun hc =>
      ⟨hc.punctual, by omega, fun _ => hc.reaped (by omega), by omega,
        fun _ => hc.reread (by omega), fun _ => by simpa using hdown⟩))

/-- `do_inter` of the accepting process. -/
theorem wp_bossInter (h : Stage 1 w) : wp anyAnswer Fair bossInter (fun _ => ToAccept) w := by
  unfold bossInter
  refine wp_seq (wp_bossChld h) fun _ w h => ?_
  refine wp_seq (wp_bossHup h) fun _ w h => ?_
  exact wp_seq (wp_bossAlrm h) fun _ w h => wp_bossExit h

end Inter

/-! ## The loop -/

section Loop

/-- While the process waits in `accept`. -/
inductive Parked (w : ARun) : Prop
  | good (ha : Always Attended w.trace) (hp : Always Punctual w.trace) (h : Clean 11 w)
  | bad (ha : ¬ Always Attended w.trace) (hp : ¬ Always Punctual w.trace)

theorem Parked.stage (h : Parked w) : Stage 11 w := by
  cases h with
  | good ha hp h => exact .good ha hp (Or.inl h)
  | bad ha hp => exact .bad ha hp

/-- The process waits: it has attended to everything, unless a signal was late. -/
theorem Stage.blocked (h : Stage 11 w) : Parked ⟨w.st, w.trace ++ [(.blocked, w.st)]⟩ := by
  cases h with
  | bad ha hp => exact .bad (fun h => ha (always_of_append h)) fun h => hp (always_of_append h)
  | good ha hp h =>
    rcases h with hc | hl
    · refine .good (always_concat.mpr ⟨ha, fun _ => ?_⟩) (always_concat.mpr ⟨hp, fun _ => ?_⟩)
        ⟨fun x hx => ?_, by omega, fun _ => hc.reaped (by omega), by omega, ?_,
          fun _ => hc.exit (by omega)⟩
      · exact ⟨hc.exit (by omega), hc.reaped (by omega), hc.reread (by omega)⟩
      · exact hc.punctual
      · rcases List.mem_append.mp hx with hx | hx
        · exact hc.punctual x hx
        · rw [List.mem_singleton.mp hx]
          rfl
      · intro _
        simpa [hupStep] using hc.reread (by omega)
    · refine .bad (fun h => ?_) fun h => ?_
      · obtain ⟨hexit, hreaped, hreread⟩ := (always_concat.mp h).2 rfl
        rcases hl.left with ⟨-, hn⟩ | ⟨-, hd⟩ | ⟨-, he⟩
        · exact hreaped hn
        · simp [hreread] at hd
        · simp [hexit] at he
      · obtain ⟨x, hx, hlate⟩ := hl.late
        simp [(always_concat.mp h).2 rfl x hx] at hlate

/-- A process with nothing left to do. -/
theorem Clean.again (h : Clean 11 w) : Clean 0 w where
  punctual := h.punctual
  chld := fun _ hn => absurd hn (h.reaped (by omega))
  reaped := by omega
  hup := by
    intro _ hd
    simp [h.reread (by omega)] at hd
  reread := by omega
  exit := by omega

/-- What comes into the wait is always in time. -/
theorem Parked.intr (h : Parked w) (c : Coming) : Stage 1 (w.come .blocked c) := by
  cases h with
  | bad ha hp => exact .bad (fun h => ha (always_of_append h)) fun h => hp (always_of_append h)
  | good ha hp h =>
    have hstage : Stage Place.blocked.rank w := .good ha hp (Or.inl h.again)
    have hcome : Stage 0 (w.come .blocked c) := hstage.come c
    exact hcome.later (by omega) fun hc =>
      ⟨hc.punctual, fun _ => hc.chld (by omega), by omega, fun _ => hc.hup (by omega), by omega,
        by omega⟩

/-- What runs no handler leaves nothing to do. -/
theorem Parked.still (h : Parked w) {c : Coming} (hc : c.interrupts = false) :
    Parked (w.come .blocked c) := by
  cases h with
  | bad ha hp => exact .bad (fun h => ha (always_of_append h)) fun h => hp (always_of_append h)
  | good ha hp h =>
    refine .good (always_concat.mpr ⟨ha, fun hb => ?_⟩) (always_concat.mpr ⟨hp, fun hb => ?_⟩) ?_
    · cases hb
    · cases hb
    · cases c with
      | ends i => exact h.ends i
      | signal g =>
        have hnone : bossTable g = none := by simpa [Coming.interrupts] using hc
        have hg : bossSignal g = none := by simp [bossSignal, hnone]
        have hrun : (Coming.signal g).run w.st = w.st := by simp [Coming.run, hg]
        refine ⟨fun x hx => ?_, by omega, ?_, by omega, ?_, ?_⟩
        · rcases List.mem_append.mp hx with hx | hx
          · exact h.punctual x hx
          · rw [List.mem_singleton.mp hx]
            simp [late, hg]
        all_goals simp only [hrun, hupDue_concat]
        · exact h.reaped
        · simpa [hupStep, hg] using h.reread
        · exact h.exit

/-- The wait, until it is over. -/
theorem wp_acceptWait (h : Parked w) :
    wp anyAnswer Fair acceptWait (fun x w => match x with
      | .inl () => Parked w
      | .inr .intr => Stage 1 w
      | .inr _ => Stage 11 w) w := by
  refine wp_step h.stage.iff fun e _ r hr => ?_
  split at hr
  · cases hr
    by_cases hok : e.ok = true
    · simpa [hok] using h.stage
    · simpa [hok] using h.stage
  · next c _ _ =>
    split at hr
    · cases hr
      exact h.intr c
    · next hintr =>
      cases hr
      have hstill := (h.still (by simpa using hintr)).stage.blocked
      simpa using hstill

theorem wp_acceptCall (h : Stage 11 w) :
    wp anyAnswer Fair acceptCall (fun x w => match x with
      | .intr => Stage 1 w
      | _ => Stage 11 w) w := by
  unfold acceptCall
  refine wp_bind (wp_astmt_stage .accept h fun w h e r hr => ?_)
  cases hr
  refine wp_iter (fun _ => Parked) (fun _ _ h => h.stage.iff) (fun _ w h => ?_) h.blocked
  refine wp_mono (wp_acceptWait h) (fun _ h => h) fun x w hx => ?_
  rcases x with ⟨⟩ | x
  · exact hx
  · cases x <;> exact hx

/-- The parent stays in the loop with one session more. -/
theorem Stage.fork (h : Stage 11 w) :
    Stage 11 ⟨{ w.st with children := w.st.children ++ [.running] },
      w.trace ++ [(.fork, w.st)]⟩ := by
  refine h.move (by simp [AEvent.isBlocked]) fun hs => ?_
  have hiff : .noticed ∈ w.st.children ++ [.running] ↔ .noticed ∈ w.st.children := by simp
  have hdue : hupDue (w.trace ++ [(.fork, w.st)]) = hupDue w.trace := by simp [hupStep]
  rcases hs with hc | hl
  · refine Or.inl ⟨fun x hx => ?_, by omega, fun _ hn => hc.reaped (by omega) (hiff.mp hn),
      by omega, fun _ => hdue.trans (hc.reread (by omega)), fun _ => hc.exit (by omega)⟩
    rcases List.mem_append.mp hx with hx | hx
    · exact hc.punctual x hx
    · rw [List.mem_singleton.mp hx]
      rfl
  · obtain ⟨x, hx, hlate⟩ := hl.late
    refine Or.inr ⟨⟨x, List.mem_append_left _ hx, hlate⟩, ?_⟩
    rw [hiff, hdue]
    exact hl.left

/-- In the parent, the loop goes on. -/
theorem wp_forkSession (h : Stage 11 w) :
    wp anyAnswer Fair forkSession (fun x w => match x with
      | .parent => Stage 11 w
      | _ => Fair w) w := by
  refine wp_astmt_stage .fork h fun w h e r hr => ?_
  have hmove : ∀ s, Fair ⟨s, w.trace ++ [(.fork, w.st)]⟩ := by
    intro s
    cases h with
    | bad ha hp =>
      exact iff_of_false (fun h => ha (always_of_append h)) fun h => hp (always_of_append h)
    | good ha hp _ =>
      exact iff_of_true (always_concat.mpr ⟨ha, fun hb => by cases hb⟩)
        (always_concat.mpr ⟨hp, fun hb => by cases hb⟩)
  split at hr
  · cases hr
    exact Stage.fork h
  · cases hr
    exact hmove _
  · cases hr
    exact hmove _

theorem wp_acceptLoop (h : Stage 11 w) : wp anyAnswer Fair acceptLoop (fun _ => Fair) w := by
  unfold acceptLoop
  refine wp_iter (fun _ => ToAccept) (fun _ _ h => h.fair) (fun _ w h => ?_) (Or.inr h)
  refine wp_bind (wp_get ?_)
  split
  · exact wp_pure h.fair
  · next hdone =>
    have h₁₁ : Stage 11 w := h.resolve_left fun hd => hdone hd.1
    refine wp_seq (wp_acceptCall h₁₁) fun x w hx => ?_
    cases x with
    | intr =>
      refine wp_seq (wp_bossInter hx) fun _ w h => ?_
      exact wp_pure h
    | fail => exact wp_pure hx.iff
    | call =>
      refine wp_seq (wp_forkSession hx) fun x w hx => ?_
      cases x with
      | fail => exact wp_pure hx
      | child pid => exact wp_pure hx
      | parent =>
        refine wp_bind (wp_aassign_stage .close hx fun w h => ?_)
        exact wp_pure (Or.inr h)

theorem wp_mainWork (h : Stage 11 w) : wp anyAnswer Fair mainWork (fun _ => Fair) w := by
  unfold mainWork
  refine wp_bind (wp_astmt_stage .setup h fun w h e r hr => ?_)
  cases hr
  have hloop : Stage 11 ⟨{ w.st with done := false }, w.trace⟩ := h.assign fun hs =>
    hs.imp (fun hc => ⟨hc.punctual, hc.chld, hc.reaped, hc.hup, hc.reread, hc.exit⟩)
      fun hl => ⟨hl.late, hl.left⟩
  simp only [List.map_nil, List.append_nil]
  split
  · exact wp_acceptLoop hloop
  · exact wp_pure hloop.iff

end Loop

end Stage

/-- The process starts with nothing to do. -/
theorem clean_mainWorkStart (fl : Flags) (c : Settings) : Clean 11 ⟨mainWorkStart fl c, []⟩ where
  punctual := by simp
  chld := by omega
  reaped := by simp [mainWorkStart]
  hup := by omega
  reread := fun _ => rfl
  exit := fun _ => rfl

/-- **No signal is lost by the accepting process** as long as none is late, and only then: whenever
it waits in `accept`, it has attended to every signal so far exactly when every signal so far came
in the wait, or in `do_inter` before the call that serves it. -/
theorem mainWork_attended_iff (es : List AEnv) (fl : Flags) (c : Settings) :
    Always Attended (mainWorkTrace es fl c) ↔ Always Punctual (mainWorkTrace es fl c) :=
  always_of_wp (wp_mainWork (.good always_nil always_nil (Or.inl (clean_mainWorkStart fl c))))
    (fun _ _ h => h) fun _ _ => trivial

/-- `SIGTERM` arrives right before the call of `accept`: the process waits with `Flag_Exit` up. -/
theorem not_mainWork_attended :
    ¬ Always Attended (mainWorkTrace [{}, { before := [.signal .sigterm] }] {} .defaults) := by
  decide +kernel

end PadSvr
