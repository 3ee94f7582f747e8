import PadSvr.Monitor.DoMonitor

/-!
# The monitor supervises its main-work process

The monitor forks a process for the main work, and forks another when that one has failed. It
learns of its end by `SIGCHLD`, on which it calls `wait`. The signal does not say what it is for:
where it comes for another reason than the end of the process, `wait` has to wait.

## Main definitions

* `forks t`, `restarts t`: the processes started, and those found to have failed
* `OneMainWork`, `Restarting`, `Terminated`: what is meant to hold at every call of the monitor
* `MEnv.Own e`: no `SIGCHLD` but for the end of the process

## Main results

* `doMonitor_supervises`: one process at a time, and a new one for each that failed, in every run;
  it has ended whenever `wait` is called, in a run with no other `SIGCHLD`
* `not_doMonitor_terminated`: the process is stopped, and the monitor is caught in `wait`
-/

namespace PadSvr

open Scripted Scripted.Prog

/-- The status that `wait` reports in this state. -/
def Moni.status (s : Moni) : Option WaitStatus := (s.children.find? Option.isSome).getD none

/-- The process exited with a status that asks for another one. -/
def WaitStatus.Failed : WaitStatus → Bool
  | .exited code => code ≠ 0
  | .signaled => false

/-- The call is a `fork`. -/
def isFork : MEvent × Moni → Bool
  | (.fork, _) => true
  | _ => false

/-- The call is a `wait` that returns the status of a failure. -/
def isRestart : MEvent × Moni → Bool
  | (.wait, s) => s.status.any WaitStatus.Failed
  | _ => false

/-- The main-work processes started. -/
def forks (t : List (MEvent × Moni)) : ℕ := t.countP isFork

/-- The main-work processes that were found to have failed. -/
def restarts (t : List (MEvent × Moni)) : ℕ := t.countP isRestart

/-- There is one main-work process at most. -/
def OneMainWork (_ : List (MEvent × Moni)) (_ : MEvent) (s : Moni) : Prop := s.children.length ≤ 1

/-- A process is forked when all processes before it have failed, and only then: when the monitor
waits again, there is one process more than there were failures. -/
def Restarting (t : List (MEvent × Moni)) : MEvent → Moni → Prop
  | .fork, _ => forks t = restarts t
  | .suspended, _ => forks t = restarts t + 1
  | .waiting, _ => forks t = restarts t + 1
  | _, _ => True

/-- The main-work process has terminated when `wait` is called. -/
def Terminated (_ : List (MEvent × Moni)) : MEvent → Moni → Prop
  | .waiting, s => ∃ st, some st ∈ s.children
  | _, _ => True

/-- `SIGCHLD` comes only for the end of the main-work process: not when it is stopped or continued,
and from nobody else. -/
def MEnv.Own (e : MEnv) : Prop := ∀ g, .signal g ∈ e.before → g.chld = false

/-! ## The invariant -/

section Counts

variable {t : List (MEvent × Moni)} {k : MEvent} {s : Moni}

@[simp] theorem forks_nil : forks [] = 0 := rfl

@[simp] theorem restarts_nil : restarts [] = 0 := rfl

@[simp] theorem forks_concat (x : MEvent × Moni) :
    forks (t ++ [x]) = forks t + (if isFork x then 1 else 0) := by
  simp [forks, List.countP_append, List.countP_singleton]

@[simp] theorem restarts_concat (x : MEvent × Moni) :
    restarts (t ++ [x]) = restarts t + (if isRestart x then 1 else 0) := by
  simp [restarts, List.countP_append, List.countP_singleton]

end Counts

/-- Without foreign signals, an arrival leaves the processes and `SIGCHLD` alone, or it ends a
process and makes the signal pending. -/
theorem run_own {e : MEnv} (he : e.Own) {a : Arrival} (ha : a ∈ e.before) (s : Moni) :
    (a.run s).flags = s.flags ∧
      ((a.run s).children = s.children ∧ (a.run s).pending.chld = s.pending.chld ∨
        ∃ i st, s.children[i]? = some none ∧ (a.run s).children = s.children.set i (some st) ∧
          (a.run s).pending.chld = true) := by
  cases a with
  | send i =>
    -- a message rings for the FIFO only
    simp only [Arrival.run]
    split
    · exact ⟨rfl, Or.inl ⟨rfl, rfl⟩⟩
    · split
      · exact ⟨rfl, Or.inl ⟨rfl, rfl⟩⟩
      · exact ⟨rfl, Or.inl ⟨rfl, rfl⟩⟩
  | signal g =>
    have hg : g.chld = false := he g ha
    exact ⟨rfl, Or.inl ⟨rfl, by simp [Arrival.run, Sigs.union, Sigs.zip, hg]⟩⟩
  | ended i st =>
    simp only [Arrival.run]
    split
    · next hi => exact ⟨rfl, Or.inr ⟨i, st, hi, rfl, rfl⟩⟩
    · exact ⟨rfl, Or.inl ⟨rfl, rfl⟩⟩

/-- An arrival ends a process, or leaves the processes alone. -/
theorem length_children_arrive (e : MEnv) (s : Moni) :
    (arrive e s).children.length = s.children.length := by
  refine arrive_induction (P := fun s' => s'.children.length = s.children.length)
    (fun s' a _ h => ?_) rfl
  cases a with
  | send i =>
    simp only [Arrival.run]
    split
    · exact h
    · split
      · exact h
      · exact h
  | signal g => exact h
  | ended i st =>
    simp only [Arrival.run]
    split
    · simpa using h
    · exact h

/-- The processes, and where `SIGCHLD` is. -/
structure ChldAt (cs : List (Option WaitStatus)) (pending flag : Bool) (s : Moni) : Prop where
  children : s.children = cs
  pending : s.pending.chld = pending
  flag : s.flags.chld = flag

/-- Where `SIGCHLD` stands with the process: there is no process, it runs, or it has ended and the
signal is on its way or has come. -/
inductive ChldState (s : Moni) : Prop
  | none (h : ChldAt [] false false s)
  | running (h : ChldAt [none] false false s)
  | coming (st : WaitStatus) (h : ChldAt [some st] true false s)
  | come (st : WaitStatus) (h : ChldAt [some st] false true s)

/-- Once there is no process that runs, nothing changes. -/
theorem ChldAt.arrive {cs : List (Option WaitStatus)} (hcs : none ∉ cs) {p f : Bool} {s : Moni}
    {e : MEnv} (he : e.Own) (h : ChldAt cs p f s) : ChldAt cs p f (arrive e s) := by
  refine arrive_induction (fun s' a ha h => ?_) h
  obtain ⟨hf, ⟨hc, hp⟩ | ⟨i, st, hi, -⟩⟩ := run_own he ha s'
  · exact ⟨hc.trans h.children, hp.trans h.pending, by rw [hf, h.flag]⟩
  · rw [h.children] at hi
    exact absurd (List.mem_of_getElem? hi) hcs

/-- Handlers run for signals that are pending only. -/
theorem ChldAt.handled {cs : List (Option WaitStatus)} {f : Bool} {s : Moni} {run : Sigs}
    (h : ChldAt cs false f s) (hsub : run.chld = true → s.pending.chld = true) :
    ChldAt cs false f { s with pending := s.pending.diff run, flags := s.flags.union run } := by
  have hrun : run.chld = false := by
    by_contra hne
    have hp := hsub (by simpa using hne)
    rw [h.pending] at hp
    cases hp
  exact ⟨h.children, by simp [Sigs.diff, Sigs.zip, h.pending],
    by simp [Sigs.union, Sigs.zip, h.flag, hrun]⟩

theorem ChldState.arrive {s : Moni} {e : MEnv} (he : e.Own) (h : ChldState s) :
    ChldState (arrive e s) := by
  cases h with
  | none h => exact .none (h.arrive (by simp) he)
  | coming st h => exact .coming st (h.arrive (by simp) he)
  | come st h => exact .come st (h.arrive (by simp) he)
  | running h =>
    -- the process may end, once
    have key : ChldAt [Option.none] false false (PadSvr.arrive e s) ∨
        ∃ st, ChldAt [some st] true false (PadSvr.arrive e s) := by
      refine arrive_induction (P := fun s' => ChldAt [Option.none] false false s' ∨
        ∃ st, ChldAt [some st] true false s') (fun s' a ha h => ?_) (Or.inl h)
      obtain ⟨hf, hrun⟩ := run_own he ha s'
      rcases h with h | ⟨st, h⟩
      · rcases hrun with ⟨hc, hp⟩ | ⟨i, st, hi, hc, hp⟩
        · exact Or.inl ⟨hc.trans h.children, hp.trans h.pending, by rw [hf, h.flag]⟩
        · obtain rfl : i = 0 := by
            rw [h.children] at hi
            have := (List.getElem?_eq_some_iff.mp hi).1
            simpa using this
          exact Or.inr ⟨st, by rw [hc, h.children]; rfl, hp, by rw [hf, h.flag]⟩
      · rcases hrun with ⟨hc, hp⟩ | ⟨i, st', hi, -⟩
        · exact Or.inr ⟨st, hc.trans h.children, hp.trans h.pending, by rw [hf, h.flag]⟩
        · rw [h.children] at hi
          have := List.mem_of_getElem? hi
          simp at this
    rcases key with h | ⟨st, h⟩
    · exact .running h
    · exact .coming st h

section Loop

variable {E : MEnv → Prop} {w : MRun} {n : ℕ}

/-- What holds wherever the monitor stands. -/
structure Tending (E : MEnv → Prop) (w : MRun) : Prop where
  one : Always OneMainWork w.trace
  counts : Always Restarting w.trace
  ended : (∀ e, E e → e.Own) → Always Terminated w.trace
  now : w.st.children.length ≤ 1

/-- Between its calls the monitor has `n` processes: one, or none when it is to start one. -/
structure Tended (E : MEnv → Prop) (n : ℕ) (w : MRun) : Prop where
  tending : Tending E w
  children : w.st.children.length = n
  need : w.st.flagNeedStart = decide (n = 0)
  count : forks w.trace = restarts w.trace + n
  chld : (∀ e, E e → e.Own) → ChldState w.st

/-- `ChldState` is a fact of the processes, of `SIGCHLD` and of its flag. -/
theorem ChldState.congr {s s' : Moni} (h : ChldState s) (hc : s'.children = s.children)
    (hp : s'.pending = s.pending) (hf : s'.flags.chld = s.flags.chld) : ChldState s' := by
  have hat : ∀ {cs p f}, ChldAt cs p f s → ChldAt cs p f s' := fun hat =>
    ⟨hc.trans hat.children, by rw [hp, hat.pending], hf.trans hat.flag⟩
  cases h with
  | none h => exact .none (hat h)
  | running h => exact .running (hat h)
  | coming st h => exact .coming st (hat h)
  | come st h => exact .come st (hat h)

/-- What counts is where the processes, `SIGCHLD` and the flag of the monitor stand. -/
theorem Tended.same (h : Tended E n w) {s : Moni} (hc : s.children = w.st.children)
    (hp : s.pending = w.st.pending) (hf : s.flags.chld = w.st.flags.chld)
    (hn : s.flagNeedStart = w.st.flagNeedStart) : Tended E n ⟨s, w.trace⟩ := by
  refine ⟨⟨h.tending.one, h.tending.counts, h.tending.ended, by rw [hc]; exact h.tending.now⟩,
    by rw [hc]; exact h.children, by rw [hn]; exact h.need, h.count, fun hown => ?_⟩
  exact (h.chld hown).congr hc hp hf

/-- A call other than `fork` and `wait` that leaves the processes and the flag alone. -/
theorem Tended.call (h : Tended E n w) {e : MEnv} (he : E e) {k : MEvent} {s : Moni}
    (hk : k ≠ .fork ∧ k ≠ .waiting ∧ k ≠ .wait) (hk₁ : k = .suspended → n = 1)
    (hs : s.children = (PadSvr.arrive e w.st).children ∧
      s.pending = (PadSvr.arrive e w.st).pending ∧
      s.flags.chld = (PadSvr.arrive e w.st).flags.chld ∧
      s.flagNeedStart = (PadSvr.arrive e w.st).flagNeedStart) :
    Tended E n ⟨s, w.trace ++ [(k, PadSvr.arrive e w.st)]⟩ := by
  have hlen := length_children_arrive e w.st
  have hfork : isFork (k, PadSvr.arrive e w.st) = false := by cases k <;> simp_all [isFork]
  have hre : isRestart (k, PadSvr.arrive e w.st) = false := by cases k <;> simp_all [isRestart]
  have hle := h.tending.now
  -- first what holds at every call, then what holds between the calls
  constructor
  · constructor
    · refine always_concat.mpr ⟨h.tending.one, ?_⟩
      rw [OneMainWork, hlen]
      exact hle
    · refine always_concat.mpr ⟨h.tending.counts, ?_⟩
      cases k with
      | suspended =>
        have hc := h.count
        rw [hk₁ rfl] at hc
        exact hc
      | fork => exact absurd rfl hk.1
      | waiting => exact absurd rfl hk.2.1
      | _ => trivial
    · intro hown
      refine always_concat.mpr ⟨h.tending.ended hown, ?_⟩
      cases k with
      | waiting => exact absurd rfl hk.2.1
      | _ => trivial
    · rw [hs.1, hlen]
      exact hle
  · rw [hs.1, hlen, h.children]
  · rw [hs.2.2.2, arrive_flagNeedStart, h.need]
  · rw [forks_concat, restarts_concat, hfork, hre]
    simpa using h.count
  · intro hown
    have hc := (h.chld hown).arrive (hown e he)
    exact hc.congr hs.1 hs.2.1 hs.2.2.1

/-- A fault is no call for the processes. -/
theorem Tended.fault (h : Tended E n w) : Tending E ⟨w.st, w.trace ++ [(.fault, w.st)]⟩ where
  one := always_concat.mpr ⟨h.tending.one, h.tending.now⟩
  counts := always_concat.mpr ⟨h.tending.counts, trivial⟩
  ended hown := always_concat.mpr ⟨h.tending.ended hown, trivial⟩
  now := h.tending.now

theorem wp_startMainWork_tended (h : Tended E n w) (hn : n ≤ 1) :
    wp E (Tending E) startMainWork (fun _ => Tended E 1) w := by
  unfold startMainWork
  refine wp_bind (wp_get ?_)
  split
  -- a fork is due exactly when there is no process
  · next hneed =>
    have h0 : n = 0 := by simpa [hneed] using h.need.symm
    subst h0
    refine wp_monitorCall h.tending fun e he r hr => ?_
    split at hr
    · cases hr
      have hc : (arrive e w.st).children = [] := by
        rw [← List.length_eq_zero_iff, length_children_arrive, h.children]
      refine ⟨⟨always_concat.mpr ⟨h.tending.one, by simp [OneMainWork, hc]⟩,
        always_concat.mpr ⟨h.tending.counts, h.count⟩,
        fun hown => always_concat.mpr ⟨h.tending.ended hown, trivial⟩, by simp [hc]⟩,
        by simp [hc], rfl, ?_, fun hown => ?_⟩
      · have hcount := h.count
        rw [forks_concat, restarts_concat]
        simpa [isFork, isRestart] using hcount
      · -- there is no process yet, so no signal of one
        have hst := (h.chld hown).arrive (hown e he)
        cases hst with
        | none hat => exact .running ⟨by simp [hc], hat.pending, hat.flag⟩
        | running hat => simp [hat.children] at hc
        | coming st hat => simp [hat.children] at hc
        | come st hat => simp [hat.children] at hc
    · cases hr
  · next hneed =>
    have h1 : n = 1 := by
      have hd := h.need
      rw [show w.st.flagNeedStart = false by simpa using hneed] at hd
      have : n ≠ 0 := by simpa using hd.symm
      omega
    subst h1
    exact wp_pure h

theorem wp_sigsuspend_tended (h : Tended E 1 w) :
    wp E (Tending E) sigsuspend (fun _ => Tended E 1) w := by
  unfold sigsuspend
  refine wp_iter (fun _ => Tended E 1) (fun _ _ h => h.tending) (fun _ w h => ?_) h
  refine wp_step h.tending fun e he r hr => ?_
  dsimp only at hr
  split at hr
  · cases hr
    exact h.call he (by simp) (fun _ => rfl) ⟨rfl, rfl, rfl, rfl⟩
  · cases hr
    rw [List.append_nil]
    refine ⟨⟨h.tending.one, h.tending.counts, h.tending.ended, ?_⟩, ?_, ?_, h.count,
      fun hown => ?_⟩
    · dsimp only
      rw [length_children_arrive]
      exact h.tending.now
    · dsimp only
      rw [length_children_arrive, h.children]
    · dsimp only
      rw [arrive_flagNeedStart, h.need]
    · -- a handler takes the signal from the pending ones to the flags
      have hst := (h.chld hown).arrive (hown e he)
      have hsub : (if e.handled.inter (arrive e w.st).pending = {} then (arrive e w.st).pending
          else e.handled.inter (arrive e w.st).pending).chld = true →
            (arrive e w.st).pending.chld = true := by
        split
        · exact id
        · simp [Sigs.inter, Sigs.zip]
      generalize (if e.handled.inter (arrive e w.st).pending = {} then (arrive e w.st).pending
        else e.handled.inter (arrive e w.st).pending) = run at hsub ⊢
      cases hst with
      | none hat => exact .none (hat.handled hsub)
      | running hat => exact .running (hat.handled hsub)
      | coming st hat =>
        by_cases hrun : run.chld = true
        · exact .come st ⟨hat.children, by simp [Sigs.diff, Sigs.zip, hrun],
            by simp [Sigs.union, Sigs.zip, hrun]⟩
        · exact .coming st ⟨hat.children, by simp [Sigs.diff, Sigs.zip, hat.pending, hrun],
            by simp [Sigs.union, Sigs.zip, hat.flag, hrun]⟩
      | come st hat => exact .come st (hat.handled hsub)

/-- `wait` is called: a process that has ended is there, and `SIGCHLD` is used up. -/
theorem wp_waitMainWork_tended (ht : Tending E w) (hc : w.st.children.length = 1)
    (hneed : w.st.flagNeedStart = false) (hcount : forks w.trace = restarts w.trace + 1)
    (hchld : (∀ e, E e → e.Own) → ∃ st, ChldAt [some st] false false w.st) :
    wp E (Tending E) waitMainWork (fun _ w' => Tending E w' ∧ w'.st.children = [] ∧
      w'.st.flagNeedStart = false ∧
      forks w'.trace = restarts w'.trace + (if w'.st.stat.Failed then 0 else 1) ∧
      ((∀ e, E e → e.Own) → ChldState w'.st)) w := by
  unfold waitMainWork
  refine wp_bind (wp_monitorCall ht fun e he r hr => ?_)
  cases hr
  have hlen : (arrive e w.st).children.length = 1 := by rw [length_children_arrive, hc]
  -- the child has ended already, so what arrives cannot end another one
  have hended : (∀ e, E e → e.Own) → ∃ st, ChldAt [some st] false false (arrive e w.st) :=
    fun hown => have ⟨st, hat⟩ := hchld hown; ⟨st, hat.arrive (by simp) (hown e he)⟩
  have hwaiting : Tending E ⟨arrive e w.st, w.trace ++ [(.waiting, arrive e w.st)]⟩ := by
    refine ⟨always_concat.mpr ⟨ht.one, hlen.le⟩, always_concat.mpr ⟨ht.counts, hcount⟩,
      fun hown => always_concat.mpr ⟨ht.ended hown, ?_⟩, hlen.le⟩
    obtain ⟨st, hat⟩ := hended hown
    exact ⟨st, by simp [hat.children]⟩
  have hcount' : forks (w.trace ++ [(.waiting, arrive e w.st)]) =
      restarts (w.trace ++ [(.waiting, arrive e w.st)]) + 1 := by
    rw [forks_concat, restarts_concat]
    simpa [isFork, isRestart] using hcount
  -- what arrives while `wait` waits comes before it returns
  refine wp_monitorCall hwaiting fun e' he' r hr => ?_
  have hlen' : (arrive e' (arrive e w.st)).children.length = 1 := by
    rw [length_children_arrive, hlen]
  have hneed' : (arrive e' (arrive e w.st)).flagNeedStart = false := by
    rw [arrive_flagNeedStart, arrive_flagNeedStart, hneed]
  have hended' : (∀ e, E e → e.Own) → ∃ st,
      ChldAt [some st] false false (arrive e' (arrive e w.st)) :=
    fun hown => have ⟨st, hat⟩ := hended hown; ⟨st, hat.arrive (by simp) (hown e' he')⟩
  dsimp only at hr hneed' ⊢
  -- from here on only the state in which `wait` returns matters
  generalize arrive e' (arrive e w.st) = s at hr hlen' hneed' hended' ⊢
  obtain ⟨c, hcs⟩ := List.length_eq_one_iff.mp hlen'
  rw [hcs] at hr
  cases c with
  | none => simp at hr
  | some st =>
    simp only [List.findIdx?_cons, Option.isSome_some, if_true] at hr
    cases hr
    have hstatus : s.status = some st := by simp [Moni.status, hcs]
    refine ⟨⟨always_concat.mpr ⟨hwaiting.one, hlen'.le⟩,
      always_concat.mpr ⟨hwaiting.counts, trivial⟩,
      fun hown => always_concat.mpr ⟨hwaiting.ended hown, trivial⟩, Nat.zero_le 1⟩, rfl, hneed',
      ?_, fun hown => ?_⟩
    · rw [forks_concat _, restarts_concat _, hcount']
      cases hst : st.Failed
      · simp [isFork, isRestart, hstatus, hst]
      · simp [isFork, isRestart, hstatus, hst]
    · obtain ⟨st', hat⟩ := hended' hown
      exact .none ⟨rfl, hat.pending, hat.flag⟩

/-- The part of a round for `SIGCHLD`. -/
theorem wp_chldPart_tended (h : Tended E 1 w) :
    wp E (Tending E) chldPart (fun b w' => if b then Tending E w' else ∃ n, n ≤ 1 ∧ Tended E n w')
      w := by
  unfold chldPart
  refine wp_bind (wp_get ?_)
  split
  · next hflag =>
    refine wp_bind (wp_modify (wp_seq (wp_waitMainWork_tended (E := E)
      ⟨h.tending.one, h.tending.counts, h.tending.ended, h.tending.now⟩ h.children h.need h.count
      fun hown => ?_) fun _ w₂ h₂ => wp_bind (wp_get ?_)))
    -- the flag is up only for a child that has ended
    · cases h.chld hown with
      | none hat => rw [hat.flag] at hflag; cases hflag
      | running hat => rw [hat.flag] at hflag; cases hflag
      | coming st hat => rw [hat.flag] at hflag; cases hflag
      | come st hat => exact ⟨st, hat.children, hat.pending, rfl⟩
    · obtain ⟨ht, hc, hneed, hcount, hchld⟩ := h₂
      split
      · next code hs =>
        split
        · exact wp_pure ht
        · next hcode =>
          rw [hs, show (WaitStatus.exited code).Failed = true by simpa [WaitStatus.Failed]]
            at hcount
          refine wp_bind (wp_modify (wp_pure ⟨0, Nat.zero_le 1,
            ⟨ht.one, ht.counts, ht.ended, ht.now⟩, by simp [hc], rfl, hcount, fun hown => ?_⟩))
          cases hchld hown with
          | none hat => exact .none ⟨hat.children, hat.pending, hat.flag⟩
          | running hat => simp [hat.children] at hc
          | coming st hat => simp [hat.children] at hc
          | come st hat => simp [hat.children] at hc
      · exact wp_pure ht
  · exact wp_pure ⟨1, le_refl 1, h⟩

/-- The rest of a round: calls that leave the processes alone. -/
theorem wp_hupPart_tended (h : Tended E n w) :
    wp E (Tending E) hupPart (fun _ => Tended E n) w := by
  unfold hupPart
  refine wp_bind (wp_get ?_)
  split
  · refine wp_bind (wp_modify (wp_monitorCall ⟨h.tending.one, h.tending.counts, h.tending.ended,
      h.tending.now⟩ fun e he r hr => ?_))
    have h₁ : Tended E n ⟨{ w.st with flags := { w.st.flags with hup := false } }, w.trace⟩ :=
      h.same rfl rfl rfl rfl
    split at hr
    · cases hr
    · cases hr
      exact h₁.call he (by simp) (by simp) ⟨rfl, rfl, rfl, rfl⟩
  · exact wp_pure h

theorem tableFree_tended : TableFree E (Tending E) (Tended E n) where
  everywhere _ h := h.tending
  state _ _ h hs := h.same hs.children hs.pending hs.chld hs.flagNeedStart
  call _ _ _ h he hk := by
    cases hk with
    | readFifo data => exact h.call he (by simp) (by simp) ⟨rfl, rfl, rfl, rfl⟩
    | upload lines => exact h.call he (by simp) (by simp) ⟨rfl, rfl, rfl, rfl⟩
  fault _ h := h.fault

/-- The loop. -/
theorem wp_doMonitor_tended (h : ∃ n ≤ 1, Tended E n w) :
    wp E (Tending E) doMonitor (fun _ => Tending E) w := by
  unfold doMonitor
  refine wp_iter (fun _ w => ∃ n ≤ 1, Tended E n w) (fun _ _ ⟨_, _, h⟩ => h.tending)
    (fun _ w ⟨n, hn, h⟩ => ?_) h
  refine wp_seq (wp_startMainWork_tended h hn) fun _ w₁ h₁ => ?_
  refine wp_seq (wp_sigsuspend_tended h₁) fun _ w₂ h₂ => ?_
  refine wp_seq (wp_chldPart_tended h₂) fun b w₃ h₃ => ?_
  split
  · next hb =>
    rw [if_pos hb] at h₃
    exact wp_pure h₃
  · next hb =>
    rw [if_neg hb] at h₃
    obtain ⟨m, hm, h₃⟩ := h₃
    refine wp_seq (wp_hupPart_tended h₃) fun _ w₄ h₄ => ?_
    refine wp_seq (tableFree_tended.ioPart _ h₄) fun _ w₅ h₅ => ?_
    exact wp_seq (tableFree_tended.usr1Part _ h₅) fun _ w₆ h₆ => wp_pure ⟨m, hm, h₆⟩

end Loop

/-! ## The theorem -/

/-- **The monitor supervises its main-work process.** In every run that starts without a process
and without a `SIGCHLD`, there is one process at most, and a new one is forked for each that exits
with a failure. In a run where `SIGCHLD` comes for the end of the process only, it has terminated
whenever `wait` is called. -/
theorem doMonitor_supervises (es : List MEnv) (s : Moni) (row : Row)
    (hs : ChldAt [] false false s) :
    Always OneMainWork (doMonitorTrace es s row) ∧
      Always Restarting (doMonitorTrace es s row) ∧
      ((∀ e ∈ es, e.Own) → Always Terminated (doMonitorTrace es s row)) := by
  have hstart : Tended (· ∈ es) 0 ⟨doMonitorStart s row, []⟩ := by
    refine ⟨⟨always_nil, always_nil, fun _ => always_nil, ?_⟩, ?_, rfl, rfl,
      fun _ => .none ⟨hs.children, hs.pending, hs.flag⟩⟩
    · simp [doMonitorStart, hs.children]
    · simp [doMonitorStart, hs.children]
  have hrun : Tending (· ∈ es) (doMonitor es ⟨doMonitorStart s row, []⟩).1 :=
    always_of_wp (wp_doMonitor_tended ⟨0, Nat.zero_le 1, hstart⟩) (fun _ _ h => h) fun _ h => h
  exact ⟨hrun.one, hrun.counts, hrun.ended⟩

/-- A monitor that has started nothing yet. -/
def Moni.idle : Moni := { tabAt := 0x55d0c0a0f200, cfg := .defaults }

/-- The process exits with status 1, and another one is started. -/
def failureScript : List MEnv :=
  [{}, { before := [.ended 0 (.exited 1)] }, {}, {}, {}, {}]

theorem doMonitor_supervises_failure :
    forks (doMonitorTrace failureScript .idle ⟨[], [], []⟩) = 2 ∧
      Always Terminated (doMonitorTrace failureScript .idle ⟨[], [], []⟩) := by
  refine ⟨by decide +kernel,
    (doMonitor_supervises failureScript .idle ⟨[], [], []⟩ ⟨rfl, rfl, rfl⟩).2.2 ?_⟩
  intro e he g hg
  simp only [failureScript, List.mem_cons, List.not_mem_nil, or_false] at he
  rcases he with rfl | rfl | rfl | rfl | rfl | rfl <;> simp at hg

/-- The process is stopped, and not continued. -/
def stopScript : List MEnv := [{}, { before := [.signal { chld := true }] }, {}]

/-- The monitor calls `wait` for a process that has not terminated. -/
theorem not_doMonitor_terminated :
    ¬ ∀ (es : List MEnv) (s : Moni) (row : Row), ChldAt [] false false s →
      Always Terminated (doMonitorTrace es s row) := by
  intro h
  have hrun : ∃ s t₁ t₂, doMonitorTrace stopScript .idle ⟨[], [], []⟩ =
      t₁ ++ (.waiting, s) :: t₂ ∧ s.children = [none] := ⟨_, [_], [], rfl, rfl⟩
  obtain ⟨s, t₁, t₂, ht, hc⟩ := hrun
  obtain ⟨st, hst⟩ := h stopScript .idle ⟨[], [], []⟩ ⟨rfl, rfl, rfl⟩ t₁ _ s t₂ ht
  simp [hc] at hst

end PadSvr
