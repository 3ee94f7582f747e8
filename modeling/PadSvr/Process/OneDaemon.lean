import PadSvr.Process.PidFile

/-!
# One daemon at a time

`exist_pid` and `leave_pid` are separate steps, with a `fork` in between. One process at a time
takes them as long as `exist_pid` does not let a process through while another one is on its way,
nor on what it has read of a pid file that is no longer there.

## Main definitions

* `Station.ahead`: `exist_pid` has let the process through
* `Sys.Alone`: one process at most is past `leave_pid` and alive
* `Serial`: when `exist_pid` may let a process through
* `Solo`: one process is ahead at most, and the pid file is as that one has left it

## Main results

* `Solo.next`: a serial step keeps it
* `serial_alone`: one daemon in every state of a run with serial steps
-/

namespace PadSvr

open CString

/-- Between the end of `exist_pid` and the end of `leave_pid`. -/
def Station.starting : Station → Bool
  | .through | .forked | .unlinked | .created _ => true
  | _ => false

/-- Behind the `clear_pid` of `Exit`. -/
def Station.cleared? : Station → Bool
  | .cleared _ => true
  | _ => false

/-- `exist_pid` has returned 0. -/
def Station.ahead (st : Station) : Bool := st.starting || st.cleared? || st = .boss

/-- Past `leave_pid`, and alive. -/
def Station.past : Station → Bool
  | .boss | .cleared true => true
  | _ => false

/-- At most one process is at a station of this kind. -/
def Sys.AtMostOne (s : Sys) (kind : Station → Bool) : Prop :=
  ∀ p q st st', s.procs p = some st → s.procs q = some st' → kind st → kind st' → p = q

/-- At most one process is past `leave_pid` and alive. -/
def Sys.Alone (s : Sys) : Prop := s.AtMostOne Station.past

/-- No other process is between the end of its `exist_pid` and that of its `leave_pid`, or between
its last `clear_pid` and its end. -/
def Sys.Quiet (s : Sys) (p : ℕ) : Prop :=
  ∀ q st, q ≠ p → s.procs q = some st → st.starting = false ∧ st.cleared? = false

/-- The pid file, if there is one, has the text that was read. -/
def Sys.Unchanged (s : Sys) (buf : List Char) : Prop :=
  ∀ i, s.current = some i → (s.inodes.getD i []).take 30 = buf

/-- Where `exist_pid` is about to let a process through, no other one is on its way, and it has
read the text of the pid file. A file that is there can be opened and removed, and a process that
is there can be looked up. -/
def Serial (name : List Char) (s : Sys) : Act → Prop
  | .open p ok => (ok = false → s.current = none) ∧ (s.current = none → s.Quiet p)
  | .check p ok => ok = true ∧ ∀ buf, s.procs p = some (.read buf) →
      s.running name buf = false → s.Quiet p ∧ s.Unchanged buf
  | .unlink _ ok => ok = true
  | _ => True

/-- A step of a run. -/
def SerialStep (name : List Char) (s s' : Sys) : Prop :=
  ∃ a, Serial name s a ∧ s.next name a = some s'

/-- No process has been started yet. The pid file may be there. -/
def Sys.Initial (s : Sys) : Prop := ∀ p st, s.procs p = some st → ∃ line, st = .foreign line

/-! ## What the process that is ahead has done -/

section Solo

variable {name : List Char} {s s' : Sys} {p q : ℕ} {st st' : Station}

/-- The pid file, as a process has left it. -/
def Station.Left (s : Sys) (p : ℕ) : Station → Prop
  | .forked => ValidPid p
  | .unlinked => ValidPid p ∧ s.current = none
  | .created i => ValidPid p ∧ s.current = some i ∧ s.inodes[i]? = some []
  | .boss => ValidPid p ∧ ∃ i, s.current = some i ∧ s.inodes[i]? = some (decimal p)
  | _ => True

/-- One process at most is ahead, and nobody but it has touched the pid file. -/
structure Solo (s : Sys) : Prop where
  one : s.AtMostOne Station.ahead
  left : ∀ p st, s.procs p = some st → st.Left s p

@[simp] theorem put_procs_self : (s.put p st).procs p = some st := by
  simp [Sys.put]

theorem put_procs_of_ne (h : q ≠ p) : (s.put p st).procs q = s.procs q := by
  simp [Sys.put, h]

/-- A process that is not ahead has not touched the file. -/
theorem left_of_not_ahead (h : st.ahead = false) : st.Left s p := by
  cases st with
  | forked => cases h
  | unlinked => cases h
  | created => cases h
  | boss => cases h
  | _ => trivial

/-- A process gets to a station that is not ahead. -/
theorem Solo.put (h : Solo s) (hst : st.ahead = false) : Solo (s.put p st) where
  one := by
    intro q q' sq sq' hq hq' ha ha'
    have hne : ∀ {q sq}, (s.put p st).procs q = some sq → sq.ahead → q ≠ p := by
      rintro q sq hq ha rfl
      rw [put_procs_self] at hq
      obtain rfl := Option.some.inj hq
      simp [hst] at ha
    rw [put_procs_of_ne (hne hq ha)] at hq
    rw [put_procs_of_ne (hne hq' ha')] at hq'
    exact h.one q q' sq sq' hq hq' ha ha'
  left := by
    intro q sq hq
    by_cases hqp : q = p
    · subst hqp
      rw [put_procs_self] at hq
      obtain rfl := Option.some.inj hq
      exact left_of_not_ahead hst
    · rw [put_procs_of_ne hqp] at hq
      exact h.left q sq hq

/-- Nobody else is ahead. -/
def Sys.OnlyAhead (s : Sys) (p : ℕ) : Prop := ∀ q st, q ≠ p → s.procs q = some st → st.ahead = false

theorem Solo.onlyAhead (h : Solo s) (hp : s.procs p = some st) (ha : st.ahead) :
    s.OnlyAhead p := by
  intro q sq hne hq
  by_contra hsq
  exact hne (h.one q p sq st hq hp (by simpa using hsq) ha)

/-- The process that is ahead, if there is one, goes on. -/
theorem solo_advance (h : s.OnlyAhead p)
    (hprocs : s'.procs = Function.update s.procs p (some st')) (hleft : st'.Left s' p) :
    Solo s' where
  one := by
    have honly : ∀ {q sq}, s'.procs q = some sq → sq.ahead → q = p := by
      intro q sq hq ha
      by_contra hne
      rw [hprocs, Function.update_of_ne hne] at hq
      simp [h q sq hne hq] at ha
    intro q q' sq sq' hq hq' ha ha'
    rw [honly hq ha, honly hq' ha']
  left := by
    intro q sq hq
    by_cases hqp : q = p
    · subst hqp
      rw [hprocs, Function.update_self] at hq
      obtain rfl := Option.some.inj hq
      exact hleft
    · rw [hprocs, Function.update_of_ne hqp] at hq
      exact left_of_not_ahead (h q sq hqp hq)

/-- **A daemon is found**: its pid is in the file, and its name in its status. -/
theorem running_of_boss (hname : named name (statusLine name)) (hp : ValidPid p)
    (hboss : s.procs p = some .boss) : s.running name (decimal p) = true := by
  have hpid : pidOf (decimal p) = some p := by
    simp [pidOf, digits_decimal]
  have hatoi : atoi (decimal p) ≠ 0 := by
    rw [atoi_decimal hp.2]
    have hpos := hp.1
    omega
  simp [Sys.running, hpid, hboss, Station.line, hname, hatoi]

theorem take_decimal (hp : ValidPid p) : (decimal p).take 30 = decimal p := by
  refine List.take_of_length_le ((length_decimal_le_iff (by decide)).mpr ?_)
  have hlt := hp.2
  omega

/-- Without a daemon, a process that is let through while it is quiet is the only one ahead. -/
theorem onlyAhead_of_quiet (h : s.Quiet p)
    (hboss : ∀ q, q ≠ p → s.procs q ≠ some .boss) : s.OnlyAhead p := by
  intro q sq hne hq
  obtain ⟨hstart, hclear⟩ := h q sq hne hq
  have hb : sq ≠ .boss := by
    rintro rfl
    exact hboss q hne hq
  simp [Station.ahead, hstart, hclear, hb]

/-- A process that finds no pid file is let through. -/
theorem Solo.openAbsent (h : Solo s) (hquiet : s.Quiet p) (hnone : s.current = none) :
    Solo (s.put p .through) := by
  refine solo_advance (onlyAhead_of_quiet hquiet fun q _ hb => ?_) rfl trivial
  obtain ⟨-, i, hi, -⟩ := h.left q _ hb
  rw [hnone] at hi
  cases hi

/-- A process that finds nobody under the pid it has read is let through. -/
theorem Solo.checkNobody (hname : named name (statusLine name)) (h : Solo s) {buf : List Char}
    (hquiet : s.Quiet p) (hbuf : s.Unchanged buf) (hnobody : s.running name buf = false) :
    Solo (s.put p .through) := by
  refine solo_advance (onlyAhead_of_quiet hquiet fun q _ hb => ?_) rfl trivial
  -- a daemon would have been found: what was read is its pid
  obtain ⟨hvalid, i, hi, htext⟩ := h.left q _ hb
  have hread : decimal q = buf := by
    have htake := hbuf i hi
    rwa [List.getD_eq_getElem?_getD, htext, Option.getD_some, take_decimal hvalid] at htake
  rw [← hread, running_of_boss hname hvalid hb] at hnobody
  cases hnobody

/-- The child of `go_daemon` is ahead in the place of its parent. -/
theorem Solo.fork (h : Solo s) (hp : s.procs p = some .through) {c : ℕ} (hc : ValidPid c) :
    Solo ((s.put p .leaving).put c .forked) := by
  refine solo_advance (s := s.put p .leaving) (fun q sq hne hq => ?_) rfl hc
  by_cases hqp : q = p
  · subst hqp
    rw [put_procs_self] at hq
    obtain rfl := Option.some.inj hq
    rfl
  · rw [put_procs_of_ne hqp] at hq
    exact h.onlyAhead hp rfl q sq hqp hq

/-- A process ends. -/
theorem Solo.ends (h : Solo s) : Solo { s with procs := Function.update s.procs p none } := by
  have hold : ∀ {q sq}, Function.update s.procs p none q = some sq → s.procs q = some sq := by
    intro q sq hq
    by_cases hqp : q = p
    · subst hqp
      rw [Function.update_self] at hq
      cases hq
    · rwa [Function.update_of_ne hqp] at hq
  exact ⟨fun q q' sq sq' hq hq' ha ha' => h.one q q' sq sq' (hold hq) (hold hq') ha ha',
    fun q sq hq => h.left q sq (hold hq)⟩

/-- `clear_pid` in `Exit`. -/
theorem Solo.clear (h : Solo s) (hp : s.procs p = some st) (ha : st.ahead) (ok past : Bool) :
    Solo ((s.unlink ok).put p (.cleared past)) :=
  solo_advance (h.onlyAhead hp ha) rfl trivial

/-- `leave_pid` opens the file it has removed. -/
theorem Solo.create (h : Solo s) (hp : s.procs p = some .unlinked) :
    Solo (s.openCreat.2.put p (.created s.openCreat.1)) := by
  obtain ⟨hvalid, hnone⟩ := h.left p _ hp
  have hnew : s.openCreat = (s.inodes.length, { s with
      inodes := s.inodes ++ [[]], current := some s.inodes.length }) := by
    simp [Sys.openCreat, hnone]
  rw [hnew]
  exact solo_advance (h.onlyAhead hp rfl) rfl ⟨hvalid, rfl, by simp [Sys.put]⟩

/-- `leave_pid` writes the pid into an empty file. -/
theorem Solo.write (h : Solo s) {i : ℕ} (hp : s.procs p = some (.created i)) :
    Solo ((s.overwrite i (decimal p)).put p .boss) := by
  obtain ⟨hvalid, hi, hempty⟩ := h.left p _ hp
  refine solo_advance (h.onlyAhead hp rfl) rfl ⟨hvalid, i, hi, ?_⟩
  have hlt : i < s.inodes.length := (List.getElem?_eq_some_iff.mp hempty).1
  simp [Sys.put, Sys.overwrite, List.getElem?_set_self hlt, hempty]

theorem Solo.spawn (h : Solo s) (hst : st.ahead = false) (hs : s.spawn p st = some s') :
    Solo s' := by
  unfold Sys.spawn at hs
  split at hs
  · cases hs
    exact h.put hst
  · cases hs

/-- **A serial step** leaves one process ahead at most. -/
theorem Solo.next (hname : named name (statusLine name)) (h : Solo s) {a : Act}
    (ha : Serial name s a) (hs : s.next name a = some s') : Solo s' := by
  cases a with
  | start p => exact h.spawn rfl hs
  | foreign p line => exact h.spawn rfl hs
  | «open» p ok =>
    obtain ⟨hok, hquiet⟩ := ha
    simp only [Sys.next] at hs
    split at hs
    · split at hs
      · cases hs
        exact h.put rfl
      · next hnone =>
        cases hs
        have hcur : s.current = none := by
          cases ok with
          | false => exact hok rfl
          | true => exact hnone
        exact h.openAbsent (hquiet hcur) hcur
    · cases hs
  | read p =>
    simp only [Sys.next] at hs
    split at hs
    · cases hs
      exact h.put rfl
    · cases hs
  | check p ok =>
    obtain ⟨rfl, hcheck⟩ := ha
    simp only [Sys.next] at hs
    split at hs
    · next buf hp =>
      cases hs
      -- the process leaves when it has found a daemon, and is let through otherwise
      by_cases hrun : s.running name buf = true
      · simpa [hrun] using h.put rfl
      · have hnobody : s.running name buf = false := by simpa using hrun
        obtain ⟨hquiet, hbuf⟩ := hcheck buf hp hnobody
        simpa [hnobody] using h.checkNobody hname hquiet hbuf hnobody
    · cases hs
  | fail p =>
    simp only [Sys.next] at hs
    split at hs
    all_goals
      cases hs
      try exact h.put rfl
  | fork p c =>
    simp only [Sys.next, Sys.spawn] at hs
    split at hs
    · next hp =>
      split at hs
      · next hc =>
        cases hs
        exact h.fork hp hc.2
      · cases hs
    · cases hs
  | unlink p ok =>
    obtain rfl := ha
    simp only [Sys.next] at hs
    split at hs
    · next hp =>
      cases hs
      exact solo_advance (h.onlyAhead hp rfl) rfl ⟨h.left p _ hp, rfl⟩
    · cases hs
  | create p =>
    simp only [Sys.next] at hs
    split at hs
    · next hp =>
      cases hs
      exact h.create hp
    · cases hs
  | write p =>
    simp only [Sys.next] at hs
    split at hs
    · next hp =>
      cases hs
      exact h.write hp
    · cases hs
  | clear p ok =>
    simp only [Sys.next] at hs
    split at hs
    all_goals
      next hp =>
      cases hs
      try exact h.clear hp rfl ok _
  | ends p =>
    simp only [Sys.next] at hs
    split at hs
    · cases hs
      exact h.ends
    · cases hs

/-- Nobody is ahead before anybody has been started. -/
theorem solo_initial (h : s.Initial) : Solo s where
  one := by
    intro p q st st' hp _ ha _
    obtain ⟨line, rfl⟩ := h p st hp
    cases ha
  left := by
    intro p st hp
    obtain ⟨line, rfl⟩ := h p st hp
    trivial

/-- Past `leave_pid`, a process is ahead. -/
theorem ahead_of_past (h : st.past) : st.ahead := by
  cases st with
  | boss => rfl
  | cleared => rfl
  | _ => cases h

end Solo

/-- **One daemon at a time.** In every run of any number of processes whose steps are serial, one
process at most is past `leave_pid` and alive. While it is, and from the end of its `exist_pid` on,
`exist_pid` lets no other one through. -/
theorem serial_alone {name : List Char} {s₀ s : Sys} (hname : named name (statusLine name))
    (h₀ : s₀.Initial) (h : Relation.ReflTransGen (SerialStep name) s₀ s) :
    s.Alone ∧ s.AtMostOne Station.ahead := by
  have hsolo : Solo s := by
    induction h with
    | refl => exact solo_initial h₀
    | tail _ hstep ih =>
      obtain ⟨a, ha, hs⟩ := hstep
      exact ih.next hname ha hs
  exact ⟨fun p q st st' hp hq hst hst' =>
    hsolo.one p q st st' hp hq (ahead_of_past hst) (ahead_of_past hst'), hsolo.one⟩

/-- There is no process yet, and no pid file. -/
def emptySys : Sys := ⟨fun _ => none, [], none⟩

/-- Process 1 is started and forks the daemon, process 2. The next one that is started, process 3,
finds it and leaves. -/
theorem serial_alone_refused :
    ∃ s : Sys, (s.procs 2 = some .boss ∧ s.procs 3 = some .leaving) ∧ s.Alone := by
  have hquiet : (emptySys.put 1 .begun).Quiet 1 := by
    intro q st hne hq
    rw [put_procs_of_ne hne] at hq
    cases hq
  have hrun := ((((((((((((Relation.ReflTransGen.refl (r := SerialStep "pad_svr".toList)
      (a := emptySys)).tail
    ⟨.start 1, trivial, rfl⟩).tail
    ⟨.open 1 true, ⟨nofun, fun _ => hquiet⟩, rfl⟩).tail
    ⟨.fork 1 2, trivial, rfl⟩).tail
    ⟨.ends 1, trivial, rfl⟩).tail
    ⟨.unlink 2 true, rfl, rfl⟩).tail
    ⟨.create 2, trivial, rfl⟩).tail
    ⟨.write 2, trivial, rfl⟩).tail
    ⟨.start 3, trivial, rfl⟩).tail
    ⟨.open 3 true, ⟨nofun, nofun⟩, rfl⟩).tail
    ⟨.read 3, trivial, rfl⟩).tail
    ⟨.check 3 true, ⟨rfl, fun buf hb hnobody => by
      obtain rfl : _ = buf := Station.read.inj (Option.some.inj hb)
      exact absurd hnobody (by decide +kernel)⟩, rfl⟩)
  exact ⟨_, ⟨by decide +kernel, by decide +kernel⟩,
    (serial_alone (by decide) (by simp [Sys.Initial, emptySys]) hrun).1⟩

/-- The steps of a run, whatever their order. -/
def Sys.run (name : List Char) (s : Sys) (as : List Act) : Option Sys :=
  as.foldlM (fun s a => s.next name a) s

/-- Two processes are started, and both find no pid file before either has written it. -/
theorem not_alone : ¬ ∀ (as : List Act) (s : Sys),
    emptySys.run "pad_svr".toList as = some s → s.Alone := by
  intro h
  let race : List Act := [.start 1, .start 2, .open 1 true, .open 2 true, .fork 1 11, .fork 2 12,
    .unlink 11 true, .create 11, .write 11, .unlink 12 true, .create 12, .write 12]
  have hrace : (emptySys.run "pad_svr".toList race).any fun s =>
      s.procs 11 = some .boss ∧ s.procs 12 = some .boss := by decide +kernel
  rcases hr : emptySys.run "pad_svr".toList race with _ | s
  · rw [hr] at hrace
    cases hrace
  · rw [hr] at hrace
    obtain ⟨h₁, h₂⟩ : s.procs 11 = some .boss ∧ s.procs 12 = some .boss := by simpa using hrace
    exact absurd (h race s hr 11 12 _ _ h₁ h₂ rfl rfl) (by decide)

end PadSvr
