import PadSvr.Session.Observed

/-!
# What a read of the socket is taken for

The result of a read says by itself what it is: a packet if it is positive, the end of the line if
it is 0, and only at -1 `errno` tells an interrupt from a failure. `do_copy` and `wait_net` test for
more than one byte instead. So a packet of the Q byte alone is taken for an interrupt or a failure,
by what an earlier call has left in `errno`, and in `wait_net` so is the end of the line.

## Main definitions

* `ReadClass.ofResult`: what a result says
* `ByResult t`: every read is taken for what its result says
* `waitNetObserved`: the observed run of `wait_net`

## Main results

* `reads_byResult_iff`: the reads of the two loops are taken for what they are as long as none of
  them returns a 1, or a 0 in `wait_net`
-/

namespace PadSvr

open Scripted Scripted.Prog

/-- What the result of a read says. `errno` counts only where it is -1. -/
def ReadClass.ofResult (i : ℤ) (errno : Errno) : ReadClass :=
  if 0 < i then .packet
  else if i = 0 then .eof
  else if errno = .eintr then .interrupted
  else .failed

/-- The branch behind every read is the one its result asks for. -/
def ByResult (t : OTrace) : Prop :=
  Always (fun t₁ k _ => ∀ c, k = .taken c →
    ∃ i er s, t₁.getLast? = some (.read i er, s) ∧ c = .ofResult i er) t

/-- No read returns one of the results `bad`. -/
def NoResult (bad : ℤ → Prop) (t : OTrace) : Prop :=
  ∀ y ∈ t, ∀ i er, y.1 = .read i er → ¬ bad i

/-- The observed run of `wait_net`. -/
def waitNetObserved (es : List Env) (s : Session) (buf : List UInt8) : OTrace :=
  (observedWaitNet buf es ⟨s, []⟩).1.trace

/-! ## The two tests -/

theorem doCopyClass_eq_ofResult_iff (i : ℤ) (er : Errno) :
    doCopyClass i er = .ofResult i er ↔ ¬ i = 1 := by
  constructor
  · rintro h rfl
    by_cases he : er = .eintr <;> simp [doCopyClass, ReadClass.ofResult, he] at h
  · intro h1
    have hpos : 1 < i ↔ 0 < i := by omega
    simp only [doCopyClass, ReadClass.ofResult, hpos]

theorem waitNetClass_eq_ofResult_iff (i : ℤ) (er : Errno) :
    waitNetClass i er = .ofResult i er ↔ ¬ (i = 0 ∨ i = 1) := by
  constructor
  · rintro h (rfl | rfl)
    · by_cases he : er = .eintr <;> simp [waitNetClass, ReadClass.ofResult, he] at h
    · by_cases he : er = .eintr <;> simp [waitNetClass, ReadClass.ofResult, he] at h
  · intro h01
    have hpos : 1 < i ↔ 0 < i := by omega
    have hne : i ≠ 0 := by omega
    simp only [waitNetClass, ReadClass.ofResult, hpos, if_neg hne]

/-! ## What the other calls cannot break -/

/-- The reads of the trace are taken for what they are as long as no bad result is among them. -/
def Agrees (bad : ℤ → Prop) (t : OTrace) : Prop := ByResult t ↔ NoResult bad t

section Agrees

variable {bad : ℤ → Prop} {t : OTrace} {k : Observed} {s : Session}

theorem noResult_concat :
    NoResult bad (t ++ [(k, s)]) ↔ NoResult bad t ∧ ∀ i er, k = .read i er → ¬ bad i := by
  simp only [NoResult, List.forall_mem_append, List.forall_mem_singleton]

theorem agrees_nil : Agrees bad [] :=
  ⟨fun _ _ hy => absurd hy List.not_mem_nil, fun _ => always_nil⟩

/-- A call that is neither a read nor the branch behind one. -/
theorem Agrees.plain (h : Agrees bad t) (hr : ∀ i er, k ≠ .read i er) (hc : ∀ c, k ≠ .taken c) :
    Agrees bad (t ++ [(k, s)]) := by
  have hlaw : ByResult (t ++ [(k, s)]) ↔ ByResult t := by
    refine always_concat.trans (and_iff_left ?_)
    exact fun c hk => absurd hk (hc c)
  have hcond : NoResult bad (t ++ [(k, s)]) ↔ NoResult bad t := by
    refine noResult_concat.trans (and_iff_left ?_)
    exact fun i er hk => absurd hk (hr i er)
  exact hlaw.trans (h.trans hcond.symm)

/-- A read, and the branch behind it. -/
theorem Agrees.read (h : Agrees bad t) {i : ℤ} {er : Errno} {c : ReadClass}
    (hc : c = .ofResult i er ↔ ¬ bad i) (s s' : Session) :
    Agrees bad (t ++ [(.read i er, s)] ++ [(.taken c, s')]) := by
  have hlaw : ByResult (t ++ [(.read i er, s)] ++ [(.taken c, s')]) ↔
      ByResult t ∧ c = .ofResult i er := by
    unfold ByResult
    rw [always_concat, always_concat, and_assoc]
    refine and_congr_right fun _ => ?_
    constructor
    · rintro ⟨-, hlast⟩
      -- the read is the call directly in front of the branch
      obtain ⟨i', er', s₁, hs₁, hcls⟩ := hlast c rfl
      rw [List.getLast?_concat] at hs₁
      cases hs₁
      exact hcls
    · intro hcls
      refine ⟨nofun, fun c' hc' => ?_⟩
      cases hc'
      exact ⟨i, er, s, List.getLast?_concat, hcls⟩
  have hcond : NoResult bad (t ++ [(.read i er, s)] ++ [(.taken c, s')]) ↔
      NoResult bad t ∧ ¬ bad i := by
    rw [noResult_concat, noResult_concat, and_assoc]
    refine and_congr_right fun _ => ?_
    constructor
    · exact fun hb => hb.1 i er rfl
    · intro hb
      refine ⟨fun i' er' hk => ?_, nofun⟩
      cases hk
      exact hb
  rw [Agrees, hlaw, hcond]
  exact and_congr h hc

end Agrees

section Runs

variable {bad : ℤ → Prop}

theorem wp_observedRead_agreeing {n : ℕ} {cls : ℤ → Errno → ReadClass}
    (hcls : ∀ i er, cls i er = .ofResult i er ↔ ¬ bad i) {w : ORun} (hw : Agrees bad w.trace) :
    wp (fun _ => True) (fun w : ORun => Agrees bad w.trace) (observedRead n)
      (fun i w' => Agrees bad (w'.trace ++ [(.taken (cls i w'.st.sys.errno), w'.st)])) w :=
  wp_observe (wp_true _) (fun _ _ => hw) fun i _ _ => hw.read (hcls i _) _ _

theorem agrees_doCopyObserved (es : List Env) (s : Session) (bufn bufd : List UInt8) :
    Agrees (fun i => i = 1) (doCopyObserved es s bufn bufd) := by
  have hkeeps : Keeps (fun _ => True) (fun w : ORun => Agrees (fun i => i = 1) w.trace)
      observedDoCopyLoop := by
    refine keeps_observedDoCopyLoop (fun _ _ h => h.plain nofun nofun)
      (fun _ _ h => h.plain nofun nofun) (fun _ _ _ _ h => h.plain nofun nofun) (fun w hw => ?_)
      fun n w hw => wp_observedRead_agreeing doCopyClass_eq_ofResult_iff hw
    refine wp_observe (wp_true _) (fun _ _ => hw) fun _ _ _ => ?_
    exact Agrees.plain (hw.plain nofun nofun) nofun nofun
  exact always_of_wp (hkeeps _ agrees_nil) (fun _ _ h => h) fun _ _ => trivial

theorem agrees_waitNetObserved (es : List Env) (s : Session) (buf : List UInt8) :
    Agrees (fun i => i = 0 ∨ i = 1) (waitNetObserved es s buf) := by
  let J : ORun → Prop := fun w => Agrees (fun i => i = 0 ∨ i = 1) w.trace
  have hwork : ∀ {α : Type} (m : SProg α), Keeps (fun _ => True) J (work m) := fun m =>
    keeps_work (fun _ _ h => h.plain nofun nofun) m
  have hlabel : ∀ {k : Observed}, (∀ i er, k ≠ .read i er) → (∀ c, k ≠ .taken c) →
      Keeps (fun _ => True) J (label k : OProg Unit) := fun hr hc =>
    keeps_label fun _ _ h => h.plain hr hc
  have hup : ∀ (up : Flags → Bool) {k : Observed} (handle : SProg Unit),
      (∀ i er, k ≠ .read i er) → (∀ c, k ≠ .taken c) →
      Keeps (fun _ => True) J (observedUp up k handle) := by
    intro up k handle hr hc
    exact .bind (hwork _) fun _ => .ite (.bind (hlabel hr hc) fun _ => hwork _) .pure
  have hsignals : ∀ pipe,
      Keeps (fun _ => True) J (observedClosingSignals pipe (work interChld)) := by
    intro pipe
    refine .ite (.bind .get fun _ => .bind (hwork _) fun _ => ?_) .pure
    refine .bind (hup _ _ nofun nofun) fun _ => .bind (hup _ _ nofun nofun) fun _ => ?_
    exact .bind (hwork _) fun _ => .ite (hwork _) .pure
  have hbranch : ∀ c, Keeps (fun _ => True) J (observedWaitNetBranch c) := by
    intro c
    cases c with
    | failed => exact .bind (hwork _) fun _ => .pure
    | _ => exact .pure
  have hround : Keeps (fun _ => True) J observedWaitNetRound := by
    refine .bind .get fun _ => .ite .pure (.bind (hwork _) fun answer => .bind .get fun _ => ?_)
    refine .ite ?_ (.bind (hsignals _) fun _ => .ite ?_ (.ite ?_ .pure))
    · exact .bind (hwork _) fun _ => .pure
    · exact .bind (hwork _) fun _ => .pure
    · refine .bind .get fun _ => fun w hw => ?_
      refine wp_seq (wp_observedRead_agreeing waitNetClass_eq_ofResult_iff hw) fun i w' h => ?_
      exact wp_bind (wp_get (wp_bind (wp_label (hbranch _ _ h))))
  have hkeeps : Keeps (fun _ => True) J (observedWaitNet buf) := by
    refine .bind (hwork _) fun _ => .bind ?_ fun _ => .bind (.iter (fun _ => hround) ()) fun _ =>
      hwork _
    exact keeps_observe _ fun _ _ _ _ h => h.plain nofun nofun
  exact always_of_wp (hkeeps _ agrees_nil) (fun _ _ h => h) fun _ _ => trivial

end Runs

/-- **The reads of the socket are taken for what they are**, in the copy loop as long as none
returns a 1, and in `wait_net` as long as none returns a 0 or a 1. -/
theorem reads_byResult_iff (es : List Env) (s : Session) (bufn bufd buf : List UInt8) :
    (ByResult (doCopyObserved es s bufn bufd) ↔
      NoResult (fun i => i = 1) (doCopyObserved es s bufn bufd)) ∧
    (ByResult (waitNetObserved es s buf) ↔
      NoResult (fun i => i = 0 ∨ i = 1) (waitNetObserved es s buf)) := by
  constructor
  · exact agrees_doCopyObserved es s bufn bufd
  · exact agrees_waitNetObserved es s buf

/-- A round in which the socket has a packet of the Q byte alone. -/
def loneQByte : List Env :=
  [.willing, { Env.willing with poll := .ready { pollin := true } {} {} },
    { Env.willing with sock := .ok [0] }]

/-- Such a packet is taken for a failure of the line. -/
theorem reads_loneQByte : ¬ ∀ (es : List Env) (s : Session) (bufn bufd buf : List UInt8),
    ByResult (doCopyObserved es s bufn bufd) ∧ ByResult (waitNetObserved es s buf) := by
  intro h
  have hread : Observed.read 1 (.other 0) ∈
      (doCopyObserved loneQByte (Session.fresh 0 128) (List.replicate 129 0)
        (List.replicate 129 0)).map Prod.fst := by decide +kernel
  obtain ⟨y, hy, hk⟩ := List.mem_map.mp hread
  have hlaw := (h loneQByte (Session.fresh 0 128) (List.replicate 129 0) (List.replicate 129 0) []).1
  exact (agrees_doCopyObserved ..).mp hlaw y hy 1 (.other 0) hk rfl

end PadSvr
