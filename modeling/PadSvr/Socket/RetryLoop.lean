import PadSvr.Socket.TerminalWrite

/-!
# What the retry loop heeds

The retry loop should make no further attempt once the whole packet is written, a write has failed
for good, or `do_inter` has set `Done` for an alarm or an exit signal. It heeds the first of these
only: after the other two it goes on, and on a terminal that is gone it goes on for ever.

## Main definitions

* `acceptedInRow t`: what the current attempt has written
* `SockCall.Final`, `Decided data t`: what is to end the loop
* `Heeds data r`: the loop ends when it is to
* `retried data env n s`: the observed run under the first `n` entries of an environment

## Main results

* `retryLoop_heeds_iff`: the loop heeds what is to end it exactly when no call is final
* `writeBack_failing`: on a terminal that is gone the loop never ends
-/

namespace PadSvr

open Scripted Scripted.Prog

/-- The bytes written by an attempt that has written `k` bytes, when `y` is the next call. -/
def acceptedNext (k : ℕ) (y : SockCall × Session) : ℕ :=
  match y.1 with
  | .write _ (.ok m) => if m = 0 then 0 else k + m
  | .write _ (.error _) => 0
  | _ => k

/-- The bytes that the current attempt has written. -/
def acceptedInRow (t : TerminalTrace) : ℕ := t.foldl acceptedNext 0

/-- A call after which no further attempt is to be made: a write that has failed for good, or
`do_inter` having set `Done`. -/
def SockCall.Final : SockCall → Prop
  | .write _ (.error er) => er ≠ .eintr
  | .interHandler r => r = 0
  | _ => False

/-- The loop is to end: the whole packet is written, or a call was final. -/
def Decided (data : List UInt8) (t : TerminalTrace) : Prop :=
  acceptedInRow t = data.length ∨ ∃ y ∈ t, y.1.Final

/-- A run, returned or cut, that heeds what is to end it. -/
structure Heeds (data : List UInt8) (r : Run SockCall Session × Option (Unit × List Env)) :
    Prop where
  /-- no write is made once the loop is to end -/
  noFurther : Always (fun t₁ k _ => k.IsWrite → ¬ Decided data t₁) r.1.trace
  /-- and the loop returns -/
  ends : Decided data r.1.trace → r.2 ≠ none

/-- The observed run of the loop under the first `n` entries of an environment. -/
def retried (data : List UInt8) (env : ℕ → Env) (n : ℕ) (s : Session) :
    Run SockCall Session × Option (Unit × List Env) :=
  observedTerminal.writeBack data ((List.range n).map env) ⟨s, []⟩

section Calls

variable {data : List UInt8} {t : TerminalTrace} {k : SockCall} {s : Session}

@[simp] theorem acceptedInRow_nil : acceptedInRow [] = 0 := rfl

@[simp] theorem acceptedInRow_concat (t : TerminalTrace) (y : SockCall × Session) :
    acceptedInRow (t ++ [y]) = acceptedNext (acceptedInRow t) y := by
  simp [acceptedInRow]

/-- Unless a call was final, no write was made that should not have been. -/
def Follows (data : List UInt8) (t : TerminalTrace) : Prop :=
  (∀ y ∈ t, ¬ y.1.Final) → Always (fun t₁ k _ => k.IsWrite → ¬ Decided data t₁) t

theorem Follows.concat (h : Follows data t) (hk : k.IsWrite → acceptedInRow t < data.length) :
    Follows data (t ++ [(k, s)]) := by
  intro hn
  have hold : ∀ y ∈ t, ¬ y.1.Final := fun y hy => hn y (List.mem_append_left _ hy)
  refine always_concat.mpr ⟨h hold, fun hw hd => ?_⟩
  -- a write in an attempt has bytes left to write
  rcases hd with hall | ⟨y, hy, hf⟩
  · have hlt := hk hw
    omega
  · exact hold y hy hf

/-- An attempt under way, from the run `w` on: none of its calls was final. -/
structure Attempting (data : List UInt8) (w w' : Run SockCall Session) : Prop where
  follows : Follows data w'.trace
  old : ∀ y ∈ w'.trace, y.1.Final → y ∈ w.trace

theorem Attempting.concat {w w' : Run SockCall Session} (h : Attempting data w w')
    (hk : k.IsWrite → acceptedInRow w'.trace < data.length) (hn : ¬ k.Final) (s s' : Session) :
    Attempting data w ⟨s', w'.trace ++ [(k, s)]⟩ where
  follows := h.follows.concat hk
  old := by
    intro y hy hf
    rcases List.mem_append.mp hy with hy | hy
    · exact h.old y hy hf
    · obtain rfl := List.mem_singleton.mp hy
      exact absurd hf hn

/-- An attempt that has failed: none of its calls was final if it was interrupted. -/
structure FailedAttempt (data : List UInt8) (w w' : Run SockCall Session) : Prop where
  follows : Follows data w'.trace
  nothing : acceptedInRow w'.trace = 0
  pos : 0 < data.length
  old : w'.st.sys.errno = .eintr → ∀ y ∈ w'.trace, y.1.Final → y ∈ w.trace

/-- The call of a handler changes nothing of what the attempts have written. -/
theorem FailedAttempt.handled {w w' : Run SockCall Session} (h : FailedAttempt data w w')
    (hk : ¬ k.IsWrite) (s : Session) :
    Follows data (w'.trace ++ [(k, s)]) ∧ acceptedInRow (w'.trace ++ [(k, s)]) = 0 ∧
      0 < data.length := by
  refine ⟨h.follows.concat fun hw => absurd hw hk, ?_, h.pos⟩
  rw [acceptedInRow_concat, h.nothing]
  cases k with
  | write => exact absurd trivial hk
  | _ => rfl

end Calls

section Rules

variable {data left : List UInt8} {I : Run SockCall Session → Prop}
  {Q : ℤ → Run SockCall Session → Prop} {w : Run SockCall Session}

theorem wp_observedWrite (hI : I w)
    (hfail : ∀ er s, s.sys.errno = er →
      Q (-1) ⟨s, w.trace ++ [(.write left (.error er), w.st)]⟩)
    (hok : ∀ m s, m ≤ left.length → Q m ⟨s, w.trace ++ [(.write left (.ok m), w.st)]⟩) :
    wp (fun _ => True) I (observedWrite left) Q w := by
  refine wp_observe (I := fun w₁ => w₁.st = w.st)
    (Q := fun r w₁ => Q r ⟨w₁.st, w.trace ++ [(.write left (outcome w₁.st r), w.st)]⟩)
    (wp_writeMaster rfl (fun e _ er _ => hfail er _ rfl) fun e _ m _ => ?_)
    (fun w₁ h => by rw [h]; exact hI) fun _ _ h => h
  have hres : ∀ s, outcome s (min m left.length : ℕ) = .ok (min m left.length) := by
    intro s
    rw [outcome, if_neg (by omega), Int.toNat_natCast]
  rw [hres]
  exact hok _ _ (Nat.min_le_right _ _)

theorem wp_observedInter (hI : ∀ s, I ⟨s, w.trace⟩)
    (h : ∀ r s, Q r ⟨s, w.trace ++ [(.interHandler r, w.st)]⟩) :
    wp (fun _ => True) I observedInter Q w :=
  wp_observe (wp_true doInter) (fun w₁ _ => hI w₁.st) fun r w₁ _ => h r w₁.st

/-- `Done` is set, and nothing can cut the loop there. -/
theorem wp_observedError (h : ∀ r s, Q r ⟨s, w.trace ++ [(.errorHandler r, w.st)]⟩) :
    wp (fun _ => True) I observedError Q w :=
  fun _ hes => ⟨h _ _, hes⟩

/-- `writen` makes an attempt, and fails only if there is something to write. -/
theorem wp_observedWriten (hf : Follows data w.trace) (hz : acceptedInRow w.trace = 0) :
    wp (fun _ => True)
      (fun w' => Attempting data w w' ∧ acceptedInRow w'.trace < data.length)
      (observedTerminal.writen data)
      (fun r w' => if r < 0 then FailedAttempt data w w' else Attempting data w w') w := by
  refine (regular_observedTerminal.productive_writen _).wp_iter
    (fun left w' => Attempting data w w' ∧ acceptedInRow w'.trace + left.length = data.length)
    (fun left w' h => ?_) ⟨⟨hf, fun y hy _ => hy⟩, by rw [hz, Nat.zero_add]⟩
  obtain ⟨hat, hsum⟩ := h
  unfold Surroundings.writenRound
  split
  · refine wp_pure ?_
    show if (data.length : ℤ) < 0 then FailedAttempt data w w' else Attempting data w w'
    rw [if_neg (by omega)]
    exact hat
  · next hne =>
    have hpos : 0 < left.length := List.length_pos_iff.mpr hne
    have hlt : acceptedInRow w'.trace < data.length := by omega
    refine wp_bind (wp_observedWrite ⟨hat, hlt⟩ (fun er s hs => ?_) fun m s hm => ?_)
    · -- a write that fails ends the attempt; it was interrupted, or the call was final
      refine wp_pure ⟨hat.follows.concat fun _ => hlt, ?_, by omega, fun he => ?_⟩
      · rw [acceptedInRow_concat]
        rfl
      · have hn : ¬ SockCall.Final (.write left (.error er)) := fun hn => hn (hs ▸ he)
        exact (hat.concat (fun _ => hlt) hn w'.st s).old
    · have hok := hat.concat (k := .write left (.ok m)) (fun _ => hlt) (fun hn => hn) w'.st s
      split
      -- `write` returns 0: `writen` gives up as it does on an error
      · next hle =>
        obtain rfl : m = 0 := by omega
        refine wp_pure ⟨hok.follows, ?_, by omega, fun _ => hok.old⟩
        rw [acceptedInRow_concat]
        rfl
      · next hgt =>
        refine wp_pure ⟨hok, ?_⟩
        have hm0 : m ≠ 0 := by omega
        rw [acceptedInRow_concat, Int.toNat_natCast, List.length_drop]
        simp only [acceptedNext, if_neg hm0]
        omega

/-- One attempt: it is repeated only if there is something to write, and it is the last one, or cut,
only if none of its calls was final. -/
theorem wp_observedAttempt (hf : Follows data w.trace) (hz : acceptedInRow w.trace = 0) :
    wp (fun _ => True)
      (fun w' => Attempting data w w' ∧ acceptedInRow w'.trace < data.length)
      (observedTerminal.attempt data)
      (fun r w' => r.elim
        (fun _ => Follows data w'.trace ∧ acceptedInRow w'.trace = 0 ∧ 0 < data.length)
        fun _ => Attempting data w w') w := by
  refine wp_seq (wp_observedWriten hf hz) fun r w' hr => ?_
  split
  · next hneg =>
    rw [if_pos hneg] at hr
    refine wp_bind (wp_bind (wp_get ?_))
    split
    · next hintr =>
      have hpos := hr.pos
      -- `do_inter` may be cut itself; what it finds is final or not only when it returns
      have hold := hr.old (of_decide_eq_true hintr)
      refine wp_observedInter (fun s => ⟨⟨hr.follows, hold⟩, by rw [hr.nothing]; exact hpos⟩)
        fun a s => wp_pure ?_
      exact hr.handled (k := .interHandler a) (fun hk => hk) w'.st
    · refine wp_observedError fun a s => wp_pure ?_
      exact hr.handled (k := .errorHandler a) (fun hk => hk) w'.st
  · next hpos =>
    rw [if_neg hpos] at hr
    exact wp_pure hr

end Rules

/-! ## Whole runs -/

section Runs

variable {data : List UInt8} {env : ℕ → Env} {n : ℕ} {s : Session}

/-- Where the loop stands, the attempt is under way. -/
theorem wp_observedWriteBack (data : List UInt8) (s : Session) :
    wp (fun _ => True)
      (fun w' => Follows data w'.trace ∧ acceptedInRow w'.trace < data.length)
      (observedTerminal.writeBack data) (fun _ w' => Follows data w'.trace) ⟨s, []⟩ := by
  refine (regular_observedTerminal.productive_attempt data).wp_iter
    (fun _ w => Follows data w.trace ∧ acceptedInRow w.trace = 0) (fun _ w h => ?_)
    ⟨fun _ => always_nil, rfl⟩
  refine wp_mono (wp_observedAttempt h.1 h.2) (fun w' h' => ⟨h'.1.follows, h'.2⟩) fun r w' hr => ?_
  rcases r with _ | _
  · exact ⟨hr.1, hr.2.1⟩
  · exact hr.follows

/-- Unless a call is final, the loop ends when it is to. -/
theorem heeds_of_not_final (h : ∀ y ∈ (retried data env n s).1.trace, ¬ y.1.Final) :
    Heeds data (retried data env n s) := by
  have hwp := wp_observedWriteBack data s ((List.range n).map env) fun _ _ => trivial
  unfold retried at h ⊢
  rcases hr : observedTerminal.writeBack data ((List.range n).map env) ⟨s, []⟩ with
    ⟨w', _ | ⟨r, es'⟩⟩
  · rw [hr] at hwp h
    refine ⟨hwp.1 h, fun hd => ?_⟩
    -- the run is cut in an attempt, with bytes left and no final call: it need not end
    rcases hd with hall | ⟨y, hy, hf⟩
    · exact absurd hall (Nat.ne_of_lt hwp.2)
    · exact absurd hf (h y hy)
  · rw [hr] at hwp h
    exact ⟨hwp.1 h, fun _ => nofun⟩

/-- After a final call, one more entry of the script gives one more write. -/
theorem not_noFurther_of_final (es : List Env) (e : Env) (w : Run SockCall Session)
    (hf : Follows data w.trace) (hz : acceptedInRow w.trace = 0)
    {y : SockCall × Session} (hy : y ∈ (observedTerminal.writeBack data es w).1.trace)
    (hfinal : y.1.Final) (hnew : y ∉ w.trace) :
    ¬ Always (fun t₁ k _ => k.IsWrite → ¬ Decided data t₁)
      (observedTerminal.writeBack data (es ++ [e]) w).1.trace := by
  have hb := regular_observedTerminal.productive_attempt data
  refine hb.induction (P := fun _ es w => Follows data w.trace → acceptedInRow w.trace = 0 →
    y ∈ (observedTerminal.writeBack data es w).1.trace → y ∉ w.trace →
    ¬ Always (fun t₁ k _ => k.IsWrite → ¬ Decided data t₁)
      (observedTerminal.writeBack data (es ++ [e]) w).1.trace)
    (fun _ es w ih hf hz hy hnew => ?_) () es w hf hz hy hnew
  have hround := wp_observedAttempt hf hz es fun _ _ => trivial
  rw [Surroundings.writeBack, iter_run hb] at hy ⊢
  rcases hr : observedTerminal.attempt data es w with ⟨w', _ | ⟨⟨⟩ | r, es'⟩⟩
  · -- an attempt that is cut, and the last one, have made no final call
    rw [hr] at hround hy
    exact absurd (hround.1.old y hy hfinal) hnew
  · rw [hr] at hround hy
    rw [regular_observedTerminal.extends_attempt data es w w' _ es' hr [e]]
    obtain ⟨⟨hf', hz', hpos⟩, -⟩ := hround
    by_cases hold : y ∈ w'.trace
    · -- the call was made in this attempt, and the next one begins with a write
      have hd : data ≠ [] := List.length_pos_iff.mp hpos
      obtain ⟨e', es₁, heq⟩ : ∃ e' es₁, es' ++ [e] = e' :: es₁ :=
        List.exists_cons_of_ne_nil (by simp)
      obtain ⟨res, t₂, ht⟩ := exists_write_prefix hd e' es₁ w'
      intro hall
      refine hall w'.trace (.write data res) w'.st t₂ ?_ trivial (Or.inr ⟨y, hold, hfinal⟩)
      rw [heq]
      rw [List.append_assoc] at ht
      exact ht.symm
    -- the call is made in a later attempt
    · exact ih w' () es' hr hf' hz' hy hold
  · rw [hr] at hround hy
    exact absurd (hround.1.old y hy hfinal) hnew

/-- A loop that always heeds what is to end it makes no final call. -/
theorem not_final_of_heeds (h : ∀ n, Heeds data (retried data env n s)) (n : ℕ) :
    ∀ y ∈ (retried data env n s).1.trace, ¬ y.1.Final := by
  intro y hy hfinal
  have hnext := (h (n + 1)).noFurther
  unfold retried at hy hnext
  rw [List.range_succ, List.map_append] at hnext
  exact not_noFurther_of_final _ (env n) ⟨s, []⟩ (fun _ => always_nil) rfl hy hfinal
    List.not_mem_nil hnext

/-- **The loop heeds what is to end it exactly when no call is final**: no write fails for good, and
no `do_inter` sets `Done`. -/
theorem retryLoop_heeds_iff (data : List UInt8) (env : ℕ → Env) (s : Session) :
    (∀ n, Heeds data (retried data env n s)) ↔
      ∀ n, ∀ y ∈ (retried data env n s).1.trace, ¬ y.1.Final := by
  constructor
  · exact fun h n => not_final_of_heeds h n
  · exact fun h n => heeds_of_not_final (h n)

/-- A terminal that is gone is written to again and again. -/
theorem retryLoop_gone : ¬ ∀ (data : List UInt8) (env : ℕ → Env) (s : Session) (n : ℕ),
    Heeds data (retried data env n s) := by
  intro h
  have hcalls : (retried [65] (fun _ => { Env.willing with wmaster := .error (.other 5) }) 1
      (Session.fresh 0 128)).1.trace.map Prod.fst =
      [.write [65] (.error (.other 5)), .errorHandler 0] := rfl
  obtain ⟨y, hy, hk⟩ := List.mem_map.mp (hcalls ▸ List.mem_cons_self ..)
  refine not_final_of_heeds (fun n => h _ _ _ n) 1 y hy ?_
  rw [hk]
  nofun

end Runs

/-! ## A terminal that is gone -/

/-- **On a terminal that is gone the loop never ends**: it does not return under any script all
whose writes to the master fail. -/
theorem writeBack_failing {data : List UInt8} (hd : data ≠ []) (es : List Env)
    (hes : ∀ e ∈ es, ∃ er, e.wmaster = .error er) (w : SRun) : (writeBack data es w).2 = none := by
  have hwriten : ∀ w, wp (fun e : Env => ∃ er, e.wmaster = .error er) (fun _ => True)
      (writen writeMaster data) (fun r _ => r < 0) w := by
    intro w
    refine wp_iter (fun left _ => left = data) (fun _ _ _ => trivial) (fun left w h => ?_) rfl
    subst h
    unfold writenRound
    rw [if_neg hd]
    refine wp_bind (wp_writeMaster trivial (fun e _ er _ => wp_pure ?_) fun e he k hk => ?_)
    · show (-1 : ℤ) < 0
      decide
    · obtain ⟨er, her⟩ := he
      rw [her] at hk
      cases hk
  -- whatever a failed attempt calls, another one follows
  have hfailed : Keeps (fun e : Env => ∃ er, e.wmaster = .error er) (fun _ => True) (failed 1) := by
    unfold failed
    refine .bind .get fun s => .ite (.bind (fun w _ => ?_) fun _ => .pure) fun w _ => ?_
    · exact wp_mono (wp_doInter w) (fun _ _ => trivial) fun _ _ _ => trivial
    · exact wp_modify trivial
  have hwp : wp (fun e : Env => ∃ er, e.wmaster = .error er) (fun _ => True) (writeBack data)
      (fun _ _ => False) w := by
    refine wp_iter (fun _ _ => True) (fun _ _ _ => trivial) (fun _ w _ => ?_) trivial
    refine wp_seq (hwriten w) fun r w' hr => ?_
    rw [if_pos hr]
    exact wp_seq (hfailed w' trivial) fun _ _ _ => wp_pure trivial
  have h := hwp es hes
  rcases hr : writeBack data es w with ⟨w', _ | ⟨_, es'⟩⟩
  · rfl
  · rw [hr] at h
    exact h.1.elim

end PadSvr
