import PadSvr.Session.Round
import PadSvr.X29.Control
import PadSvr.Session.Signalled

/-!
# Why the loop ends

`Done` says why `do_copy` has left its loop. Whatever number it holds then, the last round has seen
a reason for it: a report of `poll`, a call that failed or met an end of file, three failed writes
in a row, or a flag that a handler has raised. Two of the calls have not failed: a packet of a
single byte, and a write to the terminal side that accepts nothing, count as failures by what an
earlier call has left in `errno`.

## Main definitions

* `Event.tells n`: the call is a reason for `Done` to be `n`
* `Reason`: the last round has seen a reason
* `Due`: what is known within a round

## Main results

* `wp_doCopyRound_due`: a round that sets `Done` has a reason to
* `doCopy_reason`: the loop ends for a reason
-/

namespace PadSvr

open Scripted Scripted.Prog

/-! ## Reasons -/

/-- The flag that a happening can raise. -/
def Happening.flag? : Happening → Option Signal
  | .signal g => some g
  | .rtimer => some .idle
  | .wtimer => some .alrm
  | .typed _ => none
  | .hangup => none

/-- The flag of `g` was up at the start, or something that raises it happens. -/
def Raised (es : List Env) (s : Session) (g : Signal) : Prop :=
  s.flags.up g = true ∨ ∃ e ∈ es, ∃ h ∈ e.before, h.flag? = some g

/-- `revents` that make `reventsPart` set `Done` to `n`. -/
def tellsRevents (n : ℕ) (sock master : Revents) : Prop :=
  n = 1 ∧ (master.pollerr = true ∨ master.pollnval = true) ∨ n = 2 ∧ sock.pollhup = true ∨
    n = 3 ∧ master.pollhup = true ∨ n = 10 ∧ (sock.pollerr = true ∨ sock.pollnval = true)

/-- A call, made in the state `s`, that is a reason for `Done` to be `n`. -/
def Event.tells (n : ℕ) : Event → Session → Prop
  | .poll (.ready sock master _), _ => tellsRevents n sock master
  | .poll (.fail er), _ => n = 11 ∧ er ≠ .eintr
  | .readMaster _ _ (.ok data), _ => n = 6 ∧ data = []
  | .readMaster _ _ (.error er), _ => n = 1 ∧ er ≠ .eintr
  | .readSock _ (.ok pkt), s => n = 9 ∧ pkt = [] ∨ n = 10 ∧ pkt.length = 1 ∧ s.sys.errno ≠ .eintr
  | .readSock _ (.error er), _ => n = 10 ∧ er ≠ .eintr
  | .writeMaster _ (.ok k), s => n = 1 ∧ k = 0 ∧ s.sys.errno ≠ .eintr
  | .writeMaster _ (.error er), _ => n = 1 ∧ er ≠ .eintr
  | _, _ => False

/-- The calls `t` of a round, under the script `es` and from the state `s` at the start of the loop,
hold a reason for `Done` to be `n`. -/
inductive Reason (es : List Env) (s : Session) (t : STrace) (n : ℕ) : Prop
  | call (x : Event × Session) (hx : x ∈ t) (h : x.1.tells n x.2)
  | gaveUp (hn : n = 10) (h : GaveUp t)
  | watchdog (hn : n = 7) (h : Raised es s .alrm)
  | exit (hn : n = 8) (h : Raised es s .exit)

section Reason

variable {es : List Env} {s : Session} {t t' : STrace} {n : ℕ}

theorem Reason.append (h : Reason es s t n) (t' : STrace) :
    Reason es s (t ++ t') n := by
  cases h with
  | call x hx h => exact .call x (List.mem_append_left _ hx) h
  | gaveUp hn h =>
    obtain ⟨t₁, ht, h3⟩ := h
    exact .gaveUp hn ⟨t₁, ht.trans (List.prefix_append _ _), h3⟩
  | watchdog hn h => exact .watchdog hn h
  | exit hn h => exact .exit hn h

/-- The reasons there are. -/
theorem Reason.mem (h : Reason es s t n) : n ∈ [1, 2, 3, 6, 7, 8, 9, 10, 11] := by
  have hrev : ∀ {so ma}, tellsRevents n so ma → n ∈ [1, 2, 3, 6, 7, 8, 9, 10, 11] := by
    rintro so ma (⟨rfl, -⟩ | ⟨rfl, -⟩ | ⟨rfl, -⟩ | ⟨rfl, -⟩) <;> simp
  cases h with
  | call x hx h =>
    obtain ⟨k, s'⟩ := x
    cases k with
    | poll a =>
      cases a with
      | ready so ma pi => exact hrev h
      | fail er => simp [h.1]
    | readMaster off m res => cases res <;> simp [h.1]
    | readSock m res =>
      cases res with
      | error er => simp [h.1]
      | ok pkt => rcases h with h | h <;> simp [h.1]
    | writeMaster data res => cases res <;> simp [h.1]
    | _ => exact h.elim
  | gaveUp hn h => simp [hn]
  | watchdog hn h => simp [hn]
  | exit hn h => simp [hn]

end Reason

/-- What happens before a statement raises the flags of its signals only. -/
theorem raises_of_deliver {e : Env} {s : Session} {g : Signal}
    (h : (deliver e s).flags.up g = true) :
    s.flags.up g = true ∨ ∃ x ∈ e.before, x.flag? = some g := by
  have hrun : ∀ (x : Happening) (s : Session), (x.run s).flags.up g = true →
      s.flags.up g = true ∨ x.flag? = some g := by
    intro x s hx
    cases x with
    | signal g' =>
      by_cases hg : g' = g
      · exact Or.inr (congrArg some hg)
      · left
        revert hx
        cases g' <;> cases g <;> first | exact id | exact fun _ => absurd rfl hg
    | rtimer =>
      by_cases hr : s.sys.rtimer = true
      · cases g <;> simp_all [Happening.run, chilSigIdle, chilSig, Flags.up, Happening.flag?]
      · simp_all [Happening.run]
    | wtimer =>
      by_cases hw : s.sys.wtimer.isSome = true
      · cases g <;> simp_all [Happening.run, chilSigAlrm, chilSig, Flags.up, Happening.flag?]
      · simp_all [Happening.run]
    | typed bytes =>
      by_cases hc : s.sys.closed = true
      · exact Or.inl (by simpa [Happening.run, hc] using hx)
      · exact Or.inl (by simpa [Happening.run, hc] using hx)
    | hangup => exact Or.inl hx
  have key : ∀ (xs : List Happening) (s : Session),
      (xs.foldl (fun s x => x.run s) s).flags.up g = true →
        s.flags.up g = true ∨ ∃ x ∈ xs, x.flag? = some g := by
    intro xs
    induction xs with
    | nil => exact fun _ h => Or.inl h
    | cons x xs ih =>
      intro s h
      rcases ih (x.run s) h with h | ⟨y, hy, hg⟩
      · rcases hrun x s h with h | hg
        · exact Or.inl h
        · exact Or.inr ⟨x, by simp, hg⟩
      · exact Or.inr ⟨y, by simp [hy], hg⟩
  exact key e.before s h

/-! ## Within a round -/

/-- A step that sets neither `Done` nor the `revents`, and raises no flag. -/
structure Unmoved (s s' : Session) : Prop where
  done : s'.done = s.done
  sock : s'.loc.sockRevents = s.loc.sockRevents
  master : s'.loc.masterRevents = s.loc.masterRevents
  flags : ∀ g, s'.flags.up g = true → s.flags.up g = true

/-- Within the round whose calls come behind `head`: a `Done` that is set has a reason, `c` writes
to the socket at least have failed in a row, and the `revents` are as `K` says. -/
structure Due (es : List Env) (s : Session) (head : STrace)
    (K : Revents → Revents → Prop) (c : ℕ) (w : SRun) : Prop where
  pre : head <+: w.trace
  row : c ≤ failuresInRow (w.trace.drop head.length)
  reason : w.st.done = 0 ∨ Reason es s (w.trace.drop head.length) w.st.done
  heard : ∀ g, w.st.flags.up g = true → Raised es s g
  known : K w.st.loc.sockRevents w.st.loc.masterRevents

section Due

variable {es : List Env} {s u v : Session} {head : STrace} {c c' : ℕ}
  {K : Revents → Revents → Prop} {w : SRun}

theorem Unmoved.refl (s : Session) : Unmoved s s := ⟨rfl, rfl, rfl, fun _ h => h⟩

theorem Due.unmoved (h : Due es s head K c w) (hs : Unmoved w.st u) :
    Due es s head K c ⟨u, w.trace⟩ where
  pre := h.pre
  row := h.row
  reason := by
    rw [hs.done]
    exact h.reason
  heard := fun g hg => h.heard g (hs.flags g hg)
  known := by
    rw [hs.sock, hs.master]
    exact h.known

/-- What happens before a statement. -/
theorem Due.deliver (h : Due es s head K c w) {e : Env} (he : e ∈ es) :
    Due es s head K c ⟨deliver e w.st, w.trace⟩ where
  pre := h.pre
  row := h.row
  reason := by simpa using h.reason
  heard := fun g hg => by
    rcases raises_of_deliver hg with hg | ⟨x, hx, hf⟩
    · exact h.heard g hg
    · exact Or.inr ⟨e, he, x, hx, hf⟩
  known := by simpa using h.known

/-- One more call, and the failures in a row with it. -/
theorem Due.record (h : Due es s head K c w) {k : Event} (hs : Unmoved w.st u)
    (hc : c' ≤ countFailure (failuresInRow (w.trace.drop head.length)) (k, v)) :
    Due es s head K c' ⟨u, w.trace ++ [(k, v)]⟩ := by
  have hd : (w.trace ++ [(k, v)]).drop head.length = w.trace.drop head.length ++ [(k, v)] :=
    List.drop_append_of_le_length h.pre.length_le
  have hsame := h.unmoved hs
  refine ⟨h.pre.trans (List.prefix_append _ _), ?_, ?_, hsame.heard, hsame.known⟩
  · rwa [hd, failuresInRow_concat]
  · rw [hd]
    exact hsame.reason.imp_right fun hr => hr.append _

/-- A call that is no write to the socket. -/
theorem Due.call (h : Due es s head K c w) {k : Event}
    (hs : Unmoved w.st u) (hk : writeOutcome (k, v) = none) :
    Due es s head K c ⟨u, w.trace ++ [(k, v)]⟩ :=
  h.record hs (by simpa [countFailure, hk] using h.row)

/-- A write to the socket that accepts nothing, unless it was interrupted (`p`), is one more failure
in a row. -/
theorem Due.nothing (h : Due es s head K c w) {k : Event} {p : Prop}
    [Decidable p] (hs : Unmoved w.st u)
    (hk : writeOutcome (k, v) = if p then some .interrupted else some .failure) :
    Due es s head K c ⟨u, w.trace ++ [(k, v)]⟩ ∧
      (¬ p → c + 1 ≤ failuresInRow ((w.trace ++ [(k, v)]).drop head.length)) := by
  have hrow := h.row
  rw [List.drop_append_of_le_length h.pre.length_le, failuresInRow_concat]
  by_cases hp : p
  · rw [if_pos hp] at hk
    exact ⟨h.record hs (by simpa [countFailure, hk] using hrow), fun hn => absurd hp hn⟩
  · rw [if_neg hp] at hk
    refine ⟨h.record hs ?_, fun _ => ?_⟩
    · simp only [countFailure, hk]
      omega
    · simp only [countFailure, hk]
      omega

theorem Due.weaken (h : Due es s head K c w) (hc : c' ≤ c) : Due es s head K c' w :=
  ⟨h.pre, hc.trans h.row, h.reason, h.heard, h.known⟩

/-- `Done` is set, for a reason. -/
theorem Due.set (h : Due es s head K c w) {n : ℕ}
    (hr : Reason es s (w.trace.drop head.length) n) :
    Due es s head K c ⟨{ w.st with done := n }, w.trace⟩ :=
  ⟨h.pre, h.row, Or.inr hr, h.heard, h.known⟩

/-- A call that is a reason, at the end of the trace. -/
theorem reason_of_last {t : STrace} {k : Event} (hle : head <+: t) {n : ℕ}
    (hk : k.tells n v) : Reason es s ((t ++ [(k, v)]).drop head.length) n := by
  rw [List.drop_append_of_le_length hle.length_le]
  exact .call (k, v) (by simp) hk

/-- What is known within a round is known behind a part of it. -/
abbrev RestoresDue {α : Type} (es : List Env) (s : Session) (head : STrace)
    (K : Revents → Revents → Prop) (c : ℕ) (m : SProg α) : Prop :=
  Restores (· ∈ es) (fun _ => True) (Due es s head K c) m

theorem restores_stmt_due {α : Type} {f : Env → Session → Session × α}
    (hf : ∀ e s, Unmoved s (f e s).1) : RestoresDue es s head K c (stmt f) := fun _ hw =>
  wp_stmt trivial fun e he => (hw.deliver he).unmoved (hf e _)

theorem restores_assign_due {f : Session → Session} (hf : ∀ s, Unmoved s (f s)) :
    RestoresDue es s head K c (assign f) := restores_stmt_due fun _ s => hf s

theorem restores_modify_due {f : Session → Session} (hf : ∀ s, Unmoved s (f s)) :
    RestoresDue es s head K c (modify f) := fun _ hw => wp_modify (hw.unmoved (hf _))

theorem restores_reload_due : RestoresDue es s head K c reload := fun _ hw =>
  wp_reload trivial fun _ he _ _ _ => (hw.deliver he).call ⟨rfl, rfl, rfl, fun _ h => h⟩ rfl

/-- Lowering a flag. -/
theorem unmoved_lower (s : Session) (g : Signal) :
    Unmoved s { s with flags := s.flags.lower g } := ⟨rfl, rfl, rfl, fun _ h => up_of_up_lower h⟩

/-- Each flag that `do_inter` finds up has been raised. -/
theorem restores_doInter_due : RestoresDue es s head K c doInter := by
  have hflag : ∀ {up handle ret ret₀}, (∀ w : SRun, up w.st.flags = true →
      Due es s head K c w →
        wp (· ∈ es) (fun _ => True) handle (fun _ => Due es s head K c) w) →
      RestoresDue es s head K c (onFlag up handle ret ret₀) := fun hh w hw =>
    wp_onFlag (P := fun _ => Due es s head K c) (fun _ _ => trivial)
      (fun _ _ he h => h.deliver he) hh hw
  have hset : ∀ {w : SRun} {n : ℕ} {g : Signal} {f : Session → Session},
      (∀ s, f s = { s with done := n, flags := s.flags.lower g }) →
      (∀ t, Reason es s t n) → Due es s head K c w →
        wp (· ∈ es) (fun _ => True) (assign f) (fun _ => Due es s head K c) w :=
    fun hf hr hw => wp_assign trivial fun _ he => by
      rw [hf]
      exact ((hw.deliver he).set (hr _)).unmoved (unmoved_lower _ _)
  unfold doInter
  refine .bind (hflag fun w _ => ?_) fun _ => .bind (hflag fun w hup hw => ?_) fun _ =>
    .bind (hflag fun w hup hw => ?_) fun _ => .bind (hflag fun w _ => ?_) fun _ =>
      hflag fun w _ => ?_
  · exact Restores.bind restores_reload_due (fun _ => restores_stmt_due fun _ s =>
      unmoved_lower s .hup) w
  · exact hset (g := .alrm) (fun _ => rfl) (fun _ => .watchdog rfl (hw.heard .alrm hup)) hw
  · exact hset (g := .exit) (fun _ => rfl) (fun _ => .exit rfl (hw.heard .exit hup)) hw
  · have hidle : RestoresDue es s head K c interIdle := restores_stmt_due
      (f := fun _ s => ({ s with flags := s.flags.lower .idle, flagForwardtimerEx := true }, ()))
      fun _ _ => ⟨rfl, rfl, rfl, fun _ h => up_of_up_lower h⟩
    exact hidle w
  · refine Restores.bind (restores_stmt_due fun e s => ?_) (fun _ =>
      restores_stmt_due fun _ s => unmoved_lower s .chld) w
    split
    · split
      · exact ⟨rfl, rfl, rfl, fun _ h => h⟩
      · exact .refl s
    · exact .refl s

/-- A call that failed: unless it was interrupted, it is a reason. -/
theorem wp_failed_due {n : ℕ} (h : Due es s head K c w)
    (hr : w.st.sys.errno ≠ .eintr → Reason es s (w.trace.drop head.length) n) :
    wp (· ∈ es) (fun _ => True) (failed n) (fun _ => Due es s head K c) w := by
  unfold failed setDone
  refine wp_bind (wp_get ?_)
  split
  · exact wp_seq (restores_doInter_due w h) fun _ _ h => wp_pure h
  · next her => exact wp_modify (h.set (hr her))

/-! ## The parts of a round -/

/-- A write to the socket that accepts nothing: the third failure in a row is a reason. -/
theorem wp_writensockintFailed_due {n : ℕ} {v : WriteVars}
    (h : Due es s head K v.cerr w)
    (hrow : w.st.sys.errno ≠ .eintr → v.cerr + 1 ≤ failuresInRow (w.trace.drop head.length)) :
    wp (· ∈ es) (fun _ => True) (writensockintFailed n doInter wrError v)
      (fun r w' => r.elim (fun v' => Due es s head K v'.cerr w')
        fun _ => Due es s head K 0 w') w := by
  unfold writensockintFailed
  refine wp_bind (wp_get ?_)
  split
  · refine wp_seq (restores_doInter_due w h) fun r w' h' => ?_
    split
    · exact wp_pure (h'.weaken (Nat.zero_le _))
    · exact wp_pure h'
  · next her =>
    have hrow := hrow her
    split
    · exact wp_pure ⟨h.pre, hrow, h.reason, h.heard, h.known⟩
    · next hc =>
      have hgave : GaveUp (w.trace.drop head.length) := ⟨_, List.prefix_refl _, by omega⟩
      have hset := (h.set (.gaveUp rfl hgave)).weaken (Nat.zero_le _)
      unfold wrError setDone
      exact wp_bind (wp_bind (wp_modify (wp_pure (wp_pure hset))))

theorem restores_writensockint_due (buf : List UInt8) (n : ℕ) :
    RestoresDue es s head K 0 (writensockint buf n doInter wrError) := by
  intro w hw
  unfold writensockint
  split
  · exact wp_pure hw
  refine wp_iter (fun v => Due es s head K v.cerr) (fun _ _ _ => trivial) (fun v w hv => ?_)
    hw
  unfold writensockintRound
  split
  · exact wp_pure (hv.weaken (Nat.zero_le _))
  refine wp_bind (wp_writeSock trivial (fun e he er _ => ?_) fun e he k _ => ?_)
  · rw [if_pos (by decide)]
    have ⟨hd, hrow⟩ := (hv.deliver he).nothing (u := (deliver e w.st).failing er)
      (k := .writeSock (WriteVars.packet { v with buf := v.buf.set v.ptr (buf.headD 0) })
        (.error er)) (v := deliver e w.st) ⟨rfl, rfl, rfl, fun _ h => h⟩ rfl
    exact wp_writensockintFailed_due hd hrow
  · set m := min k (WriteVars.packet { v with buf := v.buf.set v.ptr (buf.headD 0) }).length
    split
    · next hz =>
      have hz : m = 0 := by omega
      rw [hz]
      have ⟨hd, hrow⟩ := (hv.deliver he).nothing (k := .writeSock
        (WriteVars.packet { v with buf := v.buf.set v.ptr (buf.headD 0) }) (.ok 0))
        (v := deliver e w.st) (.refl _) rfl
      exact wp_writensockintFailed_due hd hrow
    · exact wp_pure ((hv.deliver he).record (.refl _) (Nat.zero_le _))

/-- A packet for the terminal side. -/
theorem restores_writeBack_due (data : List UInt8) :
    RestoresDue es s head K 0 (writeBack data) := by
  have hwriten : ∀ w, Due es s head K 0 w → wp (· ∈ es) (fun _ => True)
      (writen writeMaster data) (fun r w' => Due es s head K 0 w' ∧ (r < 0 →
        w'.st.sys.errno ≠ .eintr → Reason es s (w'.trace.drop head.length) 1)) w := by
    intro w hw
    unfold writen
    refine wp_iter (fun _ => Due es s head K 0) (fun _ _ _ => trivial)
      (fun left w hw => ?_) hw
    unfold writenRound
    split
    · exact wp_pure ⟨hw, fun h => absurd h (by omega)⟩
    refine wp_bind (wp_writeMaster trivial (fun e he er _ => ?_) fun e he k _ => ?_)
    · rw [if_pos (by decide)]
      exact wp_pure ⟨(hw.deliver he).call ⟨rfl, rfl, rfl, fun _ h => h⟩ rfl,
        fun _ her => reason_of_last hw.pre ⟨rfl, her⟩⟩
    · have hcall := (hw.deliver he).call (k := .writeMaster left (.ok (min k left.length)))
        (v := deliver e w.st) (.refl _) rfl
      split
      · next hz =>
        exact wp_pure ⟨hcall, fun _ her => reason_of_last hw.pre ⟨rfl, by omega, her⟩⟩
      · exact wp_pure hcall
  intro w hw
  unfold writeBack
  refine wp_iter (fun _ => Due es s head K 0) (fun _ _ _ => trivial) (fun _ w hw => ?_) hw
  refine wp_seq (hwriten w hw) fun r w' h' => ?_
  split
  · next hneg => exact wp_seq (wp_failed_due h'.1 (h'.2 hneg)) fun _ _ h => wp_pure h
  · exact wp_pure h'.1

theorem restores_readMasterPart_due :
    RestoresDue es s head K 0 readMasterPart := by
  intro w hw
  refine wp_readMasterPart trivial (fun _ => hw) (fun e he er _ => ?_) (fun e he _ => ?_)
    fun e he data _ _ _ => ?_
  · exact wp_failed_due ((hw.deliver he).call ⟨rfl, rfl, rfl, fun _ h => h⟩ rfl)
      fun her => reason_of_last hw.pre ⟨rfl, her⟩
  · have hcall := (hw.deliver he).call (k := .readMaster w.st.readArgs.1 w.st.readArgs.2 (.ok []))
      (v := deliver e w.st) (.refl _) rfl
    exact hcall.set (reason_of_last hw.pre ⟨rfl, rfl⟩)
  · have hcall := (hw.deliver he).call (u := (deliver e w.st).gotMaster w.st.readArgs.1 data)
      (k := .readMaster w.st.readArgs.1 w.st.readArgs.2 (.ok data))
      (v := deliver e w.st) ⟨rfl, rfl, rfl, fun _ h => h⟩ rfl
    have hloc : ∀ f : Locals → Locals, (∀ l, (f l).sockRevents = l.sockRevents ∧
        (f l).masterRevents = l.masterRevents) → RestoresDue es s head K 0 (setLoc f) :=
      fun f hf => restores_modify_due fun s => ⟨rfl, (hf s.loc).1, (hf s.loc).2, fun _ h => h⟩
    have hreset : RestoresDue es s head K 0 resetReadTimeout :=
      restores_assign_due fun _ => ⟨rfl, rfl, rfl, fun _ h => h⟩
    have hset : RestoresDue es s head K 0 setReadTimeout := fun w hw =>
      wp_setReadTimeout trivial fun e he _ => (hw.deliver he).unmoved ⟨rfl, rfl, rfl, fun _ h => h⟩
    refine (show RestoresDue es s head K 0 (masterReceived data.length) from ?_) _ hcall
    unfold masterReceived
    refine .bind .get fun _ => .ite (.bind .get fun _ =>
      .bind (restores_writensockint_due _ _) fun _ =>
        restores_modify_due fun _ => ⟨rfl, rfl, rfl, fun _ h => h⟩) ?_
    exact .bind (hloc _ fun _ => ⟨rfl, rfl⟩) fun _ => .bind .get fun _ =>
      .ite (.bind (hloc _ fun _ => ⟨rfl, rfl⟩) fun _ => hreset) hset

theorem restores_readSocketPart_due :
    RestoresDue es s head K 0 readSocketPart := by
  intro w hw
  unfold readSocketPart
  refine wp_bind (wp_get ?_)
  split
  · refine wp_bind (wp_get (wp_bind (wp_readSock trivial (fun e he er => ?_) fun e he pkt => ?_)))
    · exact wp_failed_due ((hw.deliver he).call ⟨rfl, rfl, rfl, fun _ h => h⟩ rfl)
        fun her => reason_of_last hw.pre ⟨rfl, her⟩
    · have hcall := (hw.deliver he).call
        (u := { deliver e w.st with bufn := store (deliver e w.st).bufn 0 pkt })
        (k := .readSock (w.st.cfg.bufferSize.toNat + 1) (.ok pkt)) (v := deliver e w.st)
        ⟨rfl, rfl, rfl, fun _ h => h⟩ rfl
      split
      · -- a packet for the terminal side, or a control message
        have hloc : RestoresDue es s head K 0
            (setLoc fun l => { l with flagLastWritesock := false }) :=
          restores_modify_due fun _ => ⟨rfl, rfl, rfl, fun _ h => h⟩
        have hnet : RestoresDue es s head K 0 setNetTimeout :=
          restores_assign_due fun _ => ⟨rfl, rfl, rfl, fun _ h => h⟩
        refine (show RestoresDue es s head K 0 (socketReceived pkt.length) from ?_) _ hcall
        unfold socketReceived
        exact .bind .get fun _ => .ite (.bind hloc fun _ => restores_writeBack_due _)
          (.ite hnet .pure)
      · next h1 =>
        split
        · next h0 =>
          have hnil : pkt = [] := List.length_eq_zero_iff.mp (by omega)
          exact wp_modify (hcall.set (reason_of_last hw.pre (Or.inl ⟨rfl, hnil⟩)))
        · next h0 =>
          exact wp_failed_due hcall fun her =>
            reason_of_last hw.pre (Or.inr ⟨rfl, by omega, her⟩)
  · exact wp_pure hw

theorem restores_forwardPart_due :
    RestoresDue es s head K 0 forwardPart := by
  have hlabel : RestoresDue es s head K 0 (label .forwardTest) := fun w hw =>
    wp_label (hw.call (.refl _) rfl)
  unfold forwardPart
  refine .bind hlabel fun _ => .bind .get fun _ => .ite (.ite
    (restores_modify_due fun _ => ⟨rfl, rfl, rfl, fun _ h => h⟩) ?_) .pure
  exact .bind (restores_modify_due fun _ => ⟨rfl, rfl, rfl, fun _ h => h⟩) fun _ => .bind .get
    fun _ => .bind (restores_writensockint_due _ _) fun _ =>
      restores_modify_due fun _ => ⟨rfl, rfl, rfl, fun _ h => h⟩

/-- What `revents` hold, and that what they tell is a reason. -/
structure Attested (es : List Env) (s : Session) (head : STrace) (so ma : Revents)
    (w : SRun) : Prop where
  due : Due es s head (fun so' ma' => so' = so ∧ ma' = ma) 0 w
  tells : ∀ n, tellsRevents n so ma → Reason es s (w.trace.drop head.length) n

end Due

section Round

variable {es : List Env} {s : Session} {head : STrace} {so ma : Revents} {w : SRun}

/-- A round leaves the loop for a reason. -/
structure Departs (es : List Env) (s : Session) (head : STrace) (w : SRun) : Prop where
  pre : head <+: w.trace
  reason : Reason es s (w.trace.drop head.length) w.st.done

/-- Within a round, wherever the `revents` do not matter. -/
abbrev InRound (es : List Env) (s : Session) (head : STrace) (w : SRun) : Prop :=
  Due es s head (fun _ _ => True) 0 w

/-- More of the round, with the same `revents`. -/
theorem Attested.aside {hup : Prop} {w' : SRun} (h : Attested es s head so ma w)
    (hd : Due es s head (fun so' ma' => so' = so ∧ ma' = ma) 0 w')
    (ha : Aside (· ∈ es) hup w w') : Attested es s head so ma w' := by
  obtain ⟨-, t, ht, -⟩ := ha
  refine ⟨hd, fun n hn => ?_⟩
  rw [ht, List.drop_append_of_le_length h.due.pre.length_le]
  exact (h.tells n hn).append t

/-- What `poll` reports is a reason, and what it does not report is cleared. -/
theorem wp_pollPart_attested (h : InRound es s head w) :
    wp (· ∈ es) (fun _ => True) pollPart (fun r w' =>
      if r = .leave then Departs es s head w'
      else ∃ so ma, Attested es s head so ma w') w := by
  unfold pollPart setWatchDog
  refine wp_bind (wp_assign trivial fun e₁ he₁ => ?_)
  have h := (h.deliver he₁).unmoved (u := { deliver e₁ w.st with
    sys := { (deliver e₁ w.st).sys with wtimer := armed (deliver e₁ w.st).cfg.watchdogTimeout } })
    ⟨rfl, rfl, rfl, fun _ h => h⟩
  generalize { deliver e₁ w.st with sys := { (deliver e₁ w.st).sys with
    wtimer := armed (deliver e₁ w.st).cfg.watchdogTimeout } } = s₁ at h ⊢
  dsimp only at h ⊢
  refine wp_bind (wp_pollCall trivial (fun e he er => ?_) fun e he so ma pi _ => ?_)
  · -- a failure
    have hcall := (h.deliver he).call (u := deliver e s₁) (k := .poll (.fail er))
      (v := deliver e s₁) (.refl _) rfl
    rw [if_neg (by simp)]
    refine wp_bind (wp_get ?_)
    split
    · next her =>
      exact wp_bind (wp_modify (wp_pure ⟨hcall.pre, reason_of_last h.pre ⟨rfl, her⟩⟩))
    · have hrep : Attested es s head {} {} ⟨((deliver e s₁).failing er).reported {} {} {},
          w.trace ++ [(.poll (.fail er), deliver e s₁)]⟩ := by
        refine ⟨⟨hcall.pre, hcall.row, hcall.reason, hcall.heard, rfl, rfl⟩, fun n hn => ?_⟩
        -- cleared `revents` tell nothing
        simp [tellsRevents] at hn
      have hinter := wp_and (restores_doInter_due _ hrep.due)
        (wp_within (R := Beside (· ∈ es) True) (N := Event.IsBeside True)
          (keeps_doInter_aside ⟨((deliver e s₁).failing er).reported {} {} {}, _⟩))
      refine wp_bind (wp_mono hinter (fun _ _ => trivial) fun _ w' h' => wp_pure ?_)
      rw [if_neg (by simp)]
      exact ⟨_, _, hrep.aside h'.1 h'.2⟩
  · -- a report
    have hcall := (h.deliver he).call (u := deliver e s₁) (k := .poll (.ready so ma pi))
      (v := deliver e s₁) (.refl _) rfl
    rw [if_pos rfl]
    refine wp_pure ?_
    rw [if_neg (by simp)]
    exact ⟨so, ma, ⟨hcall.pre, hcall.row, hcall.reason, hcall.heard, rfl, rfl⟩,
      fun n hn => reason_of_last h.pre hn⟩

/-- A signal has arrived. -/
theorem wp_signalPart_attested (h : Attested es s head so ma w) :
    wp (· ∈ es) (fun _ => True) signalPart (fun _ => Attested es s head so ma) w := by
  have hpart : RestoresDue es s head (fun so' ma' => so' = so ∧ ma' = ma) 0 signalPart := by
    have hread : ∀ n, RestoresDue es s head (fun so' ma' => so' = so ∧ ma' = ma) 0
        (readPipe n) := fun n w hw => wp_readPipe trivial
      (fun e he => (hw.deliver he).call ⟨rfl, rfl, rfl, fun _ h => h⟩ rfl)
      fun e he _ => (hw.deliver he).call ⟨rfl, rfl, rfl, fun _ h => h⟩ rfl
    unfold signalPart
    exact .bind .get fun _ => .ite (.bind .get fun _ => .bind (hread _) fun _ =>
      .bind (restores_doInter_due) fun _ => .pure) .pure
  exact wp_mono (wp_and (hpart w h.due) (wp_within (R := Beside (· ∈ es) True)
      (N := Event.IsBeside True) (keeps_signalPart_aside w)))
    (fun _ _ => trivial) fun _ w' h' => h.aside h'.1 h'.2

/-- Errors and hang-ups set `Done` for a reason. -/
theorem wp_reventsPart_attested (h : Attested es s head so ma w) :
    wp (· ∈ es) (fun _ => True) reventsPart (fun r w' =>
      if r = .leave then Departs es s head w'
      else InRound es s head w') w := by
  have ⟨hso, hma⟩ := h.due.known
  have hleave : ∀ {n : ℕ} {s' : Session}, tellsRevents n so ma →
      Departs es s head ⟨{ s' with done := n }, w.trace⟩ := fun ht =>
    ⟨h.due.pre, h.tells _ ht⟩
  unfold reventsPart masterHangup setDone
  refine wp_bind (wp_get ?_)
  dsimp only
  rw [hso, hma]
  split
  · next he => exact wp_bind (wp_modify (wp_pure (hleave (Or.inl ⟨rfl, he⟩))))
  next he =>
  -- a hang-up of the terminal side sets `Done`, and the socket is looked at all the same
  have hrest : ∀ s', s' = w.st ∧ ma.pollhup = false ∨
      s' = { w.st with done := 3 } ∧ ma.pollhup = true →
      wp (· ∈ es) (fun _ => True) (if so.pollerr = true ∨ so.pollnval = true then do
          modify fun s => { s with done := 10 }
          pure Ctl.leave
        else if so.pollhup = true then do
          modify fun s => { s with done := 2 }
          pure Ctl.leave
        else pure Ctl.next : SProg Ctl) (fun r w' =>
          if r = .leave then Departs es s head w'
          else InRound es s head w') ⟨s', w.trace⟩ := by
    intro s' hs'
    split
    · next hs =>
      exact wp_bind (wp_modify (wp_pure (hleave (Or.inr (Or.inr (Or.inr ⟨rfl, hs⟩))))))
    · next hs =>
      split
      · next hh =>
        exact wp_bind (wp_modify (wp_pure (hleave (Or.inr (Or.inl ⟨rfl, hh⟩)))))
      · next hh =>
        refine wp_pure ?_
        rw [if_neg (by simp)]
        rcases hs' with ⟨rfl, hm⟩ | ⟨rfl, hm⟩
        · exact ⟨h.due.pre, h.due.row, h.due.reason, h.due.heard, trivial⟩
        · exact ⟨h.due.pre, h.due.row, Or.inr (h.tells 3 (Or.inr (Or.inr (Or.inl ⟨rfl, hm⟩)))),
            h.due.heard, trivial⟩
  refine wp_bind (wp_bind (wp_get ?_))
  rw [hma]
  split
  · next hm => exact wp_modify (hrest _ (Or.inr ⟨rfl, hm⟩))
  · next hm => exact wp_pure (hrest _ (Or.inl ⟨rfl, by simpa using hm⟩))

/-- **A round that sets `Done` has a reason to.** -/
theorem wp_doCopyRound_due (h : InRound es s head w) :
    wp (· ∈ es) (fun _ => True) doCopyRound (fun r w' =>
      if r = .leave then Departs es s head w'
      else InRound es s head w') w := by
  refine wp_doCopyRound (A := fun w => ∃ so ma, Attested es s head so ma w)
    (B := fun w => ∃ so ma, Attested es s head so ma w)
    (C := InRound es s head) (D := InRound es s head)
    (F := InRound es s head) (wp_pollPart_attested h)
    (fun w ⟨so, ma, h⟩ => ?_) (fun w ⟨so, ma, h⟩ => wp_reventsPart_attested h)
    (restores_readMasterPart_due) (restores_readSocketPart_due)
    (restores_forwardPart_due)
  exact wp_mono (wp_signalPart_attested h) (fun _ h => h) fun _ _ h => ⟨so, ma, h⟩

end Round

/-! ## The loop -/

section Loop

variable {es : List Env} {s : Session} {w : SRun}

/-- The last round, which starts with `Done` at zero, holds a reason for the `Done` there is. -/
def Explained (es : List Env) (s : Session) (w : SRun) : Prop :=
  ∃ t₀ s₀ t₁, w.trace = t₀ ++ (.loopHead, s₀) :: t₁ ∧ s₀.done = 0 ∧
    Reason es s t₁ w.st.done

theorem Explained.label (h : Explained es s w) (k : Event) :
    Explained es s ⟨w.st, w.trace ++ [(k, w.st)]⟩ := by
  obtain ⟨t₀, s₀, t₁, ht, hd, hr⟩ := h
  exact ⟨t₀, s₀, t₁ ++ [(k, w.st)], by simp [ht], hd, hr.append _⟩

/-- At the head of the loop. -/
def Heading (es : List Env) (s : Session) (w : SRun) : Prop :=
  (w.st.done ≠ 0 → Explained es s w) ∧ ∀ g, w.st.flags.up g = true → Raised es s g

theorem wp_doCopyLoop_explained (h : Heading es s w) :
    wp (· ∈ es) (fun _ => True) doCopyLoop (fun _ => Explained es s) w := by
  refine wp_doCopyLoop (H := Heading es s) (L := Explained es s) (fun _ _ => trivial)
    (fun w h hd => ?_) (fun w h hd => ((h.1 hd).label _).label _) (fun w h => h.label _) h
  have hdue : InRound es s (w.trace ++ [(.loopHead, w.st)])
      ⟨w.st, w.trace ++ [(.loopHead, w.st)]⟩ :=
    ⟨List.prefix_refl _, Nat.zero_le _, Or.inl hd, h.2, trivial⟩
  -- what the round adds to the trace
  have hexplained : ∀ {w' : SRun}, Departs es s (w.trace ++ [(.loopHead, w.st)]) w' →
      Explained es s w' := fun {w'} h' => by
    obtain ⟨t₁, ht⟩ := h'.pre
    have hr := h'.reason
    rw [← ht, List.drop_left] at hr
    exact ⟨w.trace, w.st, t₁, by simp [← ht], hd, hr⟩
  refine wp_mono (wp_doCopyRound_due hdue) (fun _ h => h) fun c w' h' => ?_
  split
  · next hc => exact hexplained (by simpa [hc] using h')
  · next hc =>
    rw [if_neg hc] at h'
    exact ⟨fun hn => hexplained ⟨h'.pre, h'.reason.resolve_left hn⟩, h'.heard⟩

end Loop

/-- **The loop ends for a reason.** Where the loop has been left, `Done` is one of nine numbers, and
the last round, which started with `Done` at zero, holds a reason for it. -/
theorem doCopy_reason {es : List Env} {s : Session} {bufn bufd : List UInt8} {w : SRun}
    (hw : w ∈ doCopyLeft es s bufn bufd) :
    w.st.done ∈ [1, 2, 3, 6, 7, 8, 9, 10, 11] ∧ Explained es s w := by
  have hstart : Heading es s ⟨doCopyStart s bufn bufd, []⟩ :=
    ⟨fun h => absurd rfl h, fun _ hg => Or.inl hg⟩
  have h := left_of_wp (wp_doCopyLoop_explained hstart) (fun _ he => he) hw
  obtain ⟨t₀, s₀, t₁, ht, hd, hr⟩ := h
  exact ⟨hr.mem, t₀, s₀, t₁, ht, hd, hr⟩

/-- The other side closes the line. -/
def closedScript : List Env :=
  quiet 1 ++ [{ Env.willing with poll := .ready { pollin := true } {} {} }] ++ quiet 4

theorem doCopy_reason_closed :
    ∃ w ∈ doCopyLeft closedScript (.fresh 1 8) [] (List.replicate 9 0),
      w.st.done = 9 ∧ Explained closedScript (.fresh 1 8) w := by
  have hsome : ((doCopyLeft closedScript (.fresh 1 8) [] (List.replicate 9 0)).map
      fun w => w.st.done) = some 9 := by decide +kernel
  obtain ⟨w, hw, hd⟩ := Option.map_eq_some_iff.mp hsome
  exact ⟨w, hw, hd, (doCopy_reason hw).2⟩

end PadSvr
