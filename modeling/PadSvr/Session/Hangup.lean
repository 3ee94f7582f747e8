import PadSvr.Session.Leaving

/-!
# Hang-up of the terminal side

When `poll` reports a hang-up of the master, the round still reads from it once and sends what it
has read, and then the loop ends. Bytes beyond that one read, or behind an error, are lost.

## Main definitions

* `afterHangup t`: what was readable at the first report of a hang-up, and the calls after it
* `Drained`: everything readable at the hang-up has been read and sent
* `Drains`: the read after the hang-up delivers everything, and it is sent

## Main results

* `doCopy_drained`: runs that meet `Drains` drain the terminal side
* `not_doCopy_drained`: more bytes at a hang-up than one read asks for
-/

namespace PadSvr

open Scripted Scripted.Prog

/-- `poll` reports a hang-up of the master. -/
def Event.hangsUp : Event → Bool
  | .poll (.ready _ master _) => master.pollhup
  | _ => false

/-- The bytes of the terminal side not yet read at the first report of a hang-up, and the calls
after it. -/
def afterHangup : STrace → Option (List UInt8 × STrace)
  | [] => none
  | x :: t => if x.1.hangsUp then some (x.2.sys.pty, t) else afterHangup t

/-- Everything that was readable at the hang-up has been read, and the X.25 socket has accepted it
since. -/
def Drained (w : SRun) : Prop :=
  ∀ p ∈ afterHangup w.trace, w.st.sys.pty = [] ∧ p.1 <:+: accepted p.2

instance (w : SRun) : Decidable (Drained w) :=
  inferInstanceAs (Decidable (∀ p ∈ afterHangup w.trace, w.st.sys.pty = [] ∧ p.1 <:+: accepted p.2))

/-- A hang-up comes with nothing more to read, or with `POLLIN` and no error; the read after it
delivers everything, within the block; and what it puts in the buffer is flushed. -/
def Drains (t : STrace) : Event → Session → Prop
  | .poll (.ready _ master _), s =>
    master.pollhup = true → s.sys.pty = [] ∨ master.pollin = true ∧ ¬ master.Fails
  | .readMaster off n res, s =>
    s.done = 3 → s.sys.pty = [] ∨
      (Event.readMaster off n res).received = s.sys.pty ∧
        off + s.sys.pty.length ≤ s.bufd.length
  | .forwardTest, s =>
    (∃ x ∈ t, x.1.received ≠ [] ∧ x.2.done = 3 ∧ x.2.cfg.forwardtimer ≠ 0) → s.flushes = true
  | _, _ => True

instance (t : STrace) (k : Event) (s : Session) : Decidable (Drains t k s) :=
  match k with
  | .poll (.ready _ _ _) => inferInstanceAs (Decidable (_ → _ ∨ _))
  | .poll (.fail _) => isTrue trivial
  | .readMaster _ _ _ => inferInstanceAs (Decidable (_ → _ ∨ _))
  | .forwardTest => inferInstanceAs (Decidable (_ → _))
  | .loopHead => isTrue trivial
  | .loopEnd => isTrue trivial
  | .readPipe _ => isTrue trivial
  | .readSock _ _ => isTrue trivial
  | .writeSock _ _ => isTrue trivial
  | .writeMaster _ _ => isTrue trivial
  | .reload _ => isTrue trivial
  | .closingPoll _ => isTrue trivial

/-! ## Traces -/

section Traces

variable {t t' : STrace} {p : List UInt8 × STrace}

/-- Calls that report no hang-up come after the first report, if there was one. -/
theorem afterHangup_append (ht : ∀ x ∈ t', x.1.hangsUp = false) :
    afterHangup (t ++ t') = (afterHangup t).map fun p => (p.1, p.2 ++ t') := by
  induction t with
  | nil =>
    induction t' with
    | nil => rfl
    | cons x t' ih =>
      have hx := ht x (by simp)
      simpa [afterHangup, hx] using ih fun y hy => ht y (by simp [hy])
  | cons x t ih =>
    rw [List.cons_append, afterHangup, afterHangup]
    split
    · rfl
    · exact ih

theorem exists_of_afterHangup_append (ht : ∀ x ∈ t', x.1.hangsUp = false)
    (h : p ∈ afterHangup (t ++ t')) : ∃ t₂, (p.1, t₂) ∈ afterHangup t ∧ p.2 = t₂ ++ t' := by
  rw [afterHangup_append ht] at h
  obtain ⟨⟨q, t₂⟩, hq, rfl⟩ := Option.map_eq_some_iff.mp h
  exact ⟨t₂, hq, rfl⟩

/-- The first report of a hang-up. -/
theorem afterHangup_concat {k : Event} {s : Session} (h : afterHangup t = none)
    (hp : p ∈ afterHangup (t ++ [(k, s)])) : k.hangsUp = true ∧ p = (s.sys.pty, []) := by
  induction t with
  | nil =>
    rw [List.nil_append, afterHangup] at hp
    split at hp
    · next hk => exact ⟨hk, (Option.some.inj hp).symm⟩
    · cases hp
  | cons x t ih =>
    rw [afterHangup] at h
    split at h
    · cases h
    · next hx =>
      rw [List.cons_append, afterHangup, if_neg hx] at hp
      exact ih h hp

theorem infix_accepted_append {bytes : List UInt8} (h : bytes <:+: accepted t) (t' : STrace) :
    bytes <:+: accepted (t ++ t') := by
  rw [accepted_append]
  exact h.trans (List.prefix_append _ _).isInfix

end Traces

/-! ## The invariants -/

section Invariants

/-- The buffer is not empty, and reads go behind what it holds. -/
structure Based (s : Session) : Prop where
  bufd : s.bufd ≠ []
  tbufd2 : s.loc.tbufd2 = s.loc.totali
  calm : s.Calm

/-- After the `poll` of a round: its report is the first of a hang-up, if there is one. -/
structure Reported (w : SRun) : Prop where
  based : Based w.st
  hung : ∀ p ∈ afterHangup w.trace, w.st.sys.closed = true ∧ w.st.sys.pty = p.1 ∧
    (Always Drains w.trace → p.1 = [] ∨
      w.st.loc.masterRevents.pollin = true ∧ ¬ w.st.loc.masterRevents.Fails) ∧
    w.st.loc.masterRevents.pollhup = true

/-- Before the read of a round: after a hang-up everything is still there. -/
structure Waiting (w : SRun) : Prop where
  based : Based w.st
  hung : ∀ p ∈ afterHangup w.trace, w.st.sys.closed = true ∧ w.st.sys.pty = p.1 ∧
    w.st.done = 3 ∧
    (Always Drains w.trace → p.1 = [] ∨ w.st.loc.masterRevents.pollin = true)

/-- Everything readable at the hang-up is sent, or it is held and its flush is due. -/
def Delivered (w : SRun) (p : List UInt8 × STrace) : Prop :=
  w.st.sys.pty = [] ∧ (p.1 <:+: accepted p.2 ∨ p.1 <:+: w.st.held ∧ w.st.loc.totali ≠ 0 ∧
    ∃ x ∈ w.trace, x.1.received ≠ [] ∧ x.2.done = 3 ∧ x.2.cfg.forwardtimer ≠ 0)

/-- After the read of a round. -/
structure Fetched (w : SRun) : Prop where
  based : Based w.st
  hung : ∀ p ∈ afterHangup w.trace, w.st.sys.closed = true ∧ w.st.done ≠ 0 ∧
    (Always Drains w.trace → Delivered w p)

/-- At the head of the loop. -/
structure Returned (w : SRun) : Prop where
  based : Based w.st
  running : w.st.done = 0 → afterHangup w.trace = none
  drained : w.st.Hung → Always Drains w.trace → Drained w

variable {E : Env → Prop} {w w' : SRun} (hE : ∀ e, E e → e.Calm ∧ Writes e.wsock = true)

include hE in
theorem Based.aside {hup : Prop} (h : Based w.st) (ha : Aside E hup w w') : Based w'.st := by
  obtain ⟨so, ma, pi, ws, -, hl⟩ := ha.1.loc
  refine ⟨by rw [ha.1.bufd]; exact h.bufd, ?_, ha.1.calm (fun e he => (hE e he).1) h.calm⟩
  rw [hl]
  exact h.tbufd2

theorem not_hangsUp_of_aside (ha : Aside E False w w') :
    ∃ t, w'.trace = w.trace ++ t ∧ ∀ x ∈ t, x.1.hangsUp = false := by
  obtain ⟨-, t, ht, hx⟩ := ha
  refine ⟨t, ht, fun x hm => ?_⟩
  rcases (hx x hm).2.eq with ⟨hf, -⟩ | ⟨_, h⟩ | ⟨_, _, h⟩ | ⟨_, _, h⟩ | ⟨_, h⟩
  · exact hf.elim
  all_goals
    rw [h]
    rfl

theorem not_hangsUp_of_sent {q : UInt8} {payload : List UInt8} {k : ℕ}
    (hs : Sent E q payload k w w') : ∃ t, w'.trace = w.trace ++ t ∧ accepted t = payload.take k ∧
      ∀ x ∈ t, x.1.hangsUp = false := by
  obtain ⟨t, ht, hx, ha, -⟩ := hs.trace
  refine ⟨t, ht, ha, fun x hm => ?_⟩
  rcases (hx x hm).2.eq with ⟨_, h⟩ | ⟨_, _, h, -⟩ <;> simp [h, Event.hangsUp]

include hE in
theorem Reported.aside (h : Reported w) (ha : Aside E False w w') : Reported w' := by
  obtain ⟨t, ht, hn⟩ := not_hangsUp_of_aside ha
  refine ⟨h.based.aside hE ha, fun p hp => ?_⟩
  rw [ht] at hp ⊢
  obtain ⟨t₂, hp', -⟩ := exists_of_afterHangup_append hn hp
  obtain ⟨hc, hpty, hd, hh⟩ := h.hung _ hp'
  obtain ⟨hc', hpty'⟩ := ha.1.closed hc
  have hm := ha.1.revents.resolve_left id
  rw [hm]
  exact ⟨hc', hpty'.trans hpty, fun hall => hd (always_of_append hall), hh⟩

include hE in
theorem Fetched.aside (h : Fetched w) (ha : Aside E False w w') : Fetched w' := by
  obtain ⟨t, ht, hn⟩ := not_hangsUp_of_aside ha
  obtain ⟨so, ma, pi, ws, -, hl⟩ := ha.1.loc
  refine ⟨h.based.aside hE ha, fun p hp => ?_⟩
  rw [ht] at hp
  obtain ⟨t₂, hp', hp₂⟩ := exists_of_afterHangup_append hn hp
  obtain ⟨hc, hd, hall⟩ := h.hung _ hp'
  obtain ⟨hc', hpty'⟩ := ha.1.closed hc
  refine ⟨hc', ha.1.done hd, fun hdr => ?_⟩
  rw [ht] at hdr
  obtain ⟨hpty, hsent⟩ := hall (always_of_append hdr)
  refine ⟨hpty'.trans hpty, ?_⟩
  rcases hsent with hs | ⟨hh, hz, x, hx, hread⟩
  · rw [hp₂]
    exact Or.inl (infix_accepted_append hs t)
  · refine Or.inr ⟨?_, ?_, x, by rw [ht]; exact List.mem_append_left t hx, hread⟩
    · have heq : w'.st.held = w.st.held := by simp [Session.held, hl, ha.1.bufd]
      rwa [heq]
    · simpa [hl] using hz

/-- Calls after the end. -/
theorem Drained.append {t : STrace} (h : Drained w) (ht : ∀ x ∈ t, x.1.hangsUp = false) :
    Drained ⟨w.st, w.trace ++ t⟩ := by
  intro p hp
  obtain ⟨t₂, hq, hp₂⟩ := exists_of_afterHangup_append ht hp
  obtain ⟨hpty, hsent⟩ := h _ hq
  rw [hp₂]
  exact ⟨hpty, infix_accepted_append hsent t⟩

/-! ## The parts of a round -/

/-- The `poll` of a round. -/
theorem wp_pollPart_reported (h : Returned w) (hd : w.st.done = 0) (hcalm : ∀ e, E e → e.Calm) :
    wp E (fun _ => True) pollPart (fun c w' =>
        if c = .leave then w'.st.Hung → Always Drains w'.trace → Drained w' else Reported w')
      ⟨w.st, w.trace ++ [(.loopHead, w.st)]⟩ := by
  have hbase : ∀ s, Noted E w.st s → Based s := fun s hn =>
    ⟨by rw [hn.bufd]; exact h.based.bufd, by rw [hn.loc]; exact h.based.tbufd2,
      (hn.calm hcalm h.based.calm).1⟩
  have hnone : afterHangup (w.trace ++ [(.loopHead, w.st)]) = none := by
    rw [afterHangup_append (by simp [Event.hangsUp]), h.running hd]
    rfl
  refine wp_pollPart (fun _ _ => trivial) (fun s so ma pi hn hcl => ?_) (fun s er hn _ => ?_)
    fun s w' hn hs => ?_
  · rw [if_neg (by simp)]
    have hb := hbase s hn
    refine ⟨⟨hb.bufd, hb.tbufd2, hb.calm⟩, fun p hp => ?_⟩
    obtain ⟨hh, rfl⟩ := afterHangup_concat hnone hp
    exact ⟨hcl hh, rfl, fun hall => (always_concat.mp hall).2 hh, hh⟩
  · rw [if_pos rfl]
    rintro (h₁ | h₃ | h₆)
    · cases h₁
    · cases h₃
    · cases h₆
  · -- a `poll` that fails reports no hang-up
    rw [if_neg (by simp)]
    obtain ⟨hh, t, ht, hx⟩ := hs
    have hb := hbase s hn
    refine ⟨⟨by rw [hh.bufd]; exact hb.bufd, by rw [hh.loc]; exact hb.tbufd2,
      (hh.calm hcalm hb.calm).1⟩, fun p hp => ?_⟩
    rw [ht, afterHangup_append fun x hm => ?_, afterHangup_append (by simp [Event.hangsUp]),
      hnone] at hp
    · cases hp
    · obtain ⟨file, hf⟩ := (hx x hm).2.eq
      rw [hf]
      rfl

/-- The errors and hang-ups of a round: an error leaves what there is to read. -/
theorem wp_reventsPart_reported (h : Reported w) :
    wp E (fun _ => True) reventsPart (fun c w' =>
      if c = .leave then w'.st.Hung → Always Drains w'.trace → Drained w' else Waiting w') w := by
  refine wp_reventsPart (fun hf => ?_) (fun s _ n hn => ?_) fun hf => ?_
  · rw [if_pos rfl]
    intro _ hall p hp
    obtain ⟨-, hpty, hd, -⟩ := h.hung p hp
    have hnil : p.1 = [] := (hd hall).elim id fun hok => absurd hf hok.2
    exact ⟨hpty.trans hnil, by rw [hnil]; exact List.nil_infix⟩
  · rw [if_pos rfl]
    rintro (h₁ | h₃ | h₆)
    all_goals
      dsimp only at *
      omega
  · rw [if_neg (by simp)]
    have hb := h.based
    refine ⟨by split <;> exact ⟨hb.bufd, hb.tbufd2, hb.calm⟩, fun p hp => ?_⟩
    obtain ⟨hc, hpty, hd, hh⟩ := h.hung p hp
    rw [if_pos hh]
    exact ⟨hc, hpty, rfl, fun hall => (hd hall).imp_right And.left⟩

/-- The read of a round that delivers nothing: then nothing was there, or the run does not
drain. -/
theorem Waiting.nothing (h : Waiting w) {e : Env} {res : Except Errno (List UInt8)} {s : Session}
    (hres : Event.received (.readMaster 0 0 res) = []) (hb : Based s)
    (hs : s.sys.closed = (deliver e w.st).sys.closed ∧ s.sys.pty = (deliver e w.st).sys.pty)
    (hd : s.done = w.st.done ∨ s.done = 6) : Fetched (readRun w e res s) := by
  refine ⟨hb, fun p hp => ?_⟩
  obtain ⟨t₂, hp', hp₂⟩ := exists_of_afterHangup_append (by simp [Event.hangsUp]) hp
  obtain ⟨hc, hpty, h₃, -⟩ := h.hung _ hp'
  obtain ⟨hc', hpty'⟩ := (interfered_deliver e w.st).closed hc
  refine ⟨hs.1.trans hc', by dsimp only; omega, fun hall => ?_⟩
  have hnil : (deliver e w.st).sys.pty = [] := by
    have hr := (always_concat.mp hall).2 (by rw [deliver_done]; exact h₃)
    rcases hr with hr | ⟨hr, -⟩
    · exact hr
    · rw [← hr]
      cases res with
      | error er => rfl
      | ok data => exact hres
  refine ⟨hs.2.trans hnil, Or.inl ?_⟩
  rw [← hpty, ← hpty', hnil]
  exact List.nil_infix

/-- The read of a round that delivers something: after a hang-up that is everything, unless the
run does not drain. -/
theorem Waiting.data (h : Waiting w) {e : Env} {data : List UInt8} {s : Session}
    (hne : data ≠ []) (hpre : data <+: (deliver e w.st).sys.pty)
    (hall : Always Drains (readRun w e (.ok data) s).trace) {q : List UInt8} {t₂ : STrace}
    (hq : (q, t₂) ∈ afterHangup w.trace) : data = q ∧ (deliver e w.st).sys.pty = data ∧
      w.st.readArgs.1 + data.length ≤ w.st.bufd.length := by
  obtain ⟨hc, hpty, h₃, -⟩ := h.hung _ hq
  obtain ⟨-, hpty'⟩ := (interfered_deliver e w.st).closed hc
  rcases (always_concat.mp hall).2 (by rw [deliver_done]; exact h₃) with hnil | ⟨hr, hroom⟩
  · rw [hnil] at hpre
    exact absurd (List.prefix_nil.mp hpre) hne
  · have hr : data = (deliver e w.st).sys.pty := hr
    rw [← hr, deliver_bufd] at hroom
    exact ⟨hr.trans (hpty'.trans hpty), hr.symm, hroom⟩

theorem Based.gotMaster (h : Based w.st) (e : Env) (data : List UInt8) :
    ((deliver e w.st).gotMaster w.st.readArgs.1 data).bufd ≠ [] := by
  refine List.length_pos_iff.mp ?_
  rw [gotMaster_length, deliver_bufd]
  exact List.length_pos_iff.mpr h.bufd

include hE in
/-- The bytes of a read that are sent at once. -/
theorem Waiting.sent (h : Waiting w) {e : Env} (he : E e) {data : List UInt8} (hne : data ≠ [])
    (hpre : data <+: (deliver e w.st).sys.pty) (hz : w.st.cfg.forwardtimer = 0)
    {r : ℕ × List UInt8} {w₁ : SRun}
    (hw₁ : w₁ = readRun w e (.ok data) ((deliver e w.st).gotMaster w.st.readArgs.1 data))
    (hw : Written E w₁.st.bufd (data.length + 1) w₁ r w') :
    Fetched ⟨{ w'.st with bufd := r.2 }, w'.trace⟩ := by
  subst hw₁
  have hcalm : ∀ e, E e → e.Calm := fun e he => (hE e he).1
  have hb := h.based
  have hoff : w.st.readArgs.1 = 1 := by rw [Session.readArgs, if_pos hz]
  have hs := hw.sent.state
  obtain ⟨hcalm', hd'⟩ := hs.calm hcalm (calm_deliver (hcalm e he) hb.calm)
  obtain ⟨t, ht, ha, hn⟩ := not_hangsUp_of_sent hw.sent
  refine ⟨⟨?_, ?_, hcalm'⟩, fun p hp => ?_⟩
  · refine List.length_pos_iff.mp ?_
    rw [hw.length]
    exact List.length_pos_iff.mpr (hb.gotMaster e data)
  · show w'.st.loc.tbufd2 = w'.st.loc.totali
    rw [hs.loc]
    simpa using hb.tbufd2
  · dsimp only at hp
    rw [ht, List.append_assoc] at hp
    obtain ⟨t₂, hq, hp₂⟩ := exists_of_afterHangup_append
      (by simpa [Event.hangsUp] using fun a b hm => hn (a, b) hm) hp
    obtain ⟨hc, hpty, h₃, -⟩ := h.hung _ hq
    -- what comes after the hang-up leaves the terminal and `Done` as they are
    obtain ⟨hc', hpty'⟩ := hs.closed ((interfered_deliver e w.st).closed hc).1
    have h₃' : w'.st.done = 3 := by
      have hsame := hw.writes fun e he => (hE e he).2
      simp only [gotMaster_done, deliver_done, h₃] at hd' hsame
      omega
    refine ⟨hc', fun h₀ => by simp [h₃'] at h₀, fun hall => ?_⟩
    dsimp only at hall
    rw [ht] at hall
    obtain ⟨hq', hdata, hroom⟩ := h.data hne hpre (always_of_append hall) hq
    -- a call that is cut short sets `Done` to another value
    have hr : r.1 = data.length + 1 := by
      rcases hw.all with ⟨hr, -⟩ | hd
      · exact hr
      · omega
    have hpay : ((((deliver e w.st).gotMaster w.st.readArgs.1 data).bufd.drop 1).take
        data.length) = data := by
      have hle : 1 + 0 + data.length ≤ (deliver e w.st).bufd.length := by
        rw [deliver_bufd]
        omega
      simpa [Session.gotMaster, hoff] using held_store hle
    refine ⟨?_, Or.inl ?_⟩
    · refine hpty'.trans ?_
      show (deliver e w.st).sys.pty.drop data.length = []
      rw [hdata, List.drop_length]
    · have hacc : accepted t = data := by
        rw [ha, hr, Nat.add_sub_cancel, hpay, List.take_length]
      rw [hp₂, ← List.append_assoc, accepted_append, hacc, hq']
      exact (List.suffix_append _ _).isInfix

include hE in
/-- The bytes of a read that stay in the buffer for the flush. -/
theorem Waiting.held (h : Waiting w) {e : Env} (he : E e) {data : List UInt8} (hne : data ≠ [])
    (hpre : data <+: (deliver e w.st).sys.pty) (hz : w.st.cfg.forwardtimer ≠ 0) {s₁ s : Session}
    (hs₁ : s₁ = (deliver e w.st).gotMaster w.st.readArgs.1 data)
    (hn : Noted E { s₁ with loc := s₁.loc.held data.length } s) :
    Fetched (readRun w e (.ok data) s) := by
  subst hs₁
  have hcalm : ∀ e, E e → e.Calm := fun e he => (hE e he).1
  have hb := h.based
  have hoff : w.st.readArgs.1 = 1 + w.st.loc.totali := by
    rw [Session.readArgs, if_neg hz, hb.tbufd2]
  have hloc : s.loc = w.st.loc.held data.length := by simpa using hn.loc
  refine ⟨⟨by rw [hn.bufd]; exact hb.gotMaster e data, ?_, ?_⟩, fun p hp => ?_⟩
  · simp [hloc, hb.tbufd2]
  · exact (hn.calm hcalm (calm_deliver (hcalm e he) hb.calm)).1
  · obtain ⟨t₂, hq, hp₂⟩ := exists_of_afterHangup_append (by simp [Event.hangsUp]) hp
    obtain ⟨hc, hpty, h₃, -⟩ := h.hung _ hq
    obtain ⟨hc', hpty'⟩ := hn.closed ((interfered_deliver e w.st).closed hc).1
    -- the hang-up is behind: what was read is the last of the terminal side, and it is held
    have h₃' : s.done = 3 := by rw [hn.same]; simpa using h₃
    refine ⟨hc', fun h₀ => by simp [h₃'] at h₀, fun hall => ?_⟩
    obtain ⟨hq', hdata, hroom⟩ := h.data hne hpre hall hq
    refine ⟨?_, Or.inr ⟨?_, ?_, _, List.mem_append_right _ (List.mem_singleton_self _), hne, ?_⟩⟩
    · refine hpty'.trans ?_
      show (deliver e w.st).sys.pty.drop data.length = []
      rw [hdata, List.drop_length]
    · have hle : 1 + w.st.loc.totali + data.length ≤ (deliver e w.st).bufd.length := by
        rw [deliver_bufd]
        omega
      have hheld : s.held = w.st.held ++ data := by
        rw [Session.held, hloc, held_totali, hn.bufd]
        simpa [Session.gotMaster, hoff, Session.held] using held_store hle
      rw [hheld, hq']
      exact (List.suffix_append _ _).isInfix
    · have hpos := List.length_pos_iff.mpr hne
      rw [hloc, held_totali]
      omega
    · simp [h₃, hz]

include hE in
theorem wp_readMasterPart_fetched (h : Waiting w) :
    wp E (fun _ => True) readMasterPart (fun _ => Fetched) w := by
  have hcalm : ∀ e, E e → e.Calm := fun e he => (hE e he).1
  have hb := h.based
  have hbase : ∀ e, E e → ∀ er n, Based { (deliver e w.st).failing er with done := n } :=
    fun e he er n => ⟨by simpa using hb.bufd, by simpa using hb.tbufd2,
      calm_deliver (hcalm e he) hb.calm⟩
  refine wp_readMasterPart trivial (fun hp => ⟨hb, fun p hm => ?_⟩) (fun e he er _ => ?_)
    (fun e he _ => ?_) fun e he data hne hlen hpre => ?_
  -- nothing to read, although the round may have noticed the hang-up: nothing was left
  · obtain ⟨hc, hpty, h₃, hd⟩ := h.hung p hm
    refine ⟨hc, by omega, fun hall => ?_⟩
    have hnil : p.1 = [] := (hd hall).elim id fun hin => by simp [hp] at hin
    exact ⟨hpty.trans hnil, Or.inl (by rw [hnil]; exact List.nil_infix)⟩
  · have h₁ : Fetched (readRun w e (.error er) ((deliver e w.st).failing er)) :=
      h.nothing rfl (hbase e he er _) ⟨rfl, rfl⟩ (Or.inl (by simp))
    exact wp_failed_aside (fun _ _ => trivial) (fun _ ha => h₁.aside hE ha) (by simp) (by simp)
  · exact h.nothing rfl ⟨by simpa using hb.bufd, by simpa using hb.tbufd2,
      calm_deliver (hcalm e he) hb.calm⟩ ⟨rfl, rfl⟩ (Or.inr rfl)
  · refine wp_masterReceived (List.length_pos_iff.mpr hne) (hb.gotMaster e data)
      (fun _ _ _ _ => trivial) (fun hz r w' hw => ?_) (fun _ => trivial) fun hz s hn => ?_
    · exact h.sent hE he hne hpre (by simpa using hz) rfl hw
    · exact h.held hE he hne hpre (by simpa using hz) rfl hn

include hE in
/-- The flush of a round sends what was held for it. -/
theorem wp_forwardPart_returned (h : Fetched w) :
    wp E (fun _ => True) forwardPart (fun _ => Returned) w := by
  have hcalm : ∀ e, E e → e.Calm := fun e he => (hE e he).1
  have hb := h.based
  have hlabel : ∀ x ∈ [((.forwardTest, w.st) : Event × Session)], x.1.hangsUp = false := by
    simp [Event.hangsUp]
  have hrunning : w.st.done = 0 →
      afterHangup (w.trace ++ [(.forwardTest, w.st)]) = none := fun hd => by
    rw [afterHangup_append hlabel, Option.map_eq_none_iff, Option.eq_none_iff_forall_not_mem]
    exact fun p hp => (h.hung p hp).2.1 hd
  -- what was sent before the flush test, or is held at it
  have htest : ∀ p ∈ afterHangup (w.trace ++ [(.forwardTest, w.st)]),
      Always Drains (w.trace ++ [(.forwardTest, w.st)]) → w.st.sys.closed = true ∧
        w.st.sys.pty = [] ∧ (p.1 <:+: accepted p.2 ∨ p.1 <:+: w.st.held ∧ w.st.loc.totali ≠ 0 ∧
          w.st.flushes = true) := fun p hp hall => by
    obtain ⟨t₂, hq, hp₂⟩ := exists_of_afterHangup_append hlabel hp
    obtain ⟨hc, -, hdel⟩ := h.hung _ hq
    obtain ⟨hall, hdr⟩ := always_concat.mp hall
    obtain ⟨hpty, hsent | ⟨hheld, hz, hx⟩⟩ := hdel hall
    · exact ⟨hc, hpty, Or.inl (by rw [hp₂]; exact infix_accepted_append hsent _)⟩
    · exact ⟨hc, hpty, Or.inr ⟨hheld, hz, hdr hx⟩⟩
  refine wp_forwardPart (fun hf => ⟨hb, hrunning, fun _ hall p hp => ?_⟩)
    (fun hf hz => ⟨⟨hb.bufd, hb.tbufd2, hb.calm⟩, hrunning, fun _ hall p hp => ?_⟩) hb.bufd
    (fun _ _ _ _ _ => trivial) fun hf hz r w' hw => ?_
  -- no flush is due, so nothing that counts is held
  · obtain ⟨-, hpty, hsent | ⟨-, -, hfl⟩⟩ := htest p hp hall
    · exact ⟨hpty, hsent⟩
    · simp [hf] at hfl
  -- the flush finds the buffer empty
  · obtain ⟨-, hpty, hsent | ⟨-, htot, -⟩⟩ := htest p hp hall
    · exact ⟨hpty, hsent⟩
    · exact absurd hz htot
  -- the flush sends what is held
  · have hs := hw.sent.state
    obtain ⟨t, ht, ha, hn⟩ := not_hangsUp_of_sent hw.sent
    refine ⟨⟨?_, rfl, (hs.calm hcalm hb.calm).1⟩, fun hd => ?_, fun hhung hall p hp => ?_⟩
    · refine List.length_pos_iff.mp ?_
      rw [Session.flushed, hw.length, flushing_length]
      exact List.length_pos_iff.mpr hb.bufd
    · have h₀ : w.st.done = 0 := by_contra fun h₀ => hs.done h₀ hd
      show afterHangup w'.trace = none
      rw [ht, afterHangup_append hn, hrunning h₀]
      rfl
    · dsimp only at hall hp
      rw [ht] at hall hp
      obtain ⟨t₂, hq, hp₂⟩ := exists_of_afterHangup_append hn hp
      obtain ⟨hc, hpty, hsent⟩ := htest _ hq (always_of_append hall)
      refine ⟨(hs.closed hc).2.trans hpty, ?_⟩
      rw [hp₂]
      rcases hsent with hsent | ⟨hheld, -, -⟩
      · exact infix_accepted_append hsent t
      · -- the flush was not cut short: that would have set `Done` to another value
        have hr : r.1 = w.st.loc.totali + 1 := by
          rcases hw.all with ⟨hr, -⟩ | hd
          · exact hr
          · rcases hhung with h₁ | h₃ | h₆
            all_goals
              dsimp only [Session.flushed] at *
              omega
        have hacc : accepted t = w.st.held := by
          rw [ha, hr, Nat.add_sub_cancel, flushing_drop, List.take_take, Nat.min_self]
          rfl
        rw [accepted_append, hacc]
        exact hheld.trans (List.suffix_append _ _).isInfix

end Invariants

/-! ## The theorems -/

/-- **A hang-up drains the terminal side.** In a run without a failed write to the X.25 socket, an
exit signal or an expiry of the watchdog that leaves the loop on the terminal side, everything
readable at the hang-up has been read and sent, if the read after it delivers everything and its
flush is due. No read goes behind its block. -/
theorem doCopy_drained {es : List Env} {s : Session} {bufn bufd : List UInt8} {w : SRun}
    (hbufd : bufd.length = s.cfg.bufferSize.toNat + 1) (hs : s.Calm)
    (hes : ∀ e ∈ es, e.Calm ∧ Writes e.wsock) (hw : w ∈ doCopyLeft es s bufn bufd)
    (_hread : ∀ x ∈ w.trace, x.1.InBlock x.2) (hd : w.st.Hung) (hall : Always Drains w.trace) :
    Drained w := by
  have hE : ∀ e, e ∈ es → e.Calm ∧ Writes e.wsock = true := hes
  have hstart : Returned ⟨doCopyStart s bufn bufd, []⟩ :=
    ⟨⟨List.length_pos_iff.mp (by rw [doCopyStart, hbufd]; omega), rfl, hs⟩, fun _ => rfl,
      fun _ _ p hp => by cases hp⟩
  have hloop : wp (· ∈ es) (fun _ => True) doCopyLoop
      (fun _ w' => w'.st.Hung → Always Drains w'.trace → Drained w')
      ⟨doCopyStart s bufn bufd, []⟩ := by
    refine wp_doCopyLoop (H := Returned)
      (L := fun w' => w'.st.Hung → Always Drains w'.trace → Drained w') (fun _ _ => trivial)
      (fun w h hd => wp_doCopyRound (A := Reported) (B := Reported) (C := Waiting) (D := Fetched)
        (F := Fetched) (wp_pollPart_reported h hd fun e he => (hE e he).1) (fun w h => ?_)
        (fun w h => wp_reventsPart_reported h) (fun w h => wp_readMasterPart_fetched hE h)
        (fun w h => ?_) fun w h => wp_forwardPart_returned hE h)
      (fun w h _ hd hall => ?_) (fun w h hd hall => ?_) hstart
    · exact wp_mono (wp_within (keeps_signalPart_aside w)) (fun _ _ => trivial)
        fun _ _ ha => h.aside hE ha
    · exact wp_mono (wp_within (keeps_readSocketPart_aside w)) (fun _ _ => trivial)
        fun _ _ ha => h.aside hE ha
    · rw [List.append_assoc] at hall ⊢
      exact (h.drained hd (always_of_append hall)).append (by simp [Event.hangsUp])
    · exact (h hd (always_of_append hall)).append (by simp [Event.hangsUp])
  exact left_of_wp hloop (fun _ he => he) hw hd hall

/-- A hang-up with two bytes to read, behind one that is held. -/
def drainScript : List Env :=
  polled [.typed [97]] true false ++ [{ Env.willing with master := .ok 1 }] ++ quiet 2 ++
    [{ Env.willing with
      before := [.typed [98, 99], .hangup]
      poll := .ready {} { pollin := true, pollhup := true } {} }] ++
    [{ Env.willing with master := .ok 2 }] ++ quiet 9

theorem doCopy_drained_script :
    ∃ w ∈ doCopyLeft drainScript (.fresh 10 8) [] (List.replicate 9 0),
      w.st.Hung ∧ Drained w ∧ accepted w.trace = [97, 98, 99] := by
  have hleft : (doCopyLeft drainScript (.fresh 10 8) [] (List.replicate 9 0)).any
      (fun w => (∀ x ∈ w.trace, x.1.InBlock x.2) ∧ w.st.Hung ∧ Always Drains w.trace ∧
        accepted w.trace = [97, 98, 99]) = true := by
    decide +kernel
  obtain ⟨w, hw, hw'⟩ := (Option.any_eq_true _ _).mp hleft
  obtain ⟨hread, hd, hall, ha⟩ := of_decide_eq_true hw'
  exact ⟨w, hw, hd, doCopy_drained (s := .fresh 10 8) (by decide) ⟨rfl, rfl⟩ (by decide) hw hread hd
    hall, ha⟩

/-- Twelve bytes at the hang-up and a buffer of eight: the last four are never read. -/
theorem not_doCopy_drained :
    ¬ ∀ (es : List Env) (s : Session) (bufn bufd : List UInt8), 1 ≤ s.cfg.bufferSize →
      bufd.length = s.cfg.bufferSize.toNat + 1 → s.Calm → (∀ e ∈ es, e.Calm ∧ Writes e.wsock) →
        ∀ w ∈ doCopyLeft es s bufn bufd, w.st.Hung → Drained w := by
  intro h
  have h₁ := h ([.willing] ++ [{ Env.willing with
      before := [.typed [1, 2, 3, 4, 5, 6, 7, 8, 9, 10, 11, 12], .hangup]
      poll := .ready {} { pollin := true, pollhup := true } {} }] ++
    [{ Env.willing with master := .ok 12 }] ++ quiet 2) (.fresh 0 8) [] (List.replicate 9 0)
    (by decide) (by decide) ⟨rfl, rfl⟩ (by decide)
  revert h₁
  decide +kernel

end PadSvr
