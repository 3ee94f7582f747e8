import PadSvr.Process.Timed
import PadSvr.Session.LastWait

/-!
# A session waits no more than it is told to

A session waits in three phases: the loop of `do_copy`, the closing of the line, and the wait for
the login process. Each of them ends in the round that learns of an expired timer or an exit signal.
So there are three such rounds at most, and no wait comes after the third.

## Main definitions

* `Resigned m`: a part of a session does not wait again once a wait has told it to end
* `told t`: how often a session was told to end
* `WaitPhase inLoop t`: a phase, in which only the last wait may tell the session to end
* `WaitPhases bs t`: phases one after the other, the last one first
* `Patient`: what is said of a whole session

## Main results

* `WaitPhases.told_le`, `WaitPhases.waits`: what phases come to together
* `serve_patient`: every session is patient
-/

namespace PadSvr

open Scripted Scripted.Prog

/-- Once a wait has told this part of a session to end, it does not wait again. -/
def Resigned {α : Type} (m : SProg α) : Prop :=
  ∀ (es : List Env) (s : Session), Always WaitsUntold (m es ⟨s, []⟩).1.trace

/-- The session in a process is told to end. -/
def PEvent.tellsStop : PEvent → Process → Bool
  | .sys k, p => k.tellsStop p.sess
  | _, _ => false

/-- How often a session was told to end. -/
def told (t : PTrace) : ℕ := t.countP fun x => x.1.tellsStop x.2

/-- A process waits only while it was told less than `n` times. -/
def ToldLess (n : ℕ) (t : PTrace) (k : PEvent) (_ : Process) : Prop := k.waits = true → told t < n

/-- A phase: its waits are polls of the loop, or of the closing phases, and once one of them has
told the session to end, there is no other. -/
structure WaitPhase (inLoop : Bool) (t : PTrace) : Prop where
  kind : ∀ x ∈ t, x.1.waits = true → x.1.isPoll = inLoop
  untold : Always (ToldLess 1) t

/-- Phases one after the other, the last one first. -/
inductive WaitPhases : List Bool → PTrace → Prop
  | nil : WaitPhases [] []
  | cons {bs : List Bool} {t t' : PTrace} (b : Bool) :
    WaitPhases bs t → WaitPhase b t' → WaitPhases (b :: bs) (t ++ t')

/-- A session waits in the loop, then where the line is closed, then for the login process. The wait
that tells it to end is the last one of its phase. So there are three of these at most, and none
behind the third. -/
structure Patient (t : PTrace) : Prop where
  phases : ∃ t₁ t₂ t₃, t = t₁ ++ t₂ ++ t₃ ∧
    WaitPhase true t₁ ∧ WaitPhase false t₂ ∧ WaitPhase false t₃
  told_le : told t ≤ 3
  waits : Always (ToldLess 3) t

/-! ## Phases -/

section Phases

variable {w : PRun} {bs : List Bool} {b : Bool} {t : PTrace}

@[simp] theorem told_append (t t' : PTrace) : told (t ++ t') = told t + told t' :=
  List.countP_append

theorem told_eq_zero_iff : told t = 0 ↔ ∀ x ∈ t, x.1.tellsStop x.2 = false := by
  simp [told, List.countP_eq_zero]

theorem not_tellsStop_of_not_waits {k : PEvent} (hk : k.waits = false) (p : Process) :
    k.tellsStop p = false := by
  cases k with
  | sys k => exact tellsStop_of_not_waits hk p.sess
  | _ => rfl

/-- What is told last, is told once. -/
theorem told_le_one (h : Always (ToldLess 1) t) : told t ≤ 1 := by
  induction t using List.reverseRecOn with
  | nil => simp [told]
  | append_singleton t x ih =>
    obtain ⟨h, hx⟩ := always_concat.mp h
    rw [told_append]
    cases hw : x.1.waits with
    | false =>
      have hno : told [x] = 0 := told_eq_zero_iff.mpr fun y hy => by
        rw [List.mem_singleton.mp hy]
        exact not_tellsStop_of_not_waits hw x.2
      rw [hno]
      exact ih h
    | true =>
      have hone : told [x] ≤ 1 := List.countP_le_length
      have hzero : told t < 1 := hx hw
      omega

theorem ToldLess.mono {n m : ℕ} (hnm : n ≤ m) (h : Always (ToldLess n) t) :
    Always (ToldLess m) t := fun t₁ k p t₂ ht hw => Nat.lt_of_lt_of_le (h t₁ k p t₂ ht hw) hnm

/-- What follows `n` calls that tell. -/
theorem always_toldLess_append {t t' : PTrace} {n : ℕ} (h : Always (ToldLess (n + 1)) t)
    (ht : told t ≤ n) (h' : Always (ToldLess 1) t') : Always (ToldLess (n + 1)) (t ++ t') := by
  have happ := always_append_map (f := id) h h' fun t₁ k p hk hw => by
    have hlt := hk hw
    rw [List.map_id, told_append]
    omega
  rwa [List.map_id] at happ

theorem WaitPhases.told_le (h : WaitPhases bs t) : told t ≤ bs.length := by
  induction h with
  | nil => exact Nat.le_refl 0
  | cons b _ h ih =>
    rw [told_append]
    exact Nat.add_le_add ih (told_le_one h.untold)

/-- **Phases together**: the process waits only while it was told less often than there are
phases. -/
theorem WaitPhases.waits (h : WaitPhases bs t) : Always (ToldLess bs.length) t := by
  induction h with
  | nil => exact always_nil
  | @cons bs t t' b hbs h ih =>
    exact always_toldLess_append (ToldLess.mono (Nat.le_succ _) ih) hbs.told_le h.untold

theorem WaitPhase.of_not_waits (h : ∀ x ∈ t, x.1.waits = false) : WaitPhase b t where
  kind x hx hw := by rw [h x hx] at hw; cases hw
  untold := by
    have hall := always_append (G := ToldLess 1) always_nil fun x hx _ hw => by
      rw [h x hx] at hw
      cases hw
    simpa using hall

/-- Three phases. -/
theorem WaitPhases.three {b₁ b₂ b₃ : Bool} (h : WaitPhases [b₃, b₂, b₁] t) : ∃ t₁ t₂ t₃,
    t = t₁ ++ t₂ ++ t₃ ∧ WaitPhase b₁ t₁ ∧ WaitPhase b₂ t₂ ∧ WaitPhase b₃ t₃ := by
  obtain _ | ⟨_, _ | ⟨_, _ | ⟨_, h₀, h₁⟩, h₂⟩, h₃⟩ := h
  cases h₀
  exact ⟨_, _, _, rfl, h₁, h₂, h₃⟩

/-- A phase may be empty. -/
theorem WaitPhases.empty (h : WaitPhases bs t) (b : Bool) : WaitPhases (b :: bs) t := by
  have hcons := h.cons b (.of_not_waits (t := []) (by simp))
  rwa [List.append_nil] at hcons

/-- A call that does not wait belongs to the last phase. -/
theorem WaitPhases.call (h : WaitPhases (b :: bs) t) {k : PEvent} (hk : k.waits = false)
    (p : Process) : WaitPhases (b :: bs) (t ++ [(k, p)]) := by
  cases h with
  | @cons _ t t' _ hbs h =>
    rw [List.append_assoc]
    refine hbs.cons b ⟨fun x hx hw => ?_, always_concat.mpr ⟨h.untold, fun hw => ?_⟩⟩
    · rcases List.mem_append.mp hx with hx | hx
      · exact h.kind x hx hw
      · rw [List.mem_singleton.mp hx, hk] at hw
        cases hw
    · rw [hk] at hw
      cases hw

/-- A phase has begun, and nothing has waited in it yet. -/
def PhaseBegun (bs : List Bool) (w : PRun) : Prop :=
  ∃ t t', w.trace = t ++ t' ∧ WaitPhases bs t ∧ ∀ x ∈ t', x.1.waits = false

theorem PhaseBegun.of_phases (h : WaitPhases bs w.trace) : PhaseBegun bs w :=
  ⟨w.trace, [], by simp, h, by simp⟩

theorem PhaseBegun.phases (h : PhaseBegun bs w) (b : Bool) : WaitPhases (b :: bs) w.trace := by
  obtain ⟨t, t', ht, hbs, hno⟩ := h
  rw [ht]
  exact hbs.cons b (.of_not_waits hno)

theorem PhaseBegun.append (h : PhaseBegun bs w) {t : PTrace} (ht : ∀ x ∈ t, x.1.waits = false)
    (p : Process) : PhaseBegun bs ⟨p, w.trace ++ t⟩ := by
  obtain ⟨t₀, t', hw, hbs, hno⟩ := h
  refine ⟨t₀, t' ++ t, by rw [hw, List.append_assoc], hbs, fun x hx => ?_⟩
  exact (List.mem_append.mp hx).elim (hno x) (ht x)

theorem PhaseBegun.call (h : PhaseBegun bs w) {k : PEvent} (hk : k.waits = false)
    (p p' : Process) : PhaseBegun bs ⟨p', w.trace ++ [(k, p)]⟩ :=
  h.append (by simpa using hk) p'

/-! ## The parts of a session -/

theorem tellsStop_hold (p : Process) (k : Event) (s : Session) :
    PEvent.tellsStop (.sys k) (p.hold s) = k.tellsStop s := by
  have hflags : (p.hold s).sess.flags = s.flags := by
    unfold Process.hold
    split <;> rfl
  cases k with
  | poll a => cases a <;> simp [PEvent.tellsStop, Event.tellsStop, hflags]
  | closingPoll a => cases a <;> simp [PEvent.tellsStop, Event.tellsStop, hflags]
  | _ => rfl

/-- What a part of the session has called. -/
abbrev held (p : Process) (t : STrace) : PTrace := t.map fun x => (PEvent.sys x.1, p.hold x.2)

theorem told_held (p : Process) (t : STrace) :
    told (held p t) = t.countP fun x => x.1.tellsStop x.2 := by
  rw [told, List.countP_map]
  exact List.countP_congr fun x _ => by rw [Function.comp_apply, tellsStop_hold]

theorem isPoll_sys (k : Event) : PEvent.isPoll (.sys k) = k.isPoll := by cases k <;> rfl

/-- **A part of the session** is a phase of the process. -/
theorem PhaseBegun.after (h : PhaseBegun bs w) {w₁ : SRun}
    (hkind : ∀ x ∈ w₁.trace, x.1.waits = true → x.1.isPoll = b)
    (h₁ : Always WaitsUntold w₁.trace) : WaitPhases (b :: bs) (after w w₁).trace := by
  obtain ⟨t, t', ht, hbs, hno⟩ := h
  show WaitPhases _ (w.trace ++ held w.st w₁.trace)
  have hbegun : WaitPhase b t' := .of_not_waits hno
  rw [ht, List.append_assoc]
  refine hbs.cons b ⟨fun x hx hw => ?_, always_append_map hbegun.untold h₁ fun t₁ k s hk hw => ?_⟩
  · rcases List.mem_append.mp hx with hx | hx
    · exact hbegun.kind x hx hw
    · obtain ⟨y, hy, rfl⟩ := List.mem_map.mp hx
      exact (isPoll_sys y.1).trans (hkind y hy hw)
  · have hzero : told t' = 0 :=
      told_eq_zero_iff.mpr fun x hx => not_tellsStop_of_not_waits (hno x hx) x.2
    have hzero₁ : t₁.countP (fun x => x.1.tellsStop x.2) = 0 :=
      List.countP_eq_zero.mpr fun y hy => by simp [hk hw y hy]
    rw [told_append, told_held, hzero, hzero₁]
    exact Nat.zero_lt_one

/-- A part that does not wait. -/
theorem PhaseBegun.after_unwaiting (h : PhaseBegun bs w) {w₁ : SRun} (h₁ : Unwaiting w₁) :
    PhaseBegun bs (PadSvr.after w w₁) :=
  h.append (fun x hx => by
    obtain ⟨y, hy, rfl⟩ := List.mem_map.mp hx
    exact h₁ y hy) _

end Phases

section Serve

variable {α : Type} {w : PRun} {bs : List Bool} {b : Bool}

/-- Everywhere: the phases of a session. -/
def SessionPhases (w : PRun) : Prop := WaitPhases [false, false, true] w.trace

theorem passes_sessionPhases : Passes Similar PEvent.isLeaving SessionPhases :=
  fun _ _ p _ h hk _ _ => h.call (not_waits_of_isLeaving hk) p

theorem stays_begun {r : Process → Process → Prop} : Stays r (PhaseBegun bs) := fun _ _ h _ => h

theorem passes_begun_leaving : Passes Similar PEvent.isLeaving (PhaseBegun bs) :=
  fun _ _ p p' h hk _ _ => h.call (not_waits_of_isLeaving hk) p p'

theorem passes_begun_starting : Passes SameSession PEvent.isStarting (PhaseBegun bs) :=
  fun _ _ p p' h hk _ _ => h.call (not_waits_of_isStarting hk) p p'

theorem PhaseBegun.loop (h : PhaseBegun [] w) : SessionPhases w :=
  ((h.phases true).empty false).empty false

theorem PhaseBegun.close (h : PhaseBegun [true] w) : SessionPhases w :=
  (h.phases false).empty false

/-- A part that is a phase of its own, with phases `bs` before it. Its waits are of one kind where
`K` holds. -/
theorem wp_orExit_phase {m : SProg α} {K : SRun → Prop} (h : PhaseBegun bs w)
    (hall : ∀ w, WaitPhases (b :: bs) w.trace → SessionPhases w)
    (hkeeps : Keeps (fun _ => True) K m) (hnil : ∀ s, K ⟨s, []⟩)
    (hkind : ∀ w, K w → ∀ x ∈ w.trace, x.1.waits = true → x.1.isPoll = b)
    (hm : wp (fun _ => True) (fun w => Always WaitsUntold w.trace) m
      (fun _ w => Always WaitsUntold w.trace) ⟨w.st.sess, []⟩) :
    wp anyEntry SessionPhases (orExit m) (fun _ w => WaitPhases (b :: bs) w.trace) w :=
  wp_orExit (J := fun w => WaitPhases (b :: bs) w.trace)
    (wp_part (wp_and (hkeeps ⟨w.st.sess, []⟩ (hnil _)) hm) (fun _ _ => trivial)
      (fun w₁ h₁ => h.after (hkind w₁ h₁.1) h₁.2) fun _ w₁ h₁ => h.after (hkind w₁ h₁.1) h₁.2) hall
    fun kod w h => wp_exit_passes passes_sessionPhases kod (hall w h)

/-- The loop polls, and the closing phases do so in calls of their own. -/
theorem isPoll_of_inLoop (w : SRun) (h : InLoop w) :
    ∀ x ∈ w.trace, x.1.waits = true → x.1.isPoll = true := fun x hx hw => (h x hx).symm.trans hw

theorem not_isPoll_of_unpolled (w : SRun) (h : Unpolled w) :
    ∀ x ∈ w.trace, x.1.waits = true → x.1.isPoll = false := by
  rintro ⟨k, s⟩ hx -
  cases k with
  | poll a => exact absurd rfl (h _ hx a)
  | _ => rfl

/-- A part that does not wait. -/
theorem restores_orExit_begun {m : SProg α} (hm : Keeps (fun _ => True) Unwaiting m)
    (hall : ∀ w, PhaseBegun bs w → SessionPhases w) :
    Restores anyEntry SessionPhases (PhaseBegun bs) (orExit m) := fun _ h =>
  wp_orExit (wp_part (hm _ (by simp [Unwaiting])) (fun _ _ => trivial)
    (fun _ h₁ => h.after_unwaiting h₁) fun _ _ h₁ => h.after_unwaiting h₁) hall
    fun kod w h => wp_exit_passes passes_sessionPhases kod (hall w h)

/-- The parts of a session, and the phases before and behind each. -/
theorem phases_begun (behind : List X29Par) :
    ServePhases anyEntry behind SessionPhases (PhaseBegun []) (PhaseBegun []) (PhaseBegun [])
      (PhaseBegun []) (PhaseBegun [true]) (PhaseBegun [false, true]) where
  everywhere := passes_sessionPhases
  starting := ⟨stays_begun, passes_begun_starting, fun _ h => h.loop⟩
  handling := ⟨stays_begun, fun _ h => h.loop⟩
  ready := ⟨stays_begun, fun _ h => h.loop⟩
  left := ⟨stays_begun, passes_begun_leaving, fun _ h => h.close⟩
  greet := restores_orExit_begun (keeps_x29SetDefault_abides (fun _ _ h => h)
    (fun _ _ s s' h hk => h.call hk s s') behind) fun _ h => h.loop
  handlers _ h := wp_chilSetsignal_stays stays_begun passes_begun_starting (fun _ h => h.loop)
    passes_sessionPhases h
  start w bufn bufd h _ := restores_orExit_begun (fun _ h => wp_modify h) (fun _ h => h.loop) w h
  loop w h := wp_mono (wp_orExit_phase h (fun _ h => (h.empty false).empty false)
    keeps_doCopyLoop_inLoop (by simp [InLoop]) isPoll_of_inLoop (wp_doCopyLoop_untold w.st.sess))
      (fun _ h => h) fun _ _ h => .of_phases h
  close w block h := wp_mono (wp_orExit_phase h (fun _ h => h.empty false)
    (keeps_closeLine_unpolled block) (by simp [Unpolled]) not_isPoll_of_unpolled
      (wp_closeLine_untold block (by simp [Unwaiting]))) (fun _ h => h) fun _ _ h => .of_phases h
  await w block h := wp_orExit_phase h (fun _ h => h) (keeps_waitExitstatus_unpolled block)
    (by simp [Unpolled]) not_isPoll_of_unpolled
      (wp_waitExitstatus_untold block (by simp [Unwaiting]))

end Serve

/-- **A session waits no more than it is told to.** In the loop, in `wait_net` and in
`wait_exitstatus`, wherever they start from, the wait that tells the session to end is the last one,
whatever arrives, fails or is reloaded. Behind the third of these a session does not wait at all. -/
theorem serve_patient (behind : List X29Par) :
    Resigned doCopyLoop ∧ (∀ block, Resigned (waitNet block)) ∧
      (∀ block, Resigned (waitExitstatus block)) ∧
      ∀ (es : List PEnv) (p : Process), Patient (serveTrace behind es p) := by
  have hpart : ∀ {α : Type} {m : SProg α}, (∀ s, wp (fun _ => True)
      (fun w => Always WaitsUntold w.trace) m (fun _ w => Always WaitsUntold w.trace) ⟨s, []⟩) →
      Resigned m := fun h es s => always_of_wp (h s) (fun _ _ h => h) fun _ _ => trivial
  refine ⟨hpart wp_doCopyLoop_untold,
    fun block => hpart fun s => wp_waitNet_untold block (by simp [Unwaiting]),
    fun block => hpart fun s => wp_waitExitstatus_untold block (by simp [Unwaiting]),
    fun es p => ?_⟩
  have hrun : SessionPhases (serve behind es ⟨serveStart p, []⟩).1 :=
    always_of_wp ((phases_begun behind).wp_serve (w := ⟨serveStart p, []⟩)
      (Q := fun _ _ => False) (.of_phases .nil)) (fun _ _ h => h.elim) fun _ _ => trivial
  exact ⟨hrun.three, hrun.told_le, hrun.waits⟩

/-- It is told three times when nothing else ends the phases. -/
example : told (serveTrace [⟨0, 0⟩] (List.replicate 60 expiring) smallProcess) = 3 := by
  decide +kernel

end PadSvr
