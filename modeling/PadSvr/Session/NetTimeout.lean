import PadSvr.Session.Observed

/-!
# The timeout behind an invitation to clear

An invitation to clear and an indication of break are answered by arming the timer with
`Net_timeout`, so that the session ends soon. But the head of every round arms the same timer with
`Watchdog_timeout` again, before the next `poll`. So the short timeout is in force at no `poll`,
unless the two are equal.

## Main definitions

* `lastArmed t`: what the timer was armed with last
* `ShortTimeout t`: behind an invitation, every `poll` waits under `Net_timeout`
* `WatchdogShort t`: behind an invitation, the settings have `Watchdog_timeout` equal to it

## Main results

* `shortTimeout_iff`: the first of these holds of a run exactly when the second does
-/

namespace PadSvr

open Scripted Scripted.Prog

/-- What a call arms the timer with. -/
def Observed.arms : Observed → Option ℤ
  | .watchDog t => some t
  | .netTimeout t _ => some t
  | _ => none

/-- What the timer was armed with last. -/
def lastArmed (t : OTrace) : Option ℤ := (t.filterMap fun y => y.1.arms).getLast?

/-- An invitation to clear or an indication of break has been received. -/
def Invited (t : OTrace) : Prop := ∃ y ∈ t, y.1 = .invited

/-- At every `poll` behind an invitation, the timer was armed last with `Net_timeout`. -/
def ShortTimeout (t : OTrace) : Prop :=
  Always (fun t₁ k s => k = .poll → Invited t₁ → lastArmed t₁ = some s.netTimeout) t

/-- At the head of every round behind an invitation, the settings have `Watchdog_timeout` equal to
`Net_timeout`. -/
def WatchdogShort (t : OTrace) : Prop :=
  Always (fun t₁ k s => ∀ v, k = .watchDog v → Invited t₁ → s.cfg.watchdogTimeout = s.netTimeout) t

instance (t : OTrace) : Decidable (Invited t) :=
  inferInstanceAs (Decidable (∃ y ∈ t, y.1 = .invited))

instance (t : OTrace) : Decidable (ShortTimeout t) :=
  inferInstanceAs (Decidable (Always (fun t₁ k s =>
    k = .poll → Invited t₁ → lastArmed t₁ = some s.netTimeout) t))

section Calls

variable {t : OTrace} {k : Observed} {s s' : Session}

theorem invited_concat : Invited (t ++ [(k, s)]) ↔ Invited t ∨ k = .invited := by
  simp [Invited, or_and_right, exists_or]

theorem lastArmed_concat : lastArmed (t ++ [(k, s)]) = k.arms.or (lastArmed t) := by
  unfold lastArmed
  rw [List.filterMap_append]
  rcases h : k.arms with _ | v
  · simp [h]
  · simp [h]

/-- A call that is neither a `poll` nor the arming before it. -/
theorem ShortTimeout.plain (h : ShortTimeout t ↔ WatchdogShort t) (hp : k ≠ .poll)
    (hw : ∀ v, k ≠ .watchDog v) :
    ShortTimeout (t ++ [(k, s)]) ↔ WatchdogShort (t ++ [(k, s)]) := by
  unfold ShortTimeout WatchdogShort
  rw [always_concat, always_concat]
  refine and_congr h ?_
  constructor
  · exact fun _ v hk => absurd hk (hw v)
  · exact fun _ hk => absurd hk hp

/-- The head of a round, and the `poll` behind it. -/
theorem ShortTimeout.round (h : ShortTimeout t ↔ WatchdogShort t)
    (hs : s'.netTimeout = s.netTimeout) :
    ShortTimeout (t ++ [(.watchDog s.cfg.watchdogTimeout, s)] ++ [(.poll, s')]) ↔
      WatchdogShort (t ++ [(.watchDog s.cfg.watchdogTimeout, s)] ++ [(.poll, s')]) := by
  have hinv : Invited (t ++ [(.watchDog s.cfg.watchdogTimeout, s)]) ↔ Invited t :=
    invited_concat.trans (or_iff_left nofun)
  have hlast : lastArmed (t ++ [(.watchDog s.cfg.watchdogTimeout, s)]) =
      some s.cfg.watchdogTimeout := by
    rw [lastArmed_concat]
    rfl
  unfold ShortTimeout WatchdogShort
  rw [always_concat, always_concat, always_concat, always_concat, and_assoc, and_assoc]
  refine and_congr h ?_
  -- at the `poll` the timer was armed last by the head of its round
  rw [hinv, hlast, hs, Option.some_inj]
  constructor
  · rintro ⟨-, hpoll⟩
    exact ⟨fun _ _ hi => hpoll rfl hi, nofun⟩
  · rintro ⟨hhead, -⟩
    exact ⟨nofun, fun _ hi => hhead _ rfl hi⟩

end Calls

/-- The timer is armed with what the settings say then. -/
theorem wp_observedWatchDog {I : ORun → Prop} {Q : Unit → ORun → Prop} {w : ORun} (hI : I w)
    (h : ∀ s, s.netTimeout = w.st.netTimeout →
      Q () ⟨s, w.trace ++ [(.watchDog w.st.cfg.watchdogTimeout, w.st)]⟩) :
    wp (fun _ => True) I observedWatchDog Q w := by
  refine wp_observe (I := fun w₁ => w₁.st = w.st)
    (Q := fun _ w₁ => w₁.st.netTimeout = w.st.netTimeout ∧ w₁.st.cfg = w.st.cfg)
    (wp_assign rfl fun e _ => ⟨?_, deliver_cfg e w.st⟩) (fun w₁ hw₁ => ?_) fun _ w₁ hw₁ => ?_
  · show (deliver e w.st).netTimeout = w.st.netTimeout
    rw [(interfered_deliver e w.st).frame]
  · rw [hw₁]
    exact hI
  · rw [hw₁.2]
    exact h w₁.st hw₁.1

/-- **The short timeout is in force behind an invitation** exactly when the settings have the
watchdog no longer than it, at the head of each round. -/
theorem shortTimeout_iff (es : List Env) (s : Session) (bufn bufd : List UInt8) :
    ShortTimeout (doCopyObserved es s bufn bufd) ↔ WatchdogShort (doCopyObserved es s bufn bufd) := by
  have hkeeps : Keeps (fun _ => True)
      (fun w : ORun => ShortTimeout w.trace ↔ WatchdogShort w.trace) observedDoCopyLoop := by
    refine keeps_observedDoCopyLoop (J := fun t => ShortTimeout t ↔ WatchdogShort t)
      (fun _ _ h => ShortTimeout.plain h nofun nofun)
      (fun _ _ h => ShortTimeout.plain h nofun nofun)
      (fun _ _ _ _ h => ShortTimeout.plain h nofun nofun)
      (fun w hw => wp_observedWatchDog hw fun s hs => ShortTimeout.round hw hs)
      fun n w hw => wp_observe (wp_true _) (fun _ _ => hw) fun i _ _ => ?_
    exact ShortTimeout.plain (ShortTimeout.plain hw nofun nofun) nofun nofun
  exact always_of_wp
    (hkeeps ⟨doCopyStart s bufn bufd, []⟩ ⟨fun _ => always_nil, fun _ => always_nil⟩)
    (fun _ _ h => h) fun _ _ => trivial

/-- A round in which an invitation to clear is received, and the head of the next one. -/
def invitedRound : List Env :=
  [.willing, { Env.willing with poll := .ready { pollin := true } {} {} },
    { Env.willing with sock := .ok [1, 1] }, .willing, .willing]

/-- The round behind an invitation waits under `Watchdog_timeout`. -/
theorem longTimeout_invitedRound : ¬ ∀ (es : List Env) (s : Session) (bufn bufd : List UInt8),
    ShortTimeout (doCopyObserved es s bufn bufd) := by
  intro h
  have hlaw := h invitedRound (Session.fresh 0 128) (List.replicate 129 0) (List.replicate 129 0)
  exact absurd hlaw (by decide +kernel)

end PadSvr
