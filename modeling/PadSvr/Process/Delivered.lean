import PadSvr.Process.Line
import PadSvr.Session.Wire

/-!
# What the other side of a session gets

The parts of a session process put together: whatever happens to it, the other side of its X.25
line gets a beginning of the Set message, then a beginning of what the terminal side has written,
and then perhaps the invitation to clear.

## Main definitions

* `sessionCalls t`: the calls of the session in the trace of its process

## Main results

* `serve_delivers`: what the other side gets
-/

namespace PadSvr

open Scripted Scripted.Prog

/-- The calls of the session. -/
def sessionCalls (t : PTrace) : STrace := t.filterMap fun x =>
  match x.1 with
  | .sys k => some (k, x.2.sess)
  | _ => none

/-- The calls of a part, made in the sessions that the process holds. -/
def heldCalls (p : Process) (t : STrace) : STrace := t.map fun x => (x.1, (p.hold x.2).sess)

section Calls

variable {payload : List UInt8} {w : PRun}

@[simp] theorem sessionCalls_append (t t' : PTrace) :
    sessionCalls (t ++ t') = sessionCalls t ++ sessionCalls t' := List.filterMap_append

theorem sessionCalls_after (w : PRun) (w₁ : SRun) : sessionCalls (after w w₁).trace =
    sessionCalls w.trace ++ heldCalls w.st w₁.trace := by
  show sessionCalls (w.trace ++ w₁.trace.map fun x => (.sys x.1, w.st.hold x.2)) = _
  rw [sessionCalls_append]
  congr 1
  simp [sessionCalls, heldCalls, List.filterMap_map]

/-- The calls of the process itself. -/
theorem sessionCalls_own {k : PEvent} (hk : ∀ k', k ≠ .sys k') (t : PTrace) (p : Process) :
    sessionCalls (t ++ [(k, p)]) = sessionCalls t := by
  rw [sessionCalls_append]
  cases k with
  | sys k => exact absurd rfl (hk k)
  | _ => exact List.append_nil _

theorem allows_heldCalls {τ : Type} {P : Protocol Event Session τ} {q : τ} {t : STrace}
    (p : Process) (hP : ∀ q k s, P.next q k (p.hold s).sess = P.next q k s)
    (h : P.Allows q t) : P.Allows q (heldCalls p t) := by
  rw [Protocol.Allows, heldCalls, Protocol.after_map (P := P) fun q x => hP q x.1 x.2]
  exact h

theorem accepted_heldCalls (p : Process) (t : STrace) :
    accepted (heldCalls p t) = accepted t := List.flatMap_map _ _ _

theorem received_heldCalls (p : Process) (t : STrace) :
    received (heldCalls p t) = received t := List.flatMap_map _ _ _

theorem copied_heldCalls {t : STrace} (h : Copied t) (p : Process) : Copied (heldCalls p t) := by
  refine ⟨fun x hx => ?_, fun t₁ ht => ?_, ?_⟩
  · obtain ⟨y, hy, rfl⟩ := List.mem_map.mp hx
    exact h.unqualified y hy
  · obtain ⟨t', ht', rfl⟩ := List.prefix_map_iff.mp ht
    change accepted (heldCalls p t') <+: received (heldCalls p t')
    rw [accepted_heldCalls, received_heldCalls]
    exact h.pre t' ht'
  · refine always_append_map (t := []) always_nil h.hangup fun t₁ k s hat => ?_
    cases k with
    | loopHead =>
      intro hd
      change accepted (heldCalls p t₁) = received (heldCalls p t₁)
      rw [accepted_heldCalls, received_heldCalls]
      exact hat (by simpa using hd)
    | _ => trivial

end Calls

/-! ## The parts of a session -/

/-- The entry offers a configuration file that the script does. -/
def Offered (es : List PEnv) (e : Env) : Prop := ∃ e' ∈ es, e'.env.file = e.file

section Parts

variable {es : List PEnv} {payload : List UInt8} {c₀ : Settings} {w : PRun}

/-- Everywhere. -/
def Conveying (payload : List UInt8) (w : PRun) : Prop := Parted payload (sessionCalls w.trace)

/-- The Set message has been sent, or given up. -/
def Welcomed (es : List PEnv) (payload : List UInt8) (c₀ : Settings) (w : PRun) : Prop :=
  (controlProtocol payload).Allows 0 (sessionCalls w.trace) ∧
    CfgReach (Offered es) c₀ w.st.sess.cfg

/-- The buffers are laid out, and empty. -/
def LaidOut (es : List PEnv) (payload : List UInt8) (c₀ : Settings) (w : PRun) : Prop :=
  Welcomed es payload c₀ w ∧ ∃ s₀ : Session, CfgReach (Offered es) c₀ s₀.cfg ∧
    Laid (Offered es) s₀ w.st.sess ∧ w.st.sess.loc.totali = 0

/-- The loop has copied what it has. -/
def CopiedAll (payload : List UInt8) (w : PRun) : Prop :=
  ∃ t₁ t₂, sessionCalls w.trace = t₁ ++ t₂ ∧ (controlProtocol payload).Allows 0 t₁ ∧ Copied t₂

theorem Welcomed.conveying (h : Welcomed es payload c₀ w) : Conveying payload w :=
  ⟨_, [], [], 0, (List.append_nil _).symm, h.1, .nil, rfl⟩

theorem CopiedAll.conveying (h : CopiedAll payload w) : Conveying payload w := by
  obtain ⟨t₁, t₂, ht, h₁, h₂⟩ := h
  exact ⟨t₁, t₂, [], 0, by rw [ht, List.append_nil], h₁, h₂, rfl⟩

/-- No call of the process itself carries anything. -/
theorem passes_of_sessionCalls {r : Process → Process → Prop} {ks : PEvent → Bool}
    {K : PRun → Prop} (hks : ∀ k k', ks k = true → k ≠ .sys k')
    (hK : ∀ w p' t, K w → r w.st p' → sessionCalls t = sessionCalls w.trace → K ⟨p', t⟩) :
    Passes r ks K := fun w k _ p' h hk _ hr =>
  hK w p' _ h hr (sessionCalls_own (fun k' => hks k k' hk) _ _)

theorem not_sys_of_isLeaving (k : PEvent) (k' : Event) (hk : k.isLeaving = true) : k ≠ .sys k' := by
  rintro rfl
  cases hk

theorem not_sys_of_isStarting (k : PEvent) (k' : Event) (hk : k.isStarting = true) :
    k ≠ .sys k' := by
  rintro rfl
  cases hk

theorem passes_conveying : Passes Similar PEvent.isLeaving (Conveying payload) :=
  passes_of_sessionCalls not_sys_of_isLeaving fun w p' t h _ ht => by
    rw [Conveying, ht]
    exact h

/-- **A part of the session**, which `Exit` may cut short. -/
theorem wp_orExit_conveying {α : Type} {m : SProg α} {I₁ : SRun → Prop} {Q₁ : α → SRun → Prop}
    {Q : α → PRun → Prop} (hm : wp (Offered es) I₁ m Q₁ ⟨w.st.sess, []⟩)
    (hI : ∀ w₁, I₁ w₁ → Parted payload (sessionCalls w.trace ++ heldCalls w.st w₁.trace))
    (hQ : ∀ a w₁, Q₁ a w₁ → Q a (after w w₁)) :
    wp (· ∈ es) (Conveying payload) (orExit m) Q w :=
  wp_orExit (J := Conveying payload) (wp_part hm (fun e he => ⟨e, he, rfl⟩)
      (fun w₁ h₁ => by
        rw [Conveying, sessionCalls_after]
        exact hI w₁ h₁) hQ) (fun _ h => h) fun kod _ h => wp_exit_passes passes_conveying kod h

theorem laid_hold {E : Env → Prop} {s₀ s : Session} (h : Laid E s₀ s) (p : Process) :
    Laid E s₀ (p.hold s).sess ∧ (p.hold s).sess.loc = s.loc := by
  have hloc : (p.hold s).sess.loc = s.loc := by
    unfold Process.hold
    split <;> rfl
  have hbufd : (p.hold s).sess.bufd = s.bufd := by
    unfold Process.hold
    split <;> rfl
  exact ⟨h.of_eq hloc (by rw [hbufd]) (by rw [hold_cfg]; exact .refl), hloc⟩

theorem allows_control_heldCalls {t : STrace} (p : Process)
    (h : (controlProtocol payload).Allows 0 t) :
    (controlProtocol payload).Allows 0 (heldCalls p t) :=
  allows_heldCalls p (fun _ _ _ => rfl) h

variable {behind : List X29Par}

/-- The Set message. -/
theorem wp_x29SetDefault_welcomed (hcalls : sessionCalls w.trace = []) (hc : w.st.sess.cfg = c₀) :
    wp (· ∈ es) (Conveying (setPayload behind c₀)) (orExit (x29SetDefault behind))
      (fun _ => Welcomed es (setPayload behind c₀) c₀) w := by
  have hset := wp_x29SetDefault_control (E := Offered es) behind w.st.sess
  rw [hc] at hset
  refine wp_orExit_conveying hset (fun w₁ h₁ => ?_) fun _ w₁ h₁ => ⟨?_, ?_⟩
  · rw [hcalls, List.nil_append]
    exact ⟨_, [], [], 0, (List.append_nil _).symm, allows_control_heldCalls _ h₁, .nil, rfl⟩
  · rw [sessionCalls_after, hcalls, List.nil_append]
    exact allows_control_heldCalls _ h₁.1
  · show CfgReach (Offered es) c₀ (w.st.hold w₁.st).sess.cfg
    rw [hold_cfg]
    exact h₁.2

/-- The start of the loop. -/
theorem wp_doCopyStart_laidOut {bufn bufd : List UInt8} (h : Welcomed es payload c₀ w)
    (hbufd : bufd.length = w.st.sess.cfg.bufferSize.toNat + 1) :
    wp (· ∈ es) (Conveying payload) (orExit (modify (doCopyStart · bufn bufd)))
      (fun _ => LaidOut es payload c₀) w := by
  have hstart : wp (Offered es) (fun w₁ => w₁.trace = [])
      (modify (doCopyStart · bufn bufd) : SProg Unit)
      (fun _ w₁ => w₁ = ⟨doCopyStart w.st.sess bufn bufd, []⟩) ⟨w.st.sess, []⟩ := wp_modify rfl
  refine wp_orExit_conveying hstart (fun w₁ h₁ => ?_) fun _ w₁ h₁ => ?_
  · rw [h₁]
    simpa [heldCalls, Conveying] using h.conveying
  · subst h₁
    obtain ⟨hl, hloc⟩ := laid_hold (laid_doCopyStart (Offered es) w.st.sess bufn hbufd) w.st
    refine ⟨⟨?_, ?_⟩, w.st.sess, h.2, hl, ?_⟩
    · rw [sessionCalls_after]
      simpa [heldCalls] using h.1
    · show CfgReach (Offered es) c₀ (w.st.hold _).sess.cfg
      rw [hold_cfg]
      exact h.2
    · show (w.st.hold _).sess.loc.totali = 0
      rw [hloc]
      rfl

variable (hfix : ∀ c, CfgReach (Offered es) c₀ c → c.forwardtimer ≠ 0 ∧
  c.bufferSize = c₀.bufferSize)

include hfix in
/-- The loop. -/
theorem wp_doCopyLoop_copiedAll (h : LaidOut es payload c₀ w) :
    wp (· ∈ es) (Conveying payload) (orExit doCopyLoop) (fun _ => CopiedAll payload) w := by
  obtain ⟨⟨hcalls, -⟩, s₀, hs₀, hl, hz⟩ := h
  have hfix₀ : ∀ c, CfgReach (Offered es) s₀.cfg c → c.forwardtimer ≠ 0 ∧
      c.bufferSize = s₀.cfg.bufferSize := fun c hc => by
    obtain ⟨hft, hb⟩ := hfix c (hs₀.trans hc)
    exact ⟨hft, hb.trans (hfix _ hs₀).2.symm⟩
  refine wp_orExit_conveying (wp_doCopyLoop_copied hfix₀ hl hz) (fun w₁ h₁ => ?_)
    fun _ w₁ h₁ => ?_
  · exact ⟨_, _, [], 0, by rw [List.append_nil], hcalls, copied_heldCalls h₁ _, rfl⟩
  · exact ⟨_, _, sessionCalls_after w w₁, hcalls, copied_heldCalls h₁ _⟩

/-- The line is closed. -/
theorem wp_closeLine_conveying (block : List UInt8)
    (h : CopiedAll payload w) :
    wp (· ∈ es) (Conveying payload) (orExit (closeLine block))
      (fun _ => Conveying payload) w := by
  obtain ⟨t₁, t₂, ht, h₁, h₂⟩ := h
  have hparted : ∀ w₁ : SRun, OnLine payload (.clearing w.st.sess.done 0) w₁ →
      Parted payload (sessionCalls w.trace ++ heldCalls w.st w₁.trace) := fun w₁ h₃ =>
    ⟨t₁, t₂, _, _, by rw [ht, List.append_assoc], h₁, h₂,
      allows_heldCalls _ (lineNext_hold _) h₃⟩
  refine wp_orExit_conveying (wp_closeLine_line block rfl) hparted fun _ w₁ h₃ => ?_
  rw [Conveying, sessionCalls_after]
  exact hparted w₁ h₃.onLine

/-- The wait for the login process. -/
theorem wp_waitExitstatus_conveying (block : List UInt8)
    (h : Conveying payload w) :
    wp (· ∈ es) (Conveying payload) (orExit (waitExitstatus block))
      (fun _ => Conveying payload) w := by
  obtain ⟨t₁, t₂, t₃, done, ht, h₁, h₂, h₃⟩ := h
  obtain ⟨q, hq⟩ := Option.isSome_iff_exists.mp h₃
  have hparted : ∀ w₁ : SRun, OnLine payload q w₁ →
      Parted payload (sessionCalls w.trace ++ heldCalls w.st w₁.trace) := fun w₁ h' => by
    refine ⟨t₁, t₂, t₃ ++ heldCalls w.st w₁.trace, done, by rw [ht]; simp, h₁, h₂, ?_⟩
    rw [Protocol.Allows, Protocol.after_append, hq]
    exact allows_heldCalls _ (lineNext_hold _) h'
  have hclosing : Closing payload q done ⟨w.st.sess, []⟩ := by
    obtain ⟨i, -, rfl | rfl⟩ := carried_of_closing hq
    · exact Or.inl ⟨i, rfl⟩
    · exact Or.inr rfl
  refine wp_orExit_conveying (restores_waitExitstatus_closing block _ hclosing) hparted
    fun _ w₁ h' => ?_
  rw [Conveying, sessionCalls_after]
  exact hparted w₁ h'.onLine

include hfix in
/-- The parts of a session, and what each of them carries. -/
theorem phases_conveying : ServePhases (· ∈ es) behind (Conveying (setPayload behind c₀))
    (fun w => sessionCalls w.trace = [] ∧ w.st.sess.cfg = c₀)
    (Welcomed es (setPayload behind c₀) c₀) (Welcomed es (setPayload behind c₀) c₀)
    (LaidOut es (setPayload behind c₀) c₀) (CopiedAll (setPayload behind c₀))
    (Conveying (setPayload behind c₀)) := by
  have hstays : Stays SameSession (Welcomed es (setPayload behind c₀) c₀) := fun w p' h hs =>
    ⟨h.1, by rw [hs.sess]; exact h.2⟩
  have hcalls : Passes SameSession PEvent.isStarting (Welcomed es (setPayload behind c₀) c₀) :=
    passes_of_sessionCalls not_sys_of_isStarting fun w p' t h hs ht =>
      ⟨by rw [ht]; exact h.1, by rw [hs.sess]; exact h.2⟩
  have hwelcomed : ∀ w, Welcomed es (setPayload behind c₀) c₀ w →
      Conveying (setPayload behind c₀) w := fun _ h => h.conveying
  refine ⟨passes_conveying, ⟨hstays, hcalls, hwelcomed⟩,
    ⟨fun _ _ h hs => hstays h hs.sameSession, hwelcomed⟩, ⟨?_, fun _ h => h.1.conveying⟩,
    ⟨fun _ _ h _ => h, ?_, fun _ h => h.conveying⟩,
    fun _ h => wp_x29SetDefault_welcomed h.1 h.2, fun _ h =>
      wp_chilSetsignal_stays hstays hcalls hwelcomed passes_conveying h,
    fun _ _ _ h hb => wp_doCopyStart_laidOut h hb, fun _ h => wp_doCopyLoop_copiedAll hfix h,
    fun _ block h => wp_closeLine_conveying block h,
    fun _ block h => wp_waitExitstatus_conveying block h⟩
  · rintro w p' ⟨h, s₀, hs₀, hl, hz⟩ hs
    refine ⟨hstays h hs.sameSession, s₀, hs₀, ?_, ?_⟩
    · rw [hs.sess]
      exact hl.of_eq rfl rfl .refl
    · rw [hs.sess]
      exact hz
  · refine passes_of_sessionCalls not_sys_of_isLeaving fun w p' t h _ ht => ?_
    rw [CopiedAll, ht]
    exact h

end Parts

/-- **What the other side of a session gets.** As long as reloads leave the size of the buffers
alone, and the idle timer is never switched off, the X.25 line carries a beginning of the Set
message, then a beginning of what has been read from the terminal side, and then perhaps the
invitation to clear, at every moment of every run. When the loop finds that the terminal side has
hung up, all that has been read from it has been sent. -/
theorem serve_delivers {behind : List X29Par} {es : List PEnv} {p : Process}
    (hfix : ∀ c, CfgReach (Offered es) p.sess.cfg c → c.forwardtimer ≠ 0 ∧
      c.bufferSize = p.sess.cfg.bufferSize) :
    (∀ t, t <+: sessionCalls (serveTrace behind es p) →
      OnWire (setPayload behind p.sess.cfg) t) ∧
    ∀ t s, t ++ [(.loopHead, s)] <+: sessionCalls (serveTrace behind es p) → s.done = 3 →
      ∃ set, set <+: setPayload behind p.sess.cfg ∧
        wire t = qualified set ++ plain (received t) := by
  have hparted : Parted (setPayload behind p.sess.cfg) (sessionCalls (serveTrace behind es p)) :=
    always_of_wp (E := (· ∈ es)) (I := Conveying (setPayload behind p.sess.cfg))
      ((phases_conveying hfix).wp_serve (w := ⟨serveStart p, []⟩) (Q := fun _ _ => False)
        ⟨rfl, rfl⟩) (fun _ _ h => h.elim) fun _ he => he
  exact ⟨fun t ht => (hparted.of_prefix ht).onWire, fun t s ht hd =>
    (hparted.of_prefix ht).hangup hd⟩

/-- The terminal side writes a byte and hangs up, and the other side takes what it is sent. -/
def typedHangup : PEnv :=
  { before := [.typed [97], .hangup], env := { Env.willing with
    master := .ok 1, poll := .ready {} { pollin := true, pollhup := true } {} } }

theorem serve_delivers_hangup :
    (∀ t, t <+: sessionCalls (serveTrace [⟨0, 0⟩] (List.replicate 60 typedHangup) smallProcess) →
      OnWire (setPayload [⟨0, 0⟩] smallProcess.sess.cfg) t) ∧
    wire (sessionCalls (serveTrace [⟨0, 0⟩] (List.replicate 60 typedHangup) smallProcess)) =
      qualified (setPayload [⟨0, 0⟩] smallProcess.sess.cfg) ++ plain [97] ++
        qualified [x29InvitationToClear] := by
  refine ⟨(serve_delivers fun c hc => ?_).1, by decide +kernel⟩
  rw [cfgReach_of_missing (fun e he => ?_) hc]
  · decide
  · obtain ⟨e', he', hfile⟩ := he
    rw [← hfile, List.eq_of_mem_replicate he']
    rfl

end PadSvr
