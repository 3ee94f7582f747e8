import PadSvr.Process.Path

/-!
# Sessions register once

A session writes a message when it starts and one when it ends. Three flags decide in `Exit` whether
the second one is still due: the fork of a process decides on two of them, and the session counts
its messages in the third.

## Main definitions

* `sends t`: the calls of `send_pts_addr`
* `Tidy`: only a session calls `send_pts_addr`, and ends with none of its messages or with both
* `Standing addr ph p l`: the flags of a process in the phase `ph`, with its messages so far

## Main results

* `wp_exit_tidy`: `Exit` writes what is due
* `daemon_tidy`: on every path through the tree of processes
-/

namespace PadSvr

open Scripted Scripted.Prog

/-- A call of `send_pts_addr`. -/
structure Send where
  pid : ℕ
  pts : List Char
  addr : List Char
deriving DecidableEq, Repr

/-- The message of a session that ends. -/
def Send.leaving (pid : ℕ) : Send := ⟨pid, ['-'], ['-']⟩

def PEvent.send : PEvent → Option Send
  | .sendPtsAddr pid pts addr _ => some ⟨pid, pts, addr⟩
  | _ => none

def DEvent.proc? : DEvent → Option PEvent
  | .proc k => some k
  | _ => none

/-- The calls of `send_pts_addr` on a path. -/
def sends (t : DTrace) : List Send := t.filterMap fun x => x.1.proc?.bind PEvent.send

/-- Those of a process. -/
def ownSends (t : PTrace) : List Send := t.filterMap fun x => x.1.send

/-- The process registers once, as called from `addr`, and deregisters once. -/
def Paired (addr : List Char) (pid : ℕ) (l : List Send) : Prop :=
  ∃ pts, l = [⟨pid, pts, addr⟩, Send.leaving pid]

/-- After the messages `l`: only a session calls `send_pts_addr`, and where it exits, it has called
it for nothing or for both of its messages. -/
def Tidy (addr : List Char) (l : List Send) (k : PEvent) (p : Process) : Prop :=
  (k.send.isSome → p.role = .session) ∧
    ∀ kod, k = .exit kod → p.role = .session → l = [] ∨ Paired addr p.pid l

/-- For the calls of a process. -/
def TidyProcess (addr : List Char) (t : PTrace) (k : PEvent) (p : Process) : Prop :=
  Tidy addr (ownSends t) k p

/-- For the calls on a path. -/
def TidyPath (addr : List Char) (t : DTrace) (k : DEvent) (d : Daemon) : Prop :=
  ∀ k', k.proc? = some k' → Tidy addr (sends t) k' d.proc

/-- How far a process has come: above the sessions, a session before its first message, after it,
after its last one, or a login process. -/
inductive Progress
  | above
  | fresh
  | entered
  | gone
  | login

/-- The flags that `Exit` looks at, and the messages so far. -/
def Standing (addr : List Char) : Progress → Process → List Send → Prop
  | .above, p, l => p.role ≠ .session ∧ p.flagIamchild = false ∧ p.flagPtsAddrSendStatus = 0 ∧
      l = []
  | .fresh, p, l => p.role = .session ∧ p.flagIamboss = false ∧ p.flagIamchild = true ∧
      p.flagPtsAddrSendStatus = 0 ∧ l = []
  | .entered, p, l => p.role = .session ∧ p.flagIamboss = false ∧ p.flagIamchild = true ∧
      p.flagPtsAddrSendStatus = 1 ∧ ∃ pts, l = [⟨p.pid, pts, addr⟩]
  | .gone, p, l => p.role = .session ∧ p.flagIamboss = false ∧ p.flagPtsAddrSendStatus = 2 ∧
      Paired addr p.pid l
  | .login, p, _ => p.role = .login ∧ p.flagIamchild = false

/-- Nothing that `Exit` looks at differs. -/
structure Process.Alike (p p' : Process) : Prop where
  role : p'.role = p.role
  pid : p'.pid = p.pid
  flagIamboss : p'.flagIamboss = p.flagIamboss
  flagIamchild : p'.flagIamchild = p.flagIamchild
  flagPtsAddrSendStatus : p'.flagPtsAddrSendStatus = p.flagPtsAddrSendStatus

theorem Process.Alike.trans {p p' p'' : Process} (h : p.Alike p') (h' : p'.Alike p'') :
    p.Alike p'' where
  role := h'.role.trans h.role
  pid := h'.pid.trans h.pid
  flagIamboss := h'.flagIamboss.trans h.flagIamboss
  flagIamchild := h'.flagIamchild.trans h.flagIamchild
  flagPtsAddrSendStatus := h'.flagPtsAddrSendStatus.trans h.flagPtsAddrSendStatus

theorem Standing.alike {addr : List Char} {ph : Progress} {p p' : Process} {l : List Send}
    (h : Standing addr ph p l) (hp : p.Alike p') : Standing addr ph p' l := by
  cases ph <;> simpa only [Standing, hp.role, hp.pid, hp.flagIamboss, hp.flagIamchild,
    hp.flagPtsAddrSendStatus] using h

/-- Signals and the terminal do not touch the flags. -/
theorem alike_meet (e : PEnv) (p : Process) : p.Alike (p.meet e) := by
  rw [meet_frame]
  exact ⟨rfl, rfl, rfl, rfl, rfl⟩

theorem alike_hold (p : Process) (s : Session) : p.Alike (p.hold s) := ⟨rfl, rfl, rfl, rfl, rfl⟩

/-! ## The statements of a process -/

section Process

variable {α : Type} {addr : List Char} {ph : Progress} {w : PRun}

/-- Wherever it stands. -/
def Orderly (addr : List Char) (w : PRun) : Prop := Always (TidyProcess addr) w.trace

/-- A process in the phase `ph`. -/
structure Doing (addr : List Char) (ph : Progress) (w : PRun) : Prop where
  orderly : Orderly addr w
  standing : Standing addr ph w.st (ownSends w.trace)

/-- A call that is no message and does not end the process. -/
def PEvent.Plain : PEvent → Prop
  | .sendPtsAddr .. | .exit _ => False
  | _ => True

theorem Tidy.plain {l : List Send} {k : PEvent} (hk : k.Plain) (p : Process) :
    Tidy addr l k p := by
  refine ⟨fun h => ?_, fun kod h => ?_⟩
  · cases k <;> cases h
    exact hk.elim
  · subst h
    exact hk.elim

theorem PEvent.Plain.send {k : PEvent} (hk : k.Plain) : k.send = none := by
  cases k with
  | sendPtsAddr => exact hk.elim
  | _ => rfl

@[simp] theorem ownSends_append (t t' : PTrace) : ownSends (t ++ t') = ownSends t ++ ownSends t' :=
  List.filterMap_append

/-- A plain call. -/
theorem Orderly.plain (h : Orderly addr w) {k : PEvent} (hk : k.Plain) (p p' : Process) :
    Orderly addr ⟨p', w.trace ++ [(k, p)]⟩ :=
  always_concat.mpr ⟨h, Tidy.plain hk p⟩

theorem Doing.plain (h : Doing addr ph w) {k : PEvent} (hk : k.Plain) {p p' : Process}
    (hp : w.st.Alike p') : Doing addr ph ⟨p', w.trace ++ [(k, p)]⟩ where
  orderly := h.orderly.plain hk p p'
  standing := by
    have hl : ownSends (w.trace ++ [(k, p)]) = ownSends w.trace := by
      simp [ownSends, hk.send]
    rw [hl]
    exact h.standing.alike hp

theorem restores_pstmt_doing {f : PEnv → Process → Process × α}
    (hf : ∀ e (p : Process), p.Alike (f e p).1) :
    Restores anyEntry (Orderly addr) (Doing addr ph) (pstmt f) := fun w hw =>
  wp_pstmt hw.orderly fun e _ =>
    ⟨hw.orderly, hw.standing.alike ((alike_meet e w.st).trans (hf e _))⟩

theorem restores_pcall_doing {f : PEnv → Process → Option (PEvent × Process × α)}
    (hf : ∀ e p r, f e p = some r → r.1.Plain ∧ p.Alike r.2.1) :
    Restores anyEntry (Orderly addr) (Doing addr ph) (pcall f) := fun w hw =>
  wp_pcall hw.orderly fun e _ r hr =>
    hw.plain (hf e _ r hr).1 ((alike_meet e w.st).trans (hf e _ r hr).2)

theorem plain_sys (k : Event) : (PEvent.sys k).Plain := trivial

/-- The calls of the session of a process are neither. -/
theorem Doing.after (h : Doing addr ph w) (w₁ : SRun) : Doing addr ph (after w w₁) where
  orderly := by
    refine always_append h.orderly fun x hx t₁ => ?_
    obtain ⟨y, -, rfl⟩ := List.mem_map.mp hx
    exact Tidy.plain (plain_sys y.1) _
  standing := by
    have hnone : ownSends (w₁.trace.map fun x => (.sys x.1, w.st.hold x.2)) = [] := by
      refine List.filterMap_eq_nil_iff.mpr fun x hx => ?_
      obtain ⟨y, -, rfl⟩ := List.mem_map.mp hx
      rfl
    show Standing addr ph (w.st.hold w₁.st) (ownSends (w.trace ++ _))
    rw [ownSends_append, hnone, List.append_nil]
    exact h.standing.alike (alike_hold w.st w₁.st)

/-- A message of the session. -/
theorem wp_sendPtsAddrCall_tidy {pts addr' : List Char} (h : Orderly addr w)
    (hrole : w.st.role = .session) :
    wp anyEntry (Orderly addr) (sendPtsAddrCall pts addr') (fun _ w' => Orderly addr w' ∧
      w.st.Alike w'.st ∧ ownSends w'.trace = ownSends w.trace ++ [⟨w.st.pid, pts, addr'⟩]) w := by
  refine wp_pcall h fun e _ r hr => ?_
  have halike := alike_meet e w.st
  cases hr
  refine ⟨always_concat.mpr ⟨h, fun _ => halike.role.trans hrole, nofun⟩,
    halike.trans ⟨rfl, rfl, rfl, rfl, rfl⟩, ?_⟩
  rw [ownSends_append, ← halike.pid]
  rfl

/-- The phases in which no message is due. -/
def Progress.settled : Progress → Bool
  | .entered => false
  | _ => true

/-- A process that ends with no message due. -/
theorem Doing.exit (h : Doing addr ph w) (hph : ph.settled) (kod : ℕ) :
    Orderly addr ⟨w.st, w.trace ++ [(.exit kod, w.st)]⟩ := by
  refine always_concat.mpr ⟨h.orderly, nofun, fun kod' _ hrole => ?_⟩
  have hst := h.standing
  cases ph with
  | above => exact absurd hrole hst.1
  | fresh => exact Or.inl hst.2.2.2.2
  | entered => cases hph
  | gone => exact Or.inr hst.2.2.2
  | login => simp [hst.1] at hrole

/-- **`Exit`** writes the message that is due, and none that is not. -/
theorem wp_exit_tidy (kod : ℕ) {Q : α → PRun → Prop} (h : Doing addr ph w) :
    wp anyEntry (Orderly addr) (exit kod) Q w := by
  have hleave : ∀ w ph, Doing addr ph w → ph.settled →
      wp anyEntry (Orderly addr) (do label (.exit kod); Prog.stop : PProg α) Q w :=
    fun w ph h hph => wp_bind (wp_label (wp_stop (h.exit hph kod)))
  have hst := h.standing
  unfold PadSvr.exit exitCalls
  refine wp_bind (wp_bind (wp_get ?_))
  by_cases hboss : w.st.flagIamboss = true
  · rw [if_pos hboss]
    have hph : ph.settled := by
      cases ph with
      | entered => simp [hst.2.1] at hboss
      | _ => rfl
    refine wp_mono (restores_pcall_doing (fun e p r hr => ?_) w h) (fun _ h => h) fun _ w h =>
      hleave w ph h hph
    cases hr
    exact ⟨trivial, rfl, rfl, rfl, rfl, rfl⟩
  · rw [if_neg hboss]
    by_cases hdue : w.st.flagIamchild = true ∧ w.st.flagPtsAddrSendStatus = 1
    · rw [if_pos hdue]
      cases ph with
      | entered =>
        obtain ⟨hrole, hboss, hchild, hstatus, pts, hl⟩ := hst
        -- `Exit` does not count its own message, and needs not to
        refine wp_mono (wp_sendPtsAddrCall_tidy h.orderly hrole) (fun _ h => h) fun _ w h => ?_
        refine wp_bind (wp_label (wp_stop (always_concat.mpr ⟨h.1, nofun, fun kod' _ _ => ?_⟩)))
        refine Or.inr ⟨pts, ?_⟩
        rw [h.2.2, hl, h.2.1.pid]
        rfl
      | above => simp [hst.2.1] at hdue
      | fresh => simp [hst.2.2.2.1] at hdue
      | gone => simp [hst.2.2.1] at hdue
      | login => simp [hst.2] at hdue
    · rw [if_neg hdue]
      have hph : ph.settled := by
        cases ph with
        | entered => exact absurd ⟨hst.2.2.1, hst.2.2.2.1⟩ hdue
        | _ => rfl
      exact wp_pure (hleave w ph h hph)

theorem restores_require_doing :
    Restores anyEntry (Orderly addr) (Doing addr ph) require :=
  restores_require (fun _ h => wp_exit_tidy 1 h)
    (restores_pstmt_doing fun _ _ => ⟨rfl, rfl, rfl, rfl, rfl⟩)

theorem restores_malloc_doing (n : ℕ) :
    Restores anyEntry (Orderly addr) (Doing addr ph) (malloc n) :=
  restores_malloc n (fun _ h => wp_exit_tidy 1 h)
    (restores_pstmt_doing fun _ _ => ⟨rfl, rfl, rfl, rfl, rfl⟩)

theorem restores_install_doing (as : List (Signo × Handler)) :
    Restores anyEntry (Orderly addr) (Doing addr ph) (install as) := by
  induction as with
  | nil => exact .pure
  | cons a as ih =>
    exact .bind (restores_pstmt_doing fun _ _ => ⟨rfl, rfl, rfl, rfl, rfl⟩) fun _ => ih

theorem restores_orExit_doing (m : SProg α) :
    Restores anyEntry (Orderly addr) (Doing addr ph) (orExit m) := by
  intro w hw
  have hpart : wp anyEntry (Doing addr ph) (part m) (fun _ => Doing addr ph) w :=
    wp_part (wp_true m) (fun _ _ => trivial) (fun w₁ _ => hw.after w₁) fun _ w₁ _ => hw.after w₁
  exact wp_orExit hpart (fun _ h => h.orderly) fun kod w h => wp_exit_tidy kod h

theorem restores_chilSetsignal_doing :
    Restores anyEntry (Orderly addr) (Doing addr ph) chilSetsignal := by
  unfold chilSetsignal
  refine .bind (restores_install_doing _) fun _ => .bind (restores_pcall_doing ?_) fun _ =>
    .ite .pure fun _ h => wp_exit_tidy 1 h
  intro e p r hr
  split at hr
  · cases hr
    exact ⟨trivial, rfl, rfl, rfl, rfl, rfl⟩
  · cases hr
    exact ⟨trivial, rfl, rfl, rfl, rfl, rfl⟩

/-! ## A session -/

/-- Before `sig_unblock`, the session registers. -/
theorem wp_register_tidy (ho : Orderly addr w) (hrole : w.st.role = .session)
    (hboss : w.st.flagIamboss = false) (hstatus : w.st.flagPtsAddrSendStatus = 0)
    (hl : ownSends w.trace = []) :
    wp anyEntry (Orderly addr) (register addr) (fun _ => Doing addr .entered) w := by
  unfold register
  refine wp_bind (wp_modify ?_)
  have h₁ : Doing addr .fresh
      ⟨{ w.st with blocked := true, flagIamchild := true }, w.trace⟩ :=
    ⟨ho, hrole, hboss, rfl, hstatus, hl⟩
  refine wp_seq (restores_require_doing _ h₁) fun _ w h₂ => ?_
  refine wp_seq (restores_pstmt_doing (fun _ _ => ⟨rfl, rfl, rfl, rfl, rfl⟩) w h₂)
    fun name w h₃ => ?_
  refine wp_seq (restores_pstmt_doing (fun _ _ => ⟨rfl, rfl, rfl, rfl, rfl⟩) w h₃)
    fun _ w h₄ => wp_bind (wp_modify ?_)
  obtain ⟨hrole, hboss, hchild, -, hl⟩ := h₄.standing
  -- the message is due from here on, and nothing fails before it is written
  refine wp_seq (wp_sendPtsAddrCall_tidy h₄.orderly hrole) fun _ w' h₅ => ?_
  have h₆ : Doing addr .entered w' := ⟨h₅.1, Standing.alike (p := { w.st with
    flagPtsAddrSendStatus := 1 }) ⟨hrole, hboss, hchild, rfl, name, by rw [h₅.2.2, hl]; rfl⟩ h₅.2.1⟩
  refine wp_seq (restores_require_doing _ h₆) fun _ w h₇ => ?_
  exact restores_pstmt_doing (fun _ _ => ⟨rfl, rfl, rfl, rfl, rfl⟩) w h₇

/-- `do_copy` deregisters. -/
theorem wp_doCopy_tidy (h : Doing addr .entered w) :
    wp anyEntry (Orderly addr) doCopy (fun _ => Doing addr .gone) w := by
  unfold doCopy
  refine wp_bind (wp_get ?_)
  refine wp_seq (restores_malloc_doing _ w h) fun bufn w h => ?_
  refine wp_seq (restores_malloc_doing _ w h) fun bufd w h => ?_
  refine wp_seq (restores_orExit_doing _ w h) fun _ w h => ?_
  refine wp_seq (restores_require_doing w h) fun _ w h => ?_
  refine wp_seq (restores_require_doing w h) fun _ w h => ?_
  refine wp_seq (restores_orExit_doing _ w h) fun _ w h => ?_
  refine wp_seq (restores_orExit_doing _ w h) fun _ w h => ?_
  refine wp_seq (restores_orExit_doing _ w h) fun _ w h => ?_
  refine wp_seq (restores_orExit_doing _ w h) fun _ w h => ?_
  obtain ⟨hrole, hboss, hchild, hstatus, pts, hl⟩ := h.standing
  refine wp_seq (wp_sendPtsAddrCall_tidy h.orderly hrole) fun _ w' h' => wp_bind (wp_modify ?_)
  -- from here on `Exit` writes nothing
  have hgone : Doing addr .gone ⟨{ w'.st with flagPtsAddrSendStatus := 2 }, w'.trace⟩ :=
    ⟨h'.1, h'.2.1.role.trans hrole, h'.2.1.flagIamboss.trans hboss, rfl, pts, by
      rw [h'.2.2, hl, ← h'.2.1.pid]
      rfl⟩
  refine wp_seq (restores_pstmt_doing (fun _ _ => ⟨rfl, rfl, rfl, rfl, rfl⟩) _ hgone)
    fun x w h => ?_
  refine wp_seq (restores_orExit_doing _ w h) fun _ w h => ?_
  exact restores_orExit_doing _ w h

/-- The login process has no message to write. -/
theorem wp_login_tidy {Q : Unit → PRun → Prop} (ho : Orderly addr w)
    (hrole : w.st.role = .login) : wp anyEntry (Orderly addr) login Q w := by
  unfold login
  refine wp_bind (wp_modify ?_)
  have h : Doing addr .login ⟨{ w.st with flagIamchild := false }, w.trace⟩ := ⟨ho, hrole, rfl⟩
  refine wp_seq (restores_require_doing _ h) fun _ w h => ?_
  refine wp_seq (restores_require_doing w h) fun _ w h => ?_
  refine wp_seq (restores_require_doing w h) fun _ w h => ?_
  refine wp_seq (restores_require_doing w h) fun _ w h => ?_
  exact wp_bind (wp_label (wp_stop (h.orderly.plain (k := .exec) trivial _ _)))

/-- Both sides of a `fork`. -/
theorem wp_forkCall_tidy {role : Role} (h : Doing addr ph w) :
    wp anyEntry (Orderly addr) (forkCall role) (fun a w' => match a with
      | .child pid => Orderly addr w' ∧ ownSends w'.trace = ownSends w.trace ∧
          ∃ p, w.st.Alike p ∧ w'.st = { p with pid := pid, role := role }
      | _ => Doing addr ph w') w := by
  refine wp_pcall h.orderly fun e _ r hr => ?_
  have halike := alike_meet e w.st
  have hplain : ∀ p p', Orderly addr ⟨p', w.trace ++ [(.fork, p)]⟩ := fun p p' =>
    h.orderly.plain (k := .fork) trivial p p'
  rcases hf : e.fork with _ | pid | _
  all_goals
    simp only [hf] at hr
    cases hr
  · exact h.plain (k := .fork) trivial halike
  · refine ⟨hplain _ _, ?_, _, halike, rfl⟩
    rw [ownSends_append]
    exact List.append_nil _
  · exact h.plain (k := .fork) trivial halike

/-- From `sig_unblock` to the end. -/
theorem wp_serve_tidy (behind : List X29Par) {Q : Unit → PRun → Prop} (h : Doing addr .entered w) :
    wp anyEntry (Orderly addr) (serve behind) Q w := by
  unfold serve
  refine wp_bind (wp_modify ?_)
  have hopen : Doing addr .entered ⟨{ w.st with blocked := false }, w.trace⟩ :=
    ⟨h.orderly, h.standing.alike ⟨rfl, rfl, rfl, rfl, rfl⟩⟩
  refine wp_seq (restores_orExit_doing _ _ hopen) fun _ w h => ?_
  refine wp_seq (wp_forkCall_tidy h) fun a w' h' => ?_
  cases a with
  | fail => exact wp_exit_tidy 1 h'
  | child pid =>
    obtain ⟨ho, -, p, -, hp⟩ := h'
    exact wp_login_tidy ho (by rw [hp])
  | parent =>
    refine wp_seq (restores_chilSetsignal_doing w' h') fun _ w h => ?_
    exact wp_seq (wp_doCopy_tidy h) fun _ w h => wp_exit_tidy 0 h

/-- A session, from its fork to its end. -/
theorem wp_session_tidy (behind : List X29Par) {Q : Unit → PRun → Prop} (ho : Orderly addr w)
    (hrole : w.st.role = .session) (hboss : w.st.flagIamboss = false)
    (hstatus : w.st.flagPtsAddrSendStatus = 0) (hl : ownSends w.trace = []) :
    wp anyEntry (Orderly addr) (session behind addr) Q w := by
  unfold session
  exact wp_seq (wp_register_tidy ho hrole hboss hstatus hl) fun _ w h => wp_serve_tidy behind h

end Process

/-! ## The tree of processes -/

section Path

variable {α : Type} {addr : List Char} {w : DRun}

/-- Every entry is one the environment may choose. -/
abbrev anyPath (_ : DEnv) : Prop := True

/-- Wherever the path stands. -/
def OrderlyPath (addr : List Char) (w : DRun) : Prop := Always (TidyPath addr) w.trace

/-- Above the sessions, with no message so far. -/
structure Above (addr : List Char) (w : DRun) : Prop where
  orderly : OrderlyPath addr w
  sends : sends w.trace = []
  role : w.st.proc.role ≠ .session
  flagIamchild : w.st.proc.flagIamchild = false
  flagPtsAddrSendStatus : w.st.proc.flagPtsAddrSendStatus = 0

/-- The process that the path has come to, on its own. -/
theorem Above.doing (h : Above addr w) : Doing addr .above ⟨w.st.proc, []⟩ :=
  ⟨always_nil, h.role, h.flagIamchild, h.flagPtsAddrSendStatus, rfl⟩

/-- What a process does is done on the path. -/
theorem wp_asProc {m : PProg α} {Q : α → PRun → Prop} {Q' : α → DRun → Prop}
    (ho : OrderlyPath addr w) (hl : sends w.trace = [])
    (h : wp anyEntry (Orderly addr) m Q ⟨w.st.proc, []⟩)
    (hQ : ∀ a w₁, Q a w₁ → ∀ w', w'.st = { w.st with proc := w₁.st } →
      (Orderly addr w₁ → OrderlyPath addr w') → sends w'.trace = ownSends w₁.trace → Q' a w') :
    wp anyPath (OrderlyPath addr) (asProc m) Q' w := by
  have hsends : ∀ t : PTrace, sends (w.trace ++ t.map fun x =>
      (.proc x.1, { w.st with proc := x.2 })) = ownSends t := by
    intro t
    have hmap : sends (t.map fun x => (.proc x.1, { w.st with proc := x.2 })) = ownSends t := by
      simp only [sends, List.filterMap_map]
      rfl
    rw [sends, List.filterMap_append]
    exact (congrArg₂ _ hl hmap).trans (List.nil_append _)
  have hunder : ∀ w₁, Orderly addr w₁ →
      OrderlyPath addr (w.under (fun d p => { d with proc := p }) DEvent.proc w₁) := by
    intro w₁ h₁
    refine always_append_map ho h₁ fun t₁ k p hk k' hk' => ?_
    obtain rfl := Option.some.inj hk'
    rw [hsends t₁]
    exact hk
  exact wp_zoom h (fun _ _ => trivial) hunder fun a w₁ h₁ =>
    hQ a w₁ h₁ _ rfl (hunder w₁) (hsends w₁.trace)

/-- Calls of the monitor and of the accepting process. -/
theorem Above.others (h : Above addr w) {d : Daemon} {t : DTrace} (hd : d.proc = w.st.proc)
    (ht : ∀ x ∈ t, x.1.proc? = none) : Above addr ⟨d, w.trace ++ t⟩ where
  orderly := by
    refine always_append h.orderly fun x hx t₁ k hk => ?_
    rw [ht x hx] at hk
    cases hk
  sends := by
    have hnone : PadSvr.sends t = [] :=
      List.filterMap_eq_nil_iff.mpr fun x hx => by rw [ht x hx]; rfl
    show PadSvr.sends (w.trace ++ t) = []
    rw [PadSvr.sends, List.filterMap_append]
    exact congrArg₂ _ h.sends hnone
  role := by
    show d.proc.role ≠ _
    rw [hd]
    exact h.role
  flagIamchild := by
    show d.proc.flagIamchild = _
    rw [hd]
    exact h.flagIamchild
  flagPtsAddrSendStatus := by
    show d.proc.flagPtsAddrSendStatus = _
    rw [hd]
    exact h.flagPtsAddrSendStatus

theorem wp_asMoni_above (m : MProg α) (h : Above addr w) :
    wp anyPath (OrderlyPath addr) (asMoni m) (fun _ => Above addr) w := by
  have hunder : ∀ w₁, Above addr (w.under (fun d s => { d with moni := s }) DEvent.moni w₁) :=
    fun w₁ => h.others rfl fun x hx => by
      obtain ⟨y, -, rfl⟩ := List.mem_map.mp hx
      rfl
  exact wp_zoom (wp_true m) (fun _ _ => trivial) (fun w₁ _ => (hunder w₁).orderly)
    fun _ w₁ _ => hunder w₁

theorem wp_asAcc_above (m : AProg α) (h : Above addr w) :
    wp anyPath (OrderlyPath addr) (asAcc m)
      (fun _ w' => Above addr w' ∧ w'.st.proc = w.st.proc) w := by
  have hunder : ∀ w₁, Above addr (w.under (fun d s => { d with acc := s }) DEvent.acc w₁) :=
    fun w₁ => h.others rfl fun x hx => by
      obtain ⟨y, -, rfl⟩ := List.mem_map.mp hx
      rfl
  exact wp_zoom (wp_true m) (fun _ _ => trivial) (fun w₁ _ => (hunder w₁).orderly)
    fun _ w₁ _ => ⟨hunder w₁, rfl⟩

/-- The daemon after a process above the sessions has done its part. -/
theorem Doing.above {w₁ : PRun} {w' : DRun} (h₁ : Doing addr .above w₁)
    (hw' : w'.st = { w.st with proc := w₁.st }) (ho : Orderly addr w₁ → OrderlyPath addr w')
    (hl : sends w'.trace = ownSends w₁.trace) : Above addr w' := by
  obtain ⟨hrole, hchild, hstatus, hnone⟩ := h₁.standing
  refine ⟨ho h₁.orderly, hl.trans hnone, ?_, ?_, ?_⟩
  all_goals rw [hw']
  · exact hrole
  · exact hchild
  · exact hstatus

/-- A statement of a process above the sessions. -/
theorem wp_asProc_above {m : PProg α}
    (hm : Restores anyEntry (Orderly addr) (Doing addr .above) m) (h : Above addr w) :
    wp anyPath (OrderlyPath addr) (asProc m) (fun _ => Above addr) w := by
  refine wp_asProc h.orderly h.sends (hm _ h.doing) fun a w₁ h₁ w' hw' ho hl => ?_
  exact h₁.above hw' ho hl

/-- `Exit` above the sessions. -/
theorem wp_exit_above (kod : ℕ) {Q : α → DRun → Prop} (h : Above addr w) :
    wp anyPath (OrderlyPath addr) (asProc (exit kod)) Q w :=
  wp_asProc h.orderly h.sends (wp_exit_tidy (Q := fun _ _ => False) kod h.doing)
    fun _ _ h => h.elim

/-- The accepting process, which is not the monitor any more. -/
structure Accepting (addr : List Char) (w : DRun) : Prop where
  above : Above addr w
  flagIamboss : w.st.proc.flagIamboss = false

/-- A session that has just been forked. -/
structure SettingOut (addr : List Char) (w : DRun) : Prop where
  orderly : OrderlyPath addr w
  sends : sends w.trace = []
  role : w.st.proc.role = .session
  flagIamboss : w.st.proc.flagIamboss = false
  flagPtsAddrSendStatus : w.st.proc.flagPtsAddrSendStatus = 0

/-- `fork` in the monitor. The child goes on as the accepting process, with the flags of its
parent. -/
theorem wp_forkCall_above (h : Above addr w) :
    wp anyPath (OrderlyPath addr) (asProc (forkCall .acceptor)) (fun _ => Above addr) w := by
  refine wp_asProc h.orderly h.sends (wp_forkCall_tidy h.doing) fun a w₁ h₁ w' hw' ho hl => ?_
  cases a with
  | child pid =>
    obtain ⟨ho₁, hl₁, p, halike, hp⟩ := h₁
    refine ⟨ho ho₁, hl.trans hl₁, ?_, ?_, ?_⟩
    all_goals rw [hw', hp]
    · exact nofun
    · exact halike.flagIamchild.trans h.flagIamchild
    · exact halike.flagPtsAddrSendStatus.trans h.flagPtsAddrSendStatus
  | _ => exact h₁.above hw' ho hl

/-- The parts of a path. No message is written above the sessions. -/
theorem pathPhases_tidy (behind : List X29Par) (addr : List Char) :
    PathPhases anyPath behind addr (OrderlyPath addr) (Above addr) (Above addr) (Accepting addr)
      (SettingOut addr) where
  everywhere _ h := h.orderly
  steered _ _ h hd := by
    refine ⟨h.orderly, h.sends, ?_, ?_, ?_⟩
    all_goals
      dsimp only
      rw [hd.proc]
    · exact h.role
    · exact h.flagIamchild
    · exact h.flagPtsAddrSendStatus
  require _ h := wp_asProc_above restores_require_doing h
  setup _ h := wp_asProc_above (restores_pstmt_doing fun _ _ => ⟨rfl, rfl, rfl, rfl, rfl⟩) h
  handlers _ h := wp_asProc_above (restores_install_doing _) h
  sigsuspend _ h := wp_asMoni_above _ h
  chldPart _ h := wp_asMoni_above _ h
  hupPart _ h := wp_asMoni_above _ h
  ioPart _ h := wp_asMoni_above _ h
  usr1Part _ h := wp_asMoni_above _ h
  fork w h := wp_mono (wp_forkCall_above h) (fun _ h => h) fun _ _ h => by
    split <;> exact h
  start _ h := ⟨⟨h.orderly, h.sends, h.role, h.flagIamchild, h.flagPtsAddrSendStatus⟩, rfl⟩
  mainWork w h := wp_mono (wp_asAcc_above mainWork h.above) (fun _ h => h) fun _ w' h' => by
    obtain ⟨habove, hproc⟩ := h'
    have hboss : w'.st.proc.flagIamboss = false := by rw [hproc, h.flagIamboss]
    exact ⟨⟨habove, hboss⟩, fun pid _ =>
      ⟨habove.orderly, habove.sends, rfl, hboss, habove.flagPtsAddrSendStatus⟩⟩
  session w h := wp_asProc h.orderly h.sends (wp_session_tidy (Q := fun _ _ => False) behind
    always_nil h.role h.flagIamboss h.flagPtsAddrSendStatus rfl) fun _ _ h => h.elim
  exits kod w h := wp_exit_above kod (h.elim id fun h => h.above)

end Path

/-- **A session registers and deregisters exactly once.** On every path through the tree of
processes, only a session calls `send_pts_addr`; where it ends by `Exit`, it has called it for
nothing, or once to register and then once to deregister, with its own pid. -/
theorem daemon_tidy (es : List DEnv) (d : Daemon) (row : Row) (behind : List X29Par)
    (addr : List Char) : Always (TidyPath addr) (daemonTrace es d row behind addr) := by
  exact always_of_wp ((pathPhases_tidy behind addr).wp_monitor (Q := fun _ _ => False)
    (w := ⟨d.start, []⟩) row ⟨always_nil, rfl, nofun, rfl, rfl⟩) (fun _ _ h => h.elim)
    fun _ _ => trivial

/-- Process 3 serves a call from `7`, and `calloc` fails in `x29set_default`. -/
example :
    let p : Process := { role := .monitor, pid := 1, tab := fun _ => none, sess := .fresh 1 8 }
    let m : Moni := { tabAt := 0x55d0c0a0f200, cfg := .defaults }
    let d : Daemon := { moni := m, acc := mainWorkStart {} .defaults, proc := p }
    let up : List DEnv := List.replicate 6 ({} : DEnv) ++ [{ proc := { fork := .child 2 } }]
    let call : List DEnv := List.replicate 3 ({} : DEnv) ++ [{ acc := { fork := .child 3 } }]
    let entry : List DEnv := List.replicate 6 ({ proc := { name := ['p'] } } : DEnv)
    let fails : List DEnv := [{ proc := { exit := some 0 } }, ({} : DEnv)]
    sends (daemonTrace (up ++ call ++ entry ++ fails) d ⟨[], [], []⟩ [] ['7']) =
      [⟨3, ['p'], ['7']⟩, Send.leaving 3] := by decide +kernel

end PadSvr
