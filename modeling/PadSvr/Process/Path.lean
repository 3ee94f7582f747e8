import PadSvr.Process.Daemon

/-!
# The phases of a path through the tree of processes

A path begins in the monitor, may go on in an accepting process, and in a session from there. The
monitor and the accepting process act in parts of their own, with few statements between them. So a
property of the path is one of its parts.

## Main definitions

* `Steered d d'`: the monitor has assigned some of its variables
* `PathPhases`: the assertions around the parts of a path

## Main results

* `PathPhases.wp_monitor`: the rule of `monitor`
-/

namespace PadSvr

open Scripted Scripted.Prog

/-- The monitor blocks its signals, or counts its children. -/
structure Steered (d d' : Daemon) : Prop where
  proc : d'.proc = { d.proc with blocked := d'.proc.blocked }
  cfg : d'.moni.cfg = d.moni.cfg

/-- The child of a `fork`. -/
def ForkAnswer.isChild : ForkAnswer → Bool
  | .child _ => true
  | _ => false

/-- The assertions along a path: `M` in the monitor, `F` behind the fork of an accepting process,
`A` in that process, `S` behind the fork of a session, and `I` everywhere. -/
structure PathPhases (E : DEnv → Prop) (behind : List X29Par) (addr : List Char)
    (I M F A S : DRun → Prop) : Prop where
  everywhere : ∀ w, M w → I w
  steered : ∀ w d, M w → Steered w.st d → M ⟨d, w.trace⟩
  require : Restores E I M (asProc require)
  setup : Restores E I M
    (asProc (pstmt fun e p => ({ p with flagDoPtsAddr := p.flagDoPtsAddr && e.ok }, ())))
  handlers : Restores E I M (asProc (install moniActions))
  sigsuspend : Restores E I M (asMoni sigsuspend)
  chldPart : Restores E I M (asMoni chldPart)
  hupPart : Restores E I M (asMoni hupPart)
  ioPart : Restores E I M (asMoni ioPart)
  usr1Part : Restores E I M (asMoni usr1Part)
  fork : ∀ w, M w → wp E I (asProc (forkCall .acceptor))
    (fun a w' => if a.isChild then F w' else M w') w
  start : ∀ w, F w → A ⟨w.st.startMainWork, w.trace⟩
  mainWork : ∀ w, A w → wp E I (asAcc mainWork)
    (fun a w' => A w' ∧ ∀ pid, a = .child pid → S ⟨w'.st.startSession pid, w'.trace⟩) w
  session : ∀ w, S w → wp E I (asProc (session behind addr)) (fun _ _ => False) w
  exits : ∀ kod w, M w ∨ A w → wp E I (asProc (exit kod : PProg Unit)) (fun _ _ => False) w

namespace PathPhases

variable {E : DEnv → Prop} {behind : List X29Par} {addr : List Char} {I M F A S : DRun → Prop}
  {w : DRun}

/-- `Exit` does not return. -/
theorem wp_exit (h : PathPhases E behind addr I M F A S) (kod : ℕ) {Q : Unit → DRun → Prop}
    (hw : M w ∨ A w) : wp E I (asProc (exit kod)) Q w :=
  wp_mono (h.exits kod w hw) (fun _ h => h) fun _ _ h => h.elim

/-- The accepting process, and the session that one of its forks leads to. -/
theorem wp_mainWorkProcess (h : PathPhases E behind addr I M F A S) {Q : Unit → DRun → Prop}
    (hw : F w) : wp E I (mainWorkProcess behind addr) Q w := by
  unfold mainWorkProcess
  refine wp_bind (wp_modify (wp_seq (h.mainWork _ (h.start w hw)) fun a w' h' => ?_))
  cases a with
  | stopped => exact h.wp_exit 0 (Or.inr h'.1)
  | failed => exact h.wp_exit 1 (Or.inr h'.1)
  | child pid =>
    exact wp_bind (wp_modify (wp_mono (h.session _ (h'.2 pid rfl)) (fun _ h => h)
      fun _ _ h => h.elim))

/-- `fork` in the monitor. -/
theorem restores_forkMainWork (h : PathPhases E behind addr I M F A S) :
    Restores E I M (forkMainWork behind addr) := by
  intro w hw
  unfold forkMainWork
  refine wp_bind (wp_get ?_)
  split
  · refine wp_seq (h.fork w hw) fun a w' h' => ?_
    cases a with
    | fail => exact h.wp_exit 1 (Or.inl h')
    | child pid => exact h.wp_mainWorkProcess h'
    | parent => exact wp_modify (h.steered w' _ h' ⟨rfl, rfl⟩)
  · exact wp_pure hw

/-- The loop of the monitor. -/
theorem restores_monitorLoop (h : PathPhases E behind addr I M F A S) :
    Restores E I M (monitorLoop behind addr) := by
  unfold monitorLoop
  refine .iter h.everywhere (fun _ => ?_) _
  refine .bind h.restores_forkMainWork fun _ => .bind h.sigsuspend fun _ =>
    .bind h.chldPart fun _ => .ite .pure ?_
  exact .bind h.hupPart fun _ => .bind h.ioPart fun _ => .bind h.usr1Part fun _ => .pure

/-- **The phases of a path**: what its parts do under their assertions, `monitor` does. -/
theorem wp_monitor (h : PathPhases E behind addr I M F A S) (row : Row) {Q : Unit → DRun → Prop}
    (hw : M ⟨{ w.st with proc := { w.st.proc with flagIamboss := true } }, w.trace⟩) :
    wp E I (monitor row behind addr) Q w := by
  unfold monitor
  refine wp_bind (wp_modify ?_)
  refine wp_seq (h.require _ hw) fun _ w₁ h₁ => wp_seq (h.setup w₁ h₁) fun _ w₂ h₂ => ?_
  refine wp_seq (h.handlers w₂ h₂) fun _ w₃ h₃ => wp_bind (wp_modify ?_)
  refine wp_seq (h.restores_monitorLoop _ (h.steered w₃ _ h₃ ⟨rfl, rfl⟩)) fun _ w₄ h₄ => ?_
  exact h.wp_exit 0 (Or.inl h₄)

end PathPhases

end PadSvr
