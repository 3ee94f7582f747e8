import PadSvr.Session.Shutdown
import PadSvr.Scripted.Observe

/-!
# Statements that do not look back

No statement of a session looks at what was recorded before it: from one state it does the same
whatever the trace is. So what is observed of a part of the program is what the part does.

## Main results

* `alike_doInter`, `alike_writensockint`, `alike_writeBack`: the calls that several parts share
* `alike_readMasterPart`, `alike_forwardPart`, ...: the parts of a round
* `alike_x29InvClear`: the clear request of the closing phases
-/

namespace PadSvr

open Scripted Scripted.Prog

theorem alike_stmt {α : Type} (f : Env → Session → Session × α) : Alike (stmt f) (stmt f) :=
  alike_step _

theorem alike_call {α : Type} (f : Env → Session → Option (Event × Session × α)) :
    Alike (call f) (call f) := alike_step _

theorem alike_setDone (n : ℕ) : Alike (setDone n) (setDone n) := alike_modify _

theorem alike_setLoc (f : Locals → Locals) : Alike (setLoc f) (setLoc f) := alike_modify _

/-! ## The flags -/

theorem alike_onFlag (up : Flags → Bool) {handle : SProg Unit} (hh : Alike handle handle)
    (ret ret₀ : ℤ) : Alike (onFlag up handle ret ret₀) (onFlag up handle ret ret₀) := by
  unfold onFlag
  refine (alike_stmt _).bind fun b => .ite ?_ (alike_pure _)
  exact hh.bind fun _ => alike_pure _

theorem alike_interHup : Alike interHup interHup := (alike_call _).bind fun _ => alike_stmt _

theorem alike_interChld : Alike interChld interChld := (alike_stmt _).bind fun _ => alike_stmt _

/-- The flags are handled by what they are, not by what was recorded. -/
theorem alike_doInter : Alike doInter doInter := by
  have halrm : Alike interAlrm interAlrm := alike_stmt _
  have hexit : Alike interExit interExit := alike_stmt _
  have hidle : Alike interIdle interIdle := alike_stmt _
  unfold doInter
  refine (alike_onFlag _ alike_interHup _ _).bind fun _ => ?_
  refine (alike_onFlag _ halrm _ _).bind fun _ => (alike_onFlag _ hexit _ _).bind fun _ => ?_
  exact (alike_onFlag _ hidle _ _).bind fun _ => alike_onFlag _ alike_interChld _ _

theorem alike_failed (n : ℕ) : Alike (failed n) (failed n) := by
  unfold failed
  refine alike_get.bind fun s => .ite ?_ (alike_setDone n)
  exact alike_doInter.bind fun _ => alike_pure _

theorem alike_wrError : Alike wrError wrError := (alike_setDone 10).bind fun _ => alike_pure _

/-! ## Writing whole buffers -/

theorem alike_writensockint {inter error : SProg ℤ} (hi : Alike inter inter)
    (he : Alike error error) (buf : List UInt8) (n : ℕ) :
    Alike (writensockint buf n inter error) (writensockint buf n inter error) := by
  have hfailed : ∀ v, Alike (writensockintFailed n inter error v)
      (writensockintFailed n inter error v) := by
    intro v
    unfold writensockintFailed
    refine alike_get.bind fun s => .ite ?_ (.ite (alike_pure _) ?_)
    · exact hi.bind fun _ => .ite (alike_pure _) (alike_pure _)
    · exact he.bind fun _ => alike_pure _
  unfold writensockint
  refine .ite (alike_pure _) (.iter (fun v => ?_) _)
  unfold writensockintRound
  refine .ite (alike_pure _) ((alike_call _).bind fun _ => ?_)
  exact .ite (hfailed _) (alike_pure _)

theorem alike_writen (data : List UInt8) :
    Alike (writen writeMaster data) (writen writeMaster data) := by
  unfold writen
  refine .iter (fun left => ?_) data
  unfold writenRound
  exact .ite (alike_pure _) ((alike_call _).bind fun _ => .ite (alike_pure _) (alike_pure _))

theorem alike_writeBack (data : List UInt8) : Alike (writeBack data) (writeBack data) := by
  unfold writeBack
  refine .iter (fun _ => ?_) ()
  refine (alike_writen data).bind fun iw => .ite ?_ (alike_pure _)
  exact (alike_failed 1).bind fun _ => alike_pure _

/-! ## The parts of a round -/

theorem alike_signalPart : Alike signalPart signalPart := by
  unfold signalPart
  refine alike_get.bind fun _ => .ite (alike_get.bind fun _ => ?_) (alike_pure _)
  exact (alike_call _).bind fun _ => alike_doInter.bind fun _ => alike_pure _

theorem alike_reventsPart : Alike reventsPart reventsPart := by
  have hdone : ∀ n, Alike (do setDone n; pure Ctl.leave : SProg Ctl)
      (do setDone n; pure Ctl.leave : SProg Ctl) := fun n =>
    (alike_setDone n).bind fun _ => alike_pure _
  have hhup : Alike masterHangup masterHangup := by
    unfold masterHangup
    exact alike_get.bind fun _ => .ite (alike_setDone 3) (alike_pure _)
  unfold reventsPart
  refine alike_get.bind fun _ => .ite (hdone 1) (hhup.bind fun _ => ?_)
  exact .ite (hdone 10) (.ite (hdone 2) (alike_pure _))

theorem alike_masterReceived (i : ℕ) : Alike (masterReceived i) (masterReceived i) := by
  unfold masterReceived
  refine alike_get.bind fun _ => .ite (alike_get.bind fun _ => ?_) ?_
  · exact (alike_writensockint alike_doInter alike_wrError _ _).bind fun _ => alike_modify _
  · refine (alike_setLoc _).bind fun _ => alike_get.bind fun _ => .ite ?_ ?_
    · exact (alike_setLoc _).bind fun _ => alike_stmt _
    · exact alike_step _

theorem alike_readMasterPart : Alike readMasterPart readMasterPart := by
  have hcall : Alike readMasterCall readMasterCall := by
    unfold readMasterCall
    exact alike_get.bind fun _ => .ite (alike_call _) (alike_call _)
  unfold readMasterPart
  refine alike_get.bind fun _ => .ite (hcall.bind fun i => ?_) (alike_pure _)
  exact .ite (alike_masterReceived _) (.ite (alike_setDone 6) (alike_failed 1))

theorem alike_forwardPart : Alike forwardPart forwardPart := by
  unfold forwardPart
  refine (alike_label _ _).bind fun _ => alike_get.bind fun s => .ite ?_ (alike_pure _)
  refine .ite (alike_modify _) ((alike_modify _).bind fun _ => alike_get.bind fun _ => ?_)
  exact (alike_writensockint alike_doInter alike_wrError _ _).bind fun _ => alike_modify _

/-! ## The closing phases -/

theorem alike_x29InvClear : Alike x29InvClear x29InvClear := by
  have hinter : Alike x29DoInter x29DoInter := by
    unfold x29DoInter
    refine (alike_onFlag _ alike_interHup _ _).bind fun _ => (alike_stmt _).bind fun _ => ?_
    refine .ite ((alike_stmt _).bind fun _ => alike_stop) ((alike_stmt _).bind fun _ => ?_)
    exact .ite ((alike_stmt _).bind fun _ => alike_stop) (alike_pure _)
  unfold x29InvClear controlWrite
  exact (alike_writensockint hinter (alike_pure _) _ _).bind fun _ => alike_pure _

end PadSvr
