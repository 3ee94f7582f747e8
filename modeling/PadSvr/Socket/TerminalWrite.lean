import PadSvr.Socket.Handlers
import PadSvr.Session.Inter
import PadSvr.Session.Oblivious
import PadSvr.Loops

/-!
# The retry loop of a terminal write

`do_copy` writes a packet to the master with `writen`, and begins again from its first byte as long
as `writen` fails. After an interrupt it calls `do_inter`, after another failure it sets `Done`, but
neither is asked before the next attempt.

## Main definitions

* `Surroundings.writen`, `Surroundings.writeBack`: the loop in any surroundings
* `terminalSurroundings`, `observedTerminal`: those of a session, and what is observed of them

## Main results

* `writeBack_eq_surroundings`: the retry loop of a session
* `alike_observedWriteBack`: what is observed of it is what it does
-/

namespace PadSvr

open Scripted Scripted.Prog

variable {ε κ σ : Type}

/-- One round of `writen`, over the bytes left. -/
def Surroundings.writenRound (x : Surroundings ε κ σ) (nbytes : ℕ) (left : List UInt8) :
    Prog ε κ σ (List UInt8 ⊕ ℤ) :=
  if left = [] then pure (.inr nbytes)
  else do
    let nwritten ← x.write left
    if nwritten ≤ 0 then pure (.inr (-1)) else pure (.inl (left.drop nwritten.toNat))

/-- `writen` over its surroundings. -/
def Surroundings.writen (x : Surroundings ε κ σ) (data : List UInt8) : Prog ε κ σ ℤ :=
  Prog.iter (x.writenRound data.length) data

/-- What is called after an attempt that has failed. -/
def Surroundings.handled (x : Surroundings ε κ σ) : Prog ε κ σ ℤ := do
  if x.interrupted (← Prog.get) then x.interHandler else x.errorHandler

/-- One attempt. What the handlers return is not looked at. -/
def Surroundings.attempt (x : Surroundings ε κ σ) (data : List UInt8) :
    Prog ε κ σ (Unit ⊕ Unit) := do
  let iw ← x.writen data
  if iw < 0 then do
    let _ ← x.handled
    pure (.inl ())
  else pure (.inr ())

/-- The retry loop over its surroundings. -/
def Surroundings.writeBack (x : Surroundings ε κ σ) (data : List UInt8) : Prog ε κ σ Unit :=
  Prog.iter (fun () => x.attempt data) ()

/-- The surroundings of the retry loop of a session. -/
def terminalSurroundings : Surroundings Env Event Session where
  write := writeMaster
  interrupted s := s.sys.errno = .eintr
  interHandler := doInter
  errorHandler := do
    setDone 1
    pure 0

/-- **The retry loop of a session** is the one over its surroundings. -/
theorem writeBack_eq_surroundings (data : List UInt8) :
    writeBack data = terminalSurroundings.writeBack data := by
  have hround : ∀ n, writenRound writeMaster n = terminalSurroundings.writenRound n := fun _ => rfl
  unfold writeBack Surroundings.writeBack Surroundings.attempt
  congr 1
  funext _
  rw [writen, hround, Surroundings.writen]
  -- only the handling of a failed attempt is written otherwise
  refine bind_congr fun iw => ?_
  split
  · unfold failed Surroundings.handled
    rw [bind_bind, bind_bind]
    refine bind_congr fun s => ?_
    simp only [terminalSurroundings, decide_eq_true_eq]
    split
    · rw [bind_bind]
      rfl
    · rfl
  · rfl

/-! ## What is observed of the loop -/

/-- The calls of the retry loop, each with the state it starts in. -/
abbrev TerminalTrace := List (SockCall × Session)

/-- What a write has come to. -/
def outcome (s : Session) (nwritten : ℤ) : Except Errno ℕ :=
  if nwritten < 0 then .error s.sys.errno else .ok nwritten.toNat

/-- A write to the master, recorded with what it has come to. -/
def observedWrite (data : List UInt8) : Prog Env SockCall Session ℤ :=
  observe (fun s r => .write data (outcome s r)) (writeMaster data)

/-- A call of `do_inter`, recorded with its result: 0 exactly when it has set `Done`. -/
def observedInter : Prog Env SockCall Session ℤ := observe (fun _ r => .interHandler r) doInter

/-- The branch of the other failures. -/
def observedError : Prog Env SockCall Session ℤ :=
  observe (fun _ r => .errorHandler r) terminalSurroundings.errorHandler

/-- The surroundings of the retry loop, every call recorded. -/
def observedTerminal : Surroundings Env SockCall Session where
  write := observedWrite
  interrupted := terminalSurroundings.interrupted
  interHandler := observedInter
  errorHandler := observedError

/-- Surroundings whose writes take an entry of the script, and whose calls make runs that longer
scripts continue. -/
structure Surroundings.Regular (x : Surroundings ε κ σ) : Prop where
  takes : ∀ data, Takes (x.write data)
  thriftyInter : Thrifty x.interHandler
  thriftyError : Thrifty x.errorHandler
  extendsWrite : ∀ data, Extends (x.write data)
  extendsInter : Extends x.interHandler
  extendsError : Extends x.errorHandler
  growsWrite : ∀ data, Grows (x.write data)
  growsInter : Grows x.interHandler
  growsError : Grows x.errorHandler

namespace Surroundings.Regular

variable {x : Surroundings ε κ σ} {data : List UInt8}

theorem productive_writen (hx : x.Regular) (n : ℕ) : Productive (x.writenRound n) := by
  intro left
  unfold Surroundings.writenRound
  refine .ite (again_inr _) (Takes.again ?_)
  exact (hx.takes left).bind fun _ => .ite (thrifty_pure _) (thrifty_pure _)

theorem productive_attempt (hx : x.Regular) (data : List UInt8) :
    Productive fun _ : Unit => x.attempt data := by
  have hhandled : Thrifty x.handled := by
    unfold Surroundings.handled
    exact thrifty_get.bind fun _ => .ite hx.thriftyInter hx.thriftyError
  intro _
  by_cases hd : data = []
  · -- there is nothing to write, and the first attempt is the last one
    subst hd
    exact again_inr ()
  · have htakes : Takes (x.writen data) := by
      refine (hx.productive_writen _).takes ?_
      rw [Surroundings.writenRound, if_neg hd]
      exact (hx.takes data).bind fun _ => .ite (thrifty_pure _) (thrifty_pure _)
    refine (htakes.bind fun iw => ?_).again
    exact .ite (hhandled.bind fun _ => thrifty_pure _) (thrifty_pure _)

theorem extends_attempt (hx : x.Regular) (data : List UInt8) : Extends (x.attempt data) := by
  have hwriten : Extends (x.writen data) := by
    refine (hx.productive_writen _).extends_iter (fun left => ?_) data
    unfold Surroundings.writenRound
    refine .ite (extends_pure _) ((hx.extendsWrite left).bind fun _ => ?_)
    exact .ite (extends_pure _) (extends_pure _)
  have hhandled : Extends x.handled := by
    unfold Surroundings.handled
    exact extends_get.bind fun _ => .ite hx.extendsInter hx.extendsError
  exact hwriten.bind fun _ => .ite (hhandled.bind fun _ => extends_pure _) (extends_pure _)

theorem grows_writen (hx : x.Regular) (n : ℕ) (left : List UInt8) :
    Grows (Prog.iter (x.writenRound n) left) := by
  intro t
  refine .iter (fun left => ?_) left
  unfold Surroundings.writenRound
  exact .ite .pure (.bind (hx.growsWrite left t) fun _ => .ite .pure .pure)

theorem grows_handled (hx : x.Regular) : Grows x.handled := by
  intro t
  unfold Surroundings.handled
  exact .bind .get fun _ => .ite (hx.growsInter t) (hx.growsError t)

theorem grows_writeBack (hx : x.Regular) (data : List UInt8) : Grows (x.writeBack data) := by
  intro t
  refine .iter (fun _ => ?_) ()
  unfold Surroundings.attempt
  refine .bind (hx.grows_writen _ data t) fun iw => .ite ?_ .pure
  exact .bind (hx.grows_handled t) fun _ => .pure

/-- **The first call of the loop is a write**, and it stays recorded. -/
theorem prefix_writeBack (hx : x.Regular) (hd : data ≠ []) {t : List (κ × σ)} {es : List ε}
    {w : Run κ σ} (h : t <+: (x.write data es w).1.trace) :
    t <+: (x.writeBack data es w).1.trace := by
  have hround : t <+: (x.writenRound data.length data es w).1.trace := by
    rw [Surroundings.writenRound, if_neg hd]
    exact prefix_bind (fun _ _ => .ite .pure .pure) h
  have hwriten : t <+: (x.writen data es w).1.trace := by
    rw [Surroundings.writen, iter_eq (hx.productive_writen _)]
    refine prefix_bind (fun r => ?_) hround
    rcases r with left | r
    · exact hx.grows_writen _ left
    · exact fun _ => .pure
  have hattempt : t <+: (x.attempt data es w).1.trace := by
    refine prefix_bind (fun iw t => .ite ?_ .pure) hwriten
    exact .bind (hx.grows_handled t) fun _ => .pure
  -- from the first round of `writen` to the first attempt, and from there to the loop
  rw [Surroundings.writeBack, iter_eq (hx.productive_attempt data)]
  refine prefix_bind (fun r => ?_) hattempt
  rcases r with _ | _
  · exact hx.grows_writeBack data
  · exact fun _ => .pure

end Surroundings.Regular

theorem extends_stmt {α : Type} (f : Env → Session → Session × α) : Extends (stmt f) :=
  extends_step _

theorem extends_call {α : Type} (f : Env → Session → Option (Event × Session × α)) :
    Extends (call f) := extends_step _

theorem extends_doInter : Extends doInter := by
  have hflag : ∀ (up : Flags → Bool) {handle : SProg Unit} (r r₀ : ℤ), Extends handle →
      Extends (onFlag up handle r r₀) := by
    intro up handle r r₀ hh
    have htest : Extends (test fun s => up s.flags) := extends_stmt _
    exact htest.bind fun _ => .ite (hh.bind fun _ => extends_pure _) (extends_pure _)
  have hassign : ∀ f, Extends (assign f) := fun _ => extends_stmt _
  have hreload : Extends reload := extends_call _
  have hchild : Extends recvExitStatus := extends_stmt _
  unfold doInter
  refine (hflag _ _ _ (hreload.bind fun _ => hassign _)).bind fun _ => ?_
  refine (hflag _ _ _ (hassign _)).bind fun _ => (hflag _ _ _ (hassign _)).bind fun _ => ?_
  exact (hflag _ _ _ (hassign _)).bind fun _ => hflag _ _ _ (hchild.bind fun _ => hassign _)

theorem regular_observedTerminal : observedTerminal.Regular :=
  have hset : Thrifty terminalSurroundings.errorHandler :=
    (thrifty_setDone 1).bind fun _ => thrifty_pure _
  have hset' : Extends terminalSurroundings.errorHandler :=
    (extends_modify _).bind fun _ => extends_pure _
  have hwrite : ∀ data, Takes (writeMaster data) := fun _ => takes_call _
  have hwrite' : ∀ data, Extends (writeMaster data) := fun _ => extends_call _
  { takes := fun data => show Takes (observedWrite data) from (hwrite data).observe _
    thriftyInter := show Thrifty observedInter from thrifty_doInter.observe _
    thriftyError := show Thrifty observedError from hset.observe _
    extendsWrite := fun data => show Extends (observedWrite data) from (hwrite' data).observe _
    extendsInter := show Extends observedInter from extends_doInter.observe _
    extendsError := show Extends observedError from hset'.observe _
    growsWrite := fun data => show Grows (observedWrite data) from grows_observe _ _
    growsInter := show Grows observedInter from grows_observe _ _
    growsError := show Grows observedError from grows_observe _ _ }

/-- As soon as the script has an entry, the loop begins with a write of the whole packet. -/
theorem exists_write_prefix {data : List UInt8} (hd : data ≠ []) (e : Env) (es : List Env)
    (w : Run SockCall Session) :
    ∃ res, w.trace ++ [(.write data res, w.st)] <+:
      (observedTerminal.writeBack data (e :: es) w).1.trace := by
  have hfirst : ∃ res, w.trace ++ [(SockCall.write data res, w.st)] <+:
      (observedWrite data (e :: es) w).1.trace := by
    unfold observedWrite observe writeMaster call
    rcases hk : e.wmaster with er | k
    · exact ⟨_, by simp only [Prog.step, hk]; exact List.prefix_refl _⟩
    · exact ⟨_, by simp only [Prog.step, hk]; exact List.prefix_refl _⟩
  obtain ⟨res, h⟩ := hfirst
  exact ⟨res, regular_observedTerminal.prefix_writeBack hd h⟩

/-- **What is observed of the loop is what it does**: it reaches the states of the loop, and returns
when it does. -/
theorem alike_observedWriteBack (data : List UInt8) :
    Alike (writeBack data) (observedTerminal.writeBack data) := by
  have hwrite : ∀ d, Alike (writeMaster d) (observedWrite d) := fun d =>
    alike_observe (alike_step _) _
  have hinter : Alike doInter observedInter := alike_observe alike_doInter _
  have herror : Alike terminalSurroundings.errorHandler observedError :=
    alike_observe (.bind (alike_modify _) fun _ => alike_pure _) _
  rw [writeBack_eq_surroundings]
  refine .iter (fun _ => ?_) ()
  refine .bind (.iter (fun left => ?_) data) fun iw => .ite ?_ (alike_pure _)
  · refine .ite (alike_pure _) (.bind (hwrite left) fun _ => ?_)
    exact .ite (alike_pure _) (alike_pure _)
  · refine .bind (.bind alike_get fun s => ?_) fun _ => alike_pure _
    exact .ite hinter herror

end PadSvr
