import PadSvr.Monitor.Message
import PadSvr.Cfgfile
import PadSvr.Scripted.Wp

/-!
# The monitor

The monitor keeps its signals blocked except in `sigsuspend`, so whatever happens around it between
two of its statements only makes signals pending, lets child processes end, or puts messages of
sessions into the FIFO.

## Main definitions

* `Moni`: the monitor with the kernel's side of it, and the sessions around it
* `Arrival`: what can happen before a statement
* `walkTab`: a walk through the table, which is a fault when `Tab_first` does not point to it
* `sigsuspend`, `chldPart`, `hupPart`, `ioPart`, `usr1Part`: the parts of a round
* `doMonitor`: the loop
* `doMonitorTrace`: the trace of a run
* `TableFree E I J`: an assertion that has nothing to do with the table

## Main results

* `run_cases`, `arrive_induction`: what an arrival does, and what all of them before a statement do
* `wp_monitorCall`: the rule of a statement
* `wp_walkTab`, `wp_serveFifo`: the rules of a walk, and of a message that is served
* `TableFree.ioPart`, `TableFree.usr1Part`: the rules of these parts for anything but the table
-/

namespace PadSvr

open Scripted Scripted.Prog CString

/-- A set of the signals the monitor lets through: `SIGHUP`, `SIGCHLD`, `SIGIO` and `SIGUSR1`, also
`Flag_Hup`, `Flag_Chld`, `Flag_Io` and `Flag_Usr1`. -/
structure Sigs where
  hup : Bool := false
  chld : Bool := false
  io : Bool := false
  usr1 : Bool := false
deriving DecidableEq, Repr

namespace Sigs

/-- Signal by signal. -/
def zip (f : Bool → Bool → Bool) (a b : Sigs) : Sigs :=
  ⟨f a.hup b.hup, f a.chld b.chld, f a.io b.io, f a.usr1 b.usr1⟩

def union : Sigs → Sigs → Sigs := zip or
def inter : Sigs → Sigs → Sigs := zip and
def diff : Sigs → Sigs → Sigs := zip fun a b => a && !b

end Sigs

/-- How a process ended. -/
inductive WaitStatus
  | exited (code : ℕ)
  | signaled
deriving DecidableEq, Repr

/-- Where a session stands with the monitor. -/
inductive Phase
  | fresh
  | live
  | gone
deriving DecidableEq, Repr

/-- A session process, with its own copy of `Buf_fifo`. -/
structure Proc where
  client : Client
  bufFifo : List Char
  length_bufFifo : bufFifo.length = maxFifoMes
  phase : Phase

/-- The monitor, what the kernel holds for it, and the sessions. -/
structure Moni where
  pending : Sigs := {}
  flags : Sigs := {}
  /-- the bytes in the FIFO -/
  fifo : List Char := []
  tab : List Row := []
  /-- the address of the first row, as `malloc` returns it -/
  tabAt : ℕ
  tabFirst : ℕ := tabAt
  bufFifo : List Char := []
  procs : List Proc := []
  /-- the child processes, with the status of those that ended -/
  children : List (Option WaitStatus) := []
  cfg : Settings
  flagNeedStart : Bool := true
  /-- the variable `stat` of `do_monitor` -/
  stat : WaitStatus := .signaled

/-- What can happen before a statement: the next message of a session, a signal from outside, or
the end of a child process. -/
inductive Arrival
  | send (i : ℕ)
  | signal (g : Sigs)
  | ended (i : ℕ) (st : WaitStatus)
deriving DecidableEq, Repr

/-- The next message of a session: when it starts, and when it ends. -/
def Proc.send (p : Proc) : Proc × List Char :=
  have h (pts addr) : (sendPtsAddr true p.bufFifo p.client.pid pts addr).1.length = maxFifoMes :=
    (sendPtsAddr_snd p.length_bufFifo p.client.pid pts addr).2
  match p.phase with
  | .fresh =>
    ({ p with
        bufFifo := (p.client.enter p.bufFifo).1
        length_bufFifo := h p.client.pts (some p.client.addr)
        phase := .live }, (p.client.enter p.bufFifo).2)
  | .live =>
    ({ p with
        bufFifo := (p.client.leave p.bufFifo).1
        length_bufFifo := h ['-'] (some ['-'])
        phase := .gone }, (p.client.leave p.bufFifo).2)
  | .gone => (p, [])

/-- A write to the FIFO, which signals the monitor. -/
def Moni.post (s : Moni) (bytes : List Char) : Moni :=
  { s with fifo := s.fifo ++ bytes, pending := { s.pending with io := true } }

def Arrival.run : Arrival → Moni → Moni
  | .send i, s =>
    match s.procs[i]? with
    | none => s
    | some p =>
      if p.phase = .gone then s
      else { s with procs := s.procs.set i p.send.1 }.post p.send.2
  | .signal g, s => { s with pending := s.pending.union g }
  | .ended i st, s =>
    if s.children[i]? = some none then
      { s with
        children := s.children.set i (some st)
        pending := { s.pending with chld := true } }
    else s

section Send

variable {p : Proc}

theorem send_of_fresh (h : p.phase = .fresh) :
    p.send.1.client = p.client ∧ p.send.1.phase = .live ∧
      p.send.2 = (p.client.enter p.bufFifo).1 := by
  have hbytes := (sendPtsAddr_snd p.length_bufFifo p.client.pid p.client.pts
    (some p.client.addr)).1
  unfold Proc.send
  split
  · exact ⟨rfl, rfl, hbytes⟩
  · next h' => simp [h] at h'
  · next h' => simp [h] at h'

theorem send_of_live (h : p.phase = .live) :
    p.send.1.client = p.client ∧ p.send.1.phase = .gone ∧
      p.send.2 = (p.client.leave p.bufFifo).1 := by
  have hbytes := (sendPtsAddr_snd p.length_bufFifo p.client.pid ['-'] (some ['-'])).1
  unfold Proc.send
  split
  · next h' => simp [h] at h'
  · exact ⟨rfl, rfl, hbytes⟩
  · next h' => simp [h] at h'

/-- **What can happen before a statement**: a session writes a message, or signals become pending
and child processes end. -/
theorem run_cases (a : Arrival) (s : Moni) :
    (∃ (i : ℕ) (p : Proc), s.procs[i]? = some p ∧ p.phase ≠ .gone ∧
      a.run s = { s with procs := s.procs.set i p.send.1 }.post p.send.2) ∨
    ∃ g cs, a.run s = { s with pending := s.pending.union g, children := cs } := by
  have hnone : s = { s with pending := s.pending.union {}, children := s.children } := by
    simp [Sigs.union, Sigs.zip]
  cases a with
  | send i =>
    cases hi : s.procs[i]? with
    | none => exact Or.inr ⟨{}, s.children, by simpa [Arrival.run, hi] using hnone⟩
    | some p =>
      by_cases hgone : p.phase = .gone
      · exact Or.inr ⟨{}, s.children, by simpa [Arrival.run, hi, hgone] using hnone⟩
      · exact Or.inl ⟨i, p, hi, hgone, by simp [Arrival.run, hi, hgone]⟩
  | signal g => exact Or.inr ⟨g, s.children, rfl⟩
  | ended i st =>
    by_cases hc : s.children[i]? = some none
    · refine Or.inr ⟨{ chld := true }, s.children.set i (some st), ?_⟩
      simp [Arrival.run, hc, Sigs.union, Sigs.zip]
    · exact Or.inr ⟨{}, s.children, by simpa [Arrival.run, hc] using hnone⟩

end Send

/-- One entry of the script: what happens before a statement, and the answer to the call it
makes. -/
structure MEnv where
  before : List Arrival := []
  /-- `fork` succeeds -/
  fork : Bool := true
  /-- the signals whose handlers run before `sigsuspend` returns, as far as they are pending -/
  handled : Sigs := ⟨true, true, true, true⟩
  file : CfgFile := .missing false
  /-- the FIFO for the table can be opened -/
  rezult : Bool := false
  /-- the lines of the table that are written, each as a whole; the other calls of `writen` fail -/
  written : ℕ → Bool := fun _ => true

/-- The calls of the monitor. `suspended` is no call: the monitor is suspended, and no signal is
pending. `wait` is called in `waiting` and returns in `wait`. `fault` is no call either: a row is
read from where there is none. -/
inductive MEvent
  | fork
  | suspended
  | waiting
  | wait
  | reload (file : CfgFile)
  | readFifo (data : List Char)
  | upload (lines : List (List Char))
  | fault

abbrev MProg := Prog MEnv MEvent Moni

abbrev MRun := Run MEvent Moni

/-- The state after all that happens before a statement. -/
def arrive (e : MEnv) (s : Moni) : Moni := e.before.foldl (fun s a => a.run s) s

/-- A system call of the monitor: on `none` it does not return. -/
def monitorCall {α : Type} (f : MEnv → Moni → Option (MEvent × Moni × α)) : MProg α :=
  Prog.step fun e s => (f e (arrive e s)).map fun r => ([(r.1, arrive e s)], r.2.1, r.2.2)

/-- `fork`, when it is needed. In the child it does not return, and without one the monitor
exits. -/
def startMainWork : MProg Unit := do
  if (← get).flagNeedStart then
    monitorCall fun e s =>
      if e.fork then
        some (.fork, { s with children := s.children ++ [none], flagNeedStart := false }, ())
      else none

/-- `sigsuspend`: it returns once the handlers of some pending signals have run, of one at
least. -/
def sigsuspend : MProg Unit :=
  Prog.iter (fun () => Prog.step fun e s =>
    let s := arrive e s
    if s.pending = {} then some ([(.suspended, s)], s, .inl ())
    else
      -- not all handlers need to have run, but one at least
      let run := if e.handled.inter s.pending = {} then s.pending else e.handled.inter s.pending
      some ([], { s with pending := s.pending.diff run, flags := s.flags.union run }, .inr ())) ()

/-- `wait`: the status of a child process that ended. Without a child it fails, and while all of
them run it does not return. -/
def waitMainWork : MProg Unit := do
  monitorCall fun _ s => some (.waiting, s, ())
  monitorCall fun _ s =>
    match s.children.findIdx? Option.isSome with
    -- `stat` is written only when a child is there to be waited for
    | some i =>
      some (.wait, { s with
        children := s.children.eraseIdx i
        stat := (s.children.getD i none).getD s.stat }, ())
    | none => if s.children = [] then some (.wait, s, ()) else none

/-- Lines 87 to 106: a child process has ended. The result is `true` when the monitor stops. -/
def chldPart : MProg Bool := do
  if (← get).flags.chld then
    modify fun s => { s with flags := { s.flags with chld := false } }
    waitMainWork
    match (← get).stat with
    | .exited code =>
      -- an exit status of 0 or a signal stops the monitor, any other one starts the child again
      if code = 0 then pure true
      else
        modify fun s => { s with flagNeedStart := true }
        pure false
    | .signaled => pure true
  else pure false

/-- Lines 107 to 114: read the configuration file. A fault of `readcfg` ends the process. -/
def hupPart : MProg Unit := do
  if (← get).flags.hup then
    modify fun s => { s with flags := { s.flags with hup := false } }
    monitorCall fun e s =>
      match readcfg e.file s.cfg with
      | .error _ => none
      | .ok (_, c) => some (.reload e.file, { s with cfg := c }, ())

/-- `read(Fd_fifo, Buf_fifo, MAXFIFOMES)`, which does not wait, and `Buf_fifo[ir] = 0`. -/
def readFifoCall : MProg ℕ :=
  monitorCall fun _ s =>
    let data := s.fifo.take maxFifoMes
    if data = [] then some (.readFifo [], s, 0)
    else
      some (.readFifo data,
        { s with
          fifo := s.fifo.drop maxFifoMes
          bufFifo := readInto s.bufFifo data
          tabFirst := readBehind s.tabFirst data }, data.length)

/-- A walk through the table, from `Tab_first` on. -/
def walkTab : MProg Unit := do
  let s ← get
  if s.tabFirst = s.tabAt then pure ()
  else do
    label .fault
    Prog.stop

/-- A message with all fields is served. Both operations walk through the table. -/
def serveFifo : MProg Unit := do
  match fifoFields (← get).bufFifo with
  | none => pure ()
  | some _ => do
    walkTab
    modify fun s => { s with tab := serveMessage s.bufFifo s.tab }

/-- `read_fifo`: serve messages until there is none. -/
def readFifo : MProg Unit :=
  Prog.iter (fun () => do
    let ir ← readFifoCall
    if 0 < ir then do
      serveFifo
      pure (.inl ())
    else pure (.inr ())) ()

/-- Lines 115 to 118: there is something in the FIFO. -/
def ioPart : MProg Unit := do
  if (← get).flags.io then
    modify fun s => { s with flags := { s.flags with io := false } }
    readFifo

/-- The lines that `upload_pts_addr_tab` means to write. -/
def tabText (tab : List Row) : List (List Char) :=
  "Num\tPID\tPts\tX.25_addr\n".toList ::
    (tab.zipIdx.filterMap fun (r, i) =>
      if r.free then none
      else some (decimal i ++ '\t' :: r.pid ++ '\t' :: r.pts ++ '\t' :: r.addr ++ ['\n'])) ++
    ["End of table.\n".toList]

/-- `upload_pts_addr_tab`: the lines it writes. It goes on behind a `writen` that fails, and to the
first row only when the headings are done. -/
def uploadPtsAddrTab (written : ℕ → Bool) (s : Moni) : List (List Char) :=
  let lines := if s.tabFirst = s.tabAt then tabText s.tab else (tabText s.tab).take 1
  (lines.zipIdx.filter fun x => written x.2).map Prod.fst

/-- Lines 119 to 125: somebody asks for the table. -/
def usr1Part : MProg Unit := do
  if (← get).flags.usr1 then
    modify fun s => { s with flags := { s.flags with usr1 := false } }
    let opened ← monitorCall fun e s =>
      some (.upload (if e.rezult then uploadPtsAddrTab e.written s else []), s, e.rezult)
    if opened then walkTab else pure ()

/-- The loop of `do_monitor`. -/
def doMonitor : MProg Unit :=
  Prog.iter (fun () => do
    startMainWork
    sigsuspend
    if ← chldPart then pure (.inr ())
    else do
      hupPart
      ioPart
      usr1Part
      pure (.inl ())) ()

/-- The state at the start of the loop, with the row that `malloc` returned. -/
def doMonitorStart (s : Moni) (row : Row) : Moni :=
  { s with fifo := [], tab := openFifoRd row, tabFirst := s.tabAt, flagNeedStart := true }

/-- The trace of the loop under a script. -/
def doMonitorTrace (es : List MEnv) (s : Moni) (row : Row) : List (MEvent × Moni) :=
  (doMonitor es ⟨doMonitorStart s row, []⟩).1.trace

/-- What the arrivals keep one by one, they keep. -/
theorem arrive_induction {P : Moni → Prop} {e : MEnv} {s : Moni}
    (hP : ∀ s, ∀ a ∈ e.before, P s → P (a.run s)) (h : P s) : P (arrive e s) := by
  have key : ∀ (l : List Arrival), (∀ a ∈ l, a ∈ e.before) → ∀ s, P s →
      P (l.foldl (fun s a => a.run s) s) := by
    intro l
    induction l with
    | nil => exact fun _ _ h => h
    | cons a l ih =>
      intro hl s h
      exact ih (fun b hb => hl b (List.mem_cons_of_mem _ hb)) (a.run s)
        (hP s a (hl a (List.mem_cons_self ..)) h)
  exact key e.before (fun _ h => h) s h

theorem arrive_flagNeedStart (e : MEnv) (s : Moni) :
    (arrive e s).flagNeedStart = s.flagNeedStart := by
  refine arrive_induction (P := fun s' => s'.flagNeedStart = s.flagNeedStart) (fun s' a _ h => ?_)
    rfl
  rcases run_cases a s' with ⟨i, p, -, -, hr⟩ | ⟨g, cs, hr⟩
  · rw [hr]
    exact h
  · rw [hr]
    exact h

theorem wp_monitorCall {α : Type} {E : MEnv → Prop} {I : MRun → Prop} {w : MRun}
    {f : MEnv → Moni → Option (MEvent × Moni × α)} {Q : α → MRun → Prop} (hI : I w)
    (h : ∀ e, E e → ∀ r, f e (arrive e w.st) = some r →
      Q r.2.2 ⟨r.2.1, w.trace ++ [(r.1, arrive e w.st)]⟩) :
    wp E I (monitorCall f) Q w := by
  refine wp_step hI fun e he r hf => ?_
  obtain ⟨r', hf', rfl⟩ := Option.map_eq_some_iff.mp hf
  exact h e he r' hf'

section Walk

variable {E : MEnv → Prop} {I J : MRun → Prop} {w : MRun}

/-- A walk ends in a fault, or changes nothing. -/
theorem wp_walkTab {Q : Unit → MRun → Prop}
    (hfault : w.st.tabFirst ≠ w.st.tabAt → I ⟨w.st, w.trace ++ [(.fault, w.st)]⟩)
    (h : w.st.tabFirst = w.st.tabAt → Q () w) : wp E I walkTab Q w := by
  unfold walkTab
  refine wp_bind (wp_get ?_)
  split
  · next hat => exact wp_pure (h hat)
  · next hat => exact wp_bind (wp_label (wp_stop (hfault hat)))

/-- A message is served, unless the walk ends in a fault. -/
theorem wp_serveFifo {Q : Unit → MRun → Prop}
    (hfault : w.st.tabFirst ≠ w.st.tabAt → I ⟨w.st, w.trace ++ [(.fault, w.st)]⟩)
    (h : Q () ⟨{ w.st with tab := serveMessage w.st.bufFifo w.st.tab }, w.trace⟩) :
    wp E I serveFifo Q w := by
  unfold serveFifo
  refine wp_bind (wp_get ?_)
  split
  · next hf =>
    rw [serveMessage, hf] at h
    exact wp_pure h
  · exact wp_bind (wp_walkTab hfault fun _ => wp_modify h)

/-- The settings, the child processes and what `SIGCHLD` has left are the same. -/
structure SameProcesses (s' s : Moni) : Prop where
  cfg : s'.cfg = s.cfg
  children : s'.children = s.children
  pending : s'.pending = s.pending
  chld : s'.flags.chld = s.flags.chld
  flagNeedStart : s'.flagNeedStart = s.flagNeedStart

/-- The call is for the FIFO or the table. -/
inductive MEvent.ForTable : MEvent → Prop
  | readFifo (data) : ForTable (.readFifo data)
  | upload (lines) : ForTable (.upload lines)

/-- An assertion `J` that has nothing to do with the FIFO and the table, and `I` everywhere. -/
structure TableFree (E : MEnv → Prop) (I J : MRun → Prop) : Prop where
  everywhere : ∀ w, J w → I w
  state : ∀ w s, J w → SameProcesses s w.st → J ⟨s, w.trace⟩
  call : ∀ w e k, J w → E e → k.ForTable →
    J ⟨arrive e w.st, w.trace ++ [(k, arrive e w.st)]⟩
  fault : ∀ w, J w → I ⟨w.st, w.trace ++ [(.fault, w.st)]⟩

namespace TableFree

/-- A call for the FIFO or the table, and what it changes. -/
theorem monitorCall {α : Type} (h : TableFree E I J) {f : MEnv → Moni → Option (MEvent × Moni × α)}
    (hf : ∀ e s r, f e s = some r → r.1.ForTable ∧ SameProcesses r.2.1 s) :
    Restores E I J (monitorCall f) := fun w hw =>
  wp_monitorCall (h.everywhere w hw) fun e he r hr =>
    have ⟨hk, hs⟩ := hf e _ r hr
    h.state _ _ (h.call w e r.1 hw he hk) hs

theorem walkTab (h : TableFree E I J) : Restores E I J walkTab := fun w hw =>
  wp_walkTab (fun _ => h.fault w hw) fun _ => hw

/-- **The part of a round for `SIGIO`.** -/
theorem ioPart (h : TableFree E I J) : Restores E I J ioPart := by
  have hread : Restores E I J readFifoCall := h.monitorCall fun e s r hr => by
    dsimp only at hr
    split at hr
    · cases hr
      exact ⟨.readFifo _, rfl, rfl, rfl, rfl, rfl⟩
    · cases hr
      exact ⟨.readFifo _, rfl, rfl, rfl, rfl, rfl⟩
  have hserve : Restores E I J serveFifo := fun w hw =>
    wp_serveFifo (fun _ => h.fault w hw) (h.state w _ hw ⟨rfl, rfl, rfl, rfl, rfl⟩)
  unfold PadSvr.ioPart readFifo
  refine .bind .get fun s => .ite (.bind (fun w hw => wp_modify ?_) fun _ =>
    .iter h.everywhere (fun _ => ?_) _) .pure
  · exact h.state w _ hw ⟨rfl, rfl, rfl, rfl, rfl⟩
  · exact .bind hread fun _ => .ite (.bind hserve fun _ => .pure) .pure

/-- **The part of a round for `SIGUSR1`.** -/
theorem usr1Part (h : TableFree E I J) : Restores E I J usr1Part := by
  unfold PadSvr.usr1Part
  refine .bind .get fun s => .ite (.bind (fun w hw => wp_modify ?_) fun _ =>
    .bind (h.monitorCall fun e s r hr => ?_) fun _ => .ite h.walkTab .pure) .pure
  · exact h.state w _ hw ⟨rfl, rfl, rfl, rfl, rfl⟩
  · cases hr
    exact ⟨.upload _, rfl, rfl, rfl, rfl, rfl⟩

end TableFree

end Walk

end PadSvr
