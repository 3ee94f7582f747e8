import PadSvr.Monitor.DoMonitor
import PadSvr.Process.AcceptSignals
import PadSvr.Process.Serve

/-!
# The command `reread`

`gopt` sends the same signal to all processes of the group. Each of them has a table of handlers of
its own, and looks at the flags of its own role. `SIGUSR1` has one handler, which the monitor
installs and all processes below inherit, and its flag asks for the table of pseudo terminals.

## Main definitions

* `gopt`: what the arguments of the command ask for
* `Group`: the processes of a running daemon
* `Group.Checked`: each has run its handler and its next flag checks
* `Group.Reloaded`: each has called `readcfg` there

## Main results

* `reread_reloads_iff`: they do exactly where a `SIGHUP` came too
-/

namespace PadSvr

open Scripted Scripted.Prog

/-- `MAXFILENAME`. -/
def maxFileName : ℕ := 200

/-- What `gopt` does. -/
inductive Chosen
  | start
  | cfgFile (name : List Char)
  | killpg (pid : ℤ) (g : Signo)
  | exit (kod : ℕ)
deriving DecidableEq, Repr

/-- `gopt`, of the arguments behind the name of the program. The result of `exist_pid` is `wpid`. -/
def gopt (args : List (List Char)) (wpid : ℤ) : Chosen :=
  match args with
  | [] => .start
  | [a] =>
    if a = "stop".toList then
      if wpid = 0 then .exit 1 else .killpg wpid .sigterm
    else if a = "reread".toList then
      if wpid = 0 then .exit 1 else .killpg wpid .sigusr1
    else if a.length < maxFileName then .cfgFile a
    else .start
  | _ => .exit 1

/-- The flags of the monitor that a handler raises. -/
def Handler.sigs : Handler → Sigs
  | .moniSigHup | .bossSigHup | .chilSigHup => { hup := true }
  | .moniSigChld | .bossSigChld | .chilSigChld => { chld := true }
  | .moniSigIo => { io := true }
  | .moniSigUsr1 => { usr1 := true }
  | _ => {}

/-! ## The members of the group -/

/-- A handler of the monitor runs in `sigsuspend`. -/
def Moni.take (g : Signo) (s : Moni) : Moni :=
  { s with flags := s.flags.union ((moniTable g).elim {} Handler.sigs) }

/-- The flag checks of the monitor. -/
def moniChecks : MProg Unit := do
  if ← chldPart then pure ()
  else do
    hupPart
    ioPart
    usr1Part

/-- The processes of a running daemon: the monitor in `sigsuspend`, the accepting process in
`accept`, and sessions in the `poll` of `do_copy`. -/
structure Group where
  monitor : Moni
  acceptor : Acceptor
  sessions : List Process
  /-- the accepting process has not ended -/
  flagChld : monitor.flags.chld = false
  tab : ∀ p ∈ sessions, p.tab = chilTable
  pipeOpen : ∀ p ∈ sessions, p.pipeOpen = true

/-- The scripts of the flag checks. -/
structure Checks where
  monitor : List MEnv
  acceptor : List AEnv
  session : ℕ → List PEnv

/-- The handler for `g` ends `sigsuspend`. -/
def moniRun (g : Signo) (es : List MEnv) (s : Moni) : MRun × Option (Unit × List MEnv) :=
  moniChecks es ⟨s.take g, []⟩

/-- The handler for `g` ends `accept`. -/
def accRun (g : Signo) (es : List AEnv) (s : Acceptor) : ARun × Option (Unit × List AEnv) :=
  bossInter es ⟨(Coming.signal g).run s, []⟩

/-- The handler for `g` ends `poll`. -/
def sessRun (g : Signo) (es : List PEnv) (p : Process) : PRun × Option (ℤ × List PEnv) :=
  part doInter es ⟨(Incident.signal g).run p, []⟩

def MEvent.isReload : MEvent → Bool
  | .reload _ => true
  | _ => false

def AEvent.isReload : AEvent → Bool
  | .readcfg _ => true
  | _ => false

def PEvent.isReload : PEvent → Bool
  | .sys (.reload _) => true
  | _ => false

/-- Each member has run its handler for `g`, and its next flag checks. -/
structure Group.Checked (G : Group) (g : Signo) (x : Checks) : Prop where
  monitor : (moniRun g x.monitor G.monitor).2.isSome
  acceptor : (accRun g x.acceptor G.acceptor).2.isSome
  session : ∀ i p, G.sessions[i]? = some p → (sessRun g (x.session i) p).2.isSome

/-- Each member has called `readcfg`, and closed and reopened its log file. -/
structure Group.Reloaded (G : Group) (g : Signo) (x : Checks) : Prop where
  monitor : occurs MEvent.isReload (moniRun g x.monitor G.monitor).1.trace
  acceptor : occurs AEvent.isReload (accRun g x.acceptor G.acceptor).1.trace
  session : ∀ i p, G.sessions[i]? = some p →
    occurs PEvent.isReload (sessRun g (x.session i) p).1.trace

/-- `SIGHUP` comes in `do_inter` before the test of `Flag_Hup`. -/
def AEvent.isHup : AEvent → Bool
  | .arrived pl (.signal .sighup) => pl.rank ≤ Place.hupTest.rank
  | _ => false

/-- Each member has got a `SIGHUP` too, before it tests `Flag_Hup`. -/
structure Group.Hup (G : Group) (g : Signo) (x : Checks) : Prop where
  monitor : G.monitor.flags.hup = true
  acceptor : G.acceptor.flags.hup = true ∨
    occurs AEvent.isHup (accRun g x.acceptor G.acceptor).1.trace
  session : ∀ i p, G.sessions[i]? = some p →
    ((x.session i).head?.any fun e => (p.meet e).sess.flags.hup) = true

/-! ## The monitor -/

section Monitor

variable {α : Type} {b : Bool}

/-- The number of reloads does not change. -/
abbrev ReloadsM (b : Bool) (w : MRun) : Prop := occurs MEvent.isReload w.trace = b

theorem tableFree_reloads : TableFree (fun _ => True) (fun _ => True) (ReloadsM b) where
  everywhere _ _ := trivial
  state _ _ h _ := h
  call _ _ _ h _ hk := by
    cases hk with
    | readFifo data => simpa [ReloadsM, MEvent.isReload] using h
    | upload lines => simpa [ReloadsM, MEvent.isReload] using h
  fault _ _ := trivial

/-- `Flag_Hup` is up: the monitor reloads. -/
theorem wp_hupPart_reloads {w : MRun} (hw : ReloadsM false w) :
    wp (fun _ => True) (fun _ => True) hupPart (fun _ => ReloadsM w.st.flags.hup) w := by
  unfold hupPart
  refine wp_bind (wp_get ?_)
  split
  · next hup =>
    refine wp_bind (wp_modify (wp_monitorCall trivial fun e _ r hr => ?_))
    split at hr
    · cases hr
    · cases hr
      simp [ReloadsM, hup, MEvent.isReload]
  · next hdown =>
    have hfalse : w.st.flags.hup = false := by simpa using hdown
    rw [hfalse]
    exact wp_pure hw

/-- The monitor reloads exactly when `Flag_Hup` is up. -/
theorem moniChecks_reloads {s : Moni} (hchld : s.flags.chld = false) {es es' : List MEnv}
    {w : MRun} (hr : moniChecks es ⟨s, []⟩ = (w, some ((), es'))) :
    occurs MEvent.isReload w.trace = s.flags.hup := by
  have hwp : wp (fun _ => True) (fun _ => True) moniChecks
      (fun _ => ReloadsM s.flags.hup) ⟨s, []⟩ := by
    unfold moniChecks chldPart
    refine wp_bind (wp_bind (wp_get ?_))
    rw [if_neg (by simp [hchld])]
    refine wp_pure ?_
    rw [if_neg (by simp)]
    refine wp_seq (wp_hupPart_reloads rfl) fun _ w₁ h₁ => ?_
    exact wp_seq (tableFree_reloads.ioPart w₁ h₁) fun _ w₂ h₂ => tableFree_reloads.usr1Part w₂ h₂
  exact post_of_wp hwp (fun _ _ => trivial) hr

end Monitor

/-! ## The accepting process -/

section Acceptor

variable {α : Type}

/-- Before the test of `Flag_Hup`: the flag is up when it was up at first or a `SIGHUP` came. -/
structure Untested (up : Bool) (w : ARun) : Prop where
  unread : occurs AEvent.isReload w.trace = false
  hup : w.st.flags.hup = (occurs AEvent.isHup w.trace || up)

/-- Behind it. -/
def Tested (up : Bool) (w : ARun) : Prop :=
  occurs AEvent.isReload w.trace = (occurs AEvent.isHup w.trace || up)

variable {up : Bool} {w : ARun}

theorem hup_signal (g : Signo) (s : Acceptor) :
    ((Coming.signal g).run s).flags.hup = (decide (g = .sighup) || s.flags.hup) := by
  cases g <;> rfl

theorem isHup_signal {pl : Place} (hpl : pl.rank ≤ Place.hupTest.rank) (g : Signo) :
    (AEvent.arrived pl (.signal g)).isHup = decide (g = .sighup) := by
  cases g <;> simp [AEvent.isHup, hpl]

theorem isHup_later {pl : Place} (hpl : Place.hupTest.rank < pl.rank) (c : Coming) :
    (AEvent.arrived pl c).isHup = false := by
  have hlt : ¬ pl.rank ≤ Place.hupTest.rank := by omega
  cases c with
  | ends i => rfl
  | signal g => cases g <;> simp [AEvent.isHup, hlt]

/-- What comes before a statement up to the test. -/
theorem Untested.come (h : Untested up w) {pl : Place} (hpl : pl.rank ≤ Place.hupTest.rank)
    (c : Coming) : Untested up (w.come pl c) := by
  refine ⟨by simp [h.unread, AEvent.isReload], ?_⟩
  rw [occurs_append, occurs_singleton]
  cases c with
  | ends i => simp [ends_flags, h.hup, AEvent.isHup]
  | signal g =>
    rw [hup_signal, isHup_signal hpl, h.hup, ← Bool.or_assoc, Bool.or_comm (decide _)]

/-- What comes before a statement behind the test. -/
theorem Tested.come (h : Tested up w) {pl : Place} (hpl : Place.hupTest.rank < pl.rank)
    (c : Coming) : Tested up (w.come pl c) := by
  rw [Tested, occurs_append, occurs_append, occurs_singleton, occurs_singleton, isHup_later hpl]
  simpa [AEvent.isReload] using (show _ = _ from h)

section Inter

/-- A statement up to the test. -/
theorem wp_astmt_untested (pl : Place)
    {f : AEnv → Acceptor → Option (List AEvent × Acceptor × α)} {Q : α → ARun → Prop}
    (h : Untested up w) (hpl : pl.rank ≤ Place.hupTest.rank)
    (hf : ∀ w, Untested up w → ∀ e r, f e w.st = some r →
      Q r.2.2 ⟨r.2.1, w.trace ++ r.1.map fun k => (k, w.st)⟩) :
    wp anyAnswer (fun _ => True) (astmt pl f) Q w :=
  wp_astmt h trivial (fun _ h c => h.come hpl c) fun w h e _ r hr => hf w h e r hr

/-- A statement behind it. -/
theorem wp_astmt_tested (pl : Place)
    {f : AEnv → Acceptor → Option (List AEvent × Acceptor × α)} {Q : α → ARun → Prop}
    (h : Tested up w) (hpl : Place.hupTest.rank < pl.rank)
    (hf : ∀ w, Tested up w → ∀ e r, f e w.st = some r →
      Q r.2.2 ⟨r.2.1, w.trace ++ r.1.map fun k => (k, w.st)⟩) :
    wp anyAnswer (fun _ => True) (astmt pl f) Q w :=
  wp_astmt h trivial (fun _ h c => h.come hpl c) fun w h e _ r hr => hf w h e r hr

theorem wp_reapAll_untested (h : Untested up w) :
    wp anyAnswer (fun _ => True) reapAll (fun _ => Untested up) w := by
  unfold reapAll
  refine wp_iter (fun _ => Untested up) (fun _ _ _ => trivial) (fun _ w h => ?_) h
  refine wp_bind (wp_astmt_untested .waitpid h (by decide) fun w h e r hr => ?_)
  have hreap : ∀ s b, s.flags = w.st.flags → Untested up ⟨s, w.trace ++ [(.waitpid b, w.st)]⟩ :=
    fun s b hs => ⟨by simp [h.unread, AEvent.isReload], by simp [hs, h.hup, AEvent.isHup]⟩
  dsimp only at hr
  split at hr
  · cases hr
    exact wp_pure (hreap _ _ rfl)
  · split at hr
    · cases hr
      exact wp_pure (hreap _ _ rfl)
    · cases hr
      exact wp_pure (hreap _ _ rfl)

theorem wp_bossChld_untested (h : Untested up w) :
    wp anyAnswer (fun _ => True) bossChld (fun _ => Untested up) w := by
  unfold bossChld
  refine wp_bind (wp_astmt_untested .chldTest h (by decide) fun w h e r hr => ?_)
  cases hr
  simp only [List.map_nil, List.append_nil]
  split
  · refine wp_seq (wp_reapAll_untested h) fun _ w h => ?_
    refine wp_astmt_untested .chldClear h (by decide) fun w h e r hr => ?_
    cases hr
    simpa using ⟨h.unread, h.hup⟩
  · exact wp_pure h

theorem wp_bossHup_tested (h : Untested up w) :
    wp anyAnswer (fun _ => True) bossHup (fun _ => Tested up) w := by
  unfold bossHup
  refine wp_bind (wp_astmt_untested .hupTest h le_rfl fun w h e r hr => ?_)
  cases hr
  simp only [List.map_nil, List.append_nil]
  split
  · next hup =>
    have hdue : (occurs AEvent.isHup w.trace || up) = true := h.hup.symm.trans hup
    refine wp_bind (wp_astmt (P := fun w => (occurs AEvent.isHup w.trace || up) = true) hdue trivial
      (fun w hw c => ?_) fun w hw e _ r hr => ?_)
    · rw [occurs_append, Bool.or_right_comm, hw]
      rfl
    · split at hr
      · cases hr
      · cases hr
        have htested : ∀ s, Tested up ⟨s, w.trace ++ [(.readcfg e.file, w.st)]⟩ := by
          intro s
          simpa [Tested, AEvent.isReload, AEvent.isHup] using hw
        refine wp_astmt_tested .hupClear (htested _) (by decide) fun w h e r hr => ?_
        cases hr
        rw [List.map_nil, List.append_nil]
        exact h
  · next hdown =>
    refine wp_pure (h.unread.trans ?_)
    rw [← h.hup]
    exact (Bool.eq_false_iff.mpr hdown).symm

/-- The rest of `do_inter`. -/
theorem wp_flag_tested {test clear : Place} {f : Flags → Bool} {act : Acceptor → Acceptor}
    (htest : Place.hupTest.rank < test.rank) (hclear : Place.hupTest.rank < clear.rank)
    (h : Tested up w) :
    wp anyAnswer (fun _ => True) (do if ← atest test f then aassign clear act else pure ())
      (fun _ => Tested up) w := by
  have hsame : ∀ {w : ARun} {s : Acceptor}, Tested up w → Tested up ⟨s, w.trace⟩ := fun h => h
  refine wp_bind (wp_astmt_tested test h htest fun w h e r hr => ?_)
  cases hr
  simp only [List.map_nil, List.append_nil]
  split
  · refine wp_astmt_tested clear h hclear fun w h e r hr => ?_
    cases hr
    simpa using hsame h
  · exact wp_pure h

/-- The accepting process reloads exactly when `Flag_Hup` is up at its test. -/
theorem bossInter_reloads {s : Acceptor} {es es' : List AEnv} {w : ARun}
    (hr : bossInter es ⟨s, []⟩ = (w, some ((), es'))) :
    occurs AEvent.isReload w.trace = (occurs AEvent.isHup w.trace || s.flags.hup) := by
  have hwp : wp anyAnswer (fun _ => True) bossInter (fun _ => Tested s.flags.hup) ⟨s, []⟩ := by
    unfold bossInter
    refine wp_seq (wp_bossChld_untested ⟨rfl, rfl⟩) fun _ w h => ?_
    refine wp_seq (wp_bossHup_tested h) fun _ w h => ?_
    refine wp_seq (wp_flag_tested (by decide) (by decide) h) fun _ w h => ?_
    exact wp_flag_tested (by decide) (by decide) h
  exact post_of_wp hwp (fun _ _ => trivial) hr

end Inter

end Acceptor

/-! ## A session -/

section Session

/-- A reload, among the calls of the session. -/
def Event.isReload : Event → Bool
  | .reload _ => true
  | _ => false

theorem occurs_after (w : PRun) (w₁ : SRun) :
    occurs PEvent.isReload (after w w₁).trace =
      (occurs PEvent.isReload w.trace || occurs Event.isReload w₁.trace) := by
  have hmap : occurs PEvent.isReload (w₁.trace.map fun x => (.sys x.1, w.st.hold x.2)) =
      occurs Event.isReload w₁.trace := by
    rw [occurs, List.any_map, occurs]
    congr 1
    funext x
    rcases x with ⟨_ | _, _⟩ <;> rfl
  exact (occurs_append _ _ _).trans (by rw [hmap])

variable {b : Bool}

abbrev ReloadsS (b : Bool) (w : SRun) : Prop := occurs Event.isReload w.trace = b

theorem keeps_stmt_reloads {α : Type} {f : Env → Session → Session × α} :
    Keeps (fun _ => True) (ReloadsS b) (stmt f) := fun _ hw => wp_stmt hw fun _ _ => hw

theorem keeps_onFlag_reloads {up : Flags → Bool} {handle : SProg Unit} {ret ret₀ : ℤ}
    (h : Keeps (fun _ => True) (ReloadsS b) handle) :
    Keeps (fun _ => True) (ReloadsS b) (onFlag up handle ret ret₀) :=
  .bind keeps_stmt_reloads fun _ => .ite (.bind h fun _ => .pure) .pure

/-- Reload, if the flag is up. -/
def reloadIf (up : Bool) : SProg ℤ :=
  if up then do
    interHup
    pure 1
  else pure 1

/-- `do_inter` behind its first test. -/
def hupRest (up : Bool) : SProg ℤ := do
  let ret ← reloadIf up
  let ret ← onFlag Flags.alrm interAlrm 0 ret
  let ret ← onFlag Flags.exit interExit 0 ret
  let ret ← onFlag Flags.idle interIdle ret ret
  onFlag Flags.chld interChld ret ret

theorem wp_hupRest {w : SRun} (up : Bool) (hw : ReloadsS false w) :
    wp (fun _ => True) (fun _ => True) (hupRest up) (fun _ => ReloadsS up) w := by
  have hhup : wp (fun _ => True) (fun _ => True) (reloadIf up) (fun _ => ReloadsS up) w := by
    cases up with
    | false => exact wp_pure hw
    | true =>
      refine wp_bind (wp_bind (wp_call trivial fun e _ r hr => ?_))
      split at hr
      · cases hr
      · cases hr
        refine wp_stmt trivial fun e _ => wp_pure ?_
        simp [ReloadsS, Event.isReload]
  refine wp_seq hhup fun ret w h => ?_
  have hflags : ∀ ret, Keeps (fun _ => True) (ReloadsS up) (do
      let ret ← onFlag Flags.alrm interAlrm 0 ret
      let ret ← onFlag Flags.exit interExit 0 ret
      let ret ← onFlag Flags.idle interIdle ret ret
      onFlag Flags.chld interChld ret ret) := by
    intro ret
    unfold interAlrm interExit interIdle interChld assign
    exact .bind (keeps_onFlag_reloads keeps_stmt_reloads) fun _ =>
      .bind (keeps_onFlag_reloads keeps_stmt_reloads) fun _ =>
      .bind (keeps_onFlag_reloads keeps_stmt_reloads) fun _ =>
        keeps_onFlag_reloads (.bind keeps_stmt_reloads fun _ => keeps_stmt_reloads)
  exact wp_mono (hflags ret w h) (fun _ _ => trivial) fun _ _ h => h

/-- A session reloads exactly when `Flag_Hup` is up at the first statement of `do_inter`. -/
theorem doInter_reloads {s : Session} {es es' : List Env} {w : SRun} {ret : ℤ}
    (hr : doInter es ⟨s, []⟩ = (w, some (ret, es'))) :
    occurs Event.isReload w.trace = es.head?.any fun e => (deliver e s).flags.hup := by
  cases es with
  | nil => cases hr
  | cons e es =>
    have hrest : doInter (e :: es) ⟨s, []⟩ = hupRest (deliver e s).flags.hup es ⟨deliver e s, []⟩ :=
      rfl
    rw [hrest] at hr
    exact post_of_wp (wp_hupRest _ rfl) (fun _ _ => trivial) hr

/-- The session of a process with the handlers of a session. -/
theorem part_doInter_reloads {p : Process} (ht : p.tab = chilTable) (ho : p.pipeOpen = true)
    {es : List PEnv} (hdone : (part doInter es ⟨p, []⟩).2.isSome) :
    occurs PEvent.isReload (part doInter es ⟨p, []⟩).1.trace =
      es.head?.any fun e => (p.meet e).sess.flags.hup := by
  have hsettled : p.Settled :=
    ⟨ht ▸ proper_chilTable, fun _ _ _ hg => chilTable_pipes (ht ▸ hg)⟩
  have hhold : ∀ s, p.hold s = { p with sess := s } := fun s => by rw [Process.hold, if_pos ho]
  have hmeet : ∀ e, (p.meet e).sess = deliver (PEnv.entry p e) p.sess := by
    intro e
    have h := meet_hold hsettled e p.sess
    rw [hhold, hhold] at h
    exact congrArg Process.sess h
  have hrun : part doInter es ⟨p, []⟩ = zoom (PEnv.entry p) Process.sess Process.hold PEvent.sys
      doInter es ⟨p, []⟩ := rfl
  rw [hrun] at hdone ⊢
  unfold zoom at hdone ⊢
  dsimp only at hdone ⊢
  rcases hr : doInter (es.map (PEnv.entry p)) ⟨p.sess, []⟩ with ⟨w, _ | ⟨ret, es'⟩⟩
  · rw [hr] at hdone
    cases hdone
  · rw [occurs_after, doInter_reloads hr]
    cases es with
    | nil => rfl
    | cons e es => simp [hmeet]

end Session

/-! ## The group -/

/-- In the monitor, `SIGUSR1` raises a flag that asks for no reload. -/
theorem moniRun_usr1 {s : Moni} (hchld : s.flags.chld = false) {es : List MEnv}
    (hdone : (moniRun .sigusr1 es s).2.isSome) :
    occurs MEvent.isReload (moniRun .sigusr1 es s).1.trace = s.flags.hup := by
  have hchld' : (s.take .sigusr1).flags.chld = false := by
    rw [← hchld]
    exact Bool.or_false _
  have hhup : (s.take .sigusr1).flags.hup = s.flags.hup := Bool.or_false _
  rcases hr : moniRun .sigusr1 es s with ⟨w, _ | ⟨⟨⟩, es'⟩⟩
  · rw [hr] at hdone
    cases hdone
  · rw [← hhup]
    exact moniChecks_reloads hchld' hr

/-- In the accepting process it raises none that `do_inter` looks at. -/
theorem accRun_usr1 {s : Acceptor} {es : List AEnv} (hdone : (accRun .sigusr1 es s).2.isSome) :
    occurs AEvent.isReload (accRun .sigusr1 es s).1.trace =
      (occurs AEvent.isHup (accRun .sigusr1 es s).1.trace || s.flags.hup) := by
  rcases hr : accRun .sigusr1 es s with ⟨w, _ | ⟨⟨⟩, es'⟩⟩
  · rw [hr] at hdone
    cases hdone
  · exact bossInter_reloads hr

/-- Nor in a session. -/
theorem sessRun_usr1 {p : Process} (ht : p.tab = chilTable) (ho : p.pipeOpen = true)
    {es : List PEnv} (hdone : (sessRun .sigusr1 es p).2.isSome) :
    occurs PEvent.isReload (sessRun .sigusr1 es p).1.trace =
      es.head?.any fun e => (p.meet e).sess.flags.hup := by
  have hrun : (Incident.signal .sigusr1).run p = p := by
    rw [Incident.run, ht]
    rfl
  rw [sessRun, hrun] at hdone ⊢
  exact part_doInter_reloads ht ho hdone

/-- **`reread`** makes the members of the group reload exactly where each of them has got a `SIGHUP`
too: what `gopt` sends raises `Flag_Hup` in none of them. -/
theorem reread_reloads_iff {G : Group} {wpid pid : ℤ} {g : Signo} {x : Checks}
    (hg : gopt ["reread".toList] wpid = .killpg pid g) (hx : G.Checked g x) :
    G.Reloaded g x ↔ G.Hup g x := by
  have hsig : g = .sigusr1 := by
    by_cases hw : wpid = 0
    · simp [gopt, hw] at hg
    · simp only [gopt, hw] at hg
      exact (Chosen.killpg.inj hg).2.symm
  subst hsig
  have hmoni := moniRun_usr1 G.flagChld hx.monitor
  have hacc := accRun_usr1 hx.acceptor
  have hsess : ∀ i p, G.sessions[i]? = some p →
      occurs PEvent.isReload (sessRun .sigusr1 (x.session i) p).1.trace =
        (x.session i).head?.any fun e => (p.meet e).sess.flags.hup := by
    intro i p hp
    have hmem := List.mem_of_getElem? hp
    exact sessRun_usr1 (G.tab p hmem) (G.pipeOpen p hmem) (hx.session i p hp)
  constructor
  · rintro ⟨h₁, h₂, h₃⟩
    refine ⟨hmoni ▸ h₁, ?_, fun i p hp => hsess i p hp ▸ h₃ i p hp⟩
    rw [hacc, Bool.or_eq_true] at h₂
    exact h₂.symm
  · rintro ⟨h₁, h₂, h₃⟩
    refine ⟨hmoni.trans h₁, ?_, fun i p hp => (hsess i p hp).trans (h₃ i p hp)⟩
    rw [hacc, Bool.or_eq_true]
    exact h₂.symm

/-- A session that polls. -/
def smallSession : Process where
  role := .session
  pid := 3
  tab := chilTable
  pipeOpen := true
  sess := .fresh 1 8

/-- A daemon with one session. -/
def smallGroup (hup : Bool) : Group where
  monitor := { tabAt := 0x55d0c0a0f200, cfg := .defaults, flags := { hup } }
  acceptor := { cfg := .defaults, flags := { hup } }
  sessions := [smallSession]
  flagChld := rfl
  tab := by simp [smallSession]
  pipeOpen := by simp [smallSession]

/-- The scripts of checks, with what comes before the statements of the session. -/
def smallChecks (is : List Incident) : Checks where
  monitor := List.replicate 8 ({} : MEnv)
  acceptor := List.replicate 8 ({} : AEnv)
  session _ := List.replicate 8 { before := is }

theorem forall_smallSession {hup : Bool} {P : ℕ → Process → Prop} (h : P 0 smallSession) :
    ∀ i p, (smallGroup hup).sessions[i]? = some p → P i p := by
  intro i p hp
  rcases i with _ | i
  · obtain rfl := Option.some.inj hp
    exact h
  · cases hp

/-- `SIGHUP` has come to all of them. -/
theorem reread_reloads_hup :
    (smallGroup true).Reloaded .sigusr1 (smallChecks [.signal .sighup]) :=
  (reread_reloads_iff (show gopt ["reread".toList] 1 = .killpg 1 .sigusr1 from rfl)
    ⟨by decide +kernel, by decide +kernel, forall_smallSession (by decide +kernel)⟩).mpr
    ⟨rfl, Or.inl rfl, forall_smallSession (by decide +kernel)⟩

/-- Nothing comes but the signal of `reread`: none of the processes reloads. -/
theorem not_reread_reloads :
    ¬ ∀ (G : Group) (wpid pid : ℤ) (g : Signo) (x : Checks),
      gopt ["reread".toList] wpid = .killpg pid g → G.Checked g x → G.Reloaded g x := by
  intro h
  have hall := h (smallGroup false) 1 1 .sigusr1 (smallChecks []) rfl
    ⟨by decide +kernel, by decide +kernel, forall_smallSession (by decide +kernel)⟩
  exact absurd hall.monitor (by decide +kernel)

end PadSvr
