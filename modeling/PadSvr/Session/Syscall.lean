import PadSvr.Session.State
import PadSvr.Scripted.Frame

/-!
# Statements and system calls of a session

Every statement that a signal handler can tell apart, and every system call, is one atomic
statement: first whatever happens before it, then its effect. Statements on local variables
alone are not: no handler sees them.

## Main definitions

* `stmt`, `test`, `assign`: statements on data the handlers share
* `call`: a system call, recorded with the state it is made in
* `pollCall`, `readPipe`, `readMaster`, `readSock`, `writeSock`, `writeMaster`, `reload`: the
  calls of `do_copy`
* `Event.InBlock`: a read that stays within its block
* `setWatchDog`, `setNetTimeout`, `setReadTimeout`, `resetReadTimeout`: the timers

## Main results

* `wp_stmt`, `wp_call`: their rules
* `wp_pollCall`, `wp_readPipe`, `wp_readMaster`, `wp_readSock`, `wp_writeSock`, `wp_writeMaster`,
  `wp_reload`: the calls, outcome by outcome
* `keeps_within_stmt`: what keeps a statement within a frame
-/

namespace PadSvr

open Scripted Scripted.Prog

def stmt {α : Type} (f : Env → Session → Session × α) : SProg α :=
  Prog.step fun e s => some ([], f e (deliver e s))

/-- Test a condition on shared data. -/
def test (b : Session → Bool) : SProg Bool := stmt fun _ s => (s, b s)

/-- Assign shared data. -/
def assign (f : Session → Session) : SProg Unit := stmt fun _ s => (f s, ())

/-- A system call: on `none` it does not return. -/
def call {α : Type} (f : Env → Session → Option (Event × Session × α)) : SProg α :=
  Prog.step fun e s => (f e (deliver e s)).map fun r => ([(r.1, deliver e s)], r.2.1, r.2.2)

/-- An array after `data` is stored from offset `off` on. What would fall behind its end is not
part of it, and `Event.InBlock` excludes it. -/
def store (buf : List UInt8) (off : ℕ) (data : List UInt8) : List UInt8 :=
  (buf.take off ++ data ++ buf.drop (off + data.length)).take buf.length

/-- What a call reads fits in the rest of its block. A run with a read behind a block has no defined
effect. -/
def Event.InBlock : Event → Session → Prop
  | .readPipe n, s => min s.sys.pipe n ≤ s.bufn.length
  | .readMaster off _ (.ok data), s => data = [] ∨ off + data.length ≤ s.bufd.length
  | .readSock _ (.ok pkt), s => pkt.length ≤ s.bufn.length
  | _, _ => True

instance (k : Event) (s : Session) : Decidable (k.InBlock s) :=
  match k with
  | .readPipe n => inferInstanceAs (Decidable (min s.sys.pipe n ≤ s.bufn.length))
  | .readMaster off _ (.ok data) =>
    inferInstanceAs (Decidable (data = [] ∨ off + data.length ≤ s.bufd.length))
  | .readMaster _ _ (.error _) => isTrue trivial
  | .readSock _ (.ok pkt) => inferInstanceAs (Decidable (pkt.length ≤ s.bufn.length))
  | .readSock _ (.error _) => isTrue trivial
  | .loopHead => isTrue trivial
  | .forwardTest => isTrue trivial
  | .loopEnd => isTrue trivial
  | .poll _ => isTrue trivial
  | .writeSock _ _ => isTrue trivial
  | .writeMaster _ _ => isTrue trivial
  | .reload _ => isTrue trivial
  | .closingPoll _ => isTrue trivial

@[simp] theorem store_nil (buf : List UInt8) (off : ℕ) : store buf off [] = buf := by
  simp [store]

/-- The session with `errno` set. -/
abbrev Session.failing (s : Session) (er : Errno) : Session :=
  { s with sys := { s.sys with errno := er } }

/-- The session with the `revents` that `poll` has written. -/
abbrev Session.reported (s : Session) (sock master pipe : Revents) : Session :=
  { s with loc := { s.loc with
    sockRevents := sock, masterRevents := master, pipeRevents := pipe } }

/-- `poll` without a time limit; `true` unless it fails, and then the kernel has cleared all
`revents`. `POLLHUP` of the master is reported only once the terminal side is closed. -/
def pollCall : SProg Bool :=
  call fun e s =>
    match e.poll with
    | .fail er => some (.poll e.poll, (s.failing er).reported {} {} {}, false)
    | .ready sock master pipe =>
      if master.pollhup ∧ ¬ s.sys.closed then none
      else some (.poll e.poll, s.reported sock master pipe, true)

/-- `read(Chil_pipefd[0], bufn, n)`: it waits for a byte, unless it is interrupted. -/
def readPipe (n : ℕ) : SProg Unit :=
  call fun e s =>
    if e.pipeIntr then
      some (.readPipe n, { s with sys := { s.sys with errno := .eintr } }, ())
    else if s.sys.pipe = 0 ∧ n ≠ 0 then none
    else
      -- each signal has left one blank; they go to the block that packets are read to
      let k := min s.sys.pipe n
      some (.readPipe n,
        { s with
          sys := { s.sys with pipe := s.sys.pipe - k }
          bufn := store s.bufn 0 (List.replicate k 32) }, ())

/-- `read(fd, bufd + off, n)` on the master. Bytes that are there are returned before an end of
file or an error other than an interrupt. -/
def readMaster (off n : ℕ) : SProg ℤ :=
  call fun e s =>
    if n = 0 then some (.readMaster off n (.ok []), s, 0)
    else
      match e.master with
      | .error er =>
        -- while bytes are there, only an interrupt can fail the read
        if er ≠ .eintr ∧ s.sys.pty ≠ [] then none
        else some (.readMaster off n (.error er), { s with sys := { s.sys with errno := er } }, -1)
      | .ok k =>
        -- an end of file is a read of nothing, once nothing is left
        if s.sys.pty = [] ∧ k ≠ 0 then none
        else
          let data := s.sys.pty.take (min n (max 1 k))
          some (.readMaster off n (.ok data),
            { s with
              sys := { s.sys with pty := s.sys.pty.drop data.length }
              bufd := store s.bufd off data }, data.length)

/-- `read(sock, bufn, n)`: one packet, cut to `n` bytes. -/
def readSock (n : ℕ) : SProg ℤ :=
  call fun e s =>
    match e.sock with
    | .error er =>
      some (.readSock n (.error er), { s with sys := { s.sys with errno := er } }, -1)
    | .ok pkt =>
      some (.readSock n (.ok (pkt.take n)),
        { s with bufn := store s.bufn 0 (pkt.take n) }, (pkt.take n).length)

/-- `write(sock, pkt, n)`, `n` the length of `pkt`. -/
def writeSock (pkt : List UInt8) : SProg ℤ :=
  call fun e s =>
    match e.wsock with
    | .error er =>
      some (.writeSock pkt (.error er), { s with sys := { s.sys with errno := er } }, -1)
    | .ok k => some (.writeSock pkt (.ok (min k pkt.length)), s, (min k pkt.length : ℕ))

/-- `write(fd, data, n)` on the master, `n` the length of `data`. -/
def writeMaster (data : List UInt8) : SProg ℤ :=
  call fun e s =>
    match e.wmaster with
    | .error er =>
      some (.writeMaster data (.error er), { s with sys := { s.sys with errno := er } }, -1)
    | .ok k => some (.writeMaster data (.ok (min k data.length)), s, (min k data.length : ℕ))

/-- `readcfg(); closeFdlog(); openFdlog();`. A fault of `readcfg` ends the process. -/
def reload : SProg Unit :=
  call fun e s =>
    match readcfg e.file s.cfg with
    | .error _ => none
    | .ok (_, c) =>
      some (.reload e.file, { s with cfg := c, sys := { s.sys with errno := e.errno } }, ())

/-- What a timer set to `t` seconds is armed with. -/
def armed (t : ℤ) : Option ℤ := if t = 0 then none else some t

def setWatchDog : SProg Unit :=
  assign fun s => { s with sys := { s.sys with wtimer := armed s.cfg.watchdogTimeout } }

def setNetTimeout : SProg Unit :=
  assign fun s => { s with sys := { s.sys with wtimer := armed s.netTimeout } }

/-- A `tv_nsec` of a second or more is refused, and the process exits. -/
def setReadTimeout : SProg Unit :=
  Prog.step fun e s =>
    let s := deliver e s
    let nsec := s.cfg.forwardtimer * 5000000
    if nsec < 0 ∨ 1000000000 ≤ nsec then none
    else some ([], { s with sys := { s.sys with rtimer := decide (nsec ≠ 0) } }, ())

def resetReadTimeout : SProg Unit :=
  assign fun s => { s with sys := { s.sys with rtimer := false } }

section Rules

variable {α : Type} {E : Env → Prop} {I : SRun → Prop} {w : SRun}

theorem wp_stmt {f : Env → Session → Session × α} {Q : α → SRun → Prop} (hI : I w)
    (h : ∀ e, E e → Q (f e (deliver e w.st)).2 ⟨(f e (deliver e w.st)).1, w.trace⟩) :
    wp E I (stmt f) Q w := by
  refine wp_step hI fun e he r hf => ?_
  obtain rfl := Option.some.inj hf
  simpa using h e he

theorem wp_test {b : Session → Bool} {Q : Bool → SRun → Prop} (hI : I w)
    (h : ∀ e, E e → Q (b (deliver e w.st)) ⟨deliver e w.st, w.trace⟩) :
    wp E I (test b) Q w := wp_stmt hI h

theorem wp_assign {f : Session → Session} {Q : Unit → SRun → Prop} (hI : I w)
    (h : ∀ e, E e → Q () ⟨f (deliver e w.st), w.trace⟩) : wp E I (assign f) Q w := wp_stmt hI h

theorem wp_call {f : Env → Session → Option (Event × Session × α)} {Q : α → SRun → Prop} (hI : I w)
    (h : ∀ e, E e → ∀ r, f e (deliver e w.st) = some r →
      Q r.2.2 ⟨r.2.1, w.trace ++ [(r.1, deliver e w.st)]⟩) :
    wp E I (call f) Q w := by
  refine wp_step hI fun e he r hf => ?_
  obtain ⟨r', hf', rfl⟩ := Option.map_eq_some_iff.mp hf
  exact h e he r' hf'

/-! The calls, outcome by outcome. -/

theorem wp_pollCall {Q : Bool → SRun → Prop} (hI : I w)
    (hfail : ∀ e, E e → ∀ er, Q false ⟨((deliver e w.st).failing er).reported {} {} {},
      w.trace ++ [(.poll (.fail er), deliver e w.st)]⟩)
    (hready : ∀ e, E e → ∀ so ma pi, (ma.pollhup = true → (deliver e w.st).sys.closed = true) →
      Q true ⟨(deliver e w.st).reported so ma pi,
        w.trace ++ [(.poll (.ready so ma pi), deliver e w.st)]⟩) :
    wp E I pollCall Q w := by
  refine wp_call hI fun e he r hr => ?_
  rcases ha : e.poll with er | ⟨so, ma, pi⟩
  · simp only [ha, Option.some.injEq] at hr
    subst hr
    exact hfail e he er
  · simp only [ha] at hr
    split at hr
    · cases hr
    · next hc =>
      cases hr
      exact hready e he so ma pi fun hh => by_contra fun hcl => hc ⟨hh, hcl⟩

theorem wp_readPipe {n : ℕ} {Q : Unit → SRun → Prop} (hI : I w)
    (hintr : ∀ e, E e → Q () ⟨(deliver e w.st).failing .eintr,
      w.trace ++ [(.readPipe n, deliver e w.st)]⟩)
    (hread : ∀ e, E e → ∀ k, Q () ⟨{ deliver e w.st with
          sys := { (deliver e w.st).sys with pipe := (deliver e w.st).sys.pipe - k }
          bufn := store (deliver e w.st).bufn 0 (List.replicate k 32) },
        w.trace ++ [(.readPipe n, deliver e w.st)]⟩) :
    wp E I (readPipe n) Q w := by
  refine wp_call hI fun e he r hr => ?_
  split at hr
  · cases hr
    exact hintr e he
  · split at hr
    · cases hr
    · cases hr
      exact hread e he _

/-- A read from the master fails, or delivers the first bytes of what is there. -/
theorem wp_readMaster {off n : ℕ} {Q : ℤ → SRun → Prop} (hI : I w)
    (hfail : ∀ e, E e → ∀ er, (er ≠ .eintr → (deliver e w.st).sys.pty = []) →
      Q (-1) ⟨(deliver e w.st).failing er,
        w.trace ++ [(.readMaster off n (.error er), deliver e w.st)]⟩)
    (hok : ∀ e, E e → ∀ data, data.length ≤ n → data <+: (deliver e w.st).sys.pty →
      (data = [] → n = 0 ∨ (deliver e w.st).sys.pty = []) →
      Q data.length ⟨{ deliver e w.st with
          sys := { (deliver e w.st).sys with pty := (deliver e w.st).sys.pty.drop data.length }
          bufd := store (deliver e w.st).bufd off data },
        w.trace ++ [(.readMaster off n (.ok data), deliver e w.st)]⟩) :
    wp E I (readMaster off n) Q w := by
  refine wp_call hI fun e he r hr => ?_
  split at hr
  · next hn =>
    cases hr
    have h := hok e he [] (Nat.zero_le _) List.nil_prefix fun _ => Or.inl hn
    rw [store_nil] at h
    exact h
  · next hn =>
    rcases hm : e.master with er | k
    · simp only [hm] at hr
      split at hr
      · cases hr
      · next hc =>
        cases hr
        exact hfail e he er fun her => by_contra fun hp => hc ⟨her, hp⟩
    · simp only [hm] at hr
      split at hr
      · cases hr
      · next hc =>
        cases hr
        refine hok e he _ ?_ (List.take_prefix _ _) fun hnil => Or.inr ?_
        · rw [List.length_take]
          omega
        · rcases List.take_eq_nil_iff.mp hnil with hz | hp
          · omega
          · exact hp

theorem wp_readSock {n : ℕ} {Q : ℤ → SRun → Prop} (hI : I w)
    (hfail : ∀ e, E e → ∀ er, Q (-1) ⟨(deliver e w.st).failing er,
      w.trace ++ [(.readSock n (.error er), deliver e w.st)]⟩)
    (hok : ∀ e, E e → ∀ pkt : List UInt8, Q pkt.length ⟨{ deliver e w.st with
          bufn := store (deliver e w.st).bufn 0 pkt },
        w.trace ++ [(.readSock n (.ok pkt), deliver e w.st)]⟩) :
    wp E I (readSock n) Q w := by
  refine wp_call hI fun e he r hr => ?_
  rcases hk : e.sock with er | pkt
  · simp only [hk, Option.some.injEq] at hr
    subst hr
    exact hfail e he er
  · simp only [hk, Option.some.injEq] at hr
    subst hr
    exact hok e he (pkt.take n)

theorem wp_writeSock {pkt : List UInt8} {Q : ℤ → SRun → Prop} (hI : I w)
    (hfail : ∀ e, E e → ∀ er, e.wsock = .error er → Q (-1) ⟨(deliver e w.st).failing er,
      w.trace ++ [(.writeSock pkt (.error er), deliver e w.st)]⟩)
    (hok : ∀ e, E e → ∀ k, e.wsock = .ok k → Q (min k pkt.length : ℕ) ⟨deliver e w.st,
      w.trace ++ [(.writeSock pkt (.ok (min k pkt.length)), deliver e w.st)]⟩) :
    wp E I (writeSock pkt) Q w := by
  refine wp_call hI fun e he r hr => ?_
  rcases hk : e.wsock with er | k
  · simp only [hk, Option.some.injEq] at hr
    subst hr
    exact hfail e he er hk
  · simp only [hk, Option.some.injEq] at hr
    subst hr
    exact hok e he k hk

theorem wp_writeMaster {data : List UInt8} {Q : ℤ → SRun → Prop} (hI : I w)
    (hfail : ∀ e, E e → ∀ er, e.wmaster = .error er → Q (-1) ⟨(deliver e w.st).failing er,
      w.trace ++ [(.writeMaster data (.error er), deliver e w.st)]⟩)
    (hok : ∀ e, E e → ∀ k, e.wmaster = .ok k → Q (min k data.length : ℕ) ⟨deliver e w.st,
      w.trace ++ [(.writeMaster data (.ok (min k data.length)), deliver e w.st)]⟩) :
    wp E I (writeMaster data) Q w := by
  refine wp_call hI fun e he r hr => ?_
  rcases hk : e.wmaster with er | k
  · simp only [hk, Option.some.injEq] at hr
    subst hr
    exact hfail e he er hk
  · simp only [hk, Option.some.injEq] at hr
    subst hr
    exact hok e he k hk

theorem wp_reload {Q : Unit → SRun → Prop} (hI : I w)
    (hok : ∀ e, E e → ∀ b c, readcfg e.file (deliver e w.st).cfg = .ok (b, c) →
      Q () ⟨{ (deliver e w.st).failing e.errno with cfg := c },
        w.trace ++ [(.reload e.file, deliver e w.st)]⟩) :
    wp E I reload Q w := by
  refine wp_call hI fun e he r hr => ?_
  split at hr
  · cases hr
  · next hc =>
    cases hr
    exact hok e he _ _ hc

theorem wp_setReadTimeout {Q : Unit → SRun → Prop} (hI : I w)
    (hok : ∀ e, E e → 0 ≤ (deliver e w.st).cfg.forwardtimer →
      Q () ⟨{ deliver e w.st with sys := { (deliver e w.st).sys with
        rtimer := decide ((deliver e w.st).cfg.forwardtimer * 5000000 ≠ 0) } }, w.trace⟩) :
    wp E I setReadTimeout Q w := by
  refine wp_step hI fun e he r hr => ?_
  dsimp only at hr
  split at hr
  · cases hr
  · cases hr
    simpa using hok e he (by omega)

variable {R : Session → Session → Prop} {N : Event → Session → Prop} {w₀ : SRun}
  [IsTrans Session R]

theorem keeps_within_stmt {f : Env → Session → Session × α}
    (hd : ∀ e, E e → ∀ s, R s (deliver e s)) (h : ∀ e, E e → ∀ s, R s (f e s).1) :
    Keeps E (Within R N w₀) (stmt f) := fun _ hw =>
  wp_stmt hw fun e he => hw.trans (.of_rel (IsTrans.trans _ _ _ (hd e he _) (h e he _)))

end Rules

end PadSvr
