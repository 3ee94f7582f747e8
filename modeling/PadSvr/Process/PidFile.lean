import PadSvr.CString.Stdio
import Mathlib.Data.List.Infix
import Mathlib.Logic.Function.Basic
import Mathlib.Logic.Relation

/-!
# The pid file

A process that is started looks into the pid file for a running daemon, and becomes the daemon
itself when there is none. Any number of processes take these steps, in any order. A file that is
removed lives on for those who have opened it.

## Main definitions

* `Station`: how far a process has come
* `Sys`: the processes and the pid file
* `Sys.running`: whether a process of that name has the pid that was read
* `Act`, `Sys.next`: the steps of the processes
-/

namespace PadSvr

open CString

/-- How far a process has come. -/
inductive Station
  /-- before `exist_pid` -/
  | begun
  /-- `exist_pid` has opened a file -/
  | opened (i : ℕ)
  /-- and has read and closed it -/
  | read (buf : List Char)
  /-- `exist_pid` has returned 0 -/
  | through
  /-- about to end without a look at the pid file -/
  | leaving
  /-- the child of `go_daemon` -/
  | forked
  /-- `leave_pid` has removed the file -/
  | unlinked
  /-- and has opened a file to write to -/
  | created (i : ℕ)
  /-- past `leave_pid` -/
  | boss
  /-- behind the `clear_pid` of `Exit` -/
  | cleared (past : Bool)
  /-- a process of another program, with the first line of its status -/
  | foreign (line : List Char)
deriving DecidableEq, Repr

/-- The processes by their pids, the texts of all files there have been under the name of the pid
file, and which of them is there. -/
structure Sys where
  procs : ℕ → Option Station
  inodes : List (List Char)
  current : Option ℕ

/-- What a process, or the system around it, does next. A call that can fail has its outcome. -/
inductive Act
  | start (p : ℕ)
  | foreign (p : ℕ) (line : List Char)
  | open (p : ℕ) (ok : Bool)
  | read (p : ℕ)
  | check (p : ℕ) (ok : Bool)
  | fail (p : ℕ)
  | fork (p c : ℕ)
  | unlink (p : ℕ) (ok : Bool)
  | create (p : ℕ)
  | write (p : ℕ)
  | clear (p : ℕ) (ok : Bool)
  | ends (p : ℕ)
deriving DecidableEq, Repr

/-- A `pid_t` that a process can have. -/
def ValidPid (p : ℕ) : Prop := 0 < p ∧ p < 2 ^ 31

instance (p : ℕ) : Decidable (ValidPid p) := inferInstanceAs (Decidable (_ ∧ _))

/-- The first line of `/proc/<pid>/status`, of a process started under `name`. -/
def statusLine (name : List Char) : List Char := "Name:\t".toList ++ name.take 15 ++ ['\n']

/-- The same line, of any process. -/
def Station.line (name : List Char) : Station → List Char
  | .foreign line => line
  | _ => statusLine name

/-- The pid whose directory in `/proc` has this name. -/
def pidOf (buf : List Char) : Option ℕ :=
  if decimal (digits buf).toNat = buf then some (digits buf).toNat else none

/-- A process has the name `Myname`: `fgets` reads the line into 30 characters. -/
def named (name line : List Char) : Bool := name <:+: line.take 29

/-- What `exist_pid` finds for the text `buf` of the pid file: whether its result is not 0. A text
that is no decimal number leads to no process here, whatever file of `/proc` it may name. -/
def Sys.running (s : Sys) (name buf : List Char) : Bool :=
  ((pidOf buf).bind s.procs).any (fun st => named name (st.line name)) && atoi buf ≠ 0

def Sys.put (s : Sys) (p : ℕ) (st : Station) : Sys :=
  { s with procs := Function.update s.procs p (some st) }

/-- `unlink` of the pid file. -/
def Sys.unlink (s : Sys) (ok : Bool) : Sys := { s with current := if ok then none else s.current }

/-- A process comes into being. -/
def Sys.spawn (s : Sys) (p : ℕ) (st : Station) : Option Sys :=
  if s.procs p = none ∧ ValidPid p then some (s.put p st) else none

/-- `open` with `O_CREAT`: the file that is there, or a new one, and its number. -/
def Sys.openCreat (s : Sys) : ℕ × Sys :=
  match s.current with
  | some i => (i, s)
  | none => (s.inodes.length, { s with
      inodes := s.inodes ++ [[]]
      current := some s.inodes.length })

/-- `write` at the start of a file: what is behind the text stays. -/
def Sys.overwrite (s : Sys) (i : ℕ) (text : List Char) : Sys :=
  { s with inodes := s.inodes.set i (text ++ (s.inodes.getD i []).drop text.length) }

/-- One step. -/
def Sys.next (name : List Char) (s : Sys) : Act → Option Sys
  | .start p => s.spawn p .begun
  | .foreign p line => s.spawn p (.foreign line)
  | .open p ok =>
    match s.procs p with
    | some .begun =>
      match if ok then s.current else none with
      | some i => some (s.put p (.opened i))
      | none => some (s.put p .through)
    | _ => none
  | .read p =>
    match s.procs p with
    | some (.opened i) => some (s.put p (.read ((s.inodes.getD i []).take 30)))
    | _ => none
  | .check p ok =>
    match s.procs p with
    | some (.read buf) =>
      some (s.put p (if ok && s.running name buf then .leaving else .through))
    | _ => none
  | .fail p =>
    match s.procs p with
    | some .begun | some (.opened _) | some (.read _) | some .through | some .forked =>
      some (s.put p .leaving)
    | _ => none
  | .fork p c => if s.procs p = some .through then (s.put p .leaving).spawn c .forked else none
  | .unlink p ok => if s.procs p = some .forked then some ((s.unlink ok).put p .unlinked) else none
  | .create p =>
    if s.procs p = some .unlinked then some (s.openCreat.2.put p (.created s.openCreat.1)) else none
  | .write p =>
    match s.procs p with
    | some (.created i) => some ((s.overwrite i (decimal p)).put p .boss)
    | _ => none
  | .clear p ok =>
    match s.procs p with
    | some .unlinked | some (.created _) => some ((s.unlink ok).put p (.cleared false))
    | some .boss => some ((s.unlink ok).put p (.cleared true))
    | _ => none
  | .ends p =>
    match s.procs p with
    | some _ => some { s with procs := Function.update s.procs p none }
    | none => none

end PadSvr
