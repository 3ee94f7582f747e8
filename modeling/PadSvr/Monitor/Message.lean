import PadSvr.Monitor.Table
import Mathlib.Data.List.TakeDrop

/-!
# The messages of the FIFO

A session tells the monitor its pid, its pseudo terminal and the address of the caller in one
message of `MAXFIFOMES` bytes, and another one, with `-` in place of the two, when it ends.

## Main definitions

* `sendPtsAddr`: the writer
* `readInto`, `readBehind`: what a read leaves in `Buf_fifo`, and in the pointer behind it
* `fifoFields`, `serveMessage`: the reader
* `Client`: a session, as far as the monitor knows of it

## Main results

* `fifoFields_enter`, `fifoFields_leave`: the reader finds the fields of the writer
* `occupied_serveMessage_enter`, `occupied_serveMessage_leave`: what the two messages of a session
  do to the rows in use
-/

namespace PadSvr

open CString Registry

/-- `MAXFIFOMES`. -/
def maxFifoMes : ℕ := 40

/-- The text of a message. -/
def fifoText (pid : ℤ) (pts addr : List Char) : List Char :=
  decimal pid ++ ' ' :: (pts ++ ' ' :: addr)

/-- `send_pts_addr`: `Buf_fifo` as it leaves it, and the bytes it writes, all of `Buf_fifo`. The
address is `none` for `NULL`. -/
def sendPtsAddr (flagDoPtsAddr : Bool) (bufFifo : List Char) (pid : ℤ) (pts : List Char)
    (addr : Option (List Char)) : List Char × List Char :=
  if flagDoPtsAddr then
    let addr := (addr.filter (· ≠ [])).getD "unknown".toList
    -- a text that is too long is cut, and the whole array is written in either case
    let buf := snprintf bufFifo maxFifoMes (fifoText pid pts addr)
    (buf, buf.take maxFifoMes)
  else (bufFifo, [])

/-- The characters between the fields. -/
def fifoDelim : List Char := [' ', '\n']

/-- The three calls of `strtok_r`, `none` if one of them returns `NULL`. -/
def fifoFields (bufFifo : List Char) : Option (List Char × List Char × List Char) := do
  let (pid, rest) ← strtok fifoDelim (cstr bufFifo)
  let (pts, rest) ← strtok fifoDelim rest
  let (addr, _) ← strtok fifoDelim rest
  pure (pid, pts, addr)

/-- `Buf_fifo` after a read of `data` and `Buf_fifo[ir] = 0`, as far as it is in the array. -/
def readInto (bufFifo data : List Char) : List Char :=
  (data ++ bufFifo.drop data.length).set data.length '\x00'

/-- `Tab_first` behind the same statement. When the read fills the array, the NUL is stored behind
it. In the program that the `Makefile` builds `Tab_first` lies there, with its low byte first. -/
def readBehind (tabFirst : ℕ) (data : List Char) : ℕ :=
  if data.length = maxFifoMes then tabFirst / 256 * 256 else tabFirst

/-- What `read_fifo` does with a message in `Buf_fifo`. -/
def serveMessage (bufFifo : List Char) (tab : List Row) : List Row :=
  match fifoFields bufFifo with
  | none => tab
  | some (pid, pts, addr) =>
    -- only the first characters are looked at
    if pts.head? = some '-' ∧ addr.head? = some '-' then cleanEntry pid tab
    else insEntry pid pts addr tab

/-- A field of a message: characters other than those between the fields, and no NUL. -/
def IsField (w : List Char) : Prop := w ≠ [] ∧ ∀ c ∈ w, c ∉ fifoDelim ∧ c ≠ '\x00'

instance (w : List Char) : Decidable (IsField w) :=
  decidable_of_iff (w ≠ [] ∧ (w.all fun c => c ∉ fifoDelim && c ≠ '\x00') = true)
    (by simp [IsField])

/-- A session as it presents itself to the monitor: a pid the kernel gives out, a pseudo terminal,
and the address of the caller. -/
structure Client where
  pid : ℕ
  pts : List Char
  addr : List Char
  pid_pos : 1 ≤ pid
  pid_le : pid ≤ 4194304
  pts_field : IsField pts
  pts_length : pts.length ≤ 15
  pts_slash : pts.head? = some '/'
  addr_field : IsField addr
  addr_length : addr.length ≤ 15

/-- The row of a client. -/
def Client.row (c : Client) : Row := ⟨decimal c.pid, c.pts, c.addr⟩

theorem isField_decimal (n : ℕ) : IsField (decimal n) := by
  refine ⟨decimal_ne_nil n, fun c hc => ?_⟩
  have hd := isDigit_of_mem_decimal hc
  refine ⟨fun hm => ?_, fun h => ?_⟩
  · simp only [fifoDelim, List.mem_cons, List.not_mem_nil, or_false] at hm
    rcases hm with rfl | rfl <;> simp at hd
  · subst h
    simp at hd

/-- Pids of the kernel have seven digits at most. -/
theorem Client.length_pid (c : Client) : (decimal c.pid).length ≤ 7 :=
  (length_decimal_le_iff (by decide)).mpr (by have := c.pid_le; omega)

/-- The pointer survives a read that leaves room for the NUL, and any read if its low byte is zero
anyway. -/
theorem readBehind_of_dvd {tabFirst : ℕ} (h : 256 ∣ tabFirst) (data : List Char) :
    readBehind tabFirst data = tabFirst := by
  unfold readBehind
  split
  · exact Nat.div_mul_cancel h
  · rfl

/-- A read that fills the array leaves the pointer alone only if its low byte is zero. -/
theorem readBehind_eq_self_iff {tabFirst : ℕ} {data : List Char} (hlen : data.length = maxFifoMes) :
    readBehind tabFirst data = tabFirst ↔ 256 ∣ tabFirst := by
  rw [readBehind, if_pos hlen]
  exact ⟨fun h => ⟨tabFirst / 256, by omega⟩, Nat.div_mul_cancel⟩

section Fields

variable {pid pts addr buf : List Char}

/-- **The reader finds the fields of the writer.** -/
theorem fifoFields_snprintf (hpid : IsField pid) (hpts : IsField pts) (haddr : IsField addr)
    (hlen : pid.length + pts.length + addr.length + 2 < maxFifoMes) :
    fifoFields (snprintf buf maxFifoMes (pid ++ ' ' :: (pts ++ ' ' :: addr))) =
      some (pid, pts, addr) := by
  have hspace : ' ' ∈ fifoDelim := by decide
  have hlen' : (pid ++ ' ' :: (pts ++ ' ' :: addr)).length < maxFifoMes := by
    simp only [List.length_append, List.length_cons]
    omega
  have hnul : ∀ c ∈ pid ++ ' ' :: (pts ++ ' ' :: addr), c ≠ '\x00' := by
    intro c hc
    simp only [List.mem_append, List.mem_cons] at hc
    rcases hc with h | rfl | h | rfl | h
    · exact (hpid.2 c h).2
    · decide
    · exact (hpts.2 c h).2
    · decide
    · exact (haddr.2 c h).2
  rw [fifoFields, cstr_snprintf hlen' hnul,
    strtok_token hpid.1 (fun c hc => (hpid.2 c hc).1) hspace]
  simp only [Option.bind_eq_bind, Option.bind_some]
  rw [strtok_token hpts.1 (fun c hc => (hpts.2 c hc).1) hspace]
  simp only [Option.bind_some]
  rw [strtok_last haddr.1 fun c hc => (haddr.2 c hc).1]
  rfl

end Fields

/-! ## The messages of a session -/

/-- What a session writes when it starts. -/
def Client.enter (c : Client) (bufFifo : List Char) : List Char × List Char :=
  sendPtsAddr true bufFifo c.pid c.pts (some c.addr)

/-- What a session writes when it ends. -/
def Client.leave (c : Client) (bufFifo : List Char) : List Char × List Char :=
  sendPtsAddr true bufFifo c.pid ['-'] (some ['-'])

section Client

variable (c : Client) {buf : List Char} (hbuf : buf.length = maxFifoMes)

include hbuf in
theorem sendPtsAddr_snd (pid : ℤ) (pts : List Char) (addr : Option (List Char)) :
    (sendPtsAddr true buf pid pts addr).2 = (sendPtsAddr true buf pid pts addr).1 ∧
      (sendPtsAddr true buf pid pts addr).1.length = maxFifoMes := by
  have hlen : (sendPtsAddr true buf pid pts addr).1.length = maxFifoMes :=
    length_snprintf hbuf (by decide)
  exact ⟨List.take_of_length_le hlen.le, hlen⟩

theorem fifoFields_enter :
    fifoFields (c.enter buf).1 = some (decimal c.pid, c.pts, c.addr) := by
  have hpid := c.length_pid
  have hpts := c.pts_length
  have haddr := c.addr_length
  have hlen : (decimal c.pid).length + c.pts.length + c.addr.length + 2 < maxFifoMes := by
    rw [maxFifoMes]
    omega
  have hsome : (some c.addr).filter (· ≠ []) = some c.addr := by
    simp [Option.filter, c.addr_field.1]
  rw [Client.enter, sendPtsAddr, if_pos rfl, hsome]
  exact fifoFields_snprintf (isField_decimal c.pid) c.pts_field c.addr_field hlen

theorem fifoFields_leave :
    fifoFields (c.leave buf).1 = some (decimal c.pid, ['-'], ['-']) := by
  have hpid := c.length_pid
  have hlen : (decimal c.pid).length + ['-'].length + ['-'].length + 2 < maxFifoMes := by
    rw [maxFifoMes]
    simp only [List.length_singleton]
    omega
  exact fifoFields_snprintf (isField_decimal c.pid) (by decide) (by decide) hlen

theorem serveMessage_enter (tab : List Row) :
    serveMessage (c.enter buf).1 tab = insEntry (decimal c.pid) c.pts c.addr tab := by
  rw [serveMessage, fifoFields_enter]
  simp [c.pts_slash]

theorem serveMessage_leave (tab : List Row) :
    serveMessage (c.leave buf).1 tab = cleanEntry (decimal c.pid) tab := by
  rw [serveMessage, fifoFields_leave]
  simp

/-- The row that is entered is that of the client exactly when its pid fits. -/
theorem entered_eq_row_iff :
    Row.entered (decimal c.pid) c.pts c.addr = c.row ↔ c.pid < 100000 := by
  have hpts : strncpy c.pts maxCharPts = c.pts := List.take_of_length_le c.pts_length
  have haddr : strncpy c.addr maxCharAdr = c.addr := List.take_of_length_le c.addr_length
  have hpow : 10 ^ maxCharPid = 100000 := by decide
  have hpid : strncpy (decimal c.pid) maxCharPid = decimal c.pid ↔ c.pid < 100000 := by
    rw [strncpy, List.take_eq_self_iff, length_decimal_le_iff (by decide), hpow]
  rw [Row.entered, Client.row, hpts, haddr, Row.mk.injEq, hpid]
  simp

/-- A session that starts has its row entered. -/
theorem occupied_serveMessage_enter (hc : c.pid < 100000) (tab : List Row) :
    occupied Row.free (serveMessage (c.enter buf).1 tab) =
      (Request.add c.row).serve Row.pid (occupied Row.free tab) := by
  rw [serveMessage_enter, occupied_insEntry (decimal_ne_nil c.pid), (entered_eq_row_iff c).mpr hc]

/-- A session that ends has its row freed. -/
theorem occupied_serveMessage_leave (tab : List Row) :
    occupied Row.free (serveMessage (c.leave buf).1 tab) =
      (Request.drop c.row.pid).serve Row.pid (occupied Row.free tab) := by
  rw [serveMessage_leave, occupied_cleanEntry]
  rfl

end Client

end PadSvr
