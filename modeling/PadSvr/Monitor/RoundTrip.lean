import PadSvr.Monitor.DoMonitor

/-!
# Messages through the FIFO

Every sender writes its whole `Buf_fifo`, whatever is behind the terminator, and `read_fifo` takes
as many bytes at a time. So the messages arrive as they were sent, one operation on the table each,
if the NUL that each read stores behind the array leaves `Tab_first` alone.

## Main definitions

* `Message`: a call of `send_pts_addr`, with what its sender's `Buf_fifo` held before
* `fifoOp`: the operation on the table that a full buffer asks for
* `readFifoOps`: the operations that `read_fifo` carries out for the bytes in the FIFO, or why it
  does not

## Main results

* `serveMessage_eq_run`: serving a message is carrying out its operation
* `fifoOp_bytes`: the operation of a message
* `readFifoOps_stream_iff`: when they are the operations of the messages
* `not_readFifoOps_stream`: a message that ends in a fault
-/

namespace PadSvr

open CString

/-- The array `Buf_fifo`. -/
def BufFifo : Type := { buf : List Char // buf.length = maxFifoMes }

/-- A field of at most 15 characters, possibly none, without a blank. -/
def IsShortField (w : List Char) : Prop :=
  w.length ≤ 15 ∧ ∀ c ∈ w, c ∉ fifoDelim ∧ c ≠ '\x00'

/-- A call of `send_pts_addr`. The pid is one the kernel gives out, the pseudo terminal is `-` or
begins with a slash, and the address is `-`, does not begin with `-`, or is `NULL`. -/
structure Message where
  bufFifo : BufFifo
  pid : ℕ
  pts : List Char
  addr : Option (List Char)
  pid_pos : 1 ≤ pid
  pid_le : pid ≤ 4194304
  pts_form : pts = ['-'] ∨ pts.head? = some '/' ∧ IsShortField pts
  addr_form : ∀ a ∈ addr, a = ['-'] ∨ a.head? ≠ some '-' ∧ IsShortField a

/-- The bytes of a message. -/
def Message.bytes (m : Message) : List Char :=
  (sendPtsAddr true m.bufFifo.1 m.pid m.pts m.addr).2

/-- The address that is sent. -/
def Message.sentAddr (m : Message) : List Char := (m.addr.filter (· ≠ [])).getD "unknown".toList

/-- The operation that `read_fifo` carries out for a buffer, if it finds all fields. -/
def fifoOp (bufFifo : List Char) : Option TabOp :=
  (fifoFields bufFifo).map fun (pid, pts, addr) =>
    if pts.head? = some '-' ∧ addr.head? = some '-' then .clean pid else .ins pid pts addr

/-- Why `read_fifo` does not get to the end of the FIFO. -/
inductive ReadFifoStop
  | cut
  | fault
deriving DecidableEq, Repr

/-- The operations of `read_fifo` for the bytes in the FIFO, cut after `n` reads. Each operation
goes through the table from `tabFirst` on: that is a fault if the first row, which is at `tabAt`, is
not there. -/
def readFifoOps (tabAt : ℕ) : ℕ → ℕ → List Char → List Char → Except ReadFifoStop (List TabOp)
  | 0, _, _, _ => .error .cut
  | n + 1, tabFirst, bufFifo, fifo =>
    if fifo = [] then .ok []
    else
      let buf := readInto bufFifo (fifo.take maxFifoMes)
      let first := readBehind tabFirst (fifo.take maxFifoMes)
      match fifoOp buf with
      | none => readFifoOps tabAt n first buf (fifo.drop maxFifoMes)
      | some op =>
        if first = tabAt then
          (readFifoOps tabAt n first buf (fifo.drop maxFifoMes)).map (op :: ·)
        else .error .fault

/-- The operation that a message stands for. -/
def Message.op (m : Message) : TabOp :=
  if m.pts = ['-'] ∧ m.addr = some ['-'] then .clean (decimal m.pid)
  else .ins (decimal m.pid) m.pts m.sentAddr

/-- **Serving a message is carrying out its operation.** -/
theorem serveMessage_eq_run (bufFifo : List Char) (tab : List Row) :
    serveMessage bufFifo tab = (fifoOp bufFifo).elim tab (·.run tab) := by
  rw [serveMessage, fifoOp]
  rcases fifoFields bufFifo with _ | ⟨pid, pts, addr⟩
  · rfl
  · simp only [Option.map_some, Option.elim_some]
    split <;> rfl

section Message

variable (m : Message)

theorem Message.length_bytes : m.bytes.length = maxFifoMes := by
  have h := sendPtsAddr_snd m.bufFifo.2 m.pid m.pts m.addr
  rw [Message.bytes, h.1, h.2]

/-- A message fills the array: nothing is left of what the reader held before. -/
theorem readInto_bytes (buf : BufFifo) : readInto buf.1 m.bytes = m.bytes := by
  have hdrop : buf.1.drop m.bytes.length = [] := by
    rw [List.drop_eq_nil_iff, buf.2, m.length_bytes]
  rw [readInto, hdrop, List.append_nil, List.set_eq_of_length_le le_rfl]

theorem Message.isField_pts : IsField m.pts ∧ m.pts.length ≤ 15 := by
  rcases m.pts_form with h | ⟨hhead, hlen, hw⟩
  · rw [h]
    decide
  · refine ⟨⟨?_, hw⟩, hlen⟩
    -- an empty string does not start with a slash
    rintro hnil
    rw [hnil] at hhead
    cases hhead

/-- The address that is sent is the word for an unknown one, or the one that was given. -/
theorem Message.sentAddr_cases :
    m.sentAddr = "unknown".toList ∧ m.addr ≠ some ['-'] ∨
      ∃ a, m.addr = some a ∧ a ≠ [] ∧ m.sentAddr = a := by
  rw [Message.sentAddr]
  rcases haddr : m.addr with _ | a
  · exact Or.inl ⟨rfl, nofun⟩
  · by_cases ha : a = []
    · subst ha
      exact Or.inl ⟨rfl, by decide⟩
    · have hsome : (some a).filter (· ≠ []) = some a := by simp [Option.filter, ha]
      exact Or.inr ⟨a, rfl, ha, by rw [hsome, Option.getD_some]⟩

theorem Message.isField_sentAddr : IsField m.sentAddr ∧ m.sentAddr.length ≤ 15 := by
  rcases m.sentAddr_cases with ⟨hsent, -⟩ | ⟨a, haddr, ha, hsent⟩
  · rw [hsent]
    decide
  · rw [hsent]
    rcases m.addr_form a haddr with h | ⟨-, hlen, hw⟩
    · rw [h]
      decide
    · exact ⟨⟨ha, hw⟩, hlen⟩

/-- Seven digits, two fields of fifteen characters, two blanks and the NUL are just as many as
the array has. -/
theorem Message.fifoFields_bytes :
    fifoFields m.bytes = some (decimal m.pid, m.pts, m.sentAddr) := by
  obtain ⟨hpts, hptslen⟩ := m.isField_pts
  obtain ⟨haddr, haddrlen⟩ := m.isField_sentAddr
  have hpid : (decimal m.pid).length ≤ 7 :=
    (length_decimal_le_iff (by decide)).mpr (by have := m.pid_le; omega)
  have hlen : (decimal m.pid).length + m.pts.length + m.sentAddr.length + 2 < maxFifoMes := by
    rw [maxFifoMes]
    omega
  rw [Message.bytes, (sendPtsAddr_snd m.bufFifo.2 m.pid m.pts m.addr).1, sendPtsAddr, if_pos rfl]
  exact fifoFields_snprintf (isField_decimal m.pid) hpts haddr hlen

theorem Message.head_pts : m.pts.head? = some '-' ↔ m.pts = ['-'] := by
  constructor
  · intro h
    rcases m.pts_form with hpts | ⟨hhead, -⟩
    · exact hpts
    · rw [hhead] at h
      cases h
  · intro h
    rw [h]
    rfl

theorem Message.head_sentAddr : m.sentAddr.head? = some '-' ↔ m.addr = some ['-'] := by
  rcases m.sentAddr_cases with ⟨hsent, hne⟩ | ⟨a, haddr, -, hsent⟩
  · rw [hsent]
    exact iff_of_false (by decide) hne
  · rw [hsent, haddr, Option.some.injEq]
    rcases m.addr_form a haddr with h | ⟨hhead, -⟩
    · rw [h]
      decide
    · refine iff_of_false hhead fun h => hhead ?_
      rw [h]
      rfl

/-- **The operation of a message**: the reader looks at first characters only, and they tell. -/
theorem fifoOp_bytes : fifoOp m.bytes = some m.op := by
  rw [fifoOp, m.fifoFields_bytes, Option.map_some]
  simp only [m.head_pts, m.head_sentAddr]
  rfl

end Message

/-- One message: its operation, or a fault. -/
theorem readFifoOps_cons (tabAt n tabFirst : ℕ) (buf : BufFifo) (m : Message) (fifo : List Char) :
    readFifoOps tabAt (n + 1) tabFirst buf.1 (m.bytes ++ fifo) =
      if readBehind tabFirst m.bytes = tabAt then
        (readFifoOps tabAt n tabAt m.bytes fifo).map (m.op :: ·)
      else .error .fault := by
  -- a message has forty bytes, so the stream is not at its end
  have hne : m.bytes ++ fifo ≠ [] := by
    intro h
    have hlen := m.length_bytes
    rw [(List.append_eq_nil_iff.mp h).1] at hlen
    cases hlen
  rw [readFifoOps, if_neg hne, List.take_left' m.length_bytes, List.drop_left' m.length_bytes]
  -- the array now holds this message, whatever it held before
  simp only [readInto_bytes m buf, fifoOp_bytes]
  split
  · next hfirst => rw [hfirst]
  · rfl

/-- With nothing in the low byte of `Tab_first`, messages arrive as they were sent. -/
theorem readFifoOps_stream {tabAt : ℕ} (h : 256 ∣ tabAt) (ms : List Message) (buf : BufFifo) :
    readFifoOps tabAt (ms.length + 1) tabAt buf.1 (ms.flatMap Message.bytes) =
      .ok (ms.map Message.op) := by
  induction ms generalizing buf with
  | nil => rfl
  | cons m ms ih =>
    rw [List.flatMap_cons, List.length_cons, readFifoOps_cons, if_pos (readBehind_of_dvd h _),
      ih ⟨m.bytes, m.length_bytes⟩]
    rfl

/-- **Messages arrive as they were sent**, one operation each and in the same order, exactly when
there are none or the low byte of `Tab_first` is zero. -/
theorem readFifoOps_stream_iff (tabAt : ℕ) (ms : List Message) (buf : BufFifo) :
    readFifoOps tabAt (ms.length + 1) tabAt buf.1 (ms.flatMap Message.bytes) =
        .ok (ms.map Message.op) ↔
      ms = [] ∨ 256 ∣ tabAt := by
  by_cases hlow : 256 ∣ tabAt
  · exact iff_of_true (readFifoOps_stream hlow ms buf) (Or.inr hlow)
  · cases ms with
    | nil => exact iff_of_true rfl (Or.inl rfl)
    | cons m ms =>
      -- the first message ends in a fault
      have hfault : readBehind tabAt m.bytes ≠ tabAt :=
        mt (readBehind_eq_self_iff m.length_bytes).mp hlow
      rw [List.flatMap_cons, List.length_cons, readFifoOps_cons, if_neg hfault]
      exact iff_of_false nofun (by simp [hlow])

/-- The message that a session with pid 5022 sends when it starts. -/
def helloMessage : Message where
  bufFifo := ⟨List.replicate 40 '\x00', rfl⟩
  pid := 5022
  pts := "/dev/pts/4".toList
  addr := some "250012345".toList
  pid_pos := by decide
  pid_le := by decide
  pts_form := Or.inr ⟨by decide, by decide, (show IsField "/dev/pts/4".toList by decide).2⟩
  addr_form := by
    rintro a ⟨rfl⟩
    exact Or.inr ⟨by decide, by decide, (show IsField "250012345".toList by decide).2⟩

/-- It ends in a fault, when the low byte of `Tab_first` is not zero. -/
theorem not_readFifoOps_stream : ¬ ∀ (tabAt : ℕ) (ms : List Message) (buf : BufFifo),
    readFifoOps tabAt (ms.length + 1) tabAt buf.1 (ms.flatMap Message.bytes) =
      .ok (ms.map Message.op) := by
  intro h
  have hfault := h 0x55d0c0a0f2a0 [helloMessage] helloMessage.bufFifo
  revert hfault
  decide +kernel

end PadSvr
