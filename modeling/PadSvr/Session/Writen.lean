import PadSvr.Session.Syscall

/-!
# Writing whole buffers

`writensockint` writes a packet to the X.25 socket, whatever part of it each write accepts: it
puts the Q byte in front of what is left, over the last byte already sent. `writen` writes all
bytes to another descriptor, and gives up at the first failure.

## Main definitions

* `writensockint buf nbytes interHandler errorHandler`: the result, with the buffer as it leaves it
* `writen write data`: the number of bytes, or -1

## Main results

* `restores_writensockint`, `keeps_writen`: they keep what their writes and their handlers keep
-/

namespace PadSvr

open Scripted

/-- `Max_Error_Write`. -/
def maxErrorWrite : ℕ := 3

/-- The variables of `writensockint`, `ptr` an offset in the buffer. -/
structure WriteVars where
  buf : List UInt8
  ptr : ℕ
  nleft : ℕ
  cerr : ℕ

/-- The packet of the next write: the Q byte and the `nleft` bytes left. -/
def WriteVars.packet (v : WriteVars) : List UInt8 := (v.buf.drop v.ptr).take (v.nleft + 1)

/-- A write that accepts nothing: it was interrupted, or it failed, and the third failure in a row
ends the call. -/
def writensockintFailed (nbytes : ℕ) (interHandler errorHandler : SProg ℤ) (v : WriteVars) :
    SProg (WriteVars ⊕ (ℕ × List UInt8)) := do
  if (← Prog.get).sys.errno = .eintr then
    if (← interHandler) = 0 then pure (.inr (nbytes - v.nleft, v.buf)) else pure (.inl v)
  else if v.cerr + 1 < maxErrorWrite then pure (.inl { v with cerr := v.cerr + 1 })
  else do
    let _ ← errorHandler
    pure (.inr (nbytes - v.nleft, v.buf))

/-- One round of the loop of `writensockint`. -/
def writensockintRound (qbait : UInt8) (nbytes : ℕ) (interHandler errorHandler : SProg ℤ)
    (v : WriteVars) : SProg (WriteVars ⊕ (ℕ × List UInt8)) :=
  if v.nleft = 0 then pure (.inr (nbytes - v.nleft, v.buf))
  else do
    let v := { v with buf := v.buf.set v.ptr qbait }
    let nwritten ← writeSock v.packet
    -- a write that accepts nothing is taken for a failure, by the `errno` that is there
    if nwritten ≤ 0 then writensockintFailed nbytes interHandler errorHandler v
    else
      pure (.inl
        { v with
          cerr := 0
          -- the Q byte is not one of the bytes left, and the next one goes over the last byte sent
          nleft := v.nleft + 1 - nwritten.toNat
          ptr := v.ptr + nwritten.toNat - 1 })

/-- Write `nbytes` bytes of `buf` to the socket, the first being the Q byte. `nbytes` and the
result of every write must be at least 2. -/
def writensockint (buf : List UInt8) (nbytes : ℕ) (interHandler errorHandler : SProg ℤ) :
    SProg (ℕ × List UInt8) :=
  if nbytes < 2 then pure (0, buf)
  else
    Prog.iter (writensockintRound (buf.headD 0) nbytes interHandler errorHandler)
      ⟨buf, 0, nbytes - 1, 0⟩

/-- One round of the loop of `writen`, over the bytes left. -/
def writenRound (write : List UInt8 → SProg ℤ) (nbytes : ℕ) (left : List UInt8) :
    SProg (List UInt8 ⊕ ℤ) :=
  if left = [] then pure (.inr nbytes)
  else do
    let nwritten ← write left
    -- what was accepted before is forgotten: the caller only gets -1
    if nwritten ≤ 0 then pure (.inr (-1)) else pure (.inl (left.drop nwritten.toNat))

/-- Write all bytes of `data`. -/
def writen (write : List UInt8 → SProg ℤ) (data : List UInt8) : SProg ℤ :=
  Prog.iter (writenRound write data.length) data

/-- Where the loop over a packet of `n` bytes stands: `ptr` bytes of the payload are sent, `nleft`
are left, and the bytes behind `ptr` are those of the buffer. -/
structure WriteVars.Covers (buf : List UInt8) (n : ℕ) (v : WriteVars) : Prop where
  count : v.ptr + v.nleft + 1 = n
  lt : v.ptr < v.buf.length
  length : v.buf.length = buf.length
  rest : v.buf.drop (v.ptr + 1) = buf.drop (v.ptr + 1)

section Covers

variable {buf : List UInt8} {n : ℕ} {v : WriteVars}

/-- The Q byte is planted over a byte that is sent already, or over itself. -/
theorem WriteVars.Covers.plant (h : v.Covers buf n) (q : UInt8) :
    WriteVars.Covers buf n { v with buf := v.buf.set v.ptr q } where
  count := h.count
  lt := by simpa using h.lt
  length := by simpa using h.length
  rest := by rw [List.drop_set_of_lt (Nat.lt_succ_self _), h.rest]

/-- The packet of a round, once the Q byte is planted. -/
theorem WriteVars.Covers.packet_eq (h : v.Covers buf n) (q : UInt8) :
    WriteVars.packet { v with buf := v.buf.set v.ptr q } =
      q :: ((buf.drop 1).take (n - 1)).drop v.ptr := by
  have hlt := h.lt
  have hc := h.count
  unfold WriteVars.packet
  rw [List.drop_eq_getElem_cons (by simpa using hlt), List.getElem_set_self,
    List.drop_set_of_lt (Nat.lt_succ_self _), h.rest, List.take_succ_cons, List.drop_take,
    List.drop_drop]
  congr 2
  · dsimp only
    omega
  · rw [Nat.add_comm]

/-- A write accepts `m` bytes, the Q byte among them. -/
theorem WriteVars.Covers.accept (h : v.Covers buf n) {m : ℕ} (hm : 0 < m) (hle : m ≤ v.nleft + 1)
    (hlt : v.ptr + m ≤ v.buf.length) :
    WriteVars.Covers buf n
      { v with cerr := 0, nleft := v.nleft + 1 - m, ptr := v.ptr + m - 1 } where
  count := by
    have hc := h.count
    dsimp only
    omega
  lt := by
    dsimp only
    omega
  length := h.length
  rest := by
    have hr := congrArg (List.drop (m - 1)) h.rest
    rw [List.drop_drop, List.drop_drop] at hr
    have hp : v.ptr + 1 + (m - 1) = v.ptr + m - 1 + 1 := by omega
    rwa [hp] at hr

end Covers

section Keeps

open Prog

variable {E : Env → Prop} {J : SRun → Prop}

theorem restores_writensockint {I : SRun → Prop} {inter error : SProg ℤ} (hI : ∀ w, J w → I w)
    (hw : ∀ pkt, Restores E I J (writeSock pkt)) (hi : Restores E I J inter)
    (he : Restores E I J error) (buf : List UInt8) (n : ℕ) :
    Restores E I J (writensockint buf n inter error) := by
  have hfailed : ∀ v, Restores E I J (writensockintFailed n inter error v) := by
    intro v
    unfold writensockintFailed
    exact .bind .get fun _ =>
      .ite (.bind hi fun _ => .ite .pure .pure) (.ite .pure (.bind he fun _ => .pure))
  unfold writensockint
  refine .ite .pure (.iter hI (fun v => ?_) _)
  unfold writensockintRound
  exact .ite .pure (.bind (hw _) fun _ => .ite (hfailed _) .pure)

theorem keeps_writen {write : List UInt8 → SProg ℤ} (hw : ∀ left, Keeps E J (write left))
    (data : List UInt8) : Keeps E J (writen write data) := by
  unfold writen
  refine .iter (fun left => ?_) data
  unfold writenRound
  exact .ite .pure (.bind (hw left) fun _ => .ite .pure .pure)

end Keeps

end PadSvr
