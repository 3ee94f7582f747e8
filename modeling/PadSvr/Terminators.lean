import PadSvr.CString.Memory
import PadSvr.Monitor.Message

/-!
# The terminators of `read_fifo` and `exist_pid`

Both read into an array and store a NUL behind what they have read. A read may fill the array, and
then the NUL is stored behind it.

## Main definitions

* `terminated mem data`: the memory after a read and the NUL behind it
* `fifoScan`, `readFifoRounds`: the reads of `read_fifo`, and the tokens they are cut into
* `existPidRound`: the read of `exist_pid`
* `InArray size r`: a round that stays inside its array

## Main results

* `fifoScan_spec`: the tokens are the fields, and no walk is longer than what was read
* `inArray_iff`: when both stay inside their arrays
-/

namespace PadSvr

open CString

/-- The size of `buf` in `exist_pid`. -/
def sizePidBuf : ℕ := 30

/-- What a call of `read` for `size` bytes can return. -/
structure ReadData (size : ℕ) where
  data : List Char
  length_le : data.length ≤ size

/-- The memory from an array on, after `data` was read to it and a NUL stored behind that. -/
def terminated (mem : ℕ → Char) (data : List Char) : ℕ → Char :=
  Function.update (fun i => data.getD i (mem i)) data.length '\x00'

/-- Where a round has stored its NUL, and where its walks have ended. -/
structure Round where
  terminator : ℕ
  stops : List ℕ

/-- Everything that a round touches behind what it has read is inside the array. -/
def InArray (size : ℕ) (r : Round) : Prop := r.terminator < size ∧ ∀ j ∈ r.stops, j < size

/-- The three calls of `strtok_r`. -/
structure FifoScan where
  pid : TokenAt
  pts : TokenAt
  addr : TokenAt

/-- The calls of `strtok_r` in `read_fifo` after a read of `data`: the later two begin at the save
pointer, whether there was a token or not. -/
def fifoScan (mem : ℕ → Char) (data : List Char) : Option FifoScan := do
  let n := data.length + 1
  let pid ← strtokR fifoDelim (terminated mem data) n 0
  let pts ← strtokR fifoDelim pid.mem n pid.save
  let addr ← strtokR fifoDelim pts.mem n pts.save
  pure ⟨pid, pts, addr⟩

/-- The strings that the three pointers point to, unless one of them is `NULL`. -/
def FifoScan.fields (f : FifoScan) (k : ℕ) : Option (List Char × List Char × List Char) := do
  let pid ← f.pid.token
  let pts ← f.pts.token
  let addr ← f.addr.token
  pure (strAt f.addr.mem k pid, strAt f.addr.mem k pts, strAt f.addr.mem k addr)

/-- The rounds of `read_fifo`, for what its reads return. -/
def readFifoRounds : (ℕ → Char) → List (ReadData maxFifoMes) → Option (List Round)
  | _, [] => some []
  | mem, d :: ds => do
    let f ← fifoScan mem d.data
    let rs ← readFifoRounds f.addr.mem ds
    pure (⟨d.data.length, [f.pid.stop, f.pts.stop, f.addr.stop]⟩ :: rs)

/-- The read of `exist_pid`, with `atoi` behind it. -/
def existPidRound (mem : ℕ → Char) (d : ReadData sizePidBuf) : Option Round :=
  (atoiScan (terminated mem d.data) (d.data.length + 1)).map fun stops => ⟨d.data.length, stops⟩

section Rounds

variable {mem : ℕ → Char} {data : List Char}

theorem terminated_length : terminated mem data data.length = '\x00' := Function.update_self ..

theorem strAt_terminated : strAt (terminated mem data) data.length 0 = cstr data := by
  rw [strAt, Nat.sub_zero]
  refine congrArg cstr (List.ext_getElem (by simp) fun i hi hi' => ?_)
  simp only [List.getElem_map, List.getElem_range', terminated]
  rw [Function.update_of_ne (by omega)]
  simp [hi']

theorem nul_notMem_fifoDelim : '\x00' ∉ fifoDelim := by decide

/-- **The three calls of `strtok_r`** end before the NUL, and find the fields. -/
theorem fifoScan_spec (mem : ℕ → Char) (data : List Char) :
    ∃ f, fifoScan mem data = some f ∧ f.fields data.length = fifoFields data ∧
      f.pid.stop ≤ data.length ∧ f.pts.stop ≤ data.length ∧ f.addr.stop ≤ data.length := by
  have hnul₀ : terminated mem data data.length = '\x00' := terminated_length
  obtain ⟨r₁, hr₁, k₁, h₁⟩ := strtokR_spec (n := data.length + 1) nul_notMem_fifoDelim hnul₀
    (Nat.zero_le _) (by omega)
  -- a call only adds NULs, so the one behind the data is still there
  have hnul₁ := k₁.nul _ hnul₀
  obtain ⟨r₂, hr₂, k₂, h₂⟩ := strtokR_spec (n := data.length + 1) nul_notMem_fifoDelim hnul₁
    k₁.save_le (by omega)
  have hnul₂ := k₂.nul _ hnul₁
  obtain ⟨r₃, hr₃, k₃, h₃⟩ := strtokR_spec (n := data.length + 1) nul_notMem_fifoDelim hnul₂
    k₂.save_le (by omega)
  refine ⟨⟨r₁, r₂, r₃⟩, ?_, ?_, k₁.stop, k₂.stop, k₃.stop⟩
  · simp only [fifoScan, hr₁, hr₂, hr₃, Option.bind_eq_bind, Option.bind_some, Option.pure_def]
  · rw [strAt_terminated] at h₁
    rw [fifoFields, FifoScan.fields]
    rcases h₁ with ⟨hs₁, ht₁, -⟩ | ⟨t₁, hs₁, ht₁⟩
    · rw [hs₁]
      simp [ht₁]
    · -- the later calls leave the token where it is
      obtain ⟨b₁, hb₁, hstr₁⟩ := ht₁.congr k₁.save_le (m := r₃.mem)
        (fun i hi => (k₃.front i (hi.trans_le k₂.le_save)).trans (k₂.front i hi))
        fun i hi => k₃.nul i (k₂.nul i hi)
      rcases h₂ with ⟨hs₂, ht₂, -⟩ | ⟨t₂, hs₂, ht₂⟩
      · simp [hs₁, hs₂, hb₁, ht₂]
      · obtain ⟨b₂, hb₂, hstr₂⟩ := ht₂.congr k₂.save_le (m := r₃.mem) k₃.front k₃.nul
        rcases h₃ with ⟨hs₃, ht₃, -⟩ | ⟨t₃, hs₃, ht₃⟩
        · simp [hs₁, hs₂, hs₃, hb₁, hb₂, ht₃]
        · obtain ⟨b₃, hb₃, hstr₃⟩ := ht₃.congr k₃.save_le (m := r₃.mem) (fun _ _ => rfl) fun _ => id
          simp [hs₁, hs₂, hs₃, hb₁, hb₂, hb₃, hstr₁, hstr₂, hstr₃]

/-- What the rounds of `read_fifo` touch. -/
theorem readFifoRounds_spec (ds : List (ReadData maxFifoMes)) : ∀ mem,
    ∃ rs, readFifoRounds mem ds = some rs ∧
      List.Forall₂ (fun d r => r.terminator = d.data.length ∧
        ∀ j ∈ r.stops, j ≤ d.data.length) ds rs := by
  induction ds with
  | nil => exact fun mem => ⟨[], rfl, .nil⟩
  | cons d ds ih =>
    intro mem
    obtain ⟨f, hf, -, h₁, h₂, h₃⟩ := fifoScan_spec mem d.data
    obtain ⟨rs, hrs, hall⟩ := ih f.addr.mem
    refine ⟨⟨d.data.length, [f.pid.stop, f.pts.stop, f.addr.stop]⟩ :: rs, ?_,
      .cons ⟨rfl, by simp [h₁, h₂, h₃]⟩ hall⟩
    simp only [readFifoRounds, hf, hrs, Option.bind_eq_bind, Option.bind_some, Option.pure_def]

theorem existPidRound_spec (mem : ℕ → Char) (d : ReadData sizePidBuf) :
    ∃ r, existPidRound mem d = some r ∧ r.terminator = d.data.length ∧
      ∀ j ∈ r.stops, j ≤ d.data.length := by
  have hnul : terminated mem d.data d.data.length = '\x00' := terminated_length
  obtain ⟨js, hjs, hall⟩ := atoiScan_spec hnul (Nat.lt_succ_self _)
  exact ⟨⟨d.data.length, js⟩, by rw [existPidRound, hjs]; rfl, rfl, hall⟩

end Rounds

/-- A round stays inside its array if the read has left room in it. -/
theorem inArray_of_spec {size n : ℕ} {r : Round} (hr : r.terminator = n)
    (hstops : ∀ j ∈ r.stops, j ≤ n) : InArray size r ↔ n < size := by
  constructor
  · rintro ⟨hlt, -⟩
    omega
  · intro hlt
    exact ⟨by omega, fun j hj => (hstops j hj).trans_lt hlt⟩

/-- **Both functions stay inside their arrays exactly when no read fills one.** -/
theorem inArray_iff (bufFifo buf : ℕ → Char) (ds : List (ReadData maxFifoMes))
    (d : ReadData sizePidBuf) :
    ((∃ rs, readFifoRounds bufFifo ds = some rs ∧ ∀ r ∈ rs, InArray maxFifoMes r) ∧
        ∃ r, existPidRound buf d = some r ∧ InArray sizePidBuf r) ↔
      (∀ d ∈ ds, d.data.length < maxFifoMes) ∧ d.data.length < sizePidBuf := by
  obtain ⟨rs, hrs, hall⟩ := readFifoRounds_spec ds bufFifo
  obtain ⟨r, hr, hterm, hstops⟩ := existPidRound_spec buf d
  rw [hrs, hr]
  simp only [Option.some.injEq, exists_eq_left']
  refine and_congr ?_ (inArray_of_spec hterm hstops)
  clear hrs
  induction hall with
  | nil => simp
  | cons h _ ih =>
    rw [List.forall_mem_cons, List.forall_mem_cons, ih, inArray_of_spec h.1 h.2]

/-- A message fills `Buf_fifo`. -/
theorem not_inArray :
    ¬ ∀ (bufFifo buf : ℕ → Char) (ds : List (ReadData maxFifoMes)) (d : ReadData sizePidBuf),
      (∃ rs, readFifoRounds bufFifo ds = some rs ∧ ∀ r ∈ rs, InArray maxFifoMes r) ∧
        ∃ r, existPidRound buf d = some r ∧ InArray sizePidBuf r := by
  intro h
  let full : ReadData maxFifoMes := ⟨List.replicate 40 '-', by decide⟩
  have hlt := ((inArray_iff _ _ [full] ⟨[], by decide⟩).mp (h (fun _ => '-') (fun _ => '-') _ _)).1
  have hfull := hlt full List.mem_cons_self
  revert hfull
  decide

end PadSvr
