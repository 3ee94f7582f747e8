import PadSvr.Linked.Path
import PadSvr.Monitor.Table
import Mathlib.Data.Finset.Lattice.Fold
import Mathlib.Order.Lattice.Nat

/-!
# The table of the monitor in memory

The rows are cells of a linked list from `Tab_first` to `Tab_last`, which are never given back.
`ins_entry` takes the first free one and links in another when there is none.

## Main definitions

* `PtsTab`: the memory and the two pointers
* `PtsTab.insEntry`, `PtsTab.cleanEntry`, `PtsTab.run`: the operations, and sequences of them
* `Shaped t as`: the list of `t` leads through the cells `as`, and they are all there are
* `Entered`, `Cleaned`: what an operation may change
* `peak`: the most rows in use at a time

## Main results

* `shaped_insEntry`, `shaped_cleanEntry`: the operations keep the shape, and are those on the rows
* `length_tabRows`: how long a table gets
* `ptsTab_run`: what every sequence of operations leaves, and what the next one does to it
-/

namespace PadSvr

open Linked Registry

/-- `Tab_first`, `Tab_last` and the cells they lead to. `brk` is the next address `malloc`
returns. -/
structure PtsTab where
  mem : Heap Row
  brk : ℕ
  tabFirst : Option ℕ
  tabLast : Option ℕ

namespace PtsTab

variable (malloc : ℕ → Row)

/-- `open_fifo_rd`. The memory from `malloc` is not cleared, but for the first character of the
pid. -/
def openFifoRd : PtsTab where
  mem := Function.update (fun _ => none) 0 (some ⟨(malloc 0).wipe, none⟩)
  brk := 1
  tabFirst := some 0
  tabLast := some 0

/-- `find_free`. There are no more cells than addresses given out. -/
def findFree (t : PtsTab) : Option (Option ℕ) := findFrom Row.free t.mem (t.brk + 1) t.tabFirst

/-- `alloc_new`, with the address it returns. -/
def allocNew (t : PtsTab) : Option (ℕ × PtsTab) :=
  match t.tabLast with
  | none => none
  | some last =>
    match t.mem last with
    | none => none
    | some c =>
      let mem := Function.update t.mem t.brk (some ⟨malloc t.brk, none⟩)
      some (t.brk,
        { t with
          mem := Function.update mem last (some { c with next := some t.brk })
          brk := t.brk + 1
          tabLast := some t.brk })

/-- The end of `ins_entry`: the fields are copied to a row. -/
def fill (t : PtsTab) (a : ℕ) (pid pts addr : List Char) : Option PtsTab :=
  (t.mem a).map fun c =>
    { t with mem := Function.update t.mem a (some { c with val := .entered pid pts addr }) }

/-- `ins_entry`. -/
def insEntry (t : PtsTab) (pid pts addr : List Char) : Option PtsTab :=
  match t.findFree with
  | none => none
  | some (some a) => t.fill a pid pts addr
  | some none =>
    match t.allocNew malloc with
    | none => none
    | some (a, t) => t.fill a pid pts addr

/-- `clean_entry`. -/
def cleanEntry (t : PtsTab) (pid : List Char) : Option PtsTab :=
  (mapFrom (fun r => if r.pid = pid then r.wipe else r) (t.brk + 1) t.tabFirst t.mem).map
    fun mem => { t with mem := mem }

/-- An operation. -/
def step (t : PtsTab) : TabOp → Option PtsTab
  | .ins pid pts addr => t.insEntry malloc pid pts addr
  | .clean pid => t.cleanEntry pid

/-- A sequence of operations on the table that `open_fifo_rd` builds. -/
def run (ops : List TabOp) : Option PtsTab := ops.foldlM (step malloc) (openFifoRd malloc)

/-- The rows, from `Tab_first` on. -/
def rows (t : PtsTab) : Option (List Row) := valsFrom t.mem (t.brk + 1) t.tabFirst

/-- The rows in use after a sequence of operations. -/
def occupiedAfter (ops : List TabOp) : ℕ :=
  (occupied Row.free (((run malloc ops).bind rows).getD [])).card

/-- The most rows in use at a time, in a sequence of operations. -/
def peak (ops : List TabOp) : ℕ :=
  (Finset.range (ops.length + 1)).sup fun k => occupiedAfter malloc (ops.take k)

end PtsTab

/-- An entry is made under a pid. -/
def TabOp.HasPid : TabOp → Prop
  | .ins pid _ _ => pid ≠ []
  | .clean _ => True

instance (op : TabOp) : Decidable op.HasPid :=
  match op with
  | .ins pid _ _ => inferInstanceAs (Decidable (pid ≠ []))
  | .clean _ => isTrue trivial

/-- One row is entered. It was free, or there was no free row and it is a new one. -/
def Entered (pid pts addr : List Char) (t t' : PtsTab) : Prop :=
  ∃ a, (∀ b, b ≠ a → (t'.mem b).map Cell.val = (t.mem b).map Cell.val) ∧
    (∀ c ∈ t.mem a, c.val.free = true) ∧
    (t.mem a = none → ∀ b, ∀ c ∈ t.mem b, c.val.free = false) ∧
    (t'.mem a).map Cell.val = some (.entered pid pts addr) ∧
    (Row.entered pid pts addr).free = false

/-- The rows under a pid have that pid wiped, and nothing else changes. -/
def Cleaned (pid : List Char) (t t' : PtsTab) : Prop :=
  t'.tabFirst = t.tabFirst ∧ t'.tabLast = t.tabLast ∧
    ∀ b, t'.mem b =
      (t.mem b).map fun c => if c.val.pid = pid then { c with val := c.val.wipe } else c

/-- The list leads through `as` to `Tab_last`, and there are no other cells. -/
structure Shaped (t : PtsTab) (as : List ℕ) : Prop where
  path : Path t.mem t.tabFirst as
  nodup : as.Nodup
  last : as.getLast? = t.tabLast
  ne_nil : as ≠ []
  mem_iff : ∀ a, (t.mem a).isSome ↔ a ∈ as
  lt_brk : ∀ a ∈ as, a < t.brk

section Shape

variable {t : PtsTab} {as pre post : List ℕ} {a : ℕ} {malloc : ℕ → Row}

theorem Shaped.length_lt (h : Shaped t as) : as.length < t.brk + 1 := by
  have hsub : as ⊆ List.range t.brk := fun a ha => List.mem_range.mpr (h.lt_brk a ha)
  have hle := (h.nodup.subperm hsub).length_le
  rw [List.length_range] at hle
  omega

theorem Shaped.rows (h : Shaped t as) : t.rows = some (vals t.mem as) :=
  valsFrom_eq h.path h.length_lt

/-- A shape depends on the addresses and the pointers in them only. -/
theorem Shaped.congr (h : Shaped t as) {mem : Heap Row}
    (hnext : ∀ a, (mem a).map Cell.next = (t.mem a).map Cell.next) :
    Shaped { t with mem := mem } as where
  path := h.path.congr fun a _ => hnext a
  nodup := h.nodup
  last := h.last
  ne_nil := h.ne_nil
  mem_iff a := by
    have hsome := congrArg Option.isSome (hnext a)
    rw [Option.isSome_map, Option.isSome_map] at hsome
    rw [← h.mem_iff a, hsome]
  lt_brk := h.lt_brk

theorem shaped_openFifoRd : Shaped (PtsTab.openFifoRd malloc) [0] where
  path := ⟨rfl, ⟨(malloc 0).wipe, none⟩, by simp [PtsTab.openFifoRd], rfl⟩
  nodup := List.nodup_singleton 0
  last := rfl
  ne_nil := List.cons_ne_nil 0 []
  mem_iff a := by
    by_cases ha : a = 0 <;> simp [PtsTab.openFifoRd, ha]
  lt_brk a ha := by
    rw [List.mem_singleton.mp ha]
    exact Nat.one_pos

theorem vals_openFifoRd :
    vals (PtsTab.openFifoRd malloc).mem [0] = openFifoRd (malloc 0) := by
  simp [vals, PtsTab.openFifoRd, openFifoRd]

/-- **A row is found by its address**: the rows in front of it are in use. -/
theorem Shaped.findFree (h : Shaped t as) :
    (t.findFree = some none ∧ ∀ r ∈ vals t.mem as, r.free = false) ∨
      ∃ pre a post c, t.findFree = some (some a) ∧ as = pre ++ a :: post ∧ t.mem a = some c ∧
        c.val.free = true ∧ ∀ r ∈ vals t.mem pre, r.free = false := by
  have hfree : ∀ pre : List ℕ, (∀ b ∈ pre, (!(t.mem b).any fun c => c.val.free) = true) →
      ∀ r ∈ vals t.mem pre, r.free = false := by
    intro pre hpre r hr
    obtain ⟨b, hb, hrb⟩ := List.mem_filterMap.mp hr
    obtain ⟨c, hc, rfl⟩ := Option.map_eq_some_iff.mp hrb
    have hany := hpre b hb
    rw [hc] at hany
    simpa using hany
  -- the loop of `find_free` ends, since the path is shorter than its bound
  have hrun : t.findFree = some (as.find? fun a => (t.mem a).any fun c => c.val.free) :=
    findFrom_eq Row.free h.path h.length_lt
  cases hfind : as.find? fun a => (t.mem a).any fun c => c.val.free with
  | none =>
    left
    refine ⟨hrun.trans (congrArg some hfind), hfree as fun b hb => ?_⟩
    simpa using List.find?_eq_none.mp hfind b hb
  | some a =>
    right
    obtain ⟨hany, pre, post, hsplit, hpre⟩ := List.find?_eq_some_iff_append.mp hfind
    obtain ⟨c, hc, hfr⟩ := (Option.any_eq_true _ _).mp hany
    exact ⟨pre, a, post, c, hrun.trans (congrArg some hfind), hsplit, hc, hfr, hfree pre hpre⟩

/-- A new cell is linked in behind the last one. -/
theorem Shaped.allocNew (h : Shaped t as) :
    ∃ t', t.allocNew malloc = some (t.brk, t') ∧ Shaped t' (as ++ [t.brk]) ∧
      t'.mem t.brk = some ⟨malloc t.brk, none⟩ ∧ t.mem t.brk = none ∧
      ∀ b, b ≠ t.brk → (t'.mem b).map Cell.val = (t.mem b).map Cell.val := by
  obtain ⟨front, last, rfl⟩ : ∃ front last, as = front ++ [last] :=
    List.eq_nil_or_concat' as |>.resolve_left h.ne_nil
  have hlast : t.tabLast = some last := by rw [← h.last, List.getLast?_concat]
  obtain ⟨c, hc⟩ := Option.isSome_iff_exists.mp ((h.mem_iff last).mpr (by simp))
  -- `malloc` returns an address that no row of the list has
  have hnew : t.brk ∉ front ++ [last] := fun hmem => (h.lt_brk t.brk hmem).false
  have hne : t.brk ≠ last := fun heq => hnew (by simp [heq])
  have hnone : t.mem t.brk = none := by
    rw [← Option.not_isSome_iff_eq_none, h.mem_iff]
    exact hnew
  rw [PtsTab.allocNew, hlast]
  simp only [hc]
  refine ⟨_, rfl, ?_, ?_, hnone, ?_⟩
  · constructor
    · exact h.path.link h.nodup hnew
    · exact h.nodup.append (List.nodup_singleton _) (by simpa using hnew)
    · simp
    · simp
    · intro b
      by_cases hbl : b = last
      · simp [hbl]
      · by_cases hbn : b = t.brk
        · simp [hbn, hne]
        · have := h.mem_iff b
          simp only [Function.update_of_ne hbl, Function.update_of_ne hbn, this]
          simp [hbn]
    · intro b hb
      rcases List.mem_append.mp hb with hb | hb
      · exact Nat.lt_succ_of_lt (h.lt_brk b hb)
      · rw [List.mem_singleton.mp hb]
        exact Nat.lt_succ_self t.brk
  · simp only
    rw [Function.update_of_ne hne, Function.update_self]
  · intro b hb
    by_cases hbl : b = last
    · subst hbl
      simp [hc]
    · simp [hbl, hb]

/-- The fields of one row are filled in, and nothing else changes. -/
theorem Shaped.fill (h : Shaped t (pre ++ a :: post)) (pid pts addr : List Char) :
    ∃ t', t.fill a pid pts addr = some t' ∧ Shaped t' (pre ++ a :: post) ∧
      vals t'.mem (pre ++ a :: post) =
        vals t.mem pre ++ .entered pid pts addr :: vals t.mem post ∧
      (t'.mem a).map Cell.val = some (.entered pid pts addr) ∧
      ∀ b, b ≠ a → t'.mem b = t.mem b := by
  obtain ⟨c, hc⟩ := Option.isSome_iff_exists.mp ((h.mem_iff a).mpr (by simp))
  rw [PtsTab.fill, hc]
  refine ⟨_, rfl, h.congr fun b => ?_, vals_update h.nodup, ?_, fun b hb => ?_⟩
  · by_cases hba : b = a
    · subst hba
      simp [hc]
    · rw [Function.update_of_ne hba]
  · simp
  · exact Function.update_of_ne hb ..

end Shape

section Operations

variable {t : PtsTab} {as : List ℕ} {malloc : ℕ → Row} {pid : List Char}

/-- **`ins_entry` keeps the shape**, enters one row, and is the operation on the rows. -/
theorem shaped_insEntry (h : Shaped t as) (hpid : pid ≠ []) (pts addr : List Char) :
    ∃ t' as', t.insEntry malloc pid pts addr = some t' ∧ Shaped t' as' ∧
      vals t'.mem as' = insEntry pid pts addr (vals t.mem as) ∧ Entered pid pts addr t t' := by
  have hnew := free_entered hpid pts addr
  rw [PtsTab.insEntry, insEntry_eq]
  rcases h.findFree with ⟨hnone, hfull⟩ | ⟨pre, a, post, c, hsome, rfl, hc, hfr, hpre⟩
  -- no row is free: a new one is linked in and filled
  · obtain ⟨t₁, halloc, h₁, hb, hbnone, hval⟩ := h.allocNew
    obtain ⟨t', hfill, h', hvals, ha, hother⟩ := h₁.fill pid pts addr
    have hcong : vals t₁.mem as = vals t.mem as :=
      vals_congr fun b hb => hval b (h.lt_brk b hb).ne
    rw [hnone, halloc]
    refine ⟨t', _, hfill, h', ?_, t.brk, fun b hb => ?_, ?_, fun _ b c hbc => ?_, ha, hnew⟩
    · rw [hvals, hcong, place_of_full Row.free hfull]
      rfl
    · rw [hother b hb, hval b hb]
    · rw [hbnone]
      nofun
    · refine hfull c.val (List.mem_filterMap.mpr ⟨b, (h.mem_iff b).mp ?_, ?_⟩)
      · rw [Option.mem_def.mp hbc]
        rfl
      · rw [Option.mem_def.mp hbc]
        rfl
  -- the first free row is filled
  · obtain ⟨t', hfill, h', hvals, ha, hother⟩ := h.fill pid pts addr
    rw [hsome]
    refine ⟨t', _, hfill, h', ?_, a, fun b hb => ?_, ?_, ?_, ha, hnew⟩
    · rw [hvals, vals_split hc, place_append Row.free hpre hfr]
    · rw [hother b hb]
    · rw [hc]
      rintro _ ⟨⟩
      exact hfr
    · rw [hc]
      nofun

/-- **`clean_entry` keeps the shape**, wipes the pids it is told, and is the operation on the
rows. -/
theorem shaped_cleanEntry (h : Shaped t as) (pid : List Char) :
    ∃ t', t.cleanEntry pid = some t' ∧ Shaped t' as ∧
      vals t'.mem as = cleanEntry pid (vals t.mem as) ∧ Cleaned pid t t' := by
  have hclean : Cleaned pid t
      { t with
        mem := fun a =>
          if a ∈ as then (t.mem a).map fun c =>
            { c with val := if c.val.pid = pid then c.val.wipe else c.val }
          else t.mem a } := by
    refine ⟨rfl, rfl, fun b => ?_⟩
    by_cases hb : b ∈ as
    · simp only [if_pos hb]
      refine congrArg (fun f => (t.mem b).map f) (funext fun c => ?_)
      split <;> rfl
    · have hnone : t.mem b = none := by
        rw [← Option.not_isSome_iff_eq_none, h.mem_iff]
        exact hb
      simp only [if_neg hb, hnone, Option.map_none]
  rw [PtsTab.cleanEntry, mapFrom_eq _ h.path h.nodup h.length_lt]
  refine ⟨_, rfl, h.congr fun b => ?_, ?_, hclean⟩
  · split
    · rw [Option.map_map]
      rfl
    · rfl
  · rw [cleanEntry, vals, vals, List.map_filterMap]
    refine List.filterMap_congr fun b hb => ?_
    simp only [if_pos hb, Option.map_map]
    rfl

end Operations

section Run

variable {malloc : ℕ → Row} {ops : List TabOp} {op : TabOp}

/-- The rows after a sequence of operations. -/
def tabRows (malloc : ℕ → Row) (ops : List TabOp) : List Row :=
  ops.foldl (fun tab op => op.run tab) (openFifoRd (malloc 0))

theorem tabRows_concat (ops : List TabOp) (op : TabOp) :
    tabRows malloc (ops ++ [op]) = op.run (tabRows malloc ops) := by
  rw [tabRows, List.foldl_append]
  rfl

/-- **A sequence of operations**: the list keeps its shape, and holds the rows. -/
theorem shaped_run (hops : ∀ op ∈ ops, op.HasPid) :
    ∃ t as, PtsTab.run malloc ops = some t ∧ Shaped t as ∧
      vals t.mem as = tabRows malloc ops := by
  induction ops using List.reverseRecOn with
  | nil => exact ⟨_, _, rfl, shaped_openFifoRd, vals_openFifoRd⟩
  | append_singleton ops op ih =>
    obtain ⟨t, as, hrun, h, hvals⟩ := ih fun op hop => hops op (by simp [hop])
    have hop := hops op (by simp)
    have hstep : PtsTab.run malloc (ops ++ [op]) = PtsTab.step malloc t op := by
      rw [PtsTab.run, List.foldlM_append, ← PtsTab.run, hrun]
      simp
    rw [hstep, tabRows_concat, ← hvals]
    cases op with
    | ins pid pts addr =>
      obtain ⟨t', as', ht', h', hvals', -⟩ := shaped_insEntry h hop pts addr
      exact ⟨t', as', ht', h', hvals'⟩
    | clean pid =>
      obtain ⟨t', ht', h', hvals', -⟩ := shaped_cleanEntry h pid
      exact ⟨t', as, ht', h', hvals'⟩

theorem occupiedAfter_eq (hops : ∀ op ∈ ops, op.HasPid) :
    PtsTab.occupiedAfter malloc ops = (occupied Row.free (tabRows malloc ops)).card := by
  obtain ⟨t, as, hrun, h, hvals⟩ := shaped_run hops
  rw [PtsTab.occupiedAfter, hrun, Option.bind_some, h.rows, hvals]
  rfl

theorem peak_concat (ops : List TabOp) (op : TabOp) :
    PtsTab.peak malloc (ops ++ [op]) =
      max (PtsTab.occupiedAfter malloc (ops ++ [op])) (PtsTab.peak malloc ops) := by
  have htake : (ops ++ [op]).take (ops.length + 1) = ops ++ [op] :=
    List.take_of_length_le (by simp)
  rw [PtsTab.peak, List.length_append, List.length_singleton, Finset.range_add_one,
    Finset.sup_insert, htake]
  refine congrArg (max _) (Finset.sup_congr rfl fun k hk => ?_)
  rw [List.take_append_of_le_length (Nat.lt_succ_iff.mp (Finset.mem_range.mp hk))]

/-- What an operation does to the length of the table, and to the rows in use. -/
theorem length_run (hop : op.HasPid) (tab : List Row) :
    max tab.length (occupied Row.free (op.run tab)).card = (op.run tab).length := by
  cases op with
  | ins pid pts addr =>
    rw [TabOp.run, occupied_insEntry hop, insEntry_eq, length_place]
    exact congrArg (max _)
      (Multiset.card_cons (Row.entered pid pts addr) (occupied Row.free tab))
  | clean pid =>
    -- rows are wiped, not taken out
    have hlen : (cleanEntry pid tab).length = tab.length := List.length_map _
    have hle := card_occupied_le Row.free (cleanEntry pid tab)
    rw [TabOp.run, hlen]
    omega

/-- **The table is as long as it had to be.** -/
theorem length_tabRows (hops : ∀ op ∈ ops, op.HasPid) :
    (tabRows malloc ops).length = max 1 (PtsTab.peak malloc ops) := by
  induction ops using List.reverseRecOn with
  | nil =>
    have hzero : PtsTab.peak malloc [] = 0 := by
      rw [PtsTab.peak, List.length_nil, zero_add, Finset.range_one, Finset.sup_singleton,
        List.take_nil, occupiedAfter_eq (by simp)]
      rfl
    rw [hzero]
    rfl
  | append_singleton ops op ih =>
    have hlen := ih fun op hop => hops op (by simp [hop])
    rw [peak_concat, occupiedAfter_eq hops, tabRows_concat, ← length_run (hops op (by simp)), hlen]
    omega

/-- **The table in memory, after every sequence of operations**: the list from `Tab_first` ends at
`Tab_last`, meets no cell twice, and has as many cells as there were rows in use at a time; the
next operation changes one free row, or wipes the pids it is told. -/
theorem ptsTab_run (hops : ∀ op ∈ ops, op.HasPid) :
    ∃ t, PtsTab.run malloc ops = some t ∧
      (∃ as, Path t.mem t.tabFirst as ∧ as.Nodup ∧ as.getLast? = t.tabLast ∧
        as.length = max 1 (PtsTab.peak malloc ops)) ∧
      (∀ pid pts addr, pid ≠ [] →
        ∃ t', t.insEntry malloc pid pts addr = some t' ∧ Entered pid pts addr t t') ∧
      ∀ pid, ∃ t', t.cleanEntry pid = some t' ∧ Cleaned pid t t' := by
  obtain ⟨t, as, hrun, h, hvals⟩ := shaped_run hops
  refine ⟨t, hrun, ⟨as, h.path, h.nodup, h.last, ?_⟩, fun pid pts addr hpid => ?_, fun pid => ?_⟩
  · rw [← length_vals h.path, hvals, length_tabRows hops]
  · obtain ⟨t', -, ht', -, -, hentered⟩ := shaped_insEntry h hpid pts addr
    exact ⟨t', ht', hentered⟩
  · obtain ⟨t', ht', -, -, hcleaned⟩ := shaped_cleanEntry h pid
    exact ⟨t', ht', hcleaned⟩

/-- Two sessions, of which one ends. -/
theorem ptsTab_run_three :
    ∃ t, PtsTab.run (fun _ => ⟨[], [], []⟩)
        [.ins ['1'] ['/'] ['a'], .ins ['2'] ['/'] ['b'], .clean ['1']] = some t ∧
      (∃ as, Path t.mem t.tabFirst as ∧ as.Nodup ∧ as.getLast? = t.tabLast ∧
        as.length = max 1 (PtsTab.peak (fun _ => ⟨[], [], []⟩)
          [.ins ['1'] ['/'] ['a'], .ins ['2'] ['/'] ['b'], .clean ['1']])) ∧
      (∀ pid pts addr, pid ≠ [] → ∃ t',
        t.insEntry (fun _ => ⟨[], [], []⟩) pid pts addr = some t' ∧ Entered pid pts addr t t') ∧
      ∀ pid, ∃ t', t.cleanEntry pid = some t' ∧ Cleaned pid t t' :=
  ptsTab_run (by decide)

end Run

end PadSvr
