import PadSvr.CString.Stdio
import PadSvr.Registry.Slots

/-!
# The table of the monitor

The rows of `struct pts_addr_entry`, from `Tab_first` to `Tab_last`, each field the C string it
holds. A row is free when its pid is the empty string.

## Main definitions

* `Row`: a row
* `findFree`, `insEntry`, `cleanEntry`: the operations
* `TabOp`: an operation with its arguments

## Main results

* `insEntry_eq`, `cleanEntry_eq`: they are those of a table of slots
* `occupied_insEntry`, `occupied_cleanEntry`: what they do to the rows that are not free
-/

namespace PadSvr

open CString Registry

/-- `MAXCHARPID`, `MAXCHARPTS`, `MAXCHARADR`. -/
def maxCharPid : ℕ := 5
def maxCharPts : ℕ := 15
def maxCharAdr : ℕ := 15

/-- A row of the table. -/
structure Row where
  pid : List Char
  pts : List Char
  addr : List Char
deriving DecidableEq, Repr

/-- `*(ite->pid) == 0`. -/
def Row.free (r : Row) : Bool := r.pid = []

/-- `*(ite->pid) = 0`. -/
def Row.wipe (r : Row) : Row := { r with pid := [] }

/-- The fields of a row that is entered. -/
def Row.entered (pid pts addr : List Char) : Row :=
  ⟨strncpy pid maxCharPid, strncpy pts maxCharPts, strncpy addr maxCharAdr⟩

/-- `find_free`: the first free row. -/
def findFree (tab : List Row) : Option ℕ := tab.findIdx? Row.free

/-- `ins_entry`, with `alloc_new`: the row that it appends is filled at once. -/
def insEntry (pid pts addr : List Char) (tab : List Row) : List Row :=
  match findFree tab with
  | some i => tab.set i (.entered pid pts addr)
  | none => tab ++ [.entered pid pts addr]

/-- `clean_entry`: free every row with this pid. -/
def cleanEntry (pid : List Char) (tab : List Row) : List Row :=
  tab.map fun r => if r.pid = pid then r.wipe else r

/-- An operation on the table. -/
inductive TabOp
  | ins (pid pts addr : List Char)
  | clean (pid : List Char)
deriving DecidableEq, Repr

/-- What an operation does to the table. -/
def TabOp.run : TabOp → List Row → List Row
  | .ins pid pts addr, tab => insEntry pid pts addr tab
  | .clean pid, tab => cleanEntry pid tab

/-- The table after `open_fifo_rd`: one free row, the rest of it as `malloc` returned it. -/
def openFifoRd (row : Row) : List Row := [row.wipe]

@[simp] theorem free_wipe (r : Row) : r.wipe.free = true := by simp [Row.free, Row.wipe]

/-- Entering a row is a step of a table of slots. -/
theorem insEntry_eq (pid pts addr : List Char) (tab : List Row) :
    insEntry pid pts addr tab = place Row.free (.entered pid pts addr) tab := by
  induction tab with
  | nil => rfl
  | cons r tab ih =>
    cases hr : r.free with
    | true => simp [insEntry, findFree, List.findIdx?_cons, place, hr]
    | false =>
      rw [place, if_neg (by simp [hr]), ← ih]
      simp only [insEntry, findFree, List.findIdx?_cons, hr, Bool.false_eq_true, if_false]
      cases tab.findIdx? Row.free with
      | none => rfl
      | some i => rfl

/-- Freeing the rows of a pid is a step of a table of slots. -/
theorem cleanEntry_eq (pid : List Char) (tab : List Row) :
    cleanEntry pid tab = release Row.pid Row.wipe pid tab := rfl

theorem free_entered {pid : List Char} (hpid : pid ≠ []) (pts addr : List Char) :
    (Row.entered pid pts addr).free = false := by
  simp [Row.free, Row.entered, strncpy, maxCharPid, hpid]

/-- The rows in use after a row is entered. -/
theorem occupied_insEntry {pid : List Char} (hpid : pid ≠ []) (pts addr : List Char)
    (tab : List Row) : occupied Row.free (insEntry pid pts addr tab) =
      (Request.add (.entered pid pts addr)).serve Row.pid (occupied Row.free tab) := by
  rw [insEntry_eq, occupied_place Row.free (free_entered hpid pts addr)]
  rfl

/-- The rows in use after the rows of a pid are freed. -/
theorem occupied_cleanEntry (pid : List Char) (tab : List Row) :
    occupied Row.free (cleanEntry pid tab) =
      (Request.drop pid).serve Row.pid (occupied Row.free tab) := by
  rw [cleanEntry_eq, occupied_release Row.free free_wipe]

end PadSvr
