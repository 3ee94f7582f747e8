import PadSvr.Monitor.Reflect
import PadSvr.Monitor.RoundTrip

/-!
# The report of the table

Whoever opens the second FIFO and sends `SIGUSR1` gets the table as text: a line of headings, a line
for each row in use with tabs between its fields, and a line that ends it. The FIFO does not wait,
so each line may be lost, and `upload_pts_addr_tab` goes on. The fields come out of `strtok_r`, so a
tab in one of them would have to come from a session.

## Main definitions

* `readReport`: what a reader makes of such a text
* `Plain`: a field without a tab or the end of a line
* `Maintained P`: an assertion on the sessions, the FIFO and the table that the monitor keeps
* `Legible`: every row in use is plain, and stays so as the FIFO is served
* `TabReport`, `ReadsBack`: what is written, read back

## Main results

* `readReport_of_sublist`: lines of the text are read back to the rows they are for
* `Maintained.doMonitor`: what one message keeps, every run of the monitor keeps
* `doMonitor_readsBack`: every report of every run is read back to the rows whose lines it has
-/

namespace PadSvr

open Scripted Scripted.Prog CString Registry

/-! ## The text and its reader -/

/-- `MAXLINE`. -/
def maxLine : ℕ := 1000

/-- The rows in use, with their numbers. -/
def listed (tab : List Row) : List (ℕ × Row) :=
  tab.zipIdx.filterMap fun x => if x.1.free then none else some (x.2, x.1)

/-- The line of a row. -/
def rowLine (x : ℕ × Row) : List Char :=
  ['\t'].intercalate [decimal x.1, x.2.pid, x.2.pts, x.2.addr]

def headings : List Char := "Num\tPID\tPts\tX.25_addr".toList

def lastLine : List Char := "End of table.".toList

/-- What a reader makes of a line: the number of a row, and its fields. -/
def readRow (line : List Char) : Option (ℕ × Row) :=
  match line.splitOn '\t' with
  | [num, pid, pts, addr] => some ((digits num).toNat, ⟨pid, pts, addr⟩)
  | _ => none

/-- What he makes of the lines below the headings. -/
def readRows : List (List Char) → Option (List (ℕ × Row))
  | [] => none
  | line :: lines =>
    if line = lastLine then some []
    else (readRow line).bind fun x => (readRows lines).map (x :: ·)

/-- What he makes of a text. -/
def readReport (text : List Char) : Option (List (ℕ × Row)) :=
  match text.splitOn '\n' with
  | [] => none
  | header :: lines =>
    if header = headings then readRows lines else none

/-- A field without a tab or the end of a line. -/
def Plain (w : List Char) : Prop := '\t' ∉ w ∧ '\n' ∉ w

/-- The fields are plain, and as long as they can be. -/
structure Row.Plain (r : Row) : Prop where
  pid : PadSvr.Plain r.pid
  pts : PadSvr.Plain r.pts
  addr : PadSvr.Plain r.addr
  fits : r.pid.length ≤ maxCharPid ∧ r.pts.length ≤ maxCharPts ∧ r.addr.length ≤ maxCharAdr

section Text

variable {w : List Char} {tab : List Row} {r : Row} {i : ℕ}

theorem plain_decimal (n : ℕ) : Plain (decimal n) := by
  constructor
  all_goals
    intro h
    simpa using isDigit_of_mem_decimal h

theorem Plain.take (h : Plain w) (n : ℕ) : Plain (w.take n) :=
  ⟨fun hm => h.1 (List.mem_of_mem_take hm), fun hm => h.2 (List.mem_of_mem_take hm)⟩

theorem plain_entered {pid pts addr : List Char} (hpid : Plain pid) (hpts : Plain pts)
    (haddr : Plain addr) : (Row.entered pid pts addr).Plain where
  pid := hpid.take _
  pts := hpts.take _
  addr := haddr.take _
  fits := ⟨List.length_take_le .., List.length_take_le .., List.length_take_le ..⟩

/-- Lines with their ends, and something behind them. -/
theorem intercalate_concat (d : Char) (ls : List (List Char)) (l : List Char) :
    [d].intercalate (ls ++ [l]) = (ls.map (· ++ [d])).flatten ++ l := by
  induction ls with
  | nil => simp
  | cons l' ls ih =>
    rw [List.map_cons, List.flatten_cons, List.cons_append,
      List.intercalate_cons_of_ne_nil (by simp), ih, List.append_assoc, List.append_assoc,
      List.append_assoc]

/-- The pieces of a text that is cut are beginnings of its lines. -/
theorem prefix_of_mem_splitOn {d : Char} {ls : List (List Char)} (hls : ∀ l ∈ ls, d ∉ l)
    {p : List Char} (hp : p <+: [d].intercalate ls) :
    ∀ x ∈ p.splitOn d, x = [] ∨ ∃ l ∈ ls, x <+: l := by
  induction ls generalizing p with
  | nil =>
    obtain rfl := List.prefix_nil.mp hp
    exact fun x hx => Or.inl (by simpa using hx)
  | cons l ls ih =>
    have hl : d ∉ l := hls l List.mem_cons_self
    -- the cut is in the first line, or behind it
    have hfirst : p <+: l → ∀ x ∈ p.splitOn d, x = [] ∨ ∃ l' ∈ l :: ls, x <+: l' := by
      intro hpl x hx
      rw [List.splitOn_eq_singleton fun hd => hl (hpl.subset hd), List.mem_singleton] at hx
      exact Or.inr ⟨l, List.mem_cons_self, hx ▸ hpl⟩
    by_cases hne : ls = []
    · subst hne
      rw [List.intercalate_singleton] at hp
      exact hfirst hp
    · rw [List.intercalate_cons_of_ne_nil hne, List.append_assoc] at hp
      rcases List.prefix_or_prefix_of_prefix hp (List.prefix_append ..) with hpl | ⟨p', rfl⟩
      · exact hfirst hpl
      · have hp' := (List.prefix_append_right_inj l).mp hp
        rcases p' with _ | ⟨c, p'⟩
        · exact hfirst (by simp)
        · obtain ⟨rfl, hrest⟩ := List.cons_prefix_cons.mp hp'
          intro x hx
          rw [List.splitOn_append_cons_self, List.splitOn_eq_singleton hl, List.mem_append,
            List.mem_singleton] at hx
          rcases hx with rfl | hx
          · exact Or.inr ⟨x, List.mem_cons_self, List.prefix_rfl⟩
          · exact (ih (fun l' hl' => hls l' (List.mem_cons_of_mem _ hl')) hrest x hx).imp_right
              fun ⟨l', hl', h⟩ => ⟨l', List.mem_cons_of_mem _ hl', h⟩

/-- The lines, without their ends. -/
def tabLines (tab : List Row) : List (List Char) :=
  headings :: ((listed tab).map rowLine ++ [lastLine])

theorem tabText_eq (tab : List Row) : tabText tab = (tabLines tab).map (· ++ ['\n']) := by
  have hrows : ((listed tab).map rowLine).map (· ++ ['\n']) = tab.zipIdx.filterMap fun x =>
      if x.1.free then none
      else some (decimal x.2 ++ '\t' :: x.1.pid ++ '\t' :: x.1.pts ++ '\t' :: x.1.addr ++
        ['\n']) := by
    rw [listed, List.map_filterMap, List.map_filterMap]
    refine List.filterMap_congr fun x _ => ?_
    by_cases hf : x.1.free
    · simp [hf]
    · simp [hf, rowLine]
  rw [tabLines, List.map_cons, List.map_append, hrows, tabText]
  rfl

/-- What is written are lines of the text, in their order. -/
theorem sublist_uploadPtsAddrTab (written : ℕ → Bool) (s : Moni) :
    (uploadPtsAddrTab written s).Sublist (tabText s.tab) := by
  have hkept : ∀ ls : List (List Char),
      ((ls.zipIdx.filter fun x => written x.2).map Prod.fst).Sublist ls := by
    intro ls
    have hsub := (List.filter_sublist (p := fun x => written x.2) (l := ls.zipIdx)).map Prod.fst
    rwa [List.zipIdx_map_fst] at hsub
  unfold uploadPtsAddrTab
  dsimp only
  split
  · exact hkept _
  · exact (hkept _).trans (List.take_sublist ..)

/-- **A line is read back.** -/
theorem readRow_rowLine (h : r.Plain) (i : ℕ) : readRow (rowLine (i, r)) = some (i, r) := by
  have hsplit : (rowLine (i, r)).splitOn '\t' = [decimal i, r.pid, r.pts, r.addr] := by
    refine List.splitOn_intercalate _ (fun l hl => ?_) (by simp)
    simp only [List.mem_cons, List.not_mem_nil, or_false] at hl
    rcases hl with rfl | rfl | rfl | rfl
    · exact (plain_decimal i).1
    · exact h.pid.1
    · exact h.pts.1
    · exact h.addr.1
  simp [readRow, hsplit, digits_decimal]

theorem newline_notMem_rowLine (h : r.Plain) (i : ℕ) : '\n' ∉ rowLine (i, r) := by
  have hi := (plain_decimal i).2
  simp [rowLine, hi, h.pid.2, h.pts.2, h.addr.2]

/-- A line of a row begins with a digit, and the first and the last line do not. -/
theorem head_rowLine (x : ℕ × Row) : ∃ c l, rowLine x = c :: l ∧ c.isDigit := by
  obtain ⟨c, s, hc⟩ := List.exists_cons_of_ne_nil (decimal_ne_nil x.1)
  exact ⟨c, s ++ '\t' :: (x.2.pid ++ '\t' :: (x.2.pts ++ '\t' :: x.2.addr)),
    by simp [rowLine, hc], isDigit_of_mem_decimal (hc ▸ List.mem_cons_self)⟩

theorem rowLine_ne_headings (x : ℕ × Row) : rowLine x ≠ headings := by
  intro h
  obtain ⟨c, l, hc, hdigit⟩ := head_rowLine x
  obtain ⟨rfl, -⟩ := List.cons_eq_cons.mp (hc.symm.trans h)
  cases hdigit

theorem not_lastLine_prefix_rowLine (x : ℕ × Row) : ¬ lastLine <+: rowLine x := by
  intro h
  obtain ⟨c, l, hc, hdigit⟩ := head_rowLine x
  rw [hc] at h
  obtain ⟨rfl, -⟩ := List.cons_prefix_cons.mp h
  cases hdigit

theorem readRows_map {xs : List (ℕ × Row)} (h : ∀ x ∈ xs, x.2.Plain) (ls : List (List Char)) :
    readRows (xs.map rowLine ++ lastLine :: ls) = some xs := by
  induction xs with
  | nil => rw [List.map_nil, List.nil_append, readRows, if_pos rfl]
  | cons x xs ih =>
    have hne : rowLine x ≠ lastLine := fun he =>
      not_lastLine_prefix_rowLine x (he ▸ List.prefix_rfl)
    rw [List.map_cons, List.cons_append, readRows, if_neg hne,
      ih fun y hy => h y (List.mem_cons_of_mem _ hy), readRow_rowLine (h x List.mem_cons_self) x.1]
    rfl

theorem mem_listed : (i, r) ∈ listed tab ↔ tab[i]? = some r ∧ r.free = false := by
  simp only [listed, List.mem_filterMap, Option.ite_none_left_eq_some, Option.some.injEq,
    Prod.mk.injEq]
  constructor
  · rintro ⟨x, hx, hf, rfl, rfl⟩
    exact ⟨List.mem_zipIdx_iff_getElem?.mp hx, by simpa using hf⟩
  · rintro ⟨ht, hf⟩
    exact ⟨(r, i), List.mem_zipIdx_iff_getElem?.mpr ht, by simpa using hf, rfl, rfl⟩

theorem newline_notMem_tabLines (h : ∀ r ∈ tab, r.free = false → r.Plain) :
    ∀ l ∈ tabLines tab, '\n' ∉ l := by
  intro l hl
  rcases List.mem_cons.mp hl with rfl | hl
  · decide
  · rcases List.mem_append.mp hl with hl | hl
    · obtain ⟨⟨i, r⟩, hx, rfl⟩ := List.mem_map.mp hl
      obtain ⟨ht, hf⟩ := mem_listed.mp hx
      exact newline_notMem_rowLine (h r (List.mem_of_getElem? ht) hf) i
    · rw [List.mem_singleton.mp hl]
      decide

/-- Without its last line, nothing is a report. -/
theorem readRows_eq_none {ls : List (List Char)} (h : lastLine ∉ ls) : readRows ls = none := by
  induction ls with
  | nil => rfl
  | cons l ls ih =>
    obtain ⟨hl, hls⟩ := List.ne_and_not_mem_of_not_mem_cons h
    rw [readRows, if_neg (Ne.symm hl), ih hls]
    cases readRow l <;> rfl

theorem readReport_eq_none {text : List Char} (h : lastLine ∉ text.splitOn '\n') :
    readReport text = none := by
  rw [readReport]
  split
  · rfl
  · next header lines hsplit =>
    rw [hsplit] at h
    split
    · exact readRows_eq_none fun hm => h (List.mem_cons_of_mem _ hm)
    · rfl

theorem splitOn_lines {ls : List (List Char)} (h : ∀ l ∈ ls, '\n' ∉ l) :
    (ls.map (· ++ ['\n'])).flatten.splitOn '\n' = ls ++ [[]] := by
  rw [← List.append_nil (List.flatten _), ← intercalate_concat]
  refine List.splitOn_intercalate _ (fun l hl => ?_) (by simp)
  rcases List.mem_append.mp hl with hl | hl
  · exact h l hl
  · rw [List.mem_singleton.mp hl]
    exact List.not_mem_nil

theorem nodup_listed (tab : List Row) : (listed tab).Nodup := by
  have hnum : (tab.zipIdx.map Prod.snd).Nodup := by
    rw [List.zipIdx_map_snd]
    exact List.nodup_range'
  refine List.Nodup.filterMap (fun x y z hx hy => ?_) (.of_map _ hnum)
  simp only [Option.mem_def, Option.ite_none_left_eq_some, Option.some.injEq] at hx hy
  have hz := hx.2.trans hy.2.symm
  exact Prod.ext (congrArg Prod.snd hz) (congrArg Prod.fst hz)

/-- A sublist of a list without duplicates is what a filter leaves of it. -/
theorem filter_of_sublist {α : Type} {xs l : List α} {p : α → Bool} (h : xs.Sublist l)
    (hl : l.Nodup) (hp : ∀ x ∈ l, p x = true ↔ x ∈ xs) : l.filter p = xs := by
  induction h with
  | slnil => rfl
  | @cons xs l a h ih =>
    obtain ⟨ha, hl⟩ := List.nodup_cons.mp hl
    have hpa : ¬ p a = true := fun hpa => ha (h.subset ((hp a List.mem_cons_self).mp hpa))
    rw [List.filter_cons_of_neg hpa]
    exact ih hl fun x hx => hp x (List.mem_cons_of_mem _ hx)
  | @cons_cons xs l a h ih =>
    obtain ⟨ha, hl⟩ := List.nodup_cons.mp hl
    rw [List.filter_cons_of_pos ((hp a List.mem_cons_self).mpr List.mem_cons_self), ih hl]
    intro x hx
    have hne : x ≠ a := fun he => ha (he ▸ hx)
    rw [hp x (List.mem_cons_of_mem _ hx), List.mem_cons, or_iff_right hne]

/-- The lines of plain rows tell the rows apart. -/
theorem rowLine_inj {x y : ℕ × Row} (hx : x.2.Plain) (hy : y.2.Plain) (h : rowLine x = rowLine y) :
    x = y :=
  Option.some.inj ((readRow_rowLine hx x.1).symm.trans
    ((congrArg readRow h).trans (readRow_rowLine hy y.1)))

theorem lastLine_notMem_rows (xs : List (ℕ × Row)) : lastLine ∉ xs.map rowLine := by
  intro hm
  obtain ⟨x, -, hx⟩ := List.mem_map.mp hm
  exact not_lastLine_prefix_rowLine x (hx ▸ List.prefix_rfl)

theorem headings_notMem_rest (tab : List Row) :
    headings ∉ (listed tab).map rowLine ++ [lastLine] := by
  intro hm
  rcases List.mem_append.mp hm with hm | hm
  · obtain ⟨x, -, hx⟩ := List.mem_map.mp hm
    exact rowLine_ne_headings x hx
  · revert hm
    decide

/-- **Lines of the text are read back to the rows they are for**, if the first and the last one are
among them. -/
theorem readReport_of_sublist (h : ∀ r ∈ tab, r.free = false → r.Plain) {ls : List (List Char)}
    (hls : ls.Sublist (tabLines tab)) : readReport (ls.map (· ++ ['\n'])).flatten =
      if headings ∈ ls ∧ lastLine ∈ ls then some ((listed tab).filter fun x => rowLine x ∈ ls)
      else none := by
  have hsplit := splitOn_lines fun l hl => newline_notMem_tabLines h l (hls.subset hl)
  by_cases hlast : lastLine ∈ ls
  · rw [readReport, hsplit]
    rcases List.sublist_cons_iff.mp hls with hrest | ⟨ls', rfl, hrest⟩
    · -- without the headings
      have hno : headings ∉ ls := fun hm => headings_notMem_rest tab (hrest.subset hm)
      obtain ⟨l, ls', rfl⟩ := List.exists_cons_of_ne_nil (List.ne_nil_of_mem hlast)
      rw [if_neg fun hm => hno hm.1]
      exact if_neg fun he : l = headings => hno (he ▸ List.mem_cons_self)
    · obtain ⟨rs, ts, rfl, hrs, hts⟩ := List.sublist_append_iff.mp hrest
      obtain ⟨xs, hxs, rfl⟩ := List.sublist_map_iff.mp hrs
      obtain rfl : ts = [lastLine] := by
        refine (List.sublist_singleton.mp hts).resolve_left fun hnil => ?_
        rw [hnil, List.append_nil] at hlast
        exact lastLine_notMem_rows xs ((List.mem_cons.mp hlast).resolve_left (by decide))
      have hplain : ∀ x ∈ listed tab, x.2.Plain := fun ⟨i, r⟩ hx =>
        have ⟨ht, hf⟩ := mem_listed.mp hx
        h r (List.mem_of_getElem? ht) hf
      have hfilter : (listed tab).filter (fun x =>
          rowLine x ∈ headings :: (xs.map rowLine ++ [lastLine])) = xs := by
        refine filter_of_sublist hxs (nodup_listed tab) fun x hx => ?_
        have hne : rowLine x ≠ lastLine := fun he =>
          not_lastLine_prefix_rowLine x (he ▸ List.prefix_rfl)
        rw [decide_eq_true_iff, List.mem_cons, or_iff_right (rowLine_ne_headings x),
          List.mem_append, List.mem_singleton, or_iff_left hne]
        refine ⟨fun hm => ?_, List.mem_map_of_mem⟩
        obtain ⟨y, hy, he⟩ := List.mem_map.mp hm
        rwa [← rowLine_inj (hplain y (hxs.subset hy)) (hplain x hx) he]
      rw [if_pos ⟨List.mem_cons_self, hlast⟩, hfilter, List.cons_append, List.append_assoc]
      exact (if_pos rfl).trans (readRows_map (fun x hx => hplain x (hxs.subset hx)) [[]])
  · rw [if_neg fun hm => hlast hm.2]
    refine readReport_eq_none ?_
    rw [hsplit]
    intro hm
    rcases List.mem_append.mp hm with hm | hm
    · exact hlast hm
    · revert hm
      decide

/-- Lines without the last one, and the beginning of something else, are no report. -/
theorem readReport_of_unended (h : ∀ r ∈ tab, r.free = false → r.Plain) {ls : List (List Char)}
    (hls : ls.Sublist (headings :: (listed tab).map rowLine)) {z : List Char} (hz : '\n' ∉ z)
    (hlast : ¬ lastLine <+: z) {p : List Char} (hp : p <+: ['\n'].intercalate (ls ++ [z])) :
    readReport p = none := by
  refine readReport_eq_none fun hmem => ?_
  have hlines : ∀ l ∈ ls ++ [z], '\n' ∉ l := by
    intro l hl
    rcases List.mem_append.mp hl with hl | hl
    · refine newline_notMem_tabLines h l ?_
      rw [tabLines, ← List.cons_append]
      exact List.mem_append_left _ (hls.subset hl)
    · rwa [List.mem_singleton.mp hl]
  rcases prefix_of_mem_splitOn hlines hp _ hmem with hnil | ⟨l, hl, hpre⟩
  · cases hnil
  · rcases List.mem_append.mp hl with hl | hl
    · rcases List.mem_cons.mp (hls.subset hl) with rfl | hl
      · revert hpre
        decide
      · obtain ⟨x, -, rfl⟩ := List.mem_map.mp hl
        exact not_lastLine_prefix_rowLine x hpre
    · rw [List.mem_singleton.mp hl] at hpre
      exact hlast hpre

/-- **A report that is cut is not taken for a whole one**, unless only the end of its last line is
missing. -/
theorem readReport_of_prefix (h : ∀ r ∈ tab, r.free = false → r.Plain) {ls : List (List Char)}
    (hls : ls.Sublist (tabLines tab)) {p : List Char} (hp : p <+: (ls.map (· ++ ['\n'])).flatten)
    (hlen : p.length + 1 < (ls.map (· ++ ['\n'])).flatten.length) : readReport p = none := by
  rw [tabLines, ← List.cons_append] at hls
  obtain ⟨rs, ts, rfl, hrs, hts⟩ := List.sublist_append_iff.mp hls
  rcases List.sublist_singleton.mp hts with rfl | rfl
  · rw [List.append_nil, ← List.append_nil (List.flatten _), ← intercalate_concat] at hp
    exact readReport_of_unended h hrs List.not_mem_nil (by decide) hp
  · -- two characters are missing at least, so the cut is in the last line or in front of it
    have htext : ((rs ++ [lastLine]).map (· ++ ['\n'])).flatten =
        ['\n'].intercalate (rs ++ ["End of table".toList]) ++ ".\n".toList := by
      rw [intercalate_concat, List.map_append, List.flatten_append, List.append_assoc]
      rfl
    refine readReport_of_unended h hrs (z := "End of table".toList) (by decide) (by decide) ?_
    rw [htext] at hp hlen
    refine List.prefix_of_prefix_length_le hp (List.prefix_append ..) ?_
    rw [List.length_append] at hlen
    have htwo : ".\n".toList.length = 2 := rfl
    omega

/-- **No line is cut**: `snprintf` has room for each of them. -/
theorem length_of_mem_tabText (h : ∀ r ∈ tab, r.free = false → r.Plain)
    (hrows : tab.length ≤ 2 ^ 31) {l : List Char} (hl : l ∈ tabText tab) : l.length < maxLine := by
  rw [tabText_eq, tabLines] at hl
  simp only [List.map_cons, List.map_append, List.map_map, List.map_nil, List.mem_cons,
    List.mem_append, List.mem_map, List.not_mem_nil, or_false] at hl
  rcases hl with rfl | ⟨⟨i, r⟩, hx, rfl⟩ | rfl
  · decide
  · obtain ⟨ht, hf⟩ := mem_listed.mp hx
    obtain ⟨hpid, hpts, haddr⟩ := (h r (List.mem_of_getElem? ht) hf).fits
    obtain ⟨hi, -⟩ := List.getElem?_eq_some_iff.mp ht
    have hnum : (decimal i).length ≤ 10 := (length_decimal_le_iff (by decide)).mpr (by omega)
    simp only [Function.comp_apply, rowLine, List.intercalate_cons_cons, List.intercalate_singleton,
      List.length_append, List.length_cons, List.length_nil]
    simp only [maxCharPid, maxCharPts, maxCharAdr] at hpid hpts haddr
    rw [maxLine]
    omega
  · decide

end Text

/-! ## What the monitor keeps -/

/-- An assertion on the sessions, the FIFO and the table, which a message of a session keeps, and
the monitor as it serves one. -/
structure Maintained (P : Moni → Prop) : Prop where
  congr : ∀ {s s' : Moni}, P s → s'.procs = s.procs → s'.fifo = s.fifo → s'.tab = s.tab → P s'
  send : ∀ {s : Moni} {i : ℕ} {p : Proc}, P s → s.procs[i]? = some p → p.phase ≠ .gone →
    P ({ s with procs := s.procs.set i p.send.1 }.post p.send.2)
  serve : ∀ {s s' : Moni}, P s → s.fifo.take maxFifoMes ≠ [] → s'.procs = s.procs →
    s'.fifo = s.fifo.drop maxFifoMes →
    s'.tab = serveMessage (readInto s.bufFifo (s.fifo.take maxFifoMes)) s.tab → P s'

/-- What is written are lines of the table, and the assertion holds there. A fault comes between a
message and the table, so it is out of the question. -/
def Uploads (P : Moni → Prop) (_ : List (MEvent × Moni)) : MEvent → Moni → Prop
  | .upload lines, s => P s ∧ lines.Sublist (tabText s.tab)
  | _, _ => True

/-- The assertion holds, and did so wherever something was written. -/
structure Maintained.At (P : Moni → Prop) (w : MRun) : Prop where
  now : P w.st
  calls : Always (Uploads P) w.trace

/-- Everywhere. -/
def Uploading (P : Moni → Prop) (w : MRun) : Prop := Always (Uploads P) w.trace

namespace Maintained

variable {P : Moni → Prop} {E : MEnv → Prop} (hP : Maintained P)

include hP

theorem arrive {s : Moni} (h : P s) (e : MEnv) : P (arrive e s) := by
  refine arrive_induction (fun s a _ h => ?_) h
  rcases run_cases a s with ⟨i, p, hi, hgone, hr⟩ | ⟨g, cs, hr⟩
  · rw [hr]
    exact hP.send h hi hgone
  · rw [hr]
    exact hP.congr h rfl rfl rfl

/-- A change of anything else. -/
theorem modify {f : Moni → Moni}
    (hf : ∀ s, (f s).procs = s.procs ∧ (f s).fifo = s.fifo ∧ (f s).tab = s.tab) :
    Restores E (Uploading P) (Maintained.At P) (Prog.modify f) := fun w h =>
  wp_modify ⟨hP.congr h.now (hf w.st).1 (hf w.st).2.1 (hf w.st).2.2, h.calls⟩

/-- A call that leaves them alone. -/
theorem monitorCall {α : Type} {f : MEnv → Moni → Option (MEvent × Moni × α)}
    (hf : ∀ e s r, f e s = some r → (∀ t, P s → Uploads P t r.1 s) ∧ r.2.1.procs = s.procs ∧
      r.2.1.fifo = s.fifo ∧ r.2.1.tab = s.tab) :
    Restores E (Uploading P) (Maintained.At P) (monitorCall f) := fun w h =>
  wp_monitorCall h.calls fun e _ r hr => by
    have hnow := hP.arrive h.now e
    obtain ⟨hup, hprocs, hfifo, htab⟩ := hf e _ r hr
    exact ⟨hP.congr hnow hprocs hfifo htab, always_concat.mpr ⟨h.calls, hup _ hnow⟩⟩

theorem startMainWork : Restores E (Uploading P) (Maintained.At P) startMainWork := by
  unfold PadSvr.startMainWork
  refine .bind .get fun s => .ite (hP.monitorCall fun e s r hr => ?_) .pure
  split at hr
  · cases hr
    exact ⟨fun _ _ => trivial, rfl, rfl, rfl⟩
  · cases hr

theorem sigsuspend : Restores E (Uploading P) (Maintained.At P) sigsuspend := by
  unfold PadSvr.sigsuspend
  refine .iter (fun _ h => h.calls) (fun _ w h => wp_step h.calls fun e _ r hr => ?_) _
  have hnow := hP.arrive h.now e
  dsimp only at hr
  split at hr
  · cases hr
    exact ⟨hnow, always_concat.mpr ⟨h.calls, trivial⟩⟩
  · cases hr
    exact ⟨hP.congr hnow rfl rfl rfl, by simpa using h.calls⟩

theorem waitMainWork : Restores E (Uploading P) (Maintained.At P) waitMainWork := by
  unfold PadSvr.waitMainWork
  refine .bind (hP.monitorCall fun e s r hr => ?_) fun _ => hP.monitorCall fun e s r hr => ?_
  · cases hr
    exact ⟨fun _ _ => trivial, rfl, rfl, rfl⟩
  · split at hr
    · cases hr
      exact ⟨fun _ _ => trivial, rfl, rfl, rfl⟩
    · split at hr
      · cases hr
        exact ⟨fun _ _ => trivial, rfl, rfl, rfl⟩
      · cases hr

theorem chldPart : Restores E (Uploading P) (Maintained.At P) chldPart := by
  unfold PadSvr.chldPart
  refine .bind .get fun s => .ite (.bind (hP.modify fun _ => ⟨rfl, rfl, rfl⟩) fun _ =>
    .bind hP.waitMainWork fun _ => .bind .get fun s => ?_) .pure
  split
  · exact .ite .pure (.bind (hP.modify fun _ => ⟨rfl, rfl, rfl⟩) fun _ => .pure)
  · exact .pure

theorem hupPart : Restores E (Uploading P) (Maintained.At P) hupPart := by
  unfold PadSvr.hupPart
  refine .bind .get fun s => .ite (.bind (hP.modify fun _ => ⟨rfl, rfl, rfl⟩) fun _ =>
    hP.monitorCall fun e s r hr => ?_) .pure
  split at hr
  · cases hr
  · cases hr
    exact ⟨fun _ _ => trivial, rfl, rfl, rfl⟩

/-- **A message is read and served**, with no statement in between. -/
theorem readFifo : Restores E (Uploading P) (Maintained.At P) readFifo := by
  unfold PadSvr.readFifo
  refine .iter (fun _ h => h.calls) (fun _ w h => wp_bind (wp_monitorCall h.calls
    fun e _ r hr => ?_)) _
  have hnow := hP.arrive h.now e
  have hcalls : ∀ data, Uploading P
      ⟨PadSvr.arrive e w.st, w.trace ++ [(.readFifo data, PadSvr.arrive e w.st)]⟩ := fun data =>
    always_concat.mpr ⟨h.calls, trivial⟩
  dsimp only at hr
  split at hr
  · cases hr
    exact wp_pure ⟨hnow, hcalls _⟩
  · next hd =>
    cases hr
    rw [if_pos (List.length_pos_iff.mpr hd)]
    refine wp_bind (wp_serveFifo (fun _ => ?_) (wp_pure ?_))
    · exact always_concat.mpr ⟨hcalls _, trivial⟩
    · exact ⟨hP.serve hnow hd rfl rfl rfl, hcalls _⟩

theorem ioPart : Restores E (Uploading P) (Maintained.At P) ioPart := by
  unfold PadSvr.ioPart
  exact .bind .get fun s => .ite (.bind (hP.modify fun _ => ⟨rfl, rfl, rfl⟩) fun _ => hP.readFifo)
    .pure

theorem usr1Part : Restores E (Uploading P) (Maintained.At P) usr1Part := by
  unfold PadSvr.usr1Part
  refine .bind .get fun s => .ite (.bind (hP.modify fun _ => ⟨rfl, rfl, rfl⟩) fun _ =>
    .bind (hP.monitorCall fun e s r hr => ?_) fun _ => .ite (fun w h => ?_) .pure) .pure
  · cases hr
    refine ⟨fun _ hnow => ⟨hnow, ?_⟩, rfl, rfl, rfl⟩
    split
    · exact sublist_uploadPtsAddrTab e.written s
    · exact List.nil_sublist _
  · exact wp_walkTab (fun _ => always_concat.mpr ⟨h.calls, trivial⟩) fun _ => h

/-- **What one message keeps, every run of the monitor keeps.** -/
theorem doMonitor : Restores E (Uploading P) (Maintained.At P) doMonitor := by
  unfold PadSvr.doMonitor
  exact .iter (fun _ h => h.calls) (fun _ => .bind hP.startMainWork fun _ =>
    .bind hP.sigsuspend fun _ => .bind hP.chldPart fun _ => .ite .pure
      (.bind hP.hupPart fun _ => .bind hP.ioPart fun _ => .bind hP.usr1Part fun _ => .pure)) _

end Maintained

/-! ## The rows in use -/

/-- The rows in use are plain. -/
def PlainTab (tab : List Row) : Prop := ∀ r ∈ tab, r.free = false → r.Plain

/-- A message with a NUL in it, behind which the rows in use are plain as before. -/
structure PlainMessage (f : List Char) : Prop where
  length : f.length = maxFifoMes
  nul : '\x00' ∈ f
  serve : ∀ tab, PlainTab tab → PlainTab (serveMessage f tab)

/-- The rows in use are plain, and stay so as the FIFO is served. -/
structure Legible (s : Moni) : Prop where
  clients : ∀ p ∈ s.procs, Plain p.client.pts ∧ Plain p.client.addr
  queue : ∃ fs : List (List Char), s.fifo = fs.flatten ∧ ∀ f ∈ fs, PlainMessage f
  rows : PlainTab s.tab

section Legible

variable {tab : List Row} {pid pts addr : List Char}

theorem PlainTab.insEntry (h : PlainTab tab) (hpid : Plain pid) (hpts : Plain pts)
    (haddr : Plain addr) : PlainTab (insEntry pid pts addr tab) := by
  intro r hr hf
  unfold PadSvr.insEntry at hr
  split at hr
  · rcases List.mem_or_eq_of_mem_set hr with hr | rfl
    · exact h r hr hf
    · exact plain_entered hpid hpts haddr
  · rcases List.mem_append.mp hr with hr | hr
    · exact h r hr hf
    · rw [List.mem_singleton.mp hr]
      exact plain_entered hpid hpts haddr

theorem PlainTab.cleanEntry (h : PlainTab tab) : PlainTab (cleanEntry pid tab) := by
  intro r hr hf
  obtain ⟨r', hr', rfl⟩ := List.mem_map.mp hr
  split at hf
  · rw [free_wipe] at hf
    cases hf
  · next hne =>
    rw [if_neg hne]
    exact h r' hr' hf

section Messages

variable {c : Client} {buf : List Char} (hbuf : buf.length = maxFifoMes)

include hbuf

theorem plainMessage_enter (hpts : Plain c.pts) (haddr : Plain c.addr) :
    PlainMessage (c.enter buf).1 where
  length := (sendPtsAddr_snd hbuf _ _ _).2
  nul := by simp [Client.enter, sendPtsAddr, snprintf]
  serve tab h := by
    rw [serveMessage_enter]
    exact h.insEntry (plain_decimal _) hpts haddr

theorem plainMessage_leave : PlainMessage (c.leave buf).1 where
  length := (sendPtsAddr_snd hbuf _ _ _).2
  nul := by simp [Client.leave, sendPtsAddr, snprintf]
  serve tab h := by
    rw [serveMessage_leave]
    exact h.cleanEntry

end Messages

theorem maintained_legible : Maintained Legible where
  congr h hp hf ht := ⟨by rw [hp]; exact h.clients, by rw [hf]; exact h.queue,
    by rw [ht]; exact h.rows⟩
  send := by
    intro s i p h hi hgone
    obtain ⟨hpts, haddr⟩ := h.clients p (List.mem_of_getElem? hi)
    obtain ⟨fs, hfifo, hfs⟩ := h.queue
    have hsend : p.send.1.client = p.client ∧ PlainMessage p.send.2 := by
      cases hph : p.phase with
      | fresh =>
        obtain ⟨hc, -, hbytes⟩ := send_of_fresh hph
        exact ⟨hc, hbytes ▸ plainMessage_enter p.length_bufFifo hpts haddr⟩
      | live =>
        obtain ⟨hc, -, hbytes⟩ := send_of_live hph
        exact ⟨hc, hbytes ▸ plainMessage_leave p.length_bufFifo⟩
      | gone => exact absurd hph hgone
    refine ⟨fun p' hp' => ?_, ⟨fs ++ [p.send.2], ?_, fun f hf => ?_⟩, h.rows⟩
    · rcases List.mem_or_eq_of_mem_set hp' with hp' | rfl
      · exact h.clients p' hp'
      · rw [hsend.1]
        exact ⟨hpts, haddr⟩
    · show s.fifo ++ p.send.2 = _
      rw [hfifo, List.flatten_append, List.flatten_singleton]
    · rcases List.mem_append.mp hf with hf | hf
      · exact hfs f hf
      · rw [List.mem_singleton.mp hf]
        exact hsend.2
  serve := by
    intro s s' h hne hp hf ht
    obtain ⟨fs, hfifo, hfs⟩ := h.queue
    rcases fs with _ | ⟨f, fs⟩
    · rw [hfifo] at hne
      exact absurd rfl hne
    · have hmes := hfs f List.mem_cons_self
      rw [List.flatten_cons] at hfifo
      have htake : s.fifo.take maxFifoMes = f := by rw [hfifo, List.take_left' hmes.length]
      have hdrop : s.fifo.drop maxFifoMes = fs.flatten := by
        rw [hfifo, List.drop_left' hmes.length]
      refine ⟨by rw [hp]; exact h.clients, ⟨fs, hf.trans hdrop, fun f' hf' =>
        hfs f' (List.mem_cons_of_mem _ hf')⟩, ?_⟩
      rw [ht, htake, serveMessage_readInto hmes.nul]
      exact hmes.serve _ h.rows

/-- What is meant to be in the table stands, too. -/
theorem maintained_booked {cs : List Client} (hpids : (cs.map Client.pid).Nodup)
    (hsmall : ∀ c ∈ cs, c.pid < 100000) : Maintained (Booked cs) where
  congr h := h.of_eq
  send h := h.send hpids hsmall
  serve h hne := h.serve hne

end Legible

/-! ## The reports of a run -/

/-- The sessions have pids of their own, which fit in the rows. -/
structure Registrable (ps : List Proc) : Prop where
  nodup : (ps.map fun p => p.client.pid).Nodup
  small : ∀ p ∈ ps, p.client.pid < 100000

/-- What is written to the second FIFO are lines of the table, in their order. With the first and
the last one it is read back to the rows whose lines it has, and without them it is no report. If
all sessions can be registered, the rows in use are the live sessions, but for the messages that the
monitor has not read yet. No line is too long for `snprintf`, and no beginning of the text is taken
for a report. -/
structure TabReport (ps : List Proc) (lines : List (List Char)) (s : Moni) : Prop where
  sublist : lines.Sublist (tabText s.tab)
  read : readReport lines.flatten =
    if headings ++ ['\n'] ∈ lines ∧ lastLine ++ ['\n'] ∈ lines then
      some ((listed s.tab).filter fun x => rowLine x ++ ['\n'] ∈ lines)
    else none
  complete : lines = tabText s.tab → readReport lines.flatten = some (listed s.tab)
  live : Registrable ps → ∃ fs qs, List.Forall₂ Serves fs qs ∧ s.fifo = fs.flatten ∧
    serveAll Row.pid qs ((listed s.tab).map Prod.snd : Multiset Row) = liveRows s.procs
  fits : s.tab.length ≤ 2 ^ 31 → ∀ l ∈ tabText s.tab, l.length < maxLine
  cut : ∀ p, p <+: lines.flatten → p.length + 1 < lines.flatten.length → readReport p = none

/-- Every text that is written to the second FIFO is a report of the table. -/
def ReadsBack (ps : List Proc) (_ : List (MEvent × Moni)) : MEvent → Moni → Prop
  | .upload lines, s => TabReport ps lines s
  | _, _ => True

/-- Behind `open_fifo_rd`, around sessions that have not registered yet. -/
theorem legible_doMonitorStart {s : Moni} (row : Row)
    (hplain : ∀ p ∈ s.procs, Plain p.client.pts ∧ Plain p.client.addr) :
    Legible (doMonitorStart s row) where
  clients := hplain
  queue := ⟨[], rfl, by simp⟩
  rows := by
    intro r hr hf
    obtain rfl : r = row.wipe := List.mem_singleton.mp hr
    rw [free_wipe] at hf
    cases hf

theorem booked_doMonitorStart {s : Moni} (row : Row) (hfresh : ∀ p ∈ s.procs, p.phase = .fresh) :
    Booked (s.procs.map Proc.client) (doMonitorStart s row) := by
  refine ⟨rfl, [], [], .nil, rfl, ?_⟩
  have hlive : liveRows (doMonitorStart s row).procs = [] := liveRows_of_fresh hfresh
  rw [hlive]
  exact occupied_cons_of_free Row.free (free_wipe row) []

theorem map_snd_listed (tab : List Row) :
    ((listed tab).map Prod.snd : Multiset Row) = occupied Row.free tab := by
  have hmap : (listed tab).map Prod.snd = tab.filter fun r => !r.free := by
    rw [listed, List.map_filterMap]
    conv_rhs => rw [← List.zipIdx_map_fst 0 tab, List.filter_map, ← List.filterMap_eq_map,
      ← List.filterMap_eq_filter, List.filterMap_filterMap]
    refine List.filterMap_congr fun x _ => ?_
    by_cases hf : x.1.free <;> simp [hf, Option.guard]
  rw [hmap]
  rfl

theorem ended_mem {ls : List (List Char)} {l : List Char} :
    l ++ ['\n'] ∈ ls.map (· ++ ['\n']) ↔ l ∈ ls :=
  List.mem_map_of_injective (List.append_left_injective ['\n'])

/-- Lines of a table with plain rows are a report of it. -/
theorem tabReport {ps : List Proc} {lines : List (List Char)} {s : Moni} (hrows : PlainTab s.tab)
    (hlines : lines.Sublist (tabText s.tab)) (hlive : Registrable ps → ∃ fs qs,
      List.Forall₂ Serves fs qs ∧ s.fifo = fs.flatten ∧
        serveAll Row.pid qs ((listed s.tab).map Prod.snd : Multiset Row) = liveRows s.procs) :
    TabReport ps lines s := by
  obtain ⟨ls, hls, rfl⟩ := List.sublist_map_iff.mp (tabText_eq s.tab ▸ hlines)
  have hread := readReport_of_sublist hrows hls
  refine ⟨hlines, ?_, fun hall => ?_, hlive, fun h l hl => length_of_mem_tabText hrows h hl,
    fun p hp hlen => readReport_of_prefix hrows hls hp hlen⟩
  · simpa only [ended_mem] using hread
  · have hmem : ∀ l ∈ tabLines s.tab, l ∈ ls := fun l hl =>
      ended_mem.mp (by rw [hall, tabText_eq]; exact List.mem_map_of_mem hl)
    have hfilter : (listed s.tab).filter (fun x => rowLine x ∈ ls) = listed s.tab :=
      List.filter_eq_self.mpr fun x hx => decide_eq_true (hmem _ (List.mem_cons_of_mem _
        (List.mem_append_left _ (List.mem_map_of_mem hx))))
    rw [hread, if_pos ⟨hmem _ List.mem_cons_self, hmem _ (List.mem_cons_of_mem _
      (List.mem_append_right _ (List.mem_singleton_self _)))⟩, hfilter]

/-- **Every report of every run is read back to the rows whose lines it has**, and if it has all of
them, to the live sessions as far as the monitor has been told of them. -/
theorem doMonitor_readsBack (es : List MEnv) (s : Moni) (row : Row)
    (hfresh : ∀ p ∈ s.procs, p.phase = .fresh)
    (hplain : ∀ p ∈ s.procs, Plain p.client.pts ∧ Plain p.client.addr) :
    Always (ReadsBack s.procs) (doMonitorTrace es s row) := by
  have hlegible : Uploading Legible (doMonitor es ⟨doMonitorStart s row, []⟩).1 :=
    always_of_wp (E := fun _ => True) (maintained_legible.doMonitor ⟨doMonitorStart s row, []⟩
      ⟨legible_doMonitorStart row hplain, always_nil⟩) (fun _ _ h => h.calls) fun _ _ => trivial
  have hbooked : Registrable s.procs → Uploading (Booked (s.procs.map Proc.client))
      (doMonitor es ⟨doMonitorStart s row, []⟩).1 := fun hr => by
    have hpids : ((s.procs.map Proc.client).map Client.pid).Nodup := by
      rw [List.map_map]
      exact hr.nodup
    have hsmall : ∀ c ∈ s.procs.map Proc.client, c.pid < 100000 := fun c hc => by
      obtain ⟨p, hp, rfl⟩ := List.mem_map.mp hc
      exact hr.small p hp
    exact always_of_wp (E := fun _ => True) ((maintained_booked hpids hsmall).doMonitor
      ⟨doMonitorStart s row, []⟩ ⟨booked_doMonitorStart row hfresh, always_nil⟩)
        (fun _ _ h => h.calls) fun _ _ => trivial
  intro t₁ k m t₂ ht
  cases k with
  | upload lines =>
    obtain ⟨hleg, hlines⟩ := hlegible t₁ _ m t₂ ht
    refine tabReport hleg.rows hlines fun hr => ?_
    obtain ⟨hqueue, -⟩ := hbooked hr t₁ _ m t₂ ht
    rw [map_snd_listed]
    exact hqueue.queue
  | _ => trivial

/-- The text that a call writes to the second FIFO. -/
def MEvent.text : MEvent → List Char
  | .upload lines => lines.flatten
  | _ => []

/-- A session registers, and somebody asks for the table. The calls of `writen` for its lines
succeed as `written` says. -/
def reportScript (written : ℕ → Bool) : List MEnv :=
  [{}, { before := [.send 0, .signal { usr1 := true }] }, {}, {},
    { rezult := true, written := written }]

/-- The session of the script. -/
def reportProcs : List Proc := [(clientOf 4712 (by decide) (by decide)).proc]

/-- The table with this session is reported. -/
theorem doMonitor_readsBack_one :
    Always (ReadsBack reportProcs)
      (doMonitorTrace (reportScript fun _ => true) (.around 0x55d0c0a0f200 reportProcs)
        ⟨[], [], []⟩) ∧
      some [(0, (clientOf 4712 (by decide) (by decide)).row)] ∈
        (doMonitorTrace (reportScript fun _ => true) (.around 0x55d0c0a0f200 reportProcs)
          ⟨[], [], []⟩).map fun x => readReport x.1.text := by
  have hplain : ∀ p ∈ reportProcs, Plain p.client.pts ∧ Plain p.client.addr := by
    intro p hp
    obtain rfl := List.mem_singleton.mp hp
    exact ⟨⟨by decide, by decide⟩, by decide, by decide⟩
  exact ⟨doMonitor_readsBack _ (.around _ _) _ (by decide) hplain, by decide +kernel⟩

/-- The line of the session is lost, and what is left reads like the report of an empty table. -/
example : some [] ∈ (doMonitorTrace (reportScript (· ≠ 1)) (.around 0x55d0c0a0f200 reportProcs)
    ⟨[], [], []⟩).map fun x => readReport x.1.text := by decide +kernel

end PadSvr
