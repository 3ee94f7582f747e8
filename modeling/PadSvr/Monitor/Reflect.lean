import PadSvr.Monitor.DoMonitor

/-!
# The table reflects the sessions

The FIFO is a queue of requests to a registry, and the table its slots. A session changes what the
registry is meant to hold when it writes, the monitor catches up when it reads, and `SIGIO` stays
pending as long as there is something to read. So when the monitor is suspended with no signal
pending, the table holds the rows of the live sessions, if their pids fit in its rows, and if
`Tab_first` outlives the NUL that each read stores behind `Buf_fifo`.

## Main definitions

* `Reflects`: the FIFO is empty, and the rows in use are those of the live sessions
* `Placed s`: the NUL behind `Buf_fifo` does not hurt `Tab_first`
* `Serves f q`: the message `f` is the request `q`
* `Booked cs s`: once the FIFO is served, the table holds the rows of the live sessions
* `Rings s`: `SIGIO` is pending while there is something in the FIFO

## Main results

* `Booked.send`, `Booked.serve`: a message is written, a message is served
* `doMonitor_reflects_iff`: when the table reflects the sessions in every run
* `not_doMonitor_reflects`: a session whose row stays behind
-/

namespace PadSvr

open Scripted Scripted.Prog CString Registry

/-! ## The property -/

/-- The rows of the sessions that have registered and not yet deregistered. -/
def liveRows (procs : List Proc) : List Row :=
  (procs.filter fun p => p.phase = .live).map fun p => p.client.row

/-- While the monitor is suspended with no signal pending, the FIFO is empty, and the rows in use
are those of the live sessions. It never ends in a fault. -/
def Reflects (_ : List (MEvent × Moni)) : MEvent → Moni → Prop
  | .suspended, s => s.fifo = [] ∧ (s.tab.filter fun r => !r.free).Perm (liveRows s.procs)
  | .fault, _ => False
  | _, _ => True

/-! ## What is meant to be in the table -/

/-- The message `f` is the request `q`. -/
structure Serves (f : List Char) (q : Request (List Char) Row) : Prop where
  length : f.length = maxFifoMes
  nul : '\x00' ∈ f
  serve : ∀ tab, occupied Row.free (serveMessage f tab) =
    q.serve Row.pid (occupied Row.free tab)

/-- Once the messages in the FIFO are served, the table holds the rows of the live sessions. -/
structure Booked (cs : List Client) (s : Moni) : Prop where
  clients : s.procs.map Proc.client = cs
  queue : ∃ fs qs, List.Forall₂ Serves fs qs ∧ s.fifo = fs.flatten ∧
    serveAll Row.pid qs (occupied Row.free s.tab) = (liveRows s.procs : Multiset Row)

/-- `Tab_first` points to the first row, and its low byte is zero anyway if there is ever a message
to be read. -/
structure Placed (s : Moni) : Prop where
  first : s.tabFirst = s.tabAt
  low : s.procs = [] ∧ s.fifo = [] ∨ 256 ∣ s.tabAt

/-- The signal for what is in the FIFO is pending. -/
def Rings (s : Moni) : Prop := s.fifo ≠ [] → s.pending.io = true

theorem liveRows_append (ps ps' : List Proc) :
    (liveRows (ps ++ ps') : Multiset Row) = ↑(liveRows ps) + ↑(liveRows ps') := by
  simp [liveRows]

theorem liveRows_cons_of_live {p : Proc} (h : p.phase = .live) (ps : List Proc) :
    (liveRows (p :: ps) : Multiset Row) = p.client.row ::ₘ ↑(liveRows ps) := by
  simp [liveRows, h]

theorem liveRows_cons_of_ne {p : Proc} (h : p.phase ≠ .live) (ps : List Proc) :
    (liveRows (p :: ps) : Multiset Row) = ↑(liveRows ps) := by
  simp [liveRows, h]

theorem liveRows_of_fresh {ps : List Proc} (h : ∀ p ∈ ps, p.phase = .fresh) : liveRows ps = [] := by
  rw [liveRows, List.map_eq_nil_iff, List.filter_eq_nil_iff]
  intro p hp
  simp [h p hp]

/-- A live session has a row of its own. -/
theorem pid_ne_of_mem_liveRows {ps : List Proc} {c : Client}
    (h : ∀ p ∈ ps, p.client.pid ≠ c.pid) :
    ∀ r ∈ (liveRows ps : Multiset Row), r.pid ≠ c.row.pid := by
  intro r hr heq
  obtain ⟨p, hp, rfl⟩ := List.mem_map.mp (Multiset.mem_coe.mp hr)
  exact h p (List.mem_filter.mp hp).1 (decimal_inj heq)

section Messages

variable (c : Client) {buf : List Char} (hbuf : buf.length = maxFifoMes)

include hbuf

theorem serves_enter (hc : c.pid < 100000) : Serves (c.enter buf).1 (.add c.row) where
  length := (sendPtsAddr_snd hbuf _ _ _).2
  nul := by simp [Client.enter, sendPtsAddr, snprintf]
  serve := occupied_serveMessage_enter c hc

theorem serves_leave : Serves (c.leave buf).1 (.drop c.row.pid) where
  length := (sendPtsAddr_snd hbuf _ _ _).2
  nul := by simp [Client.leave, sendPtsAddr, snprintf]
  serve := occupied_serveMessage_leave c

end Messages

section Steps

variable {cs : List Client} {s s' : Moni}

/-- A request is queued, and changes what is meant to be in the table. -/
theorem Booked.post (h : Booked cs s) {f : List Char} {q : Request (List Char) Row}
    (hf : Serves f q) {procs : List Proc} (hcs : procs.map Proc.client = cs)
    (hq : q.serve Row.pid (liveRows s.procs : Multiset Row) = ↑(liveRows procs)) :
    Booked cs ({ s with procs := procs }.post f) := by
  obtain ⟨fs, qs, hfq, hfifo, hlive⟩ := h.queue
  refine ⟨hcs, fs ++ [f], qs ++ [q], List.rel_append hfq (.cons hf .nil), ?_, ?_⟩
  · show s.fifo ++ f = (fs ++ [f]).flatten
    rw [hfifo, List.flatten_append, List.flatten_singleton]
  · rw [serveAll_concat]
    exact (congrArg _ hlive).trans hq

variable (hpids : (cs.map Client.pid).Nodup) (hsmall : ∀ c ∈ cs, c.pid < 100000)

include hpids hsmall in
/-- **A session writes its next message.** -/
theorem Booked.send (h : Booked cs s) {i : ℕ} {p : Proc} (hi : s.procs[i]? = some p)
    (hgone : p.phase ≠ .gone) :
    Booked cs ({ s with procs := s.procs.set i p.send.1 }.post p.send.2) := by
  obtain ⟨hlt, hget⟩ := List.getElem?_eq_some_iff.mp hi
  have hsplit : s.procs = s.procs.take i ++ p :: s.procs.drop (i + 1) := by
    rw [← hget, ← List.drop_eq_getElem_cons hlt, List.take_append_drop]
  have hset : s.procs.set i p.send.1 = s.procs.take i ++ p.send.1 :: s.procs.drop (i + 1) :=
    (List.set_eq_take_append_cons_drop ..).trans (if_pos hlt)
  have hcs := h.clients
  rw [hset]
  generalize s.procs.take i = l₁ at hsplit
  generalize s.procs.drop (i + 1) = l₂ at hsplit
  have hclients : p.send.1.client = p.client →
      (l₁ ++ p.send.1 :: l₂).map Proc.client = cs := fun hp => by
    rw [← hcs, hsplit]
    simp [hp]
  have hmem : p.client ∈ cs := by
    rw [← hcs, hsplit]
    simp
  cases hph : p.phase with
  | gone => exact absurd hph hgone
  | fresh =>
    obtain ⟨hclient, hphase, hbytes⟩ := send_of_fresh hph
    rw [hbytes]
    refine h.post (serves_enter p.client p.length_bufFifo (hsmall _ hmem)) (hclients hclient) ?_
    rw [hsplit, liveRows_append, liveRows_append, liveRows_cons_of_ne (by simp [hph]),
      liveRows_cons_of_live hphase, hclient, Multiset.add_cons]
    rfl
  | live =>
    obtain ⟨hclient, hphase, hbytes⟩ := send_of_live hph
    rw [hbytes]
    refine h.post (serves_leave p.client p.length_bufFifo) (hclients hclient) ?_
    -- no other session has this pid
    have hne : ∀ p' ∈ l₁ ++ l₂, p'.client.pid ≠ p.client.pid := by
      have hperm : (l₁ ++ p :: l₂).Perm (p :: (l₁ ++ l₂)) := List.perm_middle
      rw [← hcs, hsplit, List.map_map, (hperm.map _).nodup_iff, List.map_cons,
        List.nodup_cons] at hpids
      exact fun p' hp' heq => hpids.1 (List.mem_map.mpr ⟨p', hp', heq⟩)
    rw [hsplit, liveRows_append, liveRows_append, liveRows_cons_of_live hph,
      liveRows_cons_of_ne (by simp [hphase])]
    exact serve_drop_add Row.pid (pid_ne_of_mem_liveRows fun p' hp' => hne p' (by simp [hp']))
      (pid_ne_of_mem_liveRows fun p' hp' => hne p' (by simp [hp']))

/-- Nothing but the sessions, the FIFO and the table matters. -/
theorem Booked.of_eq (h : Booked cs s) (hp : s'.procs = s.procs) (hf : s'.fifo = s.fifo)
    (ht : s'.tab = s.tab) : Booked cs s' :=
  ⟨by rw [hp, h.clients], by rw [hf, ht, hp]; exact h.queue⟩

include hpids hsmall in
theorem Booked.run (h : Booked cs s) (a : Arrival) : Booked cs (a.run s) := by
  obtain ⟨i, p, hi, hgone, hr⟩ | ⟨g, ch, hr⟩ := run_cases a s
  · rw [hr]
    exact h.send hpids hsmall hi hgone
  · rw [hr]
    exact h.of_eq rfl rfl rfl

theorem Placed.of_eq (h : Placed s) (hf : s'.tabFirst = s.tabFirst) (ha : s'.tabAt = s.tabAt)
    (hq : s'.procs = s.procs ∧ s'.fifo = s.fifo) : Placed s' := by
  refine ⟨hf.trans (h.first.trans ha.symm), ?_⟩
  rw [hq.1, hq.2, ha]
  exact h.low

/-- A read behind the array. -/
theorem Placed.read (h : Placed s) (hne : s.fifo.take maxFifoMes ≠ [])
    (hf : s'.tabFirst = readBehind s.tabFirst (s.fifo.take maxFifoMes))
    (ha : s'.tabAt = s.tabAt) : Placed s' := by
  have hlow : 256 ∣ s.tabAt := h.low.resolve_left fun hq => hne (by rw [hq.2]; rfl)
  rw [readBehind_of_dvd (h.first.symm ▸ hlow)] at hf
  exact ⟨hf.trans (h.first.trans ha.symm), Or.inr (ha.symm ▸ hlow)⟩

theorem Placed.run (h : Placed s) (a : Arrival) : Placed (a.run s) := by
  obtain ⟨i, p, hi, hgone, hr⟩ | ⟨g, ch, hr⟩ := run_cases a s
  · rw [hr]
    refine ⟨h.first, Or.inr (h.low.resolve_left fun hq => ?_)⟩
    rw [hq.1] at hi
    cases hi
  · rw [hr]
    exact h.of_eq rfl rfl ⟨rfl, rfl⟩

theorem Rings.run (h : Rings s) (a : Arrival) : Rings (a.run s) := by
  obtain ⟨i, p, hi, hgone, hr⟩ | ⟨g, ch, hr⟩ := run_cases a s
  · rw [hr]
    exact fun _ => rfl
  · rw [hr]
    exact fun hne => by simp [Sigs.union, Sigs.zip, h hne]

theorem flags_run (s : Moni) (a : Arrival) : (a.run s).flags = s.flags := by
  obtain ⟨i, p, hi, hgone, hr⟩ | ⟨g, ch, hr⟩ := run_cases a s
  · rw [hr]
    rfl
  · rw [hr]

include hpids hsmall in
theorem Booked.arrive (h : Booked cs s) (e : MEnv) : Booked cs (arrive e s) :=
  arrive_induction (fun _ a _ h => h.run hpids hsmall a) h

theorem Placed.arrive (h : Placed s) (e : MEnv) : Placed (arrive e s) :=
  arrive_induction (fun _ a _ h => h.run a) h

theorem Rings.arrive (h : Rings s) (e : MEnv) : Rings (arrive e s) :=
  arrive_induction (fun _ a _ h => h.run a) h

theorem arrive_flags (e : MEnv) (s : Moni) : (arrive e s).flags = s.flags :=
  arrive_induction (fun s' a _ h => (flags_run s' a).trans h) rfl

/-- With nothing in the FIFO, the table holds the rows of the live sessions. -/
theorem Booked.reflects (h : Booked cs s) (hf : s.fifo = []) :
    (s.tab.filter fun r => !r.free).Perm (liveRows s.procs) := by
  obtain ⟨fs, qs, hfq, hfifo, hlive⟩ := h.queue
  cases hfq with
  | nil => exact Multiset.coe_eq_coe.mp hlive
  | cons hs _ =>
    have hlen := hs.length
    rw [hf, List.flatten_cons] at hfifo
    rw [(List.append_eq_nil_iff.mp hfifo.symm).1] at hlen
    cases hlen

theorem cstr_of_nul {f : List Char} (hf : '\x00' ∈ f) (t : List Char) : cstr (f ++ t) = cstr f := by
  have hlt : (cstr f).length ≠ f.length := fun heq => by
    have hall := List.takeWhile_eq_self_iff.mp ((List.takeWhile_prefix _).eq_of_length heq)
    simpa using hall _ hf
  unfold cstr at hlt ⊢
  rw [List.takeWhile_append, if_neg hlt]

/-- A message with a NUL in it is read as it is: the NUL comes before anything older in the array.
-/
theorem fifoFields_readInto {f : List Char} (hf : '\x00' ∈ f) (buf : List Char) :
    fifoFields (readInto buf f) = fifoFields f := by
  rw [readInto, List.set_append_right _ _ le_rfl, fifoFields, cstr_of_nul hf]
  rfl

theorem serveMessage_readInto {f : List Char} (hf : '\x00' ∈ f) (buf : List Char)
    (tab : List Row) : serveMessage (readInto buf f) tab = serveMessage f tab := by
  rw [serveMessage, fifoFields_readInto hf]
  rfl

/-- **The monitor reads a message**, and serves it. -/
theorem Booked.serve (h : Booked cs s) (hne : s.fifo.take maxFifoMes ≠ []) {s' : Moni}
    (hp : s'.procs = s.procs) (hf : s'.fifo = s.fifo.drop maxFifoMes)
    (ht : s'.tab = serveMessage (readInto s.bufFifo (s.fifo.take maxFifoMes)) s.tab) :
    Booked cs s' := by
  obtain ⟨fs, qs, hfq, hfifo, hlive⟩ := h.queue
  refine ⟨by rw [hp, h.clients], ?_⟩
  cases hfq with
  | nil =>
    rw [hfifo] at hne
    exact absurd rfl hne
  | @cons f q fs qs hs hfq =>
    rw [List.flatten_cons] at hfifo
    have htake : s.fifo.take maxFifoMes = f := by rw [hfifo, ← hs.length, List.take_left]
    have hdrop : s.fifo.drop maxFifoMes = fs.flatten := by rw [hfifo, ← hs.length, List.drop_left]
    refine ⟨fs, qs, hfq, hf.trans hdrop, ?_⟩
    rw [ht, htake, serveMessage_readInto hs.nul, hs.serve, hp, ← hlive, serveAll_cons]

end Steps

/-! ## The loop -/

section Loop

variable {E : MEnv → Prop} {cs : List Client} {w : MRun}

/-- Before the monitor is suspended. -/
structure Ready (cs : List Client) (w : MRun) : Prop where
  booked : Booked cs w.st
  placed : Placed w.st
  rings : Rings w.st
  good : Always Reflects w.trace

/-- After it has been woken up: if `SIGIO` was not handled, it still rings. -/
structure Woken (cs : List Client) (w : MRun) : Prop where
  booked : Booked cs w.st
  placed : Placed w.st
  rings : w.st.flags.io = false → Rings w.st
  good : Always Reflects w.trace

/-- Everywhere. -/
def Reflecting (w : MRun) : Prop := Always Reflects w.trace

/-- The FIFO, the table and what is pending are the same. -/
structure Untouched (s' s : Moni) : Prop where
  procs : s'.procs = s.procs
  fifo : s'.fifo = s.fifo
  tab : s'.tab = s.tab
  pending : s'.pending = s.pending
  tabFirst : s'.tabFirst = s.tabFirst
  tabAt : s'.tabAt = s.tabAt

theorem reflects_concat (h : Always Reflects w.trace) {k : MEvent}
    (hk : k ≠ .suspended ∧ k ≠ .fault) (s : Moni) : Always Reflects (w.trace ++ [(k, s)]) := by
  refine always_concat.mpr ⟨h, ?_⟩
  cases k with
  | suspended => exact absurd rfl hk.1
  | fault => exact absurd rfl hk.2
  | _ => trivial

/-- What leaves the FIFO and the table alone. -/
theorem Ready.modify (h : Ready cs w) {s : Moni} (hs : Untouched s w.st) :
    Ready cs ⟨s, w.trace⟩ where
  booked := h.booked.of_eq hs.procs hs.fifo hs.tab
  placed := h.placed.of_eq hs.tabFirst hs.tabAt ⟨hs.procs, hs.fifo⟩
  rings := by
    have hr := h.rings
    rwa [Rings, hs.fifo, hs.pending]
  good := h.good

/-- The same, with the flag of `SIGIO` as it was. -/
theorem Woken.modify (h : Woken cs w) {s : Moni} (hs : Untouched s w.st)
    (hio : s.flags.io = w.st.flags.io) : Woken cs ⟨s, w.trace⟩ where
  booked := h.booked.of_eq hs.procs hs.fifo hs.tab
  placed := h.placed.of_eq hs.tabFirst hs.tabAt ⟨hs.procs, hs.fifo⟩
  rings := fun hlow => by
    have hr := h.rings (hio.symm.trans hlow)
    rwa [Rings, hs.fifo, hs.pending]
  good := h.good

variable (hpids : (cs.map Client.pid).Nodup) (hsmall : ∀ c ∈ cs, c.pid < 100000)

include hpids hsmall

/-- A call, with what arrives before it. -/
theorem Ready.call (h : Ready cs w) (e : MEnv) {k : MEvent} (hk : k ≠ .suspended ∧ k ≠ .fault) :
    Ready cs ⟨arrive e w.st, w.trace ++ [(k, arrive e w.st)]⟩ where
  booked := h.booked.arrive hpids hsmall e
  placed := h.placed.arrive e
  rings := h.rings.arrive e
  good := reflects_concat h.good hk _

theorem Woken.call (h : Woken cs w) (e : MEnv) {k : MEvent} (hk : k ≠ .suspended ∧ k ≠ .fault) :
    Woken cs ⟨arrive e w.st, w.trace ++ [(k, arrive e w.st)]⟩ where
  booked := h.booked.arrive hpids hsmall e
  placed := h.placed.arrive e
  rings := fun hio => (h.rings (by rwa [arrive_flags] at hio)).arrive e
  good := reflects_concat h.good hk _

theorem wp_startMainWork (h : Ready cs w) :
    wp E Reflecting startMainWork (fun _ => Ready cs) w := by
  unfold startMainWork
  refine wp_bind (wp_get ?_)
  split
  · refine wp_monitorCall h.good fun e _ r hr => ?_
    split at hr
    · cases hr
      exact (h.call hpids hsmall e (by simp)).modify ⟨rfl, rfl, rfl, rfl, rfl, rfl⟩
    · cases hr
  · exact wp_pure h

/-- **The monitor is suspended.** With no signal pending there is nothing in the FIFO. -/
theorem wp_sigsuspend (h : Ready cs w) : wp E Reflecting sigsuspend (fun _ => Woken cs) w := by
  unfold sigsuspend
  refine wp_iter (fun _ => Ready cs) (fun _ _ h => h.good) (fun _ w h => ?_) h
  refine wp_step h.good fun e _ r hr => ?_
  have hb := h.booked.arrive hpids hsmall e
  have hplaced := h.placed.arrive e
  have hrings := h.rings.arrive e
  dsimp only at hr
  generalize arrive e w.st = s at hr hb hplaced hrings
  split at hr
  · next hp =>
    cases hr
    have hfifo : s.fifo = [] := by
      by_contra hne
      have hio := hrings hne
      rw [hp] at hio
      cases hio
    exact ⟨hb, hplaced, hrings, always_concat.mpr ⟨h.good, hfifo, hb.reflects hfifo⟩⟩
  · cases hr
    refine ⟨hb.of_eq rfl rfl rfl, hplaced.of_eq rfl rfl ⟨rfl, rfl⟩, fun hio hne => ?_,
      by simpa using h.good⟩
    have hpend := hrings hne
    simp only [Sigs.union, Sigs.zip, Bool.or_eq_false_iff] at hio
    simp [Sigs.diff, Sigs.zip, hio.2, hpend]

theorem wp_waitMainWork (h : Woken cs w) : wp E Reflecting waitMainWork (fun _ => Woken cs) w := by
  unfold waitMainWork
  refine wp_bind (wp_monitorCall h.good fun e₀ _ r₀ hr₀ => ?_)
  cases hr₀
  have h : Woken cs ⟨_, w.trace ++ [(.waiting, arrive e₀ w.st)]⟩ :=
    h.call hpids hsmall e₀ (by simp)
  refine wp_monitorCall h.good fun e _ r hr => ?_
  split at hr
  · cases hr
    exact (h.call hpids hsmall e (by simp)).modify ⟨rfl, rfl, rfl, rfl, rfl, rfl⟩ rfl
  · split at hr
    · cases hr
      exact (h.call hpids hsmall e (by simp)).modify ⟨rfl, rfl, rfl, rfl, rfl, rfl⟩ rfl
    · cases hr

theorem wp_chldPart (h : Woken cs w) : wp E Reflecting chldPart (fun _ => Woken cs) w := by
  unfold chldPart
  refine wp_bind (wp_get ?_)
  split
  · have h₁ : Woken cs ⟨{ w.st with flags := { w.st.flags with chld := false } }, w.trace⟩ :=
      h.modify ⟨rfl, rfl, rfl, rfl, rfl, rfl⟩ rfl
    refine wp_bind (wp_modify (wp_seq (wp_waitMainWork hpids hsmall h₁)
      fun _ w₂ h₂ => wp_bind (wp_get ?_)))
    split
    · split
      · exact wp_pure h₂
      · exact wp_bind (wp_modify (wp_pure (h₂.modify ⟨rfl, rfl, rfl, rfl, rfl, rfl⟩ rfl)))
    · exact wp_pure h₂
  · exact wp_pure h

theorem wp_hupPart (h : Woken cs w) : wp E Reflecting hupPart (fun _ => Woken cs) w := by
  unfold hupPart
  refine wp_bind (wp_get ?_)
  split
  · have h₁ : Woken cs ⟨{ w.st with flags := { w.st.flags with hup := false } }, w.trace⟩ :=
      h.modify ⟨rfl, rfl, rfl, rfl, rfl, rfl⟩ rfl
    refine wp_bind (wp_modify (wp_monitorCall h.good fun e _ r hr => ?_))
    split at hr
    · cases hr
    · cases hr
      exact (h₁.call hpids hsmall e (by simp)).modify ⟨rfl, rfl, rfl, rfl, rfl, rfl⟩ rfl
  · exact wp_pure h

/-- **The monitor reads until the FIFO is empty.** -/
theorem wp_readFifo (hb : Booked cs w.st) (hp : Placed w.st) (hg : Always Reflects w.trace) :
    wp E Reflecting readFifo (fun _ => Ready cs) w := by
  unfold readFifo
  refine wp_iter (fun _ w => Booked cs w.st ∧ Placed w.st ∧ Always Reflects w.trace)
    (fun _ _ h => h.2.2) (fun _ w ⟨hb, hp, hg⟩ => ?_) ⟨hb, hp, hg⟩
  refine wp_bind (wp_monitorCall hg fun e _ r hr => ?_)
  have hb := hb.arrive hpids hsmall e
  have hp := hp.arrive e
  have hg : ∀ data, Always Reflects (w.trace ++ [(.readFifo data, arrive e w.st)]) := fun _ =>
    reflects_concat hg (by simp) _
  dsimp only at hr
  generalize arrive e w.st = s at hr hb hp hg ⊢
  split at hr
  · next hd =>
    cases hr
    refine wp_pure ⟨hb, hp, fun hne => ?_, hg _⟩
    rcases List.take_eq_nil_iff.mp hd with h0 | h0
    · cases h0
    · exact absurd h0 hne
  · next hd =>
    cases hr
    rw [if_pos (List.length_pos_iff.mpr hd)]
    -- the pointer has been written to, but not changed
    have hread : Placed { s with
        fifo := s.fifo.drop maxFifoMes
        bufFifo := readInto s.bufFifo (s.fifo.take maxFifoMes)
        tabFirst := readBehind s.tabFirst (s.fifo.take maxFifoMes) } := hp.read hd rfl rfl
    refine wp_bind (wp_serveFifo (fun hat => absurd hread.first hat) (wp_pure ?_))
    exact ⟨hb.serve hd rfl rfl rfl, hread.of_eq rfl rfl ⟨rfl, rfl⟩, hg _⟩

theorem wp_ioPart (h : Woken cs w) : wp E Reflecting ioPart (fun _ => Ready cs) w := by
  unfold ioPart
  refine wp_bind (wp_get ?_)
  split
  · exact wp_bind (wp_modify (wp_readFifo hpids hsmall (h.booked.of_eq rfl rfl rfl)
      (h.placed.of_eq rfl rfl ⟨rfl, rfl⟩) h.good))
  · next hio => exact wp_pure ⟨h.booked, h.placed, h.rings (by simpa using hio), h.good⟩

theorem wp_usr1Part (h : Ready cs w) : wp E Reflecting usr1Part (fun _ => Ready cs) w := by
  unfold usr1Part
  refine wp_bind (wp_get ?_)
  split
  · have h₁ : Ready cs ⟨{ w.st with flags := { w.st.flags with usr1 := false } }, w.trace⟩ :=
      h.modify ⟨rfl, rfl, rfl, rfl, rfl, rfl⟩
    refine wp_bind (wp_modify (wp_bind (wp_monitorCall h.good fun e _ r hr => ?_)))
    cases hr
    have h₂ := fun lines => h₁.call hpids hsmall e (k := .upload lines) (by simp)
    dsimp only
    split
    · exact wp_walkTab (fun hat => absurd (h₂ []).placed.first hat) fun _ => h₂ _
    · exact wp_pure (h₂ _)
  · exact wp_pure h

/-- The loop. -/
theorem wp_doMonitor (h : Ready cs w) : wp E Reflecting doMonitor (fun _ => Reflecting) w := by
  unfold doMonitor
  refine wp_iter (fun _ => Ready cs) (fun _ _ h => h.good) (fun _ w h => ?_) h
  refine wp_seq (wp_startMainWork hpids hsmall h) fun _ w₁ h₁ => ?_
  refine wp_seq (wp_sigsuspend hpids hsmall h₁) fun _ w₂ h₂ => ?_
  refine wp_seq (wp_chldPart hpids hsmall h₂) fun b w₃ h₃ => ?_
  split
  · exact wp_pure h₃.good
  · refine wp_seq (wp_hupPart hpids hsmall h₃) fun _ w₄ h₄ => ?_
    refine wp_seq (wp_ioPart hpids hsmall h₄) fun _ w₅ h₅ => ?_
    exact wp_seq (wp_usr1Part hpids hsmall h₅) fun _ _ h => wp_pure h

end Loop

/-! ## A session that registers -/

/-- A monitor around sessions that have not registered yet, which `malloc` gives the first row at
`a`. -/
def Moni.around (a : ℕ) (procs : List Proc) : Moni :=
  { procs := procs, tabAt := a, cfg := .defaults }

/-- The `i`-th session registers, the monitor reads the message, and is suspended again. -/
def registerScript (i : ℕ) : List MEnv := [{}, { before := [.send i] }, {}, {}, {}]

/-- A message with all fields: it is served, or the walk through the table is a fault. -/
theorem serveFifo_run {es : List MEnv} {w : MRun} (hf : (fifoFields w.st.bufFifo).isSome) :
    serveFifo es w = if w.st.tabFirst = w.st.tabAt
      then (⟨{ w.st with tab := serveMessage w.st.bufFifo w.st.tab }, w.trace⟩, some ((), es))
      else (⟨w.st, w.trace ++ [(.fault, w.st)]⟩, none) := by
  obtain ⟨fields, hf⟩ := Option.isSome_iff_exists.mp hf
  by_cases hat : w.st.tabFirst = w.st.tabAt
  · simp [serveFifo, walkTab, bind_run, Prog.get, hf, hat, Prog.modify]
  · simp [serveFifo, walkTab, bind_run, Prog.get, hf, hat, Prog.label, Prog.stop]

section Register

variable {ps : List Proc} {p : Proc} {i : ℕ} {a : ℕ}

/-- What the monitor makes of a session's first message, once it has read it. -/
theorem serveMessage_register (hp : p.phase = .fresh) (row : Row) :
    (fifoFields (readInto [] p.send.2)).isSome ∧
      serveMessage (readInto [] p.send.2) (openFifoRd row) =
        [Row.entered (decimal p.client.pid) p.client.pts p.client.addr] := by
  obtain ⟨-, -, hbytes⟩ := send_of_fresh hp
  have hnul : '\x00' ∈ (p.client.enter p.bufFifo).1 := by simp [Client.enter, sendPtsAddr, snprintf]
  rw [hbytes]
  constructor
  · rw [fifoFields_readInto hnul, fifoFields_enter]
    rfl
  · rw [serveMessage_readInto hnul, serveMessage_enter]
    simp [insEntry, findFree, openFifoRd]

/-- The row that is entered for the session, or the fault. -/
theorem mem_registerScript (hi : ps[i]? = some p) (hp : p.phase = .fresh) (row : Row) :
    if 256 ∣ a then
      ∃ s, (.suspended, s) ∈ doMonitorTrace (registerScript i) (.around a ps) row ∧
        s.tab = [Row.entered (decimal p.client.pid) p.client.pts p.client.addr] ∧
          s.procs = ps.set i p.send.1
    else ∃ s, (.fault, s) ∈ doMonitorTrace (registerScript i) (.around a ps) row := by
  obtain ⟨hfields, hserve⟩ := serveMessage_register hp row
  have hlen : p.send.2.length = maxFifoMes := by
    rw [(send_of_fresh hp).2.2]
    exact (sendPtsAddr_snd p.length_bufFifo _ _ _).2
  obtain ⟨f, hf⟩ : ∃ f, p.send.2 = f := ⟨_, rfl⟩
  rw [hf] at hlen hserve hfields
  have hbehind : readBehind a f = a ↔ 256 ∣ a := readBehind_eq_self_iff hlen
  have htake : f.take maxFifoMes = f := List.take_of_length_le hlen.le
  have hdrop : f.drop maxFifoMes = [] := List.drop_eq_nil_iff.mpr hlen.le
  have hne : f ≠ [] := List.ne_nil_of_length_pos (by rw [hlen]; decide)
  have hpos : 0 < maxFifoMes := by decide
  have hz : maxFifoMes ≠ 0 := hpos.ne'
  -- the run, statement by statement
  split
  · next ha =>
    simp [doMonitorTrace, registerScript, Moni.around, doMonitorStart, doMonitor, Prog.iter,
      Prog.iterN, bind_run, Prog.get, Prog.step, Prog.modify, startMainWork, monitorCall,
      sigsuspend, arrive, Arrival.run, hi, hp, hf, Moni.post, Sigs.inter, Sigs.diff, Sigs.union,
      Sigs.zip, chldPart, hupPart, ioPart, usr1Part, readFifo, readFifoCall, htake, hdrop, hne,
      hlen, hpos, hz, hserve, serveFifo_run, hfields, hbehind.mpr ha]
  · next ha =>
    simp [doMonitorTrace, registerScript, Moni.around, doMonitorStart, doMonitor, Prog.iter,
      Prog.iterN, bind_run, Prog.get, Prog.step, Prog.modify, startMainWork, monitorCall,
      sigsuspend, arrive, Arrival.run, hi, hp, hf, Moni.post, Sigs.inter, Sigs.diff, Sigs.union,
      Sigs.zip, chldPart, hupPart, ioPart, readFifo, readFifoCall, htake, hne, hlen, hpos, hz,
      serveFifo_run, hfields, mt hbehind.mp ha]

end Register

/-- The only session that is live. -/
theorem liveRows_register {ps : List Proc} (hfresh : ∀ p ∈ ps, p.phase = .fresh) {p : Proc} {i : ℕ}
    (hi : ps[i]? = some p) : (liveRows (ps.set i p.send.1) : Multiset Row) = {p.client.row} := by
  obtain ⟨hlt, hget⟩ := List.getElem?_eq_some_iff.mp hi
  obtain ⟨hclient, hphase, -⟩ := send_of_fresh (hfresh p (List.mem_of_getElem? hi))
  have htake : liveRows (ps.take i) = [] :=
    liveRows_of_fresh fun p' hp' => hfresh p' (List.mem_of_mem_take hp')
  have hdrop : liveRows (ps.drop (i + 1)) = [] :=
    liveRows_of_fresh fun p' hp' => hfresh p' (List.mem_of_mem_drop hp')
  rw [List.set_eq_take_append_cons_drop, if_pos hlt, liveRows_append,
    liveRows_cons_of_live hphase, htake, hdrop, hclient]
  rfl

/-! ## The theorems -/

/-- **When the table reflects the sessions.** For sessions with distinct pids, every run of the
monitor with them shows their rows whenever it is suspended with no signal pending, exactly when
there are none, or `malloc` returns the first row at a multiple of 256 and all pids have at most
five digits. -/
theorem doMonitor_reflects_iff {ps : List Proc} (hfresh : ∀ p ∈ ps, p.phase = .fresh)
    (hpids : (ps.map fun p => p.client.pid).Nodup) (a : ℕ) :
    (∀ (es : List MEnv) (s : Moni) (row : Row), s.procs = ps → s.tabAt = a →
      Always Reflects (doMonitorTrace es s row)) ↔
        ps = [] ∨ 256 ∣ a ∧ ∀ p ∈ ps, p.client.pid < 100000 := by
  constructor
  · intro h
    -- what a session that registers leaves behind
    have hregister : ∀ p ∈ ps, 256 ∣ a ∧ p.client.pid < 100000 := by
      intro p hp
      obtain ⟨i, hi⟩ := List.mem_iff_getElem?.mp hp
      have hmem := mem_registerScript (a := a) hi (hfresh p hp) ⟨[], [], []⟩
      split at hmem
      · next ha =>
        obtain ⟨s, hs, htab, hprocs⟩ := hmem
        obtain ⟨t₁, t₂, ht⟩ := List.append_of_mem hs
        have hperm := Multiset.coe_eq_coe.mpr (h _ _ _ rfl rfl t₁ _ s t₂ ht).2
        rw [htab, hprocs, liveRows_register hfresh hi, List.filter_singleton,
          free_entered (decimal_ne_nil p.client.pid)] at hperm
        exact ⟨ha, (entered_eq_row_iff p.client).mp (Multiset.singleton_inj.mp hperm)⟩
      · obtain ⟨s, hs⟩ := hmem
        obtain ⟨t₁, t₂, ht⟩ := List.append_of_mem hs
        exact (h _ _ _ rfl rfl t₁ _ s t₂ ht).elim
    rcases List.eq_nil_or_concat ps with hnil | ⟨ps', p, hps⟩
    · exact Or.inl hnil
    · have hmem : p ∈ ps := by simp [hps]
      exact Or.inr ⟨(hregister p hmem).1, fun p hp => (hregister p hp).2⟩
  · rintro h es s row rfl rfl
    have hpids' : ((s.procs.map Proc.client).map Client.pid).Nodup := by
      rwa [List.map_map]
    have hsmall : ∀ c ∈ s.procs.map Proc.client, c.pid < 100000 := fun c hc => by
      obtain ⟨p, hp, rfl⟩ := List.mem_map.mp hc
      rcases h with hnil | ⟨-, hall⟩
      · simp [hnil] at hp
      · exact hall p hp
    have hplaced : Placed (doMonitorStart s row) :=
      ⟨rfl, h.imp (fun hnil => ⟨hnil, rfl⟩) fun h => h.1⟩
    have hstart : Ready (s.procs.map Proc.client) ⟨doMonitorStart s row, []⟩ := by
      refine ⟨⟨rfl, [], [], .nil, rfl, ?_⟩, hplaced, fun hne => absurd rfl hne, always_nil⟩
      have hlive : liveRows (doMonitorStart s row).procs = [] := liveRows_of_fresh hfresh
      rw [hlive]
      exact occupied_cons_of_free Row.free (free_wipe row) []
    exact always_of_wp (E := fun _ => True) (wp_doMonitor hpids' hsmall hstart) (fun _ _ h => h)
      fun _ _ => trivial

/-- A session, before it registers. -/
def Client.proc (c : Client) : Proc where
  client := c
  bufFifo := List.replicate maxFifoMes '\x00'
  length_bufFifo := List.length_replicate
  phase := .fresh

/-- A client with pseudo terminal `/dev/pts/4`. -/
def clientOf (pid : ℕ) (h : 1 ≤ pid) (h' : pid ≤ 4194304) : Client where
  pid := pid
  pts := "/dev/pts/4".toList
  addr := "250012345".toList
  pid_pos := h
  pid_le := h'
  pts_field := by decide
  pts_length := by decide
  pts_slash := by decide
  addr_field := by decide
  addr_length := by decide

/-- Two sessions, with pids of four and of five digits, the second of which registers. -/
theorem doMonitor_reflects_iff_two :
    Always Reflects (doMonitorTrace (registerScript 1)
      (.around 0x55d0c0a0f200 [(clientOf 4711 (by decide) (by decide)).proc,
        (clientOf 99999 (by decide) (by decide)).proc]) ⟨[], [], []⟩) :=
  (doMonitor_reflects_iff (by decide) (by decide) 0x55d0c0a0f200).mpr (Or.inr (by decide))
    _ _ _ rfl rfl

instance (t : List (MEvent × Moni)) (k : MEvent) (s : Moni) : Decidable (Reflects t k s) :=
  match k with
  | .suspended => inferInstanceAs (Decidable (_ ∧ _))
  | .fault => isFalse id
  | .fork => isTrue trivial
  | .waiting => isTrue trivial
  | .wait => isTrue trivial
  | .reload _ => isTrue trivial
  | .readFifo _ => isTrue trivial
  | .upload _ => isTrue trivial

/-- A session with pid 123456 that starts and ends: its row stays. -/
theorem not_doMonitor_reflects :
    ¬ ∀ (es : List MEnv) (s : Moni) (row : Row), (∀ p ∈ s.procs, p.phase = .fresh) →
      (s.procs.map fun p => p.client.pid).Nodup → Always Reflects (doMonitorTrace es s row) := by
  intro h
  have h₁ := h [{}, { before := [.send 0] }, {}, {}, { before := [.send 0] }, {}, {}, {}]
    (.around 0x55d0c0a0f200 [(clientOf 123456 (by decide) (by decide)).proc]) ⟨[], [], []⟩
    (by decide) (by decide)
  revert h₁
  decide +kernel

/-- With the first row at another address, the first message of any session ends in a fault. -/
example : ¬ Always Reflects (doMonitorTrace (registerScript 0)
    (.around 0x55d0c0a0f2a0 [(clientOf 4711 (by decide) (by decide)).proc]) ⟨[], [], []⟩) := by
  decide +kernel

end PadSvr
