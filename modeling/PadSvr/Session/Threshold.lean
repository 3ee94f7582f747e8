import PadSvr.Session.Buffer

/-!
# The threshold of a flush

With the idle timer, a read that brings `totali` up to the threshold asks for a flush. The
threshold is a packet size at first and later half of `totali` above the last packet sent, so it
can lie above `Buffer_size`. A read that fills the buffer then asks for no flush, and the next one
has no room: its result 0 looks like an end of file.

## Main definitions

* `Session.threshold`: the threshold after a read that fills the buffer
* `brimful B t`: the buffer is full and no flush has been asked for
* `ReadsAsk`, `ReadsUnbrimmed`: a read has room, and finds the buffer not brimful

## Main results

* `doCopy_readsAsk_iff`: reads have room exactly as long as they find the buffer not brimful
* `not_doCopy_readsAsk`: a buffer smaller than a packet
-/

namespace PadSvr

open Scripted Scripted.Prog CString

/-- The threshold after a read that fills a buffer of `B` bytes. -/
def Session.threshold (B : ℕ) (s : Session) : ℤ :=
  if s.loc.flagLastWritesock then int32 (s.loc.lastwritesock + B / 2) else s.loc.minlimit

/-- A read that fills the buffer leaves it brimful if the threshold lies above its size, until a
flush test finds an expiry of the idle timer or a hang-up. -/
def brimfulStep (B : ℕ) (b : Bool) : Event × Session → Bool
  | (.readMaster _ _ (.ok data), s) =>
    if data = [] then b else decide (s.loc.totali + data.length = B ∧ B < s.threshold B)
  | (.forwardTest, s) => b && ¬ (s.done = 3 ∨ s.flagForwardtimerEx)
  | _ => b

/-- The buffer is full and no flush has been asked for. -/
def brimful (B : ℕ) (t : STrace) : Bool := t.foldl (brimfulStep B) false

/-- A read from the master asks for something. -/
def ReadsAsk (_ : STrace) : Event → Session → Prop
  | .readMaster _ n _, _ => 1 ≤ n
  | _, _ => True

/-- A read from the master finds the buffer not brimful. -/
def ReadsUnbrimmed (B : ℕ) (t : STrace) : Event → Session → Prop
  | .readMaster _ _ _, _ => brimful B t = false
  | _, _ => True

/-- A read that fills the buffer asks for a flush unless the threshold lies above its size. -/
theorem flagMinlimitEx_held {B i : ℕ} {s : Session} (h : s.loc.totali + i = B) :
    (s.loc.held i).flagMinlimitEx = false ↔
      B < s.threshold B ∧ s.loc.flagMinlimitEx = false := by
  have hmin : (s.loc.received i).minlimit = s.threshold B := by
    simp only [Locals.received, Session.threshold, h]
  show (decide ((s.loc.received i).minlimit ≤ ((s.loc.totali + i : ℕ) : ℤ)) ||
    s.loc.flagMinlimitEx) = false ↔ _
  rw [hmin, h, Bool.or_eq_false_iff, decide_eq_false_iff_not, Int.not_le]

instance (t : STrace) (k : Event) (s : Session) : Decidable (ReadsAsk t k s) :=
  match k with
  | .readMaster _ n _ => inferInstanceAs (Decidable (1 ≤ n))
  | .loopHead => isTrue trivial
  | .forwardTest => isTrue trivial
  | .loopEnd => isTrue trivial
  | .poll _ => isTrue trivial
  | .readPipe _ => isTrue trivial
  | .readSock _ _ => isTrue trivial
  | .writeSock _ _ => isTrue trivial
  | .writeMaster _ _ => isTrue trivial
  | .reload _ => isTrue trivial
  | .closingPoll _ => isTrue trivial

instance (B : ℕ) (t : STrace) (k : Event) (s : Session) : Decidable (ReadsUnbrimmed B t k s) :=
  match k with
  | .readMaster _ _ _ => inferInstanceAs (Decidable (brimful B t = false))
  | .loopHead => isTrue trivial
  | .forwardTest => isTrue trivial
  | .loopEnd => isTrue trivial
  | .poll _ => isTrue trivial
  | .readPipe _ => isTrue trivial
  | .readSock _ _ => isTrue trivial
  | .writeSock _ _ => isTrue trivial
  | .writeMaster _ _ => isTrue trivial
  | .reload _ => isTrue trivial
  | .closingPoll _ => isTrue trivial

/-! ## Traces -/

theorem brimful_concat (B : ℕ) (t : STrace) (x : Event × Session) :
    brimful B (t ++ [x]) = brimfulStep B (brimful B t) x := by
  rw [brimful, List.foldl_append]
  rfl

/-- Calls other than reads from the master, between two flush tests. -/
theorem brimful_append {B : ℕ} {t t' : STrace}
    (h : ∀ x ∈ t', x.1 ≠ .forwardTest ∧ ∀ o n d, x.1 ≠ .readMaster o n d) :
    brimful B (t ++ t') = brimful B t := by
  induction t' using List.reverseRecOn with
  | nil => rw [List.append_nil]
  | append_singleton t' x ih =>
    rw [← List.append_assoc, brimful_concat, ih fun y hy => h y (by simp [hy])]
    obtain ⟨hx₁, hx₂⟩ := h x (by simp)
    rcases x with ⟨_ | _, _⟩ <;> simp_all [brimfulStep]

/-- What a trace tells of the reads is the same in both words. -/
def SameReads (B : ℕ) (t : STrace) (k : Event) (s : Session) : Prop :=
  ReadsAsk t k s ↔ ReadsUnbrimmed B t k s

theorem sameReads_append {B : ℕ} {t t' : STrace} (h : Always (SameReads B) t)
    (ht : ∀ x ∈ t', ∀ o n d, x.1 ≠ .readMaster o n d) : Always (SameReads B) (t ++ t') :=
  always_append h fun x hx _ => by
    have hx := ht x hx
    rcases x with ⟨_ | _, _⟩ <;> simp_all [SameReads, ReadsAsk, ReadsUnbrimmed]

/-! ## The loop -/

section Loop

/-- Up to the read of a round: no flush is asked for, and the buffer is full exactly when it is
brimful. -/
structure Ahead (E : Env → Prop) (s₀ : Session) (w : SRun) : Prop where
  laid : Laid E s₀ w.st
  clear : w.st.loc.flagMinlimitEx = false
  full : brimful s₀.cfg.bufferSize.toNat w.trace = true ↔
    w.st.loc.totali = s₀.cfg.bufferSize.toNat
  same : Always (SameReads s₀.cfg.bufferSize.toNat) w.trace

/-- After the read of a round: a full buffer is brimful unless the read has asked for a flush. -/
structure Behind (E : Env → Prop) (s₀ : Session) (w : SRun) : Prop where
  laid : Laid E s₀ w.st
  full : brimful s₀.cfg.bufferSize.toNat w.trace = true ↔
    w.st.loc.totali = s₀.cfg.bufferSize.toNat ∧ w.st.loc.flagMinlimitEx = false
  same : Always (SameReads s₀.cfg.bufferSize.toNat) w.trace

variable {E : Env → Prop} {s₀ : Session} {w w' : SRun} {hup : Prop}

theorem Ahead.behind (h : Ahead E s₀ w) : Behind E s₀ w :=
  ⟨h.laid, h.full.trans ⟨fun ht => ⟨ht, h.clear⟩, And.left⟩, h.same⟩

/-- The other parts of a round neither read from the master nor test for a flush. -/
theorem brimful_aside {B : ℕ} (ha : Aside E hup w w') (hs : Always (SameReads B) w.trace) :
    brimful B w'.trace = brimful B w.trace ∧ Always (SameReads B) w'.trace ∧
      w'.st.loc.flagMinlimitEx = w.st.loc.flagMinlimitEx := by
  obtain ⟨hb, t, ht, hx⟩ := ha
  obtain ⟨so, ma, pi, ws, -, hl⟩ := hb.loc
  have hne : ∀ x ∈ t, x.1 ≠ .forwardTest ∧ ∀ o n d, x.1 ≠ .readMaster o n d := fun x hm => by
    rcases (hx x hm).2.eq with ⟨-, _, h⟩ | ⟨_, h⟩ | ⟨_, _, h⟩ | ⟨_, _, h⟩ | ⟨_, h⟩ <;> simp [h]
  rw [ht, hl]
  exact ⟨brimful_append hne, sameReads_append hs fun x hm => (hne x hm).2, rfl⟩

theorem Ahead.aside (h : Ahead E s₀ w) (ha : Aside E hup w w') : Ahead E s₀ w' := by
  obtain ⟨hb, hs, hm⟩ := brimful_aside ha h.same
  obtain ⟨hl, -, ht⟩ := h.laid.beside ha.1
  exact ⟨hl, hm.trans h.clear, by rw [hb, ht]; exact h.full, hs⟩

theorem Ahead.label (h : Ahead E s₀ w) : Ahead E s₀ ⟨w.st, w.trace ++ [(.loopHead, w.st)]⟩ :=
  ⟨h.laid, h.clear, by rw [brimful_concat]; exact h.full, sameReads_append h.same (by simp)⟩

theorem Behind.aside (h : Behind E s₀ w) (ha : Aside E hup w w') : Behind E s₀ w' := by
  obtain ⟨hb, hs, hm⟩ := brimful_aside ha h.same
  obtain ⟨hl, -, ht⟩ := h.laid.beside ha.1
  exact ⟨hl, by rw [hb, ht, hm]; exact h.full, hs⟩

/-- Packets are neither. -/
theorem brimful_sent {B : ℕ} {q : UInt8} {payload : List UInt8} {k : ℕ}
    (hs : Sent E q payload k w w') (h : Always (SameReads B) w.trace) :
    brimful B w'.trace = brimful B w.trace ∧ Always (SameReads B) w'.trace := by
  obtain ⟨t, ht, hx, -⟩ := hs.trace
  have hne : ∀ x ∈ t, x.1 ≠ .forwardTest ∧ ∀ o n d, x.1 ≠ .readMaster o n d := fun x hm => by
    rcases (hx x hm).2.eq with ⟨_, h⟩ | ⟨_, _, h, -⟩ <;> simp [h]
  rw [ht]
  exact ⟨brimful_append hne, sameReads_append h fun x hm => (hne x hm).2⟩

variable (hfix : ∀ c, CfgReach E s₀.cfg c → c.forwardtimer = s₀.cfg.forwardtimer ∧
    c.bufferSize = s₀.cfg.bufferSize) (hft : s₀.cfg.forwardtimer ≠ 0)

include hfix hft in
/-- A read has room unless the buffer is brimful. -/
theorem Ahead.read (h : Ahead E s₀ w) (e : Env) (res : Except Errno (List UInt8)) (s : Session) :
    Always (SameReads s₀.cfg.bufferSize.toNat) (readRun w e res s).trace := by
  refine always_concat.mpr ⟨h.same, ?_⟩
  have hon : w.st.cfg.forwardtimer ≠ 0 := by rwa [(hfix _ h.laid.cfg).1]
  have hfull := h.laid.full fun c hc => (hfix c hc).2
  have hn : w.st.readArgs.2 = w.st.loc.freesize := by rw [Session.readArgs, if_neg hon]
  show 1 ≤ w.st.readArgs.2 ↔ brimful s₀.cfg.bufferSize.toNat w.trace = false
  rw [← Bool.not_eq_true, h.full, hn]
  omega

include hfix hft in
theorem wp_readMasterPart_brim (h : Ahead E s₀ w) :
    wp E (fun w => Always (SameReads s₀.cfg.bufferSize.toNat) w.trace) readMasterPart
      (fun _ => Behind E s₀) w := by
  have hon : w.st.cfg.forwardtimer ≠ 0 := by rwa [(hfix _ h.laid.cfg).1]
  have hread := h.read hfix hft
  refine wp_readMasterPart_laid (fun c hc => Int.le_of_eq (hfix c hc).2) h.laid h.same
    (fun _ => h.behind) (fun e he er _ => ?_) (fun e he _ => ?_) (fun hz => absurd hz hon)
    (fun hz => absurd hz hon) fun _ e he data hne hlen _ s hs =>
      ⟨hread e _ s, fun s' hn hl hh => ⟨hl, ?_, hread e _ s'⟩⟩
  · have h₁ : Behind E s₀ (readRun w e (.error er) ((deliver e w.st).failing er)) :=
      ⟨(h.laid.delivered e).of_eq rfl rfl .refl, by
        rw [brimful_concat]
        simpa [brimfulStep, h.clear] using h.full, hread e _ _⟩
    exact wp_failed_aside (fun _ h => h.same) (fun _ ha => h₁.aside ha) (by simp) (by simp)
  · refine ⟨(h.laid.delivered e).of_eq rfl rfl .refl, ?_, hread e _ _⟩
    rw [brimful_concat]
    simpa [brimfulStep, h.clear] using h.full
  · have hloc : s'.loc = w.st.loc.held data.length := by simpa [hs] using hn.loc
    rw [brimful_concat, hloc]
    simp only [brimfulStep, if_neg hne, decide_eq_true_eq, deliver_loc, held_totali,
      Session.threshold]
    refine and_congr_right fun hB => ?_
    rw [flagMinlimitEx_held hB, Session.threshold]
    simp [h.clear]

include hfix hft in
theorem wp_forwardPart_brim (h : Behind E s₀ w) (hB : 0 < s₀.cfg.bufferSize) :
    wp E (fun w => Always (SameReads s₀.cfg.bufferSize.toNat) w.trace) forwardPart
      (fun _ => Ahead E s₀) w := by
  have hon : w.st.cfg.forwardtimer ≠ 0 := by rwa [(hfix _ h.laid.cfg).1]
  have hfl : w.st.flushes = w.st.due := by simp [Session.flushes, hon]
  have htest : Always (SameReads s₀.cfg.bufferSize.toNat) (w.trace ++ [(.forwardTest, w.st)]) :=
    always_concat.mpr ⟨h.same, Iff.rfl⟩
  -- a flush empties the buffer, whether it was brimful or not
  have hflush : w.st.due = true →
      brimful s₀.cfg.bufferSize.toNat (w.trace ++ [(.forwardTest, w.st)]) = false := fun hd => by
    rw [brimful_concat, ← Bool.not_eq_true]
    intro hb
    obtain ⟨hbrim, hno⟩ : brimful s₀.cfg.bufferSize.toNat w.trace = true ∧
        ¬ (w.st.done = 3 ∨ w.st.flagForwardtimerEx = true) := by
      simpa [brimfulStep] using hb
    have hclear := (h.full.mp hbrim).2
    refine hno ?_
    simpa [Session.due, hclear] using hd
  refine wp_forwardPart_laid (fun c hc => Int.le_of_eq (hfix c hc).2) h.laid (fun hf => ?_)
    (fun hf hz s hs hl => ⟨hl, ?_, ?_, htest⟩) (fun _ _ k w' hs => (brimful_sent hs htest).2)
    fun hf hz p w' hw hs hl => ⟨hl, ?_, ?_, (brimful_sent hs htest).2⟩
  · -- no flush: a full buffer stays brimful
    obtain ⟨⟨h₃, hx⟩, hm⟩ : (w.st.done ≠ 3 ∧ w.st.flagForwardtimerEx = false) ∧
        w.st.loc.flagMinlimitEx = false := by
      simpa [hfl, Session.due] using hf
    refine ⟨h.laid, hm, ?_, htest⟩
    rw [brimful_concat]
    simpa [brimfulStep, h₃, hx, hm] using h.full
  · rw [hs]
  · rw [hflush (hfl ▸ hf), hs]
    show false = true ↔ w.st.loc.totali = s₀.cfg.bufferSize.toNat
    simp only [hz, Bool.false_eq_true, false_iff]
    omega
  · show w'.st.loc.flagMinlimitEx = false
    rw [hs.state.loc]
    rfl
  · have hb := (brimful_sent hs htest).1
    show brimful _ w'.trace = true ↔ 0 = s₀.cfg.bufferSize.toNat
    rw [hb, hflush (hfl ▸ hf)]
    simp only [Bool.false_eq_true, false_iff]
    omega

end Loop

/-! ## The theorems -/

/-- **When a read from the master has room.** With the idle timer and fixed settings, every read
asks for at least one byte exactly when no read finds the buffer brimful: full, with the threshold
above its size when it filled up, and no expiry of the timer or hang-up since. -/
theorem doCopy_readsAsk_iff {es : List Env} {s : Session} {bufn bufd : List UInt8}
    (hft : s.cfg.forwardtimer ≠ 0) (hB : 1 ≤ s.cfg.bufferSize)
    (hbufd : bufd.length = s.cfg.bufferSize.toNat + 1)
    (hfix : ∀ c, CfgReach (· ∈ es) s.cfg c →
      c.forwardtimer = s.cfg.forwardtimer ∧ c.bufferSize = s.cfg.bufferSize) :
    Always ReadsAsk (doCopyTrace es s bufn bufd) ↔
      Always (ReadsUnbrimmed s.cfg.bufferSize.toNat) (doCopyTrace es s bufn bufd) := by
  have hsame : Always (SameReads s.cfg.bufferSize.toNat) (doCopyTrace es s bufn bufd) := by
    refine always_of_wp (E := (· ∈ es)) (wp_doCopyLoop (H := Ahead (· ∈ es) s)
      (L := Ahead (· ∈ es) s) (I := fun w => Always (SameReads s.cfg.bufferSize.toNat) w.trace)
      (Q := fun w => Always (SameReads s.cfg.bufferSize.toNat) w.trace)
      (fun _ h => h.same) (fun w h _ => ?_) (fun w h _ => ?_) (fun w h => ?_) ?_)
      (fun _ _ h => h) (fun _ he => he)
    · exact wp_doCopyRound_aside (J := Ahead (· ∈ es) s) (fun _ h => h.same) (fun _ h => h.same)
        (fun _ _ h ha => h.aside ha) (fun _ _ h ha => h.aside ha)
        (fun _ h => wp_readMasterPart_brim hfix hft h)
        (fun _ h => wp_forwardPart_brim hfix hft h hB) h.label
    · rw [List.append_assoc]
      exact sameReads_append h.same (by simp)
    · exact sameReads_append h.same (by simp)
    · refine ⟨laid_doCopyStart _ s bufn hbufd, rfl, ?_, always_nil⟩
      show false = true ↔ 0 = s.cfg.bufferSize.toNat
      simp only [Bool.false_eq_true, false_iff]
      omega
  exact ⟨fun h t₁ k s₁ t₂ ht => (hsame t₁ k s₁ t₂ ht).mp (h t₁ k s₁ t₂ ht),
    fun h t₁ k s₁ t₂ ht => (hsame t₁ k s₁ t₂ ht).mpr (h t₁ k s₁ t₂ ht)⟩

/-- Two reads, of which the first brings `totali` up to a threshold of 2. -/
def fillScript : List Env :=
  polled [.typed [97, 98, 99]] true false ++ [{ Env.willing with master := .ok 3 }] ++ quiet 2 ++
  polled [.typed [100]] true false ++ [{ Env.willing with master := .ok 3 }] ++ quiet 2

theorem doCopy_readsAsk_iff_fill :
    Always ReadsAsk (doCopyTrace fillScript { Session.fresh 10 4 with datalengthMin := 2 } []
      (List.replicate 5 0)) := by
  refine (doCopy_readsAsk_iff (s := { Session.fresh 10 4 with datalengthMin := 2 }) (by decide)
    (by decide) (by decide) fun c hc => ?_).mpr (by decide +kernel)
  rw [cfgReach_of_missing (fun e he => ?_) hc]
  · exact ⟨rfl, rfl⟩
  · have hall : ∀ e ∈ fillScript, e.file = .missing false := by decide
    exact hall e he

/-- A buffer of 4 bytes and packets of 128: four bytes fill the buffer below the threshold, and the
next read asks for nothing. -/
theorem not_doCopy_readsAsk :
    ¬ ∀ (es : List Env) (s : Session) (bufn bufd : List UInt8),
      1 ≤ s.cfg.forwardtimer ∧ s.cfg.forwardtimer ≤ 199 → 1 ≤ s.cfg.bufferSize →
      16 ≤ s.datalengthMin ∧ s.datalengthMin ≤ 4096 → bufd.length = s.cfg.bufferSize.toNat + 1 →
      (∀ c, CfgReach (· ∈ es) s.cfg c →
        c.forwardtimer = s.cfg.forwardtimer ∧ c.bufferSize = s.cfg.bufferSize) →
        Always ReadsAsk (doCopyTrace es s bufn bufd) := by
  intro h
  have hall : ∀ e ∈ fillScript, e.file = .missing false := by decide
  have h₁ := h (polled [.typed [97, 98, 99, 100]] true false ++
    [{ Env.willing with master := .ok 4 }] ++ quiet 1 ++ fillScript) (.fresh 10 4) []
    (List.replicate 5 0) (by decide) (by decide) (by decide) (by decide) fun c hc => by
      rw [cfgReach_of_missing (fun e he => ?_) hc]
      · exact ⟨rfl, rfl⟩
      · revert e he
        decide
  revert h₁
  decide +kernel

end PadSvr
