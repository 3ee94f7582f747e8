import PadSvr.Session.Buffer

/-!
# Reloads of `Buffer_size`

The two blocks of a session are as large as `Buffer_size` asked for at its start, and a reload
changes the setting but not the blocks. All reads of a session stay inside them exactly when no
file it may read raises the setting.

## Main definitions

* `ReadsWithin`: a read asks for no more than the rest of its block
* `raisingScript`: a session that reloads a file and then reads a packet

## Main results

* `bufferSize_le_of_reach`: what no single file raises, no sequence of reloads raises
* `doCopy_readsWithin_iff`: when all reads stay inside the blocks
* `not_doCopy_readsWithin`: a reload that raises `Buffer_size`, and the next read
-/

namespace PadSvr

open Scripted Scripted.Prog

/-- A read asks for no more bytes than the rest of its block holds, where `bufn` and `bufd` are the
sizes of the two blocks. -/
def ReadsWithin (bufn bufd : ℕ) (_ : STrace) : Event → Session → Prop
  | .readPipe n, _ => n ≤ bufn
  | .readSock n _, _ => n ≤ bufn
  | .readMaster off n _, _ => off + n ≤ bufd
  | _, _ => True

/-! ## The settings -/

section Settings

variable {E : Env → Prop} {c₀ : Settings}

/-- The files of the script do not raise `Buffer_size` over the settings `c₀`. -/
def KeepsSize (E : Env → Prop) (c₀ : Settings) : Prop :=
  ∀ e, E e → ∀ b c, readcfg e.file c₀ = .ok (b, c) → c.bufferSize ≤ c₀.bufferSize

/-- A sequence of reloads raises `Buffer_size` only if one of its files alone does. -/
theorem bufferSize_le_of_reach (h : KeepsSize E c₀) {c : Settings} (hc : CfgReach E c₀ c) :
    c.bufferSize ≤ c₀.bufferSize := by
  induction hc with
  | refl => exact Int.le_refl c₀.bufferSize
  | tail _ hstep ih =>
    obtain ⟨e, he, b, hr⟩ := hstep
    obtain ⟨c₁, hr₁, ⟨hkeep, -⟩ | hset⟩ := readcfg_ok_congr bufferSize_apply hr c₀
    · rwa [hkeep]
    · rw [← hset]
      exact h e he b c₁ hr₁

end Settings

/-! ## The loop -/

/-- The buffer is in its layout, and all reads so far stayed inside the blocks. -/
structure Bounded (E : Env → Prop) (s₀ : Session) (w : SRun) : Prop where
  laid : Laid E s₀ w.st
  bufn : w.st.bufn.length = s₀.cfg.bufferSize.toNat + 1
  reads : Always (ReadsWithin (s₀.cfg.bufferSize.toNat + 1) (s₀.cfg.bufferSize.toNat + 1)) w.trace

section Loop

variable {E : Env → Prop} {hup : Prop} {s₀ : Session} {w w' : SRun}

/-- Packets are no reads. -/
theorem readsWithin_sent {m n k : ℕ} {q : UInt8} {payload : List UInt8}
    (h : Always (ReadsWithin m n) w.trace) (hs : Sent E q payload k w w') :
    Always (ReadsWithin m n) w'.trace :=
  hs.always h fun _ _ _ hk => by
    rcases hk.eq with ⟨_, rfl⟩ | ⟨_, _, rfl, -⟩ <;> trivial

variable (hB : KeepsSize E s₀.cfg)

include hB in
/-- The other parts of a round read as much as `Buffer_size` allows. -/
theorem Bounded.aside (h : Bounded E s₀ w) (ha : Aside E hup w w') : Bounded E s₀ w' := by
  obtain ⟨hb, t, ht, hx⟩ := ha
  refine ⟨(h.laid.beside hb).1, hb.bufn.trans h.bufn, ?_⟩
  rw [ht]
  refine always_append h.reads fun x hm _ => ?_
  obtain ⟨hbx, hk⟩ := hx x hm
  rcases x with ⟨k, s⟩
  have hsize : s.cfg.bufferSize ≤ _ := bufferSize_le_of_reach hB (h.laid.cfg.trans hbx.cfg)
  cases k with
  | readPipe n =>
    obtain rfl : n = s.cfg.bufferSize.toNat := hk
    show s.cfg.bufferSize.toNat ≤ s₀.cfg.bufferSize.toNat + 1
    omega
  | readSock n res =>
    obtain rfl : n = s.cfg.bufferSize.toNat + 1 := hk
    show s.cfg.bufferSize.toNat + 1 ≤ s₀.cfg.bufferSize.toNat + 1
    omega
  | readMaster off n res => exact absurd hk (by simp [Event.IsBeside])
  | _ => trivial

include hB in
theorem wp_readMasterPart_bounded (h : Bounded E s₀ w) :
    wp E (fun w => Always (ReadsWithin (s₀.cfg.bufferSize.toNat + 1)
      (s₀.cfg.bufferSize.toNat + 1)) w.trace) readMasterPart (fun _ => Bounded E s₀) w := by
  -- the read asks for the rest of the block at most
  have hread : ∀ (e : Env) res s, Always (ReadsWithin (s₀.cfg.bufferSize.toNat + 1)
      (s₀.cfg.bufferSize.toNat + 1)) (readRun w e res s).trace := fun e res s =>
    always_concat.mpr ⟨h.reads, by
      have hle := h.laid.readArgs_le fun c hc => bufferSize_le_of_reach hB hc
      rwa [h.laid.bufd] at hle⟩
  refine wp_readMasterPart_laid (fun c hc => bufferSize_le_of_reach hB hc) h.laid h.reads
    (fun _ => h) (fun e he er _ => ?_) (fun e he _ => ⟨?_, ?_, hread e _ _⟩)
    (fun hz e he data hne _ w₁ hw₁ k w' hs => ?_)
    (fun hz e he data hne _ w₁ hw₁ p w' hw hs hl => ⟨hl, ?_, ?_⟩)
    fun hz e he data hne hlen _ s hs => ⟨hread e _ s, fun s' hn hl hh => ⟨hl, ?_, hread e _ s'⟩⟩
  · have h₁ : Bounded E s₀ (readRun w e (.error er) ((deliver e w.st).failing er)) :=
      ⟨(h.laid.delivered e).of_eq rfl rfl .refl, by simpa using h.bufn, hread e _ _⟩
    exact wp_failed_aside (fun _ h => h.reads) (fun _ ha => h₁.aside hB ha) (by simp) (by simp)
  · exact (h.laid.delivered e).of_eq rfl rfl .refl
  · simpa using h.bufn
  · exact readsWithin_sent (hw₁ ▸ hread e _ _) hs
  · have hb := hs.state.bufn
    rw [hw₁] at hb
    simpa [Session.gotMaster, hb] using h.bufn
  · exact (readsWithin_sent (hw₁ ▸ hread e _ _) hs :)
  · rw [hn.bufn, hs]
    simpa [Session.gotMaster] using h.bufn

include hB in
theorem wp_forwardPart_bounded (h : Bounded E s₀ w) :
    wp E (fun w => Always (ReadsWithin (s₀.cfg.bufferSize.toNat + 1)
      (s₀.cfg.bufferSize.toNat + 1)) w.trace) forwardPart (fun _ => Bounded E s₀) w := by
  have htest : Always (ReadsWithin (s₀.cfg.bufferSize.toNat + 1) (s₀.cfg.bufferSize.toNat + 1))
      (w.trace ++ [(.forwardTest, w.st)]) := always_concat.mpr ⟨h.reads, trivial⟩
  refine wp_forwardPart_laid (fun c hc => bufferSize_le_of_reach hB hc) h.laid
    (fun _ => ⟨h.laid, h.bufn, htest⟩) (fun _ hz s hs hl => ⟨hl, ?_, htest⟩)
    (fun _ _ k w' hs => readsWithin_sent htest hs)
    fun _ _ p w' _ hs hl => ⟨hl, ?_, (readsWithin_sent htest hs :)⟩
  · rw [hs]
    exact h.bufn
  · exact (congrArg List.length hs.state.bufn).trans h.bufn

end Loop

/-! ## A run that leaves its block -/

/-- A session that has just started, with settings `c`. -/
def Session.startingWith (c : Settings) : Session where
  cfg := c
  loc := { tbufd2 := 0, totali := 0, freesize := 0, minlimit := 0 }
  bufn := []
  bufd := []

/-- A round that reloads `file` and then reads a packet: at the end of the connection. -/
def raisingScript (file : CfgFile) : List Env :=
  let offer : Env := { Env.willing with file := file }
  [offer, { offer with
    before := [.signal .hup], poll := .ready { pollin := true } {} { pollin := true } }] ++
    List.replicate 9 offer

/-- The read of the packet asks for what the file allows. -/
theorem readSock_mem_raisingScript {file : CfgFile} {c c' : Settings} {b : Bool}
    (h : readcfg file c = .ok (b, c')) (bufn bufd : List UInt8) :
    ∃ s, (.readSock (c'.bufferSize.toNat + 1) (.ok []), s) ∈
      doCopyTrace (raisingScript file) (.startingWith c) bufn bufd := by
  -- the run, statement by statement
  simp [doCopyTrace, raisingScript, List.replicate, Env.willing, Session.startingWith, doCopyStart,
    doCopyLoop, doCopyRound, Prog.iter, Prog.iterN, bind_run, Prog.label, Prog.get, Prog.step,
    Prog.modify, pollPart, setWatchDog, assign, stmt, test, call, deliver, Happening.run,
    Signal.handler, chilSigHup, chilSig, pollCall, signalPart, readPipe, doInter, onFlag, interHup,
    reload, h, reventsPart, masterHangup, readMasterPart, readSocketPart, readSock, setDone,
    forwardPart, -List.length_take]

/-! ## The theorems -/

/-- **When all reads stay inside the blocks.** Over all sessions that start with the settings `c₀`
and read no configuration files but those of `F`, every read is inside its block exactly when no
file of `F` raises `Buffer_size` over its value in `c₀`. -/
theorem doCopy_readsWithin_iff {F : CfgFile → Prop} {c₀ : Settings} (hc₀ : 0 ≤ c₀.bufferSize) :
    (∀ (es : List Env) (s : Session) (bufn bufd : List UInt8), (∀ e ∈ es, F e.file) → s.cfg = c₀ →
      bufn.length = c₀.bufferSize.toNat + 1 → bufd.length = c₀.bufferSize.toNat + 1 →
        Always (ReadsWithin bufn.length bufd.length) (doCopyTrace es s bufn bufd)) ↔
      ∀ file, F file → ∀ b c, readcfg file c₀ = .ok (b, c) → c.bufferSize ≤ c₀.bufferSize := by
  constructor
  · intro h file hF b c hr
    let block : List UInt8 := List.replicate (c₀.bufferSize.toNat + 1) 0
    have hes : ∀ e ∈ raisingScript file, F e.file := by
      simpa [raisingScript] using hF
    have hin := h (raisingScript file) (.startingWith c₀) block block hes rfl (by simp [block])
      (by simp [block])
    obtain ⟨s, hs⟩ := readSock_mem_raisingScript hr block block
    obtain ⟨t₁, t₂, ht⟩ := List.append_of_mem hs
    have hle : c.bufferSize.toNat + 1 ≤ block.length := hin t₁ _ s t₂ ht
    simp only [block, List.length_replicate] at hle
    omega
  · rintro h es s bufn bufd hes rfl hbufn hbufd
    have hB : KeepsSize (F ·.file) s.cfg := fun e he => h e.file he
    rw [hbufn, hbufd]
    refine always_of_wp (wp_doCopyLoop_invariant (J := Bounded (F ·.file) s) (fun _ h => h.reads)
      (fun w k hk h => ⟨h.laid, h.bufn, always_concat.mpr ⟨h.reads, ?_⟩⟩)
      (fun _ _ h ha => h.aside hB ha) (fun _ h => wp_readMasterPart_bounded hB h)
      (fun _ h => wp_forwardPart_bounded hB h) ⟨laid_doCopyStart _ s bufn hbufd, hbufn, always_nil⟩)
      (fun _ _ h => h.reads) hes
    rcases hk with rfl | rfl <;> trivial

/-- A family of one file, which lowers `Buffer_size`. -/
theorem doCopy_readsWithin_iff_lower :
    Always (ReadsWithin 9 9) (doCopyTrace (raisingScript (.readable "Buffer_size 4\n".toList))
      (.fresh 10 8) (List.replicate 9 0) (List.replicate 9 0)) := by
  have hread : readcfg (.readable "Buffer_size 4\n".toList) (Session.fresh 10 8).cfg =
    .ok (true, { (Session.fresh 10 8).cfg with bufferSize := 4 }) := rfl
  refine (doCopy_readsWithin_iff (F := (· = .readable "Buffer_size 4\n".toList))
    (show 0 ≤ (Session.fresh 10 8).cfg.bufferSize by decide)).mpr ?_ _ (.fresh 10 8)
      (List.replicate 9 0) (List.replicate 9 0) (by simp [raisingScript]) rfl
      (by decide) (by decide)
  rintro _ rfl b c hr
  rw [hread] at hr
  cases hr
  decide

/-- A reload that raises `Buffer_size` from 8 to 16: the next read of a packet asks for 17 bytes,
into a block of 9. -/
theorem not_doCopy_readsWithin :
    ¬ ∀ (es : List Env) (s : Session) (bufn bufd : List UInt8),
      bufn.length = s.cfg.bufferSize.toNat + 1 → bufd.length = s.cfg.bufferSize.toNat + 1 →
        Always (ReadsWithin bufn.length bufd.length) (doCopyTrace es s bufn bufd) := by
  intro h
  have hread : readcfg (.readable "Buffer_size 16\n".toList) (Session.fresh 10 8).cfg =
    .ok (true, { (Session.fresh 10 8).cfg with bufferSize := 16 }) := rfl
  have hin := h (raisingScript (.readable "Buffer_size 16\n".toList)) (.fresh 10 8)
    (List.replicate 9 0) (List.replicate 9 0) (by decide) (by decide)
  obtain ⟨s, hs⟩ := readSock_mem_raisingScript hread (List.replicate 9 0) (List.replicate 9 0)
  obtain ⟨t₁, t₂, ht⟩ := List.append_of_mem hs
  have hle : 17 ≤ 9 := hin t₁ _ s t₂ ht
  exact absurd hle (by decide)

end PadSvr
