import PadSvr.Config.Setting
import PadSvr.Session.Inter

/-!
# Reading a file again

What a file does to a setting does not depend on the settings before, so a file that has been read
changes nothing when it is read again, however often.

## Main definitions

* `Settings.Agree c c'`: the settings hold the same

## Main results

* `readcfg_again`: a file is read again without any effect
* `agree_of_reach`: no reload has an effect while the file stays the one that was read
-/

namespace PadSvr

open CString

/-- The settings hold the same. -/
def Settings.Agree (c c' : Settings) : Prop := ∀ k, c'.get k = c.get k

theorem Settings.Agree.refl (c : Settings) : c.Agree c := fun _ => rfl

section Again

variable {file : CfgFile} {c c₁ c₂ : Settings} {b b' : Bool}

/-- A reading that follows another one of the same file, with settings in between that hold the
same. -/
theorem agree_of_readcfg (h : readcfg file c = .ok (b, c₁)) (hc : c₁.Agree c₂) {c₃ : Settings}
    (h' : readcfg file c₂ = .ok (b', c₃)) : c₁.Agree c₃ := by
  intro k
  have hfirst := get_readcfgLines (readcfgLines_of_readcfg h) k
  rw [get_readcfgLines (readcfgLines_of_readcfg h') k, hc k, hfirst]
  rcases Keyed.last (fun buf => assigned (cstr buf)) k (linesUntil file.lines) with _ | v <;> rfl

/-- **A file is read again without any effect.** -/
theorem readcfg_again (h : readcfg file c = .ok (b, c₁)) :
    ∃ c₂, readcfg file c₁ = .ok (b, c₂) ∧ c₁.Agree c₂ := by
  obtain ⟨c₂, h', -⟩ := readcfg_ok_congr (f := fun _ => ()) (fun _ => Or.inl fun _ => rfl) h c₁
  exact ⟨c₂, h', agree_of_readcfg h (.refl c₁) h'⟩

end Again

/-- **No reload has an effect** while the file stays the one that was read. -/
theorem agree_of_reach {E : Env → Prop} {file : CfgFile} {c c₁ c₂ : Settings} {b : Bool}
    (hE : ∀ e, E e → e.file = file) (h : readcfg file c = .ok (b, c₁)) (hr : CfgReach E c₁ c₂) :
    c₁.Agree c₂ := by
  induction hr with
  | refl => exact .refl c₁
  | tail _ hstep ih =>
    obtain ⟨e, he, b', hread⟩ := hstep
    rw [hE e he] at hread
    exact agree_of_readcfg h ih hread

/-- The lines of a file, those of a second reading included. -/
example : (readcfg (.readable "x29_profile 1:1,2:2\nx29_profile 3:3\nlog_level 7\n".toList)
    .defaults).bind (fun r => (readcfg (.readable
      "x29_profile 1:1,2:2\nx29_profile 3:3\nlog_level 7\n".toList) r.2).map fun r' =>
        (r'.2.get .x29Profile, r'.2.get .logLevel)) =
      .ok (.profile [⟨3, 3⟩], .number 7) := by decide

end PadSvr
