import AoeDriver.Run.Reach
import AoeDriver.Ledger.Probes

/-!
# Frames and targets

Frame conservation, the count of outstanding frames and the payload limit, in every reachable state.
-/

namespace AoeDriver

open Tables

/-- Frames in use that the lists under `d->lock` hold. -/
def Aoedev.listedFrames (d : Aoedev) : List Frame := d.activeFrames ++ d.rexmitq

/-- Frames on completion queues and in the hands of threads. -/
def Aoedev.heldFrames (d : Aoedev) : List Frame :=
  d.iocq.map Prod.snd ++ d.threads.flatMap fun th => th.early ++ th.late

/-- Every place where a frame can be. -/
def Aoedev.allFrames (d : Aoedev) : List Frame := d.targets.flatMap Aoetgt.ffree ++ d.listedFrames ++ d.heldFrames

section Places

variable (d : Aoedev)

theorem flatMap_append_coe {α β : Type} (l : List α) (φ ψ : α → List β) :
    ((l.flatMap fun a => φ a ++ ψ a : List β) : Multiset β) = (l.flatMap φ : List β) + (l.flatMap ψ : List β) := by
  induction l with
  | nil => rfl
  | cons a l ih =>
    simp only [List.flatMap_cons, ← Multiset.coe_add, ih]
    exact add_add_add_comm _ _ _ _

theorem coe_heldFrames : (d.heldFrames : Multiset Frame) = (d.ledger 0).out + (d.ledger 0).late := by
  have hzero : (0 : Hands).out = 0 ∧ (0 : Hands).late = 0 := ⟨rfl, rfl⟩
  simp only [Aoedev.heldFrames, Aoedev.ledger, hzero, add_zero]
  rw [← Multiset.coe_add, flatMap_append_coe, add_assoc]

theorem coe_listedFrames : (d.listedFrames : Multiset Frame) = (d.ledger 0).active + (d.ledger 0).deferred := by
  have hzero : (0 : Hands).active = 0 ∧ (0 : Hands).deferred = 0 := ⟨rfl, rfl⟩
  simp only [Aoedev.listedFrames, Aoedev.ledger, hzero, add_zero]
  rw [← Multiset.coe_add]
  rfl

theorem coe_activeFrames : (d.activeFrames : Multiset Frame) = (d.ledger 0).active := by
  have hzero : (0 : Hands).active = 0 := rfl
  simp only [Aoedev.ledger, hzero, add_zero]
  rfl

theorem coe_allFrames : (d.allFrames : Multiset Frame) = (d.ledger 0).all := by
  have hfree : ((d.targets.flatMap Aoetgt.ffree : List Frame) : Multiset Frame) =
      ((d.ledger 0).slots.map Slot.free).sum := by
    simp only [Aoedev.ledger, List.map_map]
    induction d.targets with
    | nil => rfl
    | cons t ts ih =>
      rw [List.flatMap_cons, ← Multiset.coe_add, ih]
      rfl
  rw [Aoedev.allFrames, ← Multiset.coe_add, ← Multiset.coe_add, coe_heldFrames, coe_listedFrames, hfree, Ledger.all,
    Ledger.inPlay, Ledger.pending, add_assoc, ← add_assoc _ (d.ledger 0).out]

end Places

/-- Every frame that was allocated for a target is in exactly one place, and the free ones are blank. -/
theorem frames_conserved {d : Aoedev} (h : Reached d) : (d.allFrames.map Frame.id).Nodup ∧
    (∀ f ∈ d.allFrames, f.t < d.targets.length) ∧
    ∀ i, i < d.targets.length → d.allFrames.countP (·.t = i) = (d.tgtAt i).falloc ∧
      (d.tgtAt i).falloc ≤ 2 * NSKBPOOLMAX ∧
      ∀ f ∈ (d.tgtAt i).ffree, f.t = i ∧ f.buf = none ∧ f.probe = false ∧ f.iter = default := by
  have hi := (reachedBy_good h).1.inv
  have hall := coe_allFrames d
  have hkeys : (d.ledger 0).keys = ((d.allFrames.map Frame.key : List (ℕ × ℕ)) : Multiset (ℕ × ℕ)) := by
    rw [Ledger.keys, ← hall, Multiset.map_coe]
  refine ⟨?_, ?_, fun i hlt => ⟨?_, ?_, ?_⟩⟩
  · have hn := hi.nodup
    rw [hkeys, Multiset.map_coe, Multiset.coe_nodup, List.map_map] at hn
    exact hn
  · intro f hf
    have hr := hi.range f.key (by rw [hkeys]; exact List.mem_map_of_mem hf)
    rw [slots_ledger] at hr
    exact hr.2
  · have hc := hi.count i (by rwa [slots_ledger])
    rw [hkeys, Multiset.coe_countP, List.countP_map, slot_ledger] at hc
    exact hc
  · have hcap := hi.cap i
    rw [slot_ledger] at hcap
    exact hcap
  · intro f hf
    have hfree := hi.free i f (by rw [slot_ledger]; exact hf)
    exact ⟨hfree.1, hfree.2.1, hfree.2.2.2.2, hfree.2.2.1⟩

def sampleFrames : Scene unguarded sampleStart sampleEvents
    (fun d => d.allFrames.length == 3 && d.targets.length == 1 && (d.tgtAt 0).nout == 2 && d.maxbcnt == 1024) :=
  ⟨by decide +kernel⟩

private theorem sampleFrames_spec : sample.allFrames.length = 3 ∧ sample.targets.length = 1 ∧ (sample.tgtAt 0).nout = 2 ∧
    sample.maxbcnt = 1024 := by
  have h := sampleFrames.sample.2
  simp only [Bool.and_eq_true, beq_iff_eq] at h
  obtain ⟨⟨⟨h₁, h₂⟩, h₃⟩, h₄⟩ := h
  exact ⟨h₁, h₂, h₃, h₄⟩

theorem frames_conserved_sample : sample.allFrames.length = 3 ∧
    sample.allFrames.countP (·.t = 0) = (sample.tgtAt 0).falloc ∧ (sample.allFrames.map Frame.id).Nodup := by
  have h := frames_conserved sample_reached
  obtain ⟨hlen, htargets, -, -⟩ := sampleFrames_spec
  exact ⟨hlen, (h.2.2 0 (by rw [htargets]; exact Nat.one_pos)).1, h.1⟩

/-- `nout` counts the frames of its target in `factive`, and is never decremented below 0. -/
theorem nout_accurate {d : Aoedev} (h : Reached d) :
    (∀ i, i < d.targets.length → (d.tgtAt i).nout = d.activeFrames.countP (·.t = i)) ∧
      Counter.nout ∉ d.hist.underflow := by
  have hg := (reachedBy_good h).1
  refine ⟨fun i _ => ?_, fun hc => ?_⟩
  · have hn := hg.inv.nout i
    rw [slot_ledger, ← coe_activeFrames, Multiset.coe_countP] at hn
    exact hn
  · exact absurd (hg.books.underflow _ hc) (by decide)

theorem nout_accurate_sample : (sample.tgtAt 0).nout = 2 ∧ sample.activeFrames.countP (·.t = 0) = 2 := by
  obtain ⟨-, htargets, hnout, -⟩ := sampleFrames_spec
  have h := (nout_accurate sample_reached).1 0 (by rw [htargets]; exact Nat.one_pos)
  exact ⟨hnout, h ▸ hnout⟩

/-- The payload limit suits every interface of every target. -/
theorem payload_limit {d : Aoedev} (h : Reached d) :
    (d.maxbcnt = 0 ∨ 0 < d.maxbcnt ∧ 512 ∣ d.maxbcnt ∧ d.maxbcnt ≤ 127 * 512) ∧
      ∀ t ∈ d.targets, ∀ x ∈ t.ifs, x.nd.isSome →
        0 < x.bcnt ∧ 512 ∣ x.bcnt ∧ (d.maxbcnt ≠ 0 → d.maxbcnt ≤ t.minbcnt ∧ t.minbcnt ≤ x.bcnt) := by
  have hg := (reachedBy_good h).1
  have hwhole {n : ℕ} (hn : WholeSectors n) : 512 ∣ n ∧ n ≤ 127 * 512 := by
    obtain ⟨k, hk, rfl⟩ := hn
    exact ⟨Dvd.intro_left k rfl, Nat.mul_le_mul_right 512 hk⟩
  refine ⟨?_, fun t ht x hx hs => ?_⟩
  · rcases Nat.eq_zero_or_pos d.maxbcnt with hz | hpos
    · exact .inl hz
    · exact .inr ⟨hpos, hwhole hg.bcnt.1⟩
  · obtain ⟨⟨hpos, hx'⟩, hle⟩ := (live_of_good hg ht).bcnt x hx hs
    refine ⟨hpos, (hwhole hx').1, fun hn => ⟨?_, hle⟩⟩
    exact hg.bcnt.2 hn t.slot (List.mem_map_of_mem ht)

theorem payload_limit_sample : sample.maxbcnt = 1024 ∧ sample.targets.length = 1 ∧
    ∀ t ∈ sample.targets, ∀ x ∈ t.ifs, x.nd.isSome → 1024 ≤ x.bcnt := by
  obtain ⟨-, htargets, -, hmax⟩ := sampleFrames_spec
  refine ⟨hmax, htargets, fun t ht x hx hs => ?_⟩
  have h := ((payload_limit sample_reached).2 t ht x hx hs).2.2 (by rw [hmax]; decide)
  exact hmax ▸ h.1.trans h.2

/-- The outstanding probes of target `i`. -/
def Aoedev.probesOut (d : Aoedev) (i : ℕ) : ℕ := d.activeFrames.countP fun f => f.t = i ∧ f.probe = true

/-- No probe is outstanding where the device goes down. -/
def downUnprobed (d : Aoedev) : Event → Bool
  | .rexmitTimer env =>
    d.flags.tkill || !(timerExpire { d with env := env }).2 ||
      (timerExpire { d with env := env }).1.activeFrames.all (!·.probe)
  | .flushDev mode env => !flushTakes { d with env := env } mode || d.activeFrames.all (!·.probe)
  | _ => true

/-- Besides, every call of `probe` in this event finds a frame. -/
def probeSafe (d : Aoedev) (e : Event) : Bool := (exec d e).all (!·.hist.probeMissed) && downUnprobed d e

private theorem meets_probeSafe {d : Aoedev} {e : Event} (h : probeSafe d e = true) : Cond.unprobed.Meets d e := by
  have hnone {d : Aoedev} (hall : d.activeFrames.all (!·.probe) = true) : ∀ f ∈ (d.ledger 0).active, f.probe = false := by
    intro f hf
    rw [← coe_activeFrames, Multiset.mem_coe] at hf
    simpa using List.all_eq_true.mp hall f hf
  rw [probeSafe, Bool.and_eq_true] at h
  have hdown := h.2
  cases e with
  | rexmitTimer env =>
    refine ⟨trivial, fun hkill hlate => ?_⟩
    rw [downUnprobed, hkill, hlate, Bool.not_true, Bool.false_or, Bool.false_or] at hdown
    exact hnone hdown
  | flushDev mode env =>
    refine ⟨trivial, fun ht => ?_⟩
    rw [downUnprobed, ht, Bool.not_true, Bool.false_or] at hdown
    exact hnone hdown
  | _ => trivial

private theorem probeSafe_found {d d' : Aoedev} {e : Event} (h : probeSafe d e = true) (hs : Step d e d') :
    d'.hist.probeMissed = false := by
  rw [probeSafe, Bool.and_eq_true, hs.1] at h
  simpa using h.1

theorem nout_probes_accurate {d : Aoedev} (h : ReachedBy (fun d e _ => probeSafe d e) d) (i : ℕ)
    (hfew : d.probesOut i < 2^7) : (d.tgtAt i).noutProbes = d.probesOut i := by
  have hprobed : Probed (d.ledger 0) := by
    refine reachedBy_ledger (C := .unprobed) (fun _ _ _ hok => meets_probeSafe hok) ?_ ?_ h
    · intro s hs _ i
      obtain ⟨hslots, -, hactive, -⟩ := initial_ledger hs
      rw [Ledger.slot, hslots, Ledger.probes, hactive]
      rfl
    · exact fun l l' hshift hinv hp => hshift.probed hinv hp
  have hfound : d.hist.probeMissed = false := by
    cases h with
    | init hd =>
      obtain ⟨a, b, n, s, m, clock, c, rfl⟩ := hd
      rfl
    | step _ hok hs => exact probeSafe_found hok hs
  have hcount := hprobed hfound i
  have hprobes : (d.ledger 0).probes i = d.probesOut i := by
    rw [Ledger.probes, ← coe_activeFrames, Multiset.coe_countP]
    rfl
  rw [slot_ledger, hprobes, Nat.mod_eq_of_lt (by omega)] at hcount
  exact hcount

/-- A second target is found and the identify command on the first one expires: it moves to the second target, and
the first one is probed. -/
def sampleProbe : List Event :=
  sampleRun 0 2 ++ [.clock (17 * 10^6) 17000, .cfgRsp { sampleCfg with src := 2 }] ++ sampleRun 0 2 ++ [.rexmitTimer default]

def sampleProbed : Scene probeSafe sampleStart sampleProbe (fun d => d.probesOut 0 == 1) := ⟨by decide +kernel⟩

theorem nout_probes_accurate_sample : ∃ d, runFrom probeSafe sampleStart sampleProbe = some d ∧ d.probesOut 0 = 1 ∧
    (d.tgtAt 0).noutProbes = 1 := by
  obtain ⟨d, hd, hr, hc⟩ := sampleProbed.last sampleStart_initial
  rw [beq_iff_eq] at hc
  have h := nout_probes_accurate hr 0 (by rw [hc]; decide)
  exact ⟨d, hd, hc, h.trans hc⟩

def sampleUnprobed : Scene unguarded sampleStart (sampleProbe ++ [.flushDev .exiting default])
    (fun d => d.targets.length == 2 && d.activeFrames.isEmpty && (d.tgtAt 0).noutProbes == 1) :=
  ⟨by decide +kernel⟩

/-- The device goes down while the probe is outstanding: the target can never be probed again. -/
theorem nout_probes_left : ∃ d, Reached d ∧ d.targets.length = 2 ∧ d.activeFrames = [] ∧ (d.tgtAt 0).noutProbes = 1 := by
  obtain ⟨d, -, hr, hc⟩ := sampleUnprobed.last sampleStart_initial
  simp only [Bool.and_eq_true, beq_iff_eq, List.isEmpty_iff] at hc
  obtain ⟨⟨h₁, h₂⟩, h₃⟩ := hc
  exact ⟨d, hr.mono fun _ _ _ _ => trivial, h₁, h₂, h₃⟩

end AoeDriver
