import AoeDriver.Traffic.Events
import AoeDriver.Traffic.Rules

/-!
# The window of a target

`maxout` is the number of frames a target may have outstanding. It is halved, collapsed and grown in different places,
always within the number of buffers the target has advertised.
-/

namespace AoeDriver

open Tables

section Window

variable {G : Gate} {t t' : Aoetgt}

private theorem ifrotate_window (t : Aoetgt) : (ifrotate t).1.nframes = t.nframes ∧ (ifrotate t).1.maxout = t.maxout ∧
    (ifrotate t).1.nout = t.nout := by
  obtain ⟨i, hi, -⟩ := ifrotate_eq t
  rw [hi]
  exact ⟨rfl, rfl, rfl⟩

private theorem setifbcntTgt_window {nd : NetDev} {bcnt : ℕ} (h : setifbcntTgt t nd bcnt = some t') :
    t'.nframes = t.nframes ∧ t'.maxout = t.maxout := by
  unfold setifbcntTgt at h
  split at h
  · rw [Option.some.injEq] at h
    subst h
    exact ⟨rfl, rfl⟩
  · split at h
    · exact absurd h (by simp)
    · rw [Option.some.injEq] at h
      subst h
      exact ⟨rfl, rfl⟩

private theorem growWindow_cases (t : Aoetgt) : (growWindow t).nframes = t.nframes ∧ ((growWindow t).maxout = t.maxout ∨
    t.maxout < t.nframes ∧ (growWindow t).maxout = incUshort t.maxout) := by
  unfold growWindow
  split
  · exact ⟨rfl, .inl rfl⟩
  · rename_i hlt
    split
    · exact ⟨rfl, .inr ⟨not_le.mp hlt, rfl⟩⟩
    · split
      · dsimp only
        split
        · exact ⟨rfl, .inr ⟨not_le.mp hlt, rfl⟩⟩
        · exact ⟨rfl, .inl rfl⟩
      · exact ⟨rfl, .inl rfl⟩

/-- What a relation between buffer count and window has to be kept by. -/
structure WindowRule (G : Gate) (R : ℕ → ℕ → Prop) : Prop where
  grow : ∀ n m, R n m → m < n → R n (incUshort m)
  collapse : ∀ n m, R n m → R n 1
  advertise : ∀ n k m, G.advertise k → k < 2^16 → R n m → R k (if k < m then 1 else m)
  add : ∀ n, G.add n → n < 2^16 → R n (n / 2)

variable {R : ℕ → ℕ → Prop}

/-- Every act keeps the windows of all targets within the relation. -/
theorem WindowRule.kept (w : WindowRule G R) : Kept G fun t => R t.nframes t.maxout := by
  constructor
  case turn =>
    intro t t' hstep ht
    cases hstep with
    | rotate =>
      obtain ⟨hn, hm, -⟩ := ifrotate_window t
      rw [hn, hm]
      exact ht
    | stats ha =>
      rw [ha.nframes, ha.maxout]
      exact ht
    | grow =>
      obtain ⟨hn, hm | ⟨hlt, hm⟩⟩ := growWindow_cases t
      · rw [hn, hm]
        exact ht
      · rw [hn, hm]
        exact w.grow _ _ ht hlt
    | collapse => exact w.collapse _ _ ht
    | advertise hn hlt =>
      have hadv := w.advertise _ _ _ hn hlt ht
      split
      · rename_i hc
        rw [if_pos hc] at hadv
        exact hadv
      · rename_i hc
        rw [if_neg hc] at hadv
        exact hadv
  case count => exact fun t _ _ _ _ ht => ht
  case eject => exact fun t i _ _ ht => ht
  case setif =>
    intro t t' nd bcnt _ hset ht
    obtain ⟨hnf, hm⟩ := setifbcntTgt_window hset
    rw [hnf, hm]
    exact ht
  case add =>
    intro t addr n nd bcnt hn hlt _ hset
    obtain ⟨hnf, hm⟩ := setifbcntTgt_window hset
    rw [hnf, hm]
    exact w.add n hn hlt
  case reset => exact fun t ht => w.collapse _ _ ht

end Window

private theorem incUshort_le (n : ℕ) : incUshort n ≤ n + 1 := Nat.mod_le _ _

section Bounded

/-- The windows of all targets are within their buffer counts, and so was every window when a packet used it. -/
structure Windowed (l : Traffic) : Prop where
  bound : ∀ t ∈ l.targets, t.maxout ≤ max 1 t.nframes
  sends : ∀ s ∈ l.sends, ¬ (s.frame.probe = true ∧ s.first = true) →
    s.tgt.nout ≤ s.tgt.maxout ∧ s.tgt.maxout ≤ max 1 s.tgt.nframes

private theorem windowRule_bound : WindowRule Gate.any fun n m => m ≤ max 1 n := by
  refine ⟨?_, ?_, ?_, ?_⟩
  · intro n m _ hlt
    exact (incUshort_le m).trans (le_max_of_le_right hlt)
  · exact fun n _ _ => le_max_left 1 n
  · intro n k m _ _ _
    split
    · exact le_max_left 1 k
    · rename_i hge
      exact le_max_of_le_right (not_lt.mp hge)
  · exact fun n _ _ => le_max_of_le_right (Nat.div_le_self n 2)

theorem Act.windowed {l l' : Traffic} (h : Act Gate.any l l') (hw : Windowed l) : Windowed l' := by
  refine ⟨windowRule_bound.kept.act h hw.bound, h.forall_sends hw.sends fun s hs => ?_⟩
  cases hs with
  | @fresh f cloned w r hlt hwin =>
    obtain ⟨hn, hm, ho⟩ := ifrotate_window (l.tgt f.t)
    intro _
    dsimp only [Aoetgt.issued]
    rw [hn, hm, ho]
    exact ⟨(incUshort_le _).trans hwin, hw.bound _ (mem_of_getD hlt)⟩
  | probe hlt hn hp => exact fun hfirst => absurd ⟨hp, rfl⟩ hfirst
  | @again f f' cloned hf hlt hwin =>
    obtain ⟨hn, hm, ho⟩ := ifrotate_window (l.tgt f.t)
    intro _
    dsimp only [Aoetgt.resumed]
    rw [hn, hm, ho]
    exact ⟨(incUshort_le _).trans hwin, hw.bound _ (mem_of_getD hlt)⟩

private theorem windowed_blank : Windowed Traffic.blank := by
  refine ⟨?_, ?_⟩
  · exact fun t ht => absurd ht List.not_mem_nil
  · exact fun s hs => absurd hs List.not_mem_nil

/-- The window of a target never exceeds the buffer count it last advertised, or 1. Right after every packet but that
of a fresh probe, no more frames of its target are outstanding than the window admits. -/
theorem window_within_buffers {d : Aoedev} (h : Reached d) :
    (∀ t ∈ d.targets, t.maxout ≤ max 1 t.nframes) ∧
    ∀ s ∈ d.hist.sends, ¬ (s.frame.probe = true ∧ s.first = true) →
      s.tgt.nout ≤ s.tgt.maxout ∧ s.tgt.nout ≤ max 1 s.tgt.nframes := by
  have hw : Windowed (d.traffic 0) :=
    reachedBy_traffic (fun s e _ _ => Gate.meets_any s e) windowed_blank (fun _ _ => Act.windowed) h
  refine ⟨?_, ?_⟩
  · intro t ht
    have hbare : t.bare ∈ (d.traffic 0).targets := List.mem_map_of_mem ht
    exact hw.bound t.bare hbare
  · intro s hs hfirst
    obtain ⟨hnout, hmax⟩ := hw.sends s hs hfirst
    exact ⟨hnout, hnout.trans hmax⟩

theorem window_within_buffers_sample :
    (∀ t ∈ sample.targets, t.maxout ≤ max 1 t.nframes) ∧
    ∀ s ∈ sample.hist.sends, ¬ (s.frame.probe = true ∧ s.first = true) →
      s.tgt.nout ≤ s.tgt.maxout ∧ s.tgt.nout ≤ max 1 s.tgt.nframes :=
  window_within_buffers sample_reached

end Bounded

section Open

/-- The buffer count `aoecmd_cfg_rsp` works with. -/
def Aoedev.buffers (d : Aoedev) (c : CfgRsp) : ℕ :=
  (if c.bufcnt > d.aoeMaxout then d.aoeMaxout else c.bufcnt) % 2^16

/-- The config response an event processes. -/
def Aoedev.cfgOf (d : Aoedev) : Event → Option CfgRsp
  | .run i _ =>
    match d.threads[i]? with
    | some (.cfg c) => some c
    | _ => none
  | _ => none

/-- Config responses advertise at least one buffer, and `aoe_maxout` admits one. -/
def advertises (d : Aoedev) (e : Event) : Bool :=
  (d.cfgOf e).all fun c => decide (1 ≤ c.bufcnt ∧ 1 ≤ d.aoeMaxout ∧ c.bufcnt < 2^16 ∧ d.aoeMaxout < 2^16)

/-- `aoecmd_cfg_rsp` adds a target: none has the address, and there is memory for one. -/
def Aoedev.addsTgt (d : Aoedev) (c : CfgRsp) : Bool := (gettgt d c.src).isNone && (addtgt d c.src (d.buffers c)).2.isSome

/-- A config response that adds a target leaves it at least two buffers. -/
def twoBuffers (d : Aoedev) : Event → Bool
  | .run i env =>
    match d.threads[i]? with
    | some (.cfg c) => !({ d with env := env } : Aoedev).addsTgt c || decide (2 ≤ d.buffers c)
    | _ => true
  | _ => true

/-- New targets have two buffers or more. -/
def twoGate : Gate := ⟨fun n => 2 ≤ n, fun _ => True, fun _ _ => True, fun _ => True⟩

private theorem twoGate_meets {d : Aoedev} {e : Event} (h : twoBuffers d e = true) : twoGate.Meets d e := by
  cases e with
  | run i env =>
    simp only [Gate.Meets]
    split
    · rename_i c hi
      simp only [twoBuffers, hi, Bool.or_eq_true, decide_eq_true_eq] at h
      refine ⟨?_, trivial⟩
      split
      · trivial
      · rename_i hnone
        intro hadd
        refine h.resolve_left ?_
        have hadds : ({ d with env := env } : Aoedev).addsTgt c = true := by
          rw [Aoedev.addsTgt, hnone, Option.isNone_none, Bool.true_and]
          exact Option.isSome_iff_ne_none.mpr hadd
        rw [hadds]
        exact Bool.false_ne_true
    · trivial
    · trivial
  | _ => trivial

private theorem windowRule_open : WindowRule twoGate fun n m => 1 ≤ m ∧ n < 2^16 := by
  refine ⟨?_, ?_, ?_, ?_⟩
  · intro n m ⟨_, hn⟩ hlt
    have hinc : incUshort m = m + 1 := Nat.mod_eq_of_lt (by omega)
    exact ⟨by omega, hn⟩
  · exact fun n _ h => ⟨le_rfl, h.2⟩
  · intro n k m _ hk h
    split
    · exact ⟨le_rfl, hk⟩
    · exact ⟨h.1, hk⟩
  · intro n hn hlt
    have htwo : 2 ≤ n := hn
    exact ⟨by omega, hlt⟩

/-- As long as every target starts with two buffers or more, no window closes, and an idle target may send. -/
theorem window_stays_open {d : Aoedev} (h : ReachedBy (fun d e _ => twoBuffers d e) d) :
    ∀ t ∈ d.targets, 1 ≤ t.maxout ∧ (t.nout = 0 → t.nout < t.maxout) := by
  have hw : ∀ t ∈ (d.traffic 0).targets, 1 ≤ t.maxout ∧ t.nframes < 2^16 := by
    refine reachedBy_traffic (P := fun l => ∀ t ∈ l.targets, 1 ≤ t.maxout ∧ t.nframes < 2^16)
      (fun s e _ hok => twoGate_meets hok) ?_ (fun _ _ => windowRule_open.kept.act) h
    exact fun t ht => absurd ht List.not_mem_nil
  intro t ht
  have hbare : t.bare ∈ (d.traffic 0).targets := List.mem_map_of_mem ht
  have hopen : 1 ≤ t.maxout := (hw t.bare hbare).1
  exact ⟨hopen, fun hidle => by omega⟩

/-- The sample device has one target with 64 buffers. -/
def sampleTwoBuffers : Scene twoBuffers sampleStart sampleEvents
    (fun d => d.targets.any fun t => decide (t.nframes = 64 ∧ t.maxout = 32)) := ⟨by decide +kernel⟩

theorem window_stays_open_sample : ∃ d, ReachedBy (fun d e _ => twoBuffers d e) d ∧ d.targets ≠ [] ∧
    ∀ t ∈ d.targets, 1 ≤ t.maxout ∧ (t.nout = 0 → t.nout < t.maxout) := by
  obtain ⟨d, -, hreach, htest⟩ := sampleTwoBuffers.last sampleStart_initial
  refine ⟨d, hreach, ?_, window_stays_open hreach⟩
  rintro hnil
  rw [hnil] at htest
  exact absurd htest (by simp)

/-- A target that advertises a single buffer. -/
def closedStart : Aoedev := initial 1 2 4 180 128 ⟨10^9, 500000, 1000⟩ { sampleCfg with bufcnt := 1 }

def closedScene : Scene advertises closedStart (sampleRun 0 2)
    (fun d => d.targets.any fun t => decide (t.nframes = 1 ∧ t.maxout = 0 ∧ t.nout = 0 ∧ t.nd.isSome)) :=
  ⟨by decide +kernel⟩

/-- Its window is closed from the start, with nothing outstanding and a live interface. -/
theorem window_closed : ∃ d, ReachedBy (fun d e _ => advertises d e) d ∧
    ∃ t ∈ d.targets, 1 ≤ t.nframes ∧ t.maxout = 0 ∧ t.nout = 0 ∧ t.nd.isSome := by
  obtain ⟨d, -, hreach, htest⟩ := closedScene.last ⟨_, _, _, _, _, _, _, rfl⟩
  obtain ⟨t, ht, hc⟩ := List.any_eq_true.mp htest
  obtain ⟨hn, hm, ho, hnd⟩ := of_decide_eq_true hc
  exact ⟨d, hreach, t, ht, hn.ge, hm, ho, hnd⟩

end Open

end AoeDriver
