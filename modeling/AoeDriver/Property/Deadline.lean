import AoeDriver.Property.Expiry
import AoeDriver.Property.Frames
import AoeDriver.Ledger.Tags

/-!
# The deadline of a device

`rexmit_timer` gives a device up when a frame has waited longer than `aoe_deadsecs`. The time is put together from
`waited_total` and the time since the last transmission; as long as every transmission is stamped, the sum is never more
than the time since the command was issued.
-/

namespace AoeDriver

open Ledger Machine

section Timely

variable {c : Clock} {f f' : Frame} {w j : ℕ}

/-- The last transmission of the frame was at wall time `w` and `j` jiffies, less than `2^31` microseconds ago, and what
it had waited before fits into the time since its command was issued. -/
structure Timely (c : Clock) (f : Frame) (w j : ℕ) : Prop where
  sent : f.sent = doGettimeofday { c with wall := w }
  sentJiffs : f.sentJiffs = j % 2^32
  past : w ≤ c.wall
  recent : c.wall < w + 2^31
  ticks : j ≤ c.jiffies
  consistent : (c.jiffies - j) * (USEC_PER_SEC / c.hz) ≤ c.wall - w
  waited : f.born + f.waitedTotal ≤ w

private theorem toInt_of_lt {n : ℤ} (hn : 0 ≤ n) (hlt : n < 2^31) : toInt n = n := by
  unfold toInt
  exact Int.bmod_eq_of_le (by norm_num; omega) (by norm_num; omega)

private theorem bmod_sub_mod (a b n : ℕ) : Int.bmod ((a % n : ℕ) - (b % n : ℕ)) n = Int.bmod (a - b) n := by
  rw [Int.natCast_emod, Int.natCast_emod, Int.emod_sub_bmod, Int.sub_emod_bmod]

private theorem toInt_gettimeofday (w v : ℕ) (hle : w ≤ v) (hlt : v < w + 2^31) :
    toInt (toInt (((v % USEC_PER_SEC : ℕ) : ℤ) - (w % USEC_PER_SEC : ℕ)) +
      (((v / USEC_PER_SEC : ℕ) : ℤ) - (w / USEC_PER_SEC : ℕ)) * USEC_PER_SEC) = ((v - w : ℕ) : ℤ) := by
  have hv := Nat.div_add_mod v USEC_PER_SEC
  have hw := Nat.div_add_mod w USEC_PER_SEC
  have hvlt : v % USEC_PER_SEC < USEC_PER_SEC := Nat.mod_lt _ (by decide)
  have hwlt : w % USEC_PER_SEC < USEC_PER_SEC := Nat.mod_lt _ (by decide)
  have hmod (a b : ℤ) : toInt (toInt a + b) = toInt (a + b) := by
    unfold toInt
    exact Int.bmod_add_bmod
  rw [hmod]
  have hsum : ((v % USEC_PER_SEC : ℕ) : ℤ) - (w % USEC_PER_SEC : ℕ) +
      (((v / USEC_PER_SEC : ℕ) : ℤ) - (w / USEC_PER_SEC : ℕ)) * USEC_PER_SEC = ((v - w : ℕ) : ℤ) := by
    have hv' : (USEC_PER_SEC : ℤ) * (v / USEC_PER_SEC : ℕ) + (v % USEC_PER_SEC : ℕ) = v := by exact_mod_cast hv
    have hw' : (USEC_PER_SEC : ℤ) * (w / USEC_PER_SEC : ℕ) + (w % USEC_PER_SEC : ℕ) = w := by exact_mod_cast hw
    rw [Nat.cast_sub hle]
    linear_combination hv' - hw'
  rw [hsum]
  exact toInt_of_lt (by positivity) (by omega)

/-- `tsince_hr` measures the time since the last transmission, and never too much of it. -/
theorem Timely.since (h : Timely c f w j) : 0 ≤ tsinceHr c f ∧ tsinceHr c f ≤ ((c.wall - w : ℕ) : ℤ) := by
  have hwall : toInt (toInt ((doGettimeofday c).usec - f.sent.usec) +
      ((doGettimeofday c).sec - f.sent.sec) * USEC_PER_SEC) = ((c.wall - w : ℕ) : ℤ) := by
    rw [h.sent]
    exact toInt_gettimeofday w c.wall h.past h.recent
  have habs : (if ((c.wall - w : ℕ) : ℤ) < 0 then toInt (-((c.wall - w : ℕ) : ℤ)) else ((c.wall - w : ℕ) : ℤ)) =
      ((c.wall - w : ℕ) : ℤ) := if_neg (by omega)
  have hjiffs : toInt (toInt ((c.jiffies % 2^32 : ℕ) - (f.sentJiffs : ℤ)) * (USEC_PER_SEC / c.hz : ℕ)) =
      (((c.jiffies - j) * (USEC_PER_SEC / c.hz) : ℕ) : ℤ) := by
    have hmod : toInt ((c.jiffies % 2^32 : ℕ) - (f.sentJiffs : ℤ)) = toInt ((c.jiffies - j : ℕ) : ℤ) := by
      have hcast : ((c.jiffies - j : ℕ) : ℤ) = (c.jiffies : ℤ) - j := Nat.cast_sub h.ticks
      rw [h.sentJiffs, hcast]
      unfold toInt
      rw [bmod_sub_mod]
    have hmul : toInt (toInt ((c.jiffies - j : ℕ) : ℤ) * (USEC_PER_SEC / c.hz : ℕ)) =
        toInt (((c.jiffies - j : ℕ) : ℤ) * (USEC_PER_SEC / c.hz : ℕ)) := Int.bmod_mul_bmod
    have hle := h.consistent
    have hrecent := h.recent
    rw [hmod, hmul, ← Nat.cast_mul]
    exact toInt_of_lt (Int.natCast_nonneg _) (by omega)
  have hcons := h.consistent
  unfold tsinceHr
  dsimp only
  rw [hwall, habs, hjiffs]
  split
  · exact ⟨Int.natCast_nonneg _, by exact_mod_cast hcons⟩
  · exact ⟨Int.natCast_nonneg _, le_rfl⟩

private theorem addUlong_le (n : ℕ) {i : ℤ} (hi : 0 ≤ i) : (addUlong n i : ℤ) ≤ n + i := by
  unfold addUlong
  have hnonneg : (0 : ℤ) ≤ n + i := by omega
  have hmod : (0 : ℤ) ≤ (n + i) % 2^64 := Int.emod_nonneg _ (by norm_num)
  rw [Int.toNat_of_nonneg hmod]
  omega

theorem Timely.total (h : Timely c f w j) : (f.waitedTotal : ℤ) + tsinceHr c f ≤ (c.wall : ℤ) - f.born := by
  have hsince := h.since.2
  have hwaited := h.waited
  have hpast := h.past
  omega

private theorem timely_now (hsent : f.sent = doGettimeofday c) (hj : f.sentJiffs = c.jiffies % 2^32)
    (hw : f.born + f.waitedTotal ≤ c.wall) : Timely c f c.wall c.jiffies := by
  refine ⟨hsent, hj, le_rfl, by omega, le_rfl, ?_, hw⟩
  rw [Nat.sub_self, Nat.zero_mul]
  exact Nat.zero_le _

theorem Timely.congr (h : Timely c f w j) (hsent : f'.sent = f.sent) (hj : f'.sentJiffs = f.sentJiffs)
    (hborn : f'.born = f.born) (hw : f'.waitedTotal = f.waitedTotal) : Timely c f' w j :=
  ⟨hsent.trans h.sent, hj.trans h.sentJiffs, h.past, h.recent, h.ticks, h.consistent, by rw [hborn, hw]; exact h.waited⟩

end Timely

section Punctual

variable {C : Cond} {l l' : Ledger} {f f' : Frame}

/-- All frames that may be sent again are timely, and no `skb_clone` to come fails. -/
structure Punctual (l : Ledger) : Prop where
  clones : ∀ b ∈ l.clones, b = true
  listed : ∀ f ∈ l.listed, ∃ w j, Timely l.clock f w j

theorem Stamped.of_clones (h : Stamped l f f') (hc : ∀ b ∈ l.clones, b = true) :
    f'.sent = doGettimeofday l.clock ∧ f'.sentJiffs = l.clock.jiffies % 2^32 := by
  unfold Stamped at h
  rw [if_pos (nextOutcome_all hc).1] at h
  exact h

theorem Issued.timely (h : Issued l f f') (hc : ∀ b ∈ l.clones, b = true) : ∃ w j, Timely l.clock f' w j := by
  obtain ⟨hsent, hj⟩ := h.stamped.of_clones hc
  refine ⟨_, _, timely_now hsent hj ?_⟩
  rw [h.born, h.waited, Nat.add_zero]

theorem Resent.timely (h : Resent l f f') (hc : ∀ b ∈ l.clones, b = true) (hf : ∃ w j, Timely l.clock f w j) :
    ∃ w j, Timely l.clock f' w j := by
  obtain ⟨w, j, ht⟩ := hf
  obtain ⟨hsent, hj⟩ := h.stamped.of_clones hc
  refine ⟨_, _, timely_now hsent hj ?_⟩
  have hadd := addUlong_le f.waitedTotal ht.since.1
  have htotal := ht.total
  rw [h.born, h.waited]
  omega

theorem Punctual.less (h : Punctual l) (hclock : l'.clock = l.clock) (hclones : l'.clones = l.clones)
    (hle : l'.listed ≤ l.listed) : Punctual l' := by
  refine ⟨hclones ▸ h.clones, fun f hf => ?_⟩
  rw [hclock]
  exact h.listed f (Multiset.mem_of_le hle hf)

theorem Punctual.more (h : Punctual l) (hclock : l'.clock = l.clock) (hclones : l'.clones = (nextOutcome l.clones).2)
    {s : Multiset Frame} (hs : s ≤ l.listed) (hlisted : l'.listed = f ::ₘ s) (hf : ∃ w j, Timely l.clock f w j) :
    Punctual l' := by
  refine ⟨?_, fun g hg => ?_⟩
  · rw [hclones]
    exact (nextOutcome_all h.clones).2
  · rw [hclock]
    rw [hlisted] at hg
    rcases Multiset.mem_cons.mp hg with rfl | hg
    · exact hf
    · exact h.listed g (Multiset.mem_of_le hs hg)

theorem Move.punctual (m : Move false l l') (h : Punctual l) : Punctual l' := by
  cases m with
  | send hf hi hb hp => exact h.more rfl rfl le_rfl (listed_act _ _) (hi.timely h.clones)
  | probe hf hi hb hp => exact h.more rfl rfl le_rfl (listed_act _ _) (hi.timely h.clones)
  | @expire l f w hw hm =>
    refine h.less rfl rfl ?_
    rw [listed_act, listed_defer]
    exact le_rfl
  | @resend l f f' hr =>
    have hle : l.listed ≤ (l.defer f).listed := by
      rw [listed_defer]
      exact Multiset.le_cons_self _ _
    have hmem : f ∈ (l.defer f).listed := by
      rw [listed_defer]
      exact Multiset.mem_cons_self _ _
    exact h.more rfl rfl hle (listed_act _ _) (hr.timely h.clones (h.listed f hmem))
  | @reassign l f nf nf' nf'' hp hf ho hr =>
    have hl : ((l.defer f).hold nf).listed = f ::ₘ l.listed := listed_defer l f
    have hle : l.listed ≤ ((l.defer f).hold nf).listed := by
      rw [hl]
      exact Multiset.le_cons_self _ _
    have hmem : f ∈ ((l.defer f).hold nf).listed := by
      rw [hl]
      exact Multiset.mem_cons_self _ _
    obtain ⟨w, j, ht⟩ := h.listed f hmem
    have htake : Timely l.clock nf' w j := ht.congr ho.sent ho.sentJiffs ho.born ho.waited
    exact h.more rfl rfl hle (listed_act _ _) (hr.timely h.clones ⟨w, j, htake⟩)
  | @drop l f hp =>
    refine h.less rfl rfl ?_
    rw [listed_defer]
    exact Multiset.le_cons_self _ _
  | _ => exact h.less rfl rfl le_rfl

/-- No time passes inside an event, and no `skb_clone` fails. -/
def Cond.instant : Cond := ⟨fun _ _ => False, fun cs => ∀ b ∈ cs, b = true, fun _ => True⟩

theorem Shift.punctual (m : Shift Cond.instant l l') (h : Punctual l) : Punctual l' := by
  cases m with
  | move hm => exact hm.punctual h
  | tick hc => exact absurd hc id
  | outcomes hc => exact ⟨hc, h.listed⟩
  | @answer l f =>
    refine h.less rfl rfl ?_
    rw [listed_act]
    exact Multiset.le_cons_self _ _
  | @answerDeferred l f =>
    refine h.less rfl rfl ?_
    rw [listed_defer]
    exact Multiset.le_cons_self _ _
  | down hc => exact h.less rfl rfl (Multiset.zero_le _)
  | _ => exact h.less rfl rfl le_rfl

end Punctual

/-- Jiffies do not run ahead of the wall clock, no frame waits `2^31` microseconds for its next transmission, and every
`skb_clone` succeeds. -/
def timed (d : Aoedev) : Event → Bool
  | .clock usecs jiffs => jiffs * (USEC_PER_SEC / d.clock.hz) ≤ usecs &&
      d.listedFrames.all fun f => ((d.clock.wall + usecs : ℕ) : ℤ) < f.sent.instant + 2^31
  | e => e.cloned

theorem Timely.later {c : Clock} {f : Frame} {w j usecs jiffs : ℕ} (h : Timely c f w j)
    (hj : jiffs * (USEC_PER_SEC / c.hz) ≤ usecs) (hlt : ((c.wall + usecs : ℕ) : ℤ) < f.sent.instant + 2^31) :
    Timely { c with wall := c.wall + usecs, jiffies := c.jiffies + jiffs } f w j := by
  have hpast := h.past
  have hticks := h.ticks
  have hsent : f.sent.instant = w := by
    rw [h.sent]
    exact instant_doGettimeofday { c with wall := w }
  refine ⟨h.sent, h.sentJiffs, by dsimp only; omega, ?_, by dsimp only; omega, ?_, h.waited⟩
  · rw [hsent] at hlt
    exact_mod_cast hlt
  · have hcons := h.consistent
    have hsplit : c.jiffies + jiffs - j = (c.jiffies - j) + jiffs := by omega
    dsimp only
    rw [hsplit, Nat.add_mul]
    omega

private theorem reachedBy_punctual {d : Aoedev} (h : ReachedBy (fun d e _ => timed d e) d) : Punctual (d.ledger 0) := by
  refine Reach.invariant (P := fun d => Punctual (d.ledger 0)) ?_ ?_ h
  · intro s hs
    have hlisted : (s.ledger 0).listed = 0 := by
      have hplay := (initial_ledger hs).2.2.2
      rw [Ledger.inPlay, Ledger.pending] at hplay
      exact (add_eq_zero.mp (add_eq_zero.mp hplay).1).1
    refine ⟨?_, fun f hf => ?_⟩
    · obtain ⟨a, b, n, q, m, clock, c, rfl⟩ := hs
      exact fun b hb => absurd hb List.not_mem_nil
    · rw [hlisted] at hf
      exact absurd hf (Multiset.notMem_zero f)
  · intro s e s' hreach hp hok hstep
    have hshifts {l l' : Ledger} (hs : Shifts Cond.instant l l') (hl : Punctual l) : Punctual l' := by
      induction hs with
      | refl => exact hl
      | tail _ hshift ih => exact hshift.punctual ih
    have hevent (hm : Cond.instant.Meets s e) : Punctual (s'.ledger 0) :=
      hshifts (exec_runs (reachedBy_good hreach).1 hm hstep.1).shifts hp
    have hcloned {env : Env} (hc : env.clone.all id = true) : ∀ b ∈ env.clone, b = true := List.all_eq_true.mp hc
    cases e with
    | clock usecs jiffs =>
      have heq : s' = { s with clock.wall := s.clock.wall + usecs, clock.jiffies := s.clock.jiffies + jiffs } :=
        (Option.some.inj hstep.1).symm
      rw [timed, Bool.and_eq_true, decide_eq_true_eq, List.all_eq_true] at hok
      obtain ⟨hj, hlt⟩ := hok
      rw [heq]
      refine ⟨hp.clones, fun f hf => ?_⟩
      obtain ⟨w, j, ht⟩ := hp.listed f hf
      have hmem : f ∈ s.listedFrames := by
        rw [← Multiset.mem_coe, coe_listedFrames]
        exact hf
      exact ⟨w, j, ht.later hj (of_decide_eq_true (hlt f hmem))⟩
    | blkRun env => exact hevent (hcloned hok)
    | run i env => exact hevent (hcloned hok)
    | rexmitTimer env => exact hevent ⟨hcloned hok, fun _ _ => trivial⟩
    | flushDev mode env => exact hevent ⟨hcloned hok, fun _ => trivial⟩
    | _ => exact hevent trivial

private theorem waitedTooLong_expireFrame (utgts : ℕ) (d : Aoedev) (f g : Frame) :
    waitedTooLong (expireFrame utgts d f) g = waitedTooLong d g := by
  have hsame : (expireFrame utgts d f).clock = d.clock ∧ (expireFrame utgts d f).aoeDeadsecs = d.aoeDeadsecs := by
    unfold expireFrame Aoedev.noteEject Aoedev.notePred
    dsimp only
    split
    · split
      · exact ⟨rfl, rfl⟩
      · exact ⟨rfl, rfl⟩
    · split
      · exact ⟨rfl, rfl⟩
      · exact ⟨rfl, rfl⟩
  unfold waitedTooLong
  rw [hsame.1, hsame.2]

private theorem expireLoop_dead {utgts : ℕ} (fs : List Frame) (d : Aoedev) (h : (expireLoop utgts fs d).2 = true) :
    ∃ f ∈ fs, waitedTooLong d f = true := by
  induction fs generalizing d with
  | nil => exact absurd h Bool.false_ne_true
  | cons f fs ih =>
    unfold expireLoop at h
    split at h
    · rename_i hdead
      exact ⟨f, List.mem_cons_self, hdead⟩
    · obtain ⟨g, hg, hdead⟩ := ih _ h
      rw [waitedTooLong_expireFrame] at hdead
      exact ⟨g, List.mem_cons_of_mem f hg, hdead⟩

/-- With stamped transmissions and consistent clocks the sum of `waited_total` and the time since the last transmission
is never more than the time since the command was issued; so a device is given up only when a command that is no probe
was issued more than `aoe_deadsecs` seconds ago and waits for its response. -/
theorem deadline_sound {d : Aoedev} (h : ReachedBy (fun d e _ => timed d e) d) :
    (∀ f ∈ d.listedFrames, 0 ≤ tsinceHr d.clock f ∧
      (f.waitedTotal : ℤ) + tsinceHr d.clock f ≤ (d.clock.wall : ℤ) - f.born) ∧
    ∀ env, (timerExpire { d with env := env }).2 = true → ∃ f ∈ d.activeFrames, f.probe = false ∧
      f.born + d.aoeDeadsecs * USEC_PER_SEC < d.clock.wall := by
  have hp := reachedBy_punctual h
  have hlisted {f : Frame} (hf : f ∈ d.listedFrames) : ∃ w j, Timely d.clock f w j := by
    refine hp.listed f ?_
    rw [← Multiset.mem_coe, coe_listedFrames] at hf
    exact hf
  refine ⟨fun f hf => ?_, fun env hdead => ?_⟩
  · obtain ⟨w, j, ht⟩ := hlisted hf
    exact ⟨ht.since.1, ht.total⟩
  · obtain ⟨f, hf, hlong⟩ := expireLoop_dead _ _ hdead
    have hactive : f ∈ d.activeFrames := by
      obtain ⟨n, hn, hmem⟩ := List.mem_flatMap.mp hf
      exact List.mem_flatMap.mpr ⟨n, hn, (List.takeWhile_sublist _).subset hmem⟩
    obtain ⟨w, j, ht⟩ := hlisted (List.mem_append_left _ hactive)
    simp only [waitedTooLong, Bool.and_eq_true, decide_eq_true_eq, Bool.not_eq_true'] at hlong
    obtain ⟨⟨-, hsecs⟩, hprobe⟩ := hlong
    refine ⟨f, hactive, hprobe, ?_⟩
    have hadd := addUlong_le f.waitedTotal ht.since.1
    have htotal := ht.total
    have hsum : (d.aoeDeadsecs + 1) * USEC_PER_SEC ≤ addUlong f.waitedTotal (tsinceHr d.clock f) :=
      (Nat.le_div_iff_mul_le (by decide)).mp hsecs
    have hpos : 0 < USEC_PER_SEC := by decide
    rw [Nat.add_mul] at hsum
    omega

/-- After 20 seconds two frames of the sample are still out. -/
def sampleTimed : Scene timed sampleStart (sampleEvents ++ [.clock 20000000 20000])
    (fun d => d.activeFrames.length == 2) := ⟨by decide +kernel⟩

theorem deadline_sound_sample : ∃ d, ReachedBy (fun d e _ => timed d e) d ∧ d.activeFrames.length = 2 ∧
    ∀ f ∈ d.listedFrames, (f.waitedTotal : ℤ) + tsinceHr d.clock f ≤ (d.clock.wall : ℤ) - f.born := by
  obtain ⟨d, -, hreach, htest⟩ := sampleTimed.last sampleStart_initial
  exact ⟨d, hreach, beq_iff_eq.mp htest, fun f hf => ((deadline_sound hreach).1 f hf).2⟩

/-- The clone of the first identify packet of a device cannot be made. -/
def unstampedScene : Scene unguarded sampleStart [.run 0 { (default : Env) with clone := [false] }]
    (fun d => d.activeFrames.length == 1 && !d.flags.tkill && (timerExpire d).2 &&
      d.listedFrames.all fun f => f.born = d.clock.wall) := ⟨by decide +kernel⟩

/-- A device is given up at the moment its only command is issued. -/
theorem deadline_unsound : ∃ d, Reached d ∧ d.flags.tkill = false ∧ (timerExpire d).2 = true ∧
    ∀ f ∈ d.listedFrames, f.born = d.clock.wall := by
  obtain ⟨d, -, hreach, htest⟩ := unstampedScene.last sampleStart_initial
  simp only [Bool.and_eq_true, Bool.not_eq_true', List.all_eq_true, decide_eq_true_eq] at htest
  obtain ⟨⟨⟨-, hkill⟩, hdead⟩, hborn⟩ := htest
  exact ⟨d, hreach.mono fun _ _ _ _ => trivial, hkill, hdead, hborn⟩

end AoeDriver
