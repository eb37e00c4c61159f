import AoeDriver.Run.Reach

/-!
# The round-trip estimator

`rttavg` is 2^8 times the smoothed round-trip time and `rttdev` 2^3 times its mean deviation, both in 32 bits. The
largest sample for which neither they nor the products in `rto` wrap, over any number of samples, is 2^23 - 1
microseconds.
-/

namespace AoeDriver

/-- The recurrences over unbounded numbers. -/
def smooth (r : ℕ × ℕ) (rtt : ℕ) : ℕ × ℕ :=
  (r.1 - r.1 / 256 + rtt, r.2 - r.2 / 8 + ((rtt : ℤ) - (r.1 / 256 : ℕ)).natAbs)

def smoothed (samples : List ℕ) : ℕ × ℕ := samples.foldl smooth (RTTAVG_INIT, RTTDEV_INIT)

/-- Calls of `calc_rttavg`, each with the target whose window may grow and the sample. -/
def calcRttavgs (d : Aoedev) (calls : List (Option ℕ × ℕ)) : Aoedev :=
  calls.foldl (fun d c => calcRttavg d c.1 c.2) d

/-- The fields of `d` are `r`, and the timeout is what it should be for them. -/
structure EstimatesExactly (d : Aoedev) (r : ℕ × ℕ) : Prop where
  rttavg : d.rttavg = r.1
  rttdev : d.rttdev = r.2
  rto : rto d = max 1 (2 * r.1 / 256 + 8 * r.2 / 8)
  slow : (r.1 / 256 : ℕ) ≤ AoeDriver.rto d

variable {d : Aoedev} {r : ℕ × ℕ} {m rtt : ℕ}

/-- The estimates as long as no sample exceeds `m`. -/
structure SmoothWithin (m : ℕ) (r : ℕ × ℕ) : Prop where
  avg : r.1 ≤ 256 * m + 255
  dev : r.2 ≤ 8 * m + 7

theorem SmoothWithin.smooth (h : SmoothWithin m r) (hm : rtt ≤ m) : SmoothWithin m (smooth r rtt) := by
  obtain ⟨havg, hdev⟩ := h
  have hrtt : r.1 / 256 ≤ m := by omega
  have hdiff : ((rtt : ℤ) - (r.1 / 256 : ℕ)).natAbs ≤ m := by omega
  refine ⟨?_, ?_⟩
  · simp only [AoeDriver.smooth]
    omega
  · simp only [AoeDriver.smooth]
    omega

private theorem rto_exact (havg : d.rttavg < 2^31) (hdev : d.rttdev < 2^29) :
    rto d = max 1 (2 * d.rttavg / 256 + 8 * d.rttdev / 8) := by
  have h2 : 2 * d.rttavg % 2^32 = 2 * d.rttavg := Nat.mod_eq_of_lt (by omega)
  have h8 : 8 * d.rttdev % 2^32 = 8 * d.rttdev := Nat.mod_eq_of_lt (by omega)
  simp only [rto, RTTSCALE, RTTDSCALE, h2, h8, Nat.shiftRight_eq_div_pow]
  split <;> omega

theorem EstimatesExactly.of_fields (havg : d.rttavg = r.1) (hdev : d.rttdev = r.2) (h : SmoothWithin (2^23 - 1) r) :
    EstimatesExactly d r := by
  obtain ⟨havg', hdev'⟩ := h
  have hrto := rto_exact (d := d) (by omega) (by omega)
  rw [havg, hdev] at hrto
  refine ⟨havg, hdev, hrto, ?_⟩
  rw [hrto]
  omega

private theorem calcRttavg_exact (t : Option ℕ) (havg : d.rttavg - d.rttavg / 256 + rtt < 2^32)
    (hdev : (smooth (d.rttavg, d.rttdev) rtt).2 < 2^32) :
    ((calcRttavg d t rtt).rttavg, (calcRttavg d t rtt).rttdev) = smooth (d.rttavg, d.rttdev) rtt := by
  have hfields : (calcRttavg d t rtt).rttavg = (((d.rttavg : ℤ) + (rtt - (d.rttavg >>> RTTSCALE : ℕ))) % 2^32).toNat ∧
      (calcRttavg d t rtt).rttdev = (((d.rttdev : ℤ) + (((rtt : ℤ) - (d.rttavg >>> RTTSCALE : ℕ)).natAbs -
        (d.rttdev >>> RTTDSCALE : ℕ))) % 2^32).toNat := by
    unfold calcRttavg
    cases t <;> exact ⟨rfl, rfl⟩
  obtain ⟨ha, hd⟩ := hfields
  simp only [RTTSCALE, RTTDSCALE, Nat.shiftRight_eq_div_pow] at ha hd
  simp only [smooth] at hdev ⊢
  rw [ha, hd, Prod.mk.injEq]
  constructor <;> omega

theorem SmoothWithin.calcRttavg (h : SmoothWithin (2^23 - 1) (d.rttavg, d.rttdev)) (t : Option ℕ) (hm : rtt < 2^23) :
    ((calcRttavg d t rtt).rttavg, (calcRttavg d t rtt).rttdev) = AoeDriver.smooth (d.rttavg, d.rttdev) rtt := by
  have hnext := h.smooth (Nat.le_sub_one_of_lt hm)
  have hout := hnext.avg
  simp only [AoeDriver.smooth] at hout
  have hdev := hnext.dev
  exact calcRttavg_exact t (by omega) (by omega)

private theorem calcRttavgs_exact (calls : List (Option ℕ × ℕ)) (h : SmoothWithin (2^23 - 1) (d.rttavg, d.rttdev))
    (hm : ∀ c ∈ calls, c.2 < 2^23) :
    EstimatesExactly (calcRttavgs d calls) ((calls.map Prod.snd).foldl smooth (d.rttavg, d.rttdev)) := by
  induction calls generalizing d with
  | nil => exact .of_fields rfl rfl h
  | cons c calls ih =>
    have hstep := h.calcRttavg c.1 (hm c (List.mem_cons_self ..))
    have hnext := h.smooth (Nat.le_sub_one_of_lt (hm c (List.mem_cons_self ..)))
    have hrest := ih (hstep ▸ hnext) fun x hx => hm x (List.mem_cons_of_mem c hx)
    rw [hstep] at hrest
    exact hrest

private theorem smooth_grows (havg : r.1 < 256 * m) : r.1 < (smooth r m).1 := by
  simp only [smooth]
  omega

private theorem smoothed_replicate_grows (hr : r.1 < 256 * m) :
    ∃ n, 256 * m ≤ ((List.replicate n m).foldl smooth r).1 := by
  -- the distance to the limit shrinks with each sample
  generalize hk : 256 * m - r.1 = k
  induction k using Nat.strong_induction_on generalizing r with
  | _ k ih =>
    have hgrow := smooth_grows hr
    by_cases hdone : 256 * m ≤ (smooth r m).1
    · exact ⟨1, hdone⟩
    · obtain ⟨n, hn⟩ := ih (256 * m - (smooth r m).1) (by omega) (not_le.mp hdone) rfl
      exact ⟨n + 1, hn⟩

private theorem rto_wraps (h : EstimatesExactly d r) : r.1 < 2^31 := by
  by_contra hge
  have hrto := h.rto
  simp only [rto, RTTSCALE, RTTDSCALE, Nat.shiftRight_eq_div_pow, h.rttavg, h.rttdev] at hrto
  split at hrto <;> omega

private theorem init_within : SmoothWithin (2^23 - 1) (RTTAVG_INIT, RTTDEV_INIT) := ⟨by decide, by decide⟩

private theorem map_snd_replicate (n m : ℕ) :
    (List.replicate n ((none : Option ℕ), m)).map Prod.snd = List.replicate n m := List.map_replicate

/-- The estimator computes with exact numbers, whatever the samples up to `m` microseconds, just when `m` is below
2^23, which is a little more than 8 seconds. -/
theorem estimator_exact_iff (havg : d.rttavg = RTTAVG_INIT) (hdev : d.rttdev = RTTDEV_INIT) (m : ℕ) :
    (∀ calls : List (Option ℕ × ℕ), (∀ c ∈ calls, c.2 ≤ m) →
      EstimatesExactly (calcRttavgs d calls) (smoothed (calls.map Prod.snd))) ↔ m < 2^23 := by
  constructor
  · intro h
    by_contra hge
    have hinit : (RTTAVG_INIT, RTTDEV_INIT).1 < 256 * 2^23 := by decide
    obtain ⟨n, hn⟩ := smoothed_replicate_grows hinit
    have hexact := h (List.replicate n (none, 2^23)) fun c hc => by
      rw [List.eq_of_mem_replicate hc]
      exact not_lt.mp hge
    rw [map_snd_replicate] at hexact
    have hlt := rto_wraps hexact
    exact absurd hn (not_le.mpr hlt)
  · intro hm calls hcalls
    have hexact := calcRttavgs_exact (d := d) calls (havg ▸ hdev ▸ init_within)
      fun c hc => (hcalls c hc).trans_lt hm
    rwa [havg, hdev] at hexact

theorem estimator_exact_iff_sample : sampleStart.rttavg = RTTAVG_INIT ∧ sampleStart.rttdev = RTTDEV_INIT ∧
    ((∀ calls : List (Option ℕ × ℕ), (∀ c ∈ calls, c.2 ≤ 8000000) →
      EstimatesExactly (calcRttavgs sampleStart calls) (smoothed (calls.map Prod.snd))) ↔ 8000000 < 2^23) :=
  ⟨rfl, rfl, estimator_exact_iff rfl rfl 8000000⟩

/-- A target that takes 180 seconds for each of 13 responses. -/
def slowCalls : List (Option ℕ × ℕ) := List.replicate 13 (none, 180000000)

theorem estimator_wraps : (∀ c ∈ slowCalls, c.2 ≤ 180000000) ∧
    ¬EstimatesExactly (calcRttavgs sampleStart slowCalls) (smoothed (slowCalls.map Prod.snd)) := by
  refine ⟨by decide, fun h => ?_⟩
  have hlt := rto_wraps h
  exact absurd hlt (by decide)

end AoeDriver
