import AoeDriver.Rota.Events

/-!
# The scan for expired frames

`rexmit_timer` stops in each bucket of `factive` at the first frame that is not expired. It misses none, because a
bucket is in the order of transmission: frames join it at the end, in the section that stamps them.
-/

namespace AoeDriver

private theorem takeWhile_eq_filter_of_pairwise {α : Type} {p : α → Bool} {l : List α}
    (h : l.Pairwise fun a b => p b = true → p a = true) : l.takeWhile p = l.filter p := by
  induction l with
  | nil => rfl
  | cons a l ih =>
    obtain ⟨hhead, htail⟩ := List.pairwise_cons.mp h
    by_cases ha : p a = true
    · rw [List.takeWhile_cons_of_pos ha, List.filter_cons_of_pos ha, ih htail]
    · rw [List.takeWhile_cons_of_neg ha, List.filter_cons_of_neg ha]
      symm
      apply List.filter_eq_nil_iff.mpr
      intro b hb hpb
      exact ha (hhead b hb hpb)

/-- The frames of a bucket are in the order of their last transmission, none of it in the future, and no `skb_clone`
to come fails. -/
structure Rota.Ordered (r : Rota) : Prop where
  clones : ∀ b ∈ r.clones, b = true
  sorted : ∀ n, (r.factive n).Pairwise fun f g => f.sent.instant ≤ g.sent.instant
  past : ∀ n, ∀ f ∈ r.factive n, f.sent.instant ≤ r.wall

theorem nextOutcome_all {cs : List Bool} (h : ∀ b ∈ cs, b = true) :
    (nextOutcome cs).1 = true ∧ ∀ b ∈ (nextOutcome cs).2, b = true := by
  cases cs with
  | nil => exact ⟨rfl, h⟩
  | cons c cs => exact ⟨h c (by simp), fun b hb => h b (List.mem_cons_of_mem c hb)⟩

theorem Rota.Ordered.move {r r' : Rota} (h : r.Ordered) (m : Move r r') : r'.Ordered := by
  cases m with
  | pick hi => exact ⟨h.clones, h.sorted, h.past⟩
  | add => exact ⟨h.clones, h.sorted, h.past⟩
  | @hang n f hs =>
    obtain ⟨hnext, hrest⟩ := nextOutcome_all h.clones
    have hsent := hs hnext
    refine ⟨hrest, fun i => ?_, fun i g hg => ?_⟩
    · dsimp only
      by_cases hi : i = n
      · subst hi
        rw [Function.update_self]
        refine List.pairwise_append.mpr ⟨h.sorted i, List.pairwise_singleton _ _, fun g hg x hx => ?_⟩
        rw [List.mem_singleton.mp hx, hsent]
        exact h.past i g hg
      · rw [Function.update_of_ne hi]
        exact h.sorted i
    · dsimp only at hg
      by_cases hi : i = n
      · subst hi
        rw [Function.update_self] at hg
        rcases List.mem_append.mp hg with hg | hg
        · exact h.past i g hg
        · rw [List.mem_singleton.mp hg, hsent]
      · rw [Function.update_of_ne hi] at hg
        exact h.past i g hg
  | drop hF => exact ⟨h.clones, fun n => (h.sorted n).sublist (hF n), fun n f hf => h.past n f ((hF n).subset hf)⟩

/-- Every `skb_clone` in an event succeeds. -/
def Event.cloned (e : Event) : Bool := e.clones.all id

private theorem reachedBy_ordered {d : Aoedev} (h : ReachedBy (fun _ e _ => e.cloned) d) : d.rota.Ordered := by
  refine reachedBy_rota (P := Rota.Ordered) ?_ (fun r r' hr m => hr.move m) ?_ h
  · rintro s ⟨a, b, n, q, m, clock, c, rfl⟩
    exact ⟨fun b hb => absurd hb List.not_mem_nil, fun _ => List.Pairwise.nil, fun _ f hf => absurd hf List.not_mem_nil⟩
  · intro s e s' w c hok ho hw hc
    refine ⟨?_, ho.sorted, fun n f hf => (ho.past n f hf).trans (by exact_mod_cast hw)⟩
    rcases hc with rfl | rfl
    · exact ho.clones
    · intro b hb
      exact List.all_eq_true.mp hok b hb

/-- The scan of `rexmit_timer` for a given measure of the time since the last transmission. -/
def scanFor (since : Frame → ℤ) (d : Aoedev) (timeout : ℤ) : List Frame :=
  (List.finRange NFACTIVE).flatMap fun n => (d.factive n).takeWhile fun f => !(since f < timeout)

private theorem scanFor_eq_filter {d : Aoedev} {since : Frame → ℤ}
    (hsorted : ∀ n, (d.factive n).Pairwise fun f g => f.sent.instant ≤ g.sent.instant)
    (hsince : ∀ f ∈ d.activeFrames, ∀ g ∈ d.activeFrames, f.sent.instant ≤ g.sent.instant → since g ≤ since f)
    (timeout : ℤ) : scanFor since d timeout = d.activeFrames.filter fun f => timeout ≤ since f := by
  have hmem (n : Fin NFACTIVE) (f : Frame) (hf : f ∈ d.factive n) : f ∈ d.activeFrames :=
    List.mem_flatMap.mpr ⟨n, List.mem_finRange n, hf⟩
  have hbucket (n : Fin NFACTIVE) : ((d.factive n).takeWhile fun f => !(since f < timeout)) =
      (d.factive n).filter fun f => timeout ≤ since f := by
    have hlate : (d.factive n).Pairwise fun f g =>
        (!decide (since g < timeout)) = true → (!decide (since f < timeout)) = true := by
      refine (hsorted n).imp_of_mem fun {f g} hf hg hle => ?_
      simp only [Bool.not_eq_true', decide_eq_false_iff_not, not_lt]
      intro hg'
      exact hg'.trans (hsince f (hmem n f hf) g (hmem n g hg) hle)
    rw [takeWhile_eq_filter_of_pairwise hlate]
    refine List.filter_congr fun f _ => ?_
    rw [← decide_not]
    simp only [not_lt]
  unfold scanFor Aoedev.activeFrames
  rw [List.filter_flatMap]
  congr 1
  exact funext hbucket

/-- The expiry scan misses nothing: in runs without a failed `skb_clone` every bucket is in the order of transmission,
so that with a measure of elapsed time that is monotone in the instant of transmission the scan with its early breaks
finds all expired frames. The code's scan is that for `tsince_hr`. -/
theorem expiry_scan_complete {d : Aoedev} (h : ReachedBy (fun _ e _ => e.cloned) d) :
    (∀ n, (d.factive n).Pairwise fun f g => f.sent.instant ≤ g.sent.instant) ∧
      (∀ timeout, (collectExpired d timeout).2 = scanFor (tsinceHr d.clock) d timeout) ∧
      ∀ since : Frame → ℤ,
        (∀ f ∈ d.activeFrames, ∀ g ∈ d.activeFrames, f.sent.instant ≤ g.sent.instant → since g ≤ since f) →
        ∀ timeout, scanFor since d timeout = d.activeFrames.filter fun f => timeout ≤ since f := by
  have ho := reachedBy_ordered h
  refine ⟨ho.sorted, fun timeout => rfl, fun since hsince timeout => ?_⟩
  exact scanFor_eq_filter ho.sorted hsince timeout

def sampleStamped : Scene (fun _ e => e.cloned) sampleStart sampleEvents
    (fun d => d.activeFrames.length == 2) := ⟨by decide +kernel⟩

/-- Two frames of the sample are out, and a measure is the time since the wall clock stood at their stamps. -/
theorem expiry_scan_complete_sample : ∃ d, ReachedBy (fun _ e _ => e.cloned) d ∧ d.activeFrames.length = 2 ∧
    ∀ timeout, scanFor (fun f => d.clock.wall - f.sent.instant) d timeout =
      d.activeFrames.filter fun f => timeout ≤ d.clock.wall - f.sent.instant := by
  obtain ⟨d, -, hd, ht⟩ := sampleStamped.last sampleStart_initial
  refine ⟨d, hd, by simpa using ht, (expiry_scan_complete hd).2.2 _ ?_⟩
  intro f _ g _ hle
  exact Int.sub_le_sub_left hle _

end AoeDriver
