import AoeDriver.Library.Ring
import AoeDriver.Rota.Events

/-!
# The choice of a target

`newframe` goes round the targets from the one behind `d->tgt` and stops when it meets `d->tgt` again. One round is
enough if any target is untainted, a second one admits the tainted targets too.
-/

namespace AoeDriver

/-- Calls of `newtframe` that fail, one after the other, for the targets of a list. -/
inductive Fails : Aoedev → List ℕ → Aoedev → Prop where
  | nil {d : Aoedev} : Fails d [] d
  | snoc {d e e' : Aoedev} {is : List ℕ} {i : ℕ} : Fails d is e → newtframe e i = (e', none) → Fails d (is ++ [i]) e'

namespace Aoedev

/-- The tests of the loop body. -/
def Passes (d : Aoedev) (useTainted : Bool) (i : ℕ) : Prop :=
  (d.tgtAt i).nout < (d.tgtAt i).maxout ∧ (useTainted = true ∨ (d.tgtAt i).taint = 0) ∧ (d.tgtAt i).nd.isSome

/-- A target with an open window and an interface, and untainted unless all targets are tainted. -/
structure Admits (d : Aoedev) (i : ℕ) : Prop where
  populated : i < d.targets.length
  window : (d.tgtAt i).nout < (d.tgtAt i).maxout
  interface : (d.tgtAt i).nd.isSome
  untainted : (∃ t ∈ d.targets, t.taint = 0) → (d.tgtAt i).taint = 0

/-- No untainted target has a frame outstanding. -/
def Idle (d : Aoedev) : Prop := ∀ t ∈ d.targets, t.taint = 0 → t.nout = 0

end Aoedev

/-- The loop of `newframe` without an answer where `fuel` targets are not enough. -/
def newframeRun : ℕ → Aoedev → ℕ → Bool → Bool → ℕ → Option (Aoedev × Option Frame)
  | 0, _, _, _, _, _ => none
  | fuel + 1, d, tt, useTainted, hasUntainted, totout =>
    let tt := d.nextSlot tt
    let t := d.tgtAt tt
    let hasUntainted := hasUntainted || t.taint == 0
    let totout := if t.taint = 0 then totout + t.nout else totout
    match newframeTry d tt useTainted with
    | (d, some f) => some ({ d.modTgt tt fun t => (ifrotate t).1 with tgt := tt }, some f)
    | (d, none) =>
      if tt = d.tgt then
        if !useTainted && !hasUntainted then newframeRun fuel d tt true hasUntainted totout
        else if totout = 0 then some ({ d with kicked := d.kicked + 1, flags.kickme := true }, none)
        else some (d, none)
      else newframeRun fuel d tt useTainted hasUntainted totout

private theorem newframeLoop_of_run (fuel : ℕ) {d : Aoedev} {tt : ℕ} {useTainted hasUntainted : Bool} {totout : ℕ}
    {r : Aoedev × Option Frame} (h : newframeRun fuel d tt useTainted hasUntainted totout = some r) :
    newframeLoop fuel d tt useTainted hasUntainted totout = r := by
  induction fuel generalizing d tt useTainted hasUntainted totout with
  | zero => exact absurd h (by simp [newframeRun])
  | succ fuel ih =>
    unfold newframeRun at h
    unfold newframeLoop
    dsimp only at h ⊢
    generalize (if (d.tgtAt (d.nextSlot tt)).taint = 0 then totout + (d.tgtAt (d.nextSlot tt)).nout else totout) =
      totout at h ⊢
    generalize newframeTry d (d.nextSlot tt) useTainted = p at h ⊢
    obtain ⟨d', o⟩ := p
    cases o with
    | some f => exact Option.some.inj h
    | none =>
      dsimp only at h ⊢
      split
      · rename_i htt
        rw [if_pos htt] at h
        split
        · rename_i hu
          rw [if_pos hu] at h
          exact ih h
        · rename_i hu
          rw [if_neg hu] at h
          split
          · rename_i hz
            rw [if_pos hz] at h
            exact Option.some.inj h
          · rename_i hz
            rw [if_neg hz] at h
            exact Option.some.inj h
      · rename_i htt
        rw [if_neg htt] at h
        exact ih h

section Fails

variable {d e : Aoedev} {is : List ℕ}

theorem Fails.stock (h : Fails d is e) : StockOnly d e := by
  induction h with
  | nil => exact .refl _
  | @snoc e e' is i _ hnew ih =>
    have hstock := newtframe_stock e i
    rw [hnew] at hstock
    exact ih.trans hstock

theorem StockOnly.length (h : StockOnly d e) : e.targets.length = d.targets.length := by
  obtain ⟨p, q, n, i, o, c, k, targets, rfl, ht⟩ := h
  simpa using congrArg List.length ht

theorem StockOnly.tgtAt (h : StockOnly d e) (i : ℕ) : (e.tgtAt i).bare = (d.tgtAt i).bare := by
  obtain ⟨p, q, n, j, o, c, k, targets, rfl, ht⟩ := h
  have hget := congrArg (fun l => l.getD i (default : Aoetgt).bare) ht
  simpa only [List.getD_map, Aoedev.tgtAt] using hget

theorem StockOnly.field {β : Type} (h : StockOnly d e) (φ : Aoetgt → β) (hφ : ∀ t, φ t.bare = φ t) (i : ℕ) :
    φ (e.tgtAt i) = φ (d.tgtAt i) := by
  rw [← hφ, h.tgtAt, hφ]

theorem Fails.inv {h : Hands} (hf : Fails d is e) (hi : (d.ledger h).Inv) (his : ∀ i ∈ is, i < d.targets.length) :
    (e.ledger h).Inv := by
  induction hf with
  | nil => exact hi
  | @snoc e e' is i hf hnew ih =>
    have he := ih fun j hj => his j (by simp [hj])
    have hlt : i < e.targets.length := hf.stock.length ▸ his i (by simp)
    have hfetch := (newtframe_fetches he hlt).2
    rw [hnew] at hfetch
    exact Quiet.inv hfetch he

end Fails

section Lap

variable {s d : Aoedev} {k : ℕ} {u hasU : Bool} {tot : ℕ} {is : List ℕ}

/-- The slot reached from `d->tgt` in `k` steps. -/
def Aoedev.stepFrom (s : Aoedev) (k : ℕ) : ℕ := (s.tgt + k) % s.targets.length

private theorem nextSlot_stepFrom (hs : s.tgt < s.targets.length) (h : d.targets.length = s.targets.length) (k : ℕ) :
    d.nextSlot (s.stepFrom k) = s.stepFrom (k + 1) := by
  have hlt : (s.tgt + k) % s.targets.length < s.targets.length := Nat.mod_lt _ (Nat.zero_lt_of_lt hs)
  have hmod : s.stepFrom (k + 1) = ((s.tgt + k) % s.targets.length + 1) % s.targets.length := by
    rw [Nat.mod_add_mod]
    rfl
  rw [hmod, Aoedev.nextSlot, h, Aoedev.stepFrom]
  split
  · rename_i hnext
    rw [Nat.mod_eq_of_lt hnext]
  · rename_i hnext
    have heq : (s.tgt + k) % s.targets.length + 1 = s.targets.length := by omega
    rw [heq, Nat.mod_self]

private theorem stepFrom_eq_tgt (hs : s.tgt < s.targets.length) (hk : k < s.targets.length) :
    s.stepFrom (k + 1) = s.tgt ↔ k + 1 = s.targets.length := by
  constructor
  · intro h
    by_contra hne
    have hlt : k + 1 < s.targets.length := by omega
    have hzero : (s.tgt + (k + 1)) % s.targets.length = (s.tgt + 0) % s.targets.length :=
      h.trans (Nat.mod_eq_of_lt hs).symm
    exact Nat.succ_ne_zero k (Ring.offset_inj hlt (Nat.zero_lt_of_lt hlt) hzero)
  · intro h
    rw [h, Aoedev.stepFrom, Nat.add_mod_right, Nat.mod_eq_of_lt hs]

private theorem exists_stepFrom (hs : s.tgt < s.targets.length) {i : ℕ} (hi : i < s.targets.length) :
    ∃ j, 1 ≤ j ∧ j ≤ s.targets.length ∧ s.stepFrom j = i := by
  obtain ⟨j, hj, rfl⟩ := Ring.exists_offset hs hi
  rcases Nat.eq_zero_or_pos j with rfl | hpos
  · refine ⟨s.targets.length, Nat.zero_lt_of_lt hs, le_rfl, ?_⟩
    rw [Aoedev.stepFrom, Nat.add_mod_right, Nat.add_zero]
  · exact ⟨j, hpos, hj.le, rfl⟩

/-- The loop after `k` steps of a round that began in `s`, with the failed calls `is` behind it. -/
structure Lap (s : Aoedev) (k : ℕ) (u hasU : Bool) (tot : ℕ) (is : List ℕ) (d : Aoedev) : Prop where
  fails : Fails s is d
  range : ∀ i ∈ is, i < s.targets.length
  untainted : hasU = true ↔ ∃ j, 1 ≤ j ∧ j ≤ k ∧ (s.tgtAt (s.stepFrom j)).taint = 0
  out : tot = 0 ↔ ∀ j, 1 ≤ j → j ≤ k → (s.tgtAt (s.stepFrom j)).taint = 0 → (s.tgtAt (s.stepFrom j)).nout = 0
  tried : ∀ j, 1 ≤ j → j ≤ k → s.Passes u (s.stepFrom j) → s.stepFrom j ∈ is
  second : u = true → ∀ t ∈ s.targets, t.taint ≠ 0

private theorem newframeTry_some {e : Aoedev} {f : Frame} {i : ℕ} (h : newframeTry d i u = (e, some f)) :
    d.Passes u i ∧ newtframe d i = (e, some f) := by
  unfold newframeTry at h
  dsimp only at h
  split at h
  · rename_i hc
    simp only [Bool.and_eq_true, Bool.or_eq_true, decide_eq_true_eq, beq_iff_eq] at hc
    exact ⟨⟨hc.1.1, hc.1.2, hc.2⟩, h⟩
  · exact absurd h (by simp)

private theorem newframeTry_none {e : Aoedev} {i : ℕ} (h : newframeTry d i u = (e, none)) :
    d.Passes u i ∧ newtframe d i = (e, none) ∨ ¬ d.Passes u i ∧ e = d := by
  unfold newframeTry at h
  dsimp only at h
  split at h
  · rename_i hc
    simp only [Bool.and_eq_true, Bool.or_eq_true, decide_eq_true_eq, beq_iff_eq] at hc
    exact .inl ⟨⟨hc.1.1, hc.1.2, hc.2⟩, h⟩
  · rename_i hc
    simp only [Bool.and_eq_true, Bool.or_eq_true, decide_eq_true_eq, beq_iff_eq] at hc
    refine .inr ⟨fun hp => hc ⟨⟨hp.1, hp.2.1⟩, hp.2.2⟩, ?_⟩
    exact (Prod.ext_iff.mp h).1.symm

theorem StockOnly.passes (h : StockOnly s d) (i : ℕ) : d.Passes u i ↔ s.Passes u i := by
  unfold Aoedev.Passes
  rw [h.field Aoetgt.nout (fun _ => rfl), h.field Aoetgt.maxout (fun _ => rfl), h.field Aoetgt.taint (fun _ => rfl),
    h.field Aoetgt.nd (fun _ => rfl)]

/-- One more target is looked at, in vain. -/
theorem Lap.next (l : Lap s k u hasU tot is d) (hs : s.tgt < s.targets.length) {e : Aoedev}
    (h : newframeTry d (s.stepFrom (k + 1)) u = (e, none)) :
    ∃ is', Lap s (k + 1) u (hasU || (s.tgtAt (s.stepFrom (k + 1))).taint == 0)
      (if (s.tgtAt (s.stepFrom (k + 1))).taint = 0 then tot + (s.tgtAt (s.stepFrom (k + 1))).nout else tot) is' e := by
  have hlt : s.stepFrom (k + 1) < s.targets.length := Nat.mod_lt _ (Nat.zero_lt_of_lt hs)
  -- the fields that do not depend on the calls
  have huntainted : (hasU || (s.tgtAt (s.stepFrom (k + 1))).taint == 0) = true ↔
      ∃ j, 1 ≤ j ∧ j ≤ k + 1 ∧ (s.tgtAt (s.stepFrom j)).taint = 0 := by
    rw [Bool.or_eq_true, beq_iff_eq, l.untainted]
    constructor
    · rintro (⟨j, hj, hjk, ht⟩ | ht)
      · exact ⟨j, hj, Nat.le_succ_of_le hjk, ht⟩
      · exact ⟨k + 1, Nat.succ_pos k, le_rfl, ht⟩
    · rintro ⟨j, hj, hjk, ht⟩
      rcases Nat.lt_or_eq_of_le hjk with hjk | rfl
      · exact .inl ⟨j, hj, Nat.le_of_lt_succ hjk, ht⟩
      · exact .inr ht
  have hout : (if (s.tgtAt (s.stepFrom (k + 1))).taint = 0 then tot + (s.tgtAt (s.stepFrom (k + 1))).nout else tot) = 0 ↔
      ∀ j, 1 ≤ j → j ≤ k + 1 → (s.tgtAt (s.stepFrom j)).taint = 0 → (s.tgtAt (s.stepFrom j)).nout = 0 := by
    have hzero : (if (s.tgtAt (s.stepFrom (k + 1))).taint = 0 then tot + (s.tgtAt (s.stepFrom (k + 1))).nout else tot) = 0 ↔
        tot = 0 ∧ ((s.tgtAt (s.stepFrom (k + 1))).taint = 0 → (s.tgtAt (s.stepFrom (k + 1))).nout = 0) := by
      split
      · rename_i ht
        simp [ht]
      · rename_i ht
        simp [ht]
    rw [hzero, l.out]
    constructor
    · rintro ⟨hold, hnew⟩ j hj hjk
      rcases Nat.lt_or_eq_of_le hjk with hjk | rfl
      · exact hold j hj (Nat.le_of_lt_succ hjk)
      · exact hnew
    · intro hall
      exact ⟨fun j hj hjk => hall j hj (Nat.le_succ_of_le hjk), hall (k + 1) (Nat.succ_pos k) le_rfl⟩
  rcases newframeTry_none h with ⟨hpass, hnew⟩ | ⟨hpass, rfl⟩
  · refine ⟨is ++ [s.stepFrom (k + 1)], .snoc l.fails hnew, ?_, huntainted, hout, ?_, l.second⟩
    · intro i hi
      rcases List.mem_append.mp hi with hi | hi
      · exact l.range i hi
      · exact List.mem_singleton.mp hi ▸ hlt
    · intro j hj hjk hp
      rcases Nat.lt_or_eq_of_le hjk with hjk | rfl
      · exact List.mem_append_left _ (l.tried j hj (Nat.le_of_lt_succ hjk) hp)
      · exact List.mem_append_right _ (List.mem_singleton.mpr rfl)
  · refine ⟨is, l.fails, l.range, huntainted, hout, ?_, l.second⟩
    intro j hj hjk hp
    rcases Nat.lt_or_eq_of_le hjk with hjk | rfl
    · exact l.tried j hj (Nat.le_of_lt_succ hjk) hp
    · exact absurd ((l.fails.stock.passes _).mpr hp) hpass

/-- The answer of `newframe`, with the calls of `newtframe` that failed before it. -/
def Selects (s : Aoedev) (r : Aoedev × Option Frame) : Prop :=
  ∃ is e, Fails s is e ∧ (∀ i ∈ is, i < s.targets.length) ∧
    match r.2 with
    | some f => ∃ i e', newtframe e i = (e', some f) ∧ s.Admits i ∧
        r.1 = { e'.modTgt i fun t => (ifrotate t).1 with tgt := i }
    | none => (∀ i, s.Admits i → i ∈ is) ∧ (s.Idle → r.1 = { e with kicked := e.kicked + 1, flags.kickme := true }) ∧
        (¬ s.Idle → r.1 = e)

private theorem mem_targets_iff {P : Aoetgt → Prop} (s : Aoedev) :
    (∃ t ∈ s.targets, P t) ↔ ∃ i < s.targets.length, P (s.tgtAt i) := by
  have hget (i : ℕ) (hi : i < s.targets.length) : s.tgtAt i = s.targets.get ⟨i, hi⟩ := by
    simp [Aoedev.tgtAt, hi]
  constructor
  · rintro ⟨t, ht, hp⟩
    obtain ⟨⟨i, hi⟩, rfl⟩ := List.mem_iff_get.mp ht
    exact ⟨i, hi, hget i hi ▸ hp⟩
  · rintro ⟨i, hi, hp⟩
    rw [hget i hi] at hp
    exact ⟨_, List.get_mem _ _, hp⟩

theorem Lap.admits (l : Lap s k u hasU tot is d) {i : ℕ} (hi : i < s.targets.length) (hp : s.Passes u i) :
    s.Admits i := by
  refine ⟨hi, hp.1, hp.2.2, ?_⟩
  rintro ⟨t, ht, htaint⟩
  rcases hp.2.1 with hu | htaint'
  · exact absurd htaint (l.second hu t ht)
  · exact htaint'

theorem Lap.untainted_iff (l : Lap s s.targets.length u hasU tot is d) (hs : s.tgt < s.targets.length) :
    hasU = true ↔ ∃ t ∈ s.targets, t.taint = 0 := by
  rw [l.untainted, mem_targets_iff]
  constructor
  · rintro ⟨j, -, -, ht⟩
    exact ⟨_, Nat.mod_lt _ (Nat.zero_lt_of_lt hs), ht⟩
  · rintro ⟨i, hi, ht⟩
    obtain ⟨j, hj, hjn, rfl⟩ := exists_stepFrom hs hi
    exact ⟨j, hj, hjn, ht⟩

theorem Lap.out_iff (l : Lap s s.targets.length u hasU tot is d) (hs : s.tgt < s.targets.length) :
    tot = 0 ↔ s.Idle := by
  have hneg : s.Idle ↔ ¬ ∃ t ∈ s.targets, t.taint = 0 ∧ t.nout ≠ 0 := by
    simp only [Aoedev.Idle, not_exists, not_and, not_not]
  rw [l.out, hneg, mem_targets_iff]
  constructor
  · rintro hall ⟨i, hi, ht, hn⟩
    obtain ⟨j, hj, hjn, rfl⟩ := exists_stepFrom hs hi
    exact hn (hall j hj hjn ht)
  · intro hnone j _ _ ht
    by_contra hn
    exact hnone ⟨_, Nat.mod_lt _ (Nat.zero_lt_of_lt hs), ht, hn⟩

theorem Lap.tried_all (l : Lap s s.targets.length u hasU tot is d) (hs : s.tgt < s.targets.length)
    (hu : u = true ∨ hasU = true) {i : ℕ} (ha : s.Admits i) : i ∈ is := by
  obtain ⟨j, hj, hjn, rfl⟩ := exists_stepFrom hs ha.populated
  refine l.tried j hj hjn ⟨ha.window, ?_, ha.interface⟩
  rcases hu with hu | hu
  · exact .inl hu
  · exact .inr (ha.untainted ((l.untainted_iff hs).mp hu))

theorem Lap.selects_none (l : Lap s s.targets.length u hasU tot is d) (hs : s.tgt < s.targets.length)
    (hu : u = true ∨ hasU = true) : Selects s
      (if tot = 0 then ({ d with kicked := d.kicked + 1, flags.kickme := true }, none) else (d, none)) := by
  have htried : ∀ i, s.Admits i → i ∈ is := fun i hi => l.tried_all hs hu hi
  by_cases hzero : tot = 0
  · rw [if_pos hzero]
    have hidle := (l.out_iff hs).mp hzero
    exact ⟨is, d, l.fails, l.range, htried, fun _ => rfl, fun h => absurd hidle h⟩
  · rw [if_neg hzero]
    have hbusy : ¬ s.Idle := fun h => hzero ((l.out_iff hs).mpr h)
    exact ⟨is, d, l.fails, l.range, htried, fun h => absurd h hbusy, fun _ => rfl⟩

theorem Lap.again (l : Lap s s.targets.length false hasU tot is d) (hs : s.tgt < s.targets.length)
    (hu : hasU = false) : Lap s 0 true hasU tot is d := by
  have htaint : ∀ t ∈ s.targets, t.taint ≠ 0 := by
    intro t ht hzero
    have := (l.untainted_iff hs).mpr ⟨t, ht, hzero⟩
    exact absurd this (by simp [hu])
  have hidle : s.Idle := fun t ht hzero => absurd hzero (htaint t ht)
  refine ⟨l.fails, l.range, ?_, ?_, ?_, fun _ => htaint⟩
  · rw [hu]
    exact ⟨fun h => absurd h (by simp), fun ⟨j, hj, hj', _⟩ => by omega⟩
  · exact ⟨fun _ j hj hj' => by omega, fun _ => (l.out_iff hs).mpr hidle⟩
  · intro j hj hj'
    omega

/-- The loop from within a round: what is left of this round and, as long as tainted targets are not admitted, one
more round. -/
private theorem newframeRun_selects (fuel : ℕ) (hs : s.tgt < s.targets.length) (l : Lap s k u hasU tot is d)
    (hk : k < s.targets.length) (hfuel : s.targets.length - k + (if u then 0 else s.targets.length) ≤ fuel) :
    ∃ r, newframeRun fuel d (s.stepFrom k) u hasU tot = some r ∧ Selects s r := by
  induction fuel generalizing d k u hasU tot is with
  | zero => omega
  | succ fuel ih =>
    have hstock := l.fails.stock
    have hlt : s.stepFrom (k + 1) < s.targets.length := Nat.mod_lt _ (Nat.zero_lt_of_lt hs)
    unfold newframeRun
    rw [nextSlot_stepFrom hs hstock.length]
    dsimp only
    rw [hstock.field Aoetgt.taint (fun _ => rfl), hstock.field Aoetgt.nout (fun _ => rfl)]
    cases htry : newframeTry d (s.stepFrom (k + 1)) u with
    | mk e o =>
      cases o with
      | some f =>
        obtain ⟨hpass, hnew⟩ := newframeTry_some htry
        have hadmit := l.admits hlt ((hstock.passes _).mp hpass)
        exact ⟨_, rfl, is, d, l.fails, l.range, s.stepFrom (k + 1), e, hnew, hadmit, rfl⟩
      | none =>
        obtain ⟨is', l'⟩ := l.next hs htry
        have htgt : e.tgt = s.tgt := by
          obtain ⟨p, m, n, i, o, c, q, targets, rfl, -⟩ := l'.fails.stock
          rfl
        generalize (hasU || (s.tgtAt (s.stepFrom (k + 1))).taint == 0) = hasU' at l' ⊢
        generalize (if (s.tgtAt (s.stepFrom (k + 1))).taint = 0 then tot + (s.tgtAt (s.stepFrom (k + 1))).nout else tot) =
          tot' at l' ⊢
        have hmeet : s.stepFrom (k + 1) = e.tgt ↔ k + 1 = s.targets.length := htgt ▸ stepFrom_eq_tgt hs hk
        dsimp only
        by_cases hend : k + 1 = s.targets.length
        · -- the round is over
          rw [hend] at l'
          rw [if_pos (hmeet.mpr hend)]
          by_cases hagain : u = false ∧ hasU' = false
          · obtain ⟨rfl, rfl⟩ := hagain
            have hzero : s.stepFrom (k + 1) = s.stepFrom 0 := by
              rw [(stepFrom_eq_tgt hs hk).mpr hend, Aoedev.stepFrom, Nat.add_zero, Nat.mod_eq_of_lt hs]
            have hcond : (!false && !false) = true := rfl
            rw [if_pos hcond, hzero]
            refine ih (l'.again hs rfl) (Nat.zero_lt_of_lt hs) ?_
            simp only [Bool.false_eq_true, if_false, if_true] at hfuel ⊢
            omega
          · have hlast : u = true ∨ hasU' = true := by
              rwa [not_and_or, Bool.not_eq_false, Bool.not_eq_false] at hagain
            have hcond : ¬ (!u && !hasU') = true := by
              rw [← Bool.not_or, Bool.not_eq_true', Bool.not_eq_false, Bool.or_eq_true]
              exact hlast
            rw [if_neg hcond]
            have hsel := l'.selects_none hs hlast
            by_cases htot : tot' = 0
            · rw [if_pos htot] at hsel ⊢
              exact ⟨_, rfl, hsel⟩
            · rw [if_neg htot] at hsel ⊢
              exact ⟨_, rfl, hsel⟩
        · rw [if_neg fun h => hend (hmeet.mp h)]
          exact ih l' (by omega) (by omega)

theorem newframe_run (hs : s.tgt < s.targets.length) :
    newframeRun (2 * s.targets.length) s s.tgt false false 0 = some (newframe s) ∧ Selects s (newframe s) := by
  have hfirst : Lap s 0 false false 0 [] s := by
    refine ⟨.nil, by simp, ?_, ?_, ?_, by simp⟩
    · exact ⟨fun h => absurd h (by simp), fun ⟨j, hj, hj', _⟩ => by omega⟩
    · exact ⟨fun _ j hj hj' => by omega, fun _ => rfl⟩
    · intro j hj hj'
      omega
  have hpos := Nat.zero_lt_of_lt hs
  have hstart : s.stepFrom 0 = s.tgt := by rw [Aoedev.stepFrom, Nat.add_zero, Nat.mod_eq_of_lt hs]
  have hfuel : s.targets.length - 0 + (if false = true then 0 else s.targets.length) ≤ 2 * s.targets.length := by
    simp only [Bool.false_eq_true, if_false]
    omega
  obtain ⟨r, hrun, hsel⟩ := newframeRun_selects (2 * s.targets.length) hs hfirst hpos hfuel
  rw [hstart] at hrun
  have hne : s.targets ≠ [] := List.length_pos_iff.mp hpos
  have hnew : newframe s = r := by
    rw [newframe, if_neg hne]
    exact newframeLoop_of_run _ hrun
  rw [hnew]
  exact ⟨hrun, hsel⟩

end Lap

/-- A state inside a critical section, with the frames in hand, that began in a reached state. -/
def Midsection (d : Aoedev) (h : Hands) : Prop :=
  ∃ s env, Reached s ∧ Runs Cond.any 0 { s with env := env } h d ∧ Rota.Moves (Aoedev.rota { s with env := env }) d.rota

theorem Midsection.of_reached {d : Aoedev} (hd : Reached d) : Midsection d 0 :=
  ⟨d, d.env, hd, Runs.refl 0 d, .refl _⟩

theorem Midsection.valid {d : Aoedev} {h : Hands} (hm : Midsection d h) : (d.ledger h).Inv ∧ d.rota.Valid := by
  obtain ⟨s, env, hs, hruns, hmoves⟩ := hm
  have hstart : Runs Cond.any 0 s 0 { s with env := env } := outcomes_runs trivial
  have hgood := hruns.good (hstart.good (reachedBy_good hs).1)
  have hs' : s.rota.Valid := reachedBy_valid hs
  have hvalid : Rota.Valid (Aoedev.rota { s with env := env }) := hs'
  exact ⟨hgood.inv, hmoves.keeps (fun r r' hr m => hr.move m) hvalid⟩

theorem Selects.kicks {d : Aoedev} {r : Aoedev × Option Frame} (h : Selects d r) :
    (r.2 = none ∧ d.Idle → r.1.kicked = d.kicked + 1 ∧ r.1.flags = { d.flags with kickme := true }) ∧
      (¬ (r.2 = none ∧ d.Idle) → r.1.kicked = d.kicked ∧ r.1.flags = d.flags) := by
  obtain ⟨is, e, hf, -, hr⟩ := h
  obtain ⟨d', o⟩ := r
  have hsame {x : Aoedev} (hx : StockOnly d x) : x.kicked = d.kicked ∧ x.flags = d.flags := by
    obtain ⟨p, m, n, i, q, c, k, targets, rfl, -⟩ := hx
    exact ⟨rfl, rfl⟩
  obtain ⟨hkicked, hflags⟩ := hsame hf.stock
  cases o with
  | some f =>
    obtain ⟨i, e', hnew, -, rfl⟩ := hr
    have hstock := newtframe_stock e i
    rw [hnew] at hstock
    obtain ⟨hkicked', hflags'⟩ := hsame (hf.stock.trans hstock)
    exact ⟨fun hc => absurd hc.1 (by simp), fun _ => ⟨hkicked', hflags'⟩⟩
  | none =>
    obtain ⟨-, hidle, hbusy⟩ := hr
    refine ⟨fun hc => ?_, fun hc => ?_⟩
    · rw [hidle hc.2]
      exact ⟨congrArg (· + 1) hkicked, congrArg (fun x : Flags => { x with kickme := true }) hflags⟩
    · rw [hbusy fun hi => hc ⟨rfl, hi⟩]
      exact ⟨hkicked, hflags⟩

/-- The choice of a target. In every state inside a section the frames balance and `d->tgt` is a populated slot, or
slot 0 of an empty table. From there `newframe` stops by itself within two rounds, a frame comes from a target that may
be used, NULL means that `newtframe` has failed for all of these, and the device asks to be kicked just when there are
targets, no frame was found and no untainted target has a frame outstanding. -/
theorem newframe_selection : (∀ d h, Midsection d h → (d.ledger h).Inv ∧ d.rota.Valid) ∧
    ∀ d h, (d.ledger h).Inv → d.rota.Valid →
      (d.targets ≠ [] → newframeRun (2 * d.targets.length) d d.tgt false false 0 = some (newframe d)) ∧
      (∀ f, (newframe d).2 = some f → (newframe d).1.tgt = f.t ∧ d.Admits f.t) ∧
      ((newframe d).2 = none → ∃ is e, Fails d is e ∧ ∀ i, d.Admits i → i ∈ is) ∧
      ((newframe d).2 = none ∧ d.targets ≠ [] ∧ d.Idle →
        (newframe d).1.kicked = d.kicked + 1 ∧ (newframe d).1.flags = { d.flags with kickme := true }) ∧
      (¬ ((newframe d).2 = none ∧ d.targets ≠ [] ∧ d.Idle) →
        (newframe d).1.kicked = d.kicked ∧ (newframe d).1.flags = d.flags) := by
  refine ⟨fun d h hm => hm.valid, fun d h hi hv => ?_⟩
  by_cases hd : d.targets = []
  · have hnew : newframe d = (d, none) := by rw [newframe, if_pos hd]
    rw [hnew]
    refine ⟨fun hne => absurd hd hne, fun f hf => absurd hf (by simp), fun _ => ⟨[], d, .nil, fun i ha => ?_⟩,
      fun hc => absurd hd hc.2.1, fun _ => ⟨rfl, rfl⟩⟩
    have hlt := ha.populated
    rw [hd] at hlt
    exact absurd hlt (Nat.not_lt_zero i)
  · have htgt : d.tgt < d.targets.length := by
      rcases hv with hlt | ⟨hzero, -⟩
      · exact hlt
      · exact absurd (List.length_eq_zero_iff.mp hzero) hd
    obtain ⟨hrun, hsel⟩ := newframe_run htgt
    obtain ⟨hkick, hstill⟩ := hsel.kicks
    refine ⟨fun _ => hrun, ?_, ?_, fun hc => hkick ⟨hc.1, hc.2.2⟩, fun hc => hstill fun hc' => hc ⟨hc'.1, hd, hc'.2⟩⟩
    · intro f hf
      obtain ⟨is, e, hfails, hrange, hr⟩ := hsel
      rw [hf] at hr
      obtain ⟨i, e', hnew, hadmit, heq⟩ := hr
      have hfetch := (newtframe_fetches (hfails.inv hi hrange) (hfails.stock.length ▸ hadmit.populated)).2
      rw [hnew] at hfetch
      obtain ⟨-, hft, -⟩ := hfetch
      rw [heq, hft]
      exact ⟨rfl, hadmit⟩
    · intro hnone
      obtain ⟨is, e, hfails, -, hr⟩ := hsel
      rw [hnone] at hr
      exact ⟨is, e, hfails, hr.1⟩

def sampleChosen : Scene unguarded sampleStart sampleEvents (fun d => (newframe d).2.isSome) := ⟨by decide +kernel⟩

/-- The sample has an admitted target. -/
theorem newframe_selection_sample : ∃ f, (newframe sample).2 = some f ∧ (newframe sample).1.tgt = f.t ∧ sample.Admits f.t := by
  obtain ⟨hreached, hsome⟩ := sampleChosen.sample
  obtain ⟨f, hf⟩ := Option.isSome_iff_exists.mp hsome
  obtain ⟨hi, hv⟩ := newframe_selection.1 sample 0 (.of_reached hreached)
  exact ⟨f, hf, (newframe_selection.2 sample 0 hi hv).2.1 f hf⟩

end AoeDriver
