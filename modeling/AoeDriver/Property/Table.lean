import AoeDriver.Library.Machine
import AoeDriver.Library.Ring
import AoeDriver.Library.Tables
import AoeDriver.Model.System
import AoeDriver.Model.Table

/-!
# The targets table

The entries come first and no two have the same address, whatever allocation fails, and `d->tgt` stays on the entry
it points to when the array is moved.
-/

namespace AoeDriver

open Machine

namespace Table

variable {s : Table} {ps : List ℕ}

/-- The array holds the pointers `ps` and then NULL. -/
structure Holds (s : Table) (ps : List ℕ) : Prop where
  base : 0 < s.targets
  room : 0 < s.ntargets
  fits : s.targets + s.ntargets ≤ s.brk
  length_le : ps.length ≤ s.ntargets
  slot : ∀ i < s.ntargets, s.word (s.targets + i) = ps.getD i 0
  live : ∀ p ∈ ps, 0 < p ∧ p < s.brk
  addrs : (ps.map fun p => (s.tgtRec p).addr).Nodup
  owner : ∀ p ∈ ps, (s.tgtRec p).d = s.d
  tgt : ∃ i, s.tgt = s.targets + i ∧ (i < ps.length ∨ ps = [] ∧ i = 0)

namespace Holds

private theorem getD_ne_zero (h : s.Holds ps) {i : ℕ} (hi : i < ps.length) : ps.getD i 0 ≠ 0 := by
  rw [List.getD_eq_getElem _ _ hi]
  exact (h.live _ (List.getElem_mem hi)).1.ne'

private theorem word_eq_zero (h : s.Holds ps) {i : ℕ} (hi : i < s.ntargets) :
    s.word (s.targets + i) = 0 ↔ ps.length ≤ i := by
  rw [h.slot i hi]
  constructor
  · intro hzero
    by_contra hlt
    exact h.getD_ne_zero (not_le.mp hlt) hzero
  · intro hle
    exact List.getD_eq_default _ _ hle

theorem entries (h : s.Holds ps) : s.entries = ps := by
  have hlist : ((List.range s.ntargets).map fun i => s.word (s.targets + i)) =
      ps ++ List.replicate (s.ntargets - ps.length) 0 := by
    apply List.ext_getElem
    · have := h.length_le
      simp only [List.length_map, List.length_range, List.length_append, List.length_replicate]
      omega
    · intro i hi hi'
      simp only [List.length_map, List.length_range] at hi
      rw [List.getElem_map, List.getElem_range, h.slot i hi]
      by_cases hlt : i < ps.length
      · rw [List.getElem_append_left hlt, List.getD_eq_getElem _ _ hlt]
      · rw [List.getElem_append_right (not_lt.mp hlt), List.getElem_replicate, List.getD_eq_default _ _ (not_lt.mp hlt)]
  have hps : ∀ p ∈ ps, decide (p ≠ 0) = true := fun p hp => decide_eq_true (h.live p hp).1.ne'
  rw [Table.entries, hlist, List.takeWhile_append_of_pos hps, List.takeWhile_replicate_eq_filter]
  simp

theorem nodup (h : s.Holds ps) : ps.Nodup := List.Nodup.of_map _ h.addrs

theorem skipUsed (h : s.Holds ps) : s.skipUsed s.ntargets s.targets = s.targets + ps.length := by
  have hloop (n k : ℕ) (hn : k + n = s.ntargets) (hk : k ≤ ps.length) :
      s.skipUsed n (s.targets + k) = s.targets + ps.length := by
    induction n generalizing k with
    | zero =>
      have := h.length_le
      have hend : k = ps.length := by omega
      rw [Table.skipUsed, hend]
    | succ n ih =>
      have hzero := h.word_eq_zero (i := k) (by omega)
      unfold Table.skipUsed
      split
      · rename_i hw
        rw [Nat.le_antisymm hk (hzero.mp hw)]
      · rename_i hw
        have hlt : ¬ ps.length ≤ k := fun hle => hw (hzero.mpr hle)
        exact ih (k + 1) (by omega) (by omega)
  exact hloop s.ntargets 0 (Nat.zero_add _) (Nat.zero_le _)

/-- `gettgt` finds the entry with the address. -/
theorem gettgt (h : s.Holds ps) (addr : Mac) : s.gettgt addr = (ps.find? fun p => (s.tgtRec p).addr = addr).getD 0 := by
  have hloop (n k : ℕ) (hn : k + n = s.ntargets) (hk : k ≤ ps.length) :
      s.gettgtLoop addr n (s.targets + k) = ((ps.drop k).find? fun p => (s.tgtRec p).addr = addr).getD 0 := by
    induction n generalizing k with
    | zero =>
      have := h.length_le
      have hend : ps.drop k = [] := List.drop_eq_nil_of_le (by omega)
      rw [hend]
      rfl
    | succ n ih =>
      have hzero := h.word_eq_zero (i := k) (by omega)
      unfold Table.gettgtLoop
      split
      · rename_i hw
        rw [List.drop_eq_nil_of_le (hzero.mp hw)]
        rfl
      · rename_i hw
        have hlt' : k < ps.length := not_le.mp fun hle => hw (hzero.mpr hle)
        rw [List.drop_eq_getElem_cons hlt', List.find?_cons, h.slot k (by omega), List.getD_eq_getElem _ _ hlt']
        split
        · rename_i haddr
          simp [haddr]
        · rename_i haddr
          simp only [haddr, decide_false]
          exact ih (k + 1) (by omega) hlt'
  exact hloop s.ntargets 0 (Nat.zero_add _) (Nat.zero_le _)

private theorem gettgt_eq_iff (h : s.Holds ps) (addr : Mac) {p : ℕ} (hp : p ≠ 0) :
    s.gettgt addr = p ↔ p ∈ ps ∧ (s.tgtRec p).addr = addr := by
  rw [h.gettgt]
  constructor
  · intro heq
    cases hf : ps.find? fun p => (s.tgtRec p).addr = addr with
    | none =>
      rw [hf] at heq
      exact absurd heq.symm hp
    | some q =>
      rw [hf] at heq
      obtain rfl : q = p := heq
      exact ⟨List.mem_of_find?_eq_some hf, by simpa using List.find?_some hf⟩
  · rintro ⟨hmem, rfl⟩
    cases hf : ps.find? fun q => (s.tgtRec q).addr = (s.tgtRec p).addr with
    | none => exact absurd (List.find?_eq_none.mp hf p hmem) (by simp)
    | some q =>
      have hq : (s.tgtRec q).addr = (s.tgtRec p).addr := by simpa using List.find?_some hf
      exact List.inj_on_of_nodup_map h.addrs (List.mem_of_find?_eq_some hf) hmem hq

private theorem gettgt_eq_zero (h : s.Holds ps) (addr : Mac) :
    s.gettgt addr = 0 ↔ ∀ p ∈ ps, (s.tgtRec p).addr ≠ addr := by
  constructor
  · intro hzero p hp haddr
    have hfound := (h.gettgt_eq_iff addr (h.live p hp).1.ne').mpr ⟨hp, haddr⟩
    exact (h.live p hp).1.ne' (hfound.symm.trans hzero)
  · intro hnone
    by_contra hne
    obtain ⟨hmem, haddr⟩ := (h.gettgt_eq_iff addr hne).mp rfl
    exact hnone _ hmem haddr

private theorem kcalloc_ne_zero (h : s.Holds ps) : s.brk ≠ 0 := by
  have := h.base
  have := h.fits
  omega

/-- The array is moved: the slots keep their entries and `d->tgt` its slot, and the first new slot is returned. -/
theorem growTargets (h : s.Holds ps) (junk : ℕ → ℕ) : ∃ s', s.growTargets true junk = (s', s'.targets + s.ntargets) ∧
    s'.Holds ps ∧ s'.ntargets = s.ntargets * 2 ∧ s'.tgt - s'.targets = s.tgt - s.targets ∧ s'.tgtRec = s.tgtRec ∧
    s'.d = s.d := by
  obtain ⟨i, htgt, hi⟩ := h.tgt
  have hbase := h.base
  have hfits := h.fits
  have hroom := h.room
  have hlen := h.length_le
  unfold Table.growTargets Table.aoeKcalloc
  dsimp only
  rw [if_pos rfl]
  dsimp only
  rw [if_neg h.kcalloc_ne_zero]
  refine ⟨_, rfl, ?_, rfl, ?_, rfl, rfl⟩
  · refine ⟨?_, ?_, le_rfl, ?_, ?_, ?_, h.addrs, h.owner, i, ?_, hi⟩
    · show 0 < s.brk
      omega
    · show 0 < s.ntargets * 2
      omega
    · show ps.length ≤ s.ntargets * 2
      omega
    · -- old entries come from the copy, the slots behind them are clear
      intro j hj
      simp only [Table.kfree, Table.memmove] at hj ⊢
      rw [if_neg (by omega)]
      by_cases hold : j < s.ntargets
      · rw [if_pos (by omega), if_neg (by omega)]
        have hsrc : s.targets + (s.brk + j - s.brk) = s.targets + j := by omega
        rw [hsrc]
        exact h.slot j hold
      · rw [if_neg (by omega), if_pos (by omega)]
        exact (List.getD_eq_default _ _ (by omega)).symm
    · intro p hp
      obtain ⟨hpos, hlt⟩ := h.live p hp
      exact ⟨hpos, Nat.lt_add_right _ hlt⟩
    · show s.brk + (s.tgt - s.targets) = s.brk + i
      omega
  · show s.brk + (s.tgt - s.targets) - s.brk = s.tgt - s.targets
    omega

private theorem growTargets_fails (s : Table) (junk : ℕ → ℕ) : s.growTargets false junk = (s, 0) := rfl

/-- A target with a new address takes the first free slot. -/
theorem insert (h : s.Holds ps) (hlt : ps.length < s.ntargets) {addr : Mac} (hnew : ∀ p ∈ ps, (s.tgtRec p).addr ≠ addr) :
    ∃ s' t, s.insert (s.targets + ps.length) addr true = (s', t) ∧ t ≠ 0 ∧ s'.Holds (ps ++ [t]) ∧
      s'.tgtRec t = ⟨s.d, addr⟩ ∧ (∀ p ∈ ps, s'.tgtRec p = s.tgtRec p) ∧ s'.tgt = s.tgt ∧ s'.targets = s.targets ∧
      s'.ntargets = s.ntargets ∧ s'.d = s.d := by
  obtain ⟨i, htgt, hi⟩ := h.tgt
  have hfits := h.fits
  have hold : ∀ p ∈ ps, Function.update s.tgtRec s.brk ⟨s.d, addr⟩ p = s.tgtRec p := fun p hp =>
    Function.update_of_ne (h.live p hp).2.ne _ _
  unfold Table.insert Table.aoeKcalloc
  dsimp only
  rw [if_pos rfl]
  dsimp only
  rw [if_neg h.kcalloc_ne_zero]
  refine ⟨_, _, rfl, h.kcalloc_ne_zero, ?_, Function.update_self .., hold, rfl, rfl, rfl, rfl⟩
  refine ⟨h.base, h.room, Nat.le_succ_of_le hfits, ?_, ?_, ?_, ?_, ?_, i, htgt, ?_⟩
  · rw [List.length_append]
    exact hlt
  · intro j hj
    simp only at hj ⊢
    by_cases hlast : j = ps.length
    · subst hlast
      rw [Function.update_self, List.getD_append_right _ _ _ _ le_rfl, Nat.sub_self]
      rfl
    · have hne : s.targets + j ≠ s.targets + ps.length := by omega
      rw [Function.update_of_ne hne, if_neg (by omega), h.slot j hj]
      by_cases hjp : j < ps.length
      · rw [List.getD_append _ _ _ _ hjp]
      · rw [List.getD_eq_default _ _ (by omega), List.getD_eq_default _ _ (by simp; omega)]
  · intro p hp
    rcases List.mem_append.mp hp with hp | hp
    · exact ⟨(h.live p hp).1, Nat.lt_succ_of_lt (h.live p hp).2⟩
    · rw [List.mem_singleton.mp hp]
      exact ⟨Nat.pos_of_ne_zero h.kcalloc_ne_zero, Nat.lt_succ_self _⟩
  · rw [List.map_append, List.map_congr_left fun p hp => congrArg TgtRec.addr (hold p hp)]
    refine List.Nodup.append h.addrs (List.nodup_singleton _) ?_
    rw [List.map_singleton, List.disjoint_singleton]
    dsimp only
    rw [Function.update_self]
    intro hmem
    obtain ⟨p, hp, heq⟩ := List.mem_map.mp hmem
    exact hnew p hp heq
  · intro p hp
    dsimp only
    rcases List.mem_append.mp hp with hp | hp
    · rw [hold p hp]
      exact h.owner p hp
    · rw [List.mem_singleton.mp hp, Function.update_self]
  · rcases hi with hi | ⟨rfl, rfl⟩
    · exact .inl (by simp only [List.length_append]; omega)
    · exact .inl (by simp)

/-- What a step may do: the entries stay where they are, and so do the targets they point to. -/
structure Keeps (s s' : Table) (ps ps' : List ℕ) : Prop where
  holds : s'.Holds ps'
  entries : ps <+: ps'
  recs : ∀ p ∈ ps, s'.tgtRec p = s.tgtRec p
  d : s'.d = s.d

/-- A new address is added, or an allocation fails and only the array may be a longer one. -/
theorem addtgt (h : s.Holds ps) {addr : Mac} (hnew : ∀ p ∈ ps, (s.tgtRec p).addr ≠ addr) (kcalloc : List Bool)
    (junk : ℕ → ℕ) : ∃ s' t, s.addtgt addr kcalloc junk = (s', t) ∧ s'.tgt - s'.targets = s.tgt - s.targets ∧
      (t = 0 ∧ Keeps s s' ps ps ∨ t ≠ 0 ∧ Keeps s s' ps (ps ++ [t]) ∧ s'.tgtRec t = ⟨s.d, addr⟩) := by
  have hput {s₁ : Table} (h₁ : s₁.Holds ps) (hroom : ps.length < s₁.ntargets) (hrec : s₁.tgtRec = s.tgtRec)
      (hd : s₁.d = s.d) (htgt : s₁.tgt - s₁.targets = s.tgt - s.targets) (ok : Bool) :
      ∃ s' t, s₁.insert (s₁.targets + ps.length) addr ok = (s', t) ∧ s'.tgt - s'.targets = s.tgt - s.targets ∧
        (t = 0 ∧ Keeps s s' ps ps ∨ t ≠ 0 ∧ Keeps s s' ps (ps ++ [t]) ∧ s'.tgtRec t = ⟨s.d, addr⟩) := by
    cases ok with
    | false => exact ⟨s₁, 0, rfl, htgt, .inl ⟨rfl, h₁, List.prefix_refl _, fun p _ => by rw [hrec], hd⟩⟩
    | true =>
      rw [← hrec] at hnew
      obtain ⟨s', t, heq, ht, hholds, hself, hold, htgt', htargets, -, hd'⟩ := h₁.insert hroom hnew
      refine ⟨s', t, heq, by rw [htgt', htargets, htgt], .inr ⟨ht, ⟨hholds, List.prefix_append _ _, ?_, hd'.trans hd⟩, ?_⟩⟩
      · intro p hp
        rw [hold p hp, hrec]
      · rw [hself, hd]
  unfold Table.addtgt
  dsimp only
  rw [h.skipUsed]
  have hlen := h.length_le
  have hroom := h.room
  split
  · rename_i hfull
    have hlast : ps.length = s.ntargets := Nat.add_left_cancel hfull
    cases (nextOutcome kcalloc).1 with
    | false => exact ⟨s, 0, rfl, rfl, .inl ⟨rfl, h, List.prefix_refl _, fun _ _ => rfl, rfl⟩⟩
    | true =>
      obtain ⟨s₁, heq, h₁, hn, htgt, hrec, hd⟩ := h.growTargets junk
      have hne : s₁.targets + s.ntargets ≠ 0 := by omega
      rw [heq]
      dsimp only
      rw [if_neg hne, ← hlast]
      exact hput h₁ (by omega) hrec hd htgt _
  · rename_i hfree
    exact hput h (by omega) rfl rfl rfl _

theorem cfgRsp (h : s.Holds ps) (addr : Mac) (kcalloc : List Bool) (junk : ℕ → ℕ) :
    ∃ ps', Keeps s (s.aoecmdCfgRsp addr kcalloc junk) ps ps' := by
  unfold Table.aoecmdCfgRsp
  split
  · rename_i hnone
    obtain ⟨s', t, heq, -, ⟨-, hk⟩ | ⟨-, hk, -⟩⟩ := h.addtgt ((h.gettgt_eq_zero addr).mp hnone) kcalloc junk
    · rw [heq]
      exact ⟨ps, hk⟩
    · rw [heq]
      exact ⟨ps ++ [t], hk⟩
  · exact ⟨ps, h, List.prefix_refl _, fun _ _ => rfl, rfl⟩

theorem nextTt (h : s.Holds ps) {i : ℕ} (hi : i < ps.length) :
    s.nextTt (s.targets + i) = s.targets + (i + 1) % ps.length := by
  have hlen := h.length_le
  unfold Table.nextTt
  dsimp only
  by_cases hlast : i + 1 = ps.length
  · have hend : s.targets + s.ntargets ≤ s.targets + i + 1 ∨ s.word (s.targets + i + 1) = 0 := by
      by_cases hfull : i + 1 < s.ntargets
      · exact .inr ((h.word_eq_zero hfull).mpr hlast.ge)
      · exact .inl (by omega)
    rw [if_pos hend, hlast, Nat.mod_self, Nat.add_zero]
  · have hnext : i + 1 < ps.length := by omega
    have hgo : ¬ (s.targets + s.ntargets ≤ s.targets + i + 1 ∨ s.word (s.targets + i + 1) = 0) := by
      rintro (hle | hword)
      · omega
      · exact absurd ((h.word_eq_zero (i := i + 1) (by omega)).mp hword) (by omega)
    rw [if_neg hgo, Nat.mod_eq_of_lt hnext, Nat.add_assoc]

private theorem iterate_nextTt (h : s.Holds ps) {i : ℕ} (hi : i < ps.length) (n : ℕ) :
    s.nextTt^[n] (s.targets + i) = s.targets + (i + n) % ps.length := by
  induction n with
  | zero => rw [Function.iterate_zero_apply, Nat.add_zero, Nat.mod_eq_of_lt hi]
  | succ n ih =>
    rw [Function.iterate_succ_apply', ih, h.nextTt (Nat.mod_lt _ (Nat.zero_lt_of_lt hi)), Nat.mod_add_mod]
    rfl

theorem newframe (h : s.Holds ps) (k : ℕ) : Keeps s (s.newframe k) ps ps := by
  unfold Table.newframe
  split
  · exact ⟨h, List.prefix_refl _, fun _ _ => rfl, rfl⟩
  · rename_i hword
    have hne : ¬ ps.length ≤ 0 := fun hle => hword ((h.word_eq_zero h.room).mpr hle)
    obtain ⟨i, htgt, hi⟩ := h.tgt
    have hi' : i < ps.length := by
      rcases hi with hi | ⟨rfl, -⟩
      · exact hi
      · exact absurd le_rfl hne
    have htgt' : s.nextTt^[k + 1] s.tgt = s.targets + (i + (k + 1)) % ps.length := by
      rw [htgt]
      exact h.iterate_nextTt hi' (k + 1)
    have hlt : (i + (k + 1)) % ps.length < ps.length := Nat.mod_lt _ (Nat.zero_lt_of_lt hi')
    exact ⟨⟨h.base, h.room, h.fits, h.length_le, h.slot, h.live, h.addrs, h.owner, _, htgt', .inl hlt⟩,
      List.prefix_refl _, fun _ _ => rfl, rfl⟩

theorem exec (h : s.Holds ps) (e : Event) : ∃ ps', Keeps s (s.exec e) ps ps' := by
  cases e with
  | cfgRsp addr kcalloc junk => exact h.cfgRsp addr kcalloc junk
  | newframe k => exact ⟨ps, h.newframe k⟩

end Holds

/-- The states of the table between two steps. -/
def Reached (s : Table) : Prop :=
  Reach (fun s => ∃ d base word tgtRec, 0 < base ∧ s = initial d base word tgtRec) (fun s e s' => s' = s.exec e)
    (fun _ _ _ => True) s

private theorem initial_holds {base : ℕ} (hbase : 0 < base) (d : ℕ) (word : ℕ → ℕ) (tgtRec : ℕ → TgtRec) :
    (initial d base word tgtRec).Holds [] := by
  refine ⟨hbase, ?_, le_rfl, ?_, ?_, ?_, List.nodup_nil, ?_, 0, rfl, .inr ⟨rfl, rfl⟩⟩
  · show 0 < NTARGETS
    decide
  · exact Nat.zero_le _
  · intro i hi
    exact if_pos ⟨Nat.le_add_right _ _, Nat.add_lt_add_left hi _⟩
  · exact fun p hp => absurd hp List.not_mem_nil
  · exact fun p hp => absurd hp List.not_mem_nil

private theorem reached_holds (h : Reached s) : s.Holds s.entries := by
  have hsome : ∃ ps, s.Holds ps := by
    refine Reach.invariant (P := fun s => ∃ ps, s.Holds ps) ?_ ?_ h
    · rintro s ⟨d, base, word, tgtRec, hbase, rfl⟩
      exact ⟨[], initial_holds hbase d word tgtRec⟩
    · rintro s e s' - ⟨ps, hps⟩ - rfl
      obtain ⟨ps', hk⟩ := hps.exec e
      exact ⟨ps', hk.holds⟩
  obtain ⟨ps, hps⟩ := hsome
  rw [hps.entries]
  exact hps

/-- The table shows the list of targets. -/
structure Shows (s : Table) (d : Aoedev) : Prop where
  addrs : d.targets.map Aoetgt.addr = s.entries.map fun p => (s.tgtRec p).addr
  ntargets : d.ntargets = s.ntargets
  tgt : s.tgt = s.targets + d.tgt

section Shows

variable {d : Aoedev}

theorem Shows.length (h : s.Shows d) : d.targets.length = s.entries.length := by
  simpa using congrArg List.length h.addrs

theorem Shows.gettgt (h : s.Shows d) (hs : s.Holds s.entries) (addr : Mac) :
    AoeDriver.gettgt d addr = none ↔ s.gettgt addr = 0 := by
  have hmem : (∀ t ∈ d.targets, t.addr ≠ addr) ↔ addr ∉ d.targets.map Aoetgt.addr := by
    simp only [List.mem_map, not_exists, not_and, ne_eq]
  have hmem' : (∀ p ∈ s.entries, (s.tgtRec p).addr ≠ addr) ↔ addr ∉ s.entries.map fun p => (s.tgtRec p).addr := by
    simp only [List.mem_map, not_exists, not_and, ne_eq]
  rw [hs.gettgt_eq_zero, hmem', ← h.addrs, ← hmem, AoeDriver.gettgt, List.findIdx?_eq_none_iff]
  simp

theorem initial_shows {base : ℕ} (hbase : 0 < base) (d₀ : ℕ) (word : ℕ → ℕ) (tgtRec : ℕ → TgtRec)
    (aoemajor aoeminor ncpus deadsecs maxout : ℕ) (clock : Clock) (c : CfgRsp) :
    (initial d₀ base word tgtRec).Shows (AoeDriver.initial aoemajor aoeminor ncpus deadsecs maxout clock c) := by
  refine ⟨?_, rfl, rfl⟩
  rw [(initial_holds hbase d₀ word tgtRec).entries]
  rfl

theorem Shows.insert (h : s.Shows d) (hs : s.Holds s.entries) (hroom : s.entries.length < s.ntargets) {addr : Mac}
    (hnew : ∀ p ∈ s.entries, (s.tgtRec p).addr ≠ addr) (n : ℕ) :
    (s.insert (s.targets + s.entries.length) addr true).1.Shows { d with targets := d.targets ++ [newTarget addr n] } := by
  obtain ⟨s', t, heq, -, hholds, hself, hold, htgt, htargets, hn, -⟩ := hs.insert hroom hnew
  rw [heq]
  refine ⟨?_, h.ntargets.trans hn.symm, ?_⟩
  · have hrecs : (s.entries.map fun p => (s'.tgtRec p).addr) = s.entries.map fun p => (s.tgtRec p).addr :=
      List.map_congr_left fun p hp => congrArg TgtRec.addr (hold p hp)
    rw [hholds.entries, List.map_append, List.map_append, hrecs, h.addrs, List.map_singleton, List.map_singleton, hself]
    rfl
  · rw [htgt, htargets]
    exact h.tgt

/-- `addtgt` in memory is `addtgt` on the list. -/
theorem Shows.addtgt (h : s.Shows d) (hs : s.Holds s.entries) {addr : Mac} (hnew : s.gettgt addr = 0) (n : ℕ)
    (junk : ℕ → ℕ) : (s.addtgt addr d.env.kcalloc junk).1.Shows (AoeDriver.addtgt d addr n).1 := by
  have hnew' := (hs.gettgt_eq_zero addr).mp hnew
  have hput {s₁ : Table} {d₁ : Aoedev} (h₁ : s₁.Shows d₁) (hs₁ : s₁.Holds s₁.entries) (hroom : s₁.entries.length < s₁.ntargets)
      (hnew₁ : ∀ p ∈ s₁.entries, (s₁.tgtRec p).addr ≠ addr) (ok : Bool) :
      (s₁.insert (s₁.targets + s₁.entries.length) addr ok).1.Shows
        (if ok then { d₁ with targets := d₁.targets ++ [newTarget addr n] } else d₁) := by
    cases ok with
    | false => exact h₁
    | true => exact h₁.insert hs₁ hroom hnew₁ n
  have hlen := hs.length_le
  unfold Table.addtgt AoeDriver.addtgt AoeDriver.growTargets
  dsimp only
  rw [hs.skipUsed]
  by_cases hfull : s.entries.length < s.ntargets
  · have hne : s.targets + s.entries.length ≠ s.targets + s.ntargets := by omega
    have hfull' : d.targets.length < d.ntargets := by rwa [h.length, h.ntargets]
    rw [if_neg hne, if_pos hfull']
    have hshow := hput h hs hfull hnew' (nextOutcome d.env.kcalloc).1
    dsimp only
    split
    · rename_i hok
      rw [hok] at hshow ⊢
      exact ⟨hshow.addrs, hshow.ntargets, hshow.tgt⟩
    · rename_i hok
      rw [Bool.not_eq_true] at hok
      rw [hok] at hshow ⊢
      exact ⟨hshow.addrs, hshow.ntargets, hshow.tgt⟩
  · have hlast : s.entries.length = s.ntargets := by omega
    have hfull' : ¬ d.targets.length < d.ntargets := by rwa [h.length, h.ntargets]
    rw [hlast, if_pos rfl, if_neg hfull']
    cases (nextOutcome d.env.kcalloc).1 with
    | false =>
      rw [Holds.growTargets_fails, if_pos rfl, if_neg Bool.false_ne_true]
      exact ⟨h.addrs, h.ntargets, h.tgt⟩
    | true =>
      obtain ⟨s₁, heq, h₁, hn, htgt, hrec, -⟩ := hs.growTargets junk
      have hroom := hs.room
      have hne : s₁.targets + s.ntargets ≠ 0 := by omega
      have hentries : s₁.entries = s.entries := h₁.entries
      rw [heq, if_pos rfl]
      dsimp only
      rw [if_neg hne]
      have hgrown : s₁.Shows { d with ntargets := d.ntargets * 2 } := by
        refine ⟨?_, by rw [hn, ← h.ntargets], ?_⟩
        · rw [hentries, hrec]
          exact h.addrs
        · obtain ⟨i, hi, -⟩ := h₁.tgt
          have := h.tgt
          show s₁.tgt = s₁.targets + d.tgt
          omega
      have hshow := hput hgrown (hentries ▸ h₁) (by rw [hentries]; omega) (by rw [hentries, hrec]; exact hnew')
        (nextOutcome (nextOutcome d.env.kcalloc).2).1
      rw [hentries, hlast] at hshow
      split
      · rename_i hok
        rw [hok] at hshow ⊢
        exact ⟨hshow.addrs, hshow.ntargets, hshow.tgt⟩
      · rename_i hok
        rw [Bool.not_eq_true] at hok
        rw [hok] at hshow ⊢
        exact ⟨hshow.addrs, hshow.ntargets, hshow.tgt⟩

theorem Shows.cfgRsp (h : s.Shows d) (hs : s.Holds s.entries) (c : CfgRsp) (junk : ℕ → ℕ) :
    (s.aoecmdCfgRsp c.src d.env.kcalloc junk).Shows (cfgTgt d c).1 := by
  have hiff := h.gettgt hs c.src
  unfold Table.aoecmdCfgRsp cfgTgt
  dsimp only
  generalize (if c.bufcnt > d.aoeMaxout then d.aoeMaxout else c.bufcnt) % 2^16 = n
  cases hget : AoeDriver.gettgt d c.src with
  | none =>
    rw [if_pos (hiff.mp hget)]
    exact h.addtgt hs (hiff.mp hget) _ junk
  | some t =>
    have hne : s.gettgt c.src ≠ 0 := fun hzero => absurd (hiff.mpr hzero) (by simp [hget])
    rw [if_neg hne]
    refine ⟨?_, h.ntargets, h.tgt⟩
    rw [← h.addrs]
    refine Tables.map_modify_same _ _ _ _ fun x => ?_
    split <;> rfl

theorem Shows.newframe (h : s.Shows d) (hs : s.Holds s.entries) (hv : d.tgt < d.targets.length) {i : ℕ}
    (hi : i < d.targets.length) : ∃ k, (s.newframe k).Shows { d with tgt := i } := by
  have hlen := h.length
  obtain ⟨k, hk, heq⟩ := Ring.exists_offset hv hi
  -- the walk takes at least one step
  obtain ⟨n, hn⟩ : ∃ n, (d.tgt + (n + 1)) % d.targets.length = i := by
    rcases Nat.eq_zero_or_pos k with rfl | hpos
    · refine ⟨d.targets.length - 1, ?_⟩
      rw [Nat.sub_add_cancel (Nat.zero_lt_of_lt hv), Nat.add_mod_right, heq, Nat.add_zero]
    · exact ⟨k - 1, by rw [Nat.sub_add_cancel hpos, ← heq]⟩
  refine ⟨n, ?_⟩
  have hword : s.word s.targets ≠ 0 := fun hzero => by
    have := (hs.word_eq_zero hs.room).mp hzero
    omega
  unfold Table.newframe
  rw [if_neg hword]
  refine ⟨h.addrs, h.ntargets, ?_⟩
  show s.nextTt^[n + 1] s.tgt = s.targets + i
  rw [h.tgt, hs.iterate_nextTt (hlen ▸ hv), ← hlen, hn]

end Shows

/-- The targets table after any config responses and any use, whatever allocations fail: the entries are the first
slots, have addresses of their own and belong to the device, `gettgt` finds just them, `d->tgt` is at one of them, or
at slot 0 of an empty table, no step loses, moves or changes one, and a failed `addtgt` changes neither them nor the
slot of `d->tgt`. -/
theorem targets_table (h : Reached s) :
    (∀ i < s.ntargets, s.word (s.targets + i) ≠ 0 ↔ i < s.entries.length) ∧
      s.entries.length ≤ s.ntargets ∧ s.entries.Nodup ∧
      (s.entries.map fun p => (s.tgtRec p).addr).Nodup ∧ (∀ p ∈ s.entries, (s.tgtRec p).d = s.d) ∧
      (∀ addr p, p ≠ 0 → (s.gettgt addr = p ↔ p ∈ s.entries ∧ (s.tgtRec p).addr = addr)) ∧
      (∃ i, s.tgt = s.targets + i ∧ (i < s.entries.length ∨ s.entries = [] ∧ i = 0)) ∧
      (∀ e, s.entries <+: (s.exec e).entries ∧ ∀ p ∈ s.entries, (s.exec e).tgtRec p = s.tgtRec p) ∧
      ∀ addr kcalloc junk, s.gettgt addr = 0 → (s.addtgt addr kcalloc junk).2 = 0 →
        (s.addtgt addr kcalloc junk).1.entries = s.entries ∧
          (∀ p ∈ s.entries, (s.addtgt addr kcalloc junk).1.tgtRec p = s.tgtRec p) ∧
          (s.addtgt addr kcalloc junk).1.tgt - (s.addtgt addr kcalloc junk).1.targets = s.tgt - s.targets := by
  have hs := reached_holds h
  refine ⟨?_, hs.length_le, hs.nodup, hs.addrs, hs.owner, ?_, hs.tgt, ?_, ?_⟩
  · intro i hi
    rw [ne_eq, hs.word_eq_zero hi, not_le]
  · exact fun addr p hp => hs.gettgt_eq_iff addr hp
  · intro e
    obtain ⟨ps', hk⟩ := hs.exec e
    rw [hk.holds.entries]
    exact ⟨hk.entries, hk.recs⟩
  · intro addr kcalloc junk hnone hfail
    obtain ⟨s', t, heq, htgt, ⟨-, hk⟩ | ⟨ht, -, -⟩⟩ := hs.addtgt ((hs.gettgt_eq_zero addr).mp hnone) kcalloc junk
    · rw [heq, hk.holds.entries]
      exact ⟨rfl, hk.recs, htgt⟩
    · rw [heq] at hfail
      exact absurd hfail ht

/-- The table after config responses from a list of addresses, without a failed allocation. -/
def answered (addrs : List Mac) : Table :=
  addrs.foldl (fun s a => s.exec (.cfgRsp a [] fun _ => 9)) (initial 7 16 (fun _ => 3) fun _ => ⟨0, 0⟩)

private theorem answered_reached (addrs : List Mac) : Reached (answered addrs) := by
  have hrun (s : Table) (hs : Reached s) : Reached (addrs.foldl (fun s a => s.exec (.cfgRsp a [] fun _ => 9)) s) := by
    induction addrs generalizing s with
    | nil => exact hs
    | cons a addrs ih => exact ih _ (.step hs trivial rfl)
  exact hrun _ (.init ⟨7, 16, _, _, by decide, rfl⟩)

structure Answers (addrs : List Mac) (test : Table → Bool) : Type where
  passes : test (answered addrs) = true

/-- The array is moved once. -/
def sampleMoved : Answers [1, 2, 3, 4, 5] (fun s => s.ntargets == 8 && s.entries.length == 5) := ⟨by decide +kernel⟩

theorem targets_table_sample : ∃ s, Reached s ∧ s.ntargets = 8 ∧ s.entries.length = 5 ∧
    (s.entries.map fun p => (s.tgtRec p).addr).Nodup := by
  have hpass := sampleMoved.passes
  simp only [Bool.and_eq_true, beq_iff_eq] at hpass
  have hreached := answered_reached [1, 2, 3, 4, 5]
  exact ⟨_, hreached, hpass.1, hpass.2, (targets_table hreached).2.2.2.1⟩

end Table

end AoeDriver
