import AoeDriver.Library.Slots
import AoeDriver.Traffic.Rules
import AoeDriver.Run.Discovery

/-!
# The interfaces of a target

What config responses, ejections and rotations do to the slots of a target, and the balance of the references they
take and give back.
-/

namespace AoeDriver

open Tables

section Slots

variable {G : Gate} {t t' : Aoetgt}

theorem nds_length (h : Live t.wires) : t.nds.length = NAOEIFS := (List.length_map _).trans h.len

theorem nds_packed (h : Live t.wires) : t.nds.Pairwise fun a b => b.isSome → a.isSome := h.packed

private theorem live_alike (ha : Alike t t') (h : Live t.wires) : Live t'.wires := by
  have hnds := ha.nds
  refine ⟨?_, ?_, ?_, ?_, ?_⟩
  · have hlen := congrArg List.length ha.ifs
    rw [List.length_map, List.length_map] at hlen
    exact hlen.trans h.len
  · have hfirst : (t.ifAt 0).nd.isSome := h.first
    change (t'.ifAt 0).nd.isSome
    rw [ifAt_nd, hnds, ← ifAt_nd]
    exact hfirst
  · change t'.nds.Pairwise _
    rw [hnds]
    exact h.packed
  · intro x hx hsome
    have hmem : (x.nd, x.bcnt) ∈ t.ifs.map fun x => (x.nd, x.bcnt) := by
      rw [← ha.ifs]
      exact List.mem_map_of_mem hx
    obtain ⟨y, hy, heq⟩ := List.mem_map.mp hmem
    obtain ⟨hnd, hbcnt⟩ := Prod.mk.inj heq
    have hb := h.bcnt y hy (hnd ▸ hsome)
    rw [hbcnt] at hb
    change Payload x.bcnt ∧ t'.minbcnt ≤ x.bcnt
    rw [ha.minbcnt]
    exact hb
  · change Payload t'.minbcnt
    rw [ha.minbcnt]
    exact h.minbcnt

theorem ifrotate_live (h : Live t.wires) : (ifrotate t).2 = true := by
  have hfirst : (t.ifAt 0).nd.isSome := h.first
  unfold ifrotate
  extract_lets i j
  have hj : (t.ifAt j).nd.isSome := by
    simp only [j]
    split
    · exact hfirst
    · rename_i hc
      simp only [Bool.or_eq_true, not_or, Bool.not_eq_true, Option.isNone_eq_false_iff] at hc
      exact hc.2
  rw [if_neg (by simpa [Option.isSome_iff_ne_none] using hj)]

theorem ifrotate_nd (h : (ifrotate t).2 = true) : (ifrotate t).1.nd.isSome ∧ (ifrotate t).1.ifp < NAOEIFS := by
  obtain ⟨i, hi, hok, -⟩ := ifrotate_eq t
  obtain ⟨hlt, hsome⟩ := hok h
  rw [hi]
  exact ⟨hsome, hlt⟩

private theorem nds_rotate (t : Aoetgt) : (ifrotate t).1.nds = t.nds := by
  obtain ⟨i, hi, -⟩ := ifrotate_eq t
  rw [hi]
  rfl

theorem nds_grow (t : Aoetgt) : (growWindow t).ifs = t.ifs ∧ (growWindow t).ifp = t.ifp ∧
    (growWindow t).minbcnt = t.minbcnt := by
  unfold growWindow
  split
  · exact ⟨rfl, rfl, rfl⟩
  · split
    · exact ⟨rfl, rfl, rfl⟩
    · split
      · dsimp only
        split
        · exact ⟨rfl, rfl, rfl⟩
        · exact ⟨rfl, rfl, rfl⟩
      · exact ⟨rfl, rfl, rfl⟩

private theorem nds_settled (f : Frame) (t : Aoetgt) : (t.settled f).nds = t.nds := by
  dsimp only [Aoetgt.settled, Aoetgt.nds]

theorem nd_settled (f : Frame) (t : Aoetgt) : (t.settled f).nd = t.nd := by
  dsimp only [Aoetgt.settled, Aoetgt.nd, Aoetgt.ifAt]

theorem nds_ejectif (t : Aoetgt) (i : ℕ) : (ejectif t i).nds = t.nds.eraseIdx i ++ [none] := by
  unfold ejectif Aoetgt.nds
  dsimp only
  rw [List.map_append, List.eraseIdx_map]
  rfl

theorem turn_nds (h : Turning G t t') : t'.nds = t.nds := by
  cases h with
  | rotate => exact nds_rotate t
  | stats ha => exact ha.nds
  | grow => exact congrArg (List.map Aoeif.nd) (nds_grow t).1
  | collapse => rfl
  | advertise =>
    split
    · rfl
    · rfl

private theorem turns_nds (h : Turnings G t t') : t'.nds = t.nds := by
  induction h with
  | refl => rfl
  | tail _ hstep ih => exact (turn_nds hstep).trans ih

/-- The loop of `setifbcnt` has passed no slot with the interface that it still has to add. -/
private theorem setifbcntLoop_missing (bcnt n p : ℕ) (ifs : List Aoeif) (nd : NetDev) (minbcnt : ℕ) :
    let r := setifbcntLoop bcnt n p ifs (some nd) minbcnt
    r.2.1 = none ∨ r.2.1 = some nd ∧ ∀ j, p ≤ j → j < r.2.2.2 → (ifs.getD j default).nd ≠ some nd := by
  have hnone (n p : ℕ) (ifs : List Aoeif) (minbcnt : ℕ) : (setifbcntLoop bcnt n p ifs none minbcnt).2.1 = none := by
    induction n generalizing p ifs minbcnt with
    | zero => rfl
    | succ n ih =>
      unfold setifbcntLoop
      dsimp only
      split
      · rfl
      · split
        · exact ih _ _ _
        · exact ih _ _ _
  induction n generalizing p minbcnt with
  | zero => exact .inr ⟨rfl, fun j hp hj => absurd hj (not_lt.mpr hp)⟩
  | succ n ih =>
    unfold setifbcntLoop
    dsimp only
    split
    · exact .inr ⟨rfl, fun j hp hj => absurd hj (not_lt.mpr hp)⟩
    · split
      · exact .inl (hnone _ _ _ _)
      · rename_i hne
        rcases ih (p + 1) (if minbcnt > (ifs.getD p default).bcnt then (ifs.getD p default).bcnt else minbcnt) with
          hr | ⟨hr, hpass⟩
        · exact .inl hr
        · refine .inr ⟨hr, fun j hp hj => ?_⟩
          rcases Nat.eq_or_lt_of_le hp with rfl | hlt
          · exact hne
          · exact hpass j hlt hj

/-- A config response leaves the interfaces as they are, or fills the first empty slot with a new one. -/
theorem setifbcntTgt_nds {nd : NetDev} {bcnt : ℕ} (hw : Payload bcnt) (ht : Live t.wires)
    (hset : setifbcntTgt t nd bcnt = some t') :
    t'.ifp = t.ifp ∧
    ((setifbcntLoop bcnt NAOEIFS 0 t.ifs (some nd) bcnt).2.1 = none ∧ t'.nds = t.nds ∨
      (setifbcntLoop bcnt NAOEIFS 0 t.ifs (some nd) bcnt).2.1 = some nd ∧ ∃ p < NAOEIFS, t.nds.getD p none = none ∧
        nd ∉ entries t.nds ∧ t'.nds = t.nds.modify p fun _ => some nd) := by
  have hlen : t.ifs.length = NAOEIFS := ht.len
  have hstart : Passed bcnt t.ifs bcnt 0 := ⟨fun x hx hs => (ht.bcnt x hx hs).1, hw, le_rfl, by simp⟩
  obtain ⟨hnd, -, hstop⟩ := setifbcntLoop_passed hw NAOEIFS 0 (some nd) (by rw [hlen, zero_add]) hstart
  have hmiss := setifbcntLoop_missing bcnt NAOEIFS 0 t.ifs nd bcnt
  unfold setifbcntTgt at hset
  generalize setifbcntLoop bcnt NAOEIFS 0 t.ifs (some nd) bcnt = r at hnd hstop hmiss hset ⊢
  obtain ⟨ifs, o, minbcnt, p⟩ := r
  dsimp only at hnd hstop hmiss hset ⊢
  rcases hmiss with rfl | ⟨rfl, hpass⟩
  · rw [Option.some.injEq] at hset
    subst hset
    exact ⟨rfl, .inl ⟨rfl, hnd⟩⟩
  · dsimp only at hset
    split at hset
    · exact absurd hset (by simp)
    · rename_i hp
      rw [Option.some.injEq] at hset
      subst hset
      obtain ⟨hlt, hempty⟩ := hstop.resolve_left (by rw [hlen]; exact hp)
      have hnone : t.nds.getD p none = none := by
        rw [← ifAt_nd]
        exact hempty
      refine ⟨rfl, .inr ⟨rfl, p, hlen ▸ hlt, hnone, ?_, ?_⟩⟩
      · intro hmem
        obtain ⟨j, hj, hat⟩ := List.getElem_of_mem (mem_entries.mp hmem)
        have hget : t.nds.getD j none = some nd := by rw [List.getD_eq_getElem _ _ hj, hat]
        by_cases hjp : j < p
        · refine hpass j (Nat.zero_le j) hjp ?_
          rw [← ifAt_nd] at hget
          exact hget
        · rw [packed_none (nds_packed ht) hnone (not_lt.mp hjp) hj] at hget
          exact absurd hget (by simp)
      · have hmap := map_modify ifs p (fun x : Aoeif => { x with nd := some nd, bcnt := bcnt }) (fun _ => some nd) Aoeif.nd
          fun _ => rfl
        rw [hnd] at hmap
        exact hmap

/-- The slots of a target and its current one: `ifp` is a slot, and no interface stands in two of them. -/
structure Wired (t : Aoetgt) : Prop where
  live : Live t.wires
  ifp : t.ifp < NAOEIFS
  distinct : (entries t.nds).Nodup

theorem Wired.congr (h : Wired t) (hw : t'.wires = t.wires) (hi : t'.ifp = t.ifp) : Wired t' := by
  have hifs : t'.ifs = t.ifs := congrArg Wires.ifs hw
  refine ⟨hw ▸ h.live, hi ▸ h.ifp, ?_⟩
  have hnds : t'.nds = t.nds := congrArg (List.map Aoeif.nd) hifs
  rw [hnds]
  exact h.distinct

theorem Wired.rotate (h : Wired t) : Wired (ifrotate t).1 := by
  obtain ⟨i, hi, hok, -⟩ := ifrotate_eq t
  have hlt := (hok (ifrotate_live h.live)).1
  rw [hi]
  exact ⟨h.live, hlt, h.distinct⟩

theorem Wired.eject (h : Wired t) {i : ℕ} (hlt : i < NAOEIFS) (hi : i ≠ 0 ∨ (t.ifAt 1).nd.isSome) :
    Wired (ejectif t i) := by
  refine ⟨live_ejectif h.live hlt hi, h.ifp, ?_⟩
  have hle : entries (t.nds.eraseIdx i) ≤ entries t.nds := by
    rw [entries_eraseIdx (l := t.nds) (i := i) (by rw [nds_length h.live]; exact hlt)]
    exact Multiset.le_add_left _ _
  rw [nds_ejectif, entries_append_none]
  exact Multiset.nodup_of_le hle h.distinct

theorem Wired.setif (h : Wired t) {nd : NetDev} {bcnt : ℕ} (hw : Payload bcnt)
    (hset : setifbcntTgt t nd bcnt = some t') : Wired t' := by
  obtain ⟨w, hlive, heq⟩ := setifbcntTgt_live hw h.live hset
  obtain ⟨hifp, hnds⟩ := setifbcntTgt_nds hw h.live hset
  refine ⟨?_, hifp ▸ h.ifp, ?_⟩
  · rw [heq]
    exact hlive
  · rcases hnds with ⟨-, hnds⟩ | ⟨-, p, hp, hnone, hmiss, hnds⟩
    · rw [hnds]
      exact h.distinct
    · rw [hnds, entries_fill nd (by rw [nds_length h.live]; exact hp) hnone]
      exact Multiset.nodup_cons.mpr ⟨hmiss, h.distinct⟩

theorem newTarget_nds {addr : Mac} {n : ℕ} {nd : NetDev} {bcnt : ℕ}
    (hset : setifbcntTgt (newTarget addr n) nd bcnt = some t) : entries t.nds = {nd} ∧ t.ifp = 0 ∧ t.nd = some nd := by
  have heq : setifbcntTgt (newTarget addr n) nd bcnt = some { newTarget addr n with
      ifs := freshIfs.modify 0 fun x => { x with nd := some nd, bcnt := bcnt }, minbcnt := bcnt } := rfl
  rw [heq, Option.some.injEq] at hset
  subst hset
  exact ⟨rfl, rfl, rfl⟩

theorem wired_kept : Kept G Wired := by
  constructor
  case turn =>
    intro t t' hstep ht
    cases hstep with
    | rotate => exact ht.rotate
    | stats ha =>
      refine ⟨live_alike ha ht.live, ha.ifp ▸ ht.ifp, ?_⟩
      rw [ha.nds]
      exact ht.distinct
    | grow =>
      obtain ⟨hifs, hifp, hmin⟩ := nds_grow t
      refine ht.congr ?_ hifp
      rw [Aoetgt.wires, hifs, hmin]
      rfl
    | collapse => exact ht.congr rfl rfl
    | advertise =>
      split
      · exact ht.congr rfl rfl
      · exact ht.congr rfl rfl
  case count => exact fun t _ _ _ _ ht => ht.congr rfl rfl
  case eject => exact fun t i hlt hi ht => ht.eject hlt hi
  case setif => exact fun t t' nd bcnt hw hset ht => ht.setif hw hset
  case add =>
    intro t addr n nd bcnt _ _ hw hset
    obtain ⟨hnds, hifp, -⟩ := newTarget_nds hset
    obtain ⟨w, hlive, heq⟩ := setifbcntTgt_fresh (t := newTarget addr n) nd hw rfl
    rw [heq, Option.some.injEq] at hset
    refine ⟨?_, ?_, ?_⟩
    · rw [← hset]
      exact hlive
    · rw [hifp]
      decide
    · rw [hnds]
      exact Multiset.nodup_singleton nd
  case reset => exact fun t ht => ht.congr rfl rfl

end Slots

section References

variable {G : Gate} {l l' : Traffic}

/-- Calls of `dev_hold` for interface `nd` of target `i`. -/
def holdCount (l : Traffic) (i : ℕ) (nd : NetDev) : ℕ := l.holds.count (i, nd)

/-- Calls of `dev_put` for it. -/
def putCount (l : Traffic) (i : ℕ) (nd : NetDev) : ℕ :=
  l.ejects.countP fun x => x.t = i ∧ (x.tgt.ifAt x.slot).nd = some nd

/-- Every reference taken is given back or belongs to a slot. -/
def Balanced (l : Traffic) : Prop :=
  ∀ i nd, holdCount l i nd = putCount l i nd + (entries (l.tgt i).nds).count nd

private theorem nds_mod (l : Traffic) (i j : ℕ) {g : Aoetgt → Aoetgt} (hg : (g (l.tgt i)).nds = (l.tgt i).nds) :
    ((l.mod i g).tgt j).nds = (l.tgt j).nds := by
  rw [tgt_mod]
  split
  · rename_i h
    rw [← h.1]
    exact hg
  · rfl

/-- The slots of all targets and the log of references, before and after an act. -/
inductive Rewiring (l l' : Traffic) : Prop where
  | same (hnds : ∀ i, (l'.tgt i).nds = (l.tgt i).nds) (he : l'.ejects = l.ejects) (hh : l'.holds = l.holds)
  | eject (x : Eject) (hlt : x.t < l.targets.length) (hslot : x.slot < NAOEIFS)
      (hx : (x.tgt.ifAt x.slot).nd = ((l.tgt x.t).ifAt x.slot).nd)
      (hnds : ∀ i, (l'.tgt i).nds = if i = x.t then (l.tgt i).nds.eraseIdx x.slot ++ [none] else (l.tgt i).nds)
      (he : l'.ejects = l.ejects ++ [x]) (hh : l'.holds = l.holds)
  | hold (i : ℕ) (nd : NetDev) (hnds : ∀ j, entries (l'.tgt j).nds =
      if j = i then nd ::ₘ entries (l.tgt j).nds else entries (l.tgt j).nds) (he : l'.ejects = l.ejects)
      (hh : l'.holds = l.holds ++ [(i, nd)])

theorem Rewiring.of_mod {l m : Traffic} (i : ℕ) {g : Aoetgt → Aoetgt} (hg : (g (l.tgt i)).nds = (l.tgt i).nds)
    (ht : m.targets = (l.mod i g).targets) (he : m.ejects = l.ejects) (hh : m.holds = l.holds) : Rewiring l m := by
  refine .same (fun j => ?_) he hh
  have hm : m.tgt j = (l.mod i g).tgt j := by rw [Traffic.tgt, ht, Traffic.tgt]
  rw [hm]
  exact nds_mod l i j hg

theorem tgt_map {m : Traffic} {g : Aoetgt → Aoetgt} {i : ℕ} (hi : i < l.targets.length)
    (ht : m.targets = l.targets.map g) : m.tgt i = g (l.tgt i) := by
  rw [Traffic.tgt, ht, Traffic.tgt, List.getD_eq_getElem _ _ (by simpa using hi), List.getElem_map,
    List.getD_eq_getElem _ _ hi]

theorem Rewiring.of_map {m : Traffic} {g : Aoetgt → Aoetgt} (hg : ∀ t, (g t).nds = t.nds)
    (ht : m.targets = l.targets.map g) (he : m.ejects = l.ejects) (hh : m.holds = l.holds) : Rewiring l m := by
  refine .same (fun j => ?_) he hh
  by_cases hj : j < l.targets.length
  · rw [tgt_map hj ht]
    exact hg _
  · have hdef : m.tgt j = default := tgt_default (by rw [ht, List.length_map]; exact not_lt.mp hj)
    rw [hdef, tgt_default (not_lt.mp hj)]

/-- Every act is a rewiring. -/
theorem Act.rewiring (h : Act G l l') (hw : ∀ t ∈ l.targets, Wired t)
    (hdevs : ∀ f ∈ l.active, (f.skb.getD default).dev.isSome) : Rewiring l l' := by
  have hrot (k : Aoetgt → Aoetgt) (hk : ∀ t, (k t).nds = t.nds) (t : Aoetgt) : (k (ifrotate t).1).nds = t.nds :=
    (hk _).trans (nds_rotate t)
  cases h with
  | @turn _ i g ht => exact .of_mod i (turns_nds ht) rfl rfl rfl
  | @send _ f _ _ w r => exact .of_mod f.t (hrot (Aoetgt.issued w r) (fun _ => rfl) _) rfl rfl rfl
  | @probe _ f _ _ w r =>
    refine .of_mod (g := fun t => ((ifrotate t).1.issued w r).probed) f.t
      (hrot (fun t => (t.issued w r).probed) (fun _ => rfl) _) ?_ rfl rfl
    have hmm := congrArg Traffic.targets (mod_mod l f.t (fun t => (ifrotate t).1.issued w r) Aoetgt.probed)
    exact hmm
  | @miss _ i => exact .of_mod i rfl rfl rfl rfl
  | @eject _ x f hx hi hifp hnds hsent hf hdev =>
    have hat : (x.tgt.ifAt x.slot).nd = ((l.tgt x.t).ifAt x.slot).nd := by rw [ifAt_nd, hnds, ← ifAt_nd]
    by_cases hlt : x.t < l.targets.length
    · refine .eject x hlt hx hat (fun i => ?_) rfl rfl
      have htgt := tgt_mod l x.t i fun t => ejectif t x.slot
      change ((l.mod x.t fun t => ejectif t x.slot).tgt i).nds = _
      rw [htgt]
      by_cases hix : i = x.t
      · rw [if_pos ⟨hix.symm, hix ▸ hlt⟩, if_pos hix, nds_ejectif]
      · rw [if_neg fun h => hix h.1.symm, if_neg hix]
    · -- a target that is not there has no interface to lose
      have hsome := hdevs f hf
      rw [← hdev, tgt_default (not_lt.mp hlt)] at hsome
      have hnone : ((default : Aoetgt).ifAt x.slot).nd = none := rfl
      rw [hnone] at hsome
      exact absurd hsome Bool.false_ne_true
  | @expire l f => exact .of_mod (g := Aoetgt.settled f) f.t (nds_settled f _) rfl rfl rfl
  | @resend l f => exact .of_mod f.t (hrot (Aoetgt.resumed f) (fun _ => rfl) _) rfl rfl rfl
  | @strand l f => exact .of_mod f.t (g := Aoetgt.resumed f) rfl rfl rfl rfl
  | takeOver => exact .same (fun _ => rfl) rfl rfl
  | leave => exact .same (fun _ => rfl) rfl rfl
  | @answer l f => exact .of_mod (g := Aoetgt.settled f) f.t (nds_settled f _) rfl rfl rfl
  | @add _ t addr n nd bcnt _ _ _ _ ht =>
    obtain ⟨hnds, -⟩ := newTarget_nds ht
    refine .hold l.targets.length nd (fun j => ?_) rfl rfl
    have hdef : entries (l.tgt l.targets.length).nds = 0 := by
      rw [tgt_default le_rfl]
      rfl
    have htgt : (Traffic.tgt { l with
        targets := l.targets ++ [t], maxbcnt := setdbcntLoop 0 (l.targets ++ [t])
        holds := l.holds ++ [(l.targets.length, nd)] } j) = (l.targets ++ [t]).getD j default := rfl
    rw [htgt]
    rcases Nat.lt_trichotomy j l.targets.length with hj | rfl | hj
    · rw [if_neg (by omega), List.getD_append _ _ _ _ hj]
      rfl
    · rw [if_pos rfl, hdef, List.getD_append_right _ _ _ _ le_rfl, Nat.sub_self]
      exact hnds
    · rw [if_neg (by omega), tgt_default hj.le, List.getD_eq_default _ _ (by simp; omega)]
  | @setif _ i t nd bcnt hi _ hp ht =>
    have hwired : Wired (l.tgt i) := hw _ (mem_of_getD hi)
    obtain ⟨-, hnds⟩ := setifbcntTgt_nds hp hwired.live ht
    have htgt (j : ℕ) := tgt_mod l i j fun _ => t
    rcases hnds with ⟨hloop, hnds⟩ | ⟨hloop, p, hlt, hnone, -, hnds⟩
    · refine .same (fun j => ?_) rfl ?_
      · exact nds_mod l i j hnds
      · dsimp only
        rw [hloop]
        exact List.append_nil _
    · refine .hold i nd (fun j => ?_) rfl ?_
      · change entries ((l.mod i fun _ => t).tgt j).nds = _
        rw [htgt j]
        by_cases hji : j = i
        · rw [if_pos ⟨hji.symm, hji ▸ hi⟩, if_pos hji, hnds, hji]
          exact entries_fill nd (by rw [nds_length hwired.live]; exact hlt) hnone
        · rw [if_neg fun h => hji h.1.symm, if_neg hji]
      · dsimp only
        rw [hloop]
        rfl
  | clean => exact .of_map (g := aoecmdWreset) (fun _ => rfl) rfl rfl rfl
  | down => exact .of_map (g := fun t => { aoecmdWreset t with nout := 0 }) (fun _ => rfl) rfl rfl rfl

theorem Rewiring.balanced (h : Rewiring l l') (hw : ∀ t ∈ l.targets, Wired t) (hb : Balanced l) : Balanced l' := by
  intro i nd
  have hi := hb i nd
  cases h with
  | same hnds he hh =>
    rw [hnds, holdCount, hh, putCount, he]
    exact hi
  | eject x hlt hslot hx hnds he hh =>
    have hwired : Wired (l.tgt x.t) := hw _ (mem_of_getD hlt)
    have hlen : x.slot < (l.tgt x.t).nds.length := by
      rw [nds_length hwired.live]
      exact hslot
    rw [holdCount, hh, putCount, he, List.countP_append, List.countP_singleton, hx, ifAt_nd, hnds]
    by_cases hix : i = x.t
    · subst hix
      rw [if_pos rfl, entries_append_none]
      have hcount := congrArg (Multiset.count nd) (entries_eraseIdx hlen)
      rw [Multiset.count_add] at hcount
      have hone : Multiset.count nd (((l.tgt x.t).nds.getD x.slot none).toList : Multiset NetDev) =
          if decide (x.t = x.t ∧ (l.tgt x.t).nds.getD x.slot none = some nd) then 1 else 0 := by
        cases (l.tgt x.t).nds.getD x.slot none with
        | none => simp
        | some a => simp [Multiset.count_singleton, @eq_comm _ nd a]
      rw [holdCount, putCount, hcount, hone] at hi
      omega
    · have hno : ¬ (x.t = i ∧ (l.tgt x.t).nds.getD x.slot none = some nd) := fun h => hix h.1.symm
      rw [if_neg hix]
      simp only [hno, decide_false, Bool.false_eq_true, if_false, Nat.add_zero]
      exact hi
  | hold j nd' hnds he hh =>
    rw [holdCount, hh, putCount, he, List.count_append, List.count_singleton, hnds]
    rw [holdCount, putCount] at hi
    by_cases hij : i = j
    · subst hij
      rw [if_pos rfl, Multiset.count_cons, hi]
      have hiff : ((i, nd') == (i, nd)) = decide (nd = nd') := by
        by_cases heq : nd = nd'
        · subst heq
          simp
        · have hne : (i, nd') ≠ (i, nd) := fun h => heq (Prod.mk.inj h).2.symm
          rw [beq_eq_false_iff_ne.mpr hne, decide_eq_false heq]
      rw [hiff]
      simp only [decide_eq_true_eq, Nat.add_assoc]
    · have hne : ((j, nd') == (i, nd)) = false := by
        simp [Ne.symm hij]
      rw [if_neg hij, hne]
      simpa using hi

end References

end AoeDriver
