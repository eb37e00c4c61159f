import AoeDriver.Library.Machine
import AoeDriver.Traffic.Events
import AoeDriver.Traffic.Wiring

/-!
# Losses of an interface

The `lost` counts in the slots of one target, over every sequence of config responses, expired frames and responses.
A count is right as long as `ejectif` leaves no loss behind in the last slot, which it vacates without clearing it.
-/

namespace AoeDriver

open Tables Machine

section Steps

/-- The buffers a config response advertises, as far as `aoe_maxout` admits them. -/
def CfgRsp.buffers (c : CfgRsp) (maxout : ℕ) : ℕ := (if c.bufcnt > maxout then maxout else c.bufcnt) % 2^16

/-- A config response of a known target advertises `n` buffers. -/
def Aoetgt.advertised (t : Aoetgt) (n : ℕ) : Aoetgt :=
  let t := { t with nframes := n }
  if n < t.maxout then aoecmdWreset t else t

/-- A response to a read or write that was sent on `nd`. -/
def Aoetgt.answered (t : Aoetgt) (nd : NetDev) : Aoetgt :=
  match getif t (some nd) with
  | some j => { t with ifs := t.ifs.modify j fun x => { x with lost := 0 } }
  | none => t

theorem cfgTgt_known {d : Aoedev} {c : CfgRsp} {t : ℕ} (h : gettgt d c.src = some t) :
    cfgTgt d c = (d.modTgt t fun x => x.advertised (c.buffers d.aoeMaxout), some t) := by
  unfold cfgTgt
  rw [h]
  rfl

theorem runThread_answered (d : Aoedev) (i id : ℕ) (f : Frame) (nd : NetDev) :
    runThread d i (.ktioMid id f (.lost nd)) =
      (d.modTgt f.t fun t => t.answered nd).setThread i (some (.ktioOut id f)) := rfl

/-- `since nd` counts the losses on `nd` since it was added or last answered, `added` lists the `lost` count of each
slot that was filled, and `ejected` the losses on each interface that was taken away with the `nframes` of that time. -/
structure Tally where
  tgt : Aoetgt
  since : NetDev → ℕ
  added : List ℕ
  ejected : List (ℕ × ℕ)

inductive Tally.Event where
  | cfg (maxout : ℕ) (c : CfgRsp)
  | expire (deadsecs utgts n : ℕ) (f : Frame)
  | answer (nd : NetDev)
  | other (t : Aoetgt)

def Tally.hear (s : Tally) (maxout : ℕ) (c : CfgRsp) : Tally :=
  let t := s.tgt.advertised (c.buffers maxout)
  match setifbcntTgt t c.dev (cfgBcnt c.mtu c.scnt) with
  | none => { s with tgt := t }
  | some t' =>
    match getif t (some c.dev), getif t' (some c.dev) with
    | none, some i =>
      { s with tgt := t', since := Function.update s.since c.dev 0, added := s.added ++ [(t'.ifAt i).lost] }
    | _, _ => { s with tgt := t' }

/-- The frame was sent on `nd`; a loss of a probe counts for the target only. -/
def Tally.lose (s : Tally) (deadsecs utgts n : ℕ) (f : Frame) (nd : NetDev) : Tally :=
  let t := expireTgt deadsecs utgts n f s.tgt
  let since := if f.probe then s.since else Function.update s.since nd (s.since nd + 1)
  let gone := (getif s.tgt (some nd)).isSome ∧ getif t (some nd) = none
  { s with tgt := t, since := since, ejected := if gone then s.ejected ++ [(since nd, s.tgt.nframes)] else s.ejected }

/-- A frame in `factive` has been sent on some interface. What else happens to a target leaves its slots and its number
of buffers. -/
def Tally.exec (s : Tally) : Tally.Event → Option Tally
  | .cfg maxout c => some (s.hear maxout c)
  | .expire deadsecs utgts n f => (f.skb.getD default).dev.map (s.lose deadsecs utgts n f)
  | .answer nd => some { s with tgt := s.tgt.answered nd, since := Function.update s.since nd 0 }
  | .other t =>
    if t.ifs = s.tgt.ifs ∧ t.minbcnt = s.tgt.minbcnt ∧ t.nframes = s.tgt.nframes ∧ t.ifp < NAOEIFS then
      some { s with tgt := t }
    else none

/-- The target as `addtgt` and `setifbcnt` make it. -/
def Tally.Start (s : Tally) : Prop :=
  ∃ (addr : Mac) (maxout : ℕ) (c : CfgRsp) (t : Aoetgt),
    setifbcntTgt (newTarget addr (c.buffers maxout)) c.dev (cfgBcnt c.mtu c.scnt) = some t ∧
      s = ⟨t, fun _ => 0, [(t.ifAt 0).lost], []⟩

/-- An interface is taken away only while the last slot is empty, or another interface without losses is in it. -/
def Tally.lastSlotClean (s : Tally) : Tally.Event → Bool
  | .expire _ _ _ f => (ejectSlot f s.tgt).all fun i =>
      (s.tgt.ifAt (NAOEIFS - 1)).nd.isNone || i ≠ NAOEIFS - 1 && (s.tgt.ifAt (NAOEIFS - 1)).lost = 0
  | _ => true

/-- Reached by events that meet the guard. -/
def Tally.ReachedBy (ok : Tally → Tally.Event → Bool) : Tally → Prop :=
  Reach Tally.Start (fun s e s' => s.exec e = some s') fun s e _ => ok s e

end Steps

section Counts

variable {t t' : Aoetgt} {since : NetDev → ℕ} {nd : NetDev}

/-- Every slot has counted the losses of its interface, and an empty slot none. -/
def Counts (since : NetDev → ℕ) (t : Aoetgt) : Prop := ∀ i, (t.ifAt i).lost = (t.ifAt i).nd.elim 0 since

private theorem ifAt_congr (h : t'.ifs = t.ifs) (i : ℕ) : t'.ifAt i = t.ifAt i := by
  rw [Aoetgt.ifAt, Aoetgt.ifAt, h]

theorem Counts.congr (h : Counts since t) (hifs : t'.ifs = t.ifs) : Counts since t' := by
  intro i
  rw [ifAt_congr hifs]
  exact h i

private theorem getif_congr (h : t'.nds = t.nds) (o : Option NetDev) : getif t' o = getif t o := by
  unfold getif
  congr 1
  funext i
  rw [ifAt_nd, ifAt_nd, h]

private theorem getif_none (hlen : t.ifs.length = NAOEIFS) (h : getif t (some nd) = none) (i : ℕ) :
    (t.ifAt i).nd ≠ some nd := by
  by_cases hi : i < NAOEIFS
  · have hall := List.find?_eq_none.mp h i (List.mem_range.mpr hi)
    simpa using hall
  · rw [Aoetgt.ifAt, List.getD_eq_default _ _ (by omega)]
    exact Option.some_ne_none nd |>.symm

private theorem getif_of_nd (hw : Wired t) {i : ℕ} (hi : (t.ifAt i).nd = some nd) : getif t (some nd) = some i := by
  cases hget : getif t (some nd) with
  | none => exact absurd hi (getif_none hw.live.len hget i)
  | some j =>
    have hj := getif_nd hget
    rw [ifAt_nd] at hi hj
    rw [slot_inj hw.distinct hj hi]

private theorem elim_update {o : Option NetDev} (ho : o ≠ some nd) (n : ℕ) :
    o.elim 0 (Function.update since nd n) = o.elim 0 since := by
  cases o with
  | none => rfl
  | some nd' =>
    have hother : nd' ≠ nd := by
      rintro rfl
      exact ho rfl
    exact Function.update_of_ne hother _ _

theorem Counts.elsewhere (h : Counts since t) (hno : ∀ i, (t.ifAt i).nd ≠ some nd) (n : ℕ) :
    Counts (Function.update since nd n) t := by
  intro i
  rw [elim_update (hno i)]
  exact h i

/-- A new count for the one interface whose `since` changes, if it has a slot. -/
theorem Counts.update (hw : Wired t) (h : Counts since t) (nd : NetDev) (n : ℕ) :
    match getif t (some nd) with
    | none => Counts (Function.update since nd n) t
    | some j => Counts (Function.update since nd n) { t with ifs := t.ifs.modify j fun x => { x with lost := n } } := by
  cases hget : getif t (some nd) with
  | none => exact h.elsewhere (getif_none hw.live.len hget) n
  | some j =>
    have hlen : t.ifs.length = NAOEIFS := hw.live.len
    have hlt : j < t.ifs.length := hlen ▸ getif_lt hget
    intro i
    have hat : ({ t with ifs := t.ifs.modify j fun x => { x with lost := n } } : Aoetgt).ifAt i =
        if j = i then { t.ifAt i with lost := n } else t.ifAt i := by
      simp only [Aoetgt.ifAt]
      rw [getD_modify]
      by_cases hji : j = i
      · rw [if_pos ⟨hji, hji ▸ hlt⟩, if_pos hji]
      · rw [if_neg (fun hc => hji hc.1), if_neg hji]
    rw [hat]
    by_cases hji : j = i
    · subst hji
      rw [if_pos rfl]
      simp [getif_nd hget]
    · rw [if_neg hji, elim_update]
      · exact h i
      · intro hnd
        rw [getif_of_nd hw hnd, Option.some.injEq] at hget
        exact hji hget.symm

private theorem ifAt_ejectif (hlen : t.ifs.length = NAOEIFS) {i : ℕ} (hi : i < NAOEIFS) (j : ℕ) :
    (ejectif t i).ifAt j =
      if j < i then t.ifAt j
      else if j < NAOEIFS - 1 then t.ifAt (j + 1)
      else if j = NAOEIFS - 1 then { t.ifAt (NAOEIFS - 1) with nd := none }
      else default := by
  have hlen' : (t.ifs.eraseIdx i).length = NAOEIFS - 1 := by
    rw [List.length_eraseIdx_of_lt (by omega), hlen]
  unfold ejectif Aoetgt.ifAt
  dsimp only
  by_cases hj : j < NAOEIFS - 1
  · rw [List.getD_append _ _ _ _ (by omega), List.getD_eq_getElem _ _ (by omega), List.getElem_eraseIdx]
    by_cases hji : j < i
    · rw [dif_pos hji, if_pos hji, List.getD_eq_getElem _ _ (by omega)]
    · rw [dif_neg hji, if_neg hji, if_pos hj, List.getD_eq_getElem _ _ (by omega)]
  · rw [List.getD_append_right _ _ _ _ (by omega), hlen', if_neg (by omega), if_neg hj]
    by_cases hlast : j = NAOEIFS - 1
    · rw [if_pos hlast, hlast, Nat.sub_self]
      rfl
    · rw [if_neg hlast, List.getD_eq_default _ _ (by simp; omega)]

theorem Counts.eject (hlen : t.ifs.length = NAOEIFS) {i : ℕ} (hi : i < NAOEIFS) (h : Counts since t)
    (hlast : (t.ifAt (NAOEIFS - 1)).lost = 0) : Counts since (ejectif t i) := by
  intro j
  rw [ifAt_ejectif hlen hi]
  split
  · exact h j
  · split
    · exact h (j + 1)
    · split
      · exact hlast
      · rfl

private theorem setifbcntLoop_lost (bcnt n p : ℕ) (ifs : List Aoeif) (o : Option NetDev) (minbcnt : ℕ) :
    (setifbcntLoop bcnt n p ifs o minbcnt).1.map Aoeif.lost = ifs.map Aoeif.lost := by
  induction n generalizing p ifs o minbcnt with
  | zero => rfl
  | succ n ih =>
    unfold setifbcntLoop
    dsimp only
    split
    · rfl
    · split
      · rw [ih]
        exact map_modify_same _ _ (fun x : Aoeif => { x with bcnt := bcnt }) Aoeif.lost fun _ => rfl
      · exact ih _ _ _ _

private theorem setifbcntTgt_lost {bcnt : ℕ} (h : setifbcntTgt t nd bcnt = some t') (i : ℕ) :
    (t'.ifAt i).lost = (t.ifAt i).lost := by
  have hmap : t'.ifs.map Aoeif.lost = t.ifs.map Aoeif.lost := by
    have hloop := setifbcntLoop_lost bcnt NAOEIFS 0 t.ifs (some nd) bcnt
    unfold setifbcntTgt at h
    generalize setifbcntLoop bcnt NAOEIFS 0 t.ifs (some nd) bcnt = r at h hloop
    obtain ⟨ifs, o, minbcnt, p⟩ := r
    cases o with
    | none =>
      rw [Option.some.injEq] at h
      rw [← h]
      exact hloop
    | some nd' =>
      dsimp only at h
      split at h
      · exact absurd h (by simp)
      · rw [Option.some.injEq] at h
        rw [← h]
        rw [← hloop]
        exact map_modify_same _ _ (fun x : Aoeif => { x with nd := some nd', bcnt := bcnt }) Aoeif.lost fun _ => rfl
  have hget (t : Aoetgt) : (t.ifAt i).lost = (t.ifs.map Aoeif.lost).getD i 0 := (List.getD_map t.ifs default Aoeif.lost).symm
  rw [hget, hget, hmap]

/-- A config response leaves all counts right. The slot of an interface that had none has no losses. -/
theorem Counts.setif {bcnt : ℕ} (hp : Payload bcnt) (hw : Wired t) (h : Counts since t)
    (hset : setifbcntTgt t nd bcnt = some t') :
    (getif t (some nd)).isSome ∧ Counts since t' ∨
      getif t (some nd) = none ∧ Counts (Function.update since nd 0) t' ∧
        ∀ i, (t'.ifAt i).nd = some nd → (t'.ifAt i).lost = 0 := by
  have hlost := setifbcntTgt_lost hset
  have hmem {j : ℕ} (hget : getif t (some nd) = some j) : nd ∈ entries t.nds := by
    have hj := getif_nd hget
    have hlt : j < t.nds.length := by
      rw [nds_length hw.live]
      exact getif_lt hget
    rw [ifAt_nd, List.getD_eq_getElem _ _ hlt] at hj
    exact mem_entries.mpr (hj ▸ List.getElem_mem hlt)
  obtain ⟨-, ⟨-, hnds⟩ | ⟨-, p, hlt, hnone, hmiss, hnds⟩⟩ := setifbcntTgt_nds hp hw.live hset
  · have hcounts : Counts since t' := by
      intro i
      rw [hlost, ifAt_nd, hnds, ← ifAt_nd]
      exact h i
    cases hget : getif t (some nd) with
    | some j => exact .inl ⟨rfl, hcounts⟩
    | none =>
      have hno (i : ℕ) : (t'.ifAt i).nd ≠ some nd := by
        rw [ifAt_nd, hnds, ← ifAt_nd]
        exact getif_none hw.live.len hget i
      exact .inr ⟨rfl, hcounts.elsewhere hno 0, fun i hi => absurd hi (hno i)⟩
  · have hget : getif t (some nd) = none := by
      cases hget : getif t (some nd) with
      | none => rfl
      | some j => exact absurd (hmem hget) hmiss
    have hat (i : ℕ) : (t'.ifAt i).nd = if p = i then some nd else (t.ifAt i).nd := by
      have hlt' : p < t.nds.length := by
        rw [nds_length hw.live]
        exact hlt
      have hmod := getD_modify t.nds p i fun _ => some nd
      rw [ifAt_nd, ifAt_nd, hnds]
      refine hmod.trans ?_
      by_cases hpi : p = i
      · rw [if_pos ⟨hpi, hpi ▸ hlt'⟩, if_pos hpi]
      · rw [if_neg (fun hc => hpi hc.1), if_neg hpi]
        rfl
    have hzero : (t.ifAt p).lost = 0 := by
      rw [h p, ifAt_nd, hnone]
      rfl
    refine .inr ⟨hget, ?_, ?_⟩
    · intro i
      rw [hlost, hat]
      by_cases hpi : p = i
      · subst hpi
        rw [if_pos rfl, hzero]
        simp
      · rw [if_neg hpi, elim_update (getif_none hw.live.len hget i)]
        exact h i
    · intro i hi
      rw [hat] at hi
      by_cases hpi : p = i
      · rw [hlost, ← hpi, hzero]
      · rw [if_neg hpi] at hi
        exact absurd hi (getif_none hw.live.len hget i)

end Counts

section Runs

variable {t t' : Aoetgt} {f : Frame} {since : NetDev → ℕ} {nd : NetDev} {s s' : Tally}

private theorem nds_setLost (t : Aoetgt) (i n : ℕ) :
    { t with ifs := t.ifs.modify i fun x => { x with lost := n } }.nds = t.nds :=
  map_modify_same _ _ (fun x : Aoeif => { x with lost := n }) Aoeif.nd fun _ => rfl

theorem Wired.setLost (h : Wired t) (i n : ℕ) :
    Wired { t with ifs := t.ifs.modify i fun x => { x with lost := n } } := by
  refine ⟨live_setLost i n h.live, h.ifp, ?_⟩
  rw [nds_setLost]
  exact h.distinct

/-- One loss on `nd`. -/
theorem Counts.lost (hw : Wired t) (h : Counts since t) (hdev : (f.skb.getD default).dev = some nd)
    (hp : f.probe = false)
    (hlast : ∀ i, ejectSlot f t = some i →
      (t.ifAt (NAOEIFS - 1)).nd = none ∨ i ≠ NAOEIFS - 1 ∧ (t.ifAt (NAOEIFS - 1)).lost = 0) :
    Wired (countLost f t) ∧ Counts (Function.update since nd (since nd + 1)) (countLost f t) ∧
      ((getif t (some nd)).isSome → getif (countLost f t) (some nd) = none → 2 * t.nframes < since nd + 1) := by
  have hcount := h.update hw nd (since nd + 1)
  unfold countLost
  rw [hdev]
  cases hget : getif t (some nd) with
  | none =>
    rw [hget] at hcount
    exact ⟨hw, hcount, fun hsome => absurd hsome (by simp)⟩
  | some i =>
    rw [hget] at hcount
    have hi : (t.ifAt i).lost = since nd := by
      rw [h i, getif_nd hget]
      rfl
    dsimp only
    rw [hi]
    have hw' := hw.setLost i (since nd + 1)
    have hnds := nds_setLost t i (since nd + 1)
    split
    · rename_i hc
      obtain ⟨hmany, hne⟩ := hc
      refine ⟨hw'.eject (getif_lt hget) hne, hcount.eject hw'.live.len (getif_lt hget) ?_, fun _ _ => ?_⟩
      · have hslot : ejectSlot f t = some i := by
          rw [ifAt_nd, hnds, ← ifAt_nd] at hne
          unfold ejectSlot
          rw [hdev, hget]
          dsimp only
          rw [if_pos ⟨by simp [hp], hi.symm ▸ hmany, hne⟩]
        obtain ⟨hother, hzero⟩ : i ≠ NAOEIFS - 1 ∧ (t.ifAt (NAOEIFS - 1)).lost = 0 := by
          rcases hlast i hslot with hempty | hclean
          · refine ⟨?_, ?_⟩
            · rintro rfl
              rw [getif_nd hget] at hempty
              exact absurd hempty (by simp)
            · rw [h, hempty]
              rfl
          · exact hclean
        simp only [Aoetgt.ifAt]
        rw [getD_modify, if_neg (fun hc => hother hc.1)]
        exact hzero
      · rw [Nat.shiftLeft_eq] at hmany
        omega
    · refine ⟨hw', hcount, fun _ hgone => ?_⟩
      rw [getif_congr hnds, hget] at hgone
      exact absurd hgone (by simp)

private theorem expireTgt_eq (deadsecs utgts n : ℕ) (f : Frame) (t : Aoetgt) :
    ∃ t', t'.ifs = t.ifs ∧ t'.minbcnt = t.minbcnt ∧ t'.ifp = t.ifp ∧ t'.nframes = t.nframes ∧
      expireTgt deadsecs utgts n f t =
        if f.probe then { t' with noutProbes := decChar t'.noutProbes } else countLost f t' := by
  unfold expireTgt
  extract_lets t₁ t₂ t₃
  have h₁ : t₁.ifs = t.ifs ∧ t₁.minbcnt = t.minbcnt ∧ t₁.ifp = t.ifp ∧ t₁.nframes = t.nframes := by
    simp only [t₁]
    split
    · exact ⟨rfl, rfl, rfl, rfl⟩
    · exact ⟨rfl, rfl, rfl, rfl⟩
  have h₃ : t₃.ifs = t.ifs ∧ t₃.minbcnt = t.minbcnt ∧ t₃.ifp = t.ifp ∧ t₃.nframes = t.nframes := by
    simp only [t₃, t₂]
    split
    · exact h₁
    · exact h₁
  exact ⟨t₃, h₃.1, h₃.2.1, h₃.2.2.1, h₃.2.2.2, rfl⟩

/-- Every slot counts the losses since its interface was added or last answered, no interface was added with losses,
and none was ejected that had not lost more than two frames for each buffer of the target. -/
structure Tally.Clean (s : Tally) : Prop where
  wired : Wired s.tgt
  counts : Counts s.since s.tgt
  added : ∀ n ∈ s.added, n = 0
  ejected : ∀ x ∈ s.ejected, 2 * x.2 < x.1

theorem Tally.Clean.start (h : s.Start) : s.Clean := by
  obtain ⟨addr, maxout, c, t, hset, rfl⟩ := h
  have hp := cfgBcnt_payload c.mtu c.scnt
  have hlt : c.buffers maxout < 2^16 := Nat.mod_lt _ (by decide)
  have hw : Wired t := (wired_kept (G := Gate.any)).add t addr _ c.dev _ trivial hlt hp hset
  have hlost (i : ℕ) : (t.ifAt i).lost = 0 := by
    rw [setifbcntTgt_lost hset]
    have hfresh : (newTarget addr (c.buffers maxout)).ifs = List.replicate NAOEIFS default := rfl
    rw [Aoetgt.ifAt, hfresh, List.getD_eq_getElem?_getD, List.getElem?_getD_replicate_default_eq]
    rfl
  refine ⟨hw, ?_, ?_, ?_⟩
  · intro i
    rw [hlost]
    cases (t.ifAt i).nd with
    | none => rfl
    | some nd => rfl
  · simpa using hlost 0
  · simp

private theorem wired_advertised (h : Wired t) (n : ℕ) : Wired (t.advertised n) ∧ (t.advertised n).ifs = t.ifs := by
  unfold Aoetgt.advertised
  dsimp only
  split
  · exact ⟨h.congr rfl rfl, rfl⟩
  · exact ⟨h.congr rfl rfl, rfl⟩

theorem Tally.Clean.hear (h : s.Clean) (maxout : ℕ) (c : CfgRsp) : (s.hear maxout c).Clean := by
  obtain ⟨hw, hifs⟩ := wired_advertised h.wired (c.buffers maxout)
  unfold Tally.hear
  extract_lets t
  have hcount : Counts s.since t := h.counts.congr hifs
  cases hset : setifbcntTgt t c.dev (cfgBcnt c.mtu c.scnt) with
  | none => exact ⟨hw, hcount, h.added, h.ejected⟩
  | some t' =>
    have hp := cfgBcnt_payload c.mtu c.scnt
    have hw' := hw.setif hp hset
    dsimp only
    rcases hcount.setif hp hw hset with ⟨hsome, hcount'⟩ | ⟨hnone, hcount', hzero⟩
    · obtain ⟨j, hj⟩ := Option.isSome_iff_exists.mp hsome
      rw [hj]
      exact ⟨hw', hcount', h.added, h.ejected⟩
    · rw [hnone]
      cases hget : getif t' (some c.dev) with
      | none =>
        have hcount (i : ℕ) := (hcount' i).trans (elim_update (getif_none hw'.live.len hget i) 0)
        exact ⟨hw', hcount, h.added, h.ejected⟩
      | some i =>
        refine ⟨hw', hcount', ?_, h.ejected⟩
        intro n hn
        rcases List.mem_append.mp hn with hn | hn
        · exact h.added n hn
        · rw [List.mem_singleton.mp hn]
          exact hzero i (getif_nd hget)

private theorem ejectSlot_congr (hifs : t'.ifs = t.ifs) (hnf : t'.nframes = t.nframes) :
    ejectSlot f t' = ejectSlot f t := by
  have hnds : t'.nds = t.nds := congrArg (List.map Aoeif.nd) hifs
  unfold ejectSlot
  rw [getif_congr hnds, hnf]
  simp only [ifAt_congr hifs]

theorem Tally.Clean.lose (h : s.Clean) (deadsecs utgts n : ℕ) (hdev : (f.skb.getD default).dev = some nd)
    (hok : s.lastSlotClean (.expire deadsecs utgts n f)) : (s.lose deadsecs utgts n f nd).Clean := by
  obtain ⟨t, hifs, hmin, hifp, hnf, heq⟩ := expireTgt_eq deadsecs utgts n f s.tgt
  have hw : Wired t := h.wired.congr (by rw [Aoetgt.wires, hifs, hmin]; rfl) hifp
  have hcount : Counts s.since t := h.counts.congr hifs
  have hnds : t.nds = s.tgt.nds := congrArg (List.map Aoeif.nd) hifs
  have hlist {p : Prop} [Decidable p] {a b : ℕ} (hp : p → 2 * b < a) :
      ∀ x ∈ if p then s.ejected ++ [(a, b)] else s.ejected, 2 * x.2 < x.1 := by
    intro x hx
    split at hx
    · rename_i hc
      rcases List.mem_append.mp hx with hx | hx
      · exact h.ejected x hx
      · rw [List.mem_singleton.mp hx]
        exact hp hc
    · exact h.ejected x hx
  unfold Tally.lose
  dsimp only
  rw [heq, ← getif_congr hnds]
  cases hp : f.probe with
  | true =>
    rw [if_pos rfl, if_pos rfl]
    refine ⟨hw.congr rfl rfl, hcount.congr rfl, h.added, hlist fun hgone => ?_⟩
    have hsome : (getif t (some nd)).isSome := hgone.1
    have hnone : getif t (some nd) = none := hgone.2
    exact absurd hsome (by simp [hnone])
  | false =>
    rw [if_neg Bool.false_ne_true, if_neg Bool.false_ne_true]
    have hlast (i : ℕ) (hi : ejectSlot f t = some i) :
        (t.ifAt (NAOEIFS - 1)).nd = none ∨ i ≠ NAOEIFS - 1 ∧ (t.ifAt (NAOEIFS - 1)).lost = 0 := by
      rw [ejectSlot_congr hifs hnf] at hi
      rw [Tally.lastSlotClean, hi] at hok
      rw [ifAt_congr hifs]
      simpa using hok
    obtain ⟨hw', hcount', hmany⟩ := hcount.lost hw hdev hp hlast
    refine ⟨hw', hcount', h.added, hlist fun hgone => ?_⟩
    rw [Function.update_self, ← hnf]
    exact hmany hgone.1 hgone.2

theorem Tally.Clean.step {e : Tally.Event} (h : s.Clean) (hok : s.lastSlotClean e) (hstep : s.exec e = some s') :
    s'.Clean := by
  cases e with
  | cfg maxout c =>
    simp only [Tally.exec, Option.some.injEq] at hstep
    exact hstep ▸ h.hear maxout c
  | expire deadsecs utgts n f =>
    simp only [Tally.exec, Option.map_eq_some_iff] at hstep
    obtain ⟨nd, hdev, rfl⟩ := hstep
    exact h.lose deadsecs utgts n hdev hok
  | answer nd =>
    simp only [Tally.exec, Option.some.injEq] at hstep
    subst hstep
    have hcount := h.counts.update h.wired nd 0
    unfold Aoetgt.answered
    cases hget : getif s.tgt (some nd) with
    | none =>
      rw [hget] at hcount
      exact ⟨h.wired, hcount, h.added, h.ejected⟩
    | some j =>
      rw [hget] at hcount
      exact ⟨h.wired.setLost j 0, hcount, h.added, h.ejected⟩
  | other t =>
    simp only [Tally.exec] at hstep
    split at hstep
    · rename_i hc
      obtain ⟨hifs, hmin, -, hifp⟩ := hc
      rw [Option.some.injEq] at hstep
      subst hstep
      refine ⟨⟨?_, hifp, ?_⟩, h.counts.congr hifs, h.added, h.ejected⟩
      · rw [Aoetgt.wires, hifs, hmin]
        exact h.wired.live
      · rw [Aoetgt.nds, hifs]
        exact h.wired.distinct
    · exact absurd hstep (by simp)

/-- As long as every ejection finds the last slot empty or another interface without losses in it, every interface that
is added starts with a count of 0, and is ejected only after more than `2 * nframes` losses since it was added or last
answered. -/
theorem losses_since_added (h : s.ReachedBy Tally.lastSlotClean) : (∀ n ∈ s.added, n = 0) ∧ ∀ x ∈ s.ejected, 2 * x.2 < x.1 := by
  have hclean : s.Clean := h.invariant (fun _ => Tally.Clean.start) fun _ _ _ _ hc hok hstep => hc.step hok hstep
  exact ⟨hclean.added, hclean.ejected⟩

/-- A config response over interface `i` that advertises one buffer. -/
def heardOn (i : ℕ) : CfgRsp := { src := 1, dev := ⟨i, 5⟩, mtu := 1500, bufcnt := 1, fwver := 0, scnt := 2 }

/-- A read or write that was sent on interface `i`. -/
def sentOn (i : ℕ) : Frame := { (default : Frame) with skb := some { (default : Skb) with dev := some ⟨i, 5⟩ } }

def tallyStart : Tally where
  tgt := (setifbcntTgt (newTarget 1 1) (heardOn 0).dev (cfgBcnt 1500 2)).getD default
  since := fun _ => 0
  added := [0]
  ejected := []

private theorem tallyStart_start : tallyStart.Start := ⟨1, 16, heardOn 0, _, rfl, rfl⟩

/-- Interface `i` loses `n` frames. -/
def losing (i n : ℕ) : List Tally.Event := List.replicate n (.expire 180 1 0 (sentOn i))

/-- The second of two interfaces is ejected, added again and ejected again. -/
def twiceEjected : List Tally.Event :=
  .cfg 16 (heardOn 1) :: losing 1 3 ++ .cfg 16 (heardOn 1) :: losing 1 2 ++ .answer ⟨1, 5⟩ :: losing 1 3

theorem losses_since_added_sample : ∃ s : Tally, s.ReachedBy Tally.lastSlotClean ∧ s.ejected = [(3, 1), (3, 1)] ∧
    (∀ n ∈ s.added, n = 0) ∧ ∀ x ∈ s.ejected, 2 * x.2 < x.1 := by
  obtain ⟨s, hs⟩ : ∃ s, execute (guarded Tally.exec Tally.lastSlotClean) tallyStart twiceEjected = some s := ⟨_, rfl⟩
  have htest : (execute (guarded Tally.exec Tally.lastSlotClean) tallyStart twiceEjected).map Tally.ejected =
      some [(3, 1), (3, 1)] := by decide +kernel
  rw [hs, Option.map_some, Option.some.injEq] at htest
  have hreach : s.ReachedBy Tally.lastSlotClean :=
    Reach.guarded Tally.exec Tally.lastSlotClean (fun _ _ _ he => he) twiceEjected (.init tallyStart_start) hs
  exact ⟨s, hreach, htest, losses_since_added hreach⟩

/-- All eight slots are filled, and the interface in the last one is ejected, added again and loses one frame. -/
def lastEjected : List Tally.Event :=
  ((List.range 7).map fun i => .cfg 16 (heardOn (i + 1))) ++ losing 7 3 ++ .cfg 16 (heardOn 7) :: losing 7 1

/-- The slot still counts the three losses for which the interface was ejected, and one more ejects it again. -/
theorem losses_left_behind : ∃ s : Tally, s.ReachedBy (fun _ _ => true) ∧ 3 ∈ s.added ∧ (1, 1) ∈ s.ejected := by
  obtain ⟨s, hs⟩ : ∃ s, execute (guarded Tally.exec fun _ _ => true) tallyStart lastEjected = some s := ⟨_, rfl⟩
  have htest : (execute (guarded Tally.exec fun _ _ => true) tallyStart lastEjected).map
      (fun s => (s.added.getLast?, s.ejected)) = some (some 3, [(3, 1), (1, 1)]) := by decide +kernel
  rw [hs, Option.map_some, Option.some.injEq, Prod.mk.injEq] at htest
  refine ⟨s, Reach.guarded Tally.exec _ (fun _ _ _ he => he) lastEjected (.init tallyStart_start) hs, ?_, ?_⟩
  · exact List.mem_of_getLast? htest.1
  · simp [htest.2]

end Runs

end AoeDriver
