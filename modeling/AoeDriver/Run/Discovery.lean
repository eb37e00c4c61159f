import AoeDriver.Run.Threads

/-!
# Config responses

A config response may add a target or give one another interface. Every target has an interface in slot 0 by the
time the lock is free, and all payload sizes are whole sectors.
-/

namespace AoeDriver

open Tables

theorem cfgBcnt_payload (mtu scnt : ℕ) : Payload (cfgBcnt mtu scnt) := by
  unfold cfgBcnt
  extract_lets n₀ n₁ n₂
  have h₀ : n₀ < 2^16 := Nat.mod_lt _ (by norm_num)
  have h₁ : n₁ ≤ 127 := by
    simp only [n₁]
    omega
  have h₂ : n₂ ≤ 127 := by
    simp only [n₂]
    split
    · omega
    · exact h₁
  split
  · refine ⟨?_, n₂, h₂, ?_⟩
    · omega
    · omega
  · exact ⟨by norm_num [DEFAULTBCNT], 2, by norm_num, rfl⟩

section Setif

/-- The loop of `setifbcnt` at slot `p`: it has passed interfaces only, and `minbcnt` suits them and the new size. -/
structure Passed (bcnt : ℕ) (ifs : List Aoeif) (minbcnt p : ℕ) : Prop where
  sizes : ∀ x ∈ ifs, x.nd.isSome → Payload x.bcnt
  payload : Payload minbcnt
  le : minbcnt ≤ bcnt
  before : ∀ j < p, (ifs.getD j default).nd.isSome ∧ minbcnt ≤ (ifs.getD j default).bcnt

theorem Passed.known {bcnt : ℕ} {ifs : List Aoeif} {minbcnt p : ℕ} (hw : Payload bcnt) (h : Passed bcnt ifs minbcnt p)
    (hp : (ifs.getD p default).nd.isSome) :
    Passed bcnt (ifs.modify p fun x => { x with bcnt := bcnt }) minbcnt (p + 1) := by
  have hlt : p < ifs.length := by
    by_contra hge
    rw [List.getD_eq_default _ _ (Nat.le_of_not_lt hge)] at hp
    exact absurd hp Bool.false_ne_true
  refine ⟨forall_mem_modify h.sizes fun _ _ _ => hw, h.payload, h.le, fun j hj => ?_⟩
  rw [getD_modify]
  split
  · rename_i heq
    exact ⟨heq.1 ▸ hp, h.le⟩
  · rename_i hne
    have hj' : j < p := by
      rcases Nat.lt_succ_iff_lt_or_eq.mp hj with hj | rfl
      · exact hj
      · exact absurd ⟨rfl, hlt⟩ hne
    exact h.before j hj'

theorem Passed.other {bcnt : ℕ} {ifs : List Aoeif} {minbcnt p : ℕ} (h : Passed bcnt ifs minbcnt p)
    (hp : (ifs.getD p default).nd.isSome) :
    Passed bcnt ifs (if minbcnt > (ifs.getD p default).bcnt then (ifs.getD p default).bcnt else minbcnt) (p + 1) := by
  have hlt : p < ifs.length := by
    by_contra hge
    rw [List.getD_eq_default _ _ (Nat.le_of_not_lt hge)] at hp
    exact absurd hp Bool.false_ne_true
  have hmem := h.sizes _ (mem_of_getD hlt) hp
  have hmin : (if minbcnt > (ifs.getD p default).bcnt then (ifs.getD p default).bcnt else minbcnt) ≤ minbcnt := by
    split
    · omega
    · exact le_rfl
  refine ⟨h.sizes, ?_, hmin.trans h.le, fun j hj => ?_⟩
  · split
    · exact hmem
    · exact h.payload
  · rcases Nat.lt_succ_iff_lt_or_eq.mp hj with hj | rfl
    · exact ⟨(h.before j hj).1, hmin.trans (h.before j hj).2⟩
    · refine ⟨hp, ?_⟩
      split
      · exact le_rfl
      · omega

/-- Where the loop of `setifbcnt` stops. -/
theorem setifbcntLoop_passed {bcnt : ℕ} (hw : Payload bcnt) (n p : ℕ) {ifs : List Aoeif} (nd : Option NetDev)
    {minbcnt : ℕ} (hn : p + n = ifs.length) (h : Passed bcnt ifs minbcnt p) :
    let r := setifbcntLoop bcnt n p ifs nd minbcnt
    r.1.map Aoeif.nd = ifs.map Aoeif.nd ∧ Passed bcnt r.1 r.2.2.1 r.2.2.2 ∧
      (r.2.2.2 = ifs.length ∨ r.2.2.2 < ifs.length ∧ (ifs.getD r.2.2.2 default).nd = none) := by
  induction n generalizing p ifs nd minbcnt with
  | zero => exact ⟨rfl, h, .inl hn⟩
  | succ n ih =>
    unfold setifbcntLoop
    dsimp only
    split
    · rename_i hnone
      exact ⟨rfl, h, .inr ⟨by dsimp only; omega, hnone⟩⟩
    · rename_i hsome
      have hsome' := Option.isSome_iff_ne_none.mpr hsome
      split
      · have hsame : (ifs.modify p fun x => { x with bcnt := bcnt }).map Aoeif.nd = ifs.map Aoeif.nd :=
          map_modify_same _ _ _ _ fun _ => rfl
        have hget (j : ℕ) : ((ifs.modify p fun x => { x with bcnt := bcnt }).getD j default).nd =
            (ifs.getD j default).nd := by
          rw [getD_modify]
          split
          · rfl
          · rfl
        obtain ⟨h₁, h₂, h₃⟩ := ih (p + 1) none (by rw [List.length_modify]; omega) (h.known hw hsome')
        refine ⟨h₁.trans hsame, h₂, ?_⟩
        rwa [List.length_modify, hget] at h₃
      · exact ih (p + 1) nd (by omega) (h.other hsome')

/-- The slots of a new target. -/
def freshIfs : List Aoeif := List.replicate NAOEIFS default

theorem setifbcntTgt_fresh {t : Aoetgt} (nd : NetDev) {bcnt : ℕ} (hw : Payload bcnt) (ht : t.ifs = freshIfs) :
    ∃ w, Live w ∧ setifbcntTgt t nd bcnt = some { t with ifs := w.ifs, minbcnt := w.minbcnt } := by
  refine ⟨⟨freshIfs.modify 0 fun x => { x with nd := some nd, bcnt := bcnt }, bcnt⟩, ⟨rfl, rfl, ?_, ?_, hw⟩, ?_⟩
  · simp [freshIfs, NAOEIFS, List.replicate, default]
  · intro x hx hsome
    have hx' : x = { (default : Aoeif) with nd := some nd, bcnt := bcnt } ∨ x = default := by
      simpa [freshIfs, NAOEIFS, List.replicate] using hx
    rcases hx' with rfl | rfl
    · exact ⟨hw, le_rfl⟩
    · exact absurd hsome Bool.false_ne_true
  · rw [setifbcntTgt, ht]
    rfl

private theorem packed_fill {l : List (Option NetDev)} {p : ℕ} (nd : NetDev)
    (h : l.Pairwise fun a b => b.isSome → a.isSome) (hbefore : ∀ j < p, (l.getD j none).isSome) :
    (l.modify p fun _ => some nd).Pairwise fun a b => b.isSome → a.isSome := by
  rw [List.pairwise_iff_getElem] at h ⊢
  intro i j hi hj hij hsome
  rw [List.length_modify] at hi hj
  rw [List.getElem_modify]
  split
  · rfl
  · rw [List.getElem_modify] at hsome
    split at hsome
    · rename_i hpj
      have hb := hbefore i (hpj ▸ hij)
      rwa [List.getD_eq_getElem _ _ hi] at hb
    · exact h i j hi hj hij hsome

theorem packed_none {l : List (Option NetDev)} {p j : ℕ} (h : l.Pairwise fun a b => b.isSome → a.isSome)
    (hp : l.getD p none = none) (hpj : p ≤ j) (hj : j < l.length) : l.getD j none = none := by
  rcases Nat.eq_or_lt_of_le hpj with rfl | hlt
  · exact hp
  · rw [List.pairwise_iff_getElem] at h
    have hp' : p < l.length := hlt.trans hj
    have himp := h p j hp' hj hlt
    rw [List.getD_eq_getElem _ _ hp'] at hp
    rw [List.getD_eq_getElem _ _ hj]
    cases hl : l[j] with
    | none => rfl
    | some a =>
      rw [hl, hp] at himp
      exact absurd (himp rfl) Bool.false_ne_true

theorem setifbcntTgt_live {t t' : Aoetgt} {nd : NetDev} {bcnt : ℕ} (hw : Payload bcnt) (ht : Live t.wires)
    (hset : setifbcntTgt t nd bcnt = some t') :
    ∃ w, Live w ∧ t' = { t with ifs := w.ifs, minbcnt := w.minbcnt } := by
  have hlen : t.ifs.length = NAOEIFS := ht.len
  have hpacked : (t.ifs.map Aoeif.nd).Pairwise fun a b => b.isSome → a.isSome := ht.packed
  have hfirst : (t.ifs.getD 0 default).nd.isSome := ht.first
  have hstart : Passed bcnt t.ifs bcnt 0 := ⟨fun x hx hs => (ht.bcnt x hx hs).1, hw, le_rfl, by simp⟩
  obtain ⟨hnd, hpassed, hstop⟩ := setifbcntLoop_passed hw NAOEIFS 0 (some nd) (by rw [hlen, zero_add]) hstart
  unfold setifbcntTgt at hset
  generalize setifbcntLoop bcnt NAOEIFS 0 t.ifs (some nd) bcnt = r at hnd hpassed hstop hset
  obtain ⟨ifs, o, minbcnt, p⟩ := r
  dsimp only at hnd hpassed hstop hset
  have hlen' : ifs.length = NAOEIFS := by
    have hl := congrArg List.length hnd
    rw [List.length_map, List.length_map, hlen] at hl
    exact hl
  have hget (j : ℕ) : (ifs.getD j default).nd = (t.ifs.getD j default).nd := by
    have hj : (ifs.map Aoeif.nd).getD j (default : Aoeif).nd = (t.ifs.map Aoeif.nd).getD j (default : Aoeif).nd := by
      rw [hnd]
    rwa [List.getD_map, List.getD_map] at hj
  -- interfaces stand before slot `p` only
  have hbound : ∀ x ∈ ifs, x.nd.isSome → minbcnt ≤ x.bcnt := by
    intro x hx hs
    obtain ⟨j, hj, rfl⟩ := List.getElem_of_mem hx
    have hjp : j < p := by
      by_contra hge
      rcases hstop with hp | ⟨hp, hnone⟩
      · omega
      · have hpn : (t.ifs.map Aoeif.nd).getD p none = none := (List.getD_map t.ifs default Aoeif.nd).trans hnone
        have hjn := packed_none hpacked hpn (Nat.le_of_not_lt hge) (by rw [List.length_map]; omega)
        have hjn' : (ifs.getD j default).nd = none := by
          rw [hget]
          exact (List.getD_map t.ifs default Aoeif.nd).symm.trans hjn
        rw [List.getD_eq_getElem _ _ hj] at hjn'
        rw [hjn'] at hs
        exact absurd hs Bool.false_ne_true
    have hb := (hpassed.before j hjp).2
    rwa [List.getD_eq_getElem _ _ hj] at hb
  cases o with
  | none =>
    rw [Option.some.injEq] at hset
    refine ⟨⟨ifs, minbcnt⟩, ⟨hlen', ?_, hnd ▸ hpacked, fun x hx hs => ⟨hpassed.sizes x hx hs, hbound x hx hs⟩,
      hpassed.payload⟩, hset.symm⟩
    dsimp only
    rw [hget]
    exact hfirst
  | some nd' =>
    dsimp only at hset
    split at hset
    · exact absurd hset (by simp)
    · rw [Option.some.injEq] at hset
      refine ⟨⟨ifs.modify p fun x => { x with nd := some nd', bcnt := bcnt }, minbcnt⟩, ⟨?_, ?_, ?_, ?_,
        hpassed.payload⟩, hset.symm⟩
      · rw [List.length_modify, hlen']
      · dsimp only
        rw [getD_modify]
        split
        · rfl
        · rw [hget]
          exact hfirst
      · dsimp only
        rw [map_modify _ _ _ (fun _ => some nd') Aoeif.nd fun _ => rfl, hnd]
        refine packed_fill nd' hpacked fun j hj => ?_
        have hb := (hpassed.before j hj).1
        rw [hget] at hb
        exact (congrArg Option.isSome (List.getD_map t.ifs default Aoeif.nd)).trans hb
      · have hall : ∀ x ∈ ifs, x.nd.isSome → Payload x.bcnt ∧ minbcnt ≤ x.bcnt :=
          fun x hx hs => ⟨hpassed.sizes x hx hs, hbound x hx hs⟩
        exact forall_mem_modify hall fun _ _ _ => ⟨hw, hpassed.le⟩

theorem setdbcntLoop_bounded {bcnt : ℕ} (hb : WholeSectors bcnt) (ts : List Aoetgt)
    (ht : ∀ t ∈ ts, Payload t.minbcnt) : WholeSectors (setdbcntLoop bcnt ts) ∧
      (∀ t ∈ ts, setdbcntLoop bcnt ts ≤ t.minbcnt) ∧ (0 < bcnt → setdbcntLoop bcnt ts ≤ bcnt) := by
  induction ts generalizing bcnt with
  | nil => exact ⟨hb, by simp, fun _ => le_rfl⟩
  | cons t ts ih =>
    have hhead : Payload t.minbcnt := ht t List.mem_cons_self
    have htail : ∀ x ∈ ts, Payload x.minbcnt := fun x hx => ht x (List.mem_cons_of_mem _ hx)
    unfold setdbcntLoop
    split
    · rename_i hc
      obtain ⟨h₁, h₂, h₃⟩ := ih hhead.2 htail
      refine ⟨h₁, ?_, fun hpos => (h₃ hhead.1).trans (by omega)⟩
      intro x hx
      rcases List.mem_cons.mp hx with rfl | hx
      · exact h₃ hhead.1
      · exact h₂ x hx
    · rename_i hc
      obtain ⟨h₁, h₂, h₃⟩ := ih hb htail
      refine ⟨h₁, ?_, h₃⟩
      intro x hx
      rcases List.mem_cons.mp hx with rfl | hx
      · exact (h₃ (by omega)).trans (by omega)
      · exact h₂ x hx

end Setif

section Cfg

variable {C : Cond} {d : Aoedev}

theorem live_of_good (hg : Good 0 d) {t : Aoetgt} (ht : t ∈ d.targets) : Live t.wires := by
  obtain ⟨i, hi, rfl⟩ := List.getElem_of_mem ht
  have hl := hg.inv.live i (by simpa using hi)
  rw [slot_ledger, Aoedev.tgtAt, List.getD_eq_getElem _ _ hi] at hl
  exact hl

private theorem setdbcnt_bounded (h : Hands) (ht : ∀ t ∈ d.targets, Payload t.minbcnt) :
    Bounded (setdbcnt d).maxbcnt ((setdbcnt d).ledger h).slots := by
  obtain ⟨hwhole, hle, -⟩ := setdbcntLoop_bounded ⟨0, by norm_num, rfl⟩ d.targets ht
  refine ⟨hwhole, fun _ s hs => ?_⟩
  obtain ⟨t, ht, rfl⟩ := List.mem_map.mp hs
  exact hle t ht

/-- Nothing but the interfaces of targets and `maxbcnt` has changed. -/
structure Rewired (C : Cond) (d d' : Aoedev) : Prop extends Runs C 0 d 0 d' where
  outer : ∃ n, d'.blk.outer = { d.blk.outer with maxbcnt := n }

theorem Rewired.trans {d' d'' : Aoedev} (r : Rewired C d d') (r' : Rewired C d' d'') : Rewired C d d'' := by
  refine ⟨r.toRuns.trans r'.toRuns, ?_⟩
  obtain ⟨n, hn⟩ := r.outer
  obtain ⟨m, hm⟩ := r'.outer
  exact ⟨m, by rw [hm, hn]⟩

theorem Inner.rewired {d' : Aoedev} (r : Inner C 0 d 0 d') : Rewired C d d' := ⟨r.toRuns, d.maxbcnt, r.outer⟩

private theorem setdbcnt_rewired {d' : Aoedev} (hs : Shift C (d.ledger 0) (d'.ledger 0))
    (hp : (d'.ledger 0).pending = (d.ledger 0).pending)
    (hl : (d'.ledger 0).late = (d.ledger 0).late) (hb : d'.blk = d.blk) (hf : d'.factive = d.factive)
    (hn : d'.hist.ncmds = d.hist.ncmds) (ht : ∀ t ∈ d'.targets, Payload t.minbcnt) : Rewired C d (setdbcnt d') := by
  have hledger : (setdbcnt d').ledger 0 = d'.ledger 0 := rfl
  have hblk : (setdbcnt d').blk = { d'.blk with maxbcnt := (setdbcnt d').maxbcnt } := rfl
  refine ⟨⟨?_, ?_, fun hd => hd.congr hf, fun _ => setdbcnt_bounded 0 ht⟩, (setdbcnt d').maxbcnt, ?_⟩
  · rw [hledger]
    exact .single hs
  · rw [stage, stage, hledger, hp, hl]
    refine .single (.quiet ?_ hn.ge fun c hc => .inl ?_)
    · rw [hblk, hb]
      rfl
    · have hu : d'.hist.underflow = d.hist.underflow := congrArg Blk.underflow hb
      exact hu ▸ hc
  · rw [hblk, hb]
    rfl

theorem noteHold_eq (d : Aoedev) (t : ℕ) (nd : NetDev) (bcnt : ℕ) :
    ∃ holds, d.noteHold t nd bcnt = { d with hist.holds := holds } := by
  unfold Aoedev.noteHold
  split
  · exact ⟨_, rfl⟩
  · exact ⟨_, rfl⟩

theorem setifbcnt_rewired (hg : Good 0 d) {t : ℕ} {nd : NetDev} {bcnt : ℕ} (hw : Payload bcnt)
    (ht : t < d.targets.length) : Rewired C d (setifbcnt d t nd bcnt) := by
  unfold setifbcnt
  split
  · exact (Inner.refl 0 d).rewired
  · rename_i t' hset
    have hlive : Live (d.tgtAt t).wires := live_of_good hg (mem_of_getD ht)
    obtain ⟨w, hlw, rfl⟩ := setifbcntTgt_live hw hlive hset
    obtain ⟨holds, hheld⟩ := noteHold_eq d t nd bcnt
    rw [hheld]
    have hl : ({ d with hist.holds := holds }.modTgt t fun _ =>
        { d.tgtAt t with ifs := w.ifs, minbcnt := w.minbcnt }).ledger 0 =
        (d.ledger 0).modSlot t fun s => { s with wires := w } := ledger_modTgt_at { d with hist.holds := holds } 0 t _ _ rfl
    refine setdbcnt_rewired ?_ ?_ ?_ rfl rfl rfl ?_
    · rw [hl]
      exact .rewire hlw
    · rw [hl]
      rfl
    · rw [hl]
      rfl
    · have hall : ∀ x ∈ d.targets, Payload x.minbcnt := fun x hx => (live_of_good hg hx).minbcnt
      exact forall_mem_modify hall fun _ _ => hlw.minbcnt

/-- A new target gets its first interface in the same section. -/
theorem newTarget_rewired (hg : Good 0 d) {addr : Mac} {nframes : ℕ} {nd : NetDev} {bcnt : ℕ} (hw : Payload bcnt) :
    Rewired C d (setifbcnt { d with targets := d.targets ++ [newTarget addr nframes] } d.targets.length nd bcnt) := by
  let d₁ : Aoedev := { d with targets := d.targets ++ [newTarget addr nframes] }
  have hat : d₁.tgtAt d.targets.length = newTarget addr nframes := by simp [d₁, Aoedev.tgtAt]
  obtain ⟨w, hlw, hset⟩ := setifbcntTgt_fresh (t := newTarget addr nframes) nd hw rfl
  have hmod : d₁.targets.modify d.targets.length (fun _ => { newTarget addr nframes with ifs := w.ifs, minbcnt := w.minbcnt }) =
      d.targets ++ [{ newTarget addr nframes with ifs := w.ifs, minbcnt := w.minbcnt }] := modify_last _ _ _
  obtain ⟨holds, hheld⟩ := noteHold_eq d₁ d.targets.length nd bcnt
  have heq : setifbcnt d₁ d.targets.length nd bcnt =
      setdbcnt { d with
        targets := d.targets ++ [{ newTarget addr nframes with ifs := w.ifs, minbcnt := w.minbcnt }]
        hist.holds := holds } := by
    rw [setifbcnt, hat, hset]
    dsimp only
    rw [hheld, Aoedev.modTgt, hmod]
  rw [heq]
  have hl : ({ d with
      targets := d.targets ++ [{ newTarget addr nframes with ifs := w.ifs, minbcnt := w.minbcnt }]
      hist.holds := holds } : Aoedev).ledger 0 = { d.ledger 0 with slots := (d.ledger 0).slots ++ [⟨0, 0, 0, 0, w⟩] } := by
    simp only [Aoedev.ledger, List.map_append, List.map_cons, List.map_nil]
    rfl
  refine setdbcnt_rewired ?_ ?_ ?_ rfl rfl rfl ?_
  · rw [hl]
    exact .grow hlw
  · rw [hl]
    rfl
  · rw [hl]
  · intro x hx
    rcases List.mem_append.mp hx with hx | hx
    · exact (live_of_good hg hx).minbcnt
    · rw [List.mem_singleton.mp hx]
      exact hlw.minbcnt

theorem aoecmdCfgRsp_rewired (hg : Good 0 d) (c : CfgRsp) : Rewired C d (aoecmdCfgRsp d c) := by
  have hw := cfgBcnt_payload c.mtu c.scnt
  have hquiet {d : Aoedev} (hg : Good 0 d) {d' : Aoedev} (q : Quiet 0 d 0 d') : Rewired C d d' := (q.inner hg.inv).rewired
  -- the identify command that follows
  have hident {d' : Aoedev} (r : Rewired C d d') :
      Rewired C d (if d'.nopen = 0 then (aoecmdAtaId { d' with fwVer := c.fwver }).1 else d') := by
    split
    · have hg' := r.good hg
      have hfw : Quiet 0 d' 0 { d' with fwVer := c.fwver } := Quiet.of_eq rfl rfl rfl
      exact r.trans (hquiet hg' (hfw.trans (aoecmdAtaId_quiet (hfw.inv hg'.inv))))
    · exact r
  unfold aoecmdCfgRsp cfgTgt
  dsimp only
  cases hget : gettgt d c.src with
  | some t =>
    have ht : t < d.targets.length := by
      obtain ⟨hlt, -⟩ := List.findIdx?_eq_some_iff_getElem.mp hget
      exact hlt
    dsimp only
    generalize hn : (if c.bufcnt > d.aoeMaxout then d.aoeMaxout else c.bufcnt) % 2^16 = n
    let g : Aoetgt → Aoetgt := fun x => if n < x.maxout then aoecmdWreset { x with nframes := n } else { x with nframes := n }
    have hslot (x : Aoetgt) : (g x).slot = x.slot := by
      simp only [g]
      split
      · rfl
      · rfl
    have hq : Quiet 0 d 0 (d.modTgt t g) := Quiet.of_eq (ledger_modTgt_same d 0 t g hslot) rfl rfl
    have hr := hquiet hg hq
    exact hident (hr.trans (setifbcnt_rewired (hr.good hg) hw (by simpa using ht)))
  | none =>
    dsimp only
    generalize (if c.bufcnt > d.aoeMaxout then d.aoeMaxout else c.bufcnt) % 2^16 = n
    have hgrow : ∃ k nt, (growTargets d).1 = { d with env.kcalloc := k, ntargets := nt } := by
      unfold growTargets
      split
      · exact ⟨d.env.kcalloc, d.ntargets, rfl⟩
      · dsimp only
        split
        · exact ⟨_, _, rfl⟩
        · exact ⟨_, d.ntargets, rfl⟩
    obtain ⟨k, nt, hd₁⟩ := hgrow
    unfold addtgt
    generalize growTargets d = r at hd₁ ⊢
    obtain ⟨d₁, ok⟩ := r
    dsimp only at hd₁
    have hq (k' : List Bool) : Quiet 0 d 0 { d₁ with env.kcalloc := k' } := by
      rw [hd₁]
      exact Quiet.of_eq rfl rfl rfl
    have hq₁ : Quiet 0 d 0 d₁ := by
      rw [hd₁]
      exact Quiet.of_eq rfl rfl rfl
    cases ok with
    | false => exact hquiet hg hq₁
    | true =>
      dsimp only
      split
      · rename_i heq
        split at heq
        · exact absurd (congrArg Prod.snd heq) (by simp)
        · obtain ⟨rfl, -⟩ := Prod.mk.inj heq
          exact hquiet hg (hq _)
      · rename_i d₂ t heq
        split at heq
        · obtain ⟨rfl, ht⟩ := Prod.mk.inj heq
          rw [Option.some.injEq] at ht
          subst ht
          have hr := hquiet hg (hq (nextOutcome d₁.env.kcalloc).2)
          exact hident (hr.trans (newTarget_rewired (hr.good hg) hw))
        · exact absurd (congrArg Prod.snd heq) (by simp)

theorem aoecmdCleanslate_rewired : Rewired C d (aoecmdCleanslate d) := by
  have hl : (aoecmdCleanslate d).ledger 0 = d.ledger 0 := by
    simp only [aoecmdCleanslate, Aoedev.ledger, List.map_map]
    rfl
  have hwhole : WholeSectors 0 := ⟨0, by norm_num, rfl⟩
  refine ⟨⟨?_, ?_, fun hd => hd.congr rfl, fun _ => ⟨hwhole, fun hn => absurd rfl hn⟩⟩, 0, rfl⟩
  · rw [hl]
    exact .refl
  · rw [stage, stage, hl]
    exact .single (.quiet rfl le_rfl fun _ => .inl)

end Cfg

end AoeDriver
