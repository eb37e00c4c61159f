import AoeDriver.Traffic.State
import AoeDriver.Run.Work

/-!
# Packets that are sent for the first time

`aoecmd_ata_rw`, `aoecmd_ata_id` and `probe` as acts: the target is chosen with an open window, its interface is
rotated, and the packet is addressed to it.
-/

namespace AoeDriver

open Tables

section Traffic

variable {G : Gate} {l : Traffic} {i j : ℕ} {g k : Aoetgt → Aoetgt}

theorem tgt_mod (l : Traffic) (i j : ℕ) (g : Aoetgt → Aoetgt) :
    (l.mod i g).tgt j = if i = j ∧ j < l.targets.length then g (l.tgt j) else l.tgt j := getD_modify _ _ _ _

theorem mod_mod (l : Traffic) (i : ℕ) (g k : Aoetgt → Aoetgt) : (l.mod i g).mod i k = l.mod i fun t => k (g t) := by
  simp only [Traffic.mod, List.modify_modify_eq]
  rfl

theorem tgt_default (h : l.targets.length ≤ i) : l.tgt i = default := by simp [Traffic.tgt, h]

private theorem nd_mod (l : Traffic) (i : ℕ) {g : Aoetgt → Aoetgt} (hg : ∀ t, (g t).nd = t.nd) :
    ((l.mod i g).tgt i).nd = (l.tgt i).nd := by
  rw [tgt_mod]
  split
  · exact hg _
  · rfl

end Traffic

section Choice

variable {h : Hands} {d : Aoedev}

theorem ifrotate_eq (t : Aoetgt) : ∃ i, (ifrotate t).1 = { t with ifp := i } ∧
    ((ifrotate t).2 = true → i < NAOEIFS ∧ (t.ifAt i).nd.isSome) ∧ ((ifrotate t).2 = false → i = t.ifp) := by
  have hlt : (if NAOEIFS ≤ t.ifp + 1 || (t.ifAt (t.ifp + 1)).nd.isNone then 0 else t.ifp + 1) < NAOEIFS := by
    split
    · decide
    · rename_i hc
      simp only [Bool.or_eq_true, decide_eq_true_eq, not_or, not_le] at hc
      exact hc.1
  unfold ifrotate
  extract_lets i j
  by_cases hc : (t.ifAt j).nd.isNone
  · rw [if_pos hc]
    exact ⟨t.ifp, rfl, fun h => absurd h (by simp), fun _ => rfl⟩
  · rw [if_neg hc]
    refine ⟨j, rfl, fun _ => ⟨hlt, ?_⟩, fun h => absurd h (by simp)⟩
    simpa [Option.isSome_iff_ne_none] using hc

/-- `newframe` rotates the interface of the target it takes a frame from, and touches nothing else. -/
private theorem newframeLoop_traffic (fuel : ℕ) (hi : (d.ledger h).Inv) (hd : d.targets ≠ []) (tt : ℕ)
    (useTainted hasUntainted : Bool) (totout : ℕ) :
    (newframeLoop fuel d tt useTainted hasUntainted totout).1.traffic h =
      match (newframeLoop fuel d tt useTainted hasUntainted totout).2 with
      | some f => (d.traffic h).mod f.t fun t => (ifrotate t).1
      | none => d.traffic h := by
  induction fuel generalizing d tt useTainted hasUntainted totout with
  | zero => rfl
  | succ fuel ih =>
    unfold newframeLoop
    have htt := nextSlot_lt hd tt
    generalize d.nextSlot tt = tt at htt ⊢
    dsimp only
    generalize (if (d.tgtAt tt).taint = 0 then totout + (d.tgtAt tt).nout else totout) = totout
    have hstock : StockOnly d (newframeTry d tt useTainted).1 := by
      unfold newframeTry
      dsimp only
      split
      · exact newtframe_stock d tt
      · exact StockOnly.refl d
    obtain ⟨⟨hs, ho⟩, -⟩ := newframeTry_fetches hi htt useTainted
    generalize newframeTry d tt useTainted = r at hs ho hstock ⊢
    obtain ⟨d', o⟩ := r
    have htraffic : d'.traffic h = d.traffic h := traffic_stock h hstock
    have hd' : d'.targets ≠ [] := by
      rw [← List.length_pos_iff, hs.length, List.length_pos_iff]
      exact hd
    cases o with
    | some f =>
      obtain ⟨-, hft, -⟩ := ho
      dsimp only
      rw [hft, ← htraffic]
      exact traffic_modTgt d' h tt _ _ fun t => (bare_ifrotate t).1
    | none =>
      have hnext := fun tt u s n => (ih (Quiet.inv ho hi) hd' tt u s n)
      dsimp only
      split
      · split
        · rw [hnext, htraffic]
        · split
          · exact htraffic
          · exact htraffic
      · rw [hnext, htraffic]

theorem newframe_traffic (hi : (d.ledger h).Inv) :
    (newframe d).1.traffic h =
      match (newframe d).2 with
      | some f => (d.traffic h).mod f.t fun t => (ifrotate t).1
      | none => d.traffic h := by
  unfold newframe
  split
  · rfl
  · rename_i hd
    exact newframeLoop_traffic _ hi hd _ _ _ _

end Choice

section Send

variable {G : Gate} {h : Hands} {d : Aoedev} {f : Frame}

private theorem nextbufAlloc_traffic (d : Aoedev) (h : Hands) (r : ℕ) : (nextbufAlloc d r).1.traffic h = d.traffic h := by
  unfold nextbufAlloc
  dsimp only
  split
  · split
    · rfl
    · rfl
  · rfl

private theorem nextbuf_traffic (d : Aoedev) (h : Hands) : (nextbuf d).1.traffic h = d.traffic h := by
  unfold nextbuf
  split
  · rfl
  · split
    · rfl
    · split
      · exact nextbufAlloc_traffic d h _
      · split
        · rfl
        · exact (nextbufAlloc_traffic (startRq d _ _) h _).trans rfl

/-- The traffic while the headers of a new command are filled in. -/
def Traffic.head (l : Traffic) (i : ℕ) (g : Aoetgt → Aoetgt) : Traffic :=
  { l with ncmds := l.ncmds + 1, nullNd := l.nullNd || (l.tgt i).nd.isNone }.mod i g

private theorem frameinit_traffic (d : Aoedev) (h : Hands) (f : Frame) (data : Option (List BioVec)) :
    (ataRwFrameinit d f data).1.traffic h = (d.traffic h).head f.t (Aoetgt.issued
      (fun t => if data.isSome then t.wpkts + 1 else t.wpkts) fun t => if data.isSome then t.rpkts else t.rpkts + 1) := by
  rw [Traffic.head, tgt_traffic]
  simp only [Aoedev.traffic, ataRwFrameinit, newCommand, aoehdrAtainit, newtag, Aoedev.noteNd, Aoedev.noteXmit,
    Aoedev.modTgt, Traffic.mod]
  rw [← map_modify d.targets f.t (Aoetgt.issued _ _) (Aoetgt.issued _ _) Aoetgt.bare fun _ => rfl]
  rfl

private theorem frameinit_addressed (d : Aoedev) (f : Frame) (data : Option (List BioVec)) :
    Addressed (d.tgtAt f.t) (ataRwFrameinit d f data).2 := by
  refine ⟨rfl, rfl, ?_, rfl⟩
  have hdev : ((ataRwFrameinit d f data).2.skb.getD default).dev = ((ataRwFrameinit d f data).1.tgtAt f.t).nd := rfl
  have htgt : (ataRwFrameinit d f data).1.tgtAt f.t = _ :=
    tgtAt_modTgt (aoehdrAtainit (newCommand d f).1 f.t).1 f.t f.t _
  rw [hdev, htgt]
  split
  · rfl
  · rfl

private theorem ataIdInit_traffic (d : Aoedev) (h : Hands) (f : Frame) :
    (ataIdInit d f).1.traffic h = (d.traffic h).head f.t (Aoetgt.issued Aoetgt.wpkts Aoetgt.rpkts) := by
  rw [Traffic.head, tgt_traffic]
  simp only [Aoedev.traffic, ataIdInit, newCommand, aoehdrAtainit, newtag, Aoedev.noteNd, Aoedev.noteXmit,
    Aoedev.modTgt, Traffic.mod]
  rw [← map_modify d.targets f.t (Aoetgt.issued _ _) (Aoetgt.issued _ _) Aoetgt.bare fun _ => rfl]
  rfl

private theorem ataIdInit_addressed (d : Aoedev) (f : Frame) : Addressed (d.tgtAt f.t) (ataIdInit d f).2 := by
  refine ⟨rfl, rfl, ?_, rfl⟩
  have hdev : ((ataIdInit d f).2.skb.getD default).dev = ((ataIdInit d f).1.tgtAt f.t).nd := rfl
  have htgt : (ataIdInit d f).1.tgtAt f.t = _ := tgtAt_modTgt (aoehdrAtainit (newCommand d f).1 f.t).1 f.t f.t _
  rw [hdev, htgt]
  split
  · rfl
  · rfl

theorem traffic_noteSend (d : Aoedev) (h : Hands) (f : Frame) (first : Bool) :
    (d.noteSend f first).traffic h =
      { d.traffic h with
        sends := (d.traffic h).sends ++ [⟨f, (d.traffic h).tgt f.t, first, (nextOutcome d.env.clone).1⟩] } := by
  rw [tgt_traffic]
  rfl

theorem Addressed.congr {t t' : Aoetgt} (ha : Addressed t f) (haddr : t'.addr = t.addr) (hnd : t'.nd = t.nd) :
    Addressed t' f :=
  ⟨ha.dst.trans haddr.symm, by rw [hnd]; exact ha.src, ha.dev.trans hnd.symm, ha.tag⟩

private theorem sent_traffic {d₁ : Aoedev} {l : Traffic} {g : Aoetgt → Aoetgt}
    (hl : d₁.traffic h = (l.mod f.t fun t => (ifrotate t).1).head f.t g) (hg : ∀ t, (g t).nd = t.nd) :
    (fhash (sendClone (d₁.noteSend f true) f).1 (sendClone (d₁.noteSend f true) f).2).traffic h =
      (({ l with ncmds := l.ncmds + 1 }.mod f.t fun t => g (ifrotate t).1).post f true (nextOutcome d₁.env.clone).1).act
        (sendClone (d₁.noteSend f true) f).2 := by
  have hnd := nd_mod (l.mod f.t fun t => (ifrotate t).1) f.t hg
  rw [mod_mod] at hnd
  rw [traffic_fhash, traffic_sendClone, traffic_noteSend, hl]
  simp only [Traffic.head, Traffic.post, ← hnd]
  simp only [Traffic.act, Traffic.mod, Traffic.tgt, List.modify_modify_eq]
  rfl

private theorem addressed_rotated {d d₁ : Aoedev} (hl : d₁.traffic h = (d.traffic h).mod f.t fun t => (ifrotate t).1)
    (hlt : f.t < d.targets.length) {f' : Frame} (ha : Addressed (d₁.tgtAt f.t) f') :
    Addressed (ifrotate ((d.traffic h).tgt f.t)).1 f' := by
  have htgt : (d₁.tgtAt f.t).bare = (ifrotate ((d.traffic h).tgt f.t)).1 := by
    rw [← tgt_traffic d₁ h, hl, tgt_mod, if_pos ⟨rfl, by simpa [Aoedev.traffic] using hlt⟩]
  rw [← htgt]
  exact ha.congr rfl rfl

theorem aoecmdAtaId_acts (hi : (d.ledger h).Inv) : Acts G (d.traffic h) ((aoecmdAtaId d).1.traffic h) := by
  have ht := newframe_traffic hi
  obtain ⟨hs, hc⟩ := newframe_chooses hi
  unfold aoecmdAtaId
  generalize newframe d = r at ht hs hc ⊢
  obtain ⟨d₁, o⟩ := r
  cases o with
  | none =>
    dsimp only at ht ⊢
    rw [ht]
    exact .refl
  | some f =>
    obtain ⟨-, hblank, hlt, hw⟩ := hc
    dsimp only at ht hw ⊢
    have hft : (ataIdInit d₁ f).2.t = f.t := rfl
    have hinit := ataIdInit_traffic d₁ h f
    have haddr := ataIdInit_addressed d₁ f
    have hiter : (ataIdInit d₁ f).2.iter = f.iter := rfl
    have hprobe : (ataIdInit d₁ f).2.probe = f.probe := rfl
    have hcmd : (ataIdInit d₁ f).2.cmd = (d₁.traffic h).ncmds := rfl
    generalize ataIdInit d₁ f = p at hft hinit haddr hiter hprobe hcmd ⊢
    have hrot := addressed_rotated ht hlt haddr
    rw [ht] at hinit hcmd
    rw [← hft] at hinit hrot hw
    rw [sent_traffic hinit fun _ => rfl]
    refine .single (.send ?_ (hprobe.trans hblank.2.2.2) hcmd ?_ hrot
      (sendClone_restamped _ _))
    · rw [tgt_traffic]
      exact hw
    · rw [hiter, hblank.2.1]
      exact Nat.zero_le _

/-- A frame is cut from the buf in process and sent. -/
private theorem aoecmdAtaRw_acts (hg : Good h d) : Acts G (d.traffic h) ((aoecmdAtaRw d).1.traffic h) := by
  obtain ⟨hbuf, -⟩ := nextbuf_inner (C := ⟨fun _ _ => True, fun _ => True, fun _ => True⟩) h d
  have hb := nextbuf_traffic d h
  unfold aoecmdAtaRw
  generalize nextbuf d = r at hbuf hb ⊢
  obtain ⟨d₀, o⟩ := r
  dsimp only at hb
  rw [← hb]
  have hi := (hbuf.good hg).inv
  cases o with
  | none => exact .refl
  | some b =>
    have ht := newframe_traffic hi
    obtain ⟨hs, hc⟩ := newframe_chooses hi
    dsimp only
    generalize newframe d₀ = r at ht hs hc ⊢
    obtain ⟨d₁, o⟩ := r
    cases o with
    | none =>
      dsimp only at ht ⊢
      rw [ht]
      exact .refl
    | some f =>
      obtain ⟨-, hblank, hlt, hw⟩ := hc
      dsimp only at ht hw ⊢
      unfold ataRwSend
      extract_lets buf iter data
      dsimp only
      have hcut : (cutBuf d₁ b).traffic h = d₁.traffic h := rfl
      have hinit := frameinit_traffic (cutBuf d₁ b) h { f with buf := some b, iter := iter } data
      have haddr := frameinit_addressed (cutBuf d₁ b) { f with buf := some b, iter := iter } data
      have hft : (ataRwFrameinit (cutBuf d₁ b) { f with buf := some b, iter := iter } data).2.t = f.t := rfl
      have hiter : (ataRwFrameinit (cutBuf d₁ b) { f with buf := some b, iter := iter } data).2.iter = iter := rfl
      have hprobe : (ataRwFrameinit (cutBuf d₁ b) { f with buf := some b, iter := iter } data).2.probe = f.probe := rfl
      have hcmd : (ataRwFrameinit (cutBuf d₁ b) { f with buf := some b, iter := iter } data).2.cmd =
        (d₁.traffic h).ncmds := rfl
      generalize ataRwFrameinit (cutBuf d₁ b) { f with buf := some b, iter := iter } data = p at *
      have hrot := addressed_rotated ht hlt haddr
      have hnote : (p.1.noteCut p.2 buf).traffic h = p.1.traffic h := rfl
      have hmax : iter.size ≤ (d₀.traffic h).payload := by
        have hpay : (d₀.traffic h).payload = (d₁.traffic h).payload := by
          rw [ht]
          rfl
        rw [hpay]
        exact Nat.min_le_left _ _
      rw [hcut, ht] at hinit
      rw [ht] at hcmd
      dsimp only at hinit hrot
      rw [← hft] at hinit hrot hw
      rw [← hnote] at hinit
      rw [sent_traffic hinit fun _ => rfl]
      refine .single (.send ?_ (hprobe.trans hblank.2.2.2) hcmd (hiter ▸ hmax) hrot (sendClone_restamped _ _))
      rw [tgt_traffic]
      exact hw

theorem ataRwLoop_acts (fuel : ℕ) (hg : Good h d) : Acts G (d.traffic h) ((ataRwLoop fuel d).traffic h) := by
  induction fuel generalizing d with
  | zero => exact .refl
  | succ fuel ih =>
    have hr := aoecmdAtaRw_inner (C := ⟨fun _ _ => True, fun _ => True, fun _ => True⟩) hg
    have ha := aoecmdAtaRw_acts (G := G) hg
    unfold ataRwLoop
    generalize aoecmdAtaRw d = r at hr ha ⊢
    obtain ⟨d₁, more⟩ := r
    cases more with
    | true => exact ha.trans (ih (hr.good hg))
    | false => exact ha

/-- A target is probed only while no probe of it is counted. -/
theorem probeCounted_acts {t : ℕ} (hi : (d.ledger h).Inv) (ht : t < d.targets.length) (hn : (d.tgtAt t).noutProbes = 0) :
    Acts G (d.traffic h) ((probeCounted d t).traffic h) := by
  have hstock := traffic_stock h (newtframe_stock d t)
  obtain ⟨-, hfetch⟩ := newtframe_fetches hi ht
  have hn₀ : ((d.traffic h).tgt t).noutProbes = 0 := by
    rw [tgt_traffic]
    exact hn
  unfold probeCounted probe
  generalize newtframe d t = r at hstock hfetch ⊢
  obtain ⟨d₁, o⟩ := r
  cases o with
  | none =>
    have hl : ({ d₁ with hist.probeMissed := true }.modTgt t fun x => { x with noutProbes := incChar x.noutProbes }).traffic
        h = (d₁.traffic h).mod t Aoetgt.probed :=
      traffic_modTgt { d₁ with hist.probeMissed := true } h t _ Aoetgt.probed fun _ => rfl
    dsimp only at hstock ⊢
    rw [hl, hstock]
    exact .single (.miss hn₀)
  | some f =>
    obtain ⟨-, rfl, hblank⟩ := hfetch
    dsimp only at hstock ⊢
    have hrot : (d₁.modTgt f.t fun x => (ifrotate x).1).traffic h = (d.traffic h).mod f.t fun t => (ifrotate t).1 := by
      rw [← hstock]
      exact traffic_modTgt d₁ h f.t _ _ fun t => (bare_ifrotate t).1
    generalize (d₁.modTgt f.t fun x => (ifrotate x).1) = d₂ at hrot ⊢
    have hsize : (if d₂.maxbcnt = 0 then DEFAULTBCNT else d₂.maxbcnt) = (d.traffic h).payload := by
      have hmax : d₂.maxbcnt = (d.traffic h).maxbcnt := congrArg Traffic.maxbcnt hrot
      rw [hmax]
      rfl
    rw [hsize]
    generalize hsz : (d.traffic h).payload = size
    have hinit := frameinit_traffic d₂ h { f with probe := true, iter := { f.iter with size := size } } none
    have haddr := frameinit_addressed d₂ { f with probe := true, iter := { f.iter with size := size } } none
    have hft : (ataRwFrameinit d₂ { f with probe := true, iter := { f.iter with size := size } } none).2.t = f.t := rfl
    have hiter : (ataRwFrameinit d₂ { f with probe := true, iter := { f.iter with size := size } } none).2.iter.size =
      size := rfl
    have hprobe : (ataRwFrameinit d₂ { f with probe := true, iter := { f.iter with size := size } } none).2.probe =
      true := rfl
    have hcmd : (ataRwFrameinit d₂ { f with probe := true, iter := { f.iter with size := size } } none).2.cmd =
      (d₂.traffic h).ncmds := rfl
    generalize ataRwFrameinit d₂ { f with probe := true, iter := { f.iter with size := size } } none = p at *
    have haddr' := addressed_rotated hrot ht haddr
    rw [hrot] at hinit hcmd
    let skb := p.2.skb.getD default
    let f₂ : Frame := { p.2 with skb := some { skb with
      frags := probeFrags size size, len := skb.len + size, dataLen := size } }
    have hf₂ : f₂.t = f.t := hft
    have haddr₂ : Addressed (ifrotate ((d.traffic h).tgt f₂.t)).1 f₂ := by
      rw [hf₂]
      exact ⟨haddr'.dst, haddr'.src, haddr'.dev, haddr'.tag⟩
    dsimp only at hinit
    rw [← hf₂] at hinit hn₀
    have hsent := sent_traffic (f := f₂) hinit fun _ => rfl
    have hcount := traffic_modTgt (fhash (sendClone (p.1.noteSend f₂ true) f₂).1 (sendClone (p.1.noteSend f₂ true) f₂).2) h
      f₂.t (fun x => { x with noutProbes := incChar x.noutProbes }) Aoetgt.probed fun _ => rfl
    rw [hsent] at hcount
    rw [← hf₂]
    refine .single ?_
    rw [hcount]
    exact .probe (by simpa [Aoedev.traffic, hf₂] using ht) hn₀ hprobe hcmd (hiter.trans hsz.symm).le haddr₂ (sendClone_restamped (p.1.noteSend f₂ true) f₂)

end Send

end AoeDriver
