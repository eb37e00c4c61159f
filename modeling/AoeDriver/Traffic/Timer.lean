import AoeDriver.Traffic.Resend
import AoeDriver.Run.Events

/-!
# Completion, failure and the timer

What the rest of the driver does to the traffic, but for config responses.
-/

namespace AoeDriver

open Tables

section Turns

variable {G : Gate} {l : Traffic} {i : ℕ}

theorem mod_at {g k : Aoetgt → Aoetgt} (h : g (l.tgt i) = k (l.tgt i)) : l.mod i g = l.mod i k := by
  have hmod := map_modify_at l.targets i g k id h
  simp only [List.map_id] at hmod
  rw [Traffic.mod, hmod]
  rfl

theorem Turnings.acts {d : Aoedev} {h : Hands} {g : Aoetgt → Aoetgt}
    (ht : Turnings G (d.tgtAt i).bare (g (d.tgtAt i)).bare) : Acts G (d.traffic h) ((d.modTgt i g).traffic h) := by
  let k : Aoetgt → Aoetgt := fun _ => (g (d.tgtAt i)).bare
  rw [traffic_modTgt_at d h i g k rfl]
  refine .single (.turn ?_)
  rw [tgt_traffic]
  exact ht

theorem Turnings.stats {t t' : Aoetgt} (h : Alike t t') : Turnings G t t' := .single (.stats h)

end Turns

section Complete

variable {G : Gate} {h : Hands} {d : Aoedev} {b : ℕ} {f : Frame}

theorem aoeblkRequest_acts (hg : Good h d) : Acts G (d.traffic h) ((aoeblkRequest d).traffic h) := by
  unfold aoeblkRequest
  split
  · exact aoecmdWork_acts hg
  · rw [fastFail_aside.traffic]
    exact .refl

private theorem settleRun_acts (hg : Good h (settle d b)) :
    Acts G ((settle d b).traffic h) ((settleRun d b).traffic h) := by
  rcases settleRun_cases d b with hs | hs
  · rw [hs]
    exact .refl
  · rw [hs]
    exact aoeblkRequest_acts hg

theorem ktioFinish_acts (hg : Good (h.shelve f) d) : Acts G (d.traffic h) ((ktioFinish d f).traffic h) := by
  unfold ktioFinish
  cases hb : f.buf with
  | none =>
    dsimp only
    rw [freetframe_traffic]
    exact .refl
  | some b =>
    have hsettle : Inner .any (h.shelve f) d h (settle (decNframesout (aoeFreetframe d f) b) b) := ktioSettle_inner hb
    have haside := (decNframesout_aside (d := aoeFreetframe d f) b).trans (settle_aside b)
    have hacts := settleRun_acts (G := G) (hsettle.good hg)
    rw [haside.traffic, freetframe_traffic] at hacts
    exact hacts

theorem downdevFrame_acts (hg : Good (h.hold f) d) : Acts G (d.traffic h) ((downdevFrame d f).traffic h) := by
  unfold downdevFrame
  rw [freetframe_traffic]
  cases hb : f.buf with
  | none => exact .refl
  | some b =>
    have hlose : Inner .any (h.hold f) d (h.hold { f with buf := none }) (settle (spoilBuf (decNframesout d b) b) b) :=
      lose_inner hb
    have haside := ((decNframesout_aside (d := d) b).trans (spoilBuf_aside b)).trans (settle_aside b)
    have hacts := settleRun_acts (G := G) (hlose.good hg)
    rw [haside.traffic, traffic_hands_hold, traffic_hands_hold] at hacts
    dsimp only
    rw [aoeFailbuf_eq]
    exact hacts

private theorem downdevFrame_traffic (hup : d.flags.up = false) (h : Hands) (f : Frame) :
    (downdevFrame d f).traffic h = d.traffic h ∧ (downdevFrame d f).flags.up = false := by
  have houter := (downdevFrame_down hup f).2.2.1
  refine ⟨?_, (congrArg Blk.up houter).trans hup⟩
  unfold downdevFrame
  rw [freetframe_traffic]
  cases hb : f.buf with
  | none => rfl
  | some b =>
    have ha := (decNframesout_aside (d := d) b).trans (spoilBuf_aside b)
    dsimp only
    rw [aoeFailbuf_eq, (ha.trans (settleRun_down (ha.up.trans hup) b)).traffic]

private theorem downdevFrames_traffic (fs : List Frame) (hup : d.flags.up = false) (h : Hands) :
    (downdevFrames fs d).traffic h = d.traffic h ∧ (downdevFrames fs d).flags.up = false := by
  induction fs generalizing d with
  | nil => exact ⟨rfl, hup⟩
  | cons f fs ih =>
    obtain ⟨hl, hup'⟩ := downdevFrame_traffic hup h f
    obtain ⟨hl', hup''⟩ := ih hup'
    exact ⟨hl'.trans hl, hup''⟩

private theorem aoedevDowndev_acts (d : Aoedev) : Acts G (d.traffic 0) ((aoedevDowndev d).traffic 0) := by
  let d₁ : Aoedev := { d with flags.up := false, factive := fun _ => [] }
  obtain ⟨hl₁, hup₁⟩ := downdevFrames_traffic (d := d₁) { d with flags.up := false }.activeFrames rfl 0
  generalize hd₂ : downdevFrames { d with flags.up := false }.activeFrames d₁ = d₂ at hl₁ hup₁
  obtain ⟨hl₂, hup₂⟩ := downdevFrames_traffic (d := { d₂ with rexmitq := [] }) d₂.rexmitq hup₁ 0
  have hsweep : (downdevSweep d).traffic 0 = { d.traffic 0 with
      active := 0, deferred := 0
      targets := (d.traffic 0).targets.map fun t => { aoecmdWreset t with nout := 0 } } := by
    have hsplit : downdevSweep d = { downdevFrames d₂.rexmitq { d₂ with rexmitq := [] } with
        targets := (downdevFrames d₂.rexmitq { d₂ with rexmitq := [] }).targets.map fun t =>
          { aoecmdWreset t with nout := 0 } } := by
      subst hd₂
      rfl
    have hmap (d : Aoedev) : Aoedev.traffic { d with targets := d.targets.map fun t => { aoecmdWreset t with nout := 0 } } 0 =
        { d.traffic 0 with targets := (d.traffic 0).targets.map fun t => { aoecmdWreset t with nout := 0 } } := by
      simp only [Aoedev.traffic, List.map_map]
      rfl
    have hdef : Aoedev.traffic { d₂ with rexmitq := [] } 0 = { d₂.traffic 0 with deferred := 0 } := rfl
    have hact : d₁.traffic 0 = { d.traffic 0 with active := 0 } := by
      have hnil : contents (fun _ : Fin NFACTIVE => ([] : List Frame)) = 0 := rfl
      simp only [d₁, Aoedev.traffic, hnil]
      rfl
    rw [hsplit, hmap, hl₂, hdef, hl₁, hact]
  have hup : (downdevSweep d).flags.up = false := by
    subst hd₂
    exact hup₂
  have hrest : (downdevRest (downdevSweep d)).traffic 0 = (downdevSweep d).traffic 0 := by
    obtain ⟨ha, -⟩ := aoeFailip_down hup
    unfold downdevRest
    dsimp only
    split
    · exact (fastFail_aside.traffic 0).trans (ha.traffic 0)
    · exact ha.traffic 0
  rw [aoedevDowndev_eq, hrest, hsweep]
  exact .single .down

end Complete

section Expire

variable {G : Gate} {h : Hands} {d : Aoedev} {f : Frame}

theorem alike_lost (t : Aoetgt) (i : ℕ) (lost : Aoeif → ℕ) :
    Alike t { t with ifs := t.ifs.modify i fun x => { x with lost := lost x } } :=
  ⟨rfl, rfl, map_modify_same _ _ _ _ fun _ => rfl, rfl, rfl, rfl, rfl, rfl, rfl, rfl⟩

private theorem bare_countLost (f : Frame) (t : Aoetgt) : (countLost f t).bare = countLost f t.bare := by
  have hget : getif t.bare (f.skb.getD default).dev = getif t (f.skb.getD default).dev := rfl
  unfold countLost
  rw [hget]
  cases getif t (f.skb.getD default).dev with
  | none => rfl
  | some i =>
    dsimp only
    rw [apply_ite Aoetgt.bare]
    rfl

private theorem bare_expireTgt (deadsecs utgts n : ℕ) (f : Frame) (t : Aoetgt) :
    (expireTgt deadsecs utgts n f t).bare = expireTgt deadsecs utgts n f t.bare := by
  let scorned (t : Aoetgt) : Aoetgt :=
    if deadsecs ≠ 0 ∧ 0 < utgts ∧ (n > deadsecs / utgts ∨ n > HARD_SCORN_SECS) then scorn t else t
  let counted (t : Aoetgt) : Aoetgt := { t with lost := t.lost + 1 }
  let shut (t : Aoetgt) : Aoetgt := if t.maxout ≠ 1 then { t with ssthresh := t.maxout / 2, maxout := 1 } else t
  let settled (t : Aoetgt) : Aoetgt :=
    if f.probe then { t with noutProbes := decChar t.noutProbes } else countLost f t
  have hscorned (t : Aoetgt) : (scorned t).bare = scorned t.bare := apply_ite Aoetgt.bare _ _ _
  have hcounted (t : Aoetgt) : (counted t).bare = counted t.bare := rfl
  have hshut (t : Aoetgt) : (shut t).bare = shut t.bare := apply_ite Aoetgt.bare _ _ _
  have hsettled (t : Aoetgt) : (settled t).bare = settled t.bare := by
    simp only [settled]
    rw [apply_ite Aoetgt.bare, bare_countLost]
    rfl
  change (settled (shut (counted (scorned t)))).bare = settled (shut (counted (scorned t.bare)))
  rw [hsettled, hshut, hcounted, hscorned]

private theorem expireTgt_turns (deadsecs utgts n : ℕ) (f : Frame) (t : Aoetgt) : ∃ t', Turnings G t t' ∧
    t'.ifs = t.ifs ∧ t'.ifp = t.ifp ∧ t'.nframes = t.nframes ∧
    expireTgt deadsecs utgts n f t = if f.probe then { t' with noutProbes := decChar t'.noutProbes } else countLost f t' := by
  unfold expireTgt
  extract_lets t₁ t₂ t₃
  have h₁ : Alike t t₁ ∧ t₁.ifs = t.ifs := by
    simp only [t₁]
    split
    · exact ⟨⟨rfl, rfl, rfl, rfl, rfl, rfl, rfl, rfl, rfl, rfl⟩, rfl⟩
    · exact ⟨⟨rfl, rfl, rfl, rfl, rfl, rfl, rfl, rfl, rfl, rfl⟩, rfl⟩
  have h₂ : Turnings G t t₂ :=
    Relation.ReflTransGen.tail (Turnings.stats h₁.1) (.stats ⟨rfl, rfl, rfl, rfl, rfl, rfl, rfl, rfl, rfl, rfl⟩)
  have h₃ : Turnings G t t₃ ∧ t₃.ifs = t₂.ifs ∧ t₃.ifp = t₂.ifp ∧ t₃.nframes = t₂.nframes := by
    simp only [t₃]
    split
    · exact ⟨h₂.tail .collapse, rfl, rfl, rfl⟩
    · exact ⟨h₂, rfl, rfl, rfl⟩
  exact ⟨t₃, h₃.1, h₃.2.1.trans h₁.2, h₃.2.2.1.trans h₁.1.ifp, h₃.2.2.2.trans h₁.1.nframes, rfl⟩

theorem getif_nd {t : Aoetgt} {nd : Option NetDev} {i : ℕ} (h : getif t nd = some i) : (t.ifAt i).nd = nd := by
  have hi := List.find?_some h
  simpa using hi

private theorem countLost_eject (f : Frame) (t : Aoetgt) (hp : f.probe = false) : ∃ t', Alike t t' ∧
    match ejectSlot f t with
    | none => countLost f t = t'
    | some i => countLost f t = ejectif t' i ∧ i < NAOEIFS ∧ (i ≠ 0 ∨ (t'.ifAt 1).nd.isSome) ∧
        (t'.ifAt i).nd = (f.skb.getD default).dev := by
  unfold countLost ejectSlot
  cases hget : getif t (f.skb.getD default).dev with
  | none => exact ⟨t, ⟨rfl, rfl, rfl, rfl, rfl, rfl, rfl, rfl, rfl, rfl⟩, rfl⟩
  | some i =>
    refine ⟨{ t with ifs := t.ifs.modify i fun x => { x with lost := (t.ifAt i).lost + 1 } }, alike_lost t i _, ?_⟩
    have hnd (j : ℕ) : (Aoetgt.ifAt { t with ifs := t.ifs.modify i fun x => { x with lost := (t.ifAt i).lost + 1 } } j).nd =
        (t.ifAt j).nd := by
      simp only [Aoetgt.ifAt]
      rw [getD_modify]
      split
      · rfl
      · rfl
    simp only [hnd, hp, Bool.not_false, true_and]
    by_cases hc : (t.ifAt i).lost + 1 > t.nframes <<< 1 ∧ (i ≠ 0 ∨ (t.ifAt 1).nd.isSome = true)
    · simp only [if_pos hc]
      exact ⟨trivial, getif_lt hget, hc.2, getif_nd hget⟩
    · simp only [if_neg hc]

theorem Alike.nds {t t' : Aoetgt} (h : Alike t t') : t'.nds = t.nds := by
  have hfst := congrArg (List.map Prod.fst) h.ifs
  rw [List.map_map, List.map_map] at hfst
  exact hfst

theorem ifAt_nd (t : Aoetgt) (i : ℕ) : (t.ifAt i).nd = t.nds.getD i none := by
  simp only [Aoetgt.ifAt, Aoetgt.nds]
  rw [List.getD_map t.ifs (default : Aoeif) Aoeif.nd |>.symm]
  rfl

/-- One expired frame. -/
private theorem expireFrame_acts (utgts : ℕ) (hvalid : f.t < d.targets.length) :
    Acts G (d.traffic (h.act f)) ((expireFrame utgts d f).traffic h) := by
  replace hvalid : f.t < (d.traffic h).targets.length := by simpa [Aoedev.traffic] using hvalid
  rw [traffic_hands_act]
  unfold expireFrame
  extract_lets n d₀ d₁ d₂
  let l := d.traffic h
  have htgt : l.tgt f.t = (d.tgtAt f.t).bare := tgt_traffic d h f.t
  obtain ⟨t', hturn, hifs, hifp, hnf, hexp⟩ := expireTgt_turns (G := G) d₀.aoeDeadsecs utgts n f (l.tgt f.t)
  -- the traffic at the end
  have hend : ((d₂.notePred .nout (d₂.tgtAt f.t).nout).modTgt f.t fun t => { t with nout := decUshort t.nout }).traffic h =
      ((d₀.traffic h).mod f.t fun t =>
        { expireTgt d₀.aoeDeadsecs utgts n f t with
          nout := decUshort (expireTgt d₀.aoeDeadsecs utgts n f t).nout }).defer f := by
    rw [traffic_modTgt _ h f.t (fun t => { t with nout := decUshort t.nout }) (fun t => { t with nout := decUshort t.nout })
      fun _ => rfl, (notePred_aside (by decide) _).traffic]
    have h₂ : d₂.traffic h = (d₁.traffic h).defer f := defer_traffic d₁ h f
    have h₁ : d₁.traffic h = (d₀.traffic h).mod f.t (expireTgt d₀.aoeDeadsecs utgts n f) :=
      traffic_modTgt d₀ h f.t _ _ fun t => bare_expireTgt _ _ _ _ t
    have hcomm : ((d₁.traffic h).defer f).mod f.t (fun t => { t with nout := decUshort t.nout }) =
        ((d₁.traffic h).mod f.t fun t => { t with nout := decUshort t.nout }).defer f := rfl
    rw [h₂, hcomm, h₁, mod_mod]
  rw [hend]
  -- acts on `l.act f` up to the settlement
  have hmain (m : Traffic) (hm : Acts G (l.act f) (m.act f)) (hlast : (m.mod f.t (Aoetgt.settled f)).defer f =
      ((d₀.traffic h).mod f.t fun t =>
        { expireTgt d₀.aoeDeadsecs utgts n f t with
          nout := decUshort (expireTgt d₀.aoeDeadsecs utgts n f t).nout }).defer f) :
      Acts G (l.act f) (((d₀.traffic h).mod f.t fun t =>
        { expireTgt d₀.aoeDeadsecs utgts n f t with
          nout := decUshort (expireTgt d₀.aoeDeadsecs utgts n f t).nout }).defer f) := by
    rw [← hlast]
    exact hm.tail .expire
  have hfirst (u : Aoetgt) (hu : Turnings G (l.tgt f.t) u) : Acts G (l.act f) ((l.mod f.t fun _ => u).act f) :=
    .single (Act.turn (l := l.act f) (i := f.t) (g := fun _ => u) hu)
  cases hp : f.probe with
  | true =>
    have hsame : d₀.traffic h = l := by
      have hslot : ejectSlot f (d.tgtAt f.t) = none := by
        unfold ejectSlot
        split
        · rfl
        · simp [hp]
      simp only [d₀, Aoedev.noteEject, hslot]
      rfl
    refine hmain (l.mod f.t fun _ => t') (hfirst t' hturn) ?_
    rw [hsame, mod_mod]
    congr 1
    refine mod_at ?_
    rw [hexp]
    simp only [hp, Aoetgt.settled, if_true]
  | false =>
    obtain ⟨u, halike, hu⟩ := countLost_eject f t' hp
    have hslot : ejectSlot f (d.tgtAt f.t) = ejectSlot f t' := by
      have hget : getif t' (f.skb.getD default).dev = getif (d.tgtAt f.t) (f.skb.getD default).dev := by
        unfold getif Aoetgt.ifAt
        rw [hifs, htgt]
        rfl
      have hat (i : ℕ) : t'.ifAt i = (d.tgtAt f.t).ifAt i := by
        unfold Aoetgt.ifAt
        rw [hifs, htgt]
        rfl
      have hn : t'.nframes = (d.tgtAt f.t).nframes := by
        rw [hnf, htgt]
        rfl
      unfold ejectSlot
      rw [hget]
      simp only [hat, hn]
    have hsettle (v : Aoetgt) (hv : countLost f t' = v) (m : Traffic) (hm : m = (d₀.traffic h).mod f.t fun _ => v) :
        (m.mod f.t (Aoetgt.settled f)).defer f = ((d₀.traffic h).mod f.t fun t =>
          { expireTgt d₀.aoeDeadsecs utgts n f t with
            nout := decUshort (expireTgt d₀.aoeDeadsecs utgts n f t).nout }).defer f := by
      have htgt₀ : (d₀.traffic h).tgt f.t = l.tgt f.t := by
        have htargets : (d₀.traffic h).targets = l.targets := by
          simp only [d₀, Aoedev.noteEject]
          split
          · rfl
          · rfl
        simp only [Traffic.tgt, htargets]
      rw [hm, mod_mod]
      congr 1
      refine mod_at ?_
      rw [htgt₀, hexp, ← hv]
      simp only [hp, Aoetgt.settled, Bool.false_eq_true, if_false]
    cases hs : ejectSlot f t' with
    | none =>
      rw [hs] at hu hslot
      have hsame : d₀.traffic h = l := by
        simp only [d₀, Aoedev.noteEject, hslot]
        rfl
      refine hmain (l.mod f.t fun _ => u) (hfirst u (hturn.tail (.stats halike))) ?_
      exact hsettle u hu _ (by rw [hsame])
    | some i =>
      rw [hs] at hu hslot
      obtain ⟨hcount, hlt, hc, hdev⟩ := hu
      let x : Eject := ⟨f.t, (d.tgtAt f.t).bare, i, l.sends.length⟩
      have hsame : d₀.traffic h = { l with ejects := l.ejects ++ [x] } := by
        simp only [d₀, Aoedev.noteEject, hslot]
        rfl
      have hat : ((l.mod f.t fun _ => u).act f).tgt f.t = u := by
        have := tgt_mod l f.t f.t fun _ => u
        rw [if_pos ⟨rfl, hvalid⟩] at this
        exact this
      have heject : Act G ((l.mod f.t fun _ => u).act f)
          (({ l with ejects := l.ejects ++ [x] }.mod f.t fun _ => ejectif u i).act f) := by
        have hact := Act.eject (G := G) (l := (l.mod f.t fun _ => u).act f) (x := x) hlt
          (by rw [hat]; exact hc) (by rw [hat, halike.ifp, hifp, htgt])
          (by
            rw [hat, halike.nds]
            unfold Aoetgt.nds
            rw [hifs, htgt])
          rfl (Multiset.mem_cons_self f _) (by rw [hat]; exact hdev)
        have heq : ({ (l.mod f.t fun _ => u).act f with ejects := ((l.mod f.t fun _ => u).act f).ejects ++ [x] }.mod x.t
            fun t => ejectif t x.slot) = (({ l with ejects := l.ejects ++ [x] }.mod f.t fun _ => ejectif u i).act f) := by
          have hmm := mod_mod { l with ejects := l.ejects ++ [x] } f.t (fun _ => u) fun t => ejectif t i
          exact congrArg (fun m => Traffic.act m f) hmm
        rw [heq] at hact
        exact hact
      refine hmain ({ l with ejects := l.ejects ++ [x] }.mod f.t fun _ => ejectif u i)
        ((hfirst u (hturn.tail (.stats halike))).tail heject) ?_
      exact hsettle _ hcount _ (by rw [hsame])

private theorem collectExpired_traffic (d : Aoedev) (h : Hands) (timeout : ℤ) :
    (collectExpired d timeout).1.traffic { h with active := (collectExpired d timeout).2 + h.active } = d.traffic h := by
  have hact := congrArg Ledger.active (collectExpired_ledger d h timeout)
  exact congrArg (fun a => { d.traffic h with active := a }) hact

private theorem expireLoop_acts (utgts : ℕ) (fs : List Frame) (hi : (d.ledger { h with active := fs + h.active }).Inv) :
    Acts G (d.traffic { h with active := fs + h.active }) ((expireLoop utgts fs d).1.traffic h) := by
  induction fs generalizing d with
  | nil =>
    have hl : (expireLoop utgts [] d).1.traffic h = d.traffic { h with active := (([] : List Frame) : Multiset Frame) + h.active } := by
      simp [expireLoop, Aoedev.traffic]
    rw [hl]
    exact .refl
  | cons f rest ih =>
    let h' : Hands := { h with active := rest + h.active }
    have hh : ({ h with active := ((f :: rest : List Frame) : Multiset Frame) + h.active } : Hands) = h'.act f := by
      simp [h', Hands.act, ← Multiset.cons_coe]
    unfold expireLoop
    split
    · -- the frames left go back to the table, and only the table changes
      have hc := contents_update d.factive (bucket 0) (f :: rest ++ d.factive (bucket 0))
      rw [← Multiset.coe_add, ← add_assoc, add_left_inj] at hc
      have hl : ({ d with factive := Function.update d.factive (bucket 0) (f :: rest ++ d.factive (bucket 0)) } :
          Aoedev).traffic h = d.traffic { h with active := ((f :: rest : List Frame) : Multiset Frame) + h.active } := by
        simp only [Aoedev.traffic]
        rw [hc, add_assoc]
      rw [hl]
      exact .refl
    · rw [hh] at hi ⊢
      have ht : f.t < d.targets.length := by
        rw [← slots_ledger d (h'.act f)]
        exact hi.t_lt (by simp [ledger_hands_act, Ledger.keys_act])
      have hq := expireFrame_quiet utgts hi
      exact (expireFrame_acts utgts ht).trans (ih (hq.inv hi))

private theorem timerExpire_acts (hi : (d.ledger h).Inv) : Acts G (d.traffic h) ((timerExpire d).1.traffic h) := by
  have hl := collectExpired_ledger d h (rto d)
  have hacts := expireLoop_acts (G := G) d.targets.length (collectExpired d (rto d)).2 (hl ▸ hi)
  rw [collectExpired_traffic] at hacts
  exact hacts

private theorem timerKick_acts (hg : Good 0 d) : Acts G (d.traffic 0) ((timerKick d).traffic 0) := by
  unfold timerKick
  split
  · have hr : Runs .any 0 d 0 { d with flags.kickme := false } := by
      refine Runs.of_shift ?_ rfl rfl rfl (fun _ => .inl) le_rfl (fun hd => hd.congr rfl) rfl rfl
      exact Shift.unkick
    exact aoeblkRequest_acts (hr.good hg)
  · exact .refl

/-- One run of the retransmit timer. -/
theorem rexmitTimer_acts (hg : Good 0 d) : Acts G (d.traffic 0) ((rexmitTimer d).traffic 0) := by
  unfold rexmitTimer
  split
  · exact .refl
  · have hacts := timerExpire_acts (G := G) hg.inv
    cases hlate : (timerExpire d).2 with
    | true =>
      obtain ⟨hm, hb, -⟩ := timerExpire_late hg.inv hlate
      generalize timerExpire d = p at hlate hm hb hacts
      obtain ⟨d₁, late⟩ := p
      dsimp only at hlate hm hb hacts
      subst hlate
      obtain ⟨hs, hp, hbcnt⟩ := pieces_of_moves (C := .any) hm hb hg.inv
      have hr := aoedevDowndev_runs (C := .any) (d := d₁) trivial
      have hr' : Runs .any 0 d 0 (aoedevDowndev d₁) :=
        ⟨hs.trans hr.shifts, hp.trans hr.posts, fun _ => aoedevDowndev_hashed d₁, fun hw => hr.bcnt (hbcnt hw)⟩
      exact (hacts.trans (aoedevDowndev_acts d₁)).trans (timerKick_acts (hr'.good hg))
    | false =>
      have hq := timerExpire_quiet hg.inv hlate
      generalize timerExpire d = p at hlate hq hacts
      obtain ⟨d₁, late⟩ := p
      dsimp only at hlate hq hacts
      subst hlate
      have hr : Inner .any 0 d 0 d₁ := hq.inner hg.inv
      have hg₁ := hr.good hg
      have hr₂ : Inner .any 0 d₁ 0 (rexmitDeferred d₁) := (rexmitDeferred_quiet hg₁.inv).inner hg₁.inv
      exact (hacts.trans (rexmitDeferred_acts hg₁.inv)).trans (timerKick_acts (hr₂.good hg₁))

theorem flushPassOne_acts (d : Aoedev) (mode : FlushMode) : Acts G (d.traffic 0) ((flushPassOne d mode).traffic 0) := by
  unfold flushPassOne
  split
  · exact aoedevDowndev_acts d
  · exact .refl

end Expire

end AoeDriver
