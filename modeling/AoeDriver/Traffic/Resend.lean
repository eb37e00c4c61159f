import AoeDriver.Traffic.Issue

/-!
# Packets that are sent again

`resend`, `reassign_frame` and `rexmit_deferred` as acts.
-/

namespace AoeDriver

open Tables

section Resend

variable {G : Gate} {h : Hands} {d : Aoedev} {f : Frame}

private theorem ifrotate_resumed (f : Frame) (t : Aoetgt) : (ifrotate (t.resumed f)).1 = (ifrotate t).1.resumed f ∧
    (ifrotate (t.resumed f)).2 = (ifrotate t).2 := by
  have hif (i : ℕ) : (t.resumed f).ifAt i = t.ifAt i := rfl
  have hifp : (t.resumed f).ifp = t.ifp := rfl
  unfold ifrotate
  simp only [hif, hifp]
  generalize (if NAOEIFS ≤ t.ifp + 1 || (t.ifAt (t.ifp + 1)).nd.isNone then 0 else t.ifp + 1) = i
  split
  · exact ⟨rfl, rfl⟩
  · exact ⟨rfl, rfl⟩

private theorem resendInit_traffic (d : Aoedev) (h : Hands) (n : ℕ) (f : Frame) :
    (resendInit d n f).1.traffic h =
      { d.traffic h with nullNd := (d.traffic h).nullNd || ((d.traffic h).tgt f.t).nd.isNone } := by
  rw [tgt_traffic]
  rfl

private theorem resendInit_readied (d : Aoedev) (n : ℕ) (f : Frame) : Readied f (resendInit d n f).2 ∧
    Addressed (d.tgtAt f.t) (resendInit d n f).2 := ⟨⟨rfl, rfl, rfl, rfl⟩, ⟨rfl, rfl, rfl, rfl⟩⟩

private theorem resent_traffic {d₁ : Aoedev} {l : Traffic} (hl : d₁.traffic h =
      { l with nullNd := l.nullNd || (l.tgt f.t).nd.isNone }) :
    (fhash (sendClone (d₁.noteSend f false) f).1 (sendClone (d₁.noteSend f false) f).2).traffic h =
      (l.post f false (nextOutcome d₁.env.clone).1).act (sendClone (d₁.noteSend f false) f).2 := by
  rw [traffic_fhash, traffic_sendClone, traffic_noteSend, hl]
  rfl

private theorem resend_acts (hw : (d.tgtAt f.t).nout < (d.tgtAt f.t).maxout) (f' : Frame) (hf : Readied f f') :
    Acts G ((d.traffic h).defer f) ((resend (d.modTgt f.t (Aoetgt.resumed f)) f').traffic h) := by
  have hwl : ((d.traffic h).tgt f.t).nout < ((d.traffic h).tgt f.t).maxout := by
    rw [tgt_traffic]
    exact hw
  have hlt : f.t < d.targets.length := by
    by_contra hge
    have hdef : (d.traffic h).tgt f.t = default := tgt_default (by simpa [Aoedev.traffic] using hge)
    rw [hdef] at hwl
    exact absurd hwl (Nat.lt_irrefl 0)
  have hcount : ((newtag (d.modTgt f.t (Aoetgt.resumed f))).1).traffic h = (d.traffic h).mod f.t (Aoetgt.resumed f) :=
    traffic_modTgt d h f.t _ _ fun _ => rfl
  have htgt : (newtag (d.modTgt f.t (Aoetgt.resumed f))).1.tgtAt f'.t = (d.tgtAt f.t).resumed f := by
    rw [hf.t]
    exact tgtAt_modTgt_self d hlt _
  unfold resend
  dsimp only
  rw [htgt, (ifrotate_resumed f _).2]
  generalize (newtag (d.modTgt f.t (Aoetgt.resumed f))).2 = n
  generalize (newtag (d.modTgt f.t (Aoetgt.resumed f))).1 = d₁ at hcount htgt ⊢
  have hrot : (ifrotate ((d.traffic h).tgt f.t)).2 = (ifrotate (d.tgtAt f.t)).2 := by
    rw [tgt_traffic]
    exact (bare_ifrotate _).2.symm
  split
  · rename_i hok
    let d₂ := d₁.modTgt f'.t fun t => (ifrotate t).1
    have hl₂ : d₂.traffic h = (d.traffic h).mod f.t fun t => (ifrotate t).1.resumed f := by
      have hmod := traffic_modTgt d₁ h f'.t (fun t => (ifrotate t).1) (fun t => (ifrotate t).1) fun t => (bare_ifrotate t).1
      rw [hcount, hf.t, mod_mod] at hmod
      rw [show (fun t => (ifrotate t).1.resumed f) = fun t => (ifrotate (t.resumed f)).1 from
        funext fun t => (ifrotate_resumed f t).1.symm, ← hmod, ← hf.t]
    have hinit := resendInit_traffic d₂ h n f'
    obtain ⟨hready, haddr⟩ := resendInit_readied d₂ n f'
    have hat : (d₂.tgtAt f'.t).bare = (ifrotate ((d.traffic h).tgt f.t)).1.resumed f := by
      rw [← tgt_traffic d₂ h, hl₂, hf.t, tgt_mod, if_pos ⟨rfl, by simpa [Aoedev.traffic] using hlt⟩]
    have haddr' : Addressed (ifrotate ((d.traffic h).tgt f.t)).1 (resendInit d₂ n f').2 := by
      have hb : Addressed ((ifrotate ((d.traffic h).tgt f.t)).1.resumed f) (resendInit d₂ n f').2 := by
        rw [← hat]
        exact haddr.congr rfl rfl
      exact hb.congr rfl rfl
    have ht' : (resendInit d₂ n f').2.t = f'.t := hready.t
    rw [hl₂, ← ht'] at hinit
    rw [resent_traffic hinit]
    have hready' : Readied f (resendInit d₂ n f').2 :=
      ⟨hready.t.trans hf.t, hready.cmd.trans hf.cmd, hready.probe.trans hf.probe, hready.command.trans hf.command⟩
    exact .single (.resend hwl (hrot.trans hok) hready' haddr' (sendClone_restamped _ _))
  · rename_i hno
    have hl : (ktcomplete { d₁ with hist.stranded := true } f' none).traffic h =
        { (d.traffic h).mod f.t (Aoetgt.resumed f) with stranded := true } := by
      rw [← hcount]
      rfl
    rw [hl]
    exact .single (.strand (hrot.trans (by simpa using hno)) hwl)

theorem defer_traffic (d : Aoedev) (h : Hands) (f : Frame) :
    Aoedev.traffic { d with rexmitq := d.rexmitq ++ [f] } h = (d.traffic h).defer f := by
  simp only [Aoedev.traffic, Traffic.defer]
  rw [coe_append_singleton_add]

private theorem rexmitSend_acts (d : Aoedev) (h : Hands) (f : Frame) :
    Acts G ((d.traffic h).defer f) ((rexmitSend d f).traffic h) := by
  unfold rexmitSend
  split
  · rw [defer_traffic]
    exact .refl
  · rename_i hw
    exact resend_acts (Nat.lt_of_not_le hw) _ ⟨rfl, rfl, rfl, rfl⟩

theorem freetframe_traffic (d : Aoedev) (h : Hands) (f : Frame) : (aoeFreetframe d f).traffic h = d.traffic h :=
  traffic_stock h (freetframe_stock d f)

private theorem stopProbe_acts (d : Aoedev) (h : Hands) (f : Frame) :
    Acts G ((d.traffic h).defer f) ((stopProbe d f).traffic h) := by
  have hl : (stopProbe d f).traffic h = d.traffic h := freetframe_traffic d h f
  rw [hl]
  exact .single .leave

/-- One deferred frame. -/
private theorem rexmitOne_acts (untainted : ℕ) (hi : (d.ledger (h.defer f)).Inv) :
    Acts G (d.traffic (h.defer f)) ((rexmitOne untainted d f).traffic h) := by
  have hsend : Acts G (d.traffic (h.defer f)) ((rexmitSend d f).traffic h) := by
    rw [traffic_hands_defer]
    exact rexmitSend_acts d h f
  unfold rexmitOne
  dsimp only
  split
  · split
    · rename_i hp
      have hp' : f.probe = false := by simpa using hp
      have hre := reassignFrame_cases (h := h) hi
      have ht := newframe_traffic hi
      have hchoose := newframe_chooses hi
      have hrot : Acts G (d.traffic (h.defer f)) ((reassignFrame d f).1.traffic (h.defer f)) := by
        unfold reassignFrame
        generalize newframe d = r at ht ⊢
        obtain ⟨d₁, o⟩ := r
        cases o with
        | none =>
          dsimp only at ht ⊢
          rw [ht]
          exact .refl
        | some nf =>
          have hturn : Acts G (d.traffic (h.defer f)) (d₁.traffic (h.defer f)) := by
            dsimp only at ht
            rw [ht]
            exact .single (.turn (.single .rotate))
          dsimp only
          split
          · rw [freetframe_traffic]
            exact hturn
          · exact hturn
      clear ht hchoose
      generalize reassignFrame d f = r at hre hrot ⊢
      obtain ⟨d₁, o⟩ := r
      cases o with
      | none =>
        refine hrot.trans ?_
        dsimp only
        rw [traffic_hands_defer]
        exact rexmitSend_acts d₁ h f
      | some p =>
        obtain ⟨nf, hq, hb, hlt, hne, hw, rfl⟩ := hre
        dsimp only at hq hw hrot ⊢
        have hi₁ := hq.inv hi
        -- the probe of the old target, if there is one
        have hprobe : Acts G (d₁.traffic (h.defer f)) ((if (d₁.tgtAt f.t).noutProbes = 0 ∧ 0 < untainted then
            probeCounted d₁ f.t else d₁).traffic (h.defer f)) := by
          split
          · rename_i hc
            have hft : f.t < d₁.targets.length := by
              rw [← slots_ledger d₁ ((h.defer f).hold nf)]
              exact hi₁.t_lt (by simp [ledger_hands_hold, ledger_hands_defer, Ledger.keys_hold, Ledger.keys_defer])
            have hacts := probeCounted_acts (G := G) hi₁ hft hc.1
            rwa [traffic_hands_hold, traffic_hands_hold] at hacts
          · exact .refl
        refine (hrot.trans hprobe).trans ?_
        generalize (if (d₁.tgtAt f.t).noutProbes = 0 ∧ 0 < untainted then probeCounted d₁ f.t else d₁) = d₂
        rw [traffic_hands_defer]
        let g : Frame := { nf with
          skb := f.skb, buf := f.buf, iter := f.iter, waited := 0, waitedTotal := f.waitedTotal
          sent := f.sent, sentJiffs := f.sentJiffs, cmd := f.cmd, born := f.born }
        have htake : Act G ((d₂.traffic h).defer f) ((d₂.traffic h).defer g) := .takeOver hp' hb.2.2.2 rfl rfl
        refine .head htake ?_
        rw [← freetframe_traffic d₂ h { f with skb := nf.skb }]
        exact rexmitSend_acts _ h _
    · split
      · rw [traffic_hands_defer]
        exact stopProbe_acts d h f
      · split
        · rw [traffic_hands_defer, defer_traffic]
          exact .refl
        · exact hsend
  · split
    · rw [traffic_hands_defer]
      exact stopProbe_acts d h f
    · exact hsend

private theorem rexmitLoop_acts (untainted : ℕ) (fs : List Frame)
    (hi : (d.ledger { h with deferred := fs + h.deferred }).Inv) :
    Acts G (d.traffic { h with deferred := fs + h.deferred }) ((rexmitLoop untainted fs d).traffic h) := by
  induction fs generalizing d with
  | nil =>
    have hl : (rexmitLoop untainted [] d).traffic h =
        d.traffic { h with deferred := (([] : List Frame) : Multiset Frame) + h.deferred } := by
      simp [rexmitLoop, Aoedev.traffic]
    rw [hl]
    exact .refl
  | cons f rest ih =>
    let h' : Hands := { h with deferred := rest + h.deferred }
    have hh : ({ h with deferred := ((f :: rest : List Frame) : Multiset Frame) + h.deferred } : Hands) = h'.defer f := by
      simp [h', Hands.defer, ← Multiset.cons_coe]
    rw [hh] at hi ⊢
    have hq := rexmitOne_quiet (h := h') untainted hi
    exact (rexmitOne_acts (h := h') untainted hi).trans (ih (hq.inv hi))

theorem rexmitDeferred_acts (hi : (d.ledger h).Inv) : Acts G (d.traffic h) ((rexmitDeferred d).traffic h) := by
  have hl : ({ d with rexmitq := [] } : Aoedev).ledger { h with deferred := d.rexmitq + h.deferred } = d.ledger h := by
    simp [Aoedev.ledger]
  have ht : ({ d with rexmitq := [] } : Aoedev).traffic { h with deferred := d.rexmitq + h.deferred } = d.traffic h := by
    simp [Aoedev.traffic]
  have hacts := rexmitLoop_acts (G := G) (d := { d with rexmitq := [] }) (h := h) (countUntainted d) d.rexmitq (hl ▸ hi)
  rw [ht] at hacts
  exact hacts

theorem aoecmdWork_acts (hg : Good h d) : Acts G (d.traffic h) ((aoecmdWork d).traffic h) := by
  have hr : Inner ⟨fun _ _ => True, fun _ => True, fun _ => True⟩ h d h (rexmitDeferred d) :=
    (rexmitDeferred_quiet hg.inv).inner hg.inv
  exact (rexmitDeferred_acts hg.inv).trans (ataRwLoop_acts _ (hr.good hg))

end Resend

end AoeDriver
