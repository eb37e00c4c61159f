import AoeDriver.Frames.Issue

/-!
# Deferred frames

The ledger moves of `resend`, `reassign_frame` and the loop of `rexmit_deferred`.
-/

namespace AoeDriver

open Tables

private theorem ifrotate_of_live {t : Aoetgt} (h : Live t.wires) : (ifrotate t).2 = true := by
  have h0 : (t.ifAt 0).nd.isNone = false := by
    have h1 := h.first
    simp only [Aoetgt.wires] at h1
    rw [Aoetgt.ifAt, ← Option.not_isSome, h1]
    rfl
  unfold ifrotate
  dsimp only
  by_cases hi : (decide (NAOEIFS ≤ t.ifp + 1) || (t.ifAt (t.ifp + 1)).nd.isNone) = true
  · rw [if_pos hi, if_neg (by simp [h0])]
  · rw [if_neg hi]
    simp only [Bool.or_eq_true, not_or] at hi
    rw [if_neg hi.2]

section Resend

variable (d : Aoedev) (h : Hands) (f : Frame)

private theorem ledger_resendInit (n : ℕ) : (resendInit d n f).1.ledger h =
    { d.ledger h with
      log := { (d.ledger h).log with xmits := d.hist.xmits ++ [⟨f.cmd, n, d.hist.ntags⟩] } } := rfl

private theorem blk_resendInit (n : ℕ) : (resendInit d n f).1.blk = d.blk := rfl

private theorem factive_resendInit (n : ℕ) : (resendInit d n f).1.factive = d.factive := rfl

private theorem resendInit_frame (n : ℕ) :
    ∃ nout skb, (resendInit d n f).2 = { f with tag := n, nout := nout, skb := some skb } ∧
    skb.hdr.tag = n ∧ skb.id = (f.skb.getD default).id ∧
    (skb.ata, skb.frags) = ((f.skb.getD default).ata, (f.skb.getD default).frags) :=
  ⟨_, _, rfl, rfl, rfl, rfl⟩

/-- A target that is `Live` always has an interface for the frame. -/
private theorem resend_ledger {d : Aoedev} {f : Frame} (h : Hands) (hl : Live (d.tgtAt f.t).wires) :
    ∃ nout skb sent jiffs, (resend d f).ledger h = ((d.ledger h).xmit f.cmd).act
        { f with
          tag := (d.ledger h).nextTag, nout := nout, skb := some skb, sent := sent, sentJiffs := jiffs } ∧
      skb.hdr.tag = (d.ledger h).nextTag ∧ skb.id = (f.skb.getD default).id ∧
      (skb.ata, skb.frags) = ((f.skb.getD default).ata, (f.skb.getD default).frags) ∧
      Stamped (d.ledger h) f { f with sent := sent, sentJiffs := jiffs } ∧
      (resend d f).blk = d.blk ∧ (d.Hashed → (resend d f).Hashed) := by
  have htgt : (newtag d).1.tgtAt f.t = d.tgtAt f.t := rfl
  have hn : (newtag d).2 = (d.ledger h).nextTag := rfl
  unfold resend
  dsimp only
  rw [htgt, if_pos (ifrotate_of_live hl), hn]
  let d₂ := (newtag d).1.modTgt f.t fun t => (ifrotate t).1
  have hl₂ : d₂.ledger h = { d.ledger h with
      log := { (d.ledger h).log with lasttag := (d.lasttag + 1) % 2^16, ntags := d.hist.ntags + 1 } } :=
    ledger_modTgt_same _ h f.t _ slot_ifrotate
  obtain ⟨nout, skb, hf₂, hhdr, hpacket, hdata⟩ := resendInit_frame d₂ f (d.ledger h).nextTag
  have hst := sendClone_stamped (d := (resendInit d₂ (d.ledger h).nextTag f).1.noteSend
      (resendInit d₂ (d.ledger h).nextTag f).2 false) (l := d.ledger h) (g := f)
    (f := { f with tag := (d.ledger h).nextTag, nout := nout, skb := some skb })
    (P := fun f' => ∃ sent jiffs, f' = { f with
      tag := (d.ledger h).nextTag, nout := nout, skb := some skb, sent := sent, sentJiffs := jiffs } ∧
        Stamped (d.ledger h) f { f with sent := sent, sentJiffs := jiffs })
    rfl rfl rfl rfl (fun sent jiffs hst => ⟨sent, jiffs, rfl, hst⟩)
  rw [← hf₂] at hst
  obtain ⟨sent, jiffs, hf', hst⟩ := hst
  refine ⟨nout, skb, sent, jiffs, ?_, hhdr, hpacket, hdata, hst, ?_, fun hd => ?_⟩
  · rw [ledger_fhash, ledger_sendClone, ledger_noteSend, ledger_resendInit, hl₂, hf']
    rfl
  · rw [blk_fhash, blk_sendClone, blk_noteSend, blk_resendInit]
    rfl
  · refine Aoedev.Hashed.fhash (hd.congr ?_) _
    rw [factive_sendClone, factive_noteSend, factive_resendInit]
    rfl

private theorem rexmitSend_open {d : Aoedev} {f : Frame} (h : Hands) (ht : f.t < d.targets.length)
    (hw : (d.tgtAt f.t).nout < (d.tgtAt f.t).maxout) (hl : Live (d.tgtAt f.t).wires) :
    ∃ f', (rexmitSend d f).ledger h = (((d.ledger h).xmit f.cmd).modSlot f.t fun s =>
        { s with
          nout := incUshort s.nout
          noutProbes := if f.probe then incChar s.noutProbes else s.noutProbes }).act f' ∧
      Resent (d.ledger h) f f' ∧ (rexmitSend d f).blk = d.blk ∧ (d.Hashed → (rexmitSend d f).Hashed) := by
  unfold rexmitSend
  rw [if_neg (by omega)]
  extract_lets d₁ since
  let f₁ : Frame := { f with waited := addUlong f.waited since, waitedTotal := addUlong f.waitedTotal since }
  have hl₁ : Live (d₁.tgtAt f₁.t).wires := by
    rw [tgtAt_modTgt_self d ht]
    exact hl
  obtain ⟨nout, skb, sent, jiffs, hled, hhdr, hpacket, hdata, hst, hblk, hhash⟩ := resend_ledger h hl₁
  refine ⟨{ f₁ with tag := (d.ledger h).nextTag, nout := nout, skb := some skb, sent := sent, sentJiffs := jiffs },
    ?_, ?_, hblk, hhash⟩
  · rw [hled, ledger_modTgt d h f.t _ (fun s => { s with
      nout := incUshort s.nout
      noutProbes := if f.probe then incChar s.noutProbes else s.noutProbes }) (fun _ => rfl)]
    rfl
  · refine ⟨rfl, rfl, rfl, rfl, rfl, rfl, rfl, rfl, rfl, rfl, ?_, hst, congrArg some hdata, ?_⟩
    · exact congrArg some hhdr
    · exact congrArg some hpacket

private theorem defer_quiet : Quiet (h.defer f) d h { d with rexmitq := d.rexmitq ++ [f] } := by
  refine Quiet.of_eq ?_ rfl rfl
  simp only [Aoedev.ledger, Hands.defer]
  rw [coe_append_singleton_add, Multiset.add_cons]

private theorem rexmitSend_quiet {d : Aoedev} {h : Hands} {f : Frame} (hi : (d.ledger (h.defer f)).Inv) :
    Quiet (h.defer f) d h (rexmitSend d f) := by
  have ht : f.t < d.targets.length := by
    rw [← slots_ledger d (h.defer f)]
    exact hi.t_lt (by simp [ledger_hands_defer, Ledger.keys_defer])
  by_cases hw : (d.tgtAt f.t).maxout ≤ (d.tgtAt f.t).nout
  · unfold rexmitSend
    rw [if_pos hw]
    exact defer_quiet d h f
  · have hl : Live (d.tgtAt f.t).wires := by
      have hlive := hi.live f.t (by simpa using ht)
      rwa [slot_ledger] at hlive
    obtain ⟨f', hled, hr, hblk, hhash⟩ := rexmitSend_open h ht (by omega) hl
    refine ⟨?_, hhash, hblk⟩
    rw [hled, ledger_hands_defer]
    exact .single (.resend hr)

end Resend

private theorem stopProbe_quiet {d : Aoedev} {h : Hands} {f : Frame} (hp : f.probe = true) :
    Quiet (h.defer f) d h (stopProbe d f) := by
  refine ⟨?_, id, rfl⟩
  rw [ledger_hands_defer]
  have hl : (stopProbe d f).ledger h = ({ d.ledger h with kick := true }.put f.blank) :=
    congrArg (fun l : Ledger => { l with kick := true }) (ledger_aoeFreetframe d h f)
  rw [hl]
  exact .single (.drop hp)

private theorem tgtAt_sendClone (d : Aoedev) (f : Frame) (i : ℕ) : (sendClone d f).1.tgtAt i = d.tgtAt i := by
  simp only [sendClone]
  split
  · rfl
  · rfl

private theorem tgtAt_frameinit {d : Aoedev} {f : Frame} {i : ℕ} (hne : f.t ≠ i) (data : Option (List BioVec)) :
    (ataRwFrameinit d f data).1.tgtAt i = d.tgtAt i := by
  unfold ataRwFrameinit
  exact tgtAt_modTgt_ne _ hne _

private theorem tgtAt_probeCounted {d : Aoedev} {h : Hands} {i t : ℕ} (hi : (d.ledger h).Inv) (ht : t < d.targets.length)
    (hne : t ≠ i) : ((probeCounted d t).tgtAt i).face = (d.tgtAt i).face := by
  obtain ⟨hs, ho⟩ := newtframe_fetches hi ht
  unfold probeCounted probe
  rw [tgtAt_modTgt_ne _ hne]
  generalize newtframe d t = r at hs ho ⊢
  obtain ⟨d₁, o⟩ := r
  cases o with
  | none => exact hs.face i
  | some f =>
    obtain ⟨-, hft, -⟩ := ho
    dsimp only
    rw [← hs.face i, ← tgtAt_modTgt_ne d₁ hne fun x => (ifrotate x).1]
    congr 1
    refine (tgtAt_sendClone _ _ i).trans ?_
    exact tgtAt_frameinit (f := { f with probe := true, iter := _ }) (hft ▸ hne) none

/-- Another target takes over a deferred command. -/
private theorem reassign_quiet {d : Aoedev} {h : Hands} {f nf : Frame} (hi : (d.ledger ((h.defer f).hold nf)).Inv)
    (hp : f.probe = false) (hb : nf.Blank) (hw : (d.tgtAt nf.t).nout < (d.tgtAt nf.t).maxout) :
    Quiet ((h.defer f).hold nf) d h (rexmitSend (aoeFreetframe d { f with skb := nf.skb })
      { nf with
        skb := f.skb, buf := f.buf, iter := f.iter, waited := 0, waitedTotal := f.waitedTotal
        sent := f.sent, sentJiffs := f.sentJiffs, cmd := f.cmd, born := f.born }) := by
  have ht : nf.t < d.targets.length := by
    rw [← slots_ledger d ((h.defer f).hold nf)]
    exact hi.t_lt (by simp [ledger_hands_hold, Ledger.keys_hold])
  have hl : Live (d.tgtAt nf.t).wires := by
    have hlive := hi.live nf.t (by simpa using ht)
    rwa [slot_ledger] at hlive
  have hface : SameFaces d (aoeFreetframe d { f with skb := nf.skb }) := freetframe_faces _ _
  have hwires := hface.field nf.t Aoetgt.wires (fun _ => rfl)
  have hnout := hface.field nf.t Aoetgt.nout (fun _ => rfl)
  have hmaxout := hface.field nf.t Aoetgt.maxout (fun _ => rfl)
  let nf' : Frame := { nf with
    skb := f.skb, buf := f.buf, iter := f.iter, waited := 0, waitedTotal := f.waitedTotal
    sent := f.sent, sentJiffs := f.sentJiffs, cmd := f.cmd, born := f.born }
  obtain ⟨nf'', hled, hr, hblk, hhash⟩ := rexmitSend_open (d := aoeFreetframe d { f with skb := nf.skb }) (f := nf') h
    (by rw [hface.length]; exact ht) (by rw [hnout, hmaxout]; exact hw) (by rw [hwires]; exact hl)
  refine ⟨?_, fun hd => hhash hd, hblk⟩
  rw [hled, ledger_hands_hold, ledger_hands_defer, ledger_aoeFreetframe]
  have hr' : Resent (d.ledger h) nf' nf'' :=
    ⟨hr.id, hr.t, hr.rSkb, hr.buf, hr.iter, hr.probe, hr.cmd, hr.born, hr.waited, hr.tag, hr.hdr, hr.stamped, hr.ata,
      hr.packet⟩
  have hm : Move true _ _ := Move.reassign (l := d.ledger h) hp hb
    (⟨rfl, rfl, rfl, rfl, rfl, rfl, rfl, rfl, rfl, rfl, rfl, rfl⟩ : TakesOver f nf nf') hr'
  have hprobe : nf'.probe = false := hb.2.2.2
  simp only [hprobe, Bool.false_eq_true, if_false]
  exact .single hm

/-- What `reassign_frame` achieves; in the first case the deferred frame is still in hand, beside the new one. -/
theorem reassignFrame_cases {d : Aoedev} {h : Hands} {f : Frame} (hi : (d.ledger (h.defer f)).Inv) :
    match (reassignFrame d f).2 with
    | some p => ∃ nf, Quiet (h.defer f) d ((h.defer f).hold nf) (reassignFrame d f).1 ∧ nf.Blank ∧
        nf.t < d.targets.length ∧ nf.t ≠ f.t ∧
        ((reassignFrame d f).1.tgtAt nf.t).nout < ((reassignFrame d f).1.tgtAt nf.t).maxout ∧
        p = ({ nf with
          skb := f.skb, buf := f.buf, iter := f.iter, waited := 0, waitedTotal := f.waitedTotal
          sent := f.sent, sentJiffs := f.sentJiffs, cmd := f.cmd, born := f.born }, { f with skb := nf.skb })
    | none => Quiet (h.defer f) d (h.defer f) (reassignFrame d f).1 := by
  obtain ⟨hs, hc⟩ := newframe_chooses hi
  unfold reassignFrame
  generalize newframe d = r at hs hc ⊢
  obtain ⟨d₁, o⟩ := r
  cases o with
  | none => exact hc
  | some nf =>
    obtain ⟨hq, hb, ht, hw⟩ := hc
    dsimp only at hq ⊢
    by_cases hne : nf.t = f.t
    · rw [if_pos hne]
      exact hq.trans (freetframe_quiet _ _ hb)
    · rw [if_neg hne]
      refine ⟨nf, hq, hb, ht, hne, ?_, rfl⟩
      rw [hs.field nf.t Aoetgt.nout (fun _ => rfl), hs.field nf.t Aoetgt.maxout (fun _ => rfl)]
      exact hw

/-- One deferred frame. -/
theorem rexmitOne_quiet {d : Aoedev} {h : Hands} {f : Frame} (untainted : ℕ) (hi : (d.ledger (h.defer f)).Inv) :
    Quiet (h.defer f) d h (rexmitOne untainted d f) := by
  unfold rexmitOne
  dsimp only
  split
  · split
    · rename_i hp
      have hp' : f.probe = false := by simpa using hp
      have hre := reassignFrame_cases (h := h) hi
      generalize reassignFrame d f = r at hre ⊢
      obtain ⟨d₁, o⟩ := r
      cases o with
      | none => exact Quiet.trans hre (rexmitSend_quiet (Quiet.inv hre hi))
      | some p =>
        obtain ⟨nf, hq, hb, ht, hne, hw, rfl⟩ := hre
        dsimp only at hq hw ⊢
        have hi₁ := hq.inv hi
        split
        · have hft : f.t < d₁.targets.length := by
            rw [← slots_ledger d₁ ((h.defer f).hold nf)]
            exact hi₁.t_lt (by simp [ledger_hands_hold, ledger_hands_defer, Ledger.keys_hold, Ledger.keys_defer])
          have hprobe := probeCounted_quiet hi₁ hft
          have hface := tgtAt_probeCounted hi₁ hft (Ne.symm hne)
          have hnout := congrArg Aoetgt.nout hface
          have hmaxout := congrArg Aoetgt.maxout hface
          simp only [Aoetgt.face] at hnout hmaxout
          exact (hq.trans hprobe).trans (reassign_quiet (hprobe.inv hi₁) hp' hb (by rw [hnout, hmaxout]; exact hw))
        · exact hq.trans (reassign_quiet hi₁ hp' hb hw)
    · rename_i hp
      have hp' : f.probe = true := by simpa using hp
      split
      · exact stopProbe_quiet hp'
      · split
        · exact defer_quiet d h f
        · exact rexmitSend_quiet hi
  · split
    · exact stopProbe_quiet (by assumption)
    · exact rexmitSend_quiet hi

private theorem rexmitLoop_quiet (untainted : ℕ) (fs : List Frame) {d : Aoedev} {h : Hands}
    (hi : (d.ledger { h with deferred := fs + h.deferred }).Inv) :
    Quiet { h with deferred := fs + h.deferred } d h (rexmitLoop untainted fs d) := by
  induction fs generalizing d with
  | nil =>
    refine Quiet.of_eq ?_ rfl rfl
    simp [rexmitLoop, Aoedev.ledger]
  | cons f rest ih =>
    let h' : Hands := { h with deferred := rest + h.deferred }
    have hh : ({ h with deferred := ((f :: rest : List Frame) : Multiset Frame) + h.deferred } : Hands) = h'.defer f := by
      simp [h', Hands.defer, ← Multiset.cons_coe]
    rw [hh] at hi ⊢
    have hq := rexmitOne_quiet (h := h') untainted hi
    exact hq.trans (ih (hq.inv hi))

theorem rexmitDeferred_quiet {d : Aoedev} {h : Hands} (hi : (d.ledger h).Inv) : Quiet h d h (rexmitDeferred d) := by
  have hl : ({ d with rexmitq := [] } : Aoedev).ledger { h with deferred := d.rexmitq + h.deferred } = d.ledger h := by
    simp [Aoedev.ledger]
  have hq : Quiet h d { h with deferred := d.rexmitq + h.deferred } { d with rexmitq := [] } := Quiet.of_eq hl rfl rfl
  exact hq.trans (rexmitLoop_quiet _ _ (hl ▸ hi))

end AoeDriver
