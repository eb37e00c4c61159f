import AoeDriver.Frames.Resend

/-!
# Expiry of frames

The ledger moves of `rexmit_timer` up to the point where it sends deferred frames again or gives up the device.
-/

namespace AoeDriver

open Tables

/-- An interface is taken away only where another one is left. -/
theorem live_ejectif {t : Aoetgt} {i : ℕ} (h : Live t.wires) (hlt : i < NAOEIFS) (hi : i ≠ 0 ∨ (t.ifAt 1).nd.isSome) :
    Live (ejectif t i).wires := by
  have hlen : t.ifs.length = NAOEIFS := h.len
  have hfirst : (t.ifs.getD 0 default).nd.isSome := h.first
  refine ⟨?_, ?_, ?_, ?_, h.minbcnt⟩
  · change (t.ifs.eraseIdx i ++ [_]).length = NAOEIFS
    rw [List.length_append, List.length_eraseIdx_of_lt (hlen ▸ hlt), hlen]
    rfl
  · change ((t.ifs.eraseIdx i ++ [_]).getD 0 default).nd.isSome
    simp only [List.getD_eq_getElem?_getD]
    by_cases h0 : i = 0
    · subst h0
      have h1 : (t.ifs.getD 1 default).nd.isSome := by
        rcases hi with hi | hi
        · exact absurd rfl hi
        · exact hi
      cases hl : t.ifs with
      | nil => simp [hl] at hfirst; exact absurd hfirst (by decide)
      | cons a l =>
        cases l with
        | nil => simp [hl] at h1; exact absurd h1 (by decide)
        | cons b l => simpa [hl] using h1
    · obtain ⟨j, rfl⟩ := Nat.exists_eq_succ_of_ne_zero h0
      cases hl : t.ifs with
      | nil => simp [hl] at hfirst; exact absurd hfirst (by decide)
      | cons a l => simpa [hl] using hfirst
  · change ((t.ifs.eraseIdx i ++ [_]).map Aoeif.nd).Pairwise _
    rw [List.map_append, List.pairwise_append]
    refine ⟨?_, List.pairwise_singleton _ _, ?_⟩
    · exact h.packed.sublist ((List.eraseIdx_sublist _ _).map Aoeif.nd)
    · intro a _ b hb hsome
      rw [List.mem_singleton.mp hb] at hsome
      simp at hsome
  · intro x hx hnd
    rcases List.mem_append.mp hx with hx | hx
    · exact h.bcnt x (List.mem_of_mem_eraseIdx hx) hnd
    · rw [List.mem_singleton.mp hx] at hnd
      simp at hnd

theorem live_setLost {t : Aoetgt} (i lost : ℕ) (h : Live t.wires) :
    Live { t with ifs := t.ifs.modify i fun x => { x with lost := lost } }.wires := by
  refine ⟨?_, ?_, ?_, ?_, h.minbcnt⟩
  · exact (List.length_modify _ _ _).trans h.len
  · change ((t.ifs.modify i _).getD 0 default).nd.isSome
    rw [getD_modify]
    split
    · exact h.first
    · exact h.first
  · change ((t.ifs.modify i _).map Aoeif.nd).Pairwise _
    rw [map_modify_same _ _ (fun x : Aoeif => { x with lost := lost }) Aoeif.nd fun _ => rfl]
    exact h.packed
  · exact forall_mem_modify (p := fun x : Aoeif => x.nd.isSome → Payload x.bcnt ∧ t.minbcnt ≤ x.bcnt) h.bcnt
      fun _ hx => hx

theorem getif_lt {t : Aoetgt} {nd : Option NetDev} {i : ℕ} (h : getif t nd = some i) : i < NAOEIFS :=
  List.mem_range.mp (List.mem_of_find?_eq_some h)

private theorem live_countLost {f : Frame} {t : Aoetgt} (h : Live t.wires) : Live (countLost f t).wires := by
  unfold countLost
  split
  · exact h
  · rename_i i hi
    extract_lets lost t'
    have h' : Live t'.wires := live_setLost i lost h
    split
    · rename_i hc
      exact live_ejectif h' (getif_lt hi) hc.2
    · exact h'

private theorem slot_countLost (f : Frame) (t : Aoetgt) :
    (countLost f t).slot = { t.slot with wires := (countLost f t).wires } := by
  unfold countLost
  split
  · rfl
  · extract_lets lost t'
    split
    · rfl
    · rfl

private theorem slot_expireTgt (deadsecs utgts n : ℕ) (f : Frame) (t : Aoetgt) : (expireTgt deadsecs utgts n f t).slot =
    { t.slot with
      noutProbes := if f.probe then decChar t.noutProbes else t.noutProbes
      wires := (expireTgt deadsecs utgts n f t).wires } := by
  unfold expireTgt
  extract_lets t₁ t₂ t₃
  have h₁ : t₁.slot = t.slot := by
    simp only [t₁]
    split
    · rfl
    · rfl
  have h₃ : t₃.slot = t.slot := by
    rw [← h₁]
    simp only [t₃, t₂]
    split
    · rfl
    · rfl
  have hp : t₃.noutProbes = t.noutProbes := congrArg Slot.noutProbes h₃
  split
  · change _ = (⟨t.slot.free, t.slot.falloc, t.slot.nout, _, _⟩ : Slot)
    rw [← h₃, ← hp]
    rfl
  · rw [slot_countLost, h₃]
    rfl

private theorem live_expireTgt (deadsecs utgts n : ℕ) (f : Frame) {t : Aoetgt} (h : Live t.wires) :
    Live (expireTgt deadsecs utgts n f t).wires := by
  unfold expireTgt
  extract_lets t₁ t₂ t₃
  have h₁ : t₁.wires = t.wires := by
    simp only [t₁]
    split
    · rfl
    · rfl
  have h₃ : Live t₃.wires := by
    rw [← h₁] at h
    simp only [t₃, t₂]
    split
    · exact h
    · exact h
  split
  · exact h₃
  · exact live_countLost h₃

private theorem minbcnt_expireTgt (deadsecs utgts n : ℕ) (f : Frame) (t : Aoetgt) :
    (expireTgt deadsecs utgts n f t).minbcnt = t.minbcnt := by
  have hcount (t : Aoetgt) : (countLost f t).minbcnt = t.minbcnt := by
    unfold countLost
    split
    · rfl
    · dsimp only
      split
      · rfl
      · rfl
  unfold expireTgt
  extract_lets t₁ t₂ t₃
  have h₃ : t₃.minbcnt = t.minbcnt := by
    simp only [t₃, t₂, t₁]
    split
    · split
      · rfl
      · rfl
    · split
      · rfl
      · rfl
  split
  · exact h₃
  · rw [hcount, h₃]

/-- One expired frame goes from `factive` to `rexmitq`. -/
theorem expireFrame_quiet {d : Aoedev} {h : Hands} {f : Frame} (utgts : ℕ) (hi : (d.ledger (h.act f)).Inv) :
    Quiet (h.act f) d h (expireFrame utgts d f) := by
  have ht : f.t < d.targets.length := by
    rw [← slots_ledger d (h.act f)]
    exact hi.t_lt (by simp [ledger_hands_act, Ledger.keys_act])
  have hlive : Live (d.tgtAt f.t).wires := by
    have hl := hi.live f.t (by simpa using ht)
    rwa [slot_ledger] at hl
  have hpos : (d.tgtAt f.t).nout ≠ 0 := by
    have hn := hi.nout f.t
    rw [slot_ledger, ledger_hands_act] at hn
    simp only [Ledger.act, Multiset.countP_cons, if_true] at hn
    have hn' : (d.tgtAt f.t).nout = _ := hn
    omega
  unfold expireFrame
  extract_lets n d₀ d₁ d₂
  have hsame : ∃ ejects, d₀ = { d with hist.ejects := ejects } := by
    simp only [d₀, Aoedev.noteEject]
    split
    · exact ⟨_, rfl⟩
    · exact ⟨_, rfl⟩
  obtain ⟨ejects, hd₀⟩ := hsame
  clear_value d₀
  subst hd₀
  have htgt : d₂.tgtAt f.t = expireTgt d.aoeDeadsecs utgts n f (d.tgtAt f.t) := tgtAt_modTgt_self d ht _
  have hslot := slot_expireTgt d.aoeDeadsecs utgts n f (d.tgtAt f.t)
  have hnout : (d₂.tgtAt f.t).nout = (d.tgtAt f.t).nout := by
    rw [htgt]
    exact congrArg Slot.nout hslot
  have hnote : d₂.notePred .nout (d₂.tgtAt f.t).nout = d₂ := by
    rw [Aoedev.notePred, if_neg (by rw [hnout]; exact hpos)]
  rw [hnote]
  refine ⟨?_, id, rfl⟩
  have hl₁ : d₁.ledger h = (d.ledger h).modSlot f.t fun s =>
      { s with
        noutProbes := if f.probe then decChar s.noutProbes else s.noutProbes
        wires := (expireTgt d.aoeDeadsecs utgts n f (d.tgtAt f.t)).wires } :=
    ledger_modTgt_at d h f.t _ _ hslot
  have hl₂ : d₂.ledger h = (d₁.ledger h).defer f := by
    simp only [d₂, Aoedev.ledger, Ledger.defer]
    rw [coe_append_singleton_add]
  have hmin : (expireTgt d.aoeDeadsecs utgts n f (d.tgtAt f.t)).wires.minbcnt =
      ((d.ledger h).slot f.t).wires.minbcnt := by
    rw [slot_ledger]
    exact minbcnt_expireTgt _ _ _ _ _
  have hm : Move true _ _ := Move.expire (l := d.ledger h) (f := f)
    (live_expireTgt d.aoeDeadsecs utgts n f hlive) hmin
  have hl₃ := ledger_modTgt d₂ h f.t (fun t => { t with nout := decUshort t.nout })
    (fun s => { s with nout := decUshort s.nout }) (fun t => slot_counts t (decUshort t.nout) t.noutProbes)
  rw [hl₃, hl₂, hl₁, ledger_hands_act]
  refine .single ?_
  simp only [Ledger.modSlot, Ledger.defer, List.modify_modify_eq] at hm ⊢
  exact hm

theorem collectExpired_ledger (d : Aoedev) (h : Hands) (timeout : ℤ) :
    (collectExpired d timeout).1.ledger { h with active := (collectExpired d timeout).2 + h.active } = d.ledger h := by
  have hsplit : contents d.factive = contents (expired d timeout) + contents (collectExpired d timeout).1.factive :=
    contents_split _ _ _ fun i => (List.takeWhile_append_dropWhile).symm
  have hflat : ((collectExpired d timeout).2 : Multiset Frame) = contents (expired d timeout) := rfl
  have hact : contents (collectExpired d timeout).1.factive + ((collectExpired d timeout).2 + h.active) =
      contents d.factive + h.active := by
    rw [hsplit, hflat, add_left_comm, add_assoc]
  exact congrArg (fun a => { d.ledger h with active := a }) hact

private theorem collectExpired_hashed {d : Aoedev} (hd : d.Hashed) (timeout : ℤ) :
    (collectExpired d timeout).1.Hashed := by
  intro n f hf
  exact hd n f (List.Sublist.mem hf (List.dropWhile_sublist _))

/-- Either every frame in hand becomes deferred, or the loop stops at one that has waited too long and hangs the rest
on bucket 0. -/
private theorem expireLoop_moves (utgts : ℕ) (fs : List Frame) {d : Aoedev} {h : Hands}
    (hi : (d.ledger { h with active := fs + h.active }).Inv) :
    Moves true (d.ledger { h with active := fs + h.active }) ((expireLoop utgts fs d).1.ledger h) ∧
      (expireLoop utgts fs d).1.blk = d.blk ∧
      ((expireLoop utgts fs d).2 = false → d.Hashed → (expireLoop utgts fs d).1.Hashed) ∧
      ((expireLoop utgts fs d).2 = true → ∃ f ∈ ((expireLoop utgts fs d).1.ledger h).active,
        waitedTooLong (expireLoop utgts fs d).1 f = true) := by
  induction fs generalizing d with
  | nil =>
    refine ⟨?_, rfl, fun _ => id, by simp [expireLoop]⟩
    have hl : (expireLoop utgts [] d).1.ledger h = d.ledger { h with active := (([] : List Frame) : Multiset Frame) + h.active } := by
      simp [expireLoop, Aoedev.ledger]
    rw [hl]
    exact .refl
  | cons f rest ih =>
    let h' : Hands := { h with active := rest + h.active }
    have hh : ({ h with active := ((f :: rest : List Frame) : Multiset Frame) + h.active } : Hands) = h'.act f := by
      simp [h', Hands.act, ← Multiset.cons_coe]
    unfold expireLoop
    split
    · rename_i hw
      refine ⟨?_, rfl, by simp, fun _ => ⟨f, ?_, hw⟩⟩
      · have hc := contents_update d.factive (bucket 0) (f :: rest ++ d.factive (bucket 0))
        rw [← Multiset.coe_add, ← add_assoc, add_left_inj] at hc
        have hl : ({ d with factive := Function.update d.factive (bucket 0) (f :: rest ++ d.factive (bucket 0)) } :
            Aoedev).ledger h = d.ledger { h with active := ((f :: rest : List Frame) : Multiset Frame) + h.active } := by
          simp only [Aoedev.ledger]
          rw [hc, add_assoc]
        rw [hl]
        exact .refl
      · refine Multiset.mem_add.mpr (.inl (mem_contents.mpr ⟨bucket 0, ?_⟩))
        simp
    · rw [hh] at hi ⊢
      have hq := expireFrame_quiet utgts hi
      obtain ⟨hm, hb, hhash, hlate⟩ := ih (hq.inv hi)
      exact ⟨hq.moves.trans hm, hb.trans hq.blk, fun hf hd => hhash hf (hq.hashed hd), hlate⟩

theorem timerExpire_quiet {d : Aoedev} {h : Hands} (hi : (d.ledger h).Inv) (hf : (timerExpire d).2 = false) :
    Quiet h d h (timerExpire d).1 := by
  have hl := collectExpired_ledger d h (rto d)
  obtain ⟨hm, hb, hhash, -⟩ := expireLoop_moves d.targets.length (collectExpired d (rto d)).2 (hl ▸ hi)
  rw [hl] at hm
  exact ⟨hm, fun hd => hhash hf (collectExpired_hashed hd _), hb⟩

theorem timerExpire_late {d : Aoedev} {h : Hands} (hi : (d.ledger h).Inv) (hf : (timerExpire d).2 = true) :
    Moves true (d.ledger h) ((timerExpire d).1.ledger h) ∧ (timerExpire d).1.blk = d.blk ∧
      ∃ f ∈ ((timerExpire d).1.ledger h).active, waitedTooLong (timerExpire d).1 f = true := by
  have hl := collectExpired_ledger d h (rto d)
  obtain ⟨hm, hb, -, hlate⟩ := expireLoop_moves d.targets.length (collectExpired d (rto d)).2 (hl ▸ hi)
  rw [hl] at hm
  exact ⟨hm, hb, hlate hf⟩

end AoeDriver
