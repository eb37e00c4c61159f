import AoeDriver.Run.Section

/-!
# Issue

`aoecmd_work` as a run: bufs are taken and cut, frames are sent, and nothing else happens.
-/

namespace AoeDriver

open Tables

section Work

variable {C : Cond} {h : Hands} {d : Aoedev}

theorem Runs.silent {h' : Hands} {d' : Aoedev} (hl : d'.ledger h' = d.ledger h) (hb : d'.blk.core = d.blk.core)
    (hu : ∀ c ∈ d'.hist.underflow, c ∈ d.hist.underflow ∨ c = .ref) (hf : d'.factive = d.factive)
    (hm : d'.maxbcnt = d.maxbcnt) : Runs C h d h' d' := by
  refine ⟨?_, ?_, fun hd => hd.congr hf, ?_⟩
  · rw [hl]
    exact .refl
  · have hn : d'.hist.ncmds = d.hist.ncmds := congrArg (fun l => l.log.ncmds) hl
    rw [stage, stage, hl]
    exact .single (.quiet hb hn.ge hu)
  · rw [hm, hl]
    exact id

theorem Runs.of_shift {h' : Hands} {d' : Aoedev} (hs : Shift C (d.ledger h) (d'.ledger h'))
    (hp : duties (d'.ledger h').pending = duties (d.ledger h).pending)
    (hl : duties (d'.ledger h').late = duties (d.ledger h).late) (hb : d'.blk.core = d.blk.core)
    (hu : ∀ c ∈ d'.hist.underflow, c ∈ d.hist.underflow ∨ c = .ref)
    (hn : (d.ledger h).log.ncmds ≤ (d'.ledger h').log.ncmds) (hf : d.Hashed → d'.Hashed) (hm : d'.maxbcnt = d.maxbcnt)
    (hw : (d'.ledger h').slots.map (·.wires.minbcnt) = (d.ledger h).slots.map (·.wires.minbcnt)) :
    Runs C h d h' d' := by
  refine ⟨.single hs, ?_, hf, ?_⟩
  rotate_left
  · rw [hm]
    exact fun hb => hb.congr hw
  rw [stage, stage, hp, hl]
  exact .single (.quiet hb hn hu)

private theorem nextbufAlloc_inner {r : ℕ} (hb : d.ip.buf = none) (hr : d.ip.rq = some r) :
    Inner C h d h (nextbufAlloc d r).1 ∧
      ∀ b, (nextbufAlloc d r).2 = some b → (nextbufAlloc d r).1.ip.buf = some b := by
  unfold nextbufAlloc
  dsimp only
  have hd : Inner C h d h { d with env.mempool := (nextOutcome d.env.mempool).2 } :=
    ⟨Runs.silent rfl rfl (fun _ => .inl) rfl rfl, rfl⟩
  split
  · split
    · refine ⟨hd.trans (⟨Runs.silent rfl rfl (fun _ => .inl) rfl rfl, rfl⟩), ?_⟩
      intro b hsome
      exact absurd hsome (by simp)
    · rename_i i hi
      refine ⟨hd.trans (Inner.of_aside ⟨fun _ => rfl, fun _ => rfl, rfl, rfl, rfl, rfl⟩ fun D L => .single (.take hb hr hi)), ?_⟩
      intro b hsome
      exact hsome
  · refine ⟨hd, ?_⟩
    intro b hsome
    exact absurd hsome (by simp)

theorem nextbuf_inner (h : Hands) (d : Aoedev) : Inner C h d h (nextbuf d).1 ∧
    ∀ b, (nextbuf d).2 = some b → (nextbuf d).1.ip.buf = some b := by
  unfold nextbuf
  split
  · exact ⟨Inner.refl h d, by simp⟩
  · split
    · rename_i b hb
      refine ⟨Inner.refl h d, ?_⟩
      intro b' hsome
      rw [hb]
      exact hsome
    · rename_i hb
      split
      · rename_i r hr
        exact nextbufAlloc_inner hb hr
      · rename_i hr
        split
        · exact ⟨Inner.refl h d, by simp⟩
        · rename_i rq q hq
          have hstart : Inner C h d h (startRq d rq q) :=
            Inner.of_aside ⟨fun _ => rfl, fun _ => rfl, rfl, rfl, rfl, rfl⟩ fun D L => .single (.start hq hr)
          obtain ⟨halloc, hsome⟩ := nextbufAlloc_inner (C := C) (h := h) (d := startRq d rq q) (r := rq.id) hb rfl
          exact ⟨hstart.trans halloc, hsome⟩

private theorem blk_noteCut (f : Frame) (buf : Buf) : (d.noteCut f buf).blk =
    { d.blk with cuts := d.blk.cuts ++ [⟨f.cmd, buf.rq, buf.bio, f.iter.sector, f.iter.size⟩] } := rfl

theorem ataRwSend_blk {b : ℕ} {f f' : Frame} (hcmd : f'.cmd = d.hist.ncmds)
    (hiter : f'.iter = cutIter d.maxbcnt (d.bufAt b).iter) :
    (ataRwSend d b f).blk = ((cutBuf d b).noteCut f' (d.bufAt b)).blk := by
  unfold ataRwSend
  extract_lets buf iter data
  dsimp only
  have hcmd' : (ataRwFrameinit (cutBuf d b) { f with buf := some b, iter := iter } data).2.cmd = f'.cmd := hcmd.symm
  have hiter' : (ataRwFrameinit (cutBuf d b) { f with buf := some b, iter := iter } data).2.iter = f'.iter :=
    hiter.symm
  rw [blk_fhash, blk_sendClone, blk_noteSend, blk_noteCut, blk_noteCut, blk_frameinit, hcmd', hiter']

/-- A frame is cut from the buf in process and sent. -/
private theorem ataRwSend_inner {b : ℕ} {f : Frame} (hb : d.ip.buf = some b) (hm : WholeSectors d.maxbcnt) (hf : f.Blank)
    (hs : f.skb.isSome) :
    Inner C (h.hold f) d h (ataRwSend d b f) := by
  obtain ⟨f', hl, hi, hp, hbuf, hiter, hata⟩ := ataRwSend_ledger (d := d) h b hf
  have hblk : (ataRwSend d b f).blk = ((cutBuf d b).noteCut f' (d.bufAt b)).blk := ataRwSend_blk hi.cmd hiter
  have hncmds : (ataRwSend d b f).hist.ncmds = d.hist.ncmds + 1 := congrArg (fun l => l.log.ncmds) hl
  have hmaxbcnt : (ataRwSend d b f).maxbcnt = d.maxbcnt := congrArg Blk.maxbcnt hblk
  have houter : (ataRwSend d b f).blk.outer = d.blk.outer := by
    rw [hblk]
    rfl
  refine ⟨⟨(ataRwSend_moves hf hs).shifts, ?_, ataRwSend_hashed, ?_⟩, houter⟩
  · obtain ⟨skb, hskb, hskbata⟩ := Option.map_eq_some_iff.mp hata
    have hduty : f'.duty = some ⟨b, f'.cmd, f'.iter,
        ataRwHdr d.flags.ext (d.rqAt (d.bufAt b).rq).write f'.iter⟩ := by
      rw [Frame.duty, hbuf, Option.map_some, hskb, Option.getD_some, hskbata]
    have htodo : duties ((ataRwSend d b f).ledger h).pending = ⟨b, f'.cmd, f'.iter,
        ataRwHdr d.flags.ext (d.rqAt (d.bufAt b).rq).write f'.iter⟩ ::ₘ duties (d.ledger (h.hold f)).pending := by
      rw [hl, Ledger.pending_act, ledger_hands_hold, Ledger.pending_hold, duties_cons_none (Frame.duty_none hf.1),
        duties, Multiset.filterMap_cons_some _ _ _ hduty]
      rfl
    have hlate : duties ((ataRwSend d b f).ledger h).late = duties (d.ledger (h.hold f)).late := by
      rw [hl]
      rfl
    rw [stage, stage, htodo, hlate]
    exact .single (.cut hb hm hblk hncmds hi.cmd hiter rfl)
  · rw [hmaxbcnt]
    exact fun hb => hb.congr (ataRwSend_moves hf hs).minbcnt

theorem aoecmdAtaRw_inner (hg : Good h d) : Inner C h d h (aoecmdAtaRw d).1 := by
  obtain ⟨hbuf, hsome⟩ := nextbuf_inner (C := C) h d
  unfold aoecmdAtaRw
  generalize nextbuf d = r at hbuf hsome ⊢
  obtain ⟨d₁, o⟩ := r
  cases o with
  | none => exact hbuf
  | some b =>
    have hip : d₁.ip.buf = some b := hsome b rfl
    have hg₁ : Good h d₁ := hbuf.good hg
    obtain ⟨-, hchoose⟩ := newframe_chooses hg₁.inv
    have hskb := newframe_skb d₁
    dsimp only
    generalize newframe d₁ = r at hchoose hskb ⊢
    obtain ⟨d₂, o⟩ := r
    cases o with
    | none => exact hbuf.trans (hchoose.inner hg₁.inv)
    | some f =>
      obtain ⟨hq, hblank, -⟩ := hchoose
      have hr : Inner C h d₁ (h.hold f) d₂ := hq.inner hg₁.inv
      have hip₂ : d₂.ip.buf = some b := (congrArg (fun k => k.ip.buf) hq.blk).trans hip
      exact (hbuf.trans hr).trans (ataRwSend_inner hip₂ (hr.bcnt hg₁.bcnt).1 hblank (hskb f rfl))

private theorem ataRwLoop_inner (fuel : ℕ) (hg : Good h d) : Inner C h d h (ataRwLoop fuel d) := by
  induction fuel generalizing d with
  | zero => exact Inner.refl h d
  | succ fuel ih =>
    have hr := aoecmdAtaRw_inner (C := C) hg
    unfold ataRwLoop
    generalize aoecmdAtaRw d = r at hr ⊢
    obtain ⟨d₁, more⟩ := r
    cases more with
    | true => exact hr.trans (ih (hr.good hg))
    | false => exact hr

theorem aoecmdWork_inner (hg : Good h d) : Inner C h d h (aoecmdWork d) := by
  have hr : Inner C h d h (rexmitDeferred d) := (rexmitDeferred_quiet hg.inv).inner hg.inv
  exact hr.trans (ataRwLoop_inner _ (hr.good hg))

private theorem failQueue_posts (q : List Request) (hq : d.queue = q) (D L : Multiset Duty) :
    Posts ⟨d, D, L⟩ ⟨failQueue q d, D, L⟩ := by
  induction q generalizing d with
  | nil => exact .refl
  | cons rq q ih =>
    have hpost : Post ⟨d, D, L⟩ ⟨endRequest { d with queue := q, rqs := rq :: d.rqs } rq.id true, D, L⟩ := .failFirst hq
    exact .head hpost (ih rfl)

theorem fastFail_aside : Aside d (fastFail d) := failQueue_aside _

theorem fastFail_posts (D L : Multiset Duty) : Posts ⟨d, D, L⟩ ⟨fastFail d, D, L⟩ := failQueue_posts _ rfl D L

private theorem fastFail_inner : Inner C h d h (fastFail d) := Inner.of_aside fastFail_aside fastFail_posts

theorem aoeblkRequest_down (hup : d.flags.up = false) : aoeblkRequest d = fastFail d := by
  rw [aoeblkRequest, hup]
  rfl

theorem aoeblkRequest_inner (hg : Good h d) : Inner C h d h (aoeblkRequest d) := by
  unfold aoeblkRequest
  split
  · exact aoecmdWork_inner hg
  · exact fastFail_inner

end Work

end AoeDriver
