import AoeDriver.Property.Cursor
import AoeDriver.Property.Selection
import AoeDriver.Life.Disk

/-!
# Wake-ups

`aoecmd_work` stops when there is no buf, no frame or no window to be had, and relies on a later event to call it
again: a response, or the timer that finds `DEVFL_KICKME` set. A buf that cannot be allocated arranges for neither.
-/

namespace AoeDriver

open Tables Machine

/-- Bios to be taken or bytes to be cut. -/
def Blk.Unsent (k : Blk) : Prop :=
  (k.ip.rq ≠ none ∧ k.ip.nxbio ≠ none) ∨ ∃ b ∈ k.bufs, k.ip.buf = some b.id ∧ b.iter.size ≠ 0

instance (k : Blk) : Decidable k.Unsent :=
  inferInstanceAs (Decidable ((k.ip.rq ≠ none ∧ k.ip.nxbio ≠ none) ∨ ∃ b ∈ k.bufs, k.ip.buf = some b.id ∧ b.iter.size ≠ 0))

/-- `nextbuf` finds a buf in process, has nothing to allocate one for, or can allocate it. -/
def Blk.fed (k : Blk) : Bool :=
  (nextOutcome k.mempool).1 || k.ip.buf.isSome || if k.ip.rq.isSome then k.ip.nxbio.isNone else k.queue.isEmpty

/-- The timer or a response will call `aoecmd_work`. -/
def Ledger.Awake (l : Ledger) : Prop := l.kick = true ∨ l.active + l.deferred ≠ 0

section Moves

variable {l l' : Ledger} {quiet : Bool}

theorem Move.awake (m : Move quiet l l') (h : l.Awake) : l'.Awake := by
  have hact (l : Ledger) (f : Frame) : (l.act f).Awake := .inr (by simp [Ledger.act])
  have hdefer (l : Ledger) (f : Frame) : (l.defer f).Awake := .inr (by simp [Ledger.defer])
  cases m with
  | alloc hcap hid ht hf => exact h
  | take ht => exact h
  | reskb hf hs => exact h
  | giveBack hf => exact h
  | send hf hi hb hp => exact hact _ _
  | probe hf hi hb hp => exact hact _ _
  | miss i => exact h
  | expire hw hm => exact hdefer _ _
  | resend hr => exact hact _ _
  | reassign hp hf ho hr => exact hact _ _
  | drop hp => exact .inl rfl
  | kick => exact .inl rfl

theorem Moves.awake (m : Moves quiet l l') (h : l.Awake) : l'.Awake := by
  induction m with
  | refl => exact h
  | tail _ hstep ih => exact hstep.awake ih

end Moves

section Unsent

variable {k k' : Blk}

theorem Sheds.unsent (s : Sheds k k') (hnx : k'.ip.nxbio = k.ip.nxbio) (h : k'.Unsent) : k.Unsent := by
  rcases h with ⟨hr, hn⟩ | ⟨b, hb, hip, hsize⟩
  · obtain ⟨r, hr⟩ := Option.ne_none_iff_exists'.mp hr
    refine .inl ⟨?_, hnx ▸ hn⟩
    rw [s.rq r hr]
    exact Option.some_ne_none r
  · obtain ⟨y, hy, hid, -, hy'⟩ := s.bufs b hb
    refine .inr ⟨y, hy, ?_, ?_⟩
    · rw [← hid]
      exact s.buf _ hip
    · rcases hy' with hz | hy'
      · exact absurd hz hsize
      · rwa [← hy']

theorem Calm.unsent (c : Calm k k') (h : k'.Unsent) : k.Unsent := c.toSheds.unsent c.nxbio h

theorem Spent.unsent {d : Aoedev} (hs : Spent d) : ¬ d.blk.Unsent := by
  rintro (⟨hr, hn⟩ | ⟨b, hb, -, hsize⟩)
  · rcases hs.ip with h | h
    · exact hr h
    · exact hn h
  · exact hsize (hs.bufs b hb)

/-- Without anything to issue the cursor names a buf or a request that some frame belongs to. -/
private theorem frames_of_cursor {d : Aoedev} (hg : Good 0 d) (hn : ¬ d.blk.Unsent)
    (hip : d.ip.buf ≠ none ∨ d.ip.rq ≠ none) : d.listedFrames ++ d.heldFrames ≠ [] := by
  have hB := hg.books
  have hbuf {b : Buf} (hb : b ∈ d.bufs) (hz : b.iter.size = 0) : d.listedFrames ++ d.heldFrames ≠ [] := by
    intro hnil
    have hne := hB.live b hb hz
    rw [hB.nframesout b hb, count_refs, Aoedev.framesOf, hnil] at hne
    exact hne rfl
  by_cases hsome : d.ip.buf = none
  · have hr : d.ip.rq ≠ none := by simpa [hsome] using hip
    obtain ⟨r, hr'⟩ := Option.ne_none_iff_exists'.mp hr
    obtain ⟨rq, hrq, hid, -⟩ := hB.ipRq r hr'
    have hnx : d.ip.nxbio = none := by
      by_contra hnx
      exact hn (.inl ⟨hr, hnx⟩)
    have hrest : d.blk.rest rq = 0 := by simp [Blk.rest, Aoedev.blk, hnx]
    have hpos := Nat.pos_of_ne_zero (hB.due rq hrq)
    rw [hB.special rq hrq, hrest, add_zero] at hpos
    obtain ⟨b, hb, -⟩ := List.countP_pos_iff.mp hpos
    refine hbuf hb (hB.idle b hb ?_)
    have hnone : d.blk.ip.buf = none := hsome
    simp [hnone]
  · obtain ⟨n, hn'⟩ := Option.ne_none_iff_exists'.mp hsome
    obtain ⟨b, hb, hid⟩ := List.mem_map.mp (hB.ipBuf n hn')
    refine hbuf hb ?_
    by_contra hsize
    exact hn (.inr ⟨b, hb, by rw [hid]; exact hn', hsize⟩)

end Unsent

/-- A device with a queue has targets, and one without has no requests. -/
structure Equipped (d : Aoedev) : Prop where
  valid : d.rota.Valid
  targets : d.blkq = true → d.targets ≠ []
  requests : d.blkq = false → d.queue ++ d.rqs = []

theorem Equipped.step {d d' : Aoedev} (h : Equipped d) (hr : d.rota.Moves d'.rota) (hk : d'.blkq = d.blkq)
    (hs : Sheds d.blk d'.blk) : Equipped d' := by
  refine ⟨hr.keeps (fun r r' hr m => hr.move m) h.valid, ?_, ?_⟩
  · intro hq
    have hpos : 0 < d.rota.size := List.length_pos_iff.mpr (h.targets (hk ▸ hq))
    have hkeep : 0 < d'.rota.size := hr.keeps (P := fun r => 0 < r.size) (fun r r' hp m => by cases m <;> simp_all) hpos
    exact List.length_pos_iff.mp hkeep
  · intro hq
    rw [List.eq_nil_iff_forall_not_mem]
    intro x hx
    obtain ⟨rq, hrq, -⟩ := hs.rqs x hx
    have hnil := h.requests (hk ▸ hq)
    exact absurd hrq (by simp [Aoedev.blk, hnil])

theorem Equipped.idle {d : Aoedev} {B : Multiset ℕ} (h : Equipped d) (hB : Books d.blk B) (hq : d.blkq = false) :
    ¬ d.blk.Unsent := by
  have hrqs : d.rqs = [] := (List.append_eq_nil_iff.mp (h.requests hq)).2
  rintro (⟨hr, -⟩ | ⟨b, hb, -, -⟩)
  · obtain ⟨r, hr⟩ := Option.ne_none_iff_exists'.mp hr
    obtain ⟨rq, hrq, -⟩ := hB.ipRq r hr
    exact absurd hrq (by simp [Aoedev.blk, hrqs])
  · obtain ⟨rq, hrq, -⟩ := hB.bufRq b hb
    exact absurd hrq (by simp [Aoedev.blk, hrqs])

section Work

variable {d : Aoedev} {h : Hands} {B : Multiset ℕ}

private theorem nextbufAlloc_none {r : ℕ} (hp : (nextOutcome d.env.mempool).1 = true ∨ d.ip.nxbio = none)
    (hb : d.ip.buf = none) (hnone : (nextbufAlloc d r).2 = none) : ¬ (nextbufAlloc d r).1.blk.Unsent := by
  have hdone (d' : Aoedev) (hip : d'.ip = d.ip) (hnx : d.ip.nxbio = none) : ¬ d'.blk.Unsent := by
    rintro (⟨-, hn⟩ | ⟨b, -, hbuf, -⟩)
    · exact hn ((congrArg InProcess.nxbio hip).trans hnx)
    · have hbuf' : d.ip.buf = some b.id := (congrArg InProcess.buf hip).symm.trans hbuf
      exact absurd (hb.symm.trans hbuf') (by simp)
  unfold nextbufAlloc at hnone ⊢
  dsimp only at hnone ⊢
  split at hnone
  · rename_i hok
    rw [if_pos hok]
    split at hnone
    · rename_i hnx
      exact hdone _ rfl hnx
    · exact absurd hnone (by simp)
  · rename_i hok
    rw [if_neg hok]
    exact hdone _ rfl (hp.resolve_left hok)

private theorem nextbuf_none (hq : Equipped d) (hB : Books d.blk B) (hp : d.blk.fed = true)
    (hnone : (nextbuf d).2 = none) : ¬ (nextbuf d).1.blk.Unsent := by
  have hfed : (nextOutcome d.env.mempool).1 = true ∨ d.ip.buf.isSome = true ∨
      (if d.ip.rq.isSome then d.ip.nxbio.isNone else d.queue.isEmpty) = true := by
    rw [Blk.fed, Bool.or_eq_true, Bool.or_eq_true, or_assoc] at hp
    exact hp
  unfold nextbuf at hnone ⊢
  split at hnone
  · rename_i hk
    rw [if_pos hk]
    exact hq.idle hB (by simpa using hk)
  · rename_i hk
    rw [if_neg hk]
    split at hnone
    · exact absurd hnone (by simp)
    · rename_i hb
      have hfed' := hfed.imp_right fun h => h.resolve_left (by simp [hb])
      split at hnone
      · rename_i r hr
        rw [hr] at hfed'
        exact nextbufAlloc_none (hfed'.imp_right Option.isNone_iff_eq_none.mp) hb hnone
      · rename_i hr
        split at hnone
        · rintro (⟨hrq, -⟩ | ⟨b, -, hip, -⟩)
          · exact hrq hr
          · exact absurd (hb.symm.trans hip) (by simp)
        · rename_i rq q hqueue
          rw [hr, hqueue] at hfed'
          have hok : (nextOutcome d.env.mempool).1 = true := hfed'.resolve_right (by simp)
          exact nextbufAlloc_none (d := startRq d rq q) (.inl hok) hb hnone

private theorem newframe_none (hi : (d.ledger h).Inv) (hv : d.rota.Valid) (ht : d.targets ≠ [])
    (hnone : (newframe d).2 = none) : ((newframe d).1.ledger h).Awake := by
  have htgt : d.tgt < d.targets.length := by
    rcases hv with hlt | ⟨hzero, -⟩
    · exact hlt
    · exact absurd (List.length_eq_zero_iff.mp hzero) ht
  obtain ⟨-, hsel⟩ := newframe_run htgt
  by_cases hidle : d.Idle
  · refine .inl ?_
    have hflags := (hsel.kicks.1 ⟨hnone, hidle⟩).2
    exact congrArg Flags.kickme hflags
  · obtain ⟨-, hchoose⟩ := newframe_chooses hi
    rw [hnone] at hchoose
    refine Moves.awake hchoose.moves (.inr fun hz => hidle fun t hmem _ => ?_)
    have hactive : (d.ledger h).active = 0 := (add_eq_zero.mp hz).1
    obtain ⟨i, hi', rfl⟩ := List.getElem_of_mem hmem
    have hnout := hi.nout i
    rw [slot_ledger, hactive, Multiset.countP_zero] at hnout
    simpa [Aoedev.tgtAt, Aoetgt.slot, List.getD_eq_getElem, hi'] using hnout

end Work

section Loop

variable {d : Aoedev} {h : Hands}

private theorem nextbuf_same (h : Hands) (d : Aoedev) :
    (nextbuf d).1.ledger h = d.ledger h ∧ (nextbuf d).1.rota = d.rota ∧ (nextbuf d).1.blkq = d.blkq := by
  have halloc (d : Aoedev) (r : ℕ) : (nextbufAlloc d r).1.ledger h = d.ledger h ∧ (nextbufAlloc d r).1.rota = d.rota ∧
      (nextbufAlloc d r).1.blkq = d.blkq := by
    unfold nextbufAlloc
    dsimp only
    split
    · split
      · exact ⟨rfl, rfl, rfl⟩
      · exact ⟨rfl, rfl, rfl⟩
    · exact ⟨rfl, rfl, rfl⟩
  unfold nextbuf
  split
  · exact ⟨rfl, rfl, rfl⟩
  · split
    · exact ⟨rfl, rfl, rfl⟩
    · split
      · exact halloc d _
      · split
        · exact ⟨rfl, rfl, rfl⟩
        · exact halloc (startRq d _ _) _

/-- A frame that is sent can be answered; where none is sent, there is nothing to send or a wake-up is arranged. -/
private theorem aoecmdAtaRw_wakes (hg : Good h d) :
    ((d.ledger h).Awake → ((aoecmdAtaRw d).1.ledger h).Awake) ∧
    ((aoecmdAtaRw d).2 = true → ((aoecmdAtaRw d).1.ledger h).Awake) ∧
    (Equipped d → d.blk.fed = true → (aoecmdAtaRw d).2 = false → (aoecmdAtaRw d).1.blk.Unsent →
      ((aoecmdAtaRw d).1.ledger h).Awake) := by
  obtain ⟨hbuf, hsome⟩ := nextbuf_inner (C := Cond.any) h d
  obtain ⟨hledger, hrota, hblkq⟩ := nextbuf_same h d
  have hnone (hq : Equipped d) (hp : d.blk.fed = true) := nextbuf_none hq hg.books hp
  have hqueue : (nextbuf d).2 ≠ none → d.blkq = true := by
    intro hne
    by_contra hk
    exact hne (by rw [nextbuf, if_pos (by simpa using hk)])
  unfold aoecmdAtaRw
  generalize nextbuf d = r at hbuf hsome hledger hrota hblkq hnone hqueue ⊢
  obtain ⟨d₁, o⟩ := r
  cases o with
  | none =>
    refine ⟨fun ha => ?_, fun hf => absurd hf (by simp), fun hq hp _ hu => absurd hu (hnone hq hp rfl)⟩
    change (d₁.ledger h).Awake
    rw [hledger]
    exact ha
  | some b =>
    have hg₁ : Good h d₁ := hbuf.good hg
    obtain ⟨-, hchoose⟩ := newframe_chooses hg₁.inv
    have hskb := newframe_skb d₁
    have hfail (hq : Equipped d) (hn : (newframe d₁).2 = none) : ((newframe d₁).1.ledger h).Awake := by
      have hv : d₁.rota.Valid := hrota ▸ hq.valid
      have ht : d₁.targets ≠ [] := by
        have hsize : d₁.targets.length = d.targets.length := congrArg Rota.size hrota
        have hpos := List.length_pos_iff.mpr (hq.targets (hqueue (by simp)))
        exact List.length_pos_iff.mp (hsize ▸ hpos)
      exact newframe_none hg₁.inv hv ht hn
    dsimp only at hledger ⊢
    generalize newframe d₁ = r at hchoose hskb hfail ⊢
    obtain ⟨d₂, o⟩ := r
    cases o with
    | none =>
      refine ⟨fun ha => Moves.awake hchoose.moves (hledger ▸ ha), fun hf => absurd hf (by simp), fun hq _ _ _ => hfail hq rfl⟩
    | some f =>
      obtain ⟨hq, hblank, -⟩ := hchoose
      obtain ⟨f', hl, -⟩ := ataRwSend_ledger (d := d₂) h b hblank
      have hawake : ((ataRwSend d₂ b f).ledger h).Awake := by
        rw [hl]
        exact .inr (by simp [Ledger.act])
      exact ⟨fun _ => hawake, fun _ => hawake, fun _ _ hf => absurd hf (by simp)⟩

private theorem ataRwLoop_awake (fuel : ℕ) (hg : Good h d) (ha : (d.ledger h).Awake) :
    ((ataRwLoop fuel d).ledger h).Awake := by
  induction fuel generalizing d with
  | zero => exact ha
  | succ fuel ih =>
    have hr := aoecmdAtaRw_inner (C := Cond.any) hg
    have hkeep := (aoecmdAtaRw_wakes hg).1 ha
    unfold ataRwLoop
    generalize aoecmdAtaRw d = r at hr hkeep ⊢
    obtain ⟨d₁, more⟩ := r
    cases more with
    | true => exact ih (hr.good hg) hkeep
    | false => exact hkeep

/-- Whatever is left to issue, `aoecmd_work` is called again. -/
def Wakes (h : Hands) (d : Aoedev) : Prop := d.blk.Unsent → (d.ledger h).Awake

private theorem ataRwLoop_wakes (fuel : ℕ) (hg : Good h d) (hq : Equipped d) (hp : d.blk.fed = true) :
    Wakes h (ataRwLoop (fuel + 1) d) := by
  have hr := aoecmdAtaRw_inner (C := Cond.any) hg
  obtain ⟨-, hsent, hstop⟩ := aoecmdAtaRw_wakes hg
  unfold ataRwLoop
  generalize aoecmdAtaRw d = r at hr hsent hstop ⊢
  obtain ⟨d₁, more⟩ := r
  cases more with
  | true => exact fun _ => ataRwLoop_awake fuel (hr.good hg) (hsent rfl)
  | false => exact hstop hq hp rfl

private theorem aoecmdWork_wakes (hg : Good h d) (hq : Equipped d) (hp : d.blk.fed = true ∨ (d.ledger h).Awake) :
    Wakes h (aoecmdWork d) := by
  have hquiet := rexmitDeferred_quiet hg.inv
  have hg' : Good h (rexmitDeferred d) := (hquiet.inner (C := Cond.any) hg.inv).good hg
  rcases hp with hp | ha
  · have hq' : Equipped (rexmitDeferred d) := hq.step (rexmitDeferred_rota d) (congrArg Blk.blkq hquiet.blk)
      (Sheds.congr (congrArg Blk.ahead hquiet.blk))
    have hp' : (rexmitDeferred d).blk.fed = true := (congrArg Blk.fed hquiet.blk).trans hp
    exact ataRwLoop_wakes _ hg' hq' hp'
  · exact fun _ => ataRwLoop_awake _ hg' (Moves.awake hquiet.moves ha)

private theorem aoeblkRequest_wakes (hg : Good h d) (hq : Equipped d) (hw : Wakes h d)
    (hp : d.flags.up = true → d.blk.fed = true ∨ (d.ledger h).Awake) : Wakes h (aoeblkRequest d) := by
  unfold aoeblkRequest
  split
  · rename_i hup
    exact aoecmdWork_wakes hg hq (hp hup)
  · intro hu
    rw [fastFail_aside.ledger]
    exact hw ((fastFail_calm d).unsent hu)

end Loop

/-- Where the frames that can be answered are. -/
def Aoedev.lists (d : Aoedev) : Bool × (Fin NFACTIVE → List Frame) × List Frame := (d.flags.kickme, d.factive, d.rexmitq)

section Completion

variable {d d' : Aoedev} {h : Hands} {b : ℕ}

private theorem awake_congr (hd : d'.lists = d.lists) (ha : (d.ledger h).Awake) : (d'.ledger h).Awake := by
  simp only [Aoedev.lists, Prod.mk.injEq] at hd
  obtain ⟨hkick, hfactive, hrexmitq⟩ := hd
  simpa only [Ledger.Awake, Aoedev.ledger, hkick, hfactive, hrexmitq] using ha

theorem Wakes.calm (hw : Wakes h d) (hc : Calm d.blk d'.blk) (hd : d'.lists = d.lists) : Wakes h d' :=
  fun hu => awake_congr hd (hw (hc.unsent hu))

theorem Wakes.congr (hw : Wakes h d) (hk : d'.blk.ahead = d.blk.ahead) (hd : d'.lists = d.lists) : Wakes h d' :=
  hw.calm (Calm.congr hk) hd

/-- What ending bufs and requests leaves alone. -/
structure Beside (d d' : Aoedev) : Prop where
  rota : d'.rota = d.rota
  env : d'.env = d.env
  blkq : d'.blkq = d.blkq
  up : d'.flags.up = d.flags.up
  queue : d'.queue = d.queue
  lists : d'.lists = d.lists

theorem Beside.trans {d'' : Aoedev} (s : Beside d d') (s' : Beside d' d'') : Beside d d'' where
  rota := s'.rota.trans s.rota
  env := s'.env.trans s.env
  blkq := s'.blkq.trans s.blkq
  up := s'.up.trans s.up
  queue := s'.queue.trans s.queue
  lists := s'.lists.trans s.lists

private theorem notePred_beside (c : Counter) (n : ℕ) : Beside d (d.notePred c n) := by
  unfold Aoedev.notePred
  split
  · exact ⟨rfl, rfl, rfl, rfl, rfl, rfl⟩
  · exact ⟨rfl, rfl, rfl, rfl, rfl, rfl⟩

private theorem modBuf_beside (d : Aoedev) (b : ℕ) (g : Buf → Buf) :
    Beside d (d.modBuf b g) := ⟨rfl, rfl, rfl, rfl, rfl, rfl⟩

private theorem modRq_beside (d : Aoedev) (r : ℕ) (g : Request → Request) : Beside d (d.modRq r g) :=
  ⟨rfl, rfl, rfl, rfl, rfl, rfl⟩

private theorem decNframesout_beside (d : Aoedev) (b : ℕ) : Beside d (decNframesout d b) := by
  apply (notePred_beside .nframesout (d.bufAt b).nframesout).trans
  apply modBuf_beside

private theorem freetframe_beside (d : Aoedev) (f : Frame) : Beside d (aoeFreetframe d f) :=
  ⟨rota_freetframe d f, rfl, rfl, rfl, rfl, rfl⟩

private theorem spoilBuf_beside (d : Aoedev) (b : ℕ) : Beside d (spoilBuf d b) := ⟨rfl, rfl, rfl, rfl, rfl, rfl⟩

private theorem endRequest_beside (d : Aoedev) (r : ℕ) (fastfail : Bool) : Beside d (endRequest d r fastfail) :=
  ⟨rfl, rfl, rfl, rfl, rfl, rfl⟩

private theorem settle_beside (d : Aoedev) (b : ℕ) : Beside d (settle d b) := by
  have hdrop : Beside d (dropBuf d b) := by
    have hbuf : Beside d { d with ip.buf := if d.ip.buf = some b then none else d.ip.buf
                                  bufs := d.bufs.filter (·.id ≠ b) } := ⟨rfl, rfl, rfl, rfl, rfl, rfl⟩
    apply hbuf.trans
    apply (notePred_beside .special (d.rqAt (d.bufAt b).rq).special).trans
    apply modRq_beside
  unfold settle closeBuf
  split
  · split
    · apply hdrop.trans
      apply endRequest_beside
    · exact hdrop
  · exact ⟨rfl, rfl, rfl, rfl, rfl, rfl⟩

theorem Equipped.beside (hq : Equipped d) (hs : Beside d d') (hb : Sheds d.blk d'.blk) : Equipped d' :=
  hq.step (.of_eq hs.rota) hs.blkq hb

/-- Nothing is left of buf `b`, the last one of its request. -/
def Aoedev.closes (d : Aoedev) (b : ℕ) : Prop :=
  (d.bufAt b).nframesout = 0 ∧ (d.bufAt b).iter.size = 0 ∧ predUlong (d.rqAt (d.bufAt b).rq).special = 0

private theorem settleRun_closes (d : Aoedev) (b : ℕ) :
    settleRun d b = settle d b ∨ d.closes b ∧ settleRun d b = aoeblkRequest (settle d b) := by
  unfold settleRun settle
  split
  · rename_i hleft
    rw [aoeEndBuf_eq]
    split
    · rename_i hlast
      exact .inr ⟨⟨hleft.1, hleft.2, hlast⟩, rfl⟩
    · exact .inl rfl
  · exact .inl rfl

/-- The end of a frame of buf `b` ends its request: it is the last frame of the buf, the buf the last one of the request,
and no byte of it is left to be cut, or none will be since the frame is lost. -/
def Aoedev.endsRq (d : Aoedev) (b : ℕ) (lost : Bool) : Bool :=
  (d.bufAt b).nframesout == 1 && (lost || (d.bufAt b).iter.size == 0) && (d.rqAt (d.bufAt b).rq).special == 1

/-- Buf `b` and its request are no longer in process. -/
def Aoedev.unprocess (d : Aoedev) (b : ℕ) : Aoedev :=
  { d with
    ip.buf := if d.ip.buf = some b then none else d.ip.buf
    ip.rq := if d.ip.rq = some (d.bufAt b).rq then none else d.ip.rq }

private theorem predUlong_zero {n : ℕ} (h : predUlong n = 0) : n = 1 := by
  unfold predUlong at h
  split at h <;> omega

private theorem rqAt_decNframesout (d : Aoedev) (b r : ℕ) : (decNframesout d b).rqAt r = d.rqAt r := by
  rw [Aoedev.rqAt, Aoedev.rqAt, rqs_decNframesout]

private theorem closes_dec (hb : b ∈ d.bufs.map Buf.id) (h : (decNframesout d b).closes b) : d.endsRq b false = true := by
  obtain ⟨hout, hsize, hspecial⟩ := h
  rw [decNframesout_bufAt hb] at hout hsize hspecial
  rw [rqAt_decNframesout] at hspecial
  have hsize' : (d.bufAt b).iter.size = 0 := hsize
  simp [Aoedev.endsRq, predUlong_zero hout, predUlong_zero hspecial, hsize']

private theorem spoilBuf_special (d : Aoedev) (b r : ℕ) : ((spoilBuf d b).rqAt r).special = (d.rqAt r).special := by
  let buf := (d.modBuf b fun x => { x with iter.size := 0 }).bufAt b
  let g (x : Request) : Request := { x with bios := x.bios.modify buf.bio (fun bio => { bio with error := true }) }
  have hid (x : Request) : (if x.id = buf.rq then g x else x).id = x.id := by split <;> rfl
  have hfind : (spoilBuf d b).rqAt r = ((d.rqs.find? (·.id = r)).map fun x => if x.id = buf.rq then g x else x).getD default := by
    change ((d.rqs.map fun x => if x.id = buf.rq then g x else x).find? (·.id = r)).getD default = _
    simp only [List.find?_map, Function.comp_def, hid]
  rw [hfind, Aoedev.rqAt]
  cases d.rqs.find? (·.id = r) with
  | none => rfl
  | some x =>
    rw [Option.map_some, Option.getD_some, Option.getD_some]
    split <;> rfl

private theorem closes_spoil (hb : b ∈ d.bufs.map Buf.id) (h : (spoilBuf (decNframesout d b) b).closes b) :
    d.endsRq b true = true := by
  have hb' : b ∈ (decNframesout d b).bufs.map Buf.id := by rwa [ids_decNframesout]
  have hat : (spoilBuf (decNframesout d b) b).bufAt b = { (decNframesout d b).bufAt b with iter.size := 0 } :=
    bufAt_modBuf_self (decNframesout d b) _ (fun _ => rfl) hb'
  obtain ⟨hout, -, hspecial⟩ := h
  rw [hat, decNframesout_bufAt hb] at hout hspecial
  rw [spoilBuf_special, rqAt_decNframesout] at hspecial
  simp [Aoedev.endsRq, predUlong_zero hout, predUlong_zero hspecial]

private theorem notePred_ip (c : Counter) (n : ℕ) : (d.notePred c n).ip = d.ip := by
  unfold Aoedev.notePred
  split
  · rfl
  · rfl

private theorem settle_ip (h : d.closes b) : (settle d b).ip = (d.unprocess b).ip := by
  have hdrop : (dropBuf d b).ip = { d.ip with buf := if d.ip.buf = some b then none else d.ip.buf } := by
    unfold dropBuf
    change (Aoedev.notePred _ _ _).ip = _
    rw [notePred_ip]
  rw [settle, if_pos ⟨h.1, h.2.1⟩, closeBuf, if_pos h.2.2, endRequest]
  dsimp only
  rw [hdrop]
  rfl

private theorem fed_congr {k k' : Blk} (hm : k'.mempool = k.mempool) (hip : k'.ip = k.ip) (hq : k'.queue = k.queue) :
    k'.fed = k.fed := by
  unfold Blk.fed
  rw [hm, hip, hq]

/-- What becomes of a frame's buf does not matter to the cursor. -/
private theorem unprocess_fed (hs : Beside d d') (hip : d'.ip = d.ip) (hrq : (d'.bufAt b).rq = (d.bufAt b).rq) :
    (d'.unprocess b).blk.fed = (d.unprocess b).blk.fed := by
  refine fed_congr (congrArg Env.mempool hs.env) ?_ hs.queue
  change (d'.unprocess b).ip = (d.unprocess b).ip
  rw [Aoedev.unprocess, Aoedev.unprocess, hip, hrq]

private theorem held_buf {f : Frame} (hf : f ∈ (d.ledger h).pending + (d.ledger h).late) (hb : f.buf = some b) :
    b ∈ (stage h d).refs := by
  have hduty : f.duty = some ⟨b, f.cmd, f.iter, (f.skb.getD default).ata⟩ := by rw [Frame.duty, hb, Option.map_some]
  refine Multiset.mem_map_of_mem Duty.buf (a := ⟨b, f.cmd, f.iter, (f.skb.getD default).ata⟩) ?_
  rcases Multiset.mem_add.mp hf with hp | hl
  · exact Multiset.mem_add.mpr (.inl ((Multiset.mem_filterMap _ _).mpr ⟨f, hp, hduty⟩))
  · exact Multiset.mem_add.mpr (.inr ((Multiset.mem_filterMap _ _).mpr ⟨f, hl, hduty⟩))

private theorem settleRun_wakes {e : Aoedev} (hg : Good h (settle e b)) (hq : Equipped d) (hw : Wakes h d)
    (hp : d.flags.up = true → e.closes b → (e.unprocess b).blk.fed = true ∨ (d.ledger h).Awake) (hs : Beside d e)
    (hsheds : Sheds d.blk e.blk) (hnx : e.ip.nxbio = d.ip.nxbio) : Wakes h (settleRun e b) := by
  have hsettled := settle_beside e b
  have hs' := hs.trans hsettled
  have hsettle : Wakes h (settle e b) := fun hu =>
    awake_congr hs'.lists (hw (hsheds.unsent hnx ((settle_calm e b).unsent hu)))
  rcases settleRun_closes e b with heq | ⟨hcloses, heq⟩
  · rw [heq]
    exact hsettle
  · rw [heq]
    refine aoeblkRequest_wakes hg (hq.beside hs' (hsheds.trans (settle_calm e b).toSheds)) hsettle fun hup => ?_
    refine (hp (hs'.up ▸ hup) hcloses).imp (fun hfed => ?_) (awake_congr hs'.lists)
    have hsame : (settle e b).blk.fed = (e.unprocess b).blk.fed :=
      fed_congr (congrArg Env.mempool hsettled.env) (settle_ip hcloses) hsettled.queue
    exact hsame.trans hfed

private theorem ktioFinish_wakes {f : Frame} (hg : Good (h.shelve f) d) (hq : Equipped d) (hw : Wakes h d)
    (hp : ∀ b, f.buf = some b → d.flags.up = true → d.endsRq b false = true →
      (d.unprocess b).blk.fed = true ∨ (d.ledger h).Awake) : Wakes h (ktioFinish d f) := by
  have hfree : Calm d.blk (aoeFreetframe d f).blk := Calm.congr rfl
  unfold ktioFinish
  cases hb : f.buf with
  | none => exact hw.calm hfree rfl
  | some b =>
    have hmem : b ∈ d.bufs.map Buf.id := by
      refine hg.books.held b (held_buf (Multiset.mem_add.mpr (.inr ?_)) hb)
      rw [ledger_hands_shelve]
      exact Multiset.mem_cons_self f _
    have hg' := (ktioSettle_inner (C := Cond.any) hb).good hg
    have hcalm := hfree.trans (decNframesout_calm (aoeFreetframe d f) b)
    have hbeside := (freetframe_beside d f).trans (decNframesout_beside (aoeFreetframe d f) b)
    refine settleRun_wakes hg' hq hw (fun hup hc => ?_) hbeside hcalm.toSheds hcalm.nxbio
    have hrq : ((decNframesout (aoeFreetframe d f) b).bufAt b).rq = (d.bufAt b).rq := by
      rw [decNframesout_bufAt (d := aoeFreetframe d f) hmem]
      rfl
    have hip : (decNframesout (aoeFreetframe d f) b).ip = d.ip := notePred_ip .nframesout (d.bufAt b).nframesout
    rw [unprocess_fed hbeside hip hrq]
    exact hp b hb hup (closes_dec (d := aoeFreetframe d f) hmem hc)

private theorem downdevFrame_wakes {f : Frame} (hg : Good (h.hold f) d) (hq : Equipped d) (hw : Wakes h d)
    (hp : ∀ b, f.buf = some b → d.flags.up = true → d.endsRq b true = true →
      (d.unprocess b).blk.fed = true ∨ (d.ledger h).Awake) : Wakes h (downdevFrame d f) := by
  have hfree {d : Aoedev} (hw : Wakes h d) : Wakes h (aoeFreetframe d f) := hw.congr rfl rfl
  unfold downdevFrame
  cases hb : f.buf with
  | none => exact hfree hw
  | some b =>
    have hmem : b ∈ d.bufs.map Buf.id := by
      refine hg.books.held b (held_buf (Multiset.mem_add.mpr (.inl ?_)) hb)
      rw [ledger_hands_hold, Ledger.pending_hold]
      exact Multiset.mem_cons_self f _
    have hg' := (lose_inner (C := Cond.any) hb).good hg
    have hcalm := decNframesout_calm d b
    have hsheds := hcalm.toSheds.trans (spoilBuf_sheds (decNframesout d b) b)
    have hbeside := (decNframesout_beside d b).trans (spoilBuf_beside (decNframesout d b) b)
    have hw' : Wakes (h.hold { f with buf := none }) d := hw
    dsimp only
    rw [aoeFailbuf_eq]
    refine hfree (settleRun_wakes (h := h.hold { f with buf := none }) hg' hq hw' (fun hup hc => ?_) hbeside hsheds hcalm.nxbio)
    have hb' : b ∈ (decNframesout d b).bufs.map Buf.id := by rwa [ids_decNframesout]
    have hrq : ((spoilBuf (decNframesout d b) b).bufAt b).rq = (d.bufAt b).rq := by
      have hat := bufAt_modBuf_self (decNframesout d b) (fun x => { x with iter.size := 0 }) (fun _ => rfl) hb'
      have hdec : ((decNframesout d b).bufAt b).rq = (d.bufAt b).rq := by
        rw [decNframesout_bufAt hmem]
      exact (congrArg Buf.rq hat).trans hdec
    have hip : (decNframesout d b).ip = d.ip := notePred_ip .nframesout (d.bufAt b).nframesout
    rw [unprocess_fed hbeside hip hrq]
    exact hp b hb hup (closes_spoil hmem hc)

end Completion

section Other

variable {d d' : Aoedev} {h : Hands}

private theorem newframe_awake (ha : (d.ledger h).Awake) : ((newframe d).1.ledger h).Awake := by
  have hstock {d d' : Aoedev} (hs : StockOnly d d') : d'.lists = d.lists := by
    obtain ⟨_, _, _, _, _, _, _, _, rfl, -⟩ := hs
    rfl
  have hloop (fuel : ℕ) {d : Aoedev} (tt : ℕ) (useTainted hasUntainted : Bool) (totout : ℕ) (ha : (d.ledger h).Awake) :
      ((newframeLoop fuel d tt useTainted hasUntainted totout).1.ledger h).Awake := by
    induction fuel generalizing d tt useTainted hasUntainted totout with
    | zero => exact ha
    | succ fuel ih =>
      have htry : (newframeTry d (d.nextSlot tt) useTainted).1.lists = d.lists := by
        unfold newframeTry
        dsimp only
        split
        · exact hstock (newtframe_stock d _)
        · rfl
      unfold newframeLoop
      dsimp only
      generalize (if (d.tgtAt (d.nextSlot tt)).taint = 0 then totout + (d.tgtAt (d.nextSlot tt)).nout else totout) = n
      generalize newframeTry d (d.nextSlot tt) useTainted = r at htry ⊢
      obtain ⟨d₁, o⟩ := r
      have ha₁ : (d₁.ledger h).Awake := awake_congr htry ha
      cases o with
      | some f => exact awake_congr (d := d₁) rfl ha₁
      | none =>
        dsimp only
        split
        · split
          · exact ih _ _ _ _ ha₁
          · split
            · exact .inl rfl
            · exact ha₁
        · exact ih _ _ _ _ ha₁
  unfold newframe
  split
  · exact ha
  · exact hloop _ _ _ _ _ ha

private theorem aoecmdAtaId_awake (ha : (d.ledger h).Awake) : ((aoecmdAtaId d).1.ledger h).Awake := by
  have hnew := newframe_awake (d := d) ha
  unfold aoecmdAtaId
  generalize newframe d = r at hnew ⊢
  obtain ⟨d₁, o⟩ := r
  cases o with
  | none => exact hnew
  | some f =>
    dsimp only
    refine .inr ?_
    rw [ledger_fhash]
    simp [Ledger.act]

private theorem aoecmdAtaId_wakes (hw : Wakes h d) : Wakes h (aoecmdAtaId d).1 := by
  intro hu
  rw [aoecmdAtaId_blk] at hu
  exact aoecmdAtaId_awake (hw hu)

private theorem cfgTgt_lists (d : Aoedev) (c : CfgRsp) : (cfgTgt d c).1.lists = d.lists := by
  have hgrow : (growTargets d).1.lists = d.lists := by
    unfold growTargets
    dsimp only
    split
    · rfl
    · split
      · rfl
      · rfl
  unfold cfgTgt addtgt
  dsimp only
  split
  · rfl
  · generalize growTargets d = r at hgrow ⊢
    obtain ⟨d₁, ok⟩ := r
    cases ok with
    | false => exact hgrow
    | true =>
      dsimp only
      split
      · exact hgrow
      · exact hgrow

private theorem aoecmdCfgRsp_wakes (hw : Wakes h d) (c : CfgRsp) : Wakes h (aoecmdCfgRsp d c) := by
  have hset {d : Aoedev} (hw : Wakes h d) (t bcnt : ℕ) (nd : NetDev) : Wakes h (setifbcnt d t nd bcnt) := by
    unfold setifbcnt
    split
    · exact hw
    · obtain ⟨holds, hheld⟩ := noteHold_eq d t nd bcnt
      rw [hheld]
      exact hw.congr rfl rfl
  have htgt : Wakes h (cfgTgt d c).1 := hw.congr (congrArg Blk.ahead (cfgTgt_blk d c)) (cfgTgt_lists d c)
  unfold aoecmdCfgRsp
  generalize cfgTgt d c = r at htgt ⊢
  obtain ⟨d₁, o⟩ := r
  cases o with
  | none => exact htgt
  | some t =>
    have hset₁ := hset htgt t (cfgBcnt c.mtu c.scnt) c.dev
    dsimp only
    split
    · exact aoecmdAtaId_wakes (hset₁.congr rfl rfl)
    · exact hset₁

end Other

/-- `DEVFL_KICKME` is set, or a frame can be answered. -/
def Aoedev.covered (d : Aoedev) : Bool := d.flags.kickme || !d.listedFrames.isEmpty

/-- The end of frame `f` leaves the queue alone, or the queue runs with a buf to be had, or a wake-up is arranged. -/
def Aoedev.refills (d : Aoedev) (f : Frame) (lost : Bool) : Bool :=
  f.buf.all fun b => !(d.flags.up && d.endsRq b lost) || (d.unprocess b).blk.fed || d.covered

/-- The section of a thread runs the queue with a buf to be had, or with a wake-up arranged. The frame that it takes out for
its response does not count, but a probe that it sends does. -/
def Aoedev.resumes (d : Aoedev) : Thread → Bool
  | .rsp r => d.blk.fed || d.flags.kickme || d.listedFrames.map Frame.tag ≠ [r.tag]
  | .ktioOut _ f => (redeem d f.t).refills f false
  | .flush f => d.refills f true
  | _ => true

/-- The timer takes `DEVFL_KICKME` from the device with a frame left to be answered, or with a buf to be had if the device is
up and with nothing left to issue if it is down. -/
def Aoedev.rekicks (d : Aoedev) : Bool :=
  let (d', late) := timerExpire d
  let d' := rexmitDeferred d'
  d.flags.tkill || late || !d'.flags.kickme || !d'.listedFrames.isEmpty ||
    if d'.flags.up then d'.blk.fed else !decide d'.blk.Unsent

/-- No section that runs the queue is refused a buf for its first frame while nothing else will run the queue again. -/
def wakes (d : Aoedev) : Event → Bool
  | .blkRun env => !d.flags.up || ({ d with env := env } : Aoedev).blk.fed || d.covered
  | .run i env => d.threads[i]?.all fun th => ({ d with env := env } : Aoedev).resumes th
  | .rexmitTimer env => ({ d with env := env } : Aoedev).rekicks
  | _ => true

section Events

variable {d d' : Aoedev}

private theorem awake_of_listed (h : d.listedFrames ≠ []) : (d.ledger 0).Awake := by
  refine .inr fun hz => h ?_
  rw [← coe_listedFrames] at hz
  exact (Multiset.coe_eq_zero _).mp hz

private theorem covered_awake (h : d.covered = true) : (d.ledger 0).Awake := by
  rw [Aoedev.covered, Bool.or_eq_true] at h
  rcases h with hk | hl
  · exact .inl hk
  · exact awake_of_listed (by simpa using hl)

/-- Another frame than the one that is answered stays where it can be answered. -/
private theorem rspMatch_awake {r : Rsp} {f : Frame} (h : d.flags.kickme = true ∨ d.listedFrames.map Frame.tag ≠ [r.tag])
    (hf : (rspMatch d r).2 = some f) : ((rspMatch d r).1.ledger 0).Awake := by
  have hrtt (d : Aoedev) (t : Option ℕ) (rtt : ℤ) (ha : (d.ledger 0).Awake) : ((calcRttavg d t rtt).ledger 0).Awake := by
    rw [(calcRttavg_ledger t rtt).1]
    exact ha
  -- a frame is left on the lists unless the one with the tag is all there is
  have hleft {l : Ledger} {f : Frame} (hl : (d.ledger 0).active + (d.ledger 0).deferred = f ::ₘ (l.active + l.deferred))
      (hkick : l.kick = (d.ledger 0).kick) (htag : f.tag = r.tag) : l.Awake := by
    rcases h with hk | hne
    · exact .inl (hkick.trans hk)
    · refine .inr fun hz => hne ?_
      have hone : (↑d.listedFrames : Multiset Frame) = {f} := by
        rw [coe_listedFrames, hl, hz]
        rfl
      rw [Multiset.coe_eq_singleton.mp hone, List.map_singleton, htag]
  unfold rspMatch at hf ⊢
  split at hf
  · rename_i g d₁ hget
    obtain ⟨hl, -, -, htag⟩ := getframe_spec (h := 0) hget
    have ha₁ : (d₁.ledger 0).Awake := by
      refine hleft (f := g) ?_ (congrArg Ledger.kick hl).symm htag
      rw [hl]
      exact Multiset.cons_add g (d₁.ledger 0).active (d₁.ledger 0).deferred
    refine awake_congr ?_ (hrtt d₁ (some g.t) (tsinceHr d₁.clock g) ha₁)
    exact (notePred_beside .nout _).lists
  · split at hf
    · rename_i g d₁ hget
      obtain ⟨hl, -, -, htag⟩ := getframeDeferred_spec (h := 0) hget
      refine hrtt _ _ _ (hleft (f := g) ?_ (congrArg Ledger.kick hl).symm htag)
      rw [hl]
      exact Multiset.add_cons g (d₁.ledger 0).active (d₁.ledger 0).deferred
    · dsimp only at hf
      split at hf
      · exact absurd hf (by simp)
      · exact absurd hf (by simp)

private theorem rspMatch_none {r : Rsp} (h : (rspMatch d r).2 = none) : (rspMatch d r).1.lists = d.lists := by
  have hrtt (d : Aoedev) (t : Option ℕ) (rtt : ℤ) : (calcRttavg d t rtt).lists = d.lists := by
    unfold calcRttavg
    cases t with
    | none => rfl
    | some t => rfl
  unfold rspMatch at h ⊢
  split at h
  · exact absurd h (by simp)
  · split at h
    · exact absurd h (by simp)
    · dsimp only at h ⊢
      split
      · exact hrtt _ _ _
      · exact hrtt _ _ _

private theorem rspMatch_fed (d : Aoedev) (r : Rsp) : (rspMatch d r).1.blk.fed = d.blk.fed := by
  have hrtt (d : Aoedev) (t : Option ℕ) (rtt : ℤ) : (calcRttavg d t rtt).blk = d.blk :=
    (calcRttavg_quiet (h := 0) t rtt).blk
  have hnote (d : Aoedev) (n : ℕ) : (d.notePred .nout n).blk.fed = d.blk.fed := by
    unfold Aoedev.notePred
    split <;> rfl
  unfold rspMatch
  split
  · rename_i f d₁ hget
    have hblk := (getframe_spec (h := 0) hget).2.2.1
    have hrtt₁ := hrtt d₁ (some f.t) (tsinceHr d₁.clock f)
    exact (hnote _ _).trans (congrArg Blk.fed (hrtt₁.trans hblk))
  · split
    · rename_i f d₁ hget
      have hblk := (getframeDeferred_spec (h := 0) hget).2.2.1
      exact congrArg Blk.fed ((hrtt _ _ _).trans hblk)
    · dsimp only
      split
      · exact congrArg Blk.fed (hrtt _ _ _)
      · exact congrArg Blk.fed (hrtt _ _ _)

private theorem refills_of {f : Frame} {lost : Bool} {b : ℕ} (hs : d.refills f lost = true) (hb : f.buf = some b)
    (hup : d.flags.up = true) (hends : d.endsRq b lost = true) :
    (d.unprocess b).blk.fed = true ∨ (d.ledger 0).Awake := by
  rw [Aoedev.refills, hb, Option.all_some, hup, hends, Bool.or_eq_true] at hs
  exact hs.imp id covered_awake

private theorem ktioData_lists (d : Aoedev) (f : Frame) : (ktioData (noteProcessed d f) f).1.lists = d.lists := by
  obtain ⟨processed, hn, -⟩ := noteProcessed_cases d f
  rcases ktioData_cases (noteProcessed d f) f with ⟨b, -, hk⟩ | ⟨mem, skb, hk⟩
  · rw [hk, hn]
    rfl
  · rw [hk, hn]
    rfl

private theorem rexmitTimer_wakes (hg : Good 0 d) (hq : Equipped d) (hw : Wakes 0 d)
    (hsafe : d.rekicks = true) : Wakes 0 (rexmitTimer d) := by
  unfold Aoedev.rekicks at hsafe
  unfold rexmitTimer
  split
  · exact hw
  · rename_i hkill
    cases hlate : (timerExpire d).2 with
    | true =>
      obtain ⟨hm, hb, -⟩ := timerExpire_late hg.inv hlate
      generalize timerExpire d = p at hlate hm hb
      obtain ⟨d₁, late⟩ := p
      dsimp only at hlate hm hb
      subst hlate
      obtain ⟨hs, hp, hbcnt⟩ := pieces_of_moves (C := Cond.any) hm hb hg.inv
      have hg₁ : Good 0 d₁ := ⟨Shifts.inv hs hg.inv, Posts.books hp hg.books, hbcnt hg.bcnt⟩
      have hspent := (downdev_spent hg₁).1.unsent
      have hup : (aoedevDowndev d₁).flags.up = false := congrArg Blk.up (aoedevDowndev_outer d₁)
      intro hu
      refine absurd ?_ hspent
      dsimp only at hu
      unfold timerKick at hu
      split at hu
      · have hdown := aoeblkRequest_down (d := { aoedevDowndev d₁ with flags.kickme := false }) hup
        rw [hdown] at hu
        exact (fastFail_calm { aoedevDowndev d₁ with flags.kickme := false }).unsent hu
      · exact hu
    | false =>
      have hquiet := timerExpire_quiet hg.inv hlate
      have hrota : d.rota.Moves (timerExpire d).1.rota := by
        unfold timerExpire at hlate ⊢
        exact (collectExpired_rota d _).trans (.of_eq ((expireLoop_rota _ _ _).1 hlate))
      generalize timerExpire d = p at hlate hquiet hrota hsafe
      obtain ⟨d₁, late⟩ := p
      dsimp only at hlate hquiet hrota hsafe
      subst hlate
      have hquiet₂ := hquiet.trans (rexmitDeferred_quiet (hquiet.inv hg.inv))
      have hq₂ : Equipped (rexmitDeferred d₁) := hq.step (hrota.trans (rexmitDeferred_rota d₁))
        (congrArg Blk.blkq hquiet₂.blk) (Sheds.congr (congrArg Blk.ahead hquiet₂.blk))
      have hg₂ : Good 0 (rexmitDeferred d₁) := (hquiet₂.inner (C := Cond.any) hg.inv).good hg
      dsimp only
      unfold timerKick
      split
      · rename_i hkick
        rw [Bool.and_eq_true] at hkick
        let d₃ : Aoedev := { rexmitDeferred d₁ with flags.kickme := false }
        have hr : Runs Cond.any 0 (rexmitDeferred d₁) 0 d₃ := by
          refine Runs.of_shift ?_ rfl rfl rfl (fun _ => .inl) le_rfl (fun hd => hd.congr rfl) rfl rfl
          exact Shift.unkick
        have hg₃ : Good 0 d₃ := hr.good hg₂
        have hq₃ : Equipped d₃ := ⟨hq₂.valid, hq₂.targets, hq₂.requests⟩
        have hsafe₃ : d₃.listedFrames ≠ [] ∨ (if d₃.flags.up then d₃.blk.fed else !decide d₃.blk.Unsent) = true := by
          simp only [hkick.1, Bool.not_true, Bool.or_false, Bool.or_eq_true, hkill, Bool.false_eq_true, false_or,
            Bool.not_eq_true', List.isEmpty_eq_false_iff] at hsafe
          exact hsafe
        change Wakes 0 (aoeblkRequest d₃)
        rcases hsafe₃ with hlisted | hrest
        · have ha : (d₃.ledger 0).Awake := awake_of_listed hlisted
          exact aoeblkRequest_wakes hg₃ hq₃ (fun _ => ha) fun _ => .inr ha
        · by_cases hup : d₃.flags.up = true
          · rw [if_pos hup] at hrest
            rw [aoeblkRequest, if_pos hup]
            exact aoecmdWork_wakes hg₃ hq₃ (.inl hrest)
          · rw [if_neg hup] at hrest
            have hno : ¬ d₃.blk.Unsent := by simpa using hrest
            exact aoeblkRequest_wakes hg₃ hq₃ (fun hu => absurd hu hno) fun h => absurd h hup
      · intro hu
        refine Moves.awake hquiet₂.moves (hw ?_)
        have hblk := hquiet₂.blk
        rw [hblk] at hu
        exact hu

/-- One section of a thread. -/
private theorem runThread_wakes (hg : Good 0 d) (hq : Equipped d) (hw : Wakes 0 d) {i : ℕ} {th : Thread}
    (hi : d.threads[i]? = some th) (hsafe : d.resumes th = true) : Wakes 0 (runThread d i th) := by
  have hput (next : Option Thread) : Wakes 0 (aoedevPut (d.setThread i next)) := by
    refine hw.congr ((aoedevPut_ahead _).trans rfl) ?_
    exact (notePred_beside (d := d.setThread i next) .ref _).lists
  cases th with
  | rsp r =>
    have hr := rspMatch_inner (C := Cond.any) hg r
    have hahead := rspMatch_ahead d r
    have hrota := rspMatch_rota d r
    have hawake := fun f => rspMatch_awake (d := d) (r := r) (f := f)
    have hnone := rspMatch_none (d := d) (r := r)
    have hfed := rspMatch_fed d r
    simp only [Aoedev.resumes, Bool.or_eq_true, or_assoc, decide_eq_true_eq] at hsafe
    dsimp only [runThread]
    generalize rspMatch d r = p at hr hahead hrota hawake hnone hfed ⊢
    obtain ⟨d₁, o⟩ := p
    cases o with
    | none => exact hw.congr hahead (hnone rfl)
    | some f =>
      have hr₁ : Inner Cond.any 0 d (Hands.hold 0 f) d₁ := hr
      have hthreads : d₁.threads = d.threads := hr₁.field Blk.threads fun _ => rfl
      have hblkq : d₁.blkq = d.blkq := hr₁.field Blk.blkq fun _ => rfl
      have hset : Runs Cond.any (Hands.hold 0 f) d₁ 0 (d₁.setThread i (some (.matched f r))) :=
        setThread_runs (hthreads ▸ hi : d₁.threads[i]? = some (.rsp r)) _ rfl rfl rfl rfl
      have hq₁ : Equipped (d₁.setThread i (some (.matched f r))) := hq.step hrota hblkq (Sheds.congr hahead)
      refine aoecmdWork_wakes ((hr₁.toRuns.trans hset).good hg) hq₁ ?_
      rcases hsafe with hp | hsafe
      · exact .inl (hfed.trans hp)
      · exact .inr (awake_congr (d := d₁) rfl (hawake f hsafe rfl))
  | matched f r => exact hw.congr rfl rfl
  | unexpected => exact hput none
  | ktio id f =>
    have hk := hw.calm (ktioData_calm d f) (ktioData_lists d f)
    dsimp only [runThread]
    generalize ktioData (noteProcessed d f) f = p at hk ⊢
    obtain ⟨d₁, o⟩ := p
    cases o with
    | some m => exact hk.congr rfl rfl
    | none => exact hk.congr rfl rfl
  | ktioMid id f m =>
    cases m with
    | lost nd => exact hw.congr rfl rfl
    | ident data =>
      refine hw.congr (ataidComplete_ahead d data) ?_
      dsimp only [runThread]
      unfold ataidComplete
      dsimp only
      split
      · rfl
      · split
        · rfl
        · rfl
  | ktioOut id f =>
    have ht : f.t < d.targets.length := thread_frame_lt hg (List.mem_of_getElem? hi) (.inr (by simp [Thread.late]))
    have hquiet := redeem_quiet hg.inv ht
    have hi' : (redeem d f.t).threads[i]? = some (.ktioOut id f) := by
      have hth : (redeem d f.t).threads = d.threads := congrArg Blk.threads hquiet.blk
      rw [hth]
      exact hi
    have hset : Runs Cond.any 0 (redeem d f.t) (Hands.shelve 0 f) ((redeem d f.t).setThread i (some (.ktioPut id))) :=
      setThread_runs hi' _ rfl rfl rfl rfl
    have hg' := ((hquiet.inner hg.inv).toRuns.trans hset).good hg
    have hq₁ : Equipped (redeem d f.t) := hq.step (redeem_rota d f.t) (congrArg Blk.blkq hquiet.blk)
      (Sheds.congr (congrArg Blk.ahead hquiet.blk))
    have hq' : Equipped ((redeem d f.t).setThread i (some (.ktioPut id))) := ⟨hq₁.valid, hq₁.targets, hq₁.requests⟩
    have hkeep (ha : (d.ledger 0).Awake) : (((redeem d f.t).setThread i (some (.ktioPut id))).ledger 0).Awake :=
      awake_congr (d := redeem d f.t) rfl (Moves.awake hquiet.moves ha)
    refine ktioFinish_wakes hg' hq' (fun hu => hkeep (hw ?_)) ?_
    · have hu' : (redeem d f.t).blk.Unsent := hu
      rw [hquiet.blk] at hu'
      exact hu'
    · intro b hb hup hends
      exact (refills_of (d := redeem d f.t) hsafe hb hup hends).imp_right (awake_congr rfl)
  | ktioPut id => exact hput (some (.ktioSpawn id))
  | ktioSpawn id => exact hw.congr rfl rfl
  | flush f =>
    have hset : Runs Cond.any 0 d (Hands.hold 0 f) (d.setThread i (some .flushPut)) := setThread_runs hi _ rfl rfl rfl rfl
    have hq' : Equipped (d.setThread i (some .flushPut)) := ⟨hq.valid, hq.targets, hq.requests⟩
    refine downdevFrame_wakes (hset.good hg) hq' (hw.congr rfl rfl) fun b hb hup hends => ?_
    exact (refills_of hsafe hb hup hends).imp_right (awake_congr rfl)
  | flushPut => exact hput none
  | cfg c =>
    have hset : Wakes 0 (d.setThread i (some .cfgPut)) := hw.congr rfl rfl
    exact aoecmdCfgRsp_wakes hset c
  | cfgPut => exact hput none
  | reval first =>
    have hclean : Wakes 0 (if first then aoecmdCleanslate d else d) := by
      split
      · exact hw.congr rfl rfl
      · exact hw
    exact (aoecmdAtaId_wakes hclean).congr rfl rfl
  | revalPut => exact hput none
  | sleep pc =>
    refine hw.congr (sleepStep_ahead d pc) ?_
    cases pc with
    | gdalloc =>
      simp only [runThread, sleepStep]
      split
      · rfl
      · rfl
    | gdNow =>
      simp only [runThread, sleepStep]
      split
      · rfl
      · rfl
    | resize =>
      simp only [runThread, sleepStep]
      split
      · rfl
      · rfl
    | start => rfl
    | installed => rfl
    | resizing ssize => rfl

end Events

section Exec

variable {d d' : Aoedev}

theorem Wakes.exec {e : Event} (hg : Good 0 d) (hq : Equipped d) (hw : Wakes 0 d) (hsafe : wakes d e = true)
    (he : exec d e = some d') : Wakes 0 d' := by
  have hsome {x : Aoedev} (hx : some x = some d') (hr : Wakes 0 x) : Wakes 0 d' := by
    rw [Option.some.injEq] at hx
    exact hx ▸ hr
  have hif {c : Prop} [Decidable c] {x : Aoedev} (hx : (if c then some x else none) = some d')
      (hr : c → Wakes 0 x) : Wakes 0 d' := by
    split at hx
    · exact hsome hx (hr (by assumption))
    · exact absurd hx (by simp)
  have hhold {th : Thread} (hx : d.hold th = some d') : Wakes 0 d' := by
    unfold Aoedev.hold at hx
    split at hx
    · exact absurd hx (by simp)
    · exact hsome hx (hw.congr rfl rfl)
  have henv (env : Env) : Good 0 { d with env := env } := (outcomes_runs (C := Cond.any) trivial).good hg
  have hqenv (env : Env) : Equipped { d with env := env } := ⟨hq.valid, hq.targets, hq.requests⟩
  have hwenv (env : Env) : Wakes 0 { d with env := env } := hw.congr rfl rfl
  cases e with
  | clock usecs jiffs => exact hsome he (hw.congr rfl rfl)
  | dataref g => exact hsome he (hw.congr rfl rfl)
  | params deadsecs maxout => exact hsome he (hw.congr rfl rfl)
  | blkQueue rq => exact hif he fun _ hu => awake_congr (d := d) rfl (hw hu)
  | blkRun env =>
    refine hif he fun _ => aoeblkRequest_wakes (henv env) (hqenv env) (hwenv env) fun hup => ?_
    have hup' : d.flags.up = true := hup
    simp only [wakes, hup', Bool.not_true, Bool.false_or, Bool.or_eq_true] at hsafe
    exact hsafe.imp_right fun h => awake_congr (d := d) rfl (covered_awake h)
  | ataRsp r => exact hhold he
  | cfgRsp c => exact hhold he
  | revalidate => exact hhold he
  | sleepwork => exact hif he fun _ => hw.congr rfl rfl
  | ktioTake id =>
    dsimp only [AoeDriver.exec] at he
    split at he
    · split at he
      · exact hsome he (hw.congr rfl rfl)
      · exact absurd he (by simp)
    · exact absurd he (by simp)
  | flushIocq id => exact hsome he (hw.congr rfl rfl)
  | rexmitTimer env =>
    exact hif he fun _ => rexmitTimer_wakes (henv env) (hqenv env) (hwenv env) hsafe
  | flushDev mode env =>
    refine hsome he ?_
    unfold flushPassOne
    split
    · have hspent := (downdev_spent (henv env)).1.unsent
      exact fun hu => absurd hu hspent
    · exact hwenv env
  | blkOpen => exact hif he fun _ => hw.congr rfl rfl
  | blkRelease => exact hif he fun _ => hw.congr rfl rfl
  | signal i => exact hif he fun _ => hw.congr rfl rfl
  | run i env =>
    dsimp only [AoeDriver.exec] at he
    split at he
    · rename_i th hi
      have hi' : d.threads[i]? = some th := hi
      have hresumes : ({ d with env := env } : Aoedev).resumes th = true := by
        rw [wakes, hi', Option.all_some] at hsafe
        exact hsafe
      exact hsome he (runThread_wakes (henv env) (hqenv env) (hwenv env) hi hresumes)
    · exact absurd he (by simp)

end Exec

section Bare

variable {G : Guard} {s s' : Blk} {d : Aoedev} {ok : Aoedev → Event → Aoedev → Prop}

/-- Neither a disk nor the order to make one. -/
def Blk.Bare (s : Blk) : Prop := s.gd = none ∧ s.gdalloc = false

/-- Only a response to an identify command orders a disk. -/
theorem Turn.bare (t : Turn G s s') (hd : Disk False s) (hb : s.Bare)
    (hno : ∀ id f data, Thread.ktioMid id f (.ident data) ∉ s.threads) : s'.Bare := by
  have hshut : s.shut.Bare := ⟨by simp [Blk.shut, hb.1], hb.2⟩
  cases t with
  | same => exact hb
  | hold hk hr => exact hb
  | work hw => exact hb
  | take hq => exact hb
  | unqueue hq => exact hb
  | down hk hg => exact hshut
  | kill hm hq hg => exact hshut
  | opened hk => exact hb
  | released => exact hb
  | step hi hr hr' => exact hb
  | spawned hi => exact hb
  | queue hi => exact hb
  | put hi hr hn => exact hb
  | ident hi hg => exact absurd (List.mem_of_getElem? hi) (hno _ _ _)
  | @sleep i pc ok hi =>
    change (s.worked ok pc).1.Bare
    cases pc with
    | start => exact hb
    | gdalloc =>
      simp only [Blk.worked]
      split
      · exact hb
      · exact hb
    | gdNow =>
      have halloc := hd.alloc (List.mem_of_getElem? hi)
      exact absurd (hb.2.symm.trans halloc) Bool.false_ne_true
    | installed => exact hb
    | resize =>
      simp only [Blk.worked]
      split
      · exact hb
      · exact hb
    | resizing n => exact ⟨by simp [Blk.worked, hb.1], hb.2⟩

private theorem reachedBy_bare (h : ReachedBy ok d) : d.targets = [] → d.life.Bare := by
  let G : Guard := ⟨fun _ => True, fun _ _ => True, fun _ _ => True⟩
  have hmeets (s : Aoedev) (e : Event) : G.Meets s e := by cases e <;> simp [Guard.Meets, G]
  refine Reach.invariant (P := fun d => d.targets = [] → d.life.Bare) ?_ ?_ h
  · rintro s ⟨a, b, n, t, m, clock, c, rfl⟩ -
    exact ⟨rfl, rfl⟩
  · intro s e s' hs hp _ hstep hnil
    have hg := (reachedBy_good hs).1
    have hdisk : Disk False s.life := reachedBy_disk (G := G) False.elim (fun s e _ _ => hmeets s e) hs
    have hnil' : s.targets = [] := by
      obtain ⟨w, c, -, -, hm⟩ := exec_rota hstep.1
      by_contra hne
      have hpos : 0 < s.rota.size := List.length_pos_iff.mpr hne
      have hkeep : 0 < s'.rota.size := hm.keeps (P := fun r => 0 < r.size) (fun r r' hp m => by cases m <;> simp_all) hpos
      exact List.length_pos_iff.mp hkeep hnil
    refine (exec_turn hg (hmeets s e) hstep.1).bare hdisk (hp hnil') ?_
    intro id f data hmem
    have ht := thread_frame_lt hg (f := f) hmem (.inr (by simp [Thread.late]))
    rw [hnil'] at ht
    exact absurd ht (Nat.not_lt_zero _)

/-- Without a queue no request has been started. -/
def Stage.Unopened (s : Stage) : Prop := s.dev.blkq = false → s.dev.rqs = []

theorem Post.unopened {s s' : Stage} (p : Post s s') (hB : Books s.dev.blk s.refs) (h : s.Unopened) : s'.Unopened := by
  -- work on a buf or on a request is work on a device with a queue
  have hopen {k : Bool} (hk : k = s.dev.blkq) (hne : s.dev.rqs ≠ [] ∨ s.dev.queue ≠ []) {p : Prop} (hf : k = false) : p := by
    rw [hk] at hf
    rcases hne with hne | hne
    · exact absurd (h hf) hne
    · exact absurd (hB.queued hf) hne
  have hbuf {b : ℕ} (hb : b ∈ s.dev.bufs.map Buf.id) : s.dev.rqs ≠ [] := by
    obtain ⟨x, hx, -⟩ := List.mem_map.mp hb
    obtain ⟨rq, hrq, -⟩ := hB.bufRq x hx
    exact List.ne_nil_of_mem hrq
  have hip {r : ℕ} (hr : s.dev.ip.rq = some r) : s.dev.rqs ≠ [] := by
    obtain ⟨rq, hrq, -⟩ := hB.ipRq r hr
    exact List.ne_nil_of_mem hrq
  cases p with
  | @quiet d d' D L hb hn hu =>
    intro hf
    have hblkq : d'.blkq = d.blkq := congrArg Blk.blkq hb
    have hrqs : d'.rqs = d.rqs := congrArg Blk.rqs hb
    rw [hrqs]
    exact h (hblkq ▸ hf)
  | ready => exact fun hf => absurd hf (by simp)
  | queue hk hf hid => exact fun hno => absurd (hk.symm.trans hno) (by simp)
  | start hq hr => exact hopen rfl (.inr (by simp [hq]))
  | take hb hr hi => exact hopen rfl (.inl (hip hr))
  | cut hb hm hd hn hcmd hiter hx => exact hopen (congrArg Blk.blkq hd) (.inl (hbuf (hB.ipBuf _ hb)))
  | @process d D L f x hx hp =>
    have hkeep : (ktioData (noteProcessed d f) f).1.blkq = d.blkq := congrArg Blk.blkq (ktioData_aside d f).1.outer
    exact hopen hkeep (.inl (hbuf (hB.held x.buf (by simp [Stage.refs]))))
  | @finish d D L x =>
    have hkeep := ((decNframesout_beside d x.buf).trans (settle_beside _ x.buf)).blkq
    exact hopen hkeep (.inl (hbuf (hB.held x.buf (by simp [Stage.refs]))))
  | @lose d D L x =>
    have hspoil := (decNframesout_beside d x.buf).trans (spoilBuf_beside _ x.buf)
    have hkeep := (hspoil.trans (settle_beside _ x.buf)).blkq
    exact hopen hkeep (.inl (hbuf (hB.held x.buf (by simp [Stage.refs]))))
  | @spoil d D L b hb =>
    have hkeep := ((spoilBuf_beside d b).trans (settle_beside _ b)).blkq
    exact hopen hkeep (.inl (hbuf (hB.ipBuf _ hb)))
  | failRest hr => exact hopen (congrArg Blk.blkq (failRest_aside _).outer) (.inl (hip hr))
  | failFirst hq => exact hopen rfl (.inr (by simp [hq]))

private theorem reachedBy_equipped (h : ReachedBy ok d) : Equipped d := by
  have hg := (reachedBy_good h).1
  let G : Guard := ⟨fun _ => True, fun _ _ => True, fun _ _ => True⟩
  have hmeets (s : Aoedev) (e : Event) : G.Meets s e := by cases e <;> simp [Guard.Meets, G]
  have hdisk : Disk False d.life := reachedBy_disk (G := G) False.elim (fun s e _ _ => hmeets s e) h
  refine ⟨reachedBy_valid h, ?_, ?_⟩
  · intro hq hnil
    have hnone := (reachedBy_bare h hnil).1
    have hblkq : d.blkq = d.life.gd.isSome := hdisk.blkq
    rw [hnone, hq] at hblkq
    exact absurd hblkq (by simp)
  · intro hq
    have hrqs : (stage 0 d).Unopened := by
      refine reachedBy_stage (P := Stage.Unopened) ?_ (fun _ _ p hB hu => p.unopened hB hu) h
      rintro s ⟨a, b, n, t, m, clock, c, rfl⟩ -
      rfl
    exact List.append_eq_nil_iff.mpr ⟨hg.books.queued hq, hrqs hq⟩

end Bare

private theorem reachedBy_wakes {d : Aoedev} (h : ReachedBy (fun d e _ => wakes d e) d) : Wakes 0 d := by
  refine Reach.invariant (P := Wakes 0) ?_ ?_ h
  · rintro s ⟨a, b, n, t, m, clock, c, rfl⟩ hu
    have hip : (default : InProcess) = ⟨none, none, none⟩ := rfl
    simp [Blk.Unsent, initial, Aoedev.blk, hip] at hu
  · intro s e s' hs hw hsafe hstep
    exact hw.exec (reachedBy_good hs).1 (reachedBy_equipped hs) hsafe hstep.1

/-- In every run that meets the condition, a request that has been started and not fully sent is taken up again: the
timer will run the queue, or a frame is listed, queued for completion or in the hands of a thread. -/
theorem no_stranded_work {d : Aoedev} (h : ReachedBy (fun d e _ => wakes d e) d)
    (hip : d.ip.buf ≠ none ∨ d.ip.rq ≠ none) : d.flags.kickme = true ∨ d.listedFrames ++ d.heldFrames ≠ [] := by
  by_cases hu : d.blk.Unsent
  · rcases reachedBy_wakes h hu with hk | hl
    · exact .inl hk
    · refine .inr fun hnil => hl ?_
      rw [← coe_listedFrames, (List.append_eq_nil_iff.mp hnil).1]
      rfl
  · exact .inr (frames_of_cursor (reachedBy_good h).1 hu hip)

def narrowWaits : Scene wakes narrowStart (narrowIssue sampleRq) (fun d => d.ip.buf == some 0) :=
  ⟨by decide +kernel⟩

/-- A frame is out while bytes of the buf in process are left. -/
theorem no_stranded_work_narrow : ∃ d, ReachedBy (fun d e _ => wakes d e) d ∧ d.ip.buf = some 0 ∧
    (d.flags.kickme = true ∨ d.listedFrames ++ d.heldFrames ≠ []) := by
  obtain ⟨d, -, hreach, htest⟩ := narrowWaits.last narrowStart_initial
  have hbuf : d.ip.buf = some 0 := beq_iff_eq.mp htest
  exact ⟨d, hreach, hbuf, no_stranded_work hreach (.inl (by simp [hbuf]))⟩

/-- `mempool_alloc` does not fail. -/
def Env.pooled (env : Env) : Bool := env.mempool.all id

/-- `mempool_alloc` fails only while `MIN_BUFS` bufs are in use. Between the start of one of these sections and the first
failure every buf that is allocated stays in use. -/
def poolDrained (d : Aoedev) : Event → Bool
  | .blkRun env => env.pooled || MIN_BUFS ≤ d.bufs.length + (env.mempool.takeWhile id).length
  | .run i env =>
    env.pooled ||
      match d.threads[i]? with
      | some (.rsp _) => MIN_BUFS ≤ d.bufs.length + (env.mempool.takeWhile id).length
      | _ => false
  | .rexmitTimer env | .flushDev _ env => env.pooled
  | _ => true

def longRq : Request := { id := 7, write := true, special := 0, bios := (List.range 17).map fun i => narrowBio (8 + 2 * i) }

/-- Sixteen frames are sent. -/
def longIssue : List Event :=
  sampleUp ++ [.blkQueue longRq, .blkRun { (default : Env) with mempool := List.replicate MIN_BUFS true ++ [false] }]

/-- The `n`-th command is answered while the pool has no buf to give. -/
def longRsp (n : ℕ) : List Event :=
  [.ataRsp (sampleRsp n 0), .run 0 { (default : Env) with mempool := [false] }, .run 0 default]

/-- A response is processed to the end. -/
def longKtio : List Event := .ktioTake 2 :: sampleRun 0 5

def longEvents : List Event :=
  longIssue ++ (List.range MIN_BUFS).flatMap (fun i => longRsp (2 + i)) ++ (List.replicate MIN_BUFS longKtio).flatten

def longStranded : Scene poolDrained sampleStart longEvents
    (fun d => d.ip.rq == some 7 && d.flags.up && !d.flags.kickme && (d.listedFrames ++ d.heldFrames).isEmpty) :=
  ⟨by decide +kernel⟩

/-- All sixteen bufs wait for their completion when the last response arrives, and the seventeenth bio is never sent. -/
theorem work_stranded : ∃ d, ReachedBy (fun d e _ => poolDrained d e) d ∧ d.ip.rq = some 7 ∧ d.flags.up = true ∧
    d.flags.kickme = false ∧ d.listedFrames ++ d.heldFrames = [] := by
  obtain ⟨d, -, hreach, htest⟩ := longStranded.last sampleStart_initial
  simp only [Bool.and_eq_true, beq_iff_eq, Bool.not_eq_true', List.isEmpty_iff] at htest
  exact ⟨d, hreach, htest.1.1.1, htest.1.1.2, htest.1.2, htest.2⟩

end AoeDriver
