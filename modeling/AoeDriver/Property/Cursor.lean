import AoeDriver.Property.Failure
import AoeDriver.Property.Success

/-!
# The cursor

`d->ip` between two critical sections. The request in process has a bio left to take and the buf in process has bytes
left to cut, unless the device fails while a frame of that request waits to be completed: then the cursor stays where
it was and nothing is left there.
-/

namespace AoeDriver

open Tables Machine

/-- Nothing but a bio is taken through the cursor, and nothing but whole sectors is cut under it. -/
structure Cursor (k : Blk) : Prop where
  nxbio : ∀ r, k.ip.rq = some r → k.ip.nxbio ≠ none
  size : ∀ b ∈ k.bufs, k.ip.buf = some b.id → b.iter.size ≠ 0
  whole : ∀ rq ∈ k.queue ++ k.rqs, rq.Whole
  pieces : ∀ b ∈ k.bufs, 512 ∣ b.iter.size
  nullBio : k.nullBio = false
  cuts : ∀ c ∈ k.cuts, c.size / 512 ≠ 0

/-- The part of the block side that the cursor depends on. -/
def Blk.ahead (k : Blk) : InProcess × List Request × List Request × List Buf × Bool × List Cut :=
  (k.ip, k.queue, k.rqs, k.bufs, k.nullBio, k.cuts)

theorem Cursor.congr {k k' : Blk} (h : Cursor k) (hk : k'.ahead = k.ahead) : Cursor k' := by
  obtain ⟨⟩ := k
  obtain ⟨⟩ := k'
  simp only [Blk.ahead, Prod.mk.injEq] at hk
  obtain ⟨rfl, rfl, rfl, rfl, rfl, rfl⟩ := hk
  exact ⟨h.nxbio, h.size, h.whole, h.pieces, h.nullBio, h.cuts⟩

structure Sheds (k k' : Blk) : Prop where
  rqs : ∀ x ∈ k'.queue ++ k'.rqs, ∃ rq ∈ k.queue ++ k.rqs, x.bios.map Bio.iter = rq.bios.map Bio.iter
  bufs : ∀ x ∈ k'.bufs, ∃ b ∈ k.bufs, x.id = b.id ∧ x.rq = b.rq ∧ (x.iter.size = 0 ∨ x.iter.size = b.iter.size)
  buf : ∀ b, k'.ip.buf = some b → k.ip.buf = some b
  rq : ∀ r, k'.ip.rq = some r → k.ip.rq = some r
  nullBio : k'.nullBio = k.nullBio
  cuts : k'.cuts = k.cuts

/-- Without a failure there is as much left to issue as before. -/
structure Calm (k k' : Blk) : Prop extends Sheds k k' where
  nxbio : k'.ip.nxbio = k.ip.nxbio
  sizes : ∀ x ∈ k'.bufs, ∃ b ∈ k.bufs, x.id = b.id ∧ x.iter.size = b.iter.size

section Shed

variable {k k' k'' : Blk} {d : Aoedev} {b r : ℕ}

theorem Sheds.trans (s : Sheds k k') (s' : Sheds k' k'') : Sheds k k'' := by
  refine ⟨?_, ?_, fun b h => s.buf b (s'.buf b h), fun r h => s.rq r (s'.rq r h), s'.nullBio.trans s.nullBio,
    s'.cuts.trans s.cuts⟩
  · intro x hx
    obtain ⟨y, hy, hxy⟩ := s'.rqs x hx
    obtain ⟨z, hz, hyz⟩ := s.rqs y hy
    exact ⟨z, hz, hxy.trans hyz⟩
  · intro x hx
    obtain ⟨y, hy, hid, hrq, hsize⟩ := s'.bufs x hx
    obtain ⟨z, hz, hid', hrq', hsize'⟩ := s.bufs y hy
    refine ⟨z, hz, hid.trans hid', hrq.trans hrq', ?_⟩
    rcases hsize with h | h
    · exact .inl h
    · rw [h]
      exact hsize'

theorem Calm.trans (c : Calm k k') (c' : Calm k' k'') : Calm k k'' := by
  refine ⟨c.toSheds.trans c'.toSheds, c'.nxbio.trans c.nxbio, ?_⟩
  intro x hx
  obtain ⟨y, hy, hid, hsize⟩ := c'.sizes x hx
  obtain ⟨z, hz, hid', hsize'⟩ := c.sizes y hy
  exact ⟨z, hz, hid.trans hid', hsize.trans hsize'⟩

theorem Calm.of_sub (hrqs : ∀ x ∈ k'.queue ++ k'.rqs, ∃ rq ∈ k.queue ++ k.rqs, x.bios.map Bio.iter = rq.bios.map Bio.iter)
    (hbufs : ∀ x ∈ k'.bufs, ∃ b ∈ k.bufs, x.id = b.id ∧ x.rq = b.rq ∧ x.iter = b.iter)
    (hbuf : ∀ b, k'.ip.buf = some b → k.ip.buf = some b) (hrq : ∀ r, k'.ip.rq = some r → k.ip.rq = some r)
    (hnx : k'.ip.nxbio = k.ip.nxbio) (hnull : k'.nullBio = k.nullBio) (hcuts : k'.cuts = k.cuts) : Calm k k' := by
  refine ⟨⟨hrqs, ?_, hbuf, hrq, hnull, hcuts⟩, hnx, ?_⟩
  · intro x hx
    obtain ⟨y, hy, hid, hr, hiter⟩ := hbufs x hx
    exact ⟨y, hy, hid, hr, .inr (by rw [hiter])⟩
  · intro x hx
    obtain ⟨y, hy, hid, -, hiter⟩ := hbufs x hx
    exact ⟨y, hy, hid, by rw [hiter]⟩

theorem Calm.congr (hk : k'.ahead = k.ahead) : Calm k k' := by
  obtain ⟨⟩ := k
  obtain ⟨⟩ := k'
  simp only [Blk.ahead, Prod.mk.injEq] at hk
  obtain ⟨rfl, rfl, rfl, rfl, rfl, rfl⟩ := hk
  exact Calm.of_sub (fun x hx => ⟨x, hx, rfl⟩) (fun x hx => ⟨x, hx, rfl, rfl, rfl⟩) (fun _ => id) (fun _ => id) rfl rfl rfl

theorem Sheds.congr (hk : k'.ahead = k.ahead) : Sheds k k' := (Calm.congr hk).toSheds

theorem Cursor.sheds (h : Cursor k) (s : Sheds k k') (hnx : ∀ r, k'.ip.rq = some r → k'.ip.nxbio ≠ none)
    (hsize : ∀ b ∈ k'.bufs, k'.ip.buf = some b.id → b.iter.size ≠ 0) : Cursor k' := by
  refine ⟨hnx, hsize, ?_, ?_, s.nullBio.trans h.nullBio, ?_⟩
  · intro x hx
    obtain ⟨rq, hrq, hiter⟩ := s.rqs x hx
    rw [Request.Whole, hiter]
    exact h.whole rq hrq
  · intro x hx
    obtain ⟨y, hy, -, -, hsize⟩ := s.bufs x hx
    rcases hsize with hz | hsize
    · simp [hz]
    · rw [hsize]
      exact h.pieces y hy
  · rw [s.cuts]
    exact h.cuts

theorem Cursor.calm (h : Cursor k) (c : Calm k k') : Cursor k' := by
  apply h.sheds c.toSheds
  · intro r hr
    rw [c.nxbio]
    exact h.nxbio r (c.rq r hr)
  · intro x hx hip
    obtain ⟨y, hy, hid, hsize⟩ := c.sizes x hx
    rw [hsize]
    apply h.size y hy
    rw [← hid]
    exact c.buf _ hip

private theorem notePred_ahead (c : Counter) (n : ℕ) : (d.notePred c n).blk.ahead = d.blk.ahead := by
  unfold Aoedev.notePred
  split
  · rfl
  · rfl

private theorem calm_modRq {g : Request → Request} (hg : ∀ x, (g x).bios.map Bio.iter = x.bios.map Bio.iter) :
    Calm d.blk (d.modRq r g).blk := by
  refine Calm.of_sub ?_ (fun x hx => ⟨x, hx, rfl, rfl, rfl⟩) (fun _ => id) (fun _ => id) rfl rfl rfl
  intro x hx
  rcases List.mem_append.mp hx with hx | hx
  · exact ⟨x, List.mem_append_left _ hx, rfl⟩
  · obtain ⟨y, hy, rfl⟩ := List.mem_map.mp hx
    refine ⟨y, List.mem_append_right _ hy, ?_⟩
    split
    · exact hg y
    · rfl

private theorem map_iter_modify (l : List Bio) (i : ℕ) :
    (l.modify i fun bio => { bio with error := true }).map Bio.iter = l.map Bio.iter :=
  map_modify_same _ _ _ Bio.iter fun _ => rfl

private theorem failBio_calm (d : Aoedev) (b : ℕ) : Calm d.blk (failBio d b).blk :=
  calm_modRq fun x => map_iter_modify x.bios _

theorem decNframesout_calm (d : Aoedev) (b : ℕ) : Calm d.blk (decNframesout d b).blk := by
  refine (Calm.congr (notePred_ahead .nframesout (d.bufAt b).nframesout)).trans ?_
  refine Calm.of_sub (fun x hx => ⟨x, hx, rfl⟩) ?_ (fun _ => id) (fun _ => id) rfl rfl rfl
  intro x hx
  obtain ⟨y, hy, rfl⟩ := List.mem_map.mp hx
  refine ⟨y, hy, ?_⟩
  split
  · exact ⟨rfl, rfl, rfl⟩
  · exact ⟨rfl, rfl, rfl⟩

private theorem endRequest_calm (d : Aoedev) (r : ℕ) (fastfail : Bool) : Calm d.blk (endRequest d r fastfail).blk := by
  refine Calm.of_sub ?_ (fun x hx => ⟨x, hx, rfl, rfl, rfl⟩) (fun _ => id) ?_ rfl rfl rfl
  · intro x hx
    rcases List.mem_append.mp hx with hx | hx
    · exact ⟨x, List.mem_append_left _ hx, rfl⟩
    · exact ⟨x, List.mem_append_right _ (List.mem_of_mem_filter hx), rfl⟩
  · intro r' hr
    have hr' : (if d.ip.rq = some r then none else d.ip.rq) = some r' := hr
    split at hr'
    · exact absurd hr' (by simp)
    · exact hr'

private theorem failQueue_calm (q : List Request) (hq : d.queue = q) : Calm d.blk (failQueue q d).blk := by
  induction q generalizing d with
  | nil => exact Calm.congr rfl
  | cons rq q ih =>
    have hstart : Calm d.blk ({ d with queue := q, rqs := rq :: d.rqs } : Aoedev).blk := by
      refine Calm.of_sub ?_ (fun x hx => ⟨x, hx, rfl, rfl, rfl⟩) (fun _ => id) (fun _ => id) rfl rfl rfl
      intro x hx
      refine ⟨x, ?_, rfl⟩
      have hqueue : d.blk.queue = rq :: q := hq
      rw [hqueue]
      simpa [Aoedev.blk, or_left_comm, or_assoc] using hx
    exact (hstart.trans (endRequest_calm _ _ _)).trans (ih rfl)

theorem fastFail_calm (d : Aoedev) : Calm d.blk (fastFail d).blk := failQueue_calm d.queue rfl

private theorem dropBuf_calm (d : Aoedev) (b : ℕ) : Calm d.blk (dropBuf d b).blk := by
  have hdrop : Calm d.blk (Aoedev.blk { d with ip.buf := if d.ip.buf = some b then none else d.ip.buf
                                               bufs := d.bufs.filter (·.id ≠ b) }) := by
    refine Calm.of_sub (fun x hx => ⟨x, hx, rfl⟩) ?_ ?_ (fun _ => id) rfl rfl rfl
    · intro x hx
      exact ⟨x, List.mem_of_mem_filter hx, rfl, rfl, rfl⟩
    · intro b' hb
      have hb' : (if d.ip.buf = some b then none else d.ip.buf) = some b' := hb
      split at hb'
      · exact absurd hb' (by simp)
      · exact hb'
  exact (hdrop.trans (Calm.congr (notePred_ahead _ _))).trans (calm_modRq fun _ => rfl)

private theorem closeBuf_calm (d : Aoedev) (b : ℕ) : Calm d.blk (closeBuf d b).blk := by
  unfold closeBuf
  split
  · exact (dropBuf_calm d b).trans (endRequest_calm _ _ _)
  · exact dropBuf_calm d b

theorem settle_calm (d : Aoedev) (b : ℕ) : Calm d.blk (settle d b).blk := by
  unfold settle
  split
  · exact closeBuf_calm d b
  · exact Calm.congr rfl

theorem spoilBuf_sheds (d : Aoedev) (b : ℕ) : Sheds d.blk (spoilBuf d b).blk := by
  have hsize : Sheds d.blk (d.modBuf b fun x => { x with iter.size := 0 }).blk := by
    refine ⟨fun x hx => ⟨x, hx, rfl⟩, ?_, fun _ => id, fun _ => id, rfl, rfl⟩
    intro x hx
    obtain ⟨y, hy, rfl⟩ := List.mem_map.mp hx
    refine ⟨y, hy, ?_⟩
    split
    · exact ⟨rfl, rfl, .inl rfl⟩
    · exact ⟨rfl, rfl, .inr rfl⟩
  exact hsize.trans (failBio_calm _ b).toSheds

private theorem failBios_sheds (r n : ℕ) : Sheds d.blk (failBios r n d).blk := by
  induction n generalizing d with
  | zero => exact Sheds.congr rfl
  | succ n ih =>
    unfold failBios
    split
    · exact Sheds.congr rfl
    · rename_i i _
      have hset (d : Aoedev) (o : Option ℕ) : Sheds d.blk (d.setNxbio o).blk :=
        ⟨fun x hx => ⟨x, hx, rfl⟩, fun x hx => ⟨x, hx, rfl, rfl, .inr rfl⟩, fun _ => id, fun _ => id, rfl, rfl⟩
      have hnext : Sheds d.blk (failNext d r i).blk := by
        refine Sheds.trans ?_ (hset _ _)
        refine ((Calm.congr (notePred_ahead _ _)).trans (calm_modRq ?_)).toSheds
        exact fun x => map_iter_modify x.bios i
      exact hnext.trans ih

end Shed

section Down

variable {d : Aoedev}

private theorem settleRun_sheds (hup : d.flags.up = false) (b : ℕ) : Sheds d.blk (settleRun d b).blk := by
  have hs := (settle_calm d b).toSheds
  rcases settleRun_cases d b with heq | heq
  · rw [heq]
    exact hs
  · rw [heq, aoeblkRequest_down ((settle_aside b).up.trans hup)]
    exact hs.trans (fastFail_calm _).toSheds

private theorem aoeFailbuf_sheds (hup : d.flags.up = false) (b : ℕ) :
    Sheds d.blk (aoeFailbuf d b).blk ∧ (aoeFailbuf d b).flags.up = false := by
  have hup' : (spoilBuf d b).flags.up = false := (spoilBuf_aside b).up.trans hup
  rw [aoeFailbuf_eq]
  exact ⟨(spoilBuf_sheds d b).trans (settleRun_sheds hup' b), (settleRun_down hup' b).up.trans hup'⟩

private theorem downdevFrame_sheds (hup : d.flags.up = false) (f : Frame) : Sheds d.blk (downdevFrame d f).blk := by
  have hfree (d : Aoedev) : Sheds d.blk (aoeFreetframe d f).blk := Sheds.congr rfl
  unfold downdevFrame
  cases f.buf with
  | none => exact hfree d
  | some b =>
    have hup' : (decNframesout d b).flags.up = false := (decNframesout_aside b).up.trans hup
    exact ((decNframesout_calm d b).toSheds.trans (aoeFailbuf_sheds hup' b).1).trans (hfree _)

private theorem downdevFrames_sheds (fs : List Frame) (hup : d.flags.up = false) :
    Sheds d.blk (downdevFrames fs d).blk := by
  induction fs generalizing d with
  | nil => exact Sheds.congr rfl
  | cons f fs ih =>
    have hup' : (downdevFrame d f).flags.up = false := (congrArg Blk.up (downdevFrame_down hup f).2.2.1).trans hup
    exact (downdevFrame_sheds hup f).trans (ih hup')

private theorem failRq_sheds (hup : d.flags.up = false) : Sheds d.blk (failRq d).blk := by
  unfold failRq
  split
  · exact Sheds.congr rfl
  · rename_i r _
    have hbios := failBios_sheds (d := d) r (d.rqAt r).bios.length
    have hup' : (failBios r (d.rqAt r).bios.length d).flags.up = false := (failBios_aside r _).up.trans hup
    dsimp only
    split
    · rw [aoeEndRequest, aoeblkRequest_down ((endRequest_aside r false).up.trans hup')]
      exact hbios.trans ((endRequest_calm _ r false).trans (fastFail_calm _)).toSheds
    · exact hbios

private theorem aoeFailip_sheds (hup : d.flags.up = false) : Sheds d.blk (aoeFailip d).blk := by
  cases hb : d.ip.buf with
  | none =>
    rw [aoeFailip_none hb]
    exact failRq_sheds hup
  | some b =>
    obtain ⟨hs, hup'⟩ := aoeFailbuf_sheds hup b
    rw [aoeFailip_some hb, ← aoeFailbuf_eq]
    exact hs.trans (failRq_sheds hup')

private theorem aoedevDowndev_sheds (d : Aoedev) : Sheds d.blk (aoedevDowndev d).blk := by
  let d₀ : Aoedev := { d with flags.up := false, factive := fun _ => [] }
  let d₁ := downdevFrames d.activeFrames d₀
  have hup₁ : d₁.flags.up = false := congrArg Blk.up (downdevFrames_down (d := d₀) d.activeFrames rfl).2.2.1
  let d₂ : Aoedev := { d₁ with rexmitq := [] }
  have h₀ : Sheds d.blk d₀.blk := Sheds.congr rfl
  have h₁ : Sheds d₀.blk d₁.blk := downdevFrames_sheds (d := d₀) d.activeFrames rfl
  have h₂ : Sheds d₁.blk (downdevFrames d₁.rexmitq d₂).blk := downdevFrames_sheds (d := d₂) d₁.rexmitq hup₁
  have h₃ : Sheds (downdevFrames d₁.rexmitq d₂).blk (downdevSweep d).blk := Sheds.congr rfl
  have hsweep : Sheds d.blk (downdevSweep d).blk := ((h₀.trans h₁).trans h₂).trans h₃
  have hfail := aoeFailip_sheds (downdevSweep_up d)
  have hqueue (d : Aoedev) : Sheds d.blk
      (Aoedev.blk { (if d.blkq then fastFail d else d) with
        gd := (if d.blkq then fastFail d else d).gd.map fun gd => { gd with capacity := 0 } }) := by
    have hshut (d : Aoedev) : Sheds d.blk (Aoedev.blk { d with gd := d.gd.map fun gd => { gd with capacity := 0 } }) :=
      Sheds.congr rfl
    split
    · exact (fastFail_calm d).toSheds.trans (hshut _)
    · exact hshut d
  exact (hsweep.trans hfail).trans (hqueue _)

end Down

/-- A frame of the buf in process, or of a buf of the request in process, is on a completion queue or in the hands of
a thread. -/
def Aoedev.cursorHeld (d : Aoedev) : Bool :=
  d.heldFrames.any fun f => d.bufs.any fun b => f.buf = some b.id ∧ (d.ip.buf = some b.id ∨ d.ip.rq = some b.rq)

section Downdev

variable {d : Aoedev}

/-- After `aoedev_downdev` nothing is in process but what frames in other hands belong to. -/
private theorem downdev_cursor (hg : Good 0 d) (hheld : d.cursorHeld = false) :
    (aoedevDowndev d).ip.buf = none ∧ (aoedevDowndev d).ip.rq = none := by
  have hs := aoedevDowndev_sheds d
  have hb := (downdev_good hg).books
  have hspent := (downdev_spent hg).1
  -- a buf that is left belongs to a frame in other hands
  have hleft {b : Buf} (hmem : b ∈ (aoedevDowndev d).bufs) : ¬ (d.ip.buf = some b.id ∨ d.ip.rq = some b.rq) := by
    intro hip
    have hany := hspent.held (downdev_good hg) (downdev_listed d) hmem
    rw [downdev_held] at hany
    obtain ⟨f, hf, hfb⟩ := List.any_eq_true.mp hany
    obtain ⟨y, hy, hid, hrq, -⟩ := hs.bufs b hmem
    have htrue : d.cursorHeld = true := by
      refine List.any_eq_true.mpr ⟨f, hf, List.any_eq_true.mpr ⟨y, hy, ?_⟩⟩
      rw [← hid, ← hrq]
      simpa using ⟨by simpa using hfb, hip⟩
    exact absurd (htrue.symm.trans hheld) Bool.noConfusion
  constructor
  · cases hbuf : (aoedevDowndev d).ip.buf with
    | none => rfl
    | some n =>
      obtain ⟨b, hmem, hid⟩ := List.mem_map.mp (hb.ipBuf n hbuf)
      refine absurd (.inl ?_) (hleft hmem)
      rw [hid]
      exact hs.buf n hbuf
  · cases hr : (aoedevDowndev d).ip.rq with
    | none => rfl
    | some r =>
      obtain ⟨rq, hrq, hid, -⟩ := hb.ipRq r hr
      have hrest : (aoedevDowndev d).blk.rest rq = 0 := hspent.rest rq
      have hpos := Nat.pos_of_ne_zero (hb.due rq hrq)
      rw [hb.special rq hrq, hrest, add_zero] at hpos
      obtain ⟨b, hmem, hbr⟩ := List.countP_pos_iff.mp hpos
      refine absurd (.inr ?_) (hleft hmem)
      rw [of_decide_eq_true hbr, hid]
      exact hs.rq r hr

theorem Cursor.downdev (hg : Good 0 d) (h : Cursor d.blk) (hheld : d.cursorHeld = false) :
    Cursor (aoedevDowndev d).blk := by
  obtain ⟨hbuf, hrq⟩ := downdev_cursor hg hheld
  apply h.sheds (aoedevDowndev_sheds d)
  · intro r hr
    exact absurd (hrq.symm.trans hr) (by simp)
  · intro b _ hip
    exact absurd (hbuf.symm.trans hip) (by simp)

end Downdev

section Issue

variable {d : Aoedev} {B : Multiset ℕ} {h : Hands}

theorem Cursor.startRq (hB : Books d.blk B) (hc : Cursor d.blk) {rq : Request} {q : List Request}
    (hq : d.queue = rq :: q) : Cursor (startRq d rq q).blk := by
  obtain ⟨hne, -⟩ := fresh_iff.mp (hB.fresh rq (by simp [Aoedev.blk, hq]))
  refine { hc with nxbio := ?_, whole := ?_ }
  · intro r _
    simp [AoeDriver.startRq, Aoedev.blk, hne]
  · intro x hx
    have hmem (y : Request) (hy : y = rq ∨ y ∈ q ∨ y ∈ d.rqs) : y.Whole := by
      apply hc.whole
      rcases hy with hy | hy | hy
      · simp [Aoedev.blk, hq, hy]
      · simp [Aoedev.blk, hq, hy]
      · simp [Aoedev.blk, hy]
    rcases List.mem_append.mp hx with hx | hx
    · exact hmem x (.inr (.inl hx))
    · rcases List.mem_cons.mp hx with rfl | hx
      · exact hmem rq (.inl rfl)
      · exact hmem x (.inr (.inr hx))

theorem Cursor.takeBio (hB : Books d.blk B) (hc : Cursor d.blk) {r i : ℕ} (hr : d.ip.rq = some r)
    (hi : d.ip.nxbio = some i) : Cursor (takeBio d r i).blk := by
  obtain ⟨rq, hrq, hid, hlt⟩ := hB.ipRq r hr
  have hat : d.rqAt r = rq := by rw [← hid, hB.rqAt_mem hrq]
  have hbio : d.bioAt r i ∈ rq.bios := by
    rw [Aoedev.bioAt, hat]
    exact mem_of_getD (hlt i hi)
  refine { hc with nxbio := ?_, size := ?_, pieces := ?_ }
  · intro r' hr'
    have hip : (if (if i + 1 < (d.rqAt r).bios.length then some (i + 1) else none).isNone then none else some r) =
        some r' := hr'
    change (if i + 1 < (d.rqAt r).bios.length then some (i + 1) else none) ≠ none
    intro hn
    rw [hn] at hip
    exact absurd hip (by simp)
  · intro b hb hip
    rcases List.mem_cons.mp hb with rfl | hb
    · exact hB.sized rq hrq _ hbio
    · have hid' : some d.bufIds = some b.id := hip
      have hlt' := hB.bufLt b hb
      rw [← Option.some.inj hid'] at hlt'
      exact absurd hlt' (lt_irrefl _)
  · intro b hb
    rcases List.mem_cons.mp hb with rfl | hb
    · exact hc.whole rq (List.mem_append_right _ hrq) _ (List.mem_map_of_mem hbio)
    · exact hc.pieces b hb

theorem Cursor.nextbufAlloc (hB : Books d.blk B) (hc : Cursor d.blk) {r : ℕ} (hr : d.ip.rq = some r) :
    Cursor (nextbufAlloc d r).1.blk := by
  unfold AoeDriver.nextbufAlloc
  dsimp only
  split
  · split
    · rename_i hn
      exact absurd hn (hc.nxbio r hr)
    · rename_i i hi
      refine Cursor.takeBio (d := { d with env.mempool := (nextOutcome d.env.mempool).2 }) (B := B) ?_ ?_ hr hi
      · exact hB.congr rfl rfl rfl rfl rfl rfl rfl rfl fun _ => .inl
      · exact hc.congr rfl
  · exact hc.congr rfl

theorem Cursor.nextbuf (hB : Books d.blk B) (hc : Cursor d.blk) : Cursor (nextbuf d).1.blk := by
  unfold AoeDriver.nextbuf
  split
  · exact hc
  · split
    · exact hc
    · split
      · rename_i r hr
        exact hc.nextbufAlloc hB hr
      · rename_i hr
        split
        · exact hc
        · rename_i rq q hq
          exact (hc.startRq hB hq).nextbufAlloc (hB.startRq hq hr) rfl

private theorem cutIter_ne_zero {m : ℕ} {it : BvecIter} (h : it.size ≠ 0) : (cutIter m it).size ≠ 0 := by
  have hpos : 0 < min (if m = 0 then DEFAULTBCNT else m) it.size := by
    refine lt_min ?_ (Nat.pos_of_ne_zero h)
    split
    · decide
    · omega
  exact hpos.ne'

/-- A frame cut from the buf in process has a sector at least. -/
theorem Cursor.cut (hB : Books d.blk B) (hc : Cursor d.blk) {b : ℕ} (hb : d.ip.buf = some b)
    (hm : WholeSectors d.maxbcnt) {f : Frame} (hf : f.iter = cutIter d.maxbcnt (d.bufAt b).iter) :
    Cursor ((cutBuf d b).noteCut f (d.bufAt b)).blk := by
  obtain ⟨hmem, hid, -⟩ := hB.buf_of_mem (hB.ipBuf b hb)
  have hdvd := hc.pieces _ hmem
  have hsize : (d.bufAt b).iter.size ≠ 0 := hc.size _ hmem (by rw [hid]; exact hb)
  have hcut : 512 ∣ (cutIter d.maxbcnt (d.bufAt b).iter).size := cutIter_dvd hm hdvd
  let rest := bioAdvanceIter (d.bioAt (d.bufAt b).rq (d.bufAt b).bio).vecs (d.bufAt b).iter
    (cutIter d.maxbcnt (d.bufAt b).iter).size
  have hrest : 512 ∣ rest.size := Nat.dvd_sub hdvd hcut
  have hbufs {P : Buf → Prop} (hold : ∀ x ∈ d.bufs, x.id ≠ b → P x)
      (hnew : ∀ x : Buf, x.id = b → P { x with iter := rest, nframesout := x.nframesout + 1 }) :
      ∀ x ∈ ((cutBuf d b).noteCut f (d.bufAt b)).blk.bufs, P x := by
    refine List.forall_mem_map.mpr fun x hx => ?_
    split
    · rename_i hxb
      exact hnew x hxb
    · rename_i hxb
      exact hold x hx hxb
  have hip : ((cutBuf d b).noteCut f (d.bufAt b)).blk.ip.buf = if rest.size = 0 then none else d.ip.buf := rfl
  refine { hc with size := ?_, pieces := ?_, cuts := ?_ }
  · rw [hip]
    apply hbufs
    · intro x hx hxb hsome
      split at hsome
      · exact absurd hsome (by simp)
      · rw [hb, Option.some.injEq] at hsome
        exact absurd hsome.symm hxb
    · intro x hxb hsome
      split at hsome
      · exact absurd hsome (by simp)
      · assumption
  · apply hbufs
    · exact fun x hx _ => hc.pieces x hx
    · exact fun x _ => hrest
  · intro c hcut'
    rcases List.mem_append.mp hcut' with hold | hnew
    · exact hc.cuts c hold
    · rw [List.mem_singleton.mp hnew]
      dsimp only
      rw [hf]
      have hne := cutIter_ne_zero (m := d.maxbcnt) hsize
      omega

theorem Cursor.aoecmdAtaRw (hg : Good h d) (hc : Cursor d.blk) : Cursor (aoecmdAtaRw d).1.blk := by
  obtain ⟨hbuf, hsome⟩ := nextbuf_inner (C := Cond.any) h d
  have hc₁ := hc.nextbuf hg.books
  unfold AoeDriver.aoecmdAtaRw
  generalize AoeDriver.nextbuf d = r at hbuf hsome hc₁ ⊢
  obtain ⟨d₁, o⟩ := r
  cases o with
  | none => exact hc₁
  | some b =>
    have hip : d₁.ip.buf = some b := hsome b rfl
    have hg₁ : Good h d₁ := hbuf.good hg
    obtain ⟨-, hchoose⟩ := newframe_chooses hg₁.inv
    dsimp only
    generalize newframe d₁ = r at hchoose ⊢
    obtain ⟨d₂, o⟩ := r
    cases o with
    | none => exact hc₁.congr (congrArg Blk.ahead hchoose.blk)
    | some f =>
      obtain ⟨hq, hblank, -⟩ := hchoose
      have hg₂ : Good (h.hold f) d₂ := (hq.inner (C := Cond.any) hg₁.inv).good hg₁
      have hip₂ : d₂.ip.buf = some b := (congrArg (fun k => k.ip.buf) hq.blk).trans hip
      have hc₂ : Cursor d₂.blk := hc₁.congr (congrArg Blk.ahead hq.blk)
      obtain ⟨f', -, hi, -, -, hiter, -⟩ := ataRwSend_ledger (d := d₂) h b hblank
      have hblk : (ataRwSend d₂ b f).blk = ((cutBuf d₂ b).noteCut f' (d₂.bufAt b)).blk := ataRwSend_blk hi.cmd hiter
      dsimp only
      rw [hblk]
      exact hc₂.cut hg₂.books hip₂ hg₂.bcnt.1 hiter

theorem Cursor.ataRwLoop (fuel : ℕ) (hg : Good h d) (hc : Cursor d.blk) : Cursor (ataRwLoop fuel d).blk := by
  induction fuel generalizing d with
  | zero => exact hc
  | succ fuel ih =>
    have hr := aoecmdAtaRw_inner (C := Cond.any) hg
    have hc₁ := hc.aoecmdAtaRw hg
    unfold AoeDriver.ataRwLoop
    generalize AoeDriver.aoecmdAtaRw d = r at hr hc₁ ⊢
    obtain ⟨d₁, more⟩ := r
    cases more with
    | true => exact ih (hr.good hg) hc₁
    | false => exact hc₁

theorem Cursor.aoecmdWork (hg : Good h d) (hc : Cursor d.blk) : Cursor (aoecmdWork d).blk := by
  have hq := rexmitDeferred_quiet hg.inv
  have hg' : Good h (rexmitDeferred d) := (hq.inner (C := Cond.any) hg.inv).good hg
  exact (hc.congr (congrArg Blk.ahead hq.blk)).ataRwLoop _ hg'

theorem Cursor.aoeblkRequest (hg : Good h d) (hc : Cursor d.blk) : Cursor (aoeblkRequest d).blk := by
  unfold AoeDriver.aoeblkRequest
  split
  · exact hc.aoecmdWork hg
  · exact hc.calm (fastFail_calm d)

theorem Cursor.settleRun {b : ℕ} (hg : Good h (settle d b)) (hc : Cursor (settle d b).blk) :
    Cursor (settleRun d b).blk := by
  rcases settleRun_cases d b with heq | heq
  · rw [heq]
    exact hc
  · rw [heq]
    exact hc.aoeblkRequest hg

end Issue

section Completion

variable {d : Aoedev} {h : Hands} {f : Frame}

theorem Cursor.ktioFinish (hg : Good (h.shelve f) d) (hc : Cursor d.blk) : Cursor (ktioFinish d f).blk := by
  have hfree : Calm d.blk (aoeFreetframe d f).blk := Calm.congr rfl
  unfold AoeDriver.ktioFinish
  cases hb : f.buf with
  | none => exact hc.calm hfree
  | some b =>
    have hcalm := (hfree.trans (decNframesout_calm _ b)).trans (settle_calm _ b)
    have hg' := (ktioSettle_inner (C := Cond.any) hb).good hg
    exact Cursor.settleRun hg' (hc.calm hcalm)

theorem ktioData_calm (d : Aoedev) (f : Frame) : Calm d.blk (ktioData (noteProcessed d f) f).1.blk := by
  obtain ⟨processed, hn, -⟩ := noteProcessed_cases d f
  have hnote : Calm d.blk (noteProcessed d f).blk := by
    rw [hn]
    exact Calm.congr rfl
  rcases ktioData_cases (noteProcessed d f) f with ⟨b, -, hk⟩ | ⟨mem, skb, hk⟩
  · rw [hk]
    exact hnote.trans (failBio_calm _ b)
  · rw [hk]
    exact hnote.trans (Calm.congr rfl)

theorem decNframesout_bufAt {b : ℕ} (hb : b ∈ d.bufs.map Buf.id) :
    (decNframesout d b).bufAt b = { d.bufAt b with nframesout := predUlong (d.bufAt b).nframesout } := by
  have hnote : (d.notePred .nframesout (d.bufAt b).nframesout).bufAt b = d.bufAt b := by
    rw [Aoedev.bufAt, Aoedev.bufAt, bufs_notePred]
  have hmod := bufAt_modBuf_self (d.notePred .nframesout (d.bufAt b).nframesout)
    (fun x => { x with nframesout := predUlong x.nframesout }) (fun _ => rfl) (b := b) (by rwa [bufs_notePred])
  rw [decNframesout, hmod, hnote]

private theorem closeBuf_unbuf {b : ℕ} (hb : d.ip.buf = some b) :
    closeBuf d b = closeBuf { d with ip.buf := none } b := by
  have hdrop : dropBuf d b = dropBuf { d with ip.buf := none } b := by
    unfold dropBuf
    rw [if_pos hb, if_neg (by simp)]
    rfl
  unfold closeBuf
  rw [hdrop]
  rfl

/-- The buf of a frame on a completion queue may fail, but for the buf in process while other frames refer to it. -/
theorem Cursor.lose {b : ℕ} (hg : Good (h.hold f) d) (hc : Cursor d.blk)
    (hlast : d.ip.buf = some b → (d.bufAt b).nframesout = 1) :
    Cursor (settle (spoilBuf (decNframesout d b) b) b).blk := by
  have hdec := hc.calm (decNframesout_calm d b)
  have hsheds := spoilBuf_sheds (decNframesout d b) b
  have hip : (decNframesout d b).ip = d.ip := congrArg Prod.fst (notePred_ahead (d := d) .nframesout (d.bufAt b).nframesout)
  have hnx : ∀ r, (spoilBuf (decNframesout d b) b).ip.rq = some r → (spoilBuf (decNframesout d b) b).ip.nxbio ≠ none :=
    hdec.nxbio
  by_cases hbuf : d.ip.buf = some b
  · have hmem : b ∈ d.bufs.map Buf.id := hg.books.ipBuf b hbuf
    have hmem' : b ∈ (decNframesout d b).bufs.map Buf.id := by rwa [ids_decNframesout]
    have hsettle : settle (spoilBuf (decNframesout d b) b) b = closeBuf (spoilBuf (decNframesout d b) b) b := by
      have hat : (spoilBuf (decNframesout d b) b).bufAt b =
          { (decNframesout d b).bufAt b with iter.size := 0 } :=
        bufAt_modBuf_self (decNframesout d b) _ (fun _ => rfl) hmem'
      have hout : ((decNframesout d b).bufAt b).nframesout = 0 := by
        rw [decNframesout_bufAt hmem]
        change predUlong (d.bufAt b).nframesout = 0
        rw [hlast hbuf]
        rfl
      unfold settle
      rw [hat]
      exact if_pos ⟨hout, rfl⟩
    rw [hsettle, closeBuf_unbuf (hip ▸ hbuf)]
    refine Cursor.calm ?_ (closeBuf_calm _ b)
    apply hdec.sheds (hsheds.trans ?_)
    · exact hnx
    · intro x _ hx
      exact absurd hx (by simp [Aoedev.blk])
    · exact ⟨fun x hx => ⟨x, hx, rfl⟩, fun x hx => ⟨x, hx, rfl, rfl, .inr rfl⟩, fun _ hx => absurd hx (by simp [Aoedev.blk]),
        fun _ => id, rfl, rfl⟩
  · refine Cursor.calm ?_ (settle_calm _ b)
    apply hdec.sheds hsheds hnx
    intro x hx hxip
    have hip' : d.ip.buf = some x.id := hip ▸ hxip
    have hne : x.id ≠ b := fun hxb => hbuf (hxb ▸ hip')
    exact hdec.size x (mem_spoilBuf hx hne) hxip

theorem Cursor.downdevFrame (hg : Good (h.hold f) d) (hc : Cursor d.blk)
    (hlast : ∀ b, f.buf = some b → d.ip.buf = some b → (d.bufAt b).nframesout = 1) : Cursor (downdevFrame d f).blk := by
  have hfree (d : Aoedev) : Calm d.blk (aoeFreetframe d f).blk := Calm.congr rfl
  unfold AoeDriver.downdevFrame
  cases hb : f.buf with
  | none => exact hc.calm (hfree d)
  | some b =>
    have hg' := (lose_inner (C := Cond.any) hb).good hg
    dsimp only
    rw [aoeFailbuf_eq]
    exact (Cursor.settleRun hg' (hc.lose hg (hlast b hb))).calm (hfree _)

end Completion

section Still

variable {d d' : Aoedev}

theorem StockOnly.blk (h : StockOnly d d') : d'.blk = d.blk := by
  obtain ⟨_, _, _, _, _, _, _, _, rfl, -⟩ := h
  rfl

private theorem newframeLoop_blk (fuel tt : ℕ) (useTainted hasUntainted : Bool) (totout : ℕ) :
    (newframeLoop fuel d tt useTainted hasUntainted totout).1.blk = d.blk := by
  induction fuel generalizing d tt useTainted hasUntainted totout with
  | zero => rfl
  | succ fuel ih =>
    have htry : (newframeTry d (d.nextSlot tt) useTainted).1.blk = d.blk := by
      unfold newframeTry
      dsimp only
      split
      · exact (newtframe_stock d _).blk
      · rfl
    unfold newframeLoop
    dsimp only
    generalize (if (d.tgtAt (d.nextSlot tt)).taint = 0 then totout + (d.tgtAt (d.nextSlot tt)).nout else totout) = n
    generalize newframeTry d (d.nextSlot tt) useTainted = r at htry ⊢
    obtain ⟨d₁, o⟩ := r
    cases o with
    | some f => exact htry
    | none =>
      dsimp only
      split
      · split
        · exact (ih _ _ _ _).trans htry
        · split
          · exact htry
          · exact htry
      · exact (ih _ _ _ _).trans htry

private theorem newframe_blk (d : Aoedev) : (newframe d).1.blk = d.blk := by
  unfold newframe
  split
  · rfl
  · exact newframeLoop_blk _ _ _ _ _

theorem aoecmdAtaId_blk (d : Aoedev) : (aoecmdAtaId d).1.blk = d.blk := by
  have hnew := newframe_blk d
  unfold aoecmdAtaId
  generalize newframe d = r at hnew ⊢
  obtain ⟨d₁, o⟩ := r
  cases o with
  | none => exact hnew
  | some f =>
    dsimp only
    rw [blk_fhash, blk_sendClone, blk_noteSend, blk_ataIdInit]
    exact hnew

theorem cfgTgt_blk (d : Aoedev) (c : CfgRsp) : (cfgTgt d c).1.blk = d.blk := by
  have hgrow : (growTargets d).1.blk = d.blk := by
    unfold growTargets
    dsimp only
    split
    · rfl
    · split
      · rfl
      · rfl
  unfold cfgTgt addtgt
  dsimp only
  split
  · rfl
  · generalize growTargets d = r at hgrow ⊢
    obtain ⟨d₁, ok⟩ := r
    cases ok with
    | false => exact hgrow
    | true =>
      dsimp only
      split
      · exact hgrow
      · exact hgrow

private theorem aoecmdCfgRsp_ahead (d : Aoedev) (c : CfgRsp) : (aoecmdCfgRsp d c).blk.ahead = d.blk.ahead := by
  have hset (d : Aoedev) (t bcnt : ℕ) (nd : NetDev) : (setifbcnt d t nd bcnt).blk.ahead = d.blk.ahead := by
    unfold setifbcnt
    split
    · rfl
    · obtain ⟨holds, hheld⟩ := noteHold_eq d t nd bcnt
      rw [hheld]
      rfl
  have htgt := congrArg Blk.ahead (cfgTgt_blk d c)
  unfold aoecmdCfgRsp
  generalize cfgTgt d c = r at htgt ⊢
  obtain ⟨d₁, o⟩ := r
  cases o with
  | none => exact htgt
  | some t =>
    have hset₁ := (hset d₁ t (cfgBcnt c.mtu c.scnt) c.dev).trans htgt
    dsimp only
    split
    · rw [aoecmdAtaId_blk]
      exact hset₁
    · exact hset₁

theorem rspMatch_ahead (d : Aoedev) (r : Rsp) : (rspMatch d r).1.blk.ahead = d.blk.ahead := by
  have hrtt (d : Aoedev) (t : Option ℕ) (rtt : ℤ) : (calcRttavg d t rtt).blk = d.blk := (calcRttavg_quiet (h := 0) t rtt).blk
  unfold rspMatch
  split
  · rename_i f d₁ hget
    dsimp only
    rw [blk_modTgt, notePred_ahead, hrtt, (getframe_spec (h := 0) hget).2.2.1]
  · split
    · rename_i f d₁ hget
      dsimp only
      rw [hrtt, (getframeDeferred_spec (h := 0) hget).2.2.1]
    · dsimp only
      split
      · rw [hrtt]
      · rw [blk_modTgt, hrtt]

theorem ataidComplete_ahead (d : Aoedev) (id : List Byte) : (ataidComplete d id).blk.ahead = d.blk.ahead := by
  unfold ataidComplete
  dsimp only
  split
  · rfl
  · split
    · rfl
    · rfl

theorem sleepStep_ahead (d : Aoedev) (pc : SleepPc) : (sleepStep d pc).1.blk.ahead = d.blk.ahead := by
  cases pc with
  | start => rfl
  | gdalloc =>
    simp only [sleepStep]
    split
    · rfl
    · rfl
  | gdNow =>
    simp only [sleepStep]
    split
    · rfl
    · rfl
  | installed => rfl
  | resize =>
    simp only [sleepStep]
    split
    · rfl
    · rfl
  | resizing ssize => rfl

theorem aoedevPut_ahead (d : Aoedev) : (aoedevPut d).blk.ahead = d.blk.ahead := by
  have hput (d : Aoedev) (n : ℕ) : (Aoedev.blk { d with ref := n }).ahead = d.blk.ahead := rfl
  rw [aoedevPut, hput, notePred_ahead]

end Still

/-- The surroundings queue bios of whole sectors; the device does not fail while a frame of the request in process
waits to be completed, and no such frame is flushed from a completion queue before the other frames of its buf. -/
def cursorSafe (d : Aoedev) : Event → Bool
  | .blkQueue rq => rq.bios.all fun bio => bio.iter.size % 512 = 0
  | .rexmitTimer env => d.flags.tkill || !(timerExpire { d with env := env }).2 || !d.cursorHeld
  | .flushDev mode env => !flushTakes { d with env := env } mode || !d.cursorHeld
  | .run i _ =>
    match d.threads[i]? with
    | some (.flush f) => f.buf.all fun b => d.ip.buf ≠ some b || (d.bufAt b).nframesout = 1
    | _ => true
  | _ => true

section Events

variable {d d' : Aoedev}

theorem Cursor.timerKick (hg : Good 0 d) (hc : Cursor d.blk) : Cursor (timerKick d).blk := by
  unfold AoeDriver.timerKick
  split
  · have hr : Runs Cond.any 0 d 0 { d with flags.kickme := false } := by
      refine Runs.of_shift ?_ rfl rfl rfl (fun _ => .inl) le_rfl (fun hd => hd.congr rfl) rfl rfl
      exact Shift.unkick
    exact Cursor.aoeblkRequest (hr.good hg) (hc.congr rfl)
  · exact hc

private theorem cursorHeld_congr (hb : d'.blk = d.blk) : d'.cursorHeld = d.cursorHeld := by
  have hiocq : d'.iocq = d.iocq := congrArg Blk.iocq hb
  have hth : d'.threads = d.threads := congrArg Blk.threads hb
  have hbufs : d'.bufs = d.bufs := congrArg Blk.bufs hb
  have hip : d'.ip = d.ip := congrArg Blk.ip hb
  rw [Aoedev.cursorHeld, Aoedev.cursorHeld, Aoedev.heldFrames, Aoedev.heldFrames, hiocq, hth, hbufs, hip]

theorem Cursor.rexmitTimer (hg : Good 0 d) (hc : Cursor d.blk)
    (hsafe : d.flags.tkill = false → (timerExpire d).2 = true → d.cursorHeld = false) : Cursor (rexmitTimer d).blk := by
  unfold AoeDriver.rexmitTimer
  split
  · exact hc
  · rename_i htkill
    cases hlate : (timerExpire d).2 with
    | true =>
      obtain ⟨hm, hb, -⟩ := timerExpire_late hg.inv hlate
      have hheld := hsafe (by simpa using htkill) hlate
      generalize timerExpire d = p at hlate hm hb
      obtain ⟨d₁, late⟩ := p
      dsimp only at hlate hm hb
      subst hlate
      obtain ⟨hs, hp, hbcnt⟩ := pieces_of_moves (C := Cond.any) hm hb hg.inv
      have hg₁ : Good 0 d₁ := ⟨Shifts.inv hs hg.inv, Posts.books hp hg.books, hbcnt hg.bcnt⟩
      have hc₁ : Cursor d₁.blk := hc.congr (congrArg Blk.ahead hb)
      exact (hc₁.downdev hg₁ ((cursorHeld_congr hb).trans hheld)).timerKick (downdev_good hg₁)
    | false =>
      have hq := timerExpire_quiet hg.inv hlate
      generalize timerExpire d = p at hlate hq
      obtain ⟨d₁, late⟩ := p
      dsimp only at hlate hq
      subst hlate
      have hq₂ := hq.trans (rexmitDeferred_quiet (hq.inv hg.inv))
      exact (hc.congr (congrArg Blk.ahead hq₂.blk)).timerKick ((hq₂.inner (C := Cond.any) hg.inv).good hg)

/-- One section of a thread. -/
theorem Cursor.runThread (hg : Good 0 d) (hc : Cursor d.blk) {i : ℕ} {th : Thread} (hi : d.threads[i]? = some th)
    (hsafe : ∀ f b, th = .flush f → f.buf = some b → d.ip.buf = some b → (d.bufAt b).nframesout = 1) :
    Cursor (runThread d i th).blk := by
  have hset (d : Aoedev) (next : Option Thread) : (d.setThread i next).blk.ahead = d.blk.ahead := rfl
  have hput (next : Option Thread) : Cursor (aoedevPut (d.setThread i next)).blk :=
    hc.congr ((aoedevPut_ahead _).trans (hset d next))
  cases th with
  | rsp r =>
    have hr := rspMatch_inner (C := Cond.any) hg r
    have hahead := rspMatch_ahead d r
    dsimp only [AoeDriver.runThread]
    generalize rspMatch d r = p at hr hahead ⊢
    obtain ⟨d₁, o⟩ := p
    cases o with
    | none => exact hc.congr hahead
    | some f =>
      have hr₁ : Inner Cond.any 0 d (Hands.hold 0 f) d₁ := hr
      have hthreads : d₁.threads = d.threads := hr₁.field Blk.threads fun _ => rfl
      have hset₁ : Runs Cond.any (Hands.hold 0 f) d₁ 0 (d₁.setThread i (some (.matched f r))) :=
        setThread_runs (hthreads ▸ hi : d₁.threads[i]? = some (.rsp r)) _ rfl rfl rfl rfl
      exact (hc.congr ((hset d₁ _).trans hahead)).aoecmdWork ((hr₁.toRuns.trans hset₁).good hg)
  | matched f r => exact hc.congr rfl
  | unexpected => exact hput none
  | ktio id f =>
    have hk := hc.calm (ktioData_calm d f)
    dsimp only [AoeDriver.runThread]
    generalize ktioData (noteProcessed d f) f = p at hk ⊢
    obtain ⟨d₁, o⟩ := p
    cases o with
    | some m => exact hk.congr rfl
    | none => exact hk.congr rfl
  | ktioMid id f m =>
    cases m with
    | lost nd => exact hc.congr rfl
    | ident data => exact hc.congr ((hset _ _).trans (ataidComplete_ahead d data))
  | ktioOut id f =>
    have ht : f.t < d.targets.length := thread_frame_lt hg (List.mem_of_getElem? hi) (.inr (by simp [Thread.late]))
    have hq := redeem_quiet hg.inv ht
    have hi' : (redeem d f.t).threads[i]? = some (.ktioOut id f) := by
      have hth : (redeem d f.t).threads = d.threads := congrArg Blk.threads hq.blk
      rw [hth]
      exact hi
    have hset' : Runs Cond.any 0 (redeem d f.t) (Hands.shelve 0 f) ((redeem d f.t).setThread i (some (.ktioPut id))) :=
      setThread_runs hi' _ rfl rfl rfl rfl
    have hg' := ((hq.inner hg.inv).toRuns.trans hset').good hg
    exact (hc.congr ((hset _ _).trans (congrArg Blk.ahead hq.blk))).ktioFinish hg'
  | ktioPut id => exact hput (some (.ktioSpawn id))
  | ktioSpawn id => exact hc.congr rfl
  | flush f =>
    have hset' : Runs Cond.any 0 d (Hands.hold 0 f) (d.setThread i (some .flushPut)) := setThread_runs hi _ rfl rfl rfl rfl
    exact Cursor.downdevFrame (hset'.good hg) (hc.congr rfl) fun b hb => hsafe f b rfl hb
  | flushPut => exact hput none
  | cfg c => exact hc.congr (aoecmdCfgRsp_ahead _ c)
  | cfgPut => exact hput none
  | reval first =>
    have hclean : (if first then aoecmdCleanslate d else d).blk.ahead = d.blk.ahead := by
      split
      · rfl
      · rfl
    have hid := congrArg Blk.ahead (aoecmdAtaId_blk (if first then aoecmdCleanslate d else d))
    exact hc.congr ((hset _ _).trans (hid.trans hclean))
  | revalPut => exact hput none
  | sleep pc => exact hc.congr ((hset _ _).trans (sleepStep_ahead d pc))

theorem Cursor.exec {e : Event} (hg : Good 0 d) (hc : Cursor d.blk) (hsafe : cursorSafe d e = true)
    (he : exec d e = some d') : Cursor d'.blk := by
  have hsome {x : Aoedev} (hx : some x = some d') (hr : Cursor x.blk) : Cursor d'.blk := by
    rw [Option.some.injEq] at hx
    exact hx ▸ hr
  have hif {c : Prop} [Decidable c] {x : Aoedev} (hx : (if c then some x else none) = some d')
      (hr : c → Cursor x.blk) : Cursor d'.blk := by
    split at hx
    · exact hsome hx (hr (by assumption))
    · exact absurd hx (by simp)
  have hhold {th : Thread} (hx : d.hold th = some d') : Cursor d'.blk := by
    unfold Aoedev.hold at hx
    split at hx
    · exact absurd hx (by simp)
    · exact hsome hx (hc.congr rfl)
  have henv (env : Env) : Good 0 { d with env := env } := (outcomes_runs (C := Cond.any) trivial).good hg
  cases e with
  | clock usecs jiffs => exact hsome he (hc.congr rfl)
  | dataref g => exact hsome he (hc.congr rfl)
  | params deadsecs maxout => exact hsome he (hc.congr rfl)
  | blkQueue rq =>
    refine hif he fun _ => { hc with whole := ?_ }
    intro x hx
    simp only [Aoedev.blk, List.append_assoc, List.mem_append, List.mem_singleton] at hx
    rcases hx with hx | rfl | hx
    · exact hc.whole x (List.mem_append_left _ hx)
    · refine List.forall_mem_map.mpr fun bio hbio => ?_
      have hmod := of_decide_eq_true (List.all_eq_true.mp hsafe bio hbio)
      exact Nat.dvd_of_mod_eq_zero hmod
    · exact hc.whole x (List.mem_append_right _ hx)
  | blkRun env => exact hif he fun _ => Cursor.aoeblkRequest (henv env) (hc.congr rfl)
  | ataRsp r => exact hhold he
  | cfgRsp c => exact hhold he
  | revalidate => exact hhold he
  | sleepwork => exact hif he fun _ => hc.congr rfl
  | ktioTake id =>
    dsimp only [AoeDriver.exec] at he
    split at he
    · split at he
      · exact hsome he (hc.congr rfl)
      · exact absurd he (by simp)
    · exact absurd he (by simp)
  | flushIocq id => exact hsome he (hc.congr rfl)
  | rexmitTimer env =>
    refine hif he fun _ => Cursor.rexmitTimer (henv env) (hc.congr rfl) ?_
    intro hk hl
    have hk' : d.flags.tkill = false := hk
    have hheld : d.cursorHeld = false := by simpa [cursorSafe, hk', hl] using hsafe
    exact hheld
  | flushDev mode env =>
    refine hsome he ?_
    unfold flushPassOne
    split
    · rename_i ht
      have hheld : d.cursorHeld = false := by simpa [cursorSafe, ht] using hsafe
      have hdown := Cursor.downdev (henv env) (hc.congr rfl) hheld
      exact hdown.congr rfl
    · exact hc.congr rfl
  | blkOpen => exact hif he fun _ => hc.congr rfl
  | blkRelease => exact hif he fun _ => hc.congr rfl
  | signal i => exact hif he fun _ => hc.congr rfl
  | run i env =>
    dsimp only [AoeDriver.exec] at he
    split at he
    · rename_i th hi
      refine hsome he (Cursor.runThread (henv env) (hc.congr rfl) hi ?_)
      rintro f b rfl hb hip
      have hi' : d.threads[i]? = some (.flush f) := hi
      have hip' : d.ip.buf = some b := hip
      have hlast : (d.bufAt b).nframesout = 1 := by simpa [cursorSafe, hi', hb, hip'] using hsafe
      exact hlast
    · exact absurd he (by simp)

private theorem reachedBy_cursor (h : ReachedBy (fun d e _ => cursorSafe d e) d) : Cursor d.blk := by
  refine Reach.invariant (P := fun d => Cursor d.blk) ?_ ?_ h
  · rintro s ⟨a, b, n, t, m, clock, c, rfl⟩
    have hip : (default : InProcess) = ⟨none, none, none⟩ := rfl
    have hhist : (default : Hist).cuts = [] ∧ (default : Hist).nullBio = false := ⟨rfl, rfl⟩
    constructor <;> simp [initial, Aoedev.blk, hip, hhist]
  · intro s e s' hs hc hsafe hstep
    exact hc.exec (reachedBy_good hs).1 hsafe hstep.1

end Events

/-- In every run that meets the condition, the request in process has a bio left and the buf in process has bytes left;
no frame without sectors is built, and no section gives `bufinit` a NULL pointer. -/
theorem cursor_kept {d : Aoedev} (h : ReachedBy (fun d e _ => cursorSafe d e) d) :
    (d.ip.rq.isSome → d.ip.nxbio.isSome) ∧ (∀ b, d.ip.buf = some b → 0 < (d.bufAt b).iter.size) ∧
    (∀ c ∈ d.hist.cuts, c.size / 512 ≠ 0) ∧
    ∀ e d', cursorSafe d e → exec d e = some d' → d'.hist.nullBio = false ∧ ∀ c ∈ d'.hist.cuts, c.size / 512 ≠ 0 := by
  have hg := (reachedBy_good h).1
  have hc := reachedBy_cursor h
  refine ⟨?_, ?_, hc.cuts, ?_⟩
  · intro hr
    obtain ⟨r, hr⟩ := Option.isSome_iff_exists.mp hr
    exact Option.isSome_iff_ne_none.mpr (hc.nxbio r hr)
  · intro b hb
    obtain ⟨hmem, hid, -⟩ := hg.books.buf_of_mem (hg.books.ipBuf b hb)
    exact Nat.pos_of_ne_zero (hc.size _ hmem (by rw [hid]; exact hb))
  · intro e d' hsafe he
    have hc' := hc.exec hg hsafe he
    exact ⟨hc'.nullBio, hc'.cuts⟩

def narrowStart : Aoedev := initial 1 2 4 180 128 ⟨10^9, 500000, 1000⟩ { sampleCfg with bufcnt := 2 }

theorem narrowStart_initial : Initial narrowStart := ⟨_, _, _, _, _, _, _, rfl⟩

/-- The first frame of a request has been answered and waits to be completed, the second one is out. -/
def narrowIssue (rq : Request) : List Event :=
  sampleUp ++ [.blkQueue rq, .blkRun default, .ataRsp (sampleRsp 2 0), .run 0 default]

/-- The device fails for want of an answer to the second frame. -/
def narrowFail (rq : Request) : List Event := narrowIssue rq ++ [.clock 200000000 200000, .rexmitTimer default]

/-- The target is found again, and the response to the identify command arrives. -/
def narrowBack : List Event :=
  [.cfgRsp { sampleCfg with bufcnt := 2 }, .run 1 default,
    .ataRsp { sampleRsp 4 256 with tag := 700000 % 2^16 + 4 * 2^16 }]

def narrowBio (sector : ℕ) : Bio := { vecs := [⟨0, 0, 1024⟩], iter := ⟨sector, 1024, 0, 0⟩, error := false }

def narrowRq : Request :=
  { id := 7, write := true, special := 0, bios := [narrowBio 8, narrowBio 10, narrowBio 12, narrowBio 14] }

def narrowSafe : Scene cursorSafe narrowStart (narrowIssue sampleRq)
    (fun d => d.ip.buf == some 0 && d.hist.cuts.length == 2) :=
  ⟨by decide +kernel⟩

/-- Two frames are cut from the buf in process and bytes are left. -/
theorem cursor_kept_narrow : ∃ d, ReachedBy (fun d e _ => cursorSafe d e) d ∧ d.ip.buf = some 0 ∧
    0 < (d.bufAt 0).iter.size ∧ d.hist.cuts.length = 2 ∧ ∀ c ∈ d.hist.cuts, c.size / 512 ≠ 0 := by
  obtain ⟨d, -, hreach, htest⟩ := narrowSafe.last narrowStart_initial
  simp only [Bool.and_eq_true, beq_iff_eq] at htest
  obtain ⟨hbuf, hlen⟩ := htest
  obtain ⟨-, hsize, hcuts, -⟩ := cursor_kept hreach
  exact ⟨d, hreach, hbuf, hsize 0 hbuf, hlen, hcuts⟩

def narrowSpent : Scene unguarded narrowStart (narrowFail sampleRq)
    (fun d => d.ip.buf == some 0 && (d.bufAt 0).iter.size == 0) :=
  ⟨by decide +kernel⟩

def narrowEmpty : Scene unguarded narrowStart (narrowFail sampleRq ++ narrowBack ++ [.run 2 default])
    (fun d => d.hist.cuts.any (·.size == 0)) :=
  ⟨by decide +kernel⟩

def narrowNull : Scene unguarded narrowStart (narrowFail narrowRq ++ narrowBack)
    (fun d => d.ip.rq == some 7 && d.ip.nxbio == none && (exec d (.run 2 default)).any (·.hist.nullBio)) :=
  ⟨by decide +kernel⟩

/-- The device fails while a frame waits to be completed. The cursor keeps an empty buf, from which the next response
lets a frame of no sectors be cut; or it keeps a request without a bio, and `bufinit` follows a NULL pointer. -/
theorem cursor_stranded :
    (∃ d, Reached d ∧ d.ip.buf = some 0 ∧ (d.bufAt 0).iter.size = 0) ∧
    (∃ d, Reached d ∧ ∃ c ∈ d.hist.cuts, c.size = 0) ∧
    ∃ d, Reached d ∧ d.ip.rq = some 7 ∧ d.ip.nxbio = none ∧
      ∃ d', exec d (.run 2 default) = some d' ∧ d'.hist.nullBio = true := by
  have hall {d : Aoedev} (h : ReachedBy (fun d e _ => unguarded d e) d) : Reached d := h.mono fun _ _ _ _ => trivial
  refine ⟨?_, ?_, ?_⟩
  · obtain ⟨d, -, hreach, htest⟩ := narrowSpent.last narrowStart_initial
    simp only [Bool.and_eq_true, beq_iff_eq] at htest
    exact ⟨d, hall hreach, htest.1, htest.2⟩
  · obtain ⟨d, -, hreach, htest⟩ := narrowEmpty.last narrowStart_initial
    obtain ⟨c, hc, hzero⟩ := List.any_eq_true.mp htest
    exact ⟨d, hall hreach, c, hc, by simpa using hzero⟩
  · obtain ⟨d, -, hreach, htest⟩ := narrowNull.last narrowStart_initial
    simp only [Bool.and_eq_true, beq_iff_eq] at htest
    obtain ⟨⟨hrq, hnx⟩, hnull⟩ := htest
    obtain ⟨d', he, hd'⟩ := (Option.any_eq_true _ _).mp hnull
    exact ⟨d, hall hreach, hrq, hnx, d', he, hd'⟩

end AoeDriver
