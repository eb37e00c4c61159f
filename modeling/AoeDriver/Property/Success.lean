import AoeDriver.Property.Placement
import AoeDriver.Run.Reach

/-!
# No false success

The error mark of a bio is set in many places and read when its request ends. A bio ends with status 0 exactly if the
frames cut from it cover it and every one of them was processed with a good response.
-/

namespace AoeDriver

open Tables

section Bios

/-- The frames cut from bio `i` of request `r`. -/
def Hist.cutsOf (h : Hist) (r i : ℕ) : List Cut := h.cuts.filter fun c => c.rq = r ∧ c.bio = i

private theorem mem_cutsOf {h : Hist} {r i : ℕ} {c : Cut} : c ∈ h.cutsOf r i ↔ c ∈ h.cuts ∧ c.rq = r ∧ c.bio = i := by
  simp only [Hist.cutsOf, List.mem_filter, decide_eq_true_eq]

def Cut.sectors (c : Cut) : List ℕ := List.range' c.sector (c.size / 512)

/-- `ktiocomplete` has processed the frame with a response of good status and, for a read, with all its data. -/
def Hist.Served (h : Hist) (write : Bool) (c : Cut) : Prop :=
  ∃ p ∈ h.processed, p.cmd = c.cmd ∧ p.cmdstat &&& 0xa9 = 0 ∧ (write = false → c.size ≤ p.payload)

/-- The frames cut from the bio cover it, and all of them were served. -/
def Hist.Done (h : Hist) (r i : ℕ) (write : Bool) (it : BvecIter) : Prop :=
  (h.cutsOf r i).flatMap Cut.sectors = it.sectors ∧ ∀ c ∈ h.cutsOf r i, h.Served write c

/-- Bios of whole sectors, as the block layer makes them. -/
def Request.Whole (rq : Request) : Prop := ∀ it ∈ rq.bios.map Bio.iter, 512 ∣ it.size

/-- `nextbuf` has still to take the bio. -/
def Stage.Pending (s : Stage) (r i : ℕ) : Prop := s.dev.ip.rq = some r ∧ ∃ n, s.dev.ip.nxbio = some n ∧ n ≤ i

/-- What is left to cut, if the bio has a buf. -/
def Stage.iters (s : Stage) (r i : ℕ) : List BvecIter :=
  s.dev.bufs.filterMap fun b => if b.rq = r ∧ b.bio = i then some b.iter else none

/-- `ktiocomplete` has not looked at the frame yet. -/
def Stage.Waits (s : Stage) (c : Cut) : Prop := c.cmd ∈ s.todo.map Duty.cmd

/-- A bio without error mark is on its way to be done, and one with a mark can never be. -/
structure Fair (s : Stage) (r i : ℕ) (write : Bool) (bio : Bio) : Prop where
  pieces : ∀ c ∈ s.dev.hist.cutsOf r i, 512 ∣ c.size
  whole : ∀ it ∈ s.iters r i, 512 ∣ it.size
  served : bio.error = false → ∀ c ∈ s.dev.hist.cutsOf r i, s.Waits c ∨ s.dev.hist.Served write c
  covers : bio.error = false → ∀ it ∈ s.iters r i,
    (s.dev.hist.cutsOf r i).flatMap Cut.sectors ++ it.sectors = bio.iter.sectors
  covered : bio.error = false → (r, i) ∈ s.dev.hist.taken → s.iters r i = [] →
    (s.dev.hist.cutsOf r i).flatMap Cut.sectors = bio.iter.sectors
  reached : bio.error = false → (r, i) ∈ s.dev.hist.taken ∨ s.Pending r i
  doomed : bio.error = true → (∃ c ∈ s.dev.hist.cutsOf r i, ¬ s.Waits c ∧ ¬ s.dev.hist.Served write c) ∨
    (s.dev.hist.cutsOf r i).flatMap Cut.sectors ≠ bio.iter.sectors ∧ ¬ s.Pending r i ∧ ∀ it ∈ s.iters r i, it.size = 0

/-- Nothing that concerns the bio changes. -/
structure Untouched (s s' : Stage) (r i : ℕ) : Prop where
  cuts : s'.dev.hist.cutsOf r i = s.dev.hist.cutsOf r i
  iters : s'.iters r i = s.iters r i
  taken : (r, i) ∈ s'.dev.hist.taken ↔ (r, i) ∈ s.dev.hist.taken
  pending : s'.Pending r i ↔ s.Pending r i
  waits : ∀ c ∈ s.dev.hist.cutsOf r i, s'.Waits c ↔ s.Waits c
  served : ∀ c ∈ s.dev.hist.cutsOf r i, ∀ write, s'.dev.hist.Served write c ↔ s.dev.hist.Served write c

variable {s s' : Stage} {r i : ℕ} {write : Bool} {bio bio' : Bio}

theorem Fair.untouched (h : Fair s r i write bio) (ha : Untouched s s' r i) (hiter : bio'.iter = bio.iter)
    (herror : bio'.error = bio.error) : Fair s' r i write bio' := by
  constructor
  case pieces =>
    rw [ha.cuts]
    exact h.pieces
  case whole =>
    rw [ha.iters]
    exact h.whole
  case served =>
    rw [ha.cuts, herror]
    intro he c hc
    rw [ha.waits c hc, ha.served c hc]
    exact h.served he c hc
  case covers =>
    rw [ha.cuts, ha.iters, herror, hiter]
    exact h.covers
  case covered =>
    rw [ha.cuts, ha.iters, ha.taken, herror, hiter]
    exact h.covered
  case reached =>
    rw [ha.taken, ha.pending, herror]
    exact h.reached
  case doomed =>
    rw [ha.cuts, ha.pending, ha.iters, herror, hiter]
    intro he
    rcases h.doomed he with ⟨c, hc, hw, hs⟩ | hstop
    · refine .inl ⟨c, hc, ?_, ?_⟩
      · rwa [ha.waits c hc]
      · rwa [ha.served c hc]
    · exact .inr hstop

theorem Fair.of_error (hpieces : ∀ c ∈ s.dev.hist.cutsOf r i, 512 ∣ c.size) (hwhole : ∀ it ∈ s.iters r i, 512 ∣ it.size)
    (herror : bio.error = true) (hdoomed : (∃ c ∈ s.dev.hist.cutsOf r i, ¬ s.Waits c ∧ ¬ s.dev.hist.Served write c) ∨
      (s.dev.hist.cutsOf r i).flatMap Cut.sectors ≠ bio.iter.sectors ∧ ¬ s.Pending r i ∧
        ∀ it ∈ s.iters r i, it.size = 0) : Fair s r i write bio := by
  have hno (hfalse : bio.error = false) : False := Bool.noConfusion (herror.symm.trans hfalse)
  exact ⟨hpieces, hwhole, fun he => (hno he).elim, fun he => (hno he).elim, fun he => (hno he).elim,
    fun he => (hno he).elim, fun _ => hdoomed⟩

/-- What an operation may do to a request: the bios in `mark` may fail. -/
structure Marked (fails : Bool) (mark : ℕ → Prop) (rq rq' : Request) : Prop where
  id : rq'.id = rq.id
  write : rq'.write = rq.write
  iters : rq'.bios.map Bio.iter = rq.bios.map Bio.iter
  marked : ∀ i bio bio', rq.bios[i]? = some bio → rq'.bios[i]? = some bio' → mark i → bio'.error = (fails || bio.error)
  others : ∀ i bio bio', rq.bios[i]? = some bio → rq'.bios[i]? = some bio' → ¬ mark i → bio'.error = bio.error

/-- All bios of started requests of whole sectors are treated fairly. -/
def Fairs (s : Stage) : Prop :=
  ∀ rq ∈ s.dev.rqs, rq.Whole → ∀ i bio, rq.bios[i]? = some bio → Fair s rq.id i rq.write bio

theorem Marked.unmarked {fails : Bool} {mark : ℕ → Prop} {rq rq' : Request} (h : Marked fails mark rq rq')
    (hi : rq'.bios[i]? = some bio') : ∃ bio, rq.bios[i]? = some bio ∧ bio'.iter = bio.iter := by
  have hmap : (rq'.bios.map Bio.iter)[i]? = (rq.bios.map Bio.iter)[i]? := by rw [h.iters]
  rw [List.getElem?_map, List.getElem?_map, hi, Option.map_some] at hmap
  obtain ⟨bio, hbio, hiter⟩ := Option.map_eq_some_iff.mp hmap.symm
  exact ⟨bio, hbio, hiter.symm⟩

theorem Fairs.step (h : Fairs s) (fails : Bool) (mark : ℕ → ℕ → Prop)
    (hrqs : ∀ rq' ∈ s'.dev.rqs, ∃ rq ∈ s.dev.rqs, Marked fails (mark rq.id) rq rq')
    (hothers : ∀ rq ∈ s.dev.rqs, ∀ i < rq.bios.length, ¬ mark rq.id i → Untouched s s' rq.id i)
    (hmark : ∀ rq ∈ s.dev.rqs, rq.Whole → ∀ i bio bio', rq.bios[i]? = some bio → mark rq.id i →
      Fair s rq.id i rq.write bio → bio'.iter = bio.iter → bio'.error = (fails || bio.error) →
      Fair s' rq.id i rq.write bio') : Fairs s' := by
  intro rq' hrq' hwhole i bio' hbio'
  obtain ⟨rq, hrq, hm⟩ := hrqs rq' hrq'
  obtain ⟨bio, hbio, hiter⟩ := hm.unmarked hbio'
  have hwhole' : rq.Whole := by
    rw [Request.Whole, ← hm.iters]
    exact hwhole
  have hf := h rq hrq hwhole' i bio hbio
  rw [hm.id, hm.write]
  by_cases hi : mark rq.id i
  · exact hmark rq hrq hwhole' i bio bio' hbio hi hf hiter (hm.marked i bio bio' hbio hbio' hi)
  · have hlt : i < rq.bios.length := (List.getElem?_eq_some_iff.mp hbio).1
    exact hf.untouched (hothers rq hrq i hlt hi) hiter (hm.others i bio bio' hbio hbio' hi)

theorem Marked.same {mark : ℕ → Prop} {rq rq' : Request} (hid : rq'.id = rq.id) (hw : rq'.write = rq.write)
    (hb : rq'.bios = rq.bios) : Marked false mark rq rq' := by
  have hsame (i : ℕ) (bio bio' : Bio) (hi : rq.bios[i]? = some bio) (hi' : rq'.bios[i]? = some bio') : bio' = bio := by
    rw [hb, hi, Option.some.injEq] at hi'
    exact hi'.symm
  refine ⟨hid, hw, by rw [hb], ?_, ?_⟩
  · intro i bio bio' hi hi' _
    rw [hsame i bio bio' hi hi', Bool.false_or]
  · intro i bio bio' hi hi' _
    rw [hsame i bio bio' hi hi']

theorem Marked.fail {mark : ℕ → Prop} {rq rq' : Request} {j : ℕ} (hid : rq'.id = rq.id) (hw : rq'.write = rq.write)
    (hb : rq'.bios = rq.bios.modify j fun bio => { bio with error := true }) (hmark : ∀ i, mark i ↔ i = j) :
    Marked true mark rq rq' := by
  refine ⟨hid, hw, ?_, ?_, ?_⟩
  · rw [hb]
    exact map_modify_same _ _ (fun bio : Bio => { bio with error := true }) Bio.iter fun _ => rfl
  · intro i bio bio' hi hi' hm
    rw [hb, (hmark i).mp hm, List.getElem?_modify_eq, ← (hmark i).mp hm, hi] at hi'
    obtain rfl : bio' = { bio with error := true } := by simpa using hi'.symm
    rfl
  · intro i bio bio' hi hi' hm
    have hji : j ≠ i := fun hji => hm ((hmark i).mpr hji.symm)
    rw [hb, List.getElem?_modify_ne _ _ hji, hi, Option.some.injEq] at hi'
    rw [hi']

theorem Marked.elsewhere {fails : Bool} {mark : ℕ → Prop} {rq : Request} (hno : ∀ i, ¬ mark i) : Marked fails mark rq rq := by
  refine ⟨rfl, rfl, rfl, fun i _ _ _ _ hi => absurd hi (hno i), ?_⟩
  intro i bio bio' hi hi' _
  rw [hi, Option.some.injEq] at hi'
  rw [hi']

end Bios

section Audit

variable {s s' : Stage} {d d' : Aoedev} {D L : Multiset Duty} {B : Multiset ℕ}

/-- A frame that waits has been cut from the bio of its buf, and its header says so. -/
def Stage.Owes (s : Stage) (x : Duty) : Prop :=
  x.iter.size ≤ 127 * 512 ∧ ∀ b ∈ s.dev.bufs, b.id = x.buf →
    ⟨x.cmd, b.rq, b.bio, x.iter.sector, x.iter.size⟩ ∈ s.dev.hist.cuts ∧
      ∀ rq ∈ s.dev.rqs, rq.id = b.rq → ∃ ext, x.ata = ataRwHdr ext rq.write x.iter

/-- Commands are cut once and processed once, all open bios are fair, and every ended bio has the status it deserves. -/
structure Audit (s : Stage) : Prop where
  cmdLt : ∀ c ∈ s.dev.hist.cuts, c.cmd < s.dev.hist.ncmds
  cmds : (s.dev.hist.cuts.map Cut.cmd).Nodup
  cutTaken : ∀ c ∈ s.dev.hist.cuts, (c.rq, c.bio) ∈ s.dev.hist.taken
  todo : (s.todo.map Duty.cmd).Nodup
  owes : ∀ x ∈ s.todo, s.Owes x
  procLt : ∀ p ∈ s.dev.hist.processed, p.cmd < s.dev.hist.ncmds
  fresh : ∀ x ∈ s.todo, ∀ p ∈ s.dev.hist.processed, p.cmd ≠ x.cmd
  fair : Fairs s
  cursor : ∀ b ∈ s.dev.bufs, s.dev.ip.buf = some b.id → b.iter.size = 0 →
    ∀ rq ∈ s.dev.rqs, rq.id = b.rq → ∀ bio, rq.bios[b.bio]? = some bio → bio.error = true
  ended : ∀ e ∈ s.dev.hist.ended, e.rq.Whole → ∀ i bio, e.rq.bios[i]? = some bio →
    (e.status.getD i false = true ↔ s.dev.hist.Done e.rq.id i e.rq.write bio.iter)

/-- An operation that neither cuts nor processes a frame nor ends a request. -/
theorem Audit.adjust (h : Audit s) (fails : Bool) (mark : ℕ → ℕ → Prop)
    (hcuts : s'.dev.hist.cuts = s.dev.hist.cuts) (hproc : s'.dev.hist.processed = s.dev.hist.processed)
    (htaken : s'.dev.hist.taken = s.dev.hist.taken)
    (hended : ∀ e ∈ s'.dev.hist.ended, e ∈ s.dev.hist.ended ∨ (e.rq.Whole → ∀ i bio, e.rq.bios[i]? = some bio →
      (e.status.getD i false = true ↔ s.dev.hist.Done e.rq.id i e.rq.write bio.iter)))
    (hn : s.dev.hist.ncmds ≤ s'.dev.hist.ncmds) (htodo : s'.todo ≤ s.todo)
    (hbufs : ∀ b' ∈ s'.dev.bufs, ∃ b ∈ s.dev.bufs, b.id = b'.id ∧ b.rq = b'.rq ∧ b.bio = b'.bio)
    (hrqs : ∀ rq' ∈ s'.dev.rqs, ∃ rq ∈ s.dev.rqs, Marked fails (mark rq.id) rq rq')
    (hcursor : ∀ b' ∈ s'.dev.bufs, s'.dev.ip.buf = some b'.id → b'.iter.size = 0 →
      (∃ b ∈ s.dev.bufs, b.rq = b'.rq ∧ b.bio = b'.bio ∧ s.dev.ip.buf = some b.id ∧ b.iter.size = 0) ∨
        fails = true ∧ mark b'.rq b'.bio)
    (hfair : Fairs s') : Audit s' := by
  constructor
  case cmdLt =>
    rw [hcuts]
    exact fun c hc => (h.cmdLt c hc).trans_le hn
  case cmds =>
    rw [hcuts]
    exact h.cmds
  case cutTaken =>
    rw [hcuts, htaken]
    exact h.cutTaken
  case todo => exact Multiset.nodup_of_le (Multiset.map_le_map htodo) h.todo
  case owes =>
    intro x hx
    obtain ⟨hsize, howes⟩ := h.owes x (Multiset.mem_of_le htodo hx)
    refine ⟨hsize, fun b' hb' hid => ?_⟩
    obtain ⟨b, hb, hbid, hbrq, hbbio⟩ := hbufs b' hb'
    obtain ⟨hcut, hata⟩ := howes b hb (hbid.trans hid)
    rw [hcuts, ← hbrq, ← hbbio]
    refine ⟨hcut, fun rq' hrq' hr => ?_⟩
    obtain ⟨rq, hrq, hm⟩ := hrqs rq' hrq'
    rw [hm.write]
    exact hata rq hrq (hm.id.symm.trans hr)
  case procLt =>
    rw [hproc]
    exact fun p hp => (h.procLt p hp).trans_le hn
  case fresh =>
    rw [hproc]
    exact fun x hx => h.fresh x (Multiset.mem_of_le htodo hx)
  case fair => exact hfair
  case cursor =>
    intro b' hb' hip hzero rq' hrq' hr bio' hbio'
    obtain ⟨rq, hrq, hm⟩ := hrqs rq' hrq'
    obtain ⟨bio, hbio, -⟩ := hm.unmarked hbio'
    have hrid : rq.id = b'.rq := hm.id.symm.trans hr
    by_cases hmark : mark rq.id b'.bio
    · rw [hm.marked _ _ _ hbio hbio' hmark]
      rcases hcursor b' hb' hip hzero with ⟨b, hb, hbrq, hbbio, hbip, hbzero⟩ | ⟨hfails, -⟩
      · rw [h.cursor b hb hbip hbzero rq hrq (hrid.trans hbrq.symm) bio (hbbio ▸ hbio), Bool.or_true]
      · rw [hfails, Bool.true_or]
    · rw [hm.others _ _ _ hbio hbio' hmark]
      rcases hcursor b' hb' hip hzero with ⟨b, hb, hbrq, hbbio, hbip, hbzero⟩ | ⟨-, hc⟩
      · exact h.cursor b hb hbip hbzero rq hrq (hrid.trans hbrq.symm) bio (hbbio ▸ hbio)
      · exact absurd (hrid ▸ hc) hmark
  case ended =>
    intro e he hwhole i bio hi
    have hdone : s'.dev.hist.Done e.rq.id i e.rq.write bio.iter ↔ s.dev.hist.Done e.rq.id i e.rq.write bio.iter := by
      simp only [Hist.Done, Hist.cutsOf, Hist.Served, hcuts, hproc]
    rw [hdone]
    rcases hended e he with he | he
    · exact h.ended e he hwhole i bio hi
    · exact he hwhole i bio hi

private theorem iters_map {r i : ℕ} {g : Buf → Buf} (hb : s'.dev.bufs = s.dev.bufs.map g)
    (hg : ∀ x ∈ s.dev.bufs, (g x).rq = x.rq ∧ (g x).bio = x.bio ∧ (x.rq = r → x.bio = i → (g x).iter = x.iter)) :
    s'.iters r i = s.iters r i := by
  unfold Stage.iters
  rw [hb, List.filterMap_map]
  apply List.filterMap_congr
  intro x hx
  obtain ⟨hrq, hbio, hiter⟩ := hg x hx
  simp only [Function.comp, hrq, hbio]
  split
  · rename_i hc
    rw [hiter hc.1 hc.2]
  · rfl

private theorem mem_iters {r i : ℕ} {it : BvecIter} :
    it ∈ s.iters r i ↔ ∃ b ∈ s.dev.bufs, b.rq = r ∧ b.bio = i ∧ b.iter = it := by
  simp only [Stage.iters, List.mem_filterMap]
  constructor
  · rintro ⟨b, hb, hit⟩
    split at hit
    · rename_i hc
      exact ⟨b, hb, hc.1, hc.2, by simpa using hit⟩
    · exact absurd hit (by simp)
  · rintro ⟨b, hb, hrq, hbio, rfl⟩
    exact ⟨b, hb, by rw [if_pos ⟨hrq, hbio⟩]⟩

theorem Acct.buf_inj (h : Acct d.blk B) {x y : Buf} (hx : x ∈ d.bufs) (hy : y ∈ d.bufs) (hrq : x.rq = y.rq)
    (hbio : x.bio = y.bio) : x = y :=
  List.inj_on_of_nodup_map h.bioOnce hx hy (by rw [hrq, hbio])

theorem Acct.buf_iff (h : Acct d.blk B) {b : ℕ} (hb : b ∈ d.bufs.map Buf.id) {y : Buf} (hy : y ∈ d.bufs) :
    y.id = b ↔ y.rq = (d.bufAt b).rq ∧ y.bio = (d.bufAt b).bio := by
  obtain ⟨hmem, hid, -⟩ := h.buf_of_mem hb
  constructor
  · rintro rfl
    rw [h.bufAt_mem hy]
    exact ⟨rfl, rfl⟩
  · rintro ⟨hr, hi⟩
    rw [h.buf_inj hy hmem hr hi, hid]

theorem Untouched.of_eq {r i : ℕ} (hcuts : s'.dev.hist.cuts = s.dev.hist.cuts)
    (hproc : s'.dev.hist.processed = s.dev.hist.processed) (htaken : s'.dev.hist.taken = s.dev.hist.taken)
    (hpending : s'.Pending r i ↔ s.Pending r i) (hiters : s'.iters r i = s.iters r i)
    (hwaits : ∀ c ∈ s.dev.hist.cutsOf r i, s'.Waits c ↔ s.Waits c) : Untouched s s' r i := by
  refine ⟨?_, hiters, ?_, hpending, hwaits, ?_⟩
  · rw [Hist.cutsOf, hcuts, Hist.cutsOf]
  · rw [htaken]
  · intro c _ write
    rw [Hist.Served, hproc, Hist.Served]

private theorem notePred_eq (d : Aoedev) (c : Counter) (n : ℕ) :
    ∃ u, d.notePred c n = { d with hist.underflow := u } := by
  unfold Aoedev.notePred
  split
  · exact ⟨_, rfl⟩
  · exact ⟨d.hist.underflow, rfl⟩

theorem Audit.decNframesout (h : Audit ⟨d, D, L⟩) (b : ℕ) {L' : Multiset Duty} :
    Audit ⟨decNframesout d b, D, L'⟩ := by
  obtain ⟨u, hu⟩ := notePred_eq d .nframesout (d.bufAt b).nframesout
  unfold AoeDriver.decNframesout
  rw [hu]
  let g (x : Buf) : Buf := if x.id = b then { x with nframesout := predUlong x.nframesout } else x
  have hg (x : Buf) : (g x).id = x.id ∧ (g x).rq = x.rq ∧ (g x).bio = x.bio ∧ (g x).iter = x.iter := by
    simp only [g]
    split
    · exact ⟨rfl, rfl, rfl, rfl⟩
    · exact ⟨rfl, rfl, rfl, rfl⟩
  refine h.adjust false (fun _ _ => False) rfl rfl rfl (fun _ => .inl) le_rfl le_rfl ?_ ?_ ?_ ?_
  · intro b' hb'
    obtain ⟨x, hx, rfl⟩ := List.mem_map.mp hb'
    exact ⟨x, hx, (hg x).1.symm, (hg x).2.1.symm, (hg x).2.2.1.symm⟩
  · exact fun rq hrq => ⟨rq, hrq, .elsewhere fun _ => id⟩
  · intro b' hb' hip hzero
    obtain ⟨x, hx, rfl⟩ := List.mem_map.mp hb'
    refine .inl ⟨x, hx, (hg x).2.1.symm, (hg x).2.2.1.symm, ?_, ?_⟩
    · rw [← (hg x).1]
      exact hip
    · rw [← (hg x).2.2.2]
      exact hzero
  · refine h.fair.step false (fun _ _ => False) ?_ ?_ ?_
    · exact fun rq hrq => ⟨rq, hrq, .elsewhere fun _ => id⟩
    · intro rq _ i _ _
      refine .of_eq rfl rfl rfl .rfl (iters_map rfl fun x _ => ?_) fun _ _ => .rfl
      exact ⟨(hg x).2.1, (hg x).2.2.1, fun _ _ => (hg x).2.2.2⟩
    · exact fun _ _ _ _ _ _ _ hmark => hmark.elim

/-- The buf `b` is failed: nothing more is cut from it, and its bio gets the mark. -/
theorem Audit.spoilBuf {b : ℕ} {D' L' : Multiset Duty} (hA : Acct d.blk B) (hb : b ∈ d.bufs.map Buf.id)
    (h : Audit ⟨d, D, L⟩) (hle : D' ≤ D)
    (hwaits : ∀ c ∈ d.hist.cuts, ¬ (c.rq = (d.bufAt b).rq ∧ c.bio = (d.bufAt b).bio) →
      c.cmd ∈ D.map Duty.cmd → c.cmd ∈ D'.map Duty.cmd)
    (hdoom : ∀ rq ∈ d.rqs, rq.Whole → rq.id = (d.bufAt b).rq → ∀ bio, rq.bios[(d.bufAt b).bio]? = some bio →
      Fair ⟨d, D, L⟩ (d.bufAt b).rq (d.bufAt b).bio rq.write bio →
      (∃ c ∈ d.hist.cutsOf (d.bufAt b).rq (d.bufAt b).bio, c.cmd ∉ D'.map Duty.cmd ∧ ¬ d.hist.Served rq.write c) ∨
        (d.hist.cutsOf (d.bufAt b).rq (d.bufAt b).bio).flatMap Cut.sectors ≠ bio.iter.sectors ∧
          ¬ Stage.Pending ⟨d, D, L⟩ (d.bufAt b).rq (d.bufAt b).bio) :
    Audit ⟨spoilBuf d b, D', L'⟩ := by
  obtain ⟨hmem, hid, -⟩ := hA.buf_of_mem hb
  let g (x : Buf) : Buf := if x.id = b then { x with iter.size := 0 } else x
  let k (rq : Request) : Request := if rq.id = (d.bufAt b).rq then
    { rq with bios := rq.bios.modify (d.bufAt b).bio fun bio => { bio with error := true } } else rq
  have hbuf : (d.modBuf b fun x => { x with iter.size := 0 }).bufAt b = { d.bufAt b with iter.size := 0 } :=
    bufAt_modBuf_self d _ (fun _ => rfl) hb
  have heq : AoeDriver.spoilBuf d b = { d with bufs := d.bufs.map g, rqs := d.rqs.map k } := by
    unfold AoeDriver.spoilBuf AoeDriver.failBio
    rw [hbuf]
    rfl
  have hg (x : Buf) : (g x).id = x.id ∧ (g x).rq = x.rq ∧ (g x).bio = x.bio := by
    simp only [g]
    split
    · exact ⟨rfl, rfl, rfl⟩
    · exact ⟨rfl, rfl, rfl⟩
  -- bufs of other bios keep their position, the one of `b` has none left
  have hother {x : Buf} (hx : x ∈ d.bufs) (hno : ¬ (x.rq = (d.bufAt b).rq ∧ x.bio = (d.bufAt b).bio)) : g x = x := by
    simp only [g]
    rw [if_neg (hno ∘ (hA.buf_iff hb hx).mp)]
  have hself {x : Buf} (hx : x ∈ d.bufs) (hrq : x.rq = (d.bufAt b).rq) (hbio : x.bio = (d.bufAt b).bio) :
      (g x).iter.size = 0 := by
    simp only [g]
    rw [if_pos ((hA.buf_iff hb hx).mpr ⟨hrq, hbio⟩)]
  let mark (r i : ℕ) : Prop := r = (d.bufAt b).rq ∧ i = (d.bufAt b).bio
  have hrqs : ∀ rq' ∈ d.rqs.map k, ∃ rq ∈ d.rqs, Marked true (mark rq.id) rq rq' := by
    intro rq' hrq'
    obtain ⟨rq, hrq, rfl⟩ := List.mem_map.mp hrq'
    refine ⟨rq, hrq, ?_⟩
    simp only [k]
    split
    · rename_i hr
      exact .fail rfl rfl rfl fun i => ⟨fun hm => hm.2, fun hi => ⟨hr, hi⟩⟩
    · rename_i hr
      exact .elsewhere fun i hm => hr hm.1
  rw [heq]
  refine h.adjust true mark rfl rfl rfl (fun _ => .inl) le_rfl hle ?_ hrqs ?_ ?_
  · intro b' hb'
    obtain ⟨x, hx, rfl⟩ := List.mem_map.mp hb'
    exact ⟨x, hx, (hg x).1.symm, (hg x).2.1.symm, (hg x).2.2.symm⟩
  · intro b' hb' hip hzero
    obtain ⟨x, hx, rfl⟩ := List.mem_map.mp hb'
    by_cases hm : x.rq = (d.bufAt b).rq ∧ x.bio = (d.bufAt b).bio
    · refine .inr ⟨rfl, ?_⟩
      simp only [mark]
      rw [(hg x).2.1, (hg x).2.2]
      exact hm
    · rw [hother hx hm] at hip hzero ⊢
      exact .inl ⟨x, hx, rfl, rfl, hip, hzero⟩
  · refine h.fair.step true mark hrqs ?_ ?_
    · intro rq _ i _ hm
      refine .of_eq rfl rfl rfl .rfl (iters_map rfl fun x hx => ⟨(hg x).2.1, (hg x).2.2, fun hr hi => ?_⟩) ?_
      · rw [hother hx]
        rintro ⟨hr', hi'⟩
        exact hm ⟨hr.symm.trans hr', hi.symm.trans hi'⟩
      · intro c hc
        have hc' := mem_cutsOf.mp hc
        refine ⟨fun hw => Multiset.mem_of_le (Multiset.map_le_map hle) hw, hwaits c hc'.1 ?_⟩
        rintro ⟨hr, hi⟩
        exact hm ⟨hc'.2.1.symm.trans hr, hc'.2.2.symm.trans hi⟩
    · rintro rq hrq hwhole i bio bio' hbio ⟨hr, rfl⟩ hf hiter herror
      rw [Bool.true_or] at herror
      rw [hr] at hf ⊢
      have hzero : ∀ it ∈ Stage.iters ⟨{ d with bufs := d.bufs.map g, rqs := d.rqs.map k }, D', L'⟩ (d.bufAt b).rq
          (d.bufAt b).bio, it.size = 0 := by
        intro it hit
        obtain ⟨b', hb', hbrq, hbbio, rfl⟩ := mem_iters.mp hit
        obtain ⟨x, hx, rfl⟩ := List.mem_map.mp hb'
        exact hself hx ((hg x).2.1.symm.trans hbrq) ((hg x).2.2.symm.trans hbbio)
      refine .of_error hf.pieces ?_ herror ?_
      · intro it hit
        rw [hzero it hit]
        exact dvd_zero 512
      · rw [hiter]
        rcases hdoom rq hrq hwhole hr bio hbio hf with hlost | ⟨hshort, hpend⟩
        · exact .inl hlost
        · exact .inr ⟨hshort, hpend, hzero⟩

private theorem sectors_nil {it : BvecIter} (h : it.size = 0) : it.sectors = [] := by
  rw [BvecIter.sectors, h]
  rfl

private theorem sectors_ne_nil {it : BvecIter} (hw : 512 ∣ it.size) (h : it.size ≠ 0) : it.sectors ≠ [] := by
  have hpos : 0 < it.size / 512 := Nat.div_pos (Nat.le_of_dvd (Nat.pos_of_ne_zero h) hw) (by norm_num)
  intro hnil
  have hlen := congrArg List.length hnil
  rw [BvecIter.sectors, List.length_range'] at hlen
  exact absurd hlen (by simpa using hpos.ne')

/-- A buf of which nothing is left is released. -/
theorem Audit.dropBuf {b : ℕ} (hA : Acct d.blk B) (hb : b ∈ d.bufs.map Buf.id) (hzero : (d.bufAt b).iter.size = 0)
    (h : Audit ⟨d, D, L⟩) : Audit ⟨dropBuf d b, D, L⟩ := by
  obtain ⟨hmem, hid, -⟩ := hA.buf_of_mem hb
  unfold AoeDriver.dropBuf
  extract_lets r n ip₁ d₁
  obtain ⟨u, hu⟩ := notePred_eq d₁ .special n
  rw [hu]
  let mark (r i : ℕ) : Prop := r = (d.bufAt b).rq ∧ i = (d.bufAt b).bio
  let k (rq : Request) : Request := if rq.id = r then { rq with special := predUlong n } else rq
  have hrqs : ∀ rq' ∈ d.rqs.map k, ∃ rq ∈ d.rqs, Marked false (mark rq.id) rq rq' := by
    intro rq' hrq'
    obtain ⟨rq, hrq, rfl⟩ := List.mem_map.mp hrq'
    refine ⟨rq, hrq, ?_⟩
    simp only [k]
    split
    · exact .same rfl rfl rfl
    · exact .same rfl rfl rfl
  have hsub {x : Buf} (hx : x ∈ d.bufs.filter (·.id ≠ b)) : x ∈ d.bufs ∧ x.id ≠ b := by simpa using hx
  refine h.adjust false mark rfl rfl rfl (fun _ => .inl) le_rfl le_rfl ?_ hrqs ?_ ?_
  · exact fun x hx => ⟨x, (hsub hx).1, rfl, rfl, rfl⟩
  · intro x hx hip hsize
    refine .inl ⟨x, (hsub hx).1, rfl, rfl, ?_, hsize⟩
    have hip' : (if d.ip.buf = some b then none else d.ip.buf) = some x.id := hip
    split at hip'
    · exact absurd hip' (by simp)
    · exact hip'
  · refine h.fair.step false mark hrqs ?_ ?_
    · intro rq _ i _ hm
      refine .of_eq rfl rfl rfl .rfl ?_ fun _ _ => .rfl
      change (d.bufs.filter (·.id ≠ b)).filterMap _ = d.bufs.filterMap _
      rw [List.filterMap_filter]
      apply List.filterMap_congr
      intro x hx
      split
      · rfl
      · rename_i hxb
        have hxb' : x.id = b := by simpa using hxb
        rw [if_neg]
        rintro ⟨hr, hi⟩
        have hat : d.bufAt b = x := by rw [← hxb', hA.bufAt_mem hx]
        exact hm ⟨by rw [hat, hr], by rw [hat, hi]⟩
    · rintro rq hrq hwhole i bio bio' hbio ⟨hr, rfl⟩ hf hiter herror
      rw [Bool.false_or] at herror
      rw [hr] at hf ⊢
      have hnone : Stage.iters ⟨{ d₁ with hist.underflow := u }.modRq r fun rq => { rq with special := predUlong n }, D, L⟩
          (d.bufAt b).rq (d.bufAt b).bio = [] := by
        rw [List.eq_nil_iff_forall_not_mem]
        intro it hit
        obtain ⟨x, hx, hxr, hxi, -⟩ := mem_iters.mp hit
        obtain ⟨hx', hne⟩ := hsub hx
        rw [hA.buf_inj hx' hmem hxr hxi] at hne
        exact hne hid
      have hold : (d.bufAt b).iter ∈ Stage.iters ⟨d, D, L⟩ (d.bufAt b).rq (d.bufAt b).bio :=
        mem_iters.mpr ⟨_, hmem, rfl, rfl, rfl⟩
      refine ⟨hf.pieces, ?_, ?_, ?_, ?_, ?_, ?_⟩
      · rw [hnone]
        exact fun it hit => absurd hit List.not_mem_nil
      · rw [herror]
        exact hf.served
      · rw [hnone]
        exact fun _ it hit => absurd hit List.not_mem_nil
      · rw [herror, hiter]
        intro he _ _
        have hcov := hf.covers he _ hold
        rw [sectors_nil hzero, List.append_nil] at hcov
        exact hcov
      · rw [herror]
        exact hf.reached
      · rw [herror, hiter, hnone]
        intro he
        rcases hf.doomed he with hlost | ⟨hshort, hpend, -⟩
        · exact .inl hlost
        · exact .inr ⟨hshort, hpend, fun it hit => absurd hit List.not_mem_nil⟩

theorem Audit.untaken (h : Audit s) (hA : Acct s.dev.blk B) {r i : ℕ} (hnot : (r, i) ∉ s.dev.hist.taken) :
    s.dev.hist.cutsOf r i = [] ∧ s.iters r i = [] := by
  constructor
  · rw [List.eq_nil_iff_forall_not_mem]
    intro c hc
    obtain ⟨hin, hr, hi⟩ := mem_cutsOf.mp hc
    have htaken := h.cutTaken c hin
    rw [hr, hi] at htaken
    exact hnot htaken
  · rw [List.eq_nil_iff_forall_not_mem]
    intro it hit
    obtain ⟨b, hb, hr, hi, -⟩ := mem_iters.mp hit
    have htaken : (b.rq, b.bio) ∈ s.dev.hist.taken := hA.bufTaken b hb
    rw [hr, hi] at htaken
    exact hnot htaken

theorem Audit.waits_buf (h : Audit s) (hheld : ∀ x ∈ s.todo, x.buf ∈ s.dev.bufs.map Buf.id) {c : Cut}
    (hc : c ∈ s.dev.hist.cuts) (hw : s.Waits c) : ∃ b ∈ s.dev.bufs, b.rq = c.rq ∧ b.bio = c.bio := by
  obtain ⟨x, hx, hcmd⟩ := Multiset.mem_map.mp hw
  obtain ⟨b, hb, hid⟩ := List.mem_map.mp (hheld x hx)
  have hcut := ((h.owes x hx).2 b hb hid).1
  have heq := List.inj_on_of_nodup_map h.cmds hc hcut hcmd.symm
  exact ⟨b, hb, by rw [heq], by rw [heq]⟩

/-- A request with nothing left to wait for is ended with the status that its bios deserve. -/
theorem Audit.endRequest {r : ℕ} (hA : Acct d.blk B) (hr : r ∈ d.rqs.map Request.id) (hz : (d.rqAt r).special = 0)
    (hheld : ∀ x ∈ D, x.buf ∈ d.bufs.map Buf.id) (h : Audit ⟨d, D, L⟩) : Audit ⟨endRequest d r false, D, L⟩ := by
  obtain ⟨rq, hrq, rfl⟩ := List.mem_map.mp hr
  have hat : d.rqAt rq.id = rq := hA.rqAt_mem hrq
  rw [hat] at hz
  have hspecial : rq.special = d.bufs.countP (·.rq = rq.id) + d.blk.rest rq := hA.special rq hrq
  have hnobuf : ∀ b ∈ d.bufs, b.rq ≠ rq.id := by
    have hcount : d.bufs.countP (·.rq = rq.id) = 0 := by omega
    intro b hb
    simpa using List.countP_eq_zero.mp hcount b hb
  have hnopend (i : ℕ) : ¬ Stage.Pending ⟨d, D, L⟩ rq.id i := by
    rintro ⟨hip, n, hnx, -⟩
    obtain ⟨rq', hrq', hid, hlt⟩ := hA.ipRq rq.id hip
    have heq : rq' = rq := by rw [← hA.rqAt_mem hrq', hid, hat]
    have hlt' : n < rq.bios.length := heq ▸ hlt n hnx
    have hrest : d.blk.rest rq = rq.bios.length - n := by
      have hip' : d.ip.rq = some rq.id := hip
      have hnx' : d.ip.nxbio = some n := hnx
      simp [Blk.rest, Aoedev.blk, hip', hnx']
    omega
  have hrqs : ∀ rq' ∈ d.rqs.filter (·.id ≠ rq.id), ∃ rq ∈ d.rqs, Marked false (fun _ => False) rq rq' := by
    intro rq' hrq'
    exact ⟨rq', List.mem_of_mem_filter hrq', .elsewhere fun _ => id⟩
  refine h.adjust false (fun _ _ => False) rfl rfl rfl ?_ le_rfl le_rfl ?_ hrqs ?_ ?_
  · intro e he
    rcases List.mem_append.mp he with he | he
    · exact .inl he
    · refine .inr fun hwhole i bio hbio => ?_
      rw [List.mem_singleton.mp he, hat] at hwhole hbio ⊢
      dsimp only at hwhole hbio ⊢
      have hf := h.fair rq hrq hwhole i bio hbio
      have hstatus : (rq.bios.map fun bio => !false && !bio.error).getD i false = !bio.error := by
        rw [List.getD_eq_getElem?_getD, List.getElem?_map, hbio]
        simp
      have hnone : Stage.iters ⟨d, D, L⟩ rq.id i = [] := by
        rw [List.eq_nil_iff_forall_not_mem]
        intro it hit
        obtain ⟨b, hb, hbr, -⟩ := mem_iters.mp hit
        exact hnobuf b hb hbr
      rw [hstatus]
      cases he : bio.error with
      | false =>
        have htaken := (hf.reached he).resolve_right (hnopend i)
        refine ⟨fun _ => ⟨hf.covered he htaken hnone, fun c hc => ?_⟩, fun _ => rfl⟩
        refine (hf.served he c hc).resolve_left fun hw => ?_
        have hc' := mem_cutsOf.mp hc
        obtain ⟨b, hb, hbr, -⟩ := h.waits_buf hheld hc'.1 hw
        exact hnobuf b hb (hbr.trans hc'.2.1)
      | true =>
        refine ⟨fun hfalse => absurd hfalse (by simp), fun hdone => ?_⟩
        rcases hf.doomed he with ⟨c, hc, -, hs⟩ | ⟨hshort, -⟩
        · exact absurd (hdone.2 c hc) hs
        · exact absurd hdone.1 hshort
  · exact fun b hb => ⟨b, hb, rfl, rfl, rfl⟩
  · exact fun b hb hip hsize => .inl ⟨b, hb, rfl, rfl, hip, hsize⟩
  · refine h.fair.step false (fun _ _ => False) hrqs ?_ fun _ _ _ _ _ _ _ hmark => hmark.elim
    intro rq' _ i _ _
    refine .of_eq rfl rfl rfl ?_ rfl fun _ _ => .rfl
    simp only [Stage.Pending, AoeDriver.endRequest]
    split
    · rename_i hip
      refine ⟨fun hp => absurd hp.1 (by simp), fun hp => ?_⟩
      have heq : rq'.id = rq.id := by
        rw [hip, Option.some.injEq] at hp
        exact hp.1.symm
      rw [heq] at hp
      exact absurd hp (hnopend i)
    · exact .rfl

theorem Audit.settle {b : ℕ} (hA : Acct d.blk ((D + L).map Duty.buf)) (hb : b ∈ d.bufs.map Buf.id)
    (h : Audit ⟨d, D, L⟩) : Audit ⟨settle d b, D, L⟩ := by
  obtain ⟨hmem, hid, hrq, hrid, -⟩ := hA.buf_of_mem hb
  unfold AoeDriver.settle
  split
  · rename_i hz
    have hfree : b ∉ (D + L).map Duty.buf := by
      have hn := hA.nframesout _ hmem
      rw [hz.1, hid] at hn
      exact Multiset.count_eq_zero.mp hn.symm
    have hA' := hA.dropBuf hb hfree
    have h' := h.dropBuf hA hb hz.2
    unfold closeBuf
    split
    · rename_i hlast
      have hin : { d.rqAt (d.bufAt b).rq with special := predUlong (d.rqAt (d.bufAt b).rq).special } ∈
          (AoeDriver.dropBuf d b).rqs := by
        rw [rqs_dropBuf]
        refine List.mem_map.mpr ⟨_, hrq, ?_⟩
        rw [if_pos hrid]
      have hat := hA'.rqAt_mem hin
      rw [show ({ d.rqAt (d.bufAt b).rq with special := predUlong (d.rqAt (d.bufAt b).rq).special } : Request).id =
        (d.bufAt b).rq from hrid] at hat
      refine h'.endRequest hA' (List.mem_map.mpr ⟨_, hin, hrid⟩) ?_ ?_
      · rw [hat]
        exact hlast
      · intro x hx
        exact hA'.held _ (Multiset.mem_map_of_mem _ (Multiset.mem_add.mpr (.inl hx)))
    · exact h'
  · exact h

/-- The next bio fails before it is taken. -/
theorem Audit.failNext {r i : ℕ} (hA : Acct d.blk B) (hr : d.ip.rq = some r) (hi : d.ip.nxbio = some i)
    (h : Audit ⟨d, D, L⟩) : Audit ⟨failNext d r i, D, L⟩ := by
  obtain ⟨rq₀, hrq₀, hid₀, hlt⟩ := hA.ipRq r hr
  have hat : d.rqAt r = rq₀ := by rw [← hid₀, hA.rqAt_mem hrq₀]
  have hlt := hlt i hi
  obtain ⟨u, hu⟩ := notePred_eq d .special (d.rqAt r).special
  unfold AoeDriver.failNext
  dsimp only
  rw [hu, hat]
  let mark (r' j : ℕ) : Prop := r' = r ∧ j = i
  let k (rq : Request) : Request := if rq.id = r then
    { rq with special := predUlong rq₀.special, bios := rq.bios.modify i fun bio => { bio with error := true } } else rq
  have hrqs : ∀ rq' ∈ d.rqs.map k, ∃ rq ∈ d.rqs, Marked true (mark rq.id) rq rq' := by
    intro rq' hrq'
    obtain ⟨rq, hrq, rfl⟩ := List.mem_map.mp hrq'
    refine ⟨rq, hrq, ?_⟩
    simp only [k]
    split
    · rename_i hrid
      exact .fail rfl rfl rfl fun j => ⟨fun hm => hm.2, fun hj => ⟨hrid, hj⟩⟩
    · rename_i hrid
      exact .elsewhere fun j hm => hrid hm.1
  have hnot : (r, i) ∉ d.hist.taken := fun hmem => lt_irrefl i (hA.ipTaken (r, i) hmem hr i hi)
  refine h.adjust true mark rfl rfl rfl (fun _ => .inl) le_rfl le_rfl ?_ hrqs ?_ ?_
  · exact fun b hb => ⟨b, hb, rfl, rfl, rfl⟩
  · exact fun b hb hip hsize => .inl ⟨b, hb, rfl, rfl, hip, hsize⟩
  · refine h.fair.step true mark hrqs ?_ ?_
    · intro rq hrq j hj hm
      refine .of_eq rfl rfl rfl ?_ rfl fun _ _ => .rfl
      simp only [Stage.Pending, Aoedev.setNxbio, Aoedev.modRq, hr, hi, Option.some.injEq]
      refine and_congr_right fun hrid => ?_
      have hne : j ≠ i := fun hji => hm ⟨hrid.symm, hji⟩
      have heq : rq = rq₀ := by rw [← hA.rqAt_mem hrq, ← hrid, hat]
      rw [heq] at hj
      constructor
      · rintro ⟨n, hn, hle⟩
        split at hn
        · rw [Option.some.injEq] at hn
          exact ⟨i, rfl, by omega⟩
        · exact absurd hn (by simp)
      · rintro ⟨n, rfl, hle⟩
        exact ⟨i + 1, if_pos (by omega), by omega⟩
    · rintro rq hrq hwhole j bio bio' hbio ⟨hrid, rfl⟩ hf hiter herror
      rw [Bool.true_or] at herror
      rw [hrid] at hf ⊢
      obtain ⟨hcuts, hnone⟩ := h.untaken hA hnot
      dsimp only at hcuts
      have hmem : bio ∈ rq.bios := List.mem_of_getElem? hbio
      refine .of_error hf.pieces hf.whole herror (.inr ⟨?_, ?_, ?_⟩)
      · change (d.hist.cutsOf r j).flatMap Cut.sectors ≠ _
        rw [hcuts, hiter]
        exact (sectors_ne_nil (hwhole _ (List.mem_map_of_mem hmem)) (hA.sized rq hrq bio hmem)).symm
      · rintro ⟨-, n, hn, hle⟩
        simp only [Aoedev.setNxbio] at hn
        split at hn
        · rw [Option.some.injEq] at hn
          omega
        · exact absurd hn (by simp)
      · change ∀ it ∈ Stage.iters ⟨d, D, L⟩ r j, _
        rw [hnone]
        exact fun it hit => absurd hit List.not_mem_nil

theorem Audit.failBios {r : ℕ} (n : ℕ) (hA : Acct d.blk B) (hr : d.ip.rq = some r) (h : Audit ⟨d, D, L⟩) :
    Audit ⟨failBios r n d, D, L⟩ := by
  induction n generalizing d with
  | zero => exact h
  | succ n ih =>
    unfold AoeDriver.failBios
    split
    · exact h
    · rename_i i hi
      refine ih (hA.failNext hr hi) ?_ (h.failNext hA hr hi)
      rw [← hr]
      obtain ⟨u, hu⟩ := notePred_eq d .special (d.rqAt r).special
      unfold AoeDriver.failNext
      dsimp only
      rw [hu]
      rfl

theorem Audit.failRest {r : ℕ} (hA : Acct d.blk ((D + L).map Duty.buf)) (hr : d.ip.rq = some r)
    (h : Audit ⟨d, D, L⟩) : Audit ⟨failRest d r, D, L⟩ := by
  have hA' := hA.failBios (d.rqAt r).bios.length hr
  have h' := h.failBios (d.rqAt r).bios.length hA hr
  obtain ⟨-, hids, -⟩ := failBios_others r (d.rqAt r).bios.length d
  unfold AoeDriver.failRest
  dsimp only
  split
  · rename_i hz
    refine h'.endRequest hA' ?_ hz ?_
    · obtain ⟨rq, hrq, hid, -⟩ := hA.ipRq r hr
      rw [hids]
      exact List.mem_map.mpr ⟨rq, hrq, hid⟩
    · intro x hx
      exact hA'.held _ (Multiset.mem_map_of_mem _ (Multiset.mem_add.mpr (.inl hx)))
  · exact h'

theorem Audit.failFirst {rq : Request} {q : List Request} (hA : Acct d.blk B) (hq : d.queue = rq :: q)
    (h : Audit ⟨d, D, L⟩) : Audit ⟨AoeDriver.endRequest { d with queue := q, rqs := rq :: d.rqs } rq.id true, D, L⟩ := by
  have hmem : rq ∈ d.queue := by simp [hq]
  obtain ⟨-, hbios⟩ := fresh_iff.mp (hA.fresh rq hmem)
  have hnew : ∀ x ∈ d.rqs, x.id ≠ rq.id := fun x hx => (hA.queue_not_rqs hmem hx).symm
  have hat : Aoedev.rqAt { d with queue := q, rqs := rq :: d.rqs } rq.id = rq := by simp [Aoedev.rqAt]
  have hip : d.ip.rq ≠ some rq.id := by
    intro hr
    obtain ⟨x, hx, hid, -⟩ := hA.ipRq _ hr
    exact hnew x hx hid
  have hrqs : ∀ rq' ∈ (rq :: d.rqs).filter (·.id ≠ rq.id), ∃ rq ∈ d.rqs, Marked false (fun _ => False) rq rq' := by
    intro rq' hrq'
    obtain ⟨hin, hne⟩ := List.mem_filter.mp hrq'
    rcases List.mem_cons.mp hin with rfl | hin
    · simp at hne
    · exact ⟨rq', hin, .elsewhere fun _ => id⟩
  refine h.adjust false (fun _ _ => False) rfl rfl rfl ?_ le_rfl le_rfl ?_ hrqs ?_ ?_
  · intro e he
    rcases List.mem_append.mp he with he | he
    · exact .inl he
    · refine .inr fun hwhole i bio hbio => ?_
      rw [List.mem_singleton.mp he, hat] at hwhole hbio ⊢
      dsimp only at hwhole hbio ⊢
      have hin : bio ∈ rq.bios := List.mem_of_getElem? hbio
      refine ⟨fun hs => ?_, fun hdone => ?_⟩
      · rw [List.getD_eq_getElem?_getD, List.getElem?_map, hbio] at hs
        simp at hs
      · have hcover := hdone.1
        change (d.hist.cutsOf rq.id i).flatMap Cut.sectors = _ at hcover
        have hnot : (rq.id, i) ∉ d.hist.taken := fun ht => hA.not_queued ht (List.mem_map_of_mem hmem)
        rw [(h.untaken hA hnot).1] at hcover
        exact absurd hcover.symm (sectors_ne_nil (hwhole _ (List.mem_map_of_mem hin)) (hbios bio hin).1)
  · exact fun b hb => ⟨b, hb, rfl, rfl, rfl⟩
  · exact fun b hb hip hsize => .inl ⟨b, hb, rfl, rfl, hip, hsize⟩
  · refine h.fair.step false (fun _ _ => False) hrqs ?_ fun _ _ _ _ _ _ _ hmark => hmark.elim
    intro rq' _ i _ _
    refine .of_eq rfl rfl rfl ?_ rfl fun _ _ => .rfl
    simp only [Stage.Pending, AoeDriver.endRequest, if_neg hip]

theorem Audit.startRq {rq : Request} {q : List Request} (hA : Acct d.blk B) (hq : d.queue = rq :: q)
    (hr : d.ip.rq = none) (h : Audit ⟨d, D, L⟩) : Audit ⟨startRq d rq q, D, L⟩ := by
  have hmem : rq ∈ d.queue := by simp [hq]
  obtain ⟨hne, hbios⟩ := fresh_iff.mp (hA.fresh rq hmem)
  have hnew : ∀ x ∈ d.rqs, x.id ≠ rq.id := fun x hx => (hA.queue_not_rqs hmem hx).symm
  have hnobuf : ∀ b ∈ d.bufs, b.rq ≠ rq.id := by
    intro b hb hbr
    obtain ⟨x, hx, hid, -⟩ := hA.bufRq b hb
    exact hnew x hx (hid.trans hbr)
  refine ⟨h.cmdLt, h.cmds, h.cutTaken, h.todo, ?_, h.procLt, h.fresh, ?_, ?_, h.ended⟩
  · intro x hx
    obtain ⟨hsize, howes⟩ := h.owes x hx
    refine ⟨hsize, fun b hb hid => ⟨(howes b hb hid).1, fun rq' hrq' hrid => ?_⟩⟩
    rcases List.mem_cons.mp hrq' with rfl | hrq'
    · exact absurd hrid.symm (hnobuf b hb)
    · exact (howes b hb hid).2 rq' hrq' hrid
  · intro rq' hrq' hwhole i bio hbio
    rcases List.mem_cons.mp hrq' with rfl | hrq'
    · have hnot : (rq.id, i) ∉ d.hist.taken := fun ht => hA.not_queued ht (List.mem_map_of_mem hmem)
      obtain ⟨hcuts, hnone⟩ := h.untaken hA hnot
      dsimp only at hcuts
      have hin : bio ∈ rq.bios := List.mem_of_getElem? hbio
      have hpend : Stage.Pending ⟨AoeDriver.startRq d rq q, D, L⟩ rq.id i := ⟨rfl, 0, if_neg hne, Nat.zero_le i⟩
      have herror := (hbios bio hin).2
      constructor
      case pieces =>
        change ∀ c ∈ d.hist.cutsOf rq.id i, _
        rw [hcuts]
        exact fun c hc => absurd hc List.not_mem_nil
      case whole =>
        change ∀ it ∈ Stage.iters ⟨d, D, L⟩ rq.id i, _
        rw [hnone]
        exact fun it hit => absurd hit List.not_mem_nil
      case served =>
        change _ → ∀ c ∈ d.hist.cutsOf rq.id i, _
        rw [hcuts]
        exact fun _ c hc => absurd hc List.not_mem_nil
      case covers =>
        change _ → ∀ it ∈ Stage.iters ⟨d, D, L⟩ rq.id i, _
        rw [hnone]
        exact fun _ it hit => absurd hit List.not_mem_nil
      case covered => exact fun _ ht => absurd ht hnot
      case reached => exact fun _ => .inr hpend
      case doomed => exact fun he => Bool.noConfusion (herror.symm.trans he)
    · refine (h.fair rq' hrq' hwhole i bio hbio).untouched ?_ rfl rfl
      refine .of_eq rfl rfl rfl ?_ rfl fun _ _ => .rfl
      simp only [Stage.Pending, AoeDriver.startRq, hr, Option.some.injEq]
      refine ⟨fun hp => absurd hp.1.symm (hnew rq' hrq'), fun hp => absurd hp.1 (by simp)⟩
  · intro b hb hip hzero rq' hrq' hrid
    rcases List.mem_cons.mp hrq' with rfl | hrq'
    · exact absurd hrid.symm (hnobuf b hb)
    · exact h.cursor b hb hip hzero rq' hrq' hrid

theorem Audit.takeBio {r i : ℕ} (hA : Acct d.blk B) (hheld : ∀ x ∈ D, x.buf ∈ d.bufs.map Buf.id)
    (hr : d.ip.rq = some r) (hi : d.ip.nxbio = some i) (h : Audit ⟨d, D, L⟩) : Audit ⟨takeBio d r i, D, L⟩ := by
  obtain ⟨rq₀, hrq₀, hid₀, hlt⟩ := hA.ipRq r hr
  have hat : d.rqAt r = rq₀ := by rw [← hid₀, hA.rqAt_mem hrq₀]
  have hlt := hlt i hi
  have hnot : (r, i) ∉ d.hist.taken := fun hmem => lt_irrefl i (hA.ipTaken (r, i) hmem hr i hi)
  have hbio₀ : rq₀.bios[i]? = some (d.bioAt r i) := by
    rw [Aoedev.bioAt, hat, List.getD_eq_getElem _ _ hlt, List.getElem?_eq_getElem hlt]
  let new : Buf := { id := d.bufIds, nframesout := 0, rq := r, bio := i, iter := (d.bioAt r i).iter }
  have hbufs : (AoeDriver.takeBio d r i).bufs = new :: d.bufs := rfl
  have hold {b : Buf} (hb : b ∈ d.bufs) : b.id ≠ d.bufIds := (hA.bufLt b hb).ne
  refine ⟨h.cmdLt, h.cmds, ?_, h.todo, ?_, h.procLt, h.fresh, ?_, ?_, h.ended⟩
  · exact fun c hc => List.mem_append_left _ (h.cutTaken c hc)
  · intro x hx
    obtain ⟨hsize, howes⟩ := h.owes x hx
    refine ⟨hsize, fun b hb hid => ?_⟩
    rcases List.mem_cons.mp hb with rfl | hb
    · obtain ⟨b', hb', hid'⟩ := List.mem_map.mp (hheld x hx)
      exact absurd (hid'.trans hid.symm) (hold hb')
    · exact howes b hb hid
  · intro rq hrq hwhole j bio hbio
    have hj : j < rq.bios.length := (List.getElem?_eq_some_iff.mp hbio).1
    have hf := h.fair rq hrq hwhole j bio hbio
    by_cases hm : rq.id = r ∧ j = i
    · -- the bio that is taken has nothing cut yet, and no mark
      obtain ⟨hrid, rfl⟩ := hm
      have heq : rq = rq₀ := by rw [← hA.rqAt_mem hrq, hrid, hat]
      subst heq
      have hbio' : bio = d.bioAt r j := by
        rw [hbio₀, Option.some.injEq] at hbio
        exact hbio.symm
      rw [hrid] at hf ⊢
      obtain ⟨hcuts, hnone⟩ := h.untaken hA hnot
      dsimp only at hcuts
      have hiters : ∀ it ∈ Stage.iters ⟨AoeDriver.takeBio d r j, D, L⟩ r j, it = bio.iter := by
        intro it hit
        obtain ⟨b, hb, hbr, hbi, rfl⟩ := mem_iters.mp hit
        rcases List.mem_cons.mp hb with rfl | hb
        · rw [hbio']
        · have hmem : b.iter ∈ Stage.iters ⟨d, D, L⟩ r j := mem_iters.mpr ⟨b, hb, hbr, hbi, rfl⟩
          rw [hnone] at hmem
          exact absurd hmem List.not_mem_nil
      have hin : bio ∈ rq.bios := List.mem_of_getElem? hbio
      constructor
      case pieces =>
        change ∀ c ∈ d.hist.cutsOf r j, _
        rw [hcuts]
        exact fun c hc => absurd hc List.not_mem_nil
      case whole =>
        intro it hit
        rw [hiters it hit]
        exact hwhole _ (List.mem_map_of_mem hin)
      case served =>
        change _ → ∀ c ∈ d.hist.cutsOf r j, _
        rw [hcuts]
        exact fun _ c hc => absurd hc List.not_mem_nil
      case covers =>
        intro _ it hit
        change (d.hist.cutsOf r j).flatMap Cut.sectors ++ _ = _
        rw [hcuts, hiters it hit]
        rfl
      case covered =>
        intro _ _ hnone
        have hmem : new.iter ∈ Stage.iters ⟨AoeDriver.takeBio d r j, D, L⟩ r j :=
          mem_iters.mpr ⟨new, List.mem_cons_self, rfl, rfl, rfl⟩
        rw [hnone] at hmem
        exact absurd hmem List.not_mem_nil
      case reached => exact fun _ => .inl (List.mem_append_right _ (List.mem_singleton.mpr rfl))
      case doomed =>
        intro he
        rcases hf.doomed he with ⟨c, hc, -⟩ | ⟨-, hpend, -⟩
        · change c ∈ d.hist.cutsOf r j at hc
          rw [hcuts] at hc
          exact absurd hc List.not_mem_nil
        · exact absurd ⟨hr, j, hi, le_rfl⟩ hpend
    · refine hf.untouched ⟨rfl, ?_, ?_, ?_, fun _ _ => .rfl, fun _ _ _ => .rfl⟩ rfl rfl
      · change (new :: d.bufs).filterMap _ = d.bufs.filterMap _
        rw [List.filterMap_cons_none]
        rw [if_neg]
        exact fun hc => hm ⟨hc.1.symm, hc.2.symm⟩
      · change _ ∈ d.hist.taken ++ [(r, i)] ↔ _
        rw [List.mem_append, List.mem_singleton, Prod.mk.injEq]
        exact ⟨fun ht => ht.resolve_right hm, .inl⟩
      · -- the next bio is the one behind it
        simp only [Stage.Pending, AoeDriver.takeBio, hr, hi, hat, Option.some.injEq]
        constructor
        · rintro ⟨hip, n, hn, hle⟩
          rw [hn] at hip
          simp only [Option.isNone_some, Bool.false_eq_true, if_false, Option.some.injEq] at hip
          split at hn
          · rw [Option.some.injEq] at hn
            exact ⟨hip, i, rfl, by omega⟩
          · exact absurd hn (by simp)
        · rintro ⟨hip, n, rfl, hle⟩
          have heq : rq = rq₀ := by rw [← hA.rqAt_mem hrq, ← hip, hat]
          have hne : j ≠ i := fun hji => hm ⟨hip.symm, hji⟩
          rw [heq] at hj
          have hlt' : i + 1 < rq₀.bios.length := by omega
          rw [if_pos hlt']
          exact ⟨by simpa using hip, i + 1, rfl, by omega⟩
  · intro b hb hip hzero rq hrq hrid bio hbio
    rcases List.mem_cons.mp hb with rfl | hb
    · have heq : rq = rq₀ := by rw [← hA.rqAt_mem hrq, hrid, hat]
      have hin : d.bioAt r i ∈ rq₀.bios := List.mem_of_getElem? hbio₀
      exact absurd hzero (hA.sized rq₀ hrq₀ _ hin)
    · have hip' : d.bufIds = b.id := by simpa [AoeDriver.takeBio] using hip
      exact absurd hip'.symm (hold hb)

private theorem cutIter_le {m : ℕ} (hm : WholeSectors m) (it : BvecIter) :
    (cutIter m it).size ≤ it.size ∧ (cutIter m it).size ≤ 127 * 512 := by
  obtain ⟨k, hk, rfl⟩ := hm
  refine ⟨Nat.min_le_right _ _, (Nat.min_le_left _ _).trans ?_⟩
  split
  · decide
  · omega

theorem cutIter_dvd {m : ℕ} (hm : WholeSectors m) {it : BvecIter} (h : 512 ∣ it.size) : 512 ∣ (cutIter m it).size := by
  obtain ⟨k, hk, rfl⟩ := hm
  unfold cutIter
  dsimp only
  refine dvd_min ?_ h
  split
  · decide
  · exact ⟨k, Nat.mul_comm k 512⟩

/-- The next frame is cut from a bio whose buf is at `it` and leaves it at `rest`. -/
theorem Fair.cut {r i : ℕ} {write : Bool} {bio bio' : Bio} {c : Cut} {it rest : BvecIter} (h : Fair s r i write bio)
    (hcuts : s'.dev.hist.cutsOf r i = s.dev.hist.cutsOf r i ++ [c]) (hnew : ∀ c' ∈ s.dev.hist.cutsOf r i, c'.cmd ≠ c.cmd)
    (hwaits : ∀ c', s'.Waits c' ↔ c'.cmd = c.cmd ∨ s.Waits c')
    (hserved : ∀ c', s'.dev.hist.Served write c' ↔ s.dev.hist.Served write c') (htaken : (r, i) ∈ s'.dev.hist.taken)
    (hpending : s'.Pending r i ↔ s.Pending r i) (hit : it ∈ s.iters r i) (hiters : ∀ it' ∈ s'.iters r i, it' = rest)
    (hopen : s'.iters r i ≠ []) (hdvd : 512 ∣ c.size) (hrest : rest.size = it.size - c.size)
    (hsplit : it.sectors = c.sectors ++ rest.sectors) (hiter : bio'.iter = bio.iter) (herror : bio'.error = bio.error) :
    Fair s' r i write bio' := by
  constructor
  case pieces =>
    rw [hcuts]
    intro c' hc'
    rcases List.mem_append.mp hc' with hc' | hc'
    · exact h.pieces c' hc'
    · rw [List.mem_singleton.mp hc']
      exact hdvd
  case whole =>
    intro it' hit'
    rw [hiters it' hit', hrest]
    exact Nat.dvd_sub (h.whole _ hit) hdvd
  case served =>
    rw [hcuts, herror]
    intro he c' hc'
    rw [hserved, hwaits]
    rcases List.mem_append.mp hc' with hc' | hc'
    · exact (h.served he c' hc').imp_left .inr
    · rw [List.mem_singleton.mp hc']
      exact .inl (.inl rfl)
  case covers =>
    rw [hcuts, herror, hiter]
    intro he it' hit'
    rw [hiters it' hit', List.flatMap_append, List.append_assoc, List.flatMap_singleton, ← hsplit]
    exact h.covers he _ hit
  case covered => exact fun _ _ hnone => absurd hnone hopen
  case reached => exact fun _ => .inl htaken
  case doomed =>
    rw [hcuts, herror, hiter]
    intro he
    rcases h.doomed he with ⟨c', hc', hw, hs⟩ | ⟨hshort, hpend, hzero⟩
    · refine .inl ⟨c', List.mem_append_left _ hc', ?_, ?_⟩
      · rw [hwaits, not_or]
        exact ⟨hnew c' hc', hw⟩
      · rwa [hserved]
    · -- nothing was left to cut: the frame has no sectors
      have hleft := hzero _ hit
      rw [sectors_nil hleft] at hsplit
      have hempty := List.append_eq_nil_iff.mp hsplit.symm
      refine .inr ⟨?_, ?_, ?_⟩
      · rw [List.flatMap_append, List.flatMap_singleton, hempty.1, List.append_nil]
        exact hshort
      · rwa [hpending]
      · intro it' hit'
        rw [hiters it' hit', hrest, hleft, Nat.zero_sub]

/-- What a cut changes: the frame is noted, and the buf is left at `rest`. -/
structure CutStep (d d' : Aoedev) (b : ℕ) (c : Cut) (rest : BvecIter) : Prop where
  bufs : d'.bufs = d.bufs.map fun y => if y.id = b then { y with iter := rest, nframesout := y.nframesout + 1 } else y
  rqs : d'.rqs = d.rqs
  cuts : d'.hist.cuts = d.hist.cuts ++ [c]
  rq : c.rq = (d.bufAt b).rq
  bio : c.bio = (d.bufAt b).bio
  processed : d'.hist.processed = d.hist.processed
  taken : d'.hist.taken = d.hist.taken
  ended : d'.hist.ended = d.hist.ended
  ip : d'.ip = { d.ip with buf := if rest.size = 0 then none else d.ip.buf }

section CutStep

variable {b : ℕ} {c : Cut} {rest : BvecIter} {D' L' : Multiset Duty} {r i : ℕ}

theorem CutStep.buf (hs : CutStep d d' b c rest) {y' : Buf} (hy : y' ∈ d'.bufs) :
    ∃ y ∈ d.bufs, y'.id = y.id ∧ y'.rq = y.rq ∧ y'.bio = y.bio ∧ (y.id = b → y'.iter = rest) := by
  rw [hs.bufs] at hy
  obtain ⟨y, hmem, rfl⟩ := List.mem_map.mp hy
  refine ⟨y, hmem, ?_⟩
  split
  · exact ⟨rfl, rfl, rfl, fun _ => rfl⟩
  · rename_i hne
    exact ⟨rfl, rfl, rfl, fun heq => absurd heq hne⟩

theorem CutStep.served (hs : CutStep d d' b c rest) (write : Bool) (c' : Cut) :
    d'.hist.Served write c' ↔ d.hist.Served write c' := by
  rw [Hist.Served, hs.processed, Hist.Served]

theorem CutStep.cutsOf_self (hs : CutStep d d' b c rest) :
    d'.hist.cutsOf (d.bufAt b).rq (d.bufAt b).bio = d.hist.cutsOf (d.bufAt b).rq (d.bufAt b).bio ++ [c] := by
  rw [Hist.cutsOf, hs.cuts, List.filter_append, List.filter_cons_of_pos (by simp [hs.rq, hs.bio]), List.filter_nil,
    Hist.cutsOf]

theorem CutStep.cutsOf_other (hs : CutStep d d' b c rest) (hno : ¬ (r = (d.bufAt b).rq ∧ i = (d.bufAt b).bio)) :
    d'.hist.cutsOf r i = d.hist.cutsOf r i := by
  rw [Hist.cutsOf, hs.cuts, List.filter_append, List.filter_cons_of_neg, List.filter_nil, List.append_nil, Hist.cutsOf]
  simp only [decide_eq_true_eq, hs.rq, hs.bio]
  exact fun hc => hno ⟨hc.1.symm, hc.2.symm⟩

theorem CutStep.iters_self (hs : CutStep d d' b c rest) (hA : Acct d.blk B) (hb : b ∈ d.bufs.map Buf.id) :
    ∀ it ∈ Stage.iters ⟨d', D', L'⟩ (d.bufAt b).rq (d.bufAt b).bio, it = rest := by
  intro it hit
  obtain ⟨y', hy', hr, hi, rfl⟩ := mem_iters.mp hit
  obtain ⟨y, hy, -, hrq, hbio, hrest⟩ := hs.buf hy'
  exact hrest ((hA.buf_iff hb hy).mpr ⟨hrq.symm.trans hr, hbio.symm.trans hi⟩)

theorem CutStep.iters_ne_nil (hs : CutStep d d' b c rest) (hmem : d.bufAt b ∈ d.bufs) :
    Stage.iters ⟨d', D', L'⟩ (d.bufAt b).rq (d.bufAt b).bio ≠ [] := by
  have hkeep (y : Buf) : (if y.id = b then { y with iter := rest, nframesout := y.nframesout + 1 } else y).rq = y.rq ∧
      (if y.id = b then { y with iter := rest, nframesout := y.nframesout + 1 } else y).bio = y.bio := by
    split <;> exact ⟨rfl, rfl⟩
  refine List.ne_nil_of_mem (mem_iters.mpr ⟨_, ?_, (hkeep (d.bufAt b)).1, (hkeep (d.bufAt b)).2, rfl⟩)
  change _ ∈ d'.bufs
  rw [hs.bufs]
  exact List.mem_map_of_mem hmem

theorem CutStep.iters_other (hs : CutStep d d' b c rest) (hA : Acct d.blk B) (hb : b ∈ d.bufs.map Buf.id)
    (hno : ¬ (r = (d.bufAt b).rq ∧ i = (d.bufAt b).bio)) :
    Stage.iters ⟨d', D', L'⟩ r i = Stage.iters ⟨d, D, L⟩ r i := by
  refine iters_map hs.bufs fun y hy => ?_
  split
  · rename_i hid
    obtain ⟨hr, hi⟩ := (hA.buf_iff hb hy).mp hid
    exact ⟨rfl, rfl, fun hyr hyi => absurd ⟨hyr.symm.trans hr, hyi.symm.trans hi⟩ hno⟩
  · exact ⟨rfl, rfl, fun _ _ => rfl⟩

/-- The frames that wait already. -/
theorem CutStep.owes (hs : CutStep d d' b c rest) {y : Duty} (h : Stage.Owes ⟨d, D, L⟩ y) :
    Stage.Owes ⟨d', D', L'⟩ y := by
  obtain ⟨hsize, howes⟩ := h
  refine ⟨hsize, fun y' hy' hid => ?_⟩
  obtain ⟨z, hz, hzid, hrq, hbio, -⟩ := hs.buf hy'
  obtain ⟨hcut, hata⟩ := howes z hz (hzid.symm.trans hid)
  dsimp only
  rw [hrq, hbio, hs.cuts, hs.rqs]
  exact ⟨List.mem_append_left _ hcut, hata⟩

/-- The frame that is cut. -/
theorem CutStep.owes_new (hs : CutStep d d' b c rest) (hA : Acct d.blk B) (ext : Bool) {x : Duty} (hbuf : x.buf = b)
    (hc : c = ⟨x.cmd, (d.bufAt b).rq, (d.bufAt b).bio, x.iter.sector, x.iter.size⟩) (hmax : x.iter.size ≤ 127 * 512)
    (hata : x.ata = ataRwHdr ext (d.rqAt (d.bufAt b).rq).write x.iter) : Stage.Owes ⟨d', D', L'⟩ x := by
  refine ⟨hmax, fun y' hy' hid => ?_⟩
  obtain ⟨z, hz, hzid, hrq, hbio, -⟩ := hs.buf hy'
  have hzb : z = d.bufAt b := by
    have hzid' : z.id = b := hzid.symm.trans (hid.trans hbuf)
    rw [← hzid', hA.bufAt_mem hz]
  dsimp only
  rw [hrq, hbio, hs.cuts, hs.rqs, hzb, ← hc]
  refine ⟨List.mem_append_right _ (List.mem_singleton.mpr rfl), fun rq hrq' hr => ⟨ext, ?_⟩⟩
  rw [hata, ← hr, hA.rqAt_mem hrq']

/-- The buf in process has bytes left. -/
theorem CutStep.cursor (hs : CutStep d d' b c rest) (hb : d.ip.buf = some b) {y' : Buf}
    (hy : y' ∈ d'.bufs) (hip : d'.ip.buf = some y'.id) : y'.iter.size ≠ 0 := by
  have hip' : (if rest.size = 0 then none else d.ip.buf) = some y'.id := by
    have hbuf := congrArg InProcess.buf hs.ip
    exact hbuf.symm.trans hip
  obtain ⟨y, hy, hid, -, -, hrest⟩ := hs.buf hy
  split at hip'
  · exact absurd hip' (by simp)
  · rename_i hne
    rw [hb, Option.some.injEq] at hip'
    rw [hrest (hid.symm.trans hip'.symm)]
    exact hne

end CutStep

/-- A frame is cut from the buf in process. -/
theorem Audit.cut {b : ℕ} {f : Frame} {x : Duty} {ext : Bool} (hA : Acct d.blk B)
    (hheld : ∀ x ∈ D, x.buf ∈ d.bufs.map Buf.id) (hb : d.ip.buf = some b) (hm : WholeSectors d.maxbcnt)
    (hd : d'.blk = ((cutBuf d b).noteCut f (d.bufAt b)).blk) (hn : d'.hist.ncmds = d.hist.ncmds + 1)
    (hcmd : f.cmd = d.hist.ncmds) (hiter : f.iter = cutIter d.maxbcnt (d.bufAt b).iter)
    (hx : x = ⟨b, f.cmd, f.iter, ataRwHdr ext (d.rqAt (d.bufAt b).rq).write f.iter⟩) (h : Audit ⟨d, D, L⟩) :
    Audit ⟨d', x ::ₘ D, L⟩ := by
  have hin := hA.ipBuf b hb
  obtain ⟨hmem, hid, hrqat, hrid, -⟩ := hA.buf_of_mem hin
  let vecs := (d.bioAt (d.bufAt b).rq (d.bufAt b).bio).vecs
  let rest := bioAdvanceIter vecs (d.bufAt b).iter (cutIter d.maxbcnt (d.bufAt b).iter).size
  let c : Cut := ⟨f.cmd, (d.bufAt b).rq, (d.bufAt b).bio, f.iter.sector, f.iter.size⟩
  have hs : CutStep d d' b c rest := ⟨congrArg Blk.bufs hd, congrArg Blk.rqs hd, congrArg Blk.cuts hd, rfl, rfl,
    congrArg Blk.processed hd, congrArg Blk.taken hd, congrArg Blk.ended hd, congrArg Blk.ip hd⟩
  obtain ⟨hle, hmax⟩ := cutIter_le hm (d.bufAt b).iter
  have hnew {c' : Cut} (hc' : c' ∈ d.hist.cuts) : c'.cmd ≠ f.cmd := by
    rw [hcmd]
    exact (h.cmdLt c' hc').ne
  have hwaits (c' : Cut) : Stage.Waits ⟨d', x ::ₘ D, L⟩ c' ↔ c'.cmd = f.cmd ∨ Stage.Waits ⟨d, D, L⟩ c' := by
    simp only [Stage.Waits, Multiset.map_cons, Multiset.mem_cons, hx]
  have hpending (r i : ℕ) : Stage.Pending ⟨d', x ::ₘ D, L⟩ r i ↔ Stage.Pending ⟨d, D, L⟩ r i := by
    simp only [Stage.Pending, hs.ip]
  constructor
  case cmdLt =>
    dsimp only
    rw [hs.cuts, hn]
    intro c' hc'
    rcases List.mem_append.mp hc' with hc' | hc'
    · exact (h.cmdLt c' hc').trans (Nat.lt_succ_self _)
    · rw [List.mem_singleton.mp hc']
      simp only [c]
      omega
  case cmds =>
    dsimp only
    rw [hs.cuts, List.map_append, List.nodup_append]
    refine ⟨h.cmds, List.nodup_singleton _, ?_⟩
    intro m hm' m' hm''
    obtain ⟨c', hc', rfl⟩ := List.mem_map.mp hm'
    rw [List.mem_singleton.mp hm'']
    exact hnew hc'
  case cutTaken =>
    dsimp only
    rw [hs.cuts, hs.taken]
    intro c' hc'
    rcases List.mem_append.mp hc' with hc' | hc'
    · exact h.cutTaken c' hc'
    · rw [List.mem_singleton.mp hc']
      exact hA.bufTaken _ hmem
  case todo =>
    rw [Multiset.map_cons, Multiset.nodup_cons]
    refine ⟨fun hin => ?_, h.todo⟩
    obtain ⟨y, hy, hcmdy⟩ := Multiset.mem_map.mp hin
    obtain ⟨b', hb', hid'⟩ := List.mem_map.mp (hheld y hy)
    have hlt := hnew ((h.owes y hy).2 b' hb' hid').1
    rw [hx] at hcmdy
    exact hlt hcmdy
  case owes =>
    intro y hy
    rcases Multiset.mem_cons.mp hy with rfl | hy
    · refine hs.owes_new hA ext (by rw [hx]) (by rw [hx]) ?_ (by rw [hx])
      rw [hx, hiter]
      exact hmax
    · exact hs.owes (h.owes y hy)
  case procLt =>
    dsimp only
    rw [hs.processed, hn]
    exact fun p hp => (h.procLt p hp).trans (Nat.lt_succ_self _)
  case fresh =>
    intro y hy p hp
    dsimp only at hp
    rw [hs.processed] at hp
    rcases Multiset.mem_cons.mp hy with rfl | hy
    · rw [hx, hcmd]
      exact (h.procLt p hp).ne
    · exact h.fresh y hy p hp
  case fair =>
    refine h.fair.step false (fun r i => r = (d.bufAt b).rq ∧ i = (d.bufAt b).bio) ?_ ?_ ?_
    · dsimp only
      rw [hs.rqs]
      exact fun rq hrq => ⟨rq, hrq, .same rfl rfl rfl⟩
    · intro rq hrq i _ hno
      refine ⟨hs.cutsOf_other hno, hs.iters_other hA hin hno, ?_, hpending _ _, ?_, fun c' _ write => hs.served write c'⟩
      · dsimp only
        rw [hs.taken]
      · intro c' hc'
        rw [hwaits]
        exact ⟨fun hw => hw.resolve_left (hnew (mem_cutsOf.mp hc').1), .inr⟩
    · rintro rq hrq hwhole i bio bio' hbio ⟨hr, rfl⟩ hf hiter' herror
      rw [Bool.false_or] at herror
      rw [hr] at hf ⊢
      have hold : (d.bufAt b).iter ∈ Stage.iters ⟨d, D, L⟩ (d.bufAt b).rq (d.bufAt b).bio :=
        mem_iters.mpr ⟨_, hmem, rfl, rfl, rfl⟩
      have hdvd := cutIter_dvd hm (hf.whole _ hold)
      have hsplit : (d.bufAt b).iter.sectors = c.sectors ++ rest.sectors := by
        rw [sectors_split vecs hdvd hle]
        simp only [c, Cut.sectors, hiter]
        rfl
      refine hf.cut hs.cutsOf_self (fun c' hc' => hnew (mem_cutsOf.mp hc').1) hwaits (hs.served _) ?_ (hpending _ _) hold
        (hs.iters_self hA hin) (hs.iters_ne_nil hmem) ?_ ?_ hsplit hiter' herror
      · dsimp only
        rw [hs.taken]
        exact hA.bufTaken _ hmem
      · simp only [c, hiter]
        exact hdvd
      · simp only [c, hiter]
        rfl
  case cursor => exact fun b' hb' hipb hzero => absurd hzero (hs.cursor hb hb' hipb)
  case ended =>
    dsimp only
    rw [hs.ended]
    intro e he hwhole i bio hbio
    have hno : ¬ (e.rq.id = (d.bufAt b).rq ∧ i = (d.bufAt b).bio) := by
      rintro ⟨hr, -⟩
      exact hA.rqs_not_ended hrqat he (hrid.trans hr.symm)
    rw [h.ended e he hwhole i bio hbio]
    simp only [Hist.Done, hs.cutsOf_other hno, hs.served]

private theorem fails_iff {f : Frame} {ext write : Bool} (hata : (f.skb.getD default).ata = ataRwHdr ext write f.iter)
    (hdvd : 512 ∣ f.iter.size) (hmax : f.iter.size ≤ 127 * 512) : f.fails = false ↔
      ∃ r, f.rSkb = some r ∧ r.cmdstat &&& 0xa9 = 0 ∧ (write = false → f.iter.size ≤ r.payload.length) := by
  have hscnt : (ataRwHdr ext write f.iter).scnt = .ofNat 8 (f.iter.size >>> 9) := by
    cases ext <;> cases write <;> rfl
  have hn : (ataRwHdr ext write f.iter).scnt.toNat <<< 9 = f.iter.size := by
    rw [hscnt, BitVec.toNat_ofNat, Nat.shiftRight_eq_div_pow, Nat.shiftLeft_eq]
    omega
  have hread : (decide ((ataRwHdr ext write f.iter).cmdstat = ATA_CMD_PIO_READ) ||
      decide ((ataRwHdr ext write f.iter).cmdstat = ATA_CMD_PIO_READ_EXT)) = !write := by
    cases ext <;> cases write <;> rfl
  unfold Frame.fails
  rw [hata]
  cases f.rSkb with
  | none => simp
  | some r =>
    dsimp only
    rw [hn, hread]
    cases write with
    | false => simp
    | true => simp

/-- Frame `c` of the bio is processed, and the bio fails if the response does not serve it. -/
theorem Fair.process {r i : ℕ} {write fails : Bool} {bio bio' : Bio} {c : Cut} (h : Fair s r i write bio)
    (hcuts : s'.dev.hist.cutsOf r i = s.dev.hist.cutsOf r i) (hiters : s'.iters r i = s.iters r i)
    (htaken : s'.dev.hist.taken = s.dev.hist.taken) (hpending : s'.Pending r i ↔ s.Pending r i)
    (hc : c ∈ s.dev.hist.cutsOf r i) (hwait : s.Waits c) (hdone : ¬ s'.Waits c)
    (hserved : s'.dev.hist.Served write c ↔ fails = false)
    (hother : ∀ c' ∈ s.dev.hist.cutsOf r i, c' ≠ c →
      (s'.Waits c' ↔ s.Waits c') ∧ (s'.dev.hist.Served write c' ↔ s.dev.hist.Served write c'))
    (hiter : bio'.iter = bio.iter) (herror : bio'.error = (fails || bio.error)) : Fair s' r i write bio' := by
  constructor
  case pieces =>
    rw [hcuts]
    exact h.pieces
  case whole =>
    rw [hiters]
    exact h.whole
  case served =>
    rw [hcuts, herror]
    intro he c' hc'
    rw [Bool.or_eq_false_iff] at he
    by_cases heq : c' = c
    · rw [heq]
      exact .inr (hserved.mpr he.1)
    · obtain ⟨hw, hs⟩ := hother c' hc' heq
      rw [hw, hs]
      exact h.served he.2 c' hc'
  case covers =>
    rw [hcuts, hiters, herror, hiter]
    exact fun he => h.covers (Bool.or_eq_false_iff.mp he).2
  case covered =>
    rw [hcuts, hiters, herror, hiter, htaken]
    exact fun he => h.covered (Bool.or_eq_false_iff.mp he).2
  case reached =>
    rw [herror, htaken, hpending]
    exact fun he => h.reached (Bool.or_eq_false_iff.mp he).2
  case doomed =>
    rw [hcuts, hiters, herror, hiter, hpending]
    intro he
    cases hfail : fails with
    | true =>
      -- this frame will never be served
      refine .inl ⟨c, hc, hdone, fun hs => ?_⟩
      exact Bool.noConfusion (hfail.symm.trans (hserved.mp hs))
    | false =>
      rw [hfail, Bool.false_or] at he
      rcases h.doomed he with ⟨c', hc', hw, hs⟩ | hstop
      · obtain ⟨hw', hs'⟩ := hother c' hc' fun heq => hw (heq ▸ hwait)
        refine .inl ⟨c', hc', ?_, ?_⟩
        · rwa [hw']
        · rwa [hs']
      · exact .inr hstop

/-- What `ktioData` changes for a frame of buf `b`: the response is noted, and the bio fails if the frame does. -/
structure Looked (d d' : Aoedev) (f : Frame) (b : ℕ) (ps : List Processed) : Prop where
  noted : f.rSkb = none ∧ ps = d.hist.processed ∨
    ∃ r, f.rSkb = some r ∧ ps = d.hist.processed ++ [⟨f.cmd, r.cmdstat, r.payload.length⟩]
  processed : d'.hist.processed = ps
  ncmds : d'.hist.ncmds = d.hist.ncmds
  bufs : d'.bufs = d.bufs
  ip : d'.ip = d.ip
  cuts : d'.hist.cuts = d.hist.cuts
  taken : d'.hist.taken = d.hist.taken
  ended : d'.hist.ended = d.hist.ended
  marked : ∀ rq' ∈ d'.rqs, ∃ rq ∈ d.rqs, Marked f.fails (fun i => rq.id = (d.bufAt b).rq ∧ i = (d.bufAt b).bio) rq rq'

section Looked

variable {f : Frame} {b : ℕ} {ps : List Processed}

private theorem noteProcessed_some (hb : f.buf = some b) : ∃ ps, noteProcessed d f = { d with hist.processed := ps } ∧
    (f.rSkb = none ∧ ps = d.hist.processed ∨
      ∃ r, f.rSkb = some r ∧ ps = d.hist.processed ++ [⟨f.cmd, r.cmdstat, r.payload.length⟩]) := by
  unfold noteProcessed
  rw [hb]
  cases f.rSkb with
  | none => exact ⟨_, rfl, .inl ⟨rfl, rfl⟩⟩
  | some r => exact ⟨_, rfl, .inr ⟨r, rfl, rfl⟩⟩

private theorem ktioData_looked (hp : f.probe = false) (hb : f.buf = some b) :
    ∃ ps, Looked d (ktioData (noteProcessed d f) f).1 f b ps := by
  obtain ⟨ps, hnote, hnoted⟩ := noteProcessed_some (d := d) hb
  obtain ⟨d', hd', hn, hblk⟩ : ∃ d', (ktioData (noteProcessed d f) f).1 = d' ∧ d'.hist.ncmds = d.hist.ncmds ∧
      d'.blk = if f.fails then (failBio { d with hist.processed := ps } b).blk else
        Aoedev.blk { d with hist.processed := ps } := by
    refine ⟨_, rfl, ?_, ?_⟩
    · rw [hnote]
      rcases ktioData_cases { d with hist.processed := ps } f with ⟨b, -, hk⟩ | ⟨mem, skb, hk⟩
      · rw [hk]
        rfl
      · rw [hk]
    · rw [hnote]
      exact ktioData_blk hp hb
  have hsame {β : Type} (φ : Blk → β) (hφ : φ (failBio { d with hist.processed := ps } b).blk =
      φ (Aoedev.blk { d with hist.processed := ps })) : φ d'.blk = φ (Aoedev.blk { d with hist.processed := ps }) := by
    rw [hblk]
    split
    · exact hφ
    · rfl
  rw [hd']
  refine ⟨ps, hnoted, hsame Blk.processed rfl, hn, hsame Blk.bufs rfl, hsame Blk.ip rfl, hsame Blk.cuts rfl,
    hsame Blk.taken rfl, hsame Blk.ended rfl, ?_⟩
  have hrqs := congrArg Blk.rqs hblk
  cases hfail : f.fails with
  | false =>
    rw [hfail, if_neg Bool.false_ne_true] at hrqs
    have hrqs' : d'.rqs = d.rqs := hrqs
    rw [hrqs']
    exact fun rq hrq => ⟨rq, hrq, .same rfl rfl rfl⟩
  | true =>
    rw [hfail, if_pos rfl] at hrqs
    have hrqs' : d'.rqs = d.rqs.map fun rq => if rq.id = (d.bufAt b).rq then
        { rq with bios := rq.bios.modify (d.bufAt b).bio fun bio => { bio with error := true } } else rq := hrqs
    rw [hrqs']
    intro rq' hrq'
    obtain ⟨rq, hrq, rfl⟩ := List.mem_map.mp hrq'
    refine ⟨rq, hrq, ?_⟩
    split
    · rename_i hr
      exact .fail rfl rfl rfl fun i => ⟨fun hm => hm.2, fun hi => ⟨hr, hi⟩⟩
    · rename_i hr
      exact .elsewhere fun i hm => hr hm.1

theorem Looked.new (hl : Looked d d' f b ps) : ∀ p ∈ ps, p ∈ d.hist.processed ∨ p.cmd = f.cmd := by
  rcases hl.noted with ⟨-, rfl⟩ | ⟨r, -, rfl⟩
  · exact fun p hp => .inl hp
  · intro p hp
    rcases List.mem_append.mp hp with hp | hp
    · exact .inl hp
    · rw [List.mem_singleton.mp hp]
      exact .inr rfl

theorem Looked.served_other (hl : Looked d d' f b ps) {c : Cut} (hne : c.cmd ≠ f.cmd) (write : Bool) :
    d'.hist.Served write c ↔ d.hist.Served write c := by
  have hsub : ∀ p ∈ d.hist.processed, p ∈ ps := by
    rcases hl.noted with ⟨-, rfl⟩ | ⟨r, -, rfl⟩
    · exact fun p hp => hp
    · exact fun p hp => List.mem_append_left _ hp
  rw [Hist.Served, hl.processed, Hist.Served]
  constructor
  · rintro ⟨p, hp, hcmd, hgood⟩
    rcases hl.new p hp with hp | hp
    · exact ⟨p, hp, hcmd, hgood⟩
    · exact absurd (hcmd.symm.trans hp) hne
  · rintro ⟨p, hp, hcmd, hgood⟩
    exact ⟨p, hsub p hp, hcmd, hgood⟩

/-- A frame that was not processed before is served just where it does not fail. -/
theorem Looked.served (hl : Looked d d' f b ps) (ext : Bool) {write : Bool} {c : Cut} (hcmd : c.cmd = f.cmd)
    (hsize : c.size = f.iter.size) (hfresh : ∀ p ∈ d.hist.processed, p.cmd ≠ c.cmd)
    (hata : (f.skb.getD default).ata = ataRwHdr ext write f.iter) (hdvd : 512 ∣ f.iter.size)
    (hmax : f.iter.size ≤ 127 * 512) : d'.hist.Served write c ↔ f.fails = false := by
  rw [fails_iff hata hdvd hmax, Hist.Served, hl.processed]
  constructor
  · rintro ⟨p, hp, hpcmd, hstat, hlen⟩
    have hold : p ∉ d.hist.processed := fun hp' => hfresh p hp' hpcmd
    rcases hl.noted with ⟨-, rfl⟩ | ⟨r, hrs, rfl⟩
    · exact absurd hp hold
    · have hp' := List.mem_singleton.mp ((List.mem_append.mp hp).resolve_left hold)
      rw [hp'] at hstat hlen
      rw [hsize] at hlen
      exact ⟨r, hrs, hstat, hlen⟩
  · rintro ⟨r, hrs, hstat, hlen⟩
    refine ⟨⟨f.cmd, r.cmdstat, r.payload.length⟩, ?_, hcmd.symm, hstat, ?_⟩
    · rcases hl.noted with ⟨hnone, -⟩ | ⟨r', hr', rfl⟩
      · exact absurd (hrs.symm.trans hnone) (by simp)
      · rw [hrs, Option.some.injEq] at hr'
        rw [hr']
        exact List.mem_append_right _ (List.mem_singleton.mpr rfl)
    · rw [hsize]
      exact hlen

end Looked

/-- `ktiocomplete` looks at a frame and its response. -/
theorem Audit.process {f : Frame} {x : Duty} {L' : Multiset Duty} (hA : Acct d.blk B)
    (hheld : ∀ y ∈ x ::ₘ D, y.buf ∈ d.bufs.map Buf.id) (hx : f.duty = some x) (hp : f.probe = false)
    (h : Audit ⟨d, x ::ₘ D, L⟩) : Audit ⟨(ktioData (noteProcessed d f) f).1, D, L'⟩ := by
  have hfb : f.buf = some x.buf := Frame.duty_buf hx
  obtain ⟨hfcmd, hfiter, hfata⟩ : x.cmd = f.cmd ∧ x.iter = f.iter ∧ x.ata = (f.skb.getD default).ata := by
    unfold Frame.duty at hx
    rw [hfb, Option.map_some, Option.some.injEq] at hx
    rw [← hx]
    exact ⟨rfl, rfl, rfl⟩
  obtain ⟨hmem, hid, hrqat, hrid, -⟩ := hA.buf_of_mem (hheld x (Multiset.mem_cons_self x D))
  obtain ⟨hxcmd, hxD⟩ : x.cmd ∉ D.map Duty.cmd ∧ (D.map Duty.cmd).Nodup := by
    have hnd := h.todo
    rw [Multiset.map_cons, Multiset.nodup_cons] at hnd
    exact hnd
  obtain ⟨hxsize, howes⟩ := h.owes x (Multiset.mem_cons_self x D)
  obtain ⟨hcut, hata⟩ := howes _ hmem hid
  let buf := d.bufAt x.buf
  let c : Cut := ⟨x.cmd, buf.rq, buf.bio, x.iter.sector, x.iter.size⟩
  obtain ⟨ps, hl⟩ := ktioData_looked (d := d) hp hfb
  generalize (ktioData (noteProcessed d f) f).1 = d' at hl
  -- nothing else carries this command
  have hone {c' : Cut} (hc' : c' ∈ d.hist.cuts) (hne : c' ≠ c) : c'.cmd ≠ x.cmd :=
    fun hcmd => hne (List.inj_on_of_nodup_map h.cmds hc' hcut hcmd)
  have hother {r i : ℕ} {c' : Cut} (hc' : c' ∈ d.hist.cutsOf r i) (hno : ¬ (r = buf.rq ∧ i = buf.bio)) : c'.cmd ≠ x.cmd := by
    obtain ⟨hmem', hr, hi⟩ := mem_cutsOf.mp hc'
    refine hone hmem' fun heq => hno ?_
    rw [← hr, ← hi, heq]
    exact ⟨rfl, rfl⟩
  have hwaits {c' : Cut} (hne : c'.cmd ≠ x.cmd) :
      Stage.Waits ⟨d', D, L'⟩ c' ↔ Stage.Waits ⟨d, x ::ₘ D, L⟩ c' := by
    simp only [Stage.Waits, Multiset.map_cons, Multiset.mem_cons]
    exact ⟨.inr, fun hw => hw.resolve_left hne⟩
  have hpending (r i : ℕ) : Stage.Pending ⟨d', D, L'⟩ r i ↔ Stage.Pending ⟨d, x ::ₘ D, L⟩ r i := by
    simp only [Stage.Pending, hl.ip]
  have hcuts (r i : ℕ) : d'.hist.cutsOf r i = d.hist.cutsOf r i := by rw [Hist.cutsOf, hl.cuts, Hist.cutsOf]
  have hiters (r i : ℕ) : Stage.iters ⟨d', D, L'⟩ r i = Stage.iters ⟨d, x ::ₘ D, L⟩ r i := by
    rw [Stage.iters, hl.bufs, Stage.iters]
  constructor
  case cmdLt =>
    dsimp only
    rw [hl.cuts, hl.ncmds]
    exact h.cmdLt
  case cmds =>
    dsimp only
    rw [hl.cuts]
    exact h.cmds
  case cutTaken =>
    dsimp only
    rw [hl.cuts, hl.taken]
    exact h.cutTaken
  case todo => exact hxD
  case owes =>
    intro y hy
    obtain ⟨hsz, hy'⟩ := h.owes y (Multiset.mem_cons_of_mem hy)
    refine ⟨hsz, fun b hb hidb => ?_⟩
    dsimp only at hb ⊢
    rw [hl.bufs] at hb
    rw [hl.cuts]
    refine ⟨(hy' b hb hidb).1, fun rq' hrq' hr => ?_⟩
    obtain ⟨rq, hrq, hm⟩ := hl.marked rq' hrq'
    rw [hm.write]
    exact (hy' b hb hidb).2 rq hrq (hm.id.symm.trans hr)
  case procLt =>
    dsimp only
    rw [hl.processed, hl.ncmds]
    intro p hp
    rcases hl.new p hp with hp | hp
    · exact h.procLt p hp
    · rw [hp, ← hfcmd]
      exact h.cmdLt c hcut
  case fresh =>
    dsimp only
    rw [hl.processed]
    intro y hy p hp
    rcases hl.new p hp with hp | hp
    · exact h.fresh y (Multiset.mem_cons_of_mem hy) p hp
    · rw [hp, ← hfcmd]
      rintro heq
      exact hxcmd (heq ▸ Multiset.mem_map_of_mem _ hy)
  case fair =>
    refine h.fair.step f.fails (fun r i => r = buf.rq ∧ i = buf.bio) hl.marked ?_ ?_
    · intro rq hrq i _ hno
      refine ⟨hcuts _ _, hiters _ _, ?_, hpending _ _, fun c' hc' => hwaits (hother hc' hno),
        fun c' hc' write => hl.served_other (hfcmd ▸ hother hc' hno) write⟩
      dsimp only
      rw [hl.taken]
    · rintro rq hrq hwhole i bio bio' hbio ⟨hr, rfl⟩ hf hiter herror
      have hcin : c ∈ d.hist.cutsOf buf.rq buf.bio := mem_cutsOf.mpr ⟨hcut, rfl, rfl⟩
      rw [hr] at hf ⊢
      obtain ⟨ext, hext⟩ := hata rq hrq hr
      have hserved : d'.hist.Served rq.write c ↔ f.fails = false := by
        refine hl.served ext hfcmd (congrArg BvecIter.size hfiter) (h.fresh x (Multiset.mem_cons_self x D)) ?_ ?_ ?_
        · rw [← hfata, hext, hfiter]
        · rw [← hfiter]
          exact hf.pieces c hcin
        · rw [← hfiter]
          exact hxsize
      refine hf.process (hcuts _ _) (hiters _ _) hl.taken (hpending _ _) hcin ?_ hxcmd hserved (fun c' hc' hne => ?_) hiter herror
      · exact Multiset.mem_map_of_mem Duty.cmd (Multiset.mem_cons_self x D)
      · have hne' := hone (mem_cutsOf.mp hc').1 hne
        exact ⟨hwaits hne', hl.served_other (hfcmd ▸ hne') _⟩
  case cursor =>
    intro b hb hipb hzero rq' hrq' hr bio' hbio'
    dsimp only at hb hipb
    rw [hl.bufs] at hb
    rw [hl.ip] at hipb
    obtain ⟨rq, hrq, hm⟩ := hl.marked rq' hrq'
    obtain ⟨bio, hbio, -⟩ := hm.unmarked hbio'
    have herr := h.cursor b hb hipb hzero rq hrq (hm.id.symm.trans hr) bio hbio
    by_cases hmark : rq.id = buf.rq ∧ b.bio = buf.bio
    · rw [hm.marked _ _ _ hbio hbio' hmark, herr, Bool.or_true]
    · rw [hm.others _ _ _ hbio hbio' hmark, herr]
  case ended =>
    dsimp only
    rw [hl.ended]
    intro e he hwhole i bio hbio
    rw [h.ended e he hwhole i bio hbio, Hist.Done, Hist.Done, hcuts]
    refine and_congr_right fun _ => forall₂_congr fun c' hc' => (hl.served_other (hfcmd ▸ hother hc' ?_) _).symm
    rintro ⟨hr, -⟩
    exact hA.rqs_not_ended hrqat he (hrid.trans hr.symm)

theorem Audit.congr (h : Audit ⟨d, D, L⟩) (hcuts : d'.hist.cuts = d.hist.cuts)
    (hproc : d'.hist.processed = d.hist.processed) (htaken : d'.hist.taken = d.hist.taken)
    (hended : d'.hist.ended = d.hist.ended) (hbufs : d'.bufs = d.bufs) (hrqs : d'.rqs = d.rqs) (hip : d'.ip = d.ip)
    (hn : d.hist.ncmds ≤ d'.hist.ncmds) : Audit ⟨d', D, L⟩ := by
  have hmarked : ∀ rq' ∈ d'.rqs, ∃ rq ∈ d.rqs, Marked false (fun _ => False) rq rq' := by
    rw [hrqs]
    exact fun rq hrq => ⟨rq, hrq, .elsewhere fun _ => id⟩
  refine h.adjust false (fun _ _ => False) hcuts hproc htaken ?_ hn le_rfl ?_ hmarked ?_ ?_
  · dsimp only
    rw [hended]
    exact fun _ => .inl
  · dsimp only
    rw [hbufs]
    exact fun b hb => ⟨b, hb, rfl, rfl, rfl⟩
  · dsimp only
    rw [hbufs, hip]
    exact fun b hb hipb hzero => .inl ⟨b, hb, rfl, rfl, hipb, hzero⟩
  · refine h.fair.step false (fun _ _ => False) hmarked ?_ fun _ _ _ _ _ _ _ hmark => hmark.elim
    intro rq _ i _ _
    refine .of_eq hcuts hproc htaken ?_ ?_ fun _ _ => .rfl
    · simp only [Stage.Pending, hip]
    · rw [Stage.iters, hbufs, Stage.iters]

/-- A frame is lost with its buf. -/
theorem Audit.lose {x : Duty} (hA : Acct d.blk (x.buf ::ₘ (D + L).map Duty.buf)) (h : Audit ⟨d, x ::ₘ D, L⟩) :
    Audit ⟨AoeDriver.settle (AoeDriver.spoilBuf (AoeDriver.decNframesout d x.buf) x.buf) x.buf, D, L⟩ := by
  have hA₁ := hA.decNframesout
  have h₁ : Audit ⟨AoeDriver.decNframesout d x.buf, x ::ₘ D, L⟩ := h.decNframesout x.buf
  have hin : x.buf ∈ (AoeDriver.decNframesout d x.buf).bufs.map Buf.id := by
    rw [ids_decNframesout]
    exact hA.held _ (Multiset.mem_cons_self _ _)
  obtain ⟨hmem, hid, -⟩ := hA₁.buf_of_mem hin
  have hcut := ((h₁.owes x (Multiset.mem_cons_self x D)).2 _ hmem hid).1
  have hxcmd : x.cmd ∉ D.map Duty.cmd := by
    have hnd := h.todo
    rw [Multiset.map_cons, Multiset.nodup_cons] at hnd
    exact hnd.1
  refine Audit.settle hA₁.spoilBuf ?_ (h₁.spoilBuf hA₁ hin (Multiset.le_cons_self D x) ?_ ?_)
  · rw [ids_spoilBuf]
    exact hin
  · intro c hc hno hw
    rw [Multiset.map_cons, Multiset.mem_cons] at hw
    refine hw.resolve_left fun hcmd => hno ?_
    rw [List.inj_on_of_nodup_map h₁.cmds hc hcut hcmd]
    exact ⟨rfl, rfl⟩
  · intro rq _ _ _ bio _ _
    refine .inl ⟨_, mem_cutsOf.mpr ⟨hcut, rfl, rfl⟩, hxcmd, ?_⟩
    rintro ⟨p, hp, hcmd, -⟩
    exact h₁.fresh x (Multiset.mem_cons_self x D) p hp hcmd

/-- The buf in process is failed: some of it was not cut yet. -/
theorem Audit.spoil {b : ℕ} (hA : Acct d.blk ((D + L).map Duty.buf)) (hb : d.ip.buf = some b) (h : Audit ⟨d, D, L⟩) :
    Audit ⟨AoeDriver.settle (AoeDriver.spoilBuf d b) b, D, L⟩ := by
  have hin := hA.ipBuf b hb
  obtain ⟨hmem, hid, -⟩ := hA.buf_of_mem hin
  refine Audit.settle hA.spoilBuf ?_ (h.spoilBuf hA hin le_rfl (fun _ _ _ hw => hw) ?_)
  · rw [ids_spoilBuf]
    exact hin
  · intro rq hrq hwhole hr bio hbio hf
    cases he : bio.error with
    | true =>
      rcases hf.doomed he with hlost | ⟨hshort, hpend, -⟩
      · exact .inl hlost
      · exact .inr ⟨hshort, hpend⟩
    | false =>
      have hold : (d.bufAt b).iter ∈ Stage.iters ⟨d, D, L⟩ (d.bufAt b).rq (d.bufAt b).bio :=
        mem_iters.mpr ⟨_, hmem, rfl, rfl, rfl⟩
      have hsize : (d.bufAt b).iter.size ≠ 0 := by
        intro hzero
        have hipb : d.ip.buf = some (d.bufAt b).id := by rw [hid, hb]
        exact Bool.noConfusion (he.symm.trans (h.cursor _ hmem hipb hzero rq hrq hr bio hbio))
      refine .inr ⟨fun hall => ?_, ?_⟩
      · have hcov := hf.covers he _ hold
        dsimp only at hcov
        rw [← hall] at hcov
        exact sectors_ne_nil (hf.whole _ hold) hsize (List.append_right_eq_self.mp hcov)
      · rintro ⟨hip, n, hnx, hle⟩
        have hlt : (d.bufAt b).bio < n := hA.ipTaken _ (hA.bufTaken _ hmem) hip n hnx
        omega

/-- Every posting keeps the audit. -/
theorem Post.audit (p : Post s s') (hB : Books s.dev.blk s.refs) (h : Audit s) : Audit s' := by
  have hheld : ∀ x ∈ s.todo, x.buf ∈ s.dev.bufs.map Buf.id := by
    intro x hx
    exact hB.held _ (Multiset.mem_map_of_mem _ (Multiset.mem_add.mpr (.inl hx)))
  cases p with
  | quiet hb hn hu =>
    refine h.congr ?_ ?_ ?_ ?_ ?_ ?_ ?_ hn
    · exact Blk.core_field Blk.cuts (fun _ => rfl) hb
    · exact Blk.core_field Blk.processed (fun _ => rfl) hb
    · exact Blk.core_field Blk.taken (fun _ => rfl) hb
    · exact Blk.core_field Blk.ended (fun _ => rfl) hb
    · exact Blk.core_field Blk.bufs (fun _ => rfl) hb
    · exact Blk.core_field Blk.rqs (fun _ => rfl) hb
    · exact Blk.core_field Blk.ip (fun _ => rfl) hb
  | ready => exact h.congr rfl rfl rfl rfl rfl rfl rfl le_rfl
  | queue hk hf hid => exact h.congr rfl rfl rfl rfl rfl rfl rfl le_rfl
  | start hq hr => exact h.startRq hB.toAcct hq hr
  | take hb hr hi => exact h.takeBio hB.toAcct hheld hr hi
  | cut hb hm hd hn hcmd hiter hx => exact h.cut hB.toAcct hheld hb hm hd hn hcmd hiter hx
  | process hx hp => exact h.process hB.toAcct hheld hx hp
  | @finish d D L x =>
    have hrefs : Stage.refs ⟨d, D, x ::ₘ L⟩ = x.buf ::ₘ (D + L).map Duty.buf := by simp [Stage.refs]
    rw [hrefs] at hB
    have hin : x.buf ∈ (decNframesout d x.buf).bufs.map Buf.id := by
      rw [ids_decNframesout]
      exact hB.held _ (Multiset.mem_cons_self _ _)
    exact (h.decNframesout x.buf).settle hB.toAcct.decNframesout hin
  | @lose d D L x =>
    have hrefs : Stage.refs ⟨d, x ::ₘ D, L⟩ = x.buf ::ₘ (D + L).map Duty.buf := by simp [Stage.refs]
    rw [hrefs] at hB
    exact Audit.lose hB.toAcct h
  | @spoil d D L b hb => exact Audit.spoil hB.toAcct hb h
  | failRest hr => exact h.failRest hB.toAcct hr
  | failFirst hq => exact h.failFirst hB.toAcct hq

private theorem audit_initial (hd : Initial d) : Audit (stage 0 d) := by
  obtain ⟨-, -, -, hplay⟩ := initial_ledger hd
  have htodo : (stage 0 d).todo = 0 := by
    rw [stage, (add_eq_zero.mp hplay).1]
    rfl
  have hdev : (stage 0 d).dev = d := rfl
  obtain ⟨hrqs, hbufs, hcuts, hproc, hended⟩ : d.rqs = [] ∧ d.bufs = [] ∧ d.hist.cuts = [] ∧ d.hist.processed = [] ∧
      d.hist.ended = [] := by
    obtain ⟨a, b, n, s, m, clock, c, rfl⟩ := hd
    exact ⟨rfl, rfl, rfl, rfl, rfl⟩
  constructor <;> simp [htodo, hdev, hrqs, hbufs, hcuts, hproc, hended, Fairs]

/-- A request of whole sectors that was ended has ended each bio with status 0 exactly if the frames cut from it cover
the bio and each of them was processed with a response of good status and, for a read, with all its data. -/
theorem no_false_success (hd : Reached d) : ∀ e ∈ d.hist.ended, e.rq.Whole → ∀ i bio, e.rq.bios[i]? = some bio →
    (e.status.getD i false = true ↔ d.hist.Done e.rq.id i e.rq.write bio.iter) := by
  have haudit : Audit (stage 0 d) := reachedBy_stage (fun _ => audit_initial) (fun _ _ => Post.audit) hd
  exact haudit.ended

/-- A write of one frame is sent, answered and processed. -/
def servedEvents : List Event :=
  sampleUp ++
    .blkQueue { sampleRq with bios := [{ vecs := [⟨0, 0, 1024⟩], iter := ⟨8, 1024, 0, 0⟩, error := false }] } ::
    .blkRun default :: .ataRsp (sampleRsp 2 0) :: sampleRun 0 2 ++ .ktioTake 2 :: sampleRun 0 5

def servedScene : Scene unguarded sampleStart servedEvents (fun d => d.hist.ended.any fun e =>
    e.status.getD 0 false && e.rq.bios.all (fun bio => bio.iter.size % 512 = 0) && e.rq.bios ≠ []) := ⟨by decide +kernel⟩

theorem no_false_success_sample : ∃ d, Reached d ∧ ∃ e ∈ d.hist.ended, e.rq.Whole ∧ ∃ bio, e.rq.bios[0]? = some bio ∧
    e.status.getD 0 false = true ∧ d.hist.Done e.rq.id 0 e.rq.write bio.iter := by
  obtain ⟨d, -, hreach, htest⟩ := servedScene.last sampleStart_initial
  have hd : Reached d := hreach.mono fun _ _ _ _ => trivial
  simp only [List.any_eq_true, Bool.and_eq_true, List.all_eq_true, decide_eq_true_eq] at htest
  obtain ⟨e, he, ⟨hstatus, hsizes⟩, hne⟩ := htest
  have hwhole : e.rq.Whole := by
    refine List.forall_mem_map.mpr fun bio hbio => ?_
    exact Nat.dvd_of_mod_eq_zero (hsizes bio hbio)
  obtain ⟨bio, rest, hbios⟩ := List.exists_cons_of_ne_nil hne
  have hbio : e.rq.bios[0]? = some bio := by rw [hbios, List.getElem?_cons_zero]
  exact ⟨d, hd, e, he, hwhole, bio, hbio, hstatus, (no_false_success hd e he hwhole 0 bio hbio).mp hstatus⟩

end Audit

end AoeDriver
