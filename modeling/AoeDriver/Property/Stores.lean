import AoeDriver.Property.Placement
import AoeDriver.Run.Stores

/-!
# Where data is stored

A frame of a read goes a long way before its answer is copied: it is sent again, handed to another target and waits on a
completion queue, and the device may go down beside it. Whenever the copy is made, the bio is still in process, and the
bytes go to the sectors the frame was cut for.
-/

namespace AoeDriver

open Tables

/-- A bio as the block layer makes them: whole sectors that its segments have room for. -/
structure Bio.Sound (bio : Bio) : Prop where
  inBio : InBio bio.vecs bio.iter
  whole : 512 ∣ bio.iter.size

/-- A range of the bio that begins `n` sectors behind its front. -/
structure Bio.Part (bio : Bio) (n : ℕ) (it : BvecIter) : Prop where
  inBio : InBio bio.vecs it
  whole : 512 ∣ it.size
  sector : it.sector = bio.iter.sector + n
  fits : 512 * n + it.size ≤ bio.iter.size
  bytes : iterBytes bio.vecs it = (iterBytes bio.vecs bio.iter).drop (512 * n)

section Part

variable {bio : Bio} {n m : ℕ} {it : BvecIter}

theorem Bio.Sound.part (h : bio.Sound) : bio.Part 0 bio.iter := by
  refine ⟨h.inBio, h.whole, rfl, ?_, ?_⟩
  · simp
  · simp

theorem Bio.Part.front (h : bio.Part n it) (hm : 512 ∣ m) (hle : m ≤ it.size) :
    bio.Part n { it with size := m } := by
  refine ⟨⟨h.inBio.inside, hle.trans h.inBio.size⟩, hm, h.sector, ?_, h.bytes⟩
  have hfits := h.fits
  dsimp only
  omega

theorem Bio.Part.advance (h : bio.Part n it) (hm : 512 ∣ m) (hle : m ≤ it.size) :
    bio.Part (n + m / 512) (bioAdvanceIter bio.vecs it m) := by
  have hfits := h.fits
  have hmul : 512 * (m / 512) = m := Nat.mul_div_cancel' hm
  have hpast : 512 * (n + m / 512) = 512 * n + m := by rw [Nat.mul_add, hmul]
  refine ⟨h.inBio.advance m, Nat.dvd_sub h.whole hm, ?_, ?_, ?_⟩
  · change it.sector + m >>> 9 = _
    rw [h.sector, Nat.shiftRight_eq_div_pow, Nat.add_assoc]
  · change 512 * (n + m / 512) + (it.size - m) ≤ _
    omega
  · rw [iterBytes_advance h.inBio, h.bytes, List.drop_drop, hpast]

theorem Bio.Part.cut (h : bio.Part n it) (hm : WholeSectors m) :
    bio.Part n (cutIter m it) ∧
      bio.Part (n + (cutIter m it).size / 512) (bioAdvanceIter bio.vecs it (cutIter m it).size) := by
  obtain ⟨k, -, rfl⟩ := hm
  have hdvd : 512 ∣ (cutIter (k * 512) it).size := by
    apply dvd_min
    · split
      · decide
      · exact Nat.dvd_mul_left 512 k
    · exact h.whole
  have hle : (cutIter (k * 512) it).size ≤ it.size := Nat.min_le_right _ _
  exact ⟨h.front hdvd hle, h.advance hdvd hle⟩

private theorem cutIter_limit (hm : WholeSectors m) : (cutIter m it).size ≤ 127 * 512 := by
  obtain ⟨k, hk, rfl⟩ := hm
  apply (Nat.min_le_left _ _).trans
  split
  · decide
  · exact Nat.mul_le_mul_right 512 hk

end Part

/-- `b` is a buf in use for `bio`, one of the bios of the request `rq` in process. -/
structure Blk.Opens (k : Blk) (b : Buf) (rq : Request) (bio : Bio) : Prop where
  bufs : b ∈ k.bufs
  rqs : rq ∈ k.rqs
  owner : rq.id = b.rq
  chain : rq.bios[b.bio]? = some bio

/-- What a frame cut from `bio` asks for. -/
structure Duty.Fits (x : Duty) (rq : Request) (bio : Bio) : Prop where
  hdr : ∃ ext, x.ata = ataRwHdr ext rq.write x.iter
  limit : x.iter.size ≤ 127 * 512
  part : bio.Sound → ∃ n, bio.Part n x.iter

/-- What is left of every buf is a part of its bio, and so is what any frame of it stands for. -/
structure Laid (s : Stage) : Prop where
  bufs : ∀ b rq bio, s.dev.blk.Opens b rq bio → bio.Sound → ∃ n, bio.Part n b.iter
  todo : ∀ x ∈ s.todo, ∀ b rq bio, s.dev.blk.Opens b rq bio → b.id = x.buf → x.Fits rq bio

/-- No buf is opened, and those in use are as they were, or nothing is left of them. -/
def Fades (k k' : Blk) : Prop :=
  ∀ b' rq' bio', k'.Opens b' rq' bio' → ∃ b rq bio, k.Opens b rq bio ∧ b.id = b'.id ∧ rq.write = rq'.write ∧
    bio.vecs = bio'.vecs ∧ bio.iter = bio'.iter ∧ (b'.iter = b.iter ∨ b'.iter = { b.iter with size := 0 })

/-- The memory and the sectors of a bio. -/
def Bio.range (bio : Bio) : List BioVec × BvecIter := (bio.vecs, bio.iter)

section Fade

variable {k k' k'' : Blk} {d : Aoedev} {b r : ℕ}

theorem Fades.trans (h : Fades k k') (h' : Fades k' k'') : Fades k k'' := by
  intro b₂ rq₂ bio₂ ho₂
  obtain ⟨b₁, rq₁, bio₁, ho₁, hid₁, hw₁, hv₁, hi₁, hit₁⟩ := h' b₂ rq₂ bio₂ ho₂
  obtain ⟨b, rq, bio, ho, hid, hw, hv, hi, hit⟩ := h b₁ rq₁ bio₁ ho₁
  refine ⟨b, rq, bio, ho, hid.trans hid₁, hw.trans hw₁, hv.trans hv₁, hi.trans hi₁, ?_⟩
  rcases hit₁ with heq₁ | heq₁
  · rw [heq₁]
    exact hit
  · right
    rcases hit with heq | heq
    · rw [heq₁, heq]
    · rw [heq₁, heq]

theorem Fades.of (hbufs : ∀ x ∈ k'.bufs, ∃ b ∈ k.bufs, b.id = x.id ∧ b.rq = x.rq ∧ b.bio = x.bio ∧
      (x.iter = b.iter ∨ x.iter = { b.iter with size := 0 }))
    (hrqs : ∀ q ∈ k'.rqs, ∃ rq ∈ k.rqs, rq.id = q.id ∧ rq.write = q.write ∧
      rq.bios.map Bio.range = q.bios.map Bio.range) : Fades k k' := by
  intro x q bio' ho
  obtain ⟨b, hb, hid, hbrq, hbio, hit⟩ := hbufs x ho.bufs
  obtain ⟨rq, hrq, hrid, hw, hranges⟩ := hrqs q ho.rqs
  have hmap : (rq.bios.map Bio.range)[x.bio]? = some bio'.range := by
    rw [hranges, List.getElem?_map, ho.chain, Option.map_some]
  rw [List.getElem?_map] at hmap
  obtain ⟨bio, hget, hrange⟩ := Option.map_eq_some_iff.mp hmap
  obtain ⟨hv, hi⟩ := Prod.mk.inj hrange
  refine ⟨b, rq, bio, ⟨hb, hrq, ?_, ?_⟩, hid, hw, hv, hi, hit⟩
  · rw [hrid, ho.owner, hbrq]
  · rw [hbio]
    exact hget

theorem Fades.congr (hbufs : k'.bufs = k.bufs) (hrqs : k'.rqs = k.rqs) : Fades k k' := by
  apply Fades.of
  · rw [hbufs]
    exact fun x hx => ⟨x, hx, rfl, rfl, rfl, .inl rfl⟩
  · rw [hrqs]
    exact fun q hq => ⟨q, hq, rfl, rfl, rfl⟩

private theorem notePred_fades (c : Counter) (n : ℕ) : Fades d.blk (d.notePred c n).blk := by
  unfold Aoedev.notePred
  split
  · exact .congr rfl rfl
  · exact .congr rfl rfl

private theorem modBuf_fades {g : Buf → Buf} (hg : ∀ x, x.id = (g x).id ∧ x.rq = (g x).rq ∧ x.bio = (g x).bio ∧
    ((g x).iter = x.iter ∨ (g x).iter = { x.iter with size := 0 })) : Fades d.blk (d.modBuf b g).blk := by
  refine Fades.of ?_ fun q hq => ⟨q, hq, rfl, rfl, rfl⟩
  intro x hx
  obtain ⟨y, hy, rfl⟩ := List.mem_map.mp hx
  refine ⟨y, hy, ?_⟩
  split
  · exact hg y
  · exact ⟨rfl, rfl, rfl, .inl rfl⟩

private theorem modRq_fades {g : Request → Request} (hg : ∀ q, q.id = (g q).id ∧ q.write = (g q).write ∧
    q.bios.map Bio.range = (g q).bios.map Bio.range) : Fades d.blk (d.modRq r g).blk := by
  refine Fades.of (fun x hx => ⟨x, hx, rfl, rfl, rfl, .inl rfl⟩) ?_
  intro q hq
  obtain ⟨p, hp, rfl⟩ := List.mem_map.mp hq
  refine ⟨p, hp, ?_⟩
  split
  · exact hg p
  · exact ⟨rfl, rfl, rfl⟩

private theorem range_modify (l : List Bio) (i : ℕ) :
    (l.modify i fun bio => { bio with error := true }).map Bio.range = l.map Bio.range :=
  map_modify_same _ _ _ Bio.range fun _ => rfl

private theorem failBio_fades (d : Aoedev) (b : ℕ) : Fades d.blk (failBio d b).blk := by
  apply modRq_fades
  intro q
  exact ⟨rfl, rfl, (range_modify _ _).symm⟩

private theorem decNframesout_fades (d : Aoedev) (b : ℕ) : Fades d.blk (decNframesout d b).blk := by
  apply (notePred_fades (d := d) .nframesout (d.bufAt b).nframesout).trans
  apply modBuf_fades
  intro x
  exact ⟨rfl, rfl, rfl, .inl rfl⟩

private theorem spoilBuf_fades (d : Aoedev) (b : ℕ) : Fades d.blk (spoilBuf d b).blk := by
  have hsize : Fades d.blk (d.modBuf b fun x => { x with iter.size := 0 }).blk := by
    apply modBuf_fades
    intro x
    exact ⟨rfl, rfl, rfl, .inr rfl⟩
  exact hsize.trans (failBio_fades _ b)

private theorem endRequest_fades (d : Aoedev) (r : ℕ) (fastfail : Bool) : Fades d.blk (endRequest d r fastfail).blk := by
  refine Fades.of (fun x hx => ⟨x, hx, rfl, rfl, rfl, .inl rfl⟩) ?_
  intro q hq
  exact ⟨q, List.mem_of_mem_filter hq, rfl, rfl, rfl⟩

private theorem dropBuf_fades (d : Aoedev) (b : ℕ) : Fades d.blk (dropBuf d b).blk := by
  have hdrop : Fades d.blk (Aoedev.blk { d with ip.buf := if d.ip.buf = some b then none else d.ip.buf
                                                bufs := d.bufs.filter (·.id ≠ b) }) := by
    refine Fades.of ?_ fun q hq => ⟨q, hq, rfl, rfl, rfl⟩
    intro x hx
    exact ⟨x, List.mem_of_mem_filter hx, rfl, rfl, rfl, .inl rfl⟩
  apply (hdrop.trans (notePred_fades _ _)).trans
  apply modRq_fades
  intro q
  exact ⟨rfl, rfl, rfl⟩

private theorem settle_fades (d : Aoedev) (b : ℕ) : Fades d.blk (settle d b).blk := by
  unfold settle closeBuf
  split
  · split
    · exact (dropBuf_fades d b).trans (endRequest_fades _ _ _)
    · exact dropBuf_fades d b
  · exact .congr rfl rfl

private theorem failBios_fades (r fuel : ℕ) (d : Aoedev) : Fades d.blk (failBios r fuel d).blk := by
  induction fuel generalizing d with
  | zero => exact .congr rfl rfl
  | succ fuel ih =>
    unfold failBios
    split
    · exact .congr rfl rfl
    · rename_i i _
      have hnext : Fades d.blk (failNext d r i).blk := by
        apply (notePred_fades (d := d) .special (d.rqAt r).special).trans
        have hmod := modRq_fades (d := d.notePred .special (d.rqAt r).special) (r := r)
          (g := fun rq => { rq with
            special := predUlong (d.rqAt r).special
            bios := rq.bios.modify i fun bio => { bio with error := true } })
          fun q => ⟨rfl, rfl, (range_modify _ _).symm⟩
        exact hmod.trans (.congr rfl rfl)
      exact hnext.trans (ih _)

private theorem failRest_fades (d : Aoedev) (r : ℕ) : Fades d.blk (failRest d r).blk := by
  unfold failRest
  dsimp only
  split
  · exact (failBios_fades _ _ d).trans (endRequest_fades _ _ _)
  · exact failBios_fades _ _ d

end Fade

section Runs

variable {s s' : Stage} {d d' : Aoedev} {B : Multiset ℕ}

theorem Bio.Sound.congr {bio bio' : Bio} (h : bio'.Sound) (hv : bio.vecs = bio'.vecs) (hi : bio.iter = bio'.iter) :
    bio.Sound := by
  constructor
  · rw [hv, hi]
    exact h.inBio
  · rw [hi]
    exact h.whole

theorem Bio.Part.congr {bio bio' : Bio} {n : ℕ} {it : BvecIter} (h : bio.Part n it) (hv : bio.vecs = bio'.vecs)
    (hi : bio.iter = bio'.iter) : bio'.Part n it := by
  constructor
  · rw [← hv]
    exact h.inBio
  · exact h.whole
  · rw [← hi]
    exact h.sector
  · rw [← hi]
    exact h.fits
  · rw [← hv, ← hi]
    exact h.bytes

theorem Laid.fades (h : Laid s) (hf : Fades s.dev.blk s'.dev.blk) (ht : ∀ x ∈ s'.todo, x ∈ s.todo) : Laid s' := by
  constructor
  · intro b' rq' bio' ho hs
    obtain ⟨b, rq, bio, hopen, -, -, hv, hi, hit⟩ := hf b' rq' bio' ho
    obtain ⟨n, hn⟩ := h.bufs b rq bio hopen (hs.congr hv hi)
    refine ⟨n, ?_⟩
    apply Bio.Part.congr _ hv hi
    rcases hit with heq | heq
    · rw [heq]
      exact hn
    · rw [heq]
      exact hn.front (dvd_zero 512) (Nat.zero_le _)
  · intro x hx b' rq' bio' ho hid'
    obtain ⟨b, rq, bio, hopen, hid, hw, hv, hi, -⟩ := hf b' rq' bio' ho
    have hfits := h.todo x (ht x hx) b rq bio hopen (hid.trans hid')
    refine ⟨?_, hfits.limit, ?_⟩
    · rw [← hw]
      exact hfits.hdr
    · intro hs
      obtain ⟨n, hn⟩ := hfits.part (hs.congr hv hi)
      exact ⟨n, hn.congr hv hi⟩

private theorem startRq_fades (hB : Acct d.blk B) {rq : Request} {q : List Request} (hq : d.queue = rq :: q) :
    Fades d.blk (startRq d rq q).blk := by
  intro b' rq' bio' ho
  rcases List.mem_cons.mp ho.rqs with heq | hrq
  · obtain ⟨x, hx, hid, -⟩ := hB.bufRq b' ho.bufs
    have hqueue : rq ∈ d.blk.queue := by
      change rq ∈ d.queue
      simp [hq]
    have hnew : rq'.id = rq.id := by rw [heq]
    have hsame : rq.id = x.id := by rw [hid, ← ho.owner, hnew]
    exact absurd hsame (hB.queue_not_rqs hqueue hx)
  · exact ⟨b', rq', bio', ⟨ho.bufs, hrq, ho.owner, ho.chain⟩, rfl, rfl, rfl, rfl, .inl rfl⟩

theorem Laid.takeBio (h : Laid s) (hB : Books s.dev.blk s.refs) {r i : ℕ} :
    Laid ⟨takeBio s.dev r i, s.todo, s.late⟩ := by
  have hold {b' : Buf} {rq' : Request} {bio' : Bio} (ho : (AoeDriver.takeBio s.dev r i).blk.Opens b' rq' bio')
      (hb : b' ∈ s.dev.blk.bufs) : s.dev.blk.Opens b' rq' bio' := ⟨hb, ho.rqs, ho.owner, ho.chain⟩
  constructor
  · intro b' rq' bio' ho hs
    rcases List.mem_cons.mp ho.bufs with heq | hb
    · refine ⟨0, ?_⟩
      have hrq : s.dev.rqAt rq'.id = rq' := hB.rqAt_mem ho.rqs
      have hid : rq'.id = r := by rw [ho.owner, heq]
      have hget : rq'.bios[i]? = some bio' := by
        rw [← ho.chain, heq]
      have hbio : s.dev.bioAt r i = bio' := by
        rw [Aoedev.bioAt, ← hid, hrq, List.getD_eq_getElem?_getD, hget, Option.getD_some]
      have hiter : b'.iter = bio'.iter := by rw [heq, ← hbio]
      rw [hiter]
      exact hs.part
    · exact h.bufs b' rq' bio' (hold ho hb) hs
  · intro x hx b' rq' bio' ho hid
    rcases List.mem_cons.mp ho.bufs with heq | hb
    · have hheld : x.buf ∈ s.refs := Multiset.mem_map_of_mem Duty.buf (Multiset.mem_add.mpr (.inl hx))
      obtain ⟨y, hy, hyid⟩ := List.mem_map.mp (hB.held _ hheld)
      have hlt := hB.bufLt y hy
      have hnew : b'.id = s.dev.bufIds := by rw [heq]
      rw [hyid, ← hid, hnew] at hlt
      exact absurd hlt (lt_irrefl _)
    · exact h.todo x hx b' rq' bio' (hold ho hb) hid

/-- A frame is cut from the front of what is left of a buf. -/
theorem Laid.cut (h : Laid s) (hB : Books s.dev.blk s.refs) {b : ℕ} {x : Duty} {ext : Bool}
    (hm : WholeSectors s.dev.maxbcnt) (hd : d'.blk.bufs = (cutBuf s.dev b).blk.bufs)
    (hr : d'.blk.rqs = s.dev.blk.rqs) (hbuf : x.buf = b) (hiter : x.iter = cutIter s.dev.maxbcnt (s.dev.bufAt b).iter)
    (hata : x.ata = ataRwHdr ext (s.dev.rqAt (s.dev.bufAt b).rq).write x.iter) : Laid ⟨d', x ::ₘ s.todo, s.late⟩ := by
  -- what was open before, with the range it stood for then
  have hback {b' : Buf} {rq' : Request} {bio' : Bio} (ho : d'.blk.Opens b' rq' bio') :
      ∃ y, s.dev.blk.Opens y rq' bio' ∧ y.id = b'.id ∧ (b'.id ≠ b → b'.iter = y.iter) ∧
        (b'.id = b → y = s.dev.bufAt b ∧ s.dev.rqAt (s.dev.bufAt b).rq = rq' ∧
          b'.iter = bioAdvanceIter bio'.vecs y.iter (cutIter s.dev.maxbcnt y.iter).size) := by
    have hmem := ho.bufs
    rw [hd] at hmem
    obtain ⟨y, hy, rfl⟩ := List.mem_map.mp hmem
    have hrq : rq' ∈ s.dev.blk.rqs := hr ▸ ho.rqs
    by_cases hyb : y.id = b
    · have hat : s.dev.bufAt b = y := by rw [← hyb, hB.bufAt_mem hy]
      have hid := ho.owner
      have hget := ho.chain
      simp only [if_pos hyb] at hid hget ⊢
      have hrqAt : s.dev.rqAt y.rq = rq' := by rw [← hid, hB.rqAt_mem hrq]
      have hbio : s.dev.bioAt y.rq y.bio = bio' := by
        rw [Aoedev.bioAt, hrqAt, List.getD_eq_getElem?_getD, hget, Option.getD_some]
      refine ⟨y, ⟨hy, hrq, hid, hget⟩, rfl, fun hne => absurd hyb hne, fun _ => ⟨hat.symm, ?_, ?_⟩⟩
      · rw [hat, hrqAt]
      · rw [hat, hbio]
    · have hid := ho.owner
      have hget := ho.chain
      simp only [if_neg hyb] at hid hget ⊢
      exact ⟨y, ⟨hy, hrq, hid, hget⟩, rfl, fun _ => rfl, fun heq => absurd heq hyb⟩
  constructor
  · intro b' rq' bio' ho hs
    obtain ⟨y, hy, -, hother, hsame⟩ := hback ho
    obtain ⟨n, hn⟩ := h.bufs y rq' bio' hy hs
    by_cases hid : b'.id = b
    · rw [(hsame hid).2.2]
      exact ⟨_, (hn.cut hm).2⟩
    · rw [hother hid]
      exact ⟨n, hn⟩
  · intro z hz b' rq' bio' ho hid
    obtain ⟨y, hy, hyid, -, hsame⟩ := hback ho
    rcases Multiset.mem_cons.mp hz with rfl | hz
    · obtain ⟨rfl, hrq, -⟩ := hsame (hid.trans hbuf)
      refine ⟨⟨ext, ?_⟩, ?_, ?_⟩
      · rw [hata, hrq]
      · rw [hiter]
        exact cutIter_limit hm
      · intro hs
        obtain ⟨n, hn⟩ := h.bufs _ rq' bio' hy hs
        rw [hiter]
        exact ⟨n, (hn.cut hm).1⟩
    · exact h.todo z hz y rq' bio' hy (hyid.trans hid)

theorem Post.laid (p : Post s s') (hB : Books s.dev.blk s.refs) (h : Laid s) : Laid s' := by
  cases p with
  | quiet hb hn hu =>
    have hbufs := Blk.core_field Blk.bufs (fun _ => rfl) hb
    exact h.fades (.congr hbufs (Blk.core_field Blk.rqs (fun _ => rfl) hb)) fun _ => id
  | ready => exact h.fades (.congr rfl rfl) fun _ => id
  | queue hk hf hid => exact h.fades (.congr rfl rfl) fun _ => id
  | start hq hr => exact h.fades (startRq_fades hB.toAcct hq) fun _ => id
  | take hb hr hi => exact h.takeBio hB
  | @cut d d' D L b f x ext hb hm hd hn hcmd hiter hx =>
    have hbufs : d'.blk.bufs = (cutBuf d b).blk.bufs := by
      rw [hd]
      rfl
    have hrqs : d'.blk.rqs = d.blk.rqs := by
      rw [hd]
      rfl
    subst hx
    exact h.cut hB hm hbufs hrqs rfl hiter rfl
  | @process d D L f x hx hp =>
    have hnote : Fades d.blk (noteProcessed d f).blk := by
      obtain ⟨processed, hnote, -⟩ := noteProcessed_cases d f
      rw [hnote]
      exact .congr rfl rfl
    have hdata : Fades d.blk (ktioData (noteProcessed d f) f).1.blk := by
      rcases ktioData_cases (noteProcessed d f) f with ⟨b, -, hd⟩ | ⟨mem, skb, hd⟩
      · rw [hd]
        exact hnote.trans (failBio_fades _ b)
      · rw [hd]
        exact hnote.trans (.congr rfl rfl)
    exact h.fades hdata fun y hy => Multiset.mem_cons_of_mem hy
  | @finish d D L x => exact h.fades ((decNframesout_fades d x.buf).trans (settle_fades _ _)) fun _ => id
  | @lose d D L x =>
    have hlose := ((decNframesout_fades d x.buf).trans (spoilBuf_fades _ x.buf)).trans (settle_fades _ x.buf)
    exact h.fades hlose fun y hy => Multiset.mem_cons_of_mem hy
  | @spoil d D L b hb => exact h.fades ((spoilBuf_fades d b).trans (settle_fades _ _)) fun _ => id
  | failRest hr => exact h.fades (failRest_fades _ _) fun _ => id
  | @failFirst d D L rq q hq =>
    refine h.fades (Fades.of (fun x hx => ⟨x, hx, rfl, rfl, rfl, .inl rfl⟩) ?_) fun _ => id
    intro p hp
    obtain ⟨hmem, hne⟩ := List.mem_filter.mp hp
    rcases List.mem_cons.mp hmem with rfl | hmem
    · simp at hne
    · exact ⟨p, hmem, rfl, rfl, rfl⟩

private theorem reached_laid (h : Reached d) : Laid (stage 0 d) := by
  refine reachedBy_stage (P := Laid) ?_ (fun _ _ => Post.laid) h
  intro s hs
  have htodo : (stage 0 s).todo = 0 := by
    rw [stage, (add_eq_zero.mp (initial_ledger hs).2.2.2).1]
    rfl
  have hbufs : (stage 0 s).dev.blk.bufs = [] := by
    obtain ⟨a, b, n, q, m, clock, c, rfl⟩ := hs
    rfl
  constructor
  · intro b rq bio ho
    have hb := ho.bufs
    rw [hbufs] at hb
    exact absurd hb List.not_mem_nil
  · intro x hx
    rw [htodo] at hx
    exact absurd hx (Multiset.notMem_zero x)

/-- What `ktiocomplete` stores, if it stores anything. -/
private theorem ktioData_mem {f : Frame} (hp : f.probe = false) : (ktioData d f).1.mem = d.mem ∨
    ∃ r, f.rSkb = some r ∧ ((f.skb.getD default).ata.cmdstat = ATA_CMD_PIO_READ ∨
      (f.skb.getD default).ata.cmdstat = ATA_CMD_PIO_READ_EXT) ∧
      (f.skb.getD default).ata.scnt.toNat <<< 9 ≤ r.payload.length ∧
      (ktioData d f).1.mem = d.mem ++ bvcpy r.payload
        (d.bioAt (d.bufAt (f.buf.getD 0)).rq (d.bufAt (f.buf.getD 0)).bio).vecs f.iter
        ((f.skb.getD default).ata.scnt.toNat <<< 9) := by
  generalize hk : ktioData d f = p
  unfold ktioData at hk
  extract_lets fail at hk
  have hfail : fail.mem = d.mem := by
    cases hb : f.buf with
    | none => simp only [fail, hb]
    | some b =>
      have heq : fail = failBio d b := by simp only [fail, hb]
      rw [heq]
      rfl
  rw [hp, if_neg Bool.false_ne_true] at hk
  split at hk
  · exact hk ▸ .inl hfail
  · rename_i r hr
    dsimp only at hk
    split at hk
    · exact hk ▸ .inl hfail
    · split at hk
      · rename_i hread
        split at hk
        · exact hk ▸ .inl hfail
        · rename_i hlen
          split at hk
          · exact hk ▸ .inl hfail
          · exact hk ▸ .inr ⟨r, hr, hread, not_lt.mp hlen, rfl⟩
      · left
        split at hk
        · exact hk ▸ rfl
        · split at hk
          · split at hk
            · exact hk ▸ rfl
            · exact hk ▸ rfl
          · exact hk ▸ rfl

private theorem ataRwHdr_read {ext write : Bool} {it : BvecIter} (hlimit : it.size ≤ 127 * 512)
    (hread : (ataRwHdr ext write it).cmdstat = ATA_CMD_PIO_READ ∨
      (ataRwHdr ext write it).cmdstat = ATA_CMD_PIO_READ_EXT) :
    write = false ∧ (512 ∣ it.size → (ataRwHdr ext write it).scnt.toNat <<< 9 = it.size) := by
  have hcmd : (ataRwHdr ext write it).cmdstat = ataCommand write ext := by
    cases ext <;> cases write <;> rfl
  have hscnt : (ataRwHdr ext write it).scnt = .ofNat 8 (it.size >>> 9) := by
    cases ext <;> cases write <;> rfl
  constructor
  · rw [hcmd] at hread
    cases write with
    | false => rfl
    | true => exact absurd hread (by cases ext <;> decide)
  · intro hdvd
    rw [hscnt, BitVec.toNat_ofNat, Nat.shiftRight_eq_div_pow, Nat.shiftLeft_eq]
    omega

/-- Data is stored only by the thread that processes the answer to a frame. If the frame belongs to a buf, it is a frame of
a read still in process, and the payload goes to the bytes of the sectors the frame was cut for, as many as it was cut
for. -/
theorem stores_in_place {e : Event} (h : Reached d) (he : exec d e = some d') : d'.mem = d.mem ∨
    ∃ i env th f, e = .run i env ∧ d.threads[i]? = some th ∧ th.processing = some f ∧ ∀ b, f.buf = some b → ∃ r rq bio,
      f.rSkb = some r ∧ d.blk.Opens (d.bufAt b) rq bio ∧ rq.write = false ∧ (∀ x ∈ d.hist.ended, x.rq.id ≠ rq.id) ∧
      (bio.Sound → ∃ n, f.iter.sector = bio.iter.sector + n ∧ 512 * n + f.iter.size ≤ bio.iter.size ∧
        d'.mem = d.mem ++ storeAll (((iterBytes bio.vecs bio.iter).drop (512 * n)).take f.iter.size)
          (r.payload.take f.iter.size)) := by
  rcases exec_mem he with hmem | ⟨i, env, th, f, hrun, hth, hf, hmem⟩
  · exact .inl hmem
  by_cases hsame : d'.mem = d.mem
  · exact .inl hsame
  right
  refine ⟨i, env, th, f, hrun, hth, hf, ?_⟩
  intro b hb
  have hgood := (reachedBy_good h).1
  have hpending : f ∈ (d.ledger 0).pending := by
    have hearly : f ∈ d.threads.flatMap Thread.early := by
      refine List.mem_flatMap.mpr ⟨th, List.mem_of_getElem? hth, ?_⟩
      cases th with
      | ktio id g =>
        obtain rfl : g = f := Option.some.inj hf
        exact List.mem_singleton_self _
      | _ => exact absurd hf (by simp [Thread.processing])
    simp only [Ledger.pending, Aoedev.ledger, Multiset.mem_add, Multiset.mem_coe]
    exact .inr (.inl (.inr hearly))
  have hprobe : f.probe = false := by
    by_contra hp
    have hnone := hgood.inv.probe f (Multiset.mem_add.mpr (.inl hpending)) (by simpa using hp)
    exact absurd (hb.symm.trans hnone) (by simp)
  -- the frame's duty, its buf and its bio
  have hx : (⟨b, f.cmd, f.iter, (f.skb.getD default).ata⟩ : Duty) ∈ (stage 0 d).todo := by
    refine (Multiset.mem_filterMap _ _ ).mpr ⟨f, hpending, ?_⟩
    rw [Frame.duty, hb, Option.map_some]
  have hheld : b ∈ (stage 0 d).refs := Multiset.mem_map_of_mem Duty.buf (Multiset.mem_add.mpr (.inl hx))
  obtain ⟨hmem', hid, hrq, hrqid, hlt⟩ := hgood.books.buf_of_mem (hgood.books.held b hheld)
  obtain ⟨bio, hchain⟩ : ∃ bio, (d.rqAt (d.bufAt b).rq).bios[(d.bufAt b).bio]? = some bio :=
    ⟨_, List.getElem?_eq_getElem hlt⟩
  have hbio : d.bioAt (d.bufAt b).rq (d.bufAt b).bio = bio := by
    rw [Aoedev.bioAt, List.getD_eq_getElem?_getD, hchain, Option.getD_some]
  have hopen : d.blk.Opens (d.bufAt b) (d.rqAt (d.bufAt b).rq) bio := ⟨hmem', hrq, hrqid, hchain⟩
  obtain ⟨⟨ext, hata⟩, hlimit, hpart⟩ := (reached_laid h).todo _ hx _ _ _ hopen hid
  dsimp only at hata hlimit hpart
  obtain ⟨processed, hnote, -⟩ := noteProcessed_cases { d with env := env } f
  rw [hnote] at hmem
  rcases ktioData_mem (d := { d with env := env, hist.processed := processed }) hprobe with
    hnone | ⟨r, hr, hread, hlen, hstore⟩
  · exact absurd (hmem.trans hnone) hsame
  rw [hata] at hread hlen hstore
  obtain ⟨hw, hcount⟩ := ataRwHdr_read hlimit hread
  refine ⟨r, _, bio, hr, hopen, hw, ?_, ?_⟩
  · intro x hx' heq
    exact hgood.books.rqs_not_ended hrq hx' heq.symm
  · intro hs
    obtain ⟨n, hn⟩ := hpart hs
    refine ⟨n, hn.sector, hn.fits, ?_⟩
    rw [hcount hn.whole] at hlen hstore
    have hvecs : bvcpy r.payload (d.bioAt (d.bufAt (f.buf.getD 0)).rq (d.bufAt (f.buf.getD 0)).bio).vecs f.iter
        f.iter.size = storeAll (((iterBytes bio.vecs bio.iter).drop (512 * n)).take f.iter.size)
          (r.payload.take f.iter.size) := by
      rw [hb, Option.getD_some, hbio, bvcpy_eq hn.inBio le_rfl hlen, hn.bytes]
    rw [hmem, ← hvecs]
    exact hstore

/-- A read of one sector is answered, and the thread of its queue takes the response. -/
def sampleRead : List Event :=
  sampleUp ++
    .blkQueue { sampleRq with
      write := false, bios := [{ vecs := [⟨3, 0, 512⟩], iter := ⟨8, 512, 0, 0⟩, error := false }] } ::
    .blkRun default :: .ataRsp (sampleRsp 2 0) :: sampleRun 0 2 ++ [.ktioTake 2]

def readScene : Scene unguarded sampleStart sampleRead
    (fun d => d.mem == [] && (exec d (.run 0 default)).any fun d' => d'.mem.length == 512) := ⟨by decide +kernel⟩

theorem stores_in_place_read : ∃ d d' : Aoedev, Reached d ∧ exec d (.run 0 default) = some d' ∧ d'.mem ≠ d.mem ∧
    ∃ th f, d.threads[0]? = some th ∧ th.processing = some f ∧ ∀ b, f.buf = some b → ∃ rq bio,
      d.blk.Opens (d.bufAt b) rq bio ∧ rq.write = false := by
  obtain ⟨d, -, hreach, htest⟩ := readScene.last sampleStart_initial
  have hd : Reached d := hreach.mono fun _ _ _ _ => trivial
  simp only [Bool.and_eq_true, beq_iff_eq, Option.any_eq_true] at htest
  obtain ⟨hempty, d', he, hlen⟩ := htest
  have hne : d'.mem ≠ d.mem := by
    intro heq
    rw [heq, hempty] at hlen
    simp at hlen
  rcases stores_in_place hd he with hmem | ⟨i, env, th, f, hrun, hth, hf, hplace⟩
  · exact absurd hmem hne
  · obtain ⟨rfl, -⟩ := Event.run.inj hrun
    refine ⟨d, d', hd, he, hne, th, f, hth, hf, ?_⟩
    intro b hb
    obtain ⟨r, rq, bio, -, hopen, hw, -⟩ := hplace b hb
    exact ⟨rq, bio, hopen, hw⟩

end Runs

end AoeDriver
