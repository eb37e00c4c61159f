import AoeDriver.Data.Bytes
import AoeDriver.Property.Data

/-!
# Coverage and placement

The frames cut from a bio cover its sectors once, in order, whatever `maxbcnt` is at each cut. Their headers say the
same, and the answers of a read fill the memory of the bio, in whatever order they come.
-/

namespace AoeDriver

section Cut

variable {d : Aoedev} {b : ℕ} {f : Frame}

/-- The frame that `aoecmd_ata_rw` puts on `factive`. -/
def ataRwFrame (d : Aoedev) (b : ℕ) (f : Frame) : Frame :=
  let buf := d.bufAt b
  let iter := cutIter d.maxbcnt buf.iter
  let data := if (d.rqAt buf.rq).write then some (bioForEachSegment (d.bioAt buf.rq buf.bio).vecs iter) else none
  let p := ataRwFrameinit (cutBuf d b) { f with buf := some b, iter := iter } data
  (sendClone ((p.1.noteCut p.2 buf).noteSend p.2 true) p.2).2

private theorem ataRwSend_fhash (d : Aoedev) (b : ℕ) (f : Frame) :
    ∃ e, ataRwSend d b f = fhash e (ataRwFrame d b f) ∧ e.bufs = (cutBuf d b).bufs := by
  have hclone (e : Aoedev) (g : Frame) : (sendClone e g).1.bufs = e.bufs := by
    unfold sendClone
    dsimp only
    split <;> rfl
  unfold ataRwSend ataRwFrame
  exact ⟨_, rfl, hclone _ _⟩

private theorem ataRwFrame_spec (d : Aoedev) (b : ℕ) (f : Frame) :
    (ataRwFrame d b f).iter = cutIter d.maxbcnt (d.bufAt b).iter ∧ (ataRwFrame d b f).buf = some b ∧
      (ataRwFrame d b f).probe = f.probe ∧ ((ataRwFrame d b f).skb.getD default).ata =
        ataRwHdr d.flags.ext (d.rqAt (d.bufAt b).rq).write (cutIter d.maxbcnt (d.bufAt b).iter) := by
  have hclone (e : Aoedev) (g : Frame) : (sendClone e g).2.iter = g.iter ∧ (sendClone e g).2.buf = g.buf ∧
      (sendClone e g).2.probe = g.probe ∧ (sendClone e g).2.skb = g.skb := by
    unfold sendClone
    dsimp only
    split <;> exact ⟨rfl, rfl, rfl, rfl⟩
  unfold ataRwFrame
  dsimp only
  obtain ⟨hiter, hbuf, hprobe, hskb⟩ := hclone
    (((ataRwFrameinit (cutBuf d b) { f with buf := some b, iter := cutIter d.maxbcnt (d.bufAt b).iter }
      (if (d.rqAt (d.bufAt b).rq).write then some (bioForEachSegment (d.bioAt (d.bufAt b).rq (d.bufAt b).bio).vecs
        (cutIter d.maxbcnt (d.bufAt b).iter)) else none)).1.noteCut _ (d.bufAt b)).noteSend _ true) _
  rw [hiter, hbuf, hprobe, hskb]
  refine ⟨rfl, rfl, rfl, ?_⟩
  cases (d.rqAt (d.bufAt b).rq).write <;> rfl

theorem bufAt_modBuf_self (d : Aoedev) (g : Buf → Buf) (hg : ∀ x, (g x).id = x.id) (hb : b ∈ d.bufs.map Buf.id) :
    (d.modBuf b g).bufAt b = g (d.bufAt b) := by
  unfold Aoedev.bufAt Aoedev.modBuf
  dsimp only
  generalize d.bufs = l at hb
  induction l with
  | nil => exact absurd hb List.not_mem_nil
  | cons x l ih =>
    by_cases hx : x.id = b
    · simp [hx, hg]
    · have hl : b ∈ l.map Buf.id := by
        rcases List.mem_cons.mp hb with h | h
        · exact absurd h.symm hx
        · exact h
      simpa [hx] using ih hl

private theorem ataRwSend_iter (hb : b ∈ d.bufs.map Buf.id) (f : Frame) : ((ataRwSend d b f).bufAt b).iter =
    bioAdvanceIter (d.bioAt (d.bufAt b).rq (d.bufAt b).bio).vecs (d.bufAt b).iter
      (cutIter d.maxbcnt (d.bufAt b).iter).size := by
  obtain ⟨e, hsend, hbufs⟩ := ataRwSend_fhash d b f
  have hbufs : (ataRwSend d b f).bufs = (cutBuf d b).bufs := by
    rw [hsend]
    exact hbufs
  have hbuf : (ataRwSend d b f).bufAt b = (cutBuf d b).bufAt b := by rw [Aoedev.bufAt, hbufs, Aoedev.bufAt]
  have hcut := bufAt_modBuf_self d (fun x => { x with
    iter := bioAdvanceIter (d.bioAt (d.bufAt b).rq (d.bufAt b).bio).vecs (d.bufAt b).iter
      (cutIter d.maxbcnt (d.bufAt b).iter).size
    nframesout := x.nframesout + 1 }) (fun _ => rfl) hb
  rw [hbuf]
  exact congrArg Buf.iter hcut

end Cut

/-- Calls of `aoecmd_ata_rw` that cut a buf at position `it` into frames until nothing is left. The devices of two
calls have nothing in common but the buf, its bio and the address mode. -/
inductive Cutting (vecs : List BioVec) (ext write : Bool) : BvecIter → List Frame → Prop where
  | done {it : BvecIter} (h : it.size = 0) : Cutting vecs ext write it []
  | cut {d : Aoedev} {b : ℕ} {f : Frame} {fs : List Frame} (hb : b ∈ d.bufs.map Buf.id)
      (hvecs : (d.bioAt (d.bufAt b).rq (d.bufAt b).bio).vecs = vecs) (hw : (d.rqAt (d.bufAt b).rq).write = write)
      (he : d.flags.ext = ext) (hm : 512 ∣ d.maxbcnt) (hmax : d.maxbcnt ≤ 127 * 512) (hf : f.Blank)
      (hsize : (d.bufAt b).iter.size ≠ 0) (rest : Cutting vecs ext write ((ataRwSend d b f).bufAt b).iter fs) :
      Cutting vecs ext write (d.bufAt b).iter (ataRwFrame d b f :: fs)

section Piece

variable {m : ℕ} {it : BvecIter} {vecs : List BioVec}

private theorem cutIter_size (hm : 512 ∣ m) (hmax : m ≤ 127 * 512) (hs : 512 ∣ it.size) (hne : it.size ≠ 0) :
    512 ∣ (cutIter m it).size ∧ (cutIter m it).size ≠ 0 ∧ (cutIter m it).size ≤ it.size ∧
      (cutIter m it).size ≤ 127 * 512 := by
  have hlimit : 512 ∣ (if m = 0 then DEFAULTBCNT else m) ∧ (if m = 0 then DEFAULTBCNT else m) ≠ 0 ∧
      (if m = 0 then DEFAULTBCNT else m) ≤ 127 * 512 := by
    split
    · decide
    · exact ⟨hm, ‹_›, hmax⟩
  obtain ⟨hdvd, hpos, hle⟩ := hlimit
  unfold cutIter
  dsimp only
  generalize (if m = 0 then DEFAULTBCNT else m) = n at hdvd hpos hle
  exact ⟨dvd_min hdvd hs, by omega, Nat.min_le_right _ _, (Nat.min_le_left _ _).trans hle⟩

/-- The sectors of a range. -/
def BvecIter.sectors (it : BvecIter) : List ℕ := List.range' it.sector (it.size / 512)

theorem sectors_split (vecs : List BioVec) {n : ℕ} (hn : 512 ∣ n) (hle : n ≤ it.size) :
    it.sectors = BvecIter.sectors { it with size := n } ++ (bioAdvanceIter vecs it n).sectors := by
  obtain ⟨k, rfl⟩ := hn
  have hsize : it.size / 512 = k + (it.size - 512 * k) / 512 := by omega
  have hshift : (512 * k) >>> 9 = k := by
    rw [Nat.shiftRight_eq_div_pow]
    omega
  have hfirst : 512 * k / 512 = k := by omega
  unfold BvecIter.sectors bioAdvanceIter
  dsimp only
  rw [hshift, hfirst, hsize, ← List.range'_append_1]

/-- The command code for a direction and an address mode. -/
def ataCommand : Bool → Bool → Byte
  | false, false => ATA_CMD_PIO_READ
  | false, true => ATA_CMD_PIO_READ_EXT
  | true, false => ATA_CMD_PIO_WRITE
  | true, true => ATA_CMD_PIO_WRITE_EXT

/-- A header says where a command goes: the sectors, their number, the direction and the address mode. -/
structure AtaHdr.Decodes (ah : AtaHdr) (ext write : Bool) (it : BvecIter) : Prop where
  lba : ah.lba ext = it.sector
  count : 512 * ah.scnt.toNat = it.size
  command : ah.cmdstat = ataCommand write ext
  flags : ah.aflags = (if ext then AOEAFL_EXT else 0) ||| (if write then AOEAFL_WRITE else 0)

private theorem ataRwHdr_decodes (ext write : Bool) (hs : 512 ∣ it.size) (hmax : it.size ≤ 127 * 512)
    (hsector : it.sector < if ext then 2^48 else 2^28) : (ataRwHdr ext write it).Decodes ext write it := by
  refine ⟨?_, ?_, ?_, ?_⟩
  · rw [lba_ataRwHdr, Nat.mod_eq_of_lt hsector]
  · have hscnt : (ataRwHdr ext write it).scnt = .ofNat 8 (it.size >>> 9) := by
      cases ext <;> cases write <;> rfl
    rw [hscnt, BitVec.toNat_ofNat, Nat.shiftRight_eq_div_pow]
    omega
  · cases ext <;> cases write <;> rfl
  · cases ext <;> cases write <;> simp [ataRwHdr, putLba]

end Piece

section Pieces

variable {vecs : List BioVec} {ext write : Bool} {it : BvecIter} {fs : List Frame}

/-- What is kept from one cut to the next. -/
structure Uncut (vecs : List BioVec) (ext : Bool) (it : BvecIter) : Prop where
  inBio : InBio vecs it
  whole : 512 ∣ it.size
  limit : it.sector + it.size / 512 ≤ if ext then 2^48 else 2^28

theorem Uncut.advance (h : Uncut vecs ext it) {n : ℕ} (hn : 512 ∣ n) (hle : n ≤ it.size) :
    Uncut vecs ext (bioAdvanceIter vecs it n) := by
  refine ⟨h.inBio.advance n, Nat.dvd_sub h.whole hn, ?_⟩
  obtain ⟨k, rfl⟩ := hn
  have hlimit := h.limit
  have hshift : (512 * k) >>> 9 = k := by
    rw [Nat.shiftRight_eq_div_pow]
    omega
  show it.sector + (512 * k) >>> 9 + (it.size - 512 * k) / 512 ≤ _
  rw [hshift]
  omega

theorem Cutting.rec_pieces {P : BvecIter → List Frame → Prop} (hdone : ∀ it, it.size = 0 → P it [])
    (hcut : ∀ it m g fs, Uncut vecs ext it → it.size ≠ 0 → g.iter = cutIter m it → 512 ∣ (cutIter m it).size →
      (cutIter m it).size ≠ 0 → (cutIter m it).size ≤ it.size → (cutIter m it).size ≤ 127 * 512 → g.probe = false →
      g.buf.isSome → (g.skb.getD default).ata = ataRwHdr ext write g.iter →
      P (bioAdvanceIter vecs it (cutIter m it).size) fs → P it (g :: fs))
    (h : Cutting vecs ext write it fs) (hu : Uncut vecs ext it) : P it fs := by
  induction h with
  | done hzero => exact hdone _ hzero
  | @cut d b f fs hb hvecs hw he hm hmax hf hsize _ ih =>
    obtain ⟨hiter, hbuf, hprobe, hata⟩ := ataRwFrame_spec d b f
    obtain ⟨hdvd, hne, hle, hlimit⟩ := cutIter_size hm hmax hu.whole hsize
    rw [ataRwSend_iter hb, hvecs] at ih
    refine hcut _ d.maxbcnt _ _ hu hsize hiter hdvd hne hle hlimit ?_ ?_ ?_ (ih (hu.advance hdvd hle))
    · exact hprobe.trans hf.2.2.2
    · rw [hbuf]
      rfl
    · rw [hata, hiter, he, hw]

theorem Cutting.sectors (h : Cutting vecs ext write it fs) (hu : Uncut vecs ext it) :
    fs.flatMap (fun f => f.iter.sectors) = it.sectors := by
  refine h.rec_pieces (P := fun it fs => fs.flatMap (fun f => f.iter.sectors) = it.sectors) ?_ ?_ hu
  · intro it hzero
    simp [BvecIter.sectors, hzero]
  · intro it m g fs _ _ hiter hdvd _ hle _ _ _ _ ih
    rw [List.flatMap_cons, ih, hiter, sectors_split vecs hdvd hle]
    rfl

theorem Cutting.decodes (h : Cutting vecs ext write it fs) (hu : Uncut vecs ext it) :
    ∀ f ∈ fs, ((f.skb.getD default).ata).Decodes ext write f.iter := by
  refine h.rec_pieces (P := fun _ fs => ∀ f ∈ fs, ((f.skb.getD default).ata).Decodes ext write f.iter) ?_ ?_ hu
  · intro it _ f hf
    exact absurd hf List.not_mem_nil
  · intro it m g fs hu' hsize hiter hdvd _ _ hlimit _ _ hata ih f hf
    rcases List.mem_cons.mp hf with rfl | hf
    · rw [hata, hiter]
      refine ataRwHdr_decodes ext write hdvd hlimit ?_
      have hbound := hu'.limit
      have hpos : 0 < it.size / 512 := Nat.div_pos (Nat.le_of_dvd (Nat.pos_of_ne_zero hsize) hu'.whole) (by norm_num)
      show it.sector < _
      omega
    · exact ih f hf

/-- The stores that a frame of a read asks for. -/
def Frame.stores (f : Frame) (vecs : List BioVec) (data : List Byte) : List MemWrite :=
  storeAll ((iterBytes vecs f.iter).take f.iter.size) (data.take f.iter.size)

private theorem ktioData_stores {f : Frame} {r : Rsp} {d : Aoedev} (hprobe : f.probe = false) (hin : InBio vecs f.iter)
    (hdec : ((f.skb.getD default).ata).Decodes ext false f.iter) (hok : r.cmdstat &&& 0xa9 = 0)
    (hlen : f.iter.size ≤ r.payload.length)
    (hvecs : (d.bioAt (d.bufAt (f.buf.getD 0)).rq (d.bufAt (f.buf.getD 0)).bio).vecs = vecs) :
    (ktioData d { f with rSkb := some r }).1.mem = d.mem ++ f.stores vecs r.payload := by
  have hn : (f.skb.getD default).ata.scnt.toNat <<< 9 = f.iter.size := by
    rw [Nat.shiftLeft_eq, ← hdec.count, mul_comm]
  have hread : (f.skb.getD default).ata.cmdstat = ATA_CMD_PIO_READ ∨
      (f.skb.getD default).ata.cmdstat = ATA_CMD_PIO_READ_EXT := by
    rw [hdec.command]
    cases ext with
    | false => exact .inl rfl
    | true => exact .inr rfl
  have hok' : ¬ r.cmdstat &&& 0xa9 ≠ 0 := fun h => h hok
  unfold ktioData
  dsimp only
  rw [hprobe, if_neg Bool.false_ne_true, if_neg hok', if_pos hread, hn, if_neg (not_lt.mpr hlen), if_neg (lt_irrefl _)]
  dsimp only
  rw [hvecs, bvcpy_eq hin le_rfl hlen]
  rfl

private theorem storeAll_append (a a' : List (ℕ × ℕ)) (b b' : List Byte) (h : a.length = b.length) :
    storeAll (a ++ a') (b ++ b') = storeAll a b ++ storeAll a' b' := List.zipWith_append h

/-- In the order of the sectors the stores of all frames are the payloads one after the other, at the addresses of
the bio. -/
theorem Cutting.stores (h : Cutting vecs ext write it fs) (hu : Uncut vecs ext it) (data : Frame → List Byte) :
    (∀ f ∈ fs, f.iter.size ≤ (data f).length) →
      fs.flatMap (fun f => f.stores vecs (data f)) =
        storeAll ((iterBytes vecs it).take it.size) (fs.flatMap fun f => (data f).take f.iter.size) := by
  refine h.rec_pieces (P := fun it fs => (∀ f ∈ fs, f.iter.size ≤ (data f).length) →
    fs.flatMap (fun f => f.stores vecs (data f)) =
      storeAll ((iterBytes vecs it).take it.size) (fs.flatMap fun f => (data f).take f.iter.size)) ?_ ?_ hu
  · intro it hzero _
    rw [hzero]
    rfl
  · intro it m g fs hu' _ hiter _ _ hle _ _ _ _ ih hlen
    have hsize : g.iter.size = (cutIter m it).size := by rw [hiter]
    have hbytes : iterBytes vecs g.iter = iterBytes vecs it := by rw [hiter]; rfl
    have hsplit : (iterBytes vecs it).take it.size = (iterBytes vecs it).take g.iter.size ++
        ((iterBytes vecs it).drop g.iter.size).take (it.size - g.iter.size) := by
      rw [← List.take_add]
      congr 1
      omega
    have hrest := ih fun f hf => hlen f (List.mem_cons_of_mem g hf)
    rw [iterBytes_advance hu'.inBio] at hrest
    rw [List.flatMap_cons, hrest, List.flatMap_cons, hsplit, storeAll_append, Frame.stores, hbytes, hsize]
    · rfl
    · have hg := hlen g List.mem_cons_self
      have hin := hu'.inBio.size
      rw [List.length_take, List.length_take]
      omega

theorem Cutting.frames (h : Cutting vecs ext write it fs) (hu : Uncut vecs ext it) :
    ∀ f ∈ fs, f.probe = false ∧ InBio vecs f.iter := by
  refine h.rec_pieces (P := fun _ fs => ∀ f ∈ fs, f.probe = false ∧ InBio vecs f.iter) ?_ ?_ hu
  · intro it _ f hf
    exact absurd hf List.not_mem_nil
  · intro it m g fs hu' _ hiter _ _ hle _ hprobe _ _ ih f hf
    rcases List.mem_cons.mp hf with rfl | hf
    · refine ⟨hprobe, ?_⟩
      rw [hiter]
      exact ⟨hu'.inBio.inside, hle.trans hu'.inBio.size⟩
    · exact ih f hf

/-- Coverage and placement. However a bio is cut, every cut leaves less of it; the frames have the sectors of the bio
one after the other and headers that say so; and the stores that `ktiocomplete` makes for good answers to all frames of
a read, in any order, are one at each address of the bio, the payloads being laid down in the order of the sectors. -/
theorem data_placed (hu : Uncut vecs ext it) :
    (∀ (d : Aoedev) (b : ℕ) (f : Frame), b ∈ d.bufs.map Buf.id → 512 ∣ d.maxbcnt → d.maxbcnt ≤ 127 * 512 →
      (d.bufAt b).iter = it → it.size ≠ 0 → ((ataRwSend d b f).bufAt b).iter.size < it.size) ∧
    ∀ write fs, Cutting vecs ext write it fs →
      fs.flatMap (fun f => f.iter.sectors) = it.sectors ∧
      (∀ f ∈ fs, ((f.skb.getD default).ata).Decodes ext write f.iter) ∧
      (write = false → ∀ (r : Frame → Rsp) (ds : Frame → Aoedev) (order : List Frame), order.Perm fs →
        (∀ f ∈ fs, (r f).cmdstat &&& 0xa9 = 0 ∧ f.iter.size ≤ (r f).payload.length ∧
          ((ds f).bioAt ((ds f).bufAt (f.buf.getD 0)).rq ((ds f).bufAt (f.buf.getD 0)).bio).vecs = vecs) →
        ∃ stores : Frame → List MemWrite,
          (∀ f ∈ fs, (ktioData (ds f) { f with rSkb := some (r f) }).1.mem = (ds f).mem ++ stores f) ∧
          (order.flatMap stores).Perm (storeAll ((iterBytes vecs it).take it.size)
            (fs.flatMap fun f => (r f).payload.take f.iter.size))) := by
  refine ⟨?_, fun write fs h => ⟨h.sectors hu, h.decodes hu, ?_⟩⟩
  · intro d b f hb hm hmax hit hsize
    subst hit
    obtain ⟨-, hne, hle, -⟩ := cutIter_size hm hmax hu.whole hsize
    rw [ataRwSend_iter hb]
    show (d.bufAt b).iter.size - _ < _
    omega
  · rintro rfl r ds order hperm hgood
    refine ⟨fun f => f.stores vecs (r f).payload, ?_, ?_⟩
    · intro f hf
      obtain ⟨hok, hlen, hvecs⟩ := hgood f hf
      obtain ⟨hprobe, hin⟩ := h.frames hu f hf
      exact ktioData_stores hprobe hin (h.decodes hu f hf) hok hlen hvecs
    · rw [← h.stores hu (fun f => (r f).payload) fun f hf => (hgood f hf).2.1]
      exact hperm.flatMap_right _

def sampleVecs : List BioVec := [⟨1, 0, 700⟩, ⟨2, 100, 300⟩, ⟨3, 0, 536⟩]

def sampleIter : BvecIter := ⟨8, 1536, 0, 0⟩

def sampleCut : Aoedev :=
  { sampleStart with
    maxbcnt := 1024, bufs := [⟨0, 0, 7, 0, sampleIter⟩]
    rqs := [{ id := 7, write := false, special := 1, bios := [⟨sampleVecs, sampleIter, false⟩] }] }

/-- The first cut, and the second. -/
def sampleCuts (n : ℕ) : Aoedev := (fun d => ataRwSend d 0 default)^[n] sampleCut

/-- Whether buf 0 of a device may be cut. -/
def cuttable (d : Aoedev) : Bool :=
  d.bufs.any (·.id == 0) && (d.bioAt (d.bufAt 0).rq (d.bufAt 0).bio).vecs == sampleVecs &&
    !(d.rqAt (d.bufAt 0).rq).write && !d.flags.ext && d.maxbcnt == 1024 && (d.bufAt 0).iter.size != 0

private theorem cuttable_spec {d : Aoedev} (h : cuttable d = true) : 0 ∈ d.bufs.map Buf.id ∧
    (d.bioAt (d.bufAt 0).rq (d.bufAt 0).bio).vecs = sampleVecs ∧ (d.rqAt (d.bufAt 0).rq).write = false ∧
    d.flags.ext = false ∧ d.maxbcnt = 1024 ∧ (d.bufAt 0).iter.size ≠ 0 := by
  simp only [cuttable, Bool.and_eq_true, List.any_eq_true, beq_iff_eq, Bool.not_eq_true', bne_iff_ne] at h
  obtain ⟨⟨⟨⟨⟨⟨x, hx, hid⟩, hvecs⟩, hw⟩, he⟩, hm⟩, hsize⟩ := h
  exact ⟨List.mem_map.mpr ⟨x, hx, hid⟩, hvecs, hw, he, hm, hsize⟩

structure CutScene (test : Bool) : Type where
  passes : test = true

def sampleTwice : CutScene (cuttable (sampleCuts 0) && cuttable (sampleCuts 1) &&
    (sampleCuts 0).bufAt 0 == ⟨0, 0, 7, 0, sampleIter⟩ && ((sampleCuts 2).bufAt 0).iter.size == 0) := ⟨by decide +kernel⟩

private theorem sampleCutting : Cutting sampleVecs false false sampleIter
    [ataRwFrame (sampleCuts 0) 0 default, ataRwFrame (sampleCuts 1) 0 default] := by
  have hpass := sampleTwice.passes
  simp only [Bool.and_eq_true, beq_iff_eq] at hpass
  obtain ⟨⟨⟨h₀, h₁⟩, hstart⟩, hend⟩ := hpass
  have hblank : (default : Frame).Blank := ⟨rfl, rfl, rfl, rfl⟩
  obtain ⟨hb, hvecs, hw, he, hm, hsize⟩ := cuttable_spec h₀
  obtain ⟨hb', hvecs', hw', he', hm', hsize'⟩ := cuttable_spec h₁
  have hit : sampleIter = ((sampleCuts 0).bufAt 0).iter := by rw [hstart]
  rw [hit]
  have hpayload {m : ℕ} (h : m = 1024) : 512 ∣ m ∧ m ≤ 127 * 512 := by
    rw [h]
    decide
  have hsecond : Cutting sampleVecs false false ((sampleCuts 1).bufAt 0).iter [ataRwFrame (sampleCuts 1) 0 default] :=
    .cut hb' hvecs' hw' he' (hpayload hm').1 (hpayload hm').2 hblank hsize' (.done hend)
  exact .cut hb hvecs hw he (hpayload hm).1 (hpayload hm).2 hblank hsize hsecond

theorem data_placed_sample :
    [ataRwFrame (sampleCuts 0) 0 default, ataRwFrame (sampleCuts 1) 0 default].flatMap (fun f => f.iter.sectors) =
      [8, 9, 10] := by
  have hu : Uncut sampleVecs false sampleIter := by
    refine ⟨⟨?_, ?_⟩, by decide, by decide⟩
    · intro bv hbv
      exact Nat.zero_le _
    · simp [iterBytes, bvecBytes, sampleVecs, sampleIter]
  exact ((data_placed hu).2 false _ sampleCutting).1

end Pieces

end AoeDriver
