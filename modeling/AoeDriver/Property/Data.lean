import AoeDriver.Data.Segments
import AoeDriver.Run.Reach

/-!
# Data of a frame

What a frame refers to in the bio it is cut from.
-/

namespace AoeDriver

/-- The size of the kernel's array of packet fragments. -/
def MAX_SKB_FRAGS : ℕ := 65536 / PAGE_SIZE + 1

/-- The fragments that `skb_fill_page_desc` was called for, with the indices from 0 on. -/
def Frame.nfrags (f : Frame) : ℕ := (f.skb.getD default).frags.length

/-- Buf `b` stands for a write bio of whole sectors, at a position left by earlier cuts. -/
structure Aoedev.WritesSectors (d : Aoedev) (b : ℕ) : Prop where
  write : (d.rqAt (d.bufAt b).rq).write = true
  sectored : Sectored (d.bioAt (d.bufAt b).rq (d.bufAt b).bio).vecs (d.bioAt (d.bufAt b).rq (d.bufAt b).bio).iter
  cut : CutTo (d.bioAt (d.bufAt b).rq (d.bufAt b).bio).vecs (d.bioAt (d.bufAt b).rq (d.bufAt b).bio).iter (d.bufAt b).iter

/-- In a device with payload `bcnt`, every frame that a write or a probe adds has room for its fragments. -/
structure FragsFit (bcnt : ℕ) : Prop where
  rw : ∀ d b f, d.maxbcnt = bcnt → d.WritesSectors b →
    ∀ g ∈ (ataRwSend d b f).activeFrames, g ∈ d.activeFrames ∨ g.nfrags ≤ MAX_SKB_FRAGS
  probe : ∀ d t, d.maxbcnt = bcnt → ∀ g ∈ (probe d t).activeFrames, g ∈ d.activeFrames ∨ g.nfrags ≤ MAX_SKB_FRAGS

/-- Sectors that one packet holds, by the MTU of the interface and the sector count of the target. -/
def cfgSectors (mtu scnt : ℕ) : ℕ := min ((mtu % 2^16 + (2^16 - 36)) % 2^16 / 512) scnt

private theorem cfgBcnt_eq (mtu scnt : ℕ) :
    cfgBcnt mtu scnt = (if cfgSectors mtu scnt = 0 then 2 else cfgSectors mtu scnt) * 512 := by
  have hle : cfgSectors mtu scnt ≤ 127 := by
    simp only [cfgSectors]
    omega
  have hmin : (if (mtu % 2^16 + (2^16 - 36)) % 2^16 / 512 > scnt then scnt
      else (mtu % 2^16 + (2^16 - 36)) % 2^16 / 512) = cfgSectors mtu scnt := by
    simp only [cfgSectors]
    split <;> omega
  simp only [cfgBcnt]
  rw [hmin]
  by_cases h0 : cfgSectors mtu scnt = 0
  · rw [if_neg (not_not.mpr h0), if_pos h0]
    rfl
  · rw [if_pos h0, if_neg h0]
    exact Nat.mod_eq_of_lt (by omega)

section Frags

variable {d : Aoedev} {f g : Frame} {b t : ℕ}

private theorem mem_activeFrames : g ∈ d.activeFrames ↔ ∃ n, g ∈ d.factive n := by
  simp [Aoedev.activeFrames]

private theorem mem_activeFrames_fhash : g ∈ (fhash d f).activeFrames ↔ g = f ∨ g ∈ d.activeFrames := by
  simp only [mem_activeFrames, fhash]
  constructor
  · rintro ⟨n, hn⟩
    by_cases h : n = bucket f.tag
    · subst h
      rw [Function.update_self, List.mem_append, List.mem_singleton] at hn
      exact hn.symm.imp_right fun hg => ⟨_, hg⟩
    · rw [Function.update_of_ne h] at hn
      exact .inr ⟨n, hn⟩
  · rintro (rfl | ⟨n, hn⟩)
    · exact ⟨bucket g.tag, by simp⟩
    · refine ⟨n, ?_⟩
      by_cases h : n = bucket f.tag
      · subst h
        rw [Function.update_self]
        exact List.mem_append_left _ hn
      · rwa [Function.update_of_ne h]

private theorem nfrags_sendClone : (sendClone d f).2.nfrags = f.nfrags := by
  simp only [sendClone]
  split <;> rfl

private theorem nfrags_frameinit (data : Option (List BioVec)) :
    (ataRwFrameinit d f data).2.nfrags = (data.getD (f.skb.getD default).frags).length := rfl

private theorem ataRwSend_frags (hw : (d.rqAt (d.bufAt b).rq).write = true) : ∃ f', f'.nfrags =
      (bioForEachSegment (d.bioAt (d.bufAt b).rq (d.bufAt b).bio).vecs (cutIter d.maxbcnt (d.bufAt b).iter)).length ∧
    ∀ g, g ∈ (ataRwSend d b f).activeFrames ↔ g = f' ∨ g ∈ d.activeFrames := by
  unfold ataRwSend
  extract_lets buf iter data
  have hdata : data = some (bioForEachSegment (d.bioAt buf.rq buf.bio).vecs iter) := if_pos hw
  have hfrags := nfrags_frameinit (d := cutBuf d b) (f := { f with buf := some b, iter := iter }) data
  have hactive := factive_frameinit (cutBuf d b) { f with buf := some b, iter := iter } data
  rw [hdata, Option.getD_some] at hfrags
  dsimp only
  rw [← hdata] at hfrags
  generalize ataRwFrameinit (cutBuf d b) { f with buf := some b, iter := iter } data = r at hfrags hactive ⊢
  refine ⟨(sendClone ((r.1.noteCut r.2 buf).noteSend r.2 true) r.2).2, nfrags_sendClone.trans hfrags, fun g => ?_⟩
  rw [mem_activeFrames_fhash, mem_activeFrames, factive_sendClone, factive_noteSend, factive_noteCut, hactive, factive_cutBuf,
    ← mem_activeFrames]

/-- A probe adds at most one frame, with a fragment for each page of its payload. -/
private theorem probe_frags (hg : g ∈ (probe d t).activeFrames) :
    g ∈ d.activeFrames ∨ g.nfrags = ((if d.maxbcnt = 0 then DEFAULTBCNT else d.maxbcnt) + 4095) / 4096 := by
  have hstock := newtframe_stock d t
  unfold probe at hg
  generalize newtframe d t = r at hstock hg
  obtain ⟨d', o⟩ := r
  have hmax : d'.maxbcnt = d.maxbcnt := by
    obtain ⟨p, q, n, i, s, c, k, ts, rfl, -⟩ := hstock
    rfl
  have hactive : d'.factive = d.factive := by
    obtain ⟨p, q, n, i, s, c, k, ts, rfl, -⟩ := hstock
    rfl
  cases o with
  | none =>
    rw [mem_activeFrames] at hg ⊢
    rw [← hactive]
    exact .inl hg
  | some f =>
    dsimp only at hg
    have hmod : (d'.modTgt t fun x => (ifrotate x).1).maxbcnt = d.maxbcnt := hmax
    rw [hmod] at hg
    generalize (if d.maxbcnt = 0 then DEFAULTBCNT else d.maxbcnt) = size at hg ⊢
    have hinit := factive_frameinit (d'.modTgt t fun x => (ifrotate x).1)
      { f with probe := true, iter := { f.iter with size := size } } none
    generalize ataRwFrameinit (d'.modTgt t fun x => (ifrotate x).1)
      { f with probe := true, iter := { f.iter with size := size } } none = r at hg hinit
    rcases mem_activeFrames_fhash.mp hg with rfl | hg
    · right
      rw [nfrags_sendClone]
      exact probeFrags_length size size le_rfl
    · left
      rw [mem_activeFrames, factive_sendClone, factive_noteSend, hinit] at hg
      rw [mem_activeFrames, ← hactive]
      exact hg

end Frags

/-- Packets of no more sectors than the array has entries are safe. -/
private theorem fragsFit_of_le {mtu scnt : ℕ} (h : cfgSectors mtu scnt ≤ MAX_SKB_FRAGS) :
    FragsFit (cfgBcnt mtu scnt) := by
  have hmax : MAX_SKB_FRAGS = 17 := rfl
  obtain ⟨k, hk, hbcnt⟩ : ∃ k ≤ 17, cfgBcnt mtu scnt = k * 512 := by
    refine ⟨_, ?_, cfgBcnt_eq mtu scnt⟩
    split
    · decide
    · exact hmax ▸ h
  refine ⟨fun d b f hd hw g hg => ?_, fun d t hd g hg => ?_⟩
  · obtain ⟨f', hf', hmem⟩ := ataRwSend_frags (f := f) hw.write
    rcases (hmem g).mp hg with rfl | hg
    · right
      have hpos := hw.cut.sectored hw.sectored
      have hdvd : 512 ∣ d.maxbcnt := by
        rw [hd, hbcnt]
        exact Nat.dvd_mul_left _ _
      have hcut := hpos.cutIter hdvd
      have hlen := segments_length hcut
      have hsize : (cutIter d.maxbcnt (d.bufAt b).iter).size ≤ 17 * 512 := by
        simp only [cutIter, hd, hbcnt, DEFAULTBCNT]
        split <;> omega
      rw [hf', hmax]
      omega
    · exact .inl hg
  · refine (probe_frags hg).imp_right fun hn => ?_
    rw [hn, hd, hbcnt, hmax]
    simp only [DEFAULTBCNT]
    split <;> omega

private theorem not_fragsFit {mtu scnt : ℕ} (h : MAX_SKB_FRAGS < cfgSectors mtu scnt) :
    ¬ FragsFit (cfgBcnt mtu scnt) := by
  intro hfit
  let n := cfgSectors mtu scnt
  have hn : n ≠ 0 := by omega
  have hbcnt : cfgBcnt mtu scnt = n * 512 := by
    rw [cfgBcnt_eq, if_neg hn]
  let d : Aoedev := { sampleStart with
    maxbcnt := n * 512, rqs := [⟨0, true, [sectorBio n], 1⟩], bufs := [⟨0, 0, 0, 0, (sectorBio n).iter⟩] }
  have hw : d.WritesSectors 0 := ⟨rfl, sectorBio_sectored n, .start⟩
  obtain ⟨f', hf', hmem⟩ := ataRwSend_frags (d := d) (b := 0) (f := default) hw.write
  have hlen : f'.nfrags = n := hf'.trans (sectorBio_segments le_rfl hn)
  rcases hfit.rw d 0 default hbcnt.symm hw f' ((hmem f').mpr (.inl rfl)) with hold | hle
  · obtain ⟨i, hi⟩ := mem_activeFrames.mp hold
    exact absurd hi List.not_mem_nil
  · rw [hlen] at hle
    exact absurd hle (Nat.not_le.mpr h)

/-- The fragments of every frame fit exactly when a packet holds at most as many sectors as the array has entries. -/
theorem frags_fit_iff (mtu scnt : ℕ) : FragsFit (cfgBcnt mtu scnt) ↔ cfgSectors mtu scnt ≤ MAX_SKB_FRAGS := by
  constructor
  · intro hfit
    by_contra hgt
    exact not_fragsFit (Nat.not_le.mp hgt) hfit
  · exact fragsFit_of_le

/-- Jumbo frames of 16000 bytes and a bio of 31 segments. -/
def jumboStart : Aoedev := initial 1 2 4 180 128 ⟨10^9, 500000, 1000⟩ { sampleCfg with mtu := 16000, scnt := 64 }

def jumboEvents : List Event :=
  sampleUp ++ [.blkQueue ⟨7, true, [sectorBio 31], 0⟩, .blkRun default]

def jumboScene : Scene unguarded jumboStart jumboEvents fun d => d.activeFrames.any fun f => MAX_SKB_FRAGS < f.nfrags :=
  ⟨by decide +kernel⟩

theorem frags_overflow : ¬ FragsFit (cfgBcnt 16000 64) ∧ ∃ d, Reached d ∧ ∃ f ∈ d.activeFrames, MAX_SKB_FRAGS < f.nfrags := by
  refine ⟨not_fragsFit (by decide), ?_⟩
  obtain ⟨d, -, hd, ht⟩ := jumboScene.last ⟨_, _, _, _, _, _, _, rfl⟩
  refine ⟨d, hd.mono fun _ _ _ _ => trivial, ?_⟩
  simpa using ht

/-- The sector that a header addresses: 48 bits with `AOEAFL_EXT`, else 28. -/
def AtaHdr.lba (ah : AtaHdr) (ext : Bool) : ℕ :=
  if ext then ah.lba0.toNat + 2^8 * ah.lba1.toNat + 2^16 * ah.lba2.toNat + 2^24 * ah.lba3.toNat +
    2^32 * ah.lba4.toNat + 2^40 * ah.lba5.toNat
  else ah.lba0.toNat + 2^8 * ah.lba1.toNat + 2^16 * ah.lba2.toNat + 2^24 * (ah.lba3 &&& 0x0f).toNat

def Frame.lba (f : Frame) (ext : Bool) : ℕ := (f.skb.getD default).ata.lba ext

/-- The number of sectors in the identify data is one that the command can address: the field is 64 bits with LBA48
and 32 bits without. -/
def IdFits (id : List Byte) : Prop :=
  if (idWord id 83 ||| idWord id 86).testBit 10 then
    idWord id 100 + 2^16 * idWord id 101 + 2^32 * idWord id 102 + 2^48 * idWord id 103 ≤ 2^48
  else idWord id 60 + 2^16 * idWord id 61 ≤ 2^28

instance (id : List Byte) : Decidable (IdFits id) := inferInstanceAs (Decidable (ite _ _ _))

/-- Frames built with the flag of an identify response for sectors below its size address these sectors. -/
structure AddressesExact (d : Aoedev) (id : List Byte) : Prop where
  decode : ∀ (e : Aoedev) (f : Frame) (data : Option (List BioVec)), e.flags.ext = (ataidComplete d id).flags.ext →
    f.iter.sector < (ataidComplete d id).ssize → (ataRwFrameinit e f data).2.lba e.flags.ext = f.iter.sector
  distinct : ∀ (e : Aoedev) (f g : Frame) (data data' : Option (List BioVec)),
    e.flags.ext = (ataidComplete d id).flags.ext → f.iter.sector < (ataidComplete d id).ssize →
    g.iter.sector < (ataidComplete d id).ssize → f.iter.sector ≠ g.iter.sector →
    (ataRwFrameinit e f data).2.lba e.flags.ext ≠ (ataRwFrameinit e g data').2.lba e.flags.ext

private theorem ataidComplete_size (d : Aoedev) (id : List Byte) :
    (ataidComplete d id).flags.ext = (idSize id).2 ∧ (ataidComplete d id).ssize = (idSize id).1 := by
  unfold ataidComplete
  dsimp only
  split
  · exact ⟨rfl, rfl⟩
  · split <;> exact ⟨rfl, rfl⟩

private theorem low_nibble (b : Byte) : ((b &&& 0x0f ||| 0xe0) &&& 0x0f).toNat = b.toNat % 2^4 := by
  revert b
  decide

theorem lba_ataRwHdr (ext write : Bool) (it : BvecIter) :
    (ataRwHdr ext write it).lba ext = it.sector % if ext then 2^48 else 2^28 := by
  have hhdr : (ataRwHdr ext write it).lba0 = .ofNat 8 it.sector ∧
      (ataRwHdr ext write it).lba1 = .ofNat 8 (it.sector >>> 8) ∧
      (ataRwHdr ext write it).lba2 = .ofNat 8 (it.sector >>> 16) ∧
      (ataRwHdr ext write it).lba3 = (if ext then .ofNat 8 (it.sector >>> 24)
        else .ofNat 8 (it.sector >>> 24) &&& 0x0f ||| 0xe0) ∧
      (ataRwHdr ext write it).lba4 = .ofNat 8 (it.sector >>> 32) ∧
      (ataRwHdr ext write it).lba5 = .ofNat 8 (it.sector >>> 40) := by
    cases ext <;> cases write <;> exact ⟨rfl, rfl, rfl, rfl, rfl, rfl⟩
  obtain ⟨h0, h1, h2, h3, h4, h5⟩ := hhdr
  cases ext with
  | true =>
    simp only [AtaHdr.lba, h0, h1, h2, h3, h4, h5, if_true, BitVec.toNat_ofNat, Nat.shiftRight_eq_div_pow]
    omega
  | false =>
    simp only [AtaHdr.lba, h0, h1, h2, h3, Bool.false_eq_true, if_false, low_nibble, BitVec.toNat_ofNat,
      Nat.shiftRight_eq_div_pow]
    omega

private theorem ataRwFrameinit_lba (e : Aoedev) (f : Frame) (data : Option (List BioVec)) :
    (ataRwFrameinit e f data).2.lba e.flags.ext = f.iter.sector % if e.flags.ext then 2^48 else 2^28 := by
  have hata : ((ataRwFrameinit e f data).2.skb.getD default).ata = ataRwHdr e.flags.ext data.isSome f.iter := rfl
  rw [Frame.lba, hata, lba_ataRwHdr]

private theorem idFits_iff (id : List Byte) : IdFits id ↔ (idSize id).1 ≤ if (idSize id).2 then 2^48 else 2^28 := by
  unfold IdFits idSize
  split <;> exact Iff.rfl

/-- Sectors are addressed exactly when the size in the identify data fits the command. -/
theorem addresses_exact_iff (d : Aoedev) (id : List Byte) : AddressesExact d id ↔ IdFits id := by
  obtain ⟨hext, hsize⟩ := ataidComplete_size d id
  rw [idFits_iff]
  constructor
  · intro h
    by_contra hlt
    have hbig := not_le.mp hlt
    generalize hn : (if (idSize id).2 then 2^48 else 2^28) = n at hbig
    -- the first sector beyond the limit goes out as sector 0
    let f : Frame := { (default : Frame) with iter := { (default : Frame).iter with sector := n } }
    have hdec := h.decode (ataidComplete d id) f none rfl (hsize ▸ hbig)
    rw [ataRwFrameinit_lba, hext, hn, Nat.mod_self] at hdec
    have hpos : 0 < n := by
      rw [← hn]
      split <;> decide
    exact absurd hdec hpos.ne
  · intro hle
    have hdec (e : Aoedev) (f : Frame) (data : Option (List BioVec))
        (he : e.flags.ext = (ataidComplete d id).flags.ext) (hf : f.iter.sector < (ataidComplete d id).ssize) :
        (ataRwFrameinit e f data).2.lba e.flags.ext = f.iter.sector := by
      rw [ataRwFrameinit_lba, he, hext]
      exact Nat.mod_eq_of_lt ((hsize ▸ hf).trans_le hle)
    refine ⟨hdec, fun e f g data data' he hf hg hne => ?_⟩
    rw [hdec e f data he hf, hdec e g data' he hg]
    exact hne

/-- Identify data without LBA48 that gives one sector more than 28 bits can address. -/
def bigIdentify : List Byte := List.replicate 120 0 ++ [1, 0, 0, 0x10] ++ List.replicate 388 0

private theorem idSize_bigIdentify : idSize bigIdentify = (2^28 + 1, false) := by
  simp [idSize, idWord, bigIdentify, -List.reduceReplicate]

/-- Its last sector is sent as sector 0. -/
theorem addresses_alias : bigIdentify.length = 512 ∧ ¬AddressesExact sampleStart bigIdentify := by
  have hlen : bigIdentify.length = 512 := by simp [bigIdentify, -List.reduceReplicate]
  refine ⟨hlen, fun h => ?_⟩
  obtain ⟨hext, hsize⟩ := ataidComplete_size sampleStart bigIdentify
  rw [idSize_bigIdentify] at hext hsize
  let f : Frame := { (default : Frame) with iter := { (default : Frame).iter with sector := 2^28 } }
  have hdec := h.decode (ataidComplete sampleStart bigIdentify) f none rfl (hsize ▸ Nat.lt_succ_self _)
  rw [ataRwFrameinit_lba, hext] at hdec
  exact absurd hdec (by decide)

end AoeDriver
