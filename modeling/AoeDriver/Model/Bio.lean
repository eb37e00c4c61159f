import AoeDriver.Model.Frames

/-!
# Bio iteration

The kernel's iterator over the segments of a bio, and what the driver does with it: cutting a frame off a
buf and copying a read response into the bio's memory.
-/

namespace AoeDriver

/-- Position after `bytes` more bytes, walking the segments from index `idx` on. -/
def bvecAdvance : List BioVec → Nat → Nat → Nat → Nat × Nat
  | [], idx, done, _ => (idx, done)
  | bv :: rest, idx, done, bytes =>
    if bytes = 0 then (idx, done)
    else if done + min bytes (bv.len - done) = bv.len then
      bvecAdvance rest (idx + 1) 0 (bytes - min bytes (bv.len - done))
    else (idx, done + min bytes (bv.len - done))

def bioAdvanceIter (vecs : List BioVec) (it : BvecIter) (bytes : Nat) : BvecIter :=
  let p := bvecAdvance (vecs.drop it.idx) it.idx it.done bytes
  { sector := it.sector + bytes >>> 9, size := it.size - bytes, idx := p.1, done := p.2 }

/-- The pieces of the segments that `size` bytes cover, the first one from byte `done` on. -/
def bvecSegments : List BioVec → Nat → Nat → List BioVec
  | [], _, _ => []
  | bv :: rest, done, size =>
    if size = 0 then []
    else
      ⟨bv.page, bv.offset + done, min size (bv.len - done)⟩ ::
        bvecSegments rest 0 (size - min size (bv.len - done))

/-- `__bio_for_each_segment` from a given position. -/
def bioForEachSegment (vecs : List BioVec) (it : BvecIter) : List BioVec :=
  bvecSegments (vecs.drop it.idx) it.done it.size

/-- The range `aoecmd_ata_rw` gives to the next frame of a buf. -/
def cutIter (maxbcnt : Nat) (it : BvecIter) : BvecIter :=
  { it with size := min (if maxbcnt = 0 then DEFAULTBCNT else maxbcnt) it.size }

/-- `skb_copy_bits` of `bv.len` bytes at offset `soff` to the memory of one segment. -/
def skbCopyBits (data : List Byte) (soff : Nat) (bv : BioVec) : List MemWrite :=
  (List.range bv.len).map fun k => ⟨bv.page, bv.offset + k, data.getD (soff + k) 0⟩

def bvcpyLoop (data : List Byte) : Nat → List BioVec → List MemWrite
  | _, [] => []
  | soff, bv :: rest => skbCopyBits data soff bv ++ bvcpyLoop data (soff + bv.len) rest

/-- The stores made by `bvcpy`. -/
def bvcpy (data : List Byte) (vecs : List BioVec) (it : BvecIter) (cnt : Nat) : List MemWrite :=
  bvcpyLoop data 0 (bioForEachSegment vecs { it with size := cnt })

end AoeDriver
