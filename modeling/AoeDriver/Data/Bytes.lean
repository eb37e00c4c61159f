import AoeDriver.Data.Segments

/-!
# The bytes of a bio

The memory of a bio is the list of its byte addresses, segment after segment. A position in the bio is a number of
bytes dropped, the pieces of a range are a part of what is left, and `bvcpy` stores one byte of the packet at each
address of that part.
-/

namespace AoeDriver

/-- The addresses of the bytes of a list of segments. -/
def bvecBytes (l : List BioVec) : List (ℕ × ℕ) :=
  l.flatMap fun bv => (List.range bv.len).map fun k => (bv.page, bv.offset + k)

/-- The addresses from a position on. -/
def iterBytes (vecs : List BioVec) (it : BvecIter) : List (ℕ × ℕ) := (bvecBytes (vecs.drop it.idx)).drop it.done

/-- The position lies in its segment or at its end, and the range is part of the bio. -/
structure InBio (vecs : List BioVec) (it : BvecIter) : Prop where
  inside : ∀ bv ∈ (vecs.drop it.idx).head?, it.done ≤ bv.len
  size : it.size ≤ (iterBytes vecs it).length

section Bytes

variable {bv : BioVec} {vecs : List BioVec} {it : BvecIter} {bytes : ℕ}

private theorem bvecBytes_cons (bv : BioVec) (l : List BioVec) :
    bvecBytes (bv :: l) = (List.range bv.len).map (fun k => (bv.page, bv.offset + k)) ++ bvecBytes l := by
  rw [bvecBytes, List.flatMap_cons]
  rfl

private theorem drop_segment (bv : BioVec) (done : ℕ) :
    ((List.range bv.len).map fun k => (bv.page, bv.offset + k)).drop done =
      (List.range (bv.len - done)).map fun k => (bv.page, bv.offset + done + k) := by
  apply List.ext_getElem
  · simp
  · intro i hi hi'
    simp only [List.getElem_drop, List.getElem_map, List.getElem_range, Nat.add_assoc]

private theorem drop_bvecBytes_cons {done : ℕ} (h : done ≤ bv.len) (l : List BioVec) :
    (bvecBytes (bv :: l)).drop done =
      (List.range (bv.len - done)).map (fun k => (bv.page, bv.offset + done + k)) ++ bvecBytes l := by
  have hlen : done ≤ ((List.range bv.len).map fun k => (bv.page, bv.offset + k)).length := by simpa using h
  rw [bvecBytes_cons, List.drop_append_of_le_length hlen, drop_segment]

private theorem bytes_bvecSegments (l : List BioVec) (done size : ℕ) (h : ∀ bv ∈ l.head?, done ≤ bv.len) :
    bvecBytes (bvecSegments l done size) = ((bvecBytes l).drop done).take size := by
  induction l generalizing done size with
  | nil => simp [bvecSegments, bvecBytes]
  | cons bv rest ih =>
    have hdone : done ≤ bv.len := h bv rfl
    unfold bvecSegments
    split
    · rename_i hzero
      rw [hzero]
      rfl
    · rw [bvecBytes_cons, ih 0 _ (fun x _ => Nat.zero_le _), List.drop_zero, drop_bvecBytes_cons hdone, List.take_append]
      congr 1
      · rw [← List.map_take, List.take_range]
      · congr 1
        simp only [List.length_map, List.length_range]
        omega

private theorem bytes_segments (h : InBio vecs it) (cnt : ℕ) :
    bvecBytes (bioForEachSegment vecs { it with size := cnt }) = (iterBytes vecs it).take cnt :=
  bytes_bvecSegments _ _ _ h.inside

/-- Advancing drops bytes, and the new position lies in its segment again. -/
private theorem bvecAdvance_bytes (l : List BioVec) (idx done bytes : ℕ) (h : ∀ bv ∈ l.head?, done ≤ bv.len) :
    ∃ n, (bvecAdvance l idx done bytes).1 = idx + n ∧
      (∀ bv ∈ (l.drop n).head?, (bvecAdvance l idx done bytes).2 ≤ bv.len) ∧
      (bvecBytes (l.drop n)).drop (bvecAdvance l idx done bytes).2 = ((bvecBytes l).drop done).drop bytes := by
  induction l generalizing idx done bytes with
  | nil => exact ⟨0, rfl, by simp, by simp [bvecBytes]⟩
  | cons bv rest ih =>
    have hdone : done ≤ bv.len := h bv rfl
    unfold bvecAdvance
    split
    · rename_i hzero
      refine ⟨0, rfl, h, ?_⟩
      rw [hzero, List.drop_zero, List.drop_zero]
    · split
      · rename_i hend
        -- the rest of the segment is passed
        obtain ⟨n, hidx, hin, hbytes⟩ := ih (idx + 1) 0 (bytes - min bytes (bv.len - done)) fun x _ => Nat.zero_le _
        refine ⟨n + 1, ?_, hin, ?_⟩
        · rw [hidx]
          omega
        · rw [List.drop_succ_cons, hbytes, List.drop_zero, drop_bvecBytes_cons hdone]
          have hle : bv.len - done ≤ bytes := by omega
          have hmin : min bytes (bv.len - done) = bv.len - done := Nat.min_eq_right hle
          have hpast : ((List.range (bv.len - done)).map fun k => (bv.page, bv.offset + done + k)).length ≤ bytes := by
            rwa [List.length_map, List.length_range]
          rw [hmin, List.drop_append, List.drop_eq_nil_of_le hpast, List.nil_append, List.length_map, List.length_range]
      · rename_i hend
        refine ⟨0, rfl, ?_, ?_⟩
        · intro x hx
          obtain rfl : bv = x := Option.some.inj hx
          dsimp only
          omega
        · have hmin : min bytes (bv.len - done) = bytes := by omega
          rw [List.drop_zero, hmin, List.drop_drop]

theorem iterBytes_advance (h : InBio vecs it) (bytes : ℕ) :
    iterBytes vecs (bioAdvanceIter vecs it bytes) = (iterBytes vecs it).drop bytes := by
  obtain ⟨n, hidx, -, hbytes⟩ := bvecAdvance_bytes (vecs.drop it.idx) it.idx it.done bytes h.inside
  unfold iterBytes bioAdvanceIter
  dsimp only
  rw [hidx, ← List.drop_drop]
  exact hbytes

theorem InBio.advance (h : InBio vecs it) (bytes : ℕ) : InBio vecs (bioAdvanceIter vecs it bytes) := by
  refine ⟨?_, ?_⟩
  · obtain ⟨n, hidx, hin, -⟩ := bvecAdvance_bytes (vecs.drop it.idx) it.idx it.done bytes h.inside
    unfold bioAdvanceIter
    dsimp only
    rw [hidx, ← List.drop_drop]
    exact hin
  · rw [iterBytes_advance h, List.length_drop]
    exact Nat.sub_le_sub_right h.size bytes

/-- One byte for each address. -/
def storeAll (addrs : List (ℕ × ℕ)) (data : List Byte) : List MemWrite :=
  List.zipWith (fun a byte => ⟨a.1, a.2, byte⟩) addrs data

private theorem bvcpyLoop_eq (data : List Byte) (l : List BioVec) (soff : ℕ)
    (h : soff + (bvecBytes l).length ≤ data.length) :
    bvcpyLoop data soff l = storeAll (bvecBytes l) (data.drop soff) := by
  induction l generalizing soff with
  | nil => rfl
  | cons bv rest ih =>
    have hlen : (bvecBytes (bv :: rest)).length = bv.len + (bvecBytes rest).length := by
      simp [bvecBytes_cons]
    rw [hlen] at h
    have hcopy : skbCopyBits data soff bv =
        storeAll ((List.range bv.len).map fun k => (bv.page, bv.offset + k)) ((data.drop soff).take bv.len) := by
      unfold skbCopyBits storeAll
      apply List.ext_getElem
      · simp only [List.length_map, List.length_range, List.length_zipWith, List.length_take, List.length_drop]
        omega
      · intro i hi hi'
        simp only [List.length_map, List.length_range] at hi
        simp only [List.getElem_map, List.getElem_range, List.getElem_zipWith, List.getElem_take, List.getElem_drop]
        rw [List.getD_eq_getElem _ _ (by omega)]
    have hsplit : data.drop soff = (data.drop soff).take bv.len ++ data.drop (soff + bv.len) := by
      rw [← List.drop_drop, List.take_append_drop]
    rw [bvcpyLoop, ih (soff + bv.len) (by omega), hcopy, bvecBytes_cons]
    conv_rhs => rw [hsplit]
    unfold storeAll
    rw [List.zipWith_append]
    simp only [List.length_map, List.length_range, List.length_take, List.length_drop]
    omega

theorem bvcpy_eq (h : InBio vecs it) {data : List Byte} {cnt : ℕ} (hcnt : cnt ≤ it.size) (hdata : cnt ≤ data.length) :
    bvcpy data vecs it cnt = storeAll ((iterBytes vecs it).take cnt) (data.take cnt) := by
  have hbytes := bytes_segments h cnt
  have hlen : ((iterBytes vecs it).take cnt).length = cnt := by
    rw [List.length_take]
    exact Nat.min_eq_left (hcnt.trans h.size)
  unfold bvcpy
  rw [bvcpyLoop_eq _ _ _ (by rw [hbytes, hlen, Nat.zero_add]; exact hdata), hbytes, List.drop_zero]
  unfold storeAll
  conv_lhs => rw [List.zipWith_eq_zipWith_take_min]
  simp only [hlen, Nat.min_eq_left hdata, List.take_take, Nat.min_self]

end Bytes

end AoeDriver
