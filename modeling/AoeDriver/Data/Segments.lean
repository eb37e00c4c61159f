import AoeDriver.Model.Bio

/-!
# Segments of whole sectors

A bio whose segments are whole sectors is cut into frames at sector boundaries only. Every piece of a segment in a
frame then has at least one sector, so that a frame has no more pieces than sectors.
-/

namespace AoeDriver

/-- The segments from a position on are whole sectors, and the position lies between two sectors. -/
structure Sectors (l : List BioVec) (done : ℕ) : Prop where
  whole : ∀ bv ∈ l, 0 < bv.len ∧ 512 ∣ bv.len
  inside : ∀ bv ∈ l.head?, done < bv.len
  done : 512 ∣ done

/-- A range of whole sectors in a bio with segments of whole sectors. -/
structure Sectored (vecs : List BioVec) (it : BvecIter) : Prop where
  sectors : Sectors (vecs.drop it.idx) it.done
  size : 512 ∣ it.size

/-- The positions that `aoecmd_ata_rw` can leave in a buf, cut after cut, for any values of `maxbcnt` in whole sectors. -/
inductive CutTo (vecs : List BioVec) (start : BvecIter) : BvecIter → Prop where
  | start : CutTo vecs start start
  | cut {it : BvecIter} {maxbcnt : ℕ} : CutTo vecs start it → 512 ∣ maxbcnt →
    CutTo vecs start (bioAdvanceIter vecs it (cutIter maxbcnt it).size)

section Sectors

variable {bv : BioVec} {rest l vecs : List BioVec} {done size bytes maxbcnt : ℕ} {it pos : BvecIter}

theorem Sectors.left (h : Sectors (bv :: rest) done) : 512 ∣ bv.len - done ∧ 512 ≤ bv.len - done := by
  have hlt := h.inside bv rfl
  have hdvd := Nat.dvd_sub (h.whole bv List.mem_cons_self).2 h.done
  exact ⟨hdvd, Nat.le_of_dvd (Nat.sub_pos_of_lt hlt) hdvd⟩

theorem Sectors.tail (h : Sectors (bv :: rest) done) : Sectors rest 0 where
  whole x hx := h.whole x (List.mem_cons_of_mem _ hx)
  inside x hx := (h.whole x (List.mem_cons_of_mem _ (List.mem_of_mem_head? hx))).1
  done := dvd_zero _

theorem dvd_min (hs : 512 ∣ size) (hb : 512 ∣ bytes) : 512 ∣ min size bytes := by
  rcases min_choice size bytes with h | h <;> rw [h] <;> assumption

private theorem bvecSegments_length (l : List BioVec) : ∀ {done size : ℕ}, Sectors l done → 512 ∣ size →
    512 * (bvecSegments l done size).length ≤ size := by
  induction l with
  | nil =>
    intro done size _ _
    simp [bvecSegments]
  | cons bv rest ih =>
    intro done size h hs
    rw [bvecSegments]
    split
    · simp
    · rename_i hne
      obtain ⟨hdvd, hle⟩ := h.left
      have hpos : 512 ≤ size := Nat.le_of_dvd (Nat.pos_of_ne_zero hne) hs
      have hrest := ih h.tail (Nat.dvd_sub hs (dvd_min hs hdvd))
      rw [List.length_cons]
      omega

theorem segments_length (h : Sectored vecs it) : 512 * (bioForEachSegment vecs it).length ≤ it.size :=
  bvecSegments_length _ h.sectors h.size

private theorem bvecAdvance_sectors (l : List BioVec) : ∀ {done bytes : ℕ} (idx : ℕ), Sectors l done → 512 ∣ bytes →
    ∃ k, (bvecAdvance l idx done bytes).1 = idx + k ∧ Sectors (l.drop k) (bvecAdvance l idx done bytes).2 := by
  induction l with
  | nil =>
    intro done bytes idx h _
    exact ⟨0, rfl, h⟩
  | cons bv rest ih =>
    intro done bytes idx h hb
    rw [bvecAdvance]
    have hdvd := dvd_min hb h.left.1
    split
    · exact ⟨0, rfl, h⟩
    · split
      · obtain ⟨k, hk, hs⟩ := ih (idx + 1) h.tail (Nat.dvd_sub hb hdvd)
        exact ⟨k + 1, by rw [hk]; omega, hs⟩
      · rename_i hend
        refine ⟨0, rfl, h.whole, ?_, Nat.dvd_add h.done hdvd⟩
        intro x hx
        obtain rfl : bv = x := by simpa using hx
        have hin := h.inside bv rfl
        show done + min bytes (bv.len - done) < bv.len
        omega

theorem Sectored.advance (h : Sectored vecs it) (hb : 512 ∣ bytes) : Sectored vecs (bioAdvanceIter vecs it bytes) := by
  obtain ⟨k, hk, hs⟩ := bvecAdvance_sectors (vecs.drop it.idx) it.idx h.sectors hb
  refine ⟨?_, Nat.dvd_sub h.size hb⟩
  rw [List.drop_drop] at hs
  show Sectors (vecs.drop (bvecAdvance (vecs.drop it.idx) it.idx it.done bytes).1) _
  rw [hk]
  exact hs

theorem Sectored.cutIter (h : Sectored vecs it) (hm : 512 ∣ maxbcnt) : Sectored vecs (cutIter maxbcnt it) where
  sectors := h.sectors
  size := by
    refine dvd_min ?_ h.size
    split
    · decide
    · exact hm

theorem CutTo.sectored (h : CutTo vecs it pos) (hit : Sectored vecs it) : Sectored vecs pos := by
  induction h with
  | start => exact hit
  | cut _ hm ih => exact ih.advance (ih.cutIter hm).size

end Sectors

/-- A bio of `n` segments of one sector each. -/
def sectorBio (n : ℕ) : Bio :=
  { vecs := List.replicate n ⟨0, 0, 512⟩, iter := { sector := 0, size := n * 512, idx := 0, done := 0 }, error := false }

theorem sectorBio_sectored (n : ℕ) : Sectored (sectorBio n).vecs (sectorBio n).iter := by
  have hmem {bv : BioVec} (h : bv ∈ List.replicate n ⟨0, 0, 512⟩) : bv.len = 512 := by
    rw [List.eq_of_mem_replicate h]
  refine ⟨⟨fun bv h => ?_, fun bv h => ?_, dvd_zero _⟩, Nat.dvd_mul_left _ _⟩
  · rw [hmem h]
    decide
  · rw [hmem (List.mem_of_mem_head? h)]
    exact Nat.zero_lt_succ 511

private theorem bvecSegments_replicate (n : ℕ) : ∀ k ≤ n,
    (bvecSegments (List.replicate n ⟨0, 0, 512⟩) 0 (k * 512)).length = k := by
  induction n with
  | zero =>
    intro k hk
    simp [bvecSegments, Nat.le_zero.mp hk]
  | succ n ih =>
    intro k hk
    rw [List.replicate_succ, bvecSegments]
    cases k with
    | zero => rfl
    | succ k =>
      have hsize : (k + 1) * 512 - min ((k + 1) * 512) (512 - 0) = k * 512 := by omega
      rw [if_neg (by omega), List.length_cons, hsize, ih k (by omega)]

theorem sectorBio_segments {n k : ℕ} (hk : k ≤ n) (h0 : k ≠ 0) :
    (bioForEachSegment (sectorBio n).vecs (cutIter (k * 512) (sectorBio n).iter)).length = k := by
  have hsize : (cutIter (k * 512) (sectorBio n).iter).size = k * 512 := by
    simp only [cutIter, sectorBio]
    rw [if_neg (by omega)]
    omega
  rw [bioForEachSegment, hsize]
  exact bvecSegments_replicate n k hk

theorem probeFrags_length (fuel : ℕ) : ∀ n ≤ fuel, (probeFrags fuel n).length = (n + 4095) / 4096 := by
  induction fuel with
  | zero =>
    intro n hn
    simp [probeFrags, Nat.le_zero.mp hn]
  | succ fuel ih =>
    intro n hn
    rw [probeFrags]
    split
    · rename_i h
      simp [h]
    · rename_i h
      have hpage : PAGE_SIZE = 4096 := rfl
      rw [List.length_cons, ih _ (by omega), hpage]
      omega

end AoeDriver
