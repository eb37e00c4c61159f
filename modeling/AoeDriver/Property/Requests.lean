import AoeDriver.Property.Frames

/-!
# Exactly-once completion

The counters of bufs and requests in every reachable state.
-/

namespace AoeDriver

open Tables

/-- Frames in use that refer to buf `b`. -/
def Aoedev.framesOf (d : Aoedev) (b : ℕ) : ℕ := (d.listedFrames ++ d.heldFrames).countP (·.buf = some b)

/-- Bios of a request that have a buf. -/
def Aoedev.liveBios (d : Aoedev) (rq : Request) : ℕ :=
  (List.range rq.bios.length).countP fun i => d.bufs.any fun b => b.rq = rq.id ∧ b.bio = i

/-- Bios from `d->ip.nxbio` on, if the request is in process. -/
def Aoedev.unissued (d : Aoedev) (rq : Request) : ℕ := d.blk.rest rq

section Counting

variable {d : Aoedev}

private theorem count_duties (s : Multiset Frame) (b : ℕ) :
    ((duties s).map Duty.buf).count b = s.countP (·.buf = some b) := by
  induction s using Multiset.induction with
  | empty => rfl
  | cons f s ih =>
    rw [duties_cons, Multiset.map_add, Multiset.count_add, ih, Multiset.countP_cons]
    cases hb : f.buf with
    | none => simp [duties_singleton_none (Frame.duty_none hb)]
    | some b' =>
      have hduty : f.duty = some ⟨b', f.cmd, f.iter, (f.skb.getD default).ata⟩ := by rw [Frame.duty, hb, Option.map_some]
      rw [duties_singleton_some hduty, Multiset.map_singleton, Multiset.count_singleton, add_comm]
      simp [eq_comm]

private theorem coe_inPlay (d : Aoedev) :
    ((d.listedFrames ++ d.heldFrames : List Frame) : Multiset Frame) = (d.ledger 0).inPlay := by
  rw [← Multiset.coe_add, coe_listedFrames, coe_heldFrames, Ledger.inPlay, Ledger.pending, add_assoc, add_assoc, add_assoc]

theorem count_refs (d : Aoedev) (b : ℕ) : (stage 0 d).refs.count b = d.framesOf b := by
  have hrefs : (stage 0 d).refs = (duties (d.ledger 0).inPlay).map Duty.buf := by
    rw [Stage.refs, stage, duties, duties, ← Multiset.filterMap_add]
    rfl
  rw [hrefs, count_duties, Aoedev.framesOf, ← coe_inPlay, Multiset.coe_countP]

private theorem countP_liveBios {B : Multiset ℕ} (h : Acct d.blk B) {rq : Request} (hrq : rq ∈ d.rqs) :
    d.bufs.countP (·.rq = rq.id) = d.liveBios rq := by
  let mine := d.bufs.filter fun b => b.rq = rq.id
  have hmine {b : Buf} (hb : b ∈ mine) : b ∈ d.bufs ∧ b.rq = rq.id := by simpa [mine] using hb
  have hnodup : (mine.map Buf.bio).Nodup := by
    have hpairs : (mine.map fun b => (b.rq, b.bio)).Nodup := h.bioOnce.sublist (List.filter_sublist.map _)
    have hfst : (mine.map Buf.bio).map (fun i => (rq.id, i)) = mine.map fun b => (b.rq, b.bio) := by
      rw [List.map_map]
      refine List.map_congr_left fun b hb => ?_
      rw [Function.comp, (hmine hb).2]
    exact List.Nodup.of_map _ (hfst ▸ hpairs)
  have hlt : ∀ i ∈ mine.map Buf.bio, i < rq.bios.length := by
    intro i hi
    obtain ⟨b, hb, rfl⟩ := List.mem_map.mp hi
    obtain ⟨rq', hrq', hid, hlt⟩ := h.bufRq b (hmine hb).1
    have heq : rq' = rq := by
      rw [← h.rqAt_mem hrq', ← h.rqAt_mem hrq, hid, (hmine hb).2]
    exact heq ▸ hlt
  have hlen := length_eq_countP_range hnodup hlt
  rw [List.length_map] at hlen
  rw [List.countP_eq_length_filter, hlen, Aoedev.liveBios]
  refine List.countP_congr fun i _ => ?_
  simp [mine, and_comm, and_left_comm, and_assoc]

end Counting

/-- The counters of bufs and requests are exact, every request ends once, and nothing is released too early. -/
theorem completion_exactly_once {d : Aoedev} (h : Reached d) :
    (∀ b ∈ d.bufs, b.nframesout = d.framesOf b.id) ∧
    (∀ rq ∈ d.rqs, rq.special = d.liveBios rq + d.unissued rq ∧ rq.special ≠ 0) ∧
    (d.queue.map Request.id ++ (d.rqs.map Request.id ++ d.hist.ended.map (·.rq.id))).Nodup ∧
    (∀ e ∈ d.hist.ended, (e.fastfail = false → e.rq.special = 0) ∧
      (e.fastfail = true → ∀ i, (e.rq.id, i) ∉ d.hist.taken)) ∧
    (∀ c ∈ d.hist.underflow, c ≠ .nframesout ∧ c ≠ .special) ∧
    ∀ f ∈ d.listedFrames ++ d.heldFrames, ∀ n, f.buf = some n →
      ∃ b ∈ d.bufs, b.id = n ∧ ∃ rq ∈ d.rqs, rq.id = b.rq := by
  have hb := (reachedBy_good h).1.books
  refine ⟨fun b hmem => ?_, fun rq hrq => ⟨?_, hb.due rq hrq⟩, hb.ids, hb.ended, ?_, ?_⟩
  · rw [← count_refs]
    exact hb.nframesout b hmem
  · rw [← countP_liveBios hb.toAcct hrq]
    exact hb.special rq hrq
  · intro c hc
    rw [hb.underflow c hc]
    exact ⟨by decide, by decide⟩
  · intro f hf n hn
    have hpos : 0 < d.framesOf n := List.countP_pos_iff.mpr ⟨f, hf, by simpa using hn⟩
    rw [← count_refs] at hpos
    have hheld := hb.held n (Multiset.count_pos.mp hpos)
    obtain ⟨b, hmem, hid⟩ := List.mem_map.mp hheld
    obtain ⟨rq, hrq, hrid, -⟩ := hb.bufRq b hmem
    exact ⟨b, hmem, hid, rq, hrq, hrid⟩

def sampleBufs : Scene unguarded sampleStart sampleEvents
    (fun d => d.bufs.length == 1 && d.bufs.all fun b => b.nframesout == 3) :=
  ⟨by decide +kernel⟩

theorem completion_exactly_once_sample : sample.bufs.length = 1 ∧ (∀ b ∈ sample.bufs, sample.framesOf b.id = 3) ∧
    ∀ rq ∈ sample.rqs, rq.special ≠ 0 := by
  have h := completion_exactly_once sample_reached
  have hbufs := sampleBufs.sample.2
  simp only [Bool.and_eq_true, beq_iff_eq, List.all_eq_true] at hbufs
  refine ⟨hbufs.1, fun b hb => ?_, fun rq hrq => (h.2.1 rq hrq).2⟩
  rw [← h.1 b hb, hbufs.2 b hb]

end AoeDriver
