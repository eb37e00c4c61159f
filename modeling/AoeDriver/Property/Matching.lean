import AoeDriver.Ledger.Tags
import AoeDriver.Property.Frames

/-!
# Responses and the frames they complete

A response completes the frame whose command was last sent under its tag, and no other.
-/

namespace AoeDriver

open Tables

section Matching

variable {d : Aoedev}

theorem reached_tagged (h : Reached d) : Tagged (d.ledger 0).log (d.ledger 0).listed := by
  refine reachedBy_ledger (C := Cond.any) (P := fun l => Tagged l.log l.listed) (fun s e _ _ => Cond.meets_any s e) ?_ ?_ h
  · intro s hs
    obtain ⟨-, -, hactive, hplay⟩ := initial_ledger hs
    have hlisted : (s.ledger 0).listed = 0 := by
      have hpending : (s.ledger 0).pending = 0 := (add_eq_zero.mp hplay).1
      exact (add_eq_zero.mp hpending).1
    rw [hlisted]
    obtain ⟨a, b, n, s, m, clock, c, rfl⟩ := hs
    have hhist : (default : Hist).xmits = [] ∧ (default : Hist).ntags = 0 := ⟨rfl, rfl⟩
    refine ⟨⟨rfl, rfl, ?_, ?_⟩, by simp, by simp, by simp, by simp⟩
    · intro x hx
      exact absurd hx List.not_mem_nil
    · intro x hx
      exact absurd hx List.not_mem_nil
  · exact fun l l' hs _ ht => hs.tagged ht

private theorem find_tag {l : List Frame} {tag : ℕ} {f : Frame} (hl : (l.map Frame.tag).Nodup) :
    l.find? (·.tag = tag) = some f ↔ f ∈ l ∧ f.tag = tag := by
  constructor
  · intro hfind
    exact ⟨List.mem_of_find?_eq_some hfind, by simpa using List.find?_some hfind⟩
  · rintro ⟨hmem, rfl⟩
    exact find_of_nodup hl hmem

private theorem rspMatch_snd (d : Aoedev) (r : Rsp) : (rspMatch d r).2 =
    ((d.factive (bucket r.tag)).find? (·.tag = r.tag)).or (d.rexmitq.find? (·.tag = r.tag)) := by
  unfold rspMatch getframe getframeDeferred takeTag
  cases (d.factive (bucket r.tag)).find? (·.tag = r.tag) with
  | some f => rfl
  | none =>
    cases d.rexmitq.find? (·.tag = r.tag) with
    | some f => rfl
    | none =>
      dsimp only [Option.map_none, Option.or]
      split
      · rfl
      · rfl

/-- Where frames sit in the bucket of their tag and all tags differ, the frame found is the one with the tag. -/
private theorem rspMatch_iff (hh : d.Hashed) (hnd : (d.listedFrames.map Frame.tag).Nodup) (r : Rsp) (f : Frame) :
    (rspMatch d r).2 = some f ↔ f ∈ d.listedFrames ∧ f.tag = r.tag := by
  rw [Aoedev.listedFrames, List.map_append, List.nodup_append] at hnd
  obtain ⟨hactive, hdefer, hdisj⟩ := hnd
  have hbucket : (d.factive (bucket r.tag)).map Frame.tag |>.Nodup := by
    refine hactive.sublist (List.Sublist.map _ ?_)
    rw [Aoedev.activeFrames, List.flatMap_def]
    exact List.sublist_flatten_of_mem (List.mem_map_of_mem (List.mem_finRange _))
  have hmem {g : Frame} : g ∈ d.activeFrames ∧ g.tag = r.tag ↔ g ∈ d.factive (bucket r.tag) ∧ g.tag = r.tag := by
    constructor
    · rintro ⟨hg, htag⟩
      obtain ⟨n, -, hn⟩ := List.mem_flatMap.mp hg
      have hb := hh n g hn
      rw [htag] at hb
      exact ⟨hb ▸ hn, htag⟩
    · rintro ⟨hg, htag⟩
      exact ⟨List.mem_flatMap.mpr ⟨_, List.mem_finRange _, hg⟩, htag⟩
  rw [rspMatch_snd, Aoedev.listedFrames, List.mem_append, or_and_right, hmem]
  cases hfind : (d.factive (bucket r.tag)).find? (·.tag = r.tag) with
  | some g =>
    have hg := (find_tag hbucket).mp hfind
    rw [Option.some_or, Option.some.injEq]
    constructor
    · rintro rfl
      exact .inl hg
    · rintro (hf | ⟨hf, htag⟩)
      · exact Option.some.inj (hfind.symm.trans ((find_tag hbucket).mpr hf))
      · have hga := (hmem.mpr hg).1
        exact absurd (hg.2.trans htag.symm) (hdisj _ (List.mem_map_of_mem hga) _ (List.mem_map_of_mem hf))
  | none =>
    rw [Option.none_or, find_tag hdefer]
    constructor
    · exact .inr
    · rintro (hf | hf)
      · exact absurd ((find_tag hbucket).mpr hf) (by rw [hfind]; simp)
      · exact hf

/-- Fewer than `2^15` tags have been given out since each waiting frame was last sent. -/
def Aoedev.recent (d : Aoedev) : Prop :=
  ∀ f ∈ d.listedFrames, ∀ x, lastXmit d.hist.xmits f.cmd = some x → d.hist.ntags - x.serial < 2^15

/-- Every waiting frame carries the tag of the last attempt of its command in its header, sits in the bucket of that
tag, and shares it with no other one. A response completes a frame exactly when it carries the tag of its last attempt,
and a response to an attempt that is not too old completes no frame but the one whose last attempt it was. -/
theorem response_matching (h : Reached d) (hrecent : d.recent) :
    (∀ f ∈ d.listedFrames, f.hdrTag = some f.tag ∧ ∃ x, lastXmit d.hist.xmits f.cmd = some x ∧ x.tag = f.tag) ∧
    (∀ n, ∀ f ∈ d.factive n, bucket f.tag = n) ∧
    (d.listedFrames.map Frame.tag).Nodup ∧
    (∀ r f, (rspMatch d r).2 = some f ↔
      f ∈ d.listedFrames ∧ ∃ x, lastXmit d.hist.xmits f.cmd = some x ∧ x.tag = r.tag) ∧
    ∀ r f, ∀ x ∈ d.hist.xmits, d.hist.ntags - x.serial < 2^15 → r.tag = x.tag → (rspMatch d r).2 = some f →
      lastXmit d.hist.xmits f.cmd = some x := by
  have ht := reached_tagged h
  have hlog : (d.ledger 0).log.xmits = d.hist.xmits ∧ (d.ledger 0).log.ntags = d.hist.ntags := ⟨rfl, rfl⟩
  have hlisted : (d.ledger 0).listed = (d.listedFrames : Multiset Frame) := (coe_listedFrames d).symm
  have hhashed := (reachedBy_good h).2
  have hlast {f : Frame} (hf : f ∈ d.listedFrames) : ∃ x, lastXmit d.hist.xmits f.cmd = some x ∧ x.tag = f.tag := by
    refine ht.last f ?_
    rw [hlisted]
    exact hf
  have hsame {f : Frame} {x y : Xmit} (hf : f ∈ d.listedFrames) (hy : lastXmit d.hist.xmits f.cmd = some y)
      (hx : x ∈ d.hist.xmits) (hxr : d.hist.ntags - x.serial < 2^15) (htag : y.tag = x.tag) : y = x :=
    xmit_eq_of_tag ht.sound (lastXmit_mem hy).1 hx (hrecent f hf y hy) hxr htag
  have hnodup : (d.listedFrames.map Frame.tag).Nodup := by
    have hcmds : (d.listedFrames.map Frame.cmd).Nodup := by
      have hc := ht.cmds
      rw [hlisted, Multiset.map_coe, Multiset.coe_nodup] at hc
      exact hc
    -- equal tags mean the same attempt, and so the same command
    refine List.Nodup.map_on ?_ (List.Nodup.of_map _ hcmds)
    intro f hf g hg htag
    obtain ⟨x, hx, hxtag⟩ := hlast hf
    obtain ⟨y, hy, hytag⟩ := hlast hg
    have hxy : x = y := by
      refine hsame hf hx (lastXmit_mem hy).1 (hrecent g hg y hy) ?_
      rw [hxtag, hytag, htag]
    have hcmd : f.cmd = g.cmd := by
      rw [← (lastXmit_mem hx).2, ← (lastXmit_mem hy).2, hxy]
    exact List.inj_on_of_nodup_map hcmds hf hg hcmd
  have hmatch (r : Rsp) (f : Frame) : (rspMatch d r).2 = some f ↔
      f ∈ d.listedFrames ∧ ∃ x, lastXmit d.hist.xmits f.cmd = some x ∧ x.tag = r.tag := by
    rw [rspMatch_iff hhashed hnodup]
    constructor
    · rintro ⟨hf, htag⟩
      obtain ⟨x, hx, hxtag⟩ := hlast hf
      exact ⟨hf, x, hx, hxtag.trans htag⟩
    · rintro ⟨hf, y, hy, hytag⟩
      obtain ⟨x, hx, hxtag⟩ := hlast hf
      rw [hx, Option.some.injEq] at hy
      rw [← hy] at hytag
      exact ⟨hf, hxtag.symm.trans hytag⟩
  refine ⟨fun f hf => ⟨?_, hlast hf⟩, hhashed, hnodup, hmatch, ?_⟩
  · refine ht.hdr f ?_
    rw [hlisted]
    exact hf
  · intro r f x hx hxr hrx hsome
    obtain ⟨hf, y, hy, hytag⟩ := (hmatch r f).mp hsome
    rw [← hsame hf hy hx hxr (hytag.trans hrx)]
    exact hy

end Matching

/-- The sample run has sent two frames of a request that are still waiting, under the tags of the third and fourth
attempts. -/
def sampleWaiting : Scene unguarded sampleStart sampleEvents
    (fun d => d.listedFrames.length == 2 && d.hist.ntags == 4 && (rspMatch d (sampleRsp 3 0)).2.isSome) :=
  ⟨by decide +kernel⟩

theorem response_matching_sample : ∃ f, (rspMatch sample (sampleRsp 3 0)).2 = some f ∧ f ∈ sample.listedFrames ∧
    ∃ x, lastXmit sample.hist.xmits f.cmd = some x ∧ x.tag = (sampleRsp 3 0).tag := by
  obtain ⟨hreach, htest⟩ := sampleWaiting.sample
  generalize sample = d at hreach htest ⊢
  simp only [Bool.and_eq_true, beq_iff_eq] at htest
  obtain ⟨⟨-, hntags⟩, hsome⟩ := htest
  have hrecent : d.recent := by
    intro f _ x _
    rw [hntags]
    omega
  obtain ⟨f, hf⟩ := Option.isSome_iff_exists.mp hsome
  have hmatch := (response_matching hreach hrecent).2.2.2.1 (sampleRsp 3 0) f
  exact ⟨f, hf, hmatch.mp hf⟩

end AoeDriver
