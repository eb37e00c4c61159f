import AoeDriver.Library.Indexed
import AoeDriver.Model.Teardown
import AoeDriver.Property.Flush
import AoeDriver.Property.Interfaces
import AoeDriver.Property.Packets
import AoeDriver.Property.Failure

/-!
# What a freed device gives back

`freedev` frees what hangs on the targets and in the pool. The invariants of the running device say that this is
everything but the frames somebody still has, and nothing twice.
-/

namespace AoeDriver

open Tables

section Waits

private theorem skbfreeWait_iff (dataref : ℕ → ℕ) (k i : ℕ) :
    skbfreeWait dataref k i = true ↔ ∃ j ≤ i, dataref (k + j) = 1 := by
  induction i generalizing k with
  | zero => simp [skbfreeWait]
  | succ i ih =>
    simp only [skbfreeWait, Bool.or_eq_true, decide_eq_true_eq, ih]
    constructor
    · rintro (h | ⟨j, hj, h⟩)
      · exact ⟨0, Nat.zero_le _, h⟩
      · refine ⟨j + 1, by omega, ?_⟩
        rw [← h]
        congr 1
        omega
    · rintro ⟨j, hj, h⟩
      cases j with
      | zero => exact .inl h
      | succ j =>
        refine .inr ⟨j, by omega, ?_⟩
        rw [← h]
        congr 1
        omega

end Waits

section Parts

variable {dataref : ℕ → ℕ → ℕ}

private theorem putIfs_leading (l : List Aoeif) : putIfs l = leading (l.map Aoeif.nd) := by
  induction l with
  | nil => rfl
  | cons ifp l ih =>
    cases h : ifp.nd with
    | none => simp [putIfs, leading, h]
    | some nd => simp [putIfs, leading, h, ih]

/-- The packets that leave the driver, freed or lost. -/
def Release.packets (r : Release) : List ℕ := r.skbs ++ r.leaked

private theorem all_packets (l : List Release) : (Release.all l).packets.Perm (l.flatMap Release.packets) := by
  rw [← Multiset.coe_eq_coe, Release.packets, ← Multiset.coe_add]
  exact (flatMap_append_coe l Release.skbs Release.leaked).symm

private theorem skbfree_packets (o : Option Skb) : (skbfree dataref o).packets = (o.map Skb.id).toList := by
  cases o with
  | none => rfl
  | some skb =>
    simp only [skbfree]
    split <;> rfl

private theorem skbfree_targets (o : Option Skb) : (skbfree dataref o).targets = 0 := by
  cases o with
  | none => rfl
  | some skb =>
    simp only [skbfree]
    split <;> rfl

private theorem skbfree_puts (o : Option Skb) : (skbfree dataref o).puts = [] := by
  cases o with
  | none => rfl
  | some skb =>
    simp only [skbfree]
    split <;> rfl

private theorem freetgt_packets (i : ℕ) (t : Aoetgt) :
    (freetgt dataref i t).packets.Perm (t.ffree.filterMap Frame.packet) := by
  refine (all_packets _).trans (.of_eq ?_)
  simp only [List.flatMap_append, List.flatMap_cons, List.flatMap_nil, Release.packets, Release.nothing, List.append_nil,
    List.nil_append, List.flatMap_map]
  induction t.ffree with
  | nil => rfl
  | cons f l ih =>
    have hf : (freeFrame dataref f).skbs ++ (freeFrame dataref f).leaked = f.packet.toList := skbfree_packets f.skb
    rw [List.flatMap_cons, ih, hf, List.filterMap_cons]
    cases f.packet <;> rfl

end Parts

section Device

variable {dataref : ℕ → ℕ → ℕ} {d : Aoedev}

private theorem freedev_frames : (freedev dataref d).frames = (d.targets.flatMap Aoetgt.ffree).map Frame.id := by
  have htgt (i : ℕ) (t : Aoetgt) : (freetgt dataref i t).frames = t.ffree.map Frame.id := by
    simp only [freetgt, Release.all, List.flatMap_append, List.flatMap_cons, List.flatMap_nil, Release.nothing,
      List.append_nil, List.nil_append, List.flatMap_map]
    exact (List.map_eq_flatMap ..).symm
  have hpool : (skbpoolfree dataref d.skbpool).frames = [] := by
    simp only [skbpoolfree, Release.all, List.flatMap_map, skbfree]
    rw [List.flatMap_eq_nil_iff]
    intro skb _
    split <;> rfl
  simp only [freedev, Release.all, List.flatMap_append, List.flatMap_cons, List.flatMap_nil, List.append_nil, hpool]
  rw [flatMap_mapIdx _ _ _ (fun t => t.ffree.map Frame.id) htgt, List.map_flatMap]

private theorem freedev_targets : (freedev dataref d).targets = d.targets.length := by
  have htgt (i : ℕ) (t : Aoetgt) : (freetgt dataref i t).targets = 1 := by
    have hframes (l : List Frame) : ((l.map (freeFrame dataref)).map Release.targets).sum = 0 := by
      simp only [List.map_map]
      apply List.sum_eq_zero
      simp only [List.mem_map, Function.comp_apply, forall_exists_index, and_imp, forall_apply_eq_imp_iff₂]
      intro f _
      rw [freeFrame]
      exact skbfree_targets f.skb
    simp only [freetgt, Release.all, List.map_append, List.sum_append, hframes]
    rfl
  have hpool : (skbpoolfree dataref d.skbpool).targets = 0 := by
    simp only [skbpoolfree, Release.all, List.map_map]
    apply List.sum_eq_zero
    simp only [List.mem_map, Function.comp_apply, forall_exists_index, and_imp, forall_apply_eq_imp_iff₂]
    intro skb _
    exact skbfree_targets (some skb)
  have hsum (l : List Aoetgt) (g : ℕ → Aoetgt → Release) (hg : ∀ i t, (g i t).targets = 1) :
      ((l.mapIdx g).map Release.targets).sum = l.length := by
    induction l generalizing g with
    | nil => rfl
    | cons t l ih =>
      rw [List.mapIdx_cons, List.map_cons, List.sum_cons, hg, ih _ fun i t => hg (i + 1) t, List.length_cons, add_comm]
  simp only [freedev, Release.all, List.map_append, List.sum_append, hsum _ _ htgt]
  simp [hpool]

private theorem freedev_puts (i : ℕ) (nd : NetDev) (hi : i < d.targets.length) :
    (freedev dataref d).puts.count (i, nd) = (leading (d.tgtAt i).nds).count nd := by
  have htgt (i : ℕ) (t : Aoetgt) : (freetgt dataref i t).puts = (putIfs t.ifs).map fun nd => (i, nd) := by
    have hframes (l : List Frame) : (l.map (freeFrame dataref)).flatMap Release.puts = [] := by
      rw [List.flatMap_map, List.flatMap_eq_nil_iff]
      intro f _
      exact skbfree_puts f.skb
    simp only [freetgt, Release.all, List.flatMap_append, hframes]
    simp [Release.nothing]
  have hpool : (skbpoolfree dataref d.skbpool).puts = [] := by
    simp only [skbpoolfree, Release.all]
    rw [List.flatMap_map, List.flatMap_eq_nil_iff]
    intro skb _
    exact skbfree_puts (some skb)
  simp only [freedev, Release.all, List.flatMap_append, List.flatMap_cons, List.flatMap_nil, List.append_nil, hpool]
  rw [count_mapIdx _ _ _ (fun t => putIfs t.ifs) htgt, if_pos hi, putIfs_leading]
  rfl

private theorem freedev_packets : (freedev dataref d).packets.Perm
    ((d.targets.flatMap Aoetgt.ffree).filterMap Frame.packet ++ d.skbpool.map Skb.id) := by
  have hpool : (skbpoolfree dataref d.skbpool).packets.Perm (d.skbpool.map Skb.id) := by
    refine (all_packets _).trans (.of_eq ?_)
    rw [List.flatMap_map, List.map_eq_flatMap]
    simp only [skbfree_packets, Option.map_some, Option.toList_some]
  have htgt (l : List Aoetgt) (g : ℕ → Aoetgt → Release)
      (hg : ∀ i t, (g i t).packets.Perm (t.ffree.filterMap Frame.packet)) :
      ((l.mapIdx g).flatMap Release.packets).Perm ((l.flatMap Aoetgt.ffree).filterMap Frame.packet) := by
    induction l generalizing g with
    | nil => exact .refl _
    | cons t l ih =>
      rw [List.mapIdx_cons, List.flatMap_cons, List.flatMap_cons, List.filterMap_append]
      exact (hg 0 t).append (ih _ fun i t => hg (i + 1) t)
  refine (all_packets _).trans ?_
  rw [List.flatMap_append, List.flatMap_singleton]
  exact (htgt _ _ fun i t => freetgt_packets i t).append hpool

/-- A packet is given up only after the last reading. -/
private theorem freedev_leaked {i : ℕ} (hi : i ∈ (freedev dataref d).leaked) : ∀ k ≤ SKBFREE_WAITS, dataref i k ≠ 1 := by
  have hone (o : Option Skb) {i : ℕ} (hi : i ∈ (skbfree dataref o).leaked) : ∀ k ≤ SKBFREE_WAITS, dataref i k ≠ 1 := by
    cases o with
    | none => simp [skbfree, Release.nothing] at hi
    | some skb =>
      simp only [skbfree] at hi
      split at hi
      · simp [Release.nothing] at hi
      · rename_i hw
        simp only [List.mem_singleton] at hi
        subst hi
        intro k hk href
        apply hw
        rw [skbfreeWait_iff]
        exact ⟨k, hk, by simpa using href⟩
  simp only [freedev, Release.all, List.flatMap_append, List.mem_append, List.mem_flatMap] at hi
  rcases hi with ⟨r, hr, hi⟩ | ⟨r, hr, hi⟩
  · obtain ⟨j, hj, rfl⟩ := List.mem_mapIdx.mp hr
    simp only [freetgt, Release.all, List.flatMap_append, List.mem_append, List.mem_flatMap, Release.nothing] at hi
    rcases hi with (hi | ⟨r, hr, hi⟩) | hi
    · simp at hi
    · obtain ⟨f, -, rfl⟩ := List.mem_map.mp hr
      exact hone f.skb hi
    · simp at hi
  · rw [List.mem_singleton] at hr
    subst hr
    simp only [skbpoolfree, Release.all, List.mem_flatMap] at hi
    obtain ⟨r, hr, hi⟩ := hi
    obtain ⟨skb, -, rfl⟩ := List.mem_map.mp hr
    exact hone (some skb) hi

private theorem freedev_unleaked (h : ∀ i ∈ (freedev dataref d).leaked, ∃ k ≤ SKBFREE_WAITS, dataref i k = 1) :
    (freedev dataref d).leaked = [] := by
  rw [List.eq_nil_iff_forall_not_mem]
  intro i hi
  obtain ⟨k, hk, hread⟩ := h i hi
  exact freedev_leaked hi k hk hread

end Device

section Reachable

variable {dataref : ℕ → ℕ → ℕ} {d : Aoedev}

private theorem length_allFrames (h : Reached d) : d.allFrames.length = (d.targets.map Aoetgt.falloc).sum := by
  obtain ⟨-, hlt, hcount⟩ := frames_conserved h
  have htargets : d.targets.map Aoetgt.falloc = (List.range d.targets.length).map fun i => (d.tgtAt i).falloc := by
    apply List.ext_getElem
    · simp
    · intro i hi hi'
      simp at hi
      simp [Aoedev.tgtAt, hi]
  rw [htargets, ← sum_countP_range d.allFrames Frame.t d.targets.length hlt]
  congr 1
  apply List.map_congr_left
  intro i hi
  exact (hcount i (List.mem_range.mp hi)).1

private theorem packets_range (h : Reached d) : (d.framePackets ++ d.skbpool.map Skb.id).Perm (List.range d.skbIds) := by
  rw [← Multiset.coe_eq_coe, ← Multiset.coe_add, coe_framePackets]
  exact (reachedBy_stowed h).owners

/-- Whenever a device is freed, `freedev` frees no frame twice and every frame that is neither listed nor held, and
likewise every packet, except those that have other users in all 121 readings; and it puts each interface as often as
it is still held. -/
theorem freedev_releases (h : Reached d) (dataref : ℕ → ℕ → ℕ) :
    ((freedev dataref d).frames ++ (d.listedFrames ++ d.heldFrames).map Frame.id).Nodup ∧
    (freedev dataref d).frames.length + (d.listedFrames ++ d.heldFrames).length = (d.targets.map Aoetgt.falloc).sum ∧
    ((freedev dataref d).skbs ++ (freedev dataref d).leaked ++
      (d.listedFrames ++ d.heldFrames).filterMap Frame.packet).Perm (List.range d.skbIds) ∧
    (∀ i ∈ (freedev dataref d).leaked, ∀ k ≤ SKBFREE_WAITS, dataref i k ≠ 1) ∧
    (∀ i < d.targets.length, ∀ nd, d.hist.holds.count (i, nd) =
      (d.hist.ejects.countP fun x => x.t = i ∧ (x.tgt.ifAt x.slot).nd = some nd) + (freedev dataref d).puts.count (i, nd)) ∧
    (freedev dataref d).targets = d.targets.length := by
  have hall : d.allFrames = d.targets.flatMap Aoetgt.ffree ++ (d.listedFrames ++ d.heldFrames) := List.append_assoc ..
  refine ⟨?_, ?_, ?_, fun i hi => freedev_leaked hi, ?_, freedev_targets⟩
  · rw [freedev_frames, ← List.map_append, ← hall]
    exact (frames_conserved h).1
  · rw [freedev_frames, List.length_map, ← List.length_append, ← hall]
    exact length_allFrames h
  · have hframes : d.framePackets = (d.targets.flatMap Aoetgt.ffree).filterMap Frame.packet ++
        (d.listedFrames ++ d.heldFrames).filterMap Frame.packet := by
      rw [Aoedev.framePackets, hall, List.filterMap_append]
    have howned := packets_range h
    rw [hframes] at howned
    refine (freedev_packets.append_right _).trans (List.Perm.trans ?_ howned)
    rw [List.append_assoc, List.append_assoc]
    exact List.perm_append_comm.append_left _
  · intro i hi nd
    have htable := reached_tabled h
    have hwired : Wired (d.tgtAt i) := by
      have hbare : (d.tgtAt i).bare ∈ (d.traffic 0).targets := List.mem_map_of_mem (mem_of_getD hi)
      exact (htable.wired _ hbare).congr rfl rfl
    rw [htable.interfaces.references i hi nd, freedev_puts i nd hi, ← Multiset.coe_count,
      coe_leading (nds_packed hwired.live), Multiset.count_eq_of_nodup hwired.distinct]
    simp only [mem_entries]

/-- The identify command is over, and its frame is back. -/
def sampleTeardown : Scene unguarded sampleStart sampleUp
    (fun d => (freedev (fun _ _ => 1) d).frames.length == 1 && (d.targets.map Aoetgt.falloc).sum == 1) :=
  ⟨by decide +kernel⟩

theorem freedev_releases_sample : ∃ d, Reached d ∧ (freedev (fun _ _ => 1) d).frames.length = 1 ∧
    (d.listedFrames ++ d.heldFrames).length = 0 ∧ (freedev (fun _ _ => 1) d).leaked = [] := by
  obtain ⟨d, -, hreach, htest⟩ := sampleTeardown.last sampleStart_initial
  have hd : Reached d := hreach.mono fun _ _ _ _ => trivial
  simp only [Bool.and_eq_true, beq_iff_eq] at htest
  obtain ⟨-, hsum, -, hleak, -, -⟩ := freedev_releases hd (fun _ _ => 1)
  refine ⟨d, hd, htest.1, by omega, ?_⟩
  rw [List.eq_nil_iff_forall_not_mem]
  intro i hi
  exact hleak i hi 0 (Nat.zero_le _) rfl

end Reachable

section Flushed

variable {w : World} {n : Node} {str : List Char}

private theorem held_of_unused {d : Aoedev} (h : Reached d) (href : d.ref = 0) : d.heldFrames = [] := by
  have hcount : d.ref = d.iocq.length + (d.threads.map Thread.refs).sum := (reachedBy_refs h).count
  rw [href] at hcount
  have hq : d.iocq = [] := List.length_eq_zero_iff.mp (by omega)
  have hsum : (d.threads.map Thread.refs).sum = 0 := by omega
  simp only [Aoedev.heldFrames, hq, List.map_nil, List.nil_append, List.flatMap_eq_nil_iff]
  intro th hth
  have hzero : th.refs = 0 := List.sum_eq_zero_iff.mp hsum _ (List.mem_map_of_mem hth)
  cases th with
  | ktioSpawn id => rfl
  | sleep pc => rfl
  | _ => exact absurd hzero Nat.one_ne_zero

theorem Spent.idle {d : Aoedev} (hg : Good 0 d) (hs : Spent d) (hf : d.listedFrames ++ d.heldFrames = []) :
    d.bufs = [] ∧ d.rqs = [] := by
  have hB := hg.books
  have hbufs : d.bufs = [] := by
    rw [List.eq_nil_iff_forall_not_mem]
    intro b hb
    have hlive := hB.live b hb (hs.bufs b hb)
    rw [hB.nframesout b hb, count_refs, Aoedev.framesOf, hf] at hlive
    exact hlive rfl
  refine ⟨hbufs, ?_⟩
  rw [List.eq_nil_iff_forall_not_mem]
  intro rq hrq
  apply hB.due rq hrq
  have hrest : d.blk.rest rq = 0 := by
    rcases hs.ip with hr | hn
    · simp [Blk.rest, Aoedev.blk, hr]
    · simp [Blk.rest, Aoedev.blk, hn]
  have hcount : d.blk.bufs = [] := hbufs
  rw [hB.special rq hrq, hrest, hcount]
  rfl

/-- A device that a flush without a name selects has nothing under way: after pass one it has no frame, buf or request,
and `freedev` frees every frame that was ever allocated for it, and every packet that has no other user in one of the
readings. The other packets are given up. -/
theorem flushed_clean (h : WorldReached w) (hn : n ∈ w.devlist) (hmode : flushMode false str ≠ .named)
    (hs : flushSelects false str n.dev = true) (dataref : ℕ → ℕ → ℕ) :
    n.kill.dev.listedFrames ++ n.kill.dev.heldFrames = [] ∧ n.kill.dev.bufs = [] ∧ n.kill.dev.rqs = [] ∧
    n.kill.dev.queue = [] ∧ (freedev dataref n.kill.dev).frames.length = (n.kill.dev.targets.map Aoetgt.falloc).sum ∧
    ((freedev dataref n.kill.dev).skbs ++ (freedev dataref n.kill.dev).leaked).Perm (List.range n.kill.dev.skbIds) ∧
    (∀ i ∈ (freedev dataref n.kill.dev).leaked, ∀ k ≤ SKBFREE_WAITS, dataref i k ≠ 1) ∧
    ((∀ i < n.kill.dev.skbIds, ∃ k ≤ SKBFREE_WAITS, dataref i k = 1) →
      (freedev dataref n.kill.dev).skbs.Perm (List.range n.kill.dev.skbIds)) := by
  have hreach : Reached n.dev := (world_ordered h).1.reached n (List.mem_append_left _ hn)
  have hkill : Reached n.kill.dev := (killed_reached hreach hs).1
  have href : n.dev.ref = 0 := by
    unfold flushSelects at hs
    cases hm : flushMode false str with
    | named => exact absurd hm hmode
    | exiting => exact absurd hm (flushMode_writes str)
    | all =>
      rw [hm] at hs
      simp [flushTakes] at hs
      exact hs.2
    | default =>
      rw [hm] at hs
      simp [flushTakes] at hs
      exact hs.2
  have hframes : n.kill.dev.listedFrames ++ n.kill.dev.heldFrames = [] := by
    have hlisted : n.kill.dev.listedFrames = [] := downdev_listed n.dev
    have hheld : n.kill.dev.heldFrames = n.dev.heldFrames := downdev_held n.dev
    rw [hlisted, hheld, held_of_unused hreach href]
    rfl
  obtain ⟨hspent, hqueue⟩ := downdev_spent (reachedBy_good hreach).1
  have hspent' : Spent n.kill.dev := ⟨hspent.bufs, hspent.ip⟩
  obtain ⟨hbufs, hrqs⟩ := hspent'.idle (reachedBy_good hkill).1 hframes
  obtain ⟨-, hcount, hpackets, -⟩ := freedev_releases hkill dataref
  rw [hframes] at hcount hpackets
  simp only [List.length_nil, Nat.add_zero, List.filterMap_nil, List.append_nil] at hcount hpackets
  refine ⟨hframes, hbufs, hrqs, hqueue, hcount, hpackets, fun i hi => freedev_leaked hi, fun hone => ?_⟩
  have hlt {i : ℕ} (hi : i ∈ (freedev dataref n.kill.dev).leaked) : i < n.kill.dev.skbIds :=
    List.mem_range.mp (hpackets.mem_iff.mp (List.mem_append_right _ hi))
  rwa [freedev_unleaked fun i hi => hone i (hlt hi), List.append_nil] at hpackets

def sampleUnused : WorldScene anyEvent (16, true) (sampleAdd 0 1 2)
    (fun w => w.devlist.any fun n => flushSelects false "all".toList n.dev && n.kill.dev.skbIds == 1) :=
  ⟨by decide +kernel⟩

/-- An installed device is flushed with "all". -/
theorem flushed_clean_sample : ∃ w n, WorldReached w ∧ n ∈ w.devlist ∧ flushSelects false "all".toList n.dev = true ∧
    n.kill.dev.bufs = [] ∧ (freedev (fun _ _ => 1) n.kill.dev).skbs = [0] := by
  obtain ⟨w, hr, hc⟩ := sampleUnused.last
  simp only [List.any_eq_true, Bool.and_eq_true, beq_iff_eq] at hc
  obtain ⟨n, hn, hs, hids⟩ := hc
  obtain ⟨-, hbufs, -, -, -, -, -, hpackets⟩ := flushed_clean hr.reached hn (by decide) hs (fun _ _ => 1)
  have hpackets := hpackets fun i _ => ⟨0, Nat.zero_le _, rfl⟩
  rw [hids] at hpackets
  exact ⟨w, n, hr.reached, hn, hs, hbufs, List.perm_singleton.mp hpackets⟩

end Flushed

end AoeDriver
