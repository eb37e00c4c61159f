import AoeDriver.Ledger.Packets
import AoeDriver.Property.Frames
import AoeDriver.Property.Selection

/-!
# Ownership of the socket buffers

Over every run each packet the driver has allocated is the packet of one frame or stands once in the pool. The pool is
the queue its pointers link, `nskbpool` is its length, and a frame that `newtframe` hands out has a packet nobody else
refers to.
-/

namespace AoeDriver

open Ledger

/-- The packets of all frames. -/
def Aoedev.framePackets (d : Aoedev) : List ℕ := d.allFrames.filterMap Frame.packet

theorem coe_framePackets (d : Aoedev) : (d.framePackets : Multiset ℕ) = (d.ledger 0).packets := by
  have hlist (fs : List Frame) : ((fs.filterMap Frame.packet : List ℕ) : Multiset ℕ) =
      (fs : Multiset Frame).bind Frame.owned := by
    induction fs with
    | nil => rfl
    | cons f fs ih =>
      rw [← Multiset.cons_coe, Multiset.cons_bind, ← ih, Frame.owned]
      cases hp : f.packet with
      | none =>
        rw [List.filterMap_cons_none hp]
        exact (zero_add _).symm
      | some i =>
        rw [List.filterMap_cons_some hp, ← Multiset.cons_coe]
        exact (Multiset.singleton_add _ _).symm
  rw [Aoedev.framePackets, hlist, coe_allFrames]
  rfl

private theorem initial_stowed {d : Aoedev} (hd : Initial d) : (d.ledger 0).Stowed := by
  obtain ⟨-, hall, -, hplay⟩ := initial_ledger hd
  have hpackets : (d.ledger 0).packets = 0 := by
    rw [Ledger.packets, hall]
    rfl
  have hlisted : (d.ledger 0).listed = 0 := by
    rw [Ledger.inPlay, Ledger.pending] at hplay
    exact (add_eq_zero.mp (add_eq_zero.mp hplay).1).1
  have hpool : (d.ledger 0).pool = ⟨[], default, 0, 0⟩ := by
    obtain ⟨a, b, n, s, m, clock, c, rfl⟩ := hd
    rfl
  refine ⟨?_, ?_, ?_, ?_, ?_⟩
  · rw [hpackets, hpool]
    rfl
  · rw [hpool]
    exact Links.Holds.empty
  · rw [hpool]
    rfl
  · rw [hpool]
    exact Nat.zero_le _
  · rw [hlisted]
    exact fun f hf => absurd hf (Multiset.notMem_zero f)

theorem reachedBy_stowed {ok : Aoedev → Event → Aoedev → Prop} {d : Aoedev} (h : ReachedBy ok d) : (d.ledger 0).Stowed :=
  reachedBy_ledger (C := .any) (fun s e _ _ => Cond.meets_any s e) (fun _ => initial_stowed)
    (fun _ _ hs hi hp => hs.stowed hi hp) h

theorem Shifts.stowed {C : Cond} {l l' : Ledger} (h : Shifts C l l') (hi : l.Inv) (hl : l.Stowed) : l'.Stowed := by
  induction h with
  | refl => exact hl
  | tail hs hshift ih => exact hshift.stowed (Shifts.inv hs hi) ih

theorem Midsection.stowed {d : Aoedev} {h : Hands} (hm : Midsection d h) : (d.ledger h).Stowed := by
  obtain ⟨s, env, hs, hruns, -⟩ := hm
  have hstart : Runs Cond.any 0 s 0 { s with env := env } := outcomes_runs trivial
  have hgood := (reachedBy_good hs).1
  exact hruns.shifts.stowed (hstart.good hgood).inv (hstart.shifts.stowed hgood.inv (reachedBy_stowed hs))

/-- Every packet made so far is the packet of one frame or stands once in the pool. -/
structure PacketsOwned (d : Aoedev) : Prop where
  owners : ∀ i < d.skbIds, d.framePackets.count i + (d.skbpool.map Skb.id).count i = 1
  made : ∀ i ∈ d.framePackets ++ d.skbpool.map Skb.id, i < d.skbIds

/-- The pointers lead from `skbpool_hd` through the `nskbpool` packets of the pool to NULL, and `skbpool_tl` is the last
of them, if there is any. -/
structure PoolLinked (d : Aoedev) : Prop where
  linked : Links.Chain d.skbLinks.next d.skbLinks.hd (d.skbpool.map Skb.id)
  last : d.skbpool ≠ [] → d.skbLinks.tl = (d.skbpool.map Skb.id).getLast?
  length : d.skbpool.length = d.nskbpool
  max : d.nskbpool ≤ NSKBPOOLMAX

/-- A packet put into the pool comes out after those before it; what `skb_pool_get` returns is the first packet of the
pool or a new one. -/
def PoolFifo (d : Aoedev) : Prop :=
  (∀ skb, (skbPoolPut d skb).skbpool = d.skbpool ++ [skb]) ∧
  ∀ skb d', skbPoolGet d = (d', some skb) →
    (∃ rest, d.skbpool = skb :: rest ∧ d'.skbpool = rest ∧ d.skbLinks.hd = some skb.id) ∨
      d'.skbpool = d.skbpool ∧ d'.nskbpool = d.nskbpool + 1

theorem Ledger.Stowed.packetsOwned {d : Aoedev} (h : (d.ledger 0).Stowed) : PacketsOwned d := by
  have howners : ((d.framePackets ++ d.skbpool.map Skb.id : List ℕ) : Multiset ℕ) = Multiset.range d.skbIds := by
    rw [← Multiset.coe_add, coe_framePackets]
    exact h.owners
  refine ⟨fun i hi => ?_, fun i hi => ?_⟩
  · rw [← List.count_append, ← Multiset.coe_count, howners]
    exact Multiset.count_eq_one_of_mem (Multiset.nodup_range _) (Multiset.mem_range.mpr hi)
  · rw [← Multiset.mem_coe, howners] at hi
    exact Multiset.mem_range.mp hi

theorem Ledger.Stowed.poolLinked {d : Aoedev} {h : Hands} (hs : (d.ledger h).Stowed) : PoolLinked d := by
  refine ⟨hs.linked.chain, fun hne => ?_, ?_, hs.max⟩
  · exact hs.linked.last fun hnil => hne (List.map_eq_nil_iff.mp hnil)
  · have hcount : (d.skbpool.map Skb.id).length = d.nskbpool := hs.count
    rwa [List.length_map] at hcount

private theorem skbPoolGrow_pool {d d' : Aoedev} {skb : Skb} (h : skbPoolGrow d = (d', some skb)) :
    d'.skbpool = d.skbpool ∧ d'.nskbpool = d.nskbpool + 1 := by
  unfold skbPoolGrow newSkb at h
  dsimp only at h
  split at h
  · split at h
    · rename_i heq
      split at heq
      · obtain ⟨rfl, -⟩ := Prod.mk.inj heq
        obtain ⟨rfl, -⟩ := Prod.mk.inj h
        exact ⟨rfl, rfl⟩
      · exact absurd (congrArg Prod.snd heq) (by simp)
    · exact absurd (congrArg Prod.snd h) (by simp)
  · exact absurd (congrArg Prod.snd h) (by simp)

theorem PoolLinked.fifo {d : Aoedev} (h : PoolLinked d) : PoolFifo d := by
  refine ⟨fun _ => rfl, fun skb d' hget => ?_⟩
  unfold skbPoolGet at hget
  split at hget
  · exact .inr (skbPoolGrow_pool hget)
  · rename_i first rest hpool
    split at hget
    · obtain ⟨rfl, hskb⟩ := Prod.mk.inj hget
      obtain rfl : first = skb := Option.some.inj hskb
      have hlinked := h.linked
      rw [hpool] at hlinked
      exact .inl ⟨rest, hpool, rfl, hlinked.1⟩
    · exact .inr (skbPoolGrow_pool hget)

/-- In every reachable state each packet has one owner; at any moment, also inside a section, the pool is a
NULL-terminated queue of `nskbpool` packets that is served in order; and whatever `newtframe` returns has a packet with a
`dataref` of 1. -/
theorem packets_owned : (∀ d, Reached d → PacketsOwned d) ∧ (∀ d h, Midsection d h → PoolLinked d ∧ PoolFifo d) ∧
    ∀ d t d' f, newtframe d t = (d', some f) → ∃ skb, f.skb = some skb ∧ skb.dataref = 1 := by
  refine ⟨fun d h => (reachedBy_stowed h).packetsOwned, fun d h hm => ?_, fun d t d' f => newtframe_dataref d t⟩
  have hlinked := hm.stowed.poolLinked
  exact ⟨hlinked, hlinked.fifo⟩

/-- The target of the sample has a frame to spare. -/
def samplePackets : Scene unguarded sampleStart sampleEvents (fun d => (newtframe d 0).2.isSome) := ⟨by decide +kernel⟩

theorem packets_owned_sample : ∃ d, Reached d ∧ PacketsOwned d ∧ PoolLinked d ∧ PoolFifo d ∧
    ∃ f skb, (newtframe d 0).2 = some f ∧ f.skb = some skb ∧ skb.dataref = 1 := by
  obtain ⟨d, -, hreach, htest⟩ := samplePackets.last sampleStart_initial
  have hd : Reached d := hreach.mono fun _ _ _ _ => trivial
  obtain ⟨f, hf⟩ := Option.isSome_iff_exists.mp htest
  obtain ⟨howned, hpool, hnew⟩ := packets_owned
  obtain ⟨skb, hskb, href⟩ := hnew d 0 (newtframe d 0).1 f (Prod.ext rfl hf)
  exact ⟨d, hd, howned d hd, (hpool d 0 (.of_reached hd)).1, (hpool d 0 (.of_reached hd)).2, f, skb, hf, hskb, href⟩

end AoeDriver
