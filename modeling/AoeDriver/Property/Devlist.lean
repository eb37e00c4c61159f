import AoeDriver.Devlist.Order

/-!
# Devices and their numbers

No two devices share an address or a minor number, and where no allocation fails no number is lost.
-/

namespace AoeDriver

open Machine

/-- The minor numbers of a device and its partitions. -/
def World.minors (w : World) (n : Node) : Set ℕ := Set.Ico n.sysminor (n.sysminor + w.partitions)

section Unique

variable {w : World}

/-- What a lookup returns is a device that is not being removed, or a new one. -/
private theorem lookup_some {maj min id : ℕ} {doAlloc : Option Aoedev} {kcalloc : List Bool} {th : Thread}
    (h : (aoedevByAoeaddr w maj min doAlloc kcalloc th).2 = some id) :
    (∃ n ∈ w.devlist, n.id = id ∧ n.dev.flags.tkill = false) ∨ id = w.ids := by
  unfold aoedevByAoeaddr at h
  cases hfind : w.devlist.find? (Node.at maj min) with
  | some n =>
    rw [hfind] at h
    dsimp only at h
    cases hhold : n.dev.hold th with
    | none =>
      rw [hhold] at h
      exact absurd h (by simp)
    | some d =>
      rw [hhold] at h
      refine .inl ⟨n, List.mem_of_find?_eq_some hfind, Option.some.inj h, ?_⟩
      by_contra hkill
      rw [Aoedev.hold, if_pos (by simpa using hkill)] at hhold
      exact absurd hhold (by simp)
  | none =>
    rw [hfind] at h
    cases doAlloc with
    | none => exact absurd h (by simp)
    | some d =>
      dsimp only at h
      rcases minorGet_spec w maj min with hget | ⟨k, -, -, hget⟩
      · rw [hget] at h
        exact absurd h (by simp)
      · rw [hget] at h
        dsimp only at h
        split at h
        · exact absurd h (by simp)
        · split at h
          · exact absurd h (by simp)
          · exact .inr (Option.some.inj h).symm

private theorem lookup_killed (hn : Nodes w) {n : Node} (hmem : n ∈ w.devlist) (hkill : n.dev.flags.tkill = true)
    (doAlloc : Option Aoedev) (kcalloc : List Bool) (th : Thread) :
    aoedevByAoeaddr w n.dev.aoemajor n.dev.aoeminor doAlloc kcalloc th = (w, none) := by
  have hfind : w.devlist.find? (Node.at n.dev.aoemajor n.dev.aoeminor) = some n := by
    have hat : Node.at n.dev.aoemajor n.dev.aoeminor = fun m => decide (m.addr = n.addr) := by
      funext m
      simp [Node.at, Node.addr]
    rw [hat]
    exact Tables.find_of_nodup hn.addrs hmem
  unfold aoedevByAoeaddr
  rw [hfind]
  dsimp only
  rw [Aoedev.hold, if_pos hkill]

/-- In every reached state the devices on the list have different addresses, the devices that have not given up their
number have disjoint minor numbers in range, and a lookup neither returns nor repeats a device that is being removed. -/
theorem devices_unique (h : WorldReached w) :
    (w.devlist.map Node.addr).Nodup ∧
    ((w.devlist ++ w.gone).filter (!·.unnumbered)).Pairwise (fun n m => Disjoint (w.minors n) (w.minors m)) ∧
    (∀ n ∈ w.devlist ++ w.gone, n.unnumbered = false → w.minors n ⊆ Set.Ico 0 (2^MINORBITS)) ∧
    ∀ n ∈ w.devlist, n.dev.flags.tkill = true → ∀ maj min doAlloc kcalloc th,
      (aoedevByAoeaddr w maj min doAlloc kcalloc th).2 ≠ some n.id ∧
      (n.addr = (maj, min) → aoedevByAoeaddr w maj min doAlloc kcalloc th = (w, none)) := by
  obtain ⟨hn, hnum⟩ := world_ordered h
  have hgone {n : Node} (hmem : n ∈ w.devlist ++ w.gone) (hu : n.unnumbered = false) : n ∈ w.devlist := by
    rcases List.mem_append.mp hmem with hmem' | hmem'
    · exact hmem'
    · have hun := (hn.staged n hmem).freed (hn.gone n hmem')
      exact absurd (hu.symm.trans hun) Bool.noConfusion
  have hfilter : (w.devlist ++ w.gone).filter (!·.unnumbered) = w.devlist.filter (!·.unnumbered) := by
    have hnone : w.gone.filter (!·.unnumbered) = [] := by
      rw [List.filter_eq_nil_iff]
      intro n hmem hu
      have hall := List.mem_append_right w.devlist hmem
      have hun := (hn.staged n hall).freed (hn.gone n hmem)
      simp [hun] at hu
    rw [List.filter_append, hnone, List.append_nil]
  refine ⟨hn.addrs, ?_, ?_, ?_⟩
  · rw [hfilter]
    have hids : (w.devlist.filter (!·.unnumbered)).Pairwise fun n m => n.id ≠ m.id :=
      (List.pairwise_map.mp hn.ids).sublist List.filter_sublist
    refine hids.imp_of_mem ?_
    intro n m hmem hmem' hne
    obtain ⟨hnl, hnu⟩ := List.mem_filter.mp hmem
    obtain ⟨hml, hmu⟩ := List.mem_filter.mp hmem'
    rw [Bool.not_eq_true'] at hnu hmu
    obtain ⟨a, -, ha, -⟩ := hnum.number n hnl hnu
    obtain ⟨b, -, hb, -⟩ := hnum.number m hml hmu
    have hab : a ≠ b := by
      rintro rfl
      exact hne (hnum.distinct n hnl m hml hnu hmu (ha.trans hb.symm))
    rw [Set.disjoint_left]
    rintro x ⟨hx₁, hx₂⟩ ⟨hy₁, hy₂⟩
    rw [ha] at hx₁ hx₂
    rw [hb] at hy₁ hy₂
    -- both numbers are the quotient of `x`
    have hqa : x / w.partitions = a := Nat.div_eq_of_lt_le hx₁ (by rw [Nat.succ_mul]; exact hx₂)
    have hqb : x / w.partitions = b := Nat.div_eq_of_lt_le hy₁ (by rw [Nat.succ_mul]; exact hy₂)
    exact hab (hqa.symm.trans hqb)
  · intro n hmem hu x hx
    obtain ⟨k, hk, hs, -⟩ := hnum.number n (hgone hmem hu) hu
    refine ⟨Nat.zero_le x, lt_of_lt_of_le hx.2 ?_⟩
    calc n.sysminor + w.partitions = (k + 1) * w.partitions := by rw [hs, Nat.succ_mul]
      _ ≤ w.nDevs * w.partitions := Nat.mul_le_mul_right _ hk
      _ ≤ 2^MINORBITS := Nat.div_mul_le_self _ _
  · intro n hmem hkill maj min doAlloc kcalloc th
    constructor
    · intro hsome
      rcases lookup_some hsome with ⟨m, hm, hid, hlive⟩ | hid
      · rw [hn.eq_of_id hmem hm hid, hkill] at hlive
        exact Bool.noConfusion hlive
      · exact absurd hid (Nat.ne_of_lt (hn.lt n hmem))
    · intro haddr
      obtain ⟨rfl, rfl⟩ := Prod.mk.inj haddr
      exact lookup_killed hn hmem hkill doAlloc kcalloc th

/-- Two devices are found under dynamic and one under static numbering; the module is then about to be unloaded. -/
def sampleThree : WorldScene anyEvent (16, true)
    [sampleFound 1 2, sampleFound 7 200, .dyndevs false, sampleFound 0 5, .flush true []]
    (fun w => w.devlist.length == 3 && w.devlist.all fun n => n.dev.flags.tkill) :=
  ⟨by decide +kernel⟩

theorem devices_unique_sample : ∃ w, WorldReached w ∧ w.devlist.length = 3 ∧ (∀ n ∈ w.devlist, n.dev.flags.tkill = true) ∧
    ((w.devlist ++ w.gone).filter (!·.unnumbered)).Pairwise (fun n m => Disjoint (w.minors n) (w.minors m)) ∧
    ∀ n ∈ w.devlist, (aoedevByAoeaddr w 7 200 (some sampleStart) [] (.cfg sampleCfg)).2 ≠ some n.id := by
  obtain ⟨w, hr, hc⟩ := sampleThree.last
  simp only [Bool.and_eq_true, beq_iff_eq, List.all_eq_true] at hc
  have hunique := devices_unique hr.reached
  refine ⟨w, hr.reached, hc.1, hc.2, hunique.2.1, fun n hn => ?_⟩
  exact (hunique.2.2.2 n hn (hc.2 n hn) 7 200 _ _ _).1

end Unique

/-- A number that has been reserved gets its device. -/
def allocates (w : World) : WorldEvent → Bool
  | .cfgRsp maj min _ _ _ _ _ kcalloc => allocsOk w maj min kcalloc
  | _ => true

def ListGuard.tight : ListGuard := ⟨fun _ _ _ => True, False⟩

private theorem tight_meets {w : World} {e : WorldEvent} (h : allocates w e = true) : ListGuard.tight.Meets w e := by
  cases e with
  | cfgRsp maj min c ncpus deadsecs maxout clock kcalloc =>
    intro hfail
    exact absurd (hfail.symm.trans h) Bool.noConfusion
  | _ => trivial

/-- A lookup that returns nothing changes nothing, unless it has reserved a number for which there was no memory. -/
private theorem lookup_none {w : World} {maj min : ℕ} {d : Option Aoedev} {kcalloc : List Bool} {th : Thread}
    (h : (aoedevByAoeaddr w maj min d kcalloc th).2 = none) :
    (aoedevByAoeaddr w maj min d kcalloc th).1 = w ↔ d = none ∨ allocsOk w maj min kcalloc = true := by
  unfold aoedevByAoeaddr at h ⊢
  cases hfind : w.devlist.find? (Node.at maj min) with
  | some n =>
    have hany : w.devlist.any (Node.at maj min) = true :=
      List.any_eq_true.mpr ⟨n, List.mem_of_find?_eq_some hfind, List.find?_some hfind⟩
    rw [hfind] at h
    dsimp only at h ⊢
    rw [allocsOk, hany]
    cases hhold : n.dev.hold th with
    | none => simp
    | some d =>
      rw [hhold] at h
      exact absurd h (by simp)
  | none =>
    have hany : w.devlist.any (Node.at maj min) = false := by
      rw [List.any_eq_false]
      exact fun n hn => List.find?_eq_none.mp hfind n hn
    rw [hfind] at h
    cases d with
    | none => simp
    | some d =>
      dsimp only at h ⊢
      rcases minorGet_spec w maj min with hget | ⟨k, hk, -, hget⟩
      · rw [allocsOk, hget]
        simp
      · have hset : w.setBit k true ≠ w := by
          intro heq
          have hbit : Function.update w.usedMinors k true k = w.usedMinors k := congrFun (congrArg World.usedMinors heq) k
          rw [Function.update_self, hk] at hbit
          exact Bool.noConfusion hbit
        rw [allocsOk, hany, hget]
        rw [hget] at h
        dsimp only at h ⊢
        split
        · rename_i h₁
          rw [Bool.not_eq_true'] at h₁
          simp [h₁, hset]
        · split
          · rename_i h₂
            rw [Bool.not_eq_true'] at h₂
            simp [h₂, hset]
          · rename_i h₁ h₂
            rw [if_neg h₁, if_neg h₂] at h
            exact absurd h (by simp)

/-- Where every reserved number gets its device, the bits that are set are those of the devices, and a lookup that
returns nothing leaves all as it was just when it has not lost a number. -/
theorem minors_exact {w : World} (h : WorldReachedBy (fun w e _ => allocates w e) w) :
    (∀ k, w.usedMinors k = true ↔ ∃ n ∈ w.devlist, n.unnumbered = false ∧ n.sysminor / w.partitions = k) ∧
    ∀ maj min d kcalloc th, (aoedevByAoeaddr w maj min d kcalloc th).2 = none →
      ((aoedevByAoeaddr w maj min d kcalloc th).1 = w ↔ d = none ∨ allocsOk w maj min kcalloc = true) := by
  have hnum := (world_ordered h).2
  have htight : Tight w := by
    refine world_keeps (G := .tight) (fun w e w' hok => tight_meets hok) (fun p b => (worldInit_order p b).2.2) ?_ h
    exact fun w w' hn hnum hc ht => hc.tight id hn hnum ht
  have hquot {n : Node} (hn : n ∈ w.devlist) (hu : n.unnumbered = false) :
      ∃ k, w.usedMinors k = true ∧ n.sysminor = k * w.partitions ∧ n.sysminor / w.partitions = k := by
    obtain ⟨k, hk, hs, hb⟩ := hnum.number n hn hu
    exact ⟨k, hb, hs, by rw [hs, Nat.mul_div_cancel _ (partitions_pos hk)]⟩
  refine ⟨fun k => ⟨fun hk => ?_, ?_⟩, fun maj min d kcalloc th hnone => lookup_none hnone⟩
  · obtain ⟨n, hn, hu, hs⟩ := htight k hk
    obtain ⟨j, -, hj, hq⟩ := hquot hn hu
    obtain ⟨i, hlt, -, -⟩ := hnum.number n hn hu
    refine ⟨n, hn, hu, ?_⟩
    rw [hs, Nat.mul_div_cancel _ (partitions_pos hlt)]
  · rintro ⟨n, hn, hu, rfl⟩
    obtain ⟨k, hb, -, hq⟩ := hquot hn hu
    rw [hq]
    exact hb

def sampleTwo : WorldScene allocates (16, true) [sampleFound 1 2, .dyndevs false, sampleFound 0 5]
    (fun w => w.devlist.length == 2) :=
  ⟨by decide +kernel⟩

theorem minors_exact_sample : ∃ w, WorldReachedBy (fun w e _ => allocates w e) w ∧ w.devlist.length = 2 ∧
    ∀ k, w.usedMinors k = true ↔ ∃ n ∈ w.devlist, n.unnumbered = false ∧ n.sysminor / w.partitions = k := by
  obtain ⟨w, hr, hlen⟩ := sampleTwo.last
  exact ⟨w, hr, by simpa using hlen, (minors_exact hr).1⟩

/-- There is no memory when a device is found. -/
def sampleStarved : WorldScene anyEvent (16, false) [.cfgRsp 1 2 sampleCfg 4 180 128 ⟨10^9, 500000, 1000⟩ [false]]
    (fun w => w.devlist.isEmpty && w.gone.isEmpty && w.flushes.isEmpty && w.usedMinors 18 &&
      (aoedevByAoeaddr w 1 2 (some sampleStart) [] (.cfg sampleCfg)).2.isNone) :=
  ⟨by decide +kernel⟩

/-- The number of the device stays reserved and it can never be added. -/
theorem minor_lost : ∃ w, WorldReached w ∧ w.devlist = [] ∧ w.gone = [] ∧ w.flushes = [] ∧ w.usedMinors 18 = true ∧
    (aoedevByAoeaddr w 1 2 (some sampleStart) [] (.cfg sampleCfg)).2 = none := by
  obtain ⟨w, hr, hc⟩ := sampleStarved.last
  simp only [Bool.and_eq_true, List.isEmpty_iff, Option.isNone_iff_eq_none] at hc
  obtain ⟨⟨⟨⟨h₁, h₂⟩, h₃⟩, h₄⟩, h₅⟩ := hc
  exact ⟨w, hr.reached, h₁, h₂, h₃, h₄, h₅⟩

end AoeDriver
