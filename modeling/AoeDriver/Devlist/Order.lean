import AoeDriver.Devlist.Change

/-!
# The list in order

The invariants of the device list and of its minor numbers, kept by every change.
-/

namespace AoeDriver

open Machine

/-- The minor numbers of the devices that have one. -/
structure Numbers (w : World) : Prop where
  number : ∀ n ∈ w.devlist, n.unnumbered = false → ∃ k, k < w.nDevs ∧ n.sysminor = k * w.partitions ∧ w.usedMinors k = true
  distinct : ∀ n ∈ w.devlist, ∀ m ∈ w.devlist, n.unnumbered = false → m.unnumbered = false →
    n.sysminor = m.sysminor → n.id = m.id

/-- No bit of the bitmap is set without a device. -/
def Tight (w : World) : Prop :=
  ∀ k, w.usedMinors k = true → ∃ n ∈ w.devlist, n.unnumbered = false ∧ n.sysminor = k * w.partitions

section Order

variable {G : ListGuard} {w w' : World}

theorem killed_reached {n : Node} (h : Reached n.dev) {exiting : Bool} {str : List Char}
    (hs : flushSelects exiting str n.dev = true) :
    Reached n.kill.dev ∧ n.kill.addr = n.addr ∧ n.kill.dev.flags.tkill = true := by
  obtain ⟨mode, -, hexec⟩ := kill_step hs
  have hcrash : Aoedev.crashed { aoedevDowndev n.dev with flags.tkill := true } = false :=
    (aoedevDowndev_crashed n.dev).trans (reached_sound h)
  have ho := aoedevDowndev_outer n.dev
  have hmaj : (aoedevDowndev n.dev).aoemajor = n.dev.aoemajor := congrArg Blk.aoemajor ho
  have hmin : (aoedevDowndev n.dev).aoeminor = n.dev.aoeminor := congrArg Blk.aoeminor ho
  refine ⟨.step h trivial ⟨hexec, hcrash⟩, ?_, rfl⟩
  exact Prod.ext hmaj hmin

theorem Nodes.wait {i : ℕ} {pc₀ pc : FlushPc} (h : Nodes w) (hi : w.flushes[i]? = some pc₀) (h₀ : pc₀.work = none)
    (h₁ : pc.work = none) : Nodes (w.setFlush i pc) := by
  have hfree : (w.flushes.set i pc).filterMap FlushPc.work = w.flushes.filterMap FlushPc.work ∨
      ((w.flushes.set i pc).filterMap FlushPc.work).Perm (w.flushes.filterMap FlushPc.work) := by
    right
    refine ((perm_replaced hi pc).filterMap _).trans (List.Perm.trans ?_ ((perm_erased hi).filterMap _).symm)
    rw [List.filterMap_cons_none h₀, List.filterMap_cons_none h₁]
  refine { h with once := ?_, works := ?_ }
  · rcases hfree with heq | hp
    · exact heq ▸ h.once
    · exact hp.nodup_iff.mpr h.once
  · intro pc' hpc' id hw
    rcases List.mem_or_eq_of_mem_set hpc' with hpc' | rfl
    · exact h.works pc' hpc' id hw
    · exact absurd (h₁.symm.trans hw) (by simp)

/-- A step of one device changes neither its address nor its marks. -/
theorem Nodes.event {n : Node} {e : Event} {d : Aoedev} (h : Nodes w) (hn : n ∈ w.devlist) (hs : Step n.dev e d)
    (he : ∀ mode env, e ≠ .flushDev mode env) : Nodes (w.modNode n.id fun n => { n with dev := d }) := by
  have hreach {n : Node} (hn : n ∈ w.devlist) := h.reached n (List.mem_append_left _ hn)
  have hstaged {n : Node} (hn : n ∈ w.devlist) := h.staged n (List.mem_append_left _ hn)
  obtain ⟨hr, hmaj, hmin, hkill⟩ := step_same (hreach hn) hs he
  have hat {m : Node} (hm : m ∈ w.devlist) (heq : m.id = n.id) : m = n := h.eq_of_id hn hm heq
  refine h.map rfl rfl rfl ?_ ?_ ?_ ?_ h.once ?_
  · intro m hm
    split
    · rfl
    · rfl
  · intro m hm
    split
    · rename_i heq
      rw [hat hm heq]
      exact Prod.ext hmaj hmin
    · rfl
  · intro m hm
    split
    · exact hr
    · exact hreach hm
  · intro m hm
    split
    · rename_i heq
      have hst := hstaged hm
      refine ⟨fun hf => ?_, hst.torn, hst.unnumbered, hst.freed⟩
      change d.flags.tkill = true
      rw [hkill, ← hat hm heq]
      exact hst.freeing hf
    · exact hstaged hm
  · intro pc hpc id hw
    obtain ⟨m, hm, hid, hf⟩ := h.works pc hpc id hw
    refine ⟨m, hm, hid, ?_⟩
    split
    · cases pc <;> exact hf
    · exact hf

theorem Nodes.add {k : ℕ} {d : Aoedev} (h : Nodes w) (hd : Initial d) (hrange : d.aoemajor < 0xffff ∧ d.aoeminor < 0xff)
    (hnew : ∀ n ∈ w.devlist, n.addr ≠ (d.aoemajor, d.aoeminor)) :
    Nodes ((w.setBit k true).add (k * w.partitions) d) := by
  let n : Node := { id := w.ids, sysminor := k * w.partitions, dev := d, freeing := false, torn := false
                    unnumbered := false, freed := false }
  have hcons {P : Node → Prop} (hP : P n) (hold : ∀ m ∈ w.devlist ++ w.gone, P m) : ∀ m ∈ (n :: w.devlist) ++ w.gone, P m := by
    intro m hm
    rcases List.mem_cons.mp hm with rfl | hm
    · exact hP
    · exact hold m hm
  refine ⟨hcons (.init hd) h.reached, hcons ?_ h.staged, h.gone, ?_, ?_, ?_, ?_, h.once, ?_⟩
  · exact ⟨fun hx => absurd hx Bool.noConfusion, fun hx => absurd hx Bool.noConfusion,
      fun hx => absurd hx Bool.noConfusion, fun hx => absurd hx Bool.noConfusion⟩
  · refine List.nodup_cons.mpr ⟨fun hmem => ?_, h.ids⟩
    obtain ⟨m, hm, hid⟩ := List.mem_map.mp hmem
    exact absurd hid (Nat.ne_of_lt (h.lt m hm))
  · intro m hm
    rcases List.mem_cons.mp hm with rfl | hm
    · exact Nat.lt_succ_self _
    · exact (h.lt m hm).trans (Nat.lt_succ_self _)
  · refine List.nodup_cons.mpr ⟨fun hmem => ?_, h.addrs⟩
    obtain ⟨m, hm, haddr⟩ := List.mem_map.mp hmem
    exact hnew m hm haddr
  · intro m hm
    rcases List.mem_cons.mp hm with rfl | hm
    · exact hrange
    · exact h.range m hm
  · intro pc hpc id hw
    obtain ⟨m, hm, hid, hf⟩ := h.works pc hpc id hw
    exact ⟨m, List.mem_cons_of_mem _ hm, hid, hf⟩

theorem Nodes.passOne (h : Nodes w) (exiting : Bool) (str : List Char) : Nodes (passOne w exiting str) := by
  have hreach {n : Node} (hn : n ∈ w.devlist) := h.reached n (List.mem_append_left _ hn)
  have hstaged {n : Node} (hn : n ∈ w.devlist) := h.staged n (List.mem_append_left _ hn)
  refine h.map rfl rfl rfl ?_ ?_ ?_ ?_ ?_ ?_
  · intro m hm
    split
    · rfl
    · rfl
  · intro m hm
    split
    · rename_i hs
      exact (killed_reached (hreach hm) hs).2.1
    · rfl
  · intro m hm
    split
    · rename_i hs
      exact (killed_reached (hreach hm) hs).1
    · exact hreach hm
  · intro m hm
    split
    · have hst := hstaged hm
      exact ⟨fun _ => rfl, hst.torn, hst.unnumbered, hst.freed⟩
    · exact hstaged hm
  · change ((w.flushes ++ [FlushPc.passTwo]).filterMap FlushPc.work).Nodup
    rw [List.filterMap_append, List.filterMap_cons_none rfl, List.filterMap_nil, List.append_nil]
    exact h.once
  · intro pc hpc id hw
    rcases List.mem_append.mp hpc with hpc | hpc
    · obtain ⟨m, hm, hid, hf⟩ := h.works pc hpc id hw
      refine ⟨m, hm, hid, ?_⟩
      split
      · cases pc <;> exact hf
      · exact hf
    · rw [List.mem_singleton.mp hpc] at hw
      exact absurd hw (by simp [FlushPc.work])

/-- The flag `DEVFL_FREEING` is set once, by a call that is the only one to work on the device from then on. -/
theorem Nodes.claim {i : ℕ} {n : Node} (h : Nodes w) (hi : w.flushes[i]? = some (.freedev n.id)) (hn : n ∈ w.devlist)
    (hd : n.doomed = true) : Nodes ((w.modNode n.id fun n => { n with freeing := true }).setFlush i (.teardown n.id)) := by
  have hst := h.staged n (List.mem_append_left _ hn)
  simp only [Node.doomed, Bool.and_eq_true, Bool.not_eq_true'] at hd
  have hidle : n.torn = false ∧ n.unnumbered = false ∧ n.freed = false := (hst.clear (.inr hd.2)).2
  refine h.advance (g := fun n => { n with freeing := true }) hi hn ?_ ?_ rfl rfl rfl rfl rfl rfl ?_ ?_
  · -- nobody works on a device that is not yet being freed
    intro pc hpc hw
    obtain ⟨m, hm, hid, hf⟩ := h.works pc (List.mem_of_mem_eraseIdx hpc) n.id hw
    rw [h.eq_of_id hn hm hid] at hf
    cases pc with
    | passTwo => exact absurd hw (by simp [FlushPc.work])
    | freedev id => exact absurd hw (by simp [FlushPc.work])
    | teardown id => exact absurd (hd.2.symm.trans hf.1) Bool.noConfusion
    | minorFree id => exact absurd (hidle.1.symm.trans hf.1) Bool.noConfusion
    | finish id => exact absurd (hidle.2.1.symm.trans hf.1) Bool.noConfusion
  · intro id hw
    exact (Option.some.inj hw).symm
  · exact ⟨fun _ => hd.1, fun _ => rfl, hst.unnumbered, hst.freed⟩
  · exact ⟨rfl, hidle.2⟩

theorem Nodes.passThree (h : Nodes w) (i : ℕ) : Nodes (passThree w i) := by
  have hsplit {P : Node → Prop} (hall : ∀ n ∈ w.devlist ++ w.gone, P n) :
      ∀ n ∈ w.devlist.filter (!·.freed) ++ (w.gone ++ w.devlist.filter (·.freed)), P n := by
    intro n hn
    simp only [List.mem_append, List.mem_filter] at hn
    rcases hn with hn | hn | hn
    · exact hall n (List.mem_append_left _ hn.1)
    · exact hall n (List.mem_append_right _ hn)
    · exact hall n (List.mem_append_left _ hn.1)
  have hsub : (w.devlist.filter (!·.freed)).Sublist w.devlist := List.filter_sublist
  refine ⟨hsplit h.reached, hsplit h.staged, ?_, h.ids.sublist (hsub.map _), ?_, h.addrs.sublist (hsub.map _),
    fun n hn => h.range n (List.mem_filter.mp hn).1, ?_, ?_⟩
  · intro n hn
    rcases List.mem_append.mp hn with hn | hn
    · exact h.gone n hn
    · exact (List.mem_filter.mp hn).2
  · exact fun n hn => h.lt n (List.mem_filter.mp hn).1
  · exact h.once.sublist ((List.eraseIdx_sublist _ _).filterMap _)
  · intro pc hpc id hw
    obtain ⟨m, hm, hid, hf⟩ := h.works pc (List.mem_of_mem_eraseIdx hpc) id hw
    refine ⟨m, List.mem_filter.mpr ⟨hm, ?_⟩, hid, hf⟩
    cases pc with
    | passTwo => exact absurd hw (by simp [FlushPc.work])
    | freedev id => exact absurd hw (by simp [FlushPc.work])
    | teardown id => simp [hf.2.2]
    | minorFree id => simp [hf.2.2]
    | finish id => simp [hf.2]

theorem Change.nodes (c : Change G w w') (h : Nodes w) : Nodes w' := by
  have hstaged {n : Node} (hn : n ∈ w.devlist) := h.staged n (List.mem_append_left _ hn)
  cases c with
  | same => exact h
  | tune b => exact { h with }
  | wait hi h₀ h₁ => exact h.wait hi h₀ h₁
  | event hn hs he => exact h.event hn hs he
  | leak hg hk hlt => exact { h with }
  | add hk hlt hd hrange hnew => exact h.add hd hrange hnew
  | @passOne exiting str hg => exact h.passOne exiting str
  | claim hi hn hd => exact h.claim hi hn hd
  | @teardown i n hi hn hf =>
    have hst := hstaged hn
    refine h.advance (g := fun n => { n with torn := true }) hi hn (h.alone hi rfl) ?_ rfl rfl rfl rfl rfl rfl ?_ ?_
    · exact fun id hw => (Option.some.inj hw).symm
    · exact ⟨hst.freeing, fun _ => hf.1, fun _ => rfl, hst.freed⟩
    · exact ⟨rfl, hf.2⟩
  | @minorFree i n hi hn hf =>
    have hst := hstaged hn
    refine h.advance (g := fun n => { n with unnumbered := true }) hi hn (h.alone hi rfl) ?_ rfl rfl rfl rfl rfl rfl ?_ ?_
    · exact fun id hw => (Option.some.inj hw).symm
    · exact ⟨hst.freeing, hst.torn, fun _ => hf.1, fun _ => rfl⟩
    · exact ⟨rfl, hf.2.2⟩
  | @finish i n hi hn hf =>
    have hst := hstaged hn
    refine h.advance (g := fun n => { n with freed := true }) hi hn (h.alone hi rfl) ?_ rfl rfl rfl rfl rfl rfl ?_ trivial
    · exact fun id hw => absurd hw (by simp [FlushPc.work])
    · exact ⟨hst.freeing, hst.torn, hst.unnumbered, fun _ => hf.1⟩
  | @passThree i hi => exact h.passThree i

/-- The same device with the same number. -/
structure Node.Keeps (a b : Node) : Prop where
  id : a.id = b.id
  sysminor : a.sysminor = b.sysminor
  unnumbered : a.unnumbered = b.unnumbered

private theorem keeps_at {id : ℕ} {g : Node → Node} (hg : ∀ n, (g n).Keeps n) (n : Node) :
    (if n.id = id then g n else n).Keeps n := by
  split
  · exact hg n
  · exact ⟨rfl, rfl, rfl⟩

theorem Numbers.map (h : Numbers w) {φ : Node → Node} (hlist : w'.devlist = w.devlist.map φ)
    (hpart : w'.partitions = w.partitions) (hbits : w'.usedMinors = w.usedMinors) (hφ : ∀ n, (φ n).Keeps n) :
    Numbers w' := by
  constructor
  · intro n hn hu
    rw [hlist] at hn
    obtain ⟨m, hm, rfl⟩ := List.mem_map.mp hn
    obtain ⟨k, hk, hs, hb⟩ := h.number m hm ((hφ m).unnumbered.symm.trans hu)
    refine ⟨k, ?_, ?_, ?_⟩
    · rw [World.nDevs, hpart]
      exact hk
    · rw [(hφ m).sysminor, hpart]
      exact hs
    · rw [hbits]
      exact hb
  · intro n hn m hm hun hum heq
    rw [hlist] at hn hm
    obtain ⟨a, ha, rfl⟩ := List.mem_map.mp hn
    obtain ⟨b, hb, rfl⟩ := List.mem_map.mp hm
    rw [(hφ a).id, (hφ b).id]
    refine h.distinct a ha b hb ((hφ a).unnumbered.symm.trans hun) ((hφ b).unnumbered.symm.trans hum) ?_
    rw [← (hφ a).sysminor, ← (hφ b).sysminor]
    exact heq

theorem Tight.map (h : Tight w) {φ : Node → Node} (hlist : w'.devlist = w.devlist.map φ)
    (hpart : w'.partitions = w.partitions) (hbits : w'.usedMinors = w.usedMinors) (hφ : ∀ n, (φ n).Keeps n) : Tight w' := by
  intro k hk
  rw [hbits] at hk
  obtain ⟨n, hn, hu, hs⟩ := h k hk
  refine ⟨φ n, ?_, (hφ n).unnumbered.trans hu, ?_⟩
  · rw [hlist]
    exact List.mem_map_of_mem hn
  · rw [(hφ n).sysminor, hpart]
    exact hs

theorem partitions_pos {k : ℕ} (hlt : k < w.nDevs) : 0 < w.partitions := by
  rcases Nat.eq_zero_or_pos w.partitions with h | h
  · rw [World.nDevs, h, Nat.div_zero] at hlt
    exact absurd hlt (Nat.not_lt_zero k)
  · exact h

theorem Numbers.release (h : Numbers w) {n m : Node} (hn : n ∈ w.devlist) (hm : m ∈ w.devlist) (hu : n.unnumbered = false)
    (hu' : m.unnumbered = false) (hne : m.id ≠ n.id) {k : ℕ} (hs : m.sysminor = k * w.partitions) (hlt : k < w.nDevs) :
    k ≠ n.sysminor / w.partitions := by
  intro heq
  obtain ⟨j, -, hj, -⟩ := h.number n hn hu
  have hpos := partitions_pos hlt
  rw [hj, Nat.mul_div_cancel _ hpos] at heq
  refine hne (h.distinct m hm n hn hu' hu ?_)
  rw [hs, hj, heq]

theorem Change.numbers (c : Change G w w') (h : Numbers w) : Numbers w' := by
  cases c with
  | same => exact h
  | tune b => exact { h with }
  | wait hi h₀ h₁ => exact { h with }
  | event hmem hs he =>
    exact h.map rfl rfl rfl (keeps_at fun _ => ⟨rfl, rfl, rfl⟩)
  | @leak k hg hk hlt =>
    refine ⟨fun n hmem hu => ?_, h.distinct⟩
    obtain ⟨j, hj, hs, hb⟩ := h.number n hmem hu
    refine ⟨j, hj, hs, ?_⟩
    change Function.update w.usedMinors k true j = true
    by_cases heq : j = k
    · rw [heq, Function.update_self]
    · rw [Function.update_of_ne heq]
      exact hb
  | @add k d hk hlt hd hrange hnew =>
    have hold {n : Node} (hmem : n ∈ w.devlist) (hu : n.unnumbered = false) : n.sysminor ≠ k * w.partitions := by
      intro heq
      obtain ⟨j, -, hs, hb⟩ := h.number n hmem hu
      have hjk : j = k := Nat.eq_of_mul_eq_mul_right (partitions_pos hlt) (hs.symm.trans heq)
      rw [hjk, hk] at hb
      exact Bool.noConfusion hb
    constructor
    · intro n hmem hu
      rcases List.mem_cons.mp hmem with rfl | hmem
      · exact ⟨k, hlt, rfl, Function.update_self ..⟩
      · obtain ⟨j, hj, hs, hb⟩ := h.number n hmem hu
        refine ⟨j, hj, hs, ?_⟩
        change Function.update w.usedMinors k true j = true
        by_cases heq : j = k
        · rw [heq, Function.update_self]
        · rw [Function.update_of_ne heq]
          exact hb
    · intro n hmem m hmem' hu hu' heq
      rcases List.mem_cons.mp hmem with rfl | hmem
      · rcases List.mem_cons.mp hmem' with rfl | hmem'
        · rfl
        · exact absurd heq.symm (hold hmem' hu')
      · rcases List.mem_cons.mp hmem' with rfl | hmem'
        · exact absurd heq (hold hmem hu)
        · exact h.distinct n hmem m hmem' hu hu' heq
  | passOne hg =>
    refine h.map rfl rfl rfl fun n => ?_
    split
    · exact ⟨rfl, rfl, rfl⟩
    · exact ⟨rfl, rfl, rfl⟩
  | claim hi hmem hd =>
    exact h.map rfl rfl rfl (keeps_at fun _ => ⟨rfl, rfl, rfl⟩)
  | teardown hi hmem hf =>
    exact h.map rfl rfl rfl (keeps_at fun _ => ⟨rfl, rfl, rfl⟩)
  | @minorFree i n hi hmem hf =>
    -- the devices that still have a number after the change
    have hback {m : Node} (hm : m ∈ w.devlist.map fun m => if m.id = n.id then { m with unnumbered := true } else m)
        (hu : m.unnumbered = false) : m ∈ w.devlist ∧ m.id ≠ n.id := by
      obtain ⟨a, ha, rfl⟩ := List.mem_map.mp hm
      by_cases heq : a.id = n.id
      · rw [if_pos heq] at hu
        exact absurd hu Bool.noConfusion
      · rw [if_neg heq]
        exact ⟨ha, heq⟩
    constructor
    · intro m hm hu
      obtain ⟨hm', hne⟩ := hback hm hu
      obtain ⟨k, hk, hs, hb⟩ := h.number m hm' hu
      refine ⟨k, hk, hs, ?_⟩
      change Function.update w.usedMinors (n.sysminor / w.partitions) false k = true
      rw [Function.update_of_ne (h.release hmem hm' hf.2.1 hu hne hs hk)]
      exact hb
    · intro a ha b hb hu hu' heq
      exact h.distinct a (hback ha hu).1 b (hback hb hu').1 hu hu' heq
  | finish hi hmem hf =>
    exact h.map rfl rfl rfl (keeps_at fun _ => ⟨rfl, rfl, rfl⟩)
  | passThree hi =>
    refine ⟨fun n hmem hu => h.number n (List.mem_filter.mp hmem).1 hu, ?_⟩
    exact fun n hmem m hmem' => h.distinct n (List.mem_filter.mp hmem).1 m (List.mem_filter.mp hmem').1

/-- Without a lost number every set bit belongs to a device. -/
theorem Change.tight (hleak : ¬G.leak) (c : Change G w w') (hn : Nodes w) (hnum : Numbers w) (h : Tight w) : Tight w' := by
  cases c with
  | same => exact h
  | tune b => exact h
  | wait hi h₀ h₁ => exact h
  | event hmem hs he =>
    exact h.map rfl rfl rfl (keeps_at fun _ => ⟨rfl, rfl, rfl⟩)
  | leak hg hk hlt => exact absurd hg hleak
  | @add k d hk hlt hd hrange hnew =>
    intro j hj
    change Function.update w.usedMinors k true j = true at hj
    by_cases heq : j = k
    · exact ⟨_, List.mem_cons_self, rfl, by rw [heq]; rfl⟩
    · rw [Function.update_of_ne heq] at hj
      obtain ⟨n, hmem, hu, hs⟩ := h j hj
      exact ⟨n, List.mem_cons_of_mem _ hmem, hu, hs⟩
  | passOne hg =>
    refine h.map rfl rfl rfl fun n => ?_
    split
    · exact ⟨rfl, rfl, rfl⟩
    · exact ⟨rfl, rfl, rfl⟩
  | claim hi hmem hd =>
    exact h.map rfl rfl rfl (keeps_at fun _ => ⟨rfl, rfl, rfl⟩)
  | teardown hi hmem hf =>
    exact h.map rfl rfl rfl (keeps_at fun _ => ⟨rfl, rfl, rfl⟩)
  | @minorFree i n hi hmem hf =>
    intro j hj
    change Function.update w.usedMinors (n.sysminor / w.partitions) false j = true at hj
    by_cases heq : j = n.sysminor / w.partitions
    · rw [heq, Function.update_self] at hj
      exact absurd hj Bool.noConfusion
    · rw [Function.update_of_ne heq] at hj
      obtain ⟨m, hm, hu, hs⟩ := h j hj
      have hne : m.id ≠ n.id := by
        intro hid
        rw [hn.eq_of_id hmem hm hid] at hs
        obtain ⟨k, hlt, -⟩ := hnum.number n hmem hf.2.1
        exact heq (by rw [hs, Nat.mul_div_cancel _ (partitions_pos hlt)])
      refine ⟨m, List.mem_map.mpr ⟨m, hm, if_neg hne⟩, hu, hs⟩
  | finish hi hmem hf =>
    exact h.map rfl rfl rfl (keeps_at fun _ => ⟨rfl, rfl, rfl⟩)
  | passThree hi =>
    intro j hj
    obtain ⟨n, hmem, hu, hs⟩ := h j hj
    refine ⟨n, List.mem_filter.mpr ⟨hmem, ?_⟩, hu, hs⟩
    rw [Bool.not_eq_true']
    by_contra hf
    have hun := (hn.staged n (List.mem_append_left _ hmem)).freed (by simpa using hf)
    exact absurd (hu.symm.trans hun) Bool.noConfusion

end Order

/-- Lists with `devlist_lock` free, reached by events that meet a guard. -/
def WorldReachedBy (ok : World → WorldEvent → World → Prop) (w : World) : Prop :=
  Reach (fun w => ∃ partitions dyndevs, w = worldInit partitions dyndevs) WorldStep ok w

def WorldReached (w : World) : Prop := WorldReachedBy (fun _ _ _ => True) w

section Rules

variable {ok : World → WorldEvent → World → Prop} {w w' : World}

theorem worldInit_order (partitions : ℕ) (dyndevs : Bool) :
    Nodes (worldInit partitions dyndevs) ∧ Numbers (worldInit partitions dyndevs) ∧ Tight (worldInit partitions dyndevs) := by
  refine ⟨?_, ?_, ?_⟩
  · constructor <;> simp [worldInit]
  · constructor <;> simp [worldInit]
  · intro k hk
    exact absurd hk (by simp [worldInit])

/-- A guard that lets everything happen. -/
def ListGuard.free : ListGuard := ⟨fun _ _ _ => True, True⟩

theorem ListGuard.free_meets (w : World) (e : WorldEvent) : ListGuard.free.Meets w e := by
  cases e with
  | cfgRsp => exact fun _ => trivial
  | _ => trivial

theorem world_ordered (h : WorldReachedBy ok w) : Nodes w ∧ Numbers w := by
  refine Reach.invariant (P := fun w => Nodes w ∧ Numbers w) ?_ ?_ h
  · rintro w ⟨p, b, rfl⟩
    exact ⟨(worldInit_order p b).1, (worldInit_order p b).2.1⟩
  · intro w e w' _ ⟨hn, hnum⟩ _ hs
    have hc := exec_change hn (ListGuard.free_meets w e) hs
    exact ⟨hc.nodes hn, hc.numbers hnum⟩

theorem world_keeps {G : ListGuard} {P : World → Prop} (hok : ∀ w e w', ok w e w' → G.Meets w e)
    (hinit : ∀ p b, P (worldInit p b))
    (hstep : ∀ w w', Nodes w → Numbers w → Change G w w' → P w → P w') (h : WorldReachedBy ok w) : P w := by
  refine Reach.invariant ?_ ?_ h
  · rintro w ⟨p, b, rfl⟩
    exact hinit p b
  · intro w e w' hr hP hg hs
    obtain ⟨hn, hnum⟩ := world_ordered hr
    exact hstep w w' hn hnum (exec_change hn (hok _ _ _ hg) hs) hP

end Rules

/-- The last list of a run, if all its events can happen and meet the guard. -/
def runWorld (ok : World → WorldEvent → Bool) (w : World) (es : List WorldEvent) : Option World :=
  execute (fun w e => if ok w e then w.exec e else none) w es

private theorem reachedBy_runWorld {ok : World → WorldEvent → Bool} {p : ℕ} {b : Bool} {w : World} (es : List WorldEvent)
    (hrun : runWorld ok (worldInit p b) es = some w) : WorldReachedBy (fun w e _ => ok w e) w := by
  exact Reach.guarded World.exec ok (fun _ _ _ h => h) es (.init ⟨p, b, rfl⟩) hrun

/-- Every event of a run can happen, and its last list passes a test. -/
structure WorldScene (ok : World → WorldEvent → Bool) (start : ℕ × Bool) (events : List WorldEvent) (test : World → Bool) :
    Type where
  passes : (runWorld ok (worldInit start.1 start.2) events).any test = true

theorem WorldScene.last {ok : World → WorldEvent → Bool} {start : ℕ × Bool} {events : List WorldEvent} {test : World → Bool}
    (s : WorldScene ok start events test) : ∃ w, WorldReachedBy (fun w e _ => ok w e) w ∧ test w = true := by
  obtain ⟨w, hw, ht⟩ := (Option.any_eq_true _ _).mp s.passes
  exact ⟨w, reachedBy_runWorld events hw, ht⟩

theorem WorldReachedBy.reached {ok : World → WorldEvent → World → Prop} {w : World} (h : WorldReachedBy ok w) :
    WorldReached w :=
  Reach.mono (fun _ _ _ _ => trivial) h

/-- No event is refused. -/
def anyEvent (_ : World) (_ : WorldEvent) : Bool := true

/-- The device at an address answers for the first time. -/
def sampleFound (maj min : ℕ) : WorldEvent := .cfgRsp maj min sampleCfg 4 180 128 ⟨10^9, 500000, 1000⟩ []

/-- Device `id` is found and its disk installed. -/
def sampleAdd (id maj min : ℕ) : List WorldEvent :=
  sampleFound maj min :: (sampleRun 0 2).map (.dev id) ++ .ataRsp maj min (sampleRsp 1 256) ::
    (sampleRun 0 2 ++ .ktioTake 0 :: sampleRun 0 5 ++ .sleepwork :: sampleRun 0 5).map (.dev id)

end AoeDriver
