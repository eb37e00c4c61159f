import AoeDriver.Life.Turn

/-!
# References and the disk

Two invariants of the turns. Every reference belongs to a frame on a queue or to a thread, and the flags of the
installation agree with the disk and with the thread that installs it.
-/

namespace AoeDriver

/-- The references are those of the queued frames and of the threads. -/
structure Refs (s : Blk) : Prop where
  count : s.ref = s.iocq.length + (s.threads.map Thread.refs).sum
  underflow : Counter.ref ∉ s.underflow

/-- Between setting and clearing `DEVFL_GD_NOW`. -/
def Thread.installs : Thread → Bool
  | .sleep .gdNow | .sleep .installed => true
  | _ => false

/-- What the flags say about the disk; more of it holds while the module stays loaded. -/
structure Disk (loaded : Prop) (s : Blk) : Prop where
  gdalloc : s.gdalloc = true → s.gd = none ∧ s.up = false ∧ (loaded → s.tkill = false)
  newsize : s.newsize = true → s.gd.isSome = true
  up : s.up = true → s.gd.isSome = true
  blkq : s.blkq = s.gd.isSome
  gdNow : s.threads.countP Thread.installs = if s.gdNow then 1 else 0
  alloc : .sleep .gdNow ∈ s.threads → s.gdalloc = true
  resizing : ∀ n, .sleep (.resizing n) ∈ s.threads → s.gd.isSome = true
  killed : loaded → s.tkill = true → s.gd = none → s.ref = 0
  warned : loaded → s.warned = false

section Lists

variable {α : Type} {l : List α} {i : ℕ} {a : α}

theorem perm_erased (hi : l[i]? = some a) : l.Perm (a :: l.eraseIdx i) := by
  obtain ⟨hlt, rfl⟩ := List.getElem?_eq_some_iff.mp hi
  exact (List.getElem_cons_eraseIdx_perm hlt).symm

theorem perm_replaced (hi : l[i]? = some a) (b : α) : (l.set i b).Perm (b :: l.eraseIdx i) := by
  obtain ⟨hlt, -⟩ := List.getElem?_eq_some_iff.mp hi
  exact List.set_perm_cons_eraseIdx hlt b

end Lists

section SetThread

variable {s : Blk} {i : ℕ} {th : Thread}

private theorem sum_setThread (hi : s.threads[i]? = some th) (next : Option Thread) :
    ((s.setThread i next).threads.map Thread.refs).sum + th.refs =
      (s.threads.map Thread.refs).sum + next.elim 0 Thread.refs := by
  have hs := ((perm_erased hi).map Thread.refs).sum_eq
  cases next with
  | none =>
    simp only [Blk.setThread, Option.elim_none]
    rw [hs, List.map_cons, List.sum_cons]
    omega
  | some th' =>
    have hr := ((perm_replaced hi th').map Thread.refs).sum_eq
    simp only [Blk.setThread, Option.elim_some]
    rw [hs, hr, List.map_cons, List.sum_cons, List.map_cons, List.sum_cons]
    omega

private theorem countP_setThread (hi : s.threads[i]? = some th) (next : Option Thread) :
    (s.setThread i next).threads.countP Thread.installs + (if th.installs then 1 else 0) =
      s.threads.countP Thread.installs + if next.elim false Thread.installs then 1 else 0 := by
  have hs := (perm_erased hi).countP_eq Thread.installs
  cases next with
  | none =>
    simp only [Blk.setThread, Option.elim_none]
    rw [hs, List.countP_cons]
    simp
  | some th' =>
    have hr := (perm_replaced hi th').countP_eq Thread.installs
    simp only [Blk.setThread, Option.elim_some]
    rw [hs, hr, List.countP_cons, List.countP_cons, add_right_comm]
    rfl

private theorem mem_setThread {next : Option Thread} {x : Thread} (hx : x ∈ (s.setThread i next).threads) :
    next = some x ∨ x ∈ s.threads := by
  cases next with
  | none => exact .inr (List.mem_of_mem_eraseIdx hx)
  | some th' =>
    rcases List.mem_or_eq_of_mem_set hx with hx | rfl
    · exact .inr hx
    · exact .inl rfl

private theorem refs_le_sum (hi : s.threads[i]? = some th) : th.refs ≤ (s.threads.map Thread.refs).sum :=
  List.single_le_sum (fun _ _ => Nat.zero_le _) _ (List.mem_map_of_mem (List.mem_of_getElem? hi))

private theorem installs_eq_false (hr : th.refs = 1) : th.installs = false := by
  cases th with
  | sleep pc => exact absurd hr Nat.zero_ne_one
  | _ => rfl

end SetThread

section Effects

variable {s : Blk}

private theorem ident_threads (s : Blk) (n : ℕ) : (s.ident n).threads = s.threads ∧ (s.ident n).iocq = s.iocq ∧
    (s.ident n).ref = s.ref ∧ (s.ident n).underflow = s.underflow := by
  unfold Blk.ident
  split
  · exact ⟨rfl, rfl, rfl, rfl⟩
  · split
    · exact ⟨rfl, rfl, rfl, rfl⟩
    · exact ⟨rfl, rfl, rfl, rfl⟩

private theorem worked_threads (s : Blk) (ok : Bool) (pc : SleepPc) : (s.worked ok pc).1.threads = s.threads ∧
    (s.worked ok pc).1.iocq = s.iocq ∧ (s.worked ok pc).1.ref = s.ref ∧ (s.worked ok pc).1.underflow = s.underflow := by
  cases pc with
  | gdalloc =>
    simp only [Blk.worked]
    split
    · exact ⟨rfl, rfl, rfl, rfl⟩
    · exact ⟨rfl, rfl, rfl, rfl⟩
  | gdNow =>
    simp only [Blk.worked]
    split
    · exact ⟨rfl, rfl, rfl, rfl⟩
    · exact ⟨rfl, rfl, rfl, rfl⟩
  | resize =>
    simp only [Blk.worked]
    split
    · exact ⟨rfl, rfl, rfl, rfl⟩
    · exact ⟨rfl, rfl, rfl, rfl⟩
  | start => exact ⟨rfl, rfl, rfl, rfl⟩
  | installed => exact ⟨rfl, rfl, rfl, rfl⟩
  | resizing n => exact ⟨rfl, rfl, rfl, rfl⟩

end Effects

section References

variable {G : Guard} {s s' : Blk}

theorem Refs.setThread {i : ℕ} {th : Thread} {next : Option Thread} (h : Refs s) (hi : s.threads[i]? = some th)
    (hr : next.elim 0 Thread.refs = th.refs) : Refs (s.setThread i next) := by
  refine ⟨?_, h.underflow⟩
  have hsum := sum_setThread hi next
  have hcount : s.ref = s.iocq.length + _ := h.count
  rw [hr] at hsum
  change s.ref = s.iocq.length + ((s.setThread i next).threads.map Thread.refs).sum
  omega

theorem Refs.put {i : ℕ} {th : Thread} {next : Option Thread} (h : Refs s) (hi : s.threads[i]? = some th)
    (hr : th.refs = 1) (hn : next.elim 0 Thread.refs = 0) : Refs (s.setThread i next).put := by
  have hsum := sum_setThread hi next
  have hpos := refs_le_sum hi
  have hcount := h.count
  have hne : s.ref ≠ 0 := by omega
  have hput : (s.setThread i next).put = { s.setThread i next with ref := s.ref - 1 } := by
    have href : (s.setThread i next).ref = s.ref := rfl
    rw [Blk.put, href, if_neg hne, predUlong, if_neg hne]
  rw [hput]
  refine ⟨?_, h.underflow⟩
  change s.ref - 1 = s.iocq.length + ((s.setThread i next).threads.map Thread.refs).sum
  omega

theorem Turn.refs (t : Turn G s s') (h : Refs s) : Refs s' := by
  have hcount := h.count
  cases t with
  | same => exact h
  | hold hk hr =>
    refine ⟨?_, h.underflow⟩
    simp only [List.map_append, List.sum_append, List.map_cons, List.map_nil, List.sum_singleton, hr]
    omega
  | work hw =>
    refine ⟨?_, h.underflow⟩
    simp only [List.map_append, List.sum_append, List.map_cons, List.map_nil, List.sum_singleton, Thread.refs]
    omega
  | take hq =>
    refine ⟨?_, h.underflow⟩
    simp only [List.map_append, List.sum_append, List.map_cons, List.map_nil, List.sum_singleton, Thread.refs]
    omega
  | @unqueue q fs hq =>
    have hfs : ((fs.map Thread.flush).map Thread.refs).sum = fs.length := by
      have hone : Thread.refs ∘ Thread.flush = fun _ => 1 := rfl
      simp [List.map_map, hone]
    refine ⟨?_, h.underflow⟩
    simp only [List.map_append, List.sum_append, hfs]
    omega
  | down hk hg => exact ⟨hcount, h.underflow⟩
  | kill hm hq hg => exact ⟨hcount, h.underflow⟩
  | opened hk => exact ⟨hcount, h.underflow⟩
  | released => exact ⟨hcount, h.underflow⟩
  | step hi hr hr' => exact h.setThread hi (hr'.trans hr.symm)
  | spawned hi => exact h.setThread hi rfl
  | @queue i f r p hi =>
    have hsum := sum_setThread hi none
    have hone : Thread.refs (.matched f r) = 1 := rfl
    refine ⟨?_, h.underflow⟩
    change s.ref = (s.iocq ++ [p]).length + ((s.setThread i none).threads.map Thread.refs).sum
    rw [hone, Option.elim_none] at hsum
    rw [List.length_append, List.length_singleton]
    omega
  | @put i th next hi hr hn =>
    refine h.put hi hr ?_
    rcases hn with rfl | ⟨id, -, rfl⟩
    · rfl
    · rfl
  | @ident i id n f data hi hg =>
    obtain ⟨h₁, h₂, h₃, h₄⟩ := ident_threads s n
    have h' : Refs (s.ident n) := ⟨by rw [h₁, h₂, h₃, hcount], by rw [h₄]; exact h.underflow⟩
    exact h'.setThread (h₁ ▸ hi) rfl
  | @sleep i pc ok hi =>
    obtain ⟨h₁, h₂, h₃, h₄⟩ := worked_threads s ok pc
    have h' : Refs (s.worked ok pc).1 := ⟨by rw [h₁, h₂, h₃, hcount], by rw [h₄]; exact h.underflow⟩
    refine h'.setThread (h₁ ▸ hi) ?_
    cases (s.worked ok pc).2 with
    | none => rfl
    | some pc' => rfl

end References

/-- The fields of the installation. -/
def Blk.flags (s : Blk) : Blk :=
  { s with threads := [], iocq := [], ref := 0, underflow := [], nopen := 0, workPending := false, ssize := 0 }

section Installation

variable {G : Guard} {s s' : Blk} {loaded : Prop}

/-- Threads come and go and the disk stays as it is. -/
theorem Disk.keep (h : Disk loaded s) (hf : s'.flags = s.flags)
    (hc : s'.threads.countP Thread.installs = s.threads.countP Thread.installs)
    (hpc : ∀ pc, .sleep pc ∈ s'.threads → pc = .start ∨ .sleep pc ∈ s.threads) (hr : s.ref = 0 → s.tkill = true → s'.ref = 0) :
    Disk loaded s' := by
  have hfield {β : Type} (φ : Blk → β) (hφ : ∀ s, φ s.flags = φ s) : φ s' = φ s := by rw [← hφ, hf, hφ]
  have hup : s'.up = s.up := hfield Blk.up fun _ => rfl
  have htkill : s'.tkill = s.tkill := hfield Blk.tkill fun _ => rfl
  have hgdalloc : s'.gdalloc = s.gdalloc := hfield Blk.gdalloc fun _ => rfl
  have hgdNow : s'.gdNow = s.gdNow := hfield Blk.gdNow fun _ => rfl
  have hnewsize : s'.newsize = s.newsize := hfield Blk.newsize fun _ => rfl
  have hwarned : s'.warned = s.warned := hfield Blk.warned fun _ => rfl
  have hgd : s'.gd = s.gd := hfield Blk.gd fun _ => rfl
  have hblkq : s'.blkq = s.blkq := hfield Blk.blkq fun _ => rfl
  constructor
  · rw [hgdalloc, hgd, hup, htkill]
    exact h.gdalloc
  · rw [hnewsize, hgd]
    exact h.newsize
  · rw [hup, hgd]
    exact h.up
  · rw [hblkq, hgd]
    exact h.blkq
  · rw [hc, hgdNow]
    exact h.gdNow
  · intro hmem
    rw [hgdalloc]
    rcases hpc _ hmem with hstart | hmem
    · exact absurd hstart (by simp)
    · exact h.alloc hmem
  · intro n hmem
    rw [hgd]
    rcases hpc _ hmem with hstart | hmem
    · exact absurd hstart (by simp)
    · exact h.resizing n hmem
  · rw [htkill, hgd]
    intro hl hk hg
    exact hr (h.killed hl hk hg) hk
  · rw [hwarned]
    exact h.warned

theorem Disk.setThread {i : ℕ} {th : Thread} {next : Option Thread} (h : Disk loaded s) (hi : s.threads[i]? = some th)
    (hr : th.installs = false) (hn : ∀ pc, next ≠ some (.sleep pc)) : Disk loaded (s.setThread i next) := by
  have hnext : next.elim false Thread.installs = false := by
    cases next with
    | none => rfl
    | some th' =>
      cases th' with
      | sleep pc => exact absurd rfl (hn pc)
      | _ => rfl
  refine h.keep rfl ?_ ?_ (fun hz _ => hz)
  · have hc := countP_setThread hi next
    rw [hr, hnext] at hc
    simpa using hc
  · intro pc hmem
    rcases mem_setThread hmem with hx | hx
    · exact absurd hx (hn pc)
    · exact .inr hx

/-- A turn of the worker: its own thread is the only one that moves. -/
theorem Disk.worked {i : ℕ} {pc : SleepPc} (h : Disk loaded s) (ok : Bool) (hi : s.threads[i]? = some (.sleep pc)) :
    Disk loaded ((s.worked ok pc).1.setThread i ((s.worked ok pc).2.map .sleep)) := by
  have hmem : Thread.sleep pc ∈ s.threads := List.mem_of_getElem? hi
  have hcount (next : Option Thread) := countP_setThread hi next
  have hbusy (hb : Thread.installs (.sleep pc) = true) : s.gdNow = true := by
    have hpos : 0 < s.threads.countP Thread.installs := List.countP_pos_iff.mpr ⟨_, hmem, hb⟩
    rw [h.gdNow] at hpos
    by_contra hne
    rw [if_neg hne] at hpos
    exact absurd hpos (lt_irrefl 0)
  -- a step that leaves the device alone and goes on to a point that is not part of the installation
  have hidle (next : Option SleepPc) (hb : Thread.installs (.sleep pc) = false)
      (hn : (next.map Thread.sleep).elim false Thread.installs = false)
      (hr : ∀ n, next = some (.resizing n) → s.gd.isSome = true) : Disk loaded (s.setThread i (next.map .sleep)) := by
    have hc := hcount (next.map .sleep)
    rw [hb, hn] at hc
    have hsleep {pc' : SleepPc} (hx : Thread.sleep pc' ∈ (s.setThread i (next.map .sleep)).threads) :
        next = some pc' ∨ Thread.sleep pc' ∈ s.threads := by
      rcases mem_setThread hx with hx | hx
      · obtain ⟨q, hq, heq⟩ := Option.map_eq_some_iff.mp hx
        rw [Thread.sleep.injEq] at heq
        exact .inl (heq ▸ hq)
      · exact .inr hx
    refine { h with gdNow := ?_, alloc := ?_, resizing := ?_ }
    · exact (by simpa using hc : (s.setThread i (next.map .sleep)).threads.countP _ = _).trans h.gdNow
    · intro hx
      rcases hsleep hx with hx | hx
      · rw [hx] at hn
        exact absurd hn (by simp [Thread.installs])
      · exact h.alloc hx
    · intro n hx
      rcases hsleep hx with hx | hx
      · exact hr n hx
      · exact h.resizing n hx
  cases pc with
  | start =>
    simp only [Blk.worked]
    split
    · exact hidle (some .gdalloc) rfl rfl (by simp)
    · exact hidle (some .resize) rfl rfl (by simp)
  | gdalloc =>
    simp only [Blk.worked]
    split
    · rename_i hc
      simp only [Bool.and_eq_true, Bool.not_eq_true'] at hc
      have hzero : s.threads.countP Thread.installs = 0 := by rw [h.gdNow, hc.2, if_neg Bool.false_ne_true]
      have hone := hcount (some (.sleep .gdNow))
      rw [hzero] at hone
      refine { h with gdNow := hone, alloc := fun _ => hc.1.1, resizing := ?_ }
      intro n hx
      rcases mem_setThread hx with hx | hx
      · exact absurd hx (by simp)
      · exact h.resizing n hx
    · exact hidle (some .resize) rfl rfl (by simp)
  | gdNow =>
    have hnow := hbusy rfl
    obtain ⟨hgd, hup, hkill⟩ := h.gdalloc (h.alloc hmem)
    have hone : s.threads.countP Thread.installs = 1 := by rw [h.gdNow, hnow, if_pos rfl]
    have hnone {next : Thread} (hn : next.installs = false) :
        (s.setThread i (some next)).threads.countP Thread.installs = 0 := by
      have hc := hcount (some next)
      rw [hone, Option.elim_some, hn] at hc
      simpa [Thread.installs] using hc
    simp only [Blk.worked]
    split
    · have hc := hcount (some (.sleep .installed))
      have hinst : (s.setThread i (some (.sleep .installed))).threads.countP Thread.installs = 1 := by
        rw [hone] at hc
        simpa [Thread.installs] using hc
      refine ⟨by simp [Blk.setThread], fun _ => rfl, fun _ => rfl, rfl, ?_, ?_, fun _ _ => rfl, ?_, ?_⟩
      · exact hinst.trans (by simp [Blk.setThread, hnow])
      · -- the only thread in the installation has left this point
        intro hx
        have hzero : (s.threads.eraseIdx i).countP Thread.installs = 0 := by
          rw [(perm_erased hi).countP_eq, List.countP_cons] at hone
          simpa [Thread.installs] using hone
        have hx' : Thread.sleep .gdNow ∈ s.threads.set i (.sleep .installed) := hx
        rw [(perm_replaced hi _).mem_iff, List.mem_cons] at hx'
        rcases hx' with hx' | hx'
        · exact absurd hx' (by simp)
        · exact absurd rfl (List.countP_eq_zero.mp hzero _ hx')
      · intro _ _ hx
        exact absurd hx (by simp [Blk.setThread])
      · intro hl
        simp [Blk.setThread, h.warned hl, hnow, h.alloc hmem, hkill hl, hgd, hup]
    · have hz := @hnone (.sleep .resize) rfl
      refine { h with gdNow := hz, alloc := ?_, resizing := ?_ }
      · intro hx
        exact absurd rfl (List.countP_eq_zero.mp hz _ hx)
      · intro n hx
        rcases mem_setThread hx with hx | hx
        · exact absurd hx (by simp)
        · exact h.resizing n hx
  | installed =>
    have hnow := hbusy rfl
    have hc := hcount (some (.sleep .resize))
    rw [h.gdNow, hnow] at hc
    have hz : (s.setThread i (some (.sleep .resize))).threads.countP Thread.installs = 0 := by
      simpa [Thread.installs] using hc
    refine { h with gdNow := hz, alloc := ?_, resizing := ?_, warned := ?_ }
    · intro hx
      exact absurd rfl (List.countP_eq_zero.mp hz _ hx)
    · intro n hx
      rcases mem_setThread hx with hx | hx
      · exact absurd hx (by simp [Blk.worked])
      · exact h.resizing n hx
    · intro hl
      simp [Blk.worked, Blk.setThread, h.warned hl, hnow]
  | resize =>
    simp only [Blk.worked]
    split
    · rename_i hn
      exact hidle (some (.resizing _)) rfl rfl fun _ _ => h.newsize hn
    · exact hidle none rfl rfl (by simp)
  | resizing n =>
    have hgd := h.resizing n hmem
    have hmap : (s.gd.map fun gd => { gd with bdSize := n * 512 }).isSome = true := by rw [Option.isSome_map, hgd]
    have hk := hidle none rfl rfl (by simp)
    refine { hk with gdalloc := ?_, newsize := ?_, up := fun _ => hmap, blkq := ?_, resizing := fun _ _ => hmap, killed := ?_ }
    · intro ha
      have hnone := (h.gdalloc ha).1
      rw [hnone] at hgd
      exact absurd hgd (by simp)
    · intro hx
      exact absurd hx Bool.false_ne_true
    · exact h.blkq.trans (hgd.trans hmap.symm)
    · intro _ _ hx
      have hx' : (s.gd.map fun gd => { gd with bdSize := n * 512 }) = none := hx
      rw [hx'] at hmap
      exact absurd hmap (by simp)

/-- An identify response comes from a thread with a reference, so the device has a disk if it is to be removed. -/
theorem Disk.ident (h : Disk loaded s) (hr : s.ref ≠ 0) (n : ℕ) : Disk loaded (s.ident n) := by
  unfold Blk.ident
  split
  · exact h.keep rfl rfl (fun _ hx => .inr hx) fun hz _ => hz
  · rename_i hflags
    simp only [Bool.or_eq_true, not_or, Bool.not_eq_true] at hflags
    split
    · rename_i gd hgd
      have hsome : s.gd.isSome = true := by rw [hgd, Option.isSome_some]
      refine { h with
        gdalloc := ?_, newsize := fun _ => rfl, up := fun _ => rfl, blkq := ?_, resizing := fun _ _ => rfl, killed := ?_ }
      · intro ha
        rw [hflags.1] at ha
        exact absurd ha Bool.false_ne_true
      · exact h.blkq.trans hsome
      · intro _ _ hx
        exact absurd hx (by simp)
    · rename_i hgd
      have hkill (hl : loaded) : s.tkill = false := by
        by_contra hk
        exact hr (h.killed hl (by simpa using hk) hgd)
      have hup : s.up = false := by
        by_contra hu
        have hsome := h.up (by simpa using hu)
        rw [hgd] at hsome
        exact absurd hsome (by simp)
      exact { h with gdalloc := fun _ => ⟨hgd, hup, hkill⟩, alloc := fun _ => rfl }

theorem Disk.shut (h : Disk loaded s) : Disk loaded s.shut := by
  have hgd : s.shut.gd.isSome = s.gd.isSome := Option.isSome_map
  have hnone : s.shut.gd = none ↔ s.gd = none := Option.map_eq_none_iff
  refine { h with
    gdalloc := ?_, newsize := ?_, up := ?_, blkq := h.blkq.trans hgd.symm, resizing := ?_, killed := ?_ }
  · intro ha
    exact ⟨hnone.mpr (h.gdalloc ha).1, rfl, (h.gdalloc ha).2.2⟩
  · intro hn
    exact hgd.trans (h.newsize hn)
  · intro hu
    exact absurd hu Bool.false_ne_true
  · intro n hx
    exact hgd.trans (h.resizing n hx)
  · intro hl hk hg
    exact h.killed hl hk (hnone.mp hg)

theorem Turn.disk (hG : loaded → ∀ mode s, G.kill mode s → mode ≠ .exiting) (t : Turn G s s') (hr : Refs s) (h : Disk loaded s) :
    Disk loaded s' := by
  have hcount := hr.count
  have hbusy {i : ℕ} {th : Thread} (hi : s.threads[i]? = some th) (h₁ : th.refs = 1) : s.ref ≠ 0 := by
    have hle := refs_le_sum hi
    omega
  cases t with
  | same => exact h
  | @hold th hk hth =>
    refine h.keep rfl ?_ ?_ ?_
    · simp [installs_eq_false hth]
    · intro pc hx
      rcases List.mem_append.mp hx with hx | hx
      · exact .inr hx
      · rw [List.mem_singleton] at hx
        rw [← hx] at hth
        exact absurd hth Nat.zero_ne_one
    · intro _ hk'
      rw [hk] at hk'
      exact absurd hk' Bool.false_ne_true
  | work hw =>
    refine h.keep rfl ?_ ?_ (fun hz _ => hz)
    · simp [Thread.installs]
    · intro pc hx
      rcases List.mem_append.mp hx with hx | hx
      · exact .inr hx
      · rw [List.mem_singleton, Thread.sleep.injEq] at hx
        exact .inl hx
  | take hq =>
    refine h.keep rfl ?_ ?_ (fun hz _ => hz)
    · simp [Thread.installs]
    · intro pc hx
      rcases List.mem_append.mp hx with hx | hx
      · exact .inr hx
      · exact absurd (List.mem_singleton.mp hx) (by simp)
  | @unqueue q fs hq =>
    refine h.keep rfl ?_ ?_ (fun hz _ => hz)
    · have hnone : Thread.installs ∘ Thread.flush = fun _ => false := rfl
      simp [List.countP_map, hnone]
    · intro pc hx
      rcases List.mem_append.mp hx with hx | hx
      · exact .inr hx
      · obtain ⟨f, -, hf⟩ := List.mem_map.mp hx
        exact absurd hf (by simp)
  | down hk hg => exact h.shut
  | @kill mode hm hq hg =>
    have hs := h.shut
    refine { hs with gdalloc := ?_, killed := ?_ }
    · intro ha
      have hgd := (h.gdalloc ha).1
      refine ⟨(hs.gdalloc ha).1, rfl, fun hl => ?_⟩
      cases mode with
      | exiting => exact absurd rfl (hG hl _ s hg)
      | named =>
        have hsome := hm rfl
        rw [hgd] at hsome
        exact absurd hsome (by simp)
      | default => exact absurd ((hq (.inl rfl)).1.symm.trans ha) Bool.false_ne_true
      | all => exact absurd ((hq (.inr rfl)).1.symm.trans ha) Bool.false_ne_true
    · intro hl _ hgd
      have hgd' : s.gd = none := Option.map_eq_none_iff.mp hgd
      cases mode with
      | exiting => exact absurd rfl (hG hl _ s hg)
      | named =>
        have hsome := hm rfl
        rw [hgd'] at hsome
        exact absurd hsome (by simp)
      | default => exact (hq (.inl rfl)).2.2.2.2
      | all => exact (hq (.inr rfl)).2.2.2.2
  | opened hk => exact h.keep rfl rfl (fun _ hx => .inr hx) fun hz _ => hz
  | released => exact h.keep rfl rfl (fun _ hx => .inr hx) fun hz _ => hz
  | @step i th th' hi h₁ h₂ =>
    refine h.setThread hi (installs_eq_false h₁) fun pc hpc => ?_
    rw [Option.some.injEq] at hpc
    rw [hpc] at h₂
    exact absurd h₂ Nat.zero_ne_one
  | spawned hi => exact h.setThread hi rfl fun _ => by simp
  | queue hi =>
    have hs : Disk loaded (s.setThread _ none) := h.setThread hi rfl fun _ => by simp
    exact hs.keep rfl rfl (fun _ hx => .inr hx) fun hz _ => hz
  | @put i th next hi h₁ hn =>
    have hs : Disk loaded (s.setThread i next) := by
      refine h.setThread hi (installs_eq_false h₁) fun pc => ?_
      rcases hn with rfl | ⟨id, -, rfl⟩
      · simp
      · simp
    refine hs.keep rfl rfl (fun _ hx => .inr hx) fun hz _ => ?_
    exact absurd hz (hbusy hi h₁)
  | @ident i id n f data hi hg =>
    have hs := h.ident (hbusy hi rfl) n
    have hi' : (s.ident n).threads[i]? = some (.ktioMid id f (.ident data)) := by
      rw [(ident_threads s n).1]
      exact hi
    exact hs.setThread hi' rfl fun _ => by simp
  | @sleep i pc ok hi => exact h.worked ok hi

end Installation

/-- A device that is up, or about to be after a change of its size, has the capacity last reported. -/
def Sized (s : Blk) : Prop :=
  (s.up = true ∨ s.newsize = true ∨ ∃ n, .sleep (.resizing n) ∈ s.threads) → ∃ gd, s.gd = some gd ∧ gd.capacity = s.ssize

/-- No change of the size is pending. -/
def Blk.settled (s : Blk) : Prop := s.newsize = false ∧ ∀ n, .sleep (.resizing n) ∉ s.threads

/-- The device fails only while no change of its size is pending, and while one is no other size is reported. -/
def Guard.sized : Guard :=
  ⟨Blk.settled, fun _ => Blk.settled, fun s n => s.newsize = true → s.gd.map Gendisk.capacity = some n⟩

section Capacity

variable {s s' : Blk}

theorem Sized.keep (h : Sized s) (hup : s'.up = true → s.up = true) (hn : s'.newsize = true → s.newsize = true)
    (hgd : s'.gd = s.gd) (hs : s'.ssize = s.ssize)
    (hpc : ∀ n, .sleep (.resizing n) ∈ s'.threads → .sleep (.resizing n) ∈ s.threads) : Sized s' := by
  intro hor
  rw [hgd, hs]
  apply h
  rcases hor with h' | h' | ⟨n, h'⟩
  · exact .inl (hup h')
  · exact .inr (.inl (hn h'))
  · exact .inr (.inr ⟨n, hpc n h'⟩)

theorem Sized.shut (h : s.settled) : Sized s.shut := by
  rintro (hup | hn | ⟨n, hmem⟩)
  · exact absurd hup Bool.false_ne_true
  · exact absurd (h.1.symm.trans hn) Bool.false_ne_true
  · exact absurd hmem (h.2 n)

theorem Sized.ident (h : Sized s) (hd : Disk False s) {n : ℕ} (hg : Guard.sized.ident s n) : Sized (s.ident n) := by
  unfold Blk.ident
  split
  · rename_i hflags
    intro hor
    cases hn : s.newsize with
    | true =>
      obtain ⟨gd, hgd, hcap⟩ := Option.map_eq_some_iff.mp (hg hn)
      exact ⟨gd, hgd, hcap⟩
    | false =>
      -- the first identify response is still at work, so there is no disk and the device is down
      rw [hn, Bool.or_false] at hflags
      obtain ⟨hgd, hup, -⟩ := hd.gdalloc hflags
      rcases hor with h' | h' | ⟨m, h'⟩
      · exact absurd (hup.symm.trans h') Bool.false_ne_true
      · exact absurd (hn.symm.trans h') Bool.false_ne_true
      · have hsome := hd.resizing m h'
        rw [hgd] at hsome
        exact absurd hsome Bool.false_ne_true
  · split
    · rename_i gd hgd
      exact fun _ => ⟨_, rfl, rfl⟩
    · rename_i hflags _ hgd
      simp only [Bool.or_eq_true, not_or, Bool.not_eq_true] at hflags
      intro hor
      obtain ⟨gd, hsome, -⟩ := h (by simpa [hflags.2] using hor)
      rw [hgd] at hsome
      exact absurd hsome (by simp)

theorem Sized.worked {i : ℕ} {pc : SleepPc} (h : Sized s) (ok : Bool) (hi : s.threads[i]? = some (.sleep pc)) :
    Sized ((s.worked ok pc).1.setThread i ((s.worked ok pc).2.map .sleep)) := by
  have hmem : Thread.sleep pc ∈ s.threads := List.mem_of_getElem? hi
  have hold {s₁ : Blk} {next : Option SleepPc} (hth : s₁.threads = s.threads) (hn : ∀ n, next ≠ some (.resizing n)) (n : ℕ)
      (hx : Thread.sleep (.resizing n) ∈ (s₁.setThread i (next.map .sleep)).threads) : .sleep (.resizing n) ∈ s.threads := by
    rcases mem_setThread hx with hx | hx
    · obtain ⟨q, hq, heq⟩ := Option.map_eq_some_iff.mp hx
      rw [Thread.sleep.injEq] at heq
      exact absurd (heq ▸ hq) (hn n)
    · rwa [hth] at hx
  cases pc with
  | start =>
    refine h.keep id id rfl rfl (hold rfl ?_)
    intro n
    simp only [Blk.worked]
    split
    · simp
    · simp
  | gdalloc =>
    simp only [Blk.worked]
    split
    · exact h.keep id id rfl rfl (hold rfl (by simp))
    · exact h.keep id id rfl rfl (hold rfl (by simp))
  | gdNow =>
    simp only [Blk.worked]
    split
    · exact fun _ => ⟨_, rfl, rfl⟩
    · exact h.keep id id rfl rfl (hold rfl (by simp))
  | installed => exact h.keep id id rfl rfl (hold rfl (by simp [Blk.worked]))
  | resize =>
    simp only [Blk.worked]
    split
    · rename_i hn
      exact fun _ => h (.inr (.inl hn))
    · exact h.keep id id rfl rfl (hold rfl (by simp))
  | resizing n =>
    obtain ⟨gd, hgd, hcap⟩ := h (.inr (.inr ⟨n, hmem⟩))
    intro _
    refine ⟨{ gd with bdSize := n * 512 }, ?_, hcap⟩
    change s.gd.map _ = _
    rw [hgd, Option.map_some]

theorem Turn.sized (t : Turn Guard.sized s s') (hd : Disk False s) (h : Sized s) : Sized s' := by
  have happend {ts : List Thread} (hts : ∀ n, .sleep (.resizing n) ∉ ts) (n : ℕ)
      (hx : Thread.sleep (.resizing n) ∈ s.threads ++ ts) : .sleep (.resizing n) ∈ s.threads := by
    rcases List.mem_append.mp hx with hx | hx
    · exact hx
    · exact absurd hx (hts n)
  have hset {s₁ : Blk} {i : ℕ} {next : Option Thread} (hn : ∀ pc, next ≠ some (.sleep pc)) (n : ℕ)
      (hx : Thread.sleep (.resizing n) ∈ (s₁.setThread i next).threads) : .sleep (.resizing n) ∈ s₁.threads := by
    rcases mem_setThread hx with hx | hx
    · exact absurd hx (hn _)
    · exact hx
  cases t with
  | same => exact h
  | @hold th hk hr =>
    refine h.keep id id rfl rfl (happend fun n hx => ?_)
    rw [← List.mem_singleton.mp hx] at hr
    exact absurd hr Nat.zero_ne_one
  | work hw => exact h.keep id id rfl rfl (happend (by simp))
  | take hq => exact h.keep id id rfl rfl (happend (by simp))
  | unqueue hq => exact h.keep id id rfl rfl (happend (by simp))
  | down hk hg => exact Sized.shut hg
  | kill hm hq hg => exact (Sized.shut hg).keep id id rfl rfl fun _ hx => hx
  | opened hk => exact h.keep id id rfl rfl fun _ hx => hx
  | released => exact h.keep id id rfl rfl fun _ hx => hx
  | @step i th th' hi hr hr' =>
    refine h.keep id id rfl rfl (hset fun pc hpc => ?_)
    rw [Option.some.injEq] at hpc
    rw [hpc] at hr'
    exact absurd hr' Nat.zero_ne_one
  | spawned hi => exact h.keep id id rfl rfl (hset (by simp))
  | queue hi => exact h.keep id id rfl rfl fun _ hx => List.mem_of_mem_eraseIdx hx
  | @put i th next hi hr hn =>
    refine h.keep id id rfl rfl (hset fun pc => ?_)
    rcases hn with rfl | ⟨id, -, rfl⟩
    · simp
    · simp
  | ident hi hg => exact (h.ident hd hg).keep id id rfl rfl (hset (by simp))
  | sleep ok hi => exact h.worked ok hi

end Capacity

section Runs

variable {ok : Aoedev → Event → Aoedev → Prop} {d : Aoedev} {G : Guard}

private theorem reachedBy_life {P : Blk → Prop} (hok : ∀ s e s', ok s e s' → G.Meets s e)
    (hinit : ∀ s, Initial s → P s.life) (hturn : ∀ s s', Turn G s s' → P s → P s') (h : ReachedBy ok d) : P d.life := by
  refine Machine.Reach.invariant (P := fun d => P d.life) hinit ?_ h
  intro s e s' hs hp hguard hstep
  exact hturn _ _ (exec_turn (reachedBy_good hs).1 (hok s e s' hguard) hstep.1) hp

private theorem initial_refs (hd : Initial d) : Refs d.life := by
  obtain ⟨a, b, n, s, m, clock, c, rfl⟩ := hd
  have hnone : (initial a b n s m clock c).life.underflow = [] := rfl
  exact ⟨rfl, by simp [hnone]⟩

private theorem initial_disk {loaded : Prop} (hd : Initial d) : Disk loaded d.life := by
  obtain ⟨a, b, n, s, m, clock, c, rfl⟩ := hd
  have hgd : (initial a b n s m clock c).life.gd = none := rfl
  have hth : (initial a b n s m clock c).life.threads = [.cfg c] := rfl
  have hoff {b : Bool} (hb : b = false) {p : Prop} (ht : b = true) : p :=
    absurd (hb.symm.trans ht) Bool.false_ne_true
  refine ⟨hoff rfl, hoff rfl, hoff rfl, rfl, rfl, ?_, ?_, fun _ => hoff rfl, fun _ => rfl⟩
  · rw [hth]
    simp
  · rw [hth]
    simp

private theorem initial_sized (hd : Initial d) : Sized d.life := by
  obtain ⟨a, b, n, s, m, clock, c, rfl⟩ := hd
  have hth : (initial a b n s m clock c).life.threads = [.cfg c] := rfl
  rintro (hup | hn | ⟨m, hmem⟩)
  · exact absurd hup Bool.false_ne_true
  · exact absurd hn Bool.false_ne_true
  · rw [hth] at hmem
    exact absurd hmem (by simp)

theorem reachedBy_refs (h : ReachedBy ok d) : Refs d.life :=
  reachedBy_life (G := ⟨fun _ => True, fun _ _ => True, fun _ _ => True⟩)
    (fun s e s' _ => by cases e <;> simp [Guard.Meets]) (fun _ => initial_refs) (fun _ _ t => t.refs) h

theorem reachedBy_disk {loaded : Prop} (hG : loaded → ∀ mode s, G.kill mode s → mode ≠ .exiting)
    (hok : ∀ s e s', ok s e s' → G.Meets s e) (h : ReachedBy ok d) : Disk loaded d.life := by
  have hboth := reachedBy_life (P := fun s => Refs s ∧ Disk loaded s) hok
    (fun _ hd => ⟨initial_refs hd, initial_disk hd⟩) (fun _ _ t hs => ⟨t.refs hs.1, t.disk hG hs.1 hs.2⟩) h
  exact hboth.2

theorem reachedBy_sized (hok : ∀ s e s', ok s e s' → Guard.sized.Meets s e) (h : ReachedBy ok d) : Sized d.life := by
  have hall := reachedBy_life (P := fun s => Refs s ∧ Disk False s ∧ Sized s) hok
    (fun _ hd => ⟨initial_refs hd, initial_disk hd, initial_sized hd⟩)
    (fun _ _ t hs => ⟨t.refs hs.1, t.disk False.elim hs.1 hs.2.1, t.sized hs.2.1 hs.2.2⟩) h
  exact hall.2.2

end Runs

end AoeDriver
