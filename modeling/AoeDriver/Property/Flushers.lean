import AoeDriver.Devlist.Order

/-!
# Calls of flush side by side

`flush` lets go of `devlist_lock` in front of `freedev`, which takes `d->lock` before anything tells it that the device is
still there. Behind that section the device belongs to the call. In front of it, it does only if no other call of
`flush` is in progress.
-/

namespace AoeDriver

open Machine

/-- No call of `flush` starts while another one is in progress. -/
def flushesLone (w : World) : WorldEvent → Bool
  | .flush _ _ => w.flushes.isEmpty
  | _ => true

def World.Listed (w : World) (id : ℕ) : Prop := ∃ n ∈ w.devlist, n.id = id

section Lone

variable {w w' : World} {id : ℕ}

private theorem listed_modNode (h : w.Listed id) {k : ℕ} {g : Node → Node} (hg : ∀ n, (g n).id = n.id) :
    (w.modNode k g).Listed id := by
  obtain ⟨n, hn, rfl⟩ := h
  refine ⟨_, List.mem_map_of_mem hn, ?_⟩
  split
  · exact hg n
  · rfl

private theorem aoedevByAoeaddr_keeps (w : World) (maj min : ℕ) (doAlloc : Option Aoedev) (kcalloc : List Bool)
    (th : Thread) : (aoedevByAoeaddr w maj min doAlloc kcalloc th).1.flushes = w.flushes ∧
      ∀ id, w.Listed id → (aoedevByAoeaddr w maj min doAlloc kcalloc th).1.Listed id := by
  unfold aoedevByAoeaddr
  split
  · split
    · exact ⟨rfl, fun id h => h⟩
    · exact ⟨rfl, fun id h => listed_modNode h fun _ => rfl⟩
  · split
    · exact ⟨rfl, fun id h => h⟩
    · rcases minorGet_spec w maj min with hm | ⟨k, hk⟩
      · simp [hm]
      · simp only [hk.2.2]
        split
        · exact ⟨rfl, fun id h => h⟩
        · split
          · exact ⟨rfl, fun id h => h⟩
          · refine ⟨rfl, fun id h => ?_⟩
            obtain ⟨n, hn, hid⟩ := h
            exact ⟨n, List.mem_cons_of_mem _ hn, hid⟩

private theorem exec_listed {e : WorldEvent} (he : w.exec e = some w') (hne : ∀ i, e ≠ .flushStep i) (h : w.Listed id) :
    w'.Listed id := by
  cases e with
  | dyndevs b => exact Option.some.inj he ▸ h
  | ataRsp maj min r => exact Option.some.inj he ▸ (aoedevByAoeaddr_keeps _ _ _ _ _ _).2 id h
  | cfgRsp maj min c ncpus deadsecs maxout clock kcalloc =>
    simp only [World.exec, Option.ite_none_right_eq_some, Option.some.injEq] at he
    exact he.2 ▸ (aoedevByAoeaddr_keeps _ _ _ _ _ _).2 id h
  | revalidate maj min => exact Option.some.inj he ▸ (aoedevByAoeaddr_keeps _ _ _ _ _ _).2 id h
  | dev k e =>
    simp only [World.exec] at he
    split at he
    · simp only [Option.ite_none_right_eq_some, Option.map_eq_some_iff] at he
      obtain ⟨-, d, -, rfl⟩ := he
      exact listed_modNode h fun _ => rfl
    · simp at he
  | flush exiting str =>
    obtain ⟨n, hn, rfl⟩ := h
    rw [← Option.some.inj he]
    refine ⟨_, List.mem_map_of_mem hn, ?_⟩
    split
    · rfl
    · rfl
  | flushStep i => exact absurd rfl (hne i)

/-- The calls of `flush` after an event that is not one of their steps. -/
private theorem exec_flushes {e : WorldEvent} (he : w.exec e = some w') (hne : ∀ i, e ≠ .flushStep i) :
    w'.flushes = w.flushes ∨ (∃ exiting str, e = .flush exiting str) ∧ w'.flushes = w.flushes ++ [.passTwo] := by
  cases e with
  | dyndevs b =>
    left
    rw [← Option.some.inj he]
  | ataRsp maj min r =>
    left
    rw [← Option.some.inj he, (aoedevByAoeaddr_keeps _ _ _ _ _ _).1]
  | cfgRsp maj min c ncpus deadsecs maxout clock kcalloc =>
    left
    simp only [World.exec, Option.ite_none_right_eq_some, Option.some.injEq] at he
    rw [← he.2, (aoedevByAoeaddr_keeps _ _ _ _ _ _).1]
  | revalidate maj min =>
    left
    rw [← Option.some.inj he, (aoedevByAoeaddr_keeps _ _ _ _ _ _).1]
  | dev k e =>
    left
    simp only [World.exec] at he
    split at he
    · simp only [Option.ite_none_right_eq_some, Option.map_eq_some_iff] at he
      obtain ⟨-, d, -, rfl⟩ := he
      rfl
    · simp at he
  | flush exiting str =>
    right
    rw [← Option.some.inj he]
    exact ⟨⟨exiting, str, rfl⟩, rfl⟩
  | flushStep i => exact absurd rfl (hne i)

/-- The one call in progress, and its device as long as it stands in front of the gate. -/
structure LoneFlush (w : World) : Prop where
  short : w.flushes.length ≤ 1
  gate : ∀ id, .freedev id ∈ w.flushes → w.Listed id

theorem LoneFlush.flushStep (h : LoneFlush w) {i : ℕ} {pc : FlushPc} (hi : w.flushes[i]? = some pc) :
    LoneFlush (flushStep w i pc) := by
  obtain ⟨hlt, -⟩ := List.getElem?_eq_some_iff.mp hi
  have hone : w.flushes.length = 1 := by
    have hshort := h.short
    omega
  obtain ⟨pc', hpc⟩ := List.length_eq_one_iff.mp hone
  have hzero : i = 0 := by omega
  subst hzero
  have hset (w' : World) (pc : FlushPc) (hw : w'.flushes = w.flushes) (hg : ∀ id, pc = .freedev id → w'.Listed id) :
      LoneFlush (w'.setFlush 0 pc) := by
    have hf : (w'.setFlush 0 pc).flushes = [pc] := by simp [World.setFlush, hw, hpc]
    constructor
    · simp [hf]
    · intro id hid
      rw [hf, List.mem_singleton] at hid
      exact hg id hid.symm
  cases pc with
  | passTwo =>
    unfold AoeDriver.flushStep
    dsimp only
    split
    · rename_i n hfind
      apply hset w _ rfl
      intro id hid
      exact ⟨n, List.mem_of_find?_eq_some hfind, FlushPc.freedev.inj hid⟩
    · have hf : (passThree w 0).flushes = [] := by simp [passThree, hpc]
      constructor
      · simp [hf]
      · simp [hf]
  | freedev id =>
    unfold AoeDriver.flushStep
    dsimp only
    split
    · split
      · exact hset _ _ rfl (by simp)
      · exact hset _ _ rfl (by simp)
    · exact hset _ _ rfl (by simp)
  | teardown id => exact hset _ _ rfl (by simp)
  | minorFree id =>
    unfold AoeDriver.flushStep
    dsimp only
    split
    · exact hset _ _ rfl (by simp)
    · exact hset _ _ rfl (by simp)
  | finish id => exact hset _ _ rfl (by simp)

theorem LoneFlush.exec (h : LoneFlush w) {e : WorldEvent} (hg : flushesLone w e = true) (he : w.exec e = some w') :
    LoneFlush w' := by
  by_cases hstep : ∃ i, e = .flushStep i
  · obtain ⟨i, rfl⟩ := hstep
    simp only [World.exec, Option.map_eq_some_iff] at he
    obtain ⟨pc, hi, rfl⟩ := he
    exact h.flushStep hi
  · have hne : ∀ i, e ≠ .flushStep i := fun i hi => hstep ⟨i, hi⟩
    rcases exec_flushes he hne with hf | ⟨⟨exiting, str, rfl⟩, hf⟩
    · constructor
      · rw [hf]
        exact h.short
      · rw [hf]
        intro id hid
        exact exec_listed he hne (h.gate id hid)
    · have hnone : w.flushes = [] := by simpa [flushesLone] using hg
      constructor
      · simp [hf, hnone]
      · simp [hf, hnone]

/-- A call of `freedev` that has set `DEVFL_FREEING` has its device on the list and to itself, whatever other calls of
`flush` do; one that has not yet finds its device there if no two calls of `flush` overlap. -/
theorem freedev_finds_device :
    (∀ w, WorldReached w → (w.flushes.filterMap FlushPc.work).Nodup ∧
      ∀ pc ∈ w.flushes, ∀ id, pc.work = some id → ∃ n ∈ w.devlist, n.id = id ∧ n.freeing = true ∧ n.freed = false) ∧
    ∀ w, WorldReachedBy (fun w e _ => flushesLone w e) w → ∀ id, .freedev id ∈ w.flushes → w.Listed id := by
  constructor
  · intro w h
    have hn := (world_ordered h).1
    refine ⟨hn.once, ?_⟩
    intro pc hpc id hid
    obtain ⟨n, hmem, hnid, hfits⟩ := hn.works pc hpc id hid
    have hs := hn.staged n (List.mem_append_left _ hmem)
    refine ⟨n, hmem, hnid, ?_⟩
    cases pc with
    | passTwo => simp [FlushPc.work] at hid
    | freedev id => simp [FlushPc.work] at hid
    | teardown id => exact ⟨hfits.1, hfits.2.2⟩
    | minorFree id => exact ⟨hs.torn hfits.1, hfits.2.2⟩
    | finish id => exact ⟨hs.torn (hs.unnumbered hfits.1), hfits.2⟩
  · intro w h
    have ha : LoneFlush w := by
      apply Reach.invariant (P := LoneFlush) _ _ h
      · rintro w ⟨p, b, rfl⟩
        constructor
        · simp [worldInit]
        · simp [worldInit]
      · intro w e w' _ hw hg he
        exact hw.exec hg he
    exact ha.gate

end Lone

/-- Two writes of the same name, one behind the other. -/
def sampleOverlap : List WorldEvent :=
  sampleFound 1 2 :: (sampleRun 0 2).map (.dev 0) ++ [.flush true [], .flush true [], .flushStep 0, .flushStep 1] ++
    List.replicate 5 (.flushStep 1)

def sampleMissing : WorldScene anyEvent (16, true) sampleOverlap
    (fun w => w.devlist.isEmpty && w.flushes == [.freedev 0] && w.gone.any fun n => n.id == 0 && n.freed) :=
  ⟨by decide +kernel⟩

/-- With two calls, one may stand in front of `d->lock` of a device that the other one has freed. -/
theorem freedev_finds_nothing : ∃ w, WorldReached w ∧ ∃ id, .freedev id ∈ w.flushes ∧ ¬w.Listed id ∧
    ∃ n ∈ w.gone, n.id = id ∧ n.freed = true := by
  obtain ⟨w, hr, hc⟩ := sampleMissing.last
  simp only [Bool.and_eq_true, List.isEmpty_iff, beq_iff_eq, List.any_eq_true] at hc
  obtain ⟨⟨hempty, hgate⟩, n, hn, hid, hfreed⟩ := hc
  refine ⟨w, hr.reached, 0, by simp [hgate], ?_, n, hn, hid, hfreed⟩
  rintro ⟨m, hm, -⟩
  simp [hempty] at hm

/-- One call in front of the gate. -/
def sampleGate : WorldScene flushesLone (16, true)
    (sampleFound 1 2 :: (sampleRun 0 2).map (.dev 0) ++ [.flush true [], .flushStep 0])
    (fun w => w.flushes == [.freedev 0]) := ⟨by decide +kernel⟩

theorem freedev_finds_device_sample : ∃ w, WorldReached w ∧ w.flushes = [.freedev 0] ∧ w.Listed 0 := by
  obtain ⟨w, hr, hc⟩ := sampleGate.last
  simp only [beq_iff_eq] at hc
  exact ⟨w, hr.reached, hc, freedev_finds_device.2 w hr 0 (by simp [hc])⟩

end AoeDriver
