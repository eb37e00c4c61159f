import AoeDriver.Devlist.Order

/-!
# What a flush removes

Every call of `flush` that finds the list to itself frees the marked devices one by one, from the front of the list at each
restart, and then takes them off.
-/

namespace AoeDriver

section Attended

variable {G : ListGuard} {w w' : World}

/-- Whatever is being freed is in the hands of a flush, or is only left for one to take it off the list. -/
def Attended (w : World) : Prop :=
  ∀ n ∈ w.devlist, n.freeing = true → w.flushes ≠ [] ∧ (n.freed = true ∨ ∃ pc ∈ w.flushes, pc.work = some n.id)

private theorem mem_set_of_ne {α : Type} {l : List α} {i : ℕ} {x y z : α} (hi : l[i]? = some y) (hx : x ∈ l)
    (hne : x ≠ y) : x ∈ l.set i z := by
  obtain ⟨j, hj⟩ := List.mem_iff_getElem?.mp hx
  have hij : i ≠ j := by
    rintro rfl
    exact hne (Option.some.inj (hj.symm.trans hi))
  exact List.mem_iff_getElem?.mpr ⟨j, by rw [List.getElem?_set_ne hij, hj]⟩

private theorem mem_eraseIdx_of_ne {α : Type} {l : List α} {i : ℕ} {x y : α} (hi : l[i]? = some y) (hx : x ∈ l)
    (hne : x ≠ y) : x ∈ l.eraseIdx i := by
  obtain ⟨j, hj⟩ := List.mem_iff_getElem?.mp hx
  refine List.mem_eraseIdx_iff_getElem?.mpr ⟨j, ?_, hj⟩
  rintro rfl
  exact hne (Option.some.inj (hj.symm.trans hi))

theorem Attended.advance (h : Attended w) {i : ℕ} {pc₀ pc : FlushPc} {φ : Node → Node} (hi : w.flushes[i]? = some pc₀)
    (hlist : w'.devlist = w.devlist.map φ) (hflush : w'.flushes = w.flushes.set i pc)
    (hφ : ∀ n, (φ n).id = n.id ∧ (n.freed = true → (φ n).freed = true))
    (hkeep : ∀ n, (φ n).freeing = true → n.freeing = true ∧ pc₀.work ≠ some n.id ∨ (φ n).freed = true ∨ pc.work = some n.id) :
    Attended w' := by
  have hlt : i < w.flushes.length := (List.getElem?_eq_some_iff.mp hi).1
  intro m hm hfreeing
  rw [hlist] at hm
  obtain ⟨n, hn, rfl⟩ := List.mem_map.mp hm
  rw [hflush, (hφ n).1]
  refine ⟨fun hnil => ?_, ?_⟩
  · rw [List.set_eq_nil_iff] at hnil
    rw [hnil] at hlt
    exact absurd hlt (Nat.not_lt_zero _)
  · rcases hkeep n hfreeing with ⟨hold, hne⟩ | hfreed | hwork
    · rcases (h n hn hold).2 with hfreed | ⟨pc', hpc', hw⟩
      · exact .inl ((hφ n).2 hfreed)
      · exact .inr ⟨pc', mem_set_of_ne hi hpc' (fun heq => hne (heq ▸ hw)), hw⟩
    · exact .inl hfreed
    · exact .inr ⟨pc, List.mem_set hlt pc, hwork⟩

theorem Change.attended (c : Change G w w') (h : Attended w) : Attended w' := by
  have hsame {φ : Node → Node} (hlist : w'.devlist = w.devlist.map φ) (hflush : w'.flushes = w.flushes)
      (hφ : ∀ n, (φ n).id = n.id ∧ (φ n).freeing = n.freeing ∧ (φ n).freed = n.freed) : Attended w' := by
    intro m hm hfreeing
    rw [hlist] at hm
    obtain ⟨n, hn, rfl⟩ := List.mem_map.mp hm
    obtain ⟨hid, hf, hfreed⟩ := hφ n
    rw [hflush, hid, hfreed]
    exact h n hn (hf ▸ hfreeing)
  -- one node changes, and the flush that holds it goes on
  have hstep {i : ℕ} {n : Node} {pc₀ pc : FlushPc} {g : Node → Node} (hi : w.flushes[i]? = some pc₀)
      (hlist : w'.devlist = w.devlist.map fun m => if m.id = n.id then g m else m) (hflush : w'.flushes = w.flushes.set i pc)
      (hg : ∀ m, (g m).id = m.id ∧ (m.freed = true → (g m).freed = true)) (h₀ : ∀ id, pc₀.work = some id → id = n.id)
      (hn : ∀ m, m.id = n.id → (g m).freed = true ∨ pc.work = some n.id) : Attended w' := by
    refine h.advance hi hlist hflush (fun m => ?_) (fun m hm => ?_)
    · split
      · exact hg m
      · exact ⟨rfl, id⟩
    · by_cases hid : m.id = n.id
      · rw [if_pos hid] at hm ⊢
        rw [hid]
        exact .inr (hn m hid)
      · rw [if_neg hid] at hm
        exact .inl ⟨hm, fun hw => hid (h₀ _ hw)⟩
  cases c with
  | same => exact h
  | tune b => exact h
  | @wait i pc₀ pc hi h₀ h₁ =>
    refine h.advance (φ := id) hi (List.map_id _).symm rfl (fun n => ⟨rfl, id⟩) fun n hn => .inl ⟨hn, ?_⟩
    rw [h₀]
    exact fun hw => absurd hw (by simp)
  | event =>
    refine hsame rfl rfl fun m => ?_
    split
    · exact ⟨rfl, rfl, rfl⟩
    · exact ⟨rfl, rfl, rfl⟩
  | leak => exact h
  | add =>
    intro m hm hfreeing
    rcases List.mem_cons.mp hm with rfl | hm
    · exact absurd hfreeing Bool.false_ne_true
    · exact h m hm hfreeing
  | @passOne exiting str =>
    intro m hm hfreeing
    obtain ⟨n, hn, rfl⟩ := List.mem_map.mp hm
    have hkill : (if flushSelects exiting str n.dev then n.kill else n).id = n.id ∧
        (if flushSelects exiting str n.dev then n.kill else n).freeing = n.freeing ∧
        (if flushSelects exiting str n.dev then n.kill else n).freed = n.freed := by
      split
      · exact ⟨rfl, rfl, rfl⟩
      · exact ⟨rfl, rfl, rfl⟩
    obtain ⟨hid, hf, hfreed⟩ := hkill
    obtain ⟨-, hor⟩ := h n hn (hf ▸ hfreeing)
    have hflush : (AoeDriver.passOne w exiting str).flushes = w.flushes ++ [.passTwo] := rfl
    refine ⟨by simp [hflush], ?_⟩
    rw [hid, hfreed, hflush]
    refine hor.imp id ?_
    rintro ⟨pc, hpc, hw⟩
    exact ⟨pc, List.mem_append_left _ hpc, hw⟩
  | @claim i n hi =>
    exact hstep (n := n) hi rfl rfl (fun m => ⟨rfl, id⟩) (fun id hid => absurd hid (by simp [FlushPc.work]))
      fun m hm => .inr rfl
  | @teardown i n hi =>
    exact hstep (n := n) hi rfl rfl (fun m => ⟨rfl, id⟩) (fun id hid => (Option.some.inj hid).symm) fun m hm => .inr rfl
  | @minorFree i n hi =>
    exact hstep (n := n) hi rfl rfl (fun m => ⟨rfl, id⟩) (fun id hid => (Option.some.inj hid).symm) fun m hm => .inr rfl
  | @finish i n hi =>
    exact hstep (n := n) hi rfl rfl (fun m => ⟨rfl, fun _ => rfl⟩) (fun id hid => (Option.some.inj hid).symm)
      fun m hm => .inl rfl
  | passThree hi =>
    intro n hn hfreeing
    obtain ⟨hn, hkept⟩ := List.mem_filter.mp hn
    rcases (h n hn hfreeing).2 with hfreed | ⟨pc, hpc, hw⟩
    · rw [hfreed] at hkept
      exact absurd hkept Bool.false_ne_true
    · have hmem : pc ∈ w.flushes.eraseIdx _ := mem_eraseIdx_of_ne hi hpc (by rintro rfl; exact absurd hw (by simp [FlushPc.work]))
      exact ⟨List.ne_nil_of_mem hmem, .inr ⟨pc, hmem, hw⟩⟩

private theorem reached_attended (h : WorldReached w) : Attended w := by
  refine world_keeps (G := .free) (fun w e w' _ => ListGuard.free_meets w e) ?_ ?_ h
  · exact fun p b n hn => absurd hn List.not_mem_nil
  · exact fun w w' _ _ hc hw => hc.attended hw

end Attended

section Alone

variable {w : World}

/-- The first call of `flush` runs alone for a number of sections; also the program points it has passed. -/
def flushRun : ℕ → World → World × List FlushPc
  | 0, w => (w, [])
  | fuel + 1, w =>
    match w.flushes with
    | [] => (w, [])
    | pc :: _ => ((flushRun fuel (flushStep w 0 pc)).1, pc :: (flushRun fuel (flushStep w 0 pc)).2)

private theorem flushRun_cons {fuel : ℕ} {pc : FlushPc} (h : w.flushes = [pc]) : flushRun (fuel + 1) w =
    ((flushRun fuel (flushStep w 0 pc)).1, pc :: (flushRun fuel (flushStep w 0 pc)).2) := by
  rw [flushRun, h]

/-- A device behind `freedev`. -/
def Node.done (n : Node) : Node := { n with freeing := true, torn := true, unnumbered := true, freed := true }

/-- The list after `freedev` of the device `n`. -/
def World.freedev (w : World) (n : Node) : World :=
  { w with
    devlist := w.devlist.map fun m => if m.id = n.id then m.done else m
    usedMinors := Function.update w.usedMinors (n.sysminor / w.partitions) false }

/-- What a flush has done that began pass two at `w`. -/
structure Swept (w w' : World) (passed : List FlushPc) : Prop where
  ended : w'.flushes = []
  kept : w'.devlist = w.devlist.filter fun n => !n.doomed && !n.freed
  gone : w'.gone = w.gone ++ (w.devlist.filter fun n => n.doomed || n.freed).map fun n => if n.doomed then n.done else n
  once : ∀ id, passed.count (.freedev id) = if ∃ n ∈ w.devlist, n.doomed = true ∧ n.id = id then 1 else 0
  freed : ∀ n ∈ w.devlist, n.doomed = true → w'.usedMinors (n.sysminor / w.partitions) = false
  others : ∀ k, (∀ n ∈ w.devlist, n.doomed = true → n.sysminor / w.partitions ≠ k) → w'.usedMinors k = w.usedMinors k

private theorem modNode_modNode (id : ℕ) {g k : Node → Node} (hg : ∀ n, (g n).id = n.id) :
    (w.modNode id g).modNode id k = w.modNode id fun n => k (g n) := by
  have hmap : (w.devlist.map fun n => if n.id = id then g n else n).map (fun n => if n.id = id then k n else n) =
      w.devlist.map fun n => if n.id = id then k (g n) else n := by
    rw [List.map_map]
    refine List.map_congr_left fun n _ => ?_
    by_cases hn : n.id = id
    · simp [hn, hg]
    · simp [hn]
  exact congrArg (fun l => { w with devlist := l }) hmap

private theorem find_modNode (hids : (w.devlist.map Node.id).Nodup) {n : Node} (hn : n ∈ w.devlist) {g : Node → Node}
    (hg : ∀ n, (g n).id = n.id) : (w.modNode n.id g).devlist.find? (·.id = n.id) = some (g n) := by
  have hmap : ((w.modNode n.id g).devlist.map Node.id) = w.devlist.map Node.id :=
    Tables.map_adjust Node.id fun m _ _ => hg m
  have hmem : g n ∈ (w.modNode n.id g).devlist := List.mem_map.mpr ⟨n, hn, if_pos rfl⟩
  have hids' : ((w.modNode n.id g).devlist.map Node.id).Nodup := by
    rw [hmap]
    exact hids
  have hfind := Tables.find_of_nodup hids' hmem
  rw [hg] at hfind
  exact hfind

/-- One round of pass two. -/
private theorem flushRun_round (hids : (w.devlist.map Node.id).Nodup) (hf : w.flushes = [.passTwo]) {n : Node}
    (hfind : w.devlist.find? Node.doomed = some n) (fuel : ℕ) : flushRun (fuel + 5) w =
      ((flushRun fuel (w.freedev n)).1, .passTwo :: .freedev n.id :: .teardown n.id :: .minorFree n.id :: .finish n.id ::
        (flushRun fuel (w.freedev n)).2) := by
  have hn : n ∈ w.devlist := List.mem_of_find?_eq_some hfind
  have hdoomed : n.doomed = true := List.find?_some hfind
  have hset (v : World) (pc pc' : FlushPc) (hv : v.flushes = [pc]) : v.setFlush 0 pc' = { v with flushes := [pc'] } := by
    rw [World.setFlush, hv]
    rfl
  have h1 : flushStep w 0 .passTwo = { w with flushes := [.freedev n.id] } := by
    unfold flushStep
    dsimp only
    rw [hfind]
    exact hset w _ _ hf
  have hself : w.devlist.find? (·.id = n.id) = some n := Tables.find_of_nodup hids hn
  have h2 : flushStep { w with flushes := [.freedev n.id] } 0 (.freedev n.id) =
      { w.modNode n.id fun n => { n with freeing := true } with flushes := [.teardown n.id] } := by
    unfold flushStep
    dsimp only
    rw [hself]
    dsimp only
    rw [if_pos hdoomed]
    rfl
  have h3 : flushStep { w.modNode n.id fun n => { n with freeing := true } with flushes := [.teardown n.id] } 0
      (.teardown n.id) =
      { w.modNode n.id fun n => { n with freeing := true, torn := true } with flushes := [.minorFree n.id] } := by
    have hmod := modNode_modNode (w := w) n.id (g := fun n => { n with freeing := true })
      (k := fun n => { n with torn := true }) fun _ => rfl
    exact congrArg (fun v : World => { v with flushes := [.minorFree n.id] }) hmod
  have h4 : flushStep { w.modNode n.id fun n => { n with freeing := true, torn := true } with flushes := [.minorFree n.id] } 0
      (.minorFree n.id) =
      { w.modNode n.id fun n => { n with freeing := true, torn := true, unnumbered := true } with
        flushes := [.finish n.id], usedMinors := Function.update w.usedMinors (n.sysminor / w.partitions) false } := by
    have hget := find_modNode hids hn (g := fun n => { n with freeing := true, torn := true }) fun _ => rfl
    have hmod := modNode_modNode (w := w) n.id (g := fun n => { n with freeing := true, torn := true })
      (k := fun n => { n with unnumbered := true }) fun _ => rfl
    unfold flushStep
    dsimp only
    rw [hget]
    exact congrArg (fun v : World => { v with
      flushes := [.finish n.id], usedMinors := Function.update w.usedMinors (n.sysminor / w.partitions) false }) hmod
  have h5 : flushStep { w.modNode n.id fun n => { n with freeing := true, torn := true, unnumbered := true } with
        flushes := [.finish n.id], usedMinors := Function.update w.usedMinors (n.sysminor / w.partitions) false } 0
      (.finish n.id) = w.freedev n := by
    have hmod := modNode_modNode (w := w) n.id
      (g := fun n => { n with freeing := true, torn := true, unnumbered := true })
      (k := fun n => { n with freed := true }) fun _ => rfl
    have hall := congrArg (fun v : World => { v with
      flushes := [.passTwo], usedMinors := Function.update w.usedMinors (n.sysminor / w.partitions) false }) hmod
    refine hall.trans ?_
    rw [World.freedev, ← hf]
    rfl
  rw [flushRun_cons hf, h1, flushRun_cons rfl, h2, flushRun_cons rfl, h3, flushRun_cons rfl, h4, flushRun_cons rfl, h5]

private theorem freedev_at (hids : (w.devlist.map Node.id).Nodup) {n : Node} (hn : n ∈ w.devlist) {m : Node}
    (hm : m ∈ w.devlist) : m = n ∨ m.id ≠ n.id := by
  by_cases hid : m.id = n.id
  · exact .inl (List.inj_on_of_nodup_map hids hm hn hid)
  · exact .inr hid

private theorem done_doomed (n : Node) : n.done.doomed = false := Bool.and_false _

private theorem filter_freedev {β : Type} (hids : (w.devlist.map Node.id).Nodup) {n : Node} (hn : n ∈ w.devlist)
    {p : Node → Bool} {f : Node → β} (hp : p n.done = p n) (hf : p n = true → f n.done = f n) :
    ((w.freedev n).devlist.filter p).map f = (w.devlist.filter p).map f := by
  have hstep {m : Node} (hm : m ∈ w.devlist) : p (if m.id = n.id then m.done else m) = p m ∧
      (p m = true → f (if m.id = n.id then m.done else m) = f m) := by
    rcases freedev_at hids hn hm with rfl | hne
    · rw [if_pos rfl]
      exact ⟨hp, hf⟩
    · rw [if_neg hne]
      exact ⟨rfl, fun _ => rfl⟩
  change ((w.devlist.map fun m => if m.id = n.id then m.done else m).filter p).map f = _
  have hfilter : w.devlist.filter (p ∘ fun m => if m.id = n.id then m.done else m) = w.devlist.filter p :=
    List.filter_congr fun m hm => (hstep hm).1
  rw [List.filter_map, List.map_map, hfilter]
  refine List.map_congr_left fun m hm => ?_
  obtain ⟨hm, hpm⟩ := List.mem_filter.mp hm
  exact (hstep hm).2 hpm

private theorem mem_freedev_doomed {n m : Node} :
    m ∈ (w.freedev n).devlist ∧ m.doomed = true ↔ m ∈ w.devlist ∧ m.doomed = true ∧ m.id ≠ n.id := by
  constructor
  · rintro ⟨hm, hd⟩
    obtain ⟨x, hx, rfl⟩ := List.mem_map.mp hm
    split at hd
    · rw [done_doomed] at hd
      exact absurd hd Bool.false_ne_true
    · rename_i hne
      rw [if_neg hne]
      exact ⟨hx, hd, hne⟩
  · rintro ⟨hm, hd, hne⟩
    exact ⟨List.mem_map.mpr ⟨m, hm, if_neg hne⟩, hd⟩

theorem Swept.freedev (hids : (w.devlist.map Node.id).Nodup) {n : Node} (hn : n ∈ w.devlist) (hd : n.doomed = true)
    {w' : World} {passed : List FlushPc} (h : Swept (w.freedev n) w' passed) :
    Swept w w' (.passTwo :: .freedev n.id :: .teardown n.id :: .minorFree n.id :: .finish n.id :: passed) := by
  have hmem {m : Node} := mem_freedev_doomed (w := w) (n := n) (m := m)
  refine ⟨h.ended, ?_, ?_, ?_, ?_, ?_⟩
  · have hfilter := filter_freedev (f := id) hids hn (p := fun n => !n.doomed && !n.freed) (by simp [hd, Node.done])
      (by simp [hd])
    rw [List.map_id, List.map_id] at hfilter
    rw [h.kept, hfilter]
  · have hfilter := filter_freedev (f := fun n => if n.doomed then n.done else n) hids hn
      (p := fun n => n.doomed || n.freed) (by simp [hd, Node.done]) (by simp [hd, done_doomed])
    rw [h.gone, hfilter]
    rfl
  · intro id
    have hcount := h.once id
    by_cases hid : n.id = id
    · subst hid
      have hno : ¬∃ m ∈ (w.freedev n).devlist, m.doomed = true ∧ m.id = n.id := by
        rintro ⟨m, hm, hmd, hmid⟩
        exact (hmem.mp ⟨hm, hmd⟩).2.2 hmid
      rw [if_neg hno] at hcount
      rw [if_pos ⟨n, hn, hd, rfl⟩]
      simp [hcount]
    · have hiff : (∃ m ∈ (w.freedev n).devlist, m.doomed = true ∧ m.id = id) ↔
          ∃ m ∈ w.devlist, m.doomed = true ∧ m.id = id := by
        constructor
        · rintro ⟨m, hm, hmd, hmid⟩
          exact ⟨m, (hmem.mp ⟨hm, hmd⟩).1, hmd, hmid⟩
        · rintro ⟨m, hm, hmd, hmid⟩
          exact ⟨m, (hmem.mpr ⟨hm, hmd, fun h => hid (h.symm.trans hmid)⟩).1, hmd, hmid⟩
      simp only [hiff] at hcount
      rw [← hcount]
      simp [hid]
  · -- a bit that is clear stays clear
    intro m hm hmd
    by_cases hother : ∃ x ∈ (w.freedev n).devlist, x.doomed = true ∧ x.sysminor / w.partitions = m.sysminor / w.partitions
    · obtain ⟨x, hx, hxd, hxm⟩ := hother
      have hfree := h.freed x hx hxd
      change w'.usedMinors (x.sysminor / w.partitions) = false at hfree
      rw [hxm] at hfree
      exact hfree
    · have hsame := h.others (m.sysminor / w.partitions) fun x hx hxd heq => hother ⟨x, hx, hxd, heq⟩
      change _ = Function.update w.usedMinors (n.sysminor / w.partitions) false _ at hsame
      rcases freedev_at hids hn hm with rfl | hne
      · rw [hsame, Function.update_self]
      · exact absurd ⟨m, (hmem.mpr ⟨hm, hmd, hne⟩).1, hmd, rfl⟩ hother
  · intro k hk
    have hsame := h.others k fun x hx hxd => hk x (hmem.mp ⟨hx, hxd⟩).1 hxd
    change _ = Function.update w.usedMinors (n.sysminor / w.partitions) false _ at hsame
    rw [hsame, Function.update_of_ne (hk n hn hd).symm]

/-- Pass three. -/
private theorem swept_passThree (hf : w.flushes = [.passTwo]) (hnone : w.devlist.find? Node.doomed = none) :
    Swept w (passThree w 0) [.passTwo] := by
  have hno : ∀ n ∈ w.devlist, n.doomed = false := by
    intro n hn
    simpa using List.find?_eq_none.mp hnone n hn
  have hno' : ¬∃ n ∈ w.devlist, n.doomed = true ∧ n.id = n.id := by
    rintro ⟨n, hn, hd, -⟩
    rw [hno n hn] at hd
    exact absurd hd Bool.false_ne_true
  refine ⟨?_, ?_, ?_, ?_, ?_, fun _ _ => rfl⟩
  · change w.flushes.eraseIdx 0 = []
    rw [hf]
    rfl
  · exact List.filter_congr fun n hn => by rw [hno n hn, Bool.not_false, Bool.true_and]
  · change w.gone ++ w.devlist.filter (·.freed) = _
    rw [List.filter_congr (q := fun n => n.doomed || n.freed) fun n hn => by rw [hno n hn, Bool.false_or]]
    congr 1
    refine (List.map_congr_left fun n hn => ?_).trans (List.map_id _) |>.symm
    rw [hno n (List.mem_filter.mp hn).1]
    rfl
  · intro id
    rw [if_neg]
    · rfl
    · rintro ⟨n, hn, hd, -⟩
      rw [hno n hn] at hd
      exact absurd hd Bool.false_ne_true
  · intro n hn hd
    rw [hno n hn] at hd
    exact absurd hd Bool.false_ne_true

/-- Pass two ends, since every round leaves one device less that is marked and not yet being freed. -/
private theorem flushRun_sweeps (hids : (w.devlist.map Node.id).Nodup) (hf : w.flushes = [.passTwo]) :
    ∃ fuel, Swept w (flushRun fuel w).1 (flushRun fuel w).2 := by
  induction hk : w.devlist.countP Node.doomed using Nat.strong_induction_on generalizing w with
  | _ k ih =>
    cases hfind : w.devlist.find? Node.doomed with
    | none =>
      refine ⟨1, ?_⟩
      have hstep : flushStep w 0 .passTwo = passThree w 0 := by
        unfold flushStep
        dsimp only
        rw [hfind]
      rw [flushRun_cons hf, hstep]
      exact swept_passThree hf hfind
    | some n =>
      have hn : n ∈ w.devlist := List.mem_of_find?_eq_some hfind
      have hd : n.doomed = true := List.find?_some hfind
      have hids' : ((w.freedev n).devlist.map Node.id).Nodup := by
        have hmap : (w.freedev n).devlist.map Node.id = w.devlist.map Node.id := Tables.map_adjust Node.id fun _ _ _ => rfl
        rw [hmap]
        exact hids
      have hless : (w.freedev n).devlist.countP Node.doomed < k := by
        have hcount : (w.freedev n).devlist.countP Node.doomed =
            (w.devlist.filter (fun m => m.id ≠ n.id)).countP Node.doomed := by
          change (w.devlist.map fun m => if m.id = n.id then m.done else m).countP Node.doomed = _
          rw [List.countP_map, List.countP_filter]
          refine List.countP_congr fun m _ => ?_
          by_cases hm : m.id = n.id
          · simp [hm, done_doomed]
          · simp [hm]
        have hremove := Tables.countP_remove (p := Node.doomed) hids hn
        rw [hd, if_pos rfl] at hremove
        omega
      obtain ⟨fuel, hswept⟩ := ih _ hless hids' hf rfl
      refine ⟨fuel + 5, ?_⟩
      rw [flushRun_round hids hf hfind]
      exact hswept.freedev hids hn hd

/-- Marked before the call, or by pass one. -/
def Node.marked (exiting : Bool) (str : List Char) (n : Node) : Bool := n.dev.flags.tkill || flushSelects exiting str n.dev

/-- What a flush leaves behind that had the list to itself: it has ended, the marked devices are off the list and have
passed `freedev` once, their numbers are free, and nothing else has changed. -/
structure Flushed (w : World) (exiting : Bool) (str : List Char) (w' : World) (passed : List FlushPc) : Prop where
  ended : w'.flushes = []
  kept : w'.devlist = w.devlist.filter fun n => !n.marked exiting str
  gone : (w'.gone.drop w.gone.length).map Node.id = (w.devlist.filter (Node.marked exiting str)).map Node.id
  freed : ∀ n ∈ w'.gone.drop w.gone.length, n.freed = true ∧ n.unnumbered = true
  once : ∀ n ∈ w.devlist, passed.count (.freedev n.id) = if n.marked exiting str then 1 else 0
  numbers : ∀ n ∈ w.devlist, n.marked exiting str = true → w'.usedMinors (n.sysminor / w.partitions) = false
  others : ∀ k, (∀ n ∈ w.devlist, n.marked exiting str = true → n.sysminor / w.partitions ≠ k) →
    w'.usedMinors k = w.usedMinors k

/-- A flush that runs alone ends, and has removed just what was marked. -/
theorem flush_alone (h : WorldReached w) (hidle : w.flushes = []) (exiting : Bool) (str : List Char) :
    ∃ fuel, Flushed w exiting str (flushRun fuel (passOne w exiting str)).1 (flushRun fuel (passOne w exiting str)).2 := by
  obtain ⟨hnodes, -⟩ := world_ordered h
  have hclear : ∀ n ∈ w.devlist, n.freeing = false ∧ n.freed = false := by
    intro n hn
    have hf : n.freeing = false := by
      by_contra hf
      exact (reached_attended h n hn (Bool.eq_true_of_not_eq_false hf)).1 hidle
    have hall := (hnodes.staged n (List.mem_append_left _ hn)).clear (.inr hf)
    exact ⟨hf, hall.2.2.2⟩
  -- pass one
  have hlist : (passOne w exiting str).devlist = w.devlist.map fun n => if flushSelects exiting str n.dev then n.kill else n :=
    rfl
  have hid (n : Node) : (if flushSelects exiting str n.dev then n.kill else n).id = n.id ∧
      (if flushSelects exiting str n.dev then n.kill else n).sysminor = n.sysminor ∧
      (if flushSelects exiting str n.dev then n.kill else n).freed = n.freed := by
    split
    · exact ⟨rfl, rfl, rfl⟩
    · exact ⟨rfl, rfl, rfl⟩
  have hdoomed {n : Node} (hn : n ∈ w.devlist) :
      (if flushSelects exiting str n.dev then n.kill else n).doomed = n.marked exiting str := by
    have hf := (hclear n hn).1
    rw [Node.marked]
    split
    · rename_i hs
      rw [hs, Bool.or_true, Node.doomed]
      simp [Node.kill, hf]
    · rename_i hs
      rw [Bool.not_eq_true] at hs
      rw [hs, Bool.or_false, Node.doomed, hf, Bool.not_false, Bool.and_true]
  have hids : ((passOne w exiting str).devlist.map Node.id).Nodup := by
    rw [hlist, List.map_map]
    have hmap : w.devlist.map (Node.id ∘ fun n => if flushSelects exiting str n.dev then n.kill else n) =
        w.devlist.map Node.id := List.map_congr_left fun n _ => (hid n).1
    rw [hmap]
    exact hnodes.ids
  have hflush : (passOne w exiting str).flushes = [.passTwo] := by
    change w.flushes ++ [.passTwo] = _
    rw [hidle]
    rfl
  obtain ⟨fuel, hswept⟩ := flushRun_sweeps hids hflush
  refine ⟨fuel, ?_⟩
  generalize flushRun fuel (passOne w exiting str) = r at hswept
  have hmem {n : Node} (hn : n ∈ w.devlist) :
      (if flushSelects exiting str n.dev then n.kill else n) ∈ (passOne w exiting str).devlist := List.mem_map_of_mem hn
  have hback {m : Node} (hm : m ∈ (passOne w exiting str).devlist) (hd : m.doomed = true) :
      ∃ n ∈ w.devlist, n.marked exiting str = true ∧ n.id = m.id ∧ n.sysminor = m.sysminor := by
    obtain ⟨n, hn, rfl⟩ := List.mem_map.mp hm
    rw [hdoomed hn] at hd
    exact ⟨n, hn, hd, (hid n).1.symm, (hid n).2.1.symm⟩
  have hgone : r.1.gone.drop w.gone.length = ((passOne w exiting str).devlist.filter fun n => n.doomed || n.freed).map
      fun n => if n.doomed then n.done else n := by
    rw [hswept.gone]
    exact List.drop_left
  refine ⟨hswept.ended, ?_, ?_, ?_, ?_, ?_, ?_⟩
  · rw [hswept.kept, hlist, List.filter_map]
    have hfilter : w.devlist.filter ((fun n => !n.doomed && !n.freed) ∘ fun n =>
        if flushSelects exiting str n.dev then n.kill else n) = w.devlist.filter fun n => !n.marked exiting str := by
      refine List.filter_congr fun n hn => ?_
      change (!(if flushSelects exiting str n.dev then n.kill else n).doomed && _) = _
      rw [hdoomed hn, (hid n).2.2, (hclear n hn).2, Bool.not_false, Bool.and_true]
    rw [hfilter]
    refine (List.map_congr_left fun n hn => ?_).trans (List.map_id _)
    have hno := (List.mem_filter.mp hn).2
    rw [Bool.not_eq_true', Node.marked, Bool.or_eq_false_iff] at hno
    rw [hno.2]
    rfl
  · rw [hgone, hlist, List.filter_map, List.map_map, List.map_map]
    have hfilter : w.devlist.filter ((fun n => n.doomed || n.freed) ∘ fun n =>
        if flushSelects exiting str n.dev then n.kill else n) = w.devlist.filter (Node.marked exiting str) := by
      refine List.filter_congr fun n hn => ?_
      change ((if flushSelects exiting str n.dev then n.kill else n).doomed || _) = _
      rw [hdoomed hn, (hid n).2.2, (hclear n hn).2, Bool.or_false]
    rw [hfilter]
    refine List.map_congr_left fun n _ => ?_
    change Node.id (if _ then _ else _) = _
    split
    · exact (hid n).1
    · exact (hid n).1
  · intro m hm
    rw [hgone] at hm
    obtain ⟨x, hx, rfl⟩ := List.mem_map.mp hm
    obtain ⟨hx, hor⟩ := List.mem_filter.mp hx
    have hd : x.doomed = true := by
      obtain ⟨n, hn, rfl⟩ := List.mem_map.mp hx
      rw [(hid n).2.2, (hclear n hn).2, Bool.or_false] at hor
      exact hor
    rw [hd]
    exact ⟨rfl, rfl⟩
  · intro n hn
    rw [hswept.once]
    refine if_congr ?_ rfl rfl
    constructor
    · rintro ⟨m, hm, hd, hmid⟩
      obtain ⟨x, hx, hmark, hxid, -⟩ := hback hm hd
      rw [hnodes.eq_of_id hn hx (hxid.trans hmid)] at hmark
      exact hmark
    · intro hmark
      exact ⟨_, hmem hn, (hdoomed hn).trans hmark, (hid n).1⟩
  · intro n hn hmark
    have hfree := hswept.freed _ (hmem hn) ((hdoomed hn).trans hmark)
    rw [(hid n).2.1] at hfree
    exact hfree
  · intro k hk
    refine hswept.others k fun m hm hd => ?_
    obtain ⟨n, hn, hmark, -, hminor⟩ := hback hm hd
    rw [← hminor]
    exact hk n hn hmark

/-- Two devices, none of them open. -/
def sampleIdle : WorldScene anyEvent (16, true) (sampleAdd 0 1 2 ++ sampleAdd 1 1 13)
    (fun w => w.devlist.length == 2 && w.flushes.isEmpty) := ⟨by decide +kernel⟩

theorem flush_alone_sample : ∃ w, WorldReached w ∧ w.flushes = [] ∧ w.devlist.length = 2 ∧
    ∃ fuel, Flushed w true [] (flushRun fuel (passOne w true [])).1 (flushRun fuel (passOne w true [])).2 := by
  obtain ⟨w, hreach, htest⟩ := sampleIdle.last
  rw [Bool.and_eq_true, beq_iff_eq, List.isEmpty_iff] at htest
  exact ⟨w, hreach.reached, htest.2, htest.1, flush_alone hreach.reached htest.2 true []⟩

end Alone

end AoeDriver
