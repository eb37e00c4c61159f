import AoeDriver.Model.Devlist
import AoeDriver.Life.Disk

/-!
# Changes of the device list

Every event of the driver as one elementary change of the list, the bitmap or the flushes in progress.
-/

namespace AoeDriver

open Machine

/-- The shelf and slot of a device. -/
def Node.addr (n : Node) : ℕ × ℕ := (n.dev.aoemajor, n.dev.aoeminor)

/-- The device that a call of `flush` has taken for itself. -/
def FlushPc.work : FlushPc → Option ℕ
  | .passTwo | .freedev _ => none
  | .teardown id | .minorFree id | .finish id => some id

/-- The teardown of a device in its order. -/
structure Node.Staged (n : Node) : Prop where
  freeing : n.freeing = true → n.dev.flags.tkill = true
  torn : n.torn = true → n.freeing = true
  unnumbered : n.unnumbered = true → n.torn = true
  freed : n.freed = true → n.unnumbered = true

theorem Node.Staged.clear {n : Node} (h : n.Staged) (hk : n.dev.flags.tkill = false ∨ n.freeing = false) :
    n.freeing = false ∧ n.torn = false ∧ n.unnumbered = false ∧ n.freed = false := by
  have hclear {a b : Bool} (hab : a = true → b = true) (hb : b = false) : a = false := by
    by_contra ha
    exact absurd (hb.symm.trans (hab (Bool.eq_true_of_not_eq_false ha))) Bool.noConfusion
  have hfree : n.freeing = false := hk.elim (hclear h.freeing) fun hf => hf
  have htorn := hclear h.torn hfree
  have hun := hclear h.unnumbered htorn
  exact ⟨hfree, htorn, hun, hclear h.freed hun⟩

/-- How far the teardown has come at a program point. -/
def FlushPc.Fits (n : Node) : FlushPc → Prop
  | .passTwo | .freedev _ => True
  | .teardown _ => n.freeing = true ∧ n.unnumbered = false ∧ n.freed = false
  | .minorFree _ => n.torn = true ∧ n.unnumbered = false ∧ n.freed = false
  | .finish _ => n.unnumbered = true ∧ n.freed = false

/-- The devices on the list and those taken off it. -/
structure Nodes (w : World) : Prop where
  reached : ∀ n ∈ w.devlist ++ w.gone, Reached n.dev
  staged : ∀ n ∈ w.devlist ++ w.gone, n.Staged
  gone : ∀ n ∈ w.gone, n.freed = true
  ids : (w.devlist.map Node.id).Nodup
  lt : ∀ n ∈ w.devlist, n.id < w.ids
  addrs : (w.devlist.map Node.addr).Nodup
  range : ∀ n ∈ w.devlist, n.addr.1 < 0xffff ∧ n.addr.2 < 0xff
  once : (w.flushes.filterMap FlushPc.work).Nodup
  works : ∀ pc ∈ w.flushes, ∀ id, pc.work = some id → ∃ n ∈ w.devlist, n.id = id ∧ pc.Fits n

/-- What may be asked of the events: which flushes are made, and whether allocations may fail. -/
structure ListGuard where
  flush : World → Bool → List Char → Prop
  leak : Prop

inductive Change (G : ListGuard) (w : World) : World → Prop where
  | same : Change G w w
  | tune (b : Bool) : Change G w { w with dyndevs := b }
  | wait {i : ℕ} {pc₀ pc : FlushPc} (hi : w.flushes[i]? = some pc₀) (h₀ : pc₀.work = none) (h : pc.work = none) :
      Change G w (w.setFlush i pc)
  | event {n : Node} {e : Event} {d : Aoedev} (hn : n ∈ w.devlist) (hs : Step n.dev e d)
      (he : ∀ mode env, e ≠ .flushDev mode env) : Change G w (w.modNode n.id fun n => { n with dev := d })
  | leak {k : ℕ} (hg : G.leak) (hk : w.usedMinors k = false) (hlt : k < w.nDevs) : Change G w (w.setBit k true)
  | add {k : ℕ} {d : Aoedev} (hk : w.usedMinors k = false) (hlt : k < w.nDevs) (hd : Initial d)
      (hrange : d.aoemajor < 0xffff ∧ d.aoeminor < 0xff)
      (hnew : ∀ n ∈ w.devlist, n.addr ≠ (d.aoemajor, d.aoeminor)) :
      Change G w ((w.setBit k true).add (k * w.partitions) d)
  | passOne {exiting : Bool} {str : List Char} (hg : G.flush w exiting str) : Change G w (passOne w exiting str)
  | claim {i : ℕ} {n : Node} (hi : w.flushes[i]? = some (.freedev n.id)) (hn : n ∈ w.devlist) (hd : n.doomed = true) :
      Change G w ((w.modNode n.id fun n => { n with freeing := true }).setFlush i (.teardown n.id))
  | teardown {i : ℕ} {n : Node} (hi : w.flushes[i]? = some (.teardown n.id)) (hn : n ∈ w.devlist)
      (hf : FlushPc.Fits n (.teardown n.id)) :
      Change G w ((w.modNode n.id fun n => { n with torn := true }).setFlush i (.minorFree n.id))
  | minorFree {i : ℕ} {n : Node} (hi : w.flushes[i]? = some (.minorFree n.id)) (hn : n ∈ w.devlist)
      (hf : FlushPc.Fits n (.minorFree n.id)) :
      Change G w ((minorFree (w.modNode n.id fun n => { n with unnumbered := true }) n.sysminor).setFlush i (.finish n.id))
  | finish {i : ℕ} {n : Node} (hi : w.flushes[i]? = some (.finish n.id)) (hn : n ∈ w.devlist)
      (hf : FlushPc.Fits n (.finish n.id)) :
      Change G w ((w.modNode n.id fun n => { n with freed := true }).setFlush i .passTwo)
  | passThree {i : ℕ} (hi : w.flushes[i]? = some .passTwo) : Change G w (passThree w i)

/-- The allocations of `aoedev_by_aoeaddr` succeed once it has reserved a number. -/
def allocsOk (w : World) (maj min : ℕ) (kcalloc : List Bool) : Bool :=
  w.devlist.any (Node.at maj min) || (minorGet w maj min).2.isNone ||
    ((nextOutcome kcalloc).1 && (nextOutcome (nextOutcome kcalloc).2).1)

def ListGuard.Meets (G : ListGuard) (w : World) : WorldEvent → Prop
  | .cfgRsp maj min _ _ _ _ _ kcalloc => allocsOk w maj min kcalloc = false → G.leak
  | .flush exiting str => G.flush w exiting str
  | _ => True

section Inversion

variable {G : ListGuard} {w w' : World}

private theorem node_of_find {id : ℕ} {n : Node} (h : w.devlist.find? (·.id = id) = some n) : n ∈ w.devlist ∧ n.id = id :=
  ⟨List.mem_of_find?_eq_some h, by simpa using List.find?_some h⟩

/-- The number that `minor_get` reserves was free. -/
theorem minorGet_spec (w : World) (maj min : ℕ) : minorGet w maj min = (w, none) ∨
    ∃ k, w.usedMinors k = false ∧ k < w.nDevs ∧ minorGet w maj min = (w.setBit k true, some (k * w.partitions)) := by
  have hzero (used : ℕ → Bool) (fuel n : ℕ) (hlt : findFirstZeroBit used fuel n < fuel + n) :
      used (findFirstZeroBit used fuel n) = false := by
    induction fuel generalizing n with
    | zero => exact absurd hlt (by simp [findFirstZeroBit])
    | succ fuel ih =>
      unfold findFirstZeroBit at hlt ⊢
      split at hlt
      · rename_i hn
        rw [if_pos hn]
        exact ih (n + 1) (by omega)
      · rename_i hn
        rw [if_neg hn]
        exact eq_false_of_ne_true hn
  unfold minorGet
  split
  · unfold minorGetDyn
    dsimp only
    split
    · rename_i hlt
      exact .inr ⟨_, hzero _ _ 0 hlt, hlt, rfl⟩
    · exact .inl rfl
  · unfold minorGetStatic
    dsimp only
    split
    · exact .inl rfl
    · split
      · exact .inl rfl
      · split
        · exact .inl rfl
        · rename_i hlt hfree
          exact .inr ⟨_, eq_false_of_ne_true hfree, Nat.lt_of_not_le hlt, rfl⟩

/-- A lookup holds a device, adds one or leaves all as it is, but for a number that may be lost. -/
private theorem aoedevByAoeaddr_change {maj min : ℕ} {doAlloc : Option Aoedev} {kcalloc : List Bool} {th : Thread}
    {e : Event} (hth : ∀ d, exec d e = d.hold th) (he : ∀ mode env, e ≠ .flushDev mode env)
    (hd : ∀ d, doAlloc = some d → Initial d ∧ d.aoemajor = maj ∧ d.aoeminor = min)
    (hrange : doAlloc ≠ none → maj < 0xffff ∧ min < 0xff)
    (hok : ∀ n ∈ w.devlist, n.dev.crashed = false)
    (hg : doAlloc ≠ none → allocsOk w maj min kcalloc = false → G.leak) :
    Change G w (aoedevByAoeaddr w maj min doAlloc kcalloc th).1 := by
  unfold aoedevByAoeaddr
  cases hfind : w.devlist.find? (Node.at maj min) with
  | some n =>
    have hn : n ∈ w.devlist := List.mem_of_find?_eq_some hfind
    dsimp only
    cases hhold : n.dev.hold th with
    | none => exact .same
    | some d =>
      refine .event (e := e) hn ⟨(hth n.dev).trans hhold, ?_⟩ he
      unfold Aoedev.hold at hhold
      split at hhold
      · exact absurd hhold (by simp)
      · rw [Option.some.injEq] at hhold
        rw [← hhold]
        exact hok n hn
  | none =>
    cases doAlloc with
    | none => exact .same
    | some d =>
      obtain ⟨hinit, hmaj, hmin⟩ := hd d rfl
      have hnew : ∀ n ∈ w.devlist, n.addr ≠ (d.aoemajor, d.aoeminor) := by
        intro n hn heq
        have hat := List.find?_eq_none.mp hfind n hn
        rw [hmaj, hmin] at heq
        obtain ⟨h₁, h₂⟩ := Prod.mk.inj heq
        exact hat (by simp [Node.at, h₁, h₂])
      rcases minorGet_spec w maj min with hget | ⟨k, hk, hlt, hget⟩
      · dsimp only
        rw [hget]
        exact .same
      · have hany : w.devlist.any (Node.at maj min) = false := by
          rw [List.any_eq_false]
          exact fun n hn => List.find?_eq_none.mp hfind n hn
        have hleak (hfail : ((nextOutcome kcalloc).1 && (nextOutcome (nextOutcome kcalloc).2).1) = false) : G.leak := by
          refine hg (by simp) ?_
          rw [allocsOk, hany, hget, hfail]
          rfl
        dsimp only
        rw [hget]
        dsimp only
        split
        · rename_i h₁
          refine .leak (hleak ?_) hk hlt
          rw [Bool.not_eq_true'] at h₁
          rw [h₁, Bool.false_and]
        · split
          · rename_i h₂
            refine .leak (hleak ?_) hk hlt
            rw [Bool.not_eq_true'] at h₂
            rw [h₂, Bool.and_false]
          · refine .add hk hlt hinit ?_ hnew
            rw [hmaj, hmin]
            exact hrange (by simp)

private theorem flushStep_change (hn : Nodes w) {i : ℕ} {pc : FlushPc} (hi : w.flushes[i]? = some pc) :
    Change G w (flushStep w i pc) := by
  have hmem : pc ∈ w.flushes := List.mem_of_getElem? hi
  have hwork {id : ℕ} (hw : pc.work = some id) := hn.works pc hmem id hw
  cases pc with
  | passTwo =>
    unfold flushStep
    dsimp only
    split
    · exact .wait hi rfl rfl
    · exact .passThree hi
  | freedev id =>
    unfold flushStep
    dsimp only
    split
    · rename_i n hfind
      obtain ⟨hnode, rfl⟩ := node_of_find hfind
      split
      · rename_i hd
        exact .claim hi hnode hd
      · exact .wait hi rfl rfl
    · exact .wait hi rfl rfl
  | teardown id =>
    obtain ⟨n, hnode, rfl, hf⟩ := hwork rfl
    exact .teardown hi hnode hf
  | minorFree id =>
    obtain ⟨n, hnode, rfl, hf⟩ := hwork rfl
    have hfind : w.devlist.find? (·.id = n.id) = some n := Tables.find_of_nodup hn.ids hnode
    unfold flushStep
    dsimp only
    rw [hfind]
    exact .minorFree hi hnode hf
  | finish id =>
    obtain ⟨n, hnode, rfl, hf⟩ := hwork rfl
    exact .finish hi hnode hf

theorem reached_sound {d : Aoedev} (h : Reached d) : d.crashed = false := by
  cases h with
  | init hd =>
    obtain ⟨a, b, n, s, m, clock, c, rfl⟩ := hd
    rfl
  | step _ _ hs => exact hs.2

/-- Every event is one change. -/
theorem exec_change {e : WorldEvent} (hn : Nodes w) (hm : G.Meets w e) (he : w.exec e = some w') : Change G w w' := by
  have hok : ∀ n ∈ w.devlist, n.dev.crashed = false :=
    fun n hmem => reached_sound (hn.reached n (List.mem_append_left _ hmem))
  have hsome {x : World} (hx : some x = some w') (hr : Change G w x) : Change G w w' := by
    rw [Option.some.injEq] at hx
    exact hx ▸ hr
  cases e with
  | dyndevs b => exact hsome he (.tune b)
  | ataRsp maj min r =>
    exact hsome he (aoedevByAoeaddr_change (e := .ataRsp r) (fun _ => rfl) (by simp) (by simp) (by simp) hok (by simp))
  | cfgRsp maj min c ncpus deadsecs maxout clock kcalloc =>
    dsimp only [World.exec] at he
    split at he
    · rename_i hlt
      refine hsome he (aoedevByAoeaddr_change (e := .cfgRsp c) (fun _ => rfl) (by simp) ?_ ?_ hok fun _ => hm)
      · intro d hd
        rw [Option.some.injEq] at hd
        rw [← hd]
        exact ⟨⟨_, _, _, _, _, _, _, rfl⟩, rfl, rfl⟩
      · intro _
        simpa using hlt
    · exact absurd he (by simp)
  | revalidate maj min =>
    exact hsome he (aoedevByAoeaddr_change (e := .revalidate) (fun _ => rfl) (by simp) (by simp) (by simp) hok (by simp))
  | dev id e =>
    dsimp only [World.exec] at he
    split at he
    · rename_i n hfind
      obtain ⟨hmem, rfl⟩ := node_of_find hfind
      split at he
      · rename_i hown
        obtain ⟨d, hd, rfl⟩ := Option.map_eq_some_iff.mp he
        obtain ⟨hexec, hcrash⟩ := Option.filter_eq_some_iff.mp hd
        refine .event hmem ⟨hexec, by simpa using hcrash⟩ ?_
        rintro mode env rfl
        exact absurd hown (by simp [Event.own])
      · exact absurd he (by simp)
    · exact absurd he (by simp)
  | flush exiting str => exact hsome he (.passOne hm)
  | flushStep i =>
    obtain ⟨pc, hi, rfl⟩ := Option.map_eq_some_iff.mp he
    exact flushStep_change hn hi

end Inversion

section Keep

variable {G : ListGuard} {w w' : World}

/-- A change of devices in their places. -/
theorem Nodes.map (h : Nodes w) {φ : Node → Node} (hlist : w'.devlist = w.devlist.map φ) (hgone : w'.gone = w.gone)
    (hnext : w'.ids = w.ids) (hid : ∀ n ∈ w.devlist, (φ n).id = n.id) (haddr : ∀ n ∈ w.devlist, (φ n).addr = n.addr)
    (hreach : ∀ n ∈ w.devlist, Reached (φ n).dev) (hstaged : ∀ n ∈ w.devlist, (φ n).Staged)
    (honce : (w'.flushes.filterMap FlushPc.work).Nodup)
    (hworks : ∀ pc ∈ w'.flushes, ∀ id, pc.work = some id → ∃ n ∈ w.devlist, n.id = id ∧ pc.Fits (φ n)) : Nodes w' := by
  have hboth {P : Node → Prop} (hmap : ∀ n ∈ w.devlist, P (φ n)) (hold : ∀ n ∈ w.gone, P n) :
      ∀ n ∈ w'.devlist ++ w'.gone, P n := by
    intro n hn
    rw [hlist, hgone] at hn
    rcases List.mem_append.mp hn with hn | hn
    · obtain ⟨m, hm, rfl⟩ := List.mem_map.mp hn
      exact hmap m hm
    · exact hold n hn
  refine ⟨hboth hreach fun n hn => h.reached n (List.mem_append_right _ hn),
    hboth hstaged fun n hn => h.staged n (List.mem_append_right _ hn), ?_, ?_, ?_, ?_, ?_, honce, ?_⟩
  · rw [hgone]
    exact h.gone
  · have heq : w.devlist.map (Node.id ∘ φ) = w.devlist.map Node.id := List.map_congr_left hid
    rw [hlist, List.map_map, heq]
    exact h.ids
  · intro n hn
    rw [hlist] at hn
    obtain ⟨m, hm, rfl⟩ := List.mem_map.mp hn
    rw [hid m hm, hnext]
    exact h.lt m hm
  · have heq : w.devlist.map (Node.addr ∘ φ) = w.devlist.map Node.addr := List.map_congr_left haddr
    rw [hlist, List.map_map, heq]
    exact h.addrs
  · intro n hn
    rw [hlist] at hn
    obtain ⟨m, hm, rfl⟩ := List.mem_map.mp hn
    rw [haddr m hm]
    exact h.range m hm
  · intro pc hpc id hw
    obtain ⟨n, hn, hnid, hf⟩ := hworks pc hpc id hw
    rw [hlist]
    exact ⟨φ n, List.mem_map_of_mem hn, (hid n hn).trans hnid, hf⟩

theorem Nodes.eq_of_id (h : Nodes w) {n m : Node} (hn : n ∈ w.devlist) (hm : m ∈ w.devlist) (hid : m.id = n.id) : m = n :=
  List.inj_on_of_nodup_map h.ids hm hn hid

/-- The next section of the call that works on device `n`: only that device changes. -/
theorem Nodes.advance (h : Nodes w) {i : ℕ} {pc₀ pc : FlushPc} {n : Node} {g : Node → Node}
    (hi : w.flushes[i]? = some pc₀) (hn : n ∈ w.devlist)
    (hfree : ∀ pc ∈ w.flushes.eraseIdx i, pc.work ≠ some n.id) (hwork : ∀ id, pc.work = some id → id = n.id)
    (hw' : w'.devlist = w.devlist.map fun m => if m.id = n.id then g m else m) (hgone : w'.gone = w.gone)
    (hnext : w'.ids = w.ids) (hflush : w'.flushes = w.flushes.set i pc) (hid : (g n).id = n.id) (hdev : (g n).dev = n.dev)
    (hstaged : (g n).Staged) (hfits : pc.Fits (g n)) : Nodes w' := by
  have hat {m : Node} (hm : m ∈ w.devlist) {P : Node → Prop} (hg : P (g n)) (hm' : P m) :
      P (if m.id = n.id then g m else m) := by
    split
    · rename_i heq
      rw [h.eq_of_id hn hm heq]
      exact hg
    · exact hm'
  have hrest {pc' : FlushPc} (hpc : pc' ∈ w.flushes.eraseIdx i) : pc' ∈ w.flushes := List.mem_of_mem_eraseIdx hpc
  refine h.map hw' hgone hnext ?_ ?_ ?_ ?_ ?_ ?_
  · intro m hm
    split
    · rename_i heq
      rw [h.eq_of_id hn hm heq, hid]
    · rfl
  · intro m hm
    split
    · rename_i heq
      rw [h.eq_of_id hn hm heq, Node.addr, hdev]
      rfl
    · rfl
  · intro m hm
    refine hat hm (P := fun m => Reached m.dev) ?_ (h.reached m (List.mem_append_left _ hm))
    rw [hdev]
    exact h.reached n (List.mem_append_left _ hn)
  · exact fun m hm => hat hm hstaged (h.staged m (List.mem_append_left _ hm))
  · have honce := h.once
    rw [((perm_erased hi).filterMap _).nodup_iff] at honce
    rw [hflush, ((perm_replaced hi pc).filterMap _).nodup_iff]
    have hback : ((w.flushes.eraseIdx i).filterMap FlushPc.work).Nodup := by
      refine honce.sublist ?_
      exact (List.sublist_cons_self _ _).filterMap _
    cases hwk : pc.work with
    | none =>
      rw [List.filterMap_cons_none hwk]
      exact hback
    | some id =>
      rw [List.filterMap_cons_some hwk, List.nodup_cons]
      refine ⟨fun hmem => ?_, hback⟩
      obtain ⟨pc', hpc', hw⟩ := List.mem_filterMap.mp hmem
      exact hfree pc' hpc' (hwork id hwk ▸ hw)
  · intro pc' hpc' id hw
    rw [hflush, (perm_replaced hi pc).mem_iff, List.mem_cons] at hpc'
    rcases hpc' with rfl | hpc'
    · refine ⟨n, hn, (hwork id hw).symm, ?_⟩
      rw [if_pos rfl]
      exact hfits
    · obtain ⟨m, hm, hmid, hf⟩ := h.works pc' (hrest hpc') id hw
      refine ⟨m, hm, hmid, ?_⟩
      have hne : m.id ≠ n.id := fun heq => hfree pc' hpc' (by rw [hw, ← hmid, heq])
      rw [if_neg hne]
      exact hf

theorem Nodes.alone (h : Nodes w) {i : ℕ} {pc₀ : FlushPc} {id : ℕ} (hi : w.flushes[i]? = some pc₀)
    (hw : pc₀.work = some id) : ∀ pc ∈ w.flushes.eraseIdx i, pc.work ≠ some id := by
  have honce := h.once
  rw [((perm_erased hi).filterMap _).nodup_iff, List.filterMap_cons_some hw, List.nodup_cons] at honce
  exact fun pc hpc hpw => honce.1 (List.mem_filterMap.mpr ⟨pc, hpc, hpw⟩)

/-- The device stays the same under a step of its own. -/
theorem step_same {d d' : Aoedev} {e : Event} (h : Reached d) (hs : Step d e d') (he : ∀ mode env, e ≠ .flushDev mode env) :
    Reached d' ∧ d'.aoemajor = d.aoemajor ∧ d'.aoeminor = d.aoeminor ∧ d'.flags.tkill = d.flags.tkill := by
  have hmeets : Guard.Meets ⟨fun _ => True, fun _ _ => False, fun _ _ => True⟩ d e := by
    cases e with
    | flushDev mode env => exact absurd rfl (he mode env)
    | rexmitTimer env => exact fun _ _ => trivial
    | run i env => exact fun _ _ _ _ => trivial
    | _ => trivial
  have hturn := exec_turn (reachedBy_good h).1 hmeets hs.1
  have hkeep {s s' : Blk} (t : Turn ⟨fun _ => True, fun _ _ => False, fun _ _ => True⟩ s s') :
      s'.aoemajor = s.aoemajor ∧ s'.aoeminor = s.aoeminor ∧ s'.tkill = s.tkill := by
    cases t with
    | kill hm hq hg => exact hg.elim
    | @ident i id n f data hi hg =>
      change (s.ident n).aoemajor = _ ∧ (s.ident n).aoeminor = _ ∧ (s.ident n).tkill = _
      unfold Blk.ident
      split
      · exact ⟨rfl, rfl, rfl⟩
      · split
        · exact ⟨rfl, rfl, rfl⟩
        · exact ⟨rfl, rfl, rfl⟩
    | @sleep i pc ok hi =>
      change (s.worked ok pc).1.aoemajor = _ ∧ (s.worked ok pc).1.aoeminor = _ ∧ (s.worked ok pc).1.tkill = _
      cases pc with
      | gdalloc =>
        unfold Blk.worked
        dsimp only
        split
        · exact ⟨rfl, rfl, rfl⟩
        · exact ⟨rfl, rfl, rfl⟩
      | gdNow =>
        unfold Blk.worked
        dsimp only
        split
        · exact ⟨rfl, rfl, rfl⟩
        · exact ⟨rfl, rfl, rfl⟩
      | resize =>
        unfold Blk.worked
        dsimp only
        split
        · exact ⟨rfl, rfl, rfl⟩
        · exact ⟨rfl, rfl, rfl⟩
      | start => exact ⟨rfl, rfl, rfl⟩
      | installed => exact ⟨rfl, rfl, rfl⟩
      | resizing n => exact ⟨rfl, rfl, rfl⟩
    | _ => exact ⟨rfl, rfl, rfl⟩
  exact ⟨.step h trivial hs, hkeep hturn⟩

theorem kill_step {exiting : Bool} {str : List Char} {d : Aoedev} (h : flushSelects exiting str d = true) :
    ∃ mode, flushTakes d mode = true ∧ exec d (.flushDev mode d.env) = some { aoedevDowndev d with flags.tkill := true } := by
  have htakes : ∃ mode, flushTakes d mode = true := by
    unfold flushSelects at h
    split at h
    · refine ⟨.named, ?_⟩
      unfold userReq at h
      split at h
      · exact absurd h Bool.false_ne_true
      · rename_i hgd
        rw [flushTakes, ← Option.not_isNone, Bool.not_eq_true']
        exact eq_false_of_ne_true hgd
    · exact ⟨_, h⟩
  obtain ⟨mode, ht⟩ := htakes
  refine ⟨mode, ht, ?_⟩
  change some (flushPassOne d mode) = _
  rw [flushPassOne, if_pos ht]

end Keep

end AoeDriver
