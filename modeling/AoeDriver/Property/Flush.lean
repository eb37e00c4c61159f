import AoeDriver.Devlist.Names

/-!
# What a flush removes

Which devices a write to the flush device takes down.
-/

namespace AoeDriver

open Machine

/-- The digits of a slot begin with those of another one. -/
def Node.begins (n m : Node) : Prop := m.addr.1 = n.addr.1 ∧ Nat.toDigits 10 n.addr.2 <+: Nat.toDigits 10 m.addr.2

/-- Writing the name of an installed device selects this one alone, and `user_req` holds of the whole name alone, just
when no other installed device of its shelf has a slot number that begins with the digits of its own. -/
theorem named_flush_exact {w : World} {n : Node} (h : WorldReached w) (hn : n ∈ w.devlist) :
    (∀ m ∈ w.devlist, m.dev.gd.isSome = true →
      (flushSelects false n.name m.dev = true ↔ m = n) ∧
      (userReq n.name n.name.length m.dev = true ↔ n.name = baseName m.dev.diskName)) ↔
    ∀ m ∈ w.devlist, m.dev.gd.isSome = true → n.begins m → m = n := by
  have hnodes := (world_ordered h).1
  have hrange {m : Node} (hm : m ∈ w.devlist) := hnodes.range m hm
  have hselect {m : Node} (hm : m ∈ w.devlist) (hmgd : m.dev.gd.isSome = true) :
      userReq n.name n.name.length m.dev = true ↔ n.begins m := by
    rw [userReq_name (hrange hn) (hrange hm) hmgd, name_prefix, eq_comm]
    exact Iff.rfl
  have hsame {m : Node} (hm : m ∈ w.devlist) : n.name = baseName m.dev.diskName ↔ m = n := by
    rw [baseName_diskName (hrange hm), name_inj]
    constructor
    · exact fun heq => List.inj_on_of_nodup_map hnodes.addrs hm hn heq.symm
    · exact fun heq => heq ▸ rfl
  have hself : n.begins n := ⟨rfl, List.prefix_refl _⟩
  constructor
  · intro hall m hm hmgd hext
    obtain ⟨-, hreq⟩ := hall m hm hmgd
    exact (hsame hm).mp (hreq.mp ((hselect hm hmgd).mpr hext))
  · intro hall m hm hmgd
    have hiff : n.begins m ↔ m = n := ⟨hall m hm hmgd, fun heq => heq ▸ hself⟩
    rw [flushSelects_name (hrange hn), hselect hm hmgd, hsame hm]
    exact ⟨hiff, hiff⟩

def sampleApart : WorldScene anyEvent (16, true) (sampleAdd 0 1 2 ++ sampleAdd 1 1 13)
    (fun w => w.devlist.length == 2 && w.devlist.any (fun n => n.id == 0 && n.addr == (1, 2) && n.dev.gd.isSome) &&
      w.devlist.all (fun m => m.id == 0 || m.addr.2 == 13)) :=
  ⟨by decide +kernel⟩

theorem named_flush_exact_sample : ∃ w, WorldReached w ∧ w.devlist.length = 2 ∧ ∃ n ∈ w.devlist, n.addr = (1, 2) ∧
    n.dev.gd.isSome = true ∧ ∀ m ∈ w.devlist, m.dev.gd.isSome = true → (flushSelects false n.name m.dev = true ↔ m = n) := by
  obtain ⟨w, hr, hc⟩ := sampleApart.last
  simp only [Bool.and_eq_true, Bool.or_eq_true, beq_iff_eq, List.all_eq_true, List.any_eq_true] at hc
  obtain ⟨⟨hlen, n, hn, ⟨hid, haddr⟩, hgd⟩, hothers⟩ := hc
  have hreach := hr.reached
  refine ⟨w, hreach, hlen, n, hn, haddr, hgd, fun m hm hmgd => ?_⟩
  refine ((named_flush_exact hreach hn).mpr ?_ m hm hmgd).1
  intro m hm _ hb
  rcases hothers m hm with hmid | hmin
  · exact (world_ordered hreach).1.eq_of_id hn hm (hmid.trans hid.symm)
  · rw [Node.begins, hmin, haddr] at hb
    exact absurd hb.2 (by decide)

def samplePrefix : WorldScene anyEvent (16, true) (sampleAdd 0 1 1 ++ sampleAdd 1 1 10)
    (fun w =>
      w.devlist.any (fun n => n.name == "e1.1".toList && n.dev.gd.isSome && flushSelects false "e1.1".toList n.dev) &&
      w.devlist.any (fun m => m.name == "e1.10".toList && flushSelects false "e1.1".toList m.dev)) :=
  ⟨by decide +kernel⟩

/-- The devices `e1.1` and `e1.10` are installed: the name of the first selects both. -/
theorem named_flush_both : ∃ w, WorldReached w ∧ ∃ n ∈ w.devlist, ∃ m ∈ w.devlist, n.name = "e1.1".toList ∧
    m.name = "e1.10".toList ∧ n.dev.gd.isSome = true ∧ flushSelects false "e1.1".toList n.dev = true ∧
    flushSelects false "e1.1".toList m.dev = true := by
  obtain ⟨w, hr, hc⟩ := samplePrefix.last
  simp only [Bool.and_eq_true, beq_iff_eq, List.any_eq_true] at hc
  obtain ⟨⟨n, hn, ⟨hname, hgd⟩, hsel⟩, m, hm, hname', hsel'⟩ := hc
  exact ⟨w, hr.reached, n, hn, m, hm, hname, hname', hgd, hsel, hsel'⟩

/-- Open, held, or with a disk or a new size to be installed. -/
def Aoedev.busy (d : Aoedev) : Bool := d.nopen != 0 || d.ref != 0 || d.flags.gdalloc || d.flags.newsize

/-- In use; the installation of a disk ends when `DEVFL_GD_NOW` is cleared. -/
def Aoedev.inUse (d : Aoedev) : Bool := d.busy || d.flags.gdNow

/-- The disk has just been made known and the installation is not yet over. -/
def Aoedev.gdNowOnly (d : Aoedev) : Bool := d.flags.gdNow && !d.busy

/-- What keeps a device in use from being flushed. -/
def spared (str : List Char) (d : Aoedev) : Bool :=
  !d.flags.tkill && match flushMode false str with
    | .named => !userReq (flushBuf str) (flushBuf str).length d
    | .all => !d.gdNowOnly
    | _ => !d.gdNowOnly || d.flags.up

/-- Other flushes may start, but none of them selects the device. -/
def Unselected (id : ℕ) (w : World) (e : WorldEvent) : Prop :=
  ∀ exiting str, e = .flush exiting str → ∀ n ∈ w.devlist, n.id = id → flushSelects exiting str n.dev = false

/-- The device is on the list, and nobody has begun to remove it. -/
def World.keeps (w : World) (id : ℕ) : Prop :=
  ∃ n ∈ w.devlist, n.id = id ∧ n.dev.flags.tkill = false ∧ n.freeing = false ∧ n.torn = false ∧ n.freed = false

section InUse

variable {G : ListGuard} {w w' : World} {n : Node}

theorem flushMode_writes (str : List Char) : flushMode false str ≠ .exiting := by
  rw [flushMode, if_neg Bool.false_ne_true]
  split
  · split
    · simp
    · simp
  · simp

private theorem flushTakes_busy (d : Aoedev) : flushTakes d .all = !(d.busy || d.flags.tkill) ∧
    flushTakes d .default = !(d.busy || d.flags.up || d.flags.tkill) := by
  rw [flushTakes, flushTakes, Aoedev.busy]
  constructor
  · congr 1
    ac_rfl
  · congr 1
    ac_rfl

private theorem spared_iff (str : List Char) {d : Aoedev} (huse : d.inUse = true) :
    spared str d = true ↔ d.flags.tkill = false ∧ flushSelects false str d = false := by
  have hwrites := flushMode_writes str
  obtain ⟨hall, hdefault⟩ := flushTakes_busy d
  have hbusy : (!d.gdNowOnly) = d.busy := by
    rw [Aoedev.inUse] at huse
    rw [Aoedev.gdNowOnly]
    cases hb : d.busy with
    | true => rw [Bool.not_true, Bool.and_false, Bool.not_false]
    | false =>
      rw [hb, Bool.false_or] at huse
      rw [huse]
      rfl
  unfold spared flushSelects
  cases hmode : flushMode false str with
  | exiting => exact absurd hmode hwrites
  | named => simp
  | all =>
    simp only [hall, hbusy, Bool.and_eq_true, Bool.not_eq_true', Bool.not_eq_false', Bool.or_eq_true]
    constructor
    · exact fun h => ⟨h.1, .inl h.2⟩
    · rintro ⟨hk, hb | hk'⟩
      · exact ⟨hk, hb⟩
      · exact absurd (hk.symm.trans hk') Bool.noConfusion
  | default =>
    simp only [hdefault, hbusy, Bool.and_eq_true, Bool.not_eq_true', Bool.not_eq_false', Bool.or_eq_true]
    constructor
    · exact fun h => ⟨h.1, .inl h.2⟩
    · rintro ⟨hk, hb | hk'⟩
      · exact ⟨hk, hb⟩
      · exact absurd (hk.symm.trans hk') Bool.noConfusion

/-- A device that nobody has begun to remove stays so until a flush selects it. -/
private theorem keeps_step {id : ℕ} {e : WorldEvent} (hn : Nodes w) (hu : Unselected id w e) (hs : WorldStep w e w')
    (h : w.keeps id) : w'.keeps id := by
  obtain ⟨n, hmem, rfl, hkill, hfree, htorn, hfreed⟩ := h
  let G : ListGuard := ⟨fun w exiting str => ∀ m ∈ w.devlist, m.id = n.id → flushSelects exiting str m.dev = false, True⟩
  have hmeets : G.Meets w e := by
    cases e with
    | cfgRsp => exact fun _ => trivial
    | flush exiting str => exact hu exiting str rfl
    | _ => trivial
  have hother {m : Node} {g : Node → Node} (hm : m ∈ w.devlist) (hne : m.id ≠ n.id) :
      n ∈ w.devlist.map fun a => if a.id = m.id then g a else a :=
    List.mem_map.mpr ⟨n, hmem, if_neg fun heq => hne heq.symm⟩
  -- whoever is torn down has been marked
  have hdoomed {m : Node} (hm : m ∈ w.devlist) (hf : m.freeing = true) : m.id ≠ n.id := by
    intro heq
    rw [hn.eq_of_id hmem hm heq, hfree] at hf
    exact Bool.noConfusion hf
  cases exec_change hn hmeets hs with
  | same => exact ⟨n, hmem, rfl, hkill, hfree, htorn, hfreed⟩
  | tune b => exact ⟨n, hmem, rfl, hkill, hfree, htorn, hfreed⟩
  | wait hi h₀ h₁ => exact ⟨n, hmem, rfl, hkill, hfree, htorn, hfreed⟩
  | @event m e d hm hstep he =>
    by_cases heq : m.id = n.id
    · rw [hn.eq_of_id hmem hm heq] at hstep
      have hsame := step_same (hn.reached n (List.mem_append_left _ hmem)) hstep he
      refine ⟨{ n with dev := d }, List.mem_map.mpr ⟨n, hmem, if_pos heq.symm⟩, rfl, ?_, hfree, htorn, hfreed⟩
      exact hsame.2.2.2.trans hkill
    · exact ⟨n, hother hm heq, rfl, hkill, hfree, htorn, hfreed⟩
  | leak hg hk hlt => exact ⟨n, hmem, rfl, hkill, hfree, htorn, hfreed⟩
  | add hk hlt hd hrange hnew => exact ⟨n, List.mem_cons_of_mem _ hmem, rfl, hkill, hfree, htorn, hfreed⟩
  | passOne hg =>
    refine ⟨n, List.mem_map.mpr ⟨n, hmem, ?_⟩, rfl, hkill, hfree, htorn, hfreed⟩
    rw [hg n hmem rfl]
    rfl
  | @claim i m hi hm hd =>
    have hne : m.id ≠ n.id := by
      intro heq
      rw [hn.eq_of_id hmem hm heq, Node.doomed, hkill] at hd
      exact Bool.noConfusion hd
    exact ⟨n, hother hm hne, rfl, hkill, hfree, htorn, hfreed⟩
  | @teardown i m hi hm hf => exact ⟨n, hother hm (hdoomed hm hf.1), rfl, hkill, hfree, htorn, hfreed⟩
  | @minorFree i m hi hm hf =>
    have hstaged := hn.staged m (List.mem_append_left _ hm)
    exact ⟨n, hother hm (hdoomed hm (hstaged.torn hf.1)), rfl, hkill, hfree, htorn, hfreed⟩
  | @finish i m hi hm hf =>
    have hstaged := hn.staged m (List.mem_append_left _ hm)
    exact ⟨n, hother hm (hdoomed hm (hstaged.torn (hstaged.unnumbered hf.1))), rfl, hkill, hfree, htorn, hfreed⟩
  | passThree hi =>
    refine ⟨n, List.mem_filter.mpr ⟨hmem, ?_⟩, rfl, hkill, hfree, htorn, hfreed⟩
    rw [hfreed, Bool.not_false]

/-- A device in use is left alone by pass one of a write and stays on the list, whatever else happens before another
flush selects it, just when it is not yet marked, not named, and `DEVFL_GD_NOW` is not the only sign of its use. -/
theorem flush_spares {str : List Char} (h : WorldReached w) (hn : n ∈ w.devlist) (huse : n.dev.inUse = true) :
    (n ∈ (passOne w false str).devlist ∧
      ∀ w', Reach (fun s => s = passOne w false str) WorldStep (fun s e _ => Unselected n.id s e) w' → w'.keeps n.id) ↔
    spared str n.dev = true := by
  have hnodes := (world_ordered h).1
  have hpass : WorldReached (passOne w false str) := Reach.step (e := .flush false str) h trivial rfl
  rw [spared_iff str huse]
  constructor
  · rintro ⟨hmem, hrun⟩
    obtain ⟨m, hm, hid, hkill, -⟩ := hrun _ (.init rfl)
    have hmn : m = n := (world_ordered hpass).1.eq_of_id hmem hm hid
    rw [hmn] at hkill
    refine ⟨hkill, ?_⟩
    by_contra hsel
    obtain ⟨a, ha, hna⟩ := List.mem_map.mp hmem
    have hida : a.id = n.id := by
      rw [← hna]
      split
      · rfl
      · rfl
    rw [hnodes.eq_of_id hn ha hida, if_pos (by simpa using hsel)] at hna
    have hmarked : n.kill.dev.flags.tkill = true := rfl
    rw [hna, hkill] at hmarked
    exact Bool.noConfusion hmarked
  · rintro ⟨hkill, hsel⟩
    have hmem : n ∈ (passOne w false str).devlist := by
      refine List.mem_map.mpr ⟨n, hn, ?_⟩
      rw [hsel]
      rfl
    have hstaged := hnodes.staged n (List.mem_append_left _ hn)
    obtain ⟨hfree, htorn, -, hfreed⟩ := hstaged.clear (.inl hkill)
    refine ⟨hmem, fun w' hr => ?_⟩
    have hboth := Reach.invariant (P := fun s => WorldReached s ∧ s.keeps n.id) ?_ ?_ hr
    · exact hboth.2
    · rintro s rfl
      exact ⟨hpass, n, hmem, rfl, hkill, hfree, htorn, hfreed⟩
    · intro s e s' _ hs hu hstep
      exact ⟨Reach.step hs.1 trivial hstep, keeps_step (world_ordered hs.1).1 hu hstep hs.2⟩

def sampleOpen : WorldScene anyEvent (16, true) (sampleAdd 0 1 2 ++ [.dev 0 .blkOpen])
    (fun w => w.devlist.any fun n => n.dev.nopen == 1 && n.dev.inUse && spared "all".toList n.dev) :=
  ⟨by decide +kernel⟩

/-- An open device is not flushed with the unused ones. -/
theorem flush_spares_sample : ∃ w n, WorldReached w ∧ n ∈ w.devlist ∧ n.dev.nopen = 1 ∧
    ∀ w', Reach (fun s => s = passOne w false "all".toList) WorldStep (fun s e _ => Unselected n.id s e) w' → w'.keeps n.id := by
  obtain ⟨w, hr, hc⟩ := sampleOpen.last
  simp only [List.any_eq_true, Bool.and_eq_true, beq_iff_eq] at hc
  obtain ⟨n, hn, ⟨hopen, huse⟩, hspared⟩ := hc
  exact ⟨w, n, hr.reached, hn, hopen, ((flush_spares hr.reached hn huse).mpr hspared).2⟩

/-- The flush of a named device runs to its end. -/
def sampleNamed (name : List Char) : List WorldEvent := .flush false name :: List.replicate 6 (.flushStep 0)

def sampleTaken : WorldScene anyEvent (16, true) (sampleAdd 0 1 2 ++ [.dev 0 .blkOpen])
    (fun w => w.devlist.any fun n => n.dev.nopen == 1 &&
      (runWorld anyEvent w (sampleNamed "e1.2".toList)).any (fun w' => w'.devlist.isEmpty &&
        w'.gone.any fun m => m.id == n.id && m.dev.nopen == 1 && m.freed)) :=
  ⟨by decide +kernel⟩

/-- The device `e1.2` is open and its name is written: it is taken off the list. -/
theorem flush_takes_open : ∃ w w' n m, WorldReached w ∧ n ∈ w.devlist ∧ n.dev.nopen = 1 ∧
    runWorld anyEvent w (sampleNamed "e1.2".toList) = some w' ∧ w'.devlist = [] ∧ m ∈ w'.gone ∧ m.id = n.id ∧
    m.dev.nopen = 1 ∧ m.freed = true := by
  obtain ⟨w, hr, hc⟩ := sampleTaken.last
  simp only [List.any_eq_true, Bool.and_eq_true, beq_iff_eq] at hc
  obtain ⟨n, hn, hopen, hrest⟩ := hc
  obtain ⟨w', hw', hc'⟩ := (Option.any_eq_true _ _).mp hrest
  simp only [List.any_eq_true, Bool.and_eq_true, beq_iff_eq, List.isEmpty_iff] at hc'
  obtain ⟨hempty, m, hm, ⟨hid, hopen'⟩, hfreed⟩ := hc'
  exact ⟨w, w', n, m, hr.reached, hn, hopen, hw', hempty, hm, hid, hopen', hfreed⟩

end InUse

/-- A device marked for removal has no threads but those of its own work queue. -/
def Still (s : Blk) : Prop := s.tkill = true → s.iocq = [] ∧ ∀ th ∈ s.threads, ∃ pc, th = .sleep pc

/-- The thread has given back its reference and has still to look at the device. -/
def Thread.spawns : Thread → Bool
  | .ktioSpawn _ => true
  | _ => false

/-- Only unused devices are flushed, and no completion thread is about to look at one of them. -/
def flushesUnused (w : World) : WorldEvent → Bool
  | .flush exiting str =>
    (flushMode exiting str == .default || flushMode exiting str == .all) &&
      w.devlist.all fun n => !flushSelects exiting str n.dev || !n.dev.threads.any Thread.spawns
  | _ => true

section Threads

variable {s s' : Blk} {w w' : World}

/-- Turns other than a flush. -/
def Guard.unflushed : Guard := ⟨fun _ => True, fun _ _ => False, fun _ _ => True⟩

theorem Still.setThread {i : ℕ} {th : Thread} {next : Option Thread} (h : Still s) (hi : s.threads[i]? = some th)
    (hn : ∀ pc, th = .sleep pc → ∀ th', next = some th' → ∃ pc, th' = .sleep pc) : Still (s.setThread i next) := by
  intro hk
  obtain ⟨hq, hall⟩ := h hk
  obtain ⟨pc, hpc⟩ := hall th (List.mem_of_getElem? hi)
  refine ⟨hq, fun th' hth' => ?_⟩
  cases next with
  | none => exact hall th' (List.mem_of_mem_eraseIdx hth')
  | some next =>
    rcases List.mem_or_eq_of_mem_set hth' with hth' | rfl
    · exact hall th' hth'
    · exact hn pc hpc _ rfl

theorem Still.congr (h : Still s) (hk : s'.tkill = s.tkill) (hq : s'.iocq = s.iocq) (ht : s'.threads = s.threads) :
    Still s' := by
  unfold Still
  rw [hk, hq, ht]
  exact h

theorem Turn.still (t : Turn .unflushed s s') (h : Still s) : Still s' := by
  cases t with
  | same => exact h
  | hold hk hr =>
    intro hx
    exact absurd (hk.symm.trans hx) Bool.noConfusion
  | work hw =>
    intro hk
    obtain ⟨hq, hall⟩ := h hk
    refine ⟨hq, fun th hth => ?_⟩
    rcases List.mem_append.mp hth with hth | hth
    · exact hall th hth
    · exact ⟨_, List.mem_singleton.mp hth⟩
  | take hlen =>
    intro hk
    rw [(h hk).1] at hlen
    exact absurd hlen (by simp)
  | @unqueue q fs hlen =>
    intro hk
    obtain ⟨hq, hall⟩ := h hk
    rw [hq, List.length_nil] at hlen
    have hq' : q = [] := List.length_eq_zero_iff.mp (by omega)
    have hfs : fs = [] := List.length_eq_zero_iff.mp (by omega)
    rw [hfs, List.map_nil, List.append_nil]
    exact ⟨hq', hall⟩
  | down hk hg => exact h.congr rfl rfl rfl
  | kill hm hq hg => exact hg.elim
  | opened hk => exact h.congr rfl rfl rfl
  | released => exact h.congr rfl rfl rfl
  | @step i th th' hi h₁ h₂ =>
    refine h.setThread hi ?_
    rintro pc rfl
    exact absurd h₁ Nat.zero_ne_one
  | spawned hi => exact h.setThread hi fun pc hpc => absurd hpc (by simp)
  | @queue i f r p hi =>
    intro hk
    obtain ⟨pc, hpc⟩ := (h hk).2 _ (List.mem_of_getElem? hi)
    exact absurd hpc (by simp)
  | @put i th next hi h₁ hn =>
    have hs : Still (s.setThread i next) := by
      refine h.setThread hi ?_
      rintro pc rfl
      exact absurd h₁ Nat.zero_ne_one
    exact hs.congr rfl rfl rfl
  | @ident i id n f data hi hg =>
    intro hk
    have hk' : s.tkill = true := by
      have heq : (s.ident n).tkill = s.tkill := by
        unfold Blk.ident
        split
        · rfl
        · split
          · rfl
          · rfl
      exact heq.symm.trans hk
    obtain ⟨pc, hpc⟩ := (h hk').2 _ (List.mem_of_getElem? hi)
    exact absurd hpc (by simp)
  | @sleep i pc ok hi =>
    have hw : (s.worked ok pc).1.tkill = s.tkill ∧ (s.worked ok pc).1.iocq = s.iocq ∧
        (s.worked ok pc).1.threads = s.threads := by
      unfold Blk.worked
      split
      · exact ⟨rfl, rfl, rfl⟩
      · split
        · exact ⟨rfl, rfl, rfl⟩
        · exact ⟨rfl, rfl, rfl⟩
      · split
        · exact ⟨rfl, rfl, rfl⟩
        · exact ⟨rfl, rfl, rfl⟩
      · exact ⟨rfl, rfl, rfl⟩
      · split
        · exact ⟨rfl, rfl, rfl⟩
        · exact ⟨rfl, rfl, rfl⟩
      · exact ⟨rfl, rfl, rfl⟩
    have hs : Still (s.worked ok pc).1 := h.congr hw.1 hw.2.1 hw.2.2
    refine hs.setThread (hw.2.2 ▸ hi) fun _ _ th hth => ?_
    obtain ⟨pc', -, rfl⟩ := Option.map_eq_some_iff.mp hth
    exact ⟨pc', rfl⟩

private theorem still_of_unused {d : Aoedev} (h : Reached d) (href : d.ref = 0)
    (hspawn : d.threads.any Thread.spawns = false) : d.iocq = [] ∧ ∀ th ∈ d.threads, ∃ pc, th = .sleep pc := by
  have hcount : d.ref = d.iocq.length + (d.threads.map Thread.refs).sum := (reachedBy_refs h).count
  rw [href] at hcount
  have hq : d.iocq = [] := List.length_eq_zero_iff.mp (by omega)
  have hsum : (d.threads.map Thread.refs).sum = 0 := by omega
  refine ⟨hq, fun th hth => ?_⟩
  have hzero : th.refs = 0 := List.sum_eq_zero_iff.mp hsum _ (List.mem_map_of_mem hth)
  have hno := List.any_eq_false.mp hspawn th hth
  cases th with
  | ktioSpawn id => exact absurd rfl hno
  | sleep pc => exact ⟨pc, rfl⟩
  | _ => exact absurd hzero Nat.one_ne_zero

private theorem flushesUnused_still {e : WorldEvent} (hn : Nodes w) (hg : flushesUnused w e = true)
    (hs : WorldStep w e w')
    (h : ∀ n ∈ w.devlist ++ w.gone, Still n.dev.life) : ∀ n ∈ w'.devlist ++ w'.gone, Still n.dev.life := by
  let G : ListGuard := ⟨fun w exiting str => flushesUnused w (.flush exiting str) = true, True⟩
  have hmeets : G.Meets w e := by
    cases e with
    | cfgRsp => exact fun _ => trivial
    | flush exiting str => exact hg
    | _ => trivial
  have hlist {n : Node} (hmem : n ∈ w.devlist) := h n (List.mem_append_left _ hmem)
  have hboth {φ : Node → Node} (hφ : ∀ n ∈ w.devlist, Still (φ n).dev.life) :
      ∀ n ∈ w.devlist.map φ ++ w.gone, Still n.dev.life := by
    intro n hmem
    rcases List.mem_append.mp hmem with hmem | hmem
    · obtain ⟨m, hm, rfl⟩ := List.mem_map.mp hmem
      exact hφ m hm
    · exact h n (List.mem_append_right _ hmem)
  have hflag {id : ℕ} {g : Node → Node} (hdev : ∀ n, (g n).dev = n.dev) :
      ∀ n ∈ (w.devlist.map fun n => if n.id = id then g n else n) ++ w.gone, Still n.dev.life := by
    refine hboth fun n hmem => ?_
    split
    · rw [hdev]
      exact hlist hmem
    · exact hlist hmem
  cases exec_change hn hmeets hs with
  | same => exact h
  | tune b => exact h
  | wait hi h₀ h₁ => exact h
  | @event m e d hm hstep he =>
    refine hboth fun n hmem => ?_
    split
    · have hmeets : Guard.unflushed.Meets m.dev e := by
        cases e with
        | flushDev mode env => exact absurd rfl (he mode env)
        | rexmitTimer env => exact fun _ _ => trivial
        | run i env => exact fun _ _ _ _ => trivial
        | _ => trivial
      have hgood := (reachedBy_good (hn.reached m (List.mem_append_left _ hm))).1
      exact (exec_turn hgood hmeets hstep.1).still (hlist hm)
    · exact hlist hmem
  | leak hg hk hlt => exact h
  | @add k d hk hlt hd hrange hnew =>
    intro n hmem
    rcases List.mem_cons.mp hmem with rfl | hmem
    · intro hkill
      obtain ⟨a, b, c, s, m, clock, cfg, rfl⟩ := hd
      exact Bool.noConfusion hkill
    · exact h n hmem
  | @passOne exiting str hflush =>
    refine hboth fun n hmem => ?_
    split
    · rename_i hsel
      simp only [G, flushesUnused, Bool.and_eq_true, Bool.or_eq_true, beq_iff_eq, List.all_eq_true, Bool.not_eq_true'] at hflush
      have hspawn := (hflush.2 n hmem).resolve_left (by simp [hsel])
      have href : n.dev.ref = 0 := by
        unfold flushSelects at hsel
        rcases hflush.1 with hmode | hmode
        · rw [hmode] at hsel
          simp only [flushTakes, Bool.not_eq_true', Bool.or_eq_false_iff, bne_eq_false_iff_eq] at hsel
          exact hsel.2
        · rw [hmode] at hsel
          simp only [flushTakes, Bool.not_eq_true', Bool.or_eq_false_iff, bne_eq_false_iff_eq] at hsel
          exact hsel.2
      have hstill := still_of_unused (hn.reached n (List.mem_append_left _ hmem)) href hspawn
      have hlife : n.kill.dev.life = { n.dev.life.shut with tkill := true } := by
        rw [← aoedevDowndev_life]
        rfl
      rw [hlife]
      exact fun _ => hstill
    · exact hlist hmem
  | claim hi hm hd => exact hflag fun _ => rfl
  | teardown hi hm hf => exact hflag fun _ => rfl
  | minorFree hi hm hf => exact hflag fun _ => rfl
  | finish hi hm hf => exact hflag fun _ => rfl
  | passThree hi =>
    intro n hmem
    change n ∈ w.devlist.filter _ ++ (w.gone ++ w.devlist.filter _) at hmem
    simp only [List.mem_append, List.mem_filter] at hmem
    rcases hmem with hmem | hmem | hmem
    · exact hlist hmem.1
    · exact h n (List.mem_append_right _ hmem)
    · exact hlist hmem.1

/-- Where no flush selects a device between the two last steps of a completion thread, a completion thread at work on
a device finds it on the list and untouched by `freedev`. -/
theorem ktio_device_live (h : WorldReachedBy (fun w e _ => flushesUnused w e) w) :
    ∀ n ∈ w.devlist ++ w.gone, ∀ th ∈ n.dev.threads, th.ktioId.isSome = true →
      n ∈ w.devlist ∧ n.freeing = false ∧ n.torn = false ∧ n.freed = false := by
  have hn := (world_ordered h).1
  have hstill : ∀ n ∈ w.devlist ++ w.gone, Still n.dev.life := by
    refine Reach.invariant (P := fun w => ∀ n ∈ w.devlist ++ w.gone, Still n.dev.life) ?_ ?_ h
    · rintro w ⟨p, b, rfl⟩ n hmem
      exact absurd hmem (by simp [worldInit])
    · exact fun w e w' hr hP hg hs => flushesUnused_still (world_ordered hr).1 hg hs hP
  intro n hmem th hth hktio
  have hstaged := hn.staged n hmem
  have hkill : n.dev.flags.tkill = false := by
    by_contra hk
    obtain ⟨pc, rfl⟩ := (hstill n hmem (Bool.eq_true_of_not_eq_false hk)).2 th hth
    exact Bool.noConfusion hktio
  obtain ⟨hfree, htorn, -, hfreed⟩ := hstaged.clear (.inl hkill)
  refine ⟨?_, hfree, htorn, hfreed⟩
  rcases List.mem_append.mp hmem with hmem' | hmem'
  · exact hmem'
  · exact absurd (hfreed.symm.trans (hn.gone n hmem')) Bool.noConfusion

/-- The identify command of device 0 is answered with no data; the completion thread takes `n` steps. -/
def sampleRunt (n : ℕ) : List WorldEvent :=
  sampleFound 1 2 :: (sampleRun 0 2).map (.dev 0) ++ .ataRsp 1 2 { sampleRsp 1 0 with payload := [] } ::
    (sampleRun 0 2 ++ .ktioTake 0 :: sampleRun 0 n).map (.dev 0)

def sampleBusy : WorldScene flushesUnused (16, true) (sampleRunt 2 ++ [.flush false []])
    (fun w => w.flushes == [.passTwo] && (w.devlist ++ w.gone).any fun n => n.dev.threads.any (· == .ktioPut 0)) :=
  ⟨by decide +kernel⟩

theorem ktio_device_live_sample : ∃ w, WorldReachedBy (fun w e _ => flushesUnused w e) w ∧ w.flushes = [.passTwo] ∧
    ∃ n ∈ w.devlist ++ w.gone, .ktioPut 0 ∈ n.dev.threads ∧ n ∈ w.devlist ∧ n.freeing = false := by
  obtain ⟨w, hr, hc⟩ := sampleBusy.last
  simp only [List.any_eq_true, Bool.and_eq_true, beq_iff_eq] at hc
  obtain ⟨hflush, n, hn, th, hth, rfl⟩ := hc
  have hlive := ktio_device_live hr n hn _ hth rfl
  exact ⟨w, hr, hflush, n, hn, hth, hlive.1, hlive.2.1⟩

def sampleFreed : WorldScene anyEvent (16, true) (sampleRunt 3 ++ .flush false [] :: List.replicate 6 (.flushStep 0))
    (fun w => w.devlist.isEmpty && w.gone.any fun n => n.torn && n.freed && n.dev.threads.any (· == .ktioSpawn 0)) :=
  ⟨by decide +kernel⟩

/-- The reference is given back, then a flush of the unused devices runs to its end: the completion thread has still
to look at the device. -/
theorem ktio_device_freed : ∃ w, WorldReached w ∧ w.devlist = [] ∧
    ∃ n ∈ w.gone, n.torn = true ∧ n.freed = true ∧ .ktioSpawn 0 ∈ n.dev.threads := by
  obtain ⟨w, hr, hc⟩ := sampleFreed.last
  simp only [List.any_eq_true, Bool.and_eq_true, beq_iff_eq, List.isEmpty_iff] at hc
  obtain ⟨hempty, n, hn, ⟨htorn, hfreed⟩, th, hth, rfl⟩ := hc
  exact ⟨w, hr.reached, hempty, n, hn, htorn, hfreed, hth⟩

end Threads

end AoeDriver
