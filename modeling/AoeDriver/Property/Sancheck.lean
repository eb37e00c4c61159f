import AoeDriver.Library.Sorted
import AoeDriver.Library.Tables
import AoeDriver.Model.Tools
import Mathlib.Data.Prod.Lex
import Mathlib.Tactic.Push

/-!
# The lists of aoe-sancheck

The luns of an interface and the targets of all interfaces are kept in order, each by an insertion routine of its own.
Both are the insertion into a sorted list, for different keys.
-/

namespace AoeDriver

open Ordered

section Keys

/-- Shelf, slot and Ethernet address. -/
def Lun.addr (l : Lun) : ℕ × ℕ × Mac := (l.major, l.minor, l.ea)
def SanPkt.addr (a : SanPkt) : ℕ × ℕ × Mac := (a.major, a.minor, a.src)

/-- The order of luns: shelves and slots from the largest down, then addresses as `memcmp` has them. -/
def rank (x : ℕ × ℕ × Mac) : ℕᵒᵈ ×ₗ ℕᵒᵈ ×ₗ ℕ := toLex (OrderDual.toDual x.1, toLex (OrderDual.toDual x.2.1, x.2.2.toNat))

def Lun.key (l : Lun) : ℕᵒᵈ ×ₗ ℕᵒᵈ ×ₗ ℕ := rank l.addr

/-- The order of targets: shelves and slots from the smallest up. -/
def targKey (t : ℕ × ℕ) : ℕ ×ₗ ℕ := toLex t

variable {x y : ℕ × ℕ × Mac} {t u : ℕ × ℕ}

private theorem rank_lt : rank x < rank y ↔
    y.1 < x.1 ∨ x.1 = y.1 ∧ (y.2.1 < x.2.1 ∨ x.2.1 = y.2.1 ∧ x.2.2.toNat < y.2.2.toNat) := by
  simp only [rank, Prod.Lex.toLex_lt_toLex, OrderDual.toDual_lt_toDual, OrderDual.toDual_inj]

private theorem rank_inj : rank x = rank y ↔ x = y := by
  obtain ⟨maj, min, ea⟩ := x
  obtain ⟨maj', min', ea'⟩ := y
  simp only [rank, toLex_inj, Prod.mk.injEq, OrderDual.toDual_inj, BitVec.toNat_inj]

private theorem targKey_lt : targKey t < targKey u ↔ t.1 < u.1 ∨ t.1 = u.1 ∧ t.2 < u.2 := Prod.Lex.toLex_lt_toLex

private theorem targKey_inj : targKey t = targKey u ↔ t = u := toLex_inj

private theorem lunOrder_eq (a : SanPkt) (p : Lun) : lunOrder a p = cmp p.key (rank a.addr) := by
  have hlt : p.key < rank a.addr ↔ _ := rank_lt
  have hgt : rank a.addr < p.key ↔ _ := rank_lt
  simp only [Lun.addr, SanPkt.addr] at hlt hgt
  unfold lunOrder
  rcases lt_trichotomy p.key (rank a.addr) with h | h | h
  · rw [(cmp_eq_lt_iff _ _).mpr h]
    have h' := hlt.mp h
    split_ifs <;> first | rfl | omega
  · rw [(cmp_eq_eq_iff _ _).mpr h]
    have haddr : p.addr = a.addr := rank_inj.mp h
    simp only [Lun.addr, SanPkt.addr, Prod.mk.injEq] at haddr
    obtain ⟨hmaj, hmin, hea⟩ := haddr
    rw [hmaj, hmin, hea]
    simp
  · rw [(cmp_eq_gt_iff _ _).mpr h]
    have h' := hgt.mp h
    split_ifs <;> first | rfl | omega

private theorem findlunLoop_eq (a : SanPkt) (l : List Lun) : findlunLoop a l = locate Lun.key (rank a.addr) l := by
  induction l with
  | nil => rfl
  | cons p l ih =>
    rewrite [findlunLoop, locate, lunOrder_eq, ih]
    cases cmp p.key (rank a.addr) with
    | lt => rfl
    | eq => rfl
    | gt => rfl

private theorem inserttargLoop_eq (t : ℕ × ℕ) (l : List (ℕ × ℕ)) : inserttargLoop t l = place targKey t l := by
  induction l with
  | nil => rfl
  | cons u l ih =>
    have hlt : targKey t < targKey u ↔ _ := targKey_lt
    have hgt : targKey u < targKey t ↔ _ := targKey_lt
    rw [inserttargLoop]
    rcases lt_trichotomy (targKey t) (targKey u) with h | h | h
    · rw [place_cons_gt h]
      have h' := hlt.mp h
      split_ifs <;> first | rfl | omega
    · rw [place_cons_eq h.symm, if_pos (Prod.ext_iff.mp (targKey_inj.mp h))]
    · rw [place_cons_lt h, ih]
      have h' := hgt.mp h
      split_ifs <;> first | rfl | omega

private theorem inserttarg_eq (l : List (ℕ × ℕ)) (t : ℕ × ℕ) : inserttarg l t = place targKey t l := by
  cases l with
  | nil => rfl
  | cons u l =>
    rw [← inserttargLoop_eq, inserttarg, inserttargLoop]
    split_ifs <;> first | rfl | omega

end Keys

section Lists

variable {s : Sancheck} {e : ℕ} {a : SanPkt}

/-- Luns are in order on every interface, and so are the targets, which are those of all luns. -/
structure SanLists (s : Sancheck) : Prop where
  luns : ∀ e, (s.luns e).Pairwise fun p q => q.major < p.major ∨ p.major = q.major ∧
    (q.minor < p.minor ∨ p.minor = q.minor ∧ p.ea.toNat < q.ea.toNat)
  targets : s.targlist.Pairwise fun t u => t.1 < u.1 ∨ t.1 = u.1 ∧ t.2 < u.2
  pairs : ∀ t, t ∈ s.targlist ↔ ∃ e, ∃ l ∈ s.luns e, (l.major, l.minor) = t

theorem SanLists.increasing (h : SanLists s) (e : ℕ) : Increasing Lun.key (s.luns e) :=
  (h.luns e).imp fun hlt => rank_lt.mpr hlt

/-- The lun that `findlun` makes. -/
def newLun (s : Sancheck) (a : SanPkt) : Lun := ⟨false, a.src, a.major, a.minor, 0, 0, 0x8000 ||| s.id⟩

/-- What `findlun` does: it returns the lun of the packet where there is one, NULL for an ATA response where there is none,
and else puts a new lun into the list of its interface and no other. -/
inductive Found (s : Sancheck) (e : ℕ) (a : SanPkt) : Sancheck × Option ℕ → Prop where
  | old {i : ℕ} {l : Lun} (hl : (s.luns e)[i]? = some l) (haddr : l.addr = a.addr) : Found s e a (s, some i)
  | ata (hnone : ∀ l ∈ s.luns e, l.addr ≠ a.addr) (hcmd : a.cmd = 0) : Found s e a (s, none)
  | new {s' : Sancheck} {i : ℕ} (hnone : ∀ l ∈ s.luns e, l.addr ≠ a.addr) (hcmd : a.cmd ≠ 0) (hi : i ≤ (s.luns e).length)
      (hluns : s'.luns e = (s.luns e).insertIdx i (newLun s a)) (hothers : ∀ e', e' ≠ e → s'.luns e' = s.luns e')
      (hplace : s'.luns e = place Lun.key (newLun s a) (s.luns e))
      (htargs : s'.targlist = place targKey (a.major, a.minor) s.targlist) : Found s e a (s', some i)

private theorem findlun_found (h : Increasing Lun.key (s.luns e)) (a : SanPkt) : Found s e a (findlun s e a) := by
  have hkey : (newLun s a).key = rank a.addr := rfl
  rw [findlun, findlunLoop_eq]
  dsimp only
  split
  · rename_i hfound
    obtain ⟨l, hl, hk⟩ := locate_found hfound
    exact .old hl (rank_inj.mp hk)
  · rename_i hfound
    have hnone : ∀ l ∈ s.luns e, l.addr ≠ a.addr := by
      intro l hl haddr
      refine hfound ?_
      rw [← haddr]
      exact locate_of_mem h hl
    split
    · rename_i hcmd
      exact .ata hnone hcmd
    · rename_i hcmd
      refine .new hnone hcmd (locate_le _ _) (Function.update_self ..) (fun e' he => Function.update_of_ne he ..) ?_ ?_
      · rw [place, hkey, if_neg hfound]
        exact Function.update_self ..
      · exact inserttarg_eq _ _

theorem SanLists.of_increasing (hluns : ∀ e, Increasing Lun.key (s.luns e)) (htargs : Increasing targKey s.targlist)
    (hpairs : ∀ t, t ∈ s.targlist ↔ ∃ e, ∃ l ∈ s.luns e, (l.major, l.minor) = t) : SanLists s :=
  ⟨fun e => (hluns e).imp fun hlt => rank_lt.mp hlt, htargs.imp fun hlt => targKey_lt.mp hlt, hpairs⟩

theorem SanLists.findlun (h : SanLists s) (e : ℕ) (a : SanPkt) : SanLists (findlun s e a).1 := by
  have hfound := findlun_found (h.increasing e) a
  generalize AoeDriver.findlun s e a = r at hfound
  cases hfound with
  | old => exact h
  | ata => exact h
  | @new s' i hnone hcmd hi hluns hothers hplace htargs =>
    have htsorted : Increasing targKey s.targlist := h.targets.imp fun hlt => targKey_lt.mpr hlt
    refine .of_increasing ?_ ?_ ?_
    · intro e'
      by_cases he : e' = e
      · subst he
        rw [hplace]
        exact (h.increasing e').place _
      · rw [hothers e' he]
        exact h.increasing e'
    · rw [htargs]
      exact htsorted.place _
    · have hnew : newLun s a ∈ s'.luns e := by
        rw [hluns, List.mem_insertIdx hi]
        exact .inl rfl
      intro t
      constructor
      · intro ht
        rw [htargs] at ht
        rcases mem_place_imp ht with rfl | ht
        · exact ⟨e, newLun s a, hnew, rfl⟩
        · obtain ⟨e', l, hl, hlt⟩ := (h.pairs t).mp ht
          refine ⟨e', l, ?_, hlt⟩
          by_cases he : e' = e
          · subst he
            rw [hluns, List.mem_insertIdx hi]
            exact .inr hl
          · rw [hothers e' he]
            exact hl
      · rintro ⟨e', l, hl, rfl⟩
        rw [htargs]
        have hold (hl : l ∈ s.luns e') : (l.major, l.minor) ∈ place targKey (a.major, a.minor) s.targlist :=
          mem_place_of_mem ((h.pairs _).mpr ⟨e', l, hl, rfl⟩)
        by_cases he : e' = e
        · subst he
          rw [hluns, List.mem_insertIdx hi] at hl
          rcases hl with rfl | hl
          · obtain ⟨t, ht, hk⟩ : ∃ t ∈ place targKey (a.major, a.minor) s.targlist, targKey t = targKey (a.major, a.minor) :=
              exists_mem_place
            rw [targKey_inj.mp hk] at ht
            exact ht
          · exact hold hl
        · rw [hothers e' he] at hl
          exact hold hl

theorem SanLists.congr {s' : Sancheck} (h : SanLists s) (haddr : ∀ e, (s'.luns e).map Lun.addr = (s.luns e).map Lun.addr)
    (htargs : s'.targlist = s.targlist) : SanLists s' := by
  have hmem (t : ℕ × ℕ) (e : ℕ) (s : Sancheck) : (∃ l ∈ s.luns e, (l.major, l.minor) = t) ↔
      t ∈ ((s.luns e).map Lun.addr).map fun x => (x.1, x.2.1) := by
    rw [List.map_map, List.mem_map]
    rfl
  have hinc (s : Sancheck) (e : ℕ) : Increasing Lun.key (s.luns e) ↔
      ((s.luns e).map Lun.addr).Pairwise fun x y => rank x < rank y := by
    rw [List.pairwise_map]
    rfl
  refine .of_increasing (fun e => ?_) ?_ fun t => ?_
  · rw [hinc, haddr, ← hinc]
    exact h.increasing e
  · rw [htargs]
    exact h.targets.imp fun hlt => targKey_lt.mpr hlt
  · rw [htargs, h.pairs]
    simp only [hmem, haddr]

theorem SanLists.modLun (h : SanLists s) (e i : ℕ) {g : Lun → Lun} (hg : ∀ l, (g l).addr = l.addr) :
    SanLists (s.modLun e i g) := by
  refine h.congr (fun e' => ?_) rfl
  by_cases he : e' = e
  · subst he
    have hluns : (s.modLun e' i g).luns e' = (s.luns e').modify i g := Function.update_self ..
    rw [hluns, Tables.map_modify_same _ _ _ _ hg]
  · have hluns : (s.modLun e i g).luns e' = s.luns e' := Function.update_of_ne he ..
    rw [hluns]

theorem SanLists.jinput (h : SanLists s) (mtu : ℤ) (e : ℕ) (a : SanPkt) : SanLists (jinput mtu s e a) := by
  have hfind := h.findlun e a
  unfold AoeDriver.jinput
  split
  · exact h
  · split
    · exact h
    · split
      · rcases hf : AoeDriver.findlun s e a with ⟨s', i⟩
        rw [hf] at hfind
        cases i with
        | none => exact hfind
        | some i =>
          dsimp only
          split
          · exact hfind
          · have hmod := hfind.modLun e i (g := fun l => { l with nsect := a.scnt, probed := true }) fun _ => rfl
            exact ⟨hmod.luns, hmod.targets, hmod.pairs⟩
      · split
        · rcases hf : AoeDriver.findlun s e a with ⟨s', i⟩
          rw [hf] at hfind
          cases i with
          | none => exact hfind
          | some i =>
            dsimp only
            split
            · exact hfind
            · exact hfind.modLun e i fun _ => rfl
        · exact h

/-- The state after a run. -/
def sanRun (mtu : ℕ → ℤ) (events : List SanEvent) : Sancheck := events.foldl (sanStep mtu) Sancheck.init

private theorem sanLists_init : SanLists Sancheck.init := by
  refine ⟨fun _ => .nil, .nil, fun t => iff_of_false List.not_mem_nil ?_⟩
  rintro ⟨e, l, hl, -⟩
  exact absurd hl List.not_mem_nil

theorem SanLists.step (h : SanLists s) (mtu : ℕ → ℤ) (ev : SanEvent) : SanLists (sanStep mtu s ev) := by
  cases ev with
  | discover e => exact h.congr (fun _ => rfl) rfl
  | input e a => exact h.jinput (mtu e) e a

private theorem sanRun_lists (mtu : ℕ → ℤ) (events : List SanEvent) : SanLists (sanRun mtu events) := by
  have hfold : ∀ s : Sancheck, SanLists s → SanLists (events.foldl (sanStep mtu) s) := by
    induction events with
    | nil => exact fun s hs => hs
    | cons ev events ih => exact fun s hs => ih _ (hs.step mtu ev)
  exact hfold _ sanLists_init

/-- After every run the lists are in order, and `findlun` finds what is in them and puts in what is not. -/
theorem sancheck_lists (mtu : ℕ → ℤ) (events : List SanEvent) : SanLists (sanRun mtu events) ∧
    ∀ e a, Found (sanRun mtu events) e a (findlun (sanRun mtu events) e a) :=
  have hlists := sanRun_lists mtu events
  ⟨hlists, fun e a => findlun_found (hlists.increasing e) a⟩

end Lists

section Paths

variable {s : Sancheck} {e e' : ℕ} {a : SanPkt} {x : ℕ × ℕ × Mac}

/-- The tag of the probe for `k` sectors. -/
def probeTag (id : BitVec 32) (k : ℕ) : BitVec 32 := (id <<< 16 &&& 0xffffff00) ||| (BitVec.ofNat 8 k).setWidth 32

/-- The number of sectors of the largest probe. -/
def probes (mtu : ℤ) : ℕ := ((mtu - 36) / 512).toNat

theorem mem_jprobe {mtu : ℤ} {id : BitVec 32} {p : UserPacket} :
    p ∈ jprobe mtu id ↔ ∃ k, 0 < k ∧ k ≤ probes mtu ∧ p = ⟨0, probeTag id k⟩ := by
  have hloop (n : ℕ) : p ∈ jprobeLoop id n ↔ ∃ k, 0 < k ∧ k ≤ n ∧ p = ⟨0, probeTag id k⟩ := by
    induction n with
    | zero =>
      refine iff_of_false List.not_mem_nil ?_
      rintro ⟨k, hpos, hle, -⟩
      omega
    | succ n ih =>
      rw [jprobeLoop, List.mem_cons, ih]
      constructor
      · rintro (rfl | ⟨k, hpos, hle, rfl⟩)
        · exact ⟨n + 1, n.succ_pos, le_rfl, rfl⟩
        · exact ⟨k, hpos, hle.trans n.le_succ, rfl⟩
      · rintro ⟨k, hpos, hle, rfl⟩
        rcases hle.eq_or_lt with rfl | hlt
        · exact .inl rfl
        · exact .inr ⟨k, hpos, Nat.le_of_lt_succ hlt, rfl⟩
  exact hloop _

private theorem probeTag_byte (id : BitVec 32) (k : ℕ) : (probeTag id k).toNat % 2^8 = k % 2^8 := by
  have hmask : (0xffffff00 : BitVec 32).toNat % 2^8 = 0 := by decide
  have hbyte : ((BitVec.ofNat 8 k).setWidth 32).toNat = k % 2^8 := by
    rw [BitVec.toNat_setWidth, BitVec.toNat_ofNat]
    omega
  rw [probeTag, BitVec.toNat_or, BitVec.toNat_and, Nat.or_mod_two_pow, Nat.and_mod_two_pow, hmask, hbyte, Nat.and_zero,
    Nat.zero_or, Nat.mod_mod]

/-- `jinput` takes `a` for an answer of the lun at `x`. -/
def Accepts (s : Sancheck) (e : ℕ) (a : SanPkt) (x : ℕ × ℕ × Mac) : Prop :=
  a.flags &&& 0x0c = 0x08 ∧ a.tag.getLsbD 31 = true ∧ a.cmd = 0 ∧ a.addr = x ∧
    ∃ l ∈ s.luns e, l.addr = x ∧ l.id = a.tag >>> 16

/-- Runs in which the lun at `x` on interface `e` answers nothing but its probes, with the sector counts answered. -/
inductive PathRun (mtu : ℕ → ℤ) (e : ℕ) (x : ℕ × ℕ × Mac) : List ℕ → Sancheck → Prop where
  | init : PathRun mtu e x [] Sancheck.init
  | other {ks : List ℕ} {s : Sancheck} {ev : SanEvent} (h : PathRun mtu e x ks s)
      (hev : ∀ a, ev = .input e a → ¬ Accepts s e a x) : PathRun mtu e x ks (sanStep mtu s ev)
  | answer {ks : List ℕ} {s : Sancheck} {a : SanPkt} {l : Lun} {k : ℕ} (h : PathRun mtu e x ks s)
      (ha : Accepts s e a x) (hl : l ∈ s.luns e) (hx : l.addr = x)
      (hk : 0 < k ∧ k ≤ probes (mtu e) ∧ a.tag = probeTag l.id k) : PathRun mtu e x (k :: ks) (sanStep mtu s (.input e a))

/-- The most sectors answered, as tags have it. -/
def best (ks : List ℕ) : ℕ := (ks.map (· % 2^8)).foldr max 0

theorem SanLists.lun_unique (h : SanLists s) {l l' : Lun} (hl : l ∈ s.luns e) (hl' : l' ∈ s.luns e) (hx : l.addr = l'.addr) :
    l = l' := (h.increasing e).eq_of_key hl hl' (congrArg rank hx)

private theorem mem_modLun (h : SanLists s) {i : ℕ} {l l' : Lun} {g : Lun → Lun} (hi : (s.luns e)[i]? = some l)
    (hl' : l' ∈ (s.modLun e i g).luns e') : l' ∈ s.luns e' ∧ (e' = e → l'.addr ≠ l.addr) ∨ e' = e ∧ l' = g l := by
  by_cases he : e' = e
  · subst he
    have hluns : (s.modLun e' i g).luns e' = (s.luns e').modify i g := Function.update_self ..
    rw [hluns] at hl'
    obtain ⟨j, hj⟩ := List.mem_iff_getElem?.mp hl'
    by_cases hij : i = j
    · subst hij
      rw [List.getElem?_modify_eq, hi] at hj
      exact .inr ⟨rfl, (Option.some.inj hj).symm⟩
    · rw [List.getElem?_modify_ne _ _ hij] at hj
      have hj' : (s.luns e')[j]? = some l' := hj
      refine .inl ⟨List.mem_of_getElem? hj', fun _ hx => ?_⟩
      have hnodup : (s.luns e').Nodup := (h.increasing e').imp fun hlt heq => by
        rw [heq] at hlt
        exact lt_irrefl _ hlt
      have hsame := h.lun_unique (List.mem_of_getElem? hj') (List.mem_of_getElem? hi) hx
      rw [hsame] at hj'
      exact hij ((List.getElem?_inj (List.getElem?_eq_some_iff.mp hi).1 hnodup).mp (hi.trans hj'.symm))
  · have hluns : (s.modLun e i g).luns e' = s.luns e' := Function.update_of_ne he ..
    rw [hluns] at hl'
    exact .inl ⟨hl', fun h => absurd h he⟩

private theorem mem_findlun (h : SanLists s) {l : Lun} (hl : l ∈ (findlun s e a).1.luns e') :
    l ∈ s.luns e' ∨ e' = e ∧ l = newLun s a ∧ ∀ l ∈ s.luns e, l.addr ≠ a.addr := by
  have hfound := findlun_found (h.increasing e) a
  generalize findlun s e a = r at hfound hl
  cases hfound with
  | old => exact .inl hl
  | ata => exact .inl hl
  | @new s' i hnone hcmd hi hluns hothers =>
    by_cases he : e' = e
    · subst he
      dsimp only at hl
      rw [hluns, List.mem_insertIdx hi] at hl
      rcases hl with rfl | hl
      · exact .inr ⟨rfl, rfl, hnone⟩
      · exact .inl hl
    · dsimp only at hl
      rw [hothers e' he] at hl
      exact .inl hl

private theorem findlun_get (h : SanLists s) {i : ℕ} (hi : (findlun s e a).2 = some i) :
    ∃ l, ((findlun s e a).1.luns e)[i]? = some l ∧ l.addr = a.addr := by
  have hfound := findlun_found (h.increasing e) a
  generalize findlun s e a = r at hfound hi
  cases hfound with
  | old hl haddr =>
    obtain rfl := Option.some.inj hi
    exact ⟨_, hl, haddr⟩
  | ata => exact absurd hi (by simp)
  | @new s' j hnone hcmd hj hluns =>
    obtain rfl := Option.some.inj hi
    refine ⟨newLun s a, ?_, rfl⟩
    dsimp only
    rw [hluns, List.getElem?_insertIdx_self, if_pos hj]

/-- What a packet does to the sector count of the lun at `x`: nothing, unless it is one of its answers or the lun is
new. -/
private theorem jinput_sect (h : SanLists s) (mtu : ℤ) {l' : Lun} (hl' : l' ∈ (jinput mtu s e' a).luns e)
    (hx : l'.addr = x) : (∃ l ∈ s.luns e, l.addr = x ∧ l'.maxsect = l.maxsect ∧ ¬(e' = e ∧ Accepts s e a x)) ∨
    ((∀ l ∈ s.luns e, l.addr ≠ x) ∧ l'.maxsect = 0) ∨
    (e' = e ∧ Accepts s e a x ∧ ∃ l ∈ s.luns e, l.addr = x ∧ l'.maxsect = max l.maxsect (a.tag.toNat % 2^8)) := by
  have hkeep (hl : l' ∈ s.luns e) (hno : ¬(e' = e ∧ Accepts s e a x)) :
      ∃ l ∈ s.luns e, l.addr = x ∧ l'.maxsect = l.maxsect ∧ ¬(e' = e ∧ Accepts s e a x) := ⟨l', hl, hx, rfl, hno⟩
  unfold jinput at hl'
  split at hl'
  · rename_i hflags
    exact .inl (hkeep hl' fun hacc => hflags hacc.2.1)
  · rename_i hflags
    rw [not_not] at hflags
    split at hl'
    · rename_i hbit
      refine .inl (hkeep hl' fun hacc => ?_)
      rw [hacc.2.2.1] at hbit
      exact absurd hbit (by simp)
    · rename_i hbit
      rw [Bool.not_eq_false] at hbit
      split at hl'
      · -- a config response changes no sector count
        rename_i hcmd
        have hno : ¬(e' = e ∧ Accepts s e a x) := by
          rintro ⟨-, -, -, h0, -⟩
          omega
        have hconfig {l : Lun} (hl : l ∈ (findlun s e' a).1.luns e) (hlx : l.addr = x) (hsect : l'.maxsect = l.maxsect) :
            (∃ l ∈ s.luns e, l.addr = x ∧ l'.maxsect = l.maxsect ∧ ¬(e' = e ∧ Accepts s e a x)) ∨
            ((∀ l ∈ s.luns e, l.addr ≠ x) ∧ l'.maxsect = 0) := by
          rcases mem_findlun h hl with hl | ⟨rfl, rfl, hnone⟩
          · exact .inl ⟨l, hl, hlx, hsect, hno⟩
          · refine .inr ⟨?_, hsect⟩
            rw [← hlx]
            exact hnone
        have hlists := h.findlun e' a
        have hget := fun i => findlun_get (e := e') (a := a) (i := i) h
        rcases hf : findlun s e' a with ⟨s', i⟩
        rw [hf] at hl' hconfig hlists hget
        refine or_assoc.mp (.inl ?_)
        cases i with
        | none => exact hconfig hl' hx rfl
        | some i =>
          dsimp only at hl'
          split at hl'
          · exact hconfig hl' hx rfl
          · obtain ⟨l, hi, -⟩ := hget i rfl
            rcases mem_modLun hlists hi hl' with ⟨hl, -⟩ | ⟨rfl, rfl⟩
            · exact hconfig hl hx rfl
            · exact hconfig (List.mem_of_getElem? hi) hx rfl
      · split at hl'
        · rename_i hata
          have hfound := findlun_found (h.increasing e') a
          generalize findlun s e' a = r at hfound hl'
          cases hfound with
          | @old i l hl haddr =>
            have hmem := List.mem_of_getElem? hl
            have hd : (s.luns e').getD i default = l := by rw [List.getD_eq_getElem?_getD, hl, Option.getD_some]
            dsimp only at hl'
            rw [hd] at hl'
            split at hl'
            · rename_i hid
              refine .inl (hkeep hl' ?_)
              rintro ⟨rfl, -, -, -, hax, l₂, hl₂, hx₂, hid₂⟩
              rw [h.lun_unique hmem hl₂ (by rw [haddr, hax, hx₂])] at hid
              exact hid hid₂
            · rename_i hid
              rw [not_not] at hid
              rcases mem_modLun h hl hl' with ⟨hkept, hne⟩ | ⟨rfl, rfl⟩
              · refine .inl (hkeep hkept ?_)
                rintro ⟨rfl, -, -, -, hax, -⟩
                exact hne rfl (by rw [hx, haddr, hax])
              · have hlx : l.addr = x := hx
                exact .inr (.inr ⟨rfl, ⟨hflags, hbit, hata, by rw [← haddr, hlx], l, hmem, hlx, hid⟩, l, hmem, hlx, rfl⟩)
          | ata hnone =>
            refine .inl (hkeep hl' ?_)
            rintro ⟨rfl, -, -, -, hax, l₂, hl₂, hx₂, -⟩
            exact hnone l₂ hl₂ (hx₂.trans hax.symm)
          | new _ hcmd => exact absurd hata hcmd
        · rename_i hcmd hata
          exact .inl (hkeep hl' fun hacc => hata hacc.2.2.2.1)

/-- Luns stay in their lists. -/
private theorem jinput_keeps (h : SanLists s) (mtu : ℤ) {l : Lun} (hl : l ∈ s.luns e) :
    ∃ l' ∈ (jinput mtu s e' a).luns e, l'.addr = l.addr := by
  have hfind : ∃ l' ∈ (findlun s e' a).1.luns e, l'.addr = l.addr := by
    have hfound := findlun_found (h.increasing e') a
    generalize findlun s e' a = r at hfound
    cases hfound with
    | old => exact ⟨l, hl, rfl⟩
    | ata => exact ⟨l, hl, rfl⟩
    | @new s' i hnone hcmd hi hluns hothers =>
      refine ⟨l, ?_, rfl⟩
      by_cases he : e = e'
      · subst he
        dsimp only
        rw [hluns, List.mem_insertIdx hi]
        exact .inr hl
      · dsimp only
        rw [hothers e he]
        exact hl
  have hmod (s : Sancheck) (i : ℕ) {g : Lun → Lun} (hg : ∀ l, (g l).addr = l.addr)
      (hs : ∃ l' ∈ s.luns e, l'.addr = l.addr) : ∃ l' ∈ (s.modLun e' i g).luns e, l'.addr = l.addr := by
    have hmap : ((s.modLun e' i g).luns e).map Lun.addr = (s.luns e).map Lun.addr := by
      by_cases he : e = e'
      · subst he
        have hluns : (s.modLun e i g).luns e = (s.luns e).modify i g := Function.update_self ..
        rw [hluns, Tables.map_modify_same _ _ _ _ hg]
      · have hluns : (s.modLun e' i g).luns e = s.luns e := Function.update_of_ne he ..
        rw [hluns]
    have hmem : l.addr ∈ (s.luns e).map Lun.addr := List.mem_map.mpr hs
    rw [← hmap] at hmem
    exact List.mem_map.mp hmem
  have hold : ∃ l' ∈ s.luns e, l'.addr = l.addr := ⟨l, hl, rfl⟩
  unfold jinput
  split
  · exact hold
  · split
    · exact hold
    · split
      · rcases hf : findlun s e' a with ⟨s', i⟩
        rw [hf] at hfind
        cases i with
        | none => exact hfind
        | some i =>
          dsimp only
          split
          · exact hfind
          · exact hmod s' i (g := fun l => { l with nsect := a.scnt, probed := true }) (fun _ => rfl) hfind
      · split
        · rcases hf : findlun s e' a with ⟨s', i⟩
          rw [hf] at hfind
          cases i with
          | none => exact hfind
          | some i =>
            dsimp only
            split
            · exact hfind
            · exact hmod s' i (fun _ => rfl) hfind
        · exact hold

variable {mtu : ℕ → ℤ} {ks : List ℕ}

theorem PathRun.lists (h : PathRun mtu e x ks s) : SanLists s := by
  induction h with
  | init => exact sanLists_init
  | other _ _ ih => exact ih.step mtu _
  | answer _ _ _ _ _ ih => exact ih.step mtu _

theorem PathRun.pos (h : PathRun mtu e x ks s) : ∀ k ∈ ks, 0 < k := by
  induction h with
  | init => exact fun k hk => absurd hk List.not_mem_nil
  | other _ _ ih => exact ih
  | answer _ _ _ _ hk ih =>
    intro k' hk'
    rcases List.mem_cons.mp hk' with rfl | hk'
    · exact hk.1
    · exact ih k' hk'

/-- The lun at `x` holds the most sectors answered. -/
theorem PathRun.sect (h : PathRun mtu e x ks s) :
    (∀ l ∈ s.luns e, l.addr = x → l.maxsect = best ks) ∧ (ks ≠ [] → ∃ l ∈ s.luns e, l.addr = x) := by
  induction h with
  | init => exact ⟨fun l hl => absurd hl List.not_mem_nil, fun hne => absurd rfl hne⟩
  | @other ks s ev hrun hev ih =>
    cases ev with
    | discover e' => exact ih
    | input e' a =>
      refine ⟨fun l' hl' hx => ?_, fun hne => ?_⟩
      · rcases jinput_sect hrun.lists (mtu e') hl' hx with ⟨l, hl, hlx, hsect, -⟩ | ⟨hnone, hsect⟩ | ⟨rfl, hacc, -⟩
        · rw [hsect]
          exact ih.1 l hl hlx
        · have hnil : ks = [] := by
            by_contra hne
            obtain ⟨l, hl, hlx⟩ := ih.2 hne
            exact hnone l hl hlx
          rw [hsect, hnil]
          rfl
        · exact absurd hacc (hev a rfl)
      · obtain ⟨l, hl, hlx⟩ := ih.2 hne
        obtain ⟨l', hl', hx'⟩ : ∃ l' ∈ (jinput (mtu e') s e' a).luns e, l'.addr = l.addr :=
          jinput_keeps hrun.lists (mtu e') hl
        exact ⟨l', hl', hx'.trans hlx⟩
  | @answer ks s a l k hrun hacc hl hx hk ih =>
    refine ⟨fun l' hl' hx' => ?_, fun _ => ?_⟩
    · rcases jinput_sect hrun.lists (mtu e) hl' hx' with ⟨-, -, -, -, hno⟩ | ⟨hnone, -⟩ | ⟨-, -, l₂, hl₂, hx₂, hsect⟩
      · exact absurd ⟨rfl, hacc⟩ hno
      · exact absurd hx (hnone l hl)
      · rw [hsect, ih.1 l₂ hl₂ hx₂, hk.2.2, probeTag_byte, max_comm]
        rfl
    · obtain ⟨l', hl', hx'⟩ : ∃ l' ∈ (jinput (mtu e) s e a).luns e, l'.addr = l.addr :=
        jinput_keeps hrun.lists (mtu e) hl
      exact ⟨l', hl', hx'.trans hx⟩

private theorem mem_warnings_path {maj min nsect b : ℕ} {most m : ℤ} {ea : Mac} :
    SanLine.path e ea b ∈ s.warnings maj min nsect most m e' ↔ e' = e ∧ ∃ l ∈ s.luns e, l.major = maj ∧ l.minor = min ∧
      l.ea = ea ∧ l.maxsect * 512 = b ∧ (l.maxsect : ℤ) < (m - 32).tdiv 512 := by
  have hother : SanLine.path e ea b ∉ (if (s.paths maj min e').isEmpty then []
      else (if m < nsect * 512 + 36 then [.notOptimal e' m] else []) ++ if m < most then [.different e' m most] else []) := by
    split
    · exact List.not_mem_nil
    · intro h
      rcases List.mem_append.mp h with h | h
      · split at h
        · exact absurd h (by simp)
        · exact absurd h List.not_mem_nil
      · split at h
        · exact absurd h (by simp)
        · exact absurd h List.not_mem_nil
  rw [Sancheck.warnings, List.mem_append, or_iff_left hother, List.mem_map]
  constructor
  · rintro ⟨l, hl, heq⟩
    obtain ⟨hpath, hlt⟩ := List.mem_filter.mp hl
    obtain ⟨hl, haddr⟩ := List.mem_filter.mp hpath
    rw [Bool.and_eq_true, decide_eq_true_eq, decide_eq_true_eq] at haddr
    obtain ⟨rfl, hea, hb⟩ := SanLine.path.inj heq
    exact ⟨rfl, l, hl, haddr.1, haddr.2, hea, hb, of_decide_eq_true hlt⟩
  · rintro ⟨rfl, l, hl, rfl, rfl, rfl, rfl, hlt⟩
    refine ⟨l, List.mem_filter.mpr ⟨List.mem_filter.mpr ⟨hl, ?_⟩, decide_eq_true hlt⟩, rfl⟩
    simp

private theorem mem_sancheck_path {neth maj min b : ℕ} {ea : Mac} : SanLine.path e ea b ∈ s.sancheck mtu neth maj min ↔
    e < neth ∧ ∃ l ∈ s.luns e, l.major = maj ∧ l.minor = min ∧ l.ea = ea ∧ l.maxsect * 512 = b ∧
      (l.maxsect : ℤ) < (mtu e - 32).tdiv 512 := by
  unfold Sancheck.sancheck
  extract_lets eths ls most nsect nea
  have hother : SanLine.path e ea b ∉
      SanLine.device maj min nea (nsect * 512) eths :: if nea ≠ eths.length then [.mismatched] else [] := by
    intro h
    rcases List.mem_cons.mp h with h | h
    · exact absurd h (by simp)
    · split at h
      · exact absurd h (by simp)
      · exact absurd h List.not_mem_nil
  rw [List.mem_append, or_iff_right hother, List.mem_flatMap]
  constructor
  · rintro ⟨e', he', hline⟩
    obtain ⟨rfl, hlun⟩ := mem_warnings_path.mp hline
    exact ⟨List.mem_range.mp he', hlun⟩
  · rintro ⟨he, hlun⟩
    exact ⟨e, List.mem_range.mpr he, mem_warnings_path.mpr ⟨rfl, hlun⟩⟩

/-- The check of a path raises no false alarm when its largest probe is answered, and raises one when it is not. -/
def PathSound (m : ℤ) : Prop :=
  ∀ (mtu : ℕ → ℤ) (e neth : ℕ) (x : ℕ × ℕ × Mac) (ks : List ℕ) (s : Sancheck) (l : Lun), mtu e = m → e < neth →
    PathRun mtu e x ks s → l ∈ s.luns e → l.addr = x →
      (probes m ∈ ks → ∀ b, SanLine.path e l.ea b ∉ s.sancheck mtu neth l.major l.minor) ∧
      (0 < probes m → (∀ k ∈ ks, k < probes m) →
        SanLine.path e l.ea (l.maxsect * 512) ∈ s.sancheck mtu neth l.major l.minor)

private theorem best_lt {n : ℕ} (hn : 0 < n) (h : ∀ k ∈ ks, k < n) : best ks < n := by
  induction ks with
  | nil => exact hn
  | cons k ks ih =>
    have hk : k % 2^8 < n := (Nat.mod_le k _).trans_lt (h k List.mem_cons_self)
    exact max_lt hk (ih fun k hk => h k (List.mem_cons_of_mem _ hk))

private theorem le_best {k : ℕ} (h : k ∈ ks) : k % 2^8 ≤ best ks := by
  induction ks with
  | nil => exact absurd h List.not_mem_nil
  | cons k' ks ih =>
    rcases List.mem_cons.mp h with rfl | h
    · exact le_max_left _ _
    · exact (ih h).trans (le_max_right _ _)

/-- A config response, and the answer to the probe for `k` sectors. -/
def pathCfg : SanPkt := ⟨0, 0x08, 1, 2, 1, userBit, 2⟩
def pathAnswer (k : ℕ) : SanPkt := ⟨0, 0x08, 1, 2, 0, probeTag 0x8000 k, 0⟩

/-- The lun of the config response, after it. -/
def pathLun : Lun := ⟨true, 0, 1, 2, 2, 0, 0x8000⟩

private theorem pathCfg_luns (mtu : ℕ → ℤ) : (sanStep mtu Sancheck.init (.input 0 pathCfg)).luns 0 = [pathLun] := rfl

private theorem pathTag (k : ℕ) : (probeTag 0x8000 k).getLsbD 31 = true ∧ 0x8000 = probeTag 0x8000 k >>> 16 := by
  have hall : ∀ b : BitVec 8, ((0x8000 : BitVec 32) <<< 16 &&& 0xffffff00 ||| b.setWidth 32).getLsbD 31 = true ∧
      0x8000 = ((0x8000 : BitVec 32) <<< 16 &&& 0xffffff00 ||| b.setWidth 32) >>> 16 := by decide +kernel
  exact hall (BitVec.ofNat 8 k)

private theorem pathRun_answer (mtu : ℕ → ℤ) {k : ℕ} (hk : 0 < k ∧ k ≤ probes (mtu 0)) :
    PathRun mtu 0 (1, 2, 0) [k] (sanStep mtu (sanStep mtu Sancheck.init (.input 0 pathCfg)) (.input 0 (pathAnswer k))) := by
  have hmem : pathLun ∈ (sanStep mtu Sancheck.init (.input 0 pathCfg)).luns 0 := by
    rw [pathCfg_luns]
    exact List.mem_singleton_self _
  have hcfg : PathRun mtu 0 (1, 2, 0) [] (sanStep mtu Sancheck.init (.input 0 pathCfg)) := by
    refine .other .init fun a ha hacc => ?_
    obtain rfl := (SanEvent.input.inj ha).2
    exact absurd hacc.2.2.1 (by decide)
  have hflags : (0x08 : Byte) &&& 0x0c = 0x08 := by decide
  obtain ⟨hbit, hid⟩ := pathTag k
  refine .answer (l := pathLun) hcfg ⟨hflags, hbit, rfl, rfl, pathLun, hmem, rfl, hid⟩ hmem rfl ⟨hk.1, hk.2, rfl⟩

/-- The check is right for MTUs that allow no probe at all, and for those below 131108 that do not leave 32 to 35 bytes
behind the last whole sector. -/
theorem path_check_iff {m : ℤ} (hm : 36 ≤ m) :
    PathSound m ↔ m < 548 ∨ (m % 512 < 32 ∨ 36 ≤ m % 512) ∧ m < 131108 := by
  have hdiv : (m - 32).tdiv 512 = (m - 32) / 512 := Int.tdiv_eq_ediv_of_nonneg (by omega)
  have hprobes : (probes m : ℤ) = (m - 36) / 512 := Int.toNat_of_nonneg (by omega)
  constructor
  · intro h
    by_contra hno
    have hpos : 0 < probes m := by omega
    have hrun := pathRun_answer (fun _ => m) ⟨hpos, le_rfl⟩
    obtain ⟨l, hl, hx⟩ := hrun.sect.2 (by simp)
    have hsect : l.maxsect = probes m % 2^8 := by
      rw [hrun.sect.1 l hl hx]
      exact max_eq_left (Nat.zero_le _)
    refine (h (fun _ => m) 0 1 _ _ _ l rfl one_pos hrun hl hx).1 (List.mem_singleton_self _) _ (mem_sancheck_path.mpr
      ⟨one_pos, l, hl, rfl, rfl, rfl, rfl, ?_⟩)
    rw [hdiv, hsect]
    omega
  · rintro hcond mtu e neth x ks s l rfl he hrun hl hx
    have hsect := hrun.sect.1 l hl hx
    refine ⟨fun hin b hline => ?_, fun hpos hsmall => ?_⟩
    · obtain ⟨-, l', hl', hmaj, hmin, hea, -, hlt⟩ := mem_sancheck_path.mp hline
      have hsame : l' = l := hrun.lists.lun_unique hl' hl (by rw [Lun.addr, Lun.addr, hmaj, hmin, hea])
      have hle := le_best hin
      have hpos := hrun.pos _ hin
      rw [hsame, hsect, hdiv] at hlt
      omega
    · have hlt := best_lt hpos hsmall
      refine mem_sancheck_path.mpr ⟨he, l, hl, rfl, rfl, rfl, rfl, ?_⟩
      rw [hsect, hdiv]
      omega

/-- An MTU of 1500 passes the check. -/
theorem path_check_sample : (36 : ℤ) ≤ 1500 ∧ PathSound 1500 := by
  have hm : (36 : ℤ) ≤ 1500 := by norm_num
  exact ⟨hm, (path_check_iff hm).mpr (by norm_num)⟩

/-- With an MTU of 1568 all of its two probes fit, and there is room for 3 sectors less 4 bytes. -/
theorem path_check_alarm : (36 : ℤ) ≤ 1568 ∧ ¬ PathSound 1568 := by
  refine ⟨by norm_num, fun h => ?_⟩
  have hrun := pathRun_answer (fun _ => 1568) (k := 2) (by decide)
  obtain ⟨l, hl, hx⟩ := hrun.sect.2 (by simp)
  have hsect : l.maxsect = 2 := hrun.sect.1 l hl hx
  refine (h (fun _ => 1568) 0 1 _ _ _ l rfl one_pos hrun hl hx).1 (by decide) _ (mem_sancheck_path.mpr
    ⟨one_pos, l, hl, rfl, rfl, rfl, rfl, ?_⟩)
  rw [hsect]
  decide

end Paths

end AoeDriver
