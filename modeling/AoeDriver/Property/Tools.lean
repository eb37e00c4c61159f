import AoeDriver.Model.Tools
import AoeDriver.Property.Net

/-!
# Tags of the kernel and of userland

Bit 31 of a tag tells the two apart.
-/

namespace AoeDriver

private theorem newtag_low (d : Aoedev) : (newtag d).2.testBit 31 = false := by
  have hj : d.clock.jiffies &&& 0xffff < 2^31 := (Nat.and_le_right).trans_lt (by decide)
  have hl : ((d.lasttag + 1) % 2^16 &&& 0x7fff) <<< 16 < 2^31 := by
    have hand : (d.lasttag + 1) % 2^16 &&& 0x7fff ≤ 0x7fff := Nat.and_le_right
    rw [Nat.shiftLeft_eq]
    omega
  exact Nat.testBit_lt_two_pow (Nat.or_lt_two_pow hj hl)

/-- A tag that the driver does not use. -/
def UserPacket.High (p : UserPacket) : Prop := p.tag.getLsbD 31 = true

theorem UserPacket.high_iff (p : UserPacket) : p.High ↔ 2^31 ≤ p.tag.toNat := by
  rw [UserPacket.High, ← BitVec.msb_eq_getLsbD_last]
  exact BitVec.msb_eq_true_iff_two_mul_ge.trans (by omega)

private theorem aoecfg_high {usec : Option ℕ} {p : UserPacket} (hp : p ∈ aoecfg usec) : p.High := by
  cases usec with
  | none => exact absurd hp (List.not_mem_nil)
  | some n =>
    obtain rfl := List.mem_singleton.mp hp
    simp [UserPacket.High, userBit]

/-- All luns have numbers with bit 15, which `jprobe` shifts to bit 31, and all packets sent so far have bit 31. -/
structure Sancheck.High (s : Sancheck) : Prop where
  luns : ∀ e, ∀ l ∈ s.luns e, l.id.getLsbD 15 = true
  sent : ∀ p ∈ s.sent, p.High

private theorem jprobeLoop_high {id : BitVec 32} (hid : id.getLsbD 15 = true) (k : ℕ) :
    ∀ p ∈ jprobeLoop id k, p.High := by
  induction k with
  | zero => exact fun p hp => absurd hp (List.not_mem_nil)
  | succ k ih =>
    intro p hp
    rcases List.mem_cons.mp hp with rfl | hp
    · simp [UserPacket.High, hid]
    · exact ih p hp

private theorem findlunLoop_lt (a : SanPkt) (luns : List Lun) (h : (findlunLoop a luns).2 = true) :
    (findlunLoop a luns).1 < luns.length := by
  induction luns with
  | nil => simp [findlunLoop] at h
  | cons p rest ih =>
    unfold findlunLoop at h ⊢
    cases ho : lunOrder a p with
    | lt =>
      simp only [ho] at h ⊢
      exact Nat.succ_lt_succ (ih h)
    | gt => simp [ho] at h
    | eq => simp

private theorem findlunLoop_le (a : SanPkt) (luns : List Lun) : (findlunLoop a luns).1 ≤ luns.length := by
  induction luns with
  | nil => simp [findlunLoop]
  | cons p rest ih =>
    unfold findlunLoop
    cases ho : lunOrder a p with
    | lt => exact Nat.succ_le_succ ih
    | gt => exact Nat.zero_le _
    | eq => exact Nat.zero_le _

variable {s : Sancheck} {e : ℕ} {a : SanPkt}

private theorem mem_update_luns {f : ℕ → List Lun} {e e' : ℕ} {ls : List Lun} {P : Lun → Prop} (hf : ∀ l ∈ f e', P l)
    (hls : ∀ l ∈ ls, P l) : ∀ l ∈ Function.update f e ls e', P l := by
  by_cases he : e' = e
  · subst he
    rw [Function.update_self]
    exact hls
  · rw [Function.update_of_ne he]
    exact hf

/-- The lun that `findlun` returns is in the list, with a number that has bit 15. -/
private theorem findlun_high (h : s.High) : (findlun s e a).1.High ∧ ∀ i, (findlun s e a).2 = some i →
    (((findlun s e a).1.luns e).getD i default).id.getLsbD 15 = true := by
  have hget {ls : List Lun} {i : ℕ} (hls : ∀ l ∈ ls, l.id.getLsbD 15 = true) (hi : i < ls.length) :
      (ls.getD i default).id.getLsbD 15 = true := by
    rw [List.getD_eq_getElem _ _ hi]
    exact hls _ (List.getElem_mem hi)
  unfold findlun
  dsimp only
  split
  · rename_i hfound
    refine ⟨h, fun i hi => ?_⟩
    obtain rfl := Option.some.inj hi
    exact hget (h.luns e) (findlunLoop_lt a _ hfound)
  · split
    · exact ⟨h, fun i hi => absurd hi (by simp)⟩
    · have hnew : ∀ l ∈ (s.luns e).insertIdx (findlunLoop a (s.luns e)).1
          ⟨false, a.src, a.major, a.minor, 0, 0, 0x8000 ||| s.id⟩, l.id.getLsbD 15 = true := by
        intro l hl
        rcases List.eq_or_mem_of_mem_insertIdx hl with rfl | hl
        · simp
        · exact h.luns e l hl
      refine ⟨⟨fun e' => mem_update_luns (h.luns e') hnew, h.sent⟩, fun i hi => ?_⟩
      obtain rfl := Option.some.inj hi
      simp only [Function.update_self]
      apply hget hnew
      rw [List.length_insertIdx_of_le_length (findlunLoop_le a _)]
      exact Nat.lt_succ_of_le (findlunLoop_le a _)

theorem Sancheck.High.modLun (h : s.High) (e i : ℕ) {g : Lun → Lun} (hg : ∀ l, (g l).id = l.id) :
    (s.modLun e i g).High := by
  refine ⟨fun e' => mem_update_luns (h.luns e') fun l hl => ?_, h.sent⟩
  obtain ⟨j, hj, rfl⟩ := List.mem_iff_getElem.mp hl
  rw [List.length_modify] at hj
  rw [List.getElem_modify]
  split
  · rw [hg]
    exact h.luns e _ (List.getElem_mem hj)
  · exact h.luns e _ (List.getElem_mem hj)

private theorem jinput_high (h : s.High) (mtu : ℤ) : (jinput mtu s e a).High := by
  obtain ⟨hfind, hid⟩ := findlun_high (e := e) (a := a) h
  unfold jinput
  split
  · exact h
  · split
    · exact h
    · split
      · rcases hf : findlun s e a with ⟨s', i⟩
        rw [hf] at hfind hid
        cases i with
        | none => exact hfind
        | some i =>
          dsimp only
          split
          · exact hfind
          · have hluns := (hfind.modLun e i (g := fun l => { l with nsect := a.scnt, probed := true }) fun _ => rfl).luns
            refine ⟨hluns, fun p hp => ?_⟩
            rcases List.mem_append.mp hp with hp | hp
            · exact hfind.sent p hp
            · exact jprobeLoop_high (hid i rfl) _ p hp
      · split
        · rcases hf : findlun s e a with ⟨s', i⟩
          rw [hf] at hfind
          cases i with
          | none => exact hfind
          | some i =>
            dsimp only
            split
            · exact hfind
            · exact hfind.modLun e i fun _ => rfl
        · exact h

private theorem sanStep_high (mtu : ℕ → ℤ) (h : s.High) (ev : SanEvent) : (sanStep mtu s ev).High := by
  cases ev with
  | discover e =>
    refine ⟨h.luns, fun p hp => ?_⟩
    rcases List.mem_append.mp hp with hp | hp
    · exact h.sent p hp
    · obtain rfl := List.mem_singleton.mp hp
      simp [UserPacket.High, userBit]
  | input e a => exact jinput_high h (mtu e)

private theorem sancheck_high (mtu : ℕ → ℤ) (events : List SanEvent) : ∀ p ∈ sancheck mtu events, p.High := by
  have hfold : ∀ s : Sancheck, s.High → (events.foldl (sanStep mtu) s).High := by
    induction events with
    | nil => exact fun s hs => hs
    | cons ev events ih => exact fun s hs => ih _ (sanStep_high mtu hs ev)
  refine (hfold _ ⟨fun e l hl => absurd hl (List.not_mem_nil), ?_⟩).sent
  exact fun p hp => absurd hp (List.not_mem_nil)

private theorem toNat_userBit (t : BitVec 32) : (t ||| userBit).toNat = 2^31 + t.toNat % 2^31 := by
  have hmod : t.toNat % 2^31 < 2^31 := Nat.mod_lt _ (by decide)
  have hu : userBit.toNat = 2^31 := rfl
  have hsum := Nat.two_pow_add_eq_or_of_lt hmod 1
  rw [Nat.mul_one] at hsum
  rw [hsum, BitVec.toNat_or, hu]
  apply Nat.eq_of_testBit_eq
  intro i
  rw [Nat.testBit_or, Nat.testBit_or, Nat.testBit_mod_two_pow]
  by_cases hi : i < 31
  · rw [decide_eq_true hi, Bool.true_and, Bool.or_comm]
  · by_cases h31 : i = 31
    · subst h31
      rw [Nat.testBit_two_pow_self, Bool.or_true, Bool.true_or]
    · have hgt : 2^32 ≤ 2^i := Nat.pow_le_pow_right (by decide) (by omega)
      rw [Nat.testBit_lt_two_pow (t.isLt.trans_le hgt), decide_eq_false hi, Bool.false_or, Bool.false_and, Bool.or_false]

/-- The identify command is sent with the largest tag, or the SMART command with one of the two largest. -/
def PingRun.Wraps (r : PingRun) : Prop :=
  ∃ o, initOpts r.opts r.operands = some o ∧ r.dials = true ∧ r.answers = true ∧
    ((o.ataIdent = true ∨ o.smart.isSome = true) ∧ o.tag.toNat % 2^31 = 2^31 - 1 ∨
      (∃ nam, o.smart = some nam ∧ r.ident = some true ∧ smartSends nam r.stdin = true) ∧
        o.tag.toNat % 2^31 = 2^31 - 2)

private theorem high_add (cmd : ℕ) (t : BitVec 32) (n : ℕ) (hn : n ≤ 2) :
    UserPacket.High ⟨cmd, (t ||| userBit) + .ofNat 32 n⟩ ↔ t.toNat % 2^31 + n < 2^31 := by
  have hmod : t.toNat % 2^31 < 2^31 := Nat.mod_lt _ (by decide)
  rw [UserPacket.high_iff, BitVec.toNat_add, toNat_userBit, BitVec.toNat_ofNat]
  omega

private theorem pingSmart_sends {r : PingRun} {o : Progopts}
    (h : ∃ nam, o.smart = some nam ∧ r.ident = some true ∧ smartSends nam r.stdin = true) (tag : BitVec 32) :
    pingSmart r o tag = [⟨0, tag⟩] := by
  obtain ⟨nam, hnam, hid, hs⟩ := h
  simp [pingSmart, hnam, hid, hs]

private theorem pingSmart_silent {r : PingRun} {o : Progopts}
    (h : ¬∃ nam, o.smart = some nam ∧ r.ident = some true ∧ smartSends nam r.stdin = true) (tag : BitVec 32) :
    pingSmart r o tag = [] := by
  unfold pingSmart
  split
  · rename_i nam hid hnam
    exact if_neg fun hs => h ⟨nam, hnam, hid, hs⟩
  · rfl

private theorem pingMain_high (r : PingRun) (o : Progopts) : (∀ p ∈ pingMain r o, p.High) ↔
    ¬(r.dials = true ∧ r.answers = true ∧
      ((o.ataIdent = true ∨ o.smart.isSome = true) ∧ o.tag.toNat % 2^31 = 2^31 - 1 ∨
        (∃ nam, o.smart = some nam ∧ r.ident = some true ∧ smartSends nam r.stdin = true) ∧
          o.tag.toNat % 2^31 = 2^31 - 2)) := by
  have hmod : o.tag.toNat % 2^31 < 2^31 := Nat.mod_lt _ (by decide)
  have h0 : UserPacket.High ⟨1, o.tag ||| userBit⟩ := by simp [UserPacket.High, userBit]
  have h1 : UserPacket.High ⟨0, (o.tag ||| userBit) + 1⟩ ↔ o.tag.toNat % 2^31 + 1 < 2^31 :=
    high_add 0 o.tag 1 (by decide)
  have h2 : UserPacket.High ⟨0, (o.tag ||| userBit) + 1 + 1⟩ ↔ o.tag.toNat % 2^31 + 2 < 2^31 := by
    rw [← high_add 0 o.tag 2 (by decide), BitVec.add_assoc]
    rfl
  unfold pingMain
  dsimp only
  cases hd : r.dials with
  | false => simp
  | true =>
    cases ha : r.answers with
    | false => simpa using h0
    | true =>
      by_cases hi : o.ataIdent = false ∧ o.smart = none
      · simp [hi, h0]
      · have hident : o.ataIdent = true ∨ o.smart.isSome = true := by
          cases hid : o.ataIdent with
          | true => exact .inl rfl
          | false =>
            cases hs : o.smart with
            | none => exact absurd ⟨hid, hs⟩ hi
            | some nam => exact .inr rfl
        have hsend : (!o.ataIdent && o.smart.isNone) = false := by
          rcases hident with hid | hs
          · simp [hid]
          · simp [Option.isNone_eq_false_iff.mpr hs]
        by_cases hsmart : ∃ nam, o.smart = some nam ∧ r.ident = some true ∧ smartSends nam r.stdin = true
        · have hlast := pingSmart_sends hsmart ((o.tag ||| userBit) + 1 + 1)
          simp only [Bool.not_true, Bool.false_eq_true, if_false, hsend, hlast, List.forall_mem_cons, List.not_mem_nil,
            false_implies, implies_true, h0, h1, h2, hident, hsmart, true_and, and_true]
          omega
        · have hlast := pingSmart_silent hsmart ((o.tag ||| userBit) + 1 + 1)
          simp only [Bool.not_true, Bool.false_eq_true, if_false, hsend, hlast, List.forall_mem_cons, List.not_mem_nil,
            false_implies, implies_true, h0, h1, hident, hsmart, true_and, and_true, false_and, or_false]
          omega

private theorem aoeping_high_iff (r : PingRun) : (∀ p ∈ aoeping r, p.High) ↔ ¬r.Wraps := by
  unfold aoeping PingRun.Wraps
  cases hopts : initOpts r.opts r.operands with
  | none => simp
  | some o =>
    dsimp only
    rw [pingMain_high]
    simp

/-- The tools run on one host. -/
structure UserRun where
  ping : PingRun
  usec : Option ℕ
  mtu : ℕ → ℤ
  events : List SanEvent

def UserRun.packets (r : UserRun) : List UserPacket := aoeping r.ping ++ aoecfg r.usec ++ sancheck r.mtu r.events

/-- The driver's tags have bit 31 clear and the tools' have it set, so a response to a tool is dropped. -/
structure TagsApart (d : Aoedev) (r : UserRun) : Prop where
  kernel : (newtag d).2.testBit 31 = false
  user : ∀ p ∈ r.packets, p.tag.getLsbD 31 = true
  dropped : ∀ p ∈ r.packets, ∀ (q : Packet) (env : RcvEnv), q.be 20 4 = p.tag.toNat → (aoenetRcv q env).val = .exit

private theorem aoenetRcv_user {q : Packet} {env : RcvEnv} (h : (q.be 20 4).testBit 31 = true) :
    (aoenetRcv q env).val = .exit := by
  unfold aoenetRcv
  simp only [val_ite, val_bind, val_read, val_pure, h, or_true, if_true, ite_self]

/-- The tag spaces are apart as long as `aoeping` does not count past the end of its own. -/
theorem tags_apart_iff (d : Aoedev) (r : UserRun) : TagsApart d r ↔ ¬r.ping.Wraps := by
  rw [← aoeping_high_iff]
  constructor
  · intro h p hp
    exact h.user p (List.mem_append_left _ (List.mem_append_left _ hp))
  · intro hping
    have huser : ∀ p ∈ r.packets, p.High := by
      intro p hp
      rcases List.mem_append.mp hp with hp | hp
      · rcases List.mem_append.mp hp with hp | hp
        · exact hping p hp
        · exact aoecfg_high hp
      · exact sancheck_high r.mtu r.events p hp
    refine ⟨newtag_low d, huser, fun p hp q env hq => aoenetRcv_user ?_⟩
    rw [hq]
    exact huser p hp

/-- `aoeping -i -t 2147483647` and three operands. -/
def lastTag : UserRun :=
  ⟨⟨[.ident, .tag "2147483647".toList], 3, true, true, none, false⟩, none, fun _ => 1500, []⟩

/-- Its second command has tag 0. -/
theorem tags_meet : (⟨0, 0⟩ : UserPacket) ∈ lastTag.packets ∧ ¬TagsApart sampleStart lastTag := by
  have hmem : (⟨0, 0⟩ : UserPacket) ∈ lastTag.packets := by decide
  exact ⟨hmem, fun h => absurd (h.user _ hmem) (by decide)⟩

end AoeDriver
