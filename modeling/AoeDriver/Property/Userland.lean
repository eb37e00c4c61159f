import AoeDriver.Model.Userland
import Mathlib.Data.List.Find
import Mathlib.Tactic.Push

/-!
# The userland tools and the network

The loops that wait for a response look at the type, the addresses and the tag of a packet, and at nothing else. The SMART
command is found by a part of its name, and its flag is put into the wrong header. `aoecfg` sends more bytes than its buffer
has.
-/

namespace AoeDriver

section Responses

variable {p : Packet} {pkts : List Packet}

/-- A request as it is sent. -/
structure Query where
  maj : ℕ
  min : ℕ
  cmd : ℕ
  tag : ℕ

/-- A response to the request; with `wild`, 0xffff and 0xff stand for any shelf and slot. -/
structure Query.Genuine (q : Query) (wild : Bool) (p : Packet) : Prop where
  resp : p.flags &&& Resp ≠ 0
  cmd : p.cmd = q.cmd
  tag : p.tag = q.tag
  maj : p.maj = q.maj ∨ wild = true ∧ q.maj = 0xffff
  min : p.min = q.min ∨ wild = true ∧ q.min = 0xff

/-- A packet that answers a command of this number. -/
def Answers (cmd : ℕ) (p : Packet) : Prop := p.flags &&& Resp ≠ 0 ∧ p.cmd = cmd

/-- The config query of `find_blade`. -/
def bladeQuery (shelf slot : ℤ) (tag : ℕ) : Query := ⟨(shelf % 2^16).toNat, (slot % 2^8).toNat, 1, tag⟩

/-- An ATA command of `aoeping`, for the device that `c` came from. -/
def ataQuery (c : Packet) (tag : ℕ) : Query := ⟨c.maj, c.min, 0, tag⟩

def cfgQuery (shelf slot tag : ℕ) : Query := ⟨shelf, slot, 1, tag⟩

/-- The packet is long enough and has the type, the shelf, the slot and the tag. -/
def carries (shelf slot : ℤ) (tag : ℕ) (p : Packet) : Bool :=
  60 ≤ p.len && p.type = AOE_ETH_PROTO && (p.maj : ℤ) = shelf && (p.min : ℤ) = slot && p.tag = tag

private theorem carries_iff {shelf slot : ℤ} {tag : ℕ} : carries shelf slot tag p = true ↔
    60 ≤ p.len ∧ p.type = AOE_ETH_PROTO ∧ (p.maj : ℤ) = shelf ∧ (p.min : ℤ) = slot ∧ p.tag = tag := by
  simp [carries, and_assoc]

private theorem findBladeLoop_eq (shelf slot : ℤ) (tag : ℕ) (pkts : List Packet) :
    (findBladeLoop shelf slot tag pkts).map Prod.fst = pkts.find? (carries shelf slot tag) := by
  induction pkts with
  | nil => rfl
  | cons p pkts ih =>
    rw [findBladeLoop, List.find?_cons]
    split
    · rename_i hshort
      have hno : carries shelf slot tag p = false := by simp [carries, hshort]
      rw [hno]
      exact ih
    · rename_i hlong
      split
      · rename_i hother
        have hno : carries shelf slot tag p = false := by
          rw [← Bool.not_eq_true, carries_iff]
          rintro ⟨-, htype, hmaj, hmin, htag⟩
          simp [htype, hmaj, hmin, htag] at hother
        rw [hno]
        exact ih
      · rename_i hsame
        push Not at hsame
        have hyes : carries shelf slot tag p = true := carries_iff.mpr ⟨not_lt.mp hlong, hsame⟩
        rw [hyes]
        rfl

private theorem aoePktRead_eq (c : Packet) (tag : ℕ) (pkts : List Packet) :
    aoePktRead c tag pkts = findBladeLoop c.maj c.min tag pkts := by
  induction pkts with
  | nil => rfl
  | cons p pkts ih =>
    rw [aoePktRead, findBladeLoop, ih]
    simp only [ne_eq, Nat.cast_inj]

private theorem cfgqueryTakes_iff {shelf slot tag : ℕ} : cfgqueryTakes shelf slot tag p = true ↔
    60 ≤ p.len ∧ p.type = AOE_ETH_PROTO ∧ p.maj ≠ 0xffff ∧ p.min ≠ 0xff ∧ (shelf = 0xffff ∨ p.maj = shelf) ∧
      (slot = 0xff ∨ p.min = slot) ∧ p.tag = tag := by
  unfold cfgqueryTakes
  split_ifs <;> grind

/-- The packets that are given to `resp`: all that pass, or the first where the request is for one device. -/
private theorem cfgqueryLoop_taken (shelf slot tag : ℕ) (pkts : List Packet) :
    ((cfgqueryLoop shelf slot tag pkts).filter Prod.snd).map Prod.fst =
      if shelf ≠ 0xffff ∧ slot ≠ 0xff then (pkts.find? (cfgqueryTakes shelf slot tag)).toList
      else pkts.filter (cfgqueryTakes shelf slot tag) := by
  induction pkts with
  | nil => simp [cfgqueryLoop]
  | cons p pkts ih =>
    rw [cfgqueryLoop]
    cases ht : cfgqueryTakes shelf slot tag p with
    | false =>
      have hfind : (p :: pkts).find? (cfgqueryTakes shelf slot tag) = pkts.find? (cfgqueryTakes shelf slot tag) := by
        rw [List.find?_cons, ht]
      have hfilter : (p :: pkts).filter (cfgqueryTakes shelf slot tag) = pkts.filter (cfgqueryTakes shelf slot tag) :=
        List.filter_cons_of_neg (by simp [ht])
      rw [hfind, hfilter, ← ih]
      rfl
    | true =>
      rw [if_pos rfl]
      split
      · rw [List.find?_cons, ht]
        rfl
      · rename_i hone
        rw [if_neg hone] at ih
        rw [List.filter_cons_of_pos ht, ← ih]
        rfl

theorem Packet.be_lt (p : Packet) (off size : ℕ) : p.be off size < 2^(8 * size) := by
  have hfold (l : List ℕ) (n m : ℕ) (hn : n < 2^(8 * m)) :
      l.foldl (fun n i => 2^8 * n + (p.mem (off + i)).toNat) n < 2^(8 * (m + l.length)) := by
    induction l generalizing n m with
    | nil => exact hn
    | cons i l ih =>
      have hbyte := (p.mem (off + i)).isLt
      have hpow : 2^(8 * (m + 1)) = 2^8 * 2^(8 * m) := by rw [Nat.mul_add, Nat.mul_one, Nat.pow_add, Nat.mul_comm]
      have hnext := ih (2^8 * n + (p.mem (off + i)).toNat) (m + 1) (by omega)
      rw [List.length_cons, ← Nat.add_assoc, Nat.add_right_comm]
      exact hnext
  have hlt := hfold (List.range size) 0 0 one_pos
  rw [List.length_range, Nat.zero_add] at hlt
  exact hlt

private theorem first_genuine_iff {shelf slot : ℤ} {q : Query} (hmaj : ∀ p : Packet, (p.maj : ℤ) = shelf → p.maj = q.maj)
    (hmin : ∀ p : Packet, (p.min : ℤ) = slot → p.min = q.min) (pkts : List Packet) :
    (∀ p rest, findBladeLoop shelf slot q.tag pkts = some (p, rest) → q.Genuine false p) ↔
      ∀ p, pkts.find? (carries shelf slot q.tag) = some p → Answers q.cmd p := by
  rw [← findBladeLoop_eq]
  constructor
  · intro h p hp
    obtain ⟨⟨p', rest⟩, hloop, rfl⟩ := Option.map_eq_some_iff.mp hp
    have hg := h p' rest hloop
    exact ⟨hg.resp, hg.cmd⟩
  · intro h p rest hloop
    have hfst : (findBladeLoop shelf slot q.tag pkts).map Prod.fst = some p := by rw [hloop, Option.map_some]
    obtain ⟨hresp, hcmd⟩ := h p hfst
    rw [findBladeLoop_eq] at hfst
    obtain ⟨-, -, hma, hmi, htag⟩ := carries_iff.mp (List.find?_some hfst)
    exact ⟨hresp, hcmd, htag, .inl (hmaj p hma), .inl (hmin p hmi)⟩

/-- What the loops take for a response is one, just where no other packet with the addresses and the tag of the request is
read; `aoecfg` reads on where its request is for more than one device. -/
theorem responses_genuine_iff (shelf slot : ℤ) (c : Packet) (shelf' slot' tag : ℕ) (pkts : List Packet) :
    ((∀ p rest, findBladeLoop shelf slot tag pkts = some (p, rest) → (bladeQuery shelf slot tag).Genuine false p) ↔
      ∀ p, pkts.find? (carries shelf slot tag) = some p → Answers 1 p) ∧
    ((∀ p rest, aoePktRead c tag pkts = some (p, rest) → (ataQuery c tag).Genuine false p) ↔
      ∀ p, pkts.find? (carries c.maj c.min tag) = some p → Answers 0 p) ∧
    ((∀ p, (p, true) ∈ cfgqueryLoop shelf' slot' tag pkts → (cfgQuery shelf' slot' tag).Genuine true p) ↔
      ∀ p ∈ if shelf' ≠ 0xffff ∧ slot' ≠ 0xff then (pkts.find? (cfgqueryTakes shelf' slot' tag)).toList
        else pkts.filter (cfgqueryTakes shelf' slot' tag), Answers 1 p) := by
  refine ⟨?_, ?_, ?_⟩
  · refine first_genuine_iff (q := bladeQuery shelf slot tag) (fun p hp => ?_) (fun p hp => ?_) pkts
    · have hlt : p.maj < 2^16 := p.be_lt 16 2
      change p.maj = (shelf % 2^16).toNat
      omega
    · have hlt : p.min < 2^8 := p.be_lt 18 1
      change p.min = (slot % 2^8).toNat
      omega
  · rw [aoePktRead_eq]
    exact first_genuine_iff (q := ataQuery c tag) (fun p hp => Int.natCast_inj.mp hp) (fun p hp => Int.natCast_inj.mp hp) pkts
  · rw [← cfgqueryLoop_taken]
    have htaken (p : Packet) : p ∈ ((cfgqueryLoop shelf' slot' tag pkts).filter Prod.snd).map Prod.fst ↔
        (p, true) ∈ cfgqueryLoop shelf' slot' tag pkts := by
      simp [List.mem_filter]
    have hpass {p : Packet} (hp : (p, true) ∈ cfgqueryLoop shelf' slot' tag pkts) :
        cfgqueryTakes shelf' slot' tag p = true := by
      have hmem := (htaken p).mpr hp
      rw [cfgqueryLoop_taken] at hmem
      split at hmem
      · exact List.find?_some (Option.mem_toList.mp hmem)
      · exact (List.mem_filter.mp hmem).2
    simp only [htaken]
    constructor
    · intro h p hp
      exact ⟨(h p hp).resp, (h p hp).cmd⟩
    · intro h p hp
      obtain ⟨-, -, -, -, hmaj, hmin, htag⟩ := cfgqueryTakes_iff.mp (hpass hp)
      obtain ⟨hresp, hcmd⟩ := h p hp
      exact ⟨hresp, hcmd, htag, hmaj.symm.imp id fun h => ⟨rfl, h⟩, hmin.symm.imp id fun h => ⟨rfl, h⟩⟩

/-- Somebody else's config query to shelf 1, slot 2, with the tag that `aoeping` starts from. -/
def straySend : Packet where
  len := 60
  mem i := if i = 12 then 0x88 else if i = 13 then 0xa2 else if i = 14 then 0x10 else if i = 17 then 1
    else if i = 18 then 2 else if i = 19 then 1 else if i = 20 then 0x80 else 0

/-- All three loops take it for a response. -/
theorem stray_query_taken : straySend.flags &&& Resp = 0 ∧
    ¬ (∀ p rest, findBladeLoop 1 2 0x80000000 [straySend] = some (p, rest) → (bladeQuery 1 2 0x80000000).Genuine false p) ∧
    ¬ (∀ p rest, aoePktRead straySend 0x80000000 [straySend] = some (p, rest) →
      (ataQuery straySend 0x80000000).Genuine false p) ∧
    ¬ (∀ p, (p, true) ∈ cfgqueryLoop 1 2 0x80000000 [straySend] → (cfgQuery 1 2 0x80000000).Genuine true p) := by
  have hflags : straySend.flags &&& Resp = 0 := by decide
  have hcarries : carries 1 2 0x80000000 straySend = true := by decide
  have htakes : cfgqueryTakes 1 2 0x80000000 straySend = true := by decide
  have hloop : findBladeLoop 1 2 0x80000000 [straySend] = some (straySend, []) := by
    rw [findBladeLoop, if_neg (by decide), if_neg (by decide)]
  refine ⟨hflags, fun h => ?_, fun h => ?_, fun h => ?_⟩
  · exact (h _ _ hloop).resp hflags
  · refine (h straySend [] ?_).resp hflags
    rw [aoePktRead_eq]
    exact hloop
  · refine (h straySend ?_).resp hflags
    rw [cfgqueryLoop, htakes]
    exact List.mem_singleton_self _

end Responses

section Smart

variable {nam : List Char} {s : SmartCmd}

/-- What stands in front of the first `:`. -/
def smartName (nam : List Char) : List Char := nam.takeWhile (· ≠ ':')

/-- The number behind the first `:`, if there is one. -/
def smartNumber (nam : List Char) : Option ℤ := (smartParm nam).bind readInt

def smartEntry (nam : List Char) : Option SmartCmd := smarts.find? fun s => s.name = smartName nam

/-- The packet for the command of an entry. -/
structure SmartPacket (nam : List Char) (s : SmartCmd) (a : AtaPkt) : Prop where
  ata : a.ata = ATAsmart
  err : a.err = s.cmd
  sectors : a.sectors = if s.data = 0 then 0 else 1
  low : ∀ n, smartNumber nam = some n → a.lba0 = .ofInt 8 n
  mid : a.lba1 = 0x4f
  high : a.lba2 = 0xc2
  aflag : a.aflag &&& WriteFlag ≠ 0 ↔ s.put = true
  flags : a.flags = AoEver <<< 4

/-- A string with the name of an entry makes the packet of that entry, as soon as there is data where data is sent, and any
other string makes none. -/
def SmartRight (nam : List Char) : Prop :=
  ∀ mac c tag stdin,
    (∀ s, smartEntry nam = some s → (s.put = true → stdin.isSome) →
      ∃ a, smart mac c tag nam stdin = some a ∧ SmartPacket nam s a) ∧
    (smartEntry nam = none → smart mac c tag nam stdin = none)

private theorem smarts_prefix_free : ∀ s ∈ smarts, ∀ t ∈ smarts, s.name <+: t.name → t = s := by
  decide +kernel

/-- The lookup takes what stands in front of a `:` for the beginning of a name. -/
private theorem smartcmdLookup_eq (nam : List Char) : smartcmdLookup nam =
    smarts.find? fun s => if ':' ∈ nam then smartName nam <+: s.name else s.name = smartName nam := by
  have hname : smartName nam = nam.take (nam.findIdx (· = ':')) := by
    rw [smartName, List.takeWhile_eq_take_findIdx_not]
    simp
  unfold smartcmdLookup
  refine List.find?_congr fun s hs => ?_
  cases hidx : nam.findIdx? (· = ':') with
  | none =>
    have hnone : ':' ∉ nam := fun hmem => by
      have hall := List.findIdx?_eq_none_iff.mp hidx ':' hmem
      simp at hall
    have hself : smartName nam = nam := by
      refine List.takeWhile_eq_self_iff.mpr fun c hc => ?_
      have hne : c ≠ ':' := fun h => hnone (h ▸ hc)
      simpa using hne
    simp [hnone, hself]
  | some k =>
    obtain ⟨hlt, hk⟩ := List.findIdx?_eq_some_iff_findIdx_eq.mp hidx
    have hmem : ':' ∈ nam := by
      obtain ⟨x, hx, hp⟩ := List.findIdx_lt_length.mp (hk ▸ hlt)
      have hcolon : x = ':' := by simpa using hp
      exact hcolon ▸ hx
    have hfree : ∀ s ∈ smarts, ':' ∉ s.name := by decide
    have hne : s.name ≠ nam := fun h => hfree s hs (h ▸ hmem)
    rw [hk] at hname
    have hprefix : s.name.take k = nam.take k ↔ nam.take k <+: s.name := by
      constructor
      · intro h
        rw [← h]
        exact List.take_prefix _ _
      · intro h
        have hlen : (nam.take k).length = k := by rw [List.length_take]; omega
        have heq := List.prefix_iff_eq_take.mp h
        rw [hlen] at heq
        exact heq.symm
    rw [hname]
    simp [hmem, hne, hprefix]

private theorem smartcmdLookup_entry (h : smartEntry nam = some s) : smartcmdLookup nam = some s := by
  have hs : s ∈ smarts := List.mem_of_find?_eq_some h
  have hname : s.name = smartName nam := by simpa using List.find?_some h
  rw [smartcmdLookup_eq, ← h, smartEntry]
  refine List.find?_congr fun t ht => ?_
  split
  · rw [decide_eq_decide]
    constructor
    · intro hpre
      rw [← hname] at hpre ⊢
      rw [smarts_prefix_free s hs t ht hpre]
    · exact fun heq => heq ▸ List.prefix_rfl
  · rfl

private theorem smartcmdLookup_none (h : smartEntry nam = none) :
    smartcmdLookup nam = none ↔ (':' ∈ nam → ∀ s ∈ smarts, ¬ smartName nam <+: s.name) := by
  have hno : ∀ s ∈ smarts, s.name ≠ smartName nam := by simpa [smartEntry] using h
  rw [smartcmdLookup_eq, List.find?_eq_none]
  by_cases hmem : ':' ∈ nam
  · simp [hmem]
  · simpa [hmem] using hno

/-- The packet of a command that is found, before data and flag are added. -/
def smartBare (mac : ℕ) (c : Packet) (tag : BitVec 32) (nam : List Char) (s : SmartCmd) : AtaPkt :=
  smartRegisters { ataPrep mac c tag with sectors := if s.data ≠ 0 then 1 else 0, ata := ATAsmart } (smartParm nam) s

private theorem smartBare_eq (mac : ℕ) (c : Packet) (tag : BitVec 32) (nam : List Char) (s : SmartCmd) :
    smartBare mac c tag nam s =
      { ataPrep mac c tag with
        sectors := if s.data ≠ 0 then 1 else 0, ata := ATAsmart, err := s.cmd, lba1 := 0x4f, lba2 := 0xc2
        lba0 := ((smartParm nam).map fun opts => BitVec.ofInt 8 (strtol0 opts)).getD 0 } := by
  unfold smartBare smartRegisters
  cases smartParm nam with
  | none => rfl
  | some opts => rfl

private theorem smart_some {mac : ℕ} {c : Packet} {tag : BitVec 32} {stdin : Option (List Byte)}
    (h : smartcmdLookup nam = some s) : smart mac c tag nam stdin =
      if s.put then stdin.map fun data =>
        { smartBare mac c tag nam s with data := data.take 512, flags := AoEver <<< 4 ||| WriteFlag }
      else some (smartBare mac c tag nam s) := by
  have hflags : (smartBare mac c tag nam s).flags = AoEver <<< 4 := by
    rw [smartBare_eq]
    rfl
  rw [← hflags, smart, h]
  rfl

private theorem smart_isSome {mac : ℕ} {c : Packet} {tag : BitVec 32} {stdin : Option (List Byte)}
    (h : smartcmdLookup nam = some s) (hin : s.put = true → stdin.isSome) : (smart mac c tag nam stdin).isSome := by
  rw [smart_some h]
  split
  · rename_i hput
    rw [Option.isSome_map]
    exact hin hput
  · rfl

/-- The registers of a command that sends no data. -/
private theorem smartBare_packet (mac : ℕ) (c : Packet) (tag : BitVec 32) (hput : s.put = false) :
    SmartPacket nam s (smartBare mac c tag nam s) ↔
      ∀ n, smartNumber nam = some n → BitVec.ofInt 8 (clampLong n) = BitVec.ofInt 8 n := by
  have hsectors : (if s.data ≠ 0 then 1 else 0 : Byte) = if s.data = 0 then 0 else 1 := ite_not ..
  have hlow (n : ℤ) (hn : smartNumber nam = some n) :
      (smartBare mac c tag nam s).lba0 = BitVec.ofInt 8 (clampLong n) := by
    obtain ⟨opts, hopts, hread⟩ := Option.bind_eq_some_iff.mp hn
    rw [smartBare_eq, hopts, Option.map_some, strtol0, hread]
    rfl
  constructor
  · intro h n hn
    rw [← hlow n hn]
    exact h.low n hn
  · intro h
    refine ⟨?_, ?_, ?_, fun n hn => (hlow n hn).trans (h n hn), ?_, ?_, ?_, ?_⟩
    · rw [smartBare_eq]
    · rw [smartBare_eq]
    · rw [smartBare_eq]
      exact hsectors
    · rw [smartBare_eq]
    · rw [smartBare_eq]
    · have hzero : (0 : Byte) &&& WriteFlag = 0 := by decide
      rw [smartBare_eq, hput]
      exact iff_of_false (fun h => h hzero) Bool.false_ne_true
    · rw [smartBare_eq]
      rfl

/-- A SMART command is sent right unless it sends data, or has a number that does not fit a `long` and whose last byte is
not that of the limit; and no other string sends one unless it has a `:` behind the beginning of a name. -/
theorem smart_right_iff (nam : List Char) : SmartRight nam ↔
    (∀ s, smartEntry nam = some s → s.put = false ∧
      ∀ n, smartNumber nam = some n → BitVec.ofInt 8 (clampLong n) = BitVec.ofInt 8 n) ∧
    (smartEntry nam = none → ':' ∈ nam → ∀ s ∈ smarts, ¬ smartName nam <+: s.name) := by
  constructor
  · intro h
    refine ⟨fun s hs => ?_, fun hnone => ?_⟩
    · have hlookup := smartcmdLookup_entry hs
      obtain ⟨a, ha, hp⟩ := (h 0 ⟨0, fun _ => 0⟩ 0 (some [])).1 s hs fun _ => rfl
      cases hput : s.put with
      | true =>
        rw [smart_some hlookup, if_pos hput] at ha
        have hflags := hp.flags
        rw [← Option.some.inj ha] at hflags
        have hwrite : AoEver <<< 4 ||| WriteFlag = AoEver <<< 4 := hflags
        exact absurd hwrite (by decide)
      | false =>
        rw [smart_some hlookup, hput] at ha
        rw [← Option.some.inj ha] at hp
        exact ⟨rfl, (smartBare_packet 0 ⟨0, fun _ => 0⟩ 0 hput).mp hp⟩
    · rw [← smartcmdLookup_none hnone]
      cases hlookup : smartcmdLookup nam with
      | none => rfl
      | some s =>
        have hsome : (smart 0 ⟨0, fun _ => 0⟩ 0 nam (some [])).isSome := smart_isSome hlookup fun _ => rfl
        rw [(h 0 ⟨0, fun _ => 0⟩ 0 (some [])).2 hnone] at hsome
        exact absurd hsome Bool.false_ne_true
  · rintro ⟨hentry, hother⟩ mac c tag stdin
    refine ⟨fun s hs _ => ?_, fun hnone => ?_⟩
    · obtain ⟨hput, hnum⟩ := hentry s hs
      refine ⟨_, ?_, (smartBare_packet mac c tag hput).mpr hnum⟩
      rw [smart_some (smartcmdLookup_entry hs), hput]
      rfl
    · rw [smart, (smartcmdLookup_none hnone).mpr (hother hnone)]

/-- `write_log:1` gets its Write flag in the wrong header, and `read:1` is taken for a command. -/
theorem smart_wrong : ¬ SmartRight "write_log:1".toList ∧ ¬ SmartRight "read:1".toList := by
  refine ⟨fun h => ?_, fun h => ?_⟩
  · obtain ⟨a, ha, hp⟩ := (h 0 ⟨0, fun _ => 0⟩ 0 (some [])).1 ⟨"write_log".toList, 0xd6, SmartDataPut⟩ (by decide +kernel)
      fun _ => rfl
    have hflags := hp.flags
    have hbad : (smart 0 ⟨0, fun _ => 0⟩ 0 "write_log:1".toList (some [])).map AtaPkt.flags = some 0x11 := by decide +kernel
    rw [ha, Option.map_some, hflags] at hbad
    exact absurd hbad (by decide)
  · have hnone := (h 0 ⟨0, fun _ => 0⟩ 0 none).2 (by decide +kernel)
    have hsome : (smart 0 ⟨0, fun _ => 0⟩ 0 "read:1".toList none).isSome = true := by decide +kernel
    rw [hnone] at hsome
    exact absurd hsome Bool.false_ne_true

end Smart

section Memory

variable {cfgstrlen shelf slot tag : ℕ} {pkts : List Packet}

/-- Everything stays inside the buffer and the table, and no more of a configuration string is printed than was
received. -/
def CfgContained (cfgstrlen shelf slot tag : ℕ) (pkts : List Packet) : Prop :=
  (∀ a ∈ (cfgquery cfgstrlen shelf slot tag pkts).1, a.Inside) ∧
    ∀ x ∈ (cfgquery cfgstrlen shelf slot tag pkts).2, x.2 ≤ x.1.len - 32

/-- The packets that `resp` prints. -/
def cfgTaken (shelf slot tag : ℕ) (pkts : List Packet) : List Packet :=
  ((cfgqueryLoop shelf slot tag (pkts.map readto)).filter Prod.snd).map Prod.fst

/-- The request is made from 1056 bytes of a buffer of 1048, whatever it is and whatever comes back. -/
theorem cfgquery_exceeds_buffer (cfgstrlen shelf slot tag : ℕ) (pkts : List Packet) :
    ¬ CfgContained cfgstrlen shelf slot tag pkts := by
  intro h
  have hsend : CfgAccess.buf 0 sizeofConf ∈ (cfgquery cfgstrlen shelf slot tag pkts).1 := by
    refine List.mem_append_left _ (List.mem_append_left _ ?_)
    simp [cfgqueryRequest]
  exact absurd (h.1 _ hsend) (by decide)

private theorem cfgqueryLoop_mem {p : Packet} {b : Bool} (h : (p, b) ∈ cfgqueryLoop shelf slot tag pkts) : p ∈ pkts := by
  induction pkts with
  | nil => exact absurd h List.not_mem_nil
  | cons q pkts ih =>
    rw [cfgqueryLoop] at h
    split at h
    · split at h
      · rw [List.mem_singleton, Prod.mk.injEq] at h
        exact h.1 ▸ List.mem_cons_self
      · rcases List.mem_cons.mp h with h | h
        · rw [(Prod.mk.inj h).1]
          exact List.mem_cons_self
        · exact List.mem_cons_of_mem _ (ih h)
    · rcases List.mem_cons.mp h with h | h
      · rw [(Prod.mk.inj h).1]
        exact List.mem_cons_self
      · exact List.mem_cons_of_mem _ (ih h)

private theorem resp_inside_iff (p : Packet) : (∀ a ∈ (resp p).1, a.Inside) ↔
    (p.flags &&& ErrorFlag ≠ 0 → p.error &&& 7 ≠ 7) ∧
      (p.flags &&& ErrorFlag = 0 → 32 + (printData p p.confLen 32).1 ≤ sizeofCfgbuf) := by
  have hhead : CfgAccess.Inside (.buf 14 2) ∧ CfgAccess.Inside (.buf 30 2) ∧ CfgAccess.Inside (.buf 16 3) := by decide
  have hindex : p.error &&& 7 ≤ 7 := Nat.and_le_right
  rw [resp]
  split
  · rename_i herr
    have hlt : CfgAccess.Inside (.errtab (p.error &&& 7)) ↔ p.error &&& 7 ≠ 7 := by
      change p.error &&& 7 < 7 ↔ _
      omega
    simp [herr, hhead, hlt]
  · rename_i herr
    rw [not_not] at herr
    have hle : CfgAccess.Inside (.buf 32 (printData p p.confLen 32).1) ↔
        32 + (printData p p.confLen 32).1 ≤ sizeofCfgbuf := Iff.rfl
    simp [herr, hhead, hle]

/-- Everything but that request stays inside just where the configuration string has at most 1016 bytes, no error code has
7 as its last bits, and every configuration string received ends in the buffer. -/
theorem cfgquery_rest_iff : (∀ a ∈ (cfgquery cfgstrlen shelf slot tag pkts).1, a ≠ .buf 0 sizeofConf → a.Inside) ↔
    cfgstrlen ≤ 1016 ∧ ∀ p ∈ cfgTaken shelf slot tag pkts,
      (p.flags &&& ErrorFlag ≠ 0 → p.error &&& 7 ≠ 7) ∧
        (p.flags &&& ErrorFlag = 0 → 32 + (printData p p.confLen 32).1 ≤ sizeofCfgbuf) := by
  have hread : ∀ x ∈ cfgqueryLoop shelf slot tag (pkts.map readto), x.1.len ≤ sizeofCfgbuf := by
    rintro ⟨p, b⟩ hx
    obtain ⟨q, -, rfl⟩ := List.mem_map.mp (cfgqueryLoop_mem hx)
    exact min_le_right _ _
  have hother {p : Packet} {a : CfgAccess} (ha : a ∈ (resp p).1) : a ≠ .buf 0 sizeofConf := by
    rintro rfl
    rw [resp] at ha
    split at ha
    · simp at ha
    · simp at ha
  have hstr : CfgAccess.Inside (.buf 32 cfgstrlen) ↔ cfgstrlen ≤ 1016 := by
    change 32 + cfgstrlen ≤ 1048 ↔ _
    omega
  constructor
  · intro h
    refine ⟨hstr.mp (h _ ?_ (by simp)), fun p hp => (resp_inside_iff p).mp fun a ha => h a ?_ (hother ha)⟩
    · refine List.mem_append_left _ (List.mem_append_left _ ?_)
      simp [cfgqueryRequest]
    · exact List.mem_append_right _ (List.mem_flatMap.mpr ⟨p, hp, ha⟩)
  · rintro ⟨hlen, hpkts⟩ a ha hne
    rcases List.mem_append.mp ha with ha | ha
    · rcases List.mem_append.mp ha with ha | ha
      · simp only [cfgqueryRequest, List.mem_cons, List.not_mem_nil, or_false] at ha
        rcases ha with rfl | rfl | rfl | rfl
        · decide
        · decide
        · exact hstr.mpr hlen
        · exact absurd rfl hne
      · obtain ⟨x, hx, ha⟩ := List.mem_flatMap.mp ha
        have hx' := hread x hx
        simp only [List.mem_cons, List.not_mem_nil, or_false] at ha
        rcases ha with rfl | rfl
        · change 0 + x.1.len ≤ sizeofCfgbuf
          omega
        · decide
    · obtain ⟨p, hp, ha⟩ := List.mem_flatMap.mp ha
      exact (resp_inside_iff p).mpr (hpkts p hp) a ha

/-- A request without a configuration string, and no response. -/
theorem cfgquery_exceeds_sample : CfgAccess.buf 0 1056 ∈ (cfgquery 0 0xffff 0xff 0x80000000 []).1 ∧
    ¬ CfgContained 0 0xffff 0xff 0x80000000 [] := by
  have hsend : CfgAccess.buf 0 1056 ∈ (cfgquery 0 0xffff 0xff 0x80000000 []).1 := by decide
  exact ⟨hsend, fun h => absurd (h.1 _ hsend) (by decide)⟩

end Memory

end AoeDriver
