import AoeDriver.Ledger.Balance

/-!
# Tags in the ledger

Every call of `newtag` is an attempt to send one command. A frame in `factive` or `rexmitq` carries the tag of the
last attempt of its command, and the upper half of a tag is the ordinal of its attempt modulo `2^15`.
-/

namespace AoeDriver

open Ledger

/-- The last attempt of a command. -/
def lastXmit (xmits : List Xmit) (cmd : ℕ) : Option Xmit := (xmits.filter (·.cmd = cmd)).getLast?

private theorem lastXmit_append (xmits : List Xmit) (x : Xmit) (cmd : ℕ) :
    lastXmit (xmits ++ [x]) cmd = if x.cmd = cmd then some x else lastXmit xmits cmd := by
  rw [lastXmit, List.filter_append]
  by_cases h : x.cmd = cmd
  · rw [if_pos h, List.filter_cons_of_pos (by simpa using h), List.filter_nil, List.getLast?_concat]
  · rw [if_neg h, List.filter_cons_of_neg (by simpa using h), List.filter_nil, List.append_nil]
    rfl

theorem lastXmit_mem {xmits : List Xmit} {cmd : ℕ} {x : Xmit} (h : lastXmit xmits cmd = some x) :
    x ∈ xmits ∧ x.cmd = cmd := by
  obtain ⟨hmem, hcmd⟩ := List.mem_filter.mp (List.mem_of_getLast? h)
  exact ⟨hmem, by simpa using hcmd⟩

/-- What the log says about the tags that were given out. -/
structure Log.Sound (log : Log) : Prop where
  lasttag : log.lasttag = log.ntags % 2^16
  serials : log.xmits.map Xmit.serial = List.range' 1 log.ntags
  tags : ∀ x ∈ log.xmits, x.tag / 2^16 = x.serial % 2^15
  cmds : ∀ x ∈ log.xmits, x.cmd < log.ncmds

/-- Frames that wait for a response. -/
structure Tagged (log : Log) (listed : Multiset Frame) : Prop where
  sound : log.Sound
  cmds : (listed.map Frame.cmd).Nodup
  lt : ∀ f ∈ listed, f.cmd < log.ncmds
  hdr : ∀ f ∈ listed, f.hdrTag = some f.tag
  last : ∀ f ∈ listed, ∃ x, lastXmit log.xmits f.cmd = some x ∧ x.tag = f.tag

def Ledger.listed (l : Ledger) : Multiset Frame := l.active + l.deferred

section Tags

variable {l l' : Ledger} {f f' : Frame} {s : Multiset Frame}

private theorem nextTag_div (l : Ledger) : l.nextTag / 2^16 = (l.log.lasttag + 1) % 2^16 % 2^15 := by
  have hlow : l.clock.jiffies &&& 0xffff < 2^16 := Nat.and_lt_two_pow _ (by norm_num)
  have hhigh : (l.log.lasttag + 1) % 2^16 &&& 0x7fff = (l.log.lasttag + 1) % 2^16 % 2^15 :=
    Nat.and_two_pow_sub_one_eq_mod _ 15
  rw [nextTag, hhigh, Nat.or_comm, ← Nat.shiftLeft_add_eq_or_of_lt hlow, Nat.shiftLeft_eq]
  omega

theorem Log.Sound.xmit (h : l.log.Sound) {cmd : ℕ} (hc : cmd < l.log.ncmds) : (l.xmit cmd).log.Sound := by
  have htag : l.nextTag / 2^16 = (l.log.ntags + 1) % 2^15 := by
    rw [nextTag_div, h.lasttag]
    omega
  constructor
  · change (l.log.lasttag + 1) % 2^16 = (l.log.ntags + 1) % 2^16
    rw [h.lasttag]
    omega
  · change (l.log.xmits ++ [_]).map Xmit.serial = _
    rw [List.map_append, h.serials]
    change _ = List.range' 1 (l.log.ntags + 1)
    rw [List.range'_concat, Nat.one_mul, Nat.add_comm 1]
    rfl
  · intro x hx
    rcases List.mem_append.mp hx with hx | hx
    · exact h.tags x hx
    · rw [List.mem_singleton.mp hx]
      exact htag
  · intro x hx
    rcases List.mem_append.mp hx with hx | hx
    · exact h.cmds x hx
    · rw [List.mem_singleton.mp hx]
      exact hc

theorem Tagged.sub {log : Log} {s' : Multiset Frame} (h : Tagged log s) (hle : s' ≤ s) : Tagged log s' where
  sound := h.sound
  cmds := Multiset.nodup_of_le (Multiset.map_le_map hle) h.cmds
  lt f hf := h.lt f (Multiset.mem_of_le hle hf)
  hdr f hf := h.hdr f (Multiset.mem_of_le hle hf)
  last f hf := h.last f (Multiset.mem_of_le hle hf)

theorem Tagged.attempt (h : Tagged l.log s) (hc : f'.cmd < l.log.ncmds) (hnew : f'.cmd ∉ s.map Frame.cmd)
    (htag : f'.tag = l.nextTag) (hhdr : f'.hdrTag = some f'.tag) : Tagged (l.xmit f'.cmd).log (f' ::ₘ s) := by
  have hne {f : Frame} (hf : f ∈ s) : f'.cmd ≠ f.cmd := fun heq => hnew (Multiset.mem_map.mpr ⟨f, hf, heq.symm⟩)
  have hlast (cmd : ℕ) : lastXmit (l.xmit f'.cmd).log.xmits cmd =
      if f'.cmd = cmd then some ⟨f'.cmd, l.nextTag, l.log.ntags + 1⟩ else lastXmit l.log.xmits cmd :=
    lastXmit_append _ _ cmd
  refine ⟨h.sound.xmit hc, ?_, ?_, ?_, ?_⟩
  · rw [Multiset.map_cons, Multiset.nodup_cons]
    exact ⟨hnew, h.cmds⟩
  · intro f hf
    rcases Multiset.mem_cons.mp hf with rfl | hf
    · exact hc
    · exact h.lt f hf
  · intro f hf
    rcases Multiset.mem_cons.mp hf with rfl | hf
    · exact hhdr
    · exact h.hdr f hf
  · intro f hf
    rcases Multiset.mem_cons.mp hf with rfl | hf
    · exact ⟨_, by rw [hlast, if_pos rfl], htag.symm⟩
    · rw [hlast, if_neg (hne hf)]
      exact h.last f hf

theorem Tagged.issue (h : Tagged l.log s) (hi : Issued l f f') : Tagged l.issue.log (f' ::ₘ s) := by
  let m : Ledger := { l with log := { l.log with ncmds := l.log.ncmds + 1 } }
  have hm : Tagged m.log s := by
    refine ⟨⟨h.sound.lasttag, h.sound.serials, h.sound.tags, ?_⟩, h.cmds, ?_, h.hdr, h.last⟩
    · exact fun x hx => Nat.lt_succ_of_lt (h.sound.cmds x hx)
    · exact fun f hf => Nat.lt_succ_of_lt (h.lt f hf)
  have hnew : f'.cmd ∉ s.map Frame.cmd := by
    intro hmem
    obtain ⟨a, ha, heq⟩ := Multiset.mem_map.mp hmem
    have hlt := h.lt a ha
    rw [heq, hi.cmd] at hlt
    exact absurd hlt (Nat.lt_irrefl _)
  have hlt : f'.cmd < m.log.ncmds := by
    rw [hi.cmd]
    exact Nat.lt_succ_self _
  have hres := hm.attempt hlt hnew hi.tag hi.hdr
  rw [hi.cmd] at hres
  exact hres

theorem Tagged.again (h : Tagged l.log (f ::ₘ s)) (hcmd : f'.cmd = f.cmd) (htag : f'.tag = l.nextTag)
    (hhdr : f'.hdrTag = some f'.tag) : Tagged (l.xmit f.cmd).log (f' ::ₘ s) := by
  have hnodup := h.cmds
  rw [Multiset.map_cons, Multiset.nodup_cons] at hnodup
  have hlt : f'.cmd < l.log.ncmds := hcmd ▸ h.lt f (Multiset.mem_cons_self f s)
  have hres := (h.sub (Multiset.le_cons_self s f)).attempt hlt (by rw [hcmd]; exact hnodup.1) htag hhdr
  rw [hcmd] at hres
  exact hres

theorem listed_act (l : Ledger) (f : Frame) : (l.act f).listed = f ::ₘ l.listed := Multiset.cons_add _ _ _

theorem listed_defer (l : Ledger) (f : Frame) : (l.defer f).listed = f ::ₘ l.listed := Multiset.add_cons _ _ _

theorem Move.tagged (m : Move false l l') (h : Tagged l.log l.listed) : Tagged l'.log l'.listed := by
  cases m with
  | alloc hcap hid ht hf => exact h
  | take ht => exact h
  | reskb hf => exact h
  | giveBack hf => exact h
  | send hf hi hb hp =>
    rw [listed_act]
    exact Tagged.issue h hi
  | probe hf hi hb hp =>
    rw [listed_act]
    exact Tagged.issue h hi
  | miss i => exact ⟨⟨h.sound.lasttag, h.sound.serials, h.sound.tags, h.sound.cmds⟩, h.cmds, h.lt, h.hdr, h.last⟩
  | @expire l f w hw hm =>
    rw [listed_act] at h
    rw [listed_defer]
    exact h
  | @resend l f f' hr =>
    rw [listed_defer] at h
    rw [listed_act]
    exact Tagged.again h hr.cmd hr.tag hr.hdr
  | @reassign l f nf nf' nf'' hp hf ho hr =>
    have hl : ((l.defer f).hold nf).listed = f ::ₘ l.listed := listed_defer l f
    rw [hl] at h
    rw [listed_act]
    exact Tagged.again h (hr.cmd.trans ho.cmd) hr.tag hr.hdr
  | @drop l f hp =>
    rw [listed_defer] at h
    exact h.sub (Multiset.le_cons_self _ _)
  | kick => exact h

theorem Shift.tagged {C : Cond} (m : Shift C l l') (h : Tagged l.log l.listed) : Tagged l'.log l'.listed := by
  cases m with
  | move hm => exact hm.tagged h
  | @answer l f =>
    rw [listed_act] at h
    exact h.sub (Multiset.le_cons_self _ _)
  | @answerDeferred l f =>
    rw [listed_defer] at h
    exact h.sub (Multiset.le_cons_self _ _)
  | down hc => exact h.sub (Multiset.zero_le _)
  | _ => exact h

theorem xmit_eq_of_tag {log : Log} (h : log.Sound) {x y : Xmit} (hx : x ∈ log.xmits) (hy : y ∈ log.xmits)
    (hxw : log.ntags - x.serial < 2^15) (hyw : log.ntags - y.serial < 2^15) (htag : x.tag = y.tag) : x = y := by
  have hnodup : (log.xmits.map Xmit.serial).Nodup := by
    rw [h.serials]
    exact List.nodup_range'
  have hle {z : Xmit} (hz : z ∈ log.xmits) : z.serial ≤ log.ntags := by
    have hmem : z.serial ∈ log.xmits.map Xmit.serial := List.mem_map_of_mem hz
    rw [h.serials, List.mem_range'_1] at hmem
    omega
  have hxs := h.tags x hx
  have hys := h.tags y hy
  rw [htag] at hxs
  have hmod : x.serial % 2^15 = y.serial % 2^15 := hxs.symm.trans hys
  have hserial : x.serial = y.serial := by
    have hx' := hle hx
    have hy' := hle hy
    omega
  exact List.inj_on_of_nodup_map hnodup hx hy hserial

end Tags

end AoeDriver
