import AoeDriver.Property.Packets
import AoeDriver.Property.Interfaces
import AoeDriver.Property.Matching

/-!
# Commands and their retransmissions

However often a command is sent again, and from however many frames, its packet differs in the addresses, the interface
and the tag only. A frame that takes a command over gets the packet of the command, and gives its own for it.
-/

namespace AoeDriver

open Ledger

section Faithful

variable {G : Gate} {l l' : Traffic}

/-- All packets of a command carry the same, and so do the frames that may be sent again. -/
structure Faithful (l : Traffic) : Prop where
  cmds : ∀ s ∈ l.sends, s.frame.cmd < l.ncmds
  same : ∀ s ∈ l.sends, ∀ s' ∈ l.sends, s'.frame.cmd = s.frame.cmd → s'.frame.command = s.frame.command
  first : ∀ s ∈ l.sends, ∃ s' ∈ l.sends, s'.first = true ∧ s'.frame.cmd = s.frame.cmd
  listed : ∀ f ∈ l.active + l.deferred, ∃ s ∈ l.sends, s.frame.cmd = f.cmd ∧ s.frame.command = f.command

theorem Act.ncmds (h : Act G l l') : l.ncmds ≤ l'.ncmds ∧
    ∀ s, l'.sends = l.sends ++ [s] → s.first = true → s.frame.cmd < l'.ncmds := by
  have hlast {s s' : Send} (heq : l.sends ++ [s] = l.sends ++ [s']) : s = s' := by simpa using heq
  have hnone {s : Send} (heq : l.sends = l.sends ++ [s]) : False := by simp at heq
  cases h with
  | @send _ f f' cloned w r hw hp hcmd hsize ha hs =>
    refine ⟨Nat.le_succ _, fun s heq _ => ?_⟩
    rw [← hlast heq]
    exact hcmd.trans_lt (Nat.lt_succ_self _)
  | @probe _ f f' cloned w r hlt hn hp hcmd hsize ha hs =>
    refine ⟨Nat.le_succ _, fun s heq _ => ?_⟩
    rw [← hlast heq]
    exact hcmd.trans_lt (Nat.lt_succ_self _)
  | resend =>
    refine ⟨le_rfl, fun s heq hfirst => ?_⟩
    rw [← hlast heq] at hfirst
    exact absurd hfirst Bool.false_ne_true
  | _ => exact ⟨le_rfl, fun s heq _ => (hnone heq).elim⟩

theorem Faithful.again {s : Send} (hl : Faithful l) (h : Sent l s) :
    s.first = true ∧ s.frame.cmd = l.ncmds ∨
      ∃ s' ∈ l.sends, s'.frame.cmd = s.frame.cmd ∧ s'.frame.command = s.frame.command := by
  cases h with
  | fresh _ _ _ hcmd => exact .inl ⟨rfl, hcmd⟩
  | probe _ _ _ hcmd => exact .inl ⟨rfl, hcmd⟩
  | @again f f' _ hf _ _ _ hr =>
    obtain ⟨s', hs', hcmd, hcommand⟩ := hl.listed f (Multiset.mem_add.mpr (.inr hf))
    exact .inr ⟨s', hs', hcmd.trans hr.cmd.symm, hcommand.trans hr.command.symm⟩

theorem Act.faithful (h : Act G l l') (hl : Faithful l) : Faithful l' := by
  obtain ⟨hle, hnew⟩ := h.ncmds
  have hsends : ∀ s ∈ l.sends, s ∈ l'.sends := by
    rcases h.sends with ⟨heq, -⟩ | ⟨s, -, heq, -⟩
    · rw [heq]
      exact fun s hs => hs
    · rw [heq]
      exact fun s hs => List.mem_append_left _ hs
  have hold {f g : Frame} (hg : g ∈ l.active + l.deferred) (hcmd : f.cmd = g.cmd) (hcommand : f.command = g.command) :
      ∃ s ∈ l'.sends, s.frame.cmd = f.cmd ∧ s.frame.command = f.command := by
    obtain ⟨s, hs, hc, hco⟩ := hl.listed g hg
    exact ⟨s, hsends s hs, hc.trans hcmd.symm, hco.trans hcommand.symm⟩
  have hlisted : ∀ f ∈ l'.active + l'.deferred, ∃ s ∈ l'.sends, s.frame.cmd = f.cmd ∧ s.frame.command = f.command := by
    intro f hf
    rcases Multiset.mem_add.mp hf with hf | hf
    · rcases h.active hf with hf | ⟨s, -, heq, hstamp⟩
      · exact hold (Multiset.mem_add.mpr (.inl hf)) rfl rfl
      · obtain ⟨-, hcmd, -, -, hcommand⟩ := hstamp.of_eq
        refine ⟨s, ?_, hcmd.symm, hcommand.symm⟩
        rw [heq]
        exact List.mem_append_right _ List.mem_cons_self
    · rcases h.deferred hf with hf | ⟨g, hg, hcmd, hcommand⟩
      · exact hold hf rfl rfl
      · exact hold (Multiset.mem_add.mpr (.inr hg)) hcmd hcommand
  rcases h.sends with ⟨heq, -⟩ | ⟨s, hsent, heq, -⟩
  · refine ⟨?_, ?_, ?_, hlisted⟩
    · rw [heq]
      exact fun s hs => (hl.cmds s hs).trans_le hle
    · rw [heq]
      exact hl.same
    · rw [heq]
      exact hl.first
  · -- one more packet: the first of a new command, or one more of a command that is in the log
    have hmem {x : Send} (hx : x ∈ l'.sends) : x ∈ l.sends ∨ x = s := by
      rw [heq] at hx
      rcases List.mem_append.mp hx with hx | hx
      · exact .inl hx
      · exact .inr (List.mem_singleton.mp hx)
    have hself : s ∈ l'.sends := by
      rw [heq]
      exact List.mem_append_right _ List.mem_cons_self
    rcases hl.again hsent with ⟨hfirst, hcmd⟩ | ⟨s', hs', hcmd, hcommand⟩
    · have hne {x : Send} (hx : x ∈ l.sends) : x.frame.cmd ≠ s.frame.cmd := by
        rw [hcmd]
        exact (hl.cmds x hx).ne
      refine ⟨fun x hx => ?_, fun x hx y hy heq' => ?_, fun x hx => ?_, hlisted⟩
      · rcases hmem hx with hx | rfl
        · exact (hl.cmds x hx).trans_le hle
        · exact hnew x heq hfirst
      · rcases hmem hx with hx | rfl
        · rcases hmem hy with hy | rfl
          · exact hl.same x hx y hy heq'
          · exact absurd heq'.symm (hne hx)
        · rcases hmem hy with hy | rfl
          · exact absurd heq' (hne hy)
          · rfl
      · rcases hmem hx with hx | rfl
        · obtain ⟨y, hy, hyf, hyc⟩ := hl.first x hx
          exact ⟨y, hsends y hy, hyf, hyc⟩
        · exact ⟨x, hself, hfirst, rfl⟩
    · have hsame {x : Send} (hx : x ∈ l'.sends) : ∃ y ∈ l.sends, y.frame.cmd = x.frame.cmd ∧
          y.frame.command = x.frame.command := by
        rcases hmem hx with hx | rfl
        · exact ⟨x, hx, rfl, rfl⟩
        · exact ⟨s', hs', hcmd, hcommand⟩
      refine ⟨fun x hx => ?_, fun x hx y hy heq' => ?_, fun x hx => ?_, hlisted⟩
      · obtain ⟨z, hz, hzc, -⟩ := hsame hx
        rw [← hzc]
        exact (hl.cmds z hz).trans_le hle
      · obtain ⟨z, hz, hzc, hzco⟩ := hsame hx
        obtain ⟨w, hw, hwc, hwco⟩ := hsame hy
        rw [← hzco, ← hwco]
        exact hl.same z hz w hw (hwc.trans (heq'.trans hzc.symm))
      · obtain ⟨z, hz, hzc, -⟩ := hsame hx
        obtain ⟨y, hy, hyf, hyc⟩ := hl.first z hz
        exact ⟨y, hsends y hy, hyf, hyc.trans hzc⟩

private theorem faithful_blank : Faithful Traffic.blank := by
  refine ⟨?_, ?_, ?_, ?_⟩
  · exact fun s hs => absurd hs List.not_mem_nil
  · exact fun s hs => absurd hs List.not_mem_nil
  · exact fun s hs => absurd hs List.not_mem_nil
  · exact fun f hf => absurd hf (by simp [Traffic.blank])

private theorem reachedBy_faithful {ok : Aoedev → Event → Aoedev → Prop} {d : Aoedev} (h : ReachedBy ok d) :
    Faithful (d.traffic 0) :=
  reachedBy_traffic (fun s e _ _ => Gate.meets_any s e) faithful_blank (fun _ _ => Act.faithful) h

end Faithful

/-- The packet of a command that is taken over: the new frame has it, the old one has that of the new frame, and nobody
else has either. -/
structure HandedOver (d : Aoedev) (h : Hands) (f nf old : Frame) : Prop where
  packet : nf.skb = f.skb ∧ f.skb.isSome
  range : nf.buf = f.buf ∧ nf.iter = f.iter
  old : old.packet ≠ f.packet
  elsewhere : ∀ i, f.packet = some i → i ∉ (d.ledger h).packets ∧ i ∉ d.skbpool.map Skb.id

private theorem reassignFrame_handsOver {d d' : Aoedev} {h : Hands} {f nf old : Frame} (hi : (d.ledger (h.defer f)).Inv)
    (hs : (d.ledger (h.defer f)).Stowed) (hr : reassignFrame d f = (d', some (nf, old))) : HandedOver d' h f nf old := by
  have hcases := reassignFrame_cases hi
  rw [hr] at hcases
  obtain ⟨g, hq, -, -, -, -, hp⟩ := hcases
  obtain ⟨hnf, hold⟩ := Prod.mk.inj hp
  have hstowed := (hq.moves.shifts (C := .any)).stowed hi hs
  rw [ledger_hands_hold, ledger_hands_defer] at hstowed
  have hsome : f.skb.isSome := hstowed.carried f (by
    rw [show (((d'.ledger h).defer f).hold g).listed = f ::ₘ (d'.ledger h).listed from listed_defer _ _]
    exact Multiset.mem_cons_self _ _)
  have howners := hstowed.owners
  rw [packets_hold, packets_defer] at howners
  have hnodup : (g.owned + (f.owned + (d'.ledger h).packets) + (d'.skbpool.map Skb.id : Multiset ℕ)).Nodup := by
    have hrange := Multiset.nodup_range (((d'.ledger h).defer f).hold g).pool.made
    rw [← howners] at hrange
    exact hrange
  obtain ⟨skb, hskb⟩ := Option.isSome_iff_exists.mp hsome
  rw [owned_of_some hskb] at hnodup
  have hperm : g.owned + ({skb.id} + (d'.ledger h).packets) + (d'.skbpool.map Skb.id : Multiset ℕ) =
      skb.id ::ₘ (g.owned + (d'.ledger h).packets + (d'.skbpool.map Skb.id : Multiset ℕ)) := by
    rw [← Multiset.singleton_add]
    abel
  rw [hperm, Multiset.nodup_cons, Multiset.mem_add, Multiset.mem_add, not_or, not_or] at hnodup
  obtain ⟨⟨⟨hg, hpackets⟩, hpool⟩, -⟩ := hnodup
  have hpacket : f.packet = some skb.id := by
    rw [Frame.packet, hskb]
    rfl
  refine ⟨⟨by rw [hnf], hsome⟩, ⟨by rw [hnf], by rw [hnf]⟩, ?_, fun i hi => ?_⟩
  · rw [hpacket]
    intro heq
    have hgp : g.packet = some skb.id := by
      rw [← heq, hold]
      rfl
    refine hg ?_
    rw [Frame.owned, hgp]
    exact Multiset.mem_singleton_self _
  · obtain rfl : skb.id = i := Option.some.inj (hpacket.symm.trans hi)
    exact ⟨hpackets, hpool⟩

/-- All packets of one command are equal but for the addresses, the interface and the tag, from the first to the last,
and stand for the same range; the addresses are those of the target and its current interface, the tag is that of the
frame. Frames that may be sent again still carry their command. -/
structure Retransmitted (d : Aoedev) : Prop where
  same : ∀ s ∈ d.hist.sends, ∃ s' ∈ d.hist.sends, s'.first = true ∧ s'.frame.cmd = s.frame.cmd ∧
    s'.frame.command = s.frame.command
  addressed : ∀ s ∈ d.hist.sends, s.tgt.nd.isSome ∧ Addressed s.tgt s.frame
  listed : ∀ f ∈ d.listedFrames, f.hdrTag = some f.tag ∧
    ∃ s ∈ d.hist.sends, s.first = true ∧ s.frame.cmd = f.cmd ∧ s.frame.command = f.command

/-- Retransmission preserves the command in every run; where a command goes to another frame, at any moment inside a
section, its packet goes with it and has that one owner; and all packets have one owner. -/
theorem retransmission_faithful : (∀ d, Reached d → Retransmitted d ∧ PacketsOwned d) ∧
    ∀ d h f, Midsection d (h.defer f) → ∀ d' nf old, reassignFrame d f = (d', some (nf, old)) →
      HandedOver d' h f nf old := by
  refine ⟨fun d hd => ⟨?_, (reachedBy_stowed hd).packetsOwned⟩, fun d h f hm d' nf old hr => ?_⟩
  · have hl := reachedBy_faithful hd
    have ht := reached_tabled hd
    have hfirst {s : Send} (hs : s ∈ d.hist.sends) : ∃ s' ∈ d.hist.sends, s'.first = true ∧
        s'.frame.cmd = s.frame.cmd ∧ s'.frame.command = s.frame.command := by
      obtain ⟨s', hs', hf, hcmd⟩ := hl.first s hs
      exact ⟨s', hs', hf, hcmd, hl.same s hs s' hs' hcmd⟩
    refine ⟨fun s => hfirst, fun s hs => ?_, fun f hf => ?_⟩
    · obtain ⟨hsome, -, ha⟩ := ht.sends s hs
      exact ⟨hsome, ha⟩
    · rw [← Multiset.mem_coe, coe_listedFrames] at hf
      obtain ⟨s, hs, hcmd, hcommand⟩ := hl.listed f hf
      obtain ⟨s', hs', hfirst', hcmd', hcommand'⟩ := hfirst hs
      have htag := (reached_tagged hd).hdr f hf
      exact ⟨htag, s', hs', hfirst', hcmd'.trans hcmd, hcommand'.trans hcommand⟩
  · exact reassignFrame_handsOver hm.valid.1 hm.stowed hr

private theorem midsection_defer {d : Aoedev} {f : Frame} {rest : List Frame} (hd : Reached d)
    (hq : d.rexmitq = f :: rest) : Midsection { d with rexmitq := rest } (Hands.defer 0 f) := by
  have hl : Aoedev.ledger { d with rexmitq := rest } (Hands.defer 0 f) = d.ledger 0 := by
    have hzero : (0 : Hands).deferred = 0 := rfl
    simp only [Aoedev.ledger, Hands.defer, hq, hzero]
    rw [← Multiset.cons_coe, add_zero, Multiset.add_cons, add_zero]
  have hquiet : Quiet 0 d (Hands.defer 0 f) { d with rexmitq := rest } := Quiet.of_eq hl rfl rfl
  exact ⟨d, d.env, hd, (hquiet.inner (reachedBy_good hd).1.inv).toRuns, .refl _⟩

/-- Three writes time out; one of them is sent again, then another target is found. -/
def reassignedEvents : List Event :=
  sampleUp ++ [.blkOpen, .blkQueue sampleRq, .blkRun default, .clock 20000000 20000, .rexmitTimer default,
    .cfgRsp { sampleCfg with src := 2 }] ++ sampleRun 0 2

def reassignedScene : Scene unguarded sampleStart reassignedEvents (fun d => d.hist.sends.any (!·.first) &&
    (d.rexmitq.head?.any fun f => (reassignFrame { d with rexmitq := d.rexmitq.tail } f).2.isSome)) := ⟨by decide +kernel⟩

theorem retransmission_faithful_sample : ∃ d, Reached d ∧ (∃ s ∈ d.hist.sends, s.first = false) ∧ Retransmitted d ∧
    PacketsOwned d ∧ ∃ f rest d' nf old, d.rexmitq = f :: rest ∧
      reassignFrame { d with rexmitq := rest } f = (d', some (nf, old)) ∧ HandedOver d' 0 f nf old := by
  obtain ⟨d, -, hreach, htest⟩ := reassignedScene.last sampleStart_initial
  have hd : Reached d := hreach.mono fun _ _ _ _ => trivial
  obtain ⟨hagain, hhead⟩ := Bool.and_eq_true_iff.mp htest
  obtain ⟨s, hs, hfirst⟩ := List.any_eq_true.mp hagain
  obtain ⟨hall, hover⟩ := retransmission_faithful
  cases hq : d.rexmitq with
  | nil =>
    rw [hq] at hhead
    exact absurd hhead Bool.false_ne_true
  | cons f rest =>
    rw [hq, List.head?_cons, List.tail_cons] at hhead
    obtain ⟨⟨nf, old⟩, hp⟩ := Option.isSome_iff_exists.mp hhead
    have hr : reassignFrame { d with rexmitq := rest } f =
        ((reassignFrame { d with rexmitq := rest } f).1, some (nf, old)) := Prod.ext rfl hp
    refine ⟨d, hd, ⟨s, hs, by simpa using hfirst⟩, (hall d hd).1, (hall d hd).2, f, rest, _, nf, old, hq, hr, ?_⟩
    exact hover _ 0 f (midsection_defer hd hq) _ nf old hr

end AoeDriver
