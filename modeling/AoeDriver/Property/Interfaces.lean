import AoeDriver.Traffic.Wiring
import AoeDriver.Traffic.Events

/-!
# The interface tables of the targets

The interfaces of a target fill its table from slot 0 on, each of them once and with one reference. The current slot is
inside the table, but only a rotation makes sure that it is not empty.
-/

namespace AoeDriver

open Tables

section Tabled

variable {G : Gate} {l l' : Traffic}

theorem Sent.on_interface {s : Send} (h : Sent l s) (hw : ∀ t ∈ l.targets, Wired t) :
    s.tgt.nd.isSome ∧ s.tgt.ifp < NAOEIFS ∧ Addressed s.tgt s.frame := by
  have hrotated {i : ℕ} (hi : i < l.targets.length) :
      (ifrotate (l.tgt i)).1.nd.isSome ∧ (ifrotate (l.tgt i)).1.ifp < NAOEIFS := by
    have hwired : Wired (l.tgt i) := hw _ (mem_of_getD hi)
    exact ifrotate_nd (ifrotate_live hwired.live)
  cases h with
  | fresh hlt _ _ _ _ ha => exact ⟨(hrotated hlt).1, (hrotated hlt).2, ha.congr rfl rfl⟩
  | probe hlt _ _ _ _ ha => exact ⟨(hrotated hlt).1, (hrotated hlt).2, ha.congr rfl rfl⟩
  | again _ hlt _ _ _ ha => exact ⟨(hrotated hlt).1, (hrotated hlt).2, ha.congr rfl rfl⟩

structure Tabled (l : Traffic) : Prop where
  wired : ∀ t ∈ l.targets, Wired t
  devs : ∀ f ∈ l.active, (f.skb.getD default).dev.isSome
  balanced : Balanced l
  sends : ∀ s ∈ l.sends, s.tgt.nd.isSome ∧ s.tgt.ifp < NAOEIFS ∧ Addressed s.tgt s.frame
  nullNd : l.nullNd = false
  stranded : l.stranded = false

theorem Act.tabled (h : Act G l l') (ht : Tabled l) : Tabled l' := by
  refine ⟨wired_kept.act h ht.wired, ?_, (h.rewiring ht.wired ht.devs).balanced ht.wired ht.balanced,
    h.forall_sends ht.sends fun s hs => hs.on_interface ht.wired, ?_, ?_⟩
  · intro f hf
    rcases h.active hf with hf | ⟨s, hs, -, hstamp⟩
    · exact ht.devs f hf
    · obtain ⟨hsome, -, ha⟩ := hs.on_interface ht.wired
      obtain ⟨sent, jiffs, rfl⟩ := hstamp
      rw [← ha.dev] at hsome
      exact hsome
  · rcases h.sends with ⟨-, hn⟩ | ⟨s, hs, -, hn⟩
    · rw [hn]
      exact ht.nullNd
    · obtain ⟨nd, hnd⟩ := Option.isSome_iff_exists.mp (hs.on_interface ht.wired).1
      rw [hn, ht.nullNd, hnd]
      rfl
  · rcases h.stranded with hs | ⟨i, hi, hrot⟩
    · rw [hs]
      exact ht.stranded
    · have hwired : Wired (l.tgt i) := ht.wired _ (mem_of_getD hi)
      rw [ifrotate_live hwired.live] at hrot
      exact absurd hrot (by simp)

theorem tabled_blank : Tabled Traffic.blank := by
  refine ⟨?_, ?_, ?_, ?_, rfl, rfl⟩
  · exact fun t ht => absurd ht List.not_mem_nil
  · exact fun f hf => absurd hf (Multiset.notMem_zero f)
  · intro i nd
    have htgt : Traffic.blank.tgt i = default := tgt_default (Nat.zero_le i)
    rw [htgt]
    rfl
  · exact fun s hs => absurd hs List.not_mem_nil

theorem reached_tabled {ok : Aoedev → Event → Aoedev → Prop} {d : Aoedev} (h : ReachedBy ok d) : Tabled (d.traffic 0) :=
  reachedBy_traffic (fun s e _ _ => Gate.meets_any s e) tabled_blank (fun _ _ => Act.tabled) h

end Tabled

/-- The interface tables of a device, and what they make sure of: references are taken for populated slots only, every
packet has left on an interface, no frame was given up for want of one and no NULL pointer was followed. -/
structure Interfaces (d : Aoedev) : Prop where
  slots : ∀ t ∈ d.targets, t.ifs.length = NAOEIFS ∧
    ∃ n ≤ NAOEIFS, 0 < n ∧ ∀ i < NAOEIFS, (t.ifAt i).nd.isSome ↔ i < n
  distinct : ∀ t ∈ d.targets, ∀ i j nd, (t.ifAt i).nd = some nd → (t.ifAt j).nd = some nd → i = j
  references : ∀ i < d.targets.length, ∀ nd, d.hist.holds.count (i, nd) =
    (d.hist.ejects.countP fun x => x.t = i ∧ (x.tgt.ifAt x.slot).nd = some nd) +
      if some nd ∈ (d.tgtAt i).nds then 1 else 0
  current : ∀ t ∈ d.targets, t.ifp < NAOEIFS ∧ (ifrotate t).2 = true ∧ (ifrotate t).1.ifp < NAOEIFS ∧
    (ifrotate t).1.nd.isSome
  packets : ∀ s ∈ d.hist.sends, s.tgt.nd.isSome ∧ s.tgt.ifp < NAOEIFS ∧ (s.frame.skb.getD default).dev = s.tgt.nd ∧
    (s.frame.skb.getD default).hdr.src = (s.tgt.nd.getD default).devAddr
  stranded : d.hist.stranded = false
  nullNd : d.hist.nullNd = false

theorem Tabled.interfaces {d : Aoedev} (h : Tabled (d.traffic 0)) : Interfaces d := by
  have hwired {t : Aoetgt} (ht : t ∈ d.targets) : Wired t := by
    have hbare : t.bare ∈ (d.traffic 0).targets := List.mem_map_of_mem ht
    exact (h.wired t.bare hbare).congr rfl rfl
  refine ⟨?_, ?_, ?_, ?_, ?_, h.stranded, h.nullNd⟩
  · intro t ht
    have hlive := (hwired ht).live
    have hlen := nds_length hlive
    obtain ⟨n, hn, hiff⟩ := packed_length (nds_packed hlive)
    rw [hlen] at hn hiff
    have hslot (i : ℕ) (hi : i < NAOEIFS) : (t.ifAt i).nd.isSome ↔ i < n := by
      rw [ifAt_nd]
      exact hiff i hi
    have hfirst : (t.ifAt 0).nd.isSome := hlive.first
    exact ⟨hlive.len, n, hn, (hslot 0 (by decide)).mp hfirst, hslot⟩
  · intro t ht i j nd hi hj
    rw [ifAt_nd] at hi hj
    exact slot_inj (hwired ht).distinct hi hj
  · intro i hi nd
    have hw : Wired (d.tgtAt i) := hwired (mem_of_getD hi)
    have hb := h.balanced i nd
    rw [tgt_traffic] at hb
    have hone : (entries (d.tgtAt i).nds).count nd = if some nd ∈ (d.tgtAt i).nds then 1 else 0 := by
      rw [Multiset.count_eq_of_nodup hw.distinct]
      simp only [mem_entries]
    rw [← hone]
    exact hb
  · intro t ht
    have hrot := ifrotate_live (hwired ht).live
    obtain ⟨hsome, hlt⟩ := ifrotate_nd hrot
    exact ⟨(hwired ht).ifp, hrot, hlt, hsome⟩
  · intro s hs
    obtain ⟨hsome, hlt, ha⟩ := h.sends s hs
    exact ⟨hsome, hlt, ha.dev, ha.src⟩

/-- The tables are as described in every reachable state, and stay so whatever happens next: no event follows a NULL
interface pointer or finds a target without interface. -/
theorem interface_tables {d : Aoedev} (h : Reached d) :
    Interfaces d ∧ ∀ e d', exec d e = some d' → Interfaces d' := by
  have ht : Tabled (d.traffic 0) := reached_tabled h
  refine ⟨ht.interfaces, fun e d' he => ?_⟩
  have hacts := exec_acts (reachedBy_good h).1 (Gate.meets_any d e) he
  exact (hacts.keeps (fun _ _ => Act.tabled) ht).interfaces

theorem interface_tables_sample : Interfaces sample ∧ ∀ e d', exec sample e = some d' → Interfaces d' :=
  interface_tables sample_reached

section Current

variable {G : Gate} {l l' : Traffic} {t t' : Aoetgt}

/-- `ejectif` closes the gap without moving `ifp`, and nothing is left in the current slot. -/
def Eject.strips (x : Eject) : Bool := x.slot ≤ x.tgt.ifp && (x.tgt.ifAt (x.tgt.ifp + 1)).nd.isNone

private theorem turn_nd (h : Turning G t t') (hw : Wired t) (ht : t.nd.isSome) : t'.nd.isSome := by
  have hcurrent (t : Aoetgt) : t.nd = t.nds.getD t.ifp none := ifAt_nd t t.ifp
  have hnds := turn_nds h
  cases h with
  | rotate => exact (ifrotate_nd (ifrotate_live hw.live)).1
  | stats ha =>
    rw [hcurrent, hnds, ha.ifp, ← hcurrent]
    exact ht
  | grow =>
    rw [hcurrent, hnds, (nds_grow t).2.1, ← hcurrent]
    exact ht
  | collapse => exact ht
  | advertise =>
    split
    · exact ht
    · exact ht

private theorem turns_nd (h : Turnings G t t') (hw : Wired t) (ht : t.nd.isSome) : t'.nd.isSome := by
  have hboth : Wired t' ∧ t'.nd.isSome := by
    induction h with
    | refl => exact ⟨hw, ht⟩
    | tail _ hstep ih => exact ⟨wired_kept.turn _ _ hstep ih.1, turn_nd hstep ih.1 ih.2⟩
  exact hboth.2

/-- After an ejection the current slot is empty only where the ejection has stripped it. -/
private theorem ejectif_nd {i : ℕ} (hlen : t.nds.length = NAOEIFS) (hi : i < NAOEIFS) (ht : t.nd.isSome)
    (hs : ¬ (i ≤ t.ifp ∧ (t.ifAt (t.ifp + 1)).nd = none)) : (ejectif t i).nd.isSome := by
  have hcurrent (t : Aoetgt) : t.nd = t.nds.getD t.ifp none := ifAt_nd t t.ifp
  have hifp : (ejectif t i).ifp = t.ifp := rfl
  have hlt {j : ℕ} (hj : (t.nds.getD j none).isSome) : j < NAOEIFS := by
    by_contra hge
    rw [List.getD_eq_default _ _ (by omega)] at hj
    exact absurd hj Bool.false_ne_true
  have hlast : (t.nds.eraseIdx i).length = NAOEIFS - 1 := by rw [List.length_eraseIdx_of_lt (by omega), hlen]
  rw [hcurrent] at ht
  rw [hcurrent, hifp, nds_ejectif]
  have hp := hlt ht
  by_cases hle : i ≤ t.ifp
  · have hnext : ((t.ifAt (t.ifp + 1)).nd).isSome := by
      rw [Option.isSome_iff_ne_none]
      exact fun hnone => hs ⟨hle, hnone⟩
    rw [ifAt_nd] at hnext
    have hlt' := hlt hnext
    rw [List.getD_append _ _ _ _ (by omega), List.getD_eq_getElem?_getD, List.getElem?_eraseIdx_of_ge hle,
      ← List.getD_eq_getElem?_getD]
    exact hnext
  · have hlt' : t.ifp < i := not_le.mp hle
    rw [List.getD_append _ _ _ _ (by omega), List.getD_eq_getElem?_getD, List.getElem?_eraseIdx_of_lt hlt',
      ← List.getD_eq_getElem?_getD]
    exact ht

private theorem setif_nd {nd : NetDev} {bcnt : ℕ} (hp : Payload bcnt) (hw : Wired t)
    (hset : setifbcntTgt t nd bcnt = some t') (ht : t.nd.isSome) : t'.nd.isSome := by
  have hcurrent (t : Aoetgt) : t.nd = t.nds.getD t.ifp none := ifAt_nd t t.ifp
  obtain ⟨hifp, ⟨-, hnds⟩ | ⟨-, p, hlt, hnone, -, hnds⟩⟩ := setifbcntTgt_nds hp hw.live hset
  · rw [hcurrent, hifp, hnds, ← hcurrent]
    exact ht
  · rw [hcurrent] at ht
    rw [hcurrent, hifp, hnds]
    have hne : p ≠ t.ifp := by
      rintro rfl
      rw [hnone] at ht
      exact absurd ht Bool.false_ne_true
    have hkeep : (t.nds.modify p fun _ => some nd).getD t.ifp none = t.nds.getD t.ifp none := by
      have hget := getD_modify t.nds p t.ifp fun _ => some nd
      rw [if_neg fun h => hne h.1] at hget
      exact hget
    rw [hkeep]
    exact ht

/-- A target whose current slot is empty has been stripped and has sent nothing since. -/
structure Followed (l : Traffic) : Prop where
  sent : ∀ x ∈ l.ejects, x.sent ≤ l.sends.length
  idle : ∀ i < l.targets.length, (l.tgt i).nd.isSome ∨
    ∃ x ∈ l.ejects, x.t = i ∧ x.strips = true ∧ ∀ s ∈ l.sends.drop x.sent, s.frame.t ≠ i

private theorem followed_blank : Followed Traffic.blank := by
  refine ⟨?_, ?_⟩
  · exact fun x hx => absurd hx List.not_mem_nil
  · exact fun i hi => absurd hi (Nat.not_lt_zero i)

theorem Followed.keep (h : Followed l) (hs : l'.sends = l.sends) (he : l'.ejects = l.ejects)
    (hlen : l'.targets.length = l.targets.length) (hnd : ∀ i < l.targets.length, (l.tgt i).nd.isSome → (l'.tgt i).nd.isSome) :
    Followed l' := by
  refine ⟨?_, ?_⟩
  · rw [hs, he]
    exact h.sent
  · rw [hlen, hs, he]
    exact fun i hi => (h.idle i hi).imp (hnd i hi) id

theorem Followed.send (h : Followed l) {s : Send} (hs : l'.sends = l.sends ++ [s]) (he : l'.ejects = l.ejects)
    (hlen : l'.targets.length = l.targets.length) (hsent : (l'.tgt s.frame.t).nd.isSome)
    (hnd : ∀ i, i ≠ s.frame.t → l'.tgt i = l.tgt i) : Followed l' := by
  refine ⟨?_, ?_⟩
  · rw [hs, he, List.length_append]
    exact fun x hx => (h.sent x hx).trans (Nat.le_add_right _ _)
  · rw [hlen, hs, he]
    intro i hi
    by_cases hit : i = s.frame.t
    · rw [hit]
      exact .inl hsent
    · rw [hnd i hit]
      refine (h.idle i hi).imp id ?_
      rintro ⟨x, hx, hxt, hstrip, hnone⟩
      refine ⟨x, hx, hxt, hstrip, ?_⟩
      rw [List.drop_append_of_le_length (h.sent x hx)]
      intro y hy
      rcases List.mem_append.mp hy with hy | hy
      · exact hnone y hy
      · rw [List.mem_singleton.mp hy]
        exact fun heq => hit heq.symm

theorem Act.followed (h : Act G l l') (ht : Tabled l) (hf : Followed l) : Followed l' := by
  have hwired {i : ℕ} (hi : i < l.targets.length) : Wired (l.tgt i) := ht.wired _ (mem_of_getD hi)
  have hmodlen (l : Traffic) (i : ℕ) (g : Aoetgt → Aoetgt) : (l.mod i g).targets.length = l.targets.length :=
    List.length_modify _ _ _
  -- changes of one target that keep its current interface
  have hmod {l m : Traffic} (hf : Followed l) (i : ℕ) {g : Aoetgt → Aoetgt}
      (hg : i < l.targets.length → (l.tgt i).nd.isSome → (g (l.tgt i)).nd.isSome) (hm : m.targets = (l.mod i g).targets)
      (hs : m.sends = l.sends) (he : m.ejects = l.ejects) : Followed m := by
    refine hf.keep hs he (by rw [hm, hmodlen]) fun j hj hsome => ?_
    have htgt : m.tgt j = (l.mod i g).tgt j := by rw [Traffic.tgt, hm, Traffic.tgt]
    rw [htgt, tgt_mod]
    split
    · rename_i hij
      obtain ⟨rfl, -⟩ := hij
      exact hg hj hsome
    · exact hsome
  have hother (l : Traffic) (i : ℕ) (g : Aoetgt → Aoetgt) (j : ℕ) (hj : j ≠ i) : (l.mod i g).tgt j = l.tgt j := by
    rw [tgt_mod, if_neg fun h => hj h.1.symm]
  cases h with
  | @turn _ i g hturn => exact hmod hf i (fun hi => turns_nd hturn (hwired hi)) rfl rfl rfl
  | @send _ f f' cloned w r hw =>
    have hlt := lt_of_window hw
    have hrot := ifrotate_nd (ifrotate_live (hwired hlt).live)
    have htgt := tgt_mod_self (l := l) hlt fun t => (ifrotate t).1.issued w r
    refine hf.send (s := ⟨f, _, true, cloned⟩) rfl rfl (hmodlen l _ _) ?_ (hother l _ _)
    change ((l.mod f.t fun t => (ifrotate t).1.issued w r).tgt f.t).nd.isSome
    rw [htgt]
    exact hrot.1
  | @probe _ f f' cloned w r hlt =>
    have hrot := ifrotate_nd (ifrotate_live (hwired hlt).live)
    have hmm := mod_mod l f.t (fun t => (ifrotate t).1.issued w r) Aoetgt.probed
    have htgt := tgt_mod_self (l := l) hlt fun t => ((ifrotate t).1.issued w r).probed
    have hat (j : ℕ) := congrArg (fun m => Traffic.tgt m j) hmm
    refine hf.send (s := ⟨f, _, true, cloned⟩) rfl rfl ?_ ?_ ?_
    · have hl := congrArg (fun m => m.targets.length) hmm
      exact hl.trans (hmodlen l _ _)
    · have hsome : (((l.mod f.t fun t => (ifrotate t).1.issued w r).mod f.t Aoetgt.probed).tgt f.t).nd.isSome := by
        rw [hmm, htgt]
        exact hrot.1
      exact hsome
    · exact fun j hj => (hat j).trans (hother l _ _ j hj)
  | @miss _ i => exact hmod hf i (fun _ h => h) rfl rfl rfl
  | @eject _ x f hx hi hifp hnds hsent hfa hdev =>
    refine ⟨?_, ?_⟩
    · intro y hy
      rcases List.mem_append.mp hy with hy | hy
      · exact hf.sent y hy
      · rw [List.mem_singleton.mp hy]
        exact hsent.le
    · intro i hlt
      replace hlt : i < l.targets.length := by
        rw [← hmodlen l x.t fun t => ejectif t x.slot]
        exact hlt
      have htgt := tgt_mod l x.t i fun t => ejectif t x.slot
      change ((l.mod x.t fun t => ejectif t x.slot).tgt i).nd.isSome ∨ _
      rw [htgt]
      have hold : (∃ y ∈ l.ejects, y.t = i ∧ y.strips = true ∧ ∀ s ∈ l.sends.drop y.sent, s.frame.t ≠ i) →
          ∃ y ∈ l.ejects ++ [x], y.t = i ∧ y.strips = true ∧ ∀ s ∈ l.sends.drop y.sent, s.frame.t ≠ i := by
        rintro ⟨y, hy, h⟩
        exact ⟨y, List.mem_append_left _ hy, h⟩
      by_cases hix : x.t = i
      · subst hix
        rw [if_pos ⟨rfl, hlt⟩]
        by_cases hstrip : x.strips = true
        · refine .inr ⟨x, List.mem_append_right _ (List.mem_singleton_self x), rfl, hstrip, ?_⟩
          rw [hsent]
          have hnil : l.sends.drop l.sends.length = [] := List.drop_length
          change ∀ s ∈ l.sends.drop l.sends.length, s.frame.t ≠ x.t
          rw [hnil]
          exact fun s hs => absurd hs List.not_mem_nil
        · refine (hf.idle x.t hlt).imp (fun hsome => ?_) hold
          refine ejectif_nd (nds_length (hwired hlt).live) hx hsome ?_
          rintro ⟨hle, hnone⟩
          refine hstrip ?_
          rw [Eject.strips, Bool.and_eq_true, hifp, ifAt_nd, hnds, ← ifAt_nd, hnone]
          exact ⟨decide_eq_true hle, rfl⟩
      · rw [if_neg fun h => hix h.1]
        exact (hf.idle i hlt).imp id hold
  | @expire l f =>
    have hf' : Followed l := ⟨hf.sent, hf.idle⟩
    refine hmod (g := Aoetgt.settled f) hf' f.t (fun _ hsome => ?_) rfl rfl rfl
    rw [nd_settled]
    exact hsome
  | @resend l f f' f'' cloned hw hrot hr =>
    have hlt := lt_of_window hw
    have htgt : (l.mod f.t fun t => (ifrotate t).1.resumed f).tgt f'.t = (ifrotate (l.tgt f.t)).1.resumed f := by
      rw [hr.t]
      exact tgt_mod_self hlt _
    have hf' : Followed l := ⟨hf.sent, hf.idle⟩
    refine hf'.send (s := ⟨f', _, false, cloned⟩) rfl rfl (hmodlen l _ _) ?_ ?_
    · have hsome : ((l.mod f.t fun t => (ifrotate t).1.resumed f).tgt f'.t).nd.isSome := by
        rw [htgt]
        exact (ifrotate_nd hrot).1
      exact hsome
    · intro j hj
      have hj' : j ≠ f.t := fun h => hj (h.trans hr.t.symm)
      exact hother l _ _ j hj'
  | @strand l f =>
    have hf' : Followed l := ⟨hf.sent, hf.idle⟩
    exact hmod hf' f.t (fun _ hsome => hsome) rfl rfl rfl
  | takeOver => exact ⟨hf.sent, hf.idle⟩
  | leave => exact ⟨hf.sent, hf.idle⟩
  | @answer l f =>
    have hf' : Followed l := ⟨hf.sent, hf.idle⟩
    refine hmod (g := Aoetgt.settled f) hf' f.t (fun _ hsome => ?_) rfl rfl rfl
    rw [nd_settled]
    exact hsome
  | @add _ t addr n nd bcnt _ _ _ _ hset =>
    refine ⟨hf.sent, fun i hi => ?_⟩
    have hnew : t.nd.isSome := by
      rw [(newTarget_nds hset).2.2]
      rfl
    have htgt : (Traffic.tgt { l with
        targets := l.targets ++ [t], maxbcnt := setdbcntLoop 0 (l.targets ++ [t])
        holds := l.holds ++ [(l.targets.length, nd)] } i) = (l.targets ++ [t]).getD i default := rfl
    rw [htgt]
    by_cases hlt : i < l.targets.length
    · rw [List.getD_append _ _ _ _ hlt]
      exact hf.idle i hlt
    · have hlast : i = l.targets.length := by
        have hle : i < l.targets.length + 1 := by simpa using hi
        omega
      subst hlast
      rw [List.getD_append_right _ _ _ _ le_rfl, Nat.sub_self]
      exact .inl hnew
  | @setif _ i t nd bcnt hi _ hp hset =>
    exact hmod (g := fun _ => t) hf i (fun hi => setif_nd hp (hwired hi) hset) rfl rfl rfl
  | clean =>
    refine hf.keep rfl rfl (List.length_map _) fun i hi hsome => ?_
    rw [tgt_map (l := l) hi rfl]
    exact hsome
  | down =>
    refine hf.keep rfl rfl (List.length_map _) fun i hi hsome => ?_
    rw [tgt_map (l := l) (g := fun t => { aoecmdWreset t with nout := 0 }) hi rfl]
    exact hsome

/-- Every ejection that strips the current slot of a target is followed, in the same section, by a packet to it. -/
def repairs (d : Aoedev) (e : Event) : Bool :=
  (exec d e).all fun d' => (d'.hist.ejects.drop d.hist.ejects.length).all fun x =>
    !x.strips || (d'.hist.sends.drop x.sent).any fun s => s.frame.t = x.t

/-- All ejections of a run, with the packets that followed them. -/
def Repaired (d : Aoedev) : Prop :=
  ∀ x ∈ d.hist.ejects, x.strips = true → ∃ s ∈ d.hist.sends.drop x.sent, s.frame.t = x.t

theorem Acts.grows (h : Acts G l l') : (∃ a, l'.sends = l.sends ++ a) ∧ ∃ b, l'.ejects = l.ejects ++ b := by
  induction h with
  | refl => exact ⟨⟨[], (List.append_nil _).symm⟩, [], (List.append_nil _).symm⟩
  | tail _ hstep ih =>
    obtain ⟨⟨a, ha⟩, b, hb⟩ := ih
    refine ⟨?_, ?_⟩
    · rcases hstep.sends with ⟨hs, -⟩ | ⟨s, -, hs, -⟩
      · exact ⟨a, hs.trans ha⟩
      · exact ⟨a ++ [s], by rw [hs, ha, List.append_assoc]⟩
    · cases hstep with
      | @eject _ x => exact ⟨b ++ [x], by rw [← List.append_assoc, ← hb]; rfl⟩
      | _ => exact ⟨b, hb⟩

private theorem reached_followed {ok : Aoedev → Event → Aoedev → Prop} {d : Aoedev} (h : ReachedBy ok d) :
    Followed (d.traffic 0) := by
  have hboth := reachedBy_traffic (P := fun l => Tabled l ∧ Followed l) (fun s e _ _ => Gate.meets_any s e)
    ⟨tabled_blank, followed_blank⟩ (fun _ _ hact hl => ⟨hact.tabled hl.1, hact.followed hl.1 hl.2⟩) h
  exact hboth.2

private theorem reached_repaired {d : Aoedev} (h : ReachedBy (fun d e _ => repairs d e) d) : Repaired d := by
  refine Machine.Reach.invariant (P := Repaired) ?_ ?_ h
  · intro s hs x hx
    have hnil : s.hist.ejects = [] := congrArg Traffic.ejects (initial_traffic hs)
    rw [hnil] at hx
    exact absurd hx List.not_mem_nil
  · intro s e s' hreach hrep hguard hstep x hx hstrip
    obtain ⟨⟨a, ha⟩, b, hb⟩ := (exec_acts (reachedBy_good hreach).1 (Gate.meets_any s e) hstep.1).grows
    replace ha : s'.hist.sends = s.hist.sends ++ a := ha
    replace hb : s'.hist.ejects = s.hist.ejects ++ b := hb
    rw [hb] at hx
    rcases List.mem_append.mp hx with hx | hx
    · have hle : x.sent ≤ s.hist.sends.length := (reached_followed hreach).sent x hx
      obtain ⟨y, hy, hyt⟩ := hrep x hx hstrip
      refine ⟨y, ?_, hyt⟩
      rw [ha, List.drop_append_of_le_length hle]
      exact List.mem_append_left _ hy
    · rw [repairs, hstep.1, Option.all_some, hb, List.drop_left, List.all_eq_true] at hguard
      have hx' := hguard x hx
      rw [hstrip, Bool.not_true, Bool.false_or, List.any_eq_true] at hx'
      obtain ⟨y, hy, hyt⟩ := hx'
      exact ⟨y, hy, of_decide_eq_true hyt⟩

/-- As long as every ejection that strips the current slot is followed by a packet to the target in the same section,
the current interface of every target is there. -/
theorem current_interface {d : Aoedev} (h : ReachedBy (fun d e _ => repairs d e) d) : ∀ t ∈ d.targets, t.nd.isSome := by
  intro t ht
  obtain ⟨i, hi, rfl⟩ := List.getElem_of_mem ht
  have hlt : i < (d.traffic 0).targets.length := by simpa [Aoedev.traffic] using hi
  have htgt : (d.traffic 0).tgt i = (d.targets[i]).bare := by
    rw [tgt_traffic, Aoedev.tgtAt, List.getD_eq_getElem _ _ hi]
  rcases (reached_followed h).idle i hlt with hsome | ⟨x, hx, hxt, hstrip, hnone⟩
  · rw [htgt] at hsome
    exact hsome
  · obtain ⟨y, hy, hyt⟩ := reached_repaired h x hx hstrip
    exact absurd (hyt.trans hxt) (hnone y hy)

/-- The sample run takes no interface away. -/
def sampleRepairs : Scene repairs sampleStart sampleEvents (fun d => d.targets.length == 1) := ⟨by decide +kernel⟩

theorem current_interface_sample : ∃ d, ReachedBy (fun d e _ => repairs d e) d ∧ d.targets.length = 1 ∧
    ∀ t ∈ d.targets, t.nd.isSome := by
  obtain ⟨d, -, hreach, htest⟩ := sampleRepairs.last sampleStart_initial
  exact ⟨d, hreach, beq_iff_eq.mp htest, current_interface hreach⟩

def strippedStart : Aoedev := initial 1 2 4 180 128 ⟨10^9, 500000, 1000⟩ { sampleCfg with bufcnt := 16 }

def secondNd : NetDev := ⟨2, 6⟩

/-- A write of `n` frames. -/
def writeRq (id n : ℕ) : Request :=
  { id := id, write := true, special := 0
    bios := [{ vecs := [⟨0, 0, n * 1024⟩], iter := ⟨8, n * 1024, 0, 0⟩, error := false }] }

/-- Five packets time out at a target that has lowered its buffer count to 1; two more keep its window full. -/
def strippedEvents : List Event :=
  sampleUp ++ [.blkOpen, .cfgRsp { sampleCfg with bufcnt := 16, dev := secondNd }] ++ sampleRun 0 2 ++
    [.blkQueue (writeRq 7 5), .blkRun default, .clock 10000000 10000, .blkQueue (writeRq 8 2), .blkRun default,
      .cfgRsp { sampleCfg with bufcnt := 1 }] ++ sampleRun 0 2 ++ [.clock 5000000 5000, .rexmitTimer default]

def strippedScene : Scene unguarded strippedStart strippedEvents
    (fun d => d.targets.any fun t => decide ((t.ifAt 0).nd.isSome ∧ t.ifp = 1 ∧ t.nd = none)) := ⟨by decide +kernel⟩

/-- The current slot is empty although the target has an interface. -/
theorem current_interface_stripped : ∃ d, Reached d ∧ ∃ t ∈ d.targets, (t.ifAt 0).nd.isSome ∧ t.nd = none := by
  obtain ⟨d, -, hreach, htest⟩ := strippedScene.last ⟨_, _, _, _, _, _, _, rfl⟩
  obtain ⟨t, ht, hc⟩ := List.any_eq_true.mp htest
  obtain ⟨hfirst, -, hnone⟩ := of_decide_eq_true hc
  exact ⟨d, hreach.mono fun _ _ _ _ => trivial, t, ht, hfirst, hnone⟩

end Current

end AoeDriver
