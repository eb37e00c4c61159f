import AoeDriver.Ledger.Tags

/-!
# Packets in the ledger

Every packet ever made belongs to one frame or is in the pool. A frame gets another packet only in exchange for its own:
with the pool in `newtframe`, with another frame in `reassign_frame`.
-/

namespace AoeDriver

open Tables Ledger

/-- The packet of a frame, if it has one. -/
def Frame.owned (f : Frame) : Multiset ℕ := f.packet.elim 0 fun i => {i}

namespace Ledger

def packets (l : Ledger) : Multiset ℕ := l.all.bind Frame.owned

section Parts

variable (l : Ledger) (f : Frame) (i : ℕ) (g : Slot → Slot)

private theorem packets_modSlot (hg : ∀ s, (g s).free = s.free) : (l.modSlot i g).packets = l.packets := by
  unfold packets all modSlot
  rw [map_modify_same _ _ _ _ hg]
  rfl

private theorem packets_put (h : f.t < l.slots.length) : (l.put f).packets = f.owned + l.packets := by
  unfold packets all put modSlot
  rw [sum_map_modify _ _ _ Slot.free {f} h (fun s => by simp), add_assoc, Multiset.singleton_add, Multiset.cons_bind]
  rfl

private theorem packets_of_inPlay {m : Ledger} (hs : m.slots = l.slots) (hp : m.inPlay = f ::ₘ l.inPlay) :
    m.packets = f.owned + l.packets := by
  unfold packets all
  rw [hs, hp, Multiset.add_cons, Multiset.cons_bind]

private theorem packets_act : (l.act f).packets = f.owned + l.packets := packets_of_inPlay l f rfl (inPlay_act l f)
theorem packets_defer : (l.defer f).packets = f.owned + l.packets := packets_of_inPlay l f rfl (inPlay_defer l f)
theorem packets_hold : (l.hold f).packets = f.owned + l.packets := packets_of_inPlay l f rfl (inPlay_hold l f)
private theorem packets_shelve :
    (l.shelve f).packets = f.owned + l.packets := packets_of_inPlay l f rfl (inPlay_shelve l f)

end Parts

/-- Where the packets are, and how the pool is linked. -/
structure Stowed (l : Ledger) : Prop where
  owners : l.packets + (l.pool.ids : Multiset ℕ) = Multiset.range l.pool.made
  linked : l.pool.links.Holds l.pool.ids
  count : l.pool.ids.length = l.pool.count
  max : l.pool.count ≤ NSKBPOOLMAX
  carried : ∀ f ∈ l.listed, f.skb.isSome

end Ledger

section Owned

variable {f f' : Frame}

private theorem owned_congr (h : f'.packet = f.packet) : f'.owned = f.owned := by
  unfold Frame.owned
  rw [h]

theorem owned_of_some {s : Skb} (h : f.skb = some s) : f.owned = {s.id} := by
  unfold Frame.owned Frame.packet
  rw [h]
  rfl

private theorem owned_filled (hs : f.skb.isSome) (h : f'.packet = some (f.skb.getD default).id) :
    f'.owned = f.owned ∧ f'.skb.isSome := by
  obtain ⟨s, hskb⟩ := Option.isSome_iff_exists.mp hs
  rw [hskb, Option.getD_some] at h
  refine ⟨owned_congr ?_, ?_⟩
  · rw [h, Frame.packet, hskb]
    rfl
  · have hsome := congrArg Option.isSome h
    rwa [Frame.packet, Option.isSome_map] at hsome

end Owned

section Moves

variable {C : Cond} {quiet : Bool} {l l' : Ledger} {f : Frame}

theorem Ledger.Stowed.keep (h : l.Stowed) (hp : l'.packets = l.packets) (hpool : l'.pool = l.pool)
    (hc : ∀ f ∈ l'.listed, f ∈ l.listed ∨ f.skb.isSome) : l'.Stowed := by
  refine ⟨?_, ?_, ?_, ?_, fun f hf => ?_⟩
  · rw [hp, hpool]
    exact h.owners
  · rw [hpool]
    exact h.linked
  · rw [hpool]
    exact h.count
  · rw [hpool]
    exact h.max
  · rcases hc f hf with hf | hs
    · exact h.carried f hf
    · exact hs

theorem Ledger.Stowed.restock {skb : Option Skb} {p : Pool} (h : (l.hold f).Stowed)
    (hs : Restock l.pool f.packet p (skb.map Skb.id)) :
    Ledger.Stowed ({ l with pool := p }.hold { f with skb := skb }) := by
  let f' : Frame := { f with skb := skb }
  have hpackets : ({ l with pool := p }.hold f').packets = f'.owned + l.packets := packets_hold { l with pool := p } f'
  have hpacket : f'.packet = skb.map Skb.id := rfl
  have howners : f.owned + l.packets + (l.pool.ids : Multiset ℕ) = Multiset.range l.pool.made := by
    rw [← packets_hold]
    exact h.owners
  have hlisted : ∀ g ∈ ({ l with pool := p }.hold f').listed, g.skb.isSome := h.carried
  have hnodup : (f.owned + l.packets + (l.pool.ids : Multiset ℕ)).Nodup := by
    have hrange := Multiset.nodup_range l.pool.made
    rwa [← howners] at hrange
  have hnew {i : ℕ} (hi : f.packet = some i) : i ∉ l.pool.ids := by
    have hf : f.owned = {i} := by
      unfold Frame.owned
      rw [hi]
      rfl
    rw [hf, add_assoc, Multiset.singleton_add, Multiset.nodup_cons, Multiset.mem_add, not_or] at hnodup
    exact fun hmem => hnodup.1.2 hmem
  have hown {i : ℕ} {g : Frame} (hi : g.packet = some i) : g.owned = {i} := by
    unfold Frame.owned
    rw [hi]
    rfl
  rw [← hpacket] at hs
  generalize hq : f.packet = q at hs
  generalize hq' : f'.packet = q' at hs
  cases hs with
  | make =>
    have hf : f.owned = 0 := by
      unfold Frame.owned
      rw [hq]
      rfl
    refine ⟨?_, h.linked, h.count, h.max, hlisted⟩
    rw [hpackets, hown hq', Multiset.singleton_add, Multiset.cons_add]
    rw [hf, zero_add] at howners
    exact (congrArg (l.pool.made ::ₘ ·) howners).trans (Multiset.range_succ _).symm
  | keep =>
    refine ⟨?_, h.linked, h.count, h.max, hlisted⟩
    rw [hpackets, owned_congr (hq'.trans hq.symm)]
    exact howners
  | @swap i j rest hids =>
    have hold : l.pool.links.Holds (j :: rest) := hids ▸ h.linked
    have hrest : i ∉ rest := by
      have hi := hnew hq
      rw [hids] at hi
      exact fun hmem => hi (List.mem_cons_of_mem j hmem)
    have hlen := h.count
    change l.pool.ids.length = l.pool.count at hlen
    refine ⟨?_, hold.get.put hrest, ?_, h.max, hlisted⟩
    · rw [hpackets, hown hq']
      rw [hown hq, hids] at howners
      refine Eq.trans ?_ howners
      change {j} + l.packets + ((rest ++ [i] : List ℕ) : Multiset ℕ) = _
      rw [← Multiset.coe_add, Multiset.coe_singleton, ← Multiset.cons_coe, ← Multiset.singleton_add]
      abel
    · change (rest ++ [i]).length = l.pool.count
      rw [← hlen, hids]
      simp
  | @grow i hc =>
    have hlen := h.count
    change l.pool.ids.length = l.pool.count at hlen
    have hlinked : l.pool.links.Holds l.pool.ids := h.linked
    refine ⟨?_, hlinked.put (hnew hq), ?_, hc, hlisted⟩
    · rw [hpackets, hown hq']
      rw [hown hq] at howners
      change {l.pool.made} + l.packets + ((l.pool.ids ++ [i] : List ℕ) : Multiset ℕ) = Multiset.range (l.pool.made + 1)
      rw [Multiset.range_succ]
      rw [← howners, ← Multiset.coe_add, Multiset.coe_singleton, ← Multiset.singleton_add]
      abel
    · change (l.pool.ids ++ [i]).length = l.pool.count + 1
      rw [← hlen]
      simp

theorem Move.stowed (m : Move quiet l l') (hi : l.Inv) (h : l.Stowed) : l'.Stowed := by
  have hsame {l l' : Ledger} (hl : l'.listed = l.listed) : ∀ f ∈ l'.listed, f ∈ l.listed ∨ f.skb.isSome := by
    rw [hl]
    exact fun f hf => .inl hf
  have hmore {l : Ledger} {g : Frame} {s : Multiset Frame} (hs : s ≤ l.listed) (hg : g.skb.isSome) :
      ∀ f ∈ g ::ₘ s, f ∈ l.listed ∨ f.skb.isSome := by
    intro f hf
    rcases Multiset.mem_cons.mp hf with rfl | hf
    · exact .inr hg
    · exact .inl (Multiset.mem_of_le hs hf)
  cases m with
  | @alloc _ f hcap hid ht hf hs =>
    refine h.keep ?_ rfl (hsame rfl)
    have hnone : f.owned = 0 := by
      unfold Frame.owned Frame.packet
      rw [hs]
      rfl
    rw [packets_put _ _ (by simpa using ht), packets_modSlot, hnone, zero_add]
    · rfl
    · exact fun _ => rfl
  | @take l f ht =>
    refine h.keep ?_ rfl (hsame rfl)
    rw [packets_hold, packets_put _ _ ht]
  | reskb hf hs => exact h.restock hs
  | @giveBack l f hf =>
    have ht : f.t < l.slots.length := hi.t_lt (by simp [keys_hold])
    refine h.keep ?_ rfl (hsame rfl)
    rw [packets_hold, packets_put _ _ ht]
  | @send l f f' hf hiss hb hp hs =>
    obtain ⟨howned, hsome⟩ := owned_filled hs hiss.packet
    refine h.keep ?_ rfl ?_
    · rw [packets_act, packets_modSlot, packets_hold, howned]
      · rfl
      · exact fun _ => rfl
    · rw [listed_act]
      exact hmore le_rfl hsome
  | @probe l f f' hf hiss hb hp hs =>
    obtain ⟨howned, hsome⟩ := owned_filled hs hiss.packet
    refine h.keep ?_ rfl ?_
    · rw [packets_act, packets_modSlot, packets_hold, howned]
      · rfl
      · exact fun _ => rfl
    · rw [listed_act]
      exact hmore le_rfl hsome
  | miss i =>
    refine h.keep ?_ rfl (hsame rfl)
    rw [packets_modSlot]
    · rfl
    · exact fun _ => rfl
  | @expire l f w hw hm =>
    refine h.keep ?_ rfl (hsame ?_)
    · rw [packets_defer, packets_modSlot, packets_act]
      exact fun _ => rfl
    · rw [listed_defer, listed_act]
      rfl
  | @resend l f f' hr =>
    have hs : f.skb.isSome := h.carried f (by simp [listed_defer])
    obtain ⟨howned, hsome⟩ := owned_filled hs hr.packet
    refine h.keep ?_ rfl ?_
    · rw [packets_act, packets_modSlot, packets_defer, howned]
      · rfl
      · exact fun _ => rfl
    · rw [listed_act]
      refine hmore ?_ hsome
      rw [listed_defer]
      exact Multiset.le_cons_self _ _
  | @reassign l f nf nf' nf'' hp hf ho hr =>
    have hl : ((l.defer f).hold nf).listed = f ::ₘ l.listed := listed_defer l f
    have hs : f.skb.isSome := h.carried f (by simp [hl])
    obtain ⟨howned, hsome⟩ := owned_filled (ho.skb ▸ hs) hr.packet
    have ht : f.t < l.slots.length := hi.t_lt (by simp [keys_hold, keys_defer])
    have htake : nf'.owned = f.owned := owned_congr (by rw [Frame.packet, ho.skb]; rfl)
    have hput : ((l.xmit f.cmd).put { f.blank with skb := nf.skb }).packets = nf.owned + l.packets :=
      packets_put (l.xmit f.cmd) { f.blank with skb := nf.skb } ht
    refine h.keep ?_ rfl ?_
    · rw [packets_act, packets_modSlot, hput, howned, htake, packets_hold, packets_defer]
      · exact add_left_comm _ _ _
      · exact fun _ => rfl
    · rw [listed_act]
      refine hmore ?_ hsome
      rw [hl]
      exact Multiset.le_cons_self _ _
  | @drop l f hp =>
    have ht : f.t < l.slots.length := hi.t_lt (by simp [keys_defer])
    have hput : ({ l with kick := true }.put f.blank).packets = f.owned + l.packets :=
      packets_put { l with kick := true } f.blank ht
    refine h.keep ?_ rfl ?_
    · rw [hput, packets_defer]
    · rw [listed_defer]
      exact fun g hg => .inl (Multiset.mem_cons_of_mem hg)
  | kick => exact h.keep rfl rfl (hsame rfl)

theorem Shift.stowed (m : Shift C l l') (hi : l.Inv) (h : l.Stowed) : l'.Stowed := by
  have hsame {l l' : Ledger} (hl : l'.listed ≤ l.listed) : ∀ f ∈ l'.listed, f ∈ l.listed ∨ f.skb.isSome :=
    fun f hf => .inl (Multiset.mem_of_le hl hf)
  cases m with
  | move hm => exact hm.stowed hi h
  | tick hc => exact h.keep rfl rfl (hsame le_rfl)
  | outcomes hc => exact h.keep rfl rfl (hsame le_rfl)
  | unkick => exact h.keep rfl rfl (hsame le_rfl)
  | @answer l f =>
    refine h.keep ?_ rfl (hsame ?_)
    · rw [packets_hold, packets_modSlot, packets_act]
      exact fun _ => rfl
    · rw [listed_act]
      exact Multiset.le_cons_self _ _
  | @answerDeferred l f =>
    refine h.keep ?_ rfl (hsame ?_)
    · rw [packets_hold, packets_defer]
    · rw [listed_defer]
      exact Multiset.le_cons_self _ _
  | @reply l f r =>
    refine h.keep ?_ rfl (hsame le_rfl)
    rw [packets_hold, packets_hold]
    rfl
  | @unbuf l f =>
    refine h.keep ?_ rfl (hsame le_rfl)
    rw [packets_hold, packets_hold]
    rfl
  | @retire l f =>
    refine h.keep ?_ rfl (hsame le_rfl)
    rw [packets_shelve, packets_hold]
  | @release l f =>
    have ht : f.t < l.slots.length := hi.t_lt (by simp [keys_shelve])
    have hput : (l.put f.blank).packets = f.owned + l.packets := packets_put l f.blank ht
    refine h.keep ?_ rfl (hsame le_rfl)
    rw [hput, packets_shelve]
  | @discard l f =>
    have ht : f.t < l.slots.length := hi.t_lt (by simp [keys_hold])
    have hput : (l.put f.blank).packets = f.owned + l.packets := packets_put l f.blank ht
    refine h.keep ?_ rfl (hsame le_rfl)
    rw [hput, packets_hold]
  | grow hw =>
    refine h.keep ?_ rfl (hsame le_rfl)
    unfold Ledger.packets Ledger.all
    rw [List.map_append, List.sum_append]
    simp only [List.map_cons, List.map_nil, List.sum_cons, List.sum_nil, add_zero]
    rfl
  | @rewire _ i w hw =>
    refine h.keep ?_ rfl (hsame le_rfl)
    exact packets_modSlot _ _ _ fun _ => rfl
  | @reskb _ g hg =>
    refine h.keep ?_ rfl (hsame le_rfl)
    have hfree (s : Multiset Frame) : (s.map fun f => { f with skb := g f.skb }).bind Frame.owned = s.bind Frame.owned := by
      rw [Multiset.bind_map]
      refine Multiset.bind_congr fun f _ => owned_congr ?_
      exact hg f.skb
    have hslots (ss : List Slot) :
        ((ss.map fun s => { s with free := s.free.map fun f => { f with skb := g f.skb } }).map Slot.free).sum.bind
          Frame.owned = (ss.map Slot.free).sum.bind Frame.owned := by
      induction ss with
      | nil => rfl
      | cons s ss ih =>
        simp only [List.map_cons, List.sum_cons, Multiset.add_bind]
        rw [hfree, ih]
    unfold Ledger.packets Ledger.all
    rw [Multiset.add_bind, Multiset.add_bind, hslots]
    rfl
  | down hc =>
    have hplay : Ledger.inPlay { l with
        active := 0, deferred := 0, out := l.active + l.deferred + l.out
        slots := l.slots.map fun s => { s with nout := 0 } } = l.inPlay := by
      simp [inPlay, pending]
    refine h.keep ?_ rfl (hsame (Multiset.zero_le _))
    unfold Ledger.packets Ledger.all
    rw [hplay, List.map_map]
    rfl

end Moves

end AoeDriver
