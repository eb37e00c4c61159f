import AoeDriver.Ledger.State

/-!
# Balance of the frame ledger

No frame is lost or duplicated, `falloc` counts the frames of a target and `nout` those outstanding.
-/

namespace AoeDriver

open Tables

/-- Identity and owner of a frame, which no operation changes. -/
def Frame.key (f : Frame) : ℕ × ℕ := (f.id, f.t)

namespace Ledger

def keys (l : Ledger) : Multiset (ℕ × ℕ) := l.all.map Frame.key

/-- The ledger balances. -/
structure Inv (l : Ledger) : Prop where
  range : ∀ k ∈ l.keys, k.1 < l.frameIds ∧ k.2 < l.slots.length
  nodup : (l.keys.map Prod.fst).Nodup
  count : ∀ i, i < l.slots.length → l.keys.countP (·.2 = i) = (l.slot i).falloc
  cap : ∀ i, (l.slot i).falloc ≤ NSKBPOOLMAX * 2
  free : ∀ i, ∀ f ∈ (l.slot i).free, f.t = i ∧ f.Blank
  nout : ∀ i, (l.slot i).nout = l.active.countP (·.t = i)
  live : ∀ i, i < l.slots.length → Live (l.slot i).wires
  probe : ∀ f ∈ l.inPlay, f.probe = true → f.buf = none

section Parts

variable (l : Ledger) (f : Frame) (i j : ℕ) (g : Slot → Slot)

private theorem slot_modSlot : (l.modSlot i g).slot j = if i = j ∧ j < l.slots.length then g (l.slot j) else l.slot j :=
  getD_modify _ _ _ _

@[simp] theorem length_modSlot : (l.modSlot i g).slots.length = l.slots.length := List.length_modify _ _ _

theorem field_modSlot {β : Type} (φ : Slot → β) (hg : ∀ s, φ (g s) = φ s) :
    φ ((l.modSlot i g).slot j) = φ (l.slot j) := by
  rw [slot_modSlot]
  split
  · exact hg _
  · rfl

theorem field_modSlot_of_lt {β : Type} (φ : Slot → β) (k : β → β) (hg : ∀ s, φ (g s) = k (φ s))
    (hi : i < l.slots.length) :
    φ ((l.modSlot i g).slot j) = if i = j then k (φ (l.slot j)) else φ (l.slot j) := by
  rw [slot_modSlot]
  by_cases h : i = j
  · rw [if_pos ⟨h, h ▸ hi⟩, if_pos h]
    exact hg _
  · rw [if_neg (fun hh => h hh.1), if_neg h]

private theorem live_modSlot (hg : ∀ s, Live s.wires → Live (g s).wires) (h : Live (l.slot j).wires) :
    Live ((l.modSlot i g).slot j).wires := by
  rw [slot_modSlot]
  split
  · exact hg _ h
  · exact h

private theorem slot_default (h : l.slots.length ≤ i) : l.slot i = default := by
  simp [slot, h]

private theorem keys_modSlot (hg : ∀ s, (g s).free = s.free) : (l.modSlot i g).keys = l.keys := by
  unfold keys all modSlot
  rw [map_modify_same _ _ _ _ hg]
  rfl

private theorem keys_put (h : f.t < l.slots.length) : (l.put f).keys = f.key ::ₘ l.keys := by
  unfold keys all put modSlot
  rw [sum_map_modify _ _ _ Slot.free {f} h (fun s => by simp)]
  simp only [Multiset.map_add, Multiset.map_singleton]
  rw [add_assoc, Multiset.singleton_add]
  rfl

@[simp] theorem pending_act : (l.act f).pending = f ::ₘ l.pending := by simp [pending, act]
@[simp] theorem pending_defer : (l.defer f).pending = f ::ₘ l.pending := by simp [pending, defer]
@[simp] theorem pending_hold : (l.hold f).pending = f ::ₘ l.pending := by simp [pending, hold]
@[simp] theorem inPlay_act : (l.act f).inPlay = f ::ₘ l.inPlay := by
  rw [inPlay, pending_act, Multiset.cons_add]
  rfl
@[simp] theorem inPlay_defer : (l.defer f).inPlay = f ::ₘ l.inPlay := by
  rw [inPlay, pending_defer, Multiset.cons_add]
  rfl
@[simp] theorem inPlay_hold : (l.hold f).inPlay = f ::ₘ l.inPlay := by
  rw [inPlay, pending_hold, Multiset.cons_add]
  rfl
@[simp] theorem inPlay_shelve : (l.shelve f).inPlay = f ::ₘ l.inPlay := by
  rw [inPlay, shelve, Multiset.add_cons]
  rfl
@[simp] theorem inPlay_modSlot : (l.modSlot i g).inPlay = l.inPlay := rfl
@[simp] theorem inPlay_put : (l.put f).inPlay = l.inPlay := rfl

theorem keys_act : (l.act f).keys = f.key ::ₘ l.keys := by
  rw [keys, all, inPlay_act]
  simp [keys, all, act]

theorem keys_defer : (l.defer f).keys = f.key ::ₘ l.keys := by
  rw [keys, all, inPlay_defer]
  simp [keys, all, defer]

theorem keys_shelve : (l.shelve f).keys = f.key ::ₘ l.keys := by
  rw [keys, all, inPlay_shelve]
  simp [keys, all, shelve]

theorem keys_hold : (l.hold f).keys = f.key ::ₘ l.keys := by
  rw [keys, all, inPlay_hold]
  simp [keys, all, hold]

private theorem slot_put : (l.put f).slot i =
    if f.t = i ∧ i < l.slots.length then { l.slot i with free := f ::ₘ (l.slot i).free } else l.slot i :=
  slot_modSlot _ _ _ _

@[simp] theorem slot_act : (l.act f).slot i = l.slot i := rfl
@[simp] theorem slot_defer : (l.defer f).slot i = l.slot i := rfl
@[simp] theorem slot_hold : (l.hold f).slot i = l.slot i := rfl

@[simp] theorem length_put : (l.put f).slots.length = l.slots.length := length_modSlot _ _ _

@[simp] theorem falloc_put : ((l.put f).slot i).falloc = (l.slot i).falloc := by
  rw [slot_put]
  split <;> rfl

@[simp] theorem nout_put : ((l.put f).slot i).nout = (l.slot i).nout := by
  rw [slot_put]
  split <;> rfl

@[simp] theorem noutProbes_put : ((l.put f).slot i).noutProbes = (l.slot i).noutProbes := by
  rw [slot_put]
  split <;> rfl

@[simp] theorem wires_put : ((l.put f).slot i).wires = (l.slot i).wires := by
  rw [slot_put]
  split <;> rfl

theorem mem_free_put {a : Frame} :
    a ∈ ((l.put f).slot i).free ↔ a = f ∧ f.t = i ∧ i < l.slots.length ∨ a ∈ (l.slot i).free := by
  rw [slot_put]
  split
  · rename_i h
    simp [h]
  · rename_i h
    simp [h]

end Parts

theorem Inv.active_le {l : Ledger} (h : l.Inv) (i : ℕ) : l.active.countP (·.t = i) ≤ NSKBPOOLMAX * 2 := by
  by_cases hi : i < l.slots.length
  · have hle : l.active.map Frame.key ≤ l.keys := by
      apply Multiset.map_le_map
      rw [all, inPlay, pending, add_assoc l.active, add_assoc l.active, add_left_comm]
      exact Multiset.le_add_right _ _
    have hc : l.active.countP (·.t = i) ≤ l.keys.countP (·.2 = i) := by
      have hle' := Multiset.countP_le_of_le (·.2 = i) hle
      rwa [Multiset.countP_map, ← Multiset.countP_eq_card_filter] at hle'
    exact hc.trans ((h.count i hi).trans_le (h.cap i))
  · have hn := h.nout i
    rw [slot_default l i (by omega)] at hn
    rw [← hn]
    exact Nat.zero_le _

/-- A change that leaves the frames where their owners are counted keeps the account of allocated frames. -/
theorem Inv.keep {l m : Ledger} (h : l.Inv) (hk : m.keys = l.keys) (hid : m.frameIds = l.frameIds)
    (hlen : m.slots.length = l.slots.length) (hfa : ∀ i, (m.slot i).falloc = (l.slot i).falloc)
    (hfree : ∀ i, ∀ f ∈ (m.slot i).free, f.t = i ∧ f.Blank)
    (hnout : ∀ i, (m.slot i).nout = m.active.countP (·.t = i))
    (hlive : ∀ i, i < l.slots.length → Live (m.slot i).wires)
    (hprobe : ∀ f ∈ m.inPlay, f.probe = true → f.buf = none) : m.Inv where
  range := by
    rw [hk, hid, hlen]
    exact h.range
  nodup := by
    rw [hk]
    exact h.nodup
  count := by
    intro i hi
    rw [hk, hfa]
    exact h.count i (hlen ▸ hi)
  cap := by
    intro i
    rw [hfa]
    exact h.cap i
  free := hfree
  nout := hnout
  live := by
    rw [hlen]
    exact hlive
  probe := hprobe

theorem Inv.t_lt {l : Ledger} {f : Frame} (h : l.Inv) (hf : f.key ∈ l.keys) : f.t < l.slots.length :=
  (h.range _ hf).2

private theorem decUshort_succ {n : ℕ} (h : n < 2^16) : decUshort (n + 1) = n := by
  simp only [decUshort]
  omega

end Ledger

open Ledger

private theorem incUshort_countP {s : Multiset Frame} {i : ℕ} (h : s.countP (·.t = i) ≤ NSKBPOOLMAX * 2) :
    incUshort (s.countP (·.t = i)) = s.countP (·.t = i) + 1 := by
  simp only [incUshort, NSKBPOOLMAX] at *
  omega

theorem Move.inv_alloc {l : Ledger} {f : Frame} (h : l.Inv) (hcap : (l.slot f.t).falloc < NSKBPOOLMAX * 2)
    (hid : f.id = l.frameIds) (ht : f.t < l.slots.length) (hf : f.Blank) :
    Ledger.Inv (({ l with frameIds := l.frameIds + 1 }.modSlot f.t fun s => { s with falloc := s.falloc + 1 }).put f) := by
  let m := { l with frameIds := l.frameIds + 1 }
  let g := fun s : Slot => { s with falloc := s.falloc + 1 }
  have hkeys : ((m.modSlot f.t g).put f).keys = f.key ::ₘ l.keys := by
    rw [keys_put _ _ (by simpa [m] using ht), keys_modSlot m f.t g (fun _ => rfl)]
    rfl
  have hfalloc (i : ℕ) : (((m.modSlot f.t g).put f).slot i).falloc =
      if f.t = i then (l.slot i).falloc + 1 else (l.slot i).falloc := by
    rw [falloc_put]
    exact field_modSlot_of_lt m f.t i g Slot.falloc (· + 1) (fun _ => rfl) ht
  refine ⟨?_, ?_, ?_, ?_, ?_, ?_, ?_, ?_⟩
  · intro k hk
    rw [hkeys, Multiset.mem_cons] at hk
    have hlen : ((m.modSlot f.t g).put f).slots.length = l.slots.length := by simp [m]
    rw [hlen]
    rcases hk with rfl | hk
    · exact ⟨by simp [Frame.key, hid, put, modSlot], ht⟩
    · have hr := h.range k hk
      exact ⟨Nat.lt_succ_of_lt hr.1, hr.2⟩
  · rw [hkeys, Multiset.map_cons, Multiset.nodup_cons]
    refine ⟨?_, h.nodup⟩
    intro hmem
    obtain ⟨k, hk, hkf⟩ := Multiset.mem_map.mp hmem
    have hr := (h.range k hk).1
    simp only [Frame.key, hid] at hkf
    omega
  · intro i hi
    have hi' : i < l.slots.length := by simpa [m] using hi
    rw [hkeys, hfalloc, Multiset.countP_cons, h.count i hi']
    by_cases hti : f.t = i <;> simp [Frame.key, hti]
  · intro i
    rw [hfalloc]
    have hc := h.cap i
    split
    · rename_i hti
      subst hti
      omega
    · exact hc
  · intro i a ha
    rw [mem_free_put] at ha
    rcases ha with ⟨rfl, hti, _⟩ | ha
    · exact ⟨hti, hf⟩
    · rw [field_modSlot m f.t i g Slot.free (fun _ => rfl)] at ha
      exact h.free i a ha
  · intro i
    rw [nout_put, field_modSlot m f.t i g Slot.nout (fun _ => rfl)]
    exact h.nout i
  · intro i hi
    rw [wires_put, field_modSlot m f.t i g Slot.wires (fun _ => rfl)]
    exact h.live i (by simpa [m] using hi)
  · exact h.probe

/-- A free frame is taken or given back. -/
theorem Ledger.inv_put_iff_hold {l : Ledger} {f : Frame} (ht : f.t < l.slots.length) (hf : f.Blank) :
    (l.put f).Inv ↔ (l.hold f).Inv := by
  have hkeys : (l.put f).keys = (l.hold f).keys := by rw [keys_put _ _ ht, keys_hold]
  constructor
  · intro h
    apply h.keep hkeys.symm rfl (by simp [hold]) (by simp) _ _ _ _
    · intro i a ha
      exact h.free i a ((mem_free_put l f i).mpr (.inr ha))
    · intro i
      rw [slot_hold, ← nout_put l f]
      exact h.nout i
    · intro i hi
      rw [slot_hold, ← wires_put l f]
      exact h.live i hi
    · intro a ha hp
      have ha' : a = f ∨ a ∈ l.inPlay := by simpa using ha
      rcases ha' with rfl | ha'
      · exact hf.1
      · exact h.probe a ha' hp
  · intro h
    apply h.keep hkeys rfl (by simp [hold]) (by simp) _ _ _ _
    · intro i a ha
      rcases (mem_free_put l f i).mp ha with ⟨rfl, hti, _⟩ | ha
      · exact ⟨hti, hf⟩
      · exact h.free i a ha
    · intro i
      rw [nout_put]
      exact h.nout i
    · intro i hi
      rw [wires_put]
      exact h.live i hi
    · intro a ha hp
      exact h.probe a (by simpa using Or.inr ha) hp

/-- `m` is `l` with one more frame in use that is not outstanding. -/
inductive Ledger.Beside (l : Ledger) (f : Frame) : Ledger → Prop where
  | hold : Beside l f (l.hold f)
  | defer : Beside l f (l.defer f)
  | shelve : Beside l f (l.shelve f)

namespace Ledger.Beside

variable {l m : Ledger} {f : Frame}

theorem keys (h : Beside l f m) : m.keys = f.key ::ₘ l.keys := by
  cases h with
  | hold => exact keys_hold l f
  | defer => exact keys_defer l f
  | shelve => exact keys_shelve l f

theorem slots (h : Beside l f m) : m.slots = l.slots := by cases h <;> rfl
theorem slot (h : Beside l f m) (i : ℕ) : m.slot i = l.slot i := by cases h <;> rfl
theorem frameIds (h : Beside l f m) : m.frameIds = l.frameIds := by cases h <;> rfl
theorem active (h : Beside l f m) : m.active = l.active := by cases h <;> rfl

theorem inPlay (h : Beside l f m) : m.inPlay = f ::ₘ l.inPlay := by
  cases h with
  | hold => exact inPlay_hold l f
  | defer => exact inPlay_defer l f
  | shelve => exact inPlay_shelve l f

theorem t_lt (h : Beside l f m) (hi : m.Inv) : f.t < l.slots.length := by
  rw [← h.slots]
  exact hi.t_lt (by simp [h.keys])

end Ledger.Beside

/-- One more frame outstanding. -/
theorem Ledger.Inv.outstanding {l m : Ledger} {f f' : Frame} {g : Slot → Slot} (h : m.Inv) (hm : Beside l f m)
    (hkey : f'.key = f.key) (hfree : ∀ s, (g s).free = s.free)
    (hfalloc : ∀ s, (g s).falloc = s.falloc) (hnout : ∀ s, (g s).nout = incUshort s.nout)
    (hwires : ∀ s, (g s).wires = s.wires) (hp : f'.probe = true → f'.buf = none) : ((l.modSlot f.t g).act f').Inv := by
  have ht := hm.t_lt h
  apply h.keep
  · rw [keys_act, keys_modSlot _ _ _ hfree, hm.keys, hkey]
  · exact hm.frameIds.symm
  · simp [Ledger.act, hm.slots]
  · intro i
    rw [slot_act, hm.slot, field_modSlot l f.t i g Slot.falloc hfalloc]
  · intro i a ha
    rw [slot_act, field_modSlot l f.t i g Slot.free hfree] at ha
    exact h.free i a (hm.slot i ▸ ha)
  · intro i
    have hn := h.nout i
    have hle := h.active_le i
    rw [hm.slot, hm.active] at hn
    rw [hm.active] at hle
    have ht' : f'.t = f.t := congrArg Prod.snd hkey
    rw [slot_act, field_modSlot_of_lt l f.t i g Slot.nout incUshort hnout ht]
    simp only [Ledger.act, Multiset.countP_cons, ht', hn]
    split
    · exact incUshort_countP hle
    · rfl
  · intro i hi
    rw [slot_act, field_modSlot l f.t i g Slot.wires hwires, ← hm.slot]
    exact h.live i hi
  · intro a ha hpa
    have ha' : a = f' ∨ a ∈ l.inPlay := by simpa using ha
    rcases ha' with rfl | ha'
    · exact hp hpa
    · exact h.probe a (by rw [hm.inPlay]; exact Multiset.mem_cons_of_mem ha') hpa

/-- One frame outstanding less: it goes to another place that is not a free list. -/
theorem Ledger.Inv.answered {l m : Ledger} {f : Frame} {g : Slot → Slot} (h : (l.act f).Inv)
    (hm : m = (l.modSlot f.t g).hold f ∨ m = (l.modSlot f.t g).defer f) (hfree : ∀ s, (g s).free = s.free)
    (hfalloc : ∀ s, (g s).falloc = s.falloc) (hnout : ∀ s, (g s).nout = decUshort s.nout)
    (hifs : ∀ s, Live s.wires → Live (g s).wires) : m.Inv := by
  have ht : f.t < l.slots.length := h.t_lt (by simp [keys_act])
  have hkeys : m.keys = (l.act f).keys := by
    rw [keys_act]
    rcases hm with rfl | rfl
    · rw [keys_hold, keys_modSlot _ _ _ hfree]
    · rw [keys_defer, keys_modSlot _ _ _ hfree]
  have hslot (i : ℕ) : m.slot i = (l.modSlot f.t g).slot i := by rcases hm with rfl | rfl <;> rfl
  have hlen : m.slots.length = l.slots.length := by rcases hm with rfl | rfl <;> simp [Ledger.hold, Ledger.defer]
  have hact : m.active = l.active := by rcases hm with rfl | rfl <;> rfl
  apply h.keep hkeys
  · rcases hm with rfl | rfl <;> rfl
  · exact hlen
  · intro i
    rw [hslot, field_modSlot l f.t i g Slot.falloc hfalloc, slot_act]
  · intro i a ha
    rw [hslot, field_modSlot l f.t i g Slot.free hfree] at ha
    exact h.free i a ha
  · intro i
    have hn := h.nout i
    have hle := h.active_le i
    rw [slot_act] at hn
    simp only [Ledger.act, Multiset.countP_cons] at hn hle
    rw [hslot, hact, field_modSlot_of_lt l f.t i g Slot.nout decUshort hnout ht]
    split
    · rename_i hti
      rw [hn, if_pos hti]
      apply decUshort_succ
      simp only [NSKBPOOLMAX] at hle
      omega
    · rename_i hti
      rw [hn, if_neg hti]
      rfl
  · intro i hi
    rw [hslot]
    exact live_modSlot l f.t i g hifs (h.live i hi)
  · intro a ha hp
    apply h.probe a _ hp
    have ha' : a = f ∨ a ∈ l.inPlay := by
      rcases hm with rfl | rfl
      · simpa using ha
      · simpa using ha
    simpa using ha'

theorem Ledger.Inv.released {l m : Ledger} {f f' : Frame} (h : m.Inv) (hm : Beside l f m)
    (hkey : f'.key = f.key) (hf : f'.Blank) : (l.put f').Inv := by
  have ht := hm.t_lt h
  have ht' : f'.t = f.t := congrArg Prod.snd hkey
  apply h.keep
  · rw [keys_put _ _ (ht' ▸ ht), hm.keys, hkey]
  · exact hm.frameIds.symm
  · simp [hm.slots]
  · intro i
    rw [falloc_put, hm.slot]
  · intro i a ha
    rcases (mem_free_put l f' i).mp ha with ⟨rfl, hti, _⟩ | ha
    · exact ⟨hti, hf⟩
    · exact h.free i a (hm.slot i ▸ ha)
  · intro i
    rw [nout_put, ← hm.slot, h.nout, hm.active]
    rfl
  · intro i hi
    rw [wires_put, ← hm.slot]
    exact h.live i hi
  · intro a ha hp
    exact h.probe a (by rw [hm.inPlay]; exact Multiset.mem_cons_of_mem ha) hp

theorem Ledger.Inv.elsewhere {l m m' : Ledger} {f f' : Frame} (h : m.Inv) (hm : Beside l f m) (hm' : Beside l f' m')
    (hkey : f'.key = f.key) (hp : f'.probe = true → f'.buf = none) : m'.Inv := by
  apply h.keep
  · rw [hm.keys, hm'.keys, hkey]
  · rw [hm.frameIds, hm'.frameIds]
  · rw [hm.slots, hm'.slots]
  · intro i
    rw [hm.slot, hm'.slot]
  · intro i a ha
    rw [hm'.slot, ← hm.slot] at ha
    exact h.free i a ha
  · intro i
    rw [hm'.slot, ← hm.slot, h.nout, hm.active, hm'.active]
  · intro i hi
    rw [hm'.slot, ← hm.slot]
    exact h.live i hi
  · intro a ha hpa
    rw [hm'.inPlay, Multiset.mem_cons] at ha
    rcases ha with rfl | ha
    · exact hp hpa
    · exact h.probe a (by rw [hm.inPlay]; exact Multiset.mem_cons_of_mem ha) hpa

theorem Ledger.Inv.relog {l : Ledger} (h : l.Inv) (log : Log) (clock : Clock) (clones : List Bool) (kick : Bool) :
    Ledger.Inv { l with log := log, clock := clock, clones := clones, kick := kick } :=
  ⟨h.range, h.nodup, h.count, h.cap, h.free, h.nout, h.live, h.probe⟩

theorem Ledger.Inv.repool {l : Ledger} (h : l.Inv) (p : Pool) : Ledger.Inv { l with pool := p } :=
  ⟨h.range, h.nodup, h.count, h.cap, h.free, h.nout, h.live, h.probe⟩

theorem Move.inv {quiet : Bool} {l l' : Ledger} (m : Move quiet l l') (h : l.Inv) : l'.Inv := by
  cases m with
  | alloc hcap hid ht hf => exact inv_alloc h hcap hid ht hf
  | @take l f ht =>
    have hf := h.free f.t f ((mem_free_put l f f.t).mpr (.inl ⟨rfl, rfl, ht⟩))
    exact (inv_put_iff_hold ht hf.2).mp h
  | @reskb l f skb p hf hs =>
    have hheld : (l.hold { f with skb := skb }).Inv :=
      h.elsewhere .hold (.hold (f := { f with skb := skb })) rfl (h.probe f (by simp))
    exact hheld.repool p
  | @giveBack l f hf =>
    have ht : f.t < l.slots.length := h.t_lt (by simp [keys_hold])
    exact (inv_put_iff_hold ht hf).mpr h
  | @send l f f' hf hi hb hp =>
    apply (h.relog l.issue.log l.clock l.issue.clones l.kick).outstanding .hold
    · simp [Frame.key, hi.id, hi.t]
    · exact fun _ => rfl
    · exact fun _ => rfl
    · exact fun _ => rfl
    · exact fun _ => rfl
    · simp [hp]
  | @probe l f f' hf hi hb hp =>
    apply (h.relog l.issue.log l.clock l.issue.clones l.kick).outstanding .hold
    · simp [Frame.key, hi.id, hi.t]
    · exact fun _ => rfl
    · exact fun _ => rfl
    · exact fun _ => rfl
    · exact fun _ => rfl
    · exact fun _ => hb
  | miss i =>
    let m := { l with log := { l.log with probeMissed := true } }
    let g := fun s : Slot => { s with noutProbes := incChar s.noutProbes }
    refine Ledger.Inv.keep (m := m.modSlot i g) h ?_ rfl (by simp [m]) ?_ ?_ ?_ ?_ h.probe
    · exact keys_modSlot m i g (fun _ => rfl)
    · exact fun j => field_modSlot m i j g Slot.falloc (fun _ => rfl)
    · intro j a ha
      rw [field_modSlot m i j g Slot.free (fun _ => rfl)] at ha
      exact h.free j a ha
    · intro j
      rw [field_modSlot m i j g Slot.nout (fun _ => rfl)]
      exact h.nout j
    · intro j hj
      rw [field_modSlot m i j g Slot.wires (fun _ => rfl)]
      exact h.live j hj
  | expire hw hm =>
    apply h.answered (.inr rfl)
    · exact fun _ => rfl
    · exact fun _ => rfl
    · exact fun _ => rfl
    · exact fun _ _ => hw
  | @resend l f f' hr =>
    apply (h.relog (l.xmit f.cmd).log l.clock (l.xmit f.cmd).clones l.kick).outstanding .defer
    · simp [Frame.key, hr.id, hr.t]
    · exact fun _ => rfl
    · exact fun _ => rfl
    · exact fun _ => rfl
    · exact fun _ => rfl
    · rw [hr.probe, hr.buf]
      exact h.probe f (by simp)
  | @reassign l f nf nf' nf'' hp hf ho hr =>
    -- first the old frame becomes free, then the new one is outstanding
    have hput : ((l.put { f.blank with skb := nf.skb }).hold nf).Inv :=
      Ledger.Inv.released (l := l.hold nf) (f := f) h .defer rfl ⟨rfl, rfl, rfl, rfl⟩
    apply (hput.relog (l.xmit f.cmd).log l.clock (l.xmit f.cmd).clones l.kick).outstanding .hold
    · simp [Frame.key, hr.id, hr.t, ho.id, ho.t]
    · exact fun _ => rfl
    · exact fun _ => rfl
    · exact fun _ => rfl
    · exact fun _ => rfl
    · rw [hr.probe, ho.probe, hf.2.2.2]
      simp
  | @drop l f hp =>
    have hput : (l.put f.blank).Inv := h.released .defer rfl (Frame.Blank_blank f)
    exact hput.relog l.log l.clock l.clones true
  | kick => exact h.relog l.log l.clock l.clones true

theorem Ledger.Inv.grow {l : Ledger} (h : l.Inv) {wires : Wires} (hw : Live wires) :
    Ledger.Inv { l with slots := l.slots ++ [⟨0, 0, 0, 0, wires⟩] } := by
  let l' : Ledger := { l with slots := l.slots ++ [⟨0, 0, 0, 0, wires⟩] }
  have hlen : l'.slots.length = l.slots.length + 1 := by simp [l']
  have hkeys : l'.keys = l.keys := by simp [l', keys, all, inPlay, pending]
  have hnew : l'.slot l.slots.length = ⟨0, 0, 0, 0, wires⟩ := by simp [l', Ledger.slot]
  have hold (i : ℕ) (hi : i ≠ l.slots.length) : l'.slot i = l.slot i := by
    by_cases hlt : i < l.slots.length
    · simp [l', Ledger.slot, List.getElem?_append_left hlt]
    · rw [slot_default l i (by omega), slot_default l' i (by omega)]
  have hcases {P : ℕ → Slot → Prop} (hP : ∀ i, i ≠ l.slots.length → P i (l.slot i))
      (hP' : P l.slots.length ⟨0, 0, 0, 0, wires⟩) (i : ℕ) : P i (l'.slot i) := by
    by_cases hi : i = l.slots.length
    · rw [hi, hnew]
      exact hP'
    · rw [hold i hi]
      exact hP i hi
  refine ⟨?_, ?_, ?_, ?_, ?_, ?_, ?_, h.probe⟩
  · intro k hk
    rw [hkeys] at hk
    obtain ⟨h1, h2⟩ := h.range k hk
    exact ⟨h1, by rw [hlen]; omega⟩
  · exact hkeys ▸ h.nodup
  · intro i hi
    rw [hkeys]
    by_cases hlt : i = l.slots.length
    · rw [hlt, hnew, Multiset.countP_eq_zero]
      intro k hk
      exact (h.range k hk).2.ne
    · rw [hold i hlt]
      exact h.count i (by rw [hlen] at hi; omega)
  · exact hcases (P := fun _ s => s.falloc ≤ NSKBPOOLMAX * 2) (fun i _ => h.cap i) (Nat.zero_le _)
  · exact hcases (P := fun i s => ∀ f ∈ s.free, f.t = i ∧ f.Blank) (fun i _ => h.free i) (by simp)
  · refine hcases (P := fun i s => s.nout = l.active.countP (·.t = i)) (fun i _ => h.nout i) ?_
    have hn := h.nout l.slots.length
    rw [slot_default l _ le_rfl] at hn
    exact hn
  · intro i hi
    by_cases hlt : i = l.slots.length
    · rw [hlt, hnew]
      exact hw
    · rw [hold i hlt]
      exact h.live i (by rw [hlen] at hi; omega)

theorem Ledger.keys_mapSlots {l l' : Ledger} {g : Slot → Slot} (hs : l'.slots = l.slots.map g)
    (hg : ∀ s, (g s).free.map Frame.key = s.free.map Frame.key) (hp : l'.inPlay = l.inPlay) : l'.keys = l.keys := by
  have hfree (slots : List Slot) :
      (((slots.map g).map Slot.free).sum).map Frame.key = ((slots.map Slot.free).sum).map Frame.key := by
    induction slots with
    | nil => rfl
    | cons s slots ih => simp only [List.map_cons, List.sum_cons, Multiset.map_add, hg, ih]
  rw [keys, keys, all, all, hs, hp, Multiset.map_add, Multiset.map_add, hfree]

theorem Ledger.Inv.mapSlots {l l' : Ledger} (h : l.Inv) {g : Slot → Slot} (hs : l'.slots = l.slots.map g)
    (hk : l'.keys = l.keys) (hid : l'.frameIds = l.frameIds) (hg : g default = default)
    (hfalloc : ∀ s, (g s).falloc = s.falloc) (hwires : ∀ s, (g s).wires = s.wires)
    (hfree : ∀ i s, (∀ f ∈ s.free, f.t = i ∧ f.Blank) → ∀ f ∈ (g s).free, f.t = i ∧ f.Blank)
    (hnout : ∀ i, (g (l.slot i)).nout = l'.active.countP (·.t = i))
    (hprobe : ∀ f ∈ l'.inPlay, f.probe = true → f.buf = none) : l'.Inv := by
  have hslot (i : ℕ) : l'.slot i = g (l.slot i) := by
    simp only [Ledger.slot, hs, List.getD_eq_getElem?_getD, List.getElem?_map]
    cases l.slots[i]? with
    | none => exact hg.symm
    | some s => rfl
  refine h.keep hk hid (by rw [hs, List.length_map]) ?_ ?_ ?_ ?_ hprobe
  · intro i
    rw [hslot, hfalloc]
  · intro i
    rw [hslot]
    exact hfree i _ (h.free i)
  · intro i
    rw [hslot]
    exact hnout i
  · intro i hi
    rw [hslot, hwires]
    exact h.live i hi

theorem Shift.inv {C : Cond} {l l' : Ledger} (m : Shift C l l') (h : l.Inv) : l'.Inv := by
  cases m with
  | move hm => exact hm.inv h
  | tick => exact h.relog l.log _ l.clones l.kick
  | outcomes => exact h.relog l.log l.clock _ l.kick
  | unkick => exact h.relog l.log l.clock l.clones false
  | answer =>
    refine h.answered (.inl rfl) ?_ ?_ ?_ ?_
    · exact fun _ => rfl
    · exact fun _ => rfl
    · exact fun _ => rfl
    · exact fun _ hs => hs
  | @answerDeferred l f => exact h.elsewhere .defer .hold rfl (h.probe f (by simp))
  | @reply l f r => exact h.elsewhere .hold (.hold (f := { f with rSkb := r })) rfl (h.probe f (by simp))
  | @unbuf l f => exact h.elsewhere .hold (.hold (f := { f with buf := none })) rfl (fun _ => rfl)
  | @retire l f => exact h.elsewhere .hold .shelve rfl (h.probe f (by simp))
  | @release l f => exact h.released .shelve rfl (Frame.Blank_blank f)
  | @discard l f => exact h.released .hold rfl (Frame.Blank_blank f)
  | grow hw => exact h.grow hw
  | @rewire _ i wires hw =>
    let g := fun s : Slot => { s with wires := wires }
    refine Ledger.Inv.keep (m := l.modSlot i g) h ?_ rfl (by simp) ?_ ?_ ?_ ?_ h.probe
    · exact keys_modSlot l i g (fun _ => rfl)
    · exact fun j => field_modSlot l i j g Slot.falloc (fun _ => rfl)
    · intro j a ha
      rw [field_modSlot l i j g Slot.free (fun _ => rfl)] at ha
      exact h.free j a ha
    · intro j
      rw [field_modSlot l i j g Slot.nout (fun _ => rfl)]
      exact h.nout j
    · intro j hj
      exact live_modSlot l i j g (fun _ _ => hw) (h.live j hj)
  | @reskb _ g =>
    refine h.mapSlots (g := fun s => { s with free := s.free.map fun f => { f with skb := g f.skb } }) rfl ?_ rfl rfl
      (fun _ => rfl) (fun _ => rfl) ?_ h.nout h.probe
    · refine keys_mapSlots (g := fun s => { s with free := s.free.map fun f => { f with skb := g f.skb } }) rfl ?_ rfl
      intro s
      rw [Multiset.map_map]
      rfl
    · intro i s hs f hf
      obtain ⟨a, ha, rfl⟩ := Multiset.mem_map.mp hf
      exact hs a ha
  | down hc =>
    have hplay : Ledger.inPlay { l with
        active := 0, deferred := 0, out := l.active + l.deferred + l.out
        slots := l.slots.map fun s => { s with nout := 0 } } = l.inPlay := by
      simp [inPlay, pending]
    refine h.mapSlots (g := fun s => { s with nout := 0 }) rfl ?_ rfl rfl (fun _ => rfl) (fun _ => rfl)
      (fun _ _ hs => hs) (fun _ => rfl) ?_
    · exact keys_mapSlots (g := fun s => { s with nout := 0 }) rfl (fun _ => rfl) hplay
    · rw [hplay]
      exact h.probe

theorem Shifts.inv {C : Cond} {l l' : Ledger} (m : Shifts C l l') (h : l.Inv) : l'.Inv := by
  induction m with
  | refl => exact h
  | tail _ hm ih => exact hm.inv ih

theorem Move.loud {quiet : Bool} {l l' : Ledger} (m : Move quiet l l') : Move false l l' := by
  cases m with
  | alloc hcap hid ht hf hs => exact .alloc hcap hid ht hf hs
  | take ht => exact .take ht
  | reskb hf hs => exact .reskb hf hs
  | giveBack hf => exact .giveBack hf
  | send hf hi hb hp hs => exact .send hf hi (by simp) hp hs
  | probe hf hi hb hp hs => exact .probe hf hi hb hp hs
  | miss i => exact .miss i
  | expire hw hm => exact .expire hw hm
  | resend hr => exact .resend hr
  | reassign hp hf ho hr => exact .reassign hp hf ho hr
  | drop hp => exact .drop hp
  | kick => exact .kick

theorem Moves.shifts {C : Cond} {l l' : Ledger} {quiet : Bool} (m : Moves quiet l l') : Shifts C l l' := by
  induction m with
  | refl => exact .refl
  | tail _ hm ih => exact .tail ih (.move hm.loud)

theorem Move.clock {quiet : Bool} {l l' : Ledger} (m : Move quiet l l') : l'.clock = l.clock := by
  cases m <;> rfl

theorem Moves.clock {quiet : Bool} {l l' : Ledger} (m : Moves quiet l l') : l'.clock = l.clock := by
  induction m with
  | refl => rfl
  | tail _ hm ih => exact hm.clock.trans ih

theorem Ledger.minbcnt_put (l : Ledger) (f : Frame) :
    (l.put f).slots.map (·.wires.minbcnt) = l.slots.map (·.wires.minbcnt) :=
  map_modify_same _ _ _ (fun s : Slot => s.wires.minbcnt) fun _ => rfl

theorem Move.minbcnt {quiet : Bool} {l l' : Ledger} (m : Move quiet l l') :
    l'.slots.map (·.wires.minbcnt) = l.slots.map (·.wires.minbcnt) := by
  have hmod (l : Ledger) (i : ℕ) {g : Slot → Slot} (hg : ∀ s, (g s).wires.minbcnt = s.wires.minbcnt) :
      (l.modSlot i g).slots.map (·.wires.minbcnt) = l.slots.map (·.wires.minbcnt) :=
    map_modify_same _ _ _ (fun s : Slot => s.wires.minbcnt) hg
  cases m with
  | alloc => exact (minbcnt_put _ _).trans (hmod _ _ fun _ => rfl)
  | take => exact (minbcnt_put _ _).symm
  | reskb => rfl
  | giveBack => exact hmod _ _ fun _ => rfl
  | send => exact hmod _ _ fun _ => rfl
  | probe => exact hmod _ _ fun _ => rfl
  | miss => exact hmod _ _ fun _ => rfl
  | @expire l f w hw hm =>
    change (l.slots.modify f.t _).map _ = _
    rw [map_modify_at _ _ _ id (fun s : Slot => s.wires.minbcnt) hm, List.modify_id]
    rfl
  | resend => exact hmod _ _ fun _ => rfl
  | @reassign l f nf nf' nf'' hp hf ho hr =>
    have hfirst := minbcnt_put (l.xmit f.cmd) { f.blank with skb := nf.skb }
    exact (hmod _ nf.t (g := fun x => { x with nout := incUshort x.nout }) fun _ => rfl).trans hfirst
  | drop => exact hmod _ _ fun _ => rfl
  | kick => rfl

theorem Moves.minbcnt {quiet : Bool} {l l' : Ledger} (m : Moves quiet l l') :
    l'.slots.map (·.wires.minbcnt) = l.slots.map (·.wires.minbcnt) := by
  induction m with
  | refl => rfl
  | tail _ hm ih => exact hm.minbcnt.trans ih

theorem Bounded.congr {n : ℕ} {s s' : List Slot} (h : Bounded n s)
    (hs : s'.map (·.wires.minbcnt) = s.map (·.wires.minbcnt)) : Bounded n s' := by
  refine ⟨h.1, fun hn x hx => ?_⟩
  have hmem : x.wires.minbcnt ∈ s.map (·.wires.minbcnt) := hs ▸ List.mem_map_of_mem hx
  obtain ⟨y, hy, heq⟩ := List.mem_map.mp hmem
  rw [← heq]
  exact h.2 hn y hy

theorem Moves.inv {quiet : Bool} {l l' : Ledger} (m : Moves quiet l l') (h : l.Inv) : l'.Inv := by
  induction m with
  | refl => exact h
  | tail _ hm ih => exact hm.inv ih

end AoeDriver
