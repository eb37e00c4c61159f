import AoeDriver.Ledger.Balance

/-!
# Probes in the ledger

`nout_probes` is a `char` beside `nout`. It follows the outstanding probes of its target as long as every probe has
found a frame and no probe was outstanding when the device went down.
-/

namespace AoeDriver

open Ledger

/-- The outstanding probes of target `i`. -/
def Ledger.probes (l : Ledger) (i : ℕ) : ℕ := l.active.countP fun f => f.t = i ∧ f.probe = true

def Probed (l : Ledger) : Prop := l.log.probeMissed = false → ∀ i, (l.slot i).noutProbes = l.probes i % 2^8

/-- No probe is outstanding where the device goes down. -/
def Cond.unprobed : Cond := ⟨fun _ _ => True, fun _ => True, fun l => ∀ f ∈ l.active, f.probe = false⟩

section Probes

variable {l l' : Ledger} {f : Frame}

private theorem probes_act (l : Ledger) (f : Frame) (i : ℕ) :
    (l.act f).probes i = l.probes i + if f.t = i ∧ f.probe = true then 1 else 0 := by
  rw [probes, probes]
  exact Multiset.countP_cons _ f l.active

private theorem incChar_mod (n : ℕ) : incChar (n % 2^8) = (n + 1) % 2^8 := by
  simp only [incChar]
  omega

private theorem decChar_mod (n : ℕ) : decChar ((n + 1) % 2^8) = n % 2^8 := by
  simp only [decChar]
  omega

theorem Probed.congr (h : Probed l) (hlog : l'.log.probeMissed = l.log.probeMissed)
    (hslot : ∀ i, (l'.slot i).noutProbes = (l.slot i).noutProbes) (hprobes : ∀ i, l'.probes i = l.probes i) : Probed l' := by
  intro hm i
  rw [hslot, hprobes]
  exact h (hlog.symm.trans hm) i

theorem Probed.more (h : Probed l) {t : ℕ} {p : Bool} {g : Slot → Slot} (hlog : l'.log.probeMissed = l.log.probeMissed)
    (ht : t < l.slots.length) (hslots : l'.slots = l.slots.modify t g)
    (hg : ∀ s, (g s).noutProbes = if p then incChar s.noutProbes else s.noutProbes)
    (hprobes : ∀ i, l'.probes i = l.probes i + if t = i ∧ p = true then 1 else 0) : Probed l' := by
  intro hm i
  have hi := h (hlog.symm.trans hm) i
  have hslot : l'.slot i = (l.modSlot t g).slot i := by rw [slot, hslots]; rfl
  rw [hslot, field_modSlot_of_lt l t i g Slot.noutProbes (fun n => if p then incChar n else n) hg ht, hi, hprobes]
  by_cases hti : t = i
  · cases p with
    | true => simpa [hti] using incChar_mod (l.probes i)
    | false => simp
  · simp [hti]

theorem Probed.less (h : Probed (l.act f)) {g : Slot → Slot} (hlog : l'.log.probeMissed = l.log.probeMissed)
    (ht : f.t < l.slots.length) (hslots : l'.slots = l.slots.modify f.t g)
    (hg : ∀ s, (g s).noutProbes = if f.probe then decChar s.noutProbes else s.noutProbes)
    (hprobes : ∀ i, l'.probes i = l.probes i) : Probed l' := by
  intro hm i
  have hi := h (hlog.symm.trans hm) i
  have hslot : l'.slot i = (l.modSlot f.t g).slot i := by rw [slot, hslots]; rfl
  rw [slot_act, probes_act] at hi
  rw [hslot, field_modSlot_of_lt l f.t i g Slot.noutProbes (fun n => if f.probe then decChar n else n) hg ht, hi, hprobes]
  by_cases hti : f.t = i
  · cases hp : f.probe with
    | true => simpa [hti] using decChar_mod (l.probes i)
    | false => simp
  · simp [hti]

theorem Move.probed (m : Move false l l') (hi : l.Inv) (h : Probed l) : Probed l' := by
  have hheld {l : Ledger} {f : Frame} (hl : (l.hold f).Inv) : f.t < l.slots.length := Beside.t_lt .hold hl
  cases m with
  | @alloc _ f hcap hid ht hf =>
    refine h.congr rfl (fun i => ?_) fun _ => rfl
    rw [noutProbes_put]
    exact field_modSlot _ f.t i _ Slot.noutProbes fun _ => rfl
  | @take l f ht => exact h.congr rfl (fun i => (noutProbes_put l f i).symm) fun _ => rfl
  | reskb hf => exact h.congr rfl (fun _ => rfl) fun _ => rfl
  | @giveBack l f hf => exact h.congr rfl (fun i => noutProbes_put l f i) fun _ => rfl
  | @send l f f' hf hs hb hp =>
    have ht := hheld hi
    refine Probed.more (p := false) (t := f.t) h rfl ht rfl (fun _ => rfl) fun i => ?_
    have hact := probes_act (l.issue.modSlot f.t fun s => { s with nout := incUshort s.nout }) f' i
    rw [hp] at hact
    simp only [Bool.false_eq_true, and_false, if_false] at hact ⊢
    exact hact
  | @probe l f f' hf hs hb hp =>
    have ht := hheld hi
    refine Probed.more (p := true) (t := f.t) h rfl ht rfl (fun _ => rfl) fun i => ?_
    have hact := probes_act (l.issue.modSlot f.t fun s =>
      { s with nout := incUshort s.nout, noutProbes := incChar s.noutProbes }) f' i
    rw [hp, hs.t] at hact
    exact hact
  | miss i =>
    intro hm
    exact Bool.noConfusion hm
  | @expire l f w hw hm =>
    have ht : f.t < l.slots.length := hi.t_lt (by rw [keys_act]; exact Multiset.mem_cons_self _ _)
    exact h.less rfl ht rfl (fun _ => rfl) fun _ => rfl
  | @resend l f f' hr =>
    have ht : f.t < l.slots.length := Beside.t_lt .defer hi
    refine Probed.more (p := f.probe) (t := f.t) h rfl ht rfl (fun _ => rfl) fun i => ?_
    have hact := probes_act ((l.xmit f.cmd).modSlot f.t fun s =>
      { s with
        nout := incUshort s.nout
        noutProbes := if f.probe then incChar s.noutProbes else s.noutProbes }) f' i
    rw [hr.probe, hr.t] at hact
    exact hact
  | @reassign l f nf nf' nf'' hp hf ho hr =>
    have hblank : nf''.probe = false := by rw [hr.probe, ho.probe, hf.2.2.2]
    refine h.congr rfl (fun i => ?_) fun i => ?_
    · have hmod := field_modSlot ((l.xmit f.cmd).put { f.blank with skb := nf.skb }) nf.t i
        (fun x => { x with nout := incUshort x.nout }) Slot.noutProbes fun _ => rfl
      rw [slot_act, hmod, noutProbes_put]
      rfl
    · rw [probes_act, hblank]
      simp only [Bool.false_eq_true, and_false, if_false, add_zero]
      rfl
  | @drop l f hp => exact h.congr rfl (fun i => noutProbes_put _ f.blank i) fun _ => rfl
  | kick => exact h.congr rfl (fun _ => rfl) fun _ => rfl

theorem Shift.probed (m : Shift .unprobed l l') (hi : l.Inv) (h : Probed l) : Probed l' := by
  have hmap {g : Slot → Slot} (hn : ∀ s, (g s).noutProbes = s.noutProbes) (i : ℕ) :
      ((l.slots.map g).getD i default).noutProbes = (l.slot i).noutProbes := by
    simp only [slot, List.getD_eq_getElem?_getD, List.getElem?_map]
    cases l.slots[i]? with
    | none => rfl
    | some s => exact hn s
  cases m with
  | move hm => exact hm.probed hi h
  | tick hc => exact h.congr rfl (fun _ => rfl) fun _ => rfl
  | outcomes hc => exact h.congr rfl (fun _ => rfl) fun _ => rfl
  | unkick => exact h.congr rfl (fun _ => rfl) fun _ => rfl
  | @answer l f =>
    have ht : f.t < l.slots.length := hi.t_lt (by rw [keys_act]; exact Multiset.mem_cons_self _ _)
    exact h.less rfl ht rfl (fun _ => rfl) fun _ => rfl
  | answerDeferred => exact h.congr rfl (fun _ => rfl) fun _ => rfl
  | reply => exact h.congr rfl (fun _ => rfl) fun _ => rfl
  | unbuf => exact h.congr rfl (fun _ => rfl) fun _ => rfl
  | retire => exact h.congr rfl (fun _ => rfl) fun _ => rfl
  | @release l f => exact h.congr rfl (fun i => noutProbes_put l f.blank i) fun _ => rfl
  | @discard l f => exact h.congr rfl (fun i => noutProbes_put l f.blank i) fun _ => rfl
  | grow hw =>
    refine h.congr rfl (fun i => ?_) fun _ => rfl
    simp only [slot, List.getD_eq_getElem?_getD]
    rcases Nat.lt_trichotomy i l.slots.length with hlt | heq | hgt
    · rw [List.getElem?_append_left hlt]
    · -- a new target has not been probed
      rw [heq, List.getElem?_concat_length, List.getElem?_eq_none le_rfl]
      rfl
    · rw [List.getElem?_eq_none (by simpa using hgt), List.getElem?_eq_none hgt.le]
  | @rewire _ i wires hw => exact h.congr rfl (fun j => field_modSlot l i j _ Slot.noutProbes fun _ => rfl) fun _ => rfl
  | @reskb _ g =>
    have hslot := hmap (g := fun s => { s with free := s.free.map fun f => { f with skb := g f.skb } }) fun _ => rfl
    exact h.congr rfl hslot fun _ => rfl
  | down hc =>
    have hnone (i : ℕ) : l.probes i = 0 := by
      rw [probes, Multiset.countP_eq_zero]
      intro f hf hp
      exact absurd ((hc f hf).symm.trans hp.2) Bool.noConfusion
    have hslot := hmap (g := fun s => { s with nout := 0 }) fun _ => rfl
    refine h.congr rfl hslot fun i => ?_
    rw [hnone]
    rfl

end Probes

end AoeDriver
