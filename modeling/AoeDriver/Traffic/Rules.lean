import AoeDriver.Traffic.Timer

/-!
# Rules for acts

An act sends at most one packet, and `Sent` says what is known of it where it is sent. What each change of a target
keeps holds of all targets after every act.
-/

namespace AoeDriver

open Tables

/-- A packet that may be sent from traffic `l`, with its target as it is then. -/
inductive Sent (l : Traffic) : Send → Prop where
  | fresh {f : Frame} {c : Bool} {w r : Aoetgt → ℕ} (hlt : f.t < l.targets.length)
      (hw : (l.tgt f.t).nout < (l.tgt f.t).maxout) (hp : f.probe = false) (hcmd : f.cmd = l.ncmds)
      (hsize : f.iter.size ≤ l.payload) (ha : Addressed (ifrotate (l.tgt f.t)).1 f) :
      Sent l ⟨f, (ifrotate (l.tgt f.t)).1.issued w r, true, c⟩
  | probe {f : Frame} {c : Bool} {w r : Aoetgt → ℕ} (hlt : f.t < l.targets.length)
      (hn : (l.tgt f.t).noutProbes = 0) (hp : f.probe = true) (hcmd : f.cmd = l.ncmds)
      (hsize : f.iter.size ≤ l.payload) (ha : Addressed (ifrotate (l.tgt f.t)).1 f) :
      Sent l ⟨f, (ifrotate (l.tgt f.t)).1.issued w r, true, c⟩
  | again {f f' : Frame} {c : Bool} (hf : f ∈ l.deferred) (hlt : f.t < l.targets.length)
      (hw : (l.tgt f.t).nout < (l.tgt f.t).maxout) (hrot : (ifrotate (l.tgt f.t)).2 = true) (hr : Readied f f')
      (ha : Addressed (ifrotate (l.tgt f.t)).1 f') :
      Sent l ⟨f', (ifrotate (l.tgt f.t)).1.resumed f, false, c⟩

section Sent

variable {G : Gate} {l l' : Traffic}

theorem lt_of_window {i : ℕ} (h : (l.tgt i).nout < (l.tgt i).maxout) : i < l.targets.length := by
  by_contra hge
  rw [tgt_default (not_lt.mp hge)] at h
  exact absurd h (Nat.lt_irrefl 0)

theorem tgt_mod_self {i : ℕ} (hi : i < l.targets.length) (g : Aoetgt → Aoetgt) : (l.mod i g).tgt i = g (l.tgt i) := by
  rw [tgt_mod, if_pos ⟨rfl, hi⟩]

theorem Act.sends (h : Act G l l') : l'.sends = l.sends ∧ l'.nullNd = l.nullNd ∨
    ∃ s, Sent l s ∧ l'.sends = l.sends ++ [s] ∧ l'.nullNd = (l.nullNd || s.tgt.nd.isNone) := by
  cases h with
  | @send _ f f' cloned w r hw hp hcmd hsize ha hs =>
    have hlt := lt_of_window hw
    refine .inr ⟨_, .fresh (w := w) (r := r) (c := cloned) hlt hw hp hcmd hsize ha, ?_⟩
    have htgt := tgt_mod_self (l := l) hlt fun t => (ifrotate t).1.issued w r
    exact ⟨congrArg (fun t => l.sends ++ [⟨f, t, true, cloned⟩]) htgt, congrArg (fun t : Aoetgt => l.nullNd || t.nd.isNone) htgt⟩
  | @probe _ f f' cloned w r hlt hn hp hcmd hsize ha hs =>
    refine .inr ⟨_, .probe (w := w) (r := r) (c := cloned) hlt hn hp hcmd hsize ha, ?_⟩
    have htgt := tgt_mod_self (l := l) hlt fun t => (ifrotate t).1.issued w r
    exact ⟨congrArg (fun t => l.sends ++ [⟨f, t, true, cloned⟩]) htgt, congrArg (fun t : Aoetgt => l.nullNd || t.nd.isNone) htgt⟩
  | @resend l f f' f'' cloned hw hrot hr ha hs =>
    have hlt := lt_of_window hw
    refine .inr ⟨_, .again (c := cloned) (Multiset.mem_cons_self f l.deferred) hlt hw hrot hr ha, ?_⟩
    have htgt : (l.mod f.t fun t => (ifrotate t).1.resumed f).tgt f'.t = (ifrotate (l.tgt f.t)).1.resumed f := by
      rw [hr.t]
      exact tgt_mod_self hlt _
    exact ⟨congrArg (fun t => l.sends ++ [⟨f', t, false, cloned⟩]) htgt,
      congrArg (fun t : Aoetgt => l.nullNd || t.nd.isNone) htgt⟩
  | _ => exact .inl ⟨rfl, rfl⟩

/-- The frames an act hangs in `factive` have just been sent. -/
theorem Act.active (h : Act G l l') {f : Frame} (hf : f ∈ l'.active) :
    f ∈ l.active ∨ ∃ s, Sent l s ∧ l'.sends = l.sends ++ [s] ∧ Restamped s.frame f := by
  have hcons {g : Frame} {m : Multiset Frame} (hg : f ∈ g ::ₘ m) (hold : f ∈ m → f ∈ l.active)
      (hnew : ∃ s, Sent l s ∧ l'.sends = l.sends ++ [s] ∧ Restamped s.frame g) :
      f ∈ l.active ∨ ∃ s, Sent l s ∧ l'.sends = l.sends ++ [s] ∧ Restamped s.frame f := by
    rcases Multiset.mem_cons.mp hg with rfl | hg
    · exact .inr hnew
    · exact .inl (hold hg)
  cases h with
  | @send _ g g' cloned w r hw hp hcmd hsize ha hs =>
    have hlt := lt_of_window hw
    have htgt := tgt_mod_self (l := l) hlt fun t => (ifrotate t).1.issued w r
    refine hcons hf id ⟨_, .fresh (w := w) (r := r) (c := cloned) hlt hw hp hcmd hsize ha, ?_, hs⟩
    exact congrArg (fun t => l.sends ++ [⟨g, t, true, cloned⟩]) htgt
  | @probe _ g g' cloned w r hlt hn hp hcmd hsize ha hs =>
    have htgt := tgt_mod_self (l := l) hlt fun t => (ifrotate t).1.issued w r
    refine hcons hf id ⟨_, .probe (w := w) (r := r) (c := cloned) hlt hn hp hcmd hsize ha, ?_, hs⟩
    exact congrArg (fun t => l.sends ++ [⟨g, t, true, cloned⟩]) htgt
  | @resend l g g' g'' cloned hw hrot hr ha hs =>
    have hlt := lt_of_window hw
    have htgt : (l.mod g.t fun t => (ifrotate t).1.resumed g).tgt g'.t = (ifrotate (l.tgt g.t)).1.resumed g := by
      rw [hr.t]
      exact tgt_mod_self hlt _
    refine hcons hf id ⟨_, .again (c := cloned) (Multiset.mem_cons_self g l.deferred) hlt hw hrot hr ha, ?_, hs⟩
    exact congrArg (fun t => l.sends ++ [⟨g', t, false, cloned⟩]) htgt
  | expire => exact .inl (Multiset.mem_cons_of_mem hf)
  | answer => exact .inl (Multiset.mem_cons_of_mem hf)
  | down => exact absurd hf (Multiset.notMem_zero f)
  | _ => exact .inl hf

theorem Act.deferred (h : Act G l l') {f : Frame} (hf : f ∈ l'.deferred) :
    f ∈ l.active + l.deferred ∨ ∃ g ∈ l.deferred, f.cmd = g.cmd ∧ f.command = g.command := by
  cases h with
  | @expire l g =>
    rcases Multiset.mem_cons.mp hf with rfl | hf
    · exact .inl (Multiset.mem_add.mpr (.inl (Multiset.mem_cons_self _ _)))
    · exact .inl (Multiset.mem_add.mpr (.inr hf))
  | resend => exact .inl (Multiset.mem_add.mpr (.inr (Multiset.mem_cons_of_mem hf)))
  | strand => exact .inl (Multiset.mem_add.mpr (.inr (Multiset.mem_cons_of_mem hf)))
  | leave => exact .inl (Multiset.mem_add.mpr (.inr (Multiset.mem_cons_of_mem hf)))
  | @takeOver l g g' _ _ hcmd hc =>
    rcases Multiset.mem_cons.mp hf with rfl | hf
    · exact .inr ⟨g, Multiset.mem_cons_self _ _, hcmd, hc⟩
    · exact .inl (Multiset.mem_add.mpr (.inr (Multiset.mem_cons_of_mem hf)))
  | down => exact absurd hf (Multiset.notMem_zero f)
  | _ => exact .inl (Multiset.mem_add.mpr (.inr hf))

theorem Act.stranded (h : Act G l l') : l'.stranded = l.stranded ∨
    ∃ i < l.targets.length, (ifrotate (l.tgt i)).2 = false := by
  cases h with
  | @strand l f hrot hw => exact .inr ⟨f.t, lt_of_window (l := l) hw, hrot⟩
  | _ => exact .inl rfl

theorem Act.forall_sends (h : Act G l l') {p : Send → Prop} (hs : ∀ s ∈ l.sends, p s) (hnew : ∀ s, Sent l s → p s) :
    ∀ s ∈ l'.sends, p s := by
  rcases h.sends with ⟨heq, -⟩ | ⟨s, hsent, heq, -⟩
  · rw [heq]
    exact hs
  · rw [heq]
    intro x hx
    rcases List.mem_append.mp hx with hx | hx
    · exact hs x hx
    · rw [List.mem_singleton.mp hx]
      exact hnew s hsent

end Sent

/-- What a property of targets has to be kept by, config responses apart. -/
structure Held (G : Gate) (Q : Aoetgt → Prop) : Prop where
  turn : ∀ t t', Turning G t t' → Q t → Q t'
  count : ∀ t nout noutProbes wpkts rpkts, Q t →
    Q { t with nout := nout, noutProbes := noutProbes, wpkts := wpkts, rpkts := rpkts }
  eject : ∀ t i, i < NAOEIFS → (i ≠ 0 ∨ (t.ifAt 1).nd.isSome) → Q t → Q (ejectif t i)
  reset : ∀ t, Q t → Q (aoecmdWreset t)

/-- A config response has made `t'` of target `t`, or of a new one. -/
structure Configured (G : Gate) (l l' : Traffic) (t t' : Aoetgt) (bcnt : ℕ) : Prop where
  gate : G.setif (l.active + l.deferred) bcnt
  payload : Payload bcnt
  set : ∃ nd, setifbcntTgt t nd bcnt = some t'
  old : t ∈ l.targets ∨ ∃ addr n, G.add n ∧ n < 2^16 ∧ t = newTarget addr n
  active : l'.active = l.active
  deferred : l'.deferred = l.deferred
  maxbcnt : l'.maxbcnt = setdbcntLoop 0 l'.targets
  mem : t' ∈ l'.targets
  others : ∀ x ∈ l'.targets, x ∈ l.targets ∨ x = t'

section Held

variable {G : Gate} {Q : Aoetgt → Prop} {l l' : Traffic}

theorem configured_add {t : Aoetgt} {addr : Mac} {n : ℕ} {nd : NetDev} {bcnt : ℕ} (hn : G.add n) (hlt : n < 2^16)
    (hb : G.setif (l.active + l.deferred) bcnt) (hp : Payload bcnt)
    (ht : setifbcntTgt (newTarget addr n) nd bcnt = some t) (ha : l'.active = l.active) (hd : l'.deferred = l.deferred)
    (hts : l'.targets = l.targets ++ [t]) (hm : l'.maxbcnt = setdbcntLoop 0 (l.targets ++ [t])) :
    Configured G l l' (newTarget addr n) t bcnt := by
  refine ⟨hb, hp, ⟨nd, ht⟩, .inr ⟨addr, n, hn, hlt, rfl⟩, ha, hd, by rw [hm, hts], ?_, ?_⟩
  · rw [hts]
    exact List.mem_append_right _ List.mem_cons_self
  · intro x hx
    rw [hts] at hx
    rcases List.mem_append.mp hx with hx | hx
    · exact .inl hx
    · exact .inr (List.mem_singleton.mp hx)

theorem configured_setif {i : ℕ} {t : Aoetgt} {nd : NetDev} {bcnt : ℕ} (hi : i < l.targets.length)
    (hb : G.setif (l.active + l.deferred) bcnt) (hp : Payload bcnt) (ht : setifbcntTgt (l.tgt i) nd bcnt = some t)
    (ha : l'.active = l.active) (hd : l'.deferred = l.deferred) (hts : l'.targets = l.targets.modify i fun _ => t)
    (hm : l'.maxbcnt = setdbcntLoop 0 (l.targets.modify i fun _ => t)) : Configured G l l' (l.tgt i) t bcnt := by
  have hset : l.targets.modify i (fun _ => t) = l.targets.set i t := by simp [List.modify_eq_set]
  refine ⟨hb, hp, ⟨nd, ht⟩, .inl (mem_of_getD hi), ha, hd, by rw [hm, hts], ?_, ?_⟩
  · rw [hts, hset]
    exact List.mem_set hi t
  · intro x hx
    rw [hts, hset] at hx
    exact List.mem_or_eq_of_mem_set hx

theorem Held.turns (k : Held G Q) {t t' : Aoetgt} (h : Turnings G t t') (ht : Q t) : Q t' := by
  induction h with
  | refl => exact ht
  | tail _ hstep ih => exact k.turn _ _ hstep ih

/-- Every act keeps the property of all targets, or it is a config response. -/
theorem Held.act (k : Held G Q) (h : Act G l l') (hl : ∀ t ∈ l.targets, Q t) :
    (∀ t ∈ l'.targets, Q t) ∨ ∃ t t' bcnt, Configured G l l' t t' bcnt := by
  have hmod {l : Traffic} (i : ℕ) {g : Aoetgt → Aoetgt} (hl : ∀ t ∈ l.targets, Q t) (hg : ∀ t, Q t → Q (g t)) :
      ∀ t ∈ (l.mod i g).targets, Q t := forall_mem_modify hl hg
  have hissued (w r : Aoetgt → ℕ) (t : Aoetgt) (ht : Q t) : Q ((ifrotate t).1.issued w r) :=
    k.count _ _ _ _ _ (k.turn _ _ .rotate ht)
  have hsettled (f : Frame) (t : Aoetgt) (ht : Q t) : Q (t.settled f) := k.count t _ _ t.wpkts t.rpkts ht
  have hresumed (f : Frame) (t : Aoetgt) (ht : Q t) : Q (t.resumed f) := k.count t _ _ t.wpkts t.rpkts ht
  have hprobed (t : Aoetgt) (ht : Q t) : Q t.probed := k.count t t.nout _ t.wpkts t.rpkts ht
  have hat {i : ℕ} {g : Aoetgt → Aoetgt} (hg : i < l.targets.length → Q (g (l.tgt i))) :
      ∀ t ∈ (l.mod i g).targets, Q t := by
    by_cases hi : i < l.targets.length
    · have hconst : l.mod i g = l.mod i fun _ => g (l.tgt i) := mod_at rfl
      rw [hconst]
      exact forall_mem_modify hl fun _ _ => hg hi
    · rw [Traffic.mod, List.modify_eq_self (not_lt.mp hi)]
      exact hl
  cases h with
  | turn ht => exact .inl (hat fun hi => k.turns ht (hl _ (mem_of_getD hi)))
  | @send _ f _ _ w r =>
    have hsent := hmod f.t hl (hissued w r)
    exact .inl hsent
  | @probe _ f _ _ w r =>
    have hsent := hmod f.t (hmod f.t hl (hissued w r)) hprobed
    exact .inl hsent
  | @miss _ i => exact .inl (hmod i hl hprobed)
  | @eject _ x _ hx hi =>
    have heject := hat (g := fun t => ejectif t x.slot) fun hlt => k.eject _ _ hx hi (hl _ (mem_of_getD hlt))
    exact .inl heject
  | @expire l f =>
    have hexpire := hmod (l := l) f.t hl (hsettled f)
    exact .inl hexpire
  | @resend l f =>
    have hsent := hmod (l := l) f.t hl fun t ht => hresumed f _ (k.turn _ _ .rotate ht)
    exact .inl hsent
  | @strand l f =>
    have hstrand := hmod (l := l) f.t hl (hresumed f)
    exact .inl hstrand
  | takeOver => exact .inl hl
  | leave => exact .inl hl
  | @answer l f =>
    have hanswer := hmod (l := l) f.t hl (hsettled f)
    exact .inl hanswer
  | add hn hlt hb hp ht => exact .inr ⟨_, _, _, configured_add hn hlt hb hp ht rfl rfl rfl rfl⟩
  | setif hi hb hp ht => exact .inr ⟨_, _, _, configured_setif hi hb hp ht rfl rfl rfl rfl⟩
  | clean =>
    left
    intro x hx
    obtain ⟨t, ht, rfl⟩ := List.mem_map.mp hx
    exact k.reset t (hl t ht)
  | down =>
    left
    intro x hx
    obtain ⟨t, ht, rfl⟩ := List.mem_map.mp hx
    exact k.count _ 0 t.noutProbes t.wpkts t.rpkts (k.reset t (hl t ht))

end Held

/-- What a property of targets has to be kept by. -/
structure Kept (G : Gate) (Q : Aoetgt → Prop) : Prop where
  turn : ∀ t t', Turning G t t' → Q t → Q t'
  count : ∀ t nout noutProbes wpkts rpkts, Q t →
    Q { t with nout := nout, noutProbes := noutProbes, wpkts := wpkts, rpkts := rpkts }
  eject : ∀ t i, i < NAOEIFS → (i ≠ 0 ∨ (t.ifAt 1).nd.isSome) → Q t → Q (ejectif t i)
  setif : ∀ t t' nd bcnt, Payload bcnt → setifbcntTgt t nd bcnt = some t' → Q t → Q t'
  add : ∀ t addr n nd bcnt, G.add n → n < 2^16 → Payload bcnt → setifbcntTgt (newTarget addr n) nd bcnt = some t → Q t
  reset : ∀ t, Q t → Q (aoecmdWreset t)

section Kept

variable {G : Gate} {Q : Aoetgt → Prop} {l l' : Traffic}

theorem Kept.act (k : Kept G Q) (h : Act G l l') (hl : ∀ t ∈ l.targets, Q t) : ∀ t ∈ l'.targets, Q t := by
  have hheld : Held G Q := ⟨k.turn, k.count, k.eject, k.reset⟩
  rcases hheld.act h hl with hall | ⟨t, t', bcnt, hc⟩
  · exact hall
  · intro x hx
    rcases hc.others x hx with hx | rfl
    · exact hl x hx
    · obtain ⟨nd, hset⟩ := hc.set
      rcases hc.old with hold | ⟨addr, n, hn, hlt, rfl⟩
      · exact k.setif _ _ _ _ hc.payload hset (hl _ hold)
      · exact k.add _ _ _ _ _ hn hlt hc.payload hset

end Kept

end AoeDriver
