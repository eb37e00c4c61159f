import AoeDriver.Frames.View

/-!
# Taking and issuing frames

The ledger moves of `newtframe`, `newframe`, `probe` and `aoecmd_ata_id`.
-/

namespace AoeDriver

open Tables

/-- Only the pool of packets and the outcomes of their allocation differ. -/
def SkbsOnly (d d' : Aoedev) : Prop :=
  ∃ pool links n ids outcomes, d' = { d with
    skbpool := pool, skbLinks := links, nskbpool := n, skbIds := ids, env.skb := outcomes }

theorem SkbsOnly.trans {d d' d'' : Aoedev} (h : SkbsOnly d d') (h' : SkbsOnly d' d'') : SkbsOnly d d'' := by
  obtain ⟨p, k, n, i, o, rfl⟩ := h
  obtain ⟨p', k', n', i', o', rfl⟩ := h'
  exact ⟨p', k', n', i', o', rfl⟩

theorem SkbsOnly.ledger {d d' : Aoedev} (hs : SkbsOnly d d') (h : Hands) :
    d'.ledger h = { d.ledger h with pool := d'.pool } := by
  obtain ⟨p, k, n, i, o, rfl⟩ := hs
  rfl

theorem SkbsOnly.quiet {d d' : Aoedev} (hs : SkbsOnly d d') (hp : d'.pool = d.pool) (h : Hands) : Quiet h d h d' := by
  have hl : d'.ledger h = d.ledger h := by
    rw [hs.ledger, hp]
    rfl
  obtain ⟨p, k, n, i, o, rfl⟩ := hs
  exact Quiet.of_eq hl rfl rfl

private theorem newSkb_only (d : Aoedev) : SkbsOnly d (newSkb d).1 := by
  simp only [newSkb]
  split
  · exact ⟨_, _, _, _, _, rfl⟩
  · exact ⟨_, _, _, _, _, rfl⟩

private theorem newSkb_cases (d : Aoedev) : (newSkb d).2 = none ∧ (newSkb d).1.pool = d.pool ∨
    (∃ skb, (newSkb d).2 = some skb ∧ skb.id = d.pool.made ∧ skb.dataref = 1) ∧
      (newSkb d).1.pool = { d.pool with made := d.pool.made + 1 } := by
  simp only [newSkb]
  split
  · exact .inr ⟨⟨_, rfl, rfl, rfl⟩, rfl⟩
  · exact .inl ⟨rfl, rfl⟩

private theorem skbPoolGrow_only (d : Aoedev) : SkbsOnly d (skbPoolGrow d).1 := by
  simp only [skbPoolGrow]
  have hn := newSkb_only d
  split
  · split
    · rename_i d' skb heq
      rw [heq] at hn
      exact hn.trans ⟨_, _, _, _, _, rfl⟩
    · rename_i d' heq
      rwa [heq] at hn
  · exact ⟨_, _, _, _, _, rfl⟩

private theorem skbPoolGet_only (d : Aoedev) : SkbsOnly d (skbPoolGet d).1 := by
  simp only [skbPoolGet]
  split
  · exact skbPoolGrow_only d
  · split
    · exact ⟨_, _, _, _, _, rfl⟩
    · exact skbPoolGrow_only d

/-- The packet a frame gets from the pool in exchange for its own, if there is one. -/
def Exchanges (p : Pool) (i : ℕ) (o : Option Skb) (d : Aoedev) : Prop :=
  match o with
  | none => d.pool = p
  | some new => new.dataref = 1 ∧ ∀ skb : Skb, skb.id = i → Restock p (some i) (skbPoolPut d skb).pool (some new.id)

private theorem skbPoolGrow_exchanges (d : Aoedev) (i : ℕ) : Exchanges d.pool i (skbPoolGrow d).2 (skbPoolGrow d).1 := by
  have hn := newSkb_cases d
  unfold skbPoolGrow
  split
  · rename_i hc
    generalize newSkb d = r at hn ⊢
    obtain ⟨d₁, o⟩ := r
    cases o with
    | none =>
      rcases hn with ⟨-, hp⟩ | ⟨⟨skb, hskb, -⟩, -⟩
      · exact hp
      · exact absurd hskb (by simp)
    | some new =>
      rcases hn with ⟨hnone, -⟩ | ⟨⟨skb, hskb, hid, href⟩, hp⟩
      · exact absurd hnone (by simp)
      · obtain rfl : new = skb := Option.some.inj hskb
        refine ⟨href, fun skb hi => ?_⟩
        have hpool : (skbPoolPut { d₁ with nskbpool := d₁.nskbpool + 1 } skb).pool =
            { ids := d₁.pool.ids ++ [skb.id], links := d₁.pool.links.put skb.id, count := d₁.pool.count + 1
              made := d₁.pool.made } := by
          simp [skbPoolPut, Aoedev.pool]
        dsimp only at hp ⊢
        rw [hpool, hp, hid, hi]
        exact .grow hc
  · rfl

private theorem skbPoolGet_exchanges (d : Aoedev) (i : ℕ) : Exchanges d.pool i (skbPoolGet d).2 (skbPoolGet d).1 := by
  unfold skbPoolGet
  split
  · exact skbPoolGrow_exchanges d i
  · rename_i skb rest hpool
    split
    · rename_i href
      refine ⟨href, fun old hi => ?_⟩
      have hids : d.pool.ids = skb.id :: rest.map Skb.id := by
        simp [Aoedev.pool, hpool]
      have hput : (skbPoolPut { d with skbpool := rest, skbLinks := d.skbLinks.get } old).pool =
          { d.pool with ids := rest.map Skb.id ++ [i], links := d.pool.links.get.put i } := by
        simp [skbPoolPut, Aoedev.pool, hi]
      dsimp only
      rw [hput]
      exact .swap hids
    · exact skbPoolGrow_exchanges d i

/-- A target without its stock of frames and its place in the rotation of interfaces. -/
def Aoetgt.face (t : Aoetgt) : Aoetgt := { t with ffree := [], falloc := 0, ifp := 0 }

def SameFaces (d d' : Aoedev) : Prop := d'.targets.map Aoetgt.face = d.targets.map Aoetgt.face

namespace SameFaces

variable {d d' d'' : Aoedev}

theorem refl (d : Aoedev) : SameFaces d d := rfl

theorem trans (h : SameFaces d d') (h' : SameFaces d' d'') : SameFaces d d'' := Eq.trans h' h

private theorem of_skbs (h : SkbsOnly d d') : SameFaces d d' := by
  obtain ⟨p, k, n, i, o, rfl⟩ := h
  rfl

theorem modTgt (d : Aoedev) (i : ℕ) (g : Aoetgt → Aoetgt) (hg : ∀ t, (g t).face = t.face) :
    SameFaces d (d.modTgt i g) := map_modify_same _ _ _ _ hg

theorem length (h : SameFaces d d') : d'.targets.length = d.targets.length := by
  have hl := congrArg List.length h
  simpa using hl

theorem face (h : SameFaces d d') (i : ℕ) : (d'.tgtAt i).face = (d.tgtAt i).face := by
  have hget := congrArg (fun l => l[i]?) h
  simp only [List.getElem?_map] at hget
  simp only [Aoedev.tgtAt, List.getD_eq_getElem?_getD]
  cases h1 : d'.targets[i]? with
  | none =>
    cases h2 : d.targets[i]? with
    | none => rfl
    | some t => simp [h1, h2] at hget
  | some t' =>
    cases h2 : d.targets[i]? with
    | none => simp [h1, h2] at hget
    | some t =>
      simp only [h1, h2, Option.map_some, Option.some.injEq] at hget
      exact hget

theorem field {β : Type} (h : SameFaces d d') (i : ℕ) (φ : Aoetgt → β) (hφ : ∀ t, φ t.face = φ t) :
    φ (d'.tgtAt i) = φ (d.tgtAt i) := by
  rw [← hφ, h.face, hφ]

end SameFaces

section Fetch

variable {d : Aoedev} {h : Hands} {f : Frame} {t : ℕ}

theorem freetframe_quiet (d : Aoedev) (h : Hands) {f : Frame} (hf : f.Blank) :
    Quiet (h.hold f) d h (aoeFreetframe d f) := by
  refine ⟨?_, id, rfl⟩
  rw [ledger_aoeFreetframe, ledger_hands_hold, Frame.blank_of_Blank hf]
  exact .single (.giveBack hf)

theorem freetframe_faces (d : Aoedev) (f : Frame) : SameFaces d (aoeFreetframe d f) :=
  SameFaces.modTgt _ _ _ fun _ => rfl

private theorem reskb_quiet {d d' : Aoedev} (ho : SkbsOnly d d') (h : Hands) {f : Frame} (hf : f.Blank) {skb : Option Skb}
    (hs : Restock d.pool f.packet d'.pool (skb.map Skb.id)) :
    Quiet (h.hold f) d (h.hold { f with skb := skb }) d' := by
  have hm : Move true (d.ledger (h.hold f)) (d'.ledger (h.hold { f with skb := skb })) := by
    rw [ledger_hands_hold, ledger_hands_hold, ho.ledger]
    exact .reskb hf hs
  obtain ⟨p, k, n, i, o, rfl⟩ := ho
  exact ⟨.single hm, id, rfl⟩

private theorem frameSkb_only (d : Aoedev) (f : Frame) : SkbsOnly d (frameSkb d f).1 := by
  unfold frameSkb
  split
  · exact ⟨_, _, _, _, _, rfl⟩
  · exact newSkb_only d

/-- The frame has a packet now, or there is no memory for one. -/
private theorem frameSkb_quiet (d : Aoedev) (h : Hands) {f : Frame} (hf : f.Blank) :
    match (frameSkb d f).2 with
    | none => Quiet (h.hold f) d (h.hold f) (frameSkb d f).1
    | some skb => Quiet (h.hold f) d (h.hold { f with skb := some skb }) (frameSkb d f).1 := by
  have ho := frameSkb_only d f
  have hn := newSkb_cases d
  unfold frameSkb at ho ⊢
  cases hskb : f.skb with
  | some skb =>
    refine reskb_quiet ⟨_, _, _, _, _, rfl⟩ h hf ?_
    rw [Frame.packet, hskb]
    exact .keep
  | none =>
    rw [hskb] at ho
    dsimp only at ho ⊢
    generalize newSkb d = r at hn ho ⊢
    obtain ⟨d₁, o⟩ := r
    cases o with
    | none =>
      rcases hn with ⟨-, hp⟩ | ⟨⟨skb, hskb, -⟩, -⟩
      · exact ho.quiet hp _
      · exact absurd hskb (by simp)
    | some new =>
      rcases hn with ⟨hnone, -⟩ | ⟨⟨skb, hsome, hid, -⟩, hp⟩
      · exact absurd hnone (by simp)
      · obtain rfl : new = skb := Option.some.inj hsome
        refine reskb_quiet ho h hf ?_
        dsimp only at hp
        rw [Frame.packet, hskb, hp, Option.map_some, hid]
        exact .make

/-- What `newtframe` achieves: a blank frame of target `t` in hand, or none. -/
def Fetches (h : Hands) (d : Aoedev) (t : ℕ) (r : Aoedev × Option Frame) : Prop :=
  SameFaces d r.1 ∧
    match r.2 with
    | some f => Quiet h d (h.hold f) r.1 ∧ f.t = t ∧ f.Blank
    | none => Quiet h d h r.1

theorem Fetches.after {d' : Aoedev} {h' : Hands} {r : Aoedev × Option Frame} (hq : ∀ h'' d'', Quiet h' d' h'' d'' →
    Quiet h d h'' d'') (hs : SameFaces d d') (hr : SameFaces d' r.1 ∧
      match r.2 with
      | some f => Quiet h' d' (h.hold f) r.1 ∧ f.t = t ∧ f.Blank
      | none => Quiet h' d' h r.1) : Fetches h d t r := by
  obtain ⟨d'', o⟩ := r
  refine ⟨hs.trans hr.1, ?_⟩
  cases o with
  | some f => exact ⟨hq _ _ hr.2.1, hr.2.2⟩
  | none => exact hq _ _ hr.2

private theorem newtframeSkb_fetches (d : Aoedev) (h : Hands) {f : Frame} (hf : f.Blank) :
    SameFaces d (newtframeSkb d f).1 ∧
      match (newtframeSkb d f).2 with
      | some f' => Quiet (h.hold f) d (h.hold f') (newtframeSkb d f).1 ∧ f'.t = f.t ∧ f'.Blank
      | none => Quiet (h.hold f) d h (newtframeSkb d f).1 := by
  have hfst := frameSkb_only d f
  have hq₁ := frameSkb_quiet d h hf
  unfold newtframeSkb
  generalize frameSkb d f = r at hfst hq₁ ⊢
  obtain ⟨d₁, o⟩ := r
  cases o with
  | none => exact ⟨(SameFaces.of_skbs hfst).trans (freetframe_faces _ _), hq₁.trans (freetframe_quiet _ _ hf)⟩
  | some skb =>
    have hf₁ : Frame.Blank { f with skb := some skb } := hf
    dsimp only at hq₁ ⊢
    split
    · refine ⟨SameFaces.of_skbs hfst, hq₁.trans ?_, rfl, hf⟩
      exact reskb_quiet ⟨_, _, _, _, _, rfl⟩ h hf₁ .keep
    · have hget := skbPoolGet_only d₁
      have hex := skbPoolGet_exchanges d₁ skb.id
      generalize skbPoolGet d₁ = r at hget hex ⊢
      obtain ⟨d₂, o⟩ := r
      have hfaces := (SameFaces.of_skbs hfst).trans (SameFaces.of_skbs hget)
      cases o with
      | none =>
        refine ⟨hfaces.trans (freetframe_faces _ _), ?_⟩
        exact (hq₁.trans (hget.quiet hex _)).trans (freetframe_quiet _ _ hf₁)
      | some new =>
        have hput : SkbsOnly d₂ (skbPoolPut d₂ skb) := ⟨_, _, _, _, _, rfl⟩
        refine ⟨hfaces.trans (SameFaces.of_skbs hput), hq₁.trans ?_, rfl, hf⟩
        exact reskb_quiet (hget.trans hput) h hf₁ (hex.2 skb rfl)

private theorem newtframeSkb_dataref (d : Aoedev) (f : Frame) {d' : Aoedev} {f' : Frame}
    (h : newtframeSkb d f = (d', some f')) : ∃ skb, f'.skb = some skb ∧ skb.dataref = 1 := by
  unfold newtframeSkb at h
  generalize frameSkb d f = r at h
  obtain ⟨d₁, o⟩ := r
  cases o with
  | none => exact absurd (congrArg Prod.snd h) (by simp)
  | some skb =>
    dsimp only at h
    split at h
    · rename_i href
      obtain ⟨-, hf⟩ := Prod.mk.inj h
      exact ⟨skb.trim, by rw [← Option.some.inj hf], href⟩
    · have hex := skbPoolGet_exchanges d₁ skb.id
      generalize skbPoolGet d₁ = r at hex h
      obtain ⟨d₂, o⟩ := r
      cases o with
      | none => exact absurd (congrArg Prod.snd h) (by simp)
      | some new =>
        obtain ⟨-, hf⟩ := Prod.mk.inj h
        exact ⟨new.trim, by rw [← Option.some.inj hf], hex.1⟩

private theorem take_quiet (hft : f.t = t) (ht : t < d.targets.length) {rest : List Frame}
    (hfree : (d.tgtAt t).ffree = f :: rest) :
    Quiet h d (h.hold f) (d.modTgt t fun x => { x with ffree := rest }) := by
  refine ⟨?_, id, rfl⟩
  let d' := d.modTgt t fun x => { x with ffree := rest }
  have hback : (d'.ledger h).put f = d.ledger h := by
    have hl : (d'.modTgt t fun x => { x with ffree := f :: x.ffree }).ledger h = (d'.ledger h).put f := by
      rw [Ledger.put, hft]
      exact ledger_modTgt d' h t _ (fun s => { s with free := f ::ₘ s.free }) (fun _ => rfl)
    rw [← hl]
    congr 1
    simp only [d', Aoedev.modTgt]
    have hmod : (d.targets.modify t fun x => { x with ffree := rest }).modify t
        (fun x => { x with ffree := f :: x.ffree }) = d.targets := by
      rw [List.modify_modify_eq]
      apply modify_fixed
      change { d.tgtAt t with ffree := f :: rest } = d.tgtAt t
      rw [← hfree]
    rw [hmod]
  rw [ledger_hands_hold, ← hback]
  exact .single (.take (by rw [hft]; simpa [d'] using ht))

theorem newtframe_fetches (hi : (d.ledger h).Inv) (ht : t < d.targets.length) : Fetches h d t (newtframe d t) := by
  unfold newtframe
  split
  · split
    · exact ⟨SameFaces.refl d, Quiet.refl h d⟩
    · rename_i hfree hcap
      dsimp only
      split
      · -- a new frame, put on the free list and taken from it at once
        let d₁ := { d with env.kcalloc := (nextOutcome d.env.kcalloc).2 }
        let f₀ : Frame := { (default : Frame) with id := d.frameIds, t := t }
        let d₂ := { d₁ with frameIds := d₁.frameIds + 1 }.modTgt t fun x => { x with falloc := x.falloc + 1 }
        have hblank : f₀.Blank := ⟨rfl, rfl, rfl, rfl⟩
        have hl : d₂.ledger h = ({ d.ledger h with frameIds := (d.ledger h).frameIds + 1 }.modSlot t fun s =>
            { s with falloc := s.falloc + 1 }) :=
          ledger_modTgt _ h t _ (fun s => { s with falloc := s.falloc + 1 }) (fun _ => rfl)
        have hmoves : Moves true (d.ledger h) (d₂.ledger (h.hold f₀)) := by
          have halloc : Move true (d.ledger h) ((d₂.ledger h).put f₀) := by
            rw [hl]
            apply Move.alloc (f := f₀)
            · rw [slot_ledger]
              exact Nat.lt_of_not_le hcap
            · rfl
            · simpa [f₀] using ht
            · exact hblank
            · rfl
          rw [ledger_hands_hold]
          refine .tail (.single halloc) (.take ?_)
          rw [slots_ledger]
          simpa [d₂, d₁, f₀] using ht
        have hq : Quiet h d (h.hold f₀) d₂ := ⟨hmoves, id, rfl⟩
        have hs : SameFaces d d₂ := map_modify_same _ _ _ _ (fun _ => rfl)
        exact Fetches.after (fun _ _ => hq.trans) hs (newtframeSkb_fetches d₂ h hblank)
      · exact ⟨rfl, Quiet.of_eq rfl rfl rfl⟩
  · rename_i f rest hfree
    have hmem : f ∈ ((d.ledger h).slot t).free := by
      rw [slot_ledger]
      simp [Aoetgt.slot, hfree]
    obtain ⟨hft, hblank⟩ := hi.free t f hmem
    have hq := take_quiet (h := h) hft ht hfree
    have hs : SameFaces d (d.modTgt t fun x => { x with ffree := rest }) := SameFaces.modTgt _ _ _ fun _ => rfl
    have hr := newtframeSkb_fetches (d.modTgt t fun x => { x with ffree := rest }) h hblank
    rw [hft] at hr
    exact Fetches.after (fun _ _ => hq.trans) hs hr

theorem newtframe_dataref (d : Aoedev) (t : ℕ) {d' : Aoedev} {f : Frame} (h : newtframe d t = (d', some f)) :
    ∃ skb, f.skb = some skb ∧ skb.dataref = 1 := by
  unfold newtframe at h
  split at h
  · split at h
    · exact absurd (congrArg Prod.snd h) (by simp)
    · dsimp only at h
      split at h
      · exact newtframeSkb_dataref _ _ h
      · exact absurd (congrArg Prod.snd h) (by simp)
  · exact newtframeSkb_dataref _ _ h

private theorem newtframe_skb (d : Aoedev) (t : ℕ) (f : Frame) (h : (newtframe d t).2 = some f) : f.skb.isSome := by
  obtain ⟨skb, hskb, -⟩ := newtframe_dataref d t (Prod.ext rfl h)
  rw [hskb]
  rfl

end Fetch

/-- Only packets and free frames differ, and the outcomes of their allocation. -/
def StockOnly (d d' : Aoedev) : Prop :=
  ∃ pool links n ids outcomes calloc frameIds targets,
    d' = { d with
      skbpool := pool, skbLinks := links, nskbpool := n, skbIds := ids, env.skb := outcomes, env.kcalloc := calloc
      frameIds := frameIds, targets := targets } ∧
    targets.map Aoetgt.bare = d.targets.map Aoetgt.bare

section Stock

variable {d d' d'' : Aoedev}

theorem StockOnly.refl (d : Aoedev) : StockOnly d d := ⟨_, _, _, _, _, _, _, _, rfl, rfl⟩

theorem StockOnly.trans (h : StockOnly d d') (h' : StockOnly d' d'') : StockOnly d d'' := by
  obtain ⟨p, q, n, i, o, c, k, ts, rfl, ht⟩ := h
  obtain ⟨p', q', n', i', o', c', k', ts', rfl, ht'⟩ := h'
  exact ⟨p', q', n', i', o', c', k', ts', rfl, ht'.trans ht⟩

theorem SkbsOnly.stock (h : SkbsOnly d d') : StockOnly d d' := by
  obtain ⟨p, q, n, i, o, rfl⟩ := h
  exact ⟨p, q, n, i, o, _, _, _, rfl, rfl⟩

private theorem modTgt_stock (d : Aoedev) (i : ℕ) (g : Aoetgt → Aoetgt) (hg : ∀ t, (g t).bare = t.bare) :
    StockOnly d (d.modTgt i g) := ⟨_, _, _, _, _, _, _, _, rfl, map_modify_same _ _ _ _ hg⟩

theorem freetframe_stock (d : Aoedev) (f : Frame) : StockOnly d (aoeFreetframe d f) := modTgt_stock _ _ _ fun _ => rfl

private theorem newtframeSkb_stock (d : Aoedev) (f : Frame) : StockOnly d (newtframeSkb d f).1 := by
  have hfst := frameSkb_only d f
  unfold newtframeSkb
  split
  · rename_i d₁ heq
    rw [heq] at hfst
    exact hfst.stock.trans (freetframe_stock _ _)
  · rename_i d₁ skb heq
    rw [heq] at hfst
    have hget := skbPoolGet_only d₁
    dsimp only
    split
    · exact hfst.stock
    · split
      · rename_i d₂ heq₂
        rw [heq₂] at hget
        exact (hfst.trans hget).stock.trans (freetframe_stock _ _)
      · rename_i d₂ new heq₂
        rw [heq₂] at hget
        have hput : SkbsOnly d₂ (skbPoolPut d₂ skb) := ⟨_, _, _, _, _, rfl⟩
        exact ((hfst.trans hget).trans hput).stock

theorem newtframe_stock (d : Aoedev) (t : ℕ) : StockOnly d (newtframe d t).1 := by
  unfold newtframe
  split
  · split
    · exact StockOnly.refl d
    · dsimp only
      split
      · refine StockOnly.trans ?_ (newtframeSkb_stock _ _)
        exact ⟨_, _, _, _, _, _, _, _, rfl, map_modify_same _ _ _ _ fun _ => rfl⟩
      · exact ⟨_, _, _, _, _, _, _, _, rfl, rfl⟩
  · rename_i f rest hfree
    exact (modTgt_stock d t (fun x => { x with ffree := rest }) fun _ => rfl).trans (newtframeSkb_stock _ _)

end Stock

private theorem ifrotate_fst (t : Aoetgt) : ∃ i, (ifrotate t).1 = { t with ifp := i } := by
  unfold ifrotate
  dsimp only
  generalize (if NAOEIFS ≤ t.ifp + 1 || (t.ifAt (t.ifp + 1)).nd.isNone then 0 else t.ifp + 1) = i
  split
  · exact ⟨t.ifp, rfl⟩
  · exact ⟨i, rfl⟩

theorem slot_ifrotate (t : Aoetgt) : (ifrotate t).1.slot = t.slot := by
  obtain ⟨i, hi⟩ := ifrotate_fst t
  rw [hi]
  rfl

private theorem face_ifrotate (t : Aoetgt) : (ifrotate t).1.face = t.face := by
  obtain ⟨i, hi⟩ := ifrotate_fst t
  rw [hi]
  rfl

theorem nextSlot_lt {d : Aoedev} (hd : d.targets ≠ []) (tt : ℕ) : d.nextSlot tt < d.targets.length := by
  have hpos := List.length_pos_iff.mpr hd
  unfold Aoedev.nextSlot
  split
  · assumption
  · exact hpos

private theorem ifrotate_quiet (d : Aoedev) (h : Hands) (i : ℕ) : Quiet h d h (d.modTgt i fun t => (ifrotate t).1) :=
  Quiet.of_eq (ledger_modTgt_same d h i _ slot_ifrotate) rfl rfl

/-- What `newframe` achieves: a blank frame of a target with an open window in hand, or none. -/
def Chooses (h : Hands) (d : Aoedev) (r : Aoedev × Option Frame) : Prop :=
  SameFaces d r.1 ∧
    match r.2 with
    | some f => Quiet h d (h.hold f) r.1 ∧ f.Blank ∧ f.t < d.targets.length ∧
        (d.tgtAt f.t).nout < (d.tgtAt f.t).maxout
    | none => Quiet h d h r.1

theorem Chooses.after {h : Hands} {d d' : Aoedev} {r : Aoedev × Option Frame} (hq : Quiet h d h d')
    (hs : SameFaces d d') (hr : Chooses h d' r) : Chooses h d r := by
  obtain ⟨d'', o⟩ := r
  refine ⟨hs.trans hr.1, ?_⟩
  cases o with
  | some f =>
    obtain ⟨hf, hb, ht, hw⟩ := hr.2
    refine ⟨hq.trans hf, hb, hs.length ▸ ht, ?_⟩
    rwa [hs.field f.t Aoetgt.nout (fun _ => rfl), hs.field f.t Aoetgt.maxout (fun _ => rfl)] at hw
  | none => exact hq.trans hr.2

theorem newframeTry_fetches {h : Hands} {d : Aoedev} (hi : (d.ledger h).Inv) {tt : ℕ} (htt : tt < d.targets.length)
    (useTainted : Bool) : Fetches h d tt (newframeTry d tt useTainted) ∧
      ((newframeTry d tt useTainted).2.isSome → (d.tgtAt tt).nout < (d.tgtAt tt).maxout) := by
  unfold newframeTry
  dsimp only
  split
  · rename_i hc
    refine ⟨newtframe_fetches hi htt, fun _ => ?_⟩
    simp only [Bool.and_eq_true, decide_eq_true_eq] at hc
    exact hc.1.1
  · exact ⟨⟨SameFaces.refl d, Quiet.refl h d⟩, by simp⟩

private theorem newframeLoop_chooses {h : Hands} (fuel : ℕ) {d : Aoedev} (hi : (d.ledger h).Inv) (hd : d.targets ≠ [])
    (tt : ℕ) (useTainted hasUntainted : Bool) (totout : ℕ) :
    Chooses h d (newframeLoop fuel d tt useTainted hasUntainted totout) := by
  induction fuel generalizing d tt useTainted hasUntainted totout with
  | zero => exact ⟨SameFaces.refl d, Quiet.refl h d⟩
  | succ fuel ih =>
    unfold newframeLoop
    have htt := nextSlot_lt hd tt
    generalize d.nextSlot tt = tt at htt ⊢
    dsimp only
    generalize (if (d.tgtAt tt).taint = 0 then totout + (d.tgtAt tt).nout else totout) = totout
    obtain ⟨⟨hs, ho⟩, hwin⟩ := newframeTry_fetches hi htt useTainted
    generalize newframeTry d tt useTainted = r at hs ho hwin ⊢
    obtain ⟨d', o⟩ := r
    have hd' : d'.targets ≠ [] := by
      rw [← List.length_pos_iff, hs.length, List.length_pos_iff]
      exact hd
    cases o with
    | some f =>
      obtain ⟨hq, hft, hb⟩ := ho
      have hrot : Quiet (h.hold f) d' (h.hold f) { d'.modTgt tt fun t => (ifrotate t).1 with tgt := tt } :=
        (ifrotate_quiet d' (h.hold f) tt).trans (Quiet.of_eq rfl rfl rfl)
      have hface : SameFaces d { d'.modTgt tt fun t => (ifrotate t).1 with tgt := tt } :=
        hs.trans (SameFaces.modTgt _ _ _ face_ifrotate)
      exact ⟨hface, hq.trans hrot, hb, hft ▸ htt, hft ▸ hwin rfl⟩
    | none =>
      have hi' := Quiet.inv ho hi
      dsimp only
      split
      · split
        · exact Chooses.after ho hs (ih hi' hd' _ _ _ _)
        · split
          · refine Chooses.after ho hs ⟨rfl, ?_⟩
            exact ⟨.single .kick, id, rfl⟩
          · exact Chooses.after ho hs ⟨SameFaces.refl d', Quiet.refl h d'⟩
      · exact Chooses.after ho hs (ih hi' hd' _ _ _ _)

theorem newframe_chooses {h : Hands} {d : Aoedev} (hi : (d.ledger h).Inv) : Chooses h d (newframe d) := by
  unfold newframe
  split
  · exact ⟨SameFaces.refl d, Quiet.refl h d⟩
  · rename_i hd
    exact newframeLoop_chooses _ hi hd _ _ _ _

private theorem newframeLoop_skb (fuel : ℕ) (d : Aoedev) (tt : ℕ) (useTainted hasUntainted : Bool) (totout : ℕ)
    (f : Frame) (h : (newframeLoop fuel d tt useTainted hasUntainted totout).2 = some f) : f.skb.isSome := by
  induction fuel generalizing d tt useTainted hasUntainted totout with
  | zero => exact absurd h (by simp [newframeLoop])
  | succ fuel ih =>
    unfold newframeLoop at h
    generalize d.nextSlot tt = tt at h
    dsimp only at h
    generalize (if (d.tgtAt tt).taint = 0 then totout + (d.tgtAt tt).nout else totout) = totout at h
    have htry : ∀ g, (newframeTry d tt useTainted).2 = some g → g.skb.isSome := by
      unfold newframeTry
      dsimp only
      split
      · exact newtframe_skb d tt
      · exact fun g hg => absurd hg (by simp)
    generalize newframeTry d tt useTainted = r at h htry
    obtain ⟨d', o⟩ := r
    cases o with
    | some g => exact htry f h
    | none =>
      dsimp only at h
      split at h
      · split at h
        · exact ih _ _ _ _ _ h
        · split at h
          · exact absurd h (by simp)
          · exact absurd h (by simp)
      · exact ih _ _ _ _ _ h

theorem newframe_skb (d : Aoedev) (f : Frame) (h : (newframe d).2 = some f) : f.skb.isSome := by
  unfold newframe at h
  split at h
  · exact absurd h (by simp)
  · exact newframeLoop_skb _ _ _ _ _ _ f h

section Send

variable (d : Aoedev) (h : Hands) (f : Frame) (data : Option (List BioVec))

theorem ledger_sendClone :
    (sendClone d f).1.ledger h = { d.ledger h with clones := (nextOutcome d.env.clone).2 } := by
  simp only [sendClone]
  split
  · rfl
  · rfl

@[simp] theorem blk_sendClone : (sendClone d f).1.blk = d.blk := by
  simp only [sendClone]
  split
  · rfl
  · rfl

@[simp] theorem factive_sendClone : (sendClone d f).1.factive = d.factive := by
  simp only [sendClone]
  split
  · rfl
  · rfl

theorem sendClone_stamped {d : Aoedev} {f g : Frame} {l : Ledger} {P : Frame → Prop} (hc : d.clock = l.clock)
    (he : d.env.clone = l.clones) (hs : f.sent = g.sent) (hj : f.sentJiffs = g.sentJiffs)
    (hP : ∀ sent jiffs, Stamped l g { f with sent := sent, sentJiffs := jiffs } →
      P { f with sent := sent, sentJiffs := jiffs }) : P (sendClone d f).2 := by
  simp only [sendClone]
  split
  · rename_i hok
    apply hP
    rw [Stamped, ← he, if_pos hok, ← hc]
    exact ⟨rfl, rfl⟩
  · rename_i hok
    apply hP f.sent f.sentJiffs
    rw [Stamped, ← he, if_neg hok]
    exact ⟨hs, hj⟩

private theorem ledger_frameinit : (ataRwFrameinit d f data).1.ledger h =
    { d.ledger h with log := (d.ledger h).issue.log }.modSlot f.t fun s => { s with nout := incUshort s.nout } := by
  simp only [Aoedev.ledger, ataRwFrameinit, newCommand, aoehdrAtainit, newtag, Aoedev.noteNd, Aoedev.noteXmit,
    Aoedev.modTgt, Ledger.modSlot, Ledger.issue, Ledger.xmit, Ledger.nextTag]
  rw [map_modify _ _ _ (fun s : Slot => { s with nout := incUshort s.nout }) Aoetgt.slot (fun _ => rfl)]

theorem blk_frameinit : (ataRwFrameinit d f data).1.blk = d.blk := by
  simp only [ataRwFrameinit, aoehdrAtainit, blk_noteXmit, blk_modTgt, blk_noteNd, blk_newtag, blk_newCommand]

theorem factive_frameinit : (ataRwFrameinit d f data).1.factive = d.factive := rfl

theorem factive_noteCut (buf : Buf) : (d.noteCut f buf).factive = d.factive := rfl
theorem factive_noteSend (first : Bool) : (d.noteSend f first).factive = d.factive := rfl
theorem ledger_noteSend (first : Bool) : (d.noteSend f first).ledger h = d.ledger h := rfl
theorem blk_noteSend (first : Bool) : (d.noteSend f first).blk = d.blk := rfl
theorem factive_cutBuf (b : ℕ) : (cutBuf d b).factive = d.factive := rfl
private theorem ledger_noteCut (buf : Buf) : (d.noteCut f buf).ledger h = d.ledger h := rfl
private theorem ledger_cutBuf (b : ℕ) : (cutBuf d b).ledger h = d.ledger h := rfl
private theorem clock_frameinit : (ataRwFrameinit d f data).1.clock = d.clock := rfl
private theorem clone_frameinit : (ataRwFrameinit d f data).1.env.clone = d.env.clone := rfl

private theorem frameinit_frame : ∃ nout skb, (ataRwFrameinit d f data).2 =
      { f with
        cmd := d.hist.ncmds, born := d.clock.wall, tag := (d.ledger h).nextTag, nout := nout, waited := 0
        waitedTotal := 0, skb := some skb } ∧
    skb.hdr.tag = (d.ledger h).nextTag ∧ skb.id = (f.skb.getD default).id ∧
    skb.ata = ataRwHdr d.flags.ext data.isSome f.iter :=
  ⟨_, _, rfl, rfl, rfl, rfl⟩

private theorem sendClone_issued {d : Aoedev} {l : Ledger} {f g : Frame} {s : Skb} (hc : d.clock = l.clock)
    (he : d.env.clone = l.clones) (hid : g.id = f.id) (ht : g.t = f.t) (hr : g.rSkb = f.rSkb)
    (hs : g.sent = f.sent) (hj : g.sentJiffs = f.sentJiffs) (hcmd : g.cmd = l.log.ncmds)
    (hborn : g.born = l.clock.wall) (hw : g.waitedTotal = 0) (htag : g.tag = l.nextTag)
    (hskb : g.skb = some s) (hhdr : s.hdr.tag = l.nextTag) (hpacket : s.id = (f.skb.getD default).id) :
    Issued l f (sendClone d g).2 ∧ (sendClone d g).2.probe = g.probe ∧ (sendClone d g).2.buf = g.buf ∧
      (sendClone d g).2.iter = g.iter ∧ (sendClone d g).2.skb = g.skb := by
  refine sendClone_stamped (g := f) (l := l) (P := fun x => Issued l f x ∧ x.probe = g.probe ∧ x.buf = g.buf ∧
    x.iter = g.iter ∧ x.skb = g.skb) hc he hs hj ?_
  intro sent jiffs hst
  refine ⟨⟨hid, ht, hr, hcmd, hborn, hw, htag, ?_, hst, ?_⟩, rfl, rfl, rfl, rfl⟩
  · rw [Frame.hdrTag, hskb, Option.map_some, hhdr, htag]
  · rw [Frame.packet, hskb, Option.map_some, hpacket]

/-- A probe is in flight, or was missed; both are counted. -/
theorem probeCounted_quiet {d : Aoedev} {h : Hands} {t : ℕ} (hi : (d.ledger h).Inv) (ht : t < d.targets.length) :
    Quiet h d h (probeCounted d t) := by
  obtain ⟨hs, hfetch⟩ := newtframe_fetches hi ht
  have hskb := newtframe_skb d t
  unfold probeCounted probe
  generalize newtframe d t = r at hs hfetch hskb ⊢
  obtain ⟨d₁, o⟩ := r
  cases o with
  | none =>
    refine hfetch.trans ⟨?_, id, rfl⟩
    have hl : ({ d₁ with hist.probeMissed := true }.modTgt t fun x =>
        { x with noutProbes := incChar x.noutProbes }).ledger h = _ :=
      ledger_modTgt _ h t _ (fun s => { s with noutProbes := incChar s.noutProbes }) (fun _ => rfl)
    rw [hl]
    exact .single (.miss t)
  | some f =>
    obtain ⟨hq, hft, hb⟩ := hfetch
    dsimp only
    generalize hd₂ : (d₁.modTgt t fun x => (ifrotate x).1) = d₂
    have hq₂ : Quiet h d (h.hold f) d₂ := hd₂ ▸ hq.trans (ifrotate_quiet d₁ (h.hold f) t)
    generalize (if d₂.maxbcnt = 0 then DEFAULTBCNT else d₂.maxbcnt) = size
    let f₂ : Frame := { f with probe := true, iter := { f.iter with size := size } }
    let skb₂ := (ataRwFrameinit d₂ f₂ none).2.skb.getD default
    let skb₃ := { skb₂ with frags := probeFrags size size, len := skb₂.len + size, dataLen := size }
    refine hq₂.trans ⟨?_, fun hd => ?_, by rw [blk_modTgt, blk_fhash, blk_sendClone, blk_noteSend, blk_frameinit]⟩
    · rw [ledger_modTgt _ h t _ (fun s => { s with noutProbes := incChar s.noutProbes }) (fun _ => rfl),
        ledger_fhash, ledger_sendClone, ledger_noteSend, ledger_frameinit, ledger_hands_hold]
      have hiss := sendClone_issued (d := (ataRwFrameinit d₂ f₂ none).1.noteSend
        { (ataRwFrameinit d₂ f₂ none).2 with skb := some skb₃ } true) (l := d₂.ledger h) (f := f)
        (g := { (ataRwFrameinit d₂ f₂ none).2 with skb := some skb₃ }) (s := skb₃)
        rfl rfl rfl rfl rfl rfl rfl rfl rfl rfl rfl rfl rfl rfl
      obtain ⟨hiss, hprobe, hbuf, -⟩ := hiss
      have hm : Move true _ _ := Move.probe hb hiss (hbuf.trans hb.1) hprobe (hskb f rfl)
      subst hft
      refine .single ?_
      simp only [Ledger.modSlot, Ledger.act, List.modify_modify_eq] at hm ⊢
      exact hm
    · refine Aoedev.Hashed.fhash (hd.congr ?_) _
      rw [factive_sendClone, factive_noteSend, factive_frameinit]

/-- The frame `aoecmd_ata_rw` sends, and what the ledger becomes. -/
theorem ataRwSend_ledger {d : Aoedev} {f : Frame} (h : Hands) (b : ℕ) (hb : f.Blank) :
    ∃ f', (ataRwSend d b f).ledger h =
        ((d.ledger h).issue.modSlot f.t fun s => { s with nout := incUshort s.nout }).act f' ∧
      Issued (d.ledger h) f f' ∧ f'.probe = false ∧ f'.buf = some b ∧
      f'.iter = cutIter d.maxbcnt (d.bufAt b).iter ∧
      f'.skb.map Skb.ata = some (ataRwHdr d.flags.ext (d.rqAt (d.bufAt b).rq).write f'.iter) := by
  unfold ataRwSend
  extract_lets buf iter data
  dsimp only
  let d₁ := cutBuf d b
  let f₁ : Frame := { f with buf := some b, iter := iter }
  let r := ataRwFrameinit d₁ f₁ data
  have hwrite : data.isSome = (d.rqAt buf.rq).write := by
    simp only [data]
    split
    · rename_i hw
      simp [hw]
    · rename_i hw
      simp [hw]
  obtain ⟨nout, skb, hf₂, hhdr, hpacket, hata⟩ := frameinit_frame d₁ h f₁ data
  have hsend := sendClone_issued (d := (r.1.noteCut r.2 buf).noteSend r.2 true) (l := d.ledger h) (f := f) (g := r.2) (s := skb)
    (clock_frameinit d₁ f₁ data) (clone_frameinit d₁ f₁ data)
  have hr₂ : r.2 = _ := hf₂
  rw [hr₂] at hsend
  obtain ⟨hiss, hprobe, hbuf, hiter, hskb⟩ := hsend rfl rfl rfl rfl rfl rfl rfl rfl rfl rfl hhdr hpacket
  rw [← hr₂] at hiss hprobe hbuf hiter hskb
  refine ⟨(sendClone ((r.1.noteCut r.2 buf).noteSend r.2 true) r.2).2, ?_, hiss, hprobe.trans hb.2.2.2, hbuf, hiter, ?_⟩
  · rw [ledger_fhash, ledger_sendClone, ledger_noteSend, ledger_noteCut, ledger_frameinit, ledger_cutBuf]
    rfl
  · rw [hiter, hskb, hr₂]
    exact congrArg some (hata.trans (by rw [hwrite]; rfl))

theorem ataRwSend_moves {d : Aoedev} {h : Hands} {f : Frame} {b : ℕ} (hb : f.Blank) (hs : f.skb.isSome) :
    Moves false (d.ledger (h.hold f)) ((ataRwSend d b f).ledger h) := by
  obtain ⟨f', hl, hiss, hprobe, -⟩ := ataRwSend_ledger h b hb
  rw [hl, ledger_hands_hold]
  exact .single (.send hb hiss (by simp) hprobe hs)

theorem ataRwSend_hashed {d : Aoedev} {f : Frame} {b : ℕ} (hd : d.Hashed) : (ataRwSend d b f).Hashed := by
  unfold ataRwSend
  extract_lets buf iter data
  dsimp only
  refine Aoedev.Hashed.fhash (hd.congr ?_) _
  rw [factive_sendClone, factive_noteSend, factive_noteCut, factive_frameinit, factive_cutBuf]

private theorem ledger_ataIdInit : (ataIdInit d f).1.ledger h =
    { d.ledger h with log := (d.ledger h).issue.log }.modSlot f.t fun s => { s with nout := incUshort s.nout } := by
  simp only [Aoedev.ledger, ataIdInit, newCommand, aoehdrAtainit, newtag, Aoedev.noteNd, Aoedev.noteXmit,
    Aoedev.modTgt, Ledger.modSlot, Ledger.issue, Ledger.xmit, Ledger.nextTag]
  rw [map_modify _ _ _ (fun s : Slot => { s with nout := incUshort s.nout }) Aoetgt.slot (fun _ => rfl)]

theorem blk_ataIdInit : (ataIdInit d f).1.blk = d.blk := by
  have hset (d : Aoedev) : Aoedev.blk { d with rttavg := RTTAVG_INIT, rttdev := RTTDEV_INIT, rexmitArmed := true } =
      d.blk := rfl
  simp only [ataIdInit, hset, aoehdrAtainit, blk_noteXmit, blk_modTgt, blk_noteNd, blk_newtag, blk_newCommand]

private theorem factive_ataIdInit : (ataIdInit d f).1.factive = d.factive := rfl

/-- An identify command belongs to no buf. -/
theorem aoecmdAtaId_quiet {d : Aoedev} {h : Hands} (hi : (d.ledger h).Inv) : Quiet h d h (aoecmdAtaId d).1 := by
  obtain ⟨hs, hc⟩ := newframe_chooses hi
  have hskb := newframe_skb d
  unfold aoecmdAtaId
  generalize newframe d = r at hs hc hskb ⊢
  obtain ⟨d₁, o⟩ := r
  cases o with
  | none => exact hc
  | some f =>
    obtain ⟨hq, hb, -⟩ := hc
    dsimp only at hq ⊢
    refine hq.trans ⟨?_, fun hd => ?_, by rw [blk_fhash, blk_sendClone, blk_noteSend, blk_ataIdInit]⟩
    · let d₂ := (ataIdInit d₁ f).1.noteSend (ataIdInit d₁ f).2 true
      have hiss : Issued (d₁.ledger h) f (sendClone d₂ (ataIdInit d₁ f).2).2 ∧
          (sendClone d₂ (ataIdInit d₁ f).2).2.buf = f.buf ∧ (sendClone d₂ (ataIdInit d₁ f).2).2.probe = f.probe := by
        refine sendClone_stamped (g := f) (l := d₁.ledger h)
          (P := fun f' => Issued (d₁.ledger h) f f' ∧ f'.buf = f.buf ∧ f'.probe = f.probe) rfl rfl rfl rfl ?_
        intro sent jiffs hst
        exact ⟨⟨rfl, rfl, rfl, rfl, rfl, rfl, rfl, rfl, hst, rfl⟩, rfl, rfl⟩
      obtain ⟨hiss, hbuf, hprobe⟩ := hiss
      have hm : Move true _ _ := Move.send hb hiss (fun _ => hbuf.trans hb.1) (hprobe.trans hb.2.2.2)
        (hskb f rfl)
      rw [ledger_fhash, ledger_sendClone, ledger_noteSend, ledger_ataIdInit, ledger_hands_hold]
      exact .single hm
    · refine Aoedev.Hashed.fhash (hd.congr ?_) _
      rw [factive_sendClone, factive_noteSend, factive_ataIdInit]

end Send

end AoeDriver
