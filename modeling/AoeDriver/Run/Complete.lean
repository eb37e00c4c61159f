import AoeDriver.Run.Work

/-!
# Completion and failure

The end of `ktiocomplete`, the flush of a completion queue and `aoedev_downdev`, as runs.
-/

namespace AoeDriver

open Tables

section Release

variable {C : Cond} {h : Hands} {d : Aoedev} {b : ℕ}

theorem aoeEndBuf_eq (d : Aoedev) (b : ℕ) : aoeEndBuf d b =
    if predUlong (d.rqAt (d.bufAt b).rq).special = 0 then aoeblkRequest (closeBuf d b) else closeBuf d b := by
  unfold aoeEndBuf closeBuf
  dsimp only
  split
  · rfl
  · rfl

/-- A buf is settled, and the queue runs if that ends a request. -/
def settleRun (d : Aoedev) (b : ℕ) : Aoedev :=
  if (d.bufAt b).nframesout = 0 ∧ (d.bufAt b).iter.size = 0 then aoeEndBuf d b else d

theorem settleRun_cases (d : Aoedev) (b : ℕ) :
    settleRun d b = settle d b ∨ settleRun d b = aoeblkRequest (settle d b) := by
  unfold settleRun settle
  split
  · rw [aoeEndBuf_eq]
    split
    · exact .inr rfl
    · exact .inl rfl
  · exact .inl rfl

private theorem settleRun_inner (hg : Good h (settle d b)) : Inner C h (settle d b) h (settleRun d b) := by
  rcases settleRun_cases d b with hs | hs
  · rw [hs]
    exact Inner.refl h _
  · rw [hs]
    exact aoeblkRequest_inner hg

private theorem bufAt_modBuf_size (d : Aoedev) (b : ℕ) :
    ((d.modBuf b fun x => { x with iter.size := 0 }).bufAt b).iter.size = 0 := by
  unfold Aoedev.bufAt Aoedev.modBuf
  cases hf : (d.bufs.map fun x => if x.id = b then { x with iter.size := 0 } else x).find? (·.id = b) with
  | none => rfl
  | some x =>
    have hx := List.find?_some hf
    obtain ⟨y, -, rfl⟩ := List.mem_map.mp (List.mem_of_find?_eq_some hf)
    split at hx
    · rename_i hy
      rw [Option.getD_some, if_pos hy]
    · rename_i hy
      simp only [decide_eq_true_eq] at hx
      exact absurd hx hy

theorem aoeFailbuf_eq (d : Aoedev) (b : ℕ) : aoeFailbuf d b = settleRun (spoilBuf d b) b := by
  have hsize : ((spoilBuf d b).bufAt b).iter.size = 0 := bufAt_modBuf_size d b
  unfold aoeFailbuf settleRun
  simp only [hsize, and_true]

theorem duties_cons {f : Frame} {s : Multiset Frame} : duties (f ::ₘ s) = duties {f} + duties s := by
  rw [duties, duties, duties, ← Multiset.filterMap_add, Multiset.singleton_add]

theorem duties_singleton_some {f : Frame} {x : Duty} (hx : f.duty = some x) : duties {f} = {x} := by
  rw [duties, ← Multiset.cons_zero, Multiset.filterMap_cons_some _ _ _ hx]
  rfl

theorem duties_singleton_none {f : Frame} (hf : f.duty = none) : duties {f} = 0 := by
  rw [← Multiset.cons_zero, duties_cons_none hf]
  rfl

private theorem release_spec (C : Cond) (d : Aoedev) (h : Hands) (f : Frame) :
    Shifts C (d.ledger (h.shelve f)) ((aoeFreetframe d f).ledger h) ∧
      ((aoeFreetframe d f).ledger h).slots.map (·.wires.minbcnt) = (d.ledger (h.shelve f)).slots.map (·.wires.minbcnt) ∧
      stage (h.shelve f) d = ⟨d, duties (d.ledger h).pending, duties (f ::ₘ (d.ledger h).late)⟩ ∧
      stage h (aoeFreetframe d f) = ⟨aoeFreetframe d f, duties (d.ledger h).pending, duties (d.ledger h).late⟩ := by
  refine ⟨?_, ?_, ?_, ?_⟩
  · rw [ledger_hands_shelve, ledger_aoeFreetframe]
    exact .single .release
  · rw [ledger_aoeFreetframe, Ledger.minbcnt_put]
    rfl
  · rw [stage, ledger_hands_shelve]
    rfl
  · rw [stage, ledger_aoeFreetframe]
    rfl

theorem ktioSettle_inner {f : Frame} (hb : f.buf = some b) :
    Inner C (h.shelve f) d h (settle (decNframesout (aoeFreetframe d f) b) b) := by
  obtain ⟨hrelease, hmin, hstage, -⟩ := release_spec C d h f
  have haside : Aside (aoeFreetframe d f) (settle (decNframesout (aoeFreetframe d f) b) b) :=
    (decNframesout_aside b).trans (settle_aside b)
  refine ⟨⟨?_, ?_, fun hd => Aoedev.Hashed.congr hd haside.factive, ?_⟩, haside.outer⟩
  · rw [haside.ledger]
    exact hrelease
  · have hduty : f.duty = some ⟨b, f.cmd, f.iter, (f.skb.getD default).ata⟩ := by rw [Frame.duty, hb, Option.map_some]
    rw [hstage, duties_cons, duties_singleton_some hduty, Multiset.singleton_add]
    have hpost : Posts ⟨aoeFreetframe d f, _, _⟩ ⟨settle (decNframesout (aoeFreetframe d f) b) b, _, _⟩ :=
      .single (.finish (D := duties (d.ledger h).pending) (L := duties (d.ledger h).late)
        (x := ⟨b, f.cmd, f.iter, (f.skb.getD default).ata⟩))
    have hend : stage h (settle (decNframesout (aoeFreetframe d f) b) b) =
        ⟨settle (decNframesout (aoeFreetframe d f) b) b, duties (d.ledger h).pending, duties (d.ledger h).late⟩ := by
      rw [stage, haside.ledger, ledger_aoeFreetframe]
      rfl
    rw [hend]
    have hquiet (D L : Multiset Duty) : Post ⟨d, D, L⟩ ⟨aoeFreetframe d f, D, L⟩ := .quiet rfl le_rfl fun _ => .inl
    exact .head (hquiet _ _) hpost
  · rw [haside.maxbcnt, haside.ledger]
    exact fun hw => hw.congr hmin

theorem ktioFinish_inner {f : Frame} (hg : Good (h.shelve f) d) : Inner C (h.shelve f) d h (ktioFinish d f) := by
  unfold ktioFinish
  cases hb : f.buf with
  | none =>
    obtain ⟨hrelease, hmin, hstage, hfree⟩ := release_spec C d h f
    dsimp only
    refine ⟨⟨hrelease, ?_, fun hd => hd.congr rfl, fun hw => hw.congr hmin⟩, rfl⟩
    rw [hstage, hfree, duties_cons_none (Frame.duty_none hb)]
    exact .single (.quiet rfl le_rfl fun _ => .inl)
  | some b =>
    have hsettle : Inner C (h.shelve f) d h (settle (decNframesout (aoeFreetframe d f) b) b) := ktioSettle_inner hb
    exact hsettle.trans (settleRun_inner (hsettle.good hg))

theorem lose_inner {f : Frame} (hb : f.buf = some b) :
    Inner C (h.hold f) d (h.hold { f with buf := none }) (settle (spoilBuf (decNframesout d b) b) b) := by
  have haside : Aside d (settle (spoilBuf (decNframesout d b) b) b) :=
    ((decNframesout_aside b).trans (spoilBuf_aside b)).trans (settle_aside b)
  refine ⟨⟨?_, ?_, fun hd => Aoedev.Hashed.congr hd haside.factive, ?_⟩, haside.outer⟩
  · rw [haside.ledger, ledger_hands_hold, ledger_hands_hold]
    exact .single .unbuf
  · have hduty : f.duty = some ⟨b, f.cmd, f.iter, (f.skb.getD default).ata⟩ := by rw [Frame.duty, hb, Option.map_some]
    rw [stage, stage, haside.ledger, ledger_hands_hold, ledger_hands_hold, Ledger.pending_hold, Ledger.pending_hold,
      duties_cons, duties_singleton_some hduty, Multiset.singleton_add,
      duties_cons_none (Frame.duty_none (f := { f with buf := none }) rfl)]
    exact .single (.lose (x := ⟨b, f.cmd, f.iter, (f.skb.getD default).ata⟩))
  · rw [haside.maxbcnt, haside.ledger]
    exact id

theorem downdevFrame_inner {f : Frame} (hg : Good (h.hold f) d) : Inner C (h.hold f) d h (downdevFrame d f) := by
  have hgiven {g : Frame} (hf : g.buf = none) (hblank : g.blank = f.blank) {d' : Aoedev} (hr : Inner C (h.hold f) d
      (h.hold g) d') : Inner C (h.hold f) d h (aoeFreetframe d' f) := by
    refine hr.trans ⟨⟨?_, ?_, fun hd => hd.congr rfl, fun hw => hw.congr ?_⟩, rfl⟩
    · rw [ledger_hands_hold, ledger_aoeFreetframe, ← hblank]
      exact .single .discard
    · rw [stage, ledger_hands_hold, Ledger.pending_hold, duties_cons_none (Frame.duty_none hf), stage,
        ledger_aoeFreetframe]
      exact .single (.quiet rfl le_rfl fun _ => .inl)
    · rw [ledger_aoeFreetframe, Ledger.minbcnt_put]
      rfl
  unfold downdevFrame
  cases hb : f.buf with
  | none => exact hgiven hb rfl (Inner.refl _ d)
  | some b =>
    have hlose : Inner C (h.hold f) d (h.hold { f with buf := none }) (settle (spoilBuf (decNframesout d b) b) b) :=
      lose_inner hb
    dsimp only
    rw [aoeFailbuf_eq]
    exact hgiven (g := { f with buf := none }) rfl rfl (hlose.trans (settleRun_inner (hlose.good hg)))

end Release

section Down

variable {C : Cond} {h : Hands} {d : Aoedev}

theorem settleRun_down (hup : d.flags.up = false) (b : ℕ) : Aside d (settleRun d b) := by
  have hs := settle_aside (d := d) b
  rcases settleRun_cases d b with heq | heq
  · rw [heq]
    exact hs
  · rw [heq, aoeblkRequest_down (hs.up.trans hup)]
    exact hs.trans fastFail_aside

theorem settleRun_posts (hup : d.flags.up = false) (b : ℕ) (D L : Multiset Duty) :
    Posts ⟨settle d b, D, L⟩ ⟨settleRun d b, D, L⟩ := by
  rcases settleRun_cases d b with heq | heq
  · rw [heq]
    exact .refl
  · rw [heq, aoeblkRequest_down ((settle_aside b).up.trans hup)]
    exact fastFail_posts D L

/-- What the loops of `aoedev_downdev` do with one frame. -/
theorem downdevFrame_down (hup : d.flags.up = false) (f : Frame) :
    (∀ h, (downdevFrame d f).ledger h = (d.ledger h).put f.blank) ∧ (downdevFrame d f).factive = d.factive ∧
      (downdevFrame d f).blk.outer = d.blk.outer ∧
      ∀ D L, Posts ⟨d, duties {f} + D, L⟩ ⟨downdevFrame d f, D, L⟩ := by
  have hfree (d : Aoedev) (D L : Multiset Duty) : Post ⟨d, D, L⟩ ⟨aoeFreetframe d f, D, L⟩ :=
    .quiet rfl le_rfl fun _ => .inl
  have hsame (d : Aoedev) : (aoeFreetframe d f).factive = d.factive ∧ (aoeFreetframe d f).blk = d.blk := ⟨rfl, rfl⟩
  unfold downdevFrame
  cases hb : f.buf with
  | none =>
    refine ⟨fun h => ledger_aoeFreetframe d h f, rfl, rfl, fun D L => ?_⟩
    rw [duties_singleton_none (Frame.duty_none hb), zero_add]
    exact .single (hfree d D L)
  | some b =>
    let d₁ := spoilBuf (decNframesout d b) b
    have ha₁ : Aside d d₁ := (decNframesout_aside b).trans (spoilBuf_aside b)
    have hup₁ : d₁.flags.up = false := ha₁.up.trans hup
    have ha : Aside d (settleRun d₁ b) := ha₁.trans (settleRun_down hup₁ b)
    dsimp only
    rw [aoeFailbuf_eq]
    obtain ⟨hf, hblk⟩ := hsame (settleRun d₁ b)
    refine ⟨fun h => ?_, hf.trans ha.factive, ?_, fun D L => ?_⟩
    · rw [ledger_aoeFreetframe, ha.ledger]
    · rw [hblk]
      exact ha.outer
    · have hduty : f.duty = some ⟨b, f.cmd, f.iter, (f.skb.getD default).ata⟩ := by rw [Frame.duty, hb, Option.map_some]
      rw [duties_singleton_some hduty, Multiset.singleton_add]
      have hlose : Posts _ ⟨settle d₁ b, D, L⟩ := .single (.lose (x := ⟨b, f.cmd, f.iter, (f.skb.getD default).ata⟩))
      exact (hlose.trans (settleRun_posts hup₁ b D L)).tail (hfree _ D L)

def Ledger.zeroed (l : Ledger) : Ledger := { l with slots := l.slots.map fun s => { s with nout := 0 } }

def Ledger.putAll (l : Ledger) (fs : List Frame) : Ledger := fs.foldl (fun l f => l.put f.blank) l

theorem Ledger.zeroed_put (l : Ledger) (f : Frame) : (l.put f).zeroed = l.zeroed.put f := by
  simp only [zeroed, put, modSlot]
  rw [map_modify _ _ _ (fun s : Slot => { s with free := f ::ₘ s.free }) (fun s : Slot => { s with nout := 0 })
    fun _ => rfl]

theorem Ledger.zeroed_putAll (l : Ledger) (fs : List Frame) : (l.putAll fs).zeroed = l.zeroed.putAll fs := by
  induction fs generalizing l with
  | nil => rfl
  | cons f fs ih =>
    simp only [putAll, List.foldl_cons] at ih ⊢
    rw [ih, zeroed_put]

private theorem putAll_shifts (l : Ledger) (fs : List Frame) : Shifts C { l with out := fs + l.out } (l.putAll fs) := by
  induction fs generalizing l with
  | nil =>
    rw [Multiset.coe_nil, zero_add]
    exact .refl
  | cons f fs ih =>
    have hl : { l with out := (f :: fs : List Frame) + l.out } = Ledger.hold { l with out := fs + l.out } f := by
      rw [Ledger.hold, ← Multiset.cons_coe, Multiset.cons_add]
    rw [hl]
    exact .head .discard (ih (l.put f.blank))

theorem Ledger.putAll_field {β : Type} (φ : Ledger → β) (hφ : ∀ l f, φ (l.put f) = φ l) (l : Ledger) (fs : List Frame) :
    φ (l.putAll fs) = φ l := by
  induction fs generalizing l with
  | nil => rfl
  | cons f fs ih =>
    simp only [putAll, List.foldl_cons] at ih ⊢
    rw [ih, hφ]

theorem downdevFrames_down (fs : List Frame) (hup : d.flags.up = false) :
    (∀ h, (downdevFrames fs d).ledger h = (d.ledger h).putAll fs) ∧ (downdevFrames fs d).factive = d.factive ∧
      (downdevFrames fs d).blk.outer = d.blk.outer ∧
      ∀ D L, Posts ⟨d, duties fs + D, L⟩ ⟨downdevFrames fs d, D, L⟩ := by
  induction fs generalizing d with
  | nil =>
    refine ⟨fun _ => rfl, rfl, rfl, fun D L => ?_⟩
    have hnil : duties ((([] : List Frame)) : Multiset Frame) = 0 := rfl
    rw [hnil, zero_add]
    exact .refl
  | cons f fs ih =>
    obtain ⟨hl, hf, ho, hp⟩ := downdevFrame_down hup f
    have hup' : (downdevFrame d f).flags.up = false := (congrArg Blk.up ho).trans hup
    obtain ⟨hl', hf', ho', hp'⟩ := ih hup'
    refine ⟨fun h => ?_, hf'.trans hf, ho'.trans ho, fun D L => ?_⟩
    · rw [downdevFrames, hl', hl]
      rfl
    · rw [← Multiset.cons_coe, duties_cons, add_assoc]
      exact (hp _ L).trans (hp' D L)

/-- The second half of `aoe_failip`, for the request in process. -/
def failRq (d : Aoedev) : Aoedev :=
  match d.ip.rq with
  | none => d
  | some r =>
    let d := failBios r (d.rqAt r).bios.length d
    if (d.rqAt r).special = 0 then aoeEndRequest d r else d

theorem aoeFailip_none (hb : d.ip.buf = none) : aoeFailip d = failRq d := by
  unfold aoeFailip
  rw [hb]
  rfl

theorem aoeFailip_some {b : ℕ} (hb : d.ip.buf = some b) : aoeFailip d = failRq (settleRun (spoilBuf d b) b) := by
  unfold aoeFailip
  rw [hb, ← aoeFailbuf_eq]
  rfl

private theorem failRq_some {r : ℕ} (hr : d.ip.rq = some r) :
    failRq d = failRest d r ∨ failRq d = aoeblkRequest (failRest d r) := by
  unfold failRq
  rw [hr]
  simp only [failRest, aoeEndRequest]
  split
  · exact .inr rfl
  · exact .inl rfl

private theorem failRq_down (hup : d.flags.up = false) :
    Aside d (failRq d) ∧ ∀ D L, Posts ⟨d, D, L⟩ ⟨failRq d, D, L⟩ := by
  cases hr : d.ip.rq with
  | none =>
    have heq : failRq d = d := by
      unfold failRq
      rw [hr]
    rw [heq]
    exact ⟨Aside.refl d, fun _ _ => .refl⟩
  | some r =>
    have ha := failRest_aside (d := d) r
    have hp (D L : Multiset Duty) : Posts ⟨d, D, L⟩ ⟨failRest d r, D, L⟩ := .single (.failRest hr)
    rcases failRq_some hr with he | he
    · rw [he]
      exact ⟨ha, hp⟩
    · rw [he, aoeblkRequest_down (ha.up.trans hup)]
      exact ⟨ha.trans fastFail_aside, fun D L => (hp D L).trans (fastFail_posts D L)⟩

theorem aoeFailip_down (hup : d.flags.up = false) :
    Aside d (aoeFailip d) ∧ ∀ D L, Posts ⟨d, D, L⟩ ⟨aoeFailip d, D, L⟩ := by
  cases hb : d.ip.buf with
  | none =>
    rw [aoeFailip_none hb]
    exact failRq_down hup
  | some b =>
    have ha := spoilBuf_aside (d := d) b
    have hup' := ha.up.trans hup
    have ha' := ha.trans (settleRun_down hup' b)
    have hp (D L : Multiset Duty) : Posts ⟨d, D, L⟩ ⟨settleRun (spoilBuf d b) b, D, L⟩ :=
      .head (.spoil hb) (settleRun_posts hup' b D L)
    obtain ⟨har, hpr⟩ := failRq_down (ha'.up.trans hup)
    rw [aoeFailip_some hb]
    exact ⟨ha'.trans har, fun D L => (hp D L).trans (hpr D L)⟩

/-- `aoedev_downdev` up to the request in process. -/
def downdevSweep (d : Aoedev) : Aoedev :=
  let d := { d with flags.up := false }
  let d := downdevFrames d.activeFrames { d with factive := fun _ => [] }
  let d := downdevFrames d.rexmitq { d with rexmitq := [] }
  { d with targets := d.targets.map fun t => { aoecmdWreset t with nout := 0 } }

/-- The rest of `aoedev_downdev`. -/
def downdevRest (d : Aoedev) : Aoedev :=
  let d := aoeFailip d
  let d := if d.blkq then fastFail d else d
  { d with gd := d.gd.map fun gd => { gd with capacity := 0 } }

theorem aoedevDowndev_eq (d : Aoedev) : aoedevDowndev d = downdevRest (downdevSweep d) := rfl

/-- Every frame in use under the lock goes back to its target. -/
theorem downdevSweep_spec (d : Aoedev) : ∃ deferred : List Frame, (deferred : Multiset Frame) = d.rexmitq ∧
    (downdevSweep d).ledger 0 = ((Ledger.zeroed { d.ledger 0 with active := 0, deferred := 0 }).putAll
      d.activeFrames).putAll deferred ∧
    (downdevSweep d).factive = (fun _ => []) ∧
    (downdevSweep d).blk.outer = { d.blk.outer with up := false } ∧
    ∀ D L, Posts ⟨d, duties d.activeFrames + (duties deferred + D), L⟩ ⟨downdevSweep d, D, L⟩ := by
  let d₀ : Aoedev := { d with flags.up := false, factive := fun _ => [] }
  let d₁ := downdevFrames d.activeFrames d₀
  let d₂ : Aoedev := { d₁ with rexmitq := [] }
  let d₃ := downdevFrames d₁.rexmitq d₂
  have hend : downdevSweep d = { d₃ with targets := d₃.targets.map fun t => { aoecmdWreset t with nout := 0 } } := rfl
  obtain ⟨hl₁, hf₁, ho₁, hp₁⟩ := downdevFrames_down (d := d₀) d.activeFrames rfl
  have hup₁ : d₁.flags.up = false := congrArg Blk.up ho₁
  obtain ⟨hl₃, hf₃, ho₃, hp₃⟩ := downdevFrames_down (d := d₂) d₁.rexmitq hup₁
  have hempty : contents (fun _ : Fin NFACTIVE => ([] : List Frame)) = 0 := by simp [contents_eq_sum]
  have hzero : (0 : Hands).active = 0 ∧ (0 : Hands).deferred = 0 := ⟨rfl, rfl⟩
  refine ⟨d₁.rexmitq, ?_, ?_, hf₃.trans hf₁, ?_, ?_⟩
  · have hd := congrArg Ledger.deferred (hl₁ 0)
    rw [Ledger.putAll_field Ledger.deferred (fun _ _ => rfl)] at hd
    simpa [Aoedev.ledger, hzero] using hd
  · have hl₀ : d₀.ledger 0 = { d.ledger 0 with active := 0 } := by
      simp only [d₀, Aoedev.ledger, hempty, hzero, add_zero]
    have hl₂ : d₂.ledger 0 = { d₁.ledger 0 with deferred := 0 } := by
      simp only [d₂, Aoedev.ledger, hzero, Multiset.coe_nil, add_zero]
    have hl₄ : (downdevSweep d).ledger 0 = (d₃.ledger 0).zeroed := by
      simp only [hend, Aoedev.ledger, Ledger.zeroed, List.map_map]
      rfl
    have hcomm (l : Ledger) (fs : List Frame) : { l.putAll fs with deferred := 0 } =
        ({ l with deferred := 0 } : Ledger).putAll fs := by
      induction fs generalizing l with
      | nil => rfl
      | cons f fs ih => exact ih (l.put f.blank)
    rw [hl₄, hl₃, Ledger.zeroed_putAll, hl₂, hl₁, hcomm, Ledger.zeroed_putAll, hl₀]
  · have houter (d : Aoedev) (ts : List Aoetgt) : ({ d with targets := ts } : Aoedev).blk.outer = d.blk.outer := rfl
    rw [hend, houter, ho₃]
    exact ho₁
  · intro D L
    have hstart (D L : Multiset Duty) : Post ⟨d, D, L⟩ ⟨d₀, D, L⟩ := .quiet rfl le_rfl fun _ => .inl
    have hmid (D L : Multiset Duty) : Post ⟨d₁, D, L⟩ ⟨d₂, D, L⟩ := .quiet rfl le_rfl fun _ => .inl
    have hreset (D L : Multiset Duty) : Post ⟨d₃, D, L⟩ ⟨downdevSweep d, D, L⟩ := .quiet rfl le_rfl fun _ => .inl
    have h₁ := (hp₁ (duties d₁.rexmitq + D) L).tail (hmid _ L)
    have h₂ := (hp₃ D L).tail (hreset D L)
    exact .head (hstart _ L) (h₁.trans h₂)

theorem downdevSweep_up (d : Aoedev) : (downdevSweep d).flags.up = false := by
  obtain ⟨-, -, -, -, ho, -⟩ := downdevSweep_spec d
  exact congrArg Blk.up ho

/-- The rest only fails requests. -/
theorem downdevRest_spec (hup : d.flags.up = false) : (∀ h, (downdevRest d).ledger h = d.ledger h) ∧
    (downdevRest d).factive = d.factive ∧ (downdevRest d).targets = d.targets ∧
    (downdevRest d).blk.outer = { d.blk.outer with gd := d.gd.map fun gd => { gd with capacity := 0 } } ∧
    ∀ D L, Posts ⟨d, D, L⟩ ⟨downdevRest d, D, L⟩ := by
  obtain ⟨ha, hp⟩ := aoeFailip_down hup
  obtain ⟨ha', hp'⟩ : Aside (aoeFailip d) (if (aoeFailip d).blkq then fastFail (aoeFailip d) else aoeFailip d) ∧
      ∀ D L, Posts ⟨aoeFailip d, D, L⟩ ⟨if (aoeFailip d).blkq then fastFail (aoeFailip d) else aoeFailip d, D, L⟩ := by
    split
    · exact ⟨fastFail_aside, fastFail_posts⟩
    · exact ⟨Aside.refl _, fun _ _ => .refl⟩
  have hboth := ha.trans ha'
  let shut (d : Aoedev) : Aoedev := { d with gd := d.gd.map fun gd => { gd with capacity := 0 } }
  have hend : downdevRest d = shut (if (aoeFailip d).blkq then fastFail (aoeFailip d) else aoeFailip d) := rfl
  have hshut (d : Aoedev) : (∀ h, (shut d).ledger h = d.ledger h) ∧ (shut d).factive = d.factive ∧
      (shut d).targets = d.targets ∧
      (shut d).blk.outer = { d.blk.outer with gd := d.blk.outer.gd.map fun gd => { gd with capacity := 0 } } ∧
      ∀ D L, Post ⟨d, D, L⟩ ⟨shut d, D, L⟩ :=
    ⟨fun _ => rfl, rfl, rfl, rfl, fun _ _ => .quiet rfl le_rfl fun _ => .inl⟩
  rw [hend]
  generalize (if (aoeFailip d).blkq then fastFail (aoeFailip d) else aoeFailip d) = e at hboth hp'
  obtain ⟨h₁, h₂, h₃, h₄, h₅⟩ := hshut e
  refine ⟨fun h => (h₁ h).trans (hboth.ledger h), h₂.trans hboth.factive, h₃.trans hboth.targets, ?_, ?_⟩
  · rw [h₄, hboth.outer]
    rfl
  · exact fun D L => ((hp D L).trans (hp' D L)).tail (h₅ D L)

theorem aoedevDowndev_outer (d : Aoedev) : (aoedevDowndev d).blk.outer =
    { d.blk.outer with up := false, gd := d.gd.map fun gd => { gd with capacity := 0 } } := by
  obtain ⟨-, -, -, -, ho, -⟩ := downdevSweep_spec d
  obtain ⟨-, -, -, ho', -⟩ := downdevRest_spec (downdevSweep_up d)
  have hgd : (downdevSweep d).gd = d.gd := congrArg Blk.gd ho
  rw [aoedevDowndev_eq, ho', ho, hgd]

theorem aoedevDowndev_factive (d : Aoedev) : (aoedevDowndev d).factive = fun _ => [] := by
  obtain ⟨-, -, -, hf, -, -⟩ := downdevSweep_spec d
  obtain ⟨-, hf', -, -, -⟩ := downdevRest_spec (downdevSweep_up d)
  exact hf'.trans hf

/-- No pointer is followed on the way down that could be NULL. -/
theorem aoedevDowndev_crashed (d : Aoedev) : (aoedevDowndev d).crashed = d.crashed := by
  have hframe {d : Aoedev} (hup : d.flags.up = false) (f : Frame) : (downdevFrame d f).crashed = d.crashed := by
    have hfree (d : Aoedev) : (aoeFreetframe d f).crashed = d.crashed := rfl
    unfold downdevFrame
    rw [hfree]
    cases f.buf with
    | none => rfl
    | some b =>
      have ha := (decNframesout_aside (d := d) b).trans (spoilBuf_aside b)
      dsimp only
      rw [aoeFailbuf_eq]
      exact (ha.trans (settleRun_down (ha.up.trans hup) b)).crashed
  have hframes {d : Aoedev} (hup : d.flags.up = false) (fs : List Frame) : (downdevFrames fs d).crashed = d.crashed := by
    induction fs generalizing d with
    | nil => rfl
    | cons f fs ih =>
      have hup' : (downdevFrame d f).flags.up = false := (congrArg Blk.up (downdevFrame_down hup f).2.2.1).trans hup
      exact (ih hup').trans (hframe hup f)
  let d₀ : Aoedev := { d with flags.up := false, factive := fun _ => [] }
  have hup₁ : (downdevFrames d.activeFrames d₀).flags.up = false :=
    congrArg Blk.up (downdevFrames_down (d := d₀) d.activeFrames rfl).2.2.1
  have hsweep : (downdevSweep d).crashed = d.crashed :=
    (hframes (d := { downdevFrames d.activeFrames d₀ with rexmitq := [] }) hup₁ _).trans (hframes (d := d₀) rfl _)
  have hfail := (aoeFailip_down (downdevSweep_up d)).1.crashed
  have hrest : (downdevRest (downdevSweep d)).crashed = (downdevSweep d).crashed := by
    refine Eq.trans ?_ hfail
    change (if (aoeFailip (downdevSweep d)).blkq then fastFail (aoeFailip (downdevSweep d))
      else aoeFailip (downdevSweep d)).crashed = _
    split
    · exact fastFail_aside.crashed
    · rfl
  exact hrest.trans hsweep

theorem aoedevDowndev_hashed (d : Aoedev) : (aoedevDowndev d).Hashed := by
  intro n f hf
  rw [aoedevDowndev_factive] at hf
  exact absurd hf (by simp)

theorem downdevSweep_runs (hc : C.down (d.ledger 0)) : Runs C 0 d 0 (downdevSweep d) := by
  obtain ⟨fs, hfs, hl, hf, ho, hp⟩ := downdevSweep_spec d
  have hzero : (0 : Hands).active = 0 ∧ (0 : Hands).deferred = 0 := ⟨rfl, rfl⟩
  have hactive : (d.activeFrames : Multiset Frame) = (d.ledger 0).active := by
    simp only [Aoedev.ledger, hzero, add_zero]
    rfl
  have hdeferred : (fs : Multiset Frame) = (d.ledger 0).deferred := by
    rw [hfs]
    simp only [Aoedev.ledger, hzero, add_zero]
  obtain ⟨m, hm⟩ : ∃ m : Ledger, m = Ledger.zeroed { d.ledger 0 with active := 0, deferred := 0 } := ⟨_, rfl⟩
  rw [← hm] at hl
  have hfield {β : Type} (φ : Ledger → β) (hφ : ∀ l f, φ (l.put f) = φ l) : φ ((downdevSweep d).ledger 0) = φ m := by
    rw [hl, Ledger.putAll_field φ hφ, Ledger.putAll_field φ hφ]
  refine ⟨?_, ?_, ?_, ?_⟩
  · have hout : (m.putAll d.activeFrames).out = m.out := Ledger.putAll_field Ledger.out (fun _ _ => rfl) _ _
    have hcomm (l : Ledger) (fs : List Frame) (s : Multiset Frame) : { l.putAll fs with out := s } =
        ({ l with out := s } : Ledger).putAll fs := by
      induction fs generalizing l with
      | nil => rfl
      | cons f fs ih => exact ih (l.put f.blank)
    have hdown := Shift.down hc
    have h₁ := putAll_shifts (C := C) { m with out := fs + m.out } d.activeFrames
    have h₂ := putAll_shifts (C := C) (m.putAll d.activeFrames) fs
    rw [hout, hcomm] at h₂
    dsimp only at h₁
    rw [hl]
    have hfirst : Shift C (d.ledger 0) { m with out := d.activeFrames + (fs + m.out) } := by
      rw [hactive, hdeferred, ← add_assoc, hm]
      exact hdown
    exact .head hfirst (h₁.trans h₂)
  · have hpending : ((downdevSweep d).ledger 0).pending = (d.ledger 0).out := by
      rw [hfield Ledger.pending (fun _ _ => rfl)]
      have hsum : m.pending = 0 + 0 + (d.ledger 0).out := by
        rw [hm]
        rfl
      rw [hsum, add_zero, zero_add]
    have hlate : ((downdevSweep d).ledger 0).late = (d.ledger 0).late := by
      rw [hfield Ledger.late (fun _ _ => rfl), hm]
      rfl
    have htodo : duties (d.ledger 0).pending = duties d.activeFrames + (duties fs + duties (d.ledger 0).out) := by
      rw [hactive, hdeferred, duties, duties, duties, duties, ← Multiset.filterMap_add, ← Multiset.filterMap_add,
        ← add_assoc]
      rfl
    rw [stage, stage, hpending, hlate, htodo]
    exact hp _ _
  · intro _ n f hmem
    rw [hf] at hmem
    exact absurd hmem (by simp)
  · have hmax : (downdevSweep d).maxbcnt = d.maxbcnt := congrArg Blk.maxbcnt ho
    rw [hmax]
    refine fun hw => hw.congr ?_
    rw [hfield (fun l => l.slots.map (·.wires.minbcnt)) Ledger.minbcnt_put, hm, Ledger.zeroed, List.map_map]
    rfl

private theorem downdevRest_runs (hup : d.flags.up = false) : Runs C 0 d 0 (downdevRest d) := by
  obtain ⟨hl, hf, -, ho, hp⟩ := downdevRest_spec hup
  have hmax : (downdevRest d).maxbcnt = d.maxbcnt := congrArg Blk.maxbcnt ho
  refine ⟨?_, ?_, fun hd => hd.congr hf, ?_⟩
  · rw [hl]
    exact .refl
  · rw [stage, stage, hl]
    exact hp _ _
  · rw [hmax, hl]
    exact id

theorem aoedevDowndev_runs (hc : C.down (d.ledger 0)) : Runs C 0 d 0 (aoedevDowndev d) :=
  (downdevSweep_runs hc).trans (downdevRest_runs (downdevSweep_up d))

end Down

end AoeDriver
