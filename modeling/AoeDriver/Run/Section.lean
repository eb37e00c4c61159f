import AoeDriver.Block.Posting
import AoeDriver.Frames.Timer
import AoeDriver.Traffic.State

/-!
# Critical sections

What a critical section does to the frame ledger and to the books at the same time.
-/

namespace AoeDriver

open Tables

def stage (h : Hands) (d : Aoedev) : Stage := ⟨d, duties (d.ledger h).pending, duties (d.ledger h).late⟩

/-- The ledger balances and the books agree with it. -/
structure Good (h : Hands) (d : Aoedev) : Prop where
  inv : (d.ledger h).Inv
  books : Books d.blk (stage h d).refs
  bcnt : Bounded d.maxbcnt (d.ledger h).slots

/-- One piece of a run. -/
structure Runs (C : Cond) (h : Hands) (d : Aoedev) (h' : Hands) (d' : Aoedev) : Prop where
  shifts : Shifts C (d.ledger h) (d'.ledger h')
  posts : Posts (stage h d) (stage h' d')
  hashed : d.Hashed → d'.Hashed
  bcnt : Bounded d.maxbcnt (d.ledger h).slots → Bounded d'.maxbcnt (d'.ledger h').slots

/-- A piece of a run that keeps to the frames, bufs and requests. -/
structure Inner (C : Cond) (h : Hands) (d : Aoedev) (h' : Hands) (d' : Aoedev) : Prop extends Runs C h d h' d' where
  outer : d'.blk.outer = d.blk.outer

namespace Runs

variable {C : Cond} {h h' h'' : Hands} {d d' d'' : Aoedev}

theorem refl (h : Hands) (d : Aoedev) : Runs C h d h d := ⟨.refl, .refl, id, id⟩

theorem trans (r : Runs C h d h' d') (r' : Runs C h' d' h'' d'') : Runs C h d h'' d'' :=
  ⟨r.shifts.trans r'.shifts, r.posts.trans r'.posts, fun hd => r'.hashed (r.hashed hd), fun hb => r'.bcnt (r.bcnt hb)⟩

theorem good (r : Runs C h d h' d') (hg : Good h d) : Good h' d' :=
  ⟨r.shifts.inv hg.inv, r.posts.books hg.books, r.bcnt hg.bcnt⟩

end Runs

namespace Inner

variable {C : Cond} {h h' h'' : Hands} {d d' d'' : Aoedev}

theorem refl (h : Hands) (d : Aoedev) : Inner C h d h d := ⟨Runs.refl h d, rfl⟩

theorem trans (r : Inner C h d h' d') (r' : Inner C h' d' h'' d'') : Inner C h d h'' d'' :=
  ⟨r.toRuns.trans r'.toRuns, r'.outer.trans r.outer⟩

theorem good (r : Inner C h d h' d') (hg : Good h d) : Good h' d' := r.toRuns.good hg

theorem field {β : Type} (r : Inner C h d h' d') (φ : Blk → β) (hφ : ∀ k, φ k.outer = φ k) : φ d'.blk = φ d.blk := by
  rw [← hφ, r.outer, hφ]

end Inner

theorem Resent.duty {l : Ledger} {f f' : Frame} (h : Resent l f f') : f'.duty = f.duty := by
  have hata : (f'.skb.getD default).ata = (f.skb.getD default).ata := by
    obtain ⟨skb, hskb, hs⟩ := Option.map_eq_some_iff.mp h.ata
    rw [hskb]
    exact congrArg Prod.fst hs
  unfold Frame.duty
  rw [h.buf, h.cmd, h.iter, hata]

theorem TakesOver.duty {f nf nf' : Frame} (h : TakesOver f nf nf') : nf'.duty = f.duty := by
  unfold Frame.duty
  rw [h.buf, h.cmd, h.iter, h.skb]

theorem Frame.duty_none {f : Frame} (h : f.buf = none) : f.duty = none := by simp [Frame.duty, h]

theorem duties_cons_none {f : Frame} {s : Multiset Frame} (h : f.duty = none) : duties (f ::ₘ s) = duties s := by
  simp [duties, h]

theorem duties_cons_congr {f f' : Frame} {s : Multiset Frame} (h : f'.duty = f.duty) :
    duties (f' ::ₘ s) = duties (f ::ₘ s) := by
  cases hf : f.duty with
  | none => rw [duties_cons_none hf, duties_cons_none (h.trans hf)]
  | some x =>
    rw [duties, duties, Multiset.filterMap_cons_some _ _ _ hf, Multiset.filterMap_cons_some _ _ _ (h.trans hf)]

theorem Move.duties {l l' : Ledger} (m : Move true l l') (h : l.Inv) :
    duties l'.pending = duties l.pending ∧ l'.late = l.late ∧ l.log.ncmds ≤ l'.log.ncmds := by
  cases m with
  | alloc hcap hid ht hf => exact ⟨rfl, rfl, le_rfl⟩
  | @take l f ht =>
    have hf := h.free f.t f ((Ledger.mem_free_put l f f.t).mpr (.inl ⟨rfl, rfl, ht⟩))
    refine ⟨?_, rfl, le_rfl⟩
    rw [Ledger.pending_hold, duties_cons_none (Frame.duty_none hf.2.1)]
    rfl
  | @reskb l f skb p hf hs =>
    refine ⟨?_, rfl, le_rfl⟩
    rw [Ledger.pending_hold, Ledger.pending_hold, duties_cons_none (Frame.duty_none hf.1),
      duties_cons_none (Frame.duty_none (f := { f with skb := skb }) hf.1)]
    rfl
  | @giveBack l f hf =>
    refine ⟨?_, rfl, le_rfl⟩
    rw [Ledger.pending_hold, duties_cons_none (Frame.duty_none hf.1)]
    rfl
  | @send l f f' hf hi hb hp =>
    refine ⟨?_, rfl, Nat.le_succ _⟩
    rw [Ledger.pending_hold, Ledger.pending_act, duties_cons_none (Frame.duty_none hf.1),
      duties_cons_none (Frame.duty_none (hb rfl))]
    rfl
  | @probe l f f' hf hi hb hp =>
    refine ⟨?_, rfl, Nat.le_succ _⟩
    rw [Ledger.pending_hold, Ledger.pending_act, duties_cons_none (Frame.duty_none hf.1),
      duties_cons_none (Frame.duty_none hb)]
    rfl
  | miss i => exact ⟨rfl, rfl, le_rfl⟩
  | expire hw hm =>
    refine ⟨?_, rfl, le_rfl⟩
    rw [Ledger.pending_act, Ledger.pending_defer]
    rfl
  | resend hr =>
    refine ⟨?_, rfl, le_rfl⟩
    rw [Ledger.pending_act, Ledger.pending_defer, duties_cons_congr hr.duty]
    rfl
  | @reassign l f nf nf' nf'' hp hf ho hr =>
    refine ⟨?_, rfl, le_rfl⟩
    rw [Ledger.pending_act, Ledger.pending_hold, Ledger.pending_defer, duties_cons_none (Frame.duty_none hf.1),
      duties_cons_congr (hr.duty.trans ho.duty)]
    rfl
  | @drop l f hp =>
    refine ⟨?_, rfl, le_rfl⟩
    have hb := h.probe f (by simp) hp
    rw [Ledger.pending_defer, duties_cons_none (Frame.duty_none hb)]
    rfl
  | kick => exact ⟨rfl, rfl, le_rfl⟩

theorem Moves.duties {l l' : Ledger} (m : Moves true l l') (h : l.Inv) :
    duties l'.pending = duties l.pending ∧ l'.late = l.late ∧ l.log.ncmds ≤ l'.log.ncmds := by
  induction m with
  | refl => exact ⟨rfl, rfl, le_rfl⟩
  | tail hm hstep ih =>
    obtain ⟨h₁, h₂, h₃⟩ := hstep.duties (Moves.inv hm h)
    exact ⟨h₁.trans ih.1, h₂.trans ih.2.1, ih.2.2.trans h₃⟩

theorem pieces_of_moves {C : Cond} {h h' : Hands} {d d' : Aoedev} (m : Moves true (d.ledger h) (d'.ledger h'))
    (hb : d'.blk = d.blk) (hi : (d.ledger h).Inv) : Shifts C (d.ledger h) (d'.ledger h') ∧
      Posts (stage h d) (stage h' d') ∧
      (Bounded d.maxbcnt (d.ledger h).slots → Bounded d'.maxbcnt (d'.ledger h').slots) := by
  obtain ⟨h₁, h₂, h₃⟩ := m.duties hi
  refine ⟨m.shifts, ?_, ?_⟩
  · have hs : stage h' d' = ⟨d', duties (d.ledger h).pending, duties (d.ledger h).late⟩ := by
      rw [stage, h₁, h₂]
    rw [hs]
    refine .single (.quiet (congrArg Blk.core hb) h₃ ?_)
    intro c hc
    have hu : d'.hist.underflow = d.hist.underflow := congrArg Blk.underflow hb
    exact .inl (hu ▸ hc)
  · have hm : d'.maxbcnt = d.maxbcnt := congrArg Blk.maxbcnt hb
    rw [hm]
    exact fun hw => hw.congr m.minbcnt

theorem Quiet.inner {C : Cond} {h h' : Hands} {d d' : Aoedev} (q : Quiet h d h' d') (hi : (d.ledger h).Inv) :
    Inner C h d h' d' := by
  obtain ⟨hs, hp, hb⟩ := pieces_of_moves (C := C) q.moves q.blk hi
  exact ⟨⟨hs, hp, q.hashed, hb⟩, congrArg Blk.outer q.blk⟩

/-- The block side is changed and nothing else. -/
structure Aside (d d' : Aoedev) : Prop where
  ledger : ∀ h, d'.ledger h = d.ledger h
  traffic : ∀ h, d'.traffic h = d.traffic h
  factive : d'.factive = d.factive
  targets : d'.targets = d.targets
  crashed : d'.crashed = d.crashed
  outer : d'.blk.outer = d.blk.outer

section Aside

variable {d d' d'' : Aoedev}

theorem Aside.refl (d : Aoedev) : Aside d d := ⟨fun _ => rfl, fun _ => rfl, rfl, rfl, rfl, rfl⟩

theorem Aside.trans (a : Aside d d') (a' : Aside d' d'') : Aside d d'' :=
  ⟨fun h => (a'.ledger h).trans (a.ledger h), fun h => (a'.traffic h).trans (a.traffic h), a'.factive.trans a.factive, a'.targets.trans a.targets,
    a'.crashed.trans a.crashed, a'.outer.trans a.outer⟩

theorem Aside.field {β : Type} (a : Aside d d') (φ : Blk → β) (hφ : ∀ k, φ k.outer = φ k) : φ d'.blk = φ d.blk := by
  rw [← hφ, a.outer, hφ]

theorem Aside.maxbcnt (a : Aside d d') : d'.maxbcnt = d.maxbcnt := a.field Blk.maxbcnt fun _ => rfl

theorem Aside.up (a : Aside d d') : d'.flags.up = d.flags.up := a.field Blk.up fun _ => rfl

theorem notePred_aside {c : Counter} (hc : c ≠ .ref) (n : ℕ) : Aside d (d.notePred c n) := by
  unfold Aoedev.notePred
  split
  · refine ⟨fun _ => rfl, fun _ => rfl, rfl, rfl, rfl, ?_⟩
    have hlog (l : List Counter) : (l ++ [c]).filter (· = .ref) = l.filter (· = .ref) := by simp [hc]
    simp only [Aoedev.blk, Blk.outer, hlog]
  · exact Aside.refl d

private theorem modBuf_aside (b : ℕ) (g : Buf → Buf) :
    Aside d (d.modBuf b g) := ⟨fun _ => rfl, fun _ => rfl, rfl, rfl, rfl, rfl⟩

private theorem modRq_aside (r : ℕ) (g : Request → Request) :
    Aside d (d.modRq r g) := ⟨fun _ => rfl, fun _ => rfl, rfl, rfl, rfl, rfl⟩

theorem endRequest_aside (r : ℕ) (fastfail : Bool) : Aside d (endRequest d r fastfail) :=
  ⟨fun _ => rfl, fun _ => rfl, rfl, rfl, rfl, rfl⟩

theorem decNframesout_aside (b : ℕ) : Aside d (decNframesout d b) :=
  (notePred_aside (by decide) _).trans (modBuf_aside _ _)

theorem spoilBuf_aside (b : ℕ) : Aside d (spoilBuf d b) := ⟨fun _ => rfl, fun _ => rfl, rfl, rfl, rfl, rfl⟩

private theorem dropBuf_aside (b : ℕ) : Aside d (dropBuf d b) := by
  have hdrop : Aside d { d with ip.buf := if d.ip.buf = some b then none else d.ip.buf
                                bufs := d.bufs.filter (·.id ≠ b) } := ⟨fun _ => rfl, fun _ => rfl, rfl, rfl, rfl, rfl⟩
  exact (hdrop.trans (notePred_aside (by decide) _)).trans (modRq_aside _ _)

theorem settle_aside (b : ℕ) : Aside d (settle d b) := by
  unfold settle closeBuf
  split
  · split
    · exact (dropBuf_aside b).trans (endRequest_aside _ _)
    · exact dropBuf_aside b
  · exact Aside.refl d

private theorem failNext_aside (r i : ℕ) : Aside d (failNext d r i) := by
  have hset (d : Aoedev) (n : Option ℕ) : Aside d (d.setNxbio n) := ⟨fun _ => rfl, fun _ => rfl, rfl, rfl, rfl, rfl⟩
  exact ((notePred_aside (by decide) _).trans (modRq_aside _ _)).trans (hset _ _)

theorem failBios_aside (r n : ℕ) : Aside d (failBios r n d) := by
  induction n generalizing d with
  | zero => exact Aside.refl d
  | succ n ih =>
    unfold failBios
    split
    · exact Aside.refl d
    · exact (failNext_aside r _).trans ih

theorem failRest_aside (r : ℕ) : Aside d (failRest d r) := by
  unfold failRest
  dsimp only
  split
  · exact (failBios_aside _ _).trans (endRequest_aside _ _)
  · exact failBios_aside _ _

theorem failQueue_aside (q : List Request) : Aside d (failQueue q d) := by
  induction q generalizing d with
  | nil => exact Aside.refl d
  | cons rq q ih =>
    have hstart : Aside d { d with queue := q, rqs := rq :: d.rqs } := ⟨fun _ => rfl, fun _ => rfl, rfl, rfl, rfl, rfl⟩
    exact (hstart.trans (endRequest_aside _ _)).trans ih

end Aside

theorem Inner.of_aside {C : Cond} {h : Hands} {d d' : Aoedev} (a : Aside d d')
    (hp : ∀ D L, Posts ⟨d, D, L⟩ ⟨d', D, L⟩) : Inner C h d h d' := by
  refine ⟨⟨?_, ?_, fun hd => hd.congr a.factive, ?_⟩, a.outer⟩
  · rw [a.ledger]
    exact .refl
  · rw [stage, stage, a.ledger]
    exact hp _ _
  · rw [a.maxbcnt, a.ledger]
    exact id

end AoeDriver
