import AoeDriver.Frames.Issue
import AoeDriver.Model.System

/-!
# The round of targets and the order of transmissions

`d->tgt` goes round the targets, and frames go round `factive`. What a section can do to either is one of four moves;
most functions make none of them.
-/

namespace AoeDriver

open Tables

/-- `size` is the number of targets and `clones` are the outcomes of `skb_clone` still to come. -/
structure Rota where
  tgt : ℕ
  size : ℕ
  factive : Fin NFACTIVE → List Frame
  wall : ℕ
  clones : List Bool

def Aoedev.rota (d : Aoedev) : Rota := ⟨d.tgt, d.targets.length, d.factive, d.clock.wall, d.env.clone⟩

/-- The microseconds in a time stamp. -/
def Timeval.instant (t : Timeval) : ℤ := t.sec * USEC_PER_SEC + t.usec

namespace Rota

inductive Move : Rota → Rota → Prop where
  /-- A populated slot becomes the current one. -/
  | pick {r : Rota} {i : ℕ} (hi : i < r.size) : Move r { r with tgt := i }
  | add {r : Rota} : Move r { r with size := r.size + 1 }
  /-- A frame is stamped, if its packet can be cloned, and goes to the end of a bucket. -/
  | hang {r : Rota} {b : Fin NFACTIVE} {f : Frame}
      (hs : (nextOutcome r.clones).1 = true → f.sent.instant = r.wall) :
      Move r { r with clones := (nextOutcome r.clones).2, factive := Function.update r.factive b (r.factive b ++ [f]) }
  | drop {r : Rota} {F : Fin NFACTIVE → List Frame} (hF : ∀ b, (F b).Sublist (r.factive b)) :
      Move r { r with factive := F }

def Moves : Rota → Rota → Prop := Relation.ReflTransGen Move

namespace Moves

variable {r r' r'' : Rota}

theorem refl (r : Rota) : Moves r r := Relation.ReflTransGen.refl

theorem of_eq (h : r' = r) : Moves r r' := h ▸ refl r

theorem single (h : Move r r') : Moves r r' := Relation.ReflTransGen.single h

theorem trans (h : Moves r r') (h' : Moves r' r'') : Moves r r'' := Relation.ReflTransGen.trans h h'

theorem keeps {P : Rota → Prop} (hstep : ∀ r r', P r → Move r r' → P r') (h : Moves r r') (hr : P r) : P r' := by
  induction h with
  | refl => exact hr
  | tail _ hmove ih => exact hstep _ _ ih hmove

end Moves

end Rota

variable {d d' : Aoedev}

@[simp] theorem rota_modTgt (d : Aoedev) (i : ℕ) (g : Aoetgt → Aoetgt) : (d.modTgt i g).rota = d.rota := by
  simp [Aoedev.rota, Aoedev.modTgt]

private theorem rota_stock (h : StockOnly d d') : d'.rota = d.rota := by
  obtain ⟨p, q, n, i, o, c, fi, targets, rfl, ht⟩ := h
  have hlen := congrArg List.length ht
  simp only [List.length_map] at hlen
  simp [Aoedev.rota, hlen]

@[simp] theorem rota_freetframe (d : Aoedev) (f : Frame) : (aoeFreetframe d f).rota = d.rota := rota_modTgt d _ _

@[simp] theorem rota_notePred (d : Aoedev) (c : Counter) (n : ℕ) : (d.notePred c n).rota = d.rota := by
  unfold Aoedev.notePred
  split <;> rfl

private theorem rota_newframeTry (d : Aoedev) (tt : ℕ) (useTainted : Bool) :
    (newframeTry d tt useTainted).1.rota = d.rota := by
  unfold newframeTry
  dsimp only
  split
  · exact rota_stock (newtframe_stock d tt)
  · rfl

private theorem newframeLoop_rota (fuel : ℕ) (hd : d.targets ≠ []) (tt : ℕ) (useTainted hasUntainted : Bool)
    (totout : ℕ) : d.rota.Moves (newframeLoop fuel d tt useTainted hasUntainted totout).1.rota := by
  induction fuel generalizing d tt useTainted hasUntainted totout with
  | zero => exact .refl _
  | succ fuel ih =>
    unfold newframeLoop
    have htt := nextSlot_lt hd tt
    have htry := rota_newframeTry d (d.nextSlot tt) useTainted
    generalize d.nextSlot tt = tt at htt htry ⊢
    dsimp only
    generalize (if (d.tgtAt tt).taint = 0 then totout + (d.tgtAt tt).nout else totout) = totout
    generalize newframeTry d tt useTainted = p at htry ⊢
    obtain ⟨d', o⟩ := p
    have hsize : d'.targets.length = d.targets.length := congrArg Rota.size htry
    have hd' : d'.targets ≠ [] := by
      rw [← List.length_pos_iff, hsize, List.length_pos_iff]
      exact hd
    rw [← htry]
    cases o with
    | some f =>
      have hpick : d'.rota.Move { d'.rota with tgt := tt } := .pick (htt.trans_eq hsize.symm)
      have heq : ({ d'.modTgt tt fun t => (ifrotate t).1 with tgt := tt } : Aoedev).rota = { d'.rota with tgt := tt } :=
        congrArg (fun r : Rota => { r with tgt := tt }) (rota_modTgt d' tt fun t => (ifrotate t).1)
      exact heq ▸ .single hpick
    | none =>
      dsimp only
      split
      · split
        · exact ih hd' _ _ _ _
        · split <;> exact .refl _
      · exact ih hd' _ _ _ _

private theorem newframe_rota (d : Aoedev) : d.rota.Moves (newframe d).1.rota := by
  unfold newframe
  split
  · exact .refl _
  · rename_i hd
    exact newframeLoop_rota _ hd _ _ _ _

theorem instant_doGettimeofday (c : Clock) : (doGettimeofday c).instant = c.wall := by
  have hdiv := Nat.div_add_mod c.wall USEC_PER_SEC
  have hcast : (USEC_PER_SEC : ℤ) * (c.wall / USEC_PER_SEC : ℕ) + (c.wall % USEC_PER_SEC : ℕ) = c.wall := by
    exact_mod_cast hdiv
  rw [← hcast, mul_comm]
  rfl

private theorem transmit_rota (d : Aoedev) (f : Frame) :
    d.rota.Move (fhash (sendClone d f).1 (sendClone d f).2).rota := by
  have hmove (g : Frame) (hs : (nextOutcome d.env.clone).1 = true → g.sent.instant = d.clock.wall) :
      d.rota.Move (fhash { d with env.clone := (nextOutcome d.env.clone).2 } g).rota :=
    Rota.Move.hang (r := d.rota) (b := bucket g.tag) (f := g) hs
  unfold sendClone
  dsimp only
  split
  · exact hmove _ fun _ => instant_doGettimeofday d.clock
  · rename_i hok
    exact hmove _ fun h => absurd h hok

@[simp] theorem rota_noteSend (d : Aoedev) (f : Frame) (first : Bool) : (d.noteSend f first).rota = d.rota := rfl

@[simp] theorem rota_noteCut (d : Aoedev) (f : Frame) (buf : Buf) : (d.noteCut f buf).rota = d.rota := rfl

theorem transmit_of (h : d'.rota = d.rota) (f : Frame) :
    d.rota.Moves (fhash (sendClone d' f).1 (sendClone d' f).2).rota := h ▸ .single (transmit_rota d' f)

@[simp] theorem rota_ataRwFrameinit (d : Aoedev) (f : Frame) (data : Option (List BioVec)) :
    (ataRwFrameinit d f data).1.rota = d.rota := rota_modTgt d _ _

@[simp] theorem rota_ataIdInit (d : Aoedev) (f : Frame) : (ataIdInit d f).1.rota = d.rota := rota_modTgt d _ _

theorem probe_rota (d : Aoedev) (t : ℕ) : d.rota.Moves (probe d t).rota := by
  have hstock := rota_stock (newtframe_stock d t)
  unfold probe
  generalize newtframe d t = p at hstock ⊢
  obtain ⟨d', o⟩ := p
  rw [← hstock]
  cases o with
  | none => exact .refl _
  | some f =>
    dsimp only
    refine transmit_of ?_ _
    rw [rota_noteSend, rota_ataRwFrameinit]
    exact rota_modTgt d' t fun x => (ifrotate x).1

private theorem rota_nextbufAlloc (d : Aoedev) (r : ℕ) : (nextbufAlloc d r).1.rota = d.rota := by
  unfold nextbufAlloc
  dsimp only
  split
  · split <;> rfl
  · rfl

private theorem rota_nextbuf (d : Aoedev) : (nextbuf d).1.rota = d.rota := by
  unfold nextbuf
  split
  · rfl
  · split
    · rfl
    · split
      · exact rota_nextbufAlloc d _
      · split
        · rfl
        · exact rota_nextbufAlloc (startRq d _ _) _

private theorem ataRwSend_rota (d : Aoedev) (b : ℕ) (f : Frame) : d.rota.Moves (ataRwSend d b f).rota := by
  unfold ataRwSend
  extract_lets buf iter data
  dsimp only
  refine transmit_of ?_ _
  rw [rota_noteSend, rota_noteCut, rota_ataRwFrameinit]
  rfl

private theorem aoecmdAtaRw_rota (d : Aoedev) : d.rota.Moves (aoecmdAtaRw d).1.rota := by
  have hbuf := rota_nextbuf d
  unfold aoecmdAtaRw
  generalize nextbuf d = p at hbuf ⊢
  obtain ⟨d₁, o⟩ := p
  rw [← hbuf]
  cases o with
  | none => exact .refl _
  | some b =>
    have hframe := newframe_rota d₁
    dsimp only
    generalize newframe d₁ = p at hframe ⊢
    obtain ⟨d₂, o⟩ := p
    cases o with
    | none => exact hframe
    | some f => exact hframe.trans (ataRwSend_rota d₂ b f)

theorem aoecmdAtaId_rota (d : Aoedev) : d.rota.Moves (aoecmdAtaId d).1.rota := by
  have hframe := newframe_rota d
  unfold aoecmdAtaId
  generalize newframe d = p at hframe ⊢
  obtain ⟨d₁, o⟩ := p
  cases o with
  | none => exact hframe
  | some f =>
    refine hframe.trans ?_
    dsimp only
    refine transmit_of ?_ _
    rw [rota_noteSend]
    exact rota_ataIdInit d₁ f

private theorem ataRwLoop_rota (fuel : ℕ) (d : Aoedev) : d.rota.Moves (ataRwLoop fuel d).rota := by
  induction fuel generalizing d with
  | zero => exact .refl _
  | succ fuel ih =>
    have hone := aoecmdAtaRw_rota d
    unfold ataRwLoop
    generalize aoecmdAtaRw d = p at hone ⊢
    obtain ⟨d₁, more⟩ := p
    cases more with
    | true => exact hone.trans (ih d₁)
    | false => exact hone

private theorem resend_rota (d : Aoedev) (f : Frame) : d.rota.Moves (resend d f).rota := by
  unfold resend
  dsimp only
  split
  · have hrot : (resendInit ((newtag d).1.modTgt f.t fun t => (ifrotate t).1) (newtag d).2 f).1.rota = d.rota :=
      rota_modTgt (newtag d).1 f.t _
    refine transmit_of ?_ _
    rw [rota_noteSend]
    exact hrot
  · exact .refl _

private theorem rexmitSend_rota (d : Aoedev) (f : Frame) : d.rota.Moves (rexmitSend d f).rota := by
  unfold rexmitSend
  split
  · exact .refl _
  · dsimp only
    rw [← rota_modTgt d f.t fun t =>
      { t with nout := incUshort t.nout, noutProbes := if f.probe then incChar t.noutProbes else t.noutProbes }]
    exact resend_rota _ _

theorem probeCounted_rota (d : Aoedev) (t : ℕ) : d.rota.Moves (probeCounted d t).rota := by
  unfold probeCounted
  rw [rota_modTgt]
  exact probe_rota d t

private theorem reassignFrame_rota (d : Aoedev) (f : Frame) : d.rota.Moves (reassignFrame d f).1.rota := by
  have hframe := newframe_rota d
  unfold reassignFrame
  generalize newframe d = p at hframe ⊢
  obtain ⟨d₁, o⟩ := p
  cases o with
  | none => exact hframe
  | some nf =>
    dsimp only
    split
    · rw [rota_freetframe]
      exact hframe
    · exact hframe

private theorem stopProbe_rota (d : Aoedev) (f : Frame) : (stopProbe d f).rota = d.rota := rota_freetframe d f

private theorem rexmitOne_rota (untainted : ℕ) (d : Aoedev) (f : Frame) :
    d.rota.Moves (rexmitOne untainted d f).rota := by
  unfold rexmitOne
  dsimp only
  split
  · split
    · have hre := reassignFrame_rota d f
      generalize reassignFrame d f = p at hre ⊢
      obtain ⟨d₁, o⟩ := p
      cases o with
      | none => exact hre.trans (rexmitSend_rota d₁ f)
      | some q =>
        obtain ⟨nf, g⟩ := q
        refine hre.trans ?_
        dsimp only
        have hprobe : d₁.rota.Moves (if (d₁.tgtAt g.t).noutProbes = 0 ∧ 0 < untainted then probeCounted d₁ g.t else d₁).rota := by
          split
          · exact probeCounted_rota d₁ g.t
          · exact .refl _
        refine hprobe.trans ?_
        generalize (if (d₁.tgtAt g.t).noutProbes = 0 ∧ 0 < untainted then probeCounted d₁ g.t else d₁) = d₂
        rw [← rota_freetframe d₂ g]
        exact rexmitSend_rota _ nf
    · split
      · exact .of_eq (stopProbe_rota d f)
      · split
        · exact .refl _
        · exact rexmitSend_rota d f
  · split
    · exact .of_eq (stopProbe_rota d f)
    · exact rexmitSend_rota d f

private theorem rexmitLoop_rota (untainted : ℕ) (fs : List Frame) (d : Aoedev) :
    d.rota.Moves (rexmitLoop untainted fs d).rota := by
  induction fs generalizing d with
  | nil => exact .refl _
  | cons f fs ih => exact (rexmitOne_rota untainted d f).trans (ih _)

theorem rexmitDeferred_rota (d : Aoedev) : d.rota.Moves (rexmitDeferred d).rota :=
  rexmitLoop_rota _ _ { d with rexmitq := [] }

theorem aoecmdWork_rota (d : Aoedev) : d.rota.Moves (aoecmdWork d).rota :=
  (rexmitDeferred_rota d).trans (ataRwLoop_rota _ _)

end AoeDriver
