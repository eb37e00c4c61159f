import AoeDriver.Ledger.Balance

/-!
# The ledger of a device

How the device is read as a ledger and what stands beside it. A function that only works on frames is `Quiet`: it
makes moves on the ledger, keeps the hash table in order and leaves the block side alone.
-/

namespace AoeDriver

open Tables

/-- Frames a function keeps in lists of its own, by the place they count for. -/
structure Hands where
  active : Multiset Frame
  deferred : Multiset Frame
  out : Multiset Frame
  late : Multiset Frame

instance : Zero Hands := ⟨⟨0, 0, 0, 0⟩⟩

namespace Hands

def act (h : Hands) (f : Frame) : Hands := { h with active := f ::ₘ h.active }
def defer (h : Hands) (f : Frame) : Hands := { h with deferred := f ::ₘ h.deferred }
def hold (h : Hands) (f : Frame) : Hands := { h with out := f ::ₘ h.out }
def shelve (h : Hands) (f : Frame) : Hands := { h with late := f ::ₘ h.late }

end Hands

def Aoetgt.wires (t : Aoetgt) : Wires := ⟨t.ifs, t.minbcnt⟩

def Aoetgt.slot (t : Aoetgt) : Slot := ⟨t.ffree, t.falloc, t.nout, t.noutProbes, t.wires⟩

theorem slot_counts (t : Aoetgt) (n p : ℕ) :
    { t with nout := n, noutProbes := p }.slot = { t.slot with nout := n, noutProbes := p } := rfl

/-- Frames of a thread that `ktiocomplete` has not looked at yet. -/
def Thread.early : Thread → List Frame
  | .matched f _ | .ktio _ f | .flush f => [f]
  | _ => []

/-- Frames of a thread that `ktiocomplete` has processed. -/
def Thread.late : Thread → List Frame
  | .ktioMid _ f _ | .ktioOut _ f => [f]
  | _ => []

namespace Aoedev

def pool (d : Aoedev) : Pool := ⟨d.skbpool.map Skb.id, d.skbLinks, d.nskbpool, d.skbIds⟩

def ledger (d : Aoedev) (h : Hands) : Ledger where
  slots := d.targets.map Aoetgt.slot
  active := contents d.factive + h.active
  deferred := d.rexmitq + h.deferred
  out := (d.iocq.map Prod.snd : List Frame) + (d.threads.flatMap Thread.early : List Frame) + h.out
  late := (d.threads.flatMap Thread.late : List Frame) + h.late
  frameIds := d.frameIds
  log := ⟨d.hist.xmits, d.hist.ntags, d.hist.ncmds, d.lasttag, d.hist.probeMissed⟩
  clock := d.clock
  clones := d.env.clone
  kick := d.flags.kickme
  pool := ⟨d.skbpool.map Skb.id, d.skbLinks, d.nskbpool, d.skbIds⟩

/-- Every frame in `factive` is in the bucket of its tag. -/
def Hashed (d : Aoedev) : Prop := ∀ n, ∀ f ∈ d.factive n, bucket f.tag = n

end Aoedev

theorem Aoedev.Hashed.congr {d d' : Aoedev} (hd : d.Hashed) (hf : d'.factive = d.factive) : d'.Hashed := by
  unfold Aoedev.Hashed
  rw [hf]
  exact hd

/-- What work on frames leaves alone: the block side of the device, its threads and their queues. -/
structure Blk where
  aoemajor : ℕ
  aoeminor : ℕ
  up : Bool
  tkill : Bool
  gdalloc : Bool
  gdNow : Bool
  newsize : Bool
  workPending : Bool
  warned : Bool
  gd : Option Gendisk
  ssize : ℕ
  nopen : ℕ
  ref : ℕ
  blkq : Bool
  ext : Bool
  ip : InProcess
  maxbcnt : ℕ
  queue : List Request
  rqs : List Request
  bufs : List Buf
  bufIds : ℕ
  iocq : List (ℕ × Frame)
  threads : List Thread
  mempool : List Bool
  taken : List (ℕ × ℕ)
  cuts : List Cut
  processed : List Processed
  ended : List Ended
  underflow : List Counter
  nullBio : Bool

def Aoedev.blk (d : Aoedev) : Blk where
  aoemajor := d.aoemajor
  aoeminor := d.aoeminor
  up := d.flags.up
  tkill := d.flags.tkill
  gdalloc := d.flags.gdalloc
  gdNow := d.flags.gdNow
  newsize := d.flags.newsize
  workPending := d.workPending
  warned := d.hist.warned
  gd := d.gd
  ssize := d.ssize
  nopen := d.nopen
  ref := d.ref
  blkq := d.blkq
  ext := d.flags.ext
  ip := d.ip
  maxbcnt := d.maxbcnt
  queue := d.queue
  rqs := d.rqs
  bufs := d.bufs
  bufIds := d.bufIds
  iocq := d.iocq
  threads := d.threads
  mempool := d.env.mempool
  taken := d.hist.taken
  cuts := d.hist.cuts
  processed := d.hist.processed
  ended := d.hist.ended
  underflow := d.hist.underflow
  nullBio := d.hist.nullBio

/-- The part of it that a completion or the issue of requests leaves alone as well. -/
def Blk.outer (k : Blk) : Blk :=
  { k with
    ip := default, queue := [], rqs := [], bufs := [], bufIds := 0, mempool := [], taken := [], cuts := []
    processed := [], ended := [], underflow := k.underflow.filter (· = .ref), nullBio := false }

/-- Work on frames that issues no command of a buf. -/
structure Quiet (h : Hands) (d : Aoedev) (h' : Hands) (d' : Aoedev) : Prop where
  moves : Moves true (d.ledger h) (d'.ledger h')
  hashed : d.Hashed → d'.Hashed
  blk : d'.blk = d.blk

section Quiet

variable {h h' h'' : Hands} {d d' d'' : Aoedev}

theorem Quiet.refl (h : Hands) (d : Aoedev) : Quiet h d h d := ⟨.refl, id, rfl⟩

theorem Quiet.trans (q : Quiet h d h' d') (q' : Quiet h' d' h'' d'') : Quiet h d h'' d'' :=
  ⟨q.moves.trans q'.moves, fun hd => q'.hashed (q.hashed hd), q'.blk.trans q.blk⟩

theorem Quiet.inv (q : Quiet h d h' d') (hi : (d.ledger h).Inv) : (d'.ledger h').Inv := q.moves.inv hi

theorem Quiet.of_eq (hl : d'.ledger h' = d.ledger h) (hf : d'.factive = d.factive) (hb : d'.blk = d.blk) :
    Quiet h d h' d' := by
  refine ⟨?_, fun hd => hd.congr hf, hb⟩
  rw [hl]
  exact .refl

end Quiet

section Changes

variable (d : Aoedev) (h : Hands) (f : Frame)

theorem ledger_hands_act : d.ledger (h.act f) = (d.ledger h).act f := by
  simp [Aoedev.ledger, Hands.act, Ledger.act]

theorem ledger_hands_defer : d.ledger (h.defer f) = (d.ledger h).defer f := by
  simp [Aoedev.ledger, Hands.defer, Ledger.defer]

theorem ledger_hands_hold : d.ledger (h.hold f) = (d.ledger h).hold f := by
  simp [Aoedev.ledger, Hands.hold, Ledger.hold]

theorem ledger_hands_shelve : d.ledger (h.shelve f) = (d.ledger h).shelve f := by
  simp [Aoedev.ledger, Hands.shelve, Ledger.shelve]

theorem ledger_modTgt (i : ℕ) (g : Aoetgt → Aoetgt) (k : Slot → Slot) (hg : ∀ t, (g t).slot = k t.slot) :
    (d.modTgt i g).ledger h = (d.ledger h).modSlot i k := by
  simp only [Aoedev.ledger, Aoedev.modTgt, Ledger.modSlot]
  rw [map_modify _ _ _ k _ hg]

theorem ledger_modTgt_at (i : ℕ) (g : Aoetgt → Aoetgt) (k : Slot → Slot)
    (hg : (g (d.tgtAt i)).slot = k (d.tgtAt i).slot) : (d.modTgt i g).ledger h = (d.ledger h).modSlot i k := by
  simp only [Aoedev.ledger, Aoedev.modTgt, Ledger.modSlot]
  rw [map_modify_at _ _ _ k _ hg]

theorem ledger_modTgt_same (i : ℕ) (g : Aoetgt → Aoetgt) (hg : ∀ t, (g t).slot = t.slot) :
    (d.modTgt i g).ledger h = d.ledger h := by
  simp only [Aoedev.ledger, Aoedev.modTgt]
  rw [map_modify_same _ _ _ _ hg]

@[simp] theorem slots_ledger : (d.ledger h).slots.length = d.targets.length := by simp [Aoedev.ledger]

theorem slot_ledger (i : ℕ) : (d.ledger h).slot i = (d.tgtAt i).slot := by
  simp only [Ledger.slot, Aoedev.ledger, Aoedev.tgtAt, List.getD_eq_getElem?_getD, List.getElem?_map]
  cases d.targets[i]? with
  | none => rfl
  | some t => rfl

theorem ledger_aoeFreetframe : (aoeFreetframe d f).ledger h = (d.ledger h).put f.blank :=
  ledger_modTgt d h f.t _ (fun s => { s with free := f.blank ::ₘ s.free }) (fun _ => rfl)

theorem ledger_fhash : (fhash d f).ledger h = (d.ledger h).act f := by
  simp only [Aoedev.ledger, fhash, Ledger.act]
  rw [contents_push, Multiset.cons_add]

@[simp] theorem blk_modTgt (i : ℕ) (g : Aoetgt → Aoetgt) : (d.modTgt i g).blk = d.blk := rfl
@[simp] theorem blk_fhash : (fhash d f).blk = d.blk := rfl
@[simp] theorem blk_newCommand : (newCommand d f).1.blk = d.blk := rfl
@[simp] theorem blk_newtag : (newtag d).1.blk = d.blk := rfl
@[simp] theorem blk_noteNd (nd : Option NetDev) : (d.noteNd nd).blk = d.blk := rfl
@[simp] theorem blk_noteXmit : (d.noteXmit f).blk = d.blk := rfl

theorem Aoedev.Hashed.fhash {d : Aoedev} (hd : d.Hashed) (f : Frame) : (fhash d f).Hashed := by
  intro n g hg
  simp only [AoeDriver.fhash] at hg
  by_cases hn : n = bucket f.tag
  · subst hn
    rw [Function.update_self, List.mem_append, List.mem_singleton] at hg
    rcases hg with hg | rfl
    · exact hd _ g hg
    · rfl
  · rw [Function.update_of_ne hn] at hg
    exact hd n g hg

end Changes

theorem tgtAt_modTgt (d : Aoedev) (i j : ℕ) (g : Aoetgt → Aoetgt) :
    (d.modTgt i g).tgtAt j = if i = j ∧ j < d.targets.length then g (d.tgtAt j) else d.tgtAt j :=
  getD_modify _ _ _ _

theorem tgtAt_modTgt_self (d : Aoedev) {i : ℕ} (hi : i < d.targets.length) (g : Aoetgt → Aoetgt) :
    (d.modTgt i g).tgtAt i = g (d.tgtAt i) := by
  rw [tgtAt_modTgt, if_pos ⟨rfl, hi⟩]

theorem tgtAt_modTgt_ne (d : Aoedev) {i j : ℕ} (hij : i ≠ j) (g : Aoetgt → Aoetgt) :
    (d.modTgt i g).tgtAt j = d.tgtAt j := by
  rw [tgtAt_modTgt, if_neg (fun hh => hij hh.1)]

@[simp] theorem length_modTgt (d : Aoedev) (i : ℕ) (g : Aoetgt → Aoetgt) :
    (d.modTgt i g).targets.length = d.targets.length := List.length_modify _ _ _

end AoeDriver
