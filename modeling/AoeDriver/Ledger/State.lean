import AoeDriver.Library.Tables
import AoeDriver.Model.System

/-!
# The frame ledger

An account of where every frame is: free with its target, outstanding, deferred, or out of the lock's reach on
a completion queue or in the hands of a thread. `Move` lists what the driver does with frames inside a
critical section, `Shift` adds what happens to them between the sections and when the device goes down.
-/

namespace AoeDriver

/-- The interfaces of a target and the payload size they agree on. -/
structure Wires where
  ifs : List Aoeif
  minbcnt : ℕ

/-- What the ledger keeps of a target. -/
structure Slot where
  free : Multiset Frame
  falloc : ℕ
  nout : ℕ
  noutProbes : ℕ
  wires : Wires

instance : Inhabited Slot := ⟨⟨0, 0, 0, 0, ⟨[], 0⟩⟩⟩

structure Log where
  xmits : List Xmit
  ntags : ℕ
  ncmds : ℕ
  lasttag : ℕ
  probeMissed : Bool

/-- The packets in the pool with their links, its count, and the number of packets ever made. -/
structure Pool where
  ids : List ℕ
  links : Links ℕ
  count : ℕ
  made : ℕ

/-- `out` are the frames on their way to `ktiocomplete`, `late` those it has processed and not yet given back. -/
structure Ledger where
  slots : List Slot
  active : Multiset Frame
  deferred : Multiset Frame
  out : Multiset Frame
  late : Multiset Frame
  frameIds : ℕ
  log : Log
  clock : Clock
  clones : List Bool
  kick : Bool
  pool : Pool

namespace Ledger

def slot (l : Ledger) (i : ℕ) : Slot := l.slots.getD i default

def modSlot (l : Ledger) (i : ℕ) (g : Slot → Slot) : Ledger := { l with slots := l.slots.modify i g }

def put (l : Ledger) (f : Frame) : Ledger := l.modSlot f.t fun s => { s with free := f ::ₘ s.free }
def act (l : Ledger) (f : Frame) : Ledger := { l with active := f ::ₘ l.active }
def defer (l : Ledger) (f : Frame) : Ledger := { l with deferred := f ::ₘ l.deferred }
def hold (l : Ledger) (f : Frame) : Ledger := { l with out := f ::ₘ l.out }
def shelve (l : Ledger) (f : Frame) : Ledger := { l with late := f ::ₘ l.late }

/-- The tag the next call of `newtag` returns. -/
def nextTag (l : Ledger) : ℕ :=
  (l.clock.jiffies &&& 0xffff) ||| ((l.log.lasttag + 1) % 2^16 &&& 0x7fff) <<< 16

/-- One attempt to send command `cmd`: a tag, a line in the log and a call of `skb_clone`. -/
def xmit (l : Ledger) (cmd : ℕ) : Ledger :=
  { l with
    log := { l.log with
      lasttag := (l.log.lasttag + 1) % 2^16, ntags := l.log.ntags + 1
      xmits := l.log.xmits ++ [⟨cmd, l.nextTag, l.log.ntags + 1⟩] }
    clones := (nextOutcome l.clones).2 }

/-- The first attempt of a new command. -/
def issue (l : Ledger) : Ledger :=
  { l with log := { l.log with ncmds := l.log.ncmds + 1 } }.xmit l.log.ncmds

/-- Frames in use that `ktiocomplete` has not processed. -/
def pending (l : Ledger) : Multiset Frame := l.active + l.deferred + l.out

/-- Frames in use. -/
def inPlay (l : Ledger) : Multiset Frame := l.pending + l.late

def all (l : Ledger) : Multiset Frame := (l.slots.map Slot.free).sum + l.inPlay

end Ledger

/-- Free frames are in this state. -/
def Frame.Blank (f : Frame) : Prop := f.buf = none ∧ f.iter = default ∧ f.rSkb = none ∧ f.probe = false

theorem Frame.blank_of_Blank {f : Frame} (h : f.Blank) : f.blank = f := by
  obtain ⟨hb, hi, hr, hp⟩ := h
  cases f
  simp_all [Frame.blank]

theorem Frame.Blank_blank (f : Frame) : f.blank.Blank := ⟨rfl, rfl, rfl, rfl⟩

/-- The tag in the header of the frame's packet. -/
def Frame.hdrTag (f : Frame) : Option ℕ := f.skb.map fun skb => skb.hdr.tag

/-- The packet of the frame. -/
def Frame.packet (f : Frame) : Option ℕ := f.skb.map Skb.id

/-- What `newtframe` does with the packet of a frame: it makes one, keeps it, or exchanges it with one from the pool or
with a new one. -/
inductive Restock : Pool → Option ℕ → Pool → Option ℕ → Prop where
  | make {p : Pool} : Restock p none { p with made := p.made + 1 } (some p.made)
  | keep {p : Pool} {o : Option ℕ} : Restock p o p o
  | swap {p : Pool} {i j : ℕ} {rest : List ℕ} (hids : p.ids = j :: rest) :
      Restock p (some i) { p with ids := rest ++ [i], links := p.links.get.put i } (some j)
  | grow {p : Pool} {i : ℕ} (hc : p.count < NSKBPOOLMAX) :
      Restock p (some i)
        { ids := p.ids ++ [i], links := p.links.put i, count := p.count + 1, made := p.made + 1 } (some p.made)

/-- Time stamps after a call of `skb_clone`. -/
def Stamped (l : Ledger) (f f' : Frame) : Prop :=
  if (nextOutcome l.clones).1 then f'.sent = doGettimeofday l.clock ∧ f'.sentJiffs = l.clock.jiffies % 2^32
  else f'.sent = f.sent ∧ f'.sentJiffs = f.sentJiffs

/-- `f'` is the free frame `f` sent with a new command. -/
structure Issued (l : Ledger) (f f' : Frame) : Prop where
  id : f'.id = f.id
  t : f'.t = f.t
  rSkb : f'.rSkb = f.rSkb
  cmd : f'.cmd = l.log.ncmds
  born : f'.born = l.clock.wall
  waited : f'.waitedTotal = 0
  tag : f'.tag = l.nextTag
  hdr : f'.hdrTag = some f'.tag
  stamped : Stamped l f f'
  packet : f'.packet = some (f.skb.getD default).id

/-- `f'` is the deferred frame `f` sent again. -/
structure Resent (l : Ledger) (f f' : Frame) : Prop where
  id : f'.id = f.id
  t : f'.t = f.t
  rSkb : f'.rSkb = f.rSkb
  buf : f'.buf = f.buf
  iter : f'.iter = f.iter
  probe : f'.probe = f.probe
  cmd : f'.cmd = f.cmd
  born : f'.born = f.born
  waited : f'.waitedTotal = addUlong f.waitedTotal (tsinceHr l.clock f)
  tag : f'.tag = l.nextTag
  hdr : f'.hdrTag = some f'.tag
  stamped : Stamped l f f'
  ata : f'.skb.map (fun skb => (skb.ata, skb.frags)) = some ((f.skb.getD default).ata, (f.skb.getD default).frags)
  packet : f'.packet = some (f.skb.getD default).id

/-- `nf'` is the free frame `nf` after it has taken over the command of `f`. -/
structure TakesOver (f nf nf' : Frame) : Prop where
  id : nf'.id = nf.id
  t : nf'.t = nf.t
  rSkb : nf'.rSkb = nf.rSkb
  buf : nf'.buf = f.buf
  iter : nf'.iter = f.iter
  probe : nf'.probe = nf.probe
  cmd : nf'.cmd = f.cmd
  born : nf'.born = f.born
  waited : nf'.waitedTotal = f.waitedTotal
  sent : nf'.sent = f.sent
  sentJiffs : nf'.sentJiffs = f.sentJiffs
  skb : nf'.skb = f.skb

/-- Payload sizes the driver works with: whole sectors, and no more than a sector count of 127. -/
def WholeSectors (bcnt : ℕ) : Prop := ∃ k ≤ 127, bcnt = k * 512

def Payload (bcnt : ℕ) : Prop := 0 < bcnt ∧ WholeSectors bcnt

/-- The interfaces fill their table from slot 0 on, and `minbcnt` is a payload size that suits all of them. -/
structure Live (w : Wires) : Prop where
  len : w.ifs.length = NAOEIFS
  first : (w.ifs.getD 0 default).nd.isSome
  packed : (w.ifs.map Aoeif.nd).Pairwise fun a b => b.isSome → a.isSome
  bcnt : ∀ x ∈ w.ifs, x.nd.isSome → Payload x.bcnt ∧ w.minbcnt ≤ x.bcnt
  minbcnt : Payload w.minbcnt

/-- `maxbcnt` is a payload size that suits all targets, or 0 while it is not known. -/
def Bounded (maxbcnt : ℕ) (slots : List Slot) : Prop :=
  WholeSectors maxbcnt ∧ (maxbcnt ≠ 0 → ∀ s ∈ slots, maxbcnt ≤ s.wires.minbcnt)

/-- What one operation inside a critical section does to the ledger. With `quiet` no command that belongs to a buf
is issued. -/
inductive Move (quiet : Bool) : Ledger → Ledger → Prop where
  | alloc {l : Ledger} {f : Frame} (hcap : (l.slot f.t).falloc < NSKBPOOLMAX * 2) (hid : f.id = l.frameIds)
      (ht : f.t < l.slots.length) (hf : f.Blank) (hs : f.skb = none) :
      Move quiet l
        (({ l with frameIds := l.frameIds + 1 }.modSlot f.t fun s => { s with falloc := s.falloc + 1 }).put f)
  | take {l : Ledger} {f : Frame} (ht : f.t < l.slots.length) : Move quiet (l.put f) (l.hold f)
  | reskb {l : Ledger} {f : Frame} {skb : Option Skb} {p : Pool} (hf : f.Blank)
      (hs : Restock l.pool f.packet p (skb.map Skb.id)) :
      Move quiet (l.hold f) ({ l with pool := p }.hold { f with skb := skb })
  | giveBack {l : Ledger} {f : Frame} (hf : f.Blank) : Move quiet (l.hold f) (l.put f)
  | send {l : Ledger} {f f' : Frame} (hf : f.Blank) (hi : Issued l f f') (hb : quiet → f'.buf = none)
      (hp : f'.probe = false) (hs : f.skb.isSome) :
      Move quiet (l.hold f) ((l.issue.modSlot f.t fun s => { s with nout := incUshort s.nout }).act f')
  | probe {l : Ledger} {f f' : Frame} (hf : f.Blank) (hi : Issued l f f') (hb : f'.buf = none)
      (hp : f'.probe = true) (hs : f.skb.isSome) :
      Move quiet (l.hold f)
        ((l.issue.modSlot f.t fun s =>
          { s with nout := incUshort s.nout, noutProbes := incChar s.noutProbes }).act f')
  | miss {l : Ledger} (i : ℕ) :
      Move quiet l ({ l with log := { l.log with probeMissed := true } }.modSlot i fun s =>
        { s with noutProbes := incChar s.noutProbes })
  | expire {l : Ledger} {f : Frame} {w : Wires} (hw : Live w) (hm : w.minbcnt = (l.slot f.t).wires.minbcnt) :
      Move quiet (l.act f)
        ((l.modSlot f.t fun s =>
          { s with
            nout := decUshort s.nout, noutProbes := if f.probe then decChar s.noutProbes else s.noutProbes
            wires := w }).defer f)
  | resend {l : Ledger} {f f' : Frame} (hr : Resent l f f') :
      Move quiet (l.defer f)
        (((l.xmit f.cmd).modSlot f.t fun s =>
          { s with
            nout := incUshort s.nout
            noutProbes := if f.probe then incChar s.noutProbes else s.noutProbes }).act f')
  | reassign {l : Ledger} {f nf nf' nf'' : Frame} (hp : f.probe = false) (hf : nf.Blank)
      (ho : TakesOver f nf nf') (hr : Resent l nf' nf'') :
      Move quiet ((l.defer f).hold nf)
        ((((l.xmit f.cmd).put { f.blank with skb := nf.skb }).modSlot nf.t fun x =>
          { x with nout := incUshort x.nout }).act nf'')
  | drop {l : Ledger} {f : Frame} (hp : f.probe = true) :
      Move quiet (l.defer f) ({ l with kick := true }.put f.blank)
  | kick {l : Ledger} : Move quiet l { l with kick := true }

/-- Any number of moves. -/
def Moves (quiet : Bool) : Ledger → Ledger → Prop := Relation.ReflTransGen (Move quiet)

/-- What may be asked of the surroundings: how time passes, which clones succeed, and when a device goes down. -/
structure Cond where
  tick : ℕ → ℕ → Prop
  clones : List Bool → Prop
  down : Ledger → Prop

/-- What the events of the driver do to the ledger, beside the moves. -/
inductive Shift (C : Cond) : Ledger → Ledger → Prop where
  | move {l l' : Ledger} (hm : Move false l l') : Shift C l l'
  | tick {l : Ledger} {usecs jiffs : ℕ} (hc : C.tick usecs jiffs) :
      Shift C l { l with
        clock := { l.clock with wall := l.clock.wall + usecs, jiffies := l.clock.jiffies + jiffs } }
  | outcomes {l : Ledger} {clones : List Bool} (hc : C.clones clones) : Shift C l { l with clones := clones }
  | unkick {l : Ledger} : Shift C l { l with kick := false }
  | answer {l : Ledger} {f : Frame} :
      Shift C (l.act f)
        ((l.modSlot f.t fun s =>
          { s with
            nout := decUshort s.nout
            noutProbes := if f.probe then decChar s.noutProbes else s.noutProbes }).hold f)
  | answerDeferred {l : Ledger} {f : Frame} : Shift C (l.defer f) (l.hold f)
  | reply {l : Ledger} {f : Frame} {r : Option Rsp} : Shift C (l.hold f) (l.hold { f with rSkb := r })
  | unbuf {l : Ledger} {f : Frame} : Shift C (l.hold f) (l.hold { f with buf := none })
  | retire {l : Ledger} {f : Frame} : Shift C (l.hold f) (l.shelve f)
  | release {l : Ledger} {f : Frame} : Shift C (l.shelve f) (l.put f.blank)
  | discard {l : Ledger} {f : Frame} : Shift C (l.hold f) (l.put f.blank)
  | grow {l : Ledger} {wires : Wires} (hw : Live wires) :
      Shift C l { l with slots := l.slots ++ [⟨0, 0, 0, 0, wires⟩] }
  | rewire {l : Ledger} {i : ℕ} {wires : Wires} (hw : Live wires) :
      Shift C l (l.modSlot i fun s => { s with wires := wires })
  | reskb {l : Ledger} {g : Option Skb → Option Skb} (hg : ∀ s, (g s).map Skb.id = s.map Skb.id) :
      Shift C l { l with
        slots := l.slots.map fun s => { s with free := s.free.map fun f => { f with skb := g f.skb } } }
  | down {l : Ledger} (hc : C.down l) :
      Shift C l { l with
        active := 0, deferred := 0, out := l.active + l.deferred + l.out
        slots := l.slots.map fun s => { s with nout := 0 } }

def Shifts (C : Cond) : Ledger → Ledger → Prop := Relation.ReflTransGen (Shift C)

end AoeDriver
