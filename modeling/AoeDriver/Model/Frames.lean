import AoeDriver.Model.Types

/-!
# Frames, tags and packets

Everything that prepares a frame: time stamps, tags, packet headers, the pool of packets and the choice of
a target. All functions run with `d->lock` held.
-/

namespace AoeDriver

/-- Decrement of an `unsigned long`. -/
def predUlong (n : Nat) : Nat := if n = 0 then 2^64 - 1 else n - 1

def incUshort (n : Nat) : Nat := (n + 1) % 2^16
def decUshort (n : Nat) : Nat := (n + (2^16 - 1)) % 2^16
def incChar (n : Nat) : Nat := (n + 1) % 2^8
def decChar (n : Nat) : Nat := (n + (2^8 - 1)) % 2^8

/-- Conversion of a wider integer to `int`. -/
def toInt (i : Int) : Int := Int.bmod i (2^32)

/-- `n += i` for an `unsigned long` and an `int`. -/
def addUlong (n : Nat) (i : Int) : Nat := (((n : Int) + i) % 2^64).toNat

/-- The target with a given index. -/
def Aoedev.tgtAt (d : Aoedev) (i : Nat) : Aoetgt := d.targets.getD i default

def Aoedev.modTgt (d : Aoedev) (i : Nat) (g : Aoetgt → Aoetgt) : Aoedev :=
  { d with targets := d.targets.modify i g }

def Aoetgt.ifAt (t : Aoetgt) (i : Nat) : Aoeif := t.ifs.getD i default

/-- `t->ifp->nd` -/
def Aoetgt.nd (t : Aoetgt) : Option NetDev := (t.ifAt t.ifp).nd

def Aoedev.rqAt (d : Aoedev) (r : Nat) : Request := (d.rqs.find? (·.id = r)).getD default

def Aoedev.bufAt (d : Aoedev) (b : Nat) : Buf := (d.bufs.find? (·.id = b)).getD default

def Aoedev.modBuf (d : Aoedev) (b : Nat) (g : Buf → Buf) : Aoedev :=
  { d with bufs := d.bufs.map fun x => if x.id = b then g x else x }

def Aoedev.modRq (d : Aoedev) (r : Nat) (g : Request → Request) : Aoedev :=
  { d with rqs := d.rqs.map fun x => if x.id = r then g x else x }

/-- The bio a buf was made for. -/
def Aoedev.bioAt (d : Aoedev) (r i : Nat) : Bio := (d.rqAt r).bios.getD i default

/-- Records a decrement of a counter that is 0. -/
def Aoedev.notePred (d : Aoedev) (c : Counter) (n : Nat) : Aoedev :=
  if n = 0 then { d with hist.underflow := d.hist.underflow ++ [c] } else d

/-- The outcome of the next allocation and what is left of the list. -/
def nextOutcome : List Bool → Bool × List Bool
  | [] => (true, [])
  | b :: bs => (b, bs)

def doGettimeofday (c : Clock) : Timeval := ⟨c.wall / USEC_PER_SEC, c.wall % USEC_PER_SEC⟩

def tsinceHr (c : Clock) (f : Frame) : Int :=
  let now := doGettimeofday c
  let n := toInt (now.usec - f.sent.usec)
  let n := toInt (n + (now.sec - f.sent.sec) * USEC_PER_SEC)
  let n := if n < 0 then toInt (-n) else n
  if n > USEC_PER_SEC / 4 then
    let n := toInt ((c.jiffies % 2^32 : Nat) - (f.sentJiffs : Int))
    toInt (n * (USEC_PER_SEC / c.hz : Nat))
  else n

def tsince (c : Clock) (tag : Nat) : Int :=
  let n : Int := (c.jiffies &&& 0xffff : Nat) - (tag &&& 0xffff : Nat)
  let n := if n < 0 then n + 2^16 else n
  (n + 1) * (USEC_PER_SEC / c.hz : Nat)

def rto (d : Aoedev) : Int :=
  let t := (2 * d.rttavg % 2^32) >>> RTTSCALE
  let t := t + (8 * d.rttdev % 2^32) >>> RTTDSCALE
  if t = 0 then 1 else t

def newtag (d : Aoedev) : Aoedev × Nat :=
  let lasttag := (d.lasttag + 1) % 2^16
  let n := d.clock.jiffies &&& 0xffff
  ({ d with lasttag, hist.ntags := d.hist.ntags + 1 }, n ||| (lasttag &&& 0x7fff) <<< 16)

/-- Logs the attempt to send the command of `f` under the tag just made. -/
def Aoedev.noteXmit (d : Aoedev) (f : Frame) : Aoedev :=
  { d with hist.xmits := d.hist.xmits ++ [⟨f.cmd, f.tag, d.hist.ntags⟩] }

/-- A target without its stock of frames. -/
def Aoetgt.bare (t : Aoetgt) : Aoetgt := { t with ffree := [], falloc := 0 }

/-- Logs the packet of `f`, about to be cloned and sent. -/
def Aoedev.noteSend (d : Aoedev) (f : Frame) (first : Bool) : Aoedev :=
  { d with hist.sends := d.hist.sends ++ [⟨f, (d.tgtAt f.t).bare, first, (nextOutcome d.env.clone).1⟩] }

/-- Following `t->ifp->nd`, the address of the interface; a NULL there is noted. -/
def Aoedev.noteNd (d : Aoedev) (nd : Option NetDev) : Aoedev :=
  { d with hist.nullNd := d.hist.nullNd || nd.isNone }

def aoehdrAtainit (d : Aoedev) (t : Nat) : Aoedev × AoeHdr :=
  let (d, hostTag) := newtag d
  let tgt := d.tgtAt t
  let nd := tgt.nd
  (d.noteNd nd,
    { dst := tgt.addr, src := (nd.getD default).devAddr, type := ETH_P_AOE, verfl := AOE_HVER, err := 0
      major := d.aoemajor % 2^16, minor := d.aoeminor % 2^8, cmd := AOECMD_ATA, tag := hostTag })

def putLba (ah : AtaHdr) (lba : Nat) : AtaHdr :=
  { ah with
    lba0 := .ofNat 8 lba, lba1 := .ofNat 8 (lba >>> 8), lba2 := .ofNat 8 (lba >>> 16)
    lba3 := .ofNat 8 (lba >>> 24), lba4 := .ofNat 8 (lba >>> 32), lba5 := .ofNat 8 (lba >>> 40) }

/-- The ATA header of `ata_rw_frameinit`. -/
def ataRwHdr (ext write : Bool) (iter : BvecIter) : AtaHdr :=
  let writebit : Byte := if write then 0x10 else 0
  let extbit : Byte := if ext then 0x04 else 0
  let ah : AtaHdr := { aflags := 0, errfeat := 0, scnt := .ofNat 8 (iter.size >>> 9), cmdstat := 0
                       lba0 := 0, lba1 := 0, lba2 := 0, lba3 := 0, lba4 := 0, lba5 := 0 }
  let ah := putLba ah iter.sector
  let ah := if ext then { ah with aflags := ah.aflags ||| AOEAFL_EXT }
    else { ah with lba3 := (ah.lba3 &&& 0x0f) ||| 0xe0 }
  let ah := if write then { ah with aflags := ah.aflags ||| AOEAFL_WRITE } else ah
  { ah with cmdstat := ATA_CMD_PIO_READ ||| writebit ||| extbit }

/-- The Boolean is false where the source returns NULL. -/
def ifrotate (t : Aoetgt) : Aoetgt × Bool :=
  let ifp := t.ifp + 1
  let ifp := if NAOEIFS ≤ ifp || (t.ifAt ifp).nd.isNone then 0 else ifp
  if (t.ifAt ifp).nd.isNone then (t, false) else ({ t with ifp }, true)

def getif (t : Aoetgt) (nd : Option NetDev) : Option Nat :=
  (List.range NAOEIFS).find? fun i => (t.ifAt i).nd = nd

def ejectif (t : Aoetgt) (i : Nat) : Aoetgt :=
  let last := { t.ifAt (NAOEIFS - 1) with nd := none }
  { t with ifs := t.ifs.eraseIdx i ++ [last] }

def newSkb (d : Aoedev) : Aoedev × Option Skb :=
  let (ok, rest) := nextOutcome d.env.skb
  let d := { d with env.skb := rest }
  if ok then
    ({ d with skbIds := d.skbIds + 1 }, some { (default : Skb) with id := d.skbIds, dataref := 1 })
  else (d, none)

/-- `skbpool` lists the packets that `skbpool_hd`, the `next` pointers and `skbpool_tl` in `skbLinks` link. -/
def skbPoolPut (d : Aoedev) (skb : Skb) : Aoedev :=
  { d with skbpool := d.skbpool ++ [skb], skbLinks := d.skbLinks.put skb.id }

def skbPoolGrow (d : Aoedev) : Aoedev × Option Skb :=
  if d.nskbpool < NSKBPOOLMAX then
    match newSkb d with
    | (d, some skb) => ({ d with nskbpool := d.nskbpool + 1 }, some skb)
    | (d, none) => (d, none)
  else (d, none)

def skbPoolGet (d : Aoedev) : Aoedev × Option Skb :=
  match d.skbpool with
  | [] => skbPoolGrow d
  | skb :: rest =>
    if skb.dataref = 1 then ({ d with skbpool := rest, skbLinks := d.skbLinks.get }, some skb) else skbPoolGrow d

/-- The frame as `aoe_freetframe` leaves it. -/
def Frame.blank (f : Frame) : Frame :=
  { f with buf := none, iter := default, rSkb := none, probe := false }

def aoeFreetframe (d : Aoedev) (f : Frame) : Aoedev :=
  d.modTgt f.t fun t => { t with ffree := f.blank :: t.ffree }

/-- `skb_trim(skb, 0)` with the fragments dropped. -/
def Skb.trim (skb : Skb) : Skb := { skb with frags := [], dataLen := 0, len := 0 }

/-- The packet of a frame, or a new one. -/
def frameSkb (d : Aoedev) (f : Frame) : Aoedev × Option Skb :=
  match f.skb with
  | some skb => (d, some skb)
  | none => newSkb d

/-- The second half of `newtframe`: a packet for the frame that nobody else refers to. -/
def newtframeSkb (d : Aoedev) (f : Frame) : Aoedev × Option Frame :=
  match frameSkb d f with
  | (d, none) => (aoeFreetframe d f, none)
  | (d, some skb) =>
    let f := { f with skb := some skb }
    if skb.dataref = 1 then (d, some { f with skb := some skb.trim })
    else
      match skbPoolGet d with
      | (d, none) => (aoeFreetframe d f, none)
      | (d, some new) => (skbPoolPut d skb, some { f with skb := some new.trim })

def newtframe (d : Aoedev) (t : Nat) : Aoedev × Option Frame :=
  match (d.tgtAt t).ffree with
  | [] =>
    if NSKBPOOLMAX * 2 ≤ (d.tgtAt t).falloc then (d, none)
    else
      let (ok, rest) := nextOutcome d.env.kcalloc
      let d := { d with env.kcalloc := rest }
      if ok then
        newtframeSkb
          ({ d with frameIds := d.frameIds + 1 }.modTgt t fun x => { x with falloc := x.falloc + 1 })
          { (default : Frame) with id := d.frameIds, t := t }
      else (d, none)
  | f :: rest => newtframeSkb (d.modTgt t fun x => { x with ffree := rest }) f

/-- The slot after `tt`, or slot 0 behind the last target. -/
def Aoedev.nextSlot (d : Aoedev) (tt : Nat) : Nat := if tt + 1 < d.targets.length then tt + 1 else 0

/-- A frame of target `tt`, if its window is open and it may be used. -/
def newframeTry (d : Aoedev) (tt : Nat) (useTainted : Bool) : Aoedev × Option Frame :=
  let t := d.tgtAt tt
  if t.nout < t.maxout && (useTainted || t.taint == 0) && t.nd.isSome then newtframe d tt else (d, none)

/-- The loop of `newframe`, at most `fuel` more targets. -/
def newframeLoop : Nat → Aoedev → Nat → Bool → Bool → Nat → Aoedev × Option Frame
  | 0, d, _, _, _, _ => (d, none)
  | fuel + 1, d, tt, useTainted, hasUntainted, totout =>
    let tt := d.nextSlot tt
    let t := d.tgtAt tt
    let hasUntainted := hasUntainted || t.taint == 0
    let totout := if t.taint = 0 then totout + t.nout else totout
    match newframeTry d tt useTainted with
    | (d, some f) => ({ d.modTgt tt fun t => (ifrotate t).1 with tgt := tt }, some f)
    | (d, none) =>
      if tt = d.tgt then
        if !useTainted && !hasUntainted then newframeLoop fuel d tt true hasUntainted totout
        else if totout = 0 then ({ d with kicked := d.kicked + 1, flags.kickme := true }, none)
        else (d, none)
      else newframeLoop fuel d tt useTainted hasUntainted totout

def newframe (d : Aoedev) : Aoedev × Option Frame :=
  if d.targets = [] then (d, none)
  else newframeLoop (2 * d.targets.length) d d.tgt false false 0

/-- Bucket of a tag. -/
def bucket (tag : Nat) : Fin NFACTIVE := ⟨tag % NFACTIVE, Nat.mod_lt _ (by decide)⟩

def fhash (d : Aoedev) (f : Frame) : Aoedev :=
  let n := bucket f.tag
  { d with factive := Function.update d.factive n (d.factive n ++ [f]) }

/-- `skb_clone` and, where it succeeds, the time stamps of the frame. -/
def sendClone (d : Aoedev) (f : Frame) : Aoedev × Frame :=
  let (ok, rest) := nextOutcome d.env.clone
  let d := { d with env.clone := rest }
  if ok then (d, { f with sent := doGettimeofday d.clock, sentJiffs := d.clock.jiffies % 2^32 }) else (d, f)

/-- A command of its own for the frame. -/
def newCommand (d : Aoedev) (f : Frame) : Aoedev × Frame :=
  ({ d with hist.ncmds := d.hist.ncmds + 1 }, { f with cmd := d.hist.ncmds, born := d.clock.wall })

/-- `ata_rw_frameinit` up to `fhash`, which is done where the last field of the frame is written; `data` is the
direction and the fragments of a write. -/
def ataRwFrameinit (d : Aoedev) (f : Frame) (data : Option (List BioVec)) : Aoedev × Frame :=
  let (d, f) := newCommand d f
  let (d, h) := aoehdrAtainit d f.t
  let write := data.isSome
  let d := d.modTgt f.t fun t =>
    { t with nout := incUshort t.nout, wpkts := if write then t.wpkts + 1 else t.wpkts
             rpkts := if write then t.rpkts else t.rpkts + 1 }
  let f := { f with tag := h.tag, nout := (d.tgtAt f.t).nout, waited := 0, waitedTotal := 0 }
  let d := d.noteXmit f
  let skb := f.skb.getD default
  let skb := { skb with
    hdr := h, ata := ataRwHdr d.flags.ext write f.iter, dev := (d.tgtAt f.t).nd
    len := 36 + if write then f.iter.size else 0, dataLen := if write then f.iter.size else 0
    frags := data.getD skb.frags }
  (d, { f with skb := some skb })

/-- The zero pages of a probe, one fragment for each page. -/
def probeFrags : Nat → Nat → List BioVec
  | 0, _ => []
  | fuel + 1, n => if n = 0 then [] else ⟨0, 0, min n PAGE_SIZE⟩ :: probeFrags fuel (n - min n PAGE_SIZE)

def probe (d : Aoedev) (t : Nat) : Aoedev :=
  match newtframe d t with
  | (d, none) => { d with hist.probeMissed := true }
  | (d, some f) =>
    let d := d.modTgt t fun x => (ifrotate x).1
    let size := if d.maxbcnt = 0 then DEFAULTBCNT else d.maxbcnt
    let (d, f) := ataRwFrameinit d { f with probe := true, iter := { f.iter with size } } none
    let skb := f.skb.getD default
    let f := { f with skb := some { skb with
      frags := probeFrags size size, len := skb.len + size, dataLen := size } }
    let (d, f) := sendClone (d.noteSend f true) f
    fhash d f

def countUntainted (d : Aoedev) : Nat := d.targets.countP fun t => t.taint = 0

end AoeDriver
