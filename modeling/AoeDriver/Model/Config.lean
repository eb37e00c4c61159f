import AoeDriver.Model.Command

/-!
# Discovery and installation

Config responses, the targets table and its interfaces, identify data, and the block device that
`aoecmd_sleepwork` installs.
-/

namespace AoeDriver

/-- Room for one more target; the Boolean is false where `grow_targets` finds no memory. -/
def growTargets (d : Aoedev) : Aoedev × Bool :=
  if d.targets.length < d.ntargets then (d, true)
  else
    let (ok, rest) := nextOutcome d.env.kcalloc
    let d := { d with env.kcalloc := rest }
    if ok then ({ d with ntargets := d.ntargets * 2 }, true) else (d, false)

def newTarget (addr : Mac) (nframes : Nat) : Aoetgt :=
  { aoecmdWreset
      { (default : Aoetgt) with addr := addr, nframes := nframes, ifs := List.replicate NAOEIFS default } with
    maxout := nframes / 2 }

/-- The index of the new target. -/
def addtgt (d : Aoedev) (addr : Mac) (nframes : Nat) : Aoedev × Option Nat :=
  match growTargets d with
  | (d, false) => (d, none)
  | (d, true) =>
    let (ok, rest) := nextOutcome d.env.kcalloc
    let d := { d with env.kcalloc := rest }
    if ok then ({ d with targets := d.targets ++ [newTarget addr nframes] }, some d.targets.length)
    else (d, none)

def setdbcntLoop : Nat → List Aoetgt → Nat
  | bcnt, [] => bcnt
  | bcnt, t :: rest => setdbcntLoop (if bcnt = 0 ∨ bcnt > t.minbcnt then t.minbcnt else bcnt) rest

def setdbcnt (d : Aoedev) : Aoedev := { d with maxbcnt := setdbcntLoop 0 d.targets }

/-- The slots with the new `bcnt`, the interface if it still has to be added, the minimum and the slot reached. -/
def setifbcntLoop (bcnt : Nat) : Nat → Nat → List Aoeif → Option NetDev → Nat → List Aoeif × Option NetDev × Nat × Nat
  | 0, p, ifs, nd, minbcnt => (ifs, nd, minbcnt, p)
  | n + 1, p, ifs, nd, minbcnt =>
    let x := ifs.getD p default
    if x.nd = none then (ifs, nd, minbcnt, p)
    else if x.nd = nd then
      setifbcntLoop bcnt n (p + 1) (ifs.modify p fun x => { x with bcnt := bcnt }) none minbcnt
    else setifbcntLoop bcnt n (p + 1) ifs nd (if minbcnt > x.bcnt then x.bcnt else minbcnt)

/-- `none` when all slots are taken by other interfaces. -/
def setifbcntTgt (t : Aoetgt) (nd : NetDev) (bcnt : Nat) : Option Aoetgt :=
  match setifbcntLoop bcnt NAOEIFS 0 t.ifs (some nd) bcnt with
  | (ifs, none, minbcnt, _) => some { t with ifs := ifs, minbcnt := minbcnt }
  | (ifs, some nd, minbcnt, p) =>
    if p = NAOEIFS then none
    else some { t with ifs := ifs.modify p fun x => { x with nd := some nd, bcnt := bcnt }, minbcnt := minbcnt }

/-- Logs the call of `dev_hold`, if `setifbcnt` has found no slot with the interface. -/
def Aoedev.noteHold (d : Aoedev) (t : Nat) (nd : NetDev) (bcnt : Nat) : Aoedev :=
  match (setifbcntLoop bcnt NAOEIFS 0 (d.tgtAt t).ifs (some nd) bcnt).2.1 with
  | none => d
  | some nd => { d with hist.holds := d.hist.holds ++ [(t, nd)] }

def setifbcnt (d : Aoedev) (t : Nat) (nd : NetDev) (bcnt : Nat) : Aoedev :=
  match setifbcntTgt (d.tgtAt t) nd bcnt with
  | none => d
  | some t' => setdbcnt ((d.noteHold t nd bcnt).modTgt t fun _ => t')

/-- Payload bytes for an interface, from its MTU and the sector count of the target, in `u16` arithmetic. -/
def cfgBcnt (mtu scnt : Nat) : Nat :=
  let n := (mtu % 2^16 + (2^16 - 36)) % 2^16
  let n := n / 512
  let n := if n > scnt then scnt else n
  if n ≠ 0 then n * 512 % 2^16 else DEFAULTBCNT

/-- The target a config response comes from, found or added. -/
def cfgTgt (d : Aoedev) (c : CfgRsp) : Aoedev × Option Nat :=
  let n := (if c.bufcnt > d.aoeMaxout then d.aoeMaxout else c.bufcnt) % 2^16
  match gettgt d c.src with
  | some t =>
    (d.modTgt t fun x =>
      let x := { x with nframes := n }
      if n < x.maxout then aoecmdWreset x else x, some t)
  | none => addtgt d c.src n

/-- `aoecmd_cfg_rsp` under the lock. -/
def aoecmdCfgRsp (d : Aoedev) (c : CfgRsp) : Aoedev :=
  match cfgTgt d c with
  | (d, none) => d
  | (d, some t) =>
    let d := setifbcnt d t c.dev (cfgBcnt c.mtu c.scnt)
    if d.nopen = 0 then (aoecmdAtaId { d with fwVer := c.fwver }).1 else d

def aoecmdCleanslate (d : Aoedev) : Aoedev :=
  { d with
    rttavg := RTTAVG_INIT, rttdev := RTTDEV_INIT, maxbcnt := 0, targets := d.targets.map aoecmdWreset }

def idWord (id : List Byte) (w : Nat) : Nat := (id.getD (2 * w) 0).toNat + 2^8 * (id.getD (2 * w + 1) 0).toNat

/-- Number of sectors in an identify response, and whether it asks for LBA48. -/
def idSize (id : List Byte) : Nat × Bool :=
  if (idWord id 83 ||| idWord id 86).testBit 10 then
    (idWord id 100 + 2^16 * idWord id 101 + 2^32 * idWord id 102 + 2^48 * idWord id 103, true)
  else (idWord id 60 + 2^16 * idWord id 61, false)

def ataidComplete (d : Aoedev) (id : List Byte) : Aoedev :=
  let (ssize, ext) := idSize id
  let d := { d with flags.ext := ext, ssize := ssize }
  if d.flags.gdalloc || d.flags.newsize then d
  else
    match d.gd with
    | some gd =>
      { d with gd := some { gd with capacity := ssize }, flags.newsize := true, workPending := true }
    | none => { d with flags.gdalloc := true, workPending := true }

/-- One step of `aoecmd_sleepwork`, with the program point it goes on from. -/
def sleepStep (d : Aoedev) : SleepPc → Aoedev × Option SleepPc
  | .start => (d, some (if d.flags.gdalloc then .gdalloc else .resize))
  | .gdalloc =>
    if d.flags.gdalloc && !d.flags.tkill && !d.flags.gdNow then
      ({ d with flags.gdNow := true }, some .gdNow)
    else (d, some .resize)
  | .gdNow =>
    -- one outcome stands for `alloc_disk`, `mempool_create` and `blk_init_queue`
    let (ok, rest) := nextOutcome d.env.kcalloc
    let d := { d with env.kcalloc := rest }
    if ok then
      let warn := !d.flags.gdNow || !d.flags.gdalloc || d.flags.tkill || d.gd.isSome || d.flags.up
      ({ d with
          blkq := true, gd := some { capacity := d.ssize, bdSize := 0 }
          flags.gdalloc := false, flags.up := true, hist.warned := d.hist.warned || warn },
        some .installed)
    else ({ d with flags.gdNow := false, workPending := true }, some .resize)
  | .installed =>
    ({ d with hist.warned := d.hist.warned || !d.flags.gdNow, flags.gdNow := false }, some .resize)
  | .resize =>
    if d.flags.newsize then (d, some (.resizing (d.gd.getD default).capacity)) else (d, none)
  | .resizing ssize =>
    ({ d with
        gd := d.gd.map fun gd => { gd with bdSize := ssize * 512 }, flags.up := true, flags.newsize := false },
      none)

/-- What the writer of the flush device asks for, as seen by one device. -/
inductive FlushMode where
  | default
  | all
  | named
  | exiting
deriving DecidableEq

/-- Whether pass one of `flush` takes the device down. -/
def flushTakes (d : Aoedev) : FlushMode → Bool
  | .exiting => true
  | .named => d.gd.isSome
  | .all => !(d.flags.gdalloc || d.flags.newsize || d.flags.tkill || d.nopen != 0 || d.ref != 0)
  | .default =>
    !(d.flags.up || d.flags.gdalloc || d.flags.newsize || d.flags.tkill || d.nopen != 0 || d.ref != 0)

def flushPassOne (d : Aoedev) (mode : FlushMode) : Aoedev :=
  if flushTakes d mode then { aoedevDowndev d with flags.tkill := true } else d

end AoeDriver
