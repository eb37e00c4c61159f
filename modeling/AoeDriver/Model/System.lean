import AoeDriver.Model.Config

/-!
# The device as a state machine

An event is one critical section of the driver, or one action of its surroundings (the block layer, the
network, the clock, the administrator). Code that gives up `d->lock` on its way is a thread, and every
section it runs is an event of its own, so the events of different threads interleave freely.
-/

namespace AoeDriver

inductive Event where
  /-- Time passes. -/
  | clock (usecs jiffs : Nat)
  /-- The network layer takes or drops references to packet data. The driver looks at them only where a packet lies in the
  pool or with a free frame, and the event changes those alone: a packet that comes there and is looked at in one section
  counts as unshared. -/
  | dataref (g : Nat → Nat)
  /-- The administrator writes the module parameters. -/
  | params (deadsecs maxout : Nat)
  | blkQueue (rq : Request)
  /-- The block layer calls the request function. -/
  | blkRun (env : Env)
  /-- `aoecmd_ata_rsp` finds the device. -/
  | ataRsp (r : Rsp)
  | cfgRsp (c : CfgRsp)
  | revalidate
  | sleepwork
  | ktioTake (id : Nat)
  | flushIocq (id : Nat)
  | rexmitTimer (env : Env)
  | flushDev (mode : FlushMode) (env : Env)
  | blkOpen
  | blkRelease
  /-- A signal ends the sleep of `revalidate`. -/
  | signal (i : Nat)
  /-- Thread number `i` runs its next section. -/
  | run (i : Nat) (env : Env)

/-- The completion queue whose thread is busy here. -/
def Thread.ktioId : Thread → Option Nat
  | .ktio id _ | .ktioMid id _ _ | .ktioOut id _ | .ktioPut id | .ktioSpawn id => some id
  | _ => none

/-- Replaces thread `i`, or lets it end. -/
def Aoedev.setThread (d : Aoedev) (i : Nat) (th : Option Thread) : Aoedev :=
  { d with threads := match th with
      | some th => d.threads.set i th
      | none => d.threads.eraseIdx i }

def Aoedev.spawn (d : Aoedev) (th : Thread) : Aoedev := { d with threads := d.threads ++ [th] }

/-- `aoedev_put` -/
def aoedevPut (d : Aoedev) : Aoedev := { d.notePred .ref d.ref with ref := predUlong d.ref }

/-- One section of thread `i`. -/
def runThread (d : Aoedev) (i : Nat) : Thread → Aoedev
  | .rsp r =>
    match rspMatch d r with
    | (d, some f) => aoecmdWork (d.setThread i (some (.matched f r)))
    | (d, none) => d.setThread i (some .unexpected)
  | .matched f r => ktcomplete (d.setThread i none) f (some r)
  | .unexpected => aoedevPut (d.setThread i none)
  | .ktio id f =>
    match ktioData (noteProcessed d f) f with
    | (d, some m) => d.setThread i (some (.ktioMid id f m))
    | (d, none) => d.setThread i (some (.ktioOut id f))
  | .ktioMid id f m =>
    let d := match m with
      | .lost nd => d.modTgt f.t fun t =>
          match getif t (some nd) with
          | some j => { t with ifs := t.ifs.modify j fun x => { x with lost := 0 } }
          | none => t
      | .ident data => ataidComplete d data
    d.setThread i (some (.ktioOut id f))
  | .ktioOut id f => ktioFinish ((redeem d f.t).setThread i (some (.ktioPut id))) f
  | .ktioPut id => aoedevPut (d.setThread i (some (.ktioSpawn id)))
  | .ktioSpawn _ =>
    -- a start of the thread that serves this device, which may fail
    let (ok, rest) := nextOutcome d.env.kcalloc
    let id := d.aoeminor % d.ncpus
    { d.setThread i none with
      env.kcalloc := rest, kts := if id ∉ d.kts ∧ ok then id :: d.kts else d.kts }
  | .flush f => downdevFrame (d.setThread i (some .flushPut)) f
  | .flushPut => aoedevPut (d.setThread i none)
  | .cfg c => aoecmdCfgRsp (d.setThread i (some .cfgPut)) c
  | .cfgPut => aoedevPut (d.setThread i none)
  | .reval first =>
    let d := if first then aoecmdCleanslate d else d
    let (d, sent) := aoecmdAtaId d
    d.setThread i (some (if sent then .revalPut else .reval false))
  | .revalPut => aoedevPut (d.setThread i none)
  | .sleep pc =>
    let (d, pc) := sleepStep d pc
    d.setThread i (pc.map .sleep)

/-- A request as the block layer hands it over: a chain of bios, none of them empty or failed already. -/
def Request.fresh (rq : Request) : Bool :=
  rq.bios ≠ [] && rq.bios.all fun bio => bio.iter.size ≠ 0 && !bio.error

/-- `aoedev_by_aoeaddr` for a device that exists: a reference, unless it is marked for removal. -/
def Aoedev.hold (d : Aoedev) (th : Thread) : Option Aoedev :=
  if d.flags.tkill then none else some ({ d with ref := d.ref + 1 }.spawn th)

/-- `none` where the event cannot happen. -/
def exec (d : Aoedev) : Event → Option Aoedev
  | .clock usecs jiffs => some { d with clock.wall := d.clock.wall + usecs, clock.jiffies := d.clock.jiffies + jiffs }
  | .dataref g =>
    let set := fun (skb : Skb) => { skb with dataref := g skb.id }
    let frame := fun (f : Frame) => { f with skb := f.skb.map set }
    some { d with
      skbpool := d.skbpool.map set
      targets := d.targets.map fun t => { t with ffree := t.ffree.map frame } }
  | .params deadsecs maxout => some { d with aoeDeadsecs := deadsecs, aoeMaxout := maxout }
  | .blkQueue rq =>
    if d.blkq && rq.fresh && !(d.queue.any (·.id = rq.id)) && !(d.rqs.any (·.id = rq.id))
        && !(d.hist.ended.any (·.rq.id = rq.id)) then
      some { d with queue := d.queue ++ [rq] }
    else none
  | .blkRun env => if d.blkq then some (aoeblkRequest { d with env := env }) else none
  | .ataRsp r => d.hold (.rsp r)
  | .cfgRsp c => d.hold (.cfg c)
  | .revalidate => d.hold (.reval true)
  | .sleepwork => if d.workPending then some ({ d with workPending := false }.spawn (.sleep .start)) else none
  | .ktioTake id =>
    if id ∈ d.kts && !(d.threads.any (·.ktioId = some id)) then
      match d.iocq.find? (·.1 = id) with
      | some (_, f) => some ({ d with iocq := d.iocq.eraseP (·.1 = id) }.spawn (.ktio id f))
      | none => none
    else none
  | .flushIocq id =>
    some { d with
      iocq := d.iocq.filter (·.1 ≠ id)
      threads := d.threads ++ (d.iocq.filter (·.1 = id)).map fun p => .flush p.2 }
  | .rexmitTimer env => if d.rexmitArmed then some (rexmitTimer { d with env := env }) else none
  | .flushDev mode env => some (flushPassOne { d with env := env } mode)
  | .blkOpen => if d.flags.up && !d.flags.tkill then some { d with nopen := d.nopen + 1 } else none
  | .blkRelease => if d.nopen ≠ 0 then some { d with nopen := d.nopen - 1 } else none
  | .signal i => if d.threads[i]? = some (.reval false) then some (d.setThread i (some .revalPut)) else none
  | .run i env =>
    match d.threads[i]? with
    | some th => some (runThread { d with env := env } i th)
    | none => none

/-- A NULL pointer was followed: the machine stops inside the section. -/
def Aoedev.crashed (d : Aoedev) : Bool := d.hist.nullBio || d.hist.nullNd

/-- Events after which `d->lock` is free again. -/
def Step (d : Aoedev) (e : Event) (d' : Aoedev) : Prop := exec d e = some d' ∧ d'.crashed = false

/-- The device as `aoedev_by_aoeaddr` makes it for the config response `c`, which holds the first reference. -/
def initial (aoemajor aoeminor ncpus deadsecs maxout : Nat) (clock : Clock) (c : CfgRsp) : Aoedev :=
  { aoemajor, aoeminor, ncpus, aoeDeadsecs := deadsecs, aoeMaxout := maxout, clock
    env := default, flags := default, nopen := 0, fwVer := 0, lasttag := 0
    rttavg := RTTAVG_INIT, rttdev := RTTDEV_INIT, ref := 1, workPending := false, gd := none, blkq := false
    ssize := 0, rexmitArmed := false, skbpool := [], skbLinks := default, nskbpool := 0, skbIds := 0, ip := default
    maxbcnt := 0
    factive := fun _ => [], rexmitq := [], targets := [], ntargets := NTARGETS, tgt := 0, kicked := 0
    frameIds := 0, queue := [], rqs := [], bufs := [], bufIds := 0, kts := [0], iocq := []
    threads := [.cfg c], mem := [], hist := default }

end AoeDriver
