import AoeDriver.Model.System

/-!
# The device list

`aoedev.c` above the single device: the list of devices, their minor numbers, lookup and creation, and the three
passes of `flush`. A device is known by its address, which is never used twice here. Each device keeps its own
view of the clock and of the module parameters.
-/

namespace AoeDriver

def MINORBITS : Nat := 20
def NPERSHELF : Nat := 16
def DISK_NAME_LEN : Nat := 32

/-- A device on the list. The flags are `DEVFL_FREEING`, that its targets are gone, that it has passed
`minor_free`, and `DEVFL_FREED`. -/
structure Node where
  id : Nat
  sysminor : Nat
  dev : Aoedev
  freeing : Bool
  torn : Bool
  unnumbered : Bool
  freed : Bool

/-- Program points of `flush` behind pass one, with the device that `freedev` works on. -/
inductive FlushPc where
  | passTwo
  | freedev (id : Nat)
  | teardown (id : Nat)
  | minorFree (id : Nat)
  | finish (id : Nat)
deriving DecidableEq

/-- `partitions` is `AOE_PARTITIONS`, `gone` are the devices taken off the list, and `flushes` the calls of
`flush` in progress. -/
structure World where
  partitions : Nat
  dyndevs : Bool
  usedMinors : Nat → Bool
  devlist : List Node
  gone : List Node
  ids : Nat
  flushes : List FlushPc

/-- `N_DEVS` -/
def World.nDevs (w : World) : Nat := 2^MINORBITS / w.partitions

def World.modNode (w : World) (id : Nat) (g : Node → Node) : World :=
  { w with devlist := w.devlist.map fun n => if n.id = id then g n else n }

/-- The first clear bit from `n` on, looking at `fuel` bits at most. -/
def findFirstZeroBit (used : Nat → Bool) : Nat → Nat → Nat
  | 0, n => n
  | fuel + 1, n => if used n then findFirstZeroBit used fuel (n + 1) else n

def World.setBit (w : World) (n : Nat) (b : Bool) : World := { w with usedMinors := Function.update w.usedMinors n b }

def minorGetDyn (w : World) : World × Option Nat :=
  let n := findFirstZeroBit w.usedMinors w.nDevs 0
  if n < w.nDevs then (w.setBit n true, some (n * w.partitions)) else (w, none)

def minorGetStatic (w : World) (aoemaj aoemin : Nat) : World × Option Nat :=
  if NPERSHELF ≤ aoemin then (w, none)
  else
    let n := aoemaj * NPERSHELF + aoemin
    if w.nDevs ≤ n then (w, none)
    else if w.usedMinors n then (w, none)
    else (w.setBit n true, some (n * w.partitions))

def minorGet (w : World) (aoemaj aoemin : Nat) : World × Option Nat :=
  if w.dyndevs then minorGetDyn w else minorGetStatic w aoemaj aoemin

def minorFree (w : World) (minor : Nat) : World := w.setBit (minor / w.partitions) false

def Node.at (maj min : Nat) (n : Node) : Bool := n.dev.aoemajor = maj ∧ n.dev.aoeminor = min

/-- A new device at the head of the list. -/
def World.add (w : World) (sysminor : Nat) (d : Aoedev) : World :=
  { w with
    devlist := { id := w.ids, sysminor, dev := d, freeing := false, torn := false, unnumbered := false, freed := false }
      :: w.devlist
    ids := w.ids + 1 }

/-- The address of the device, whose reference thread `th` gets. `doAlloc` is the device to be made where none is
found, and `kcalloc` lists the outcomes of its two allocations. -/
def aoedevByAoeaddr (w : World) (maj min : Nat) (doAlloc : Option Aoedev) (kcalloc : List Bool) (th : Thread) :
    World × Option Nat :=
  match w.devlist.find? (Node.at maj min) with
  | some n =>
    match n.dev.hold th with
    | none => (w, none)
    | some d => (w.modNode n.id fun n => { n with dev := d }, some n.id)
  | none =>
    match doAlloc with
    | none => (w, none)
    | some d =>
      match minorGet w maj min with
      | (w, none) => (w, none)
      | (w, some sysminor) =>
        let (ok, rest) := nextOutcome kcalloc
        if !ok then (w, none)
        else if !(nextOutcome rest).1 then (w, none)
        else (w.add sysminor d, some w.ids)

def NUL : Char := '\x00'

/-- `!strncmp(s, p, n)`; behind the end of a list stands a NUL. -/
def strncmpEq : Nat → List Char → List Char → Bool
  | 0, _, _ => true
  | n + 1, s, p =>
    if s.headD NUL ≠ p.headD NUL then false
    else s.headD NUL = NUL || strncmpEq n s.tail p.tail

/-- `d->gd->disk_name` as `aoeblk_gdalloc` prints it. -/
def Aoedev.diskName (d : Aoedev) : List Char :=
  ("etherd/e".toList ++ Nat.toDigits 10 d.aoemajor ++ '.' :: Nat.toDigits 10 d.aoeminor).take (DISK_NAME_LEN - 1)

/-- What follows the last `/`, or everything. -/
def baseName (name : List Char) : List Char := (name.reverse.takeWhile (· ≠ '/')).reverse

def userReq (s : List Char) (slen : Nat) (d : Aoedev) : Bool :=
  if d.gd.isNone then false
  else
    let p := baseName d.diskName
    let lim := DISK_NAME_LEN - (d.diskName.length - p.length)
    strncmpEq (if slen < lim then slen else lim) s p

/-- The user's string as `flush` keeps it in `buf[16]`. -/
def flushBuf (str : List Char) : List Char := str.take 16

/-- What a write of `str` asks for. -/
def flushMode (exiting : Bool) (str : List Char) : FlushMode :=
  if exiting then .exiting
  else if 3 ≤ str.length then if strncmpEq 3 (flushBuf str) "all".toList then .all else .named
  else .default

/-- Whether pass one takes the device down. -/
def flushSelects (exiting : Bool) (str : List Char) (d : Aoedev) : Bool :=
  match flushMode exiting str with
  | .named => userReq (flushBuf str) (flushBuf str).length d
  | mode => flushTakes d mode

def Node.kill (n : Node) : Node := { n with dev := { aoedevDowndev n.dev with flags.tkill := true } }

def passOne (w : World) (exiting : Bool) (str : List Char) : World :=
  { w with
    devlist := w.devlist.map fun n => if flushSelects exiting str n.dev then n.kill else n
    flushes := w.flushes ++ [.passTwo] }

def World.setFlush (w : World) (i : Nat) (pc : FlushPc) : World := { w with flushes := w.flushes.set i pc }

/-- Marked with `DEVFL_TKILL` and not with `DEVFL_FREEING`. -/
def Node.doomed (n : Node) : Bool := n.dev.flags.tkill && !n.freeing

/-- Pass three, which ends call `i` of `flush`. -/
def passThree (w : World) (i : Nat) : World :=
  { w with
    devlist := w.devlist.filter (!·.freed)
    gone := w.gone ++ w.devlist.filter (·.freed)
    flushes := w.flushes.eraseIdx i }

/-- The next section of call `i` of `flush`. -/
def flushStep (w : World) (i : Nat) : FlushPc → World
  | .passTwo =>
    match w.devlist.find? Node.doomed with
    | some n => w.setFlush i (.freedev n.id)
    | none => passThree w i
  | .freedev id =>
    match w.devlist.find? (·.id = id) with
    | some n =>
      if n.doomed then (w.modNode id fun n => { n with freeing := true }).setFlush i (.teardown id)
      else w.setFlush i .passTwo
    | none => w.setFlush i .passTwo
  | .teardown id => (w.modNode id fun n => { n with torn := true }).setFlush i (.minorFree id)
  | .minorFree id =>
    match w.devlist.find? (·.id = id) with
    | some n => (minorFree (w.modNode id fun n => { n with unnumbered := true }) n.sysminor).setFlush i (.finish id)
    | none => w.setFlush i (.finish id)
  | .finish id => (w.modNode id fun n => { n with freed := true }).setFlush i .passTwo

inductive WorldEvent where
  /-- The administrator switches between static and dynamic numbering. -/
  | dyndevs (b : Bool)
  | ataRsp (maj min : Nat) (r : Rsp)
  | cfgRsp (maj min : Nat) (c : CfgRsp) (ncpus deadsecs maxout : Nat) (clock : Clock) (kcalloc : List Bool)
  | revalidate (maj min : Nat)
  /-- Device `id` runs a section of its own. -/
  | dev (id : Nat) (e : Event)
  | flush (exiting : Bool) (str : List Char)
  | flushStep (i : Nat)

/-- Events that do not go through the list. -/
def Event.own : Event → Bool
  | .ataRsp _ | .cfgRsp _ | .revalidate | .flushDev _ _ => false
  | _ => true

/-- `none` where the event cannot happen; a device whose targets are gone takes no more steps. -/
def World.exec (w : World) : WorldEvent → Option World
  | .dyndevs b => some { w with dyndevs := b }
  | .ataRsp maj min r => some (aoedevByAoeaddr w maj min none [] (.rsp r)).1
  | .cfgRsp maj min c ncpus deadsecs maxout clock kcalloc =>
    if maj < 0xffff && min < 0xff then
      some (aoedevByAoeaddr w maj min (some (initial maj min ncpus deadsecs maxout clock c)) kcalloc (.cfg c)).1
    else none
  | .revalidate maj min => some (aoedevByAoeaddr w maj min none [] (.reval true)).1
  | .dev id e =>
    match w.devlist.find? (·.id = id) with
    | some n =>
      if e.own && !n.torn then
        ((AoeDriver.exec n.dev e).filter (!·.crashed)).map fun d => w.modNode id fun n => { n with dev := d }
      else none
    | none => none
  | .flush exiting str => some (passOne w exiting str)
  | .flushStep i => w.flushes[i]?.map (flushStep w i)

def WorldStep (w : World) (e : WorldEvent) (w' : World) : Prop := w.exec e = some w'

/-- The module has just been loaded. -/
def worldInit (partitions : Nat) (dyndevs : Bool) : World :=
  { partitions, dyndevs, usedMinors := fun _ => false, devlist := [], gone := [], ids := 0, flushes := [] }

end AoeDriver
