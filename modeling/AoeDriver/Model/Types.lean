import AoeDriver.Library.Links

/-!
# Driver data

The structures of `aoe.h` as far as the command path uses them, for one `struct aoedev` and everything the
code reaches from it. A frame is a value that sits in exactly one list; its address is the field `id`.
Pointers to targets, requests, bufs and bios are indices or numbers. What the code does not store but
the properties speak about (attempts, cuts, ended requests) is kept in `Hist`, which no function reads.
-/

namespace AoeDriver

abbrev Byte := BitVec 8
abbrev Mac := BitVec 48

def DEFAULTBCNT : Nat := 2 * 512
def MIN_BUFS : Nat := 16
def NTARGETS : Nat := 4
def NAOEIFS : Nat := 8
def NSKBPOOLMAX : Nat := 256
def NFACTIVE : Nat := 61
def USEC_PER_SEC : Nat := 1000000
def RTTSCALE : Nat := 8
def RTTDSCALE : Nat := 3
def RTTAVG_INIT : Nat := (USEC_PER_SEC / 4) <<< RTTSCALE
def RTTDEV_INIT : Nat := RTTAVG_INIT / 4
def HARD_SCORN_SECS : Nat := 10
def MAX_TAINT : Nat := 1000
def PAGE_SIZE : Nat := 4096

def ETH_P_AOE : Nat := 0x88a2
def AOE_HVER : Nat := 0x10
def AOECMD_ATA : Nat := 0
def AOEAFL_EXT : Byte := 0x40
def AOEAFL_WRITE : Byte := 0x01
def ATA_CMD_PIO_READ : Byte := 0x20
def ATA_CMD_PIO_READ_EXT : Byte := 0x24
def ATA_CMD_PIO_WRITE : Byte := 0x30
def ATA_CMD_PIO_WRITE_EXT : Byte := 0x34
def ATA_CMD_ID_ATA : Byte := 0xec

structure Timeval where
  sec : Int
  usec : Int
deriving DecidableEq, Inhabited

structure NetDev where
  ifindex : Nat
  devAddr : Mac
deriving DecidableEq, Inhabited

structure BioVec where
  page : Nat
  offset : Nat
  len : Nat
deriving DecidableEq, Inhabited

structure BvecIter where
  sector : Nat
  size : Nat
  idx : Nat
  done : Nat
deriving DecidableEq, Inhabited

/-- `error` stands for `bi_error`: false is 0, true is `-EIO`. -/
structure Bio where
  vecs : List BioVec
  iter : BvecIter
  error : Bool
deriving DecidableEq, Inhabited

structure Request where
  id : Nat
  write : Bool
  bios : List Bio
  special : Nat
deriving DecidableEq, Inhabited

/-- `rq` and `bio` name the request and the position of the bio in its chain. -/
structure Buf where
  id : Nat
  nframesout : Nat
  rq : Nat
  bio : Nat
  iter : BvecIter
deriving DecidableEq, Inhabited

/-- `d->ip`; `nxbio` is the position of the next bio in the chain of `rq`. -/
structure InProcess where
  buf : Option Nat
  nxbio : Option Nat
  rq : Option Nat
deriving DecidableEq, Inhabited

structure AoeHdr where
  dst : Mac
  src : Mac
  type : Nat
  verfl : Nat
  err : Nat
  major : Nat
  minor : Nat
  cmd : Nat
  tag : Nat
deriving DecidableEq, Inhabited

structure AtaHdr where
  aflags : Byte
  errfeat : Byte
  scnt : Byte
  cmdstat : Byte
  lba0 : Byte
  lba1 : Byte
  lba2 : Byte
  lba3 : Byte
  lba4 : Byte
  lba5 : Byte
deriving DecidableEq, Inhabited

/-- A command packet: its headers, the page fragments behind them, and the reference count of its data. -/
structure Skb where
  id : Nat
  hdr : AoeHdr
  ata : AtaHdr
  dev : Option NetDev
  frags : List BioVec
  len : Nat
  dataLen : Nat
  dataref : Nat
deriving DecidableEq, Inhabited

/-- A received ATA response; `payload` is what follows the AoE and ATA headers. -/
structure Rsp where
  src : Mac
  dev : NetDev
  tag : Nat
  cmdstat : Byte
  payload : List Byte
deriving DecidableEq, Inhabited

/-- `probe` is the bit `FFL_PROBE` of `flags`. The last two fields are history: the number of the command
the frame carries and the wall-clock time at which that command was first issued. -/
structure Frame where
  id : Nat
  tag : Nat
  sent : Timeval
  sentJiffs : Nat
  waited : Nat
  waitedTotal : Nat
  t : Nat
  skb : Option Skb
  rSkb : Option Rsp
  buf : Option Nat
  iter : BvecIter
  nout : Nat
  probe : Bool
  cmd : Nat
  born : Nat
deriving DecidableEq, Inhabited

structure Aoeif where
  nd : Option NetDev
  lost : Nat
  bcnt : Nat
deriving DecidableEq, Inhabited

/-- `ifs` has `NAOEIFS` slots and `ifp` is the index of the current one. -/
structure Aoetgt where
  addr : Mac
  nframes : Nat
  ffree : List Frame
  ifs : List Aoeif
  ifp : Nat
  nout : Nat
  maxout : Nat
  nextCwnd : Nat
  ssthresh : Nat
  falloc : Nat
  lost : Nat
  taint : Nat
  minbcnt : Nat
  wpkts : Nat
  rpkts : Nat
  noutProbes : Nat
deriving DecidableEq, Inhabited

structure Flags where
  up : Bool
  tkill : Bool
  ext : Bool
  gdalloc : Bool
  gdNow : Bool
  kickme : Bool
  newsize : Bool
deriving DecidableEq, Inhabited

/-- Outcomes of the allocations inside one critical section, in the order in which they are made;
an exhausted list means success. -/
structure Env where
  kcalloc : List Bool
  skb : List Bool
  clone : List Bool
  mempool : List Bool
deriving DecidableEq, Inhabited

/-- The wall clock in microseconds, the tick counter and the number of ticks in a second. -/
structure Clock where
  wall : Nat
  jiffies : Nat
  hz : Nat
deriving DecidableEq, Inhabited

structure Gendisk where
  capacity : Nat
  bdSize : Nat
deriving DecidableEq, Inhabited

/-- The part of a config response that `aoecmd_cfg_rsp` reads. -/
structure CfgRsp where
  src : Mac
  dev : NetDev
  mtu : Nat
  bufcnt : Nat
  fwver : Nat
  scnt : Nat
deriving DecidableEq, Inhabited

/-- What `ktiocomplete` still has to do under `d->lock` before its last section. -/
inductive KtioMid where
  | lost (nd : NetDev)
  | ident (id : List Byte)
deriving DecidableEq, Inhabited

/-- Program points of `aoecmd_sleepwork` and `aoeblk_gdalloc`. -/
inductive SleepPc where
  | start
  | gdalloc
  | gdNow
  | installed
  | resize
  | resizing (ssize : Nat)
deriving DecidableEq, Inhabited

/-- A thread of control outside `d->lock`, at the point where it stands. -/
inductive Thread where
  | rsp (r : Rsp)
  | matched (f : Frame) (r : Rsp)
  | unexpected
  | ktio (id : Nat) (f : Frame)
  | ktioMid (id : Nat) (f : Frame) (m : KtioMid)
  | ktioOut (id : Nat) (f : Frame)
  | ktioPut (id : Nat)
  | ktioSpawn (id : Nat)
  | flush (f : Frame)
  | flushPut
  | cfg (c : CfgRsp)
  | cfgPut
  | reval (first : Bool)
  | revalPut
  | sleep (pc : SleepPc)
deriving DecidableEq, Inhabited

/-- One transmission attempt: the command, the tag and the ordinal of the `newtag` call that made it. -/
structure Xmit where
  cmd : Nat
  tag : Nat
  serial : Nat
deriving DecidableEq, Inhabited

/-- A read or write frame cut from a bio by `aoecmd_ata_rw`. -/
structure Cut where
  cmd : Nat
  rq : Nat
  bio : Nat
  sector : Nat
  size : Nat
deriving DecidableEq, Inhabited

/-- A read or write frame that `ktiocomplete` has processed with a response: status and payload length. -/
structure Processed where
  cmd : Nat
  cmdstat : Byte
  payload : Nat
deriving DecidableEq, Inhabited

/-- A request given to `aoe_end_request`; `status` has true for every bio ended with 0. -/
structure Ended where
  rq : Request
  fastfail : Bool
  status : List Bool
deriving DecidableEq, Inhabited

/-- A packet made ready for `aoenet_xmit`: the frame it belongs to, the target at that moment without its stock of
frames, whether this is the first attempt of the command and whether `skb_clone` succeeded. -/
structure Send where
  frame : Frame
  tgt : Aoetgt
  first : Bool
  cloned : Bool
deriving DecidableEq, Inhabited

/-- A call of `ejectif` for a slot of target number `t`, and that target before the call. -/
structure Eject where
  t : Nat
  tgt : Aoetgt
  slot : Nat
  /-- The packets logged before. -/
  sent : Nat
deriving DecidableEq, Inhabited

/-- The counters the driver decrements. -/
inductive Counter where
  | nframesout
  | special
  | nout
  | ref
deriving DecidableEq, Inhabited

/-- `underflow` lists the counters that were 0 when they were decremented; `nullBio` and `nullNd` tell that the
NULL pointer of a bio or of an interface was followed, `stranded` that `resend` found no interface. `holds` are the
calls of `dev_hold`, by target. -/
structure Hist where
  ntags : Nat
  xmits : List Xmit
  ncmds : Nat
  sends : List Send
  ejects : List Eject
  holds : List (Nat × NetDev)
  stranded : Bool
  taken : List (Nat × Nat)
  cuts : List Cut
  processed : List Processed
  ended : List Ended
  underflow : List Counter
  probeMissed : Bool
  warned : Bool
  nullBio : Bool
  nullNd : Bool
deriving DecidableEq, Inhabited

/-- One byte stored into the memory of a bio. -/
structure MemWrite where
  page : Nat
  offset : Nat
  byte : Byte
deriving DecidableEq, Inhabited

/-- `struct aoedev` with what is reachable from it. `targets` are the non-NULL entries of the table with
`ntargets` slots, `blkq` tells that the request queue and the pool of bufs exist, `iocq` are the frames of the
device on the completion queues, each with the number of its queue, `queue` the requests waiting in `blkq` and
`rqs` those started and not yet ended. -/
structure Aoedev where
  aoemajor : Nat
  aoeminor : Nat
  ncpus : Nat
  aoeDeadsecs : Nat
  aoeMaxout : Nat
  clock : Clock
  env : Env
  flags : Flags
  nopen : Nat
  fwVer : Nat
  lasttag : Nat
  rttavg : Nat
  rttdev : Nat
  ref : Nat
  workPending : Bool
  gd : Option Gendisk
  blkq : Bool
  ssize : Nat
  rexmitArmed : Bool
  skbpool : List Skb
  skbLinks : Links Nat
  nskbpool : Nat
  skbIds : Nat
  ip : InProcess
  maxbcnt : Nat
  factive : Fin NFACTIVE → List Frame
  rexmitq : List Frame
  targets : List Aoetgt
  ntargets : Nat
  tgt : Nat
  kicked : Nat
  frameIds : Nat
  queue : List Request
  rqs : List Request
  bufs : List Buf
  bufIds : Nat
  kts : List Nat
  iocq : List (Nat × Frame)
  threads : List Thread
  mem : List MemWrite
  hist : Hist

end AoeDriver
