import AoeDriver.Model.Types

/-!
# Commands from userland

The packets that `aoeping`, `aoecfg` and `aoe-sancheck` send, with their tags. A response carries the tag of its
command, so these tags must not be ones that the driver uses.
-/

namespace AoeDriver

/-- A packet sent by one of the tools. -/
structure UserPacket where
  cmd : Nat
  tag : BitVec 32
deriving DecidableEq

/-- `1UL << 31`. -/
def userBit : BitVec 32 := 0x80000000

def isspace (c : Char) : Bool := c.toNat = 32 || (9 ≤ c.toNat && c.toNat ≤ 13)

def strtol (s : List Char) : Int :=
  let digits (s : List Char) : Int := ((s.takeWhile Char.isDigit).foldl (fun n c => 10 * n + (c.toNat - 48)) 0 : Nat)
  let n := match s.dropWhile isspace with
    | '-' :: rest => -digits rest
    | '+' :: rest => digits rest
    | rest => digits rest
  max (-2^63) (min (2^63 - 1) n)

/-- The low 32 bits of what `strtol` returns. -/
def atoi (s : List Char) : BitVec 32 := .ofInt 32 (strtol s)

/-- An option as `getopt` returns it. -/
inductive PingOpt where
  | help
  | verbose
  | ident
  | ppIdent
  | tag (arg : List Char)
  | timeout (arg : List Char)
  | smart (arg : List Char)
  | unknown
deriving DecidableEq

structure Progopts where
  tag : BitVec 32
  smart : Option (List Char)
  ataIdent : Bool
deriving DecidableEq

/-- One round of the loop of `init_opts`; `none` where the program exits. -/
def initOpt (o : Progopts) : PingOpt → Option Progopts
  | .help => none
  | .verbose => some o
  | .ident => some { o with ataIdent := true }
  | .ppIdent => some { o with ataIdent := true }
  | .tag arg => some { o with tag := atoi arg }
  | .timeout arg => if (atoi arg).toInt < 1 then none else some o
  | .smart arg => some { o with smart := some arg }
  | .unknown => none

def initOpts (opts : List PingOpt) (operands : Nat) : Option Progopts :=
  (opts.foldlM initOpt ⟨0, none, false⟩).bind fun o => if operands = 3 then some o else none

def SmartDataPut : Byte := 0x01
def SmartDataRet : Byte := 0x10

/-- `cmd` goes into the features register, `data` tells which way data is transferred. -/
structure SmartCmd where
  name : List Char
  cmd : Byte
  data : Byte
deriving DecidableEq

/-- The command sends data to the device. -/
def SmartCmd.put (s : SmartCmd) : Bool := s.data &&& SmartDataPut ≠ 0

def smarts : List SmartCmd :=
  [⟨"read_data".toList, 0xd0, SmartDataRet⟩, ⟨"offline_immediate".toList, 0xd4, 0⟩,
    ⟨"read_log".toList, 0xd5, SmartDataRet⟩, ⟨"write_log".toList, 0xd6, SmartDataPut⟩, ⟨"enable".toList, 0xd8, 0⟩,
    ⟨"disable".toList, 0xd9, 0⟩, ⟨"return_status".toList, 0xda, 0⟩]

/-- With a colon in `nam`, what stands before it need only begin the name of the command. -/
def smartcmdLookup (nam : List Char) : Option SmartCmd :=
  smarts.find? fun s =>
    match nam.findIdx? (· = ':') with
    | some k => s.name.take k = nam.take k || s.name = nam
    | none => s.name = nam

/-- A command line of `aoeping` and what the program meets: whether the interface can be used and the target answers
the query, the answer to the identify command and the SMART bit in it, and whether data can be read. -/
structure PingRun where
  opts : List PingOpt
  operands : Nat
  dials : Bool
  answers : Bool
  ident : Option Bool
  stdin : Bool

/-- `smart` sends its command if there is one of that name and its data can be read. -/
def smartSends (nam : List Char) (stdin : Bool) : Bool :=
  match smartcmdLookup nam with
  | none => false
  | some s => !s.put || stdin

/-- The last part of `main`: the command is sent to a target that knows SMART. -/
def pingSmart (r : PingRun) (o : Progopts) (tag : BitVec 32) : List UserPacket :=
  match r.ident, o.smart with
  | some true, some nam => if smartSends nam r.stdin then [⟨0, tag⟩] else []
  | _, _ => []

def pingMain (r : PingRun) (o : Progopts) : List UserPacket :=
  let tag := o.tag ||| userBit
  if !r.dials then []
  else
    ⟨1, tag⟩ :: if !r.answers then []
    else
      let tag := tag + 1
      if !o.ataIdent && o.smart.isNone then []
      else
        ⟨0, tag⟩ :: pingSmart r o (tag + 1)

def aoeping (r : PingRun) : List UserPacket :=
  match initOpts r.opts r.operands with
  | none => []
  | some o => pingMain r o

/-- `usec` is the result of `gettimeofday`, if it succeeds. -/
def aoecfg (usec : Option Nat) : List UserPacket :=
  match usec with
  | none => []
  | some n => [⟨1, .ofNat 32 n ||| userBit⟩]

structure Lun where
  probed : Bool
  ea : Mac
  major : Nat
  minor : Nat
  nsect : Nat
  maxsect : Nat
  id : BitVec 32
deriving DecidableEq, Inhabited

/-- The part of a received packet that `jinput` reads. -/
structure SanPkt where
  src : Mac
  flags : Byte
  major : Nat
  minor : Nat
  cmd : Nat
  tag : BitVec 32
  scnt : Nat
deriving DecidableEq

/-- `luns` are those of each interface, `id` is the static variable of `findlun`. A target is a pair of shelf and slot. -/
structure Sancheck where
  luns : Nat → List Lun
  targlist : List (Nat × Nat)
  id : BitVec 32
  sent : List UserPacket

/-- The loop of `inserttarg`, in front of the rest of the list. -/
def inserttargLoop (nt : Nat × Nat) : List (Nat × Nat) → List (Nat × Nat)
  | [] => [nt]
  | t :: rest =>
    if nt.1 = t.1 ∧ nt.2 = t.2 then t :: rest
    else if nt.1 < t.1 then nt :: t :: rest
    else if nt.1 = t.1 ∧ nt.2 < t.2 then nt :: t :: rest
    else t :: inserttargLoop nt rest

def inserttarg (targlist : List (Nat × Nat)) (nt : Nat × Nat) : List (Nat × Nat) :=
  match targlist with
  | [] => [nt]
  | t :: rest =>
    if nt.1 < t.1 then nt :: t :: rest
    else if nt.1 = t.1 ∧ nt.2 < t.2 then nt :: t :: rest
    else if nt.1 = t.1 ∧ nt.2 = t.2 then t :: rest
    else t :: inserttargLoop nt rest

/-- The loop of `findlun` goes on past `p`, stops in front of it, or returns it. -/
def lunOrder (a : SanPkt) (p : Lun) : Ordering :=
  if a.major < p.major then .lt
  else if a.major > p.major then .gt
  else if a.minor < p.minor then .lt
  else if a.minor > p.minor then .gt
  else if p.ea.toNat < a.src.toNat then .lt
  else if p.ea.toNat > a.src.toNat then .gt
  else .eq

/-- The index of the lun of `a`, or the index at which one is put in. -/
def findlunLoop (a : SanPkt) : List Lun → Nat × Bool
  | [] => (0, false)
  | p :: rest =>
    match lunOrder a p with
    | .lt => ((findlunLoop a rest).1 + 1, (findlunLoop a rest).2)
    | .gt => (0, false)
    | .eq => (0, true)

def findlun (s : Sancheck) (e : Nat) (a : SanPkt) : Sancheck × Option Nat :=
  let (i, found) := findlunLoop a (s.luns e)
  if found then (s, some i)
  else if a.cmd = 0 then (s, none)
  else
    let p : Lun := ⟨false, a.src, a.major, a.minor, 0, 0, 0x8000 ||| s.id⟩
    ({ s with
      luns := Function.update s.luns e ((s.luns e).insertIdx i p)
      targlist := inserttarg s.targlist (a.major, a.minor)
      id := s.id + 1 }, some i)

/-- The packets of `jprobe`, for `n` from `512 * k` down to 512; the last byte of the tag is `n / 512`. -/
def jprobeLoop (id : BitVec 32) : Nat → List UserPacket
  | 0 => []
  | k + 1 => ⟨0, (id <<< 16 &&& 0xffffff00) ||| (BitVec.ofNat 8 (k + 1)).setWidth 32⟩ :: jprobeLoop id k

def jprobe (mtu : Int) (id : BitVec 32) : List UserPacket := jprobeLoop id ((mtu - 36) / 512).toNat

def Sancheck.modLun (s : Sancheck) (e i : Nat) (g : Lun → Lun) : Sancheck :=
  { s with luns := Function.update s.luns e ((s.luns e).modify i g) }

def jinput (mtu : Int) (s : Sancheck) (e : Nat) (a : SanPkt) : Sancheck :=
  if a.flags &&& 0x0c ≠ 0x08 then s
  else if a.tag.getLsbD 31 = false then s
  else if a.cmd = 1 then
    match findlun s e a with
    | (s, none) => s
    | (s, some i) =>
      let lun := (s.luns e).getD i default
      if lun.probed then s
      else { s.modLun e i fun l => { l with nsect := a.scnt, probed := true } with sent := s.sent ++ jprobe mtu lun.id }
  else if a.cmd = 0 then
    match findlun s e a with
    | (s, none) => s
    | (s, some i) =>
      if ((s.luns e).getD i default).id ≠ a.tag >>> 16 then s
      else s.modLun e i fun l => { l with maxsect := max l.maxsect (a.tag.toNat % 2^8) }
  else s

/-- What happens on interface `e`. -/
inductive SanEvent where
  | discover (e : Nat)
  | input (e : Nat) (a : SanPkt)

def sanStep (mtu : Nat → Int) (s : Sancheck) : SanEvent → Sancheck
  | .discover _ => { s with sent := s.sent ++ [⟨1, userBit⟩] }
  | .input e a => jinput (mtu e) s e a

def Sancheck.init : Sancheck := ⟨fun _ => [], [], 0, []⟩

def sancheck (mtu : Nat → Int) (events : List SanEvent) : List UserPacket :=
  (events.foldl (sanStep mtu) Sancheck.init).sent

/-- A line that the function `sancheck` prints: the summary with the number of addresses, the payload and the interfaces
of the device, and the warnings. -/
inductive SanLine where
  | device (maj min nea payload : Nat) (eths : List Nat)
  | mismatched
  | path (e : Nat) (ea : Mac) (payload : Nat)
  | notOptimal (e : Nat) (mtu : Int)
  | different (e : Nat) (mtu most : Int)
deriving DecidableEq

/-- The luns of the device on interface `e`. -/
def Sancheck.paths (s : Sancheck) (maj min e : Nat) : List Lun :=
  (s.luns e).filter fun l => l.major = maj && l.minor = min

/-- The number of addresses that `insertmac` has put into its list. -/
def countMacs (ls : List Lun) : Nat := (ls.foldl (fun ml l => if ml.contains l.ea then ml else ml ++ [l.ea]) []).length

/-- The largest of the MTUs, each counted once for every lun; 0 stands for none yet. -/
def mostMtu (mtus : List Int) : Int := mtus.foldl (fun mtu m => if mtu = 0 then m else if m > mtu then m else mtu) 0

/-- The warnings about interface `e`, for a device of `nsect` sectors; `most` is the largest MTU. -/
def Sancheck.warnings (s : Sancheck) (maj min nsect : Nat) (most mtu : Int) (e : Nat) : List SanLine :=
  ((s.paths maj min e).filter fun l => l.maxsect < (mtu - 32).tdiv 512).map (fun l => .path e l.ea (l.maxsect * 512)) ++
    if (s.paths maj min e).isEmpty then []
    else (if mtu < nsect * 512 + 36 then [.notOptimal e mtu] else []) ++ if mtu < most then [.different e mtu most] else []

/-- The function `sancheck`, which is the last to run, for the first `neth` interfaces. -/
def Sancheck.sancheck (s : Sancheck) (mtu : Nat → Int) (neth maj min : Nat) : List SanLine :=
  let eths := (List.range neth).filter fun e => !(s.paths maj min e).isEmpty
  let ls := eths.flatMap (s.paths maj min)
  let most := mostMtu (eths.flatMap fun e => (s.paths maj min e).map fun _ => mtu e)
  let nsect := (ls.getLast?.map Lun.nsect).getD 0
  let nea := countMacs ls
  .device maj min nea (nsect * 512) eths :: (if nea ≠ eths.length then [.mismatched] else []) ++
    (List.range neth).flatMap fun e => s.warnings maj min nsect most (mtu e) e

end AoeDriver
