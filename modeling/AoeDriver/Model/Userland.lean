import AoeDriver.Model.Net
import AoeDriver.Model.Tools

/-!
# Packets of the userland tools

The loops of `aoeping` and `aoecfg` that wait for a response, the SMART command that `aoeping` makes, and the memory that
`aoecfg` reads and writes. A list of packets is what the socket delivers; an error of the socket ends the program.
-/

namespace AoeDriver

def AOE_ETH_PROTO : Nat := 0x88a2
def AoEver : Byte := 1
def ATAsmart : Byte := 0xb0

/-- `Resp` and `Error` of the flags, `Write` of the ATA flags. -/
def Resp : Nat := 2^3
def ErrorFlag : Nat := 2^2
def WriteFlag : Byte := 0x01

namespace Packet

variable (p : Packet)

def src : Nat := p.be 6 6
def type : Nat := p.be 12 2
def flags : Nat := p.be 14 1
def error : Nat := p.be 15 1
def maj : Nat := p.be 16 2
def min : Nat := p.be 18 1
def cmd : Nat := p.be 19 1
def tag : Nat := p.be 20 4
/-- `len` of a `Conf`. -/
def confLen : Nat := p.be 30 2

end Packet

/-- The loop of `find_blade`; the packet that ends it and the packets not yet read. The options are `int`s. -/
def findBladeLoop (shelf slot : Int) (tag : Nat) : List Packet → Option (Packet × List Packet)
  | [] => none
  | p :: rest =>
    if p.len < 60 then findBladeLoop shelf slot tag rest
    else if p.type ≠ AOE_ETH_PROTO ∨ (p.maj : Int) ≠ shelf ∨ (p.min : Int) ≠ slot ∨ p.tag ≠ tag then
      findBladeLoop shelf slot tag rest
    else some (p, rest)

/-- The loop of `aoe_pkt_read`, where `c` is the packet that `find_blade` has found. -/
def aoePktRead (c : Packet) (tag : Nat) : List Packet → Option (Packet × List Packet)
  | [] => none
  | p :: rest =>
    if p.len < 60 then aoePktRead c tag rest
    else if p.type ≠ AOE_ETH_PROTO ∨ p.maj ≠ c.maj ∨ p.min ≠ c.min ∨ p.tag ≠ tag then aoePktRead c tag rest
    else some (p, rest)

/-- The tests of the loop of `cfgquery`. -/
def cfgqueryTakes (shelf slot tag : Nat) (p : Packet) : Bool :=
  if p.len < 60 then false
  else if p.type ≠ AOE_ETH_PROTO then false
  else if p.maj = 0xffff ∨ p.min = 0xff then false
  else if shelf ≠ 0xffff ∧ p.maj ≠ shelf then false
  else if slot ≠ 0xff ∧ p.min ≠ slot then false
  else if p.tag ≠ tag then false
  else true

/-- The loop of `cfgquery`; the packets read, and whether they were given to `resp`. -/
def cfgqueryLoop (shelf slot tag : Nat) : List Packet → List (Packet × Bool)
  | [] => []
  | p :: rest =>
    if cfgqueryTakes shelf slot tag p then
      if shelf ≠ 0xffff ∧ slot ≠ 0xff then [(p, true)] else (p, true) :: cfgqueryLoop shelf slot tag rest
    else (p, false) :: cfgqueryLoop shelf slot tag rest

/-- An ATA command; `lba0` to `lba2` are the low, mid and high registers. -/
structure AtaPkt where
  dst : Nat
  src : Nat
  flags : Byte
  maj : Nat
  min : Nat
  cmd : Nat
  tag : BitVec 32
  aflag : Byte
  err : Byte
  sectors : Byte
  ata : Byte
  lba0 : Byte
  lba1 : Byte
  lba2 : Byte
  data : List Byte
deriving DecidableEq

/-- An ATA command for the device that `c` came from; `mac` is one's own address. -/
def ataPrep (mac : Nat) (c : Packet) (tag : BitVec 32) : AtaPkt :=
  { dst := c.src, src := mac, flags := AoEver <<< 4, maj := c.maj, min := c.min, cmd := 0, tag := tag
    aflag := 0, err := 0, sectors := 0, ata := 0, lba0 := 0, lba1 := 0, lba2 := 0, data := [] }

/-- The value of a digit, where the base has it. -/
def digitVal (base : Nat) (c : Char) : Option Nat :=
  let n :=
    if c.isDigit then c.toNat - 48
    else if 'a'.toNat ≤ c.toNat ∧ c.toNat ≤ 'z'.toNat then c.toNat - 87
    else if 'A'.toNat ≤ c.toNat ∧ c.toNat ≤ 'Z'.toNat then c.toNat - 55
    else 36
  if n < base then some n else none

/-- The digits of a number in front of anything else. -/
def readDigits (base : Nat) : List Char → List Nat
  | [] => []
  | c :: s =>
    match digitVal base c with
    | none => []
    | some n => n :: readDigits base s

/-- A number without sign: `0x` makes it hexadecimal if a digit follows, a leading 0 makes it octal. -/
def readNumber (s : List Char) : Option Nat :=
  let number (base : Nat) (ds : List Nat) : Option Nat :=
    if ds = [] then none else some (ds.foldl (fun n d => base * n + d) 0)
  match s with
  | '0' :: x :: s =>
    if (x = 'x' ∨ x = 'X') ∧ readDigits 16 s ≠ [] then number 16 (readDigits 16 s) else number 8 (readDigits 8 ('0' :: x :: s))
  | s => number 10 (readDigits 10 s)

/-- The number that a string begins with behind spaces and a sign, if there is one. -/
def readInt (s : List Char) : Option Int :=
  match s.dropWhile isspace with
  | '-' :: s => (readNumber s).map fun n => -n
  | '+' :: s => (readNumber s).map fun n => n
  | s => (readNumber s).map fun n => n

/-- The range of a `long`. -/
def clampLong (n : Int) : Int := max (-2^63) (Min.min (2^63 - 1) n)

/-- `strtol(s, NULL, 0)` -/
def strtol0 (s : List Char) : Int := clampLong ((readInt s).getD 0)

/-- What follows the first `:`. -/
def smartParm (nam : List Char) : Option (List Char) :=
  match nam.dropWhile (· ≠ ':') with
  | [] => none
  | _ :: s => some s

def smartRegisters (a : AtaPkt) (opts : Option (List Char)) (s : SmartCmd) : AtaPkt :=
  let a := { a with err := s.cmd, lba1 := 0x4f, lba2 := 0xc2 }
  match opts with
  | none => a
  | some opts => { a with lba0 := .ofInt 8 (strtol0 opts) }

/-- The packet that `smart` sends. Data for the device is read from `stdin`, where it can be read. -/
def smart (mac : Nat) (c : Packet) (tag : BitVec 32) (smartCmd : List Char) (stdin : Option (List Byte)) : Option AtaPkt :=
  match smartcmdLookup smartCmd with
  | none => none
  | some s =>
    let a := { ataPrep mac c tag with sectors := if s.data ≠ 0 then 1 else 0, ata := ATAsmart }
    let a := smartRegisters a (smartParm smartCmd) s
    if s.put then stdin.map fun data => { a with data := data.take 512, flags := a.flags ||| WriteFlag } else some a

/-- `sizeof(Aoehdr)`, `sizeof(Conf)` and the size of `buf` in `cfgquery`. -/
def sizeofAoehdr : Nat := 24
def sizeofConf : Nat := sizeofAoehdr + 8 + 1024
def sizeofCfgbuf : Nat := 1024 + sizeofAoehdr

/-- What is read or written: `size` bytes of `buf` from `off` on, or an entry of `errtab`. -/
inductive CfgAccess where
  | buf (off size : Nat)
  | errtab (i : Nat)
deriving DecidableEq

def CfgAccess.Inside : CfgAccess → Prop
  | .buf off size => off + size ≤ sizeofCfgbuf
  | .errtab i => i < 7

instance : DecidablePred CfgAccess.Inside
  | .buf off size => inferInstanceAs (Decidable (off + size ≤ sizeofCfgbuf))
  | .errtab i => inferInstanceAs (Decidable (i < 7))

/-- The header and the fields of `Conf` in front of the data are filled in, the configuration string is copied, and the
whole of `Conf` is written to the socket. -/
def cfgqueryRequest (cfgstrlen : Nat) : List CfgAccess :=
  [.buf 0 sizeofAoehdr, .buf sizeofAoehdr 8, .buf 32 cfgstrlen, .buf 0 sizeofConf]

/-- The number of bytes that `%.*s` reads for `l` bytes of the data, and the number it prints. -/
def printData (p : Packet) : Nat → Nat → Nat × Nat
  | 0, _ => (0, 0)
  | l + 1, i =>
    if p.mem i = 0 then (1, 0) else ((printData p l (i + 1)).1 + 1, (printData p l (i + 1)).2 + 1)

/-- `resp`: the memory it reads and the number of bytes of the configuration string it prints. -/
def resp (p : Packet) : List CfgAccess × Nat :=
  if p.flags &&& ErrorFlag ≠ 0 then ([.buf 14 2, .errtab (p.error &&& 7), .buf 16 3], 0)
  else ([.buf 14 2, .buf 30 2, .buf 32 (printData p p.confLen 32).1, .buf 16 3], (printData p p.confLen 32).2)

/-- A packet as `readto` stores it: no more than the buffer takes. -/
def readto (p : Packet) : Packet := { p with len := Min.min p.len sizeofCfgbuf }

/-- What a run of `cfgquery` does, from the length of the configuration string and the packets delivered: the memory it
reads and writes, and with every packet that is printed the number of bytes of its configuration string. -/
def cfgquery (cfgstrlen shelf slot tag : Nat) (pkts : List Packet) : List CfgAccess × List (Packet × Nat) :=
  let read := cfgqueryLoop shelf slot tag (pkts.map readto)
  let taken := (read.filter Prod.snd).map Prod.fst
  (cfgqueryRequest cfgstrlen ++ read.flatMap (fun p => [.buf 0 p.1.len, .buf 12 12]) ++ taken.flatMap fun p => (resp p).1,
    taken.map fun p => (p, (resp p).2))

end AoeDriver
