import AoeDriver.Model.Config

/-!
# Received packets

What `aoenet_rcv` and the functions behind it read of a packet, field by field. `aoecmd_ata_rsp` and `aoecmd_cfg_rsp`
are here as far as the packet goes; what they do to the device is `rspMatch` and `aoecmdCfgRsp`.
-/

namespace AoeDriver

def AOECMD_CFG : Nat := 1

/-- A packet from its Ethernet header on. It has `len` bytes; `mem` says what memory holds behind them, too. -/
structure Packet where
  len : Nat
  mem : Nat → Byte

/-- The big-endian number in `size` bytes at `off`. -/
def Packet.be (p : Packet) (off size : Nat) : Nat :=
  (List.range size).foldl (fun n i => 2^8 * n + (p.mem (off + i)).toNat) 0

/-- A part of the packet that was read. -/
structure Field where
  off : Nat
  size : Nat
deriving DecidableEq

/-- A value, and the fields read to get it. -/
structure Parse (α : Type) where
  val : α
  fields : List Field

instance : Monad Parse where
  pure a := ⟨a, []⟩
  bind m g := ⟨(g m.val).val, m.fields ++ (g m.val).fields⟩

def read (p : Packet) (off size : Nat) : Parse Nat := ⟨p.be off size, [⟨off, size⟩]⟩

/-- What the way of a packet depends on besides its bytes. `ours` stands for the three tests in front: the network
namespace, a copy of one's own, an interface in use. `find` and `create` are `aoedev_by_aoeaddr` without and with
`do_alloc`. -/
structure RcvEnv where
  ours : Bool
  headlen : Nat
  pull : Bool
  ratelimit : Bool
  find : Nat → Nat → Option Aoedev
  create : Nat → Nat → Option Aoedev
  dev : NetDev
  mtu : Nat

/-- Where a packet goes: dropped, reported as an error, of no known command, or to one of the two commands; with an ATA
response goes the frame it completes. -/
inductive Rcv where
  | exit
  | error
  | ignored
  | ata (f : Option Frame)
  | cfg

def ataRspParse (p : Packet) (env : RcvEnv) : Parse (Option Frame) := do
  let aoemajor ← read p 16 2
  let minor ← read p 18 1
  match env.find aoemajor minor with
  | none => pure none
  | some d =>
    let n ← read p 20 4
    match getframe d n, getframeDeferred d n with
    | some (f, _), _ => pure (some f)
    | none, some (f, _) => pure (some f)
    | none, none =>
      -- `gettgt` and the message of an unexpected response
      let _ ← read p 6 6
      let _ ← read p 16 2
      let _ ← read p 18 1
      let _ ← read p 20 4
      let _ ← read p 0 6
      pure none

def cfgRspParse (p : Packet) (env : RcvEnv) : Parse Unit := do
  let aoemajor ← read p 16 2
  let minor ← read p 18 1
  if aoemajor = 0xfff ∨ aoemajor = 0xffff ∨ minor = 0xff then pure ()
  else
    let bufcnt ← read p 24 2
    match env.create aoemajor minor with
    | none => pure ()
    | some d =>
      let src ← read p 6 6
      match (cfgTgt d ⟨.ofNat 48 src, env.dev, env.mtu, bufcnt, 0, 0⟩).2 with
      | none => pure ()
      | some _ =>
        let _ ← read p 28 1
        if d.nopen = 0 then
          let _ ← read p 26 2
          pure ()
        else pure ()

def aoenetRcv (p : Packet) (env : RcvEnv) : Parse Rcv := do
  if env.ours = false then pure .exit
  else if 36 ≤ p.len ∧ env.headlen < 36 ∧ env.pull = false then pure .exit
  else
    let n ← read p 20 4
    let verfl ← read p 14 1
    if verfl.testBit 3 = false ∨ n.testBit 31 = true then pure .exit
    else if verfl.testBit 2 = true then
      let _ ← read p 15 1
      if env.ratelimit = true then
        let _ ← read p 16 2
        let _ ← read p 18 1
        pure .error
      else pure .error
    else
      let cmd ← read p 19 1
      if cmd = AOECMD_ATA then
        let f ← ataRspParse p env
        pure (.ata f)
      else if cmd = AOECMD_CFG then
        cfgRspParse p env
        pure .cfg
      else pure .ignored

/-- `skb->data` as an offset into the packet, and `skb->len`; a pull of more than there is does nothing. -/
def skbPull (s : Nat × Nat) (n : Nat) : Nat × Nat := if s.2 < n then s else (s.1 + n, s.2 - n)

/-- `ktiocomplete` as far as it reads the response to `f`; the value is the offset of `ahin`, unless the frame was a
probe. -/
def ktiocompleteParse (p : Packet) (f : Frame) : Parse (Option Nat) := do
  if f.probe = true then pure none
  else
    let hin := skbPull (0, p.len) 24
    let skb := skbPull hin 12
    let ahout := (f.skb.getD default).ata
    let n := ahout.scnt.toNat <<< 9
    let cmdstat ← read p (hin.1 + 3) 1
    if cmdstat &&& 0xa9 ≠ 0 then pure (some hin.1)
    else if ahout.cmdstat = ATA_CMD_PIO_READ ∨ ahout.cmdstat = ATA_CMD_PIO_READ_EXT then
      if skb.2 < n ∨ n > f.iter.size then pure (some hin.1)
      else
        let _ ← read p skb.1 n
        pure (some hin.1)
    else if ahout.cmdstat = ATA_CMD_PIO_WRITE ∨ ahout.cmdstat = ATA_CMD_PIO_WRITE_EXT then pure (some hin.1)
    else if ahout.cmdstat = ATA_CMD_ID_ATA then
      if skb.2 < 512 then pure (some hin.1)
      else
        let _ ← read p skb.1 512
        pure (some hin.1)
    else
      let _ ← read p 16 2
      let _ ← read p 18 1
      pure (some hin.1)

end AoeDriver
