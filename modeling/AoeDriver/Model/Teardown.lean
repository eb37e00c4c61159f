import AoeDriver.Model.Config

/-!
# Freeing a device

`freedev` and what it calls, as a log of what is given back: references to interfaces, frames, packets and targets. The
number of users of a packet's data is read again and again by `skbfree` and changes outside the driver, so it is a
parameter.
-/

namespace AoeDriver

/-- The calls of `dev_put` by target, of `kfree` for frames, of `dev_kfree_skb`, the packets given up for lost and the
number of targets freed. -/
structure Release where
  puts : List (Nat × NetDev)
  frames : List Nat
  skbs : List Nat
  leaked : List Nat
  targets : Nat
deriving DecidableEq

namespace Release

def nothing : Release := ⟨[], [], [], [], 0⟩

/-- One after the other. -/
def all (l : List Release) : Release :=
  ⟨l.flatMap puts, l.flatMap frames, l.flatMap skbs, l.flatMap leaked, (l.map targets).sum⟩

end Release

/-- `Tms / Sms` -/
def SKBFREE_WAITS : Nat := 30 * 1000 / 250

/-- The loop of `skbfree` at reading number `k` of `dataref`, with `i` sleeps left. -/
def skbfreeWait (dataref : Nat → Nat) (k : Nat) : Nat → Bool
  | 0 => dataref k = 1
  | i + 1 => dataref k = 1 || skbfreeWait dataref (k + 1) i

/-- `dataref id k` is the reading number `k` for packet `id`. -/
def skbfree (dataref : Nat → Nat → Nat) : Option Skb → Release
  | none => .nothing
  | some skb =>
    if skbfreeWait (dataref skb.id) 0 SKBFREE_WAITS then { Release.nothing with skbs := [skb.id] }
    else { Release.nothing with leaked := [skb.id] }

/-- The first loop of `freetgt` ends at the first empty slot. -/
def putIfs : List Aoeif → List NetDev
  | [] => []
  | ifp :: rest =>
    match ifp.nd with
    | none => []
    | some nd => nd :: putIfs rest

def freeFrame (dataref : Nat → Nat → Nat) (f : Frame) : Release := { skbfree dataref f.skb with frames := [f.id] }

def freetgt (dataref : Nat → Nat → Nat) (i : Nat) (t : Aoetgt) : Release :=
  .all ([{ Release.nothing with puts := (putIfs t.ifs).map fun nd => (i, nd) }] ++ t.ffree.map (freeFrame dataref) ++
    [{ Release.nothing with targets := 1 }])

def skbpoolfree (dataref : Nat → Nat → Nat) (pool : List Skb) : Release := .all (pool.map fun skb => skbfree dataref (some skb))

def freedev (dataref : Nat → Nat → Nat) (d : Aoedev) : Release :=
  .all ((d.targets.mapIdx (freetgt dataref)) ++ [skbpoolfree dataref d.skbpool])

end AoeDriver
