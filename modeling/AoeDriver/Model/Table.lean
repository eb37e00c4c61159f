import AoeDriver.Model.Config

/-!
# The targets table in memory

`d->targets` is an array of pointers that is reallocated when it is full, and `d->tgt` points into it. Addresses count
words. `aoe_kcalloc` hands out cleared words that were not in use before, and freed words may hold anything afterwards.
-/

namespace AoeDriver

/-- The fields of a target that tell where it belongs; `d` is the address of its device. -/
structure TgtRec where
  d : ℕ
  addr : Mac
deriving DecidableEq, Inhabited

/-- `struct aoedev`, at address `d`, and the memory it refers to: the words, the targets by their addresses and the
first address not yet in use. -/
structure Table where
  d : ℕ
  word : ℕ → ℕ
  tgtRec : ℕ → TgtRec
  brk : ℕ
  targets : ℕ
  ntargets : ℕ
  tgt : ℕ

namespace Table

/-- 0 is the NULL pointer. -/
def aoeKcalloc (s : Table) (n : ℕ) (ok : Bool) : Table × ℕ :=
  if ok then
    ({ s with word := fun a => if s.brk ≤ a ∧ a < s.brk + n then 0 else s.word a, brk := s.brk + n }, s.brk)
  else (s, 0)

/-- `memmove` of `n` words. -/
def memmove (s : Table) (dst src n : ℕ) : Table :=
  { s with word := fun a => if dst ≤ a ∧ a < dst + n then s.word (src + (a - dst)) else s.word a }

/-- `kfree` of an array of `n` words, with what the words hold from then on. -/
def kfree (s : Table) (p n : ℕ) (junk : ℕ → ℕ) : Table :=
  { s with word := fun a => if p ≤ a ∧ a < p + n then junk a else s.word a }

def growTargets (s : Table) (ok : Bool) (junk : ℕ → ℕ) : Table × ℕ :=
  let oldn := s.ntargets
  let newn := oldn * 2
  let (s, tt) := s.aoeKcalloc newn ok
  if tt = 0 then (s, 0)
  else
    let s := s.memmove tt s.targets oldn
    let s := { s with tgt := tt + (s.tgt - s.targets) }
    let s := s.kfree s.targets oldn junk
    let s := { s with targets := tt, ntargets := newn }
    (s, s.targets + oldn)

/-- `for (; tt < te && *tt; tt++)` with `n` slots up to `te`. -/
def skipUsed (s : Table) : ℕ → ℕ → ℕ
  | 0, tt => tt
  | n + 1, tt => if s.word tt = 0 then tt else skipUsed s n (tt + 1)

/-- The second half of `addtgt`, with a slot for the new target. -/
def insert (s : Table) (tt : ℕ) (addr : Mac) (ok : Bool) : Table × ℕ :=
  let (s, t) := s.aoeKcalloc 1 ok
  if t = 0 then (s, 0)
  else ({ s with tgtRec := Function.update s.tgtRec t ⟨s.d, addr⟩, word := Function.update s.word tt t }, t)

/-- `addtgt`, with the outcomes of its allocations. -/
def addtgt (s : Table) (addr : Mac) (kcalloc : List Bool) (junk : ℕ → ℕ) : Table × ℕ :=
  let te := s.targets + s.ntargets
  let tt := s.skipUsed s.ntargets s.targets
  if tt = te then
    let (ok, rest) := nextOutcome kcalloc
    let (s, tt) := s.growTargets ok junk
    if tt = 0 then (s, 0) else s.insert tt addr (nextOutcome rest).1
  else s.insert tt addr (nextOutcome kcalloc).1

/-- The loop of `gettgt` with `n` slots up to `e`. -/
def gettgtLoop (s : Table) (addr : Mac) : ℕ → ℕ → ℕ
  | 0, _ => 0
  | n + 1, t =>
    if s.word t = 0 then 0 else if (s.tgtRec (s.word t)).addr = addr then s.word t else gettgtLoop s addr n (t + 1)

def gettgt (s : Table) (addr : Mac) : ℕ := s.gettgtLoop addr s.ntargets s.targets

/-- What `aoecmd_cfg_rsp` does to the table. -/
def aoecmdCfgRsp (s : Table) (addr : Mac) (kcalloc : List Bool) (junk : ℕ → ℕ) : Table :=
  if s.gettgt addr = 0 then (s.addtgt addr kcalloc junk).1 else s

/-- The step of the loop of `newframe`. -/
def nextTt (s : Table) (tt : ℕ) : ℕ :=
  let tt := tt + 1
  if s.targets + s.ntargets ≤ tt ∨ s.word tt = 0 then s.targets else tt

/-- What `newframe` does to the table when the target it reaches after `k` others gives a frame. -/
def newframe (s : Table) (k : ℕ) : Table :=
  if s.word s.targets = 0 then s else { s with tgt := s.nextTt^[k + 1] s.tgt }

/-- The device as `aoedev_by_aoeaddr` makes it, with `targets` at a new address. -/
def initial (d base : ℕ) (word : ℕ → ℕ) (tgtRec : ℕ → TgtRec) : Table :=
  { d, word := fun a => if base ≤ a ∧ a < base + NTARGETS then 0 else word a, tgtRec, brk := base + NTARGETS
    targets := base, ntargets := NTARGETS, tgt := base }

inductive Event where
  | cfgRsp (addr : Mac) (kcalloc : List Bool) (junk : ℕ → ℕ)
  | newframe (k : ℕ)

def exec (s : Table) : Event → Table
  | .cfgRsp addr kcalloc junk => s.aoecmdCfgRsp addr kcalloc junk
  | .newframe k => s.newframe k

/-- The entries of the table up to the first NULL. -/
def entries (s : Table) : List ℕ := ((List.range s.ntargets).map fun i => s.word (s.targets + i)).takeWhile (· ≠ 0)

end Table

end AoeDriver
