import AoeDriver.Model.Devlist

/-!
# Control files

What is written to `/dev/etherd/interfaces` and `/dev/etherd/revalidate`: the list of interfaces that may be used, and
the name of a device. Memory is a list of characters; behind its end stands a NUL, and a pointer is the rest of the list
from there on.
-/

namespace AoeDriver

def IFLISTSZ : Nat := 1024

/-- Space, tab, vertical tab, form feed, newline and comma. -/
def WHITESPACE : List Char := [' ', '\t', '\x0b', '\x0c', '\n', ',']

/-- The string in front of the first NUL. -/
def cstr (s : List Char) : List Char := s.takeWhile (· ≠ NUL)

def strlen (s : List Char) : Nat := (cstr s).length

def strspn (accept : List Char) : List Char → Nat
  | [] => 0
  | c :: s => if accept.contains c then strspn accept s + 1 else 0

def aoeStrcspn (reject : List Char) : List Char → Nat
  | [] => 0
  | c :: s => if c = NUL then 0 else if reject.contains c then 0 else aoeStrcspn reject s + 1

/-- The loop of `is_aoe_netif` from `p` on; `none` where it is not through after so many rounds. -/
def isAoeNetifLoop (name : List Char) : Nat → List Char → Option Bool
  | 0, _ => none
  | rounds + 1, p =>
    if p.headD NUL = NUL then some false
    else
      let n := aoeStrcspn WHITESPACE p
      let q := p.drop n
      let len := if n ≠ 0 then n else strlen p
      if strlen name = len && strncmpEq len name p then some true
      else if n = 0 then some false
      else isAoeNetifLoop name rounds (q.drop (strspn WHITESPACE q))

def isAoeNetif (aoeIflist name : List Char) : Option Bool :=
  if aoeIflist.headD NUL = NUL then some true
  else isAoeNetifLoop name (strlen aoeIflist + 1) (aoeIflist.drop (strspn WHITESPACE aoeIflist))

/-- `copy_from_user`, which may fault behind `copied` bytes: memory afterwards, and the number of bytes not copied.
These are zero afterwards, or what they were before, as the kernel has it. -/
def copyFromUser (pad : Bool) (dst user : List Char) (copied : Nat) : List Char × Nat :=
  let rest := (dst.drop copied).take (user.length - copied)
  (user.take copied ++ (if pad then List.replicate (user.length - copied) NUL else rest) ++ dst.drop user.length,
    user.length - copied)

def EFAULT : Int := 14
def EINVAL : Int := 22

/-- The list afterwards, and the value returned. -/
def setAoeIflist (pad : Bool) (aoeIflist user : List Char) (copied : Nat) : List Char × Int :=
  if IFLISTSZ ≤ user.length then (aoeIflist, -EINVAL)
  else
    match copyFromUser pad aoeIflist user copied with
    | (aoeIflist, n) => if n ≠ 0 then (aoeIflist, -EFAULT) else (aoeIflist.set user.length NUL, 0)

/-- `isspace` of the kernel, which counts the no-break space. -/
def kisspace (c : Char) : Bool := c.toNat = 32 || (9 ≤ c.toNat && c.toNat ≤ 13) || c.toNat = 160

def skipSpaces (s : List Char) : List Char := s.dropWhile kisspace

/-- A character of the format that stands for itself. -/
def scanChar (c : Char) (s : List Char) : Option (List Char) := if s.headD NUL = c then some s.tail else none

def digits (s : List Char) : Nat := (s.takeWhile Char.isDigit).foldl (fun n c => 10 * n + (c.toNat - 48)) 0

/-- The conversion `%d`: the value as an `int`, and where it ends. -/
def scanInt (s : List Char) : Option (BitVec 32 × List Char) :=
  if s.headD NUL = NUL then none
  else
    let s := skipSpaces s
    let neg : Bool := s.headD NUL = '-'
    let s := if neg then s.tail else s
    if (s.headD NUL).isDigit then
      some (.ofInt 32 (if neg then -digits s else digits s), s.dropWhile Char.isDigit)
    else none

/-- `sscanf(buf, "e%d.%d", &major, &minor)`, where it returns 2. -/
def sscanfDevice (buf : List Char) : Option (BitVec 32 × BitVec 32) := do
  let s ← scanChar 'e' buf
  let (major, s) ← scanInt s
  let s ← scanChar '.' s
  let (minor, _) ← scanInt s
  some (major, minor)

/-- The device that `revalidate` asks `aoedev_by_aoeaddr` for; `stack` is what its buffer of 16 bytes held before. -/
def revalidateDevice (stack user : List Char) : Option (BitVec 32 × BitVec 32) :=
  if 16 ≤ user.length then none
  else sscanfDevice (copyFromUser true (stack.set 15 NUL) user user.length).1

end AoeDriver
