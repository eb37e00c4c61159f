import AoeDriver.Library.Machine

/-!
# Error messages

The ring behind `/dev/etherd/err`: `aoechr_error` adds a message to it, `aoechr_read` takes one from it or waits on a
semaphore. An event is the code under `emsgs_lock`, one semaphore operation, or the test between them; there are any
number of writers and readers.
-/

namespace AoeDriver

open Machine

abbrev Msg := List UInt8

def NMSG : Nat := 100

/-- `valid` is `EMFL_VALID` of `flags`, the only flag there is; `len` is a signed 16-bit number. -/
structure ErrMsg where
  valid : Bool
  len : Int
  msg : Option Msg
deriving DecidableEq, Inhabited

/-- `em->len = n` keeps the low 16 bits of `n` with the sign of bit 15. -/
def ErrMsg.lenOf (n : Nat) : Int := (n : Int).bmod (2^16)

/-- The entry left by `aoechr_error`. -/
def ErrMsg.holding (msg : Msg) : ErrMsg := ⟨true, lenOf msg.length, some msg⟩

/-- `em->len > cnt`: the length is converted to the unsigned 64 bits of `cnt`. -/
def ErrMsg.exceeds (em : ErrMsg) (cnt : Nat) : Bool := cnt < (em.len % 2^64).toNat

structure Emsgs where
  slots : Nat → ErrMsg
  headIdx : Nat
  tailIdx : Nat

/-- A call of `aoechr_read` that went to `down_interruptible`. -/
structure Reader where
  cnt : Nat
deriving DecidableEq, Inhabited

/-- `count` and `waiting` are the semaphore's count and wait list. `calling` are the readers counted as blocked that
have not yet called `down_interruptible`, `woken` and `signalled` those back from it with 0 and with `-EINTR`. `testing`
are the writers behind their unlock, `raising` those that found a blocked reader. `stored` and `taken` are history. -/
structure Chr where
  emsgs : Emsgs
  nblockedEmsgsReaders : Nat
  count : Nat
  waiting : List Reader
  calling : List Reader
  woken : List Reader
  signalled : List Reader
  testing : Nat
  raising : Nat
  stored : List Msg
  taken : List Msg

namespace Chr

inductive Event where
  /-- `aoechr_error` under the lock; `dup` tells whether `kmemdup` succeeds. -/
  | error (msg : Msg) (dup : Bool)
  /-- A writer looks for blocked readers. -/
  | test
  | up
  /-- `aoechr_read` under the lock; `ndelay` is `O_NDELAY` of the file. -/
  | read (cnt : Nat) (ndelay : Bool)
  /-- Calling reader number `k` calls `down_interruptible`, with a signal pending or not. -/
  | down (k : Nat) (signal : Bool)
  /-- A signal for waiting reader number `k`. -/
  | signal (k : Nat)
  /-- Woken reader number `k` under the lock again. -/
  | relock (k : Nat) (ndelay : Bool)
  /-- Signalled reader number `k` under the lock again. -/
  | restart (k : Nat)
deriving DecidableEq

/-- What an event leaves to its caller: a stored or dropped message, the return of a read, or nothing yet. -/
inductive Outcome where
  | stored
  | dropped
  | took (len : Int) (msg : Option Msg)
  | eagain
  | erestartsys
  | pending
deriving DecidableEq

def error (s : Chr) (msg : Msg) (dup : Bool) : Chr × Outcome :=
  let em := s.emsgs.slots s.emsgs.tailIdx
  if em.valid then (s, .dropped)
  else if !dup then (s, .dropped)
  else
    ({ s with
        emsgs :=
          { s.emsgs with
            slots := Function.update s.emsgs.slots s.emsgs.tailIdx
              { em with msg := some msg, valid := true, len := ErrMsg.lenOf msg.length }
            tailIdx := (s.emsgs.tailIdx + 1) % NMSG }
        testing := s.testing + 1
        stored := s.stored ++ [msg] }, .stored)

/-- The loop of `aoechr_read` with the lock held, up to the unlock. -/
def look (s : Chr) (r : Reader) (ndelay : Bool) : Chr × Outcome :=
  let em := s.emsgs.slots s.emsgs.headIdx
  if em.valid then
    if em.exceeds r.cnt then (s, .eagain)
    else
      ({ s with
          emsgs :=
            { s.emsgs with
              slots := Function.update s.emsgs.slots s.emsgs.headIdx { em with msg := none, valid := false }
              headIdx := (s.emsgs.headIdx + 1) % NMSG }
          taken := s.taken ++ em.msg.toList }, .took em.len em.msg)
  else if ndelay then (s, .eagain)
  else ({ s with nblockedEmsgsReaders := s.nblockedEmsgsReaders + 1, calling := s.calling ++ [r] }, .pending)

/-- A semaphore passes its count to the first waiter, if there is one. -/
def up (s : Chr) : Chr :=
  match s.waiting with
  | [] => { s with count := s.count + 1 }
  | r :: rest => { s with waiting := rest, woken := s.woken ++ [r] }

def down (s : Chr) (r : Reader) (signal : Bool) : Chr :=
  if 0 < s.count then { s with count := s.count - 1, woken := s.woken ++ [r] }
  else if signal then { s with signalled := s.signalled ++ [r] }
  else { s with waiting := s.waiting ++ [r] }

/-- `none` where the event cannot happen. -/
def exec (s : Chr) : Event → Option (Chr × Outcome)
  | .error msg dup => some (s.error msg dup)
  | .test =>
    if s.testing = 0 then none
    else if s.nblockedEmsgsReaders = 0 then some ({ s with testing := s.testing - 1 }, .pending)
    else some ({ s with testing := s.testing - 1, raising := s.raising + 1 }, .pending)
  | .up => if s.raising = 0 then none else some ({ s with raising := s.raising - 1 }.up, .pending)
  | .read cnt ndelay => some (s.look ⟨cnt⟩ ndelay)
  | .down k signal =>
    match s.calling[k]? with
    | some r => some ({ s with calling := s.calling.eraseIdx k }.down r signal, .pending)
    | none => none
  | .signal k =>
    match s.waiting[k]? with
    | some r => some ({ s with waiting := s.waiting.eraseIdx k, signalled := s.signalled ++ [r] }, .pending)
    | none => none
  | .relock k ndelay =>
    match s.woken[k]? with
    | some r =>
      some ({ s with
          woken := s.woken.eraseIdx k
          nblockedEmsgsReaders := s.nblockedEmsgsReaders - 1 }.look r ndelay)
    | none => none
  | .restart k =>
    if k < s.signalled.length then
      some ({ s with
          signalled := s.signalled.eraseIdx k
          nblockedEmsgsReaders := s.nblockedEmsgsReaders - 1 }, .erestartsys)
    else none

/-- After `aoechr_init`. -/
def init : Chr :=
  { emsgs := ⟨fun _ => ⟨false, 0, none⟩, 0, 0⟩, nblockedEmsgsReaders := 0, count := 0, waiting := [], calling := []
    woken := [], signalled := [], testing := 0, raising := 0, stored := [], taken := [] }

def Step (s : Chr) (e : Event) (s' : Chr) : Prop := ∃ o, s.exec e = some (s', o)

def ReachedBy (ok : Chr → Event → Bool) : Chr → Prop := Reach (· = init) Step fun s e _ => ok s e

/-- Messages of less than 32768 bytes. -/
def shortMsgs (_ : Chr) : Event → Bool
  | .error msg _ => msg.length < 32768
  | _ => true

/-- A message waits in the ring. -/
def holdsMsg (s : Chr) : Bool := (List.range NMSG).any fun i => (s.emsgs.slots i).valid

/-- A reader sleeps while a message waits, and nothing under way will wake it. -/
def lostWakeup (s : Chr) : Bool :=
  s.holdsMsg && !s.waiting.isEmpty && s.count = 0 && s.woken.isEmpty && s.testing = 0 && s.raising = 0

/-- A reader that was woken has room for the message at the head, or no other reader is blocked. -/
def roomy (s : Chr) : Event → Bool
  | .relock k _ =>
    match s.woken[k]? with
    | some r =>
      let em := s.emsgs.slots s.emsgs.headIdx
      !(em.valid && em.exceeds r.cnt) || (s.waiting.isEmpty && s.calling.isEmpty)
    | none => true
  | _ => true

end Chr

end AoeDriver
