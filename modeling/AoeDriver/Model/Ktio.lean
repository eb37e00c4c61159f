import AoeDriver.Library.Machine

/-!
# Completion threads

The queues `iocq`, the threads `ktio` that serve them, and the two places that add to a queue or empty it without
being one of these threads: `ktcomplete` and `aoecmd_exit`. They are shared by all devices, so this machine
stands beside the one of a single device: of a frame it knows the number and the slot of its device. An event is a
stretch of code under one lock, or one that touches nothing shared.
-/

namespace AoeDriver

open Machine

/-- `aoeminor` is that of `f->t->d`. -/
structure IoFrame where
  id : Nat
  aoeminor : Nat
deriving DecidableEq, Inhabited

/-- Where the thread of a queue stands: not started, in `kthread` or at the head of the loop of `ktio`, in
`ktiocomplete`, behind it, waiting for `ktio_spawn_lock`, with a thread started whose flag is not yet set, or stopped. -/
inductive Worker where
  | absent
  | idle
  | completing (f : IoFrame)
  | checking (f : IoFrame)
  | spawning (actualId : Nat)
  | starting (actualId : Nat)
  | stopped
deriving DecidableEq

/-- The loops of `aoecmd_exit`, at index `i`. -/
inductive ExitPc where
  | running
  | stopping (i : Nat)
  | flushing (i : Nat)
  | done
deriving DecidableEq

/-- How a frame left its queue: to the thread of queue `id`, or in `aoe_flush_iocq`. -/
inductive Via where
  | ktio (id : Nat)
  | flush
deriving DecidableEq

/-- A frame appended to a queue, and whether the thread of the queue had been started. -/
structure Appended where
  queue : Nat
  frame : IoFrame
  started : Bool
deriving DecidableEq

/-- A frame taken from a queue, and whether all threads had been stopped. -/
structure Removed where
  queue : Nat
  frame : IoFrame
  via : Via
  stopped : Bool
deriving DecidableEq

/-- `spawnLock` is the holder of `ktio_spawn_lock`, `diverted` are calls of `ktcomplete` between their two locks,
and the last three fields are history: whether `BUG_ON` fired, and what was added to and taken from the queues. -/
structure Ktio where
  ncpus : Nat
  active : Nat → Bool
  worker : Nat → Worker
  iocq : Nat → List IoFrame
  spawnLock : Option Nat
  diverted : List IoFrame
  exitPc : ExitPc
  bugOn : Bool
  appended : List Appended
  removed : List Removed

namespace Ktio

inductive Event where
  /-- `ktcomplete` under the lock of the queue it wants. -/
  | ktcomplete (f : IoFrame)
  /-- Diverted call number `k` under the lock of queue 0. -/
  | divert (k : Nat)
  | take (id : Nat)
  | completed (id : Nat)
  | check (id : Nat)
  /-- With `ktio_spawn_lock`, up to the end of `aoe_ktstart`, which succeeds or not. -/
  | spawn (id : Nat) (ok : Bool)
  | activate (id : Nat)
  /-- `aoecmd_exit` is called. -/
  | exit
  | stop
  | flush

def started (s : Ktio) (id : Nat) : Bool := s.worker id ≠ .absent

/-- Every thread that was started has been stopped. -/
def allStopped (s : Ktio) : Bool := (List.range s.ncpus).all fun i => s.worker i = .absent || s.worker i = .stopped

def append (s : Ktio) (id : Nat) (f : IoFrame) : Ktio :=
  { s with
    iocq := Function.update s.iocq id (s.iocq id ++ [f])
    appended := s.appended ++ [⟨id, f, s.started id⟩] }

def setWorker (s : Ktio) (id : Nat) (w : Worker) : Ktio := { s with worker := Function.update s.worker id w }

def ktcomplete (s : Ktio) (f : IoFrame) : Ktio :=
  let id := f.aoeminor % s.ncpus
  if s.active id then s.append id f else { s with diverted := s.diverted ++ [f] }

/-- The thread of queue `id` takes the first frame. -/
def take (s : Ktio) (id : Nat) : Option Ktio :=
  match s.worker id, s.iocq id with
  | .idle, f :: rest =>
    some { s.setWorker id (.completing f) with
      iocq := Function.update s.iocq id rest
      removed := s.removed ++ [⟨id, f, .ktio id, s.allStopped⟩] }
  | _, _ => none

/-- Behind `ktiocomplete`: is there a thread for the device of this frame? -/
def check (s : Ktio) (id : Nat) : Option Ktio :=
  match s.worker id with
  | .checking f =>
    let actualId := f.aoeminor % s.ncpus
    if s.active actualId then some (s.setWorker id .idle)
    else some { s.setWorker id (.spawning actualId) with bugOn := s.bugOn || id != 0 }
  | _ => none

def spawn (s : Ktio) (id : Nat) (ok : Bool) : Option Ktio :=
  match s.worker id, s.spawnLock with
  | .spawning actualId, none =>
    if s.active actualId || !ok then some (s.setWorker id .idle)
    else some { (s.setWorker actualId .idle).setWorker id (.starting actualId) with spawnLock := some id }
  | _, _ => none

def activate (s : Ktio) (id : Nat) : Option Ktio :=
  match s.worker id with
  | .starting actualId =>
    some { s.setWorker id .idle with active := Function.update s.active actualId true, spawnLock := none }
  | _ => none

/-- One round of the first loop of `aoecmd_exit`; `aoe_ktstop` waits until the thread has left `ktio`. -/
def stop (s : Ktio) : Option Ktio :=
  match s.exitPc with
  | .stopping i =>
    if i < s.ncpus then
      if s.active i then
        if s.worker i = .idle then some { s.setWorker i .stopped with exitPc := .stopping (i + 1) } else none
      else some { s with exitPc := .stopping (i + 1) }
    else some { s with exitPc := .flushing 0 }
  | _ => none

/-- One round of the loop of `aoe_flush_iocq`. -/
def flush (s : Ktio) : Option Ktio :=
  match s.exitPc with
  | .flushing i =>
    if i < s.ncpus then
      if s.active i then
        some { s with
          iocq := Function.update s.iocq i []
          removed := s.removed ++ (s.iocq i).map fun f => ⟨i, f, .flush, s.allStopped⟩
          exitPc := .flushing (i + 1) }
      else some { s with exitPc := .flushing (i + 1) }
    else some { s with exitPc := .done }
  | _ => none

/-- `none` where the event cannot happen. -/
def exec (s : Ktio) : Event → Option Ktio
  | .ktcomplete f => some (s.ktcomplete f)
  | .divert k =>
    match s.diverted[k]? with
    | some f => some ({ s with diverted := s.diverted.eraseIdx k }.append 0 f)
    | none => none
  | .take id => s.take id
  | .completed id =>
    match s.worker id with
    | .completing f => some (s.setWorker id (.checking f))
    | _ => none
  | .check id => s.check id
  | .spawn id ok => s.spawn id ok
  | .activate id => s.activate id
  | .exit => if s.exitPc = .running then some { s with exitPc := .stopping 0 } else none
  | .stop => s.stop
  | .flush => s.flush

/-- After a successful `aoecmd_init`. -/
def init (ncpus : Nat) : Ktio :=
  { ncpus, active := fun i => i = 0, worker := fun i => if i = 0 then .idle else .absent, iocq := fun _ => []
    spawnLock := none, diverted := [], exitPc := .running, bugOn := false, appended := [], removed := [] }

def Initial (s : Ktio) : Prop := ∃ ncpus, 0 < ncpus ∧ s = init ncpus

def Step (s : Ktio) (e : Event) (s' : Ktio) : Prop := s.exec e = some s'

def ReachedBy (ok : Ktio → Event → Bool) : Ktio → Prop := Reach Initial Step fun s e _ => ok s e

/-- Queue `id` has not been flushed. -/
def unflushed (s : Ktio) (id : Nat) : Bool :=
  match s.exitPc with
  | .flushing i => i ≤ id
  | .done => false
  | _ => true

/-- `ktcomplete` adds no frame to a queue that `aoe_flush_iocq` is done with. -/
def quietExit (s : Ktio) : Event → Bool
  | .ktcomplete f => !s.active (f.aoeminor % s.ncpus) || s.unflushed (f.aoeminor % s.ncpus)
  | .divert _ => s.unflushed 0
  | _ => true

end Ktio

end AoeDriver
