import AoeDriver.Library.Machine

/-!
# Kernel threads

`kthread` calls `k->fn` until it is told to stop, and sleeps on `k->waitq` when there is nothing left to do. It runs
`tx`, which sends the packets of `skbtxq`, and `ktio`, which completes the frames of one `iocq`. Both take what is first
in their queue under `k->lock` and work on it without the lock. The queue is filled by calls of `aoenet_xmit`, with a
chain of packets, and of `ktcomplete`, with one frame. An event is the code under `k->lock`, one operation on the wait
queue or on the task, or the work on one item.
-/

namespace AoeDriver

open Machine

/-- Where the thread stands: in front of `spin_lock_irq` with `i` items behind it in this call of `fn`, at work on an item,
in front of `schedule`, in it, behind it, in front of `kthread_should_stop`, or at its end. -/
inductive KthreadPc (α : Type) where
  | locking (i : Nat)
  | working (a : α) (i : Nat)
  | armed
  | asleep
  | woken
  | checking
  | exited

/-- A call that fills the queue, with what it has yet to add; `wake` if it stands in front of `wake_up`. -/
structure Poster (α : Type) where
  rest : List α
  wake : Bool

/-- `interruptible` is `TASK_INTERRUPTIBLE`, `aoeMaxioc` is 0 for `tx`, which has no such limit, and `posters` are the
calls under way by their number. The last six fields are history: the chains handed over, what was queued by which
call, what was done, what was purged and how much had been queued by then, and whether the thread was in `fn` when it
was told to stop. -/
structure Kthread (α : Type) where
  queue : List α
  pc : KthreadPc α
  interruptible : Bool
  shouldStop : Bool
  aoeMaxioc : Int
  posters : Nat → Option (Poster α)
  chains : List (List α)
  puts : List (Nat × α)
  done : List α
  purged : List α
  purgedAt : Option Nat
  stoppedInFn : Bool

namespace Kthread

variable {α : Type}

inductive Event (α : Type) where
  /-- `aoenet_xmit` or `ktcomplete` is called. -/
  | post (chain : List α)
  /-- Call `c` adds its first item under the lock. -/
  | put (c : Nat)
  /-- Call `c` in `wake_up`. -/
  | wakeUp (c : Nat)
  /-- From `spin_lock_irq` to the next `spin_unlock_irq`. -/
  | lock
  | work
  | schedule
  | removeWaitQueue
  | check
  /-- `kthread_stop`. -/
  | stop
  /-- `skb_queue_purge` or `aoe_flush_iocq_by_index`, after `aoe_ktstop`. -/
  | purge
  | maxioc (n : Int)

/-- The task is woken up, whether or not it has got as far as sleeping. -/
def wake (s : Kthread α) : Kthread α :=
  match s.pc with
  | .armed => { s with interruptible := false }
  | .asleep => { s with pc := .woken, interruptible := false }
  | _ => s

def inFn (s : Kthread α) : Bool :=
  match s.pc with
  | .locking _ | .working _ _ => true
  | _ => false

def setPoster (s : Kthread α) (c : Nat) (p : Option (Poster α)) : Kthread α :=
  { s with posters := Function.update s.posters c p }

def put (s : Kthread α) (c : Nat) : Option (Kthread α) :=
  match s.posters c with
  | some ⟨a :: rest, false⟩ =>
    some { s.setPoster c (some ⟨rest, true⟩) with queue := s.queue ++ [a], puts := s.puts ++ [(c, a)] }
  | _ => none

/-- The call goes on with the next item or returns. -/
def wakeUp (s : Kthread α) (c : Nat) : Option (Kthread α) :=
  match s.posters c with
  | some ⟨rest, true⟩ => some (s.wake.setPoster c (if rest.isEmpty then none else some ⟨rest, false⟩))
  | _ => none

/-- The head of the loop of `fn`; where it returns 0, the thread goes on the wait queue before it releases the lock. -/
def lock (s : Kthread α) : Option (Kthread α) :=
  match s.pc with
  | .locking i =>
    if s.aoeMaxioc ≠ 0 ∧ s.aoeMaxioc ≤ i then some { s with pc := .checking }
    else
      match s.queue with
      | [] => some { s with pc := .armed, interruptible := true }
      | a :: q => some { s with pc := .working a i, queue := q }
  | _ => none

def work (s : Kthread α) : Option (Kthread α) :=
  match s.pc with
  | .working a i => some { s with pc := .locking (i + 1), done := s.done ++ [a] }
  | _ => none

/-- `schedule` returns at once to a task that has been woken up. -/
def schedule (s : Kthread α) : Option (Kthread α) :=
  match s.pc with
  | .armed => some { s with pc := if s.interruptible then .asleep else .woken }
  | _ => none

def removeWaitQueue (s : Kthread α) : Option (Kthread α) :=
  match s.pc with
  | .woken => some { s with pc := .checking }
  | _ => none

def check (s : Kthread α) : Option (Kthread α) :=
  match s.pc with
  | .checking => some { s with pc := if s.shouldStop then .exited else .locking 0 }
  | _ => none

def purge (s : Kthread α) : Option (Kthread α) :=
  match s.pc, s.purgedAt with
  | .exited, none => some { s with queue := [], purged := s.queue, purgedAt := some s.puts.length }
  | _, _ => none

/-- `none` where the event cannot happen. -/
def exec (s : Kthread α) : Event α → Option (Kthread α)
  | .post chain =>
    some { s.setPoster s.chains.length (if chain.isEmpty then none else some ⟨chain, false⟩) with
      chains := s.chains ++ [chain] }
  | .put c => s.put c
  | .wakeUp c => s.wakeUp c
  | .lock => s.lock
  | .work => s.work
  | .schedule => s.schedule
  | .removeWaitQueue => s.removeWaitQueue
  | .check => s.check
  | .stop => if s.shouldStop then none else some { s.wake with shouldStop := true, stoppedInFn := s.inFn }
  | .purge => s.purge
  | .maxioc n => some { s with aoeMaxioc := n }

/-- After `aoe_ktstart`. -/
def init (aoeMaxioc : Int) : Kthread α :=
  { queue := [], pc := .locking 0, interruptible := false, shouldStop := false, aoeMaxioc, posters := fun _ => none, chains := []
    puts := [], done := [], purged := [], purgedAt := none, stoppedInFn := false }

def Initial (s : Kthread α) : Prop := ∃ n, s = init n

def Step (s : Kthread α) (e : Event α) (s' : Kthread α) : Prop := s.exec e = some s'

def Reached : Kthread α → Prop := Reach Initial Step fun _ _ _ => True

/-- The item in the hands of the thread. -/
def hand (s : Kthread α) : List α :=
  match s.pc with
  | .working a _ => [a]
  | _ => []

/-- What call `c` has yet to queue. -/
def rest (s : Kthread α) (c : Nat) : List α := (s.posters c).elim [] Poster.rest

end Kthread

/-- A packet, and whether it has `AOEAFL_WRITE` in `aflags`. -/
structure TxSkb where
  id : Nat
  write : Bool
deriving DecidableEq

/-- `memalloc` is `PF_MEMALLOC` of the thread; `xmits` is history, the packets given to `dev_queue_xmit` with the flag at
that time. -/
structure Tx where
  thread : Kthread TxSkb
  memalloc : Bool
  xmits : List (TxSkb × Bool)

namespace Tx

/-- `tx` around `dev_queue_xmit`: the flag during the call, and after it. -/
def send (memalloc : Bool) (skb : TxSkb) : Bool × Bool :=
  let changef := if memalloc then false else skb.write
  let during := if changef then true else memalloc
  (during, if changef then false else during)

def exec (s : Tx) (e : Kthread.Event TxSkb) : Option Tx :=
  (s.thread.exec e).map fun t =>
    match e, s.thread.pc with
    | .work, .working skb _ =>
      { thread := t, memalloc := (send s.memalloc skb).2, xmits := s.xmits ++ [(skb, (send s.memalloc skb).1)] }
    | _, _ => { s with thread := t }

/-- After `aoenet_init`. -/
def init : Tx := { thread := Kthread.init 0, memalloc := false, xmits := [] }

def Step (s : Tx) (e : Kthread.Event TxSkb) (s' : Tx) : Prop := s.exec e = some s'

def Reached : Tx → Prop := Reach (· = init) Step fun _ e _ => ∀ n, e ≠ .maxioc n

end Tx

end AoeDriver
