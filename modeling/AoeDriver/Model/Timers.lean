import AoeDriver.Model.System
import AoeDriver.Library.Machine

/-!
# The timers of the driver

The module has a timer that asks for devices once a minute, and each device one that starts as `dummy_timer` and becomes
`rexmit_timer` with the first identify command. Both add themselves again. The kernel runs the handler of a timer on one
processor at a time, and `del_timer_sync` takes the timer out once no handler runs.
-/

namespace AoeDriver

open Machine

/-- Where `aoe_init` and `aoe_exit` stand: in front of `discover_timer(TINIT)`, in its `aoecmd_cfg`, between the two, in
front of `del_timer_sync`, behind it. -/
inductive DiscoverPc where
  | tinit
  | cfg
  | running
  | delTimer
  | killed
deriving DecidableEq

/-- Where the handler stands, which is `discover_timer(TRUN)`. -/
inductive TrunPc where
  | lock
  | cfg
deriving DecidableEq

/-- `adds` and `cfgs` are history: whether the timer was pending at a call of `add_timer`, and whether `TKILL` was through
at a call of `aoecmd_cfg`. -/
structure DiscoverTimer where
  die : Bool
  pending : Bool
  handler : Option TrunPc
  main : DiscoverPc
  adds : List Bool
  cfgs : List Bool
deriving DecidableEq

namespace DiscoverTimer

inductive Event where
  /-- The next step of `aoe_init` or `aoe_exit`. -/
  | main
  /-- The timer expires. -/
  | fire
  | handler

/-- The section of `TRUN` under the lock. -/
def trun (s : DiscoverTimer) : DiscoverTimer :=
  if s.die then s else { s with pending := true, adds := s.adds ++ [s.pending] }

def aoecmdCfg (s : DiscoverTimer) : DiscoverTimer := { s with cfgs := s.cfgs ++ [decide (s.main = .killed)] }

/-- `none` where the event cannot happen. -/
def exec (s : DiscoverTimer) : Event → Option DiscoverTimer
  | .main =>
    match s.main with
    | .tinit => some { trun { s with die := false } with main := .cfg }
    | .cfg => some { s.aoecmdCfg with main := .running }
    | .running => some { s with die := true, main := .delTimer }
    | .delTimer => if s.handler = none then some { s with pending := false, main := .killed } else none
    | .killed => none
  | .fire =>
    if s.pending ∧ s.handler = none then some { s with pending := false, handler := some .lock } else none
  | .handler =>
    match s.handler with
    | some .lock => some { s.trun with handler := some .cfg }
    | some .cfg => some { s.aoecmdCfg with handler := none }
    | none => none

def init : DiscoverTimer := ⟨false, false, none, .tinit, [], []⟩

def Step (s : DiscoverTimer) (e : Event) (s' : DiscoverTimer) : Prop := s.exec e = some s'

def Reached : DiscoverTimer → Prop := Reach (· = init) Step fun _ _ _ => True

end DiscoverTimer

/-- Where a handler stands: in front of the test of `dummy_timer`, of its `add_timer`, of the lock of `rexmit_timer`. -/
inductive TimerPc where
  | dummyTest
  | dummyAdd
  | rexmit
deriving DecidableEq

/-- Where a call of `freedev` stands: in front of the section that sets `DEVFL_FREEING`, of `del_timer_sync`, of the
release of the targets, of the section that sets `DEVFL_FREED`. -/
inductive FreedevPc where
  | gate
  | delTimer
  | release
  | mark
deriving DecidableEq

/-- A device, its timer, and the calls of `freedev` for it. The last three fields are history: how often the targets were
released, whether the timer was pending at a call of `add_timer`, and whether the targets had been released when a
handler looked at the device. -/
structure TimedDev where
  dev : Aoedev
  pending : Bool
  handler : Option TimerPc
  freeing : Bool
  freed : Bool
  calls : List FreedevPc
  releases : Nat
  adds : List Bool
  looks : List Bool

namespace TimedDev

inductive Event where
  /-- Anything that happens to the device but its timer. -/
  | dev (e : AoeDriver.Event)
  /-- The timer expires. -/
  | fire
  | handler (env : Env)
  /-- The second pass of a call of `flush` finds the device. -/
  | freedev
  /-- The next section of call `i` of `freedev`. -/
  | call (i : Nat)

/-- `rexmit_timer` is in `d->timer.function` from the first identify command on. -/
def function (s : TimedDev) : TimerPc := if s.dev.rexmitArmed then .rexmit else .dummyTest

def addTimer (s : TimedDev) : TimedDev := { s with pending := true, adds := s.adds ++ [s.pending] }

def look (s : TimedDev) : TimedDev := { s with looks := s.looks ++ [decide (s.releases ≠ 0)] }

/-- The next step of the handler. -/
def runHandler (s : TimedDev) (env : Env) : TimerPc → TimedDev
  | .dummyTest => { s.look with handler := if s.dev.flags.tkill then none else some .dummyAdd }
  | .dummyAdd => { s.look.addTimer with handler := none }
  | .rexmit =>
    if s.dev.flags.tkill then { s.look with handler := none }
    else { s.look.addTimer with dev := rexmitTimer { s.dev with env := env }, handler := none }

/-- Marked with `DEVFL_TKILL` and not with `DEVFL_FREEING`. -/
def doomed (s : TimedDev) : Bool := s.dev.flags.tkill && !s.freeing

/-- `none` where `del_timer_sync` waits. -/
def runCall (s : TimedDev) (i : Nat) : FreedevPc → Option TimedDev
  | .gate =>
    some (if s.doomed then { s with freeing := true, calls := s.calls.set i .delTimer }
      else { s with calls := s.calls.eraseIdx i })
  | .delTimer => if s.handler = none then some { s with pending := false, calls := s.calls.set i .release } else none
  | .release => some { s with releases := s.releases + 1, calls := s.calls.set i .mark }
  | .mark => some { s with freed := true, calls := s.calls.eraseIdx i }

/-- The device's own events are not looked at after its targets are released. -/
def execDev (s : TimedDev) (e : AoeDriver.Event) : Option TimedDev :=
  match e with
  | .rexmitTimer _ => none
  | e =>
    if s.releases = 0 then ((AoeDriver.exec s.dev e).filter (!·.crashed)).map fun d => { s with dev := d } else none

/-- `none` where the event cannot happen. -/
def exec (s : TimedDev) : Event → Option TimedDev
  | .dev e => s.execDev e
  | .fire =>
    if s.pending ∧ s.handler = none then some { s with pending := false, handler := some s.function } else none
  | .handler env => (s.handler.map (s.runHandler env)).filter (!·.dev.crashed)
  | .freedev => if s.doomed then some { s with calls := s.calls ++ [.gate] } else none
  | .call i => s.calls[i]?.bind (s.runCall i)

/-- `aoedev_by_aoeaddr` has made the device and added its timer. -/
def Initial (s : TimedDev) : Prop := ∃ aoemajor aoeminor ncpus deadsecs maxout clock c,
  s = ⟨initial aoemajor aoeminor ncpus deadsecs maxout clock c, true, none, false, false, [], 0, [], []⟩

def Step (s : TimedDev) (e : Event) (s' : TimedDev) : Prop := s.exec e = some s'

def Reached : TimedDev → Prop := Reach Initial Step fun _ _ _ => True

end TimedDev

end AoeDriver
