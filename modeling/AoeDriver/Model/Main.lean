import AoeDriver.Library.Machine

/-!
# Start and end of the module

The steps of `aoe_init` and `aoe_exit`, among the packets that arrive as long as the packet handler is registered. Of a
device only its slot number is kept, of a frame that of its device: it decides which completion queue `ktcomplete`
uses.
-/

namespace AoeDriver

open Machine

/-- An array that `aoecmd_init` allocates. -/
inductive Mem where
  | null
  | live
  | freed
deriving DecidableEq

/-- The next thing to do: in `aoe_init`, after one of its labels, in `aoe_exit`, or nothing. The steps of `aoecmd_init`
and `aoenet_init` stand for themselves, those of `aoecmd_exit` and `aoenet_exit` once for the unwinding and once for
`aoe_exit`. -/
inductive MainPc where
  | aoedevInit
  | aoechrInit
  | aoeblkInit
  | ktstartTx
  | devAddPack
  | zeroedPage
  | numOnlineCpus
  | allocIocq
  | allocKts
  | allocKtiowq
  | ktstart
  | registerBlkdev
  | running
  | failCmdStop
  | failFreeIocq
  | failFreeKts
  | failFreeKtiowq
  | failDevRemovePack
  | failSynchronize
  | failRest
  | exitTimer
  | exitDevRemovePack
  | exitSynchronize
  | exitCmdStop
  | exitFreeIocq
  | exitFreeKts
  | exitFreeKtiowq
  | exitRest
  | unloaded
deriving DecidableEq

/-- A packet handler in `ktcomplete`: in front of the queue, or in front of `wake_up`. -/
inductive Handler where
  | queue (aoeminor : Nat)
  | wake (id : Nat)
deriving DecidableEq

/-- What `ktcomplete` found when it used queue `id`; `up` tells whether `aoecmd_init` had succeeded and `aoecmd_exit`
had freed nothing yet. -/
structure Use where
  id : Nat
  ncpus : Nat
  iocq : Mem
  kts : Mem
  ktiowq : Mem
  up : Bool
deriving DecidableEq

/-- `devices` and `frames` are the slots of the known devices and of the frames outstanding, `handlers` the calls of
`ktcomplete` under way. `up` and `uses` are history. -/
structure AoeMain where
  pc : MainPc
  registered : Bool
  ncpus : Nat
  iocq : Mem
  kts : Mem
  ktiowq : Mem
  devices : List Nat
  frames : List Nat
  handlers : List Handler
  up : Bool
  uses : List Use

namespace AoeMain

inductive Event where
  /-- The next step; `ok` tells whether what can fail in it succeeds, `cpus` is the number of processors online. -/
  | step (ok : Bool) (cpus : Nat)
  /-- The module is removed. -/
  | exit
  /-- A config response from slot `aoeminor`, answered with an identify command. -/
  | cfgRsp (aoeminor : Nat)
  /-- Device number `k` sends a frame. -/
  | send (k : Nat)
  /-- Frame number `k` is given up. -/
  | lose (k : Nat)
  /-- An ATA response that completes frame number `k`. -/
  | ataRsp (k : Nat)
  /-- Handler number `k` goes on in `ktcomplete`. -/
  | ktcomplete (k : Nat)

def use (s : AoeMain) (id : Nat) : Use := ⟨id, s.ncpus, s.iocq, s.kts, s.ktiowq, s.up⟩

def go (s : AoeMain) (pc : MainPc) : AoeMain := { s with pc := pc }

/-- `aoecmd_init` fails: what it allocated is freed. -/
def undoCmd (s : AoeMain) : AoeMain :=
  let free (m : Mem) : Mem := if m = .live then .freed else m
  { s with iocq := free s.iocq, kts := free s.kts, ktiowq := free s.ktiowq, pc := .failDevRemovePack }

/-- `dev_remove_pack` waits for the handlers under way. -/
def synchronize (s : AoeMain) (pc : MainPc) : Option AoeMain := if s.handlers = [] then some (s.go pc) else none

def step (s : AoeMain) (ok : Bool) (cpus : Nat) : Option AoeMain :=
  match s.pc with
  | .aoedevInit => some (s.go (if ok then .aoechrInit else .unloaded))
  | .aoechrInit => some (s.go (if ok then .aoeblkInit else .failRest))
  | .aoeblkInit => some (s.go (if ok then .ktstartTx else .failRest))
  | .ktstartTx => some (s.go (if ok then .devAddPack else .failRest))
  | .devAddPack => some { s with registered := true, pc := .zeroedPage }
  | .zeroedPage => some (if ok then s.go .numOnlineCpus else s.undoCmd)
  | .numOnlineCpus => if cpus = 0 then none else some { s with ncpus := cpus, pc := .allocIocq }
  | .allocIocq => some (if ok then { s with iocq := .live, pc := .allocKts } else s.undoCmd)
  | .allocKts => some (if ok then { s with kts := .live, pc := .allocKtiowq } else s.undoCmd)
  | .allocKtiowq => some (if ok then { s with ktiowq := .live, pc := .ktstart } else s.undoCmd)
  | .ktstart => some (if ok then { s with up := true, pc := .registerBlkdev } else s.undoCmd)
  | .registerBlkdev => some (s.go (if ok then .running else .failCmdStop))
  | .running => none
  | .failCmdStop => some (s.go .failFreeIocq)
  | .failFreeIocq => some { s with iocq := .freed, up := false, pc := .failFreeKts }
  | .failFreeKts => some { s with kts := .freed, pc := .failFreeKtiowq }
  | .failFreeKtiowq => some { s with ktiowq := .freed, pc := .failDevRemovePack }
  | .failDevRemovePack => some { s with registered := false, pc := .failSynchronize }
  | .failSynchronize => s.synchronize .failRest
  | .failRest => some (s.go .unloaded)
  | .exitTimer => some (s.go .exitDevRemovePack)
  | .exitDevRemovePack => some { s with registered := false, pc := .exitSynchronize }
  | .exitSynchronize => s.synchronize .exitCmdStop
  | .exitCmdStop => some (s.go .exitFreeIocq)
  | .exitFreeIocq => some { s with iocq := .freed, up := false, pc := .exitFreeKts }
  | .exitFreeKts => some { s with kts := .freed, pc := .exitFreeKtiowq }
  | .exitFreeKtiowq => some { s with ktiowq := .freed, pc := .exitRest }
  | .exitRest => some (s.go .unloaded)
  | .unloaded => none

/-- `none` where the event cannot happen. -/
def exec (s : AoeMain) : Event → Option AoeMain
  | .step ok cpus => s.step ok cpus
  | .exit => if s.pc = .running then some (s.go .exitTimer) else none
  | .cfgRsp aoeminor =>
    if s.registered then some { s with devices := s.devices ++ [aoeminor], frames := s.frames ++ [aoeminor] } else none
  | .send k => (s.devices[k]?).map fun aoeminor => { s with frames := s.frames ++ [aoeminor] }
  | .lose k => if k < s.frames.length then some { s with frames := s.frames.eraseIdx k } else none
  | .ataRsp k =>
    if s.registered then
      (s.frames[k]?).map fun aoeminor =>
        { s with frames := s.frames.eraseIdx k, handlers := s.handlers ++ [.queue aoeminor] }
    else none
  | .ktcomplete k =>
    match s.handlers[k]? with
    | some (.queue aoeminor) =>
      let id := aoeminor % s.ncpus
      some { s with handlers := s.handlers.set k (.wake id), uses := s.uses ++ [s.use id] }
    | some (.wake id) => some { s with handlers := s.handlers.eraseIdx k, uses := s.uses ++ [s.use id] }
    | none => none

/-- The module has just been loaded. -/
def init : AoeMain :=
  { pc := .aoedevInit, registered := false, ncpus := 0, iocq := .null, kts := .null, ktiowq := .null, devices := []
    frames := [], handlers := [], up := false, uses := [] }

def Step (s : AoeMain) (e : Event) (s' : AoeMain) : Prop := s.exec e = some s'

def ReachedBy (ok : AoeMain → Event → Bool) : AoeMain → Prop := Reach (· = init) Step fun s e _ => ok s e

/-- A response is matched to a frame only once `aoecmd_init` has succeeded and before the queues are being freed, and
none is on its way to them when `aoecmd_exit` frees them in the unwinding. -/
def quietStart (s : AoeMain) : Event → Bool
  | .ataRsp _ => s.up
  | .step _ _ => s.pc ≠ .failFreeIocq || s.handlers.isEmpty
  | _ => true

end AoeMain

end AoeDriver
