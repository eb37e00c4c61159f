import AoeDriver.Run.Events
import AoeDriver.Library.Machine

/-!
# Reachable states

The states between two critical sections of a device, from its discovery on. The ledger balances in all of them and
the books agree with it; further properties of the ledger and the books are carried along by two induction rules.
-/

namespace AoeDriver

open Machine

/-- The states a device starts from. -/
def Initial (d : Aoedev) : Prop := ∃ aoemajor aoeminor ncpus deadsecs maxout clock c,
  d = initial aoemajor aoeminor ncpus deadsecs maxout clock c

/-- States with `d->lock` free, reached by events that meet a guard. -/
def ReachedBy (ok : Aoedev → Event → Aoedev → Prop) (d : Aoedev) : Prop := Reach Initial Step ok d

def Reached (d : Aoedev) : Prop := ReachedBy (fun _ _ _ => True) d

section Initial

variable {d : Aoedev}

theorem initial_ledger (hd : Initial d) : (d.ledger 0).slots = [] ∧ (d.ledger 0).all = 0 ∧
    (d.ledger 0).active = 0 ∧ (d.ledger 0).inPlay = 0 := by
  obtain ⟨a, b, n, s, m, clock, c, rfl⟩ := hd
  have hempty : Tables.contents (fun _ : Fin NFACTIVE => ([] : List Frame)) = 0 := by simp [Tables.contents_eq_sum]
  have hactive : ((initial a b n s m clock c).ledger 0).active = 0 := by
    change Tables.contents (fun _ : Fin NFACTIVE => ([] : List Frame)) + 0 = 0
    rw [hempty, add_zero]
  have hplay : ((initial a b n s m clock c).ledger 0).inPlay = 0 := by
    rw [Ledger.inPlay, Ledger.pending, hactive]
    rfl
  refine ⟨rfl, ?_, hactive, hplay⟩
  rw [Ledger.all, hplay]
  rfl

theorem initial_good (hd : Initial d) : Good 0 d := by
  obtain ⟨hslots, hall, hactive, hplay⟩ := initial_ledger hd
  refine ⟨?_, ?_, ?_⟩
  · have hkeys : (d.ledger 0).keys = 0 := by rw [Ledger.keys, hall, Multiset.map_zero]
    have hslot (i : ℕ) : (d.ledger 0).slot i = default := by simp [Ledger.slot, hslots]
    refine ⟨by simp [hkeys], by simp [hkeys], by simp [hslots], ?_, ?_, ?_, by simp [hslots], by simp [hplay]⟩
    · intro i
      rw [hslot]
      exact Nat.zero_le _
    · intro i f hf
      rw [hslot] at hf
      exact absurd hf (Multiset.notMem_zero f)
    · intro i
      rw [hslot, hactive]
      rfl
  · have hrefs : (stage 0 d).refs = 0 := by
      have hpending : (d.ledger 0).pending = 0 := (add_eq_zero.mp hplay).1
      have hlate : (d.ledger 0).late = 0 := (add_eq_zero.mp hplay).2
      rw [Stage.refs, stage, hpending, hlate]
      rfl
    rw [hrefs]
    obtain ⟨a, b, n, s, m, clock, c, rfl⟩ := hd
    have hip : (default : InProcess) = ⟨none, none, none⟩ := rfl
    have hhist : (default : Hist).ended = [] ∧ (default : Hist).taken = [] ∧ (default : Hist).underflow = [] :=
      ⟨rfl, rfl, rfl⟩
    refine ⟨?_, by simp [initial, Aoedev.blk], by simp [initial, Aoedev.blk]⟩
    constructor <;> simp [initial, Aoedev.blk, hip, hhist]
  · rw [hslots]
    obtain ⟨a, b, n, s, m, clock, c, rfl⟩ := hd
    exact ⟨⟨0, by norm_num, rfl⟩, by simp⟩

private theorem initial_hashed (hd : Initial d) : d.Hashed := by
  obtain ⟨a, b, n, s, m, clock, c, rfl⟩ := hd
  intro n f hf
  exact absurd hf (by simp [initial])

end Initial

section Rules

variable {C : Cond} {ok : Aoedev → Event → Aoedev → Prop} {d : Aoedev}

theorem reachedBy_good (h : ReachedBy ok d) : Good 0 d ∧ d.Hashed := by
  refine Reach.invariant (P := fun d => Good 0 d ∧ d.Hashed) ?_ ?_ h
  · exact fun s hs => ⟨initial_good hs, initial_hashed hs⟩
  · intro s e s' _ hg _ hstep
    have hr := exec_runs hg.1 (Cond.meets_any s e) hstep.1
    exact ⟨hr.good hg.1, hr.hashed hg.2⟩

theorem reachedBy_ledger {P : Ledger → Prop} (hok : ∀ s e s', ok s e s' → C.Meets s e)
    (hinit : ∀ s, Initial s → P (s.ledger 0)) (hshift : ∀ l l', Shift C l l' → l.Inv → P l → P l')
    (h : ReachedBy ok d) : P (d.ledger 0) := by
  have hshifts {l l' : Ledger} (hs : Shifts C l l') (hi : l.Inv) (hp : P l) : P l' := by
    induction hs with
    | refl => exact hp
    | tail hs hstep ih => exact hshift _ _ hstep (Shifts.inv hs hi) ih
  refine Reach.invariant (P := fun d => P (d.ledger 0)) hinit ?_ h
  intro s e s' hs hp hguard hstep
  have hg := (reachedBy_good hs).1
  exact hshifts (exec_runs hg (hok s e s' hguard) hstep.1).shifts hg.inv hp

theorem reachedBy_stage {P : Stage → Prop} (hinit : ∀ s, Initial s → P (stage 0 s))
    (hpost : ∀ s s', Post s s' → Books s.dev.blk s.refs → P s → P s') (h : ReachedBy ok d) : P (stage 0 d) := by
  have hposts {s s' : Stage} (hs : Posts s s') (hb : Books s.dev.blk s.refs) (hp : P s) : P s' := by
    induction hs with
    | refl => exact hp
    | tail hs hstep ih => exact hpost _ _ hstep (Posts.books hs hb) ih
  refine Reach.invariant (P := fun d => P (stage 0 d)) hinit ?_ h
  intro s e s' hs hp _ hstep
  have hg := (reachedBy_good hs).1
  exact hposts (exec_runs hg (Cond.meets_any s e) hstep.1).posts hg.books hp

end Rules

/-- One event, refused where it cannot happen, where it does not meet the guard and where it follows a NULL pointer. -/
def advance (ok : Aoedev → Event → Bool) (d : Aoedev) (e : Event) : Option Aoedev :=
  if ok d e then (exec d e).filter (!·.crashed) else none

def unguarded (_ : Aoedev) (_ : Event) : Bool := true

/-- The last state of a run, if all its events can happen. -/
def runFrom (ok : Aoedev → Event → Bool) (d : Aoedev) (es : List Event) : Option Aoedev := execute (advance ok) d es

private theorem reachedBy_runFrom {ok : Aoedev → Event → Bool} {s d : Aoedev} (es : List Event) (hs : Initial s)
    (hrun : runFrom ok s es = some d) : ReachedBy (fun d e _ => ok d e) d := by
  refine Reach.guarded (fun d e => (exec d e).filter (!·.crashed)) ok ?_ es (.init hs) hrun
  intro d e d' h
  obtain ⟨hexec, hcrash⟩ := Option.filter_eq_some_iff.mp h
  exact ⟨hexec, by simpa using hcrash⟩

def sampleNd : NetDev := ⟨1, 5⟩

def sampleCfg : CfgRsp := { src := 1, dev := sampleNd, mtu := 1500, bufcnt := 64, fwver := 0, scnt := 2 }

def sampleStart : Aoedev := initial 1 2 4 180 128 ⟨10^9, 500000, 1000⟩ sampleCfg

theorem sampleStart_initial : Initial sampleStart := ⟨_, _, _, _, _, _, _, rfl⟩

/-- A response to the command sent under the `n`-th tag, with the size of the disk for an identify command. -/
def sampleRsp (n size : Nat) : Rsp :=
  { src := 1, dev := sampleNd, tag := 500000 % 2^16 + n * 2^16, cmdstat := 0x50
    payload := (List.range 512).map fun i => if i = 120 then .ofNat 8 size else if i = 121 then .ofNat 8 (size / 256) else 0 }

/-- Thread `i` takes `n` steps and every allocation succeeds. -/
def sampleRun (i n : Nat) : List Event := List.replicate n (.run i default)

/-- The identify command is answered, and the thread of queue `q` takes the response. -/
def sampleIdent (q n size : Nat) : List Event := .ataRsp (sampleRsp n size) :: sampleRun 0 2 ++ .ktioTake q :: sampleRun 0 5

/-- The device is found and its disk installed. -/
def sampleUp : List Event := sampleRun 0 2 ++ sampleIdent 0 1 256 ++ .sleepwork :: sampleRun 0 5

def sampleRq : Request :=
  { id := 7, write := true, special := 0
    bios := [{ vecs := [⟨0, 0, 3072⟩], iter := ⟨8, 3072, 0, 0⟩, error := false }] }

/-- One of the three frames of a request has been answered, another one is out. -/
def sampleEvents : List Event :=
  sampleUp ++ [.blkQueue sampleRq, .blkRun default, .ataRsp (sampleRsp 2 0), .run 0 default]

def sample : Aoedev := (runFrom unguarded sampleStart sampleEvents).getD sampleStart

/-- Every event of a run can happen, and its last state passes a test. -/
structure Scene (ok : Aoedev → Event → Bool) (start : Aoedev) (events : List Event) (test : Aoedev → Bool) : Type where
  passes : (runFrom ok start events).any test = true

theorem Scene.last {ok : Aoedev → Event → Bool} {start : Aoedev} {events : List Event} {test : Aoedev → Bool}
    (s : Scene ok start events test) (hs : Initial start) :
    ∃ d, runFrom ok start events = some d ∧ ReachedBy (fun d e _ => ok d e) d ∧ test d = true := by
  obtain ⟨d, hd, ht⟩ := (Option.any_eq_true _ _).mp s.passes
  exact ⟨d, hd, reachedBy_runFrom events hs hd, ht⟩

theorem Scene.sample {test : Aoedev → Bool} (s : Scene unguarded sampleStart sampleEvents test) :
    Reached sample ∧ test sample = true := by
  obtain ⟨d, hd, hr, ht⟩ := s.last sampleStart_initial
  have hsample : AoeDriver.sample = d := by rw [AoeDriver.sample, hd, Option.getD_some]
  rw [hsample]
  exact ⟨hr.mono fun _ _ _ _ => trivial, ht⟩

def sampleScene : Scene unguarded sampleStart sampleEvents (fun _ => true) := ⟨by decide +kernel⟩

theorem sample_reached : Reached sample := sampleScene.sample.1

end AoeDriver
