import AoeDriver.Model.Main

/-!
# Completion queues while the module starts and ends

`aoenet_init` registers the packet handler before `aoecmd_init` makes the queues, and the unwinding frees the queues
before it removes the handler. In between no response may complete a frame.
-/

namespace AoeDriver

open Machine

namespace AoeMain

variable {s s' : AoeMain} {e : Event}

/-- The queues are there to be used. -/
def Ready (s : AoeMain) : Prop := 0 < s.ncpus ∧ s.iocq = .live ∧ s.kts = .live ∧ s.ktiowq = .live

/-- A use of a queue that has been made and not been freed. -/
def Sound (u : Use) : Prop :=
  u.id < u.ncpus ∧ u.iocq = .live ∧ u.kts = .live ∧ u.ktiowq = .live ∧ u.up = true

/-- How far the queues are made or freed, for each step still to be done. -/
def Phase (s : AoeMain) : Prop :=
  match s.pc with
  | .allocIocq => s.up = false ∧ 0 < s.ncpus
  | .allocKts => s.up = false ∧ 0 < s.ncpus ∧ s.iocq = .live
  | .allocKtiowq => s.up = false ∧ 0 < s.ncpus ∧ s.iocq = .live ∧ s.kts = .live
  | .ktstart => s.up = false ∧ s.Ready
  | .registerBlkdev | .running | .failCmdStop | .failFreeIocq | .exitTimer | .exitDevRemovePack => s.up = true ∧ s.Ready
  | .exitSynchronize => s.up = true ∧ s.Ready ∧ s.registered = false
  | .exitCmdStop | .exitFreeIocq => s.up = true ∧ s.Ready ∧ s.registered = false ∧ s.handlers = []
  | _ => s.up = false

structure Inv (s : AoeMain) : Prop where
  phase : s.Phase
  handlers : s.up = false → s.handlers = []
  wake : ∀ id, .wake id ∈ s.handlers → id < s.ncpus
  uses : ∀ u ∈ s.uses, Sound u

theorem Phase.ready (h : s.Phase) (hup : s.up = true) : s.Ready := by
  unfold Phase at h
  split at h
  · exact absurd hup (by simp [h.1])
  · exact absurd hup (by simp [h.1])
  · exact absurd hup (by simp [h.1])
  · exact h.2
  · exact h.2
  · exact h.2
  · exact h.2
  · exact h.2
  · exact h.2
  · exact h.2
  · exact h.2.1
  · exact h.2.1
  · exact h.2.1
  · exact absurd hup (by simp [h])

theorem Inv.move (h : s.Inv) (hphase : s'.Phase) (hh : s'.handlers = s.handlers) (hu : s'.uses = s.uses)
    (hup : s'.up = false → s.handlers = []) (hn : s.handlers ≠ [] → s'.ncpus = s.ncpus) : s'.Inv := by
  refine ⟨hphase, fun hup' => hh ▸ hup hup', fun id hid => ?_, hu ▸ h.uses⟩
  rw [hh] at hid
  rw [hn (List.ne_nil_of_mem hid)]
  exact h.wake id hid

theorem Inv.go (h : s.Inv) {p : MainPc} (hphase : (s.go p).Phase) : (s.go p).Inv :=
  h.move hphase rfl rfl h.handlers fun _ => rfl

theorem Inv.undoCmd (h : s.Inv) (hup : s.up = false) : s.undoCmd.Inv :=
  h.move hup rfl rfl h.handlers fun _ => rfl

theorem Inv.step {ok : Bool} {cpus : ℕ} (h : s.Inv) (hok : quietStart s (.step ok cpus) = true)
    (he : s.step ok cpus = some s') : s'.Inv := by
  have hp := h.phase
  have hquiet : s.pc = .failFreeIocq → s.handlers = [] := by
    intro hpc
    simpa [quietStart, hpc] using hok
  unfold Phase at hp
  unfold AoeMain.step at he
  cases hpc : s.pc with
  | aoedevInit =>
    simp only [hpc] at hp he
    obtain rfl := Option.some.inj he
    cases ok <;> exact h.go hp
  | aoechrInit =>
    simp only [hpc] at hp he
    obtain rfl := Option.some.inj he
    cases ok <;> exact h.go hp
  | aoeblkInit =>
    simp only [hpc] at hp he
    obtain rfl := Option.some.inj he
    cases ok <;> exact h.go hp
  | ktstartTx =>
    simp only [hpc] at hp he
    obtain rfl := Option.some.inj he
    cases ok <;> exact h.go hp
  | devAddPack =>
    simp only [hpc] at hp he
    obtain rfl := Option.some.inj he
    exact h.move hp rfl rfl h.handlers fun _ => rfl
  | zeroedPage =>
    simp only [hpc] at hp he
    obtain rfl := Option.some.inj he
    cases ok with
    | false => exact h.undoCmd hp
    | true => exact h.go hp
  | numOnlineCpus =>
    simp only [hpc] at hp he
    split at he
    · cases he
    · rename_i hcpus
      obtain rfl := Option.some.inj he
      have hnone := h.handlers hp
      exact h.move ⟨hp, Nat.pos_of_ne_zero hcpus⟩ rfl rfl h.handlers fun hne => absurd hnone hne
  | allocIocq =>
    simp only [hpc] at hp he
    obtain rfl := Option.some.inj he
    cases ok with
    | false => exact h.undoCmd hp.1
    | true => exact h.move ⟨hp.1, hp.2, rfl⟩ rfl rfl h.handlers fun _ => rfl
  | allocKts =>
    simp only [hpc] at hp he
    obtain rfl := Option.some.inj he
    cases ok with
    | false => exact h.undoCmd hp.1
    | true => exact h.move ⟨hp.1, hp.2.1, hp.2.2, rfl⟩ rfl rfl h.handlers fun _ => rfl
  | allocKtiowq =>
    simp only [hpc] at hp he
    obtain rfl := Option.some.inj he
    cases ok with
    | false => exact h.undoCmd hp.1
    | true => exact h.move ⟨hp.1, hp.2.1, hp.2.2.1, hp.2.2.2, rfl⟩ rfl rfl h.handlers fun _ => rfl
  | ktstart =>
    simp only [hpc] at hp he
    obtain rfl := Option.some.inj he
    cases ok with
    | false => exact h.undoCmd hp.1
    | true => exact h.move ⟨rfl, hp.2⟩ rfl rfl (fun hup => absurd hup (by simp)) fun _ => rfl
  | registerBlkdev =>
    simp only [hpc] at hp he
    obtain rfl := Option.some.inj he
    cases ok <;> exact h.go hp
  | running =>
    simp only [hpc] at he
    cases he
  | failCmdStop =>
    simp only [hpc] at hp he
    obtain rfl := Option.some.inj he
    exact h.go hp
  | failFreeIocq =>
    simp only [hpc] at he
    obtain rfl := Option.some.inj he
    exact h.move rfl rfl rfl (fun _ => hquiet hpc) fun _ => rfl
  | failFreeKts =>
    simp only [hpc] at hp he
    obtain rfl := Option.some.inj he
    exact h.move hp rfl rfl h.handlers fun _ => rfl
  | failFreeKtiowq =>
    simp only [hpc] at hp he
    obtain rfl := Option.some.inj he
    exact h.move hp rfl rfl h.handlers fun _ => rfl
  | failDevRemovePack =>
    simp only [hpc] at hp he
    obtain rfl := Option.some.inj he
    exact h.move hp rfl rfl h.handlers fun _ => rfl
  | failSynchronize =>
    simp only [hpc, synchronize] at hp he
    split at he
    · obtain rfl := Option.some.inj he
      exact h.go hp
    · cases he
  | failRest =>
    simp only [hpc] at hp he
    obtain rfl := Option.some.inj he
    exact h.go hp
  | exitTimer =>
    simp only [hpc] at hp he
    obtain rfl := Option.some.inj he
    exact h.go hp
  | exitDevRemovePack =>
    simp only [hpc] at hp he
    obtain rfl := Option.some.inj he
    exact h.move ⟨hp.1, hp.2, rfl⟩ rfl rfl h.handlers fun _ => rfl
  | exitSynchronize =>
    simp only [hpc, synchronize] at hp he
    split at he
    · rename_i hnone
      obtain rfl := Option.some.inj he
      exact h.go ⟨hp.1, hp.2.1, hp.2.2, hnone⟩
    · cases he
  | exitCmdStop =>
    simp only [hpc] at hp he
    obtain rfl := Option.some.inj he
    exact h.go hp
  | exitFreeIocq =>
    simp only [hpc] at hp he
    obtain rfl := Option.some.inj he
    exact h.move rfl rfl rfl (fun _ => hp.2.2.2) fun _ => rfl
  | exitFreeKts =>
    simp only [hpc] at hp he
    obtain rfl := Option.some.inj he
    exact h.move hp rfl rfl h.handlers fun _ => rfl
  | exitFreeKtiowq =>
    simp only [hpc] at hp he
    obtain rfl := Option.some.inj he
    exact h.move hp rfl rfl h.handlers fun _ => rfl
  | exitRest =>
    simp only [hpc] at hp he
    obtain rfl := Option.some.inj he
    exact h.go hp
  | unloaded =>
    simp only [hpc] at he
    cases he

theorem Phase.handlers (h : s.Phase) (hs : ¬(s.registered = false ∧ s.handlers = [])) (hpc : s'.pc = s.pc)
    (hup : s'.up = s.up) (hready : s.Ready → s'.Ready) (hn : s'.ncpus = s.ncpus) (hi : s'.iocq = s.iocq)
    (hk : s'.kts = s.kts) (hr : s'.registered = s.registered) : s'.Phase := by
  unfold Phase at h ⊢
  rw [hpc, hup, hn, hi, hk, hr]
  cases hp : s.pc <;> simp only [hp] at h ⊢
  case exitCmdStop => exact absurd h.2.2 hs
  case exitFreeIocq => exact absurd h.2.2 hs
  case exitSynchronize => exact ⟨h.1, hready h.2.1, h.2.2⟩
  case allocIocq | allocKts | allocKtiowq => exact h
  case ktstart | registerBlkdev | running | failCmdStop | failFreeIocq | exitTimer | exitDevRemovePack =>
    exact ⟨h.1, hready h.2⟩
  all_goals exact h

theorem Inv.ataRsp (h : s.Inv) (hup : s.up = true) (hr : s.registered = true) (fs : List ℕ) (aoeminor : ℕ) :
    { s with frames := fs, handlers := s.handlers ++ [Handler.queue aoeminor] }.Inv := by
  refine ⟨h.phase.handlers (fun hs => ?_) rfl rfl id rfl rfl rfl rfl, fun hup' => ?_, fun id hid => ?_, h.uses⟩
  · exact absurd hr (by simp [hs.1])
  · exact absurd hup (by simpa using hup')
  · rcases List.mem_append.mp hid with hid | hid
    · exact h.wake id hid
    · simp at hid

theorem Inv.ktcomplete (h : s.Inv) (hne : s.handlers ≠ []) {hs : List Handler} {id : ℕ} (hid : id < s.ncpus)
    (hmem : ∀ i, .wake i ∈ hs → i < s.ncpus) : { s with handlers := hs, uses := s.uses ++ [s.use id] }.Inv := by
  have hup : s.up = true := by
    rw [← Bool.not_eq_false]
    exact fun hf => hne (h.handlers hf)
  obtain ⟨-, hiocq, hkts, hktiowq⟩ := h.phase.ready hup
  refine ⟨h.phase.handlers (fun hx => hne hx.2) rfl rfl (fun hr => hr) rfl rfl rfl rfl, fun hf => ?_, hmem, fun u hu => ?_⟩
  · exact absurd hup (by simpa using hf)
  · rcases List.mem_append.mp hu with hu | hu
    · exact h.uses u hu
    · obtain rfl := List.mem_singleton.mp hu
      exact ⟨hid, hiocq, hkts, hktiowq, hup⟩

theorem Inv.exec (h : s.Inv) (hok : quietStart s e = true) (he : s.exec e = some s') : s'.Inv := by
  cases e with
  | step ok cpus => exact h.step hok he
  | exit =>
    simp only [AoeMain.exec] at he
    split at he
    · rename_i hpc
      obtain rfl := Option.some.inj he
      have hp := h.phase
      simp only [Phase, hpc] at hp
      exact h.go hp
    · cases he
  | cfgRsp aoeminor =>
    simp only [AoeMain.exec] at he
    split at he
    · obtain rfl := Option.some.inj he
      exact h.move h.phase rfl rfl h.handlers fun _ => rfl
    · cases he
  | send k =>
    obtain ⟨aoeminor, -, rfl⟩ := Option.map_eq_some_iff.mp he
    exact h.move h.phase rfl rfl h.handlers fun _ => rfl
  | lose k =>
    simp only [AoeMain.exec] at he
    split at he
    · obtain rfl := Option.some.inj he
      exact h.move h.phase rfl rfl h.handlers fun _ => rfl
    · cases he
  | ataRsp k =>
    simp only [AoeMain.exec] at he
    split at he
    · rename_i hr
      obtain ⟨aoeminor, -, rfl⟩ := Option.map_eq_some_iff.mp he
      exact h.ataRsp hok hr _ aoeminor
    · cases he
  | ktcomplete k =>
    simp only [AoeMain.exec] at he
    split at he
    · rename_i aoeminor hk
      obtain rfl := Option.some.inj he
      have hmem := List.mem_of_getElem? hk
      have hne := List.ne_nil_of_mem hmem
      have hpos : 0 < s.ncpus := by
        refine (h.phase.ready ?_).1
        rw [← Bool.not_eq_false]
        exact fun hf => hne (h.handlers hf)
      refine h.ktcomplete hne (Nat.mod_lt _ hpos) fun i hi => ?_
      rcases List.mem_or_eq_of_mem_set hi with hi | hi
      · exact h.wake i hi
      · obtain rfl := Handler.wake.inj hi
        exact Nat.mod_lt _ hpos
    · rename_i id hk
      obtain rfl := Option.some.inj he
      have hmem := List.mem_of_getElem? hk
      exact h.ktcomplete (List.ne_nil_of_mem hmem) (h.wake id hmem) fun i hi =>
        h.wake i (List.mem_of_mem_eraseIdx hi)
    · cases he

theorem reachedBy_inv (h : s.ReachedBy quietStart) : s.Inv := by
  refine Reach.invariant ?_ (fun s e s' _ hs hok he => hs.exec hok he) h
  rintro s rfl
  exact ⟨rfl, fun _ => rfl, fun id hid => absurd hid (List.not_mem_nil), fun u hu => absurd hu (List.not_mem_nil)⟩

/-- In runs where no response completes a frame in the two gaps, `ktcomplete` always finds its queue. -/
theorem queues_in_place (h : s.ReachedBy quietStart) : ∀ u ∈ s.uses, Sound u := (reachedBy_inv h).uses

def advance (ok : AoeMain → Event → Bool) (s : AoeMain) (e : Event) : Option AoeMain := if ok s e then s.exec e else none

theorem reachedBy_execute {ok : AoeMain → Event → Bool} {es : List Event} (h : execute (advance ok) init es = some s) :
    s.ReachedBy ok := by
  exact Reach.guarded AoeMain.exec ok (fun _ _ _ he => he) es (.init rfl) h

/-- The module is loaded, a target is found and answers, and the module is removed again. -/
def mainSample : List Event :=
  List.replicate 12 (.step true 4) ++ [.cfgRsp 5, .ataRsp 0, .ktcomplete 0, .ktcomplete 0, .exit] ++
    List.replicate 8 (.step true 4)

theorem queues_in_place_sample : ∃ s, execute (advance quietStart) init mainSample = some s ∧ s.pc = .unloaded ∧
    s.uses.length = 2 ∧ ∀ u ∈ s.uses, Sound u := by
  obtain ⟨s, hs⟩ : ∃ s, execute (advance quietStart) init mainSample = some s := ⟨_, rfl⟩
  have htest : (execute (advance quietStart) init mainSample).map (fun s => (s.pc, s.uses.length)) =
      some (.unloaded, 2) := rfl
  rw [hs, Option.map_some, Option.some.injEq, Prod.mk.injEq] at htest
  exact ⟨s, hs, htest.1, htest.2, queues_in_place (reachedBy_execute hs)⟩

/-- A target answers as soon as the packet handler is registered. -/
def earlySample : List Event := List.replicate 5 (.step true 4) ++ [.cfgRsp 5, .ataRsp 0, .ktcomplete 0]

/-- `ktcomplete` divides by the number of processors before it is known. -/
theorem queues_missing : ∃ s : AoeMain, s.ReachedBy (fun _ _ => true) ∧ ∃ u ∈ s.uses, u.ncpus = 0 ∧ u.iocq = .null := by
  obtain ⟨s, hs⟩ : ∃ s, execute (advance fun _ _ => true) init earlySample = some s := ⟨_, rfl⟩
  have htest : (execute (advance fun _ _ => true) init earlySample).map AoeMain.uses =
      some [⟨5, 0, .null, .null, .null, false⟩] := rfl
  rw [hs, Option.map_some, Option.some.injEq] at htest
  refine ⟨s, reachedBy_execute hs, ⟨5, 0, .null, .null, .null, false⟩, ?_, rfl, rfl⟩
  rw [htest]
  exact List.mem_singleton_self _

end AoeMain

end AoeDriver
