import AoeDriver.Model.Timers
import AoeDriver.Library.Timer
import AoeDriver.Life.Turn

/-!
# The timers stop

Both timers of the driver are timers that start themselves again, and end as such timers do: none is added while it is
pending, none is lost before it is told to stop, and none runs after `del_timer_sync`.
-/

namespace AoeDriver

open Machine

def TrunPc.stage : TrunPc → Rearm.Stage
  | .lock => .deciding
  | .cfg => .leaving

namespace DiscoverTimer

variable {s s' : DiscoverTimer}

/-- The discovery timer as a timer that starts itself again. -/
def timer (s : DiscoverTimer) : Rearm.Timer :=
  ⟨s.pending, s.handler.map TrunPc.stage, s.die, decide (s.main = .killed)⟩

private theorem rearms_iff : s.timer.rearms ↔ s.handler = some .lock := by
  unfold Rearm.Timer.rearms timer
  cases s.handler with
  | none => simp
  | some x => cases x <;> simp [TrunPc.stage]

/-- What an event does. -/
inductive Move (s : DiscoverTimer) : DiscoverTimer → Prop where
  | tinit (hm : s.main = .tinit) : Move s { trun { s with die := false } with main := .cfg }
  | cfg (hm : s.main = .cfg) : Move s { s.aoecmdCfg with main := .running }
  | tkill (hm : s.main = .running) : Move s { s with die := true, main := .delTimer }
  | delTimer (hm : s.main = .delTimer) (hh : s.handler = none) : Move s { s with pending := false, main := .killed }
  | fire (hp : s.pending = true) (hh : s.handler = none) : Move s { s with pending := false, handler := some .lock }
  | trun (hh : s.handler = some .lock) : Move s { s.trun with handler := some .cfg }
  | trunCfg (hh : s.handler = some .cfg) : Move s { s.aoecmdCfg with handler := none }

private theorem exec_move {e : Event} (h : s.exec e = some s') : Move s s' := by
  cases e with
  | main =>
    simp only [exec] at h
    split at h
    · rename_i hm
      exact Option.some.inj h ▸ .tinit hm
    · rename_i hm
      exact Option.some.inj h ▸ .cfg hm
    · rename_i hm
      exact Option.some.inj h ▸ .tkill hm
    · rename_i hm
      simp only [Option.ite_none_right_eq_some, Option.some.injEq] at h
      exact h.2 ▸ .delTimer hm h.1
    · simp at h
  | fire =>
    simp only [exec, Option.ite_none_right_eq_some, Option.some.injEq] at h
    exact h.2 ▸ .fire h.1.1 h.1.2
  | handler =>
    simp only [exec] at h
    split at h
    · rename_i hh
      exact Option.some.inj h ▸ .trun hh
    · rename_i hh
      exact Option.some.inj h ▸ .trunCfg hh
    · simp at h

/-- What holds behind `TINIT`. -/
structure Kept (s : DiscoverTimer) : Prop where
  sound : s.timer.Sound
  dying : s.die = true ↔ s.main = .delTimer ∨ s.main = .killed
  started : s.main ≠ .tinit
  adds : ∀ b ∈ s.adds, b = false
  cfgs : ∀ b ∈ s.cfgs, b = false

/-- A move from there on is a few steps of the timer. -/
theorem Move.simulates (hm : Move s s') (h : s.Kept) :
    ∃ es, execute Rearm.Timer.exec s.timer es = some s'.timer := by
  cases hm with
  | tinit hm => exact absurd hm h.started
  | cfg hm =>
    refine ⟨[], ?_⟩
    simp [execute, timer, aoecmdCfg, hm]
  | tkill hm =>
    refine ⟨[.kill], ?_⟩
    simp [execute, timer, Rearm.Timer.exec, hm]
  | delTimer hm hh =>
    refine ⟨[.delete], ?_⟩
    simp [execute, timer, Rearm.Timer.exec, hh, h.dying.mpr (.inl hm)]
  | fire hp hh =>
    refine ⟨[.fire], ?_⟩
    simp [execute, timer, Rearm.Timer.exec, hp, hh, TrunPc.stage]
  | trun hh =>
    by_cases hd : s.die = true
    · refine ⟨[.decide], ?_⟩
      simp [execute, timer, Rearm.Timer.exec, DiscoverTimer.trun, TrunPc.stage, hh, hd]
    · refine ⟨[.decide, .arm], ?_⟩
      simp [execute, timer, Rearm.Timer.exec, DiscoverTimer.trun, TrunPc.stage, hh, hd]
  | trunCfg hh =>
    refine ⟨[.leave], ?_⟩
    simp [execute, timer, Rearm.Timer.exec, aoecmdCfg, TrunPc.stage, hh]

private theorem trun_fields (s : DiscoverTimer) : s.trun.main = s.main ∧ s.trun.die = s.die ∧ s.trun.cfgs = s.cfgs := by
  unfold trun
  split
  · simp
  · simp

private theorem trun_adds (hs : ∀ b ∈ s.adds, b = false) (hp : s.pending = false) : ∀ b ∈ s.trun.adds, b = false := by
  unfold trun
  split
  · exact hs
  · simpa [hp] using hs

private theorem aoecmdCfg_cfgs (hs : ∀ b ∈ s.cfgs, b = false) (hm : s.main ≠ .killed) :
    ∀ b ∈ s.aoecmdCfg.cfgs, b = false := by
  simpa [aoecmdCfg, hm] using hs

private theorem init_move (hm : Move init s') : s'.Kept := by
  cases hm with
  | tinit _ =>
    constructor
    · exact Rearm.Timer.started_sound
    all_goals simp [trun, init]
  | _ hm => simp [init] at hm

theorem Kept.move (h : s.Kept) (hm : Move s s') : s'.Kept := by
  obtain ⟨es, hes⟩ := hm.simulates h
  have hs := h.sound.run hes
  cases hm with
  | tinit hm => exact absurd hm h.started
  | cfg hm => exact ⟨hs, by simpa [aoecmdCfg, hm] using h.dying, by simp, h.adds, aoecmdCfg_cfgs h.cfgs (by simp [hm])⟩
  | tkill hm => exact ⟨hs, by simp, by simp, h.adds, h.cfgs⟩
  | delTimer hm hh => exact ⟨hs, by simp [h.dying, hm], by simp, h.adds, h.cfgs⟩
  | fire hp hh => exact ⟨hs, h.dying, h.started, h.adds, h.cfgs⟩
  | trun hh =>
    obtain ⟨hmain, hdie, hcfgs⟩ := trun_fields s
    have hp : s.pending = false := by
      by_contra hp
      exact h.sound.apart (by simpa [timer] using hp) (rearms_iff.mpr hh)
    constructor
    · exact hs
    · simpa [hmain, hdie] using h.dying
    · simpa [hmain] using h.started
    · exact trun_adds h.adds hp
    · simpa [hcfgs] using h.cfgs
  | trunCfg hh =>
    refine ⟨hs, h.dying, h.started, h.adds, aoecmdCfg_cfgs h.cfgs fun hk => ?_⟩
    have hdead := h.sound.dead (by simp [timer, hk])
    simp [timer, hh] at hdead

private theorem reached_kept (h : Reached s) : s = init ∨ s.Kept := by
  refine Reach.invariant (P := fun s => s = init ∨ s.Kept) ?_ ?_ h
  · exact fun s hs => .inl hs
  · intro s e s' _ hs _ he
    right
    rcases hs with rfl | hs
    · exact init_move (exec_move he)
    · exact hs.move (exec_move he)

/-- In every order of the handler with `aoe_init` and `aoe_exit`: `add_timer` never meets a pending timer, from `TINIT` to
`TKILL` the timer is pending or its handler is about to add it, and once `TKILL` is through neither the timer nor its
handler is there any more, so `aoecmd_cfg` is not called. -/
theorem discovery_stops (h : Reached s) : (∀ b ∈ s.adds, b = false) ∧ (∀ b ∈ s.cfgs, b = false) ∧
    (s.main = .cfg ∨ s.main = .running → s.pending = true ∨ s.handler = some .lock) ∧
    (s.main = .killed → s.pending = false ∧ s.handler = none) := by
  rcases reached_kept h with rfl | hk
  · simp [init]
  · refine ⟨hk.adds, hk.cfgs, ?_, ?_⟩
    · intro hm
      have hd : s.die = false := by
        by_contra hd
        have hk := hk.dying.mp (by simpa using hd)
        rcases hm with hm | hm
        · simp [hm] at hk
        · simp [hm] at hk
      rcases hk.sound.alive hd with hp | hr
      · exact .inl hp
      · right
        exact rearms_iff.mp hr
    · intro hm
      have hdead := hk.sound.dead (by simp [timer, hm])
      simpa [timer] using hdead.2

/-- The first handler is under way when the module is removed. -/
theorem discovery_stops_late : ∃ s, Reached s ∧ s.main = .killed ∧ s.cfgs.length = 3 ∧ s.pending = false ∧
    s.handler = none := by
  have htest : (execute exec init [.main, .fire, .main, .handler, .main, .handler, .fire, .handler, .handler, .main]).any
      (fun s => s.main == .killed && s.cfgs.length == 3) = true := by decide
  obtain ⟨s, hs, ht⟩ := (Option.any_eq_true _ _).mp htest
  have hstart : Reached init := .init rfl
  have hr : Reached s := by
    apply Reach.execute _ _ hstart hs
    · simp
    · intro a e b he _
      exact he
  simp only [Bool.and_eq_true, beq_iff_eq] at ht
  have hquiet := (discovery_stops hr).2.2.2 ht.1
  exact ⟨s, hr, ht.1, ht.2, hquiet.1, hquiet.2⟩

end DiscoverTimer

/-- A turn leaves `DEVFL_TKILL` alone or sets it. -/
theorem Turn.tkill {G : Guard} {b b' : Blk} (t : Turn G b b') :
    b'.tkill = b.tkill ∨ b'.tkill = true ∧ ∃ mode, G.kill mode b := by
  cases t with
  | @kill mode _ _ hg => exact .inr ⟨rfl, mode, hg⟩
  | @ident _ _ n =>
    left
    change (b.ident n).tkill = b.tkill
    unfold Blk.ident
    split
    · rfl
    · split
      · rfl
      · rfl
  | @sleep i pc ok =>
    left
    change (b.worked ok pc).1.tkill = b.tkill
    cases pc with
    | start => rfl
    | gdalloc =>
      unfold Blk.worked
      dsimp only
      split
      · rfl
      · rfl
    | gdNow => cases ok <;> rfl
    | installed => rfl
    | resize =>
      unfold Blk.worked
      dsimp only
      split
      · rfl
      · rfl
    | resizing => rfl
  | _ => exact .inl rfl

private theorem exec_tkill {d d' : Aoedev} {e : Event} (hg : Good 0 d) (he : exec d e = some d')
    (hk : d.flags.tkill = true) : d'.flags.tkill = true := by
  have ht := exec_turn (G := ⟨fun _ => True, fun _ _ => True, fun _ _ => True⟩) hg (by cases e <;> simp [Guard.Meets]) he
  rcases ht.tkill with h | h
  · exact h.trans hk
  · exact h.1

private theorem rexmitTimer_tkill {d : Aoedev} (hg : Good 0 d) : (rexmitTimer d).flags.tkill = d.flags.tkill := by
  have ht := rexmitTimer_turn (G := ⟨fun _ => True, fun _ _ => False, fun _ _ => True⟩) hg fun _ _ => trivial
  rcases ht.tkill with h | ⟨-, mode, h⟩
  · exact h
  · exact h.elim

def TimerPc.stage : TimerPc → Rearm.Stage
  | .dummyTest | .rexmit => .deciding
  | .dummyAdd => .arming

namespace TimedDev

variable {s s' : TimedDev}

/-- Whether a call of `freedev` has come out of `del_timer_sync`. -/
def deleted (s : TimedDev) : Bool := s.releases + s.calls.count .release ≠ 0

/-- The timer of a device as a timer that starts itself again. -/
def timer (s : TimedDev) : Rearm.Timer := ⟨s.pending, s.handler.map TimerPc.stage, s.dev.flags.tkill, s.deleted⟩

private theorem rearms_iff : s.timer.rearms ↔ s.handler ≠ none := by
  unfold Rearm.Timer.rearms timer
  cases s.handler with
  | none => simp
  | some pc => cases pc <;> simp [TimerPc.stage]

/-- What an event does. -/
inductive Move (s : TimedDev) : TimedDev → Prop where
  | dev {e : AoeDriver.Event} {d : Aoedev} (hr : s.releases = 0) (he : AoeDriver.exec s.dev e = some d) :
      Move s { s with dev := d }
  | fire (hp : s.pending = true) (hh : s.handler = none) :
      Move s { s with pending := false, handler := some s.function }
  | leave {pc : TimerPc} (hh : s.handler = some pc) (hpc : pc.stage = .deciding) (hk : s.dev.flags.tkill = true) :
      Move s { s.look with handler := none }
  | dummyTest (hh : s.handler = some .dummyTest) (hk : s.dev.flags.tkill = false) :
      Move s { s.look with handler := some .dummyAdd }
  | dummyAdd (hh : s.handler = some .dummyAdd) : Move s { s.look.addTimer with handler := none }
  | rexmit {env : Env} (hh : s.handler = some .rexmit) (hk : s.dev.flags.tkill = false) :
      Move s { s.look.addTimer with dev := rexmitTimer { s.dev with env := env }, handler := none }
  | freedev (hd : s.doomed = true) : Move s { s with calls := s.calls ++ [.gate] }
  | pass {i : ℕ} (hi : s.calls[i]? = some .gate) (hd : s.doomed = true) :
      Move s { s with freeing := true, calls := s.calls.set i .delTimer }
  | back {i : ℕ} (hi : s.calls[i]? = some .gate) : Move s { s with calls := s.calls.eraseIdx i }
  | delTimer {i : ℕ} (hi : s.calls[i]? = some .delTimer) (hh : s.handler = none) :
      Move s { s with pending := false, calls := s.calls.set i .release }
  | release {i : ℕ} (hi : s.calls[i]? = some .release) :
      Move s { s with releases := s.releases + 1, calls := s.calls.set i .mark }
  | mark {i : ℕ} (hi : s.calls[i]? = some .mark) : Move s { s with freed := true, calls := s.calls.eraseIdx i }

private theorem runHandler_move {env : Env} {pc : TimerPc} (hh : s.handler = some pc) : Move s (s.runHandler env pc) := by
  cases pc with
  | dummyTest =>
    unfold runHandler
    by_cases hk : s.dev.flags.tkill = true
    · simpa [hk] using Move.leave hh rfl hk
    · simpa [hk] using Move.dummyTest hh (by simpa using hk)
  | dummyAdd => exact .dummyAdd hh
  | rexmit =>
    unfold runHandler
    by_cases hk : s.dev.flags.tkill = true
    · simpa [hk] using Move.leave hh rfl hk
    · simpa [hk] using Move.rexmit hh (by simpa using hk)

private theorem runCall_move {i : ℕ} {pc : FreedevPc} (hi : s.calls[i]? = some pc) (h : s.runCall i pc = some s') :
    Move s s' := by
  cases pc with
  | gate =>
    simp only [runCall, Option.some.injEq] at h
    subst h
    by_cases hd : s.doomed = true
    · simpa [hd] using Move.pass hi hd
    · simpa [hd] using Move.back hi
  | delTimer =>
    simp only [runCall, Option.ite_none_right_eq_some, Option.some.injEq] at h
    exact h.2 ▸ .delTimer hi h.1
  | release => exact Option.some.inj h ▸ .release hi
  | mark => exact Option.some.inj h ▸ .mark hi

private theorem exec_move {e : Event} (h : s.exec e = some s') : Move s s' := by
  cases e with
  | dev e =>
    simp only [exec, execDev] at h
    split at h
    · simp at h
    · simp only [Option.ite_none_right_eq_some, Option.map_eq_some_iff, Option.filter_eq_some_iff] at h
      obtain ⟨hr, d, ⟨hd, -⟩, rfl⟩ := h
      exact .dev hr hd
  | fire =>
    simp only [exec, Option.ite_none_right_eq_some, Option.some.injEq] at h
    exact h.2 ▸ .fire h.1.1 h.1.2
  | handler env =>
    simp only [exec, Option.filter_eq_some_iff, Option.map_eq_some_iff] at h
    obtain ⟨⟨pc, hpc, rfl⟩, -⟩ := h
    exact runHandler_move hpc
  | freedev =>
    simp only [exec, Option.ite_none_right_eq_some, Option.some.injEq] at h
    exact h.2 ▸ .freedev h.1
  | call i =>
    simp only [exec, Option.bind_eq_some_iff] at h
    obtain ⟨pc, hpc, h⟩ := h
    exact runCall_move hpc h

private theorem count_erase {i : ℕ} {pc : FreedevPc} (hi : s.calls[i]? = some pc) (x : FreedevPc) :
    s.calls.count x = (pc :: s.calls.eraseIdx i).count x := by
  have hp := Tables.flatMap_eraseIdx hi fun c => [c]
  simpa using hp.count_eq x

private theorem count_set {i : ℕ} {pc : FreedevPc} (hi : s.calls[i]? = some pc) (pc' x : FreedevPc) :
    (s.calls.set i pc').count x = (pc' :: s.calls.eraseIdx i).count x := by
  have hp := Tables.flatMap_set hi (fun c => [c]) pc'
  simpa using hp.count_eq x

/-- `claims`: a call past the gate, or the release of the targets, for `DEVFL_FREEING`. -/
structure Kept (s : TimedDev) : Prop where
  good : Good 0 s.dev
  sound : s.timer.Sound
  claims : s.releases + s.calls.count .delTimer + s.calls.count .release = if s.freeing then 1 else 0
  killed : s.freeing = true → s.dev.flags.tkill = true
  adds : ∀ b ∈ s.adds, b = false
  looks : ∀ b ∈ s.looks, b = false

theorem Kept.unreleased (h : s.Kept) (hh : s.handler ≠ none) : s.releases = 0 ∧ s.calls.count .release = 0 := by
  by_contra hd
  have hdead := h.sound.dead (by simp [timer, deleted]; omega)
  exact hh (by simpa [timer] using hdead.2.2)

theorem Kept.unpending (h : s.Kept) (hh : s.handler ≠ none) : s.pending = false := by
  by_contra hp
  exact h.sound.apart (by simpa [timer] using hp) (rearms_iff.mpr hh)

theorem Kept.tkill (h : s.Kept) (hc : s.calls.count .delTimer ≠ 0) : s.dev.flags.tkill = true := by
  apply h.killed
  by_contra hf
  have hclaims := h.claims
  simp [hf] at hclaims
  exact hc (by simp [hclaims])

/-- A move is a few steps of the timer. -/
theorem Move.simulates (hm : Move s s') (h : s.Kept) :
    ∃ es, execute Rearm.Timer.exec s.timer es = some s'.timer := by
  cases hm with
  | @dev e d hr he =>
    by_cases hk : s.dev.flags.tkill = d.flags.tkill
    · exact ⟨[], by simp [execute, timer, deleted, hk]⟩
    · refine ⟨[.kill], ?_⟩
      have hd : d.flags.tkill = true := by
        by_contra hd
        cases hs : s.dev.flags.tkill with
        | true => exact hd (exec_tkill h.good he hs)
        | false => exact hk (hs.trans (eq_false_of_ne_true hd).symm)
      simp [execute, timer, deleted, Rearm.Timer.exec, hd]
  | fire hp hh =>
    refine ⟨[.fire], ?_⟩
    have hstage : s.function.stage = .deciding := by
      unfold function
      split
      · rfl
      · rfl
    simp [execute, timer, deleted, Rearm.Timer.exec, hp, hh, hstage]
  | leave hh hpc hk =>
    refine ⟨[.decide, .leave], ?_⟩
    simp [execute, timer, deleted, Rearm.Timer.exec, look, hh, hpc, hk]
  | dummyTest hh hk =>
    refine ⟨[.decide], ?_⟩
    simp [execute, timer, deleted, Rearm.Timer.exec, look, hh, hk, TimerPc.stage]
  | dummyAdd hh =>
    refine ⟨[.arm, .leave], ?_⟩
    simp [execute, timer, deleted, Rearm.Timer.exec, look, addTimer, hh, TimerPc.stage]
  | @rexmit env hh hk =>
    refine ⟨[.decide, .arm, .leave], ?_⟩
    have hg := (@outcomes_runs Cond.any s.dev env trivial).good h.good
    have ht := rexmitTimer_tkill hg
    simp [execute, timer, deleted, Rearm.Timer.exec, look, addTimer, hh, hk, ht, TimerPc.stage]
  | freedev hd => exact ⟨[], by simp [execute, timer, deleted]⟩
  | pass hi hd =>
    refine ⟨[], ?_⟩
    simp [execute, timer, deleted, count_set hi, count_erase hi]
  | back hi =>
    refine ⟨[], ?_⟩
    simp [execute, timer, deleted, count_erase hi]
  | delTimer hi hh =>
    refine ⟨[.delete], ?_⟩
    have hk := h.tkill (by simp [count_erase hi])
    simp [execute, timer, deleted, Rearm.Timer.exec, hh, hk, count_set hi]
  | release hi =>
    refine ⟨[], ?_⟩
    simp [execute, timer, deleted, count_erase hi]
  | mark hi =>
    refine ⟨[], ?_⟩
    simp [execute, timer, deleted, count_erase hi]

theorem Kept.look_looks (h : s.Kept) (hh : s.handler ≠ none) : ∀ b ∈ s.look.looks, b = false := by
  simpa [look, (h.unreleased hh).1] using h.looks

theorem Kept.addTimer_adds (h : s.Kept) (hh : s.handler ≠ none) : ∀ b ∈ s.look.addTimer.adds, b = false := by
  simpa [addTimer, look, h.unpending hh] using h.adds

theorem Kept.move (h : s.Kept) (hm : Move s s') : s'.Kept := by
  obtain ⟨es, hes⟩ := hm.simulates h
  have hs := h.sound.run hes
  have hclaims := h.claims
  cases hm with
  | dev hr he =>
    have hg := (exec_runs h.good (Cond.meets_any _ _) he).good h.good
    exact ⟨hg, hs, h.claims, fun hf => exec_tkill h.good he (h.killed hf), h.adds, h.looks⟩
  | fire hp hh => exact ⟨h.good, hs, h.claims, h.killed, h.adds, h.looks⟩
  | leave hh hpc hk => exact ⟨h.good, hs, h.claims, h.killed, h.adds, h.look_looks (by simp [hh])⟩
  | dummyTest hh hk => exact ⟨h.good, hs, h.claims, h.killed, h.adds, h.look_looks (by simp [hh])⟩
  | dummyAdd hh =>
    exact ⟨h.good, hs, h.claims, h.killed, h.addTimer_adds (by simp [hh]), h.look_looks (by simp [hh])⟩
  | @rexmit env hh hk =>
    have hg := (@outcomes_runs Cond.any s.dev env trivial).good h.good
    have hr := rexmitTimer_runs (C := Cond.any) hg fun _ _ => trivial
    have ht := rexmitTimer_tkill hg
    constructor
    · exact hr.good hg
    · exact hs
    · exact h.claims
    · intro hf
      exact ht.trans (h.killed hf)
    · exact h.addTimer_adds (by simp [hh])
    · exact h.look_looks (by simp [hh])
  | freedev hd =>
    refine ⟨h.good, hs, ?_, h.killed, h.adds, h.looks⟩
    simpa using h.claims
  | pass hi hd =>
    have hf : s.freeing = false ∧ s.dev.flags.tkill = true := by
      simpa [doomed, and_comm] using hd
    refine ⟨h.good, hs, ?_, fun _ => hf.2, h.adds, h.looks⟩
    simp only [hf.1, count_erase hi, List.count_cons] at hclaims
    simp [count_set hi] at hclaims ⊢
    omega
  | back hi =>
    refine ⟨h.good, hs, ?_, h.killed, h.adds, h.looks⟩
    simpa [count_erase hi] using hclaims
  | delTimer hi hh =>
    refine ⟨h.good, hs, ?_, h.killed, h.adds, h.looks⟩
    rw [← hclaims]
    simp [count_set hi, count_erase hi]
    omega
  | release hi =>
    refine ⟨h.good, hs, ?_, h.killed, h.adds, h.looks⟩
    rw [← hclaims]
    simp [count_set hi, count_erase hi]
    omega
  | mark hi =>
    refine ⟨h.good, hs, ?_, h.killed, h.adds, h.looks⟩
    simpa [count_erase hi] using hclaims

private theorem initial_kept (hs : Initial s) : s.Kept := by
  obtain ⟨a, b, n, m, o, clock, c, rfl⟩ := hs
  constructor
  · exact initial_good ⟨a, b, n, m, o, clock, c, rfl⟩
  · exact Rearm.Timer.started_sound
  all_goals simp

private theorem reached_kept (h : Reached s) : s.Kept := by
  apply Reach.invariant (P := Kept) _ _ h
  · intro s hs
    exact initial_kept hs
  · intro s e s' _ hs _ he
    exact hs.move (exec_move he)

/-- In every order of the device's own work with its timer and any number of calls of `freedev`: `add_timer` never meets
a pending timer, the timer is pending or its handler runs until the device is marked, one call at most gets to
`del_timer_sync` and releases the targets, and from its return on the timer is neither pending nor running, so no handler
looks at a device whose targets are gone. -/
theorem device_timer_stops (h : Reached s) : (∀ b ∈ s.adds, b = false) ∧ (∀ b ∈ s.looks, b = false) ∧
    (s.dev.flags.tkill = false → s.pending = true ∨ s.handler ≠ none) ∧
    s.releases + s.calls.count .delTimer + s.calls.count .release ≤ 1 ∧
    (s.releases + s.calls.count .release ≠ 0 → s.pending = false ∧ s.handler = none) := by
  have hk := reached_kept h
  refine ⟨hk.adds, hk.looks, ?_, ?_, ?_⟩
  · intro ht
    rcases hk.sound.alive ht with hp | hr
    · exact .inl hp
    · exact .inr (rearms_iff.mp hr)
  · rw [hk.claims]
    split
    · simp
    · simp
  · intro hd
    have hdead := hk.sound.dead (decide_eq_true hd)
    simpa [timer] using hdead.2

/-- Two calls of `flush` want the device, and the first finds the handler under way. -/
def sampleCalls : List Event :=
  [.fire, .handler default, .handler default, .dev (.flushDev .exiting default), .freedev, .freedev, .fire, .call 0,
    .handler default, .call 0, .call 1, .call 0]

def sampleTimed : TimedDev := ⟨sampleStart, true, none, false, false, [], 0, [], []⟩

/-- One timer was added and one call releases the targets. -/
theorem device_timer_stops_sample : ∃ s, Reached s ∧ s.adds = [false] ∧ s.looks.length = 3 ∧ s.releases = 1 ∧
    s.calls = [.mark] ∧ s.pending = false ∧ s.handler = none := by
  have htest : (execute exec sampleTimed sampleCalls).any (fun s => s.adds.length == 1 && s.looks.length == 3 &&
      s.releases == 1 && s.calls == [.mark]) = true := by decide +kernel
  obtain ⟨s, hs, ht⟩ := (Option.any_eq_true _ _).mp htest
  have hstart : Reached sampleTimed := .init ⟨_, _, _, _, _, _, _, rfl⟩
  have hr : Reached s := by
    apply Reach.execute _ sampleCalls hstart hs
    · simp
    · intro a e b he _
      exact he
  simp only [Bool.and_eq_true, beq_iff_eq] at ht
  obtain ⟨⟨⟨hadds, hlooks⟩, hreleases⟩, hcalls⟩ := ht
  obtain ⟨hfalse, -, -, -, hdead⟩ := device_timer_stops hr
  obtain ⟨b, hb⟩ := List.length_eq_one_iff.mp hadds
  have hbfalse : b = false := hfalse b (by simp [hb])
  have hquiet := hdead (by omega)
  exact ⟨s, hr, by rw [hb, hbfalse], hlooks, hreleases, hcalls, hquiet.1, hquiet.2⟩

end TimedDev

end AoeDriver
