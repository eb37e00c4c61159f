import AoeDriver.Library.Machine

/-!
# Timers that start themselves again

The handler of such a timer looks at a flag and adds the timer again unless the flag is set; the look and the addition
may be apart. Whoever wants an end to it sets the flag, then waits until no handler runs and takes the timer out. The
timer never runs beside itself.
-/

namespace Rearm

open Machine

/-- A handler in front of its look at the flag, in front of `add`, or past both. -/
inductive Stage where
  | deciding
  | arming
  | leaving
deriving DecidableEq

/-- `deleted` once the timer was waited for and taken out. -/
structure Timer where
  pending : Bool
  handler : Option Stage
  kill : Bool
  deleted : Bool
deriving DecidableEq

inductive Event where
  | fire
  | decide
  | arm
  | leave
  | kill
  | delete

/-- `none` where the event cannot happen. -/
def Timer.exec (t : Timer) : Event → Option Timer
  | .fire => if t.pending ∧ t.handler = none then some { t with pending := false, handler := some .deciding } else none
  | .decide =>
    if t.handler = some .deciding then some { t with handler := some (if t.kill then .leaving else .arming) } else none
  | .arm => if t.handler = some .arming then some { t with pending := true, handler := some .leaving } else none
  | .leave => if t.handler = some .leaving then some { t with handler := none } else none
  | .kill => some { t with kill := true }
  | .delete => if t.kill ∧ t.handler = none then some { t with pending := false, deleted := true } else none

/-- The handler has yet to decide, or has decided to add the timer. -/
def Timer.rearms (t : Timer) : Prop := t.handler = some .deciding ∨ t.handler = some .arming

structure Timer.Sound (t : Timer) : Prop where
  apart : t.pending = true → ¬t.rearms
  alive : t.kill = false → t.pending = true ∨ t.rearms
  dead : t.deleted = true → t.kill = true ∧ t.pending = false ∧ t.handler = none

variable {t t' : Timer}

/-- The timer has been added once and nothing else has happened. -/
def Timer.started : Timer := ⟨true, none, false, false⟩

theorem Timer.started_sound : started.Sound := by
  constructor
  · simp [rearms, started]
  · simp [started]
  · simp [started]

theorem Timer.Sound.step {e : Event} (h : t.Sound) (he : t.exec e = some t') : t'.Sound := by
  obtain ⟨pending, handler, kill, deleted⟩ := t
  obtain ⟨hapart, halive, hdead⟩ := h
  simp only [rearms] at hapart halive hdead
  cases e with
  | fire =>
    simp only [exec, Option.ite_none_right_eq_some, Option.some.injEq] at he
    obtain ⟨⟨hp, hh⟩, rfl⟩ := he
    constructor
    · simp
    · simp [rearms]
    · intro hd
      simp [hp] at hdead
      exact absurd hd (by simp [hdead])
  | decide =>
    simp only [exec, Option.ite_none_right_eq_some, Option.some.injEq] at he
    obtain ⟨hh, rfl⟩ := he
    constructor
    · intro hp
      exact absurd (.inl hh) (hapart hp)
    · intro hk
      simp only at hk
      simp [rearms, hk]
    · intro hd
      exact absurd (hdead hd).2.2 (by simp [hh])
  | arm =>
    simp only [exec, Option.ite_none_right_eq_some, Option.some.injEq] at he
    obtain ⟨hh, rfl⟩ := he
    constructor
    · simp [rearms]
    · simp
    · intro hd
      exact absurd (hdead hd).2.2 (by simp [hh])
  | leave =>
    simp only [exec, Option.ite_none_right_eq_some, Option.some.injEq] at he
    obtain ⟨hh, rfl⟩ := he
    constructor
    · simp [rearms]
    · intro hk
      simpa [rearms, hh] using halive hk
    · intro hd
      exact ⟨(hdead hd).1, (hdead hd).2.1, rfl⟩
  | kill =>
    simp only [exec, Option.some.injEq] at he
    subst he
    exact ⟨hapart, by simp, fun hd => ⟨rfl, (hdead hd).2⟩⟩
  | delete =>
    simp only [exec, Option.ite_none_right_eq_some, Option.some.injEq] at he
    obtain ⟨⟨hk, hh⟩, rfl⟩ := he
    constructor
    · simp
    · intro hk'
      exact absurd (hk'.symm.trans hk) (by simp)
    · intro _
      exact ⟨hk, rfl, hh⟩

theorem Timer.Sound.run {es : List Event} (h : t.Sound) (he : execute Timer.exec t es = some t') : t'.Sound := by
  induction es generalizing t with
  | nil =>
    simp only [execute, Option.some.injEq] at he
    exact he ▸ h
  | cons e es ih =>
    simp only [execute, Option.bind_eq_some_iff] at he
    obtain ⟨u, hu, hrest⟩ := he
    exact ih (h.step hu) hrest

end Rearm
