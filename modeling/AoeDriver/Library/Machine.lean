import Mathlib

/-!
# Guarded runs of a labelled transition system

A state is reached when it is an initial state or follows a reached state by a step whose label meets a guard.
A guard that holds everywhere gives ordinary reachability.
-/

namespace Machine

variable {σ ε : Type*} {Init : σ → Prop} {step : σ → ε → σ → Prop} {ok ok' : σ → ε → σ → Prop}

inductive Reach (Init : σ → Prop) (step : σ → ε → σ → Prop) (ok : σ → ε → σ → Prop) : σ → Prop where
  | init {s : σ} : Init s → Reach Init step ok s
  | step {s s' : σ} {e : ε} : Reach Init step ok s → ok s e s' → step s e s' → Reach Init step ok s'

theorem Reach.invariant {P : σ → Prop} (hinit : ∀ s, Init s → P s)
    (hstep : ∀ s e s', Reach Init step ok s → P s → ok s e s' → step s e s' → P s') {s : σ}
    (h : Reach Init step ok s) : P s := by
  induction h with
  | init hs => exact hinit _ hs
  | step hs hok hst ih => exact hstep _ _ _ hs ih hok hst

theorem Reach.mono (himp : ∀ s e s', ok s e s' → ok' s e s') {s : σ} (h : Reach Init step ok s) :
    Reach Init step ok' s := by
  induction h with
  | init hs => exact .init hs
  | step _ hok hst ih => exact .step ih (himp _ _ _ hok) hst

/-- The states along a list of labels, for a step given by a partial function. -/
def execute (exec : σ → ε → Option σ) : σ → List ε → Option σ
  | s, [] => some s
  | s, e :: es => (exec s e).bind fun s' => execute exec s' es

theorem Reach.execute {exec : σ → ε → Option σ} (hexec : ∀ s e s', exec s e = some s' → ok s e s' → step s e s')
    (es : List ε) {s s' : σ} (h : Reach Init step ok s) (hrun : Machine.execute exec s es = some s')
    (hok : ∀ s e s', exec s e = some s' → e ∈ es → ok s e s') : Reach Init step ok s' := by
  induction es generalizing s with
  | nil =>
    simp only [Machine.execute, Option.some.injEq] at hrun
    exact hrun ▸ h
  | cons e es ih =>
    simp only [Machine.execute, Option.bind_eq_some_iff] at hrun
    obtain ⟨t, ht, hrest⟩ := hrun
    have hokt := hok s e t ht (by simp)
    apply ih (.step h hokt (hexec _ _ _ ht hokt)) hrest
    intro a b c hab hb
    exact hok a b c hab (by simp [hb])

/-- The step where the guard is met. -/
def guarded (exec : σ → ε → Option σ) (guard : σ → ε → Bool) (s : σ) (e : ε) : Option σ :=
  if guard s e then exec s e else none

private theorem guarded_some {exec : σ → ε → Option σ} {guard : σ → ε → Bool} {s s' : σ} {e : ε}
    (h : guarded exec guard s e = some s') : guard s e = true ∧ exec s e = some s' := by
  unfold guarded at h
  split at h
  · rename_i hg
    exact ⟨hg, h⟩
  · exact absurd h (by simp)

theorem Reach.guarded (exec : σ → ε → Option σ) (guard : σ → ε → Bool) (hexec : ∀ s e s', exec s e = some s' → step s e s')
    (es : List ε) {s s' : σ} (h : Reach Init step (fun s e _ => guard s e = true) s)
    (hrun : Machine.execute (Machine.guarded exec guard) s es = some s') :
    Reach Init step (fun s e _ => guard s e = true) s' := by
  apply Reach.execute _ es h hrun
  · intro s e s' he _
    exact (guarded_some he).1
  · intro s e s' he _
    exact hexec s e s' (guarded_some he).2

end Machine
