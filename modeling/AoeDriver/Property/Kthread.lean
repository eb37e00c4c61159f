import AoeDriver.Model.Kthread

/-!
# The queue and the sleep of a kernel thread

Whatever is handed over is worked on once and in order, and the thread does not sleep on work. It may sleep through the
order to stop.
-/

namespace AoeDriver

open Machine

namespace Kthread

variable {α : Type} {s s' : Kthread α}

private theorem put_some {c : ℕ} (h : s.put c = some s') : ∃ a rest, s.posters c = some ⟨a :: rest, false⟩ ∧
    s' = { s.setPoster c (some ⟨rest, true⟩) with queue := s.queue ++ [a], puts := s.puts ++ [(c, a)] } := by
  unfold put at h
  split at h
  · rename_i a rest hp
    exact ⟨a, rest, hp, (Option.some.inj h).symm⟩
  · simp at h

private theorem wakeUp_some {c : ℕ} (h : s.wakeUp c = some s') : ∃ rest, s.posters c = some ⟨rest, true⟩ ∧
    s' = s.wake.setPoster c (if rest.isEmpty then none else some ⟨rest, false⟩) := by
  unfold wakeUp at h
  split at h
  · rename_i rest hp
    exact ⟨rest, hp, (Option.some.inj h).symm⟩
  · simp at h

private theorem lock_some (h : s.lock = some s') : ∃ i, s.pc = .locking i ∧ (s' = { s with pc := .checking } ∨
    s.queue = [] ∧ s' = { s with pc := .armed, interruptible := true } ∨
    ∃ a q, s.queue = a :: q ∧ s' = { s with pc := .working a i, queue := q }) := by
  unfold lock at h
  split at h
  · rename_i i hpc
    refine ⟨i, hpc, ?_⟩
    split at h
    · exact .inl (Option.some.inj h).symm
    · split at h
      · rename_i hq
        exact .inr (.inl ⟨hq, (Option.some.inj h).symm⟩)
      · rename_i a q hq
        exact .inr (.inr ⟨a, q, hq, (Option.some.inj h).symm⟩)
  · simp at h

private theorem work_some (h : s.work = some s') : ∃ a i, s.pc = .working a i ∧
    s' = { s with pc := .locking (i + 1), done := s.done ++ [a] } := by
  unfold work at h
  split at h
  · rename_i a i hpc
    exact ⟨a, i, hpc, (Option.some.inj h).symm⟩
  · simp at h

private theorem schedule_some (h : s.schedule = some s') : s.pc = .armed ∧
    s' = { s with pc := if s.interruptible then .asleep else .woken } := by
  unfold schedule at h
  split at h
  · rename_i hpc
    exact ⟨hpc, (Option.some.inj h).symm⟩
  · simp at h

private theorem removeWaitQueue_some (h : s.removeWaitQueue = some s') :
    s.pc = .woken ∧ s' = { s with pc := .checking } := by
  unfold removeWaitQueue at h
  split at h
  · rename_i hpc
    exact ⟨hpc, (Option.some.inj h).symm⟩
  · simp at h

private theorem check_some (h : s.check = some s') : s.pc = .checking ∧
    s' = { s with pc := if s.shouldStop then .exited else .locking 0 } := by
  unfold check at h
  split at h
  · rename_i hpc
    exact ⟨hpc, (Option.some.inj h).symm⟩
  · simp at h

private theorem purge_some (h : s.purge = some s') : s.pc = .exited ∧ s.purgedAt = none ∧
    s' = { s with queue := [], purged := s.queue, purgedAt := some s.puts.length } := by
  unfold purge at h
  split at h
  · rename_i hpc hp
    exact ⟨hpc, hp, (Option.some.inj h).symm⟩
  · simp at h

private theorem stop_some (h : s.exec .stop = some s') : s.shouldStop = false ∧
    s' = { s.wake with shouldStop := true, stoppedInFn := s.inFn } := by
  simp only [exec] at h
  split at h
  · simp at h
  · rename_i hs
    exact ⟨by simpa using hs, (Option.some.inj h).symm⟩

private theorem wake_fields (s : Kthread α) :
    s.wake.queue = s.queue ∧ s.wake.posters = s.posters ∧ s.wake.chains = s.chains ∧
    s.wake.puts = s.puts ∧ s.wake.done = s.done ∧ s.wake.purged = s.purged ∧ s.wake.purgedAt = s.purgedAt ∧
    s.wake.hand = s.hand ∧ s.wake.shouldStop = s.shouldStop ∧ s.wake.stoppedInFn = s.stoppedInFn := by
  unfold wake
  split <;> simp_all [hand]

/-- What the history says of the queue. -/
structure Ordered (s : Kthread α) : Prop where
  fifo : s.puts.map Prod.snd = s.done ++ s.hand ++ s.purged ++ s.queue
  calls : ∀ c chain, s.chains[c]? = some chain → (s.puts.filter (·.1 = c)).map Prod.snd ++ s.rest c = chain
  known : ∀ c, s.chains.length ≤ c → s.posters c = none ∧ ∀ a, (c, a) ∉ s.puts
  unpurged : s.purgedAt = none → s.purged = []
  frozen : ∀ n, s.purgedAt = some n → s.pc = .exited ∧ s.done.length + s.purged.length = n

private theorem rest_setPoster (s : Kthread α) (c : ℕ) (p : Option (Poster α)) (c' : ℕ) :
    (s.setPoster c p).rest c' = if c' = c then p.elim [] Poster.rest else s.rest c' := by
  unfold rest setPoster
  by_cases hc : c' = c
  · simp [hc]
  · simp [hc]

theorem Ordered.congr (h : s.Ordered) (hq : s'.queue = s.queue) (hp : s'.posters = s.posters) (hc : s'.chains = s.chains)
    (hputs : s'.puts = s.puts) (hd : s'.done = s.done) (hpu : s'.purged = s.purged) (hat : s'.purgedAt = s.purgedAt)
    (hh : s'.hand = s.hand) (hpc : s.pc = .exited → s'.pc = .exited) : s'.Ordered := by
  constructor
  · rw [hputs, hd, hh, hpu, hq]
    exact h.fifo
  · intro c chain
    have hrest : s'.rest c = s.rest c := by simp [rest, hp]
    rw [hc, hputs, hrest]
    exact h.calls c chain
  · rw [hc, hp, hputs]
    exact h.known
  · rw [hat, hpu]
    exact h.unpurged
  · intro n
    rw [hat, hd, hpu]
    intro hn
    exact ⟨hpc (h.frozen n hn).1, (h.frozen n hn).2⟩

theorem Ordered.goto (h : s.Ordered) {pc : KthreadPc α} (b : Bool) (hh : s.hand = [])
    (hpc : ∀ a i, pc ≠ .working a i) (hx : s.pc ≠ .exited) : { s with pc := pc, interruptible := b }.Ordered := by
  apply h.congr
  all_goals try rfl
  · rw [hh]
    unfold hand
    split
    · rename_i a i hw
      exact absurd hw (hpc a i)
    · rfl
  · intro he
    exact absurd he hx

theorem Ordered.wake (h : s.Ordered) : s.wake.Ordered := by
  obtain ⟨h₁, h₂, h₃, h₄, h₅, h₆, h₇, h₈, -, -⟩ := wake_fields s
  apply h.congr h₁ h₂ h₃ h₄ h₅ h₆ h₇ h₈
  intro he
  simp [Kthread.wake, he]

theorem Ordered.post (h : s.Ordered) (chain : List α) :
    { s.setPoster s.chains.length (if chain.isEmpty then none else some ⟨chain, false⟩) with
      chains := s.chains ++ [chain] }.Ordered := by
  have hnew : (if chain.isEmpty then none else some (Poster.mk chain false)).elim [] Poster.rest = chain := by
    cases chain <;> simp
  constructor
  · exact h.fifo
  · intro c chain' hc
    change (s.puts.filter (·.1 = c)).map Prod.snd ++ (s.setPoster _ _).rest c = chain'
    rw [rest_setPoster, hnew]
    rcases Nat.lt_trichotomy c s.chains.length with hlt | rfl | hgt
    · have hc' : s.chains[c]? = some chain' := by
        rw [List.getElem?_append_left hlt] at hc
        exact hc
      rw [if_neg (by omega)]
      exact h.calls c chain' hc'
    · have hnone : s.puts.filter (·.1 = s.chains.length) = [] := by
        rw [List.filter_eq_nil_iff]
        rintro ⟨c, a⟩ ha
        have := (h.known s.chains.length le_rfl).2 a
        simp only [decide_eq_true_eq]
        rintro rfl
        exact this ha
      simp at hc
      simp [hnone, hc]
    · rw [List.getElem?_eq_none (by simp; omega)] at hc
      simp at hc
  · intro c hc
    simp only [List.length_append, List.length_singleton] at hc
    obtain ⟨hp, ha⟩ := h.known c (by omega)
    refine ⟨?_, ha⟩
    simp only [setPoster]
    rw [Function.update_of_ne (by omega)]
    exact hp
  · exact h.unpurged
  · exact h.frozen

theorem Ordered.put (h : s.Ordered) {c : ℕ} {a : α} {rest : List α} (hp : s.posters c = some ⟨a :: rest, false⟩) :
    { s.setPoster c (some ⟨rest, true⟩) with queue := s.queue ++ [a], puts := s.puts ++ [(c, a)] }.Ordered := by
  have hlt : c < s.chains.length := by
    by_contra hle
    rw [(h.known c (by omega)).1] at hp
    simp at hp
  constructor
  · change (s.puts ++ [(c, a)]).map Prod.snd = s.done ++ s.hand ++ s.purged ++ (s.queue ++ [a])
    rw [List.map_append, h.fifo]
    simp
  · intro c' chain hc
    change ((s.puts ++ [(c, a)]).filter (·.1 = c')).map Prod.snd ++ (s.setPoster c _).rest c' = chain
    have hold := h.calls c' chain hc
    rw [rest_setPoster]
    by_cases hcc : c' = c
    · subst hcc
      simp only [Kthread.rest, hp, Option.elim_some] at hold
      simp [← hold]
    · simp [hcc, Ne.symm hcc, hold]
  · intro c' hc
    obtain ⟨hp', ha⟩ := h.known c' hc
    have hne : c' ≠ c := by
      have hc' : s.chains.length ≤ c' := hc
      omega
    refine ⟨?_, ?_⟩
    · simp only [setPoster]
      rw [Function.update_of_ne hne]
      exact hp'
    · intro x hx
      rcases List.mem_append.mp hx with hx | hx
      · exact ha x hx
      · simp at hx
        exact hne hx.1
  · exact h.unpurged
  · exact h.frozen

theorem Ordered.wakeUp (h : s.Ordered) {c : ℕ} {rest : List α} (hp : s.posters c = some ⟨rest, true⟩) :
    (s.setPoster c (if rest.isEmpty then none else some ⟨rest, false⟩)).Ordered := by
  have hnew : (if rest.isEmpty then none else some (Poster.mk rest false)).elim [] Poster.rest = rest := by
    cases rest <;> simp
  constructor
  · exact h.fifo
  · intro c' chain hc
    change (s.puts.filter (·.1 = c')).map Prod.snd ++ (s.setPoster c _).rest c' = chain
    have hold := h.calls c' chain hc
    rw [rest_setPoster, hnew]
    by_cases hcc : c' = c
    · simpa [Kthread.rest, hcc, hp] using hold
    · simpa [hcc] using hold
  · intro c' hc
    obtain ⟨hp', ha⟩ := h.known c' hc
    refine ⟨?_, ha⟩
    simp only [setPoster]
    rw [Function.update_of_ne]
    · exact hp'
    · rintro rfl
      simp [hp'] at hp
  · exact h.unpurged
  · exact h.frozen

theorem Ordered.exec {e : Event α} (h : s.Ordered) (he : s.exec e = some s') : s'.Ordered := by
  cases e with
  | post chain =>
    rw [← Option.some.inj he]
    exact h.post chain
  | put c =>
    obtain ⟨a, rest, hp, rfl⟩ := put_some he
    exact h.put hp
  | wakeUp c =>
    obtain ⟨rest, hp, rfl⟩ := wakeUp_some he
    apply h.wake.wakeUp
    rw [(wake_fields s).2.1]
    exact hp
  | lock =>
    obtain ⟨i, hpc, rfl | ⟨hq, rfl⟩ | ⟨a, q, hq, rfl⟩⟩ := lock_some he
    · apply h.goto s.interruptible <;> simp [hand, hpc]
    · apply h.goto true <;> simp [hand, hpc]
    · have hfifo := h.fifo
      have hunpurged : s.purged = [] := by
        apply h.unpurged
        by_contra hne
        obtain ⟨n, hn⟩ := Option.ne_none_iff_exists'.mp hne
        have := (h.frozen n hn).1
        simp [hpc] at this
      refine { h with fifo := ?_, frozen := ?_ }
      · simp [hand, hpc, hq, hunpurged] at hfifo
        simp [hand, hfifo, hunpurged]
      · intro n hn
        have := (h.frozen n hn).1
        simp [hpc] at this
  | work =>
    obtain ⟨a, i, hpc, rfl⟩ := work_some he
    have hfifo := h.fifo
    refine { h with fifo := ?_, frozen := ?_ }
    · simp [hand, hpc] at hfifo
      simp [hand, hfifo]
    · intro n hn
      have := (h.frozen n hn).1
      simp [hpc] at this
  | schedule =>
    obtain ⟨hpc, rfl⟩ := schedule_some he
    apply h.goto s.interruptible
    · simp [hand, hpc]
    · intro a i
      split <;> simp
    · simp [hpc]
  | removeWaitQueue =>
    obtain ⟨hpc, rfl⟩ := removeWaitQueue_some he
    apply h.goto s.interruptible <;> simp [hand, hpc]
  | check =>
    obtain ⟨hpc, rfl⟩ := check_some he
    apply h.goto s.interruptible
    · simp [hand, hpc]
    · intro a i
      split <;> simp
    · simp [hpc]
  | stop =>
    obtain ⟨-, rfl⟩ := stop_some he
    apply h.wake.congr <;> try rfl
    exact id
  | purge =>
    obtain ⟨hpc, hat, rfl⟩ := purge_some he
    have hfifo := h.fifo
    have hlen := congrArg List.length hfifo
    simp [hand, hpc, h.unpurged hat] at hfifo hlen
    refine { h with fifo := ?_, unpurged := by simp, frozen := ?_ }
    · simp [hand, hpc, hfifo]
    · rintro n hn
      simp at hn
      exact ⟨hpc, by simp [← hn, hlen]⟩
  | maxioc n =>
    rw [← Option.some.inj he]
    apply h.congr <;> try rfl
    exact id

private theorem reached_ordered (h : Reached s) : s.Ordered := by
  apply Reach.invariant (P := Ordered) _ _ h
  · rintro s ⟨n, rfl⟩
    constructor <;> simp [init, hand]
  · intro s e s' _ hs _ hstep
    exact hs.exec hstep

private theorem queue_in_order (h : Reached s) :
    s.puts.map Prod.snd = s.done ++ s.hand ++ s.purged ++ s.queue ∧
    (∀ c chain, s.chains[c]? = some chain → (s.puts.filter (·.1 = c)).map Prod.snd ++ s.rest c = chain) ∧
    ∀ n, s.purgedAt = some n → s.hand = [] ∧ s.queue = (s.puts.drop n).map Prod.snd := by
  have ho := reached_ordered h
  refine ⟨ho.fifo, ho.calls, ?_⟩
  intro n hn
  obtain ⟨hpc, hlen⟩ := ho.frozen n hn
  have hhand : s.hand = [] := by simp [hand, hpc]
  refine ⟨hhand, ?_⟩
  have hfifo := ho.fifo
  rw [hhand, List.append_nil] at hfifo
  rw [List.map_drop, hfifo, List.drop_append_of_le_length]
  · simp [← hlen]
  · simp [← hlen]

/-- Some call is in front of `wake_up`. -/
def Waking (s : Kthread α) : Prop := ∃ c p, s.posters c = some p ∧ p.wake = true

/-- A thread that means to sleep has found the queue empty, or is about to be woken up. -/
structure Sleeps (s : Kthread α) : Prop where
  asleep : s.pc = .asleep → s.interruptible = true
  ready : s.interruptible = true → s.pc = .armed ∨ s.pc = .asleep
  work : s.interruptible = true → s.queue = [] ∨ s.Waking
  late : s.interruptible = true → s.shouldStop = true → s.stoppedInFn = true
  exits : s.shouldStop = true → s.stoppedInFn = false → s.inFn = false

private theorem wake_interruptible (h : s.Sleeps) : s.wake.interruptible = false := by
  have hready := h.ready
  unfold wake
  split
  · rfl
  · rfl
  · rename_i ha hs
    by_contra hi
    rcases hready (by simpa using hi) with hpc | hpc
    · exact ha hpc
    · exact hs hpc

private theorem wake_pc (s : Kthread α) : s.wake.pc ≠ .asleep ∧ s.wake.inFn = s.inFn := by
  unfold wake
  split <;> simp_all [inFn]

theorem Sleeps.run (h : s'.interruptible = false) (hpc : s'.pc ≠ .asleep)
    (hx : s'.shouldStop = true → s'.stoppedInFn = false → s'.inFn = false) : s'.Sleeps := by
  constructor <;> simp_all

theorem Sleeps.exec {e : Event α} (ho : s.Ordered) (h : s.Sleeps) (he : s.exec e = some s') : s'.Sleeps := by
  have hrun (hpc : s.pc ≠ .armed) (hpc' : s.pc ≠ .asleep) : s.interruptible = false := by
    by_contra hi
    rcases h.ready (by simpa using hi) with hpc'' | hpc''
    · exact hpc hpc''
    · exact hpc' hpc''
  -- a call that is in front of `wake_up` stays there while another one is changed
  have hother {c : ℕ} {p : Option (Poster α)} (hc : ∀ q, s.posters c = some q → q.wake = false) (hw : s.Waking) :
      (s.setPoster c p).Waking := by
    obtain ⟨c', q, hq, hwake⟩ := hw
    refine ⟨c', q, ?_, hwake⟩
    have hne : c' ≠ c := by
      rintro rfl
      simp [hc q hq] at hwake
    simp [setPoster, hne, hq]
  cases e with
  | post chain =>
    rw [← Option.some.inj he]
    have hnew := (ho.known s.chains.length le_rfl).1
    refine { h with work := fun hi => (h.work hi).imp_right fun hw => ?_ }
    have hw' := hother (c := s.chains.length) (p := if chain.isEmpty then none else some ⟨chain, false⟩) (by simp [hnew]) hw
    exact hw'
  | put c =>
    obtain ⟨a, rest, hp, rfl⟩ := put_some he
    refine { h with work := fun _ => .inr ⟨c, ⟨rest, true⟩, ?_, rfl⟩ }
    simp [setPoster]
  | wakeUp c =>
    obtain ⟨rest, hp, rfl⟩ := wakeUp_some he
    apply Sleeps.run
    · exact wake_interruptible h
    · exact (wake_pc s).1
    · obtain ⟨-, -, -, -, -, -, -, -, hstop, hfn⟩ := wake_fields s
      intro hs hl
      have hx := h.exits (hstop ▸ hs) (hfn ▸ hl)
      exact (wake_pc s).2.trans hx
  | lock =>
    obtain ⟨i, hpc, rfl | ⟨hq, rfl⟩ | ⟨a, q, hq, rfl⟩⟩ := lock_some he
    · apply Sleeps.run <;> simp_all [inFn]
    · have hx := h.exits
      constructor <;> simp_all [inFn]
    · have hx := h.exits
      apply Sleeps.run <;> simp_all [inFn]
  | work =>
    obtain ⟨a, i, hpc, rfl⟩ := work_some he
    have hx := h.exits
    apply Sleeps.run <;> simp_all [inFn]
  | schedule =>
    obtain ⟨hpc, rfl⟩ := schedule_some he
    cases hi : s.interruptible with
    | true =>
      have hw := h.work hi
      have hl := h.late hi
      constructor
      · simp
      · simp
      · exact fun _ => hw
      · exact fun _ => hl
      · simp [inFn]
    | false => apply Sleeps.run <;> simp [inFn]
  | removeWaitQueue =>
    obtain ⟨hpc, rfl⟩ := removeWaitQueue_some he
    apply Sleeps.run <;> simp_all [inFn]
  | check =>
    obtain ⟨hpc, rfl⟩ := check_some he
    cases hs : s.shouldStop with
    | true => apply Sleeps.run <;> simp_all [inFn]
    | false => apply Sleeps.run <;> simp_all [inFn]
  | stop =>
    obtain ⟨hs, rfl⟩ := stop_some he
    apply Sleeps.run
    · exact wake_interruptible h
    · exact (wake_pc s).1
    · intro _ hl
      exact (wake_pc s).2.trans hl
  | purge =>
    obtain ⟨hpc, hat, rfl⟩ := purge_some he
    exact { h with work := fun _ => .inl rfl }
  | maxioc n =>
    rw [← Option.some.inj he]
    exact { h with }

private theorem reached_sleeps (h : Reached s) : s.Sleeps := by
  apply Reach.invariant (P := Sleeps) _ _ h
  · rintro s ⟨n, rfl⟩
    apply Sleeps.run <;> simp [init]
  · intro s e s' hs hsl _ hstep
    exact hsl.exec (reached_ordered hs) hstep

private theorem reached_execute {n : ℤ} (es : List (Event α)) (h : Machine.execute exec (init n) es = some s) :
    Reached s := by
  apply Reach.execute _ es (.init ⟨n, rfl⟩) h
  · simp
  · intro s e s' he _
    exact he

/-- The thread sleeps only when its queue is empty or a call that added to it is about to wake it up. -/
theorem no_sleep_on_work (h : Reached s) (hpc : s.pc = .asleep) (hq : s.queue ≠ []) : s.Waking := by
  have hs := reached_sleeps h
  have hw := hs.work (hs.asleep hpc)
  simpa [hq] using hw

/-- A packet is queued while the thread sleeps. -/
theorem no_sleep_on_work_posted : ∃ s : Kthread ℕ, Reached s ∧ s.pc = .asleep ∧ s.queue = [5] ∧ s.Waking := by
  have h := reached_execute (α := ℕ) (n := 0) [.lock, .schedule, .post [5], .put 0] rfl
  exact ⟨_, h, rfl, rfl, no_sleep_on_work h rfl (by simp [init, setPoster])⟩

/-- The next step of the thread itself, if it is not asleep. -/
def advance (s : Kthread α) : Kthread α :=
  (s.lock <|> s.work <|> s.schedule <|> s.removeWaitQueue <|> s.check).getD s

private theorem asleep_stays {e : Event α} (hs : s.shouldStop = true) (hpc : s.pc = .asleep) (he : s.exec e = some s') :
    s'.pc = .asleep ∨ ∃ c, e = .wakeUp c := by
  cases e with
  | post chain =>
    rw [← Option.some.inj he]
    simp [setPoster, hpc]
  | put c =>
    obtain ⟨a, rest, hp, rfl⟩ := put_some he
    simp [setPoster, hpc]
  | wakeUp c => simp
  | lock => simp [exec, lock, hpc] at he
  | work => simp [exec, work, hpc] at he
  | schedule => simp [exec, schedule, hpc] at he
  | removeWaitQueue => simp [exec, removeWaitQueue, hpc] at he
  | check => simp [exec, check, hpc] at he
  | stop => simp [exec, hs] at he
  | purge => simp [exec, purge, hpc] at he
  | maxioc n =>
    rw [← Option.some.inj he]
    simp [hpc]

private theorem advance_exits (hfn : s.inFn = false) (hi : s.interruptible = false) (hs : s.shouldStop = true)
    (hpc : s.pc ≠ .asleep) : (advance^[3] s).pc = .exited := by
  cases hp : s.pc with
  | locking i => simp [inFn, hp] at hfn
  | working a i => simp [inFn, hp] at hfn
  | armed => simp [advance, lock, work, schedule, removeWaitQueue, check, hp, hi, hs]
  | asleep => exact absurd hp hpc
  | woken => simp [advance, lock, work, schedule, removeWaitQueue, check, hp, hs]
  | checking => simp [advance, lock, work, schedule, removeWaitQueue, check, hp, hs]
  | exited => simp [advance, lock, work, schedule, removeWaitQueue, check, hp]

/-- A thread that is told to stop outside `fn` ends with its next three steps. One that is told so in `fn` may go to
sleep nevertheless, and then only a new item wakes it up: `aoe_ktstop` waits for it. -/
theorem kthread_stops (h : Reached s) (hs : s.shouldStop = true) :
    (s.stoppedInFn = false → (advance^[3] s).pc = .exited) ∧
    (s.pc = .asleep → s.stoppedInFn = true ∧ ∀ e s', s.exec e = some s' → s'.pc = .asleep ∨ ∃ c, e = .wakeUp c) := by
  have hsl := reached_sleeps h
  constructor
  · intro hl
    have hi : s.interruptible = false := by
      by_contra hi
      simp [hsl.late (by simpa using hi) hs] at hl
    apply advance_exits (hsl.exits hs hl) hi hs
    intro hpc
    simp [hsl.asleep hpc] at hi
  · intro hpc
    refine ⟨hsl.late (hsl.asleep hpc) hs, ?_⟩
    intro e s' he
    exact asleep_stays hs hpc he

/-- The order to stop comes while the thread is in `fn`, finds the queue empty and goes to sleep. -/
theorem kthread_stops_late : ∃ s : Kthread ℕ, Reached s ∧ s.shouldStop = true ∧ s.pc = .asleep ∧
    ∀ e s', s.exec e = some s' → s'.pc = .asleep ∨ ∃ c, e = .wakeUp c := by
  have h := reached_execute (α := ℕ) (n := 0) [.stop, .lock, .schedule] rfl
  exact ⟨_, h, rfl, rfl, ((kthread_stops h rfl).2 rfl).2⟩

end Kthread

namespace Tx

variable {s s' : Tx}

/-- Between two packets `PF_MEMALLOC` is clear, and each packet went out with the flag exactly if it is a write. -/
structure Flagged (s : Tx) : Prop where
  memalloc : s.memalloc = false
  xmits : s.xmits = s.thread.done.map fun skb => (skb, skb.write)

private theorem send_write (skb : TxSkb) : send false skb = (skb.write, false) := by
  cases h : skb.write <;> simp [send, h]

/-- Only the work on an item adds to what is done. -/
private theorem done_same {t t' : Kthread TxSkb} {e : Kthread.Event TxSkb} (he : t.exec e = some t') (hw : e ≠ .work) :
    t'.done = t.done := by
  cases e with
  | post chain =>
    rw [← Option.some.inj he]
    rfl
  | put c =>
    obtain ⟨a, rest, -, rfl⟩ := Kthread.put_some he
    rfl
  | wakeUp c =>
    obtain ⟨rest, -, rfl⟩ := Kthread.wakeUp_some he
    exact (Kthread.wake_fields t).2.2.2.2.1
  | lock =>
    obtain ⟨i, -, rfl | ⟨-, rfl⟩ | ⟨a, q, -, rfl⟩⟩ := Kthread.lock_some he <;> rfl
  | work => exact absurd rfl hw
  | schedule =>
    obtain ⟨-, rfl⟩ := Kthread.schedule_some he
    rfl
  | removeWaitQueue =>
    obtain ⟨-, rfl⟩ := Kthread.removeWaitQueue_some he
    rfl
  | check =>
    obtain ⟨-, rfl⟩ := Kthread.check_some he
    rfl
  | stop =>
    obtain ⟨-, rfl⟩ := Kthread.stop_some he
    exact (Kthread.wake_fields t).2.2.2.2.1
  | purge =>
    obtain ⟨-, -, rfl⟩ := Kthread.purge_some he
    rfl
  | maxioc n =>
    rw [← Option.some.inj he]

private theorem exec_thread {e : Kthread.Event TxSkb} (he : s.exec e = some s') : s.thread.exec e = some s'.thread := by
  obtain ⟨t, ht, rfl⟩ := Option.map_eq_some_iff.mp he
  rw [ht]
  split <;> rfl

theorem Flagged.exec {e : Kthread.Event TxSkb} (h : s.Flagged) (he : s.exec e = some s') : s'.Flagged := by
  obtain ⟨t, ht, rfl⟩ := Option.map_eq_some_iff.mp he
  cases e with
  | work =>
    obtain ⟨skb, i, hpc, rfl⟩ := Kthread.work_some ht
    simp only [hpc, h.memalloc, send_write]
    constructor
    · rfl
    · simp [h.xmits]
  | _ => exact ⟨h.memalloc, by simp [h.xmits, done_same ht]⟩

private theorem reached_flagged (h : Reached s) : s.Flagged := by
  apply Reach.invariant (P := Flagged) _ _ h
  · rintro s rfl
    constructor <;> simp [init, Kthread.init]
  · intro s e s' _ hf _ hstep
    exact hf.exec hstep

private theorem reached_thread (h : Reached s) : s.thread.Reached := by
  apply Reach.invariant (P := fun s => s.thread.Reached) _ _ h
  · rintro s rfl
    exact .init ⟨0, rfl⟩
  · intro s e s' _ ht _ hstep
    exact .step ht trivial (exec_thread hstep)

/-- The packets handed to `aoenet_xmit` are given to `dev_queue_xmit` once each, in the order in which they were queued and
those of one call in the order of its chain, with `PF_MEMALLOC` set for writes and for nothing else. After
`aoenet_exit` has purged the queue, exactly the packets queued since are left in it. -/
theorem packets_in_order (h : Reached s) :
    s.thread.puts.map Prod.snd = s.xmits.map Prod.fst ++ s.thread.hand ++ s.thread.purged ++ s.thread.queue ∧
    (∀ c chain, s.thread.chains[c]? = some chain →
      (s.thread.puts.filter (·.1 = c)).map Prod.snd ++ s.thread.rest c = chain) ∧
    (∀ x ∈ s.xmits, x.2 = x.1.write) ∧ s.memalloc = false ∧
    ∀ n, s.thread.purgedAt = some n → s.thread.hand = [] ∧ s.thread.queue = (s.thread.puts.drop n).map Prod.snd := by
  obtain ⟨hfifo, hcalls, hpurge⟩ := Kthread.queue_in_order (reached_thread h)
  have hf := reached_flagged h
  have hdone : s.xmits.map Prod.fst = s.thread.done := by
    rw [hf.xmits, List.map_map]
    simp [Function.comp_def]
  refine ⟨?_, hcalls, ?_, hf.memalloc, hpurge⟩
  · rw [hdone]
    exact hfifo
  · rw [hf.xmits]
    simp

/-- Two packets of one call: the first has been sent when the second is queued. -/
theorem packets_in_order_pair : ∃ s : Tx, Reached s ∧ s.xmits.map Prod.fst = [⟨1, true⟩] ∧ s.thread.queue = [⟨2, false⟩] ∧
    (∀ x ∈ s.xmits, x.2 = x.1.write) := by
  let es : List (Kthread.Event TxSkb) := [.post [⟨1, true⟩, ⟨2, false⟩], .put 0, .lock, .work, .wakeUp 0, .put 0]
  have h : ∃ s, Machine.execute exec init es = some s ∧ s.xmits.map Prod.fst = [⟨1, true⟩] ∧ s.thread.queue = [⟨2, false⟩] :=
    ⟨_, rfl, rfl, rfl⟩
  obtain ⟨s, hrun, hx, hq⟩ := h
  have hinit : Reached init := .init rfl
  have hs : Reached s := by
    apply Reach.execute _ es hinit hrun
    · intro s e s' _ he n
      rintro rfl
      simp [es] at he
    · intro s e s' he _
      exact he
  exact ⟨s, hs, hx, hq, (packets_in_order hs).2.2.1⟩

end Tx

end AoeDriver
