import AoeDriver.Model.Ktio

/-!
# Completion queues always have a worker

What holds of the queues and their threads in every interleaving: a queue that holds frames has its flag set, and
only the thread of queue 0 ever finds a device without a thread of its own.
-/

namespace AoeDriver

open Machine

namespace Ktio

/-- Queue `i` may hold frame `f`: its flag is set, and it is queue 0 or that of the device. -/
def Serves (s : Ktio) (i : ℕ) (f : IoFrame) : Prop := s.active i = true ∧ (i = 0 ∨ f.aoeminor % s.ncpus = i)

/-- How far `aoecmd_exit` has come. -/
def Exited (s : Ktio) : Prop :=
  match s.exitPc with
  | .running => True
  | .stopping n => ∀ i < n, s.active i = true → s.worker i = .stopped
  | .flushing n => (∀ i, s.active i = true → s.worker i = .stopped) ∧ ∀ i < n, s.iocq i = []
  | .done => (∀ i, s.active i = true → s.worker i = .stopped) ∧ ∀ i, s.iocq i = []

structure Inv (s : Ktio) : Prop where
  main : s.active 0 = true
  valid : ∀ i, s.active i = true → i < s.ncpus ∧ s.worker i ≠ .absent
  flag : ∀ i, s.worker i ≠ .absent → s.active i = true ∨ s.worker 0 = .starting i
  queue : ∀ i, ∀ f ∈ s.iocq i, s.Serves i f
  busy : ∀ i f, s.worker i = .completing f ∨ s.worker i = .checking f → s.Serves i f
  spawning : ∀ i a, s.worker i = .spawning a → i = 0 ∧ a < s.ncpus
  starting : ∀ i a, s.worker i = .starting a → i = 0 ∧ a < s.ncpus ∧ s.worker a ≠ .absent
  exited : s.Exited

/-- What the history tells: every frame was appended to a queue with a thread, and has left it at most once, to the
thread of that queue or to `aoe_flush_iocq` after all threads were stopped. -/
structure Sound (s : Ktio) : Prop where
  bugOn : s.bugOn = false
  appended : ∀ a ∈ s.appended, a.started = true
  removed : ∀ r ∈ s.removed, r.via = .ktio r.queue ∨ r.via = .flush ∧ r.stopped = true
  account : ∀ i f, s.appended.countP (fun a => a.queue = i ∧ a.frame = f) =
    (s.iocq i).count f + s.removed.countP (fun r => r.queue = i ∧ r.frame = f)

section Inv

variable {s s' : Ktio} {f : IoFrame} {id : ℕ} {w : Worker}

theorem Inv.pos (h : s.Inv) : 0 < s.ncpus := (h.valid 0 h.main).1

theorem Inv.main_stopped (h : s.Inv) (hw : s.worker 0 ≠ .stopped) : s.exitPc = .running ∨ s.exitPc = .stopping 0 := by
  have he := h.exited
  unfold Exited at he
  split at he
  · exact .inl ‹_›
  · rename_i n hpc
    cases n with
    | zero => exact .inr hpc
    | succ n => exact absurd (he 0 (Nat.succ_pos n) h.main) hw
  · exact absurd (he.1 0 h.main) hw
  · exact absurd (he.1 0 h.main) hw

theorem Inv.append (h : s.Inv) (hf : s.Serves id f) (hu : s.unflushed id = true) : (s.append id f).Inv where
  main := h.main
  valid := h.valid
  flag := h.flag
  queue := by
    intro i g hg
    simp only [Ktio.append] at hg
    by_cases hi : i = id
    · subst hi
      rw [Function.update_self, List.mem_append, List.mem_singleton] at hg
      rcases hg with hg | rfl
      · exact h.queue i g hg
      · exact hf
    · rw [Function.update_of_ne hi] at hg
      exact h.queue i g hg
  busy := h.busy
  spawning := h.spawning
  starting := h.starting
  exited := by
    have he := h.exited
    have hold {i : ℕ} (hi : i ≠ id) : (s.append id f).iocq i = s.iocq i := Function.update_of_ne hi _ _
    simp only [unflushed] at hu
    simp only [Exited, Ktio.append] at he ⊢
    cases hpc : s.exitPc with
    | running => trivial
    | stopping n =>
      rw [hpc] at he
      exact he
    | flushing n =>
      rw [hpc] at he hu
      refine ⟨he.1, fun i hi => (hold ?_).trans (he.2 i hi)⟩
      have hn : n ≤ id := by simpa using hu
      omega
    | done =>
      rw [hpc] at hu
      exact absurd hu Bool.false_ne_true

/-- A thread at work goes on to another point of `ktio`. -/
theorem Inv.setWorker (h : s.Inv) (hold : s.worker id ≠ .absent ∧ s.worker id ≠ .stopped)
    (hstart : ∀ a, s.worker id ≠ .starting a) (hw : w ≠ .absent) (hnew : ∀ a, w ≠ .starting a)
    (hbusy : ∀ f, w = .completing f ∨ w = .checking f → s.Serves id f)
    (hspawn : ∀ a, w = .spawning a → id = 0 ∧ a < s.ncpus) : (s.setWorker id w).Inv where
  main := h.main
  valid i hi := by
    refine ⟨(h.valid i hi).1, ?_⟩
    simp only [Ktio.setWorker]
    by_cases hid : i = id
    · rw [hid, Function.update_self]
      exact hw
    · rw [Function.update_of_ne hid]
      exact (h.valid i hi).2
  flag i hi := by
    have hold' : s.worker i ≠ .absent := by
      by_cases hid : i = id
      · exact hid ▸ hold.1
      · simpa only [Ktio.setWorker, Function.update_of_ne hid] using hi
    refine (h.flag i hold').imp_right fun h0 => ?_
    have hne : (0 : ℕ) ≠ id := by
      rintro rfl
      exact hstart i h0
    simpa only [Ktio.setWorker, Function.update_of_ne hne] using h0
  queue := h.queue
  busy i f hi := by
    simp only [Ktio.setWorker] at hi
    by_cases hid : i = id
    · subst hid
      rw [Function.update_self] at hi
      exact hbusy f hi
    · rw [Function.update_of_ne hid] at hi
      exact h.busy i f hi
  spawning i a hi := by
    simp only [Ktio.setWorker] at hi
    by_cases hid : i = id
    · subst hid
      rw [Function.update_self] at hi
      exact hspawn a hi
    · rw [Function.update_of_ne hid] at hi
      exact h.spawning i a hi
  starting i a hi := by
    simp only [Ktio.setWorker] at hi ⊢
    by_cases hid : i = id
    · subst hid
      rw [Function.update_self] at hi
      exact absurd hi (hnew a)
    · rw [Function.update_of_ne hid] at hi
      obtain ⟨h0, ha, hne⟩ := h.starting i a hi
      refine ⟨h0, ha, ?_⟩
      by_cases hai : a = id
      · rw [hai, Function.update_self]
        exact hw
      · rwa [Function.update_of_ne hai]
  exited := by
    have hstop {i : ℕ} (hi : s.worker i = .stopped) : (s.setWorker id w).worker i = .stopped := by
      have hne : i ≠ id := by
        rintro rfl
        exact hold.2 hi
      simpa only [Ktio.setWorker, Function.update_of_ne hne] using hi
    have he := h.exited
    simp only [Exited] at he ⊢
    have hpc : (s.setWorker id w).exitPc = s.exitPc := rfl
    rw [hpc]
    cases hx : s.exitPc with
    | running => trivial
    | stopping n =>
      rw [hx] at he
      exact fun i hi ha => hstop (he i hi ha)
    | flushing n =>
      rw [hx] at he
      exact ⟨fun i ha => hstop (he.1 i ha), he.2⟩
    | done =>
      rw [hx] at he
      exact ⟨fun i ha => hstop (he.1 i ha), he.2⟩

/-- A queue that loses frames, with the same threads. -/
theorem Inv.dequeue (h : s.Inv) (id : ℕ) {q : List IoFrame} (hq : ∀ f ∈ q, f ∈ s.iocq id) :
    { s with iocq := Function.update s.iocq id q }.Inv where
  main := h.main
  valid := h.valid
  flag := h.flag
  queue i f hf := by
    by_cases hid : i = id
    · subst hid
      simp only [Function.update_self] at hf
      exact h.queue i f (hq f hf)
    · simp only [Function.update_of_ne hid] at hf
      exact h.queue i f hf
  busy := h.busy
  spawning := h.spawning
  starting := h.starting
  exited := by
    have hnil {i : ℕ} (hi : s.iocq i = []) : Function.update s.iocq id q i = [] := by
      by_cases hid : i = id
      · subst hid
        rw [Function.update_self]
        exact List.eq_nil_iff_forall_not_mem.mpr fun f hf => by simpa [hi] using hq f hf
      · rwa [Function.update_of_ne hid]
    have he := h.exited
    simp only [Exited] at he ⊢
    cases hx : s.exitPc with
    | running => trivial
    | stopping n =>
      rw [hx] at he
      exact he
    | flushing n =>
      rw [hx] at he
      exact ⟨he.1, fun i hi => hnil (he.2 i hi)⟩
    | done =>
      rw [hx] at he
      exact ⟨he.1, fun i => hnil (he.2 i)⟩

/-- `aoe_ktstart` has succeeded, in the thread of queue 0. -/
theorem Inv.start {a : ℕ} (h : s.Inv) (hid : s.worker 0 = .spawning a) (ha : s.active a = false) :
    ((s.setWorker a .idle).setWorker 0 (.starting a)).Inv := by
  have ha0 : a ≠ 0 := by
    rintro rfl
    exact absurd (h.main.symm.trans ha) Bool.true_eq_false.mp
  have hother {i : ℕ} (h0 : i ≠ 0) (hia : i ≠ a) :
      ((s.setWorker a .idle).setWorker 0 (.starting a)).worker i = s.worker i := by
    simp only [Ktio.setWorker, Function.update_of_ne h0, Function.update_of_ne hia]
  have hmain : ((s.setWorker a .idle).setWorker 0 (.starting a)).worker 0 = .starting a := by
    simp only [Ktio.setWorker, Function.update_self]
  have hnew : ((s.setWorker a .idle).setWorker 0 (.starting a)).worker a = .idle := by
    simp only [Ktio.setWorker, Function.update_of_ne ha0, Function.update_self]
  have hcases (i : ℕ) : i = 0 ∨ i = a ∨ i ≠ 0 ∧ i ≠ a := by omega
  refine ⟨h.main, fun i hi => ⟨(h.valid i hi).1, ?_⟩, fun i hi => ?_, h.queue, fun i f hi => ?_, fun i b hi => ?_,
    fun i b hi => ?_, ?_⟩
  · rcases hcases i with rfl | rfl | ⟨h0, hia⟩
    · rw [hmain]
      simp
    · rw [hnew]
      simp
    · rw [hother h0 hia]
      exact (h.valid i hi).2
  · rcases hcases i with rfl | rfl | ⟨h0, hia⟩
    · exact .inl h.main
    · exact .inr hmain
    · rw [hother h0 hia] at hi
      refine (h.flag i hi).imp_right fun hst => ?_
      rw [hid] at hst
      exact absurd hst (by simp)
  · rcases hcases i with rfl | rfl | ⟨h0, hia⟩
    · rw [hmain] at hi
      simp at hi
    · rw [hnew] at hi
      simp at hi
    · rw [hother h0 hia] at hi
      exact h.busy i f hi
  · rcases hcases i with rfl | rfl | ⟨h0, hia⟩
    · rw [hmain] at hi
      simp at hi
    · rw [hnew] at hi
      simp at hi
    · rw [hother h0 hia] at hi
      exact h.spawning i b hi
  · rcases hcases i with rfl | rfl | ⟨h0, hia⟩
    · obtain rfl : a = b := by simpa [hmain] using hi
      refine ⟨rfl, (h.spawning 0 a hid).2, ?_⟩
      rw [hnew]
      simp
    · rw [hnew] at hi
      simp at hi
    · rw [hother h0 hia] at hi
      exact absurd (h.starting i b hi).1 h0
  · have hpc := h.main_stopped (by rw [hid]; simp)
    have hpc' : ((s.setWorker a .idle).setWorker 0 (.starting a)).exitPc = s.exitPc := rfl
    simp only [Exited, hpc']
    rcases hpc with hpc | hpc
    · rw [hpc]
      trivial
    · rw [hpc]
      intro i hi
      exact absurd hi (Nat.not_lt_zero i)

/-- The flag of the thread just started is set. -/
theorem Inv.activate {a : ℕ} (h : s.Inv) (hid : s.worker 0 = .starting a) :
    { s.setWorker 0 .idle with active := Function.update s.active a true, spawnLock := none }.Inv := by
  obtain ⟨-, ha, hne⟩ := h.starting 0 a hid
  have hactive {i : ℕ} (hi : Function.update s.active a true i = true) : i = a ∨ s.active i = true := by
    by_cases hia : i = a
    · exact .inl hia
    · rw [Function.update_of_ne hia] at hi
      exact .inr hi
  have hgrow {i : ℕ} (hi : s.active i = true) : Function.update s.active a true i = true := by
    by_cases hia : i = a
    · rw [hia, Function.update_self]
    · rwa [Function.update_of_ne hia]
  have hworker {i : ℕ} : Function.update s.worker 0 .idle i = if i = 0 then .idle else s.worker i := by
    by_cases hi : i = 0
    · rw [hi, Function.update_self, if_pos rfl]
    · rw [Function.update_of_ne hi, if_neg hi]
  refine ⟨hgrow h.main, fun i hi => ?_, fun i hi => .inl ?_, fun i f hf => ?_, fun i f hi => ?_, fun i b hi => ?_,
    fun i b hi => ?_, ?_⟩
  · rcases hactive hi with rfl | hi
    · refine ⟨ha, ?_⟩
      simp only [Ktio.setWorker, hworker]
      split
      · simp
      · exact hne
    · refine ⟨(h.valid i hi).1, ?_⟩
      simp only [Ktio.setWorker, hworker]
      split
      · simp
      · exact (h.valid i hi).2
  · by_cases h0 : i = 0
    · exact hgrow (h0 ▸ h.main)
    · simp only [Ktio.setWorker, hworker, if_neg h0] at hi
      rcases h.flag i hi with hact | hst
      · exact hgrow hact
      · obtain rfl : a = i := by simpa [hid] using hst
        exact Function.update_self _ _ _
  · exact ⟨hgrow (h.queue i f hf).1, (h.queue i f hf).2⟩
  · by_cases h0 : i = 0
    · simp [Ktio.setWorker, h0] at hi
    · simp only [Ktio.setWorker, hworker, if_neg h0] at hi
      exact ⟨hgrow (h.busy i f hi).1, (h.busy i f hi).2⟩
  · by_cases h0 : i = 0
    · simp [Ktio.setWorker, h0] at hi
    · simp only [Ktio.setWorker, hworker, if_neg h0] at hi
      exact h.spawning i b hi
  · by_cases h0 : i = 0
    · simp [Ktio.setWorker, h0] at hi
    · simp only [Ktio.setWorker, hworker, if_neg h0] at hi
      exact absurd (h.starting i b hi).1 h0
  · have hpc := h.main_stopped (by rw [hid]; simp)
    simp only [Exited, Ktio.setWorker]
    rcases hpc with hpc | hpc
    · rw [hpc]
      trivial
    · rw [hpc]
      intro i hi
      exact absurd hi (Nat.not_lt_zero i)

theorem Inv.congr (h : s.Inv) (hn : s'.ncpus = s.ncpus) (ha : s'.active = s.active) (hw : s'.worker = s.worker)
    (hq : s'.iocq = s.iocq) (hx : s'.exitPc = s.exitPc) : s'.Inv := by
  obtain ⟨n, a, w, q, l, dv, x, b, ap, rm⟩ := s
  obtain ⟨n', a', w', q', l', dv', x', b', ap', rm'⟩ := s'
  obtain ⟨rfl, rfl, rfl, rfl, rfl⟩ : n' = n ∧ a' = a ∧ w' = w ∧ q' = q ∧ x' = x := ⟨hn, ha, hw, hq, hx⟩
  exact ⟨h.main, h.valid, h.flag, h.queue, h.busy, h.spawning, h.starting, h.exited⟩

theorem Inv.goOn (h : s.Inv) {p : ExitPc} (he : { s with exitPc := p }.Exited) : { s with exitPc := p }.Inv :=
  ⟨h.main, h.valid, h.flag, h.queue, h.busy, h.spawning, h.starting, he⟩

theorem Inv.stop (h : s.Inv) (he : s.stop = some s') : s'.Inv := by
  unfold Ktio.stop at he
  split at he
  · rename_i n hpc
    have hx := h.exited
    simp only [Exited, hpc] at hx
    split at he
    · split at he
      · rename_i hn hact
        split at he
        · rename_i hidle
          obtain rfl := Option.some.inj he
          have hset : (s.setWorker n .stopped).Inv := by
            refine h.setWorker ?_ ?_ ?_ ?_ ?_ ?_ <;> simp [hidle]
          refine Inv.goOn hset ?_
          intro i hi hai
          simp only [Ktio.setWorker]
          by_cases hin : i = n
          · rw [hin, Function.update_self]
          · rw [Function.update_of_ne hin]
            exact hx i (by omega) hai
        · exact absurd he (by simp)
      · rename_i hn hact
        obtain rfl := Option.some.inj he
        refine h.goOn ?_
        intro i hi hai
        have hne : i ≠ n := by
          rintro rfl
          exact hact hai
        exact hx i (by omega) hai
    · rename_i hn
      obtain rfl := Option.some.inj he
      refine h.goOn ⟨fun i hai => ?_, fun i hi => absurd hi (Nat.not_lt_zero i)⟩
      exact hx i (by have := (h.valid i hai).1; omega) hai
  · exact absurd he (by simp)

theorem Inv.allStopped {n : ℕ} (h : s.Inv) (hpc : s.exitPc = .flushing n) : s.allStopped = true := by
  have hx := h.exited
  simp only [Exited, hpc] at hx
  simp only [Ktio.allStopped, List.all_eq_true, Bool.or_eq_true, decide_eq_true_eq]
  intro i _
  by_cases hw : s.worker i = .absent
  · exact .inl hw
  · right
    rcases h.flag i hw with hact | hst
    · exact hx.1 i hact
    · rw [hx.1 0 h.main] at hst
      exact absurd hst (by simp)

theorem Inv.flush (h : s.Inv) (he : s.flush = some s') : s'.Inv := by
  unfold Ktio.flush at he
  split at he
  · rename_i n hpc
    have hx := h.exited
    simp only [Exited, hpc] at hx
    split at he
    · split at he
      · obtain rfl := Option.some.inj he
        have hdeq := h.dequeue n (q := []) (by simp)
        refine Inv.congr (Inv.goOn hdeq (p := .flushing (n + 1)) ⟨hx.1, fun i hi => ?_⟩) rfl rfl rfl rfl rfl
        by_cases hin : i = n
        · simp [hin]
        · simp only [Function.update_of_ne hin]
          exact hx.2 i (by omega)
      · rename_i hn hact
        obtain rfl := Option.some.inj he
        refine h.goOn ⟨hx.1, fun i hi => ?_⟩
        by_cases hin : i = n
        · -- a queue without a thread is empty
          subst hin
          refine List.eq_nil_iff_forall_not_mem.mpr fun f hf => hact (h.queue i f hf).1
        · exact hx.2 i (by omega)
    · rename_i hn
      obtain rfl := Option.some.inj he
      refine h.goOn ⟨hx.1, fun i => ?_⟩
      by_cases hi : i < n
      · exact hx.2 i hi
      · refine List.eq_nil_iff_forall_not_mem.mpr fun f hf => ?_
        have := (h.valid i (h.queue i f hf).1).1
        omega
  · exact absurd he (by simp)

theorem Inv.check_main (h : s.Inv) (hw : s.worker id = .checking f) (ha : ¬ s.active (f.aoeminor % s.ncpus) = true) :
    id = 0 := by
  obtain ⟨hact, hid | hid⟩ := h.busy id f (.inr hw)
  · exact hid
  · rw [hid] at ha
    exact absurd hact ha

private theorem exec_inv {e : Event} (h : s.Inv) (hok : s.quietExit e = true) (he : s.exec e = some s') : s'.Inv := by
  cases e with
  | ktcomplete f =>
    obtain rfl := Option.some.inj he
    simp only [Ktio.ktcomplete]
    split
    · rename_i hact
      simp only [quietExit, hact, Bool.not_true, Bool.false_or] at hok
      exact h.append ⟨hact, .inr rfl⟩ hok
    · exact h.congr rfl rfl rfl rfl rfl
  | divert k =>
    simp only [exec] at he
    split at he
    · obtain rfl := Option.some.inj he
      have hrest : { s with diverted := s.diverted.eraseIdx k }.Inv := h.congr rfl rfl rfl rfl rfl
      exact hrest.append ⟨h.main, .inl rfl⟩ hok
    · exact absurd he (by simp)
  | take id =>
    simp only [exec, Ktio.take] at he
    split at he
    · rename_i f rest hw hq
      obtain rfl := Option.some.inj he
      have hf : s.Serves id f := h.queue id f (by simp [hq])
      have hset : (s.setWorker id (.completing f)).Inv := by
        refine h.setWorker ?_ ?_ ?_ ?_ ?_ ?_
        · simp [hw]
        · simp [hw]
        · simp
        · simp
        · intro g hg
          obtain rfl : f = g := by simpa using hg
          exact hf
        · simp
      refine (Inv.dequeue hset id (q := rest) fun g hg => ?_).congr rfl rfl rfl rfl rfl
      show g ∈ s.iocq id
      rw [hq]
      exact List.mem_cons_of_mem _ hg
    · exact absurd he (by simp)
  | completed id =>
    simp only [exec] at he
    split at he
    · rename_i f hw
      obtain rfl := Option.some.inj he
      refine h.setWorker ?_ ?_ ?_ ?_ ?_ ?_
      · simp [hw]
      · simp [hw]
      · simp
      · simp
      · intro g hg
        obtain rfl : f = g := by simpa using hg
        exact h.busy id f (.inl hw)
      · simp
    · exact absurd he (by simp)
  | check id =>
    simp only [exec, Ktio.check] at he
    split at he
    · rename_i f hw
      split at he
      · obtain rfl := Option.some.inj he
        refine h.setWorker ?_ ?_ ?_ ?_ ?_ ?_ <;> simp [hw]
      · rename_i hact
        obtain rfl := Option.some.inj he
        have hid := h.check_main hw hact
        have hset : (s.setWorker id (.spawning (f.aoeminor % s.ncpus))).Inv := by
          refine h.setWorker ?_ ?_ ?_ ?_ ?_ ?_
          · simp [hw]
          · simp [hw]
          · simp
          · simp
          · simp
          · intro a ha
            obtain rfl : f.aoeminor % s.ncpus = a := by simpa using ha
            exact ⟨hid, Nat.mod_lt _ h.pos⟩
        exact hset.congr rfl rfl rfl rfl rfl
    · exact absurd he (by simp)
  | spawn id ok =>
    simp only [exec, Ktio.spawn] at he
    split at he
    · rename_i a hw hlock
      obtain ⟨rfl, -⟩ := h.spawning id a hw
      split at he
      · obtain rfl := Option.some.inj he
        refine h.setWorker ?_ ?_ ?_ ?_ ?_ ?_ <;> simp [hw]
      · rename_i hcond
        obtain rfl := Option.some.inj he
        have hact : s.active a = false := by
          simp only [Bool.or_eq_true, not_or, Bool.not_eq_true] at hcond
          exact hcond.1
        exact (h.start hw hact).congr rfl rfl rfl rfl rfl
    · exact absurd he (by simp)
  | activate id =>
    simp only [exec, Ktio.activate] at he
    split at he
    · rename_i a hw
      obtain ⟨rfl, -⟩ := h.starting id a hw
      obtain rfl := Option.some.inj he
      exact h.activate hw
    · exact absurd he (by simp)
  | exit =>
    simp only [exec] at he
    split at he
    · obtain rfl := Option.some.inj he
      exact h.goOn fun i hi => absurd hi (Nat.not_lt_zero i)
    · exact absurd he (by simp)
  | stop => exact h.stop he
  | flush => exact h.flush he

end Inv

section Sound

variable {s s' : Ktio} {f : IoFrame} {id : ℕ}

/-- Frames taken from queue `id` and noted. -/
theorem Sound.remove (hs : s.Sound) (fs : List IoFrame) {q : List IoFrame} {r : IoFrame → Removed}
    (hq : s.iocq id = fs ++ q)
    (hr : ∀ f, (r f).queue = id ∧ (r f).frame = f)
    (hvia : ∀ f, (r f).via = .ktio id ∨ (r f).via = .flush ∧ (r f).stopped = true) (hb : s'.bugOn = s.bugOn)
    (ha : s'.appended = s.appended) (hrem : s'.removed = s.removed ++ fs.map r)
    (hiocq : s'.iocq = Function.update s.iocq id q) : s'.Sound where
  bugOn := hb.trans hs.bugOn
  appended := ha ▸ hs.appended
  removed x hx := by
    rw [hrem, List.mem_append, List.mem_map] at hx
    rcases hx with hx | ⟨f, -, rfl⟩
    · exact hs.removed x hx
    · rw [(hr f).1]
      exact hvia f
  account i f := by
    have hcount : (fs.map r).countP (fun x => x.queue = i ∧ x.frame = f) = if i = id then fs.count f else 0 := by
      rw [List.countP_map]
      by_cases hi : i = id
      · rw [if_pos hi, List.count]
        refine List.countP_congr fun g _ => ?_
        simp [hr, hi]
      · rw [if_neg hi, List.countP_eq_zero]
        intro g _
        simp [hr, Ne.symm hi]
    have hold := hs.account i f
    rw [ha, hold, hrem, hiocq, List.countP_append, hcount]
    by_cases hi : i = id
    · subst hi
      rw [Function.update_self, if_pos rfl, hq, List.count_append]
      omega
    · rw [Function.update_of_ne hi, if_neg hi, Nat.add_zero]

theorem Sound.append (hs : s.Sound) (hstart : s.worker id ≠ .absent) : (s.append id f).Sound where
  bugOn := hs.bugOn
  appended x hx := by
    simp only [Ktio.append, List.mem_append, List.mem_singleton] at hx
    rcases hx with hx | rfl
    · exact hs.appended x hx
    · simpa [started] using hstart
  removed := hs.removed
  account i g := by
    have hold := hs.account i g
    simp only [Ktio.append, List.countP_append, List.countP_singleton]
    by_cases hi : i = id
    · subst hi
      rw [Function.update_self, List.count_append, List.count_singleton, hold]
      by_cases hg : f = g
      · simp only [hg, and_self, decide_true, if_true, beq_self_eq_true]
        omega
      · simp only [hg, and_false, decide_false, beq_iff_eq, if_false, Bool.false_eq_true]
        omega
    · rw [Function.update_of_ne hi, hold]
      simp [Ne.symm hi]

theorem Sound.congr (hs : s.Sound) (hb : s'.bugOn = s.bugOn) (ha : s'.appended = s.appended)
    (hr : s'.removed = s.removed) (hq : s'.iocq = s.iocq) : s'.Sound := by
  refine ⟨hb.trans hs.bugOn, ?_, ?_, ?_⟩
  · rw [ha]
    exact hs.appended
  · rw [hr]
    exact hs.removed
  · rw [ha, hr, hq]
    exact hs.account

private theorem exec_sound {e : Event} (h : s.Inv) (hs : s.Sound) (he : s.exec e = some s') : s'.Sound := by
  cases e with
  | ktcomplete f =>
    obtain rfl := Option.some.inj he
    simp only [Ktio.ktcomplete]
    split
    · rename_i hact
      exact hs.append (h.valid _ hact).2
    · exact hs.congr rfl rfl rfl rfl
  | divert k =>
    simp only [exec] at he
    split at he
    · obtain rfl := Option.some.inj he
      have hrest : { s with diverted := s.diverted.eraseIdx k }.Sound := hs.congr rfl rfl rfl rfl
      exact hrest.append (h.valid 0 h.main).2
    · exact absurd he (by simp)
  | take id =>
    simp only [exec, Ktio.take] at he
    split at he
    · rename_i f rest hw hq
      obtain rfl := Option.some.inj he
      exact hs.remove [f] (q := rest) (r := fun f => ⟨id, f, .ktio id, s.allStopped⟩) hq (fun _ => ⟨rfl, rfl⟩)
        (fun _ => .inl rfl) rfl rfl rfl rfl
    · exact absurd he (by simp)
  | completed id =>
    simp only [exec] at he
    split at he
    · obtain rfl := Option.some.inj he
      exact hs.congr rfl rfl rfl rfl
    · exact absurd he (by simp)
  | check id =>
    simp only [exec, Ktio.check] at he
    split at he
    · rename_i f hw
      split at he
      · obtain rfl := Option.some.inj he
        exact hs.congr rfl rfl rfl rfl
      · rename_i hact
        obtain rfl := Option.some.inj he
        refine hs.congr ?_ rfl rfl rfl
        simp [h.check_main hw hact]
    · exact absurd he (by simp)
  | spawn id ok =>
    simp only [exec, Ktio.spawn] at he
    split at he
    · split at he
      · obtain rfl := Option.some.inj he
        exact hs.congr rfl rfl rfl rfl
      · obtain rfl := Option.some.inj he
        exact hs.congr rfl rfl rfl rfl
    · exact absurd he (by simp)
  | activate id =>
    simp only [exec, Ktio.activate] at he
    split at he
    · obtain rfl := Option.some.inj he
      exact hs.congr rfl rfl rfl rfl
    · exact absurd he (by simp)
  | exit =>
    simp only [exec] at he
    split at he
    · obtain rfl := Option.some.inj he
      exact hs.congr rfl rfl rfl rfl
    · exact absurd he (by simp)
  | stop =>
    simp only [exec, Ktio.stop] at he
    split at he
    · split at he
      · split at he
        · split at he
          · obtain rfl := Option.some.inj he
            exact hs.congr rfl rfl rfl rfl
          · exact absurd he (by simp)
        · obtain rfl := Option.some.inj he
          exact hs.congr rfl rfl rfl rfl
      · obtain rfl := Option.some.inj he
        exact hs.congr rfl rfl rfl rfl
    · exact absurd he (by simp)
  | flush =>
    simp only [exec, Ktio.flush] at he
    split at he
    · rename_i n hpc
      split at he
      · split at he
        · obtain rfl := Option.some.inj he
          have hstopped := h.allStopped hpc
          exact hs.remove (s.iocq n) (q := []) (r := fun f => ⟨n, f, .flush, s.allStopped⟩)
            (List.append_nil _).symm (fun _ => ⟨rfl, rfl⟩) (fun _ => .inr ⟨rfl, hstopped⟩) rfl rfl rfl rfl
        · obtain rfl := Option.some.inj he
          exact hs.congr rfl rfl rfl rfl
      · obtain rfl := Option.some.inj he
        exact hs.congr rfl rfl rfl rfl
    · exact absurd he (by simp)

private theorem exec_active {e : Event} (he : s.exec e = some s') (i : ℕ) (hi : s.active i = true) :
    s'.active i = true := by
  have hset (a : ℕ) : Function.update s.active a true i = true := by
    by_cases hia : i = a
    · rw [hia, Function.update_self]
    · rwa [Function.update_of_ne hia]
  cases e with
  | ktcomplete f =>
    obtain rfl := Option.some.inj he
    simp only [Ktio.ktcomplete]
    split <;> exact hi
  | activate id =>
    simp only [exec, Ktio.activate] at he
    split at he
    · obtain rfl := Option.some.inj he
      exact hset _
    · exact absurd he (by simp)
  | divert k | take id | completed id | check id | spawn id ok | exit | stop | flush =>
    simp only [exec, Ktio.take, Ktio.check, Ktio.spawn, Ktio.stop, Ktio.flush] at he
    repeat' split at he
    all_goals cases he
    all_goals exact hi

end Sound

private theorem initial_inv {s : Ktio} (h : Initial s) : s.Inv ∧ s.Sound := by
  obtain ⟨n, hn, rfl⟩ := h
  have hworker (i : ℕ) : (init n).worker i = .idle ∨ (init n).worker i = .absent := by
    simp only [init]
    split
    · exact .inl rfl
    · exact .inr rfl
  have hno (i : ℕ) (w : Worker) (h₁ : w ≠ .idle) (h₂ : w ≠ .absent) : (init n).worker i ≠ w := by
    rcases hworker i with h | h
    · rw [h]
      exact h₁.symm
    · rw [h]
      exact h₂.symm
  constructor
  · refine ⟨rfl, fun i hi => ?_, fun i hi => .inl ?_, by simp [init], fun i f hi => ?_,
      fun i a hi => absurd hi (hno i _ (by simp) (by simp)), fun i a hi => absurd hi (hno i _ (by simp) (by simp)), trivial⟩
    · obtain rfl : i = 0 := by simpa [init] using hi
      exact ⟨hn, by simp [init]⟩
    · by_cases h0 : i = 0
      · simp [init, h0]
      · simp [init, h0] at hi
    · rcases hi with hi | hi
      · exact absurd hi (hno i _ (by simp) (by simp))
      · exact absurd hi (hno i _ (by simp) (by simp))
  · refine ⟨rfl, ?_, ?_, ?_⟩ <;> simp [init]

theorem reachedBy_inv {s : Ktio} (h : ReachedBy quietExit s) : s.Inv ∧ s.Sound := by
  refine Reach.invariant (P := fun s => s.Inv ∧ s.Sound) (fun _ => initial_inv) ?_ h
  intro s e s' _ hs hok hstep
  exact ⟨exec_inv hs.1 hok hstep, exec_sound hs.1 hs.2 hstep⟩

end Ktio

/-- In every state before and in `aoecmd_exit`, and at its end. -/
theorem queues_have_workers {s : Ktio} (h : Ktio.ReachedBy Ktio.quietExit s) :
    s.Sound ∧ (∀ id, s.iocq id ≠ [] → s.started id = true) ∧
      (∀ e s', Ktio.Step s e s' → ∀ id, s.active id = true → s'.active id = true) ∧
      (s.exitPc = .done → ∀ id, s.iocq id = []) := by
  obtain ⟨hi, hs⟩ := Ktio.reachedBy_inv h
  refine ⟨hs, fun id hq => ?_, fun e s' hstep => Ktio.exec_active hstep, fun hpc => ?_⟩
  · obtain ⟨f, hf⟩ := List.exists_mem_of_ne_nil _ hq
    simpa [Ktio.started] using (hi.valid id (hi.queue id f hf).1).2
  · have hx := hi.exited
    simp only [Ktio.Exited, hpc] at hx
    exact hx.2

/-- Two processors; the first frame of slot 1 is diverted, its thread started, and the second one flushed. -/
def ktioSample : List Ktio.Event :=
  [.ktcomplete ⟨0, 1⟩, .divert 0, .take 0, .completed 0, .check 0, .spawn 0 true, .activate 0, .ktcomplete ⟨1, 1⟩,
    .exit, .stop, .stop, .stop, .flush, .flush, .flush]

def Ktio.advance (s : Ktio) (e : Ktio.Event) : Option Ktio := if s.quietExit e then s.exec e else none

theorem Ktio.reachedBy_execute {s s' : Ktio} (hs : Initial s) (es : List Event) (h : execute advance s es = some s') :
    ReachedBy quietExit s' := by
  exact Reach.guarded Ktio.exec quietExit (fun _ _ _ he => he) es (.init hs) h

theorem queues_have_workers_sample : ∃ s, execute Ktio.advance (Ktio.init 2) ktioSample = some s ∧
    s.exitPc = .done ∧ s.appended.length = 2 ∧ s.removed.length = 2 ∧ s.Sound := by
  obtain ⟨s, hs⟩ : ∃ s, execute Ktio.advance (Ktio.init 2) ktioSample = some s := ⟨_, rfl⟩
  have htest : (execute Ktio.advance (Ktio.init 2) ktioSample).map (fun s => (s.exitPc, s.appended.length, s.removed.length)) =
      some (.done, 2, 2) := by rfl
  rw [hs, Option.map_some, Option.some.injEq, Prod.mk.injEq, Prod.mk.injEq] at htest
  exact ⟨s, hs, htest.1, htest.2.1, htest.2.2, (queues_have_workers
    (Ktio.reachedBy_execute ⟨2, by decide, rfl⟩ ktioSample hs)).1⟩

/-- `aoe_init` calls `aoecmd_exit` before `aoenet_exit` when `register_blkdev` fails, so a response may come in
between. -/
def lateSample : List Ktio.Event := [.exit, .stop, .stop, .stop, .flush, .ktcomplete ⟨0, 0⟩, .flush, .flush]

theorem frame_left_on_queue : ∃ s, Ktio.ReachedBy (fun _ _ => true) s ∧ s.exitPc = .done ∧ s.iocq 0 ≠ [] := by
  obtain ⟨s, hs⟩ : ∃ s, execute Ktio.exec (Ktio.init 2) lateSample = some s := ⟨_, rfl⟩
  have htest : (execute Ktio.exec (Ktio.init 2) lateSample).map (fun s => (s.exitPc, s.iocq 0)) =
      some (.done, [⟨0, 0⟩]) := by rfl
  rw [hs, Option.map_some, Option.some.injEq, Prod.mk.injEq] at htest
  refine ⟨s, ?_, htest.1, by simp [htest.2]⟩
  exact Reach.execute (fun s e s' (he : Ktio.exec s e = some s') _ => he) lateSample (.init ⟨2, by decide, rfl⟩) hs
    fun _ _ _ _ _ => rfl

end AoeDriver
