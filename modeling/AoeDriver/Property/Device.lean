import AoeDriver.Life.Disk

/-!
# References, installation and capacity

The reference count of a device, the flags of its installation and the size of its disk, in every reachable state.
-/

namespace AoeDriver

/-- `aoecmd_ata_rsp`, `aoecmd_cfg_rsp` or `revalidate` between its lookup and its `aoedev_put` or the hand-over. -/
def Thread.caller : Thread → Bool
  | .rsp _ | .matched _ _ | .unexpected | .cfg _ | .cfgPut | .reval _ | .revalPut => true
  | _ => false

/-- A thread that has taken a frame off a queue and not yet called `aoedev_put` for it. -/
def Thread.completes : Thread → Bool
  | .ktio _ _ | .ktioMid _ _ _ | .ktioOut _ _ | .ktioPut _ | .flush _ | .flushPut => true
  | _ => false

/-- Frames given to `ktcomplete` whose reference is still to be dropped. -/
def Aoedev.handedOver (d : Aoedev) : ℕ := d.iocq.length + d.threads.countP Thread.completes

private theorem sum_refs (l : List Thread) :
    (l.map Thread.refs).sum = l.countP Thread.completes + l.countP Thread.caller := by
  induction l with
  | nil => rfl
  | cons th l ih =>
    have hth : th.refs = (if th.completes then 1 else 0) + if th.caller then 1 else 0 := by cases th <;> rfl
    rw [List.map_cons, List.sum_cons, List.countP_cons, List.countP_cons, ih, hth]
    omega

/-- The reference count is exact and never drops below 0. -/
theorem ref_accurate {d : Aoedev} (h : Reached d) :
    d.ref = d.handedOver + d.threads.countP Thread.caller ∧ Counter.ref ∉ d.hist.underflow := by
  have hr := reachedBy_refs h
  have hcount : d.ref = d.iocq.length + (d.threads.map Thread.refs).sum := hr.count
  refine ⟨?_, fun hmem => hr.underflow ?_⟩
  · rw [hcount, sum_refs, Aoedev.handedOver, add_assoc]
  · exact List.mem_filter.mpr ⟨hmem, by simp⟩

def sampleHeld : Scene unguarded sampleStart sampleEvents (fun d => d.ref == 1) := ⟨by decide +kernel⟩

theorem ref_accurate_sample : sample.ref = 1 ∧ sample.handedOver + sample.threads.countP Thread.caller = 1 := by
  have h := (ref_accurate sample_reached).1
  have href : sample.ref = 1 := by simpa using sampleHeld.sample.2
  exact ⟨href, h ▸ href⟩

/-- Everything but the flush that ends the module. -/
def Event.loaded : Event → Bool
  | .flushDev .exiting _ => false
  | _ => true

/-- The flags of the installation agree with the disk, one thread at a time installs it, and nothing is warned of. -/
theorem installation_sound {d : Aoedev} (h : ReachedBy (fun _ e _ => e.loaded) d) :
    (d.flags.gdalloc = true → d.gd = none ∧ d.flags.up = false) ∧
    (d.flags.newsize = true → d.gd.isSome = true) ∧
    ¬(d.flags.gdalloc = true ∧ d.flags.newsize = true) ∧
    (d.flags.up = true → d.gd.isSome = true ∧ d.blkq = true) ∧
    d.threads.countP Thread.installs ≤ 1 ∧
    (d.flags.gdNow = true ↔ d.threads.countP Thread.installs = 1) ∧
    d.hist.warned = false := by
  have hd : Disk True d.life := by
    refine reachedBy_disk (G := ⟨fun _ => True, fun mode _ => mode ≠ .exiting, fun _ _ => True⟩) ?_ ?_ h
    · exact fun _ _ _ hne => hne
    · intro s e s' hl
      cases e with
      | flushDev mode env =>
        rintro - rfl
        exact absurd hl Bool.false_ne_true
      | run i env => exact fun _ _ _ _ => trivial
      | rexmitTimer env => exact fun _ _ => trivial
      | _ => trivial
  have hnow : d.threads.countP Thread.installs = if d.flags.gdNow then 1 else 0 := hd.gdNow
  refine ⟨fun ha => ⟨(hd.gdalloc ha).1, (hd.gdalloc ha).2.1⟩, hd.newsize, ?_, ?_, ?_, ?_, hd.warned trivial⟩
  · rintro ⟨ha, hn⟩
    have hgd : d.gd = none := (hd.gdalloc ha).1
    have hsome : d.gd.isSome = true := hd.newsize hn
    rw [hgd] at hsome
    exact absurd hsome Bool.false_ne_true
  · exact fun hu => ⟨hd.up hu, hd.blkq.trans (hd.up hu)⟩
  · rw [hnow]
    split
    · exact le_rfl
    · exact Nat.zero_le 1
  · rw [hnow]
    cases d.flags.gdNow with
    | true => simp
    | false => simp

/-- The worker has made the disk and not yet announced it. -/
def sampleInstall : List Event := sampleRun 0 2 ++ sampleIdent 0 1 256 ++ .sleepwork :: sampleRun 0 3

def sampleInstalling : Scene (fun _ e => e.loaded) sampleStart sampleInstall (fun d => d.flags.gdNow) := ⟨by decide +kernel⟩

theorem installation_sound_sample : ∃ d, runFrom (fun _ e => e.loaded) sampleStart sampleInstall = some d ∧
    d.flags.gdNow = true ∧ d.threads.countP Thread.installs = 1 ∧ d.hist.warned = false := by
  obtain ⟨d, hd, hr, hnow⟩ := sampleInstalling.last sampleStart_initial
  obtain ⟨-, -, -, -, -, hiff, hwarned⟩ := installation_sound hr
  exact ⟨d, hd, hnow, hiff.mp hnow, hwarned⟩

/-- No change of the size is pending and no worker is in the middle of one. -/
def Aoedev.sizeSettled (d : Aoedev) : Bool :=
  !d.flags.newsize && d.threads.all fun th => match th with
    | .sleep (.resizing _) => false
    | _ => true

/-- The device is not given up in the middle of a change of its size, and the same size is reported until it is done. -/
def resizeSafe (d : Aoedev) : Event → Bool
  | .rexmitTimer env => d.flags.tkill || !(timerExpire { d with env := env }).2 || d.sizeSettled
  | .flushDev mode _ => !flushTakes d mode || d.sizeSettled
  | .run i _ =>
    match d.threads[i]? with
    | some (.ktioMid _ _ (.ident data)) => !d.flags.newsize || d.gd.map Gendisk.capacity == some (idSize data).1
    | _ => true
  | _ => true

private theorem settled_of_sizeSettled {d : Aoedev} (h : d.sizeSettled = true) : d.life.settled := by
  simp only [Aoedev.sizeSettled, Bool.and_eq_true, Bool.not_eq_true', List.all_eq_true] at h
  exact ⟨h.1, fun n hmem => absurd (h.2 _ hmem) Bool.false_ne_true⟩

private theorem meets_resizeSafe {d : Aoedev} {e : Event} (h : resizeSafe d e = true) : Guard.sized.Meets d e := by
  cases e with
  | rexmitTimer env =>
    intro hkill hlate
    simp only [resizeSafe, hkill, hlate, Bool.false_or, Bool.not_true] at h
    exact settled_of_sizeSettled h
  | flushDev mode env =>
    intro ht
    simp only [resizeSafe, ht, Bool.not_true, Bool.false_or] at h
    exact settled_of_sizeSettled h
  | run i env =>
    intro id f data hi hn
    simp only [resizeSafe, hi] at h
    have hn' : d.flags.newsize = true := hn
    simp only [hn', Bool.not_true, Bool.false_or, beq_iff_eq] at h
    exact h
  | _ => trivial

/-- Where the size never changes under a pending change, a device that is up has the capacity last reported. -/
theorem capacity_agrees {d : Aoedev} (h : ReachedBy (fun d e _ => resizeSafe d e) d) (hup : d.flags.up = true) :
    ∃ gd, d.gd = some gd ∧ gd.capacity = d.ssize :=
  reachedBy_sized (fun _ _ _ hok => meets_resizeSafe hok) h (.inl hup)

/-- A second identify command is answered with `size` sectors. -/
def sampleResize (n size : ℕ) : List Event := .revalidate :: sampleRun 0 2 ++ sampleIdent 2 n size

def sampleResized : Scene resizeSafe sampleStart (sampleUp ++ sampleResize 2 300) (fun d => d.flags.up && d.ssize == 300) :=
  ⟨by decide +kernel⟩

theorem capacity_agrees_sample : ∃ d, runFrom resizeSafe sampleStart (sampleUp ++ sampleResize 2 300) = some d ∧
    d.ssize = 300 ∧ ∃ gd, d.gd = some gd ∧ gd.capacity = d.ssize := by
  obtain ⟨d, hd, hr, hc⟩ := sampleResized.last sampleStart_initial
  rw [Bool.and_eq_true, beq_iff_eq] at hc
  exact ⟨d, hd, hc.2, capacity_agrees hr hc.1⟩

def sampleOverrun : Scene unguarded sampleStart
    (sampleUp ++ sampleResize 2 300 ++ sampleResize 3 512 ++ .sleepwork :: sampleRun 0 3)
    (fun d => d.flags.up && !d.flags.gdalloc && !d.flags.newsize && !d.workPending && d.threads.isEmpty &&
      d.gd.map Gendisk.capacity == some 300 && d.ssize == 512) :=
  ⟨by decide +kernel⟩

/-- Two identify responses come in before the worker runs. -/
theorem capacity_disagrees : ∃ d, Reached d ∧ d.flags.up = true ∧ d.flags.gdalloc = false ∧ d.flags.newsize = false ∧
    d.workPending = false ∧ d.threads = [] ∧ d.gd.map Gendisk.capacity = some 300 ∧ d.ssize = 512 := by
  obtain ⟨d, -, hr, hc⟩ := sampleOverrun.last sampleStart_initial
  simp only [Bool.and_eq_true, Bool.not_eq_true', beq_iff_eq, List.isEmpty_iff] at hc
  obtain ⟨⟨⟨⟨⟨⟨h₁, h₂⟩, h₃⟩, h₄⟩, h₅⟩, h₆⟩, h₇⟩ := hc
  exact ⟨d, hr.mono fun _ _ _ _ => trivial, h₁, h₂, h₃, h₄, h₅, h₆, h₇⟩

end AoeDriver
