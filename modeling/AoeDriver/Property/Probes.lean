import AoeDriver.Property.Frames
import AoeDriver.Property.Interfaces

/-!
# Probes of tainted targets

`nout_probes` counts the probes of a target in `factive`. A probe is started only while it is 0, but a deferred probe
is sent again whatever it is.
-/

namespace AoeDriver

open Tables

section Probes

variable {G : Gate} {l l' : Traffic} {t t' : Aoetgt}

private theorem turn_probes (h : Turning G t t') : t'.noutProbes = t.noutProbes := by
  cases h with
  | rotate =>
    obtain ⟨i, hi, -⟩ := ifrotate_eq t
    rw [hi]
  | stats ha => exact ha.noutProbes
  | grow =>
    unfold growWindow
    split
    · rfl
    · split
      · rfl
      · split
        · dsimp only
          split
          · rfl
          · rfl
        · rfl
  | collapse => rfl
  | advertise =>
    split
    · rfl
    · rfl

private theorem turns_probes (h : Turnings G t t') : t'.noutProbes = t.noutProbes := by
  induction h with
  | refl => rfl
  | tail _ hstep ih => exact (turn_probes hstep).trans ih

private theorem setif_probes {nd : NetDev} {bcnt : ℕ} (h : setifbcntTgt t nd bcnt = some t') :
    t'.noutProbes = t.noutProbes := by
  unfold setifbcntTgt at h
  split at h
  · rw [Option.some.injEq] at h
    subst h
    rfl
  · split at h
    · exact absurd h (by simp)
    · rw [Option.some.injEq] at h
      subst h
      rfl

/-- The probes of target `i` among the frames of `m`. -/
def probesOf (m : Multiset Frame) (i : ℕ) : ℕ := m.countP fun f => f.t = i ∧ f.probe = true

private theorem probesOf_cons (f : Frame) (m : Multiset Frame) (i : ℕ) :
    probesOf (f ::ₘ m) i = probesOf m i + if f.t = i ∧ f.probe = true then 1 else 0 := Multiset.countP_cons _ _ _

/-- Deferred probes were sent again only while no probe was counted. -/
def Alone (sends : List Send) : Prop :=
  ∀ s ∈ sends, s.frame.probe = true → s.first = false → s.tgt.noutProbes = 1

/-- A target has one probe out at most, and then it is counted. -/
def Single (l : Traffic) : Prop :=
  ∀ i, probesOf l.active i ≤ 1 ∧ (probesOf l.active i = 1 → (l.tgt i).noutProbes % 2^8 ≠ 0)

theorem Single.of_counts (h : Single l) (ha : l'.active = l.active) (hn : ∀ i, (l'.tgt i).noutProbes = (l.tgt i).noutProbes) :
    Single l' := by
  intro i
  rw [ha, hn]
  exact h i

private theorem probes_mod (l : Traffic) (i j : ℕ) {g : Aoetgt → Aoetgt}
    (hg : (g (l.tgt i)).noutProbes = (l.tgt i).noutProbes) : ((l.mod i g).tgt j).noutProbes = (l.tgt j).noutProbes := by
  rw [tgt_mod]
  split
  · rename_i h
    rw [← h.1]
    exact hg
  · rfl

theorem Single.join {m : Traffic} (h : Single l) {f : Frame} (hlt : f.t < l.targets.length) {g : Aoetgt → Aoetgt}
    (ha : m.active = f ::ₘ l.active) (ht : m.targets = (l.mod f.t g).targets)
    (hone : f.probe = true → (l.tgt f.t).noutProbes % 2^8 = 0 ∧ (g (l.tgt f.t)).noutProbes = 1)
    (hsame : f.probe = false → (g (l.tgt f.t)).noutProbes = (l.tgt f.t).noutProbes) : Single m := by
  have htgt (i : ℕ) : m.tgt i = (l.mod f.t g).tgt i := by rw [Traffic.tgt, ht, Traffic.tgt]
  intro i
  obtain ⟨hle, hcounted⟩ := h i
  rw [ha, probesOf_cons, htgt]
  by_cases hi : f.t = i
  · subst hi
    rw [tgt_mod_self hlt]
    cases hp : f.probe with
    | true =>
      obtain ⟨hzero, hnext⟩ := hone hp
      have hnone : probesOf l.active f.t = 0 := by
        have hne : probesOf l.active f.t ≠ 1 := fun heq => hcounted heq hzero
        omega
      rw [hnone, hnext]
      simp
    | false =>
      rw [hsame hp]
      simpa using ⟨hle, hcounted⟩
  · rw [tgt_mod, if_neg fun h => hi h.1, if_neg fun h => hi h.1]
    exact ⟨hle, hcounted⟩

/-- A frame leaves `factive`. -/
theorem Single.part {m : Traffic} {f : Frame} (h : Single (l.act f)) (ha : m.active = l.active)
    (ht : m.targets = (l.mod f.t (Aoetgt.settled f)).targets) : Single m := by
  have htgt (i : ℕ) : m.tgt i = (l.mod f.t (Aoetgt.settled f)).tgt i := by rw [Traffic.tgt, ht, Traffic.tgt]
  intro i
  obtain ⟨hle, hcounted⟩ := h i
  replace hle : probesOf (f ::ₘ l.active) i ≤ 1 := hle
  replace hcounted : probesOf (f ::ₘ l.active) i = 1 → (l.tgt i).noutProbes % 2^8 ≠ 0 := hcounted
  rw [probesOf_cons] at hle hcounted
  rw [ha, htgt]
  cases hp : f.probe with
  | true =>
    by_cases hi : f.t = i
    · have hnone : probesOf l.active i = 0 := by
        rw [if_pos ⟨hi, hp⟩] at hle
        omega
      rw [hnone]
      exact ⟨Nat.zero_le 1, fun h => absurd h Nat.zero_ne_one⟩
    · rw [if_neg fun h => hi h.1, Nat.add_zero] at hle hcounted
      rw [tgt_mod, if_neg fun h => hi h.1]
      exact ⟨hle, hcounted⟩
  | false =>
    rw [hp] at hle hcounted
    simp only [Bool.false_eq_true, and_false, if_false, Nat.add_zero] at hle hcounted
    have hsame : ((l.tgt f.t).settled f).noutProbes = (l.tgt f.t).noutProbes := by
      dsimp only [Aoetgt.settled]
      rw [hp]
      rfl
    rw [probes_mod l f.t i hsame]
    exact ⟨hle, hcounted⟩

private theorem incChar_eq_one {n : ℕ} (h : incChar n = 1) : n % 2^8 = 0 := by
  unfold incChar at h
  omega

theorem Act.single (h : Act G l l') (ht : Tabled l) (hs : Alone l'.sends) (hp : Single l) : Single l' := by
  cases h with
  | @turn _ i g hturn => exact hp.of_counts rfl fun j => probes_mod l i j (turns_probes hturn)
  | @send _ f f' cloned w r hw hprobe _ _ _ hstamp =>
    obtain ⟨sent, jiffs, rfl⟩ := hstamp
    refine hp.join (f := { f with sent := sent, sentJiffs := jiffs }) (lt_of_window hw)
      (g := fun t => (ifrotate t).1.issued w r) rfl rfl ?_ ?_
    · intro htrue
      exact absurd (hprobe.symm.trans htrue) (by simp)
    · intro _
      obtain ⟨i, hi, -⟩ := ifrotate_eq (l.tgt f.t)
      dsimp only
      rw [hi]
      rfl
  | @probe _ f f' cloned w r hlt hn hprobe _ _ _ hstamp =>
    obtain ⟨sent, jiffs, rfl⟩ := hstamp
    have hcount : ((ifrotate (l.tgt f.t)).1.issued w r).probed.noutProbes = 1 := by
      obtain ⟨i, hi, -⟩ := ifrotate_eq (l.tgt f.t)
      rw [hi]
      dsimp only [Aoetgt.issued, Aoetgt.probed]
      rw [hn]
      rfl
    have hmm := congrArg Traffic.targets (mod_mod l f.t (fun t => (ifrotate t).1.issued w r) Aoetgt.probed)
    refine hp.join (f := { f with sent := sent, sentJiffs := jiffs }) hlt
      (g := fun t => ((ifrotate t).1.issued w r).probed) rfl hmm ?_ ?_
    · exact fun _ => ⟨by rw [hn]; rfl, hcount⟩
    · intro hfalse
      exact absurd (hprobe.symm.trans hfalse) (by simp)
  | @miss _ i hn =>
    intro j
    obtain ⟨hle, hcounted⟩ := hp j
    refine ⟨hle, fun hone => ?_⟩
    rw [tgt_mod]
    split
    · rename_i hij
      rw [hij.1] at hn
      exact absurd (by rw [hn]; rfl) (hcounted hone)
    · exact hcounted hone
  | @eject _ x => exact hp.of_counts rfl fun j => probes_mod l x.t j rfl
  | @expire l f => exact hp.part rfl rfl
  | @resend l f f' f'' cloned hw hrot hr _ hstamp =>
    obtain ⟨sent, jiffs, rfl⟩ := hstamp
    have hlt := lt_of_window hw
    have hcount : ((ifrotate (l.tgt f.t)).1.resumed f).noutProbes =
        if f.probe then incChar (l.tgt f.t).noutProbes else (l.tgt f.t).noutProbes := by
      obtain ⟨i, hi, -⟩ := ifrotate_eq (l.tgt f.t)
      rw [hi]
      rfl
    have hp' : Single l := hp
    refine hp'.join (f := { f' with sent := sent, sentJiffs := jiffs }) (hr.t.symm ▸ hlt)
      (g := fun t => (ifrotate t).1.resumed f) rfl ?_ ?_ ?_
    · rw [hr.t]
      rfl
    · intro htrue
      have hfp : f.probe = true := hr.probe.symm.trans htrue
      have htgt : (l.mod f.t fun t => (ifrotate t).1.resumed f).tgt f'.t = (ifrotate (l.tgt f.t)).1.resumed f := by
        rw [hr.t]
        exact tgt_mod_self hlt _
      have hlast : (⟨f', (l.mod f.t fun t => (ifrotate t).1.resumed f).tgt f'.t, false, cloned⟩ : Send) ∈
          l.sends ++ [⟨f', (l.mod f.t fun t => (ifrotate t).1.resumed f).tgt f'.t, false, cloned⟩] :=
        List.mem_append_right _ (List.mem_singleton_self _)
      have hsnap := hs _ hlast htrue rfl
      dsimp only at hsnap ⊢
      rw [htgt, hcount, if_pos hfp] at hsnap
      rw [hr.t]
      refine ⟨incChar_eq_one hsnap, ?_⟩
      rw [hcount, if_pos hfp]
      exact hsnap
    · intro hfalse
      have hfp : f.probe = false := hr.probe.symm.trans hfalse
      dsimp only
      rw [hr.t, hcount, hfp]
      rfl
  | @strand l f hrot hw =>
    -- a target always finds an interface
    have hlt := lt_of_window (l := l) hw
    have hwired : Wired (l.tgt f.t) := ht.wired _ (mem_of_getD hlt)
    rw [ifrotate_live hwired.live] at hrot
    exact absurd hrot (by simp)
  | takeOver => exact hp
  | leave => exact hp
  | @answer l f => exact hp.part rfl rfl
  | @add _ t addr n nd bcnt _ _ _ _ hset =>
    refine hp.of_counts rfl fun i => ?_
    have hnew : t.noutProbes = 0 := setif_probes hset
    have htgt : (Traffic.tgt { l with
        targets := l.targets ++ [t], maxbcnt := setdbcntLoop 0 (l.targets ++ [t])
        holds := l.holds ++ [(l.targets.length, nd)] } i) = (l.targets ++ [t]).getD i default := rfl
    rw [htgt]
    rcases Nat.lt_trichotomy i l.targets.length with hi | rfl | hi
    · rw [List.getD_append _ _ _ _ hi]
      rfl
    · rw [tgt_default le_rfl, List.getD_append_right _ _ _ _ le_rfl, Nat.sub_self]
      exact hnew
    · rw [tgt_default hi.le, List.getD_eq_default _ _ (by simp; omega)]
  | @setif _ i t nd bcnt hi _ _ hset => exact hp.of_counts rfl fun j => probes_mod l i j (setif_probes hset)
  | clean =>
    refine hp.of_counts rfl fun i => ?_
    by_cases hi : i < l.targets.length
    · rw [tgt_map (l := l) hi rfl]
      rfl
    · rw [tgt_default (not_lt.mp hi), tgt_default (by simpa using hi)]
  | down =>
    intro i
    exact ⟨Nat.zero_le 1, fun h => absurd h Nat.zero_ne_one⟩

/-- `rexmit_deferred` sends a probe again only while `nout_probes` of its target is 0, as for a new probe. -/
def loneProbes (d : Aoedev) (e : Event) : Bool :=
  (exec d e).all fun d' => (d'.hist.sends.drop d.hist.sends.length).all fun s =>
    !s.frame.probe || s.first || s.tgt.noutProbes == 1

private theorem reached_alone {d : Aoedev} (h : ReachedBy (fun d e _ => loneProbes d e) d) : Alone d.hist.sends := by
  refine Machine.Reach.invariant (P := fun d => Alone d.hist.sends) ?_ ?_ h
  · intro s hs x hx
    have hnil : s.hist.sends = [] := congrArg Traffic.sends (initial_traffic hs)
    rw [hnil] at hx
    exact absurd hx List.not_mem_nil
  · intro s e s' hreach halone hguard hstep x hx hprobe hagain
    obtain ⟨⟨a, ha⟩, -⟩ := (exec_acts (reachedBy_good hreach).1 (Gate.meets_any s e) hstep.1).grows
    replace ha : s'.hist.sends = s.hist.sends ++ a := ha
    rw [ha] at hx
    rcases List.mem_append.mp hx with hx | hx
    · exact halone x hx hprobe hagain
    · rw [loneProbes, hstep.1, Option.all_some, ha, List.drop_left, List.all_eq_true] at hguard
      have hx' := hguard x hx
      rw [hprobe, hagain, Bool.not_true, Bool.false_or, Bool.false_or] at hx'
      exact beq_iff_eq.mp hx'

private theorem reached_single {ok : Aoedev → Event → Aoedev → Prop} {d : Aoedev} (h : ReachedBy ok d)
    (ha : Alone d.hist.sends) : Single (d.traffic 0) := by
  have hall := reachedBy_traffic (P := fun l => Tabled l ∧ (Alone l.sends → Single l)) (fun s e _ _ => Gate.meets_any s e)
    ?_ ?_ h
  · exact hall.2 ha
  · refine ⟨tabled_blank, fun _ i => ⟨Nat.zero_le 1, fun h => absurd h Nat.zero_ne_one⟩⟩
  · rintro l l' hact ⟨ht, hs⟩
    refine ⟨hact.tabled ht, fun halone => hact.single ht halone (hs fun s hmem => ?_)⟩
    refine halone s ?_
    rcases hact.sends with ⟨heq, -⟩ | ⟨x, -, heq, -⟩
    · rw [heq]
      exact hmem
    · rw [heq]
      exact List.mem_append_left _ hmem

/-- As long as deferred probes wait for the probe of their target that is out, a target has one probe out at most. -/
theorem one_probe_at_a_time {d : Aoedev} (h : ReachedBy (fun d e _ => loneProbes d e) d) (i : ℕ) : d.probesOut i ≤ 1 := by
  have hle := (reached_single h (reached_alone h) i).1
  have hactive : (d.traffic 0).active = (d.activeFrames : Multiset Frame) := (coe_activeFrames d).symm
  rw [hactive, probesOf, Multiset.coe_countP] at hle
  exact hle

end Probes

def probedCfg : CfgRsp := { sampleCfg with src := 2, bufcnt := 2 }

/-- A response of target `src` to the `n`-th tag, given out at time `j`. -/
def probedRsp (src : Mac) (n j : ℕ) : Rsp :=
  { src := src, dev := sampleNd, tag := j % 2^16 + n * 2^16, cmdstat := 0x50, payload := List.replicate 1024 0 }

/-- A write or a probe is answered and completed. -/
def probedAnswer (src : Mac) (n j sections : ℕ) : List Event :=
  .ataRsp (probedRsp src n j) :: sampleRun 0 2 ++ .ktioTake 2 :: sampleRun 0 sections

def probedOnce : List Event :=
  sampleUp ++ [.blkOpen, .cfgRsp probedCfg] ++ sampleRun 0 2 ++ [.blkQueue (writeRq 7 2), .blkRun default] ++
    probedAnswer 2 2 500000 5 ++ [.clock 5000000 5000, .blkQueue (writeRq 8 2), .blkRun default] ++
    probedAnswer 2 4 505000 5 ++ [.clock 9000000 9000, .rexmitTimer default]

/-- The probe times out while another write is moved to the second target, which starts a second probe. Answers to it
and its successor open the window and take away the taint until the first probe is due again. -/
def probedTwice : List Event :=
  probedOnce ++ probedAnswer 2 7 514000 5 ++ [.params 0 128, .clock 15000000 15000, .rexmitTimer default] ++
    probedAnswer 1 8 529000 4 ++ probedAnswer 1 10 529000 4 ++ [.blkRun default]

def probedScene : Scene loneProbes strippedStart probedOnce (fun d => d.probesOut 0 == 1) := ⟨by decide +kernel⟩

theorem one_probe_at_a_time_sample : ∃ d, ReachedBy (fun d e _ => loneProbes d e) d ∧ d.probesOut 0 = 1 ∧
    ∀ i, d.probesOut i ≤ 1 := by
  obtain ⟨d, -, hreach, htest⟩ := probedScene.last ⟨_, _, _, _, _, _, _, rfl⟩
  exact ⟨d, hreach, beq_iff_eq.mp htest, one_probe_at_a_time hreach⟩

def twoProbesScene : Scene unguarded strippedStart probedTwice (fun d => d.probesOut 0 == 2) := ⟨by decide +kernel⟩

theorem two_probes_out : ∃ d, Reached d ∧ d.probesOut 0 = 2 := by
  obtain ⟨d, -, hreach, htest⟩ := twoProbesScene.last ⟨_, _, _, _, _, _, _, rfl⟩
  exact ⟨d, hreach.mono fun _ _ _ _ => trivial, beq_iff_eq.mp htest⟩

end AoeDriver
