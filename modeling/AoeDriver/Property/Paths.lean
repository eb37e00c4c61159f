import AoeDriver.Property.Interfaces
import AoeDriver.Property.Frames

/-!
# Packets and the paths they take

The size of a frame is fixed when it is cut, the interface is chosen anew whenever it is sent. A packet suits the slot it
leaves on as long as no config response lowers a limit below the size of a frame that may be sent again, and
`aoecmd_cleanslate` does not fall back to a default that is too large for a recorded interface.
-/

namespace AoeDriver

open Tables

section Roomy

variable {G : Gate} {t t' : Aoetgt} {n : ℕ}

/-- Every interface takes payloads of `n` bytes. -/
def RoomyIfs (n : ℕ) (ifs : List Aoeif) : Prop := ∀ x ∈ ifs, x.nd.isSome → n ≤ x.bcnt

def Roomy (n : ℕ) (t : Aoetgt) : Prop := RoomyIfs n t.ifs

theorem Roomy.congr (h : Roomy n t) (hifs : t'.ifs = t.ifs) : Roomy n t' := by
  unfold Roomy
  rw [hifs]
  exact h

theorem Roomy.alike (h : Roomy n t) (ha : Alike t t') : Roomy n t' := by
  intro x hx hsome
  have hmem : (x.nd, x.bcnt) ∈ t'.ifs.map fun x => (x.nd, x.bcnt) := List.mem_map_of_mem hx
  rw [ha.ifs] at hmem
  obtain ⟨y, hy, heq⟩ := List.mem_map.mp hmem
  obtain ⟨hnd, hbcnt⟩ := Prod.mk.inj heq
  rw [← hnd] at hsome
  rw [← hbcnt]
  exact h y hy hsome

theorem Roomy.turn (h : Roomy n t) (hstep : Turning G t t') : Roomy n t' := by
  cases hstep with
  | rotate =>
    obtain ⟨i, hi, -⟩ := ifrotate_eq t
    exact h.congr (by rw [hi])
  | stats ha => exact h.alike ha
  | grow => exact h.congr (nds_grow t).1
  | collapse => exact h.congr rfl
  | advertise =>
    split
    · exact h.congr rfl
    · exact h.congr rfl

theorem Roomy.eject (h : Roomy n t) (i : ℕ) : Roomy n (ejectif t i) := by
  intro x hx hsome
  rcases List.mem_append.mp hx with hx | hx
  · exact h x (List.mem_of_mem_eraseIdx hx) hsome
  · rw [List.mem_singleton.mp hx] at hsome
    exact absurd hsome Bool.false_ne_true

private theorem setifbcntLoop_roomy {bcnt : ℕ} (hn : n ≤ bcnt) (k p : ℕ) {ifs : List Aoeif} (nd : Option NetDev)
    (minbcnt : ℕ) (h : RoomyIfs n ifs) : RoomyIfs n (setifbcntLoop bcnt k p ifs nd minbcnt).1 := by
  induction k generalizing p ifs nd minbcnt with
  | zero => exact h
  | succ k ih =>
    unfold setifbcntLoop
    dsimp only
    split
    · exact h
    · split
      · exact ih (p + 1) none minbcnt (forall_mem_modify h fun _ _ _ => hn)
      · exact ih (p + 1) nd _ h

theorem Roomy.setif {nd : NetDev} {bcnt : ℕ} (h : Roomy n t) (hn : n ≤ bcnt)
    (hset : setifbcntTgt t nd bcnt = some t') : Roomy n t' := by
  have hloop := setifbcntLoop_roomy hn NAOEIFS 0 (some nd) bcnt h
  unfold setifbcntTgt at hset
  generalize setifbcntLoop bcnt NAOEIFS 0 t.ifs (some nd) bcnt = r at hloop hset
  obtain ⟨ifs, o, minbcnt, p⟩ := r
  cases o with
  | none =>
    rw [Option.some.injEq] at hset
    exact hset ▸ hloop
  | some nd' =>
    dsimp only at hset
    split at hset
    · exact absurd hset (by simp)
    · rw [Option.some.injEq] at hset
      rw [← hset]
      exact forall_mem_modify hloop fun _ _ _ => hn

private theorem newTarget_roomy (addr : Mac) (k n : ℕ) : Roomy n (newTarget addr k) := by
  intro x hx hsome
  have hx' : x = default := List.eq_of_mem_replicate hx
  rw [hx'] at hsome
  exact absurd hsome Bool.false_ne_true

private theorem roomy_held (n : ℕ) : Held G (Roomy n) := by
  constructor
  case turn => exact fun t t' hstep ht => ht.turn hstep
  case count => exact fun t _ _ _ _ ht => ht.congr rfl
  case eject => exact fun t i _ _ ht => ht.eject i
  case reset => exact fun t ht => ht.congr rfl

private theorem setdbcntLoop_pos {bcnt : ℕ} (ts : List Aoetgt) (ht : ∀ t ∈ ts, 0 < t.minbcnt) (hb : 0 < bcnt ∨ ts ≠ []) :
    0 < setdbcntLoop bcnt ts := by
  induction ts generalizing bcnt with
  | nil =>
    rcases hb with hb | hb
    · exact hb
    · exact absurd rfl hb
  | cons t ts ih =>
    have hhead : 0 < t.minbcnt := ht t List.mem_cons_self
    unfold setdbcntLoop
    refine ih (fun x hx => ht x (List.mem_cons_of_mem _ hx)) (.inl ?_)
    split
    · exact hhead
    · omega

end Roomy

section Fitting

/-- No limit is set below the size of a frame that may be sent again, and the default size suits all interfaces when it
is fallen back to. -/
def pathGate : Gate where
  add := fun _ => True
  advertise := fun _ => True
  setif := fun frames bcnt => ∀ f ∈ frames, f.iter.size ≤ bcnt
  clean := fun l => ∀ t ∈ l.targets, Roomy DEFAULTBCNT t

variable {G : Gate} {l l' : Traffic}

theorem Act.payload (h : Act G l l') : l'.payload = l.payload ∨ (∃ t t' bcnt, Configured G l l' t t' bcnt) ∨
    l'.payload = DEFAULTBCNT ∧ G.clean l := by
  cases h with
  | add hn hlt hb hp ht => exact .inr (.inl ⟨_, _, _, configured_add hn hlt hb hp ht rfl rfl rfl rfl⟩)
  | setif hi hb hp ht => exact .inr (.inl ⟨_, _, _, configured_setif hi hb hp ht rfl rfl rfl rfl⟩)
  | clean hc => exact .inr (.inr ⟨rfl, hc⟩)
  | _ => exact .inl rfl

theorem Act.listed (h : Act G l l') {f : Frame} (hf : f ∈ l'.active + l'.deferred) :
    (∃ g ∈ l.active + l.deferred, f.iter.size = g.iter.size) ∨ f.iter.size ≤ l.payload := by
  rcases Multiset.mem_add.mp hf with hf | hf
  · rcases h.active hf with hf | ⟨s, hs, -, hstamp⟩
    · exact .inl ⟨f, Multiset.mem_add.mpr (.inl hf), rfl⟩
    · have hiter : f.iter = s.frame.iter := hstamp.of_eq.2.2.2.1
      rw [hiter]
      cases hs with
      | fresh _ _ _ _ hsize => exact .inr hsize
      | probe _ _ _ _ hsize => exact .inr hsize
      | @again g g' _ hg _ _ _ hr =>
        have hsame : g'.iter = g.iter := congrArg Command.iter hr.command
        exact .inl ⟨g, Multiset.mem_add.mpr (.inr hg), by rw [hsame]⟩
  · rcases h.deferred hf with hf | ⟨g, hg, -, hc⟩
    · exact .inl ⟨f, hf, rfl⟩
    · have hsame : f.iter = g.iter := congrArg Command.iter hc
      exact .inl ⟨g, Multiset.mem_add.mpr (.inr hg), by rw [hsame]⟩

/-- Everything that may be sent suits every path. -/
structure Fitting (l : Traffic) : Prop where
  wired : ∀ t ∈ l.targets, Wired t
  payload : ∀ t ∈ l.targets, Roomy l.payload t
  listed : ∀ f ∈ l.active + l.deferred, ∀ t ∈ l.targets, Roomy f.iter.size t
  sends : ∀ s ∈ l.sends, s.frame.iter.size ≤ (s.tgt.ifAt s.tgt.ifp).bcnt

private theorem fitting_blank : Fitting Traffic.blank := by
  refine ⟨?_, ?_, ?_, ?_⟩
  · exact fun t ht => absurd ht List.not_mem_nil
  · exact fun t ht => absurd ht List.not_mem_nil
  · exact fun _ _ t ht => absurd ht List.not_mem_nil
  · exact fun s hs => absurd hs List.not_mem_nil

theorem Configured.roomy {t t' : Aoetgt} {bcnt n : ℕ} (hc : Configured G l l' t t' bcnt) (hn : n ≤ bcnt)
    (hl : ∀ x ∈ l.targets, Roomy n x) : ∀ x ∈ l'.targets, Roomy n x := by
  intro x hx
  rcases hc.others x hx with hx | rfl
  · exact hl x hx
  · obtain ⟨nd, hset⟩ := hc.set
    rcases hc.old with hold | ⟨addr, k, -, -, rfl⟩
    · exact (hl t hold).setif hn hset
    · exact (newTarget_roomy addr k n).setif hn hset

theorem Configured.payload_roomy {t t' : Aoetgt} {bcnt : ℕ} (hc : Configured G l l' t t' bcnt)
    (hw : ∀ x ∈ l'.targets, Wired x) : ∀ x ∈ l'.targets, Roomy l'.payload x := by
  have hmin : ∀ x ∈ l'.targets, Payload x.minbcnt := fun x hx => (hw x hx).live.minbcnt
  have hpos : 0 < l'.maxbcnt := by
    rw [hc.maxbcnt]
    exact setdbcntLoop_pos _ (fun x hx => (hmin x hx).1) (.inr (List.ne_nil_of_mem hc.mem))
  have hpayload : l'.payload = l'.maxbcnt := by
    rw [Traffic.payload, if_neg hpos.ne']
  intro x hx y hy hsome
  have hle : l'.maxbcnt ≤ x.minbcnt := by
    rw [hc.maxbcnt]
    exact (setdbcntLoop_bounded ⟨0, by norm_num, rfl⟩ l'.targets hmin).2.1 x hx
  rw [hpayload]
  exact hle.trans ((hw x hx).live.bcnt y hy hsome).2

theorem Sent.fits {s : Send} (h : Sent l s) (hf : Fitting l) : s.frame.iter.size ≤ (s.tgt.ifAt s.tgt.ifp).bcnt := by
  have hslot {i n : ℕ} (hi : i < l.targets.length) (hn : Roomy n (l.tgt i)) :
      n ≤ ((ifrotate (l.tgt i)).1.ifAt (ifrotate (l.tgt i)).1.ifp).bcnt := by
    have hwired : Wired (l.tgt i) := hf.wired _ (mem_of_getD hi)
    obtain ⟨hsome, hlt⟩ := ifrotate_nd (ifrotate_live hwired.live)
    have hroomy : Roomy n (ifrotate (l.tgt i)).1 := hn.turn (G := pathGate) .rotate
    have hlen : (ifrotate (l.tgt i)).1.ifs.length = NAOEIFS := hwired.rotate.live.len
    exact hroomy _ (mem_of_getD (by rw [hlen]; exact hlt)) hsome
  cases h with
  | @fresh f _ _ _ hlt _ _ _ hsize => exact hsize.trans (hslot hlt (hf.payload _ (mem_of_getD hlt)))
  | @probe f _ _ _ hlt _ _ _ hsize => exact hsize.trans (hslot hlt (hf.payload _ (mem_of_getD hlt)))
  | @again f f' _ hdef hlt _ _ hr =>
    have hsame : f'.iter = f.iter := congrArg Command.iter hr.command
    have hfits := hslot hlt (hf.listed f (Multiset.mem_add.mpr (.inr hdef)) _ (mem_of_getD hlt))
    change f'.iter.size ≤ _
    rw [hsame]
    exact hfits

theorem Act.fitting (h : Act pathGate l l') (hf : Fitting l) : Fitting l' := by
  have hwired := wired_kept.act h hf.wired
  have hroomy {n : ℕ} (hl : ∀ t ∈ l.targets, Roomy n t) := (roomy_held n).act h hl
  refine ⟨hwired, ?_, ?_, h.forall_sends hf.sends fun s hs => hs.fits hf⟩
  · rcases h.payload with heq | ⟨t, t', bcnt, hc⟩ | ⟨heq, hclean⟩
    · rcases hroomy hf.payload with hall | ⟨t, t', bcnt, hc⟩
      · rw [heq]
        exact hall
      · exact hc.payload_roomy hwired
    · exact hc.payload_roomy hwired
    · rcases hroomy hclean with hall | ⟨t, t', bcnt, hc⟩
      · rw [heq]
        exact hall
      · exact hc.payload_roomy hwired
  · intro f hfl
    have hold : ∀ t ∈ l.targets, Roomy f.iter.size t := by
      rcases h.listed hfl with ⟨g, hg, hsize⟩ | hsize
      · rw [hsize]
        exact hf.listed g hg
      · exact fun t ht x hx hsome => hsize.trans (hf.payload t ht x hx hsome)
    rcases hroomy hold with hall | ⟨t, t', bcnt, hc⟩
    · exact hall
    · rw [hc.active, hc.deferred] at hfl
      exact hc.roomy (hc.gate f hfl) hold

end Fitting

/-- Config responses leave the limits at or above the size of every frame that is out or waits to be sent again, and
`aoecmd_cleanslate` is called only while all recorded limits are at least `DEFAULTBCNT`. -/
def pathsSuit (d : Aoedev) : Event → Bool
  | .run i _ =>
    match d.threads[i]? with
    | some (.cfg c) => d.listedFrames.all fun f => f.iter.size ≤ cfgBcnt c.mtu c.scnt
    | some (.reval true) => d.targets.all fun t => t.ifs.all fun x => x.nd.isNone || DEFAULTBCNT ≤ x.bcnt
    | _ => true
  | _ => true

private theorem coe_listed_traffic (d : Aoedev) :
    (d.traffic 0).active + (d.traffic 0).deferred = (d.listedFrames : Multiset Frame) := by
  rw [coe_listedFrames]
  rfl

private theorem pathGate_meets {d : Aoedev} {e : Event} (h : pathsSuit d e = true) : pathGate.Meets d e := by
  cases e with
  | run i env =>
    simp only [Gate.Meets]
    split
    · rename_i c hi
      simp only [pathsSuit, hi, List.all_eq_true, decide_eq_true_eq] at h
      refine ⟨?_, ?_⟩
      · split
        · trivial
        · exact fun _ => trivial
      · intro f hf
        rw [coe_listed_traffic] at hf
        exact h f hf
    · rename_i hi
      simp only [pathsSuit, hi, List.all_eq_true] at h
      intro t ht x hx hsome
      obtain ⟨t', ht', rfl⟩ := List.mem_map.mp ht
      have hx' := h t' ht' x hx
      rw [Bool.or_eq_true, Option.isNone_iff_eq_none, decide_eq_true_eq] at hx'
      rcases hx' with hnone | hle
      · rw [hnone] at hsome
        exact absurd hsome Bool.false_ne_true
      · exact hle
    · trivial
  | _ => trivial

/-- Every packet suits the interface slot it leaves on, in runs whose limits stay above what may be sent again. -/
theorem packets_fit_path {d : Aoedev} (h : ReachedBy (fun d e _ => pathsSuit d e) d) :
    ∀ s ∈ d.hist.sends, s.frame.iter.size ≤ (s.tgt.ifAt s.tgt.ifp).bcnt := by
  have hf : Fitting (d.traffic 0) :=
    reachedBy_traffic (fun _ _ _ hok => pathGate_meets hok) fitting_blank (fun _ _ => Act.fitting) h
  exact hf.sends

def samplePaths : Scene pathsSuit sampleStart sampleEvents (fun d => d.hist.sends.length == 4) := ⟨by decide +kernel⟩

theorem packets_fit_path_sample : ∃ d, ReachedBy (fun d e _ => pathsSuit d e) d ∧ d.hist.sends.length = 4 ∧
    ∀ s ∈ d.hist.sends, s.frame.iter.size ≤ (s.tgt.ifAt s.tgt.ifp).bcnt := by
  obtain ⟨d, -, hreach, htest⟩ := samplePaths.last sampleStart_initial
  exact ⟨d, hreach, beq_iff_eq.mp htest, packets_fit_path hreach⟩

/-- While writes of 1024 bytes are out, the target lowers its sector count to 1; they time out and are sent again. -/
def narrowedEvents : List Event :=
  sampleUp ++ [.blkOpen, .blkQueue sampleRq, .blkRun default, .cfgRsp { sampleCfg with scnt := 1 }] ++ sampleRun 0 2 ++
    [.clock 20000000 20000, .rexmitTimer default]

def narrowedScene : Scene unguarded sampleStart narrowedEvents (fun d => d.hist.sends.any fun s =>
    decide (s.cloned = true ∧ s.frame.iter.size = 1024 ∧ (s.tgt.ifAt s.tgt.ifp).bcnt = 512)) := ⟨by decide +kernel⟩

/-- A packet that is too large for the interface it leaves on. -/
theorem packet_exceeds_path : ∃ d, Reached d ∧ ∃ s ∈ d.hist.sends, s.cloned = true ∧ s.frame.iter.size = 1024 ∧
    (s.tgt.ifAt s.tgt.ifp).bcnt = 512 := by
  obtain ⟨d, -, hreach, htest⟩ := narrowedScene.last sampleStart_initial
  obtain ⟨s, hs, hc⟩ := List.any_eq_true.mp htest
  exact ⟨d, hreach.mono fun _ _ _ _ => trivial, s, hs, of_decide_eq_true hc⟩

end AoeDriver
