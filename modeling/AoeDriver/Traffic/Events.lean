import AoeDriver.Traffic.Timer
import AoeDriver.Run.Reach

/-!
# Events as acts

Every event acts on the traffic. What holds of the traffic of a new device and is kept by acts holds in every
reachable state.
-/

namespace AoeDriver

open Tables Machine

section Responses

variable {G : Gate} {h : Hands} {d : Aoedev}

private theorem bare_growWindow (t : Aoetgt) : (growWindow t).bare = growWindow t.bare := by
  have hm : t.bare.maxout = t.maxout := rfl
  have hn : t.bare.nframes = t.nframes := rfl
  have hs : t.bare.ssthresh = t.ssthresh := rfl
  have ho : t.bare.nout = t.nout := rfl
  have hc : t.bare.nextCwnd = t.nextCwnd := rfl
  unfold growWindow
  rw [hm, hn, hs, ho, hc]
  dsimp only
  simp only [apply_ite Aoetgt.bare]
  rfl

private theorem calcRttavg_acts (t : Option ℕ) (rtt : ℤ) : Acts G (d.traffic h) ((calcRttavg d t rtt).traffic h) := by
  unfold calcRttavg
  extract_lets n rttavg n' d'
  cases t with
  | none => exact .refl
  | some t =>
    have hturn : Turnings G (d'.tgtAt t).bare (growWindow (d'.tgtAt t)).bare := by
      rw [bare_growWindow]
      exact .single .grow
    exact Turnings.acts (d := d') hturn

private theorem getframe_traffic {tag : ℕ} {f : Frame} {d' : Aoedev} (hget : getframe d tag = some (f, d')) :
    d.traffic h = (d'.traffic h).act f := by
  unfold getframe at hget
  obtain ⟨⟨g, rest⟩, htake, heq⟩ := Option.map_eq_some_iff.mp hget
  obtain ⟨rfl, rfl⟩ := Prod.mk.inj heq
  obtain ⟨hperm, -⟩ := takeTag_spec htake
  simp only [Aoedev.traffic, Traffic.act]
  rw [contents_remove _ _ _ _ hperm, Multiset.cons_add]

private theorem getframeDeferred_traffic {tag : ℕ} {f : Frame} {d' : Aoedev}
    (hget : getframeDeferred d tag = some (f, d')) : d.traffic h = (d'.traffic h).defer f := by
  unfold getframeDeferred at hget
  obtain ⟨⟨g, rest⟩, htake, heq⟩ := Option.map_eq_some_iff.mp hget
  obtain ⟨rfl, rfl⟩ := Prod.mk.inj heq
  obtain ⟨hperm, -⟩ := takeTag_spec htake
  simp only [Aoedev.traffic, Traffic.defer]
  rw [Multiset.coe_eq_coe.mpr hperm, ← Multiset.cons_coe, Multiset.cons_add]

private theorem rspMatch_acts (d : Aoedev) (h : Hands) (r : Rsp) : Acts G (d.traffic h) ((rspMatch d r).1.traffic h) := by
  unfold rspMatch
  cases hget : getframe d r.tag with
  | some p =>
    obtain ⟨f, d₁⟩ := p
    rw [getframe_traffic hget, ← traffic_hands_act]
    dsimp only
    have hgrow := calcRttavg_acts (G := G) (h := h.act f) (d := d₁) (some f.t) (tsinceHr d₁.clock f)
    generalize calcRttavg d₁ (some f.t) (tsinceHr d₁.clock f) = d₂ at hgrow ⊢
    have hl := traffic_modTgt (d₂.notePred .nout (d₂.tgtAt f.t).nout) h f.t
      (fun t => { t with
        nout := decUshort t.nout, noutProbes := if f.probe then decChar t.noutProbes else t.noutProbes })
      (Aoetgt.settled f) fun _ => rfl
    rw [(notePred_aside (by decide) _).traffic] at hl
    rw [hl]
    refine hgrow.tail ?_
    rw [traffic_hands_act]
    exact .answer
  | none =>
    cases hdef : getframeDeferred d r.tag with
    | some p =>
      obtain ⟨f, d₁⟩ := p
      rw [getframeDeferred_traffic hdef]
      exact Relation.ReflTransGen.head .leave (calcRttavg_acts none _)
    | none =>
      have hrtt := calcRttavg_acts (G := G) (h := h) (d := d) none (tsince d.clock r.tag)
      dsimp only
      generalize calcRttavg d none (tsince d.clock r.tag) = d₁ at hrtt ⊢
      cases gettgt d₁ r.src with
      | none => exact hrtt
      | some t =>
        refine hrtt.trans (Turnings.acts ?_)
        exact .single (.stats ⟨rfl, rfl, rfl, rfl, rfl, rfl, rfl, rfl, rfl, rfl⟩)

private theorem redeem_acts (hi : (d.ledger h).Inv) {t : ℕ} (ht : t < d.targets.length) :
    Acts G (d.traffic h) ((redeem d t).traffic h) := by
  unfold redeem
  split
  · have hquiet : Quiet h d h (d.modTgt t fun x => { x with taint := x.taint - 1 }) :=
      Quiet.of_eq (ledger_modTgt_same d h t _ fun _ => rfl) rfl rfl
    have hstats : Acts G (d.traffic h) ((d.modTgt t fun x => { x with taint := x.taint - 1 }).traffic h) :=
      Turnings.acts (.single (.stats ⟨rfl, rfl, rfl, rfl, rfl, rfl, rfl, rfl, rfl, rfl⟩))
    dsimp only
    split
    · rename_i hc
      exact hstats.trans (probeCounted_acts (hquiet.inv hi) (by simpa using ht) hc.2.1)
    · exact hstats
  · exact .refl

private theorem lostReset_acts (t : ℕ) (nd : NetDev) :
    Acts G (d.traffic h) ((d.modTgt t fun t => match getif t (some nd) with
      | some j => { t with ifs := t.ifs.modify j fun x => { x with lost := 0 } }
      | none => t).traffic h) := by
  refine Turnings.acts ?_
  cases getif (d.tgtAt t) (some nd) with
  | none => exact .refl
  | some j => exact .single (.stats (alike_lost (d.tgtAt t).bare j fun _ => 0))

end Responses

section Discovery

variable {G : Gate} {d : Aoedev}

private theorem bare_setifbcntTgt (t : Aoetgt) (nd : NetDev) (bcnt : ℕ) :
    setifbcntTgt t.bare nd bcnt = (setifbcntTgt t nd bcnt).map Aoetgt.bare := by
  have hifs : t.bare.ifs = t.ifs := rfl
  unfold setifbcntTgt
  rw [hifs]
  generalize setifbcntLoop bcnt NAOEIFS 0 t.ifs (some nd) bcnt = r
  obtain ⟨ifs, o, minbcnt, p⟩ := r
  cases o with
  | none => rfl
  | some nd =>
    dsimp only
    split
    · rfl
    · rfl

private theorem setdbcntLoop_bare (n : ℕ) (ts : List Aoetgt) :
    setdbcntLoop n (ts.map Aoetgt.bare) = setdbcntLoop n ts := by
  induction ts generalizing n with
  | nil => rfl
  | cons t ts ih =>
    rw [List.map_cons, setdbcntLoop, setdbcntLoop, ih]
    rfl

private theorem noteHold_traffic (d : Aoedev) (t : ℕ) (nd : NetDev) (bcnt : ℕ) :
    (d.noteHold t nd bcnt).traffic 0 = { d.traffic 0 with
      holds := (d.traffic 0).holds ++
        (setifbcntLoop bcnt NAOEIFS 0 ((d.traffic 0).tgt t).ifs (some nd) bcnt).2.1.toList.map fun nd => (t, nd) } ∧
      (d.noteHold t nd bcnt).targets = d.targets := by
  have hifs : ((d.traffic 0).tgt t).ifs = (d.tgtAt t).ifs := by
    rw [tgt_traffic]
    rfl
  rw [hifs]
  unfold Aoedev.noteHold
  cases (setifbcntLoop bcnt NAOEIFS 0 (d.tgtAt t).ifs (some nd) bcnt).2.1 with
  | none => exact ⟨by simp, rfl⟩
  | some nd => exact ⟨rfl, rfl⟩

private theorem setdbcnt_traffic (d : Aoedev) :
    (setdbcnt d).traffic 0 = { d.traffic 0 with maxbcnt := setdbcntLoop 0 (d.traffic 0).targets } := by
  have hloop : setdbcntLoop 0 (d.traffic 0).targets = setdbcntLoop 0 d.targets := setdbcntLoop_bare 0 d.targets
  rw [hloop]
  rfl

private theorem setifbcnt_acts {t : ℕ} (ht : t < d.targets.length) (nd : NetDev) {bcnt : ℕ} (hw : Payload bcnt)
    (hb : G.setif ((d.traffic 0).active + (d.traffic 0).deferred) bcnt) :
    Acts G (d.traffic 0) ((setifbcnt d t nd bcnt).traffic 0) := by
  obtain ⟨hl, htargets⟩ := noteHold_traffic d t nd bcnt
  unfold setifbcnt
  cases hset : setifbcntTgt (d.tgtAt t) nd bcnt with
  | none => exact .refl
  | some t' =>
    have hbare : setifbcntTgt ((d.traffic 0).tgt t) nd bcnt = some t'.bare := by
      rw [tgt_traffic, bare_setifbcntTgt, hset]
      rfl
    have hmod := traffic_modTgt (d.noteHold t nd bcnt) 0 t (fun _ => t') (fun _ => t'.bare) fun _ => rfl
    dsimp only
    rw [setdbcnt_traffic, hmod, hl]
    exact .single (.setif (by simpa [Aoedev.traffic] using ht) hb hw hbare)

/-- A new target gets its first interface in the same section. -/
private theorem newTarget_acts {addr : Mac} {n : ℕ} {nd : NetDev} {bcnt : ℕ} (hn : G.add n) (hlt : n < 2^16)
    (hw : Payload bcnt) (hb : G.setif ((d.traffic 0).active + (d.traffic 0).deferred) bcnt) :
    Acts G (d.traffic 0)
      ((setifbcnt { d with targets := d.targets ++ [newTarget addr n] } d.targets.length nd bcnt).traffic 0) := by
  let d₁ : Aoedev := { d with targets := d.targets ++ [newTarget addr n] }
  have hat : d₁.tgtAt d.targets.length = newTarget addr n := by simp [d₁, Aoedev.tgtAt]
  obtain ⟨w, hlw, hset⟩ := setifbcntTgt_fresh (t := newTarget addr n) nd hw rfl
  generalize { newTarget addr n with ifs := w.ifs, minbcnt := w.minbcnt } = t' at hset
  obtain ⟨hl, -⟩ := noteHold_traffic d₁ d.targets.length nd bcnt
  have hbare : setifbcntTgt (newTarget addr n) nd bcnt = some t'.bare := by
    have hnew : (newTarget addr n).bare = newTarget addr n := rfl
    rw [← hnew, bare_setifbcntTgt, hset]
    rfl
  have hheld : (setifbcntLoop bcnt NAOEIFS 0 ((d₁.traffic 0).tgt d.targets.length).ifs (some nd) bcnt).2.1 = some nd := by
    rw [tgt_traffic, hat]
    rfl
  have hmod := traffic_modTgt (d₁.noteHold d.targets.length nd bcnt) 0 d.targets.length (fun _ => t') (fun _ => t'.bare)
    fun _ => rfl
  have hlast : (d₁.traffic 0).targets.modify d.targets.length (fun _ => t'.bare) = (d.traffic 0).targets ++ [t'.bare] := by
    have hmap : (d₁.traffic 0).targets = d.targets.map Aoetgt.bare ++ [(newTarget addr n).bare] := by
      simp [d₁, Aoedev.traffic]
    have hlen : d.targets.length = (d.targets.map Aoetgt.bare).length := by simp
    rw [hmap, hlen, modify_last]
    rfl
  have hend : (setifbcnt d₁ d.targets.length nd bcnt).traffic 0 = { d.traffic 0 with
      targets := (d.traffic 0).targets ++ [t'.bare]
      maxbcnt := setdbcntLoop 0 ((d.traffic 0).targets ++ [t'.bare])
      holds := (d.traffic 0).holds ++ [((d.traffic 0).targets.length, nd)] } := by
    have hlen : (d.traffic 0).targets.length = d.targets.length := by simp [Aoedev.traffic]
    rw [setifbcnt, hat, hset]
    dsimp only
    rw [setdbcnt_traffic, hmod, hl, hheld, hlen, ← hlast]
    rfl
  rw [hend]
  exact .single (.add hn hlt hb hw hbare)

/-- What the surroundings promise for a config response. Nothing is asked of one whose target cannot be allocated. -/
def Gate.Cfg (G : Gate) (d : Aoedev) (c : CfgRsp) : Prop :=
  let n := (if c.bufcnt > d.aoeMaxout then d.aoeMaxout else c.bufcnt) % 2^16
  (match gettgt d c.src with
    | some _ => G.advertise n
    | none => (addtgt d c.src n).2 ≠ none → G.add n) ∧
  G.setif ((d.traffic 0).active + (d.traffic 0).deferred) (cfgBcnt c.mtu c.scnt)

private theorem addtgt_index (d : Aoedev) (addr : Mac) (n : ℕ) : (addtgt d addr n).2 =
    if (d.targets.length < d.ntargets ∧ (nextOutcome d.env.kcalloc).1) ∨ (¬ d.targets.length < d.ntargets ∧
      (nextOutcome d.env.kcalloc).1 ∧ (nextOutcome (nextOutcome d.env.kcalloc).2).1) then some d.targets.length else none := by
  unfold addtgt growTargets
  by_cases hlt : d.targets.length < d.ntargets
  · simp only [hlt, if_true, true_and, not_true, false_and, or_false]
    split <;> rfl
  · cases hok : (nextOutcome d.env.kcalloc).1 with
    | false => simp [hlt, hok]
    | true =>
      simp only [hlt, if_false, hok, if_true, false_and, not_false_eq_true, true_and, false_or]
      split <;> rfl

theorem Gate.Cfg.setThread {c : CfgRsp} (h : G.Cfg d c) (i : ℕ) (next : Option Thread) : G.Cfg (d.setThread i next) c := by
  obtain ⟨hn, hb⟩ := h
  refine ⟨?_, hb⟩
  have hget : gettgt (d.setThread i next) c.src = gettgt d c.src := rfl
  rw [hget]
  cases hg : gettgt d c.src with
  | some t =>
    rw [hg] at hn
    exact hn
  | none =>
    rw [hg] at hn
    intro hadd
    rw [addtgt_index] at hadd
    refine hn ?_
    rw [addtgt_index]
    exact hadd

private theorem aoecmdCfgRsp_acts (hg : Good 0 d) (c : CfgRsp) (hm : G.Cfg d c) :
    Acts G (d.traffic 0) ((aoecmdCfgRsp d c).traffic 0) := by
  have hw := cfgBcnt_payload c.mtu c.scnt
  obtain ⟨hn, hb⟩ := hm
  -- the identify command that follows
  have hident {d' : Aoedev} (r : Rewired .any d d') (ha : Acts G (d.traffic 0) (d'.traffic 0)) :
      Acts G (d.traffic 0) ((if d'.nopen = 0 then (aoecmdAtaId { d' with fwVer := c.fwver }).1 else d').traffic 0) := by
    split
    · have hg' := r.good hg
      have hfw : Quiet 0 d' 0 { d' with fwVer := c.fwver } := Quiet.of_eq rfl rfl rfl
      exact ha.trans (aoecmdAtaId_acts (hfw.inv hg'.inv))
    · exact ha
  unfold aoecmdCfgRsp cfgTgt
  have hlt : (if c.bufcnt > d.aoeMaxout then d.aoeMaxout else c.bufcnt) % 2^16 < 2^16 := Nat.mod_lt _ (by norm_num)
  generalize (if c.bufcnt > d.aoeMaxout then d.aoeMaxout else c.bufcnt) % 2^16 = n at hn hlt ⊢
  dsimp only
  cases hget : gettgt d c.src with
  | some t =>
    have ht : t < d.targets.length := by
      obtain ⟨hlt, -⟩ := List.findIdx?_eq_some_iff_getElem.mp hget
      exact hlt
    rw [hget] at hn
    dsimp only
    let g : Aoetgt → Aoetgt := fun x => if n < x.maxout then aoecmdWreset { x with nframes := n } else { x with nframes := n }
    have hslot (x : Aoetgt) : (g x).slot = x.slot := by
      simp only [g]
      split
      · rfl
      · rfl
    have hr : Rewired .any d (d.modTgt t g) :=
      ((Quiet.of_eq (ledger_modTgt_same d 0 t g hslot) rfl rfl).inner hg.inv).rewired
    have hturn : Acts G (d.traffic 0) ((d.modTgt t g).traffic 0) := by
      refine Turnings.acts ?_
      have hbare : (g (d.tgtAt t)).bare = if n < (d.tgtAt t).bare.maxout then
          aoecmdWreset { (d.tgtAt t).bare with nframes := n } else { (d.tgtAt t).bare with nframes := n } :=
        apply_ite Aoetgt.bare _ _ _
      rw [hbare]
      exact .single (.advertise hn hlt)
    have hset := setifbcnt_acts (G := G) (d := d.modTgt t g) (by simpa using ht) c.dev hw hb
    exact hident (hr.trans (setifbcnt_rewired (hr.good hg) hw (by simpa using ht))) (hturn.trans hset)
  | none =>
    rw [hget] at hn
    dsimp only
    have hgrow : ∃ k nt, (growTargets d).1 = { d with env.kcalloc := k, ntargets := nt } := by
      unfold growTargets
      split
      · exact ⟨d.env.kcalloc, d.ntargets, rfl⟩
      · dsimp only
        split
        · exact ⟨_, _, rfl⟩
        · exact ⟨_, d.ntargets, rfl⟩
    obtain ⟨k, nt, hd₁⟩ := hgrow
    unfold addtgt at hn ⊢
    generalize growTargets d = r at hd₁ hn ⊢
    obtain ⟨d₁, ok⟩ := r
    dsimp only at hd₁
    subst hd₁
    cases ok with
    | false => exact .refl
    | true =>
      dsimp only at hn ⊢
      split
      · rename_i heq
        split at heq
        · exact absurd (congrArg Prod.snd heq) (by simp)
        · obtain ⟨rfl, -⟩ := Prod.mk.inj heq
          exact .refl
      · rename_i d₂ t heq
        split at heq
        · rename_i hok
          rw [if_pos hok] at hn
          replace hn := hn (by simp)
          obtain ⟨rfl, ht⟩ := Prod.mk.inj heq
          rw [Option.some.injEq] at ht
          subst ht
          have hquiet (k' : List Bool) : Quiet 0 d 0 { d with env.kcalloc := k', ntargets := nt } :=
            Quiet.of_eq rfl rfl rfl
          have hr := ((hquiet (nextOutcome k).2).inner (C := .any) hg.inv).rewired
          exact hident (hr.trans (newTarget_rewired (hr.good hg) hw))
            (newTarget_acts (d := { d with env.kcalloc := (nextOutcome k).2, ntargets := nt }) hn hlt hw hb)
        · exact absurd (congrArg Prod.snd heq) (by simp)

private theorem aoecmdCleanslate_acts (hc : G.clean (d.traffic 0)) :
    Acts G (d.traffic 0) ((aoecmdCleanslate d).traffic 0) := by
  have hl : (aoecmdCleanslate d).traffic 0 =
      { d.traffic 0 with maxbcnt := 0, targets := (d.traffic 0).targets.map aoecmdWreset } := by
    simp only [aoecmdCleanslate, Aoedev.traffic, List.map_map]
    rfl
  rw [hl]
  exact .single (.clean hc)

end Discovery

section Events

variable {G : Gate} {d d' : Aoedev}

/-- An event as the surroundings promise it. -/
def Gate.Meets (G : Gate) (d : Aoedev) : Event → Prop
  | .run i env =>
    match d.threads[i]? with
    | some (.cfg c) => G.Cfg { d with env := env } c
    | some (.reval true) => G.clean (d.traffic 0)
    | _ => True
  | _ => True

private theorem runThread_acts (hg : Good 0 d) {i : ℕ} {th : Thread} (hi : d.threads[i]? = some th)
    (hcfg : ∀ c, th = .cfg c → G.Cfg d c) (hclean : th = .reval true → G.clean (d.traffic 0)) :
    Acts G (d.traffic 0) ((runThread d i th).traffic 0) := by
  have hth : th ∈ d.threads := List.mem_of_getElem? hi
  have hput (d : Aoedev) : (aoedevPut d).traffic 0 = d.traffic 0 := by
    unfold aoedevPut Aoedev.notePred
    split
    · rfl
    · rfl
  cases th with
  | rsp r =>
    have hr := rspMatch_inner (C := .any) hg r
    have ha := rspMatch_acts (G := G) d 0 r
    dsimp only [runThread]
    generalize rspMatch d r = p at hr ha ⊢
    obtain ⟨d₁, o⟩ := p
    cases o with
    | none => exact ha
    | some f =>
      have hr₁ : Inner .any 0 d (Hands.hold 0 f) d₁ := hr
      have hi₁ : d₁.threads[i]? = some (.rsp r) := by
        have hthreads : d₁.threads = d.threads := hr₁.field Blk.threads fun _ => rfl
        exact hthreads ▸ hi
      have hset : Runs .any (Hands.hold 0 f) d₁ 0 (d₁.setThread i (some (.matched f r))) :=
        setThread_runs hi₁ _ rfl rfl rfl rfl
      have hwork := aoecmdWork_acts (G := G) ((hr₁.toRuns.trans hset).good hg)
      exact Relation.ReflTransGen.trans ha hwork
  | matched f r => exact .refl
  | unexpected =>
    dsimp only [runThread]
    rw [hput]
    exact .refl
  | ktio id f =>
    have ha := (ktioData_aside d f).1.traffic 0
    dsimp only [runThread]
    generalize ktioData (noteProcessed d f) f = p at ha ⊢
    obtain ⟨d₁, o⟩ := p
    dsimp only at ha
    rw [← ha]
    cases o with
    | some m => exact .refl
    | none => exact .refl
  | ktioMid id f m =>
    cases m with
    | lost nd => exact lostReset_acts f.t nd
    | ident data =>
      have hid : (ataidComplete d data).traffic 0 = d.traffic 0 := by
        unfold ataidComplete
        dsimp only
        split
        · rfl
        · split
          · rfl
          · rfl
      change Acts G (d.traffic 0) ((ataidComplete d data).traffic 0)
      rw [hid]
      exact .refl
  | ktioOut id f =>
    have ht : f.t < d.targets.length := thread_frame_lt hg hth (.inr (by simp [Thread.late]))
    have hq := redeem_quiet hg.inv ht
    have hi' : (redeem d f.t).threads[i]? = some (.ktioOut id f) := by
      have hthreads : (redeem d f.t).threads = d.threads := congrArg Blk.threads hq.blk
      rw [hthreads]
      exact hi
    have hset : Runs .any 0 (redeem d f.t) (Hands.shelve 0 f) ((redeem d f.t).setThread i (some (.ktioPut id))) := by
      refine setThread_runs hi' _ ?_ ?_ rfl rfl
      · simp [Thread.early, Hands.shelve]
      · simp [Thread.late, Hands.shelve]
    have hr : Inner .any 0 d 0 (redeem d f.t) := hq.inner hg.inv
    have hfinish := ktioFinish_acts (G := G) ((hr.toRuns.trans hset).good hg)
    have hshelve : ((redeem d f.t).setThread i (some (.ktioPut id))).traffic 0 = (redeem d f.t).traffic 0 := rfl
    rw [hshelve] at hfinish
    exact Relation.ReflTransGen.trans (redeem_acts hg.inv ht) hfinish
  | ktioPut id =>
    dsimp only [runThread]
    rw [hput]
    exact .refl
  | ktioSpawn id => exact .refl
  | flush f =>
    have hset : Runs .any 0 d (Hands.hold 0 f) (d.setThread i (some .flushPut)) := setThread_runs hi _ rfl rfl rfl rfl
    have hdown := downdevFrame_acts (G := G) (hset.good hg)
    have hsame : (d.setThread i (some .flushPut)).traffic 0 = d.traffic 0 := rfl
    rw [hsame] at hdown
    exact hdown
  | flushPut =>
    dsimp only [runThread]
    rw [hput]
    exact .refl
  | cfg c =>
    have hset : Runs .any 0 d 0 (d.setThread i (some .cfgPut)) := setThread_plain hi _ rfl rfl rfl rfl
    exact aoecmdCfgRsp_acts (hset.good hg) c ((hcfg c rfl).setThread i _)
  | cfgPut =>
    dsimp only [runThread]
    rw [hput]
    exact .refl
  | reval first =>
    cases first with
    | true =>
      have hr : Rewired .any d (aoecmdCleanslate d) := aoecmdCleanslate_rewired
      have hid := aoecmdAtaId_acts (G := G) (hr.good hg).inv
      exact Relation.ReflTransGen.trans (aoecmdCleanslate_acts (hclean rfl)) hid
    | false =>
      have hid := aoecmdAtaId_acts (G := G) hg.inv
      exact hid
  | revalPut =>
    dsimp only [runThread]
    rw [hput]
    exact .refl
  | sleep pc =>
    have hstep : (sleepStep d pc).1.traffic 0 = d.traffic 0 := by
      cases pc with
      | gdalloc =>
        simp only [sleepStep]
        split
        · rfl
        · rfl
      | gdNow =>
        simp only [sleepStep]
        split
        · rfl
        · rfl
      | resize =>
        simp only [sleepStep]
        split
        · rfl
        · rfl
      | start => rfl
      | installed => rfl
      | resizing ssize => rfl
    change Acts G (d.traffic 0) ((sleepStep d pc).1.traffic 0)
    rw [hstep]
    exact .refl

/-- Every event acts on the traffic. -/
theorem exec_acts {e : Event} (hg : Good 0 d) (hm : G.Meets d e) (he : exec d e = some d') :
    Acts G (d.traffic 0) (d'.traffic 0) := by
  have hsome {x : Aoedev} (hx : some x = some d') (hr : Acts G (d.traffic 0) (x.traffic 0)) :
      Acts G (d.traffic 0) (d'.traffic 0) := by
    rw [Option.some.injEq] at hx
    exact hx ▸ hr
  have hif {c : Prop} [Decidable c] {x : Aoedev} (hx : (if c then some x else none) = some d')
      (hr : Acts G (d.traffic 0) (x.traffic 0)) : Acts G (d.traffic 0) (d'.traffic 0) := by
    split at hx
    · exact hsome hx hr
    · exact absurd hx (by simp)
  have hhold {th : Thread} (hx : d.hold th = some d') : Acts G (d.traffic 0) (d'.traffic 0) := by
    unfold Aoedev.hold at hx
    split at hx
    · exact absurd hx (by simp)
    · exact hsome hx .refl
  have hout (env : Env) : Good 0 { d with env := env } := (outcomes_runs (C := .any) trivial).good hg
  cases e with
  | clock usecs jiffs => exact hsome he .refl
  | dataref g =>
    refine hsome he ?_
    have hbare : Aoedev.traffic { d with
        skbpool := d.skbpool.map fun skb => { skb with dataref := g skb.id }
        targets := d.targets.map fun t => { t with
          ffree := t.ffree.map fun f => { f with skb := f.skb.map fun skb => { skb with dataref := g skb.id } } } } 0 =
        d.traffic 0 := by
      simp only [Aoedev.traffic, List.map_map]
      rfl
    rw [hbare]
    exact .refl
  | params deadsecs maxout => exact hsome he .refl
  | blkQueue rq => exact hif he .refl
  | blkRun env => exact hif he (aoeblkRequest_acts (hout env))
  | ataRsp r => exact hhold he
  | cfgRsp c => exact hhold he
  | revalidate => exact hhold he
  | sleepwork => exact hif he .refl
  | ktioTake id =>
    dsimp only [exec] at he
    split at he
    · split at he
      · exact hsome he .refl
      · exact absurd he (by simp)
    · exact absurd he (by simp)
  | flushIocq id => exact hsome he .refl
  | rexmitTimer env => exact hif he (rexmitTimer_acts (hout env))
  | flushDev mode env => exact hsome he (flushPassOne_acts { d with env := env } mode)
  | blkOpen => exact hif he .refl
  | blkRelease => exact hif he .refl
  | signal i => exact hif he .refl
  | run i env =>
    dsimp only [exec] at he
    split at he
    · rename_i th hi
      refine hsome he (runThread_acts (hout env) hi ?_ ?_)
      · rintro c rfl
        simp only [Gate.Meets, hi] at hm
        exact hm
      · rintro rfl
        simp only [Gate.Meets, hi] at hm
        exact hm
    · exact absurd he (by simp)

end Events

/-- No promise at all. -/
def Gate.any : Gate := ⟨fun _ => True, fun _ => True, fun _ _ => True, fun _ => True⟩

theorem Gate.meets_any (d : Aoedev) (e : Event) : Gate.any.Meets d e := by
  cases e with
  | run i env =>
    simp only [Gate.Meets]
    split
    · refine ⟨?_, trivial⟩
      split
      · trivial
      · exact fun _ => trivial
    · trivial
    · trivial
  | _ => trivial

/-- The traffic of a new device. -/
def Traffic.blank : Traffic := ⟨[], 0, 0, 0, 0, [], [], [], false, false⟩

theorem initial_traffic {d : Aoedev} (hd : Initial d) : d.traffic 0 = Traffic.blank := by
  obtain ⟨a, b, n, s, m, clock, c, rfl⟩ := hd
  have hempty : contents (fun _ : Fin NFACTIVE => ([] : List Frame)) = 0 := rfl
  have hactive : ((initial a b n s m clock c).traffic 0).active = 0 := by
    change contents (fun _ : Fin NFACTIVE => ([] : List Frame)) + 0 = 0
    rw [hempty, add_zero]
  have heq : (initial a b n s m clock c).traffic 0 =
      { Traffic.blank with active := ((initial a b n s m clock c).traffic 0).active } := rfl
  rw [heq, hactive]
  rfl

theorem Acts.keeps {G : Gate} {P : Traffic → Prop} (hact : ∀ l l', Act G l l' → P l → P l') {l l' : Traffic}
    (hs : Acts G l l') (hp : P l) : P l' := by
  induction hs with
  | refl => exact hp
  | tail _ hstep ih => exact hact _ _ hstep ih

section Rules

variable {G : Gate} {ok : Aoedev → Event → Aoedev → Prop} {d : Aoedev}

theorem reachedBy_traffic {P : Traffic → Prop} (hok : ∀ s e s', ok s e s' → G.Meets s e) (hinit : P Traffic.blank)
    (hact : ∀ l l', Act G l l' → P l → P l') (h : ReachedBy ok d) : P (d.traffic 0) := by
  refine Reach.invariant (P := fun d => P (d.traffic 0)) ?_ ?_ h
  · intro s hs
    rw [initial_traffic hs]
    exact hinit
  · intro s e s' hs hp hguard hstep
    exact (exec_acts (reachedBy_good hs).1 (hok s e s' hguard) hstep.1).keeps hact hp

end Rules

end AoeDriver
