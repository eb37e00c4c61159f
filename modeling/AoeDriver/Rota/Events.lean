import AoeDriver.Rota.Issue
import AoeDriver.Run.Reach

/-!
# Moves of the sections and events

The rest of the functions, up to the events, and what all reached devices have of it: `d->tgt` is a populated slot,
and every bucket of `factive` is in the order of transmission.
-/

namespace AoeDriver

open Machine

variable {d d' : Aoedev}

private theorem rota_failQueue (q : List Request) (d : Aoedev) : (failQueue q d).rota = d.rota := by
  induction q generalizing d with
  | nil => rfl
  | cons rq q ih => exact ih _

@[simp] theorem rota_fastFail (d : Aoedev) : (fastFail d).rota = d.rota := rota_failQueue _ d

theorem aoeblkRequest_rota (d : Aoedev) : d.rota.Moves (aoeblkRequest d).rota := by
  unfold aoeblkRequest
  split
  · exact aoecmdWork_rota d
  · exact .of_eq (rota_fastFail d)

@[simp] theorem rota_endRequest (d : Aoedev) (r : ℕ) (fastfail : Bool) : (endRequest d r fastfail).rota = d.rota := rfl

@[simp] theorem rota_modRq (d : Aoedev) (r : ℕ) (g : Request → Request) : (d.modRq r g).rota = d.rota := rfl

@[simp] theorem rota_modBuf (d : Aoedev) (b : ℕ) (g : Buf → Buf) : (d.modBuf b g).rota = d.rota := rfl

@[simp] theorem rota_dropBuf (d : Aoedev) (b : ℕ) : (dropBuf d b).rota = d.rota := by
  unfold dropBuf
  rw [rota_modRq, rota_notePred]
  rfl

@[simp] theorem rota_spoilBuf (d : Aoedev) (b : ℕ) : (spoilBuf d b).rota = d.rota := rfl

theorem aoeEndBuf_rota (d : Aoedev) (b : ℕ) : d.rota.Moves (aoeEndBuf d b).rota := by
  unfold aoeEndBuf
  dsimp only
  rw [← rota_dropBuf d b]
  split
  · unfold aoeEndRequest
    rw [← rota_endRequest (dropBuf d b) (d.bufAt b).rq false]
    exact aoeblkRequest_rota _
  · exact .refl _

private theorem aoeFailbuf_rota (d : Aoedev) (b : ℕ) : d.rota.Moves (aoeFailbuf d b).rota := by
  unfold aoeFailbuf
  dsimp only
  rw [← rota_spoilBuf d b]
  split
  · exact aoeEndBuf_rota _ b
  · exact .refl _

@[simp] theorem rota_decNframesout (d : Aoedev) (b : ℕ) : (decNframesout d b).rota = d.rota := by
  unfold decNframesout
  rw [rota_modBuf, rota_notePred]

private theorem downdevFrame_rota (d : Aoedev) (f : Frame) : d.rota.Moves (downdevFrame d f).rota := by
  unfold downdevFrame
  dsimp only
  rw [rota_freetframe]
  split
  · rename_i b hb
    rw [← rota_decNframesout d b]
    exact aoeFailbuf_rota _ b
  · exact .refl _

private theorem downdevFrames_rota (fs : List Frame) (d : Aoedev) : d.rota.Moves (downdevFrames fs d).rota := by
  induction fs generalizing d with
  | nil => exact .refl _
  | cons f fs ih => exact (downdevFrame_rota d f).trans (ih _)

private theorem rota_failNext (d : Aoedev) (r i : ℕ) : (failNext d r i).rota = d.rota := by
  have hset (d : Aoedev) (n : Option ℕ) : (d.setNxbio n).rota = d.rota := rfl
  unfold failNext
  rw [hset, rota_modRq, rota_notePred]

private theorem rota_failBios (r fuel : ℕ) (d : Aoedev) : (failBios r fuel d).rota = d.rota := by
  induction fuel generalizing d with
  | zero => rfl
  | succ fuel ih =>
    unfold failBios
    split
    · rfl
    · rw [ih, rota_failNext]

private theorem failRq_rota (d : Aoedev) : d.rota.Moves (failRq d).rota := by
  unfold failRq
  split
  · exact .refl _
  · rename_i r _
    rw [← rota_failBios r (d.rqAt r).bios.length d]
    dsimp only
    generalize failBios r (d.rqAt r).bios.length d = d₁
    split
    · unfold aoeEndRequest
      rw [← rota_endRequest d₁ r false]
      exact aoeblkRequest_rota _
    · exact .refl _

private theorem aoeFailip_rota (d : Aoedev) : d.rota.Moves (aoeFailip d).rota := by
  cases hb : d.ip.buf with
  | none =>
    rw [aoeFailip_none hb]
    exact failRq_rota d
  | some b =>
    rw [aoeFailip_some hb, ← aoeFailbuf_eq]
    exact (aoeFailbuf_rota d b).trans (failRq_rota _)

private theorem downdevSweep_rota (d : Aoedev) :
    Rota.Moves { d.rota with factive := fun _ => [] } (downdevSweep d).rota := by
  have hreset (d : Aoedev) : Aoedev.rota { d with targets := d.targets.map fun t => { aoecmdWreset t with nout := 0 } } =
      d.rota := by simp [Aoedev.rota]
  have hdeferred (d : Aoedev) : d.rota.Moves (downdevFrames d.rexmitq { d with rexmitq := [] }).rota :=
    downdevFrames_rota d.rexmitq { d with rexmitq := [] }
  have hactive := downdevFrames_rota d.activeFrames { d with flags.up := false, factive := fun _ => [] }
  unfold downdevSweep
  dsimp only
  rw [hreset]
  exact Rota.Moves.trans hactive (hdeferred _)

private theorem downdevRest_rota (d : Aoedev) : d.rota.Moves (downdevRest d).rota := by
  refine (aoeFailip_rota d).trans (.of_eq ?_)
  unfold downdevRest
  dsimp only
  generalize aoeFailip d = d₁
  split
  · exact rota_fastFail d₁
  · rfl

private theorem aoedevDowndev_rota (d : Aoedev) :
    Rota.Moves { d.rota with factive := fun _ => [] } (aoedevDowndev d).rota := by
  rw [aoedevDowndev_eq]
  exact (downdevSweep_rota d).trans (downdevRest_rota _)

private theorem clear_rota (r : Rota) :
    r.Moves { r with factive := fun _ => [] } := .single (.drop fun _ => List.nil_sublist _)

private theorem ktioFinish_rota (d : Aoedev) (f : Frame) : d.rota.Moves (ktioFinish d f).rota := by
  unfold ktioFinish
  dsimp only
  split
  · exact .of_eq (rota_freetframe d f)
  · rename_i b hb
    have heq : (decNframesout (aoeFreetframe d f) b).rota = d.rota := by rw [rota_decNframesout, rota_freetframe]
    rw [← heq]
    split
    · exact aoeEndBuf_rota _ b
    · exact .refl _

theorem redeem_rota (d : Aoedev) (t : ℕ) : d.rota.Moves (redeem d t).rota := by
  unfold redeem
  split
  · dsimp only
    rw [← rota_modTgt d t fun x => { x with taint := x.taint - 1 }]
    split
    · exact probeCounted_rota _ t
    · exact .refl _
  · exact .refl _

private theorem rota_expireFrame (utgts : ℕ) (d : Aoedev) (f : Frame) : (expireFrame utgts d f).rota = d.rota := by
  have hnote : (d.noteEject f).rota = d.rota := by
    unfold Aoedev.noteEject
    split <;> rfl
  unfold expireFrame
  dsimp only
  rw [rota_modTgt, rota_notePred]
  exact (rota_modTgt (d.noteEject f) f.t _).trans hnote

theorem expireLoop_rota (utgts : ℕ) (fs : List Frame) (d : Aoedev) :
    ((expireLoop utgts fs d).2 = false → (expireLoop utgts fs d).1.rota = d.rota) ∧
      ∃ F, (expireLoop utgts fs d).1.rota = { d.rota with factive := F } := by
  induction fs generalizing d with
  | nil => exact ⟨fun _ => rfl, _, rfl⟩
  | cons f fs ih =>
    unfold expireLoop
    split
    · exact ⟨fun h => absurd h (by simp), _, rfl⟩
    · rw [← rota_expireFrame utgts d f]
      exact ih (expireFrame utgts d f)

theorem collectExpired_rota (d : Aoedev) (timeout : ℤ) : d.rota.Moves (collectExpired d timeout).1.rota :=
  .single (.drop fun _ => (List.dropWhile_suffix _).sublist)

private theorem timerKick_rota (d : Aoedev) : d.rota.Moves (timerKick d).rota := by
  unfold timerKick
  split
  · exact aoeblkRequest_rota { d with flags.kickme := false }
  · exact .refl _

private theorem rexmitTimer_rota (d : Aoedev) : d.rota.Moves (rexmitTimer d).rota := by
  unfold rexmitTimer
  split
  · exact .refl _
  · obtain ⟨hstay, F, hF⟩ := expireLoop_rota d.targets.length (collectExpired d (rto d)).2 (collectExpired d (rto d)).1
    have hcollect := collectExpired_rota d (rto d)
    have hexp : timerExpire d = expireLoop d.targets.length (collectExpired d (rto d)).2 (collectExpired d (rto d)).1 := rfl
    generalize (collectExpired d (rto d)).1 = d₁ at hstay hF hcollect hexp
    rw [← hexp] at hstay hF
    generalize timerExpire d = p at hstay hF ⊢
    obtain ⟨d₂, down⟩ := p
    cases down with
    | true =>
      have hdown := aoedevDowndev_rota d₂
      have hempty : ({ d₂.rota with factive := fun _ => [] } : Rota) = { d₁.rota with factive := fun _ => [] } :=
        congrArg (fun r : Rota => { r with factive := fun _ => [] }) hF
      rw [hempty] at hdown
      exact ((hcollect.trans (clear_rota _)).trans hdown).trans (timerKick_rota _)
    | false =>
      have heq : d₂.rota = d₁.rota := hstay rfl
      exact (hcollect.trans (.of_eq heq)).trans ((rexmitDeferred_rota d₂).trans (timerKick_rota _))

private theorem flushPassOne_rota (d : Aoedev) (mode : FlushMode) : d.rota.Moves (flushPassOne d mode).rota := by
  unfold flushPassOne
  split
  · exact (clear_rota _).trans (aoedevDowndev_rota d)
  · exact .refl _

private theorem rota_calcRttavg (d : Aoedev) (t : Option ℕ) (rtt : ℤ) : (calcRttavg d t rtt).rota = d.rota := by
  unfold calcRttavg
  cases t with
  | none => rfl
  | some t => exact rota_modTgt _ t growWindow

private theorem getframe_rota {tag : ℕ} {f : Frame} (h : getframe d tag = some (f, d')) : d.rota.Moves d'.rota := by
  have hsub (b : Fin NFACTIVE) : (Function.update d.factive (bucket tag)
      ((d.factive (bucket tag)).eraseP (·.tag = tag)) b).Sublist (d.factive b) := by
    by_cases hb : b = bucket tag
    · subst hb
      rw [Function.update_self]
      exact List.eraseP_sublist
    · rw [Function.update_of_ne hb]
  obtain ⟨p, hp, heq⟩ := Option.map_eq_some_iff.mp h
  obtain ⟨g, -, rfl⟩ := Option.map_eq_some_iff.mp hp
  obtain ⟨rfl, rfl⟩ := Prod.ext_iff.mp heq
  exact .single (.drop hsub)

theorem rspMatch_rota (d : Aoedev) (r : Rsp) : d.rota.Moves (rspMatch d r).1.rota := by
  unfold rspMatch
  split
  · rename_i f d₁ hget
    refine (getframe_rota hget).trans (.of_eq ?_)
    dsimp only
    rw [rota_modTgt, rota_notePred, rota_calcRttavg]
  · split
    · rename_i f d₁ hget
      obtain ⟨p, -, heq⟩ := Option.map_eq_some_iff.mp hget
      obtain ⟨rfl, rfl⟩ := Prod.ext_iff.mp heq
      exact .of_eq (rota_calcRttavg _ none _)
    · dsimp only
      split
      · exact .of_eq (rota_calcRttavg d none _)
      · exact .of_eq ((rota_modTgt _ _ _).trans (rota_calcRttavg d none _))

private theorem rota_ktioData (d : Aoedev) (f : Frame) : (ktioData (noteProcessed d f) f).1.rota = d.rota := by
  have hnote : (noteProcessed d f).rota = d.rota := by
    unfold noteProcessed
    split <;> rfl
  rw [← hnote]
  generalize noteProcessed d f = d₁
  unfold ktioData
  dsimp only
  repeat' split
  all_goals rfl

private theorem rota_growTargets (d : Aoedev) : (growTargets d).1.rota = d.rota := by
  unfold growTargets
  split
  · rfl
  · dsimp only
    split <;> rfl

private theorem addtgt_rota (d : Aoedev) (addr : Mac) (nframes : ℕ) : d.rota.Moves (addtgt d addr nframes).1.rota := by
  have hgrow := rota_growTargets d
  unfold addtgt
  generalize growTargets d = p at hgrow ⊢
  obtain ⟨d₁, ok⟩ := p
  rw [← hgrow]
  cases ok with
  | false => exact .refl _
  | true =>
    dsimp only
    split
    · have hadd : d₁.rota.Move { d₁.rota with size := d₁.rota.size + 1 } := .add
      have heq : ({ d₁ with env.kcalloc := (nextOutcome d₁.env.kcalloc).2, targets := d₁.targets ++ [newTarget addr nframes] } :
          Aoedev).rota = { d₁.rota with size := d₁.rota.size + 1 } := by
        simp [Aoedev.rota]
      exact heq ▸ .single hadd
    · exact .refl _

private theorem cfgTgt_rota (d : Aoedev) (c : CfgRsp) : d.rota.Moves (cfgTgt d c).1.rota := by
  unfold cfgTgt
  dsimp only
  split
  · exact .of_eq (rota_modTgt d _ _)
  · exact addtgt_rota d c.src _

private theorem rota_setifbcnt (d : Aoedev) (t : ℕ) (nd : NetDev) (bcnt : ℕ) : (setifbcnt d t nd bcnt).rota = d.rota := by
  have hnote : (d.noteHold t nd bcnt).rota = d.rota := by
    unfold Aoedev.noteHold
    split <;> rfl
  unfold setifbcnt
  split
  · rfl
  · exact (rota_modTgt (d.noteHold t nd bcnt) t _).trans hnote

private theorem aoecmdCfgRsp_rota (d : Aoedev) (c : CfgRsp) : d.rota.Moves (aoecmdCfgRsp d c).rota := by
  have htgt := cfgTgt_rota d c
  unfold aoecmdCfgRsp
  generalize cfgTgt d c = p at htgt ⊢
  obtain ⟨d₁, o⟩ := p
  cases o with
  | none => exact htgt
  | some t =>
    refine htgt.trans ?_
    dsimp only
    rw [← rota_setifbcnt d₁ t c.dev (cfgBcnt c.mtu c.scnt)]
    generalize setifbcnt d₁ t c.dev (cfgBcnt c.mtu c.scnt) = d₂
    split
    · exact aoecmdAtaId_rota { d₂ with fwVer := c.fwver }
    · exact .refl _

private theorem rota_cleanslate (d : Aoedev) : (aoecmdCleanslate d).rota = d.rota := by
  simp [aoecmdCleanslate, Aoedev.rota]

private theorem rota_ataidComplete (d : Aoedev) (id : List Byte) : (ataidComplete d id).rota = d.rota := by
  unfold ataidComplete
  dsimp only
  split
  · rfl
  · split <;> rfl

private theorem rota_sleepStep (d : Aoedev) (pc : SleepPc) : (sleepStep d pc).1.rota = d.rota := by
  cases pc with
  | start => rfl
  | gdalloc =>
    simp only [sleepStep]
    split <;> rfl
  | gdNow =>
    simp only [sleepStep]
    split <;> rfl
  | installed => rfl
  | resize =>
    simp only [sleepStep]
    split <;> rfl
  | resizing ssize => rfl

private theorem rota_aoedevPut (d : Aoedev) : (aoedevPut d).rota = d.rota := rota_notePred d _ _

@[simp] theorem rota_setThread (d : Aoedev) (i : ℕ) (th : Option Thread) : (d.setThread i th).rota = d.rota := rfl

theorem runThread_rota (d : Aoedev) (i : ℕ) (th : Thread) : d.rota.Moves (runThread d i th).rota := by
  cases th with
  | rsp r =>
    have hmatch := rspMatch_rota d r
    simp only [runThread]
    generalize rspMatch d r = p at hmatch ⊢
    obtain ⟨d₁, o⟩ := p
    cases o with
    | some f =>
      refine hmatch.trans ?_
      rw [← rota_setThread d₁ i (some (.matched f r))]
      exact aoecmdWork_rota _
    | none => exact hmatch
  | matched f r => exact .refl _
  | unexpected => exact .of_eq (rota_aoedevPut (d.setThread i none))
  | ktio id f =>
    have hdata := rota_ktioData d f
    simp only [runThread]
    generalize ktioData (noteProcessed d f) f = p at hdata ⊢
    obtain ⟨d₁, o⟩ := p
    cases o <;> exact .of_eq hdata
  | ktioMid id f m =>
    cases m with
    | lost nd => exact .of_eq (rota_modTgt d f.t _)
    | ident data => exact .of_eq (rota_ataidComplete d data)
  | ktioOut id f =>
    refine (redeem_rota d f.t).trans ?_
    rw [← rota_setThread (redeem d f.t) i (some (.ktioPut id))]
    exact ktioFinish_rota _ f
  | ktioPut id => exact .of_eq (rota_aoedevPut (d.setThread i (some (.ktioSpawn id))))
  | ktioSpawn id => exact .refl _
  | flush f => exact downdevFrame_rota (d.setThread i (some .flushPut)) f
  | flushPut => exact .of_eq (rota_aoedevPut (d.setThread i none))
  | cfg c => exact aoecmdCfgRsp_rota (d.setThread i (some .cfgPut)) c
  | cfgPut => exact .of_eq (rota_aoedevPut (d.setThread i none))
  | reval first =>
    have hslate : (if first then aoecmdCleanslate d else d).rota = d.rota := by
      split
      · exact rota_cleanslate d
      · rfl
    simp only [runThread]
    rw [← hslate]
    exact aoecmdAtaId_rota _
  | revalPut => exact .of_eq (rota_aoedevPut (d.setThread i none))
  | sleep pc => exact .of_eq (rota_sleepStep d pc)

private theorem hold_rota {th : Thread} (h : d.hold th = some d') : d'.rota = d.rota := by
  unfold Aoedev.hold at h
  split at h
  · exact absurd h (by simp)
  · rw [← Option.some.inj h]
    rfl

/-- The outcomes of `skb_clone` that come with an event. -/
def Event.clones : Event → List Bool
  | .blkRun env | .rexmitTimer env | .flushDev _ env | .run _ env => env.clone
  | _ => []

/-- Time passes or not, the outcomes of `skb_clone` are those left or those of the event, and the rest is moves. -/
theorem exec_rota {e : Event} (he : exec d e = some d') : ∃ w c, d.clock.wall ≤ w ∧ (c = d.env.clone ∨ c = e.clones) ∧
    Rota.Moves { d.rota with wall := w, clones := c } d'.rota := by
  have hsome {x : Aoedev} (hx : some x = some d') (hr : d.rota.Moves x.rota) : ∃ w c, d.clock.wall ≤ w ∧
      (c = d.env.clone ∨ c = e.clones) ∧ Rota.Moves { d.rota with wall := w, clones := c } d'.rota := by
    rw [← Option.some.inj hx]
    exact ⟨d.clock.wall, d.env.clone, le_rfl, .inl rfl, hr⟩
  have hif {c : Prop} [Decidable c] {x : Aoedev} (hx : (if c then some x else none) = some d') : some x = some d' := by
    split at hx
    · exact hx
    · exact absurd hx (by simp)
  cases e with
  | clock usecs jiffs =>
    obtain rfl := Option.some.inj he
    exact ⟨d.clock.wall + usecs, d.env.clone, Nat.le_add_right _ _, .inl rfl, .refl _⟩
  | dataref g =>
    refine hsome he (.of_eq ?_)
    simp [Aoedev.rota]
  | params deadsecs maxout => exact hsome he (.refl _)
  | blkQueue rq => exact hsome (hif he) (.refl _)
  | blkRun env =>
    obtain rfl := Option.some.inj (hif he)
    exact ⟨_, env.clone, le_rfl, .inr rfl, aoeblkRequest_rota { d with env := env }⟩
  | ataRsp r => exact hsome rfl (.of_eq (hold_rota he))
  | cfgRsp c => exact hsome rfl (.of_eq (hold_rota he))
  | revalidate => exact hsome rfl (.of_eq (hold_rota he))
  | sleepwork => exact hsome (hif he) (.refl _)
  | ktioTake id =>
    dsimp only [exec] at he
    split at he
    · split at he
      · exact hsome he (.refl _)
      · exact absurd he (by simp)
    · exact absurd he (by simp)
  | flushIocq id => exact hsome he (.refl _)
  | rexmitTimer env =>
    obtain rfl := Option.some.inj (hif he)
    exact ⟨_, env.clone, le_rfl, .inr rfl, rexmitTimer_rota { d with env := env }⟩
  | flushDev mode env =>
    obtain rfl := Option.some.inj he
    exact ⟨_, env.clone, le_rfl, .inr rfl, flushPassOne_rota { d with env := env } mode⟩
  | blkOpen => exact hsome (hif he) (.refl _)
  | blkRelease => exact hsome (hif he) (.refl _)
  | signal i => exact hsome (hif he) (.refl _)
  | run i env =>
    dsimp only [exec] at he
    split at he
    · rename_i th hi
      obtain rfl := Option.some.inj he
      exact ⟨_, env.clone, le_rfl, .inr rfl, runThread_rota { d with env := env } i th⟩
    · exact absurd he (by simp)

theorem reachedBy_rota {ok : Aoedev → Event → Aoedev → Prop} {P : Rota → Prop} (hinit : ∀ s, Initial s → P s.rota)
    (hmove : ∀ r r', P r → Rota.Move r r' → P r')
    (hnext : ∀ s e s' w c, ok s e s' → P s.rota → s.clock.wall ≤ w → (c = s.env.clone ∨ c = e.clones) →
      P { s.rota with wall := w, clones := c })
    (h : ReachedBy ok d) : P d.rota := by
  refine Reach.invariant (P := fun d => P d.rota) hinit ?_ h
  intro s e s' _ hp hok hstep
  obtain ⟨w, c, hw, hc, hmoves⟩ := exec_rota hstep.1
  exact hmoves.keeps hmove (hnext s e s' w c hok hp hw hc)

/-- `d->tgt` is a populated slot, or slot 0 of an empty table. -/
def Rota.Valid (r : Rota) : Prop := r.tgt < r.size ∨ r.size = 0 ∧ r.tgt = 0

theorem Rota.Valid.move {r r' : Rota} (h : r.Valid) (m : Move r r') : r'.Valid := by
  cases m with
  | pick hi => exact .inl hi
  | add =>
    refine .inl ?_
    rcases h with hlt | ⟨hsize, htgt⟩
    · exact Nat.lt_succ_of_lt hlt
    · exact htgt ▸ Nat.succ_pos _
  | hang hs => exact h
  | drop hF => exact h

theorem reachedBy_valid {ok : Aoedev → Event → Aoedev → Prop} (h : ReachedBy ok d) : d.rota.Valid := by
  refine reachedBy_rota (P := Rota.Valid) ?_ (fun r r' hr m => hr.move m) ?_ h
  · rintro s ⟨a, b, n, q, m, clock, c, rfl⟩
    exact .inr ⟨rfl, rfl⟩
  · intro s e s' w c _ hv _ _
    exact hv

end AoeDriver
