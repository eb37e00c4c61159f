import AoeDriver.Run.Reach

/-!
# What stores data

The memory of the bios is written in one place, where `ktiocomplete` copies the answer to a read. Everything else leaves
it as it is.
-/

namespace AoeDriver

variable {d d' : Aoedev}

@[simp] theorem modTgt_mem (d : Aoedev) (i : ℕ) (g : Aoetgt → Aoetgt) : (d.modTgt i g).mem = d.mem := rfl

@[simp] theorem notePred_mem (d : Aoedev) (c : Counter) (n : ℕ) : (d.notePred c n).mem = d.mem := by
  unfold Aoedev.notePred
  split
  · rfl
  · rfl

theorem StockOnly.mem (h : StockOnly d d') : d'.mem = d.mem := by
  obtain ⟨p, q, n, i, o, c, fi, targets, rfl, -⟩ := h
  rfl

@[simp] theorem freetframe_mem (d : Aoedev) (f : Frame) : (aoeFreetframe d f).mem = d.mem := rfl

theorem newframeTry_mem (d : Aoedev) (tt : ℕ) (useTainted : Bool) : (newframeTry d tt useTainted).1.mem = d.mem := by
  unfold newframeTry
  dsimp only
  split
  · exact (newtframe_stock d tt).mem
  · rfl

private theorem newframeLoop_mem (fuel tt : ℕ) (useTainted hasUntainted : Bool) (totout : ℕ) :
    (newframeLoop fuel d tt useTainted hasUntainted totout).1.mem = d.mem := by
  induction fuel generalizing d tt useTainted hasUntainted totout with
  | zero => rfl
  | succ fuel ih =>
    have htry := newframeTry_mem d (d.nextSlot tt) useTainted
    unfold newframeLoop
    dsimp only
    generalize (if (d.tgtAt (d.nextSlot tt)).taint = 0 then totout + (d.tgtAt (d.nextSlot tt)).nout else totout) = n
    generalize newframeTry d (d.nextSlot tt) useTainted = r at htry ⊢
    obtain ⟨d₁, o⟩ := r
    cases o with
    | some f => exact htry
    | none =>
      dsimp only
      split
      · split
        · exact (ih _ _ _ _).trans htry
        · split
          · exact htry
          · exact htry
      · exact (ih _ _ _ _).trans htry

@[simp] theorem newframe_mem (d : Aoedev) : (newframe d).1.mem = d.mem := by
  unfold newframe
  split
  · rfl
  · exact newframeLoop_mem _ _ _ _ _

@[simp] theorem sendClone_mem (d : Aoedev) (f : Frame) : (sendClone d f).1.mem = d.mem := by
  unfold sendClone
  dsimp only
  split
  · rfl
  · rfl

@[simp] theorem fhash_mem (d : Aoedev) (f : Frame) : (fhash d f).mem = d.mem := rfl

@[simp] theorem noteSend_mem (d : Aoedev) (f : Frame) (first : Bool) : (d.noteSend f first).mem = d.mem := rfl

@[simp] theorem noteCut_mem (d : Aoedev) (f : Frame) (buf : Buf) : (d.noteCut f buf).mem = d.mem := rfl

@[simp] theorem frameinit_mem (d : Aoedev) (f : Frame) (data : Option (List BioVec)) :
    (ataRwFrameinit d f data).1.mem = d.mem := rfl

@[simp] theorem ataIdInit_mem (d : Aoedev) (f : Frame) : (ataIdInit d f).1.mem = d.mem := rfl

theorem aoecmdAtaId_mem (d : Aoedev) : (aoecmdAtaId d).1.mem = d.mem := by
  have hnew := newframe_mem d
  unfold aoecmdAtaId
  generalize newframe d = r at hnew ⊢
  obtain ⟨d₁, o⟩ := r
  cases o with
  | none => exact hnew
  | some f => simpa using hnew

private theorem probe_mem (d : Aoedev) (t : ℕ) : (probe d t).mem = d.mem := by
  have hnew := (newtframe_stock d t).mem
  unfold probe
  generalize newtframe d t = r at hnew ⊢
  obtain ⟨d₁, o⟩ := r
  cases o with
  | none => exact hnew
  | some f => simpa using hnew

private theorem probeCounted_mem (d : Aoedev) (t : ℕ) : (probeCounted d t).mem = d.mem := probe_mem d t

private theorem nextbuf_mem (d : Aoedev) : (nextbuf d).1.mem = d.mem := by
  have halloc (d : Aoedev) (r : ℕ) : (nextbufAlloc d r).1.mem = d.mem := by
    unfold nextbufAlloc
    dsimp only
    split
    · split
      · rfl
      · rfl
    · rfl
  unfold nextbuf
  split
  · rfl
  · split
    · rfl
    · split
      · exact halloc _ _
      · split
        · rfl
        · exact halloc (startRq d _ _) _

private theorem ataRwSend_mem (d : Aoedev) (b : ℕ) (f : Frame) : (ataRwSend d b f).mem = d.mem := by
  unfold ataRwSend
  extract_lets buf iter data
  dsimp only
  rw [fhash_mem, sendClone_mem, noteSend_mem, noteCut_mem, frameinit_mem]
  rfl

private theorem aoecmdAtaRw_mem (d : Aoedev) : (aoecmdAtaRw d).1.mem = d.mem := by
  have hbuf := nextbuf_mem d
  unfold aoecmdAtaRw
  generalize nextbuf d = p at hbuf ⊢
  obtain ⟨d₁, o⟩ := p
  cases o with
  | none => exact hbuf
  | some b =>
    have hframe := newframe_mem d₁
    dsimp only
    generalize newframe d₁ = p at hframe ⊢
    obtain ⟨d₂, o⟩ := p
    cases o with
    | none => exact hframe.trans hbuf
    | some f => exact (ataRwSend_mem d₂ b f).trans (hframe.trans hbuf)

private theorem ataRwLoop_mem (fuel : ℕ) (d : Aoedev) : (ataRwLoop fuel d).mem = d.mem := by
  induction fuel generalizing d with
  | zero => rfl
  | succ fuel ih =>
    have hone := aoecmdAtaRw_mem d
    unfold ataRwLoop
    generalize aoecmdAtaRw d = p at hone ⊢
    obtain ⟨d₁, more⟩ := p
    cases more with
    | true => exact (ih d₁).trans hone
    | false => exact hone

private theorem resend_mem (d : Aoedev) (f : Frame) : (resend d f).mem = d.mem := by
  unfold resend
  dsimp only
  split
  · rw [fhash_mem, sendClone_mem, noteSend_mem]
    rfl
  · rfl

private theorem rexmitSend_mem (d : Aoedev) (f : Frame) : (rexmitSend d f).mem = d.mem := by
  unfold rexmitSend
  split
  · rfl
  · exact resend_mem _ _

private theorem reassignFrame_mem (d : Aoedev) (f : Frame) : (reassignFrame d f).1.mem = d.mem := by
  have hframe := newframe_mem d
  unfold reassignFrame
  generalize newframe d = p at hframe ⊢
  obtain ⟨d₁, o⟩ := p
  cases o with
  | none => exact hframe
  | some nf =>
    dsimp only
    split
    · exact hframe
    · exact hframe

private theorem rexmitOne_mem (untainted : ℕ) (d : Aoedev) (f : Frame) : (rexmitOne untainted d f).mem = d.mem := by
  have hstop : (stopProbe d f).mem = d.mem := rfl
  unfold rexmitOne
  dsimp only
  split
  · split
    · have hre := reassignFrame_mem d f
      generalize reassignFrame d f = p at hre ⊢
      obtain ⟨d₁, o⟩ := p
      cases o with
      | none => exact (rexmitSend_mem d₁ f).trans hre
      | some q =>
        obtain ⟨nf, g⟩ := q
        dsimp only
        rw [rexmitSend_mem, freetframe_mem, ← hre]
        split
        · exact probeCounted_mem d₁ g.t
        · rfl
    · split
      · exact hstop
      · split
        · rfl
        · exact rexmitSend_mem d f
  · split
    · exact hstop
    · exact rexmitSend_mem d f

private theorem rexmitLoop_mem (untainted : ℕ) (fs : List Frame) (d : Aoedev) :
    (rexmitLoop untainted fs d).mem = d.mem := by
  induction fs generalizing d with
  | nil => rfl
  | cons f fs ih => exact (ih _).trans (rexmitOne_mem untainted d f)

private theorem rexmitDeferred_mem (d : Aoedev) :
    (rexmitDeferred d).mem = d.mem := rexmitLoop_mem _ _ { d with rexmitq := [] }

private theorem aoecmdWork_mem (d : Aoedev) :
    (aoecmdWork d).mem = d.mem := (ataRwLoop_mem _ _).trans (rexmitDeferred_mem d)

private theorem fastFail_mem (d : Aoedev) : (fastFail d).mem = d.mem := by
  have hqueue (q : List Request) (d : Aoedev) : (failQueue q d).mem = d.mem := by
    induction q generalizing d with
    | nil => rfl
    | cons rq q ih => exact ih _
  exact hqueue _ d

private theorem aoeblkRequest_mem (d : Aoedev) : (aoeblkRequest d).mem = d.mem := by
  unfold aoeblkRequest
  split
  · exact aoecmdWork_mem d
  · exact fastFail_mem d

private theorem dropBuf_mem (d : Aoedev) (b : ℕ) : (dropBuf d b).mem = d.mem := notePred_mem _ .special _

private theorem aoeEndRequest_mem (d : Aoedev) (r : ℕ) : (aoeEndRequest d r).mem = d.mem :=
  aoeblkRequest_mem (endRequest d r false)

private theorem aoeEndBuf_mem (d : Aoedev) (b : ℕ) : (aoeEndBuf d b).mem = d.mem := by
  unfold aoeEndBuf
  dsimp only
  split
  · exact (aoeEndRequest_mem _ _).trans (dropBuf_mem d b)
  · exact dropBuf_mem d b

private theorem aoeFailbuf_mem (d : Aoedev) (b : ℕ) : (aoeFailbuf d b).mem = d.mem := by
  unfold aoeFailbuf
  dsimp only
  split
  · exact aoeEndBuf_mem (spoilBuf d b) b
  · rfl

private theorem decNframesout_mem (d : Aoedev) (b : ℕ) : (decNframesout d b).mem = d.mem := notePred_mem d .nframesout _

private theorem downdevFrame_mem (d : Aoedev) (f : Frame) : (downdevFrame d f).mem = d.mem := by
  unfold downdevFrame
  dsimp only
  rw [freetframe_mem]
  split
  · exact (aoeFailbuf_mem _ _).trans (decNframesout_mem d _)
  · rfl

private theorem downdevFrames_mem (fs : List Frame) (d : Aoedev) : (downdevFrames fs d).mem = d.mem := by
  induction fs generalizing d with
  | nil => rfl
  | cons f fs ih => exact (ih _).trans (downdevFrame_mem d f)

private theorem failBios_mem (r fuel : ℕ) (d : Aoedev) : (failBios r fuel d).mem = d.mem := by
  induction fuel generalizing d with
  | zero => rfl
  | succ fuel ih =>
    unfold failBios
    split
    · rfl
    · exact (ih _).trans (notePred_mem d .special _)

private theorem aoeFailip_mem (d : Aoedev) : (aoeFailip d).mem = d.mem := by
  have hrest (d : Aoedev) : (failRq d).mem = d.mem := by
    unfold failRq
    split
    · rfl
    · dsimp only
      split
      · exact (aoeEndRequest_mem _ _).trans (failBios_mem _ _ d)
      · exact failBios_mem _ _ d
  cases hb : d.ip.buf with
  | none =>
    rw [aoeFailip_none hb]
    exact hrest d
  | some b =>
    rw [aoeFailip_some hb, ← aoeFailbuf_eq]
    exact (hrest _).trans (aoeFailbuf_mem d b)

private theorem aoedevDowndev_mem (d : Aoedev) : (aoedevDowndev d).mem = d.mem := by
  have hsweep : (downdevSweep d).mem = d.mem := by
    unfold downdevSweep
    dsimp only
    exact (downdevFrames_mem _ _).trans (downdevFrames_mem d.activeFrames _)
  have hrest (d : Aoedev) : (downdevRest d).mem = d.mem := by
    unfold downdevRest
    dsimp only
    rw [← aoeFailip_mem d]
    generalize aoeFailip d = d₁
    split
    · exact fastFail_mem d₁
    · rfl
  rw [aoedevDowndev_eq]
  exact (hrest _).trans hsweep

private theorem ktioFinish_mem (d : Aoedev) (f : Frame) : (ktioFinish d f).mem = d.mem := by
  unfold ktioFinish
  dsimp only
  split
  · rfl
  · split
    · exact (aoeEndBuf_mem _ _).trans (decNframesout_mem _ _)
    · exact decNframesout_mem _ _

private theorem redeem_mem (d : Aoedev) (t : ℕ) : (redeem d t).mem = d.mem := by
  unfold redeem
  split
  · dsimp only
    split
    · exact probeCounted_mem _ t
    · rfl
  · rfl

private theorem timerExpire_mem (d : Aoedev) : (timerExpire d).1.mem = d.mem := by
  have hone (utgts : ℕ) (d : Aoedev) (f : Frame) : (expireFrame utgts d f).mem = d.mem := by
    unfold expireFrame Aoedev.noteEject
    dsimp only
    rw [modTgt_mem, notePred_mem, modTgt_mem]
    split
    · rfl
    · rfl
  have hloop (utgts : ℕ) (fs : List Frame) (d : Aoedev) : (expireLoop utgts fs d).1.mem = d.mem := by
    induction fs generalizing d with
    | nil => rfl
    | cons f fs ih =>
      unfold expireLoop
      split
      · rfl
      · exact (ih _).trans (hone utgts d f)
  exact hloop d.targets.length (collectExpired d (rto d)).2 (collectExpired d (rto d)).1

private theorem rexmitTimer_mem (d : Aoedev) : (rexmitTimer d).mem = d.mem := by
  have hkick (d : Aoedev) : (timerKick d).mem = d.mem := by
    unfold timerKick
    split
    · exact aoeblkRequest_mem { d with flags.kickme := false }
    · rfl
  have hexpire := timerExpire_mem d
  unfold rexmitTimer
  split
  · rfl
  · generalize timerExpire d = p at hexpire ⊢
    obtain ⟨d₁, down⟩ := p
    cases down with
    | true => exact (hkick _).trans ((aoedevDowndev_mem d₁).trans hexpire)
    | false => exact (hkick _).trans ((rexmitDeferred_mem d₁).trans hexpire)

private theorem calcRttavg_mem (d : Aoedev) (t : Option ℕ) (rtt : ℤ) : (calcRttavg d t rtt).mem = d.mem := by
  unfold calcRttavg
  cases t with
  | none => rfl
  | some t => rfl

private theorem rspMatch_mem (d : Aoedev) (r : Rsp) : (rspMatch d r).1.mem = d.mem := by
  unfold rspMatch
  split
  · rename_i f d₁ hget
    obtain ⟨p, hp, heq⟩ := Option.map_eq_some_iff.mp hget
    obtain ⟨rfl, rfl⟩ := Prod.ext_iff.mp heq
    dsimp only
    rw [modTgt_mem, notePred_mem, calcRttavg_mem]
  · split
    · rename_i f d₁ hget
      obtain ⟨p, hp, heq⟩ := Option.map_eq_some_iff.mp hget
      obtain ⟨rfl, rfl⟩ := Prod.ext_iff.mp heq
      exact calcRttavg_mem _ none _
    · dsimp only
      split
      · exact calcRttavg_mem d none _
      · exact calcRttavg_mem d none (tsince d.clock r.tag)

private theorem aoecmdCfgRsp_mem (d : Aoedev) (c : CfgRsp) : (aoecmdCfgRsp d c).mem = d.mem := by
  have hgrow : (growTargets d).1.mem = d.mem := by
    unfold growTargets
    split
    · rfl
    · dsimp only
      split
      · rfl
      · rfl
  have htgt : (cfgTgt d c).1.mem = d.mem := by
    unfold cfgTgt addtgt
    dsimp only
    split
    · rfl
    · generalize growTargets d = p at hgrow ⊢
      obtain ⟨d₁, ok⟩ := p
      cases ok with
      | false => exact hgrow
      | true =>
        dsimp only
        split
        · exact hgrow
        · exact hgrow
  have hset (d : Aoedev) (t : ℕ) (nd : NetDev) (bcnt : ℕ) : (setifbcnt d t nd bcnt).mem = d.mem := by
    unfold setifbcnt
    split
    · rfl
    · unfold Aoedev.noteHold
      split
      · rfl
      · rfl
  unfold aoecmdCfgRsp
  generalize cfgTgt d c = p at htgt ⊢
  obtain ⟨d₁, o⟩ := p
  cases o with
  | none => exact htgt
  | some t =>
    dsimp only
    rw [← htgt, ← hset d₁ t c.dev (cfgBcnt c.mtu c.scnt)]
    split
    · exact aoecmdAtaId_mem _
    · rfl

private theorem ataidComplete_mem (d : Aoedev) (id : List Byte) : (ataidComplete d id).mem = d.mem := by
  unfold ataidComplete
  dsimp only
  split
  · rfl
  · split
    · rfl
    · rfl

private theorem sleepStep_mem (d : Aoedev) (pc : SleepPc) : (sleepStep d pc).1.mem = d.mem := by
  cases pc with
  | start => rfl
  | gdalloc =>
    simp only [sleepStep]
    split
    · rfl
    · rfl
  | gdNow =>
    simp only [sleepStep]
    split
    · rfl
    · rfl
  | installed => rfl
  | resize =>
    simp only [sleepStep]
    split
    · rfl
    · rfl
  | resizing ssize => rfl

/-- The frame that a `ktio` thread is about to give to `ktiocomplete`. -/
def Thread.processing : Thread → Option Frame
  | .ktio _ f => some f
  | _ => none

private theorem runThread_mem (d : Aoedev) (i : ℕ) (th : Thread) : (runThread d i th).mem = d.mem ∨
    ∃ f, th.processing = some f ∧ (runThread d i th).mem = (ktioData (noteProcessed d f) f).1.mem := by
  have hput (d : Aoedev) : (aoedevPut d).mem = d.mem := notePred_mem d .ref _
  cases th with
  | ktio id f =>
    right
    refine ⟨f, rfl, ?_⟩
    simp only [runThread]
    generalize ktioData (noteProcessed d f) f = p
    obtain ⟨d₁, o⟩ := p
    cases o with
    | none => rfl
    | some m => rfl
  | rsp r =>
    left
    have hmatch := rspMatch_mem d r
    simp only [runThread]
    generalize rspMatch d r = p at hmatch ⊢
    obtain ⟨d₁, o⟩ := p
    cases o with
    | some f => exact (aoecmdWork_mem _).trans hmatch
    | none => exact hmatch
  | matched f r => exact .inl rfl
  | unexpected => exact .inl (hput (d.setThread i none))
  | ktioMid id f m =>
    left
    cases m with
    | lost nd => rfl
    | ident data => exact ataidComplete_mem d data
  | ktioOut id f => exact .inl ((ktioFinish_mem _ f).trans (redeem_mem d f.t))
  | ktioPut id => exact .inl (hput (d.setThread i (some (.ktioSpawn id))))
  | ktioSpawn id => exact .inl rfl
  | flush f => exact .inl (downdevFrame_mem (d.setThread i (some .flushPut)) f)
  | flushPut => exact .inl (hput (d.setThread i none))
  | cfg c => exact .inl (aoecmdCfgRsp_mem (d.setThread i (some .cfgPut)) c)
  | cfgPut => exact .inl (hput (d.setThread i none))
  | reval first =>
    left
    simp only [runThread]
    have hslate : (if first then aoecmdCleanslate d else d).mem = d.mem := by
      split
      · rfl
      · rfl
    exact (aoecmdAtaId_mem _).trans hslate
  | revalPut => exact .inl (hput (d.setThread i none))
  | sleep pc => exact .inl (sleepStep_mem d pc)

/-- An event stores data only by the step of a `ktio` thread that processes a frame. -/
theorem exec_mem {e : Event} (he : exec d e = some d') : d'.mem = d.mem ∨
    ∃ i env th f, e = .run i env ∧ d.threads[i]? = some th ∧ th.processing = some f ∧
      d'.mem = (ktioData (noteProcessed { d with env := env } f) f).1.mem := by
  have hif {c : Prop} [Decidable c] {x : Aoedev} (hx : (if c then some x else none) = some d') : x = d' := by
    split at hx
    · exact Option.some.inj hx
    · exact absurd hx (by simp)
  have hhold {th : Thread} (h : d.hold th = some d') : d'.mem = d.mem := by
    unfold Aoedev.hold at h
    split at h
    · exact absurd h (by simp)
    · rw [← Option.some.inj h]
      rfl
  cases e with
  | run i env =>
    dsimp only [exec] at he
    split at he
    · rename_i th hi
      obtain rfl := Option.some.inj he
      rcases runThread_mem { d with env := env } i th with hmem | ⟨f, hf, hmem⟩
      · exact .inl hmem
      · exact .inr ⟨i, env, th, f, rfl, hi, hf, hmem⟩
    · exact absurd he (by simp)
  | blkRun env =>
    obtain rfl := hif he
    exact .inl (aoeblkRequest_mem { d with env := env })
  | rexmitTimer env =>
    obtain rfl := hif he
    exact .inl (rexmitTimer_mem { d with env := env })
  | flushDev mode env =>
    left
    obtain rfl := Option.some.inj he
    unfold flushPassOne
    split
    · exact aoedevDowndev_mem { d with env := env }
    · rfl
  | ataRsp r => exact .inl (hhold he)
  | cfgRsp c => exact .inl (hhold he)
  | revalidate => exact .inl (hhold he)
  | ktioTake id =>
    left
    dsimp only [exec] at he
    split at he
    · split at he
      · rw [← Option.some.inj he]
        rfl
      · exact absurd he (by simp)
    · exact absurd he (by simp)
  | clock usecs jiffs => exact .inl (Option.some.inj he ▸ rfl)
  | dataref g => exact .inl (Option.some.inj he ▸ rfl)
  | params deadsecs maxout => exact .inl (Option.some.inj he ▸ rfl)
  | flushIocq id => exact .inl (Option.some.inj he ▸ rfl)
  | blkQueue rq => exact .inl (hif he ▸ rfl)
  | sleepwork => exact .inl (hif he ▸ rfl)
  | blkOpen => exact .inl (hif he ▸ rfl)
  | blkRelease => exact .inl (hif he ▸ rfl)
  | signal i => exact .inl (hif he ▸ rfl)

end AoeDriver
