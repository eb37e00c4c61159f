import AoeDriver.Run.Reach

/-!
# Turns

The flags, the disk, the references and the threads of a device, apart from its frames and requests. Every event is
one turn of this small machine, and most events do not move it at all.
-/

namespace AoeDriver

open Tables

/-- What no work on frames and requests touches. -/
def Blk.life (k : Blk) : Blk := { k.outer with maxbcnt := 0, ext := false }

def Aoedev.life (d : Aoedev) : Blk := d.blk.life

/-- References that a thread has to give back. -/
def Thread.refs : Thread → ℕ
  | .ktioSpawn _ | .sleep _ => 0
  | _ => 1

/-- The device after `aoedev_downdev`. -/
def Blk.shut (s : Blk) : Blk := { s with up := false, gd := s.gd.map fun gd => { gd with capacity := 0 } }

/-- The device after an identify response with `ssize` sectors. -/
def Blk.ident (s : Blk) (ssize : ℕ) : Blk :=
  if s.gdalloc || s.newsize then { s with ssize }
  else
    match s.gd with
    | some gd => { s with ssize, gd := some { gd with capacity := ssize }, newsize := true, workPending := true }
    | none => { s with ssize, gdalloc := true, workPending := true }

/-- The device after one step of `aoecmd_sleepwork`, whose allocations succeed or not. -/
def Blk.worked (s : Blk) (ok : Bool) : SleepPc → Blk × Option SleepPc
  | .start => (s, some (if s.gdalloc then .gdalloc else .resize))
  | .gdalloc => if s.gdalloc && !s.tkill && !s.gdNow then ({ s with gdNow := true }, some .gdNow) else (s, some .resize)
  | .gdNow =>
    if ok then
      ({ s with
          blkq := true, gd := some { capacity := s.ssize, bdSize := 0 }, gdalloc := false, up := true
          warned := s.warned || (!s.gdNow || !s.gdalloc || s.tkill || s.gd.isSome || s.up) },
        some .installed)
    else ({ s with gdNow := false, workPending := true }, some .resize)
  | .installed => ({ s with warned := s.warned || !s.gdNow, gdNow := false }, some .resize)
  | .resize => if s.newsize then (s, some (.resizing (s.gd.getD default).capacity)) else (s, none)
  | .resizing ssize =>
    ({ s with gd := s.gd.map fun gd => { gd with bdSize := ssize * 512 }, up := true, newsize := false }, none)

/-- Thread `i` goes on as another thread or ends. -/
def Blk.setThread (s : Blk) (i : ℕ) (th : Option Thread) : Blk :=
  { s with threads := match th with
      | some th => s.threads.set i th
      | none => s.threads.eraseIdx i }

/-- One reference less. -/
def Blk.put (s : Blk) : Blk :=
  { s with ref := predUlong s.ref, underflow := if s.ref = 0 then s.underflow ++ [.ref] else s.underflow }

/-- What may be asked of the turns: when the device goes down or is removed, and which sizes it reports. -/
structure Guard where
  down : Blk → Prop
  kill : FlushMode → Blk → Prop
  ident : Blk → ℕ → Prop

inductive Turn (G : Guard) : Blk → Blk → Prop where
  | same {s : Blk} : Turn G s s
  | hold {s : Blk} {th : Thread} (hk : s.tkill = false) (hr : th.refs = 1) :
      Turn G s { s with ref := s.ref + 1, threads := s.threads ++ [th] }
  | work {s : Blk} (hw : s.workPending = true) :
      Turn G s { s with workPending := false, threads := s.threads ++ [.sleep .start] }
  | take {s : Blk} {q : List (ℕ × Frame)} {id : ℕ} {f : Frame} (hq : s.iocq.length = q.length + 1) :
      Turn G s { s with iocq := q, threads := s.threads ++ [.ktio id f] }
  | unqueue {s : Blk} {q : List (ℕ × Frame)} {fs : List Frame} (hq : s.iocq.length = q.length + fs.length) :
      Turn G s { s with iocq := q, threads := s.threads ++ fs.map .flush }
  | down {s : Blk} (hk : s.tkill = false) (hg : G.down s) : Turn G s s.shut
  | kill {s : Blk} {mode : FlushMode} (hm : mode = .named → s.gd.isSome = true)
      (hq : mode = .default ∨ mode = .all → s.gdalloc = false ∧ s.newsize = false ∧ s.tkill = false ∧ s.nopen = 0 ∧
        s.ref = 0) (hg : G.kill mode s) : Turn G s { s.shut with tkill := true }
  | opened {s : Blk} (hk : s.tkill = false) : Turn G s { s with nopen := s.nopen + 1 }
  | released {s : Blk} : Turn G s { s with nopen := s.nopen - 1 }
  | step {s : Blk} {i : ℕ} {th th' : Thread} (hi : s.threads[i]? = some th) (hr : th.refs = 1) (hr' : th'.refs = 1) :
      Turn G s (s.setThread i (some th'))
  | spawned {s : Blk} {i id : ℕ} (hi : s.threads[i]? = some (.ktioSpawn id)) : Turn G s (s.setThread i none)
  | queue {s : Blk} {i : ℕ} {f : Frame} {r : Rsp} {p : ℕ × Frame} (hi : s.threads[i]? = some (.matched f r)) :
      Turn G s { s.setThread i none with iocq := s.iocq ++ [p] }
  | put {s : Blk} {i : ℕ} {th : Thread} {next : Option Thread} (hi : s.threads[i]? = some th) (hr : th.refs = 1)
      (hn : next = none ∨ ∃ id, th = .ktioPut id ∧ next = some (.ktioSpawn id)) : Turn G s (s.setThread i next).put
  | ident {s : Blk} {i id ssize : ℕ} {f : Frame} {data : List Byte}
      (hi : s.threads[i]? = some (.ktioMid id f (.ident data))) (hg : G.ident s ssize) :
      Turn G s ((s.ident ssize).setThread i (some (.ktioOut id f)))
  | sleep {s : Blk} {i : ℕ} {pc : SleepPc} (ok : Bool) (hi : s.threads[i]? = some (.sleep pc)) :
      Turn G s ((s.worked ok pc).1.setThread i ((s.worked ok pc).2.map .sleep))

/-- What an event must meet for its turn to meet the guard. -/
def Guard.Meets (G : Guard) (d : Aoedev) : Event → Prop
  | .rexmitTimer env => d.flags.tkill = false → (timerExpire { d with env := env }).2 = true → G.down d.life
  | .flushDev mode _ => flushTakes d mode = true → G.kill mode d.life
  | .run i _ => ∀ id f data, d.threads[i]? = some (.ktioMid id f (.ident data)) → G.ident d.life (idSize data).1
  | _ => True

section Turns

variable {G : Guard} {C : Cond} {d d' : Aoedev}

theorem Inner.life {h h' : Hands} (r : Inner C h d h' d') : d'.life = d.life := by
  rw [Aoedev.life, Blk.life, r.outer]
  rfl

theorem Aside.life (a : Aside d d') : d'.life = d.life := by
  rw [Aoedev.life, Blk.life, a.outer]
  rfl

theorem Rewired.life (r : Rewired C d d') : d'.life = d.life := by
  obtain ⟨n, hn⟩ := r.outer
  rw [Aoedev.life, Blk.life, hn]
  rfl

theorem aoedevDowndev_life (d : Aoedev) : (aoedevDowndev d).life = d.life.shut := by
  rw [Aoedev.life, Blk.life, aoedevDowndev_outer]
  rfl

private theorem setThread_life (d : Aoedev) (i : ℕ) (th : Option Thread) :
    (d.setThread i th).life = d.life.setThread i th := by
  cases th with
  | none => rfl
  | some th => rfl

private theorem aoedevPut_life (d : Aoedev) : (aoedevPut d).life = d.life.put := by
  have href : d.life.ref = d.ref := rfl
  have hund : d.life.underflow = d.hist.underflow.filter (· = .ref) := rfl
  unfold aoedevPut Aoedev.notePred
  by_cases hz : d.ref = 0
  · have hlog (l : List Counter) : (l ++ [Counter.ref]).filter (· = .ref) = l.filter (· = .ref) ++ [.ref] := by
      simp
    rw [if_pos hz]
    simp only [Aoedev.life, Aoedev.blk, Blk.life, Blk.outer, Blk.put, hz, hlog, if_true]
  · rw [if_neg hz, Blk.put, href, if_neg hz]
    rfl

private theorem ataidComplete_life (d : Aoedev) (data : List Byte) :
    (ataidComplete d data).life = d.life.ident (idSize data).1 := by
  have hflags : d.life.gdalloc = d.flags.gdalloc ∧ d.life.newsize = d.flags.newsize ∧ d.life.gd = d.gd := ⟨rfl, rfl, rfl⟩
  unfold ataidComplete Blk.ident
  rw [hflags.1, hflags.2.1, hflags.2.2]
  dsimp only
  split
  · rfl
  · cases hgd : d.gd with
    | none =>
      simp only [Aoedev.life, Blk.life, Blk.outer, Aoedev.blk, hgd]
    | some gd => rfl

private theorem sleepStep_life (d : Aoedev) (pc : SleepPc) :
    ∃ ok, (sleepStep d pc).1.life = (d.life.worked ok pc).1 ∧ (sleepStep d pc).2 = (d.life.worked ok pc).2 := by
  cases pc with
  | start => exact ⟨true, rfl, rfl⟩
  | gdalloc =>
    have hflags : d.life.gdalloc = d.flags.gdalloc ∧ d.life.tkill = d.flags.tkill ∧ d.life.gdNow = d.flags.gdNow :=
      ⟨rfl, rfl, rfl⟩
    refine ⟨true, ?_⟩
    simp only [sleepStep, Blk.worked, hflags]
    split
    · exact ⟨rfl, rfl⟩
    · exact ⟨rfl, rfl⟩
  | gdNow =>
    refine ⟨(nextOutcome d.env.kcalloc).1, ?_⟩
    simp only [sleepStep, Blk.worked]
    split
    · exact ⟨rfl, rfl⟩
    · exact ⟨rfl, rfl⟩
  | installed => exact ⟨true, rfl, rfl⟩
  | resize =>
    have hflags : d.life.newsize = d.flags.newsize ∧ d.life.gd = d.gd := ⟨rfl, rfl⟩
    refine ⟨true, ?_⟩
    simp only [sleepStep, Blk.worked, hflags]
    split
    · exact ⟨rfl, rfl⟩
    · exact ⟨rfl, rfl⟩
  | resizing ssize => exact ⟨true, rfl, rfl⟩

private theorem timerKick_life (hg : Good 0 d) : (timerKick d).life = d.life := by
  unfold timerKick
  split
  · have hr : Runs Cond.any 0 d 0 { d with flags.kickme := false } :=
      Runs.of_shift Shift.unkick rfl rfl rfl (fun _ => .inl) le_rfl (fun hd => hd.congr rfl) rfl rfl
    exact (aoeblkRequest_inner (C := Cond.any) (hr.good hg)).life
  · rfl

theorem rexmitTimer_turn (hg : Good 0 d) (hd : d.flags.tkill = false → (timerExpire d).2 = true → G.down d.life) :
    Turn G d.life (rexmitTimer d).life := by
  unfold rexmitTimer
  split
  · exact .same
  · rename_i htkill
    have hkill : d.flags.tkill = false := by simpa using htkill
    cases hlate : (timerExpire d).2 with
    | true =>
      obtain ⟨hm, hb, -⟩ := timerExpire_late hg.inv hlate
      have hdown := hd hkill hlate
      generalize timerExpire d = p at hlate hm hb
      obtain ⟨d₁, late⟩ := p
      dsimp only at hlate hm hb
      subst hlate
      obtain ⟨hs, hp, hbcnt⟩ := pieces_of_moves (C := Cond.any) hm hb hg.inv
      have hr := aoedevDowndev_runs (C := Cond.any) (d := d₁) trivial
      have hgood : Good 0 (aoedevDowndev d₁) :=
        ⟨Shifts.inv (hs.trans hr.shifts) hg.inv, Posts.books (hp.trans hr.posts) hg.books, hr.bcnt (hbcnt hg.bcnt)⟩
      have hlife : d₁.life = d.life := congrArg Blk.life hb
      change Turn G d.life (timerKick (aoedevDowndev d₁)).life
      rw [timerKick_life hgood, aoedevDowndev_life, hlife]
      exact .down hkill hdown
    | false =>
      have hq := timerExpire_quiet hg.inv hlate
      generalize timerExpire d = p at hlate hq
      obtain ⟨d₁, late⟩ := p
      dsimp only at hlate hq
      subst hlate
      have hr : Inner Cond.any 0 d 0 d₁ := hq.inner hg.inv
      have hr₂ : Inner Cond.any 0 d₁ 0 (rexmitDeferred d₁) :=
        (rexmitDeferred_quiet (hr.good hg).inv).inner (hr.good hg).inv
      change Turn G d.life (timerKick (rexmitDeferred d₁)).life
      rw [timerKick_life ((hr.trans hr₂).good hg), hr₂.life, hr.life]
      exact .same

private theorem flushPassOne_turn {mode : FlushMode} (hk : flushTakes d mode = true → G.kill mode d.life) :
    Turn G d.life (flushPassOne d mode).life := by
  unfold flushPassOne
  split
  · rename_i ht
    have hkilled (d : Aoedev) : ({ d with flags.tkill := true } : Aoedev).life = { d.life with tkill := true } := rfl
    rw [hkilled, aoedevDowndev_life]
    refine @Turn.kill _ _ mode ?_ ?_ (hk ht)
    · rintro rfl
      exact ht
    · rintro (rfl | rfl)
      · simp only [flushTakes, Bool.not_eq_true', Bool.or_eq_false_iff, bne_eq_false_iff_eq] at ht
        obtain ⟨⟨⟨⟨⟨-, ha⟩, hn⟩, ht⟩, ho⟩, hr⟩ := ht
        exact ⟨ha, hn, ht, ho, hr⟩
      · simp only [flushTakes, Bool.not_eq_true', Bool.or_eq_false_iff, bne_eq_false_iff_eq] at ht
        obtain ⟨⟨⟨⟨ha, hn⟩, ht⟩, ho⟩, hr⟩ := ht
        exact ⟨ha, hn, ht, ho, hr⟩
  · exact .same

/-- One section of a thread is one turn. -/
private theorem runThread_turn (hg : Good 0 d) {i : ℕ} {th : Thread} (hi : d.threads[i]? = some th)
    (hident : ∀ id f data, th = .ktioMid id f (.ident data) → G.ident d.life (idSize data).1) :
    Turn G d.life (runThread d i th).life := by
  have hl : d.life.threads[i]? = some th := hi
  have hput (hr : th.refs = 1) : Turn G d.life (aoedevPut (d.setThread i none)).life := by
    rw [aoedevPut_life, setThread_life]
    exact .put hl hr (.inl rfl)
  cases th with
  | rsp r =>
    have hr := rspMatch_inner (C := Cond.any) hg r
    dsimp only [runThread]
    generalize rspMatch d r = p at hr ⊢
    obtain ⟨d₁, o⟩ := p
    cases o with
    | none =>
      have hr₁ : Inner Cond.any 0 d 0 d₁ := hr
      dsimp only
      rw [setThread_life, hr₁.life]
      exact .step hl rfl rfl
    | some f =>
      have hr₁ : Inner Cond.any 0 d (Hands.hold 0 f) d₁ := hr
      have hi₁ : d₁.threads[i]? = some (.rsp r) := by
        have hth : d₁.threads = d.threads := hr₁.field Blk.threads fun _ => rfl
        rw [hth]
        exact hi
      have hset : Runs Cond.any (Hands.hold 0 f) d₁ 0 (d₁.setThread i (some (.matched f r))) :=
        setThread_runs hi₁ _ rfl rfl rfl rfl
      have hgood := (hr₁.toRuns.trans hset).good hg
      dsimp only
      rw [(aoecmdWork_inner (C := Cond.any) hgood).life, setThread_life, hr₁.life]
      exact .step hl rfl rfl
  | matched f r =>
    have hq (d : Aoedev) : (ktcomplete d f (some r)).life = { d.life with iocq := (ktcomplete d f (some r)).iocq } := rfl
    dsimp only [runThread]
    rw [hq, setThread_life]
    exact .queue hl
  | unexpected => exact hput rfl
  | ktio id f =>
    have ha := (ktioData_aside d f).1
    dsimp only [runThread]
    generalize ktioData (noteProcessed d f) f = p at ha ⊢
    obtain ⟨d₁, o⟩ := p
    cases o with
    | some m =>
      dsimp only
      rw [setThread_life, ha.life]
      exact .step hl rfl rfl
    | none =>
      dsimp only
      rw [setThread_life, ha.life]
      exact .step hl rfl rfl
  | ktioMid id f m =>
    dsimp only [runThread]
    rw [setThread_life]
    cases m with
    | lost nd => exact .step hl rfl rfl
    | ident data =>
      dsimp only
      rw [ataidComplete_life]
      exact .ident hl (hident id f data rfl)
  | ktioOut id f =>
    dsimp only [runThread]
    have ho := (ktioOut_spec (C := Cond.any) hg hi).2
    have hlife : (ktioFinish ((redeem d f.t).setThread i (some (.ktioPut id))) f).life =
        (d.setThread i (some (.ktioPut id))).life := by
      rw [Aoedev.life, Blk.life, ho]
      rfl
    rw [hlife, setThread_life]
    exact .step hl rfl rfl
  | ktioPut id =>
    dsimp only [runThread]
    rw [aoedevPut_life, setThread_life]
    exact .put hl rfl (.inr ⟨id, rfl, rfl⟩)
  | ktioSpawn id => exact .spawned hl
  | flush f =>
    have hset : Runs Cond.any 0 d (Hands.hold 0 f) (d.setThread i (some .flushPut)) :=
      setThread_runs hi _ rfl rfl rfl rfl
    dsimp only [runThread]
    rw [(downdevFrame_inner (C := Cond.any) (hset.good hg)).life, setThread_life]
    exact .step hl rfl rfl
  | flushPut => exact hput rfl
  | cfg c =>
    have hset : Runs Cond.any 0 d 0 (d.setThread i (some .cfgPut)) := setThread_plain hi _ rfl rfl rfl rfl
    dsimp only [runThread]
    rw [(aoecmdCfgRsp_rewired (C := Cond.any) (hset.good hg) c).life, setThread_life]
    exact .step hl rfl rfl
  | cfgPut => exact hput rfl
  | reval first =>
    have hclean : ∃ d₁, Rewired Cond.any d d₁ ∧ runThread d i (.reval first) = ((aoecmdAtaId d₁).1).setThread i
        (some (if (aoecmdAtaId d₁).2 then .revalPut else .reval false)) := by
      cases first with
      | true => exact ⟨aoecmdCleanslate d, aoecmdCleanslate_rewired, rfl⟩
      | false => exact ⟨d, (Inner.refl 0 d).rewired, rfl⟩
    obtain ⟨d₁, hr, heq⟩ := hclean
    have hid : Inner Cond.any 0 d₁ 0 (aoecmdAtaId d₁).1 := (aoecmdAtaId_quiet (hr.good hg).inv).inner (hr.good hg).inv
    rw [heq, setThread_life, hid.life, hr.life]
    refine .step hl rfl ?_
    split
    · rfl
    · rfl
  | revalPut => exact hput rfl
  | sleep pc =>
    obtain ⟨ok, h₁, h₂⟩ := sleepStep_life d pc
    dsimp only [runThread]
    rw [setThread_life, h₁, h₂]
    exact .sleep ok hl

/-- Every event is one turn. -/
theorem exec_turn {e : Event} (hg : Good 0 d) (hm : G.Meets d e) (he : exec d e = some d') : Turn G d.life d'.life := by
  have hsome {x : Aoedev} (hx : some x = some d') (hr : Turn G d.life x.life) : Turn G d.life d'.life := by
    rw [Option.some.injEq] at hx
    exact hx ▸ hr
  have hif {c : Prop} [Decidable c] {x : Aoedev} (hx : (if c then some x else none) = some d')
      (hr : c → Turn G d.life x.life) : Turn G d.life d'.life := by
    split at hx
    · exact hsome hx (hr (by assumption))
    · exact absurd hx (by simp)
  have hhold {th : Thread} (hr : th.refs = 1) (hx : d.hold th = some d') : Turn G d.life d'.life := by
    unfold Aoedev.hold at hx
    split at hx
    · exact absurd hx (by simp)
    · rename_i hk
      have hkill : d.life.tkill = false := eq_false_of_ne_true hk
      exact hsome hx (.hold hkill hr)
  have henv (env : Env) : Good 0 { d with env := env } := (outcomes_runs (C := Cond.any) (d := d) trivial).good hg
  cases e with
  | clock usecs jiffs => exact hsome he .same
  | dataref g => exact hsome he .same
  | params deadsecs maxout => exact hsome he .same
  | blkQueue rq => exact hif he fun _ => .same
  | blkRun env =>
    refine hif he fun _ => ?_
    rw [(aoeblkRequest_inner (C := Cond.any) (henv env)).life]
    exact .same
  | ataRsp r => exact hhold rfl he
  | cfgRsp c => exact hhold rfl he
  | revalidate => exact hhold rfl he
  | sleepwork => exact hif he fun hw => .work hw
  | ktioTake id =>
    dsimp only [exec] at he
    split at he
    · split at he
      · rename_i id' f hf
        refine hsome he (@Turn.take _ _ _ id f ?_)
        exact (find_eraseP_perm hf).length_eq
      · exact absurd he (by simp)
    · exact absurd he (by simp)
  | flushIocq id =>
    have hsplit : d.iocq.length =
        (d.iocq.filter (·.1 ≠ id)).length + ((d.iocq.filter (·.1 = id)).map Prod.snd).length := by
      have hp := (List.filter_append_perm (fun p : ℕ × Frame => decide (p.1 = id)) d.iocq).length_eq
      rw [List.length_append, add_comm] at hp
      rw [List.length_map]
      simpa using hp.symm
    have hmap : (d.iocq.filter (·.1 = id)).map (fun p => Thread.flush p.2) =
        ((d.iocq.filter (·.1 = id)).map Prod.snd).map .flush := by
      rw [List.map_map]
      rfl
    refine hsome he ?_
    rw [hmap]
    exact .unqueue hsplit
  | rexmitTimer env => exact hif he fun _ => rexmitTimer_turn (henv env) hm
  | flushDev mode env => exact hsome he (flushPassOne_turn (d := { d with env := env }) hm)
  | blkOpen =>
    refine hif he fun hc => .opened ?_
    simp only [Bool.and_eq_true, Bool.not_eq_true'] at hc
    exact hc.2
  | blkRelease => exact hif he fun _ => .released
  | signal i =>
    refine hif he fun hi => ?_
    rw [setThread_life]
    exact .step hi rfl rfl
  | run i env =>
    dsimp only [exec] at he
    split at he
    · rename_i th hi
      refine hsome he (runThread_turn (d := { d with env := env }) (henv env) hi ?_)
      rintro id f data rfl
      exact hm id f data hi
    · exact absurd he (by simp)

end Turns

end AoeDriver
