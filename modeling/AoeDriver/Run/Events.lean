import AoeDriver.Run.Discovery

/-!
# Events

Every event of the driver is a run: it shifts the ledger and posts in the books. What holds in the initial state
and is kept by shifts and postings holds in every reachable state.
-/

namespace AoeDriver

open Tables

/-- An event as the surroundings promise it: `C.down` is asked of the state in which the device is given up. -/
def Cond.Meets (C : Cond) (d : Aoedev) : Event → Prop
  | .clock usecs jiffs => C.tick usecs jiffs
  | .blkRun env => C.clones env.clone
  | .run _ env => C.clones env.clone
  | .rexmitTimer env => C.clones env.clone ∧
      (d.flags.tkill = false → (timerExpire { d with env := env }).2 = true →
        C.down ((timerExpire { d with env := env }).1.ledger 0))
  | .flushDev mode env => C.clones env.clone ∧
      (flushTakes { d with env := env } mode = true → C.down (Aoedev.ledger { d with env := env } 0))
  | _ => True

/-- No promise at all. -/
def Cond.any : Cond := ⟨fun _ _ => True, fun _ => True, fun _ => True⟩

theorem Cond.meets_any (d : Aoedev) (e : Event) : Cond.any.Meets d e := by
  cases e <;> simp [Cond.Meets, Cond.any]

section Events

variable {C : Cond} {d d' : Aoedev}

theorem outcomes_runs {env : Env} (hc : C.clones env.clone) : Runs C 0 d 0 { d with env := env } := by
  refine Runs.of_shift ?_ rfl rfl rfl (fun _ => .inl) le_rfl (fun hd => hd.congr rfl) rfl rfl
  exact Shift.outcomes hc

private theorem timerKick_runs (hg : Good 0 d) : Runs C 0 d 0 (timerKick d) := by
  unfold timerKick
  split
  · have hr : Runs C 0 d 0 { d with flags.kickme := false } := by
      refine Runs.of_shift ?_ rfl rfl rfl (fun _ => .inl) le_rfl (fun hd => hd.congr rfl) rfl rfl
      exact Shift.unkick
    exact hr.trans (aoeblkRequest_inner (hr.good hg)).toRuns
  · exact Runs.refl 0 d

theorem rexmitTimer_runs (hg : Good 0 d) (hdown : d.flags.tkill = false → (timerExpire d).2 = true →
    C.down ((timerExpire d).1.ledger 0)) : Runs C 0 d 0 (rexmitTimer d) := by
  unfold rexmitTimer
  split
  · exact Runs.refl 0 d
  · rename_i htkill
    cases hlate : (timerExpire d).2 with
    | true =>
      obtain ⟨hm, hb, -⟩ := timerExpire_late hg.inv hlate
      have hd := hdown (by simpa using htkill) hlate
      generalize timerExpire d = p at hlate hm hb hd
      obtain ⟨d₁, late⟩ := p
      dsimp only at hlate hm hb hd
      subst hlate
      obtain ⟨hs, hp, hbcnt⟩ := pieces_of_moves (C := C) hm hb hg.inv
      have hr := aoedevDowndev_runs hd
      have hr' : Runs C 0 d 0 (aoedevDowndev d₁) :=
        ⟨hs.trans hr.shifts, hp.trans hr.posts, fun _ => aoedevDowndev_hashed d₁, fun hw => hr.bcnt (hbcnt hw)⟩
      exact hr'.trans (timerKick_runs (hr'.good hg))
    | false =>
      have hq := timerExpire_quiet hg.inv hlate
      generalize timerExpire d = p at hlate hq
      obtain ⟨d₁, late⟩ := p
      dsimp only at hlate hq
      subst hlate
      have hr : Inner C 0 d 0 d₁ := hq.inner hg.inv
      have hr₂ : Inner C 0 d₁ 0 (rexmitDeferred d₁) := (rexmitDeferred_quiet (hr.good hg).inv).inner (hr.good hg).inv
      have hr₃ := hr.trans hr₂
      exact hr₃.toRuns.trans (timerKick_runs (hr₃.good hg))

private theorem flushPassOne_runs {mode : FlushMode} (hdown : flushTakes d mode = true → C.down (d.ledger 0)) :
    Runs C 0 d 0 (flushPassOne d mode) := by
  unfold flushPassOne
  split
  · rename_i ht
    have hkill (d : Aoedev) : Runs C 0 d 0 { d with flags.tkill := true } :=
      Runs.silent rfl rfl (fun _ => .inl) rfl rfl
    exact (aoedevDowndev_runs (hdown ht)).trans (hkill _)
  · exact Runs.refl 0 d

private theorem ataidComplete_runs (id : List Byte) : Runs C 0 d 0 (ataidComplete d id) := by
  unfold ataidComplete
  dsimp only
  split
  · exact Runs.silent rfl rfl (fun _ => .inl) rfl rfl
  · split
    · exact Runs.silent rfl rfl (fun _ => .inl) rfl rfl
    · exact Runs.silent rfl rfl (fun _ => .inl) rfl rfl

private theorem sleepStep_runs (pc : SleepPc) : Runs C 0 d 0 (sleepStep d pc).1 := by
  cases pc with
  | start => exact Runs.refl 0 d
  | gdalloc =>
    simp only [sleepStep]
    split
    · exact Runs.silent rfl rfl (fun _ => .inl) rfl rfl
    · exact Runs.refl 0 d
  | gdNow =>
    have hready : Runs C 0 d 0 { d with blkq := true } := ⟨.refl, .single .ready, fun hd => hd.congr rfl, id⟩
    simp only [sleepStep]
    split
    · exact hready.trans (Runs.silent rfl rfl (fun _ => .inl) rfl rfl)
    · exact Runs.silent rfl rfl (fun _ => .inl) rfl rfl
  | installed => exact Runs.silent rfl rfl (fun _ => .inl) rfl rfl
  | resize =>
    simp only [sleepStep]
    split
    · exact Runs.refl 0 d
    · exact Runs.refl 0 d
  | resizing ssize => exact Runs.silent rfl rfl (fun _ => .inl) rfl rfl

/-- An interface that answers has lost nothing. -/
private theorem lostReset_runs (hg : Good 0 d) {t : ℕ} (ht : t < d.targets.length) (nd : NetDev) :
    Runs C 0 d 0 (d.modTgt t fun t => match getif t (some nd) with
      | some j => { t with ifs := t.ifs.modify j fun x => { x with lost := 0 } }
      | none => t) := by
  have hlive : Live (d.tgtAt t).wires := live_of_good hg (mem_of_getD ht)
  cases hif : getif (d.tgtAt t) (some nd) with
  | none =>
    have hsame : d.modTgt t (fun t => match getif t (some nd) with
        | some j => { t with ifs := t.ifs.modify j fun x => { x with lost := 0 } }
        | none => t) = d := by
      unfold Aoedev.modTgt
      rw [modify_fixed]
      exact (by rw [Aoedev.tgtAt] at hif; rw [hif])
    rw [hsame]
    exact Runs.refl 0 d
  | some j =>
    let t' : Aoetgt := { d.tgtAt t with ifs := (d.tgtAt t).ifs.modify j fun x => { x with lost := 0 } }
    have hl : (d.modTgt t fun t => match getif t (some nd) with
        | some j => { t with ifs := t.ifs.modify j fun x => { x with lost := 0 } }
        | none => t).ledger 0 = (d.ledger 0).modSlot t fun s => { s with wires := t'.wires } := by
      refine ledger_modTgt_at d 0 t _ _ ?_
      rw [hif]
      rfl
    refine Runs.of_shift ?_ ?_ ?_ rfl (fun _ => .inl) ?_ (fun hd => hd.congr rfl) rfl ?_
    · rw [hl]
      exact .rewire (live_setLost j 0 hlive)
    · rw [hl]
      rfl
    · rw [hl]
      rfl
    · rw [hl]
      exact le_rfl
    · rw [hl]
      have hmin : t'.wires.minbcnt = ((d.ledger 0).slots.getD t default).wires.minbcnt := by
        have hslot : (d.ledger 0).slots.getD t default = (d.tgtAt t).slot := slot_ledger d 0 t
        rw [hslot]
        rfl
      change ((d.ledger 0).slots.modify t _).map _ = _
      rw [map_modify_at _ _ _ id (fun s : Slot => s.wires.minbcnt) hmin, List.modify_id]

theorem thread_frame_lt (hg : Good 0 d) {th : Thread} (hth : th ∈ d.threads) {f : Frame}
    (hf : f ∈ th.early ∨ f ∈ th.late) : f.t < d.targets.length := by
  have hmem : f ∈ (d.ledger 0).all := by
    simp only [Ledger.all, Ledger.inPlay, Ledger.pending, Aoedev.ledger, Multiset.mem_add, Multiset.mem_coe,
      List.mem_flatMap]
    rcases hf with hf | hf
    · exact .inr (.inl (.inr (.inl (.inr ⟨th, hth, hf⟩))))
    · exact .inr (.inr (.inl ⟨th, hth, hf⟩))
  rw [← slots_ledger d 0]
  exact hg.inv.t_lt (Multiset.mem_map_of_mem _ hmem)

/-- One section of a thread. -/
private theorem runThread_runs (hg : Good 0 d) {i : ℕ} {th : Thread} (hi : d.threads[i]? = some th) :
    Runs C 0 d 0 (runThread d i th) := by
  have hth : th ∈ d.threads := List.mem_of_getElem? hi
  cases th with
  | rsp r =>
    have hr := rspMatch_inner (C := C) hg r
    dsimp only [runThread]
    generalize rspMatch d r = p at hr ⊢
    obtain ⟨d₁, o⟩ := p
    have hi₁ (hthreads : d₁.threads = d.threads) : d₁.threads[i]? = some (.rsp r) := hthreads ▸ hi
    cases o with
    | none =>
      have hr₁ : Inner C 0 d 0 d₁ := hr
      exact hr₁.toRuns.trans (setThread_plain (hi₁ (hr₁.field Blk.threads fun _ => rfl)) _ rfl rfl rfl rfl)
    | some f =>
      have hr₁ : Inner C 0 d (Hands.hold 0 f) d₁ := hr
      have hset : Runs C (Hands.hold 0 f) d₁ 0 (d₁.setThread i (some (.matched f r))) :=
        setThread_runs (hi₁ (hr₁.field Blk.threads fun _ => rfl)) _ rfl rfl rfl rfl
      have hboth := hr₁.toRuns.trans hset
      exact hboth.trans (aoecmdWork_inner (hboth.good hg)).toRuns
  | matched f r =>
    have hset : Runs C 0 d (Hands.hold 0 f) (d.setThread i none) := setThread_runs hi _ rfl rfl rfl rfl
    exact hset.trans (ktcomplete_runs (some r))
  | unexpected => exact (setThread_plain hi none rfl rfl rfl rfl).trans aoedevPut_runs
  | ktio id f =>
    have hk (next : Thread) := ktio_runs (C := C) hg hi next
    dsimp only [runThread]
    generalize ktioData (noteProcessed d f) f = p at hk ⊢
    obtain ⟨d₁, o⟩ := p
    cases o with
    | some m => exact hk (.ktioMid id f m) rfl rfl
    | none => exact hk (.ktioOut id f) rfl rfl
  | ktioMid id f m =>
    have ht : f.t < d.targets.length := thread_frame_lt hg hth (.inr (by simp [Thread.late]))
    have hset {d₁ : Aoedev} (hthreads : d₁.threads = d.threads) :
        Runs C 0 d₁ 0 (d₁.setThread i (some (.ktioOut id f))) :=
      setThread_runs (hthreads ▸ hi : d₁.threads[i]? = some (.ktioMid id f m)) _ rfl rfl rfl rfl
    cases m with
    | lost nd => exact (lostReset_runs hg ht nd).trans (hset rfl)
    | ident data =>
      have hr : Runs C 0 d 0 (ataidComplete d data) := ataidComplete_runs data
      have hthreads : (ataidComplete d data).threads = d.threads := by
        unfold ataidComplete
        dsimp only
        split
        · rfl
        · split
          · rfl
          · rfl
      exact hr.trans (hset hthreads)
  | ktioOut id f => exact (ktioOut_spec hg hi).1
  | ktioPut id => exact (setThread_plain hi (some (.ktioSpawn id)) rfl rfl rfl rfl).trans aoedevPut_runs
  | ktioSpawn id =>
    have hset : Runs C 0 d 0 (d.setThread i none) := setThread_plain hi none rfl rfl rfl rfl
    exact hset.trans (Runs.silent rfl rfl (fun _ => .inl) rfl rfl)
  | flush f =>
    have hset : Runs C 0 d (Hands.hold 0 f) (d.setThread i (some .flushPut)) := setThread_runs hi _ rfl rfl rfl rfl
    exact hset.trans (downdevFrame_inner (hset.good hg)).toRuns
  | flushPut => exact (setThread_plain hi none rfl rfl rfl rfl).trans aoedevPut_runs
  | cfg c =>
    have hset : Runs C 0 d 0 (d.setThread i (some .cfgPut)) := setThread_plain hi _ rfl rfl rfl rfl
    exact hset.trans (aoecmdCfgRsp_rewired (hset.good hg) c).toRuns
  | cfgPut => exact (setThread_plain hi none rfl rfl rfl rfl).trans aoedevPut_runs
  | reval first =>
    have hclean : ∃ d₁, Rewired C d d₁ ∧ runThread d i (.reval first) = ((aoecmdAtaId d₁).1).setThread i
        (some (if (aoecmdAtaId d₁).2 then .revalPut else .reval false)) := by
      cases first with
      | true => exact ⟨aoecmdCleanslate d, aoecmdCleanslate_rewired, rfl⟩
      | false => exact ⟨d, (Inner.refl 0 d).rewired, rfl⟩
    obtain ⟨d₁, hr, heq⟩ := hclean
    have hid : Inner C 0 d₁ 0 (aoecmdAtaId d₁).1 := (aoecmdAtaId_quiet (hr.good hg).inv).inner (hr.good hg).inv
    have hboth := hr.trans hid.rewired
    have hi₁ : (aoecmdAtaId d₁).1.threads[i]? = some (.reval first) := by
      obtain ⟨n, hn⟩ := hboth.outer
      have hthreads : (aoecmdAtaId d₁).1.threads = d.threads := congrArg Blk.threads hn
      rw [hthreads]
      exact hi
    rw [heq]
    refine hboth.toRuns.trans (setThread_plain hi₁ _ rfl rfl ?_ ?_)
    · split
      · rfl
      · rfl
    · split
      · rfl
      · rfl
  | revalPut => exact (setThread_plain hi none rfl rfl rfl rfl).trans aoedevPut_runs
  | sleep pc =>
    have hr : Runs C 0 d 0 (sleepStep d pc).1 := sleepStep_runs pc
    have hthreads : (sleepStep d pc).1.threads = d.threads := by
      cases pc with
      | gdalloc =>
        simp only [sleepStep]
        split
        · rfl
        · rfl
      | gdNow =>
        simp only [sleepStep]
        split
        · rfl
        · rfl
      | resize =>
        simp only [sleepStep]
        split
        · rfl
        · rfl
      | start => rfl
      | installed => rfl
      | resizing ssize => rfl
    have hi₁ : (sleepStep d pc).1.threads[i]? = some (.sleep pc) := hthreads ▸ hi
    have hnext (o : Option SleepPc) : (o.map Thread.sleep).elim [] Thread.early = [] ∧
        (o.map Thread.sleep).elim [] Thread.late = [] := by
      cases o <;> exact ⟨rfl, rfl⟩
    exact hr.trans (setThread_plain hi₁ _ rfl rfl (hnext _).1 (hnext _).2)

private theorem spawn_runs {th : Thread} (he : th.early = []) (hl : th.late = []) : Runs C 0 d 0 (d.spawn th) := by
  refine Runs.silent ?_ rfl (fun _ => .inl) rfl rfl
  simp [Aoedev.ledger, Aoedev.spawn, he, hl]

private theorem hold_runs {th : Thread} (he : th.early = []) (hl : th.late = []) (hd : d.hold th = some d') :
    Runs C 0 d 0 d' := by
  unfold Aoedev.hold at hd
  split at hd
  · exact absurd hd (by simp)
  · rw [Option.some.injEq] at hd
    subst hd
    have href : Runs C 0 d 0 { d with ref := d.ref + 1 } := Runs.silent rfl rfl (fun _ => .inl) rfl rfl
    exact href.trans (spawn_runs he hl)

private theorem ktioTake_ledger {id id' : ℕ} {f : Frame} (hf : d.iocq.find? (·.1 = id) = some (id', f)) :
    ({ d with iocq := d.iocq.eraseP (·.1 = id) }.spawn (.ktio id f)).ledger 0 = d.ledger 0 := by
  have hperm := (find_eraseP_perm hf).map Prod.snd
  have hout : ((d.iocq.map Prod.snd : List Frame) : Multiset Frame) =
      f ::ₘ ((d.iocq.eraseP (·.1 = id)).map Prod.snd : List Frame) := by
    rw [Multiset.cons_coe, Multiset.coe_eq_coe]
    exact hperm
  have hsum (s t u : Multiset Frame) : s + (t + {f}) + u = f ::ₘ s + t + u := by
    rw [← add_assoc, add_comm (s + t), Multiset.singleton_add, Multiset.cons_add, Multiset.cons_add, Multiset.cons_add]
  have hearly : (((d.threads ++ [Thread.ktio id f]).flatMap Thread.early : List Frame) : Multiset Frame) =
      (d.threads.flatMap Thread.early : List Frame) + {f} := by
    rw [List.flatMap_append, ← Multiset.coe_add]
    rfl
  have hlate : (d.threads ++ [Thread.ktio id f]).flatMap Thread.late = d.threads.flatMap Thread.late := by
    simp [Thread.late]
  simp only [Aoedev.ledger, Aoedev.spawn, hearly, hlate, hout, hsum]

private theorem flushIocq_ledger (id : ℕ) : Aoedev.ledger { d with
      iocq := d.iocq.filter (·.1 ≠ id)
      threads := d.threads ++ (d.iocq.filter (·.1 = id)).map fun p => .flush p.2 } 0 = d.ledger 0 := by
  have hearly (l : List (ℕ × Frame)) : (l.map fun p => Thread.flush p.2).flatMap Thread.early = l.map Prod.snd := by
    induction l with
    | nil => rfl
    | cons p l ih =>
      rw [List.map_cons, List.flatMap_cons, ih]
      rfl
  have hlate (l : List (ℕ × Frame)) : (l.map fun p => Thread.flush p.2).flatMap Thread.late = [] := by
    induction l with
    | nil => rfl
    | cons p l ih =>
      rw [List.map_cons, List.flatMap_cons, ih]
      rfl
  have hsplit : ((d.iocq.map Prod.snd : List Frame) : Multiset Frame) =
      ((d.iocq.filter (·.1 ≠ id)).map Prod.snd : List Frame) + ((d.iocq.filter (·.1 = id)).map Prod.snd : List Frame) := by
    have hp := (List.filter_append_perm (fun p : ℕ × Frame => decide (p.1 = id)) d.iocq).map Prod.snd
    rw [List.map_append] at hp
    rw [← Multiset.coe_eq_coe.mpr hp, ← Multiset.coe_add, add_comm]
    simp
  have hsum (a b t u : Multiset Frame) : a + (t + b) + u = a + b + t + u := by rw [add_comm t b, add_assoc a b t]
  simp only [Aoedev.ledger, List.flatMap_append, hearly, hlate, List.append_nil, ← Multiset.coe_add, hsplit, hsum]

/-- Every event is a run. -/
theorem exec_runs {e : Event} (hg : Good 0 d) (hm : C.Meets d e) (he : exec d e = some d') : Runs C 0 d 0 d' := by
  have hsome {x : Aoedev} (hx : some x = some d') (hr : Runs C 0 d 0 x) : Runs C 0 d 0 d' := by
    rw [Option.some.injEq] at hx
    exact hx ▸ hr
  have hif {c : Prop} [Decidable c] {x : Aoedev} (hx : (if c then some x else none) = some d')
      (hr : c → Runs C 0 d 0 x) : Runs C 0 d 0 d' := by
    split at hx
    · exact hsome hx (hr (by assumption))
    · exact absurd hx (by simp)
  cases e with
  | clock usecs jiffs =>
    refine hsome he (Runs.of_shift (Shift.tick hm) rfl rfl rfl (fun _ => .inl) le_rfl (fun hd => hd.congr rfl) rfl rfl)
  | dataref g =>
    refine hsome he ?_
    let set := fun skb : Skb => { skb with dataref := g skb.id }
    have hl : Aoedev.ledger { d with
        skbpool := d.skbpool.map set
        targets := d.targets.map fun t => { t with ffree := t.ffree.map fun f => { f with skb := f.skb.map set } } } 0 =
        { d.ledger 0 with
          slots := (d.ledger 0).slots.map fun s => { s with free := s.free.map fun f => { f with skb := f.skb.map set } } } := by
      simp only [Aoedev.ledger, List.map_map]
      rfl
    refine Runs.of_shift ?_ ?_ ?_ rfl (fun _ => .inl) ?_ (fun hd => hd.congr rfl) rfl ?_
    · rw [hl]
      refine .reskb fun s => ?_
      cases s with
      | none => rfl
      | some skb => rfl
    · rw [hl]
      rfl
    · rw [hl]
    · rw [hl]
    · rw [hl, List.map_map]
      rfl
  | params deadsecs maxout => exact hsome he (Runs.silent rfl rfl (fun _ => .inl) rfl rfl)
  | blkQueue rq =>
    refine hif he fun hc => ?_
    simp only [Bool.and_eq_true, Bool.not_eq_true', List.any_eq_false, decide_eq_true_eq] at hc
    obtain ⟨⟨⟨⟨hk, hfresh⟩, hq⟩, hr⟩, hended⟩ := hc
    have hid : rq.id ∉ d.queue.map Request.id ++ (d.rqs.map Request.id ++ d.hist.ended.map (·.rq.id)) := by
      simp only [List.mem_append, List.mem_map, not_or, not_exists, not_and]
      exact ⟨hq, hr, hended⟩
    refine ⟨.refl, ?_, fun hd => hd.congr rfl, id⟩
    exact .single (.queue hk hfresh hid)
  | blkRun env =>
    refine hif he fun _ => ?_
    have hr : Runs C 0 d 0 { d with env := env } := outcomes_runs hm
    exact hr.trans (aoeblkRequest_inner (hr.good hg)).toRuns
  | ataRsp r => exact hold_runs rfl rfl he
  | cfgRsp c => exact hold_runs rfl rfl he
  | revalidate => exact hold_runs rfl rfl he
  | sleepwork =>
    refine hif he fun _ => ?_
    have hr : Runs C 0 d 0 { d with workPending := false } := Runs.silent rfl rfl (fun _ => .inl) rfl rfl
    exact hr.trans (spawn_runs rfl rfl)
  | ktioTake id =>
    dsimp only [exec] at he
    split at he
    · split at he
      · rename_i id' f hf
        exact hsome he (Runs.silent (ktioTake_ledger hf) rfl (fun _ => .inl) rfl rfl)
      · exact absurd he (by simp)
    · exact absurd he (by simp)
  | flushIocq id => exact hsome he (Runs.silent (flushIocq_ledger id) rfl (fun _ => .inl) rfl rfl)
  | rexmitTimer env =>
    refine hif he fun _ => ?_
    have hr : Runs C 0 d 0 { d with env := env } := outcomes_runs hm.1
    exact hr.trans (rexmitTimer_runs (hr.good hg) hm.2)
  | flushDev mode env =>
    refine hsome he ?_
    have hr : Runs C 0 d 0 { d with env := env } := outcomes_runs hm.1
    exact hr.trans (flushPassOne_runs hm.2)
  | blkOpen => exact hif he fun _ => Runs.silent rfl rfl (fun _ => .inl) rfl rfl
  | blkRelease => exact hif he fun _ => Runs.silent rfl rfl (fun _ => .inl) rfl rfl
  | signal i => exact hif he fun hi => setThread_plain hi _ rfl rfl rfl rfl
  | run i env =>
    dsimp only [exec] at he
    split at he
    · rename_i th hi
      have hr : Runs C 0 d 0 { d with env := env } := outcomes_runs hm
      exact hsome he (hr.trans (runThread_runs (hr.good hg) hi))
    · exact absurd he (by simp)

end Events

end AoeDriver
