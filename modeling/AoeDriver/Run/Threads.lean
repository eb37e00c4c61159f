import AoeDriver.Run.Complete

/-!
# Threads and responses

How frames pass between the device and the threads outside its lock: `aoecmd_ata_rsp`, the completion queues and
`ktiocomplete`.
-/

namespace AoeDriver

open Tables

section Threads

variable {C : Cond} {h h' : Hands} {d : Aoedev} {i : ℕ} {th : Thread}

/-- A thread goes on, or ends, and hands its frames over. -/
private theorem ledger_setThread (hi : d.threads[i]? = some th) (next : Option Thread)
    (hout : (th.early : Multiset Frame) + h.out = (next.elim [] Thread.early : List Frame) + h'.out)
    (hlate : (th.late : Multiset Frame) + h.late = (next.elim [] Thread.late : List Frame) + h'.late)
    (hact : h'.active = h.active) (hdef : h'.deferred = h.deferred) :
    (d.setThread i next).ledger h' = d.ledger h := by
  have hparts (φ : Thread → List Frame) : ∃ rest : Multiset Frame,
      ((d.threads.flatMap φ : List Frame) : Multiset Frame) = φ th + rest ∧
      (((d.setThread i next).threads.flatMap φ : List Frame) : Multiset Frame) = (next.elim [] φ : List Frame) + rest := by
    refine ⟨((d.threads.eraseIdx i).flatMap φ : List Frame), ?_, ?_⟩
    · rw [Multiset.coe_add, Multiset.coe_eq_coe]
      exact flatMap_eraseIdx hi φ
    · cases next with
      | none =>
        rw [Option.elim_none, Multiset.coe_nil, zero_add]
        rfl
      | some th' =>
        rw [Multiset.coe_add, Multiset.coe_eq_coe]
        exact flatMap_set hi φ th'
  obtain ⟨early, he, he'⟩ := hparts Thread.early
  obtain ⟨late, hl, hl'⟩ := hparts Thread.late
  have hout' (s : Multiset Frame) : s + (next.elim [] Thread.early + early) + h'.out = s + (th.early + early) + h.out := by
    rw [add_assoc s, add_right_comm _ early, ← hout, add_right_comm, ← add_assoc s]
  have hlate' : (next.elim [] Thread.late + late) + h'.late = (th.late + late) + h.late := by
    rw [add_right_comm, ← hlate, add_right_comm]
  simp only [Aoedev.ledger, he, he', hl, hl', hout', hlate', hact, hdef]
  rfl

private theorem ledger_setThread_some (hi : d.threads[i]? = some th) (next : Thread) :
    (d.setThread i (some next)).ledger h =
    (d.setThread i none).ledger { h with out := next.early + h.out, late := next.late + h.late } := by
  have hparts (φ : Thread → List Frame) : (((d.threads.set i next).flatMap φ : List Frame) : Multiset Frame) =
      φ next + ((d.threads.eraseIdx i).flatMap φ : List Frame) := by
    rw [Multiset.coe_add, Multiset.coe_eq_coe]
    exact flatMap_set hi φ next
  have hcomm (s a b c : Multiset Frame) : s + (a + b) + c = s + b + (a + c) := by
    rw [add_comm a b, ← add_assoc, add_assoc _ a c]
  have hcomm' (a b c : Multiset Frame) : a + b + c = b + (a + c) := by rw [add_comm a b, add_assoc]
  simp only [Aoedev.ledger, Aoedev.setThread, hparts, hcomm, hcomm']

theorem setThread_runs (hi : d.threads[i]? = some th) (next : Option Thread)
    (hout : (th.early : Multiset Frame) + h.out = (next.elim [] Thread.early : List Frame) + h'.out)
    (hlate : (th.late : Multiset Frame) + h.late = (next.elim [] Thread.late : List Frame) + h'.late)
    (hact : h'.active = h.active) (hdef : h'.deferred = h.deferred) : Runs C h d h' (d.setThread i next) :=
  Runs.silent (ledger_setThread hi next hout hlate hact hdef) rfl (fun _ => .inl) rfl rfl

theorem setThread_plain (hi : d.threads[i]? = some th) (next : Option Thread) (he : th.early = []) (hl : th.late = [])
    (he' : next.elim [] Thread.early = []) (hl' : next.elim [] Thread.late = []) :
    Runs C h d h (d.setThread i next) := by
  refine setThread_runs hi next ?_ ?_ rfl rfl
  · rw [he, he']
  · rw [hl, hl']

theorem aoedevPut_runs : Runs C h d h (aoedevPut d) := by
  unfold aoedevPut Aoedev.notePred
  split
  · refine Runs.silent rfl rfl (fun c hc => ?_) rfl rfl
    rcases List.mem_append.mp hc with hc | hc
    · exact .inl hc
    · exact .inr (List.mem_singleton.mp hc)
  · exact Runs.silent rfl rfl (fun _ => .inl) rfl rfl

end Threads

section Responses

variable {C : Cond} {h : Hands} {d : Aoedev}

theorem takeTag_spec {tag : ℕ} {l rest : List Frame} {f : Frame} (ht : takeTag tag l = some (f, rest)) :
    l.Perm (f :: rest) ∧ f.tag = tag := by
  unfold takeTag at ht
  obtain ⟨g, hg, heq⟩ := Option.map_eq_some_iff.mp ht
  obtain ⟨rfl, rfl⟩ := Prod.mk.inj heq
  exact ⟨find_eraseP_perm hg, by simpa using List.find?_some hg⟩

theorem getframe_spec {tag : ℕ} {f : Frame} {d' : Aoedev} (hget : getframe d tag = some (f, d')) :
    d.ledger h = (d'.ledger h).act f ∧ (d.Hashed → d'.Hashed) ∧ d'.blk = d.blk ∧ f.tag = tag := by
  unfold getframe at hget
  obtain ⟨⟨g, rest⟩, htake, heq⟩ := Option.map_eq_some_iff.mp hget
  obtain ⟨rfl, rfl⟩ := Prod.mk.inj heq
  obtain ⟨hperm, htag⟩ := takeTag_spec htake
  refine ⟨?_, ?_, rfl, htag⟩
  · simp only [Aoedev.ledger, Ledger.act]
    rw [contents_remove _ _ _ _ hperm, Multiset.cons_add]
  · intro hd n x hx
    dsimp only at hx
    by_cases hn : n = bucket tag
    · subst hn
      rw [Function.update_self] at hx
      exact hd _ x (hperm.mem_iff.mpr (List.mem_cons_of_mem _ hx))
    · rw [Function.update_of_ne hn] at hx
      exact hd n x hx

theorem getframeDeferred_spec {tag : ℕ} {f : Frame} {d' : Aoedev} (hget : getframeDeferred d tag = some (f, d')) :
    d.ledger h = (d'.ledger h).defer f ∧ d'.factive = d.factive ∧ d'.blk = d.blk ∧ f.tag = tag := by
  unfold getframeDeferred at hget
  obtain ⟨⟨g, rest⟩, htake, heq⟩ := Option.map_eq_some_iff.mp hget
  obtain ⟨rfl, rfl⟩ := Prod.mk.inj heq
  obtain ⟨hperm, htag⟩ := takeTag_spec htake
  refine ⟨?_, rfl, rfl, htag⟩
  simp only [Aoedev.ledger, Ledger.defer]
  rw [Multiset.coe_eq_coe.mpr hperm, ← Multiset.cons_coe, Multiset.cons_add]

private theorem slot_growWindow (t : Aoetgt) : (growWindow t).slot = t.slot := by
  have hslot (m n : ℕ) : { t with maxout := m, nextCwnd := n }.slot = t.slot := rfl
  unfold growWindow
  split
  · rfl
  · split
    · exact hslot _ _
    · split
      · dsimp only
        split
        · exact hslot _ _
        · exact hslot _ _
      · rfl

theorem calcRttavg_quiet (t : Option ℕ) (rtt : ℤ) : Quiet h d h (calcRttavg d t rtt) := by
  have hrtt (a b : ℕ) : Quiet h d h { d with rttavg := a, rttdev := b } := Quiet.of_eq rfl rfl rfl
  unfold calcRttavg
  extract_lets n rttavg n' d'
  have hd' : Quiet h d h d' := hrtt _ _
  cases t with
  | none => exact hd'
  | some t => exact hd'.trans (Quiet.of_eq (ledger_modTgt_same d' h t _ slot_growWindow) rfl rfl)

theorem calcRttavg_ledger (t : Option ℕ) (rtt : ℤ) : (calcRttavg d t rtt).ledger h = d.ledger h ∧
    (calcRttavg d t rtt).factive = d.factive := by
  unfold calcRttavg
  extract_lets n rttavg n' d'
  cases t with
  | none => exact ⟨rfl, rfl⟩
  | some t => exact ⟨ledger_modTgt_same d' h t _ slot_growWindow, rfl⟩

/-- A response takes the frame it belongs to out of `factive` or `rexmitq`. -/
theorem rspMatch_inner (hg : Good h d) (r : Rsp) :
    match (rspMatch d r).2 with
    | some f => Inner C h d (h.hold f) (rspMatch d r).1
    | none => Inner C h d h (rspMatch d r).1 := by
  unfold rspMatch
  cases hget : getframe d r.tag with
  | some p =>
    obtain ⟨f, d₁⟩ := p
    obtain ⟨hl, hhash, hblk, -⟩ := getframe_spec (h := h) hget
    have hq : Quiet h d₁ h (calcRttavg d₁ (some f.t) (tsinceHr d₁.clock f)) := calcRttavg_quiet _ _
    obtain ⟨hl₂, hf₂⟩ := calcRttavg_ledger (h := h) (d := d₁) (some f.t) (tsinceHr d₁.clock f)
    dsimp only
    generalize calcRttavg d₁ (some f.t) (tsinceHr d₁.clock f) = d₂ at hq hl₂ hf₂ ⊢
    have hblk₂ : d₂.blk = d.blk := hq.blk.trans hblk
    have hnout : (d₂.tgtAt f.t).nout ≠ 0 := by
      have hi : ((d₁.ledger h).act f).Inv := hl ▸ hg.inv
      have hn : (d₂.tgtAt f.t).nout = (f ::ₘ (d₁.ledger h).active).countP (·.t = f.t) := by
        have hslot := hi.nout f.t
        rw [Ledger.slot_act, ← hl₂, slot_ledger, hl₂] at hslot
        exact hslot
      rw [hn, Multiset.countP_cons_of_pos (p := fun x : Frame => x.t = f.t) _ rfl]
      exact Nat.succ_ne_zero _
    have hnote : d₂.notePred .nout (d₂.tgtAt f.t).nout = d₂ := by rw [Aoedev.notePred, if_neg hnout]
    rw [hnote]
    have hl₃ := ledger_modTgt d₂ h f.t
      (fun t => { t with
        nout := decUshort t.nout, noutProbes := if f.probe then decChar t.noutProbes else t.noutProbes })
      (fun s => { s with
        nout := decUshort s.nout, noutProbes := if f.probe then decChar s.noutProbes else s.noutProbes })
      (fun t => slot_counts t (decUshort t.nout) (if f.probe then decChar t.noutProbes else t.noutProbes))
    rw [hl₂] at hl₃
    refine ⟨Runs.of_shift ?_ ?_ ?_ (congrArg Blk.core hblk₂) ?_ ?_ (fun hd => (hhash hd).congr hf₂) ?_ ?_,
      congrArg Blk.outer hblk₂⟩
    · rw [ledger_hands_hold, hl₃, hl]
      exact .answer
    · rw [ledger_hands_hold, hl₃, hl, Ledger.pending_hold, Ledger.pending_act]
      rfl
    · rw [ledger_hands_hold, hl₃, hl]
      rfl
    · have hu : d₂.hist.underflow = d.hist.underflow := congrArg Blk.underflow hblk₂
      intro c hc
      exact .inl (hu ▸ hc)
    · rw [ledger_hands_hold, hl₃, hl]
      exact le_rfl
    · exact congrArg Blk.maxbcnt hblk₂
    · rw [ledger_hands_hold, hl₃, hl]
      exact map_modify_same _ _ _ (fun s : Slot => s.wires.minbcnt) fun _ => rfl
  | none =>
    cases hdef : getframeDeferred d r.tag with
    | some p =>
      obtain ⟨f, d₁⟩ := p
      obtain ⟨hl, hfac, hblk, -⟩ := getframeDeferred_spec (h := h) hdef
      have hq : Quiet h d₁ h (calcRttavg d₁ none (tsinceHr d₁.clock f)) := calcRttavg_quiet _ _
      obtain ⟨hl₂, hf₂⟩ := calcRttavg_ledger (h := h) (d := d₁) none (tsinceHr d₁.clock f)
      dsimp only
      generalize calcRttavg d₁ none (tsinceHr d₁.clock f) = d₂ at hq hl₂ hf₂ ⊢
      have hblk₂ : d₂.blk = d.blk := hq.blk.trans hblk
      refine ⟨Runs.of_shift ?_ ?_ ?_ (congrArg Blk.core hblk₂) ?_ ?_ (fun hd => hd.congr (hf₂.trans hfac)) ?_ ?_,
        congrArg Blk.outer hblk₂⟩
      · rw [ledger_hands_hold, hl₂, hl]
        exact .answerDeferred
      · rw [ledger_hands_hold, hl₂, hl, Ledger.pending_hold, Ledger.pending_defer]
      · rw [ledger_hands_hold, hl₂, hl]
        rfl
      · have hu : d₂.hist.underflow = d.hist.underflow := congrArg Blk.underflow hblk₂
        intro c hc
        exact .inl (hu ▸ hc)
      · rw [ledger_hands_hold, hl₂, hl]
        exact le_rfl
      · exact congrArg Blk.maxbcnt hblk₂
      · rw [ledger_hands_hold, hl₂, hl]
        rfl
    | none =>
      have hq : Quiet h d h (calcRttavg d none (tsince d.clock r.tag)) := calcRttavg_quiet _ _
      dsimp only
      generalize calcRttavg d none (tsince d.clock r.tag) = d₁ at hq ⊢
      cases gettgt d₁ r.src with
      | none => exact hq.inner hg.inv
      | some t =>
        have hlost : Quiet h d₁ h (d₁.modTgt t fun x => { x with lost := predUlong x.lost }) :=
          Quiet.of_eq (ledger_modTgt_same d₁ h t _ fun _ => rfl) rfl rfl
        exact (hq.trans hlost).inner hg.inv

end Responses

section Queues

variable {C : Cond} {h : Hands} {d : Aoedev} {i : ℕ}

theorem ktcomplete_runs {f : Frame} (r : Option Rsp) : Runs C (h.hold f) d h (ktcomplete d f r) := by
  let f' : Frame := { f with rSkb := r }
  have hl : (ktcomplete d f r).ledger h = (d.ledger h).hold f' := by
    simp only [ktcomplete, Aoedev.ledger, Ledger.hold, List.map_append, List.map_cons, List.map_nil]
    rw [← Multiset.coe_add, add_right_comm _ _ (Multiset.ofList (d.threads.flatMap Thread.early)), add_assoc,
      Multiset.coe_singleton, add_left_comm, ← Multiset.singleton_add, ← add_assoc]
  refine Runs.of_shift ?_ ?_ ?_ rfl (fun _ => .inl) ?_ (fun hd => hd.congr rfl) rfl ?_
  · rw [hl, ledger_hands_hold]
    exact .reply
  · rw [hl, ledger_hands_hold, Ledger.pending_hold, Ledger.pending_hold]
    exact duties_cons_congr rfl
  · rw [hl, ledger_hands_hold]
    rfl
  · rw [hl, ledger_hands_hold]
    exact le_rfl
  · rw [hl, ledger_hands_hold]
    rfl

/-- `ktiocomplete` before its label `out` marks the bio, copies data or does nothing. -/
theorem ktioData_cases (d : Aoedev) (f : Frame) :
    (∃ b, f.buf = some b ∧ (ktioData d f).1 = failBio d b) ∨
      ∃ mem skb, (ktioData d f).1 = { d with mem := mem, env.skb := skb } := by
  have hsame : ∃ mem skb, d = { d with mem := mem, env.skb := skb } := ⟨d.mem, d.env.skb, rfl⟩
  generalize hp : ktioData d f = p
  unfold ktioData at hp
  extract_lets fail at hp
  have hfail : (∃ b, f.buf = some b ∧ fail = failBio d b) ∨ ∃ mem skb, fail = { d with mem := mem, env.skb := skb } := by
    cases hb : f.buf with
    | none =>
      have hd : fail = d := by simp only [fail, hb]
      rw [hd]
      exact .inr hsame
    | some b => exact .inl ⟨b, rfl, by simp only [fail, hb]⟩
  dsimp only at hp
  split at hp
  · exact hp ▸ .inr hsame
  · split at hp
    · exact hp ▸ hfail
    · split at hp
      · exact hp ▸ hfail
      · split at hp
        · split at hp
          · exact hp ▸ hfail
          · split at hp
            · exact hp ▸ hfail
            · exact hp ▸ .inr ⟨_, d.env.skb, rfl⟩
        · split at hp
          · exact hp ▸ .inr hsame
          · split at hp
            · split at hp
              · exact hp ▸ .inr hsame
              · exact hp ▸ .inr ⟨d.mem, _, rfl⟩
            · exact hp ▸ .inr hsame

theorem noteProcessed_cases (d : Aoedev) (f : Frame) :
    ∃ processed, noteProcessed d f = { d with hist.processed := processed } ∧
      (f.buf = none → processed = d.hist.processed) := by
  unfold noteProcessed
  split
  · rename_i hb _
    exact ⟨_, rfl, fun hn => absurd (hb.symm.trans hn) (by simp)⟩
  · exact ⟨d.hist.processed, rfl, fun _ => rfl⟩

theorem ktioData_aside (d : Aoedev) (f : Frame) : Aside d (ktioData (noteProcessed d f) f).1 ∧
    (ktioData (noteProcessed d f) f).1.threads = d.threads := by
  obtain ⟨processed, hn, -⟩ := noteProcessed_cases d f
  rcases ktioData_cases (noteProcessed d f) f with ⟨b, -, hk⟩ | ⟨mem, skb, hk⟩
  · rw [hk, hn]
    exact ⟨⟨fun _ => rfl, fun _ => rfl, rfl, rfl, rfl, rfl⟩, rfl⟩
  · rw [hk, hn]
    exact ⟨⟨fun _ => rfl, fun _ => rfl, rfl, rfl, rfl, rfl⟩, rfl⟩

private theorem ktioData_posts (f : Frame) (hp : f.probe = true → f.buf = none) (D L : Multiset Duty) :
    Posts ⟨d, duties {f} + D, L⟩ ⟨(ktioData (noteProcessed d f) f).1, D, duties {f} + L⟩ := by
  cases hb : f.buf with
  | none =>
    rw [duties_singleton_none (Frame.duty_none hb), zero_add, zero_add]
    refine .single ?_
    obtain ⟨processed, hn, hsame⟩ := noteProcessed_cases d f
    rcases ktioData_cases (noteProcessed d f) f with ⟨b, hb', -⟩ | ⟨mem, skb, hk⟩
    · exact absurd (hb'.symm.trans hb) (by simp)
    · rw [hk, hn, hsame hb]
      exact .quiet rfl le_rfl fun _ => .inl
  | some b =>
    have hprobe : f.probe = false := by
      cases hpr : f.probe with
      | false => rfl
      | true => exact absurd ((hp hpr).symm.trans hb) (by simp)
    have hduty : f.duty = some ⟨b, f.cmd, f.iter, (f.skb.getD default).ata⟩ := by rw [Frame.duty, hb, Option.map_some]
    rw [duties_singleton_some hduty, Multiset.singleton_add, Multiset.singleton_add]
    exact .single (.process hduty hprobe)

/-- The section of `ktiocomplete` before its label `out`. -/
theorem ktio_runs {id : ℕ} {f : Frame} (hg : Good h d) (hi : d.threads[i]? = some (.ktio id f)) (next : Thread)
    (he : next.early = []) (hl : next.late = [f]) :
    Runs C h d h ((ktioData (noteProcessed d f) f).1.setThread i (some next)) := by
  obtain ⟨ha, hthreads⟩ := ktioData_aside d f
  have hposts := ktioData_posts (d := d) f
  generalize (ktioData (noteProcessed d f) f).1 = d₁ at ha hthreads hposts ⊢
  have hi₁ : d₁.threads[i]? = some (.ktio id f) := hthreads ▸ hi
  let m := (d₁.setThread i none).ledger h
  have hbefore : d.ledger h = m.hold f := by
    have hset : (d₁.setThread i none).ledger (h.hold f) = d₁.ledger h := by
      refine ledger_setThread hi₁ none ?_ ?_ rfl rfl
      · simp [Thread.early, Hands.hold]
      · simp [Thread.late, Hands.hold]
    rw [← ha.ledger, ← hset, ledger_hands_hold]
  have hafter : (d₁.setThread i (some next)).ledger h = m.shelve f := by
    have hhands : { h with out := (([] : List Frame) : Multiset Frame) + h.out,
                           late := (([f] : List Frame) : Multiset Frame) + h.late } = h.shelve f := by
      simp [Hands.shelve]
    rw [ledger_setThread_some hi₁, he, hl, hhands, ledger_hands_shelve]
  have hprobe : f.probe = true → f.buf = none := hg.inv.probe f (by simp [hbefore])
  refine ⟨?_, ?_, fun hd => hd.congr ha.factive, ?_⟩
  · rw [hbefore, hafter]
    exact .single .retire
  · have hlate : duties (m.shelve f).late = duties {f} + duties m.late := duties_cons
    rw [stage, stage, hbefore, hafter, Ledger.pending_hold, duties_cons, hlate]
    have hset : Post ⟨d₁, duties m.pending, duties {f} + duties m.late⟩
        ⟨d₁.setThread i (some next), duties m.pending, duties {f} + duties m.late⟩ := .quiet rfl le_rfl fun _ => .inl
    exact (hposts hprobe _ _).tail hset
  · have hmax : (d₁.setThread i (some next)).maxbcnt = d.maxbcnt := ha.maxbcnt
    rw [hmax, hbefore, hafter]
    exact fun hw => hw

theorem redeem_quiet (hi : (d.ledger h).Inv) {t : ℕ} (ht : t < d.targets.length) : Quiet h d h (redeem d t) := by
  unfold redeem
  split
  · have htaint : Quiet h d h (d.modTgt t fun x => { x with taint := x.taint - 1 }) :=
      Quiet.of_eq (ledger_modTgt_same d h t _ fun _ => rfl) rfl rfl
    dsimp only
    split
    · exact htaint.trans (probeCounted_quiet (htaint.inv hi) (by simpa using ht))
    · exact htaint
  · exact Quiet.refl h d

/-- The last section of `ktiocomplete` under `d->lock`. -/
theorem ktioOut_spec {id : ℕ} {f : Frame} (hg : Good h d) (hi : d.threads[i]? = some (.ktioOut id f)) :
    Runs C h d h (ktioFinish ((redeem d f.t).setThread i (some (.ktioPut id))) f) ∧
      (ktioFinish ((redeem d f.t).setThread i (some (.ktioPut id))) f).blk.outer =
        (d.setThread i (some (.ktioPut id))).blk.outer := by
  have hledger {d : Aoedev} (hi : d.threads[i]? = some (.ktioOut id f)) : Runs C h d (h.shelve f)
      (d.setThread i (some (.ktioPut id))) := by
    refine setThread_runs hi _ ?_ ?_ rfl rfl
    · simp [Thread.early, Hands.shelve]
    · simp [Thread.late, Hands.shelve]
  have ht : f.t < d.targets.length := by
    have hmem : f ∈ (d.ledger h).late := by
      have hth : Thread.ktioOut id f ∈ d.threads := List.mem_of_getElem? hi
      refine Multiset.mem_add.mpr (.inl (Multiset.mem_coe.mpr (List.mem_flatMap.mpr ⟨_, hth, ?_⟩)))
      simp [Thread.late]
    rw [← slots_ledger d h]
    refine hg.inv.t_lt (Multiset.mem_map_of_mem _ ?_)
    simp only [Ledger.all, Ledger.inPlay, Multiset.mem_add]
    exact .inr (.inr hmem)
  have hq := redeem_quiet hg.inv ht
  have hr : Inner C h d h (redeem d f.t) := hq.inner hg.inv
  have hi' : (redeem d f.t).threads[i]? = some (.ktioOut id f) := by
    have hth : (redeem d f.t).threads = d.threads := congrArg Blk.threads hq.blk
    rw [hth]
    exact hi
  have hset := hr.toRuns.trans (hledger hi')
  have hfinish := ktioFinish_inner (C := C) (hset.good hg)
  refine ⟨hset.trans hfinish.toRuns, hfinish.outer.trans ?_⟩
  have hblk (d : Aoedev) : (d.setThread i (some (.ktioPut id))).blk.outer =
      { d.blk.outer with threads := d.blk.threads.set i (.ktioPut id) } := rfl
  rw [hblk, hblk, hq.blk]

end Queues

end AoeDriver
