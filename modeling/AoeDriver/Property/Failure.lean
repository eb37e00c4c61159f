import AoeDriver.Property.Requests

/-!
# Device failure

What `aoedev_downdev` leaves behind, from every state in which it is called.
-/

namespace AoeDriver

open Tables

/-- Nothing more is to be cut from bufs or taken from the request in process. -/
structure Spent (d : Aoedev) : Prop where
  bufs : ∀ b ∈ d.bufs, b.iter.size = 0
  ip : d.ip.rq = none ∨ d.ip.nxbio = none

section Spent

variable {d : Aoedev}

theorem Spent.endRequest (h : Spent d) (r : ℕ) (fastfail : Bool) : Spent (endRequest d r fastfail) := by
  refine ⟨h.bufs, ?_⟩
  rcases h.ip with hr | hn
  · left
    simp [AoeDriver.endRequest, hr]
  · exact .inr hn

private theorem failQueue_queue (q : List Request) (hq : d.queue = q) : (failQueue q d).queue = [] := by
  induction q generalizing d with
  | nil => exact hq
  | cons rq q ih => exact ih rfl

private theorem fastFail_queue (d : Aoedev) : (fastFail d).queue = [] := failQueue_queue d.queue rfl

private theorem failQueue_others (q : List Request) : (failQueue q d).bufs = d.bufs ∧
    (failQueue q d).ip.nxbio = d.ip.nxbio ∧ (d.ip.rq = none → (failQueue q d).ip.rq = none) := by
  induction q generalizing d with
  | nil => exact ⟨rfl, rfl, id⟩
  | cons rq q ih =>
    obtain ⟨h₁, h₂, h₃⟩ := @ih (endRequest { d with queue := q, rqs := rq :: d.rqs } rq.id true)
    refine ⟨h₁, h₂, fun hr => h₃ ?_⟩
    simp [endRequest, hr]

theorem Spent.fastFail (h : Spent d) : Spent (fastFail d) := by
  obtain ⟨h₁, h₂, h₃⟩ := failQueue_others (d := d) d.queue
  refine ⟨fun b hb => h.bufs b ?_, ?_⟩
  · rw [← h₁]
    exact hb
  · rcases h.ip with hr | hn
    · exact .inl (h₃ hr)
    · exact .inr (h₂.trans hn)

private theorem bufs_settleRun (hup : d.flags.up = false) (b : ℕ) {x : Buf} (hx : x ∈ (settleRun d b).bufs) :
    x ∈ d.bufs := by
  have hdrop {x : Buf} (hx : x ∈ (settle d b).bufs) : x ∈ d.bufs := by
    unfold settle closeBuf at hx
    split at hx
    · split at hx
      · have hx' : x ∈ (dropBuf d b).bufs := hx
        rw [bufs_dropBuf] at hx'
        exact (List.mem_filter.mp hx').1
      · rw [bufs_dropBuf] at hx
        exact (List.mem_filter.mp hx).1
    · exact hx
  rcases settleRun_cases d b with heq | heq
  · rw [heq] at hx
    exact hdrop hx
  · rw [heq, aoeblkRequest_down ((settle_aside b).up.trans hup), fastFail, (failQueue_others _).1] at hx
    exact hdrop hx

private theorem bios_rqAt_failNext (d : Aoedev) (r i : ℕ) :
    ((failNext d r i).rqAt r).bios.length = (d.rqAt r).bios.length := by
  have hfind (l : List Request) (g : Request → Request) (hid : ∀ x, (g x).id = x.id)
      (hlen : ∀ x, (g x).bios.length = x.bios.length) :
      (((l.map fun x => if x.id = r then g x else x).find? (·.id = r)).getD default).bios.length =
        ((l.find? (·.id = r)).getD default).bios.length := by
    induction l with
    | nil => rfl
    | cons x l ih =>
      by_cases hx : x.id = r
      · have hg : (g x).id = r := (hid x).trans hx
        simp [hx, hg, hlen]
      · rw [List.map_cons, if_neg hx, List.find?_cons_of_neg (by simpa using hx),
          List.find?_cons_of_neg (by simpa using hx)]
        exact ih
  simp only [failNext, Aoedev.setNxbio, Aoedev.modRq, Aoedev.rqAt, rqs_notePred]
  exact hfind d.rqs _ (fun _ => rfl) fun _ => List.length_modify _ _ _

theorem failBios_nxbio (r n : ℕ) (hn : ∀ i, d.ip.nxbio = some i → i < (d.rqAt r).bios.length ∧
    (d.rqAt r).bios.length ≤ n + i) : (failBios r n d).ip.nxbio = none := by
  induction n generalizing d with
  | zero =>
    cases hi : d.ip.nxbio with
    | none => exact hi
    | some i =>
      have hlt := hn i hi
      omega
  | succ n ih =>
    unfold failBios
    split
    · assumption
    · rename_i i hi
      have hlt := hn i hi
      apply ih
      intro j hj
      have hnext : (if i + 1 < (d.rqAt r).bios.length then some (i + 1) else none) = some j := hj
      rw [bios_rqAt_failNext]
      split at hnext
      · rw [Option.some.injEq] at hnext
        omega
      · exact absurd hnext (by simp)

private theorem failRq_spent {D L : Multiset Duty} (hup : d.flags.up = false) (hb : Books d.blk (Stage.refs ⟨d, D, L⟩))
    (hs : ∀ b ∈ d.bufs, b.iter.size = 0) : Spent (failRq d) := by
  unfold failRq
  split
  · rename_i hr
    exact ⟨hs, .inl hr⟩
  · rename_i r hr
    obtain ⟨rq, hrq, hid, hlt⟩ := hb.ipRq r hr
    have hat : d.rqAt r = rq := by rw [← hid, hb.rqAt_mem hrq]
    have hspent : Spent (failBios r (d.rqAt r).bios.length d) := by
      refine ⟨?_, .inr (failBios_nxbio r _ fun i hi => ⟨?_, Nat.le_add_right _ _⟩)⟩
      · rw [(failBios_others r _ d).1]
        exact hs
      · rw [hat]
        exact hlt i hi
    have hup' : (failBios r (d.rqAt r).bios.length d).flags.up = false := (failBios_aside r _).up.trans hup
    dsimp only
    split
    · have hend := hspent.endRequest r false
      rw [aoeEndRequest, aoeblkRequest_down ((endRequest_aside r false).up.trans hup')]
      exact hend.fastFail
    · exact hspent

private theorem aoeFailip_spent {D L : Multiset Duty} (hup : d.flags.up = false)
    (hb : Books d.blk (Stage.refs ⟨d, D, L⟩)) : Spent (aoeFailip d) := by
  cases hbuf : d.ip.buf with
  | none =>
    rw [aoeFailip_none hbuf]
    exact failRq_spent hup hb fun b hmem => hb.idle b hmem (by rw [show d.blk.ip.buf = none from hbuf]; simp)
  | some b =>
    have hup₁ : (spoilBuf d b).flags.up = false := (spoilBuf_aside b).up.trans hup
    have hposts : Posts ⟨d, D, L⟩ ⟨settleRun (spoilBuf d b) b, D, L⟩ := .head (.spoil hbuf) (settleRun_posts hup₁ b D L)
    rw [aoeFailip_some hbuf]
    refine failRq_spent ((settleRun_down hup₁ b).up.trans hup₁) (Posts.books hposts hb) ?_
    intro x hx
    have hx' : x ∈ (spoilBuf d b).bufs := bufs_settleRun hup₁ b hx
    obtain ⟨y, hy, rfl⟩ := List.mem_map.mp hx'
    split
    · rfl
    · rename_i hne
      refine hb.idle y hy fun hip => hne ?_
      have heq : some b = some y.id := hbuf.symm.trans hip
      exact (Option.some.inj heq).symm

private theorem downdevRest_spent {D L : Multiset Duty} (hup : d.flags.up = false)
    (hb : Books d.blk (Stage.refs ⟨d, D, L⟩)) : Spent (downdevRest d) ∧ (downdevRest d).queue = [] := by
  obtain ⟨ha, hp⟩ := aoeFailip_down hup
  have hs := aoeFailip_spent hup hb
  have hb' : Books (aoeFailip d).blk (Stage.refs ⟨aoeFailip d, D, L⟩) := Posts.books (hp D L) hb
  have hshut (e : Aoedev) (he : Spent e) (hq : e.queue = []) :
      Spent { e with gd := e.gd.map fun gd => { gd with capacity := 0 } } ∧
        ({ e with gd := e.gd.map fun gd => { gd with capacity := 0 } } : Aoedev).queue = [] := ⟨⟨he.bufs, he.ip⟩, hq⟩
  refine hshut (if (aoeFailip d).blkq then fastFail (aoeFailip d) else aoeFailip d) ?_ ?_
  · split
    · exact hs.fastFail
    · exact hs
  · split
    · exact fastFail_queue _
    · rename_i hk
      exact hb'.queued (eq_false_of_ne_true hk)

end Spent

/-- The requests that are waiting, started or ended. -/
def Blk.known (k : Blk) : List ℕ := k.queue.map Request.id ++ (k.rqs.map Request.id ++ k.ended.map (·.rq.id))

section Known

variable {d d' : Aoedev} {r : ℕ}

private theorem known_endRequest (q : ℕ) (fastfail : Bool) (hr : r ∈ d.blk.known) :
    r ∈ (endRequest d q fastfail).blk.known := by
  simp only [Blk.known, Aoedev.blk, endRequest, List.map_append, List.mem_append] at hr ⊢
  rcases hr with hr | hr | hr
  · exact .inl hr
  · obtain ⟨rq, hrq, rfl⟩ := List.mem_map.mp hr
    by_cases hid : rq.id = q
    · have hsome : (d.rqs.find? (·.id = q)).isSome = true := List.find?_isSome.mpr ⟨rq, hrq, by simpa using hid⟩
      obtain ⟨x, hx⟩ := Option.isSome_iff_exists.mp hsome
      have hxid := List.find?_some hx
      refine .inr (.inr (.inr ?_))
      simp only [Aoedev.rqAt, hx, Option.getD_some, List.map_cons, List.map_nil, List.mem_singleton]
      simp only [decide_eq_true_eq] at hxid
      rw [hid, hxid]
    · exact .inr (.inl (List.mem_map_of_mem (List.mem_filter.mpr ⟨hrq, by simpa using hid⟩)))
  · exact .inr (.inr (.inl hr))

private theorem known_congr (hq : d'.queue = d.queue) (hr : d'.rqs.map Request.id = d.rqs.map Request.id)
    (he : d'.hist.ended = d.hist.ended) : d'.blk.known = d.blk.known := by
  simp only [Blk.known, Aoedev.blk, hq, hr, he]

private theorem known_notePred (c : Counter) (n : ℕ) : (d.notePred c n).blk.known = d.blk.known := by
  unfold Aoedev.notePred
  split
  · rfl
  · rfl

private theorem known_modRq (q : ℕ) {g : Request → Request} (hg : ∀ x, (g x).id = x.id) :
    (d.modRq q g).blk.known = d.blk.known :=
  known_congr rfl (map_adjust Request.id fun x _ _ => hg x) rfl

private theorem known_dropBuf (b : ℕ) : (dropBuf d b).blk.known = d.blk.known := by
  have hbufs (d : Aoedev) (x : Option ℕ) (l : List Buf) : ({ d with ip.buf := x, bufs := l } : Aoedev).blk.known =
      d.blk.known := rfl
  unfold dropBuf
  dsimp only
  refine (known_modRq _ ?_).trans ?_
  · exact fun _ => rfl
  · rw [known_notePred, hbufs]

private theorem known_failBio (b : ℕ) : (failBio d b).blk.known = d.blk.known := known_modRq _ fun _ => rfl

private theorem known_decNframesout (b : ℕ) : (decNframesout d b).blk.known = d.blk.known := by
  have hbuf (d : Aoedev) (g : Buf → Buf) : (d.modBuf b g).blk.known = d.blk.known := rfl
  rw [decNframesout, hbuf, known_notePred]

private theorem known_spoilBuf (b : ℕ) : (spoilBuf d b).blk.known = d.blk.known := known_failBio b

private theorem known_settle (b : ℕ) (hr : r ∈ d.blk.known) : r ∈ (settle d b).blk.known := by
  have hdrop : r ∈ (dropBuf d b).blk.known := by rwa [known_dropBuf]
  unfold settle closeBuf
  split
  · split
    · exact known_endRequest _ _ hdrop
    · exact hdrop
  · exact hr

private theorem known_failBios (q n : ℕ) : (failBios q n d).blk.known = d.blk.known := by
  induction n generalizing d with
  | zero => rfl
  | succ n ih =>
    have hnx (d : Aoedev) (x : Option ℕ) : (d.setNxbio x).blk.known = d.blk.known := rfl
    unfold failBios
    split
    · rfl
    · rw [ih, failNext, hnx]
      refine (known_modRq _ ?_).trans (known_notePred _ _)
      exact fun _ => rfl

theorem Post.known {s s' : Stage} (p : Post s s') (hr : r ∈ s.dev.blk.known) : r ∈ s'.dev.blk.known := by
  cases p with
  | quiet hb hn hu =>
    have heq := Blk.core_field Blk.known (fun _ => rfl) hb
    exact heq ▸ hr
  | ready => exact hr
  | @queue d D L rq hk hf hid =>
    simp only [Blk.known, Aoedev.blk, List.map_append, List.mem_append] at hr ⊢
    rcases hr with hr | hr
    · exact .inl (.inl hr)
    · exact .inr hr
  | @start d D L rq q hq hn =>
    simp only [Blk.known, Aoedev.blk, hq, List.map_cons, List.mem_append, List.mem_cons] at hr
    simp only [Blk.known, Aoedev.blk, startRq, List.map_cons, List.mem_append, List.mem_cons]
    rcases hr with (hr | hr) | hr | hr
    · exact .inr (.inl (.inl hr))
    · exact .inl hr
    · exact .inr (.inl (.inr hr))
    · exact .inr (.inr hr)
  | take hb hr' hi => exact hr
  | cut hb hm hd hn hcmd hiter hx =>
    dsimp only at hr ⊢
    rw [hd]
    exact hr
  | @process d D L f x hx hp =>
    obtain ⟨processed, hn, -⟩ := noteProcessed_cases d f
    dsimp only at hr ⊢
    rcases ktioData_cases (noteProcessed d f) f with ⟨b, -, hk⟩ | ⟨mem, skb, hk⟩
    · rw [hk, hn, known_failBio]
      exact hr
    · rw [hk, hn]
      exact hr
  | finish =>
    refine known_settle _ ?_
    rw [known_decNframesout]
    exact hr
  | lose =>
    refine known_settle _ ?_
    rw [known_spoilBuf, known_decNframesout]
    exact hr
  | spoil hb =>
    refine known_settle _ ?_
    rw [known_spoilBuf]
    exact hr
  | @failRest d D L q hq =>
    have hr' : r ∈ (failBios q (d.rqAt q).bios.length d).blk.known := by rwa [known_failBios]
    dsimp only [AoeDriver.failRest]
    split
    · exact known_endRequest _ _ hr'
    · exact hr'
  | @failFirst d D L rq q hq =>
    refine known_endRequest _ _ ?_
    simp only [Blk.known, Aoedev.blk, hq, List.map_cons, List.mem_append, List.mem_cons] at hr ⊢
    rcases hr with (hr | hr) | hr | hr
    · exact .inr (.inl (.inl hr))
    · exact .inl hr
    · exact .inr (.inl (.inr hr))
    · exact .inr (.inr hr)

theorem Posts.known {s s' : Stage} (p : Posts s s') (hr : r ∈ s.dev.blk.known) : r ∈ s'.dev.blk.known := by
  induction p with
  | refl => exact hr
  | tail _ hp ih => exact hp.known ih

end Known

/-- The states in which `aoedev_downdev` is called: by `flush`, and by `rexmit_timer` in the middle of its work. -/
inductive Failing : Aoedev → Prop where
  | flush {d : Aoedev} {env : Env} {mode : FlushMode} (hd : Reached d) (ht : flushTakes { d with env := env } mode = true) :
      Failing { d with env := env }
  | timer {d : Aoedev} {env : Env} (hd : Reached d) (ha : d.rexmitArmed = true) (hk : d.flags.tkill = false)
      (hl : (timerExpire { d with env := env }).2 = true) : Failing (timerExpire { d with env := env }).1

/-- Some frame of request `r` is on a completion queue or in the hands of a thread. -/
def Aoedev.awaits (d : Aoedev) (r : ℕ) : Bool :=
  d.heldFrames.any fun f => d.bufs.any fun b => f.buf = some b.id ∧ b.rq = r

section Failure

variable {d : Aoedev}

theorem Failing.good (h : Failing d) : Good 0 d := by
  have henv {d : Aoedev} (hd : Reached d) (env : Env) : Good 0 { d with env := env } :=
    (outcomes_runs (C := Cond.any) (d := d) trivial).good (reachedBy_good hd).1
  cases h with
  | flush hd ht => exact henv hd _
  | @timer d env hd ha hk hl =>
    have hg := henv hd env
    obtain ⟨hm, hb, -⟩ := timerExpire_late hg.inv hl
    obtain ⟨hs, hp, hbcnt⟩ := pieces_of_moves (C := Cond.any) hm hb hg.inv
    exact ⟨Shifts.inv hs hg.inv, Posts.books hp hg.books, hbcnt hg.bcnt⟩

private theorem putAll_keeps {l : Ledger} {g : Frame} {i : ℕ} (fs : List Frame) (hg : g ∈ (l.slot i).free) :
    g ∈ ((l.putAll fs).slot i).free := by
  induction fs generalizing l with
  | nil => exact hg
  | cons f fs ih => exact ih ((Ledger.mem_free_put l f.blank i).mpr (.inr hg))

private theorem mem_putAll {l : Ledger} {fs : List Frame} {f : Frame} (hf : f ∈ fs) (ht : f.t < l.slots.length) :
    f.blank ∈ ((l.putAll fs).slot f.t).free := by
  induction fs generalizing l with
  | nil => exact absurd hf (by simp)
  | cons x fs ih =>
    rcases List.mem_cons.mp hf with rfl | hf
    · exact putAll_keeps fs ((Ledger.mem_free_put l f.blank f.t).mpr (.inl ⟨rfl, rfl, ht⟩))
    · exact ih hf (by rw [Ledger.length_put]; exact ht)

private theorem listed_back (hg : Good 0 d) {f : Frame} (hf : f ∈ d.listedFrames) :
    f.blank ∈ ((aoedevDowndev d).tgtAt f.t).ffree := by
  obtain ⟨fs, hfs, hl, -⟩ := downdevSweep_spec d
  have hl' := (downdevRest_spec (downdevSweep_up d)).1 0
  have hlt : f.t < (d.ledger 0).slots.length := by
    refine hg.inv.t_lt (Multiset.mem_map_of_mem _ ?_)
    have hmem : f ∈ (d.ledger 0).active + (d.ledger 0).deferred := by
      rw [← coe_listedFrames]
      exact hf
    simp only [Ledger.all, Ledger.inPlay, Ledger.pending, Multiset.mem_add] at hmem ⊢
    exact .inr (.inl (.inl hmem))
  have hlen : f.t < (Ledger.zeroed { d.ledger 0 with active := 0, deferred := 0 }).slots.length := by
    rw [Ledger.zeroed, List.length_map]
    exact hlt
  have hlong (l : Ledger) (fs : List Frame) : (l.putAll fs).slots.length = l.slots.length :=
    Ledger.putAll_field (fun l => l.slots.length) Ledger.length_put l fs
  have hslot : f.blank ∈ (((aoedevDowndev d).ledger 0).slot f.t).free := by
    rw [aoedevDowndev_eq, hl', hl]
    rcases List.mem_append.mp hf with hf | hf
    · exact putAll_keeps _ (mem_putAll hf hlen)
    · refine mem_putAll ?_ (by rwa [hlong])
      rw [← Multiset.mem_coe, hfs]
      exact hf
  rw [slot_ledger] at hslot
  exact hslot

theorem Spent.rest (hs : Spent d) (rq : Request) : d.blk.rest rq = 0 := by
  have hip : d.blk.ip = d.ip := rfl
  unfold Blk.rest
  rw [hip]
  rcases hs.ip with hn | hn
  · simp [hn]
  · simp [hn]

theorem Spent.held (hs : Spent d) (hg : Good 0 d) (hlist : d.listedFrames = []) {b : Buf} (hb : b ∈ d.bufs) :
    d.heldFrames.any (·.buf = some b.id) = true := by
  have hne := hg.books.live b hb (hs.bufs b hb)
  rw [hg.books.nframesout b hb, count_refs, Aoedev.framesOf, hlist, List.nil_append] at hne
  obtain ⟨f, hf, hfb⟩ := List.countP_pos_iff.mp (Nat.pos_of_ne_zero hne)
  exact List.any_eq_true.mpr ⟨f, hf, hfb⟩

/-- Every request is ended but those that wait for frames in other hands. -/
private theorem requests_drained {d' : Aoedev} (hg : Good 0 d') (hs : Spent d') (hq : d'.queue = [])
    (hlist : d'.listedFrames = []) {r : ℕ} (hr : r ∈ d'.blk.known) :
    (d'.awaits r = false → d'.hist.ended.countP (·.rq.id = r) = 1) ∧
    (d'.awaits r = true → d'.hist.ended.countP (·.rq.id = r) = 0 ∧ ∃ rq ∈ d'.rqs, rq.id = r ∧
      rq.special = d'.bufs.countP fun b => b.rq = r ∧ d'.heldFrames.any (·.buf = some b.id)) := by
  have hb := hg.books
  have hheld {b : Buf} (hmem : b ∈ d'.bufs) := hs.held hg hlist hmem
  have hopen {rq : Request} (hrq : rq ∈ d'.rqs) :
      rq.special = d'.bufs.countP fun b => b.rq = rq.id ∧ d'.heldFrames.any (·.buf = some b.id) := by
    have hsp := hb.special rq hrq
    rw [hs.rest, add_zero] at hsp
    rw [hsp]
    refine List.countP_congr fun b hmem => ?_
    simp [hheld hmem]
  have hwait {rq : Request} (hrq : rq ∈ d'.rqs) : d'.awaits rq.id = true := by
    have hpos := Nat.pos_of_ne_zero (hb.due rq hrq)
    rw [hopen hrq] at hpos
    obtain ⟨b, hmem, hcond⟩ := List.countP_pos_iff.mp hpos
    simp only [decide_eq_true_eq] at hcond
    obtain ⟨f, hf, hfb⟩ := List.any_eq_true.mp hcond.2
    refine List.any_eq_true.mpr ⟨f, hf, List.any_eq_true.mpr ⟨b, hmem, ?_⟩⟩
    simpa using ⟨by simpa using hfb, hcond.1⟩
  have hids := hb.ids
  have hqueue : d'.blk.queue = [] := hq
  rw [hqueue, List.map_nil, List.nil_append] at hids
  have hsplit : r ∈ d'.rqs.map Request.id ∨ r ∈ d'.hist.ended.map (·.rq.id) := by
    simp only [Blk.known, hqueue, List.map_nil, List.nil_append, List.mem_append] at hr
    exact hr
  have hcount : d'.hist.ended.countP (·.rq.id = r) = (d'.hist.ended.map (·.rq.id)).count r := by
    rw [List.count, List.countP_map]
    refine List.countP_congr fun e _ => ?_
    simp
  obtain ⟨-, hnodup, hdisj⟩ := List.nodup_append.mp hids
  rw [hcount]
  refine ⟨fun ha => ?_, fun ha => ?_⟩
  · rcases hsplit with hrq | he
    · obtain ⟨rq, hmem, rfl⟩ := List.mem_map.mp hrq
      exact absurd ((hwait hmem).symm.trans ha) Bool.noConfusion
    · exact List.count_eq_one_of_mem hnodup he
  · obtain ⟨f, hf, hany⟩ := List.any_eq_true.mp ha
    obtain ⟨b, hmem, hcond⟩ := List.any_eq_true.mp hany
    obtain ⟨rq, hrq, hid, -⟩ := hb.bufRq b hmem
    have hrid : rq.id = r := hid.trans (of_decide_eq_true hcond).2
    refine ⟨?_, rq, hrq, hrid, ?_⟩
    · refine List.count_eq_zero.mpr fun he => ?_
      exact hdisj r (List.mem_map.mpr ⟨rq, hrq, hrid⟩) r he rfl
    · rw [hopen hrq, hrid]

theorem downdev_good (hg : Good 0 d) : Good 0 (aoedevDowndev d) :=
  (aoedevDowndev_runs (C := Cond.any) (d := d) trivial).good hg

theorem downdev_spent (hg : Good 0 d) : Spent (aoedevDowndev d) ∧ (aoedevDowndev d).queue = [] := by
  have hsweep := (downdevSweep_runs (C := Cond.any) (d := d) trivial).good hg
  exact downdevRest_spent (downdevSweep_up d) hsweep.books

private theorem downdev_rexmitq (d : Aoedev) : (aoedevDowndev d).rexmitq = [] := by
  obtain ⟨fs, -, hl, -⟩ := downdevSweep_spec d
  have hl' := congrArg Ledger.deferred ((downdevRest_spec (downdevSweep_up d)).1 0)
  rw [hl, Ledger.putAll_field Ledger.deferred (fun _ _ => rfl), Ledger.putAll_field Ledger.deferred (fun _ _ => rfl)] at hl'
  have hzero : ((aoedevDowndev d).rexmitq : Multiset Frame) + (0 : Hands).deferred = 0 := hl'
  exact (Multiset.coe_eq_zero _).mp (add_eq_zero.mp hzero).1

theorem downdev_listed (d : Aoedev) : (aoedevDowndev d).listedFrames = [] := by
  rw [Aoedev.listedFrames, downdev_rexmitq, List.append_nil, Aoedev.activeFrames, aoedevDowndev_factive]
  simp

theorem downdev_held (d : Aoedev) : (aoedevDowndev d).heldFrames = d.heldFrames := by
  have ho := aoedevDowndev_outer d
  have hiocq : (aoedevDowndev d).iocq = d.iocq := congrArg Blk.iocq ho
  have hth : (aoedevDowndev d).threads = d.threads := congrArg Blk.threads ho
  rw [Aoedev.heldFrames, Aoedev.heldFrames, hiocq, hth]

end Failure

/-- After `aoedev_downdev` the lists and the queue are empty, and what is not ended waits for frames in other hands. -/
theorem downdev_drains {d : Aoedev} (h : Failing d) :
    (aoedevDowndev d).flags.up = false ∧
    (∀ n, (aoedevDowndev d).factive n = []) ∧ (aoedevDowndev d).rexmitq = [] ∧
    (∀ f ∈ d.listedFrames, f.blank ∈ ((aoedevDowndev d).tgtAt f.t).ffree) ∧
    (∀ t ∈ (aoedevDowndev d).targets, t.nout = 0 ∧ t.maxout = 1) ∧
    (aoedevDowndev d).queue = [] ∧
    (aoedevDowndev d).heldFrames = d.heldFrames ∧
    ∀ rq ∈ d.queue ++ d.rqs,
      ((aoedevDowndev d).awaits rq.id = false → (aoedevDowndev d).hist.ended.countP (·.rq.id = rq.id) = 1) ∧
      ((aoedevDowndev d).awaits rq.id = true → (aoedevDowndev d).hist.ended.countP (·.rq.id = rq.id) = 0 ∧
        ∃ rq' ∈ (aoedevDowndev d).rqs, rq'.id = rq.id ∧ rq'.special = (aoedevDowndev d).bufs.countP fun b =>
          b.rq = rq.id ∧ (aoedevDowndev d).heldFrames.any (·.buf = some b.id)) := by
  have hg := h.good
  have hr := aoedevDowndev_runs (C := Cond.any) (d := d) trivial
  have hup := downdevSweep_up d
  obtain ⟨hspent, hqueue⟩ := downdev_spent hg
  have ho := aoedevDowndev_outer d
  have hfact := aoedevDowndev_factive d
  refine ⟨congrArg Blk.up ho, fun n => ?_, downdev_rexmitq d, fun f hf => listed_back hg hf, ?_, hqueue, downdev_held d, ?_⟩
  · rw [hfact]
  · have htargets : (aoedevDowndev d).targets = (downdevSweep d).targets := (downdevRest_spec hup).2.2.1
    rw [htargets]
    intro t ht
    obtain ⟨x, -, rfl⟩ := List.mem_map.mp ht
    exact ⟨rfl, rfl⟩
  · intro rq hrq
    refine requests_drained (downdev_good hg) hspent hqueue (downdev_listed d) (Posts.known hr.posts ?_)
    have hknown : rq.id ∈ d.queue.map Request.id ∨ rq.id ∈ d.rqs.map Request.id := by
      rcases List.mem_append.mp hrq with hrq | hrq
      · exact .inl (List.mem_map_of_mem hrq)
      · exact .inr (List.mem_map_of_mem hrq)
    simp only [Blk.known, List.mem_append]
    rcases hknown with hk | hk
    · exact .inl hk
    · exact .inr (.inl hk)

def sampleGone : Scene unguarded sampleStart sampleEvents
    (fun d => flushTakes { d with env := default } .named && (aoedevDowndev { d with env := default }).awaits 7 &&
      (d.queue ++ d.rqs).any fun rq => rq.id == 7) :=
  ⟨by decide +kernel⟩

/-- The request of the sample run waits for the frame that has been answered. -/
theorem downdev_drains_sample : (aoedevDowndev { sample with env := default }).rexmitq = [] ∧
    (aoedevDowndev { sample with env := default }).awaits 7 = true ∧
    (aoedevDowndev { sample with env := default }).hist.ended.countP (·.rq.id = 7) = 0 := by
  obtain ⟨hreach, htest⟩ := sampleGone.sample
  generalize sample = d at hreach htest ⊢
  simp only [Bool.and_eq_true, List.any_eq_true, beq_iff_eq] at htest
  obtain ⟨⟨ht, ha⟩, rq, hmem, hid⟩ := htest
  have h := downdev_drains (Failing.flush hreach ht)
  have hwait := (h.2.2.2.2.2.2.2 rq hmem).2
  rw [hid] at hwait
  exact ⟨h.2.2.1, ha, (hwait ha).1⟩

end AoeDriver
