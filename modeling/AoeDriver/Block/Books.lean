import AoeDriver.Frames.View

/-!
# The books of the block side

Which bufs and requests are open, how often frames refer to them and what is still to come. `B` stands for the bufs
that the frames in use refer to, with multiplicity.
-/

namespace AoeDriver

open Tables

/-- Bios of `rq` that `nextbuf` has still to take. -/
def Blk.rest (k : Blk) (rq : Request) : ℕ :=
  if k.ip.rq = some rq.id then
    match k.ip.nxbio with
    | some i => rq.bios.length - i
    | none => 0
  else 0

/-- The account. -/
structure Acct (k : Blk) (B : Multiset ℕ) : Prop where
  ids : (k.queue.map Request.id ++ (k.rqs.map Request.id ++ k.ended.map (·.rq.id))).Nodup
  bufIds : (k.bufs.map Buf.id).Nodup
  bufLt : ∀ b ∈ k.bufs, b.id < k.bufIds
  bufRq : ∀ b ∈ k.bufs, ∃ rq ∈ k.rqs, rq.id = b.rq ∧ b.bio < rq.bios.length
  bufTaken : ∀ b ∈ k.bufs, (b.rq, b.bio) ∈ k.taken
  bioOnce : (k.bufs.map fun b => (b.rq, b.bio)).Nodup
  held : ∀ n ∈ B, n ∈ k.bufs.map Buf.id
  nframesout : ∀ b ∈ k.bufs, b.nframesout = B.count b.id
  idle : ∀ b ∈ k.bufs, k.ip.buf ≠ some b.id → b.iter.size = 0
  ipBuf : ∀ n, k.ip.buf = some n → n ∈ k.bufs.map Buf.id
  special : ∀ rq ∈ k.rqs, rq.special = k.bufs.countP (·.rq = rq.id) + k.rest rq
  ipRq : ∀ r, k.ip.rq = some r → ∃ rq ∈ k.rqs, rq.id = r ∧ ∀ i, k.ip.nxbio = some i → i < rq.bios.length
  ipTaken : ∀ p ∈ k.taken, k.ip.rq = some p.1 → ∀ i, k.ip.nxbio = some i → p.2 < i
  started : ∀ p ∈ k.taken, p.1 ∈ k.rqs.map Request.id ++ k.ended.map (·.rq.id)
  fresh : ∀ rq ∈ k.queue, rq.fresh = true
  queued : k.blkq = false → k.queue = []
  sized : ∀ rq ∈ k.rqs, ∀ bio ∈ rq.bios, bio.iter.size ≠ 0
  ended : ∀ e ∈ k.ended, (e.fastfail = false → e.rq.special = 0) ∧
    (e.fastfail = true → ∀ i, (e.rq.id, i) ∉ k.taken)
  underflow : ∀ c ∈ k.underflow, c = .ref

/-- The account between two operations: every open buf still has something to wait for, and so has every request. -/
structure Books (k : Blk) (B : Multiset ℕ) : Prop extends Acct k B where
  live : ∀ b ∈ k.bufs, b.iter.size = 0 → b.nframesout ≠ 0
  due : ∀ rq ∈ k.rqs, rq.special ≠ 0

namespace Acct

variable {k : Blk} {B : Multiset ℕ} {d : Aoedev}

private theorem rqIds (h : Acct k B) : (k.rqs.map Request.id).Nodup :=
  (List.nodup_append.mp (List.nodup_append.mp h.ids).2.1).1

theorem rqAt_mem (h : Acct d.blk B) {rq : Request} (hrq : rq ∈ d.rqs) : d.rqAt rq.id = rq := by
  have hf := find_of_nodup (l := d.rqs) h.rqIds hrq
  rw [Aoedev.rqAt, hf, Option.getD_some]

theorem bufAt_mem (h : Acct d.blk B) {b : Buf} (hb : b ∈ d.bufs) : d.bufAt b.id = b := by
  have hf := find_of_nodup (l := d.bufs) h.bufIds hb
  rw [Aoedev.bufAt, hf, Option.getD_some]

theorem buf_of_mem (h : Acct d.blk B) {n : ℕ} (hn : n ∈ d.bufs.map Buf.id) :
    d.bufAt n ∈ d.bufs ∧ (d.bufAt n).id = n ∧ d.rqAt (d.bufAt n).rq ∈ d.rqs ∧
      (d.rqAt (d.bufAt n).rq).id = (d.bufAt n).rq ∧ (d.bufAt n).bio < (d.rqAt (d.bufAt n).rq).bios.length := by
  obtain ⟨b, hb, rfl⟩ := List.mem_map.mp hn
  obtain ⟨rq, hrq, hid, hlt⟩ := h.bufRq b hb
  rw [h.bufAt_mem hb, ← hid, h.rqAt_mem hrq]
  exact ⟨hb, rfl, hrq, rfl, hlt⟩

theorem queue_not_rqs (h : Acct k B) {rq rq' : Request} (hq : rq ∈ k.queue) (hr : rq' ∈ k.rqs) : rq.id ≠ rq'.id := by
  have hd := (List.nodup_append.mp h.ids).2.2
  exact hd _ (List.mem_map_of_mem hq) _ (List.mem_append_left _ (List.mem_map_of_mem hr))

theorem rqs_not_ended (h : Acct k B) {rq : Request} {e : Ended} (hr : rq ∈ k.rqs) (he : e ∈ k.ended) :
    rq.id ≠ e.rq.id := by
  have hd := (List.nodup_append.mp (List.nodup_append.mp h.ids).2.1).2.2
  exact hd _ (List.mem_map_of_mem hr) _ (List.mem_map_of_mem he)

theorem not_queued (h : Acct k B) {p : ℕ × ℕ} (hp : p ∈ k.taken) : p.1 ∉ k.queue.map Request.id := by
  intro hm
  exact (List.nodup_append.mp h.ids).2.2 _ hm _ (h.started p hp) rfl

theorem countP_eq_zero (h : Acct k B) {r : ℕ} (hr : ∀ rq ∈ k.rqs, rq.id ≠ r) : k.bufs.countP (·.rq = r) = 0 := by
  rw [List.countP_eq_zero]
  intro b hb
  obtain ⟨rq, hrq, hid, -⟩ := h.bufRq b hb
  simpa [← hid] using hr rq hrq

end Acct

theorem fresh_iff {rq : Request} : rq.fresh = true ↔
    rq.bios ≠ [] ∧ ∀ bio ∈ rq.bios, bio.iter.size ≠ 0 ∧ bio.error = false := by
  simp [Request.fresh]

section Take

variable {d : Aoedev} {B : Multiset ℕ}

theorem Books.startRq (h : Books d.blk B) {rq : Request} {q : List Request} (hq : d.queue = rq :: q)
    (hr : d.ip.rq = none) : Books (startRq d rq q).blk B := by
  have hmem : rq ∈ d.queue := by simp [hq]
  obtain ⟨hne, hbios⟩ := fresh_iff.mp (h.fresh rq hmem)
  have hnew : ∀ x ∈ d.rqs, x.id ≠ rq.id := fun x hx => (h.queue_not_rqs hmem hx).symm
  have hrest : ∀ x ∈ d.rqs, (AoeDriver.startRq d rq q).blk.rest x = d.blk.rest x := by
    intro x hx
    simp [Blk.rest, AoeDriver.startRq, Aoedev.blk, hr, (hnew x hx).symm]
  have hkeep : d.blkq = false → q = [] := fun hk => absurd (hq.symm.trans (h.queued hk)) (List.cons_ne_nil _ _)
  refine { h with
    ids := ?_, bufRq := ?_, special := ?_, ipRq := ?_, ipTaken := ?_, started := ?_, fresh := ?_, queued := hkeep
    sized := ?_, due := ?_ }
  · have hids := h.ids
    simp only [Aoedev.blk, hq, List.map_cons, List.cons_append] at hids
    have hp : (q.map Request.id ++ (rq.id :: (d.rqs.map Request.id ++ d.hist.ended.map (·.rq.id)))).Perm
        (rq.id :: (q.map Request.id ++ (d.rqs.map Request.id ++ d.hist.ended.map (·.rq.id)))) := List.perm_middle
    exact hp.nodup_iff.mpr hids
  · intro b hb
    obtain ⟨x, hx, hid⟩ := h.bufRq b hb
    exact ⟨x, List.mem_cons_of_mem _ hx, hid⟩
  · intro x hx
    rcases List.mem_cons.mp hx with rfl | hx
    · have h0 := h.countP_eq_zero hnew
      simp only [Aoedev.blk] at h0
      simp [Blk.rest, AoeDriver.startRq, Aoedev.blk, hne, h0]
    · rw [hrest x hx]
      exact h.special x hx
  · intro r hr'
    simp only [AoeDriver.startRq, Aoedev.blk, Option.some.injEq, hne, if_false] at hr' ⊢
    subst hr'
    refine ⟨_, List.mem_cons_self, rfl, ?_⟩
    intro i hi
    subst hi
    exact List.length_pos_iff.mpr hne
  · intro p hp hpr
    have hst := h.not_queued hp
    simp only [AoeDriver.startRq, Aoedev.blk, Option.some.injEq] at hpr hst
    exact absurd (List.mem_map_of_mem hmem) (hpr ▸ hst)
  · intro p hp
    exact List.mem_cons_of_mem _ (h.started p hp)
  · intro x hx
    apply h.fresh x
    simp only [Aoedev.blk, hq]
    exact List.mem_cons_of_mem _ hx
  · intro x hx bio hbio
    rcases List.mem_cons.mp hx with rfl | hx
    · exact (hbios bio hbio).1
    · exact h.sized x hx bio hbio
  · intro x hx
    rcases List.mem_cons.mp hx with rfl | hx
    · simpa using hne
    · exact h.due x hx

theorem Books.takeBio (h : Books d.blk B) {r i : ℕ} (hb : d.ip.buf = none) (hr : d.ip.rq = some r)
    (hi : d.ip.nxbio = some i) : Books (takeBio d r i).blk B := by
  obtain ⟨rq, hrq, rfl, hlt⟩ := h.ipRq r hr
  have hlt := hlt i hi
  have hat : d.rqAt rq.id = rq := h.rqAt_mem hrq
  have hbio : d.bioAt rq.id i = rq.bios[i] := by
    rw [Aoedev.bioAt, hat, List.getD_eq_getElem _ _ hlt]
  have hnot : (rq.id, i) ∉ d.hist.taken := fun hm => lt_irrefl i (h.ipTaken _ hm hr i hi)
  have hrest : ∀ x ∈ d.rqs, d.blk.rest x = (AoeDriver.takeBio d rq.id i).blk.rest x + if x.id = rq.id then 1 else 0 := by
    intro x hx
    by_cases hid : x.id = rq.id
    · have hxr : x = rq := by rw [← h.rqAt_mem hx, hid, hat]
      subst hxr
      by_cases hl : i + 1 < x.bios.length
      · simp [Blk.rest, AoeDriver.takeBio, Aoedev.blk, hr, hi, hat, hl]
        omega
      · simp [Blk.rest, AoeDriver.takeBio, Aoedev.blk, hr, hi, hat, hl]
        omega
    · have hid' : rq.id ≠ x.id := fun he => hid he.symm
      by_cases hl : i + 1 < rq.bios.length
      · simp [Blk.rest, AoeDriver.takeBio, Aoedev.blk, hr, hat, hl, hid, hid']
      · simp [Blk.rest, AoeDriver.takeBio, Aoedev.blk, hr, hat, hl, hid, hid']
  refine { h with
    bufIds := ?_, bufLt := ?_, bufRq := ?_, bufTaken := ?_, bioOnce := ?_, held := ?_, nframesout := ?_, idle := ?_
    ipBuf := ?_, special := ?_, ipRq := ?_, ipTaken := ?_, started := ?_, ended := ?_, live := ?_ }
  · simp only [AoeDriver.takeBio, Aoedev.blk, List.map_cons, List.nodup_cons]
    refine ⟨?_, h.bufIds⟩
    intro hm
    obtain ⟨b, hb', he⟩ := List.mem_map.mp hm
    exact absurd he (h.bufLt b hb').ne
  · intro b hb'
    rcases List.mem_cons.mp hb' with rfl | hb'
    · exact Nat.lt_succ_self _
    · exact Nat.lt_succ_of_lt (h.bufLt b hb')
  · intro b hb'
    rcases List.mem_cons.mp hb' with rfl | hb'
    · exact ⟨rq, hrq, rfl, hlt⟩
    · exact h.bufRq b hb'
  · intro b hb'
    rcases List.mem_cons.mp hb' with rfl | hb'
    · exact List.mem_append_right _ (by simp)
    · exact List.mem_append_left _ (h.bufTaken b hb')
  · simp only [AoeDriver.takeBio, Aoedev.blk, List.map_cons, List.nodup_cons]
    refine ⟨?_, h.bioOnce⟩
    intro hm
    obtain ⟨b, hb', he⟩ := List.mem_map.mp hm
    exact hnot (he ▸ h.bufTaken b hb')
  · intro n hn
    exact List.mem_cons_of_mem _ (h.held n hn)
  · intro b hb'
    rcases List.mem_cons.mp hb' with rfl | hb'
    · refine (Multiset.count_eq_zero.mpr ?_).symm
      intro hm
      obtain ⟨x, hx, he⟩ := List.mem_map.mp (h.held _ hm)
      exact absurd he (h.bufLt x hx).ne
    · exact h.nframesout b hb'
  · intro b hb' hne
    rcases List.mem_cons.mp hb' with rfl | hb'
    · exact absurd rfl hne
    · refine h.idle b hb' ?_
      simp [Aoedev.blk, hb]
  · intro n hn
    simp only [AoeDriver.takeBio, Aoedev.blk, Option.some.injEq] at hn
    subst hn
    exact List.mem_cons_self
  · intro x hx
    have hs := h.special x hx
    rw [hrest x hx] at hs
    simp only [AoeDriver.takeBio, Aoedev.blk, List.countP_cons, decide_eq_true_eq] at hs ⊢
    rw [hs]
    simp only [eq_comm (a := x.id)]
    omega
  · intro r' hr'
    have hr'' : rq.id = r' ∧ i + 1 < rq.bios.length := by
      by_cases hl : i + 1 < rq.bios.length
      · simp [AoeDriver.takeBio, Aoedev.blk, hat, hl] at hr'
        exact ⟨hr', hl⟩
      · simp [AoeDriver.takeBio, Aoedev.blk, hat, hl] at hr'
    obtain ⟨rfl, hl⟩ := hr''
    refine ⟨rq, hrq, rfl, ?_⟩
    intro j hj
    simp only [AoeDriver.takeBio, Aoedev.blk, hat, hl, if_true, Option.some.injEq] at hj
    omega
  · intro p hp hpr j hj
    have hl : i + 1 < rq.bios.length := by
      by_contra hl
      simp [AoeDriver.takeBio, Aoedev.blk, hat, hl] at hj
    simp only [AoeDriver.takeBio, Aoedev.blk, hat, hl, if_true, Option.some.injEq] at hj
    simp only [AoeDriver.takeBio, Aoedev.blk, hat, hl, if_true, Option.isNone_some, Bool.false_eq_true, if_false] at hpr
    rcases List.mem_append.mp hp with hp | hp
    · have := h.ipTaken p hp (hr.trans hpr) i hi
      omega
    · rw [List.mem_singleton.mp hp]
      omega
  · intro p hp
    rcases List.mem_append.mp hp with hp | hp
    · exact h.started p hp
    · rw [List.mem_singleton.mp hp]
      exact List.mem_append_left _ (List.mem_map_of_mem hrq)
  · intro e he
    refine ⟨(h.ended e he).1, fun hf j hm => ?_⟩
    rcases List.mem_append.mp hm with hm | hm
    · exact (h.ended e he).2 hf j hm
    · simp only [List.mem_singleton, Prod.mk.injEq] at hm
      exact h.rqs_not_ended hrq he hm.1.symm
  · intro b hb' hsize
    rcases List.mem_cons.mp hb' with rfl | hb'
    · refine absurd hsize ?_
      simp only [hbio]
      exact h.sized rq hrq _ (List.getElem_mem hlt)
    · exact h.live b hb' hsize

end Take

section Change

variable {d : Aoedev} {B B' : Multiset ℕ} {b r : ℕ}

theorem Acct.modBuf (h : Acct d.blk B) {g : Buf → Buf} (hid : ∀ x, (g x).id = x.id) (hrq : ∀ x, (g x).rq = x.rq)
    (hbio : ∀ x, (g x).bio = x.bio) (hheld : ∀ n ∈ B', n ∈ d.bufs.map Buf.id)
    (hn : ∀ x ∈ d.bufs, (if x.id = b then g x else x).nframesout = B'.count x.id)
    (hidle : d.ip.buf ≠ some b → ∀ x ∈ d.bufs, x.id = b → (g x).iter.size = 0) : Acct (d.modBuf b g).blk B' := by
  have hids : (d.modBuf b g).bufs.map Buf.id = d.bufs.map Buf.id := map_adjust Buf.id fun x _ _ => hid x
  have hcount (r : ℕ) : (d.modBuf b g).bufs.countP (·.rq = r) = d.bufs.countP (·.rq = r) :=
    countP_adjust fun x _ _ => by rw [hrq]
  -- a field about every buf is checked at the bufs before the change
  have hall {P : Buf → Prop} (hP : ∀ x ∈ d.bufs, P (if x.id = b then g x else x)) : ∀ x ∈ (d.modBuf b g).blk.bufs, P x :=
    List.forall_mem_map.mpr hP
  refine { h with
    bufIds := ?_, bufLt := hall ?_, bufRq := hall ?_, bufTaken := hall ?_, bioOnce := ?_, held := ?_
    nframesout := hall ?_, idle := hall ?_, ipBuf := ?_, special := ?_ }
  · exact hids ▸ h.bufIds
  · intro x hx
    have hlt := h.bufLt x hx
    split
    · rw [hid]
      exact hlt
    · exact hlt
  · intro x hx
    have hex := h.bufRq x hx
    split
    · rw [hrq, hbio]
      exact hex
    · exact hex
  · intro x hx
    have ht := h.bufTaken x hx
    split
    · rw [hrq, hbio]
      exact ht
    · exact ht
  · have hm : (d.modBuf b g).bufs.map (fun x => (x.rq, x.bio)) = d.bufs.map fun x => (x.rq, x.bio) :=
      map_adjust _ fun x _ _ => by rw [hrq, hbio]
    exact hm ▸ h.bioOnce
  · intro n hn
    exact hids ▸ hheld n hn
  · intro x hx
    rw [hn x hx]
    split
    · rw [hid]
    · rfl
  · intro x hx hne
    split at hne
    · rename_i hxb
      rw [if_pos hxb]
      rw [hid, hxb] at hne
      exact hidle hne x hx hxb
    · rename_i hxb
      rw [if_neg hxb]
      exact h.idle x hx hne
  · intro n hn
    exact hids ▸ h.ipBuf n hn
  · intro rq hrq
    exact (h.special rq hrq).trans (congrArg (· + _) (hcount rq.id).symm)

theorem Acct.modRq (h : Acct d.blk B) {g : Request → Request} (hid : ∀ x, (g x).id = x.id)
    (hlen : ∀ x, (g x).bios.length = x.bios.length)
    (hsize : ∀ x ∈ d.rqs, ∀ bio ∈ (g x).bios, bio.iter.size ≠ 0)
    (hspecial : ∀ x ∈ d.rqs, x.id = r → (g x).special = x.special) : Acct (d.modRq r g).blk B := by
  have hids : (d.modRq r g).rqs.map Request.id = d.rqs.map Request.id := map_adjust Request.id fun x _ _ => hid x
  have hall {P : Request → Prop} (hP : ∀ x ∈ d.rqs, P (if x.id = r then g x else x)) :
      ∀ x ∈ (d.modRq r g).blk.rqs, P x := List.forall_mem_map.mpr hP
  have hex {x : Request} (hx : x ∈ d.rqs) : ∃ y ∈ (d.modRq r g).rqs, y.id = x.id ∧ y.bios.length = x.bios.length := by
    refine ⟨_, List.mem_map_of_mem hx, ?_⟩
    split
    · exact ⟨hid x, hlen x⟩
    · exact ⟨rfl, rfl⟩
  refine { h with ids := ?_, bufRq := ?_, special := hall ?_, ipRq := ?_, started := ?_, sized := hall ?_ }
  · have h' := h.ids
    simp only [Aoedev.blk] at h' ⊢
    rw [hids]
    exact h'
  · intro x hx
    obtain ⟨rq, hrq, hxr, hlt⟩ := h.bufRq x hx
    obtain ⟨y, hy, hyid, hylen⟩ := hex hrq
    exact ⟨y, hy, hyid.trans hxr, hylen ▸ hlt⟩
  · intro x hx
    have hs := h.special x hx
    have hrest : (d.modRq r g).blk.rest (g x) = d.blk.rest x := by
      simp only [Blk.rest, hid, hlen]
      rfl
    split
    · rename_i hxr
      rw [hspecial x hx hxr, hs, hrest, hid]
      rfl
    · exact hs
  · intro n hn
    obtain ⟨rq, hrq, hxr, hlt⟩ := h.ipRq n hn
    obtain ⟨y, hy, hyid, hylen⟩ := hex hrq
    exact ⟨y, hy, hyid.trans hxr, fun i hi => hylen ▸ hlt i hi⟩
  · intro p hp
    have h' := h.started p hp
    simp only [Aoedev.blk] at h' ⊢
    rw [hids]
    exact h'
  · intro x hx
    split
    · exact hsize x hx
    · exact h.sized x hx

/-- One more frame is cut from the buf in process. -/
theorem Books.cutBuf (h : Books d.blk B) (hb : d.ip.buf = some b) : Books (cutBuf d b).blk (b ::ₘ B) := by
  unfold AoeDriver.cutBuf
  extract_lets buf rest
  let g : Buf → Buf := fun x => { x with iter := rest, nframesout := x.nframesout + 1 }
  have hmem : b ∈ d.bufs.map Buf.id := h.ipBuf b hb
  have hacct : Acct (d.modBuf b g).blk (b ::ₘ B) := by
    refine h.toAcct.modBuf (fun _ => rfl) (fun _ => rfl) (fun _ => rfl) ?_ ?_ (fun hne => absurd hb hne)
    · intro n hn
      rcases Multiset.mem_cons.mp hn with rfl | hn
      · exact hmem
      · exact h.held n hn
    · intro x hx
      have hn := h.nframesout x hx
      rw [Multiset.count_cons]
      split
      · rename_i hxb
        simp only [g, hn, hxb]
      · exact hn
  have hall {P : Buf → Prop} (hP : ∀ x ∈ d.bufs, P (if x.id = b then g x else x)) : ∀ x ∈ (d.modBuf b g).bufs, P x :=
    List.forall_mem_map.mpr hP
  refine { hacct with idle := hall ?_, ipBuf := ?_, live := hall ?_, due := h.due }
  · intro x hx hne
    split
    · -- the buf in process leaves `ip` when it is used up
      rename_i hxb
      rw [if_pos hxb] at hne
      by_contra hsize
      apply hne
      simp only [Aoedev.blk, if_neg hsize, hb, g, hxb]
    · rename_i hxb
      rw [if_neg hxb] at hne
      refine h.idle x hx ?_
      intro he
      rw [show d.blk.ip.buf = some b from hb, Option.some.injEq] at he
      exact hxb he.symm
  · intro n hn
    refine hacct.ipBuf n ?_
    simp only [Aoedev.blk] at hn
    split at hn
    · simp at hn
    · exact hn
  · intro x hx
    split
    · exact fun _ => Nat.succ_ne_zero _
    · exact h.live x hx

theorem Acct.decNframesout (h : Acct d.blk (b ::ₘ B)) : Acct (decNframesout d b).blk B := by
  obtain ⟨hmem, hid, -⟩ := h.buf_of_mem (h.held b (by simp))
  have hpos : (d.bufAt b).nframesout ≠ 0 := by
    have hn := h.nframesout _ hmem
    rw [hid, Multiset.count_cons_self] at hn
    omega
  have hnote : d.notePred .nframesout (d.bufAt b).nframesout = d := by rw [Aoedev.notePred, if_neg hpos]
  unfold AoeDriver.decNframesout
  rw [hnote]
  refine h.modBuf (fun _ => rfl) (fun _ => rfl) (fun _ => rfl) ?_ ?_ ?_
  · intro n hn
    exact h.held n (Multiset.mem_cons_of_mem hn)
  · intro x hx
    have hn := h.nframesout x hx
    split
    · rename_i hxb
      rw [hxb, Multiset.count_cons_self] at hn
      simp only [predUlong, hn, hxb]
      rfl
    · rename_i hxb
      rw [Multiset.count_cons_of_ne (fun he => hxb he)] at hn
      exact hn
  · intro hne x hx hxb
    exact h.idle x hx (by rw [hxb]; exact hne)

theorem Acct.failBio (h : Acct d.blk B) : Acct (failBio d b).blk B := by
  refine h.modRq (fun _ => rfl) (fun _ => by simp) ?_ (fun _ _ _ => rfl)
  intro x hx
  exact forall_mem_modify (p := fun bio : Bio => bio.iter.size ≠ 0) (h.sized x hx) fun _ hne => hne

theorem Acct.spoilBuf (h : Acct d.blk B) : Acct (spoilBuf d b).blk B := by
  refine Acct.failBio (h.modBuf (fun _ => rfl) (fun _ => rfl) (fun _ => rfl) h.held ?_ fun _ _ _ _ => rfl)
  intro x hx
  have hn := h.nframesout x hx
  split
  · exact hn
  · exact hn

/-- A buf that no frame refers to any more is released. -/
theorem Acct.dropBuf (h : Acct d.blk B) (hb : b ∈ d.bufs.map Buf.id) (hfree : b ∉ B) : Acct (dropBuf d b).blk B := by
  obtain ⟨hmem, hid, hrq, hrid, hlt⟩ := h.buf_of_mem hb
  let r := (d.bufAt b).rq
  let n := (d.rqAt r).special
  let d₁ : Aoedev := { d with
    ip.buf := if d.ip.buf = some b then none else d.ip.buf, bufs := d.bufs.filter (·.id ≠ b) }
  have hcount (s : ℕ) : d.bufs.countP (·.rq = s) = d₁.bufs.countP (·.rq = s) + if r = s then 1 else 0 := by
    have hc := countP_remove (l := d.bufs) (p := fun x => decide (x.rq = s)) h.bufIds hmem
    simp only [hid, decide_eq_true_eq] at hc
    exact hc
  have hpos : n ≠ 0 := by
    have hs := h.special _ hrq
    have hc := hcount r
    rw [if_pos rfl] at hc
    rw [hrid] at hs
    have hs' : n = d.bufs.countP (·.rq = r) + d.blk.rest (d.rqAt r) := hs
    omega
  have hd : AoeDriver.dropBuf d b = d₁.modRq r fun rq => { rq with special := predUlong n } := by
    have hnote : d₁.notePred .special n = d₁ := by rw [Aoedev.notePred, if_neg hpos]
    exact congrArg (fun x : Aoedev => x.modRq r fun rq => { rq with special := predUlong n }) hnote
  rw [hd]
  have hsub : ∀ x ∈ d₁.bufs, x ∈ d.bufs ∧ x.id ≠ b := by
    intro x hx
    simpa [d₁] using hx
  have hids : d₁.bufs.map Buf.id = (d.bufs.map Buf.id).filter (· ≠ b) := by
    rw [List.filter_map]
    rfl
  have hrqs {P : Request → Prop} (hP : ∀ x ∈ d.rqs, P (if x.id = r then { x with special := predUlong n } else x)) :
      ∀ x ∈ (d₁.modRq r fun rq => { rq with special := predUlong n }).blk.rqs, P x := List.forall_mem_map.mpr hP
  have hex {x : Request} (hx : x ∈ d.rqs) : ∃ y ∈ (d₁.modRq r fun rq => { rq with special := predUlong n }).rqs,
      y.id = x.id ∧ y.bios.length = x.bios.length := by
    refine ⟨_, List.mem_map_of_mem hx, ?_⟩
    split
    · exact ⟨rfl, rfl⟩
    · exact ⟨rfl, rfl⟩
  have hm : (d₁.modRq r fun rq => { rq with special := predUlong n }).rqs.map Request.id = d.rqs.map Request.id :=
    map_adjust Request.id fun _ _ _ => rfl
  refine { h with
    ids := ?_, bufIds := ?_, bufLt := ?_, bufRq := ?_, bufTaken := ?_, bioOnce := ?_, held := ?_, nframesout := ?_
    idle := ?_, ipBuf := ?_, special := hrqs ?_, ipRq := ?_, started := ?_, sized := hrqs ?_ }
  · have h' := h.ids
    simp only [Aoedev.blk] at h' ⊢
    rw [hm]
    exact h'
  · exact hids ▸ h.bufIds.filter _
  · exact fun x hx => h.bufLt x (hsub x hx).1
  · intro x hx
    obtain ⟨rq, hrq', hxr, hlt'⟩ := h.bufRq x (hsub x hx).1
    obtain ⟨y, hy, hyid, hylen⟩ := hex hrq'
    exact ⟨y, hy, hyid.trans hxr, hylen ▸ hlt'⟩
  · exact fun x hx => h.bufTaken x (hsub x hx).1
  · exact h.bioOnce.sublist (List.filter_sublist.map _)
  · intro m hm
    have hne : m ≠ b := fun he => hfree (he ▸ hm)
    exact hids ▸ List.mem_filter.mpr ⟨h.held m hm, by simpa using hne⟩
  · exact fun x hx => h.nframesout x (hsub x hx).1
  · intro x hx hne
    refine h.idle x (hsub x hx).1 ?_
    intro he
    apply hne
    have he' : d.ip.buf = some x.id := he
    have hxb := (hsub x hx).2
    simp [d₁, Aoedev.modRq, Aoedev.blk, he', hxb]
  · intro m hm
    have hm' : d.ip.buf = some m ∧ m ≠ b := by
      simp only [d₁, Aoedev.modRq, Aoedev.blk] at hm
      split at hm
      · simp at hm
      · rename_i hne
        exact ⟨hm, fun he => hne (he ▸ hm)⟩
    exact hids ▸ List.mem_filter.mpr ⟨h.ipBuf m hm'.1, by simpa using hm'.2⟩
  · intro x hx
    have hs := h.special x hx
    have hc := hcount x.id
    have hs' : x.special = d.bufs.countP (·.rq = x.id) + d.blk.rest x := hs
    split
    · rename_i hxr
      have hxn : x.special = n := by
        have hx' : d.rqAt r = x := by rw [← hxr, h.rqAt_mem hx]
        rw [← hx']
      rw [if_pos hxr.symm] at hc
      have hgoal : predUlong n = d₁.bufs.countP (·.rq = x.id) + d.blk.rest x := by
        rw [predUlong, if_neg hpos]
        omega
      exact hgoal
    · rename_i hxr
      rw [if_neg (fun he => hxr he.symm)] at hc
      have hgoal : x.special = d₁.bufs.countP (·.rq = x.id) + d.blk.rest x := by omega
      exact hgoal
  · intro m hm
    obtain ⟨rq, hrq', hxr, hlt'⟩ := h.ipRq m hm
    obtain ⟨y, hy, hyid, hylen⟩ := hex hrq'
    exact ⟨y, hy, hyid.trans hxr, fun i hi => hylen ▸ hlt' i hi⟩
  · intro p hp
    have h' := h.started p hp
    simp only [Aoedev.blk] at h' ⊢
    rw [hm]
    exact h'
  · intro x hx
    split
    · exact h.sized x hx
    · exact h.sized x hx

end Change

section End

variable {d : Aoedev} {B : Multiset ℕ} {b r : ℕ}

/-- A request with nothing to wait for is ended. -/
theorem Acct.endRequest (h : Acct d.blk B) (hr : r ∈ d.rqs.map Request.id) (hz : (d.rqAt r).special = 0) :
    Acct (endRequest d r false).blk B := by
  obtain ⟨rq, hrq, rfl⟩ := List.mem_map.mp hr
  have hat : d.rqAt rq.id = rq := h.rqAt_mem hrq
  rw [hat] at hz
  have hs := h.special rq hrq
  have hnone : d.bufs.countP (·.rq = rq.id) = 0 := by
    have hs' : rq.special = d.bufs.countP (·.rq = rq.id) + d.blk.rest rq := hs
    omega
  have hsub : ∀ x ∈ (AoeDriver.endRequest d rq.id false).rqs, x ∈ d.rqs ∧ x.id ≠ rq.id := by
    intro x hx
    simpa [AoeDriver.endRequest] using hx
  have hmem {x : Request} (hx : x ∈ d.rqs) (hne : x.id ≠ rq.id) : x ∈ (AoeDriver.endRequest d rq.id false).rqs := by
    simpa [AoeDriver.endRequest] using ⟨hx, hne⟩
  have hip {m : ℕ} (hm : (AoeDriver.endRequest d rq.id false).ip.rq = some m) : d.ip.rq = some m ∧ m ≠ rq.id := by
    simp only [AoeDriver.endRequest] at hm
    split at hm
    · simp at hm
    · rename_i hne
      exact ⟨hm, fun he => hne (he ▸ hm)⟩
  refine { h with
    ids := ?_, bufRq := ?_, special := ?_, ipRq := ?_, ipTaken := ?_, started := ?_, sized := ?_, ended := ?_ }
  · have hids := h.ids
    have hfilter : (d.rqs.filter (·.id ≠ rq.id)).map Request.id = (d.rqs.map Request.id).filter (· ≠ rq.id) := by
      rw [List.filter_map]
      rfl
    have hperm : (d.rqs.map Request.id).Perm (rq.id :: (d.rqs.map Request.id).filter (· ≠ rq.id)) := by
      have hnd : (d.rqs.map Request.id).Nodup := h.rqIds
      have he := List.perm_cons_erase hr
      rw [hnd.erase_eq_filter] at he
      have hf : (d.rqs.map Request.id).filter (· != rq.id) = (d.rqs.map Request.id).filter (· ≠ rq.id) :=
        List.filter_congr fun x _ => by simp [bne, beq_eq_decide]
      exact hf ▸ he
    have hp : (d.queue.map Request.id ++ ((d.rqs.filter (·.id ≠ rq.id)).map Request.id ++
        (d.hist.ended.map (·.rq.id) ++ [rq.id]))).Perm
        (d.queue.map Request.id ++ (d.rqs.map Request.id ++ d.hist.ended.map (·.rq.id))) := by
      refine List.Perm.append_left _ ?_
      rw [hfilter, ← List.append_assoc]
      refine List.perm_append_comm.trans ?_
      rw [← List.append_assoc]
      exact (hperm.append_right _).symm
    have hgoal := hp.nodup_iff.mpr hids
    simpa [Aoedev.blk, AoeDriver.endRequest, hat] using hgoal
  · intro x hx
    obtain ⟨y, hy, hyid, hlt⟩ := h.bufRq x hx
    refine ⟨y, hmem hy ?_, hyid, hlt⟩
    intro he
    have hc := List.countP_eq_zero.mp hnone x hx
    exact hc (by simpa using hyid.symm.trans he)
  · intro x hx
    obtain ⟨hx', hne⟩ := hsub x hx
    have hrest : (AoeDriver.endRequest d rq.id false).blk.rest x = d.blk.rest x := by
      simp only [Blk.rest, Aoedev.blk, AoeDriver.endRequest]
      by_cases hc : d.ip.rq = some rq.id
      · simp [hc, hne.symm]
      · simp only [if_neg hc]
        rfl
    rw [hrest]
    exact h.special x hx'
  · intro m hm
    obtain ⟨hm', hne⟩ := hip hm
    obtain ⟨y, hy, hyid, hlt⟩ := h.ipRq m hm'
    exact ⟨y, hmem hy (hyid ▸ hne), hyid, hlt⟩
  · intro p hp hpr
    exact h.ipTaken p hp (hip hpr).1
  · intro p hp
    have h' := h.started p hp
    simp only [Aoedev.blk, AoeDriver.endRequest, hat, List.map_append, List.mem_append, List.map_cons, List.map_nil,
      List.mem_singleton] at h' ⊢
    rcases h' with h' | h'
    · obtain ⟨x, hx, he⟩ := List.mem_map.mp h'
      by_cases hne : x.id = rq.id
      · exact .inr (.inr (he.symm.trans hne))
      · exact .inl (he ▸ List.mem_map_of_mem (hmem hx hne))
    · exact .inr (.inl h')
  · intro x hx
    exact h.sized x (hsub x hx).1
  · intro e he
    rcases List.mem_append.mp he with he | he
    · exact h.ended e he
    · rw [List.mem_singleton.mp he]
      simp [hat, hz]

theorem rqs_notePred (d : Aoedev) (c : Counter) (n : ℕ) : (d.notePred c n).rqs = d.rqs := by
  unfold Aoedev.notePred
  split
  · rfl
  · rfl

theorem bufs_notePred (d : Aoedev) (c : Counter) (n : ℕ) : (d.notePred c n).bufs = d.bufs := by
  unfold Aoedev.notePred
  split
  · rfl
  · rfl

theorem rqs_dropBuf (d : Aoedev) (b : ℕ) : (dropBuf d b).rqs = d.rqs.map fun x =>
    if x.id = (d.bufAt b).rq then { x with special := predUlong (d.rqAt (d.bufAt b).rq).special } else x := by
  simp only [dropBuf, Aoedev.modRq, rqs_notePred]

theorem bufs_dropBuf (d : Aoedev) (b : ℕ) : (dropBuf d b).bufs = d.bufs.filter (·.id ≠ b) := by
  simp only [dropBuf, Aoedev.modRq, bufs_notePred]

/-- The books are settled again when a buf is released and its request, if that was all, ended. -/
theorem Books.closeBuf (h : Acct d.blk B) (hb : b ∈ d.bufs.map Buf.id) (hfree : b ∉ B)
    (hlive : ∀ x ∈ d.bufs, x.id ≠ b → x.iter.size = 0 → x.nframesout ≠ 0)
    (hdue : ∀ rq ∈ d.rqs, rq.special ≠ 0) :
    Books (if predUlong (d.rqAt (d.bufAt b).rq).special = 0 then endRequest (dropBuf d b) (d.bufAt b).rq false
      else dropBuf d b).blk B := by
  obtain ⟨-, -, hrq, hrid, -⟩ := h.buf_of_mem hb
  have hacct := h.dropBuf hb hfree
  have hlive' : ∀ x ∈ (AoeDriver.dropBuf d b).bufs, x.iter.size = 0 → x.nframesout ≠ 0 := by
    intro x hx
    rw [bufs_dropBuf, List.mem_filter] at hx
    exact hlive x hx.1 (by simpa using hx.2)
  have hdue' : ∀ x ∈ (AoeDriver.dropBuf d b).rqs, x.id ≠ (d.bufAt b).rq → x.special ≠ 0 := by
    rw [rqs_dropBuf]
    refine List.forall_mem_map.mpr fun x hx => ?_
    split
    · exact fun hne => absurd (by assumption) hne
    · exact fun _ => hdue x hx
  -- the request after the release
  have hmem : { d.rqAt (d.bufAt b).rq with special := predUlong (d.rqAt (d.bufAt b).rq).special } ∈
      (AoeDriver.dropBuf d b).rqs := by
    rw [rqs_dropBuf]
    refine List.mem_map.mpr ⟨_, hrq, ?_⟩
    rw [if_pos hrid]
  have hat := hacct.rqAt_mem hmem
  rw [show ({ d.rqAt (d.bufAt b).rq with special := predUlong (d.rqAt (d.bufAt b).rq).special } : Request).id =
    (d.bufAt b).rq from hrid] at hat
  split
  · rename_i hz
    refine { hacct.endRequest ?_ ?_ with live := hlive', due := ?_ }
    · exact List.mem_map.mpr ⟨_, hmem, hrid⟩
    · rw [hat]
      exact hz
    · intro x hx
      have hx' : x ∈ (AoeDriver.dropBuf d b).rqs ∧ x.id ≠ (d.bufAt b).rq := by
        simpa [Aoedev.blk, AoeDriver.endRequest] using hx
      exact hdue' x hx'.1 hx'.2
  · rename_i hz
    refine { hacct with live := hlive', due := ?_ }
    intro x hx
    by_cases hid : x.id = (d.bufAt b).rq
    · have hx' := (hacct.rqAt_mem hx).symm
      rw [hid, hat] at hx'
      rw [hx']
      exact hz
    · exact hdue' x hx hid

/-- A waiting request is started and ended at once. -/
theorem Books.failFirst (h : Books d.blk B) {rq : Request} {q : List Request} (hq : d.queue = rq :: q) :
    Books (endRequest { d with queue := q, rqs := rq :: d.rqs } rq.id true).blk B := by
  have hmem : rq ∈ d.queue := by simp [hq]
  have hnew : ∀ x ∈ d.rqs, x.id ≠ rq.id := fun x hx => (h.queue_not_rqs hmem hx).symm
  have hat : Aoedev.rqAt { d with queue := q, rqs := rq :: d.rqs } rq.id = rq := by
    simp [Aoedev.rqAt]
  have hrqs : (rq :: d.rqs).filter (·.id ≠ rq.id) = d.rqs := by
    rw [List.filter_cons_of_neg (by simp), List.filter_eq_self]
    intro x hx
    simpa using hnew x hx
  have hip : d.ip.rq ≠ some rq.id := by
    intro hr
    obtain ⟨x, hx, hid, -⟩ := h.ipRq _ hr
    exact hnew x hx hid
  have hblk : (endRequest { d with queue := q, rqs := rq :: d.rqs } rq.id true).blk =
      { d.blk with queue := q, ended := d.hist.ended ++ [⟨rq, true, rq.bios.map fun _ => false⟩] } := by
    simp only [Aoedev.blk, AoeDriver.endRequest, hat, if_neg hip, hrqs, Bool.not_true, Bool.false_and]
  rw [hblk]
  have hkeep : d.blkq = false → q = [] := fun hk => absurd (hq.symm.trans (h.queued hk)) (List.cons_ne_nil _ _)
  refine { h with ids := ?_, started := ?_, fresh := ?_, queued := hkeep, ended := ?_ }
  · have hids := h.ids
    simp only [Aoedev.blk, hq, List.map_cons, List.cons_append] at hids
    have hp : (q.map Request.id ++ (d.rqs.map Request.id ++ (d.hist.ended.map (·.rq.id) ++ [rq.id]))).Perm
        (rq.id :: (q.map Request.id ++ (d.rqs.map Request.id ++ d.hist.ended.map (·.rq.id)))) := by
      simp only [← List.append_assoc]
      exact List.perm_append_singleton _ _
    simp only [List.map_append, List.map_cons, List.map_nil]
    exact hp.nodup_iff.mpr hids
  · intro p hp
    have h' := h.started p hp
    simp only [Aoedev.blk, List.map_append, List.mem_append] at h' ⊢
    exact h'.imp id .inl
  · intro x hx
    refine h.fresh x ?_
    simp only [Aoedev.blk, hq]
    exact List.mem_cons_of_mem _ hx
  · intro e he
    rcases List.mem_append.mp he with he | he
    · exact h.ended e he
    · rw [List.mem_singleton.mp he]
      refine ⟨by simp, fun _ i hm => ?_⟩
      exact h.not_queued hm (List.mem_map_of_mem hmem)

theorem Books.failQueue (q : List Request) (h : Books d.blk B) (hq : d.queue = q) : Books (failQueue q d).blk B := by
  induction q generalizing d with
  | nil => exact h
  | cons rq q ih => exact ih (h.failFirst hq) rfl

theorem Acct.failNext (h : Acct d.blk B) {i : ℕ} (hr : d.ip.rq = some r) (hi : d.ip.nxbio = some i) :
    Acct (failNext d r i).blk B := by
  obtain ⟨rq, hrq, rfl, hlt⟩ := h.ipRq r hr
  have hlt := hlt i hi
  have hat : d.rqAt rq.id = rq := h.rqAt_mem hrq
  have hrest : d.blk.rest rq = rq.bios.length - i := by simp [Blk.rest, Aoedev.blk, hr, hi]
  have hs : rq.special = d.bufs.countP (·.rq = rq.id) + (rq.bios.length - i) := hrest ▸ h.special rq hrq
  have hpos : rq.special ≠ 0 := by omega
  let g : Request → Request := fun x =>
    { x with special := predUlong rq.special, bios := x.bios.modify i fun bio => { bio with error := true } }
  have hd : AoeDriver.failNext d rq.id i =
      (d.modRq rq.id g).setNxbio (if i + 1 < rq.bios.length then some (i + 1) else none) := by
    have hnote : d.notePred .special rq.special = d := by rw [Aoedev.notePred, if_neg hpos]
    unfold AoeDriver.failNext
    dsimp only
    rw [hat, hnote]
  rw [hd]
  have hall {P : Request → Prop} (hP : ∀ x ∈ d.rqs, P (if x.id = rq.id then g x else x)) :
      ∀ x ∈ (d.modRq rq.id g).rqs, P x := List.forall_mem_map.mpr hP
  have hex {x : Request} (hx : x ∈ d.rqs) : ∃ y ∈ (d.modRq rq.id g).rqs,
      y.id = x.id ∧ y.bios.length = x.bios.length := by
    refine ⟨_, List.mem_map_of_mem hx, ?_⟩
    split
    · exact ⟨rfl, List.length_modify _ _ _⟩
    · exact ⟨rfl, rfl⟩
  have hm : (d.modRq rq.id g).rqs.map Request.id = d.rqs.map Request.id := map_adjust Request.id fun _ _ _ => rfl
  refine { h with
    ids := ?_, bufRq := ?_, special := hall ?_, ipRq := ?_, ipTaken := ?_, started := ?_, sized := hall ?_ }
  · have h' := h.ids
    simp only [Aoedev.blk] at h'
    rw [← hm] at h'
    exact h'
  · intro x hx
    obtain ⟨y, hy, hyr, hlt'⟩ := h.bufRq x hx
    obtain ⟨z, hz, hzid, hzlen⟩ := hex hy
    exact ⟨z, hz, hzid.trans hyr, hzlen ▸ hlt'⟩
  · intro x hx
    split
    · rename_i hxr
      have hx' : x = rq := by rw [← h.rqAt_mem hx, hxr, hat]
      subst hx'
      have hgoal : predUlong x.special = d.bufs.countP (·.rq = x.id) + (x.bios.length - (i + 1)) := by
        rw [predUlong, if_neg hpos]
        omega
      have hrest' : Blk.rest ((d.modRq x.id g).setNxbio (if i + 1 < x.bios.length then some (i + 1) else none)).blk
          (g x) = x.bios.length - (i + 1) := by
        by_cases hl : i + 1 < x.bios.length
        · simp [Blk.rest, Aoedev.blk, Aoedev.modRq, Aoedev.setNxbio, hr, hl, g]
        · simp [Blk.rest, Aoedev.blk, Aoedev.modRq, Aoedev.setNxbio, hr, hl, g]
          omega
      rw [hrest']
      exact hgoal
    · rename_i hxr
      have hs' := h.special x hx
      have hz : d.blk.rest x = 0 := by
        simp only [Blk.rest, Aoedev.blk, hr, Option.some.injEq]
        rw [if_neg (fun he => hxr he.symm)]
      rw [hz] at hs'
      have hz' : Blk.rest ((d.modRq rq.id g).setNxbio (if i + 1 < rq.bios.length then some (i + 1) else none)).blk
          x = 0 := by
        simp only [Blk.rest, Aoedev.blk, Aoedev.modRq, Aoedev.setNxbio, hr, Option.some.injEq]
        rw [if_neg (fun he => hxr he.symm)]
      rw [hz']
      exact hs'
  · intro m hm
    obtain ⟨y, hy, hyr, -⟩ := h.ipRq m hm
    obtain ⟨z, hz, hzid, hzlen⟩ := hex hy
    refine ⟨z, hz, hzid.trans hyr, fun j hj => ?_⟩
    have hmr : m = rq.id := Option.some.inj ((show some m = d.ip.rq from hm.symm).trans hr)
    have hyq : y = rq := by rw [← h.rqAt_mem hy, hyr, hmr, hat]
    simp only [Aoedev.blk, Aoedev.setNxbio] at hj
    split at hj
    · rw [Option.some.injEq] at hj
      rw [hzlen, hyq]
      omega
    · simp at hj
  · intro p hp hpr j hj
    have hlt' := h.ipTaken p hp hpr i hi
    simp only [Aoedev.blk, Aoedev.setNxbio] at hj
    split at hj
    · rw [Option.some.injEq] at hj
      omega
    · simp at hj
  · intro p hp
    have h' := h.started p hp
    simp only [Aoedev.blk] at h'
    rw [← hm] at h'
    exact h'
  · intro x hx
    split
    · exact forall_mem_modify (p := fun bio : Bio => bio.iter.size ≠ 0) (h.sized x hx) fun _ hne => hne
    · exact h.sized x hx

theorem Acct.failBios (n : ℕ) (h : Acct d.blk B) (hr : d.ip.rq = some r) : Acct (failBios r n d).blk B := by
  induction n generalizing d with
  | zero => exact h
  | succ n ih =>
    unfold AoeDriver.failBios
    split
    · exact h
    · rename_i i hi
      refine ih (h.failNext hr hi) ?_
      rw [← hr]
      unfold AoeDriver.failNext Aoedev.notePred
      dsimp only
      split
      · rfl
      · rfl

end End

end AoeDriver
