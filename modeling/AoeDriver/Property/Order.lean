import AoeDriver.Library.Blocks
import AoeDriver.Property.Placement
import AoeDriver.Property.Failure
import AoeDriver.Run.Reach

/-!
# The order of issue

`nextbuf` works on one request at a time and takes its bios in the order of the chain; `aoecmd_ata_rw` cuts the bio
taken last from its front to its end. Whatever fails, is answered or goes down in between, frames are cut in the order
of the sectors they carry.
-/

namespace AoeDriver

open Tables Blocks

/-- The bio a frame was cut from. -/
def Cut.key (c : Cut) : ℕ × ℕ := (c.rq, c.bio)

def Cut.stop (c : Cut) : ℕ := c.sector + c.size / 512

/-- `c` carries sectors of the same bio in front of those of `c'`, or of a bio taken before. -/
def Cut.Before (taken : List (ℕ × ℕ)) (c c' : Cut) : Prop :=
  c.key = c'.key ∧ c.stop ≤ c'.sector ∨ [c.key, c'.key].Sublist taken

/-- Each request in `blocks` with the number of its bios taken; `next` is the bio in front of `nextbuf`. -/
structure Taking (blocks taken : List (ℕ × ℕ)) (next : ℕ × ℕ → Prop) : Prop where
  names : (blocks.map Prod.fst).Nodup
  pos : ∀ p ∈ blocks, 0 < p.2
  taken : taken = spread blocks
  next : ∀ r i, next (r, i) → i = 0 ∧ r ∉ blocks.map Prod.fst ∨ ∃ front, blocks = front ++ [(r, i)]

def Blk.next (k : Blk) (p : ℕ × ℕ) : Prop := k.ip.rq = some p.1 ∧ k.ip.nxbio = some p.2

structure InOrder (k : Blk) : Prop where
  taking : ∃ blocks, Taking blocks k.taken k.next
  keys : ∀ c ∈ k.cuts, c.key ∈ k.taken
  ordered : k.cuts.Pairwise (Cut.Before k.taken)
  last : ∀ b ∈ k.bufs, k.ip.buf = some b.id → k.taken.getLast? = some (b.rq, b.bio)
  behind : ∀ b ∈ k.bufs, k.ip.buf = some b.id → ∀ c ∈ k.cuts, c.key = (b.rq, b.bio) → c.stop ≤ b.iter.sector

/-- Nothing is taken or cut, and what is in process may go. -/
structure Trims (k k' : Blk) : Prop where
  taken : k'.taken = k.taken
  cuts : k'.cuts = k.cuts
  next : ∀ p, k'.next p → k.next p
  buf : ∀ b, k'.ip.buf = some b → k.ip.buf = some b
  bufs : ∀ x ∈ k'.bufs, ∃ b ∈ k.bufs, x.id = b.id ∧ x.rq = b.rq ∧ x.bio = b.bio ∧ x.iter.sector = b.iter.sector

section Trim

variable {k k' k'' : Blk} {d : Aoedev} {b r : ℕ}

theorem InOrder.trims (h : InOrder k) (t : Trims k k') : InOrder k' := by
  obtain ⟨blocks, hb⟩ := h.taking
  constructor
  · refine ⟨blocks, hb.names, hb.pos, ?_, ?_⟩
    · rw [t.taken]
      exact hb.taken
    · intro r i hn
      exact hb.next r i (t.next _ hn)
  · rw [t.cuts, t.taken]
    exact h.keys
  · rw [t.cuts, t.taken]
    exact h.ordered
  · intro x hx hbuf
    obtain ⟨b, hb, hid, hrq, hbio, -⟩ := t.bufs x hx
    rw [t.taken, hrq, hbio]
    exact h.last b hb (hid ▸ t.buf _ hbuf)
  · intro x hx hbuf
    obtain ⟨b, hb, hid, hrq, hbio, hsector⟩ := t.bufs x hx
    rw [t.cuts, hrq, hbio, hsector]
    exact h.behind b hb (hid ▸ t.buf _ hbuf)

theorem Trims.trans (t : Trims k k') (t' : Trims k' k'') : Trims k k'' := by
  refine ⟨t'.taken.trans t.taken, t'.cuts.trans t.cuts, fun p hp => t.next p (t'.next p hp),
    fun b hb => t.buf b (t'.buf b hb), ?_⟩
  intro x hx
  obtain ⟨y, hy, hxy⟩ := t'.bufs x hx
  obtain ⟨z, hz, hyz⟩ := t.bufs y hy
  exact ⟨z, hz, hxy.1.trans hyz.1, hxy.2.1.trans hyz.2.1, hxy.2.2.1.trans hyz.2.2.1, hxy.2.2.2.trans hyz.2.2.2⟩

theorem Trims.congr (htaken : k'.taken = k.taken) (hcuts : k'.cuts = k.cuts) (hip : k'.ip = k.ip)
    (hbufs : k'.bufs = k.bufs) : Trims k k' := by
  refine ⟨htaken, hcuts, ?_, ?_, ?_⟩
  · intro p hp
    simpa [Blk.next, hip] using hp
  · intro b hb
    rwa [hip] at hb
  · intro x hx
    rw [hbufs] at hx
    exact ⟨x, hx, rfl, rfl, rfl, rfl⟩

private theorem notePred_trims (c : Counter) (n : ℕ) : Trims d.blk (d.notePred c n).blk := by
  unfold Aoedev.notePred
  split
  · exact .congr rfl rfl rfl rfl
  · exact .congr rfl rfl rfl rfl

private theorem modBuf_trims {g : Buf → Buf} (hg : ∀ x, (g x).id = x.id ∧ (g x).rq = x.rq ∧ (g x).bio = x.bio ∧
    (g x).iter.sector = x.iter.sector) : Trims d.blk (d.modBuf b g).blk := by
  refine ⟨rfl, rfl, fun _ => id, fun _ => id, ?_⟩
  intro x hx
  obtain ⟨y, hy, rfl⟩ := List.mem_map.mp hx
  refine ⟨y, hy, ?_⟩
  split
  · exact hg y
  · exact ⟨rfl, rfl, rfl, rfl⟩

private theorem decNframesout_trims (d : Aoedev) (b : ℕ) : Trims d.blk (decNframesout d b).blk := by
  apply (notePred_trims (d := d) .nframesout (d.bufAt b).nframesout).trans
  apply modBuf_trims
  intro x
  exact ⟨rfl, rfl, rfl, rfl⟩

private theorem spoilBuf_trims (d : Aoedev) (b : ℕ) : Trims d.blk (spoilBuf d b).blk := by
  have hsize : Trims d.blk (d.modBuf b fun x => { x with iter.size := 0 }).blk := by
    apply modBuf_trims
    intro x
    exact ⟨rfl, rfl, rfl, rfl⟩
  exact hsize.trans (.congr rfl rfl rfl rfl)

private theorem endRequest_trims (d : Aoedev) (r : ℕ) (fastfail : Bool) : Trims d.blk (endRequest d r fastfail).blk := by
  refine ⟨rfl, rfl, ?_, fun _ => id, fun x hx => ⟨x, hx, rfl, rfl, rfl, rfl⟩⟩
  intro p hp
  have hrq : (if d.ip.rq = some r then none else d.ip.rq) = some p.1 := hp.1
  refine ⟨?_, hp.2⟩
  split at hrq
  · simp at hrq
  · exact hrq

private theorem dropBuf_trims (d : Aoedev) (b : ℕ) : Trims d.blk (dropBuf d b).blk := by
  have hdrop : Trims d.blk (Aoedev.blk { d with ip.buf := if d.ip.buf = some b then none else d.ip.buf
                                                bufs := d.bufs.filter (·.id ≠ b) }) := by
    refine ⟨rfl, rfl, fun _ => id, ?_, ?_⟩
    · intro b' hb
      have hb' : (if d.ip.buf = some b then none else d.ip.buf) = some b' := hb
      split at hb'
      · simp at hb'
      · exact hb'
    · intro x hx
      exact ⟨x, List.mem_of_mem_filter hx, rfl, rfl, rfl, rfl⟩
  exact (hdrop.trans (notePred_trims _ _)).trans (.congr rfl rfl rfl rfl)

private theorem settle_trims (d : Aoedev) (b : ℕ) : Trims d.blk (settle d b).blk := by
  unfold settle closeBuf
  split
  · split
    · exact (dropBuf_trims d b).trans (endRequest_trims _ _ _)
    · exact dropBuf_trims d b
  · exact .congr rfl rfl rfl rfl

private theorem failBios_fields (r n : ℕ) :
    (failBios r n d).blk.taken = d.blk.taken ∧ (failBios r n d).blk.cuts = d.blk.cuts ∧
    (failBios r n d).blk.ip.buf = d.blk.ip.buf ∧ (failBios r n d).blk.bufs = d.blk.bufs := by
  induction n generalizing d with
  | zero => simp [failBios]
  | succ n ih =>
    unfold failBios
    split
    · simp
    · rename_i i _
      have hnext : (failNext d r i).blk.taken = d.blk.taken ∧ (failNext d r i).blk.cuts = d.blk.cuts ∧
          (failNext d r i).blk.ip.buf = d.blk.ip.buf ∧ (failNext d r i).blk.bufs = d.blk.bufs := by
        unfold failNext Aoedev.notePred
        by_cases hz : (d.rqAt r).special = 0
        · simp only [hz, if_true]
          exact ⟨rfl, rfl, rfl, rfl⟩
        · simp only [hz, if_false]
          exact ⟨rfl, rfl, rfl, rfl⟩
      obtain ⟨htaken, hcuts, hbuf, hbufs⟩ := @ih (failNext d r i)
      exact ⟨htaken.trans hnext.1, hcuts.trans hnext.2.1, hbuf.trans hnext.2.2.1, hbufs.trans hnext.2.2.2⟩

private theorem failRest_trims {B : Multiset ℕ} (hA : Acct d.blk B) (hr : d.ip.rq = some r) :
    Trims d.blk (failRest d r).blk := by
  have hnone : (failBios r (d.rqAt r).bios.length d).ip.nxbio = none := by
    apply failBios_nxbio
    intro i hi
    obtain ⟨rq, hrq, hid, hlt⟩ := hA.ipRq r hr
    have hat : d.rqAt r = rq := by rw [← hid, hA.rqAt_mem hrq]
    rw [hat]
    exact ⟨hlt i hi, Nat.le_add_right _ _⟩
  obtain ⟨htaken, hcuts, hbuf, hbufs⟩ := failBios_fields (d := d) r (d.rqAt r).bios.length
  have hfail : Trims d.blk (failBios r (d.rqAt r).bios.length d).blk := by
    refine ⟨htaken, hcuts, ?_, ?_, ?_⟩
    · intro p hp
      have hnx : (failBios r (d.rqAt r).bios.length d).ip.nxbio = some p.2 := hp.2
      simp [hnone] at hnx
    · rw [hbuf]
      exact fun _ => id
    · rw [hbufs]
      exact fun x hx => ⟨x, hx, rfl, rfl, rfl, rfl⟩
  unfold failRest
  dsimp only
  split
  · exact hfail.trans (endRequest_trims _ _ _)
  · exact hfail

end Trim

section Take

variable {blocks taken : List (ℕ × ℕ)} {next next' : ℕ × ℕ → Prop} {d : Aoedev} {B : Multiset ℕ} {r i : ℕ}

theorem Taking.nodup (h : Taking blocks taken next) : taken.Nodup := by
  rw [h.taken]
  exact nodup_spread h.names

theorem Taking.first (h : Taking blocks taken next) (hr : r ∈ blocks.map Prod.fst) : (r, 0) ∈ taken := by
  obtain ⟨p, hp, rfl⟩ := List.mem_map.mp hr
  rw [h.taken]
  exact mem_spread.mpr ⟨p, hp, rfl, h.pos p hp⟩

theorem Taking.start (h : Taking blocks taken next) (hr : ∀ i, (r, i) ∉ taken) (hn : ∀ p, next' p → p = (r, 0)) :
    Taking blocks taken next' := by
  refine { h with next := ?_ }
  intro r' i hri
  obtain ⟨rfl, rfl⟩ := Prod.mk.inj (hn _ hri)
  left
  refine ⟨rfl, ?_⟩
  intro hm
  exact hr 0 (h.first hm)

/-- The next bio is taken. -/
theorem Taking.take (h : Taking blocks taken next) (hri : next (r, i)) (hn : ∀ p, next' p → p = (r, i + 1)) :
    ∃ blocks, Taking blocks (taken ++ [(r, i)]) next' := by
  have hlast (front : List (ℕ × ℕ)) (r' j : ℕ) (hj : next' (r', j)) :
      j = 0 ∧ r' ∉ (front ++ [(r, i + 1)]).map Prod.fst ∨ ∃ f, front ++ [(r, i + 1)] = f ++ [(r', j)] := by
    right
    exact ⟨front, by rw [hn _ hj]⟩
  rcases h.next r i hri with ⟨rfl, hnew⟩ | ⟨front, rfl⟩
  · refine ⟨blocks ++ [(r, 1)], ?_, ?_, ?_, hlast blocks⟩
    · rw [List.map_append, List.nodup_append]
      refine ⟨h.names, by simp, ?_⟩
      intro a ha c hc
      rw [List.map_singleton, List.mem_singleton] at hc
      rintro rfl
      have har : a = r := hc
      exact hnew (har ▸ ha)
    · intro p hp
      rcases List.mem_append.mp hp with hp | hp
      · exact h.pos p hp
      · simp [List.mem_singleton.mp hp]
    · rw [h.taken]
      exact (spread_first blocks r).symm
  · refine ⟨front ++ [(r, i + 1)], ?_, ?_, ?_, hlast front⟩
    · simpa using h.names
    · intro p hp
      rcases List.mem_append.mp hp with hp | hp
      · exact h.pos p (List.mem_append_left _ hp)
      · simp [List.mem_singleton.mp hp]
    · rw [h.taken]
      exact (spread_next front r i).symm

theorem Cut.Before.append {c c' : Cut} (h : c.Before taken c') (l : List (ℕ × ℕ)) : c.Before (taken ++ l) c' := by
  rcases h with h | h
  · exact .inl h
  · exact .inr (pair_append h l)

theorem InOrder.startRq (h : InOrder d.blk) (hB : Acct d.blk B) {rq : Request} {q : List Request}
    (hq : d.queue = rq :: q) : InOrder (startRq d rq q).blk := by
  obtain ⟨blocks, hb⟩ := h.taking
  refine { h with taking := ⟨blocks, ?_⟩ }
  have hqueue : rq ∈ d.blk.queue := by
    change rq ∈ d.queue
    simp [hq]
  apply hb.start (r := rq.id)
  · intro i hi
    exact hB.not_queued hi (List.mem_map_of_mem hqueue)
  · intro p hp
    have hr : some rq.id = some p.1 := hp.1
    have hi : (if rq.bios = [] then none else some 0) = some p.2 := hp.2
    split at hi
    · simp at hi
    · exact Prod.ext (Option.some.inj hr).symm (Option.some.inj hi).symm

theorem InOrder.takeBio (h : InOrder d.blk) (hB : Acct d.blk B) (hr : d.ip.rq = some r) (hi : d.ip.nxbio = some i) :
    InOrder (takeBio d r i).blk := by
  obtain ⟨blocks, hb⟩ := h.taking
  have hnot : (r, i) ∉ d.blk.taken := fun hm => lt_irrefl i (hB.ipTaken _ hm hr i hi)
  have hold {x : Buf} (hx : x ∈ d.bufs) : some d.bufIds ≠ some x.id := by
    intro he
    have hlt := hB.bufLt x hx
    rw [← Option.some.inj he] at hlt
    exact lt_irrefl _ hlt
  constructor
  · apply hb.take ⟨hr, hi⟩
    intro p hp
    have hrq : (if (if i + 1 < (d.rqAt r).bios.length then some (i + 1) else none).isNone then none else some r) =
        some p.1 := hp.1
    have hnx : (if i + 1 < (d.rqAt r).bios.length then some (i + 1) else none) = some p.2 := hp.2
    rw [hnx] at hrq
    split at hnx
    · exact Prod.ext (Option.some.inj hrq).symm (Option.some.inj hnx).symm
    · simp at hnx
  · intro c hc
    exact List.mem_append_left _ (h.keys c hc)
  · exact h.ordered.imp fun hc => hc.append _
  · intro x hx hbuf
    rcases List.mem_cons.mp hx with rfl | hx
    · exact List.getLast?_concat
    · exact absurd hbuf (hold hx)
  · intro x hx hbuf c hc hkey
    rcases List.mem_cons.mp hx with rfl | hx
    · exact absurd (hkey ▸ h.keys c hc) hnot
    · exact absurd hbuf (hold hx)

end Take

section Cut

variable {d : Aoedev} {B : Multiset ℕ} {b : ℕ} {f : Frame}

theorem InOrder.cut (h : InOrder d.blk) (hB : Acct d.blk B) (hb : d.ip.buf = some b)
    (hf : f.iter = cutIter d.maxbcnt (d.bufAt b).iter) : InOrder ((cutBuf d b).noteCut f (d.bufAt b)).blk := by
  obtain ⟨hmem, hid, -⟩ := hB.buf_of_mem (hB.ipBuf b hb)
  have hip : d.blk.ip.buf = some (d.bufAt b).id := by
    rw [hid]
    exact hb
  have hlast := h.last _ hmem hip
  have hsector : f.iter.sector = (d.bufAt b).iter.sector := by
    rw [hf]
    rfl
  let c : Cut := ⟨f.cmd, (d.bufAt b).rq, (d.bufAt b).bio, f.iter.sector, f.iter.size⟩
  have hcuts : ((cutBuf d b).noteCut f (d.bufAt b)).blk.cuts = d.blk.cuts ++ [c] := rfl
  have hkey : c.key = ((d.bufAt b).rq, (d.bufAt b).bio) := rfl
  have hbuf {x : Buf} (hx : x ∈ ((cutBuf d b).noteCut f (d.bufAt b)).blk.bufs)
      (hxb : ((cutBuf d b).noteCut f (d.bufAt b)).blk.ip.buf = some x.id) : x.rq = (d.bufAt b).rq ∧
        x.bio = (d.bufAt b).bio ∧ x.iter.sector = (d.bufAt b).iter.sector + f.iter.size / 512 := by
    obtain ⟨y, hy, rfl⟩ := List.mem_map.mp hx
    have hsome : some b = some (if y.id = b then
        { y with
          iter := bioAdvanceIter (d.bioAt (d.bufAt b).rq (d.bufAt b).bio).vecs (d.bufAt b).iter
            (cutIter d.maxbcnt (d.bufAt b).iter).size
          nframesout := y.nframesout + 1 }
        else y).id := by
      rw [← hb]
      have hraw := hxb
      dsimp only [Aoedev.blk, Aoedev.noteCut, cutBuf] at hraw
      split at hraw
      · simp at hraw
      · exact hraw
    by_cases hyb : y.id = b
    · have hy' : y = d.bufAt b := by rw [← hyb, hB.bufAt_mem hy]
      rw [if_pos hyb]
      refine ⟨by rw [← hy'], by rw [← hy'], ?_⟩
      change (d.bufAt b).iter.sector + (cutIter d.maxbcnt (d.bufAt b).iter).size >>> 9 = _
      rw [← hf, Nat.shiftRight_eq_div_pow]
    · rw [if_neg hyb] at hsome
      exact absurd (Option.some.inj hsome).symm hyb
  constructor
  · exact h.taking
  · rw [hcuts]
    intro x hx
    rcases List.mem_append.mp hx with hx | hx
    · exact h.keys x hx
    · rw [List.mem_singleton.mp hx]
      exact List.mem_of_getLast? hlast
  · rw [hcuts, List.pairwise_append]
    refine ⟨h.ordered, List.pairwise_singleton _ _, ?_⟩
    intro x hx y hy
    rw [List.mem_singleton.mp hy]
    by_cases hxc : x.key = c.key
    · left
      refine ⟨hxc, ?_⟩
      change x.stop ≤ f.iter.sector
      rw [hsector]
      exact h.behind _ hmem hip x hx hxc
    · right
      exact pair_last (h.keys x hx) hlast hxc
  · intro x hx hxb
    obtain ⟨hrq, hbio, -⟩ := hbuf hx hxb
    rw [hrq, hbio]
    exact hlast
  · intro x hx hxb
    obtain ⟨hrq, hbio, hxs⟩ := hbuf hx hxb
    rw [hrq, hbio, hxs, hcuts]
    intro y hy hyk
    rcases List.mem_append.mp hy with hy | hy
    · exact (h.behind _ hmem hip y hy hyk).trans (Nat.le_add_right _ _)
    · rw [List.mem_singleton.mp hy]
      change f.iter.sector + f.iter.size / 512 ≤ _
      rw [hsector]

end Cut

section Runs

variable {s s' : Stage} {d : Aoedev}

theorem Post.inOrder (p : Post s s') (hB : Books s.dev.blk s.refs) (h : InOrder s.dev.blk) : InOrder s'.dev.blk := by
  cases p with
  | quiet hb hn hu =>
    apply h.trims
    apply Trims.congr
    · exact Blk.core_field Blk.taken (fun _ => rfl) hb
    · exact Blk.core_field Blk.cuts (fun _ => rfl) hb
    · exact Blk.core_field Blk.ip (fun _ => rfl) hb
    · exact Blk.core_field Blk.bufs (fun _ => rfl) hb
  | ready => exact h.trims (.congr rfl rfl rfl rfl)
  | queue hk hf hid => exact h.trims (.congr rfl rfl rfl rfl)
  | start hq hr => exact h.startRq hB.toAcct hq
  | take hb hr hi => exact h.takeBio hB.toAcct hr hi
  | cut hb hm hd hn hcmd hiter hx =>
    have hcut := h.cut hB.toAcct hb hiter
    rw [← hd] at hcut
    exact hcut
  | @process d D L f x hx hp =>
    apply h.trims
    obtain ⟨processed, hnote, -⟩ := noteProcessed_cases d f
    rcases ktioData_cases (noteProcessed d f) f with ⟨b, -, hd⟩ | ⟨mem, skb, hd⟩
    · rw [hd, hnote]
      exact .congr rfl rfl rfl rfl
    · rw [hd, hnote]
      exact .congr rfl rfl rfl rfl
  | @finish d D L x => exact h.trims ((decNframesout_trims d x.buf).trans (settle_trims _ _))
  | @lose d D L x =>
    exact h.trims (((decNframesout_trims d x.buf).trans (spoilBuf_trims _ _)).trans (settle_trims _ _))
  | @spoil d D L b hb => exact h.trims ((spoilBuf_trims d b).trans (settle_trims _ _))
  | failRest hr => exact h.trims (failRest_trims hB.toAcct hr)
  | @failFirst d D L rq q hq =>
    have hstart : Trims d.blk (Aoedev.blk { d with queue := q, rqs := rq :: d.rqs }) := .congr rfl rfl rfl rfl
    exact h.trims (hstart.trans (endRequest_trims _ _ _))

private theorem inOrder_initial (hd : Initial d) : InOrder d.blk := by
  obtain ⟨a, b, n, s, m, clock, c, rfl⟩ := hd
  have hhist : (default : Hist).taken = [] ∧ (default : Hist).cuts = [] := ⟨rfl, rfl⟩
  have hip : (default : InProcess) = ⟨none, none, none⟩ := rfl
  constructor
  · refine ⟨[], ?_⟩
    constructor <;> simp [initial, Aoedev.blk, hhist, spread, Blk.next, hip]
  all_goals simp [initial, Aoedev.blk, hhist]

/-- Requests are taken up one after another, each one's bios in the order of its chain from the first on and none twice,
and frames are cut in that order and, within a bio, from its front to its end. -/
theorem issue_in_order (h : Reached d) :
    (∃ blocks, (blocks.map Prod.fst).Nodup ∧ d.hist.taken = spread blocks) ∧ d.hist.taken.Nodup ∧
    (∀ c ∈ d.hist.cuts, (c.rq, c.bio) ∈ d.hist.taken) ∧ d.hist.cuts.Pairwise (Cut.Before d.hist.taken) := by
  have horder : InOrder (stage 0 d).dev.blk :=
    reachedBy_stage (P := fun s => InOrder s.dev.blk) (fun _ => inOrder_initial) (fun _ _ => Post.inOrder) h
  obtain ⟨blocks, hb⟩ := horder.taking
  exact ⟨⟨blocks, hb.names, hb.taken⟩, hb.nodup, horder.keys, horder.ordered⟩

/-- Two requests, the first one of two bios, the first of them longer than a frame. -/
def sampleChains : List Event :=
  let bio (sector size : ℕ) : Bio := { vecs := [⟨0, 0, size⟩], iter := ⟨sector, size, 0, 0⟩, error := false }
  sampleUp ++ [.blkQueue { sampleRq with bios := [bio 8 2048, bio 64 1024] },
    .blkQueue { sampleRq with id := 8, write := false, bios := [bio 0 1024] }, .blkRun default]

def chainsScene : Scene unguarded sampleStart sampleChains
    (fun d => d.hist.taken == [(7, 0), (7, 1), (8, 0)] && d.hist.cuts.length == 4) := ⟨by decide +kernel⟩

theorem issue_in_order_chains : ∃ d, Reached d ∧ d.hist.taken = [(7, 0), (7, 1), (8, 0)] ∧ d.hist.cuts.length = 4 ∧
    d.hist.cuts.Pairwise (Cut.Before d.hist.taken) := by
  obtain ⟨d, -, hreach, htest⟩ := chainsScene.last sampleStart_initial
  have hd : Reached d := hreach.mono fun _ _ _ _ => trivial
  simp only [Bool.and_eq_true, beq_iff_eq] at htest
  exact ⟨d, hd, htest.1, htest.2, (issue_in_order hd).2.2.2⟩

end Runs

end AoeDriver
