import AoeDriver.Block.Books

/-!
# Postings

Everything the driver does to bufs, bios and requests, as a list of elementary entries in the books. A `Duty` is
what a frame in use owes to its buf; `todo` are the duties of frames that `ktiocomplete` has not looked at.
-/

namespace AoeDriver

open Tables

structure Duty where
  buf : ℕ
  cmd : ℕ
  iter : BvecIter
  ata : AtaHdr

def Frame.duty (f : Frame) : Option Duty := f.buf.map fun b => ⟨b, f.cmd, f.iter, (f.skb.getD default).ata⟩

def duties (s : Multiset Frame) : Multiset Duty := s.filterMap Frame.duty

structure Stage where
  dev : Aoedev
  todo : Multiset Duty
  late : Multiset Duty

/-- The bufs that frames refer to. -/
def Stage.refs (s : Stage) : Multiset ℕ := (s.todo + s.late).map Duty.buf

/-- The part of the block side that the books are about. -/
def Blk.core (k : Blk) : Blk :=
  { k with
    up := false, tkill := false, gdalloc := false, gdNow := false, newsize := false, workPending := false
    warned := false, gd := none, ssize := 0, nopen := 0, ref := 0, ext := false, maxbcnt := 0
    iocq := [], threads := [], mempool := [], nullBio := false, underflow := [] }

theorem Blk.core_field {β : Type} {k k' : Blk} (φ : Blk → β) (hφ : ∀ k, φ k.core = φ k) (h : k'.core = k.core) :
    φ k' = φ k := by
  rw [← hφ, h, hφ]

/-- Buf `b` is released, and its request ended if that was its last one. -/
def closeBuf (d : Aoedev) (b : ℕ) : Aoedev :=
  if predUlong (d.rqAt (d.bufAt b).rq).special = 0 then endRequest (dropBuf d b) (d.bufAt b).rq false else dropBuf d b

/-- Buf `b` is released if nothing is left of it. -/
def settle (d : Aoedev) (b : ℕ) : Aoedev :=
  if (d.bufAt b).nframesout = 0 ∧ (d.bufAt b).iter.size = 0 then closeBuf d b else d

/-- The bios still to be taken fail, and the request is ended if nothing else is left of it. -/
def failRest (d : Aoedev) (r : ℕ) : Aoedev :=
  let d := failBios r (d.rqAt r).bios.length d
  if (d.rqAt r).special = 0 then endRequest d r false else d

inductive Post : Stage → Stage → Prop where
  | quiet {d d' : Aoedev} {D L : Multiset Duty} (hb : d'.blk.core = d.blk.core) (hn : d.hist.ncmds ≤ d'.hist.ncmds)
      (hu : ∀ c ∈ d'.hist.underflow, c ∈ d.hist.underflow ∨ c = .ref) : Post ⟨d, D, L⟩ ⟨d', D, L⟩
  | ready {d : Aoedev} {D L : Multiset Duty} : Post ⟨d, D, L⟩ ⟨{ d with blkq := true }, D, L⟩
  | queue {d : Aoedev} {D L : Multiset Duty} {rq : Request} (hk : d.blkq = true) (hf : rq.fresh = true)
      (hid : rq.id ∉ d.queue.map Request.id ++ (d.rqs.map Request.id ++ d.hist.ended.map (·.rq.id))) :
      Post ⟨d, D, L⟩ ⟨{ d with queue := d.queue ++ [rq] }, D, L⟩
  | start {d : Aoedev} {D L : Multiset Duty} {rq : Request} {q : List Request} (hq : d.queue = rq :: q)
      (hr : d.ip.rq = none) : Post ⟨d, D, L⟩ ⟨startRq d rq q, D, L⟩
  | take {d : Aoedev} {D L : Multiset Duty} {r i : ℕ} (hb : d.ip.buf = none) (hr : d.ip.rq = some r)
      (hi : d.ip.nxbio = some i) : Post ⟨d, D, L⟩ ⟨takeBio d r i, D, L⟩
  | cut {d d' : Aoedev} {D L : Multiset Duty} {b : ℕ} {f : Frame} {x : Duty} {ext : Bool} (hb : d.ip.buf = some b)
      (hm : WholeSectors d.maxbcnt) (hd : d'.blk = ((cutBuf d b).noteCut f (d.bufAt b)).blk)
      (hn : d'.hist.ncmds = d.hist.ncmds + 1) (hcmd : f.cmd = d.hist.ncmds)
      (hiter : f.iter = cutIter d.maxbcnt (d.bufAt b).iter)
      (hx : x = ⟨b, f.cmd, f.iter, ataRwHdr ext (d.rqAt (d.bufAt b).rq).write f.iter⟩) :
      Post ⟨d, D, L⟩ ⟨d', x ::ₘ D, L⟩
  | process {d : Aoedev} {D L : Multiset Duty} {f : Frame} {x : Duty} (hx : f.duty = some x) (hp : f.probe = false) :
      Post ⟨d, x ::ₘ D, L⟩ ⟨(ktioData (noteProcessed d f) f).1, D, x ::ₘ L⟩
  | finish {d : Aoedev} {D L : Multiset Duty} {x : Duty} :
      Post ⟨d, D, x ::ₘ L⟩ ⟨settle (decNframesout d x.buf) x.buf, D, L⟩
  | lose {d : Aoedev} {D L : Multiset Duty} {x : Duty} :
      Post ⟨d, x ::ₘ D, L⟩ ⟨settle (spoilBuf (decNframesout d x.buf) x.buf) x.buf, D, L⟩
  | spoil {d : Aoedev} {D L : Multiset Duty} {b : ℕ} (hb : d.ip.buf = some b) :
      Post ⟨d, D, L⟩ ⟨settle (spoilBuf d b) b, D, L⟩
  | failRest {d : Aoedev} {D L : Multiset Duty} {r : ℕ} (hr : d.ip.rq = some r) : Post ⟨d, D, L⟩ ⟨failRest d r, D, L⟩
  | failFirst {d : Aoedev} {D L : Multiset Duty} {rq : Request} {q : List Request} (hq : d.queue = rq :: q) :
      Post ⟨d, D, L⟩ ⟨endRequest { d with queue := q, rqs := rq :: d.rqs } rq.id true, D, L⟩

def Posts : Stage → Stage → Prop := Relation.ReflTransGen Post

section Keep

variable {d : Aoedev} {B : Multiset ℕ} {b : ℕ}

theorem Books.congr {k k' : Blk} (h : Books k B) (hk : k'.blkq = k.blkq) (hip : k'.ip = k.ip) (hq : k'.queue = k.queue) (hr : k'.rqs = k.rqs)
    (hb : k'.bufs = k.bufs) (hi : k'.bufIds = k.bufIds) (ht : k'.taken = k.taken) (he : k'.ended = k.ended)
    (hu : ∀ c ∈ k'.underflow, c ∈ k.underflow ∨ c = .ref) : Books k' B := by
  obtain ⟨⟩ := k
  obtain ⟨⟩ := k'
  dsimp only at hk hip hq hr hb hi ht he hu
  subst hk hip hq hr hb hi ht he
  refine { h with underflow := ?_ }
  intro c hc
  rcases hu c hc with hc | hc
  · exact h.underflow c hc
  · exact hc

theorem Books.settle (h : Acct d.blk B) (hb : b ∈ d.bufs.map Buf.id)
    (hlive : ∀ x ∈ d.bufs, x.id ≠ b → x.iter.size = 0 → x.nframesout ≠ 0)
    (hdue : ∀ rq ∈ d.rqs, rq.special ≠ 0) : Books (settle d b).blk B := by
  obtain ⟨hmem, hid, -⟩ := h.buf_of_mem hb
  unfold AoeDriver.settle
  split
  · rename_i hz
    have hfree : b ∉ B := by
      have hn := h.nframesout _ hmem
      rw [hz.1, hid] at hn
      exact Multiset.count_eq_zero.mp hn.symm
    exact Books.closeBuf h hb hfree hlive hdue
  · rename_i hz
    refine { h with live := ?_, due := hdue }
    intro x hx hsize
    by_cases hxb : x.id = b
    · have hx' : d.bufAt b = x := by rw [← hxb, h.bufAt_mem hx]
      rw [hx'] at hz
      exact fun hn => hz ⟨hn, hsize⟩
    · exact hlive x hx hxb hsize

theorem rqs_decNframesout (d : Aoedev) (b : ℕ) : (decNframesout d b).rqs = d.rqs := rqs_notePred _ _ _

private theorem mem_decNframesout {x : Buf} (hx : x ∈ (decNframesout d b).bufs) (hne : x.id ≠ b) : x ∈ d.bufs := by
  simp only [decNframesout, Aoedev.modBuf, bufs_notePred, List.mem_map] at hx
  obtain ⟨y, hy, rfl⟩ := hx
  split at hne
  · rename_i hyb
    exact absurd hyb hne
  · rename_i hyb
    rwa [if_neg hyb]

theorem ids_decNframesout (d : Aoedev) (b : ℕ) : (decNframesout d b).bufs.map Buf.id = d.bufs.map Buf.id := by
  simp only [decNframesout, Aoedev.modBuf, bufs_notePred]
  exact map_adjust Buf.id fun _ _ _ => rfl

theorem mem_spoilBuf {x : Buf} (hx : x ∈ (spoilBuf d b).bufs) (hne : x.id ≠ b) : x ∈ d.bufs := by
  obtain ⟨y, hy, rfl⟩ := List.mem_map.mp hx
  split at hne
  · rename_i hyb
    exact absurd hyb hne
  · rename_i hyb
    rwa [if_neg hyb]

theorem ids_spoilBuf (d : Aoedev) (b : ℕ) : (spoilBuf d b).bufs.map Buf.id = d.bufs.map Buf.id :=
  map_adjust Buf.id fun _ _ _ => rfl

private theorem special_failBio {P : ℕ → Prop} (h : ∀ rq ∈ d.rqs, P rq.special) :
    ∀ rq ∈ (failBio d b).rqs, P rq.special := by
  refine List.forall_mem_map.mpr fun rq hrq => ?_
  split
  · exact h rq hrq
  · exact h rq hrq

theorem Books.finish (h : Books d.blk (b ::ₘ B)) : Books (AoeDriver.settle (decNframesout d b) b).blk B := by
  refine Books.settle h.toAcct.decNframesout ?_ ?_ ?_
  · rw [ids_decNframesout]
    exact h.held b (by simp)
  · intro x hx hne
    exact h.live x (mem_decNframesout hx hne)
  · rw [rqs_decNframesout]
    exact h.due

theorem Books.spoil (h : Acct d.blk B) (hb : b ∈ d.bufs.map Buf.id)
    (hlive : ∀ x ∈ d.bufs, x.id ≠ b → x.iter.size = 0 → x.nframesout ≠ 0)
    (hdue : ∀ rq ∈ d.rqs, rq.special ≠ 0) : Books (AoeDriver.settle (spoilBuf d b) b).blk B := by
  refine Books.settle h.spoilBuf ?_ ?_ ?_
  · rw [ids_spoilBuf]
    exact hb
  · intro x hx hne
    exact hlive x (mem_spoilBuf hx hne) hne
  · exact special_failBio (P := (· ≠ 0)) hdue

theorem Books.lose (h : Books d.blk (b ::ₘ B)) : Books (AoeDriver.settle (spoilBuf (decNframesout d b) b) b).blk B := by
  refine Books.spoil h.toAcct.decNframesout ?_ ?_ ?_
  · rw [ids_decNframesout]
    exact h.held b (by simp)
  · intro x hx hne
    exact h.live x (mem_decNframesout hx hne)
  · rw [rqs_decNframesout]
    exact h.due

/-- The loop of `aoe_failip` touches one request only. -/
theorem failBios_others (r n : ℕ) (d : Aoedev) : (failBios r n d).bufs = d.bufs ∧
    (failBios r n d).rqs.map Request.id = d.rqs.map Request.id ∧ (∀ x ∈ (failBios r n d).rqs, x.id ≠ r → x ∈ d.rqs) ∧
    (failBios r n d).ip.rq = d.ip.rq ∧ (failBios r n d).ip.buf = d.ip.buf := by
  induction n generalizing d with
  | zero => exact ⟨rfl, rfl, fun _ hx _ => hx, rfl, rfl⟩
  | succ n ih =>
    unfold failBios
    split
    · exact ⟨rfl, rfl, fun _ hx _ => hx, rfl, rfl⟩
    · rename_i i _
      have hrqs : (failNext d r i).rqs = d.rqs.map fun x => if x.id = r then
          { x with special := predUlong (d.rqAt r).special
                   bios := x.bios.modify i fun bio => { bio with error := true } } else x := by
        simp only [failNext, Aoedev.setNxbio, Aoedev.modRq, rqs_notePred]
      have hip : (failNext d r i).ip.rq = d.ip.rq ∧ (failNext d r i).ip.buf = d.ip.buf := by
        unfold failNext Aoedev.notePred
        dsimp only
        split
        · exact ⟨rfl, rfl⟩
        · exact ⟨rfl, rfl⟩
      obtain ⟨h₁, h₂, h₃, h₄, h₅⟩ := ih (failNext d r i)
      refine ⟨h₁.trans ?_, h₂.trans ?_, ?_, h₄.trans hip.1, h₅.trans hip.2⟩
      · simp only [failNext, Aoedev.setNxbio, Aoedev.modRq, bufs_notePred]
      · rw [hrqs]
        exact map_adjust Request.id fun _ _ _ => rfl
      · intro x hx hne
        have hx' := h₃ x hx hne
        rw [hrqs] at hx'
        obtain ⟨y, hy, rfl⟩ := List.mem_map.mp hx'
        split at hne
        · rename_i hyr
          exact absurd hyr hne
        · rename_i hyr
          rwa [if_neg hyr]

theorem Books.failRest (h : Books d.blk B) {r : ℕ} (hr : d.ip.rq = some r) : Books (failRest d r).blk B := by
  obtain ⟨hbufs, hids, hothers, -, -⟩ := failBios_others r (d.rqAt r).bios.length d
  have hacct := h.toAcct.failBios (d.rqAt r).bios.length hr
  unfold AoeDriver.failRest
  dsimp only
  generalize failBios r (d.rqAt r).bios.length d = d' at hbufs hids hothers hacct ⊢
  have hlive : ∀ x ∈ d'.bufs, x.iter.size = 0 → x.nframesout ≠ 0 := by
    rw [hbufs]
    exact h.live
  split
  · rename_i hz
    obtain ⟨rq, hrq, hid, -⟩ := h.ipRq r hr
    refine { hacct.endRequest ?_ hz with live := hlive, due := ?_ }
    · rw [hids]
      exact List.mem_map.mpr ⟨rq, hrq, hid⟩
    · intro x hx
      have hx' : x ∈ d'.rqs ∧ x.id ≠ r := by simpa [Aoedev.blk, endRequest] using hx
      exact h.due x (hothers x hx'.1 hx'.2)
  · rename_i hz
    refine { hacct with live := hlive, due := ?_ }
    intro x hx
    by_cases hxr : x.id = r
    · rw [← hxr, hacct.rqAt_mem hx] at hz
      exact hz
    · exact h.due x (hothers x hx hxr)

theorem Books.ready (h : Books d.blk B) : Books (Aoedev.blk { d with blkq := true }) B :=
  { h with queued := fun hk => absurd hk Bool.noConfusion }

theorem Books.queue (h : Books d.blk B) {rq : Request} (hk : d.blkq = true) (hf : rq.fresh = true)
    (hid : rq.id ∉ d.queue.map Request.id ++ (d.rqs.map Request.id ++ d.hist.ended.map (·.rq.id))) :
    Books ({ d with queue := d.queue ++ [rq] } : Aoedev).blk B := by
  refine { h with ids := ?_, fresh := ?_, queued := fun hz => absurd (hk.symm.trans hz) Bool.noConfusion }
  · have hp : (d.queue.map Request.id ++ [rq.id] ++ (d.rqs.map Request.id ++ d.hist.ended.map (·.rq.id))).Perm
        (rq.id :: (d.queue.map Request.id ++ (d.rqs.map Request.id ++ d.hist.ended.map (·.rq.id)))) := by
      rw [List.append_assoc]
      exact List.perm_middle
    have hn := hp.nodup_iff.mpr (List.nodup_cons.mpr ⟨hid, h.ids⟩)
    simpa [Aoedev.blk] using hn
  · intro x hx
    rcases List.mem_append.mp hx with hx | hx
    · exact h.fresh x hx
    · rw [List.mem_singleton.mp hx]
      exact hf

/-- The outcome of `ktiocomplete` that marks the bio of the frame. -/
def Frame.fails (f : Frame) : Bool :=
  match f.rSkb with
  | none => true
  | some r =>
    let ahout := (f.skb.getD default).ata
    let n := ahout.scnt.toNat <<< 9
    r.cmdstat &&& 0xa9 ≠ 0 ||
      (ahout.cmdstat = ATA_CMD_PIO_READ || ahout.cmdstat = ATA_CMD_PIO_READ_EXT) &&
        (r.payload.length < n || n > f.iter.size)

theorem ktioData_blk {f : Frame} (hp : f.probe = false) (hb : f.buf = some b) :
    (ktioData d f).1.blk = if f.fails then (failBio d b).blk else d.blk := by
  unfold ktioData Frame.fails
  rw [hp, hb]
  simp only [Bool.false_eq_true, if_false]
  cases f.rSkb with
  | none => simp
  | some r =>
    dsimp only
    generalize (f.skb.getD default).ata = ah
    by_cases hs : r.cmdstat &&& 0xa9 = 0
    · simp only [hs, ne_eq, not_true_eq_false, if_false, decide_false, Bool.false_or]
      by_cases hc : ah.cmdstat = ATA_CMD_PIO_READ ∨ ah.cmdstat = ATA_CMD_PIO_READ_EXT
      · have hc' : (decide (ah.cmdstat = ATA_CMD_PIO_READ) || decide (ah.cmdstat = ATA_CMD_PIO_READ_EXT)) = true := by
          simpa using hc
        rw [if_pos hc, hc', Bool.true_and]
        by_cases hl : r.payload.length < ah.scnt.toNat <<< 9
        · simp [hl]
        · by_cases hn : ah.scnt.toNat <<< 9 > f.iter.size
          · simp [hl, hn]
          · simp only [hl, hn, if_false, decide_false, Bool.or_self, Bool.false_eq_true]
            rfl
      · have hc' : (decide (ah.cmdstat = ATA_CMD_PIO_READ) || decide (ah.cmdstat = ATA_CMD_PIO_READ_EXT)) = false := by
          simpa using hc
        rw [if_neg hc, hc', Bool.false_and]
        simp only [Bool.false_eq_true, if_false]
        split
        · rfl
        · split
          · split
            · rfl
            · rfl
          · rfl
    · simp only [ne_eq, hs, not_false_eq_true, if_true, decide_true, Bool.true_or]

private theorem noteProcessed_books (d : Aoedev) (f : Frame) (h : Books d.blk B) : Books (noteProcessed d f).blk B := by
  unfold noteProcessed
  split
  · exact h.congr rfl rfl rfl rfl rfl rfl rfl rfl fun c hc => .inl hc
  · exact h

theorem Books.process {f : Frame} (h : Books d.blk B) (hp : f.probe = false) (hb : f.buf = some b) :
    Books (ktioData (noteProcessed d f) f).1.blk B := by
  have h' := noteProcessed_books d f h
  rw [ktioData_blk hp hb]
  split
  · exact { h'.toAcct.failBio with live := h'.live, due := special_failBio (P := (· ≠ 0)) h'.due }
  · exact h'

end Keep

theorem Frame.duty_buf {f : Frame} {x : Duty} (h : f.duty = some x) : f.buf = some x.buf := by
  unfold Frame.duty at h
  obtain ⟨b, hb, rfl⟩ := Option.map_eq_some_iff.mp h
  exact hb

theorem Post.books {s s' : Stage} (p : Post s s') (h : Books s.dev.blk s.refs) : Books s'.dev.blk s'.refs := by
  cases p with
  | quiet hb hn hu =>
    refine h.congr ?_ ?_ ?_ ?_ ?_ ?_ ?_ ?_ hu
    · exact Blk.core_field Blk.blkq (fun _ => rfl) hb
    · exact Blk.core_field Blk.ip (fun _ => rfl) hb
    · exact Blk.core_field Blk.queue (fun _ => rfl) hb
    · exact Blk.core_field Blk.rqs (fun _ => rfl) hb
    · exact Blk.core_field Blk.bufs (fun _ => rfl) hb
    · exact Blk.core_field Blk.bufIds (fun _ => rfl) hb
    · exact Blk.core_field Blk.taken (fun _ => rfl) hb
    · exact Blk.core_field Blk.ended (fun _ => rfl) hb
  | ready => exact h.ready
  | queue hk hf hid => exact h.queue hk hf hid
  | start hq hr => exact h.startRq hq hr
  | take hb hr hi => exact h.takeBio hb hr hi
  | @cut d d' D L b f x ext hb hm hd hn hcmd hiter hx =>
    have h' := h.cutBuf hb
    have hrefs : Stage.refs ⟨d', x ::ₘ D, L⟩ = b ::ₘ Stage.refs ⟨d, D, L⟩ := by simp [Stage.refs, hx]
    rw [hrefs]
    dsimp only
    rw [hd]
    exact h'.congr rfl rfl rfl rfl rfl rfl rfl rfl fun c hc => .inl hc
  | @process d D L f x hx hp =>
    have hrefs : Stage.refs ⟨(ktioData (noteProcessed d f) f).1, D, x ::ₘ L⟩ = Stage.refs ⟨d, x ::ₘ D, L⟩ := by
      simp [Stage.refs]
    rw [hrefs]
    exact h.process hp (Frame.duty_buf hx)
  | @finish d D L x =>
    have hrefs : Stage.refs ⟨d, D, x ::ₘ L⟩ = x.buf ::ₘ Stage.refs ⟨d, D, L⟩ := by simp [Stage.refs]
    rw [hrefs] at h
    exact h.finish
  | @lose d D L x =>
    have hrefs : Stage.refs ⟨d, x ::ₘ D, L⟩ = x.buf ::ₘ Stage.refs ⟨d, D, L⟩ := by simp [Stage.refs]
    rw [hrefs] at h
    exact h.lose
  | @spoil d D L b hb =>
    exact Books.spoil h.toAcct (h.ipBuf b hb) (fun x hx _ => h.live x hx) h.due
  | failRest hr => exact h.failRest hr
  | failFirst hq => exact h.failFirst hq

theorem Posts.books {s s' : Stage} (p : Posts s s') (h : Books s.dev.blk s.refs) : Books s'.dev.blk s'.refs := by
  induction p with
  | refl => exact h
  | tail _ hp ih => exact hp.books ih

end AoeDriver
