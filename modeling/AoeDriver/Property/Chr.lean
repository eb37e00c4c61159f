import AoeDriver.Library.Ring
import AoeDriver.Model.Chr

/-!
# The error ring is a queue

`Rings` says which messages the ring holds. What each stretch of code under the lock does is said once, in terms of
these messages; that the ring is a queue and that readers are woken both follow from it.
-/

namespace AoeDriver

open Machine

variable {q : List Msg} {m : Msg}

theorem ErrMsg.lenOf_eq {n : ℕ} (h : n < 32768) : lenOf n = n := by
  unfold lenOf
  rw [Int.bmod_eq_of_le] <;> omega

theorem ErrMsg.exceeds_holding {cnt : ℕ} (h : m.length < 32768) :
    (holding m).exceeds cnt = decide (cnt < m.length) := by
  have hmod : ((m.length : Int) % 2^64).toNat = m.length := by omega
  simp only [exceeds, holding, lenOf_eq h, hmod]

def ErrMsg.entry (em : ErrMsg) : Option ErrMsg := if em.valid then some em else none

/-- The ring holds the messages `q`. -/
def Emsgs.Rings (e : Emsgs) (q : List Msg) : Prop :=
  Ring.Holds NMSG (fun i => (e.slots i).entry) e.headIdx e.tailIdx (q.map ErrMsg.holding)

namespace Emsgs.Rings

variable {e : Emsgs}

theorem length_le (h : e.Rings q) : q.length ≤ NMSG := by
  simpa using Ring.Holds.length_le h

private theorem valid_iff (h : e.Rings q) {i : ℕ} (hi : i < NMSG) :
    (e.slots i).valid = true ↔ ∃ k < q.length, i = (e.headIdx + k) % NMSG := by
  have hused := Ring.Holds.used_iff h hi
  rw [List.length_map] at hused
  rw [← hused]
  simp [ErrMsg.entry]

theorem full_iff (h : e.Rings q) : (e.slots e.tailIdx).valid = true ↔ q.length = NMSG := by
  have hfull := Ring.Holds.full_iff h
  rw [List.length_map] at hfull
  rw [← hfull]
  simp [ErrMsg.entry]

private theorem front_nil (h : e.Rings []) : (e.slots e.headIdx).valid = false := by
  simpa [ErrMsg.entry] using Ring.Holds.front h

private theorem front_cons (h : e.Rings (m :: q)) : e.slots e.headIdx = ErrMsg.holding m := by
  have hfront := Ring.Holds.front h
  simp only [ErrMsg.entry, List.map_cons, List.head?_cons] at hfront
  split at hfront
  · exact Option.some.inj hfront
  · cases hfront

theorem update (e : Emsgs) (i : ℕ) (em : ErrMsg) : (fun j => (Function.update e.slots i em j).entry) =
    Function.update (fun j => (e.slots j).entry) i em.entry :=
  Function.comp_update ErrMsg.entry e.slots i em

theorem push (h : e.Rings q) (hlt : q.length < NMSG) :
    Emsgs.Rings ⟨Function.update e.slots e.tailIdx (.holding m), e.headIdx, (e.tailIdx + 1) % NMSG⟩ (q ++ [m]) := by
  have hpush := Ring.Holds.push (x := ErrMsg.holding m) h (by simpa using hlt)
  unfold Emsgs.Rings
  rw [update, List.map_append]
  exact hpush

theorem pop (h : e.Rings (m :: q)) (em : ErrMsg) (hem : em.valid = false) :
    Emsgs.Rings ⟨Function.update e.slots e.headIdx em, (e.headIdx + 1) % NMSG, e.tailIdx⟩ q := by
  have hnone : em.entry = none := by simp [ErrMsg.entry, hem]
  have hpop := Ring.Holds.pop (x := ErrMsg.holding m) h
  unfold Emsgs.Rings
  rw [update, hnone]
  exact hpop

end Emsgs.Rings

namespace Chr

variable {s s' : Chr} {r : Reader} {ndelay dup : Bool} {e : Event} {o : Outcome}

private theorem error_cases (h : s.emsgs.Rings q) (m : Msg) (dup : Bool) :
    ((q.length = NMSG ∨ dup = false) ∧ s.error m dup = (s, .dropped)) ∨
    (q.length < NMSG ∧ dup = true ∧ ∃ em, em.Rings (q ++ [m]) ∧
      s.error m dup =
        ({ s with emsgs := em, testing := s.testing + 1, stored := s.stored ++ [m] }, .stored)) := by
  unfold error
  by_cases hfull : q.length = NMSG
  · exact .inl ⟨.inl hfull, if_pos (h.full_iff.mpr hfull)⟩
  · have hvalid : ¬(s.emsgs.slots s.emsgs.tailIdx).valid = true := fun hv => hfull (h.full_iff.mp hv)
    simp only [if_neg hvalid]
    cases dup with
    | false => exact .inl ⟨.inr rfl, rfl⟩
    | true =>
      have hlt := lt_of_le_of_ne h.length_le hfull
      exact .inr ⟨hlt, rfl, _, h.push hlt, rfl⟩

private theorem look_nil (h : s.emsgs.Rings []) (r : Reader) (ndelay : Bool) :
    (ndelay = true ∧ s.look r ndelay = (s, .eagain)) ∨
    (ndelay = false ∧ s.look r ndelay =
      ({ s with nblockedEmsgsReaders := s.nblockedEmsgsReaders + 1, calling := s.calling ++ [r] }, .pending)) := by
  unfold look
  simp only [h.front_nil]
  cases ndelay with
  | false => exact .inr ⟨rfl, rfl⟩
  | true => exact .inl ⟨rfl, rfl⟩

private theorem look_cons (h : s.emsgs.Rings (m :: q)) (r : Reader) (ndelay : Bool) :
    ((ErrMsg.holding m).exceeds r.cnt = true ∧ s.look r ndelay = (s, .eagain)) ∨
    ((ErrMsg.holding m).exceeds r.cnt = false ∧ ∃ em, em.Rings q ∧ s.look r ndelay =
      ({ s with emsgs := em, taken := s.taken ++ [m] }, .took (ErrMsg.lenOf m.length) (some m))) := by
  have hvalid : (ErrMsg.holding m).valid = true := rfl
  have hlen : (ErrMsg.holding m).len = ErrMsg.lenOf m.length := by simp only [ErrMsg.holding]
  have hmsg : (ErrMsg.holding m).msg = some m := rfl
  unfold look
  simp only [h.front_cons, if_pos hvalid, hlen, hmsg, Option.toList_some]
  cases hex : (ErrMsg.holding m).exceeds r.cnt with
  | true => exact .inl ⟨rfl, if_pos rfl⟩
  | false =>
    rw [if_neg Bool.false_ne_true]
    refine .inr ⟨rfl, _, ?_, rfl⟩
    exact h.pop ⟨false, ErrMsg.lenOf m.length, none⟩ rfl

private theorem up_emsgs (s : Chr) : s.up.emsgs = s.emsgs ∧ s.up.stored = s.stored ∧ s.up.taken = s.taken := by
  unfold up
  split <;> exact ⟨rfl, rfl, rfl⟩

private theorem down_emsgs (s : Chr) (r : Reader) (signal : Bool) : (s.down r signal).emsgs = s.emsgs ∧
    (s.down r signal).stored = s.stored ∧ (s.down r signal).taken = s.taken := by
  unfold down
  split
  · exact ⟨rfl, rfl, rfl⟩
  · split <;> exact ⟨rfl, rfl, rfl⟩

/-- What an event asks of the queue. -/
inductive Op where
  | write (msg : Msg) (dup : Bool)
  | read (cnt : ℕ) (ndelay : Bool)
  | leave
  | idle

def op (s : Chr) : Event → Op
  | .error msg dup => .write msg dup
  | .read cnt ndelay => .read cnt ndelay
  | .relock k ndelay =>
    match s.woken[k]? with
    | some r => .read r.cnt ndelay
    | none => .idle
  | .restart _ => .leave
  | _ => .idle

/-- A first-in first-out queue of at most `NMSG` messages. -/
def fifo (q : List Msg) : Op → List Msg × Outcome
  | .write msg dup => if q.length = NMSG ∨ dup = false then (q, .dropped) else (q ++ [msg], .stored)
  | .read cnt ndelay =>
    match q with
    | [] => ([], if ndelay then .eagain else .pending)
    | m :: rest => if cnt < m.length then (q, .eagain) else (rest, .took m.length (some m))
  | .leave => (q, .erestartsys)
  | .idle => (q, .pending)

/-- The ring holds the messages written and not yet read, in their order. -/
structure Queued (s : Chr) (q : List Msg) : Prop where
  rings : s.emsgs.Rings q
  order : s.stored = s.taken ++ q
  short : ∀ m ∈ q, m.length < 32768

theorem Queued.congr (h : s.Queued q) (he : s'.emsgs = s.emsgs ∧ s'.stored = s.stored ∧ s'.taken = s.taken) :
    s'.Queued q := by
  obtain ⟨hring, hstored, htaken⟩ := he
  refine ⟨hring ▸ h.rings, ?_, h.short⟩
  rw [hstored, htaken]
  exact h.order

/-- One step of the code on the ring is one step of the queue, with the same outcome. -/
def Simulates (s s' : Chr) (q : List Msg) (op : Op) (o : Outcome) : Prop :=
  ∃ q', s'.Queued q' ∧ fifo q op = (q', o) ∧ (o = .eagain ∨ o = .dropped → s'.emsgs = s.emsgs)

theorem Queued.error (h : s.Queued q) (hm : m.length < 32768) :
    Simulates s (s.error m dup).1 q (.write m dup) (s.error m dup).2 := by
  rcases error_cases h.rings m dup with ⟨hdrop, heq⟩ | ⟨hlt, hdup, em, hring, heq⟩
  · rw [heq]
    exact ⟨q, h, if_pos hdrop, fun _ => rfl⟩
  · rw [heq]
    have hkeep : ¬(q.length = NMSG ∨ dup = false) := by
      simp [hdup, hlt.ne]
    refine ⟨q ++ [m], ⟨hring, ?_, ?_⟩, if_neg hkeep, by simp⟩
    · show s.stored ++ [m] = s.taken ++ (q ++ [m])
      rw [h.order, List.append_assoc]
    · intro m' hm'
      rcases List.mem_append.mp hm' with hq | hlast
      · exact h.short m' hq
      · exact List.mem_singleton.mp hlast ▸ hm

theorem Queued.look (h : s.Queued q) :
    Simulates s (s.look r ndelay).1 q (.read r.cnt ndelay) (s.look r ndelay).2 := by
  cases q with
  | nil =>
    rcases look_nil h.rings r ndelay with ⟨hn, heq⟩ | ⟨hn, heq⟩
    · rw [heq]
      exact ⟨[], h, by simp [fifo, hn], fun _ => rfl⟩
    · rw [heq]
      exact ⟨[], h.congr ⟨rfl, rfl, rfl⟩, by simp [fifo, hn], fun _ => rfl⟩
  | cons m q =>
    have hm := h.short m (List.mem_cons_self ..)
    rcases look_cons h.rings r ndelay with ⟨hex, heq⟩ | ⟨hex, em, hring, heq⟩
    · rw [ErrMsg.exceeds_holding hm, decide_eq_true_iff] at hex
      rw [heq]
      exact ⟨m :: q, h, if_pos hex, fun _ => rfl⟩
    · rw [ErrMsg.exceeds_holding hm, decide_eq_false_iff_not] at hex
      rw [heq, ErrMsg.lenOf_eq hm]
      refine ⟨q, ⟨hring, ?_, fun m' hm' => h.short m' (List.mem_cons_of_mem m hm')⟩, if_neg hex, by simp⟩
      show s.stored = s.taken ++ [m] ++ q
      rw [h.order, List.append_assoc, List.singleton_append]

theorem Queued.exec (h : s.Queued q) (hok : shortMsgs s e = true) (he : s.exec e = some (s', o)) :
    Simulates s s' q (s.op e) o := by
  have hidle (hs : s'.emsgs = s.emsgs ∧ s'.stored = s.stored ∧ s'.taken = s.taken) (ho : o = .pending) :
      Simulates s s' q .idle o := ⟨q, h.congr hs, by simp [fifo, ho], fun _ => hs.1⟩
  cases e with
  | error m dup =>
    obtain ⟨rfl, rfl⟩ := Prod.ext_iff.mp (Option.some.inj he)
    exact h.error (by simpa [shortMsgs] using hok)
  | test =>
    simp only [Chr.exec] at he
    split at he
    · cases he
    · split at he
      all_goals
        obtain ⟨rfl, rfl⟩ := Prod.ext_iff.mp (Option.some.inj he)
        exact hidle ⟨rfl, rfl, rfl⟩ rfl
  | up =>
    simp only [Chr.exec] at he
    split at he
    · cases he
    · obtain ⟨rfl, rfl⟩ := Prod.ext_iff.mp (Option.some.inj he)
      exact hidle (up_emsgs _) rfl
  | read cnt ndelay =>
    obtain ⟨rfl, rfl⟩ := Prod.ext_iff.mp (Option.some.inj he)
    exact h.look
  | down k signal =>
    simp only [Chr.exec] at he
    split at he
    · obtain ⟨rfl, rfl⟩ := Prod.ext_iff.mp (Option.some.inj he)
      exact hidle (down_emsgs _ _ _) rfl
    · cases he
  | signal k =>
    simp only [Chr.exec] at he
    split at he
    · obtain ⟨rfl, rfl⟩ := Prod.ext_iff.mp (Option.some.inj he)
      exact hidle ⟨rfl, rfl, rfl⟩ rfl
    · cases he
  | relock k ndelay =>
    simp only [Chr.exec] at he
    split at he
    · rename_i r hr
      obtain ⟨rfl, rfl⟩ := Prod.ext_iff.mp (Option.some.inj he)
      simp only [op, hr]
      exact Queued.look (h.congr ⟨rfl, rfl, rfl⟩)
    · cases he
  | restart k =>
    simp only [Chr.exec] at he
    split at he
    · obtain ⟨rfl, rfl⟩ := Prod.ext_iff.mp (Option.some.inj he)
      exact ⟨q, h.congr ⟨rfl, rfl, rfl⟩, rfl, fun _ => rfl⟩
    · cases he

private theorem init_rings : init.emsgs.Rings [] := by
  have hempty := Ring.Holds.empty (α := ErrMsg) (show 0 < NMSG by decide)
  exact hempty

/-- A step that meets the guard, without its outcome. -/
def advance (ok : Chr → Event → Bool) (s : Chr) (e : Event) : Option Chr :=
  if ok s e then (s.exec e).map Prod.fst else none

theorem reachedBy_execute {ok : Chr → Event → Bool} {es : List Event} (h : execute (advance ok) init es = some s) :
    s.ReachedBy ok := by
  refine Reach.guarded (fun (s : Chr) (e : Event) => (s.exec e).map Prod.fst) ok ?_ es (.init rfl) h
  intro s e s' he
  obtain ⟨⟨s₁, o⟩, hex, rfl⟩ := Option.map_eq_some_iff.mp he
  exact ⟨o, hex⟩

private theorem reachedBy_queued (h : s.ReachedBy shortMsgs) : ∃ q, s.Queued q := by
  refine Reach.invariant (P := fun s => ∃ q, s.Queued q) ?_ ?_ h
  · rintro s rfl
    exact ⟨[], init_rings, rfl, by simp⟩
  · rintro s e s' - ⟨q, hq⟩ hok ⟨o, he⟩
    obtain ⟨q', hq', -, -⟩ := hq.exec hok he
    exact ⟨q', hq'⟩

/-- The entries in use are those from head to tail, cyclically; they hold the messages stored and not yet read, in the
order they were stored; and whatever happens next is what happens to a queue of at most `NMSG` messages. -/
theorem error_ring_fifo (h : s.ReachedBy shortMsgs) :
    ∃ q, s.emsgs.Rings q ∧ s.emsgs.headIdx < NMSG ∧ s.emsgs.tailIdx = (s.emsgs.headIdx + q.length) % NMSG ∧
      (∀ i < NMSG, (s.emsgs.slots i).valid = true ↔ ∃ k < q.length, i = (s.emsgs.headIdx + k) % NMSG) ∧
      s.stored = s.taken ++ q ∧
      ∀ e s' o, shortMsgs s e = true → s.exec e = some (s', o) →
        ∃ q', s'.emsgs.Rings q' ∧ fifo q (s.op e) = (q', o) ∧ (o = .eagain ∨ o = .dropped → s'.emsgs = s.emsgs) := by
  obtain ⟨q, hq⟩ := reachedBy_queued h
  have htail := hq.rings.tail_eq
  rw [List.length_map] at htail
  refine ⟨q, hq.rings, hq.rings.head_lt, htail, fun i hi => hq.rings.valid_iff hi, hq.order, ?_⟩
  intro e s' o hok he
  obtain ⟨q', hq', hstep, hsame⟩ := hq.exec hok he
  exact ⟨q', hq'.rings, hstep, hsame⟩

/-- Two messages are written and the first is read. -/
def errorSample : List Event := [.error [65, 66] true, .error [67] true, .read 2 true]

theorem error_ring_fifo_sample : ∃ s, execute (advance shortMsgs) init errorSample = some s ∧
    s.taken = [[65, 66]] ∧ ∃ q, s.emsgs.Rings q ∧ s.stored = s.taken ++ q := by
  obtain ⟨s, hs⟩ : ∃ s, execute (advance shortMsgs) init errorSample = some s := ⟨_, rfl⟩
  have htest : (execute (advance shortMsgs) init errorSample).map Chr.taken = some [[65, 66]] := rfl
  rw [hs, Option.map_some, Option.some.injEq] at htest
  obtain ⟨q, hring, -, -, -, horder, -⟩ := error_ring_fifo (reachedBy_execute hs)
  exact ⟨s, hs, htest, q, hring, horder⟩

/-- While a reader is blocked, each message in the ring has something under way that will take it: a count of the
semaphore, a reader on its way back to the lock, or a writer on its way to `up`. -/
structure Awaited (s : Chr) (q : List Msg) : Prop where
  rings : s.emsgs.Rings q
  blocked : s.nblockedEmsgsReaders =
    s.calling.length + s.waiting.length + s.woken.length + s.signalled.length
  tokens : 0 < s.calling.length + s.waiting.length →
    q.length ≤ s.count + s.woken.length + s.testing + s.raising

private theorem length_eraseIdx_of_getElem? {α : Type*} {l : List α} {k : ℕ} {a : α} (h : l[k]? = some a) :
    (l.eraseIdx k).length + 1 = l.length := by
  have hlt := (List.getElem?_eq_some_iff.mp h).1
  rw [List.length_eraseIdx_of_lt hlt]
  omega

theorem Awaited.error (h : s.Awaited q) : ∃ q', (s.error m dup).1.Awaited q' := by
  rcases error_cases h.rings m dup with ⟨-, heq⟩ | ⟨-, -, em, hring, heq⟩
  · rw [heq]
    exact ⟨q, h⟩
  · rw [heq]
    refine ⟨q ++ [m], hring, h.blocked, fun hpos => ?_⟩
    have htok := h.tokens hpos
    simp only [List.length_append, List.length_singleton]
    omega

theorem Awaited.look (h : s.Awaited q) : ∃ q', (s.look r ndelay).1.Awaited q' := by
  cases q with
  | nil =>
    rcases look_nil h.rings r ndelay with ⟨-, heq⟩ | ⟨-, heq⟩
    · rw [heq]
      exact ⟨[], h⟩
    · rw [heq]
      refine ⟨[], h.rings, ?_, fun _ => Nat.zero_le _⟩
      have hb := h.blocked
      simp only [List.length_append, List.length_singleton]
      omega
  | cons m q =>
    rcases look_cons h.rings r ndelay with ⟨-, heq⟩ | ⟨-, em, hring, heq⟩
    · rw [heq]
      exact ⟨m :: q, h⟩
    · rw [heq]
      exact ⟨q, hring, h.blocked, fun hpos => Nat.le_of_succ_le (h.tokens hpos)⟩

theorem Awaited.test (h : s.Awaited q) (hn : s.nblockedEmsgsReaders = 0) :
    { s with testing := s.testing - 1 }.Awaited q := by
  refine ⟨h.rings, h.blocked, fun hpos => ?_⟩
  have hb := h.blocked
  simp only at hpos
  omega

theorem Awaited.raise (h : s.Awaited q) :
    { s with testing := s.testing - 1, raising := s.raising + 1 }.Awaited q := by
  refine ⟨h.rings, h.blocked, fun hpos => ?_⟩
  have htok := h.tokens hpos
  simp only
  omega

theorem Awaited.up (h : s.Awaited q) : { s with raising := s.raising - 1 }.up.Awaited q := by
  unfold Chr.up
  split
  · refine ⟨h.rings, h.blocked, fun hpos => ?_⟩
    have htok := h.tokens hpos
    simp only
    omega
  · rename_i r rest hw
    simp only at hw
    have hb := h.blocked
    have htok := h.tokens
    rw [hw, List.length_cons] at hb htok
    refine ⟨h.rings, ?_, fun hpos => ?_⟩
    · simp only [List.length_append, List.length_singleton]
      omega
    · have hle := htok (by omega)
      simp only [List.length_append, List.length_singleton]
      omega

theorem Awaited.down (h : s.Awaited q) {k : ℕ} (hr : s.calling[k]? = some r) (signal : Bool) :
    ({ s with calling := s.calling.eraseIdx k }.down r signal).Awaited q := by
  have hlen := length_eraseIdx_of_getElem? hr
  have hb := h.blocked
  have htok := h.tokens (by omega)
  unfold Chr.down
  simp only
  split
  · refine ⟨h.rings, ?_, fun _ => ?_⟩ <;> simp only [List.length_append, List.length_singleton] <;> omega
  · split
    · refine ⟨h.rings, ?_, fun _ => htok⟩
      simp only [List.length_append, List.length_singleton]
      omega
    · refine ⟨h.rings, ?_, fun _ => htok⟩
      simp only [List.length_append, List.length_singleton]
      omega

theorem Awaited.signal (h : s.Awaited q) {k : ℕ} (hr : s.waiting[k]? = some r) :
    { s with waiting := s.waiting.eraseIdx k, signalled := s.signalled ++ [r] }.Awaited q := by
  have hlen := length_eraseIdx_of_getElem? hr
  have hb := h.blocked
  refine ⟨h.rings, ?_, fun _ => h.tokens (by omega)⟩
  simp only [List.length_append, List.length_singleton]
  omega

theorem Awaited.restart (h : s.Awaited q) {k : ℕ} (hk : k < s.signalled.length) :
    { s with
      signalled := s.signalled.eraseIdx k
      nblockedEmsgsReaders := s.nblockedEmsgsReaders - 1 }.Awaited q := by
  have hb := h.blocked
  refine ⟨h.rings, ?_, h.tokens⟩
  simp only [List.length_eraseIdx_of_lt hk]
  omega

/-- A woken reader gives up its claim on a message: it must take one, find none, or be the only reader. -/
theorem Awaited.relock (h : s.Awaited q) {k : ℕ} (hr : s.woken[k]? = some r) (hok : roomy s (.relock k ndelay) = true) :
    ∃ q', ({ s with
      woken := s.woken.eraseIdx k
      nblockedEmsgsReaders := s.nblockedEmsgsReaders - 1 }.look r ndelay).1.Awaited q' := by
  have hlen := length_eraseIdx_of_getElem? hr
  have hb := h.blocked
  generalize hs₁ : { s with
    woken := s.woken.eraseIdx k
    nblockedEmsgsReaders := s.nblockedEmsgsReaders - 1 } = s₁
  have hring : s₁.emsgs.Rings q := hs₁ ▸ h.rings
  have hblocked : s₁.nblockedEmsgsReaders =
      s₁.calling.length + s₁.waiting.length + s₁.woken.length + s₁.signalled.length := by
    subst hs₁
    simp only
    omega
  cases q with
  | nil =>
    exact Awaited.look ⟨hring, hblocked, fun _ => Nat.zero_le _⟩
  | cons m q =>
    rcases look_cons hring r ndelay with ⟨hex, heq⟩ | ⟨-, em, hring', heq⟩
    · -- the message stays and the reader leaves, so no other reader may be blocked
      rw [heq]
      simp only [roomy, hr, h.rings.front_cons, hex] at hok
      have hnone : s.waiting = [] ∧ s.calling = [] := by simpa [ErrMsg.holding] using hok
      refine ⟨m :: q, hring, hblocked, fun hpos => ?_⟩
      subst hs₁
      simp [hnone.1, hnone.2] at hpos
    · rw [heq]
      refine ⟨q, hring', hblocked, fun hpos => ?_⟩
      subst hs₁
      have htok := h.tokens hpos
      rw [List.length_cons] at htok
      simp only
      omega

theorem Awaited.exec (h : s.Awaited q) (hok : roomy s e = true) (he : s.exec e = some (s', o)) :
    ∃ q', s'.Awaited q' := by
  cases e with
  | error m dup =>
    obtain ⟨rfl, -⟩ := Prod.ext_iff.mp (Option.some.inj he)
    exact h.error
  | test =>
    simp only [Chr.exec] at he
    split at he
    · cases he
    · rename_i ht
      split at he
      · rename_i hn
        obtain ⟨rfl, -⟩ := Prod.ext_iff.mp (Option.some.inj he)
        exact ⟨q, h.test hn⟩
      · obtain ⟨rfl, -⟩ := Prod.ext_iff.mp (Option.some.inj he)
        exact ⟨q, h.raise⟩
  | up =>
    simp only [Chr.exec] at he
    split at he
    · cases he
    · rename_i hr
      obtain ⟨rfl, -⟩ := Prod.ext_iff.mp (Option.some.inj he)
      exact ⟨q, h.up⟩
  | read cnt ndelay =>
    obtain ⟨rfl, -⟩ := Prod.ext_iff.mp (Option.some.inj he)
    exact h.look
  | down k signal =>
    simp only [Chr.exec] at he
    split at he
    · rename_i r hr
      obtain ⟨rfl, -⟩ := Prod.ext_iff.mp (Option.some.inj he)
      exact ⟨q, h.down hr signal⟩
    · cases he
  | signal k =>
    simp only [Chr.exec] at he
    split at he
    · rename_i r hr
      obtain ⟨rfl, -⟩ := Prod.ext_iff.mp (Option.some.inj he)
      exact ⟨q, h.signal hr⟩
    · cases he
  | relock k ndelay =>
    simp only [Chr.exec] at he
    split at he
    · rename_i r hr
      obtain ⟨rfl, -⟩ := Prod.ext_iff.mp (Option.some.inj he)
      exact h.relock hr hok
    · cases he
  | restart k =>
    simp only [Chr.exec] at he
    split at he
    · rename_i hk
      obtain ⟨rfl, -⟩ := Prod.ext_iff.mp (Option.some.inj he)
      exact ⟨q, h.restart hk⟩
    · cases he

private theorem reachedBy_awaited (h : s.ReachedBy roomy) : ∃ q, s.Awaited q := by
  refine Reach.invariant (P := fun s => ∃ q, s.Awaited q) ?_ ?_ h
  · rintro s rfl
    exact ⟨[], init_rings, rfl, fun _ => Nat.le_refl 0⟩
  · rintro s e s' - ⟨q, hq⟩ hok ⟨o, he⟩
    exact hq.exec hok he

theorem Emsgs.Rings.holdsMsg_iff (h : s.emsgs.Rings q) : s.holdsMsg = true ↔ q ≠ [] := by
  simp only [holdsMsg, List.any_eq_true, List.mem_range]
  constructor
  · rintro ⟨i, hi, hv⟩ rfl
    obtain ⟨k, hk, -⟩ := (h.valid_iff hi).mp hv
    exact absurd hk (Nat.not_lt_zero k)
  · intro hne
    have hhead := Ring.Holds.head_lt h
    refine ⟨s.emsgs.headIdx, hhead, (h.valid_iff hhead).mpr ⟨0, List.length_pos_of_ne_nil hne, ?_⟩⟩
    rw [Nat.add_zero, Nat.mod_eq_of_lt hhead]

/-- Where no woken reader turns back with too small a buffer while others are blocked, no reader is left asleep. -/
theorem no_lost_wakeup (h : s.ReachedBy roomy) : s.lostWakeup = false := by
  obtain ⟨q, hq⟩ := reachedBy_awaited h
  rw [← Bool.not_eq_true]
  intro hlost
  simp only [lostWakeup, Bool.and_eq_true, decide_eq_true_eq, Bool.not_eq_true', List.isEmpty_iff,
    List.isEmpty_eq_false_iff] at hlost
  obtain ⟨⟨⟨⟨⟨hmsg, hwait⟩, hcount⟩, hwoken⟩, htest⟩, hraise⟩ := hlost
  have hpos := List.length_pos_of_ne_nil ((Emsgs.Rings.holdsMsg_iff hq.rings).mp hmsg)
  have htok := hq.tokens (Nat.add_pos_right _ (List.length_pos_of_ne_nil hwait))
  rw [hcount, hwoken, htest, hraise] at htok
  exact absurd (hpos.trans_le htok) (Nat.lt_irrefl 0)

/-- Two readers wait, and the first message wakes the first of them. -/
def waking (cnt : ℕ) : List Event :=
  [.read cnt false, .read 4096 false, .down 0 false, .down 0 false, .error [65] true, .test, .up, .relock 0 false]

theorem no_lost_wakeup_sample : ∃ s, execute (advance roomy) init (waking 4096) = some s ∧ s.waiting = [⟨4096⟩] ∧
    s.lostWakeup = false := by
  obtain ⟨s, hs⟩ : ∃ s, execute (advance roomy) init (waking 4096) = some s := ⟨_, rfl⟩
  have htest : (execute (advance roomy) init (waking 4096)).map Chr.waiting = some [⟨4096⟩] := rfl
  rw [hs, Option.map_some, Option.some.injEq] at htest
  exact ⟨s, hs, htest, no_lost_wakeup (reachedBy_execute hs)⟩

/-- The first reader has no room for the message and leaves it in the ring; the second one goes on sleeping. -/
theorem wakeup_lost : ∃ s : Chr, s.ReachedBy (fun _ _ => true) ∧ s.lostWakeup = true := by
  obtain ⟨s, hs⟩ : ∃ s, execute (advance fun _ _ => true) init (waking 0) = some s := ⟨_, rfl⟩
  have htest : (execute (advance fun _ _ => true) init (waking 0)).map lostWakeup = some true := rfl
  rw [hs, Option.map_some, Option.some.injEq] at htest
  exact ⟨s, reachedBy_execute hs, htest⟩

end Chr

end AoeDriver
