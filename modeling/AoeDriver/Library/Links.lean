import Mathlib

/-!
# Queues linked by pointers

A queue with a pointer to its first entry, a pointer to its last one and a pointer from every entry to the next. The
pointer to the last entry means nothing while the queue is empty.
-/

structure Links (α : Type*) where
  hd : Option α
  tl : Option α
  next : α → Option α

namespace Links

variable {α : Type*} {next next' : α → Option α} {o : Option α} {l : List α} {x b : α}

instance : Inhabited (Links α) := ⟨⟨none, none, fun _ => none⟩⟩

section Operations

variable [DecidableEq α]

/-- `x` becomes the last entry; its own pointer stays as it is. -/
def put (q : Links α) (x : α) : Links α :=
  match q.hd, q.tl with
  | none, _ => { q with hd := some x, tl := some x }
  | some _, some b => { q with next := Function.update q.next b (some x), tl := some x }
  | some _, none => { q with tl := some x }

/-- The first entry leaves the queue. -/
def get (q : Links α) : Links α :=
  match q.hd with
  | none => q
  | some x => { q with hd := q.next x, next := Function.update q.next x none }

end Operations

/-- The pointers lead from `o` through the entries of a list to NULL. -/
def Chain (next : α → Option α) : Option α → List α → Prop
  | o, [] => o = none
  | o, x :: l => o = some x ∧ Chain next (next x) l

/-- The queue holds the entries of a list, in this order, and no other entry points anywhere. -/
structure Holds (q : Links α) (l : List α) : Prop where
  nodup : l.Nodup
  chain : Chain q.next q.hd l
  last : l ≠ [] → q.tl = l.getLast?
  others : ∀ x ∉ l, q.next x = none

theorem Chain.congr (h : Chain next o l) (heq : ∀ y ∈ l, next' y = next y) : Chain next' o l := by
  induction l generalizing o with
  | nil => exact h
  | cons y l ih =>
    refine ⟨h.1, ?_⟩
    rw [heq y List.mem_cons_self]
    exact ih h.2 fun z hz => heq z (List.mem_cons_of_mem y hz)

theorem Chain.head (h : Chain next o l) : o = l.head? := by
  cases l with
  | nil => exact h
  | cons y l => exact h.1

theorem Chain.append [DecidableEq α] (h : Chain next o l) (hl : l.Nodup) (hb : l.getLast? = some b) (hx : x ∉ l)
    (hnext : next x = none) : Chain (Function.update next b (some x)) o (l ++ [x]) := by
  induction l generalizing o with
  | nil => exact absurd hb (by simp)
  | cons y l ih =>
    refine ⟨h.1, ?_⟩
    have hxb : x ≠ b := by
      rintro rfl
      exact hx (List.mem_of_getLast? hb)
    cases l with
    | nil =>
      have hyb : y = b := by simpa using hb
      rw [hyb, Function.update_self]
      refine ⟨rfl, ?_⟩
      rw [Function.update_of_ne hxb]
      exact hnext
    | cons z l =>
      have hb' : (z :: l).getLast? = some b := by rwa [List.getLast?_cons_cons] at hb
      have hyb : y ≠ b := by
        rintro rfl
        exact (List.nodup_cons.mp hl).1 (List.mem_of_getLast? hb')
      rw [Function.update_of_ne hyb]
      exact ih h.2 (List.nodup_cons.mp hl).2 hb' fun hmem => hx (List.mem_cons_of_mem y hmem)

namespace Holds

variable {q : Links α}

theorem empty : Holds (default : Links α) [] := ⟨List.nodup_nil, rfl, fun h => absurd rfl h, fun _ _ => rfl⟩

theorem put [DecidableEq α] (h : q.Holds l) (hx : x ∉ l) : (q.put x).Holds (l ++ [x]) := by
  have hnodup : (l ++ [x]).Nodup := by
    rw [List.nodup_append]
    refine ⟨h.nodup, by simp, fun a ha b hb => ?_⟩
    rw [List.mem_singleton.mp hb]
    rintro rfl
    exact hx ha
  have hlast : (l ++ [x]).getLast? = some x := List.getLast?_concat
  cases l with
  | nil =>
    have hhd : q.hd = none := h.chain
    have hput : q.put x = { q with hd := some x, tl := some x } := by
      unfold Links.put
      rw [hhd]
    rw [hput]
    refine ⟨hnodup, ⟨rfl, h.others x List.not_mem_nil⟩, fun _ => rfl, fun y _ => h.others y List.not_mem_nil⟩
  | cons y l =>
    have hhd : q.hd = some y := h.chain.1
    obtain ⟨b, hb⟩ : ∃ b, (y :: l).getLast? = some b := ⟨_, List.getLast?_eq_some_getLast (List.cons_ne_nil y l)⟩
    have htl : q.tl = some b := (h.last (List.cons_ne_nil y l)).trans hb
    have hput : q.put x = { q with next := Function.update q.next b (some x), tl := some x } := by
      unfold Links.put
      rw [hhd, htl]
    rw [hput]
    refine ⟨hnodup, h.chain.append h.nodup hb hx (h.others x hx), fun _ => hlast.symm, fun z hz => ?_⟩
    have hzb : z ≠ b := by
      rintro rfl
      exact hz (List.mem_append_left _ (List.mem_of_getLast? hb))
    dsimp only
    rw [Function.update_of_ne hzb]
    exact h.others z fun hmem => hz (List.mem_append_left _ hmem)

theorem get [DecidableEq α] (h : q.Holds (x :: l)) : (q.get).Holds l := by
  obtain ⟨hx, hl⟩ := List.nodup_cons.mp h.nodup
  have hhd : q.hd = some x := h.chain.1
  have hget : q.get = { q with hd := q.next x, next := Function.update q.next x none } := by
    unfold Links.get
    rw [hhd]
  rw [hget]
  refine ⟨hl, ?_, fun hne => ?_, fun y hy => ?_⟩
  · refine h.chain.2.congr fun y hy => Function.update_of_ne ?_ _ _
    rintro rfl
    exact hx hy
  · have hlast := h.last (List.cons_ne_nil x l)
    cases l with
    | nil => exact absurd rfl hne
    | cons y l => rwa [List.getLast?_cons_cons] at hlast
  · by_cases hyx : y = x
    · rw [hyx]
      exact Function.update_self _ _ _
    · refine (Function.update_of_ne hyx _ _).trans (h.others y fun hmem => ?_)
      rcases List.mem_cons.mp hmem with hmem | hmem
      · exact hyx hmem
      · exact hy hmem

end Holds

end Links
