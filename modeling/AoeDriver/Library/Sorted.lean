import Mathlib

/-!
# Strictly sorted lists

A search from the front of a list that is sorted by a key, which finds the entry with a key or the place where one
belongs, and the insertion at that place. Keys are never repeated.
-/

namespace Ordered

variable {α κ : Type*} [LinearOrder κ] (key : α → κ)

/-- The keys grow from entry to entry. -/
def Increasing (l : List α) : Prop := l.Pairwise fun p q => key p < key q

/-- The index of the entry with key `k`, or the index at which one belongs. -/
def locate (k : κ) : List α → ℕ × Bool
  | [] => (0, false)
  | p :: l =>
    match cmp (key p) k with
    | .lt => ((locate k l).1 + 1, (locate k l).2)
    | .gt => (0, false)
    | .eq => (0, true)

/-- Puts `a` in its place, unless there is an entry with its key. -/
def place (a : α) (l : List α) : List α :=
  if (locate key (key a) l).2 then l else l.insertIdx (locate key (key a) l).1 a

variable {key} {k : κ} {a p : α} {l : List α}

theorem Increasing.tail (h : Increasing key (p :: l)) : Increasing key l := (List.pairwise_cons.mp h).2

theorem Increasing.head_lt (h : Increasing key (p :: l)) {q : α} (hq : q ∈ l) : key p < key q := (List.pairwise_cons.mp h).1 q hq

theorem Increasing.eq_of_key (h : Increasing key l) {p q : α} (hp : p ∈ l) (hq : q ∈ l) (hk : key p = key q) : p = q := by
  induction l with
  | nil => exact absurd hp List.not_mem_nil
  | cons x l ih =>
    rcases List.mem_cons.mp hp with heq | hp'
    · subst heq
      rcases List.mem_cons.mp hq with rfl | hq
      · rfl
      · exact absurd hk (h.head_lt hq).ne
    · rcases List.mem_cons.mp hq with heq | hq
      · subst heq
        exact absurd hk (h.head_lt hp').ne'
      · exact ih h.tail hp' hq

private theorem locate_cons_lt (h : key p < k) :
    locate key k (p :: l) = ((locate key k l).1 + 1, (locate key k l).2) := by
  rw [locate, (cmp_eq_lt_iff _ _).mpr h]

private theorem locate_cons_gt (h : k < key p) : locate key k (p :: l) = (0, false) := by
  rw [locate, (cmp_eq_gt_iff _ _).mpr h]

private theorem locate_cons_eq (h : key p = k) : locate key k (p :: l) = (0, true) := by
  rw [locate, (cmp_eq_eq_iff _ _).mpr h]

theorem locate_found (h : (locate key k l).2 = true) : ∃ p, l[(locate key k l).1]? = some p ∧ key p = k := by
  induction l with
  | nil => exact absurd h (by simp [locate])
  | cons p l ih =>
    rcases lt_trichotomy (key p) k with hlt | heq | hgt
    · rw [locate_cons_lt hlt] at h ⊢
      exact ih h
    · rw [locate_cons_eq heq]
      exact ⟨p, rfl, heq⟩
    · rw [locate_cons_gt hgt] at h
      exact absurd h (by simp)

theorem locate_of_mem (hs : Increasing key l) (hp : p ∈ l) : (locate key (key p) l).2 = true := by
  induction l with
  | nil => exact absurd hp List.not_mem_nil
  | cons q l ih =>
    rcases List.mem_cons.mp hp with rfl | hp
    · rw [locate_cons_eq rfl]
    · rw [locate_cons_lt (hs.head_lt hp)]
      exact ih hs.tail hp

theorem locate_le (k : κ) (l : List α) : (locate key k l).1 ≤ l.length := by
  induction l with
  | nil => exact Nat.le_refl 0
  | cons p l ih =>
    rcases lt_trichotomy (key p) k with hlt | heq | hgt
    · rw [locate_cons_lt hlt]
      exact Nat.succ_le_succ ih
    · rw [locate_cons_eq heq]
      exact Nat.zero_le _
    · rw [locate_cons_gt hgt]
      exact Nat.zero_le _

theorem place_cons_lt (h : key p < key a) : place key a (p :: l) = p :: place key a l := by
  rw [place, place, locate_cons_lt h]
  split
  · rfl
  · rfl

theorem place_cons_gt (h : key a < key p) : place key a (p :: l) = a :: p :: l := by
  rw [place, locate_cons_gt h]
  rfl

theorem place_cons_eq (h : key p = key a) : place key a (p :: l) = p :: l := by
  rw [place, locate_cons_eq h]
  rfl

theorem mem_place_imp {q : α} (h : q ∈ place key a l) : q = a ∨ q ∈ l := by
  rw [place] at h
  split at h
  · exact .inr h
  · exact List.eq_or_mem_of_mem_insertIdx h

theorem Increasing.place (hs : Increasing key l) (a : α) : Increasing key (Ordered.place key a l) := by
  induction l with
  | nil => exact List.pairwise_singleton _ a
  | cons p l ih =>
    rcases lt_trichotomy (key p) (key a) with hlt | heq | hgt
    · rw [place_cons_lt hlt]
      refine List.pairwise_cons.mpr ⟨fun q hq => ?_, ih hs.tail⟩
      rcases mem_place_imp hq with rfl | hq
      · exact hlt
      · exact hs.head_lt hq
    · rw [place_cons_eq heq]
      exact hs
    · rw [place_cons_gt hgt]
      refine List.pairwise_cons.mpr ⟨fun q hq => ?_, hs⟩
      rcases List.mem_cons.mp hq with rfl | hq
      · exact hgt
      · exact hgt.trans (hs.head_lt hq)

theorem mem_place_of_mem {q : α} (hq : q ∈ l) : q ∈ place key a l := by
  rw [place]
  split
  · exact hq
  · exact List.mem_insertIdx (locate_le _ _) |>.mpr (.inr hq)

theorem exists_mem_place : ∃ q ∈ place key a l, key q = key a := by
  rw [place]
  split
  · rename_i hfound
    obtain ⟨p, hp, hk⟩ := locate_found hfound
    exact ⟨p, List.mem_of_getElem? hp, hk⟩
  · exact ⟨a, List.mem_insertIdx (locate_le _ _) |>.mpr (.inl rfl), rfl⟩

end Ordered
