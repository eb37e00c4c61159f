import AoeDriver.Library.Slots

/-!
# Tables read by index

What is collected from a list element by element, with or without the index of the element, and the entries of a table
that is read up to its first empty slot.
-/

namespace Tables

variable {α : Type*}

/-- The entries in front of the first empty slot. -/
def leading : List (Option α) → List α
  | some a :: l => a :: leading l
  | _ => []

theorem coe_leading {l : List (Option α)} (h : l.Pairwise fun a b => b.isSome → a.isSome) :
    (leading l : Multiset α) = entries l := by
  induction l with
  | nil => rfl
  | cons o l ih =>
    obtain ⟨hhead, htail⟩ := List.pairwise_cons.mp h
    cases o with
    | some a =>
      have hcons : entries (some a :: l) = a ::ₘ entries l := rfl
      rw [hcons, ← ih htail]
      rfl
    | none =>
      have hnone : ∀ o ∈ l, o = none := by
        intro o ho
        cases o with
        | none => rfl
        | some a => simpa using hhead _ ho
      have hnil : l.filterMap id = [] := by simpa [List.filterMap_eq_nil_iff] using hnone
      have hskip : entries (none :: l) = (l.filterMap id : List α) := rfl
      rw [hskip, hnil]
      rfl

section Indexed

variable {β γ : Type*}

theorem flatMap_mapIdx (l : List α) (g : ℕ → α → β) (φ : β → List γ) (ψ : α → List γ) (h : ∀ i a, φ (g i a) = ψ a) :
    (l.mapIdx g).flatMap φ = l.flatMap ψ := by
  induction l generalizing g with
  | nil => rfl
  | cons a l ih =>
    rw [List.mapIdx_cons, List.flatMap_cons, List.flatMap_cons, h, ih _ fun i a => h (i + 1) a]

theorem count_mapIdx [DecidableEq γ] [Inhabited α] (l : List α) (g : ℕ → α → β) (φ : β → List (ℕ × γ)) (ψ : α → List γ)
    (h : ∀ i a, φ (g i a) = (ψ a).map fun c => (i, c)) (i : ℕ) (c : γ) :
    ((l.mapIdx g).flatMap φ).count (i, c) = if i < l.length then (ψ (l.getD i default)).count c else 0 := by
  have hother (i j : ℕ) (hij : i ≠ j) (m : List γ) : (m.map fun c => (j, c)).count (i, c) = 0 := by
    rw [List.count_eq_zero]
    simp [hij.symm]
  have hsame (m : List γ) (i : ℕ) : (m.map fun c => (i, c)).count (i, c) = m.count c := by
    rw [List.count_map_of_injective _ _ (Prod.mk_right_injective i)]
  induction l using List.reverseRecOn with
  | nil => simp
  | append_singleton l a ih =>
    rw [List.mapIdx_append, List.flatMap_append, List.count_append, ih]
    simp only [List.mapIdx_cons, List.mapIdx_nil, List.flatMap_cons, List.flatMap_nil, List.append_nil, Nat.zero_add, h]
    rcases Nat.lt_trichotomy i l.length with hlt | rfl | hgt
    · rw [hother i l.length (by omega)]
      simp [hlt, Nat.lt_succ_of_lt hlt]
    · rw [hsame]
      simp
    · rw [hother i l.length (by omega)]
      simp [show ¬ i < l.length by omega, show ¬ i < l.length + 1 by omega]

theorem sum_countP_range {β : Type*} (l : List β) (φ : β → ℕ) (n : ℕ) (h : ∀ b ∈ l, φ b < n) :
    ((List.range n).map fun i => l.countP (φ · = i)).sum = l.length := by
  induction l with
  | nil => simp
  | cons b l ih =>
    have hb := h b (by simp)
    have hone : ((List.range n).map fun i => if φ b = i then 1 else 0).sum = 1 := by
      have hsum : ((List.range n).map fun i => if φ b = i then 1 else 0).sum =
          ∑ i ∈ Finset.range n, if φ b = i then 1 else 0 := rfl
      rw [hsum, Finset.sum_ite_eq, if_pos (Finset.mem_range.mpr hb)]
    have hrest := ih fun b hb => h b (by simp [hb])
    simp only [List.countP_cons, decide_eq_true_eq, List.sum_map_add, hone, hrest, List.length_cons]

end Indexed

end Tables
