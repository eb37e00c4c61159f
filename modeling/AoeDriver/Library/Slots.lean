import AoeDriver.Library.Tables

/-!
# Tables of slots

A table whose slots may be empty, with the multiset of its entries: filling an empty slot adds an entry, and closing
the gap of a slot takes one away. A table is packed when its entries come first.
-/

namespace Tables

variable {α : Type*}

/-- What the slots hold. -/
def entries (l : List (Option α)) : Multiset α := (l.filterMap id : List α)

theorem mem_entries {l : List (Option α)} {a : α} : a ∈ entries l ↔ some a ∈ l := by
  simp [entries, List.mem_filterMap]

theorem entries_append_none (l : List (Option α)) : entries (l ++ [none]) = entries l := by
  simp [entries]

theorem entries_fill {l : List (Option α)} {p : ℕ} (a : α) (hp : p < l.length) (hnone : l.getD p none = none) :
    entries (l.modify p fun _ => some a) = a ::ₘ entries l := by
  induction l generalizing p with
  | nil => exact absurd hp (Nat.not_lt_zero p)
  | cons o l ih =>
    cases p with
    | zero =>
      have ho : o = none := hnone
      subst ho
      rfl
    | succ p =>
      have htail := ih (p := p) (Nat.lt_of_succ_lt_succ hp) hnone
      cases o with
      | none => exact htail
      | some b =>
        have hcons (l : List (Option α)) : entries (some b :: l) = b ::ₘ entries l := rfl
        rw [List.modify_succ_cons, hcons, htail, hcons, Multiset.cons_swap]

theorem entries_eraseIdx {l : List (Option α)} {i : ℕ} (hi : i < l.length) :
    entries l = (l.getD i none).toList + entries (l.eraseIdx i) := by
  induction l generalizing i with
  | nil => exact absurd hi (Nat.not_lt_zero i)
  | cons o l ih =>
    cases i with
    | zero =>
      cases o with
      | none => exact (zero_add _).symm
      | some b =>
        change b ::ₘ entries l = ({b} : Multiset α) + entries l
        exact (Multiset.singleton_add b _).symm
    | succ i =>
      have htail := ih (i := i) (Nat.lt_of_succ_lt_succ hi)
      have hget : (o :: l).getD (i + 1) none = l.getD i none := rfl
      cases o with
      | none => exact htail
      | some b =>
        have hcons (l : List (Option α)) : entries (some b :: l) = b ::ₘ entries l := rfl
        rw [hget, List.eraseIdx_cons_succ, hcons, hcons, htail, Multiset.add_cons]

/-- The entries of a packed table fill its first slots. -/
theorem packed_length {l : List (Option α)} (h : l.Pairwise fun a b => b.isSome → a.isSome) :
    ∃ n ≤ l.length, ∀ i < l.length, (l.getD i none).isSome ↔ i < n := by
  induction l with
  | nil => exact ⟨0, le_rfl, fun i hi => absurd hi (Nat.not_lt_zero i)⟩
  | cons o l ih =>
    obtain ⟨hhead, htail⟩ := List.pairwise_cons.mp h
    cases o with
    | none =>
      refine ⟨0, Nat.zero_le _, fun i hi => ⟨fun hsome => ?_, fun hlt => absurd hlt (Nat.not_lt_zero i)⟩⟩
      cases i with
      | zero => exact absurd hsome Bool.false_ne_true
      | succ i =>
        have hlt : i < l.length := Nat.lt_of_succ_lt_succ hi
        have hmem : l.getD i none ∈ l := by
          rw [List.getD_eq_getElem _ _ hlt]
          exact List.getElem_mem hlt
        exact absurd (hhead _ hmem hsome) Bool.false_ne_true
    | some b =>
      obtain ⟨n, hn, hiff⟩ := ih htail
      refine ⟨n + 1, Nat.succ_le_succ hn, fun i hi => ?_⟩
      cases i with
      | zero => exact ⟨fun _ => Nat.succ_pos n, fun _ => rfl⟩
      | succ i =>
        have hat := hiff i (Nat.lt_of_succ_lt_succ hi)
        rw [Nat.succ_lt_succ_iff]
        exact hat

/-- Slots with the same entry are the same slot, where no entry comes twice. -/
theorem slot_inj {l : List (Option α)} (h : (entries l).Nodup) {i j : ℕ} {a : α} (hi : l.getD i none = some a)
    (hj : l.getD j none = some a) : i = j := by
  have hlt {i : ℕ} (hi : l.getD i none = some a) : i < l.length := by
    by_contra hge
    rw [List.getD_eq_default _ _ (not_lt.mp hge)] at hi
    exact absurd hi (by simp)
  induction l generalizing i j with
  | nil => exact absurd (hlt hi) (Nat.not_lt_zero i)
  | cons o l ih =>
    have hrest {i : ℕ} (hi : (o :: l).getD (i + 1) none = some a) : a ∈ entries l := by
      have hget : l.getD i none = some a := hi
      rw [mem_entries, ← hget, List.getD_eq_getElem _ _ (Nat.lt_of_succ_lt_succ (hlt hi))]
      exact List.getElem_mem _
    have hhead (hi : (o :: l).getD 0 none = some a) : a ∉ entries l := by
      have ho : o = some a := hi
      subst ho
      have hn : (a ::ₘ entries l).Nodup := h
      exact (Multiset.nodup_cons.mp hn).1
    have htail : (entries l).Nodup := by
      cases o with
      | none => exact h
      | some b => exact (Multiset.nodup_cons.mp (show (b ::ₘ entries l).Nodup from h)).2
    cases i with
    | zero =>
      cases j with
      | zero => rfl
      | succ j => exact absurd (hrest hj) (hhead hi)
    | succ i =>
      cases j with
      | zero => exact absurd (hrest hi) (hhead hj)
      | succ j =>
        refine congrArg (· + 1) (ih htail hi hj ?_)
        intro i hi
        exact Nat.lt_of_succ_lt_succ (hlt (i := i + 1) hi)

end Tables
