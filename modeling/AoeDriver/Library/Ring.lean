import Mathlib

/-!
# Rings of flagged slots

A queue in an array of `cap` slots with two cyclic indices. Full and empty both have the indices equal; they are told
apart by whether the slot under them is in use.
-/

namespace Ring

variable {α : Type*} {cap : ℕ} {slots : ℕ → Option α} {head tail : ℕ} {q : List α} {x : α}

/-- The slots from `head` on hold `q`, the other slots are empty, and `tail` is the slot behind the last entry. -/
structure Holds (cap : ℕ) (slots : ℕ → Option α) (head tail : ℕ) (q : List α) : Prop where
  head_lt : head < cap
  length_le : q.length ≤ cap
  tail_eq : tail = (head + q.length) % cap
  slot : ∀ k < cap, slots ((head + k) % cap) = q[k]?

theorem offset_inj {i j : ℕ} (hi : i < cap) (hj : j < cap) (h : (head + i) % cap = (head + j) % cap) : i = j := by
  have hij : i % cap = j % cap := Nat.ModEq.add_left_cancel' head h
  rwa [Nat.mod_eq_of_lt hi, Nat.mod_eq_of_lt hj] at hij

theorem exists_offset {i : ℕ} (hh : head < cap) (hi : i < cap) : ∃ k < cap, i = (head + k) % cap := by
  by_cases hle : head ≤ i
  · refine ⟨i - head, by omega, ?_⟩
    rw [Nat.add_sub_cancel' hle, Nat.mod_eq_of_lt hi]
  · refine ⟨i + cap - head, by omega, ?_⟩
    have hsum : head + (i + cap - head) = i + cap := by omega
    rw [hsum, Nat.add_mod_right, Nat.mod_eq_of_lt hi]

namespace Holds

theorem empty (h : 0 < cap) : Holds cap (fun _ => (none : Option α)) 0 0 [] where
  head_lt := h
  length_le := Nat.zero_le cap
  tail_eq := by simp
  slot := by simp

theorem front (h : Holds cap slots head tail q) : slots head = q.head? := by
  have h0 := h.slot 0 (Nat.zero_lt_of_lt h.head_lt)
  rwa [Nat.add_zero, Nat.mod_eq_of_lt h.head_lt, ← List.head?_eq_getElem?] at h0

theorem back (h : Holds cap slots head tail q) (hlt : q.length < cap) : slots tail = none := by
  rw [h.tail_eq, h.slot _ hlt]
  exact List.getElem?_eq_none (Nat.le_refl _)

theorem full_iff (h : Holds cap slots head tail q) : (slots tail).isSome ↔ q.length = cap := by
  constructor
  · intro hsome
    by_contra hne
    have hnone := h.back (lt_of_le_of_ne h.length_le hne)
    simp [hnone] at hsome
  · intro hfull
    have htail : tail = head := by rw [h.tail_eq, hfull, Nat.add_mod_right, Nat.mod_eq_of_lt h.head_lt]
    have hpos : 0 < q.length := hfull ▸ Nat.zero_lt_of_lt h.head_lt
    rw [htail, h.front, List.isSome_head?]
    simpa using List.ne_nil_of_length_pos hpos

theorem used_iff (h : Holds cap slots head tail q) {i : ℕ} (hi : i < cap) :
    (slots i).isSome ↔ ∃ k < q.length, i = (head + k) % cap := by
  constructor
  · intro hsome
    obtain ⟨k, hk, rfl⟩ := exists_offset h.head_lt hi
    rw [h.slot k hk, isSome_getElem?] at hsome
    exact ⟨k, hsome, rfl⟩
  · rintro ⟨k, hk, rfl⟩
    rw [h.slot k (hk.trans_le h.length_le), isSome_getElem?]
    exact hk

theorem push (h : Holds cap slots head tail q) (hlt : q.length < cap) :
    Holds cap (Function.update slots tail (some x)) head ((tail + 1) % cap) (q ++ [x]) where
  head_lt := h.head_lt
  length_le := by simpa using hlt
  tail_eq := by
    rw [h.tail_eq, Nat.mod_add_mod, List.length_append, List.length_singleton, Nat.add_assoc]
  slot k hk := by
    by_cases hlen : k = q.length
    · subst hlen
      rw [h.tail_eq, Function.update_self, List.getElem?_concat_length]
    · have hne : (head + k) % cap ≠ tail := by
        rw [h.tail_eq]
        exact fun heq => hlen (offset_inj hk hlt heq)
      rw [Function.update_of_ne hne, h.slot k hk]
      rcases Nat.lt_or_gt_of_ne hlen with hk' | hk'
      · rw [List.getElem?_append_left hk']
      · have hout : q.length + 1 ≤ k := hk'
        rw [List.getElem?_eq_none hk'.le, List.getElem?_eq_none (by simpa using hout)]

theorem pop (h : Holds cap slots head tail (x :: q)) :
    Holds cap (Function.update slots head none) ((head + 1) % cap) tail q where
  head_lt := Nat.mod_lt _ (Nat.zero_lt_of_lt h.head_lt)
  length_le := Nat.le_of_succ_le h.length_le
  tail_eq := by
    rw [h.tail_eq, Nat.mod_add_mod, List.length_cons, Nat.add_assoc, Nat.add_comm 1]
  slot k hk := by
    have hshift : ((head + 1) % cap + k) % cap = (head + (k + 1)) % cap := by
      rw [Nat.mod_add_mod, Nat.add_assoc, Nat.add_comm 1]
    rw [hshift]
    by_cases hlast : k + 1 = cap
    · have hhead : (head + (k + 1)) % cap = head := by rw [hlast, Nat.add_mod_right, Nat.mod_eq_of_lt h.head_lt]
      have hlen : q.length ≤ k := by
        have := h.length_le
        rw [List.length_cons] at this
        omega
      rw [hhead, Function.update_self, List.getElem?_eq_none hlen]
    · have hk' : k + 1 < cap := by omega
      have hne : (head + (k + 1)) % cap ≠ head := by
        intro heq
        have hzero : (head + (k + 1)) % cap = (head + 0) % cap := by
          rw [heq, Nat.add_zero, Nat.mod_eq_of_lt h.head_lt]
        exact Nat.succ_ne_zero k (offset_inj hk' (Nat.zero_lt_of_lt hk') hzero)
      rw [Function.update_of_ne hne, h.slot _ hk', List.getElem?_cons_succ]

end Holds

end Ring
