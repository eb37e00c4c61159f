import Mathlib

/-!
# Lists of numbered blocks

A list that counts through one block after another: `spread` of the blocks' names and lengths. Blocks of different
names give a list without repetition. `[a, b]` is a sublist where `a` stands somewhere in front of `b`.
-/

namespace Blocks

variable {α : Type*} {l l' : List α} {blocks : List (α × ℕ)}

def spread (blocks : List (α × ℕ)) : List (α × ℕ) := blocks.flatMap fun p => (List.range p.2).map (p.1, ·)

theorem spread_first (blocks : List (α × ℕ)) (a : α) : spread (blocks ++ [(a, 1)]) = spread blocks ++ [(a, 0)] := by
  simp [spread]

theorem spread_next (blocks : List (α × ℕ)) (a : α) (n : ℕ) :
    spread (blocks ++ [(a, n + 1)]) = spread (blocks ++ [(a, n)]) ++ [(a, n)] := by
  simp [spread, List.range_succ]

theorem mem_spread {x : α × ℕ} : x ∈ spread blocks ↔ ∃ p ∈ blocks, p.1 = x.1 ∧ x.2 < p.2 := by
  obtain ⟨a, n⟩ := x
  simp only [spread, List.mem_flatMap, List.mem_map, List.mem_range, Prod.mk.injEq]
  constructor
  · rintro ⟨p, hp, m, hm, rfl, rfl⟩
    exact ⟨p, hp, rfl, hm⟩
  · rintro ⟨p, hp, rfl, hn⟩
    exact ⟨p, hp, n, hn, rfl, rfl⟩

theorem nodup_spread (h : (blocks.map Prod.fst).Nodup) : (spread blocks).Nodup := by
  induction blocks with
  | nil => simp [spread]
  | cons p blocks ih =>
    simp only [List.map_cons, List.nodup_cons] at h
    have hsplit : spread (p :: blocks) = (List.range p.2).map (p.1, ·) ++ spread blocks := rfl
    rw [hsplit, List.nodup_append]
    refine ⟨?_, ih h.2, ?_⟩
    · exact List.nodup_range.map fun m n hmn => (Prod.mk.inj hmn).2
    · intro x hx y hy hxy
      obtain ⟨n, -, rfl⟩ := List.mem_map.mp hx
      obtain ⟨q, hq, hname, -⟩ := mem_spread.mp hy
      apply h.1
      rw [← hxy] at hname
      exact hname ▸ List.mem_map_of_mem hq

theorem pair_last {a b : α} (ha : a ∈ l) (hl : l.getLast? = some b) (hne : a ≠ b) : [a, b].Sublist l := by
  obtain ⟨front, rfl⟩ : ∃ front, l = front ++ [b] := by
    rw [List.getLast?_eq_some_iff] at hl
    exact hl
  have hfront : a ∈ front := by simpa [hne] using ha
  exact (List.singleton_sublist.mpr hfront).append (List.Sublist.refl [b])

theorem pair_append {a b : α} (h : [a, b].Sublist l) (l' : List α) : [a, b].Sublist (l ++ l') :=
  h.trans (List.sublist_append_left l l')

end Blocks
