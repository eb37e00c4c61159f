import Mathlib

/-!
# Tables and buckets

Lists read with a default value and changed in place, hash tables as families of lists, and what their contents
are as multisets.
-/

namespace Tables

variable {α β : Type*}

theorem getD_modify [Inhabited α] (l : List α) (i j : ℕ) (g : α → α) :
    (l.modify i g).getD j default = if i = j ∧ j < l.length then g (l.getD j default) else l.getD j default := by
  simp only [List.getD_eq_getElem?_getD, List.getElem?_modify]
  by_cases hj : j < l.length
  · by_cases hij : i = j <;> simp [hij, hj]
  · simp [hj]

theorem mem_of_getD [Inhabited α] {l : List α} {i : ℕ} (h : i < l.length) : l.getD i default ∈ l := by
  rw [List.getD_eq_getElem _ _ h]
  exact List.getElem_mem h

theorem map_modify (l : List α) (i : ℕ) (g : α → α) (k : β → β) (φ : α → β) (h : ∀ a, φ (g a) = k (φ a)) :
    (l.modify i g).map φ = (l.map φ).modify i k := by
  induction l generalizing i with
  | nil => simp
  | cons a l ih =>
    cases i with
    | zero => simp [h]
    | succ i => simp [ih]

theorem map_modify_at [Inhabited α] (l : List α) (i : ℕ) (g : α → α) (k : β → β) (φ : α → β)
    (h : φ (g (l.getD i default)) = k (φ (l.getD i default))) : (l.modify i g).map φ = (l.map φ).modify i k := by
  induction l generalizing i with
  | nil => simp
  | cons a l ih =>
    cases i with
    | zero => simpa using h
    | succ i => simpa using ih i (by simpa using h)

theorem map_modify_same (l : List α) (i : ℕ) (g : α → α) (φ : α → β) (h : ∀ a, φ (g a) = φ a) :
    (l.modify i g).map φ = l.map φ := by
  rw [map_modify l i g id φ (by simpa using h), List.modify_id]

theorem modify_fixed [Inhabited α] (l : List α) (i : ℕ) (g : α → α) (h : g (l.getD i default) = l.getD i default) :
    l.modify i g = l := by
  apply List.ext_getElem?
  intro j
  rw [List.getElem?_modify]
  cases hl : l[j]? with
  | none => rfl
  | some a =>
    change some (if i = j then g a else a) = some a
    split
    · rename_i hij
      subst hij
      rw [List.getD_eq_getElem?_getD, hl, Option.getD_some] at h
      rw [h]
    · rfl

theorem modify_last (l : List α) (a : α) (g : α → α) : (l ++ [a]).modify l.length g = l ++ [g a] := by
  induction l with
  | nil => rfl
  | cons b l ih => simpa using ih

theorem forall_mem_modify {p : α → Prop} {l : List α} {i : ℕ} {g : α → α} (h : ∀ a ∈ l, p a)
    (hg : ∀ a, p a → p (g a)) : ∀ a ∈ l.modify i g, p a := by
  intro a ha
  obtain ⟨j, hj, rfl⟩ := List.getElem_of_mem ha
  rw [List.getElem_modify]
  have hj' : j < l.length := by simpa using hj
  split
  · exact hg _ (h _ (List.getElem_mem hj'))
  · exact h _ (List.getElem_mem hj')

theorem sum_map_modify [AddCommMonoid β] (l : List α) (i : ℕ) (g : α → α) (φ : α → β) (x : β) (hi : i < l.length)
    (h : ∀ a, φ (g a) = x + φ a) : ((l.modify i g).map φ).sum = x + (l.map φ).sum := by
  induction l generalizing i with
  | nil => simp at hi
  | cons a l ih =>
    cases i with
    | zero => simp [h, add_assoc]
    | succ i =>
      have hi' : i < l.length := by simpa using hi
      simp [ih i hi', add_left_comm]

theorem coe_append_singleton_add (l : List α) (a : α) (s : Multiset α) :
    ((l ++ [a] : List α) : Multiset α) + s = a ::ₘ (↑l + s) := by
  rw [← Multiset.coe_add, Multiset.coe_singleton, add_right_comm, add_comm, Multiset.singleton_add]

section Keyed

variable {κ : Type*} [DecidableEq κ] {key : α → κ} {l : List α} {k : κ} {g : α → α}

theorem find_of_nodup {a : α} (hl : (l.map key).Nodup) (ha : a ∈ l) : l.find? (fun x => key x = key a) = some a := by
  induction l with
  | nil => simp at ha
  | cons b l ih =>
    simp only [List.map_cons, List.nodup_cons] at hl
    rcases List.mem_cons.mp ha with rfl | ha
    · simp
    · have hne : key b ≠ key a := fun he => hl.1 (he ▸ List.mem_map_of_mem ha)
      rw [List.find?_cons_of_neg (by simpa using hne)]
      exact ih hl.2 ha

theorem map_adjust (φ : α → β) (hg : ∀ a ∈ l, key a = k → φ (g a) = φ a) :
    (l.map fun x => if key x = k then g x else x).map φ = l.map φ := by
  rw [List.map_map]
  apply List.map_congr_left
  intro a ha
  simp only [Function.comp]
  split
  · exact hg a ha (by assumption)
  · rfl

theorem countP_adjust {p : α → Bool} (hg : ∀ a ∈ l, key a = k → p (g a) = p a) :
    (l.map fun x => if key x = k then g x else x).countP p = l.countP p := by
  rw [List.countP_map]
  apply List.countP_congr
  intro a ha
  simp only [Function.comp]
  split
  · rw [hg a ha (by assumption)]
  · rfl

theorem countP_remove {p : α → Bool} {a : α} (hl : (l.map key).Nodup) (ha : a ∈ l) :
    l.countP p = (l.filter (fun x => key x ≠ key a)).countP p + if p a then 1 else 0 := by
  induction l with
  | nil => simp at ha
  | cons b l ih =>
    simp only [List.map_cons, List.nodup_cons] at hl
    rcases List.mem_cons.mp ha with rfl | ha
    · have hrest : l.filter (fun x => key x ≠ key a) = l := by
        rw [List.filter_eq_self]
        intro x hx
        have hne : key x ≠ key a := fun he => hl.1 (he ▸ List.mem_map_of_mem hx)
        simpa using hne
      rw [List.filter_cons_of_neg (by simp), hrest, List.countP_cons]
    · have hne : key b ≠ key a := fun he => hl.1 (he ▸ List.mem_map_of_mem ha)
      rw [List.filter_cons_of_pos (by simpa using hne), List.countP_cons, List.countP_cons, ih hl.2 ha]
      omega

end Keyed

theorem length_eq_countP_range {l : List ℕ} {n : ℕ} (hl : l.Nodup) (hn : ∀ i ∈ l, i < n) :
    l.length = (List.range n).countP (· ∈ l) := by
  have hp : l.Perm ((List.range n).filter (· ∈ l)) := by
    rw [List.perm_ext_iff_of_nodup hl (List.nodup_range.filter _)]
    intro i
    simp only [List.mem_filter, List.mem_range, decide_eq_true_eq]
    exact ⟨fun hi => ⟨hn i hi, hi⟩, fun hi => hi.2⟩
  rw [hp.length_eq, List.countP_eq_length_filter]

theorem flatMap_eraseIdx {l : List α} {i : ℕ} {a : α} (h : l[i]? = some a) (φ : α → List β) :
    (l.flatMap φ).Perm (φ a ++ (l.eraseIdx i).flatMap φ) := by
  induction l generalizing i with
  | nil => simp at h
  | cons b l ih =>
    cases i with
    | zero =>
      simp only [List.getElem?_cons_zero, Option.some.injEq] at h
      subst h
      exact .refl _
    | succ i =>
      have hp := ih h
      simp only [List.flatMap_cons, List.eraseIdx_cons_succ]
      refine (hp.append_left (φ b)).trans ?_
      rw [← List.append_assoc, ← List.append_assoc]
      exact List.perm_append_comm.append_right _

theorem flatMap_set {l : List α} {i : ℕ} {a : α} (h : l[i]? = some a) (φ : α → List β) (a' : α) :
    ((l.set i a').flatMap φ).Perm (φ a' ++ (l.eraseIdx i).flatMap φ) := by
  have hi : i < l.length := (List.getElem?_eq_some_iff.mp h).1
  have hset : (l.set i a')[i]? = some a' := by simp [hi]
  have herase : (l.set i a').eraseIdx i = l.eraseIdx i := by simp [List.eraseIdx_set_eq]
  have hp := flatMap_eraseIdx hset φ
  rwa [herase] at hp

theorem find_eraseP_perm {l : List α} {p : α → Bool} {a : α} (h : l.find? p = some a) : l.Perm (a :: l.eraseP p) := by
  induction l with
  | nil => simp at h
  | cons b l ih =>
    by_cases hb : p b = true
    · rw [List.find?_cons_of_pos hb, Option.some.injEq] at h
      rw [List.eraseP_cons_of_pos hb, h]
    · rw [List.find?_cons_of_neg hb] at h
      rw [List.eraseP_cons_of_neg hb]
      exact ((ih h).cons b).trans (.swap a b _)

/-- Contents of a family of lists. -/
def contents {n : ℕ} (b : Fin n → List α) : Multiset α := ((List.finRange n).flatMap b : List α)

theorem contents_eq_sum {n : ℕ} (b : Fin n → List α) : contents b = ∑ i, (b i : Multiset α) := by
  have h (l : List (Fin n)) : ((l.flatMap b : List α) : Multiset α) = (l.map fun i => (b i : Multiset α)).sum := by
    induction l with
    | nil => rfl
    | cons i l ih =>
      rw [List.flatMap_cons, ← Multiset.coe_add, ih]
      rfl
  rw [contents, h, Fin.sum_univ_def]

theorem mem_contents {n : ℕ} {b : Fin n → List α} {a : α} : a ∈ contents b ↔ ∃ i, a ∈ b i := by
  simp [contents]

theorem contents_update {n : ℕ} (b : Fin n → List α) (i : Fin n) (l : List α) :
    contents (Function.update b i l) + b i = contents b + l := by
  rw [contents_eq_sum, contents_eq_sum]
  have h1 := Finset.sum_erase_add Finset.univ (fun j => ((Function.update b i l j : List α) : Multiset α))
    (Finset.mem_univ i)
  have h2 := Finset.sum_erase_add Finset.univ (fun j => (b j : Multiset α)) (Finset.mem_univ i)
  have h3 : ∑ j ∈ Finset.univ.erase i, ((Function.update b i l j : List α) : Multiset α) =
      ∑ j ∈ Finset.univ.erase i, (b j : Multiset α) := by
    apply Finset.sum_congr rfl
    intro j hj
    rw [Function.update_of_ne (Finset.ne_of_mem_erase hj)]
  rw [← h1, ← h2, h3, Function.update_self]
  abel

theorem contents_push {n : ℕ} (b : Fin n → List α) (i : Fin n) (a : α) :
    contents (Function.update b i (b i ++ [a])) = a ::ₘ contents b := by
  have h := contents_update b i (b i ++ [a])
  rw [← Multiset.coe_add, ← add_assoc, add_right_comm, add_left_inj] at h
  rw [h, Multiset.coe_singleton, add_comm, Multiset.singleton_add]

theorem contents_remove {n : ℕ} (b : Fin n → List α) (i : Fin n) (a : α) (l : List α)
    (h : (b i).Perm (a :: l)) : contents b = a ::ₘ contents (Function.update b i l) := by
  have hc := contents_update b i l
  rw [Multiset.coe_eq_coe.mpr h, ← Multiset.cons_coe, Multiset.add_cons, ← Multiset.cons_add, add_left_inj] at hc
  exact hc.symm

theorem contents_split {n : ℕ} (b l r : Fin n → List α) (h : ∀ i, b i = l i ++ r i) :
    contents b = contents l + contents r := by
  simp only [contents_eq_sum, h, ← Multiset.coe_add, Finset.sum_add_distrib]

end Tables
