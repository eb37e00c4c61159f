import Mathlib.Data.List.Induction
import Mathlib.Data.List.TakeWhile

/-!
# Tokens

A token of a list is a maximal non-empty part without separators. The tokens are found one by one: leading separators
do not matter, and behind them the list begins with its first token.
-/

namespace Tokens

variable {α : Type*} {sep : α → Bool} {s t u v : List α}

/-- `t` stands in `s` between separators or ends of `s`, and contains no separator. -/
def IsToken (sep : α → Bool) (s t : List α) : Prop :=
  t ≠ [] ∧ (∀ c ∈ t, sep c = false) ∧
    ∃ pre post, s = pre ++ (t ++ post) ∧ (∀ c ∈ pre.getLast?, sep c = true) ∧ ∀ c ∈ post.head?, sep c = true

theorem not_isToken_nil : ¬ IsToken sep [] t := by
  rintro ⟨hne, -, pre, post, heq, -⟩
  have hnil : t ++ post = [] := (List.append_eq_nil_iff.mp heq.symm).2
  exact hne (List.append_eq_nil_iff.mp hnil).1

private theorem eq_of_append_eq (ht : ∀ c ∈ t, sep c = false) (hu : ∀ c ∈ u, sep c = false)
    (hv : ∀ c ∈ v.head?, sep c = true) (hs : ∀ c ∈ s.head?, sep c = true) (h : t ++ v = u ++ s) : t = u := by
  have hnil {a b w : List α} (hb : ∀ c ∈ a ++ b, sep c = false) (hw : ∀ c ∈ (b ++ w).head?, sep c = true) : b = [] := by
    cases b with
    | nil => rfl
    | cons c b =>
      have hfalse : sep c = false := hb c (by simp)
      have htrue : sep c = true := hw c (by simp)
      exact absurd (hfalse.symm.trans htrue) Bool.false_ne_true
  rcases List.append_eq_append_iff.mp h with ⟨b, rfl, rfl⟩ | ⟨b, rfl, rfl⟩
  · rw [hnil hu hv, List.append_nil]
  · rw [hnil ht hs, List.append_nil]

private theorem isToken_cons_sep {c : α} (hc : sep c = true) : IsToken sep (c :: s) t ↔ IsToken sep s t := by
  constructor
  · rintro ⟨hne, ht, pre, post, heq, hpre, hpost⟩
    cases pre with
    | nil =>
      cases t with
      | nil => exact absurd rfl hne
      | cons d t =>
        have hd : c = d := (List.cons.inj heq).1
        have hfalse : sep c = false := hd ▸ ht d List.mem_cons_self
        exact absurd (hfalse.symm.trans hc) Bool.false_ne_true
    | cons d pre =>
      refine ⟨hne, ht, pre, post, (List.cons.inj heq).2, ?_, hpost⟩
      intro x hx
      cases pre with
      | nil => exact absurd hx (by simp)
      | cons e pre => exact hpre x (by simpa using hx)
  · rintro ⟨hne, ht, pre, post, rfl, hpre, hpost⟩
    refine ⟨hne, ht, c :: pre, post, rfl, ?_, hpost⟩
    intro x hx
    cases pre with
    | nil =>
      have hx' : c = x := by simpa using hx
      exact hx' ▸ hc
    | cons e pre => exact hpre x (by simpa using hx)

theorem isToken_dropWhile : IsToken sep (s.dropWhile sep) t ↔ IsToken sep s t := by
  induction s with
  | nil => rfl
  | cons c s ih =>
    rw [List.dropWhile_cons]
    split
    · rename_i hc
      rw [ih, isToken_cons_sep hc]
    · rfl

/-- The first token `u` of a list, and those behind it. -/
private theorem isToken_append (hne : u ≠ []) (hu : ∀ c ∈ u, sep c = false) (hs : ∀ c ∈ s.head?, sep c = true) :
    IsToken sep (u ++ s) t ↔ t = u ∨ IsToken sep s t := by
  constructor
  · rintro ⟨hne', ht, pre, post, heq, hpre, hpost⟩
    rcases List.append_eq_append_iff.mp heq with ⟨b, rfl, hb⟩ | ⟨b, hub, hb⟩
    · -- the token stands behind `u`
      refine .inr ⟨hne', ht, b, post, hb, ?_, hpost⟩
      intro x hx
      cases b with
      | nil => exact absurd hx (by simp)
      | cons e b =>
        refine hpre x ?_
        rw [List.getLast?_append, hx]
        rfl
    · -- the token begins inside `u`, which has no separator in front of it
      cases pre using List.reverseRecOn with
      | nil =>
        rw [List.nil_append] at hub
        subst hub
        exact .inl (eq_of_append_eq ht hu hpost hs hb)
      | append_singleton pre e =>
        have hfalse : sep e = false := hu e (by rw [hub]; simp)
        have htrue : sep e = true := hpre e (by simp)
        exact absurd (hfalse.symm.trans htrue) Bool.false_ne_true
  · rintro (rfl | ⟨hne', ht, pre, post, rfl, hpre, hpost⟩)
    · exact ⟨hne, hu, [], s, rfl, by simp, hs⟩
    · refine ⟨hne', ht, u ++ pre, post, (List.append_assoc _ _ _).symm, ?_, hpost⟩
      intro x hx
      cases pre with
      | nil =>
        cases t with
        | nil => exact absurd rfl hne'
        | cons d t =>
          have hfalse : sep d = false := ht d List.mem_cons_self
          have htrue : sep d = true := hs d (by simp)
          exact absurd (hfalse.symm.trans htrue) Bool.false_ne_true
      | cons e pre =>
        refine hpre x ?_
        rw [List.getLast?_append] at hx
        cases hl : (e :: pre).getLast? with
        | none => exact absurd hl (by simp)
        | some y =>
          rw [hl] at hx
          exact hx

theorem isToken_takeWhile (hs : ∀ c ∈ s.head?, sep c = false) (hne : s ≠ []) :
    IsToken sep s t ↔ t = s.takeWhile (!sep ·) ∨ IsToken sep (s.dropWhile (!sep ·)) t := by
  have hsplit : s.takeWhile (!sep ·) ++ s.dropWhile (!sep ·) = s := List.takeWhile_append_dropWhile
  have hword : ∀ c ∈ s.takeWhile (!sep ·), sep c = false := by
    intro c hc
    have hc' := List.mem_takeWhile_imp hc
    simpa using hc'
  have hrest : ∀ c ∈ (s.dropWhile (!sep ·)).head?, sep c = true := by
    intro c hc
    have hc' := List.head?_dropWhile_not (!sep ·) s
    rw [hc] at hc'
    simpa using hc'
  have hfirst : s.takeWhile (!sep ·) ≠ [] := by
    cases s with
    | nil => exact absurd rfl hne
    | cons c s =>
      have hc : sep c = false := hs c rfl
      simp [hc]
  have htok := isToken_append (t := t) hfirst hword hrest
  rw [hsplit] at htok
  exact htok

end Tokens
