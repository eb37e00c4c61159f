import AoeDriver.Library.Tokens
import AoeDriver.Model.Control
import AoeDriver.Devlist.Names

/-!
# What may be written to the control files

The loop of `is_aoe_netif` goes from token to token of the list. The list is replaced in place, so a copy that faults
half way leaves one that nobody has written. `revalidate` reads on behind the bytes of the user as far as `sscanf` goes.
-/

namespace AoeDriver

open Tokens

section Strings

variable {s p name : List Char}

def isWhite (c : Char) : Bool := WHITESPACE.contains c

private theorem isWhite_nul : isWhite NUL = false := by decide

private theorem drop_strspn (s : List Char) : s.drop (strspn WHITESPACE s) = s.dropWhile isWhite := by
  induction s with
  | nil => rfl
  | cons c s ih =>
    rw [strspn, List.dropWhile_cons]
    change List.drop (if isWhite c then _ else _) _ = _
    split
    · exact ih
    · rfl

theorem cstr_cons {c : Char} (hc : c ≠ NUL) : cstr (c :: s) = c :: cstr s := by
  simp [cstr, hc]

private theorem cstr_nul : cstr (NUL :: s) = [] := by
  simp [cstr]

private theorem nul_notMem_cstr (s : List Char) : NUL ∉ cstr s := by
  intro h
  have hnul := List.mem_takeWhile_imp h
  simp at hnul

private theorem cstr_of_notMem (h : NUL ∉ s) : cstr s = s := by
  refine List.takeWhile_eq_self_iff.mpr fun c hc => ?_
  have hne : c ≠ NUL := fun heq => h (heq ▸ hc)
  simpa using hne

private theorem cstr_dropWhile (s : List Char) : cstr (s.dropWhile isWhite) = (cstr s).dropWhile isWhite := by
  induction s with
  | nil => rfl
  | cons c s ih =>
    by_cases hc : c = NUL
    · subst hc
      rw [List.dropWhile_cons, isWhite_nul, cstr_nul]
      rfl
    · rw [cstr_cons hc, List.dropWhile_cons, List.dropWhile_cons]
      split
      · exact ih
      · exact cstr_cons hc

private theorem cstr_drop_strcspn (s : List Char) : aoeStrcspn WHITESPACE s = ((cstr s).takeWhile (!isWhite ·)).length ∧
    cstr (s.drop (aoeStrcspn WHITESPACE s)) = (cstr s).dropWhile (!isWhite ·) := by
  induction s with
  | nil => exact ⟨rfl, rfl⟩
  | cons c s ih =>
    by_cases hc : c = NUL
    · subst hc
      rw [aoeStrcspn, if_pos rfl, cstr_nul]
      exact ⟨rfl, cstr_nul⟩
    · rw [aoeStrcspn, if_neg hc, cstr_cons hc, List.takeWhile_cons, List.dropWhile_cons]
      change (if isWhite c then 0 else _) = _ ∧ _
      cases hw : isWhite c with
      | true =>
        refine ⟨rfl, ?_⟩
        change cstr (List.drop (if isWhite c then 0 else _) _) = _
        rw [hw]
        exact cstr_cons hc
      | false =>
        refine ⟨congrArg (· + 1) ih.1, ?_⟩
        change cstr (List.drop (if isWhite c then 0 else _) _) = _
        rw [hw]
        exact ih.2

private theorem cstr_eq_nil_iff : cstr s = [] ↔ s.headD NUL = NUL := by
  cases s with
  | nil => exact iff_of_true rfl rfl
  | cons c s =>
    by_cases hc : c = NUL
    · subst hc
      exact iff_of_true cstr_nul rfl
    · rw [cstr_cons hc]
      exact iff_of_false (by simp) hc

private theorem name_eq_iff {w : List Char} (hname : NUL ∉ name) (hw : w <+: p) :
    (strlen name = w.length && strncmpEq w.length name p) = true ↔ name = w := by
  rw [Bool.and_eq_true, decide_eq_true_eq, strlen, cstr_of_notMem hname]
  constructor
  · rintro ⟨hlen, hcmp⟩
    rw [← hlen, strncmpEq_prefix hname] at hcmp
    exact (List.prefix_of_prefix_length_le hcmp hw hlen.le).eq_of_length hlen
  · rintro rfl
    exact ⟨rfl, ( strncmpEq_prefix hname).mpr hw⟩

end Strings

section Netif

variable {name : List Char}

/-- From a pointer that skips separators on, the loop finds the tokens of the rest. -/
private theorem isAoeNetifLoop_tokens (hname : NUL ∉ name) (rounds : ℕ) (p : List Char) (hlen : strlen p < rounds)
    (hp : ∀ c ∈ (cstr p).head?, isWhite c = false) :
    ∃ b, isAoeNetifLoop name rounds p = some b ∧ (b = true ↔ IsToken isWhite (cstr p) name) := by
  induction rounds generalizing p with
  | zero => exact absurd hlen (Nat.not_lt_zero _)
  | succ rounds ih =>
    rw [isAoeNetifLoop]
    split
    · rename_i hend
      refine ⟨false, rfl, ?_⟩
      rw [cstr_eq_nil_iff.mpr hend]
      exact iff_of_false Bool.false_ne_true not_isToken_nil
    · rename_i hgo
      have hne : cstr p ≠ [] := fun h => hgo (cstr_eq_nil_iff.mp h)
      obtain ⟨hn, hrest⟩ := cstr_drop_strcspn p
      have htok := isToken_takeWhile (t := name) hp hne
      generalize haw : (cstr p).takeWhile (!isWhite ·) = w at hn htok
      have hprefix : w <+: p := by
        rw [← haw]
        exact (List.takeWhile_prefix _).trans (List.takeWhile_prefix _)
      have hpos : w ≠ [] := by
        rw [← haw]
        cases hs : cstr p with
        | nil => exact absurd hs hne
        | cons c s =>
          have hc : isWhite c = false := hp c (by rw [hs]; rfl)
          simp [hc]
      have hlen0 : w.length ≠ 0 := fun h => hpos (List.length_eq_zero_iff.mp h)
      dsimp only
      rw [hn, if_pos hlen0]
      split
      · rename_i hcmp
        exact ⟨true, rfl, iff_of_true rfl (htok.mpr (.inl ((name_eq_iff hname hprefix).mp hcmp)))⟩
      · rename_i hcmp
        rw [drop_strspn, ← hn]
        have hnext : cstr ((p.drop (aoeStrcspn WHITESPACE p)).dropWhile isWhite) =
            ((cstr p).dropWhile (!isWhite ·)).dropWhile isWhite := by rw [cstr_dropWhile, hrest]
        have hshort : strlen ((p.drop (aoeStrcspn WHITESPACE p)).dropWhile isWhite) < strlen p := by
          have hsplit : w ++ (cstr p).dropWhile (!isWhite ·) = cstr p := by
            rw [← haw]
            exact List.takeWhile_append_dropWhile
          have hsum := congrArg List.length hsplit
          have hle := (List.dropWhile_suffix isWhite (l := (cstr p).dropWhile (!isWhite ·))).length_le
          rw [List.length_append] at hsum
          rw [strlen, strlen, hnext]
          omega
        obtain ⟨b, hb, hiff⟩ := ih _ (show strlen ((p.drop (aoeStrcspn WHITESPACE p)).dropWhile isWhite) < rounds by omega) (by
          intro c hc
          rw [hnext] at hc
          have hc' := List.head?_dropWhile_not isWhite ((cstr p).dropWhile (!isWhite ·))
          rw [hc] at hc'
          simpa using hc')
        refine ⟨b, hb, ?_⟩
        rw [hiff, hnext, isToken_dropWhile, htok]
        exact ⟨.inr, fun h => h.resolve_left fun heq => hcmp ((name_eq_iff hname hprefix).mpr heq)⟩

private theorem isAoeNetif_iff (aoeIflist : List Char) (hname : NUL ∉ name) : ∃ b, isAoeNetif aoeIflist name = some b ∧
    (b = true ↔ cstr aoeIflist = [] ∨ IsToken isWhite (cstr aoeIflist) name) := by
  rw [isAoeNetif]
  split
  · rename_i hnil
    exact ⟨true, rfl, iff_of_true rfl (.inl (cstr_eq_nil_iff.mpr hnil))⟩
  · rename_i hne
    have hcons : cstr aoeIflist ≠ [] := fun h => hne (cstr_eq_nil_iff.mp h)
    rw [drop_strspn]
    have hstart := cstr_dropWhile aoeIflist
    have hle : strlen (aoeIflist.dropWhile isWhite) ≤ strlen aoeIflist := by
      rw [strlen, strlen, hstart]
      exact (List.dropWhile_suffix isWhite).length_le
    obtain ⟨b, hb, hiff⟩ := isAoeNetifLoop_tokens hname (strlen aoeIflist + 1) (aoeIflist.dropWhile isWhite)
      (Nat.lt_succ_of_le hle) (by
        intro c hc
        rw [hstart] at hc
        have hc' := List.head?_dropWhile_not isWhite (cstr aoeIflist)
        rw [hc] at hc'
        simpa using hc')
    refine ⟨b, hb, ?_⟩
    rw [hiff, hstart, isToken_dropWhile]
    exact ⟨.inr, fun h => h.resolve_left hcons⟩

/-- `is_aoe_netif` returns, and returns 1 just for the names that are tokens of the list, or for all names where the list
is empty. -/
theorem allowed_interfaces (aoeIflist : List Char) (hname : NUL ∉ name) : ∃ b, isAoeNetif aoeIflist name = some b ∧
    (b = true ↔ cstr aoeIflist = [] ∨ IsToken isWhite (cstr aoeIflist) name) :=
  isAoeNetif_iff aoeIflist hname

/-- `eth1` is a token of the list, although `eth10` stands in front of it. -/
theorem allowed_interfaces_sample : NUL ∉ "eth1".toList ∧ isAoeNetif " eth10,\teth1\n".toList "eth1".toList = some true ∧
    IsToken isWhite " eth10,\teth1\n".toList "eth1".toList := by
  have hnul : NUL ∉ "eth1".toList := by decide
  obtain ⟨b, hb, hiff⟩ := allowed_interfaces " eth10,\teth1\n".toList hnul
  have hsome : isAoeNetif " eth10,\teth1\n".toList "eth1".toList = some true := by decide
  have htrue : b = true := Option.some.inj (hb.symm.trans hsome)
  refine ⟨hnul, hsome, (hiff.mp htrue).resolve_left ?_⟩
  decide

end Netif

section Replace

variable {s s' user name : List Char}

/-- What an interface may be called. -/
def IsName (name : List Char) : Prop := name ≠ [] ∧ ∀ c ∈ name, c ≠ NUL ∧ isWhite c = false

theorem IsName.nul_notMem (h : IsName name) : NUL ∉ name := fun hmem => (h.2 NUL hmem).1 rfl

/-- Two lists that allow the same interfaces. -/
def SameList (s s' : List Char) : Prop := (s = [] ↔ s' = []) ∧ ∀ t, IsToken isWhite s t ↔ IsToken isWhite s' t

private theorem isName_of_isToken {t : List Char} (h : IsToken isWhite (cstr s) t) : IsName t := by
  obtain ⟨hne, ht, pre, post, heq, -⟩ := h
  refine ⟨hne, fun c hc => ⟨?_, ht c hc⟩⟩
  rintro rfl
  have hmem : NUL ∈ cstr s := by
    rw [heq]
    simp [hc]
  exact nul_notMem_cstr s hmem

private theorem exists_name_not_token (s : List Char) : ∃ name, IsName name ∧ ¬ IsToken isWhite s name := by
  refine ⟨List.replicate (s.length + 1) 'e', ⟨by simp, ?_⟩, ?_⟩
  · intro c hc
    rw [List.eq_of_mem_replicate hc]
    decide
  · rintro ⟨-, -, pre, post, heq, -⟩
    have hlen := congrArg List.length heq
    simp only [List.length_append, List.length_replicate] at hlen
    omega

private theorem isAoeNetif_eq_iff (hname : IsName name) : isAoeNetif s name = isAoeNetif s' name ↔
    ((cstr s = [] ∨ IsToken isWhite (cstr s) name) ↔ (cstr s' = [] ∨ IsToken isWhite (cstr s') name)) := by
  obtain ⟨b, hb, hiff⟩ := isAoeNetif_iff s hname.nul_notMem
  obtain ⟨b', hb', hiff'⟩ := isAoeNetif_iff s' hname.nul_notMem
  rw [hb, hb', Option.some.injEq, ← hiff, ← hiff', Bool.eq_iff_iff]

private theorem sameList_iff :
    (∀ name, IsName name → isAoeNetif s name = isAoeNetif s' name) ↔ SameList (cstr s) (cstr s') := by
  constructor
  · intro h
    have hnil {s s' : List Char} (h : ∀ name, IsName name → isAoeNetif s name = isAoeNetif s' name)
        (hs : cstr s = []) : cstr s' = [] := by
      obtain ⟨name, hname, hnot⟩ := exists_name_not_token (cstr s')
      exact (((isAoeNetif_eq_iff hname).mp (h name hname)).mp (.inl hs)).resolve_right hnot
    have hsymm : ∀ name, IsName name → isAoeNetif s' name = isAoeNetif s name := fun name hn => (h name hn).symm
    have htok {s s' : List Char} (h : ∀ name, IsName name → isAoeNetif s name = isAoeNetif s' name)
        (hback : cstr s' = [] → cstr s = []) {t : List Char} (ht : IsToken isWhite (cstr s) t) :
        IsToken isWhite (cstr s') t := by
      have hor := ((isAoeNetif_eq_iff (isName_of_isToken ht)).mp (h t (isName_of_isToken ht))).mp (.inr ht)
      refine hor.resolve_left fun hs' => ?_
      rw [hback hs'] at ht
      exact not_isToken_nil ht
    exact ⟨⟨hnil h, hnil hsymm⟩, fun t => ⟨htok h (hnil hsymm), htok hsymm (hnil h)⟩⟩
  · intro h name hname
    rw [isAoeNetif_eq_iff hname, h.1, h.2]

/-- A call of `set_aoe_iflist` that fails changes nothing, and one that succeeds puts the bytes of the user in force. -/
def SetWhole (pad : Bool) (aoeIflist user : List Char) (copied : ℕ) : Prop :=
  ((setAoeIflist pad aoeIflist user copied).2 ≠ 0 → ∀ name, IsName name →
    isAoeNetif (setAoeIflist pad aoeIflist user copied).1 name = isAoeNetif aoeIflist name) ∧
  ((setAoeIflist pad aoeIflist user copied).2 = 0 → ∀ name, IsName name →
    ∃ b, isAoeNetif (setAoeIflist pad aoeIflist user copied).1 name = some b ∧
      (b = true ↔ cstr user = [] ∨ IsToken isWhite (cstr user) name))

theorem cstr_append_nul (s t : List Char) : cstr (s ++ NUL :: t) = cstr s := by
  induction s with
  | nil => exact cstr_nul
  | cons c s ih =>
    by_cases hc : c = NUL
    · subst hc
      exact cstr_nul.trans cstr_nul.symm
    · rw [List.cons_append, cstr_cons hc, cstr_cons hc, ih]

private theorem cstr_terminated (user t : List Char) : cstr ((user ++ t).set user.length NUL) = cstr user := by
  cases t with
  | nil => rw [List.append_nil, List.set_eq_of_length_le le_rfl]
  | cons c t =>
    rw [List.set_append_right _ _ le_rfl, Nat.sub_self, List.set_cons_zero]
    exact cstr_append_nul user t

private theorem cstr_copyFromUser (pad : Bool) (aoeIflist : List Char) {copied : ℕ} (h : copied < user.length) :
    cstr (copyFromUser pad aoeIflist user copied).1 =
      cstr (user.take copied ++ if pad then [] else aoeIflist.drop copied) := by
  cases pad with
  | true =>
    have hrep : List.replicate (user.length - copied) NUL = NUL :: List.replicate (user.length - copied - 1) NUL := by
      rw [← List.replicate_succ]
      congr 1
      omega
    change cstr (user.take copied ++ List.replicate (user.length - copied) NUL ++ _) = cstr (user.take copied ++ [])
    rw [List.append_assoc, hrep, List.cons_append, cstr_append_nul, List.append_nil]
  | false =>
    have hdrop : aoeIflist.drop user.length = (aoeIflist.drop copied).drop (user.length - copied) := by
      rw [List.drop_drop]
      congr 1
      omega
    change cstr (user.take copied ++ (aoeIflist.drop copied).take (user.length - copied) ++ _) = _
    rw [List.append_assoc, hdrop, List.take_append_drop]
    rfl

private theorem einval_ne_zero : -EINVAL ≠ 0 := by decide

private theorem efault_ne_zero : -EFAULT ≠ 0 := by decide

/-- Setting the list is all or nothing unless a copy faults behind bytes that give another list, followed by the rest
of the old list or by nothing. -/
theorem setAoeIflist_whole_iff (pad : Bool) (aoeIflist user : List Char) (copied : ℕ) :
    SetWhole pad aoeIflist user copied ↔ IFLISTSZ ≤ user.length ∨ user.length ≤ copied ∨
      SameList (cstr (user.take copied ++ if pad then [] else aoeIflist.drop copied)) (cstr aoeIflist) := by
  unfold SetWhole setAoeIflist
  split
  · rename_i hsize
    refine iff_of_true ⟨fun _ _ _ => rfl, fun hzero => ?_⟩ (.inl hsize)
    exact absurd hzero einval_ne_zero
  · rename_i hsize
    by_cases hall : user.length ≤ copied
    · refine iff_of_true ⟨?_, ?_⟩ (.inr (.inl hall))
      · intro hne
        exact absurd (by simp [copyFromUser, Nat.sub_eq_zero_of_le hall]) hne
      · intro _ name hname
        have hcopy : (copyFromUser pad aoeIflist user copied) = (user ++ aoeIflist.drop user.length, 0) := by
          simp [copyFromUser, Nat.sub_eq_zero_of_le hall, List.take_of_length_le hall]
        rw [hcopy]
        dsimp only
        rw [if_neg (by simp)]
        obtain ⟨b, hb, hiff⟩ := isAoeNetif_iff ((user ++ aoeIflist.drop user.length).set user.length NUL) hname.nul_notMem
        rw [cstr_terminated] at hiff
        exact ⟨b, hb, hiff⟩
    · have hlt : copied < user.length := not_le.mp hall
      have hleft : user.length - copied ≠ 0 := by omega
      have hfault : (copyFromUser pad aoeIflist user copied).2 = user.length - copied := rfl
      have hcstr := cstr_copyFromUser pad aoeIflist hlt
      generalize copyFromUser pad aoeIflist user copied = r at hfault hcstr
      obtain ⟨mem, n⟩ := r
      dsimp only at hfault hcstr ⊢
      subst hfault
      rw [if_pos hleft, sameList_iff, hcstr]
      constructor
      · exact fun h => .inr (.inr (h.1 efault_ne_zero))
      · rintro (h | h | h)
        · exact absurd h hsize
        · exact absurd h hall
        · exact ⟨fun _ => h, fun hzero => absurd hzero efault_ne_zero⟩

private theorem isName_eth0 : IsName "eth0".toList := by
  refine ⟨by decide, fun c hc => ?_⟩
  have hc' : c = 'e' ∨ c = 't' ∨ c = 'h' ∨ c = '0' := by simpa using hc
  rcases hc' with rfl | rfl | rfl | rfl
  all_goals decide

/-- The user's nine bytes fault behind the first four, and `eth0` is not allowed any more. -/
theorem setAoeIflist_half : ¬ SetWhole true "eth0".toList "eth1 eth2".toList 4 ∧
    ¬ SetWhole false "eth0".toList "eth1 eth2".toList 4 := by
  refine ⟨fun h => ?_, fun h => ?_⟩
  · have hsame := h.1 (by decide) "eth0".toList isName_eth0
    exact absurd hsame (by decide)
  · have hsame := h.1 (by decide) "eth0".toList isName_eth0
    exact absurd hsame (by decide)

end Replace

end AoeDriver
