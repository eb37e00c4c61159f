import AoeDriver.Property.Control

/-!
# Revalidating a device

`sscanf` stops inside the bytes of the user, or it goes on with what the stack held before. Where the user's bytes leave
it undecided and there is room for more, the stack decides.
-/

namespace AoeDriver

section Numbers

variable {sp sg ds r s x y : List Char} {v : BitVec 32}

/-- Spaces and a sign, as they may stand in front of a number. -/
structure Lead (sp sg : List Char) : Prop where
  spaces : ∀ c ∈ sp, kisspace c = true
  sign : sg = [] ∨ sg = ['-']

/-- The value of `%d`. -/
def intVal (sg ds : List Char) : BitVec 32 := .ofInt 32 (if sg = [] then digits ds else -digits ds)

private theorem kisspace_digit {c : Char} (hc : c.isDigit = true) : kisspace c = false := by
  have hle : 48 ≤ c.toNat ∧ c.toNat ≤ 57 := by
    simpa [Char.isDigit, UInt32.le_iff_toNat_le] using hc
  simp only [kisspace, Bool.or_eq_false_iff, Bool.and_eq_false_iff, decide_eq_false_iff_not]
  omega

private theorem skipSpaces_append (h : ∀ c ∈ sp, kisspace c = true) (hs : ∀ c ∈ s.head?, kisspace c = false) :
    skipSpaces (sp ++ s) = s := by
  induction sp with
  | nil =>
    cases s with
    | nil => rfl
    | cons c s =>
      rw [List.nil_append, skipSpaces, List.dropWhile_cons, hs c rfl]
      rfl
  | cons c sp ih =>
    rw [List.cons_append, skipSpaces, List.dropWhile_cons, h c List.mem_cons_self]
    exact ih fun c hc => h c (List.mem_cons_of_mem _ hc)

private theorem kisspace_ne_nul {c : Char} (hc : kisspace c = true) : c ≠ NUL := by
  rintro rfl
  exact absurd hc (by decide)

private theorem scanInt_lead (h : Lead sp sg) {c : Char} (hc : sg = [] → kisspace c = false ∧ c ≠ '-') :
    scanInt (sp ++ (sg ++ c :: s)) =
      if c.isDigit then some (intVal sg (c :: s), (c :: s).dropWhile Char.isDigit) else none := by
  by_cases hhead : (sp ++ (sg ++ c :: s)).headD NUL = NUL
  · have hnul : c = NUL := by
      cases sp with
      | cons d sp => exact absurd hhead (kisspace_ne_nul (h.spaces d List.mem_cons_self))
      | nil =>
        rcases h.sign with rfl | rfl
        · exact hhead
        · exact absurd hhead (by simp [NUL])
    rw [scanInt, if_pos hhead, hnul]
    rfl
  · rw [scanInt, if_neg hhead]
    rcases h.sign with rfl | rfl
    · obtain ⟨hspace, hm⟩ := hc rfl
      rw [List.nil_append, skipSpaces_append h.spaces fun d hd => by
        have hd' : c = d := by simpa using hd
        exact hd' ▸ hspace]
      simp [hm, intVal]
    · rw [skipSpaces_append h.spaces fun d hd => by
        have hd' : '-' = d := by simpa using hd
        exact hd' ▸ by decide]
      simp [intVal]

private theorem takeWhile_digits (hds : ∀ c ∈ ds, c.isDigit = true) (hr : ∀ c ∈ r.head?, c.isDigit = false) :
    (ds ++ r).takeWhile Char.isDigit = ds ∧ (ds ++ r).dropWhile Char.isDigit = r := by
  induction ds with
  | nil =>
    cases r with
    | nil => exact ⟨rfl, rfl⟩
    | cons c r => simp [hr c rfl]
  | cons c ds ih =>
    have hrest := ih fun d hd => hds d (List.mem_cons_of_mem _ hd)
    simp [hds c List.mem_cons_self, hrest.1, hrest.2]

private theorem scanInt_number (h : Lead sp sg) (hne : ds ≠ []) (hds : ∀ c ∈ ds, c.isDigit = true)
    (hr : ∀ c ∈ r.head?, c.isDigit = false) : scanInt (sp ++ (sg ++ (ds ++ r))) = some (intVal sg ds, r) := by
  obtain ⟨htake, hdrop⟩ := takeWhile_digits hds hr
  cases ds with
  | nil => exact absurd rfl hne
  | cons c ds =>
    have hc := hds c List.mem_cons_self
    have hm : c ≠ '-' := by
      rintro rfl
      exact absurd hc (by decide)
    rw [List.cons_append] at htake hdrop ⊢
    rw [scanInt_lead h fun _ => ⟨kisspace_digit hc, hm⟩, if_pos hc, hdrop]
    have hval : intVal sg (c :: (ds ++ r)) = intVal sg (c :: ds) := by
      have hself : (c :: ds).takeWhile Char.isDigit = c :: ds := List.takeWhile_eq_self_iff.mpr hds
      rw [intVal, intVal, digits, digits, htake, hself]
    rw [hval]

private theorem strlen_dropWhile_le {p : Char → Bool} (hp : p NUL = false) (s : List Char) :
    strlen (s.dropWhile p) ≤ strlen s := by
  induction s with
  | nil => exact le_rfl
  | cons c s ih =>
    rw [List.dropWhile_cons]
    split
    · rename_i hc
      have hne : c ≠ NUL := by
        rintro rfl
        rw [hp] at hc
        exact absurd hc Bool.false_ne_true
      have hcons : strlen (c :: s) = strlen s + 1 := by rw [strlen, cstr_cons hne, List.length_cons, strlen]
      omega
    · exact le_rfl

private theorem strlen_dropWhile_digit {c : Char} (hc : c.isDigit = true) (s : List Char) :
    strlen ((c :: s).dropWhile Char.isDigit) < strlen (c :: s) := by
  have hne : c ≠ NUL := by
    rintro rfl
    exact absurd hc (by decide)
  have hcons : strlen (c :: s) = strlen s + 1 := by rw [strlen, cstr_cons hne, List.length_cons, strlen]
  have hle := strlen_dropWhile_le (p := Char.isDigit) (by decide) s
  rw [List.dropWhile_cons, if_pos hc]
  omega

private theorem scanInt_lead_nil (h : Lead sp sg) : scanInt (sp ++ sg) = none := by
  by_cases hhead : (sp ++ sg).headD NUL = NUL
  · rw [scanInt, if_pos hhead]
  · rw [scanInt, if_neg hhead]
    rcases h.sign with rfl | rfl
    · rw [skipSpaces_append h.spaces (by simp)]
      rfl
    · rw [skipSpaces_append h.spaces (by simp; decide)]
      rfl

/-- What stands behind spaces and a sign. -/
inductive Led (sg : List Char) : List Char → Prop where
  | nil : Led sg []
  | cons {c : Char} {t : List Char} (hc : sg = [] → kisspace c = false ∧ c ≠ '-') : Led sg (c :: t)

private theorem exists_lead (s : List Char) :
    ∃ sp sg t, Lead sp sg ∧ Led sg t ∧ s = sp ++ (sg ++ t) ∧ strlen t ≤ strlen s := by
  have hsplit : s.takeWhile kisspace ++ s.dropWhile kisspace = s := List.takeWhile_append_dropWhile
  have hspaces : ∀ c ∈ s.takeWhile kisspace, kisspace c = true := fun c hc => List.mem_takeWhile_imp hc
  have hle := strlen_dropWhile_le (p := kisspace) (by decide) s
  have hhead := List.head?_dropWhile_not kisspace s
  generalize s.dropWhile kisspace = t at hsplit hle hhead
  cases t with
  | nil => exact ⟨_, [], [], ⟨hspaces, .inl rfl⟩, .nil, hsplit.symm, hle⟩
  | cons c t =>
    by_cases hc : c = '-'
    · subst hc
      have hlen : strlen ('-' :: t) = strlen t + 1 := by rw [strlen, cstr_cons (by decide), List.length_cons, strlen]
      refine ⟨_, ['-'], t, ⟨hspaces, .inr rfl⟩, ?_, hsplit.symm, by omega⟩
      cases t with
      | nil => exact .nil
      | cons d t => exact .cons fun hnil => absurd hnil (by simp)
    · refine ⟨_, [], c :: t, ⟨hspaces, .inl rfl⟩, .cons fun _ => ⟨?_, hc⟩, hsplit.symm, hle⟩
      simpa using hhead

/-- A number takes at least one character from what follows spaces and a sign. -/
private theorem scanInt_lt (h : Lead sp sg) (hscan : scanInt (sp ++ (sg ++ x)) = some (v, r)) : strlen r < strlen x := by
  have hled {sp sg t : List Char} (h : Lead sp sg) (ht : Led sg t) (hscan : scanInt (sp ++ (sg ++ t)) = some (v, r)) :
      strlen r < strlen t := by
    cases ht with
    | nil =>
      rw [List.append_nil, scanInt_lead_nil h] at hscan
      exact absurd hscan (by simp)
    | @cons c t hc =>
      rw [scanInt_lead h hc] at hscan
      split at hscan
      · rename_i hd
        have hr : (c :: t).dropWhile Char.isDigit = r := (Prod.mk.inj (Option.some.inj hscan)).2
        rw [← hr]
        exact strlen_dropWhile_digit hd t
      · exact absurd hscan (by simp)
  rcases h.sign with rfl | rfl
  · -- spaces in `x` belong to those in front of it
    obtain ⟨sp', sg', t, h', ht, rfl, hle⟩ := exists_lead x
    have hall : Lead (sp ++ sp') sg' := by
      refine ⟨fun c hc => ?_, h'.sign⟩
      rcases List.mem_append.mp hc with hc | hc
      · exact h.spaces c hc
      · exact h'.spaces c hc
    rw [List.nil_append, ← List.append_assoc] at hscan
    exact (hled hall ht hscan).trans_le hle
  · cases x with
    | nil =>
      have hnil := scanInt_lead_nil h
      rw [List.append_nil, hnil] at hscan
      exact absurd hscan (by simp)
    | cons c x => exact hled h (.cons fun hnil => absurd hnil (by simp)) hscan

end Numbers

section Parts

variable {s x r : List Char}

/-- How far `%d` gets in the bytes of the user: to their end, behind a digit or not, to a character that cannot be there,
or to the rest behind the number. -/
inductive IntEnd where
  | atEnd (digit : Bool)
  | bad
  | past (rest : List Char)
deriving DecidableEq

/-- Behind spaces and sign. -/
def numEnd : List Char → IntEnd
  | [] => .atEnd false
  | c :: s =>
    if c.isDigit then
      match s.dropWhile Char.isDigit with
      | [] => .atEnd true
      | c :: s => .past (c :: s)
    else .bad

def intEnd (s : List Char) : IntEnd :=
  let s := skipSpaces s
  numEnd (if s.headD NUL = '-' then s.tail else s)

private theorem intEnd_lead {sp sg t : List Char} (h : Lead sp sg) (ht : Led sg t) :
    intEnd (sp ++ (sg ++ t)) = numEnd t := by
  rw [intEnd]
  rcases h.sign with rfl | rfl
  · rw [List.nil_append]
    cases ht with
    | nil =>
      rw [skipSpaces_append h.spaces (by simp)]
      rfl
    | @cons c t hc =>
      obtain ⟨hspace, hm⟩ := hc rfl
      have hhead : (c :: t).headD NUL ≠ '-' := hm
      rw [skipSpaces_append h.spaces (by simpa using hspace)]
      rw [if_neg hhead]
  · rw [skipSpaces_append h.spaces (by simp; decide)]
    rfl

/-- What `%d` does with the bytes of the user and more. -/
inductive Scanned (s : List Char) : IntEnd → Prop where
  | short {sg : List Char} (hnum : ∀ ds r, ds ≠ [] → (∀ c ∈ ds, c.isDigit = true) → (∀ c ∈ r.head?, c.isDigit = false) →
        scanInt (s ++ (ds ++ r)) = some (intVal sg ds, r))
      (hlt : ∀ x v r, scanInt (s ++ x) = some (v, r) → strlen r < strlen x) : Scanned s (.atEnd false)
  | digit {sg ds : List Char} (hne : ds ≠ []) (hds : ∀ c ∈ ds, c.isDigit = true)
      (hscan : ∀ x, scanInt (s ++ x) = some (intVal sg (ds ++ x.takeWhile Char.isDigit), x.dropWhile Char.isDigit)) :
      Scanned s (.atEnd true)
  | bad (hscan : ∀ x, scanInt (s ++ x) = none) : Scanned s .bad
  | past {v : BitVec 32} {r : List Char} (hne : r ≠ []) (hscan : ∀ x, scanInt (s ++ x) = some (v, r ++ x)) : Scanned s (.past r)

private theorem scanned (s : List Char) : Scanned s (intEnd s) := by
  obtain ⟨sp, sg, t, h, ht, rfl, -⟩ := exists_lead s
  have hassoc (x : List Char) : sp ++ (sg ++ t) ++ x = sp ++ (sg ++ (t ++ x)) := by simp
  rw [intEnd_lead h ht]
  unfold numEnd
  cases ht with
  | nil =>
    refine @Scanned.short _ sg ?_ ?_
    · intro ds r hne hds hr
      rw [hassoc]
      exact scanInt_number h hne hds hr
    · intro x v r hscan
      rw [hassoc] at hscan
      exact scanInt_lt h hscan
  | @cons c t hc =>
    dsimp only
    split
    · rename_i hd
      have hsplit : (c :: t).takeWhile Char.isDigit ++ t.dropWhile Char.isDigit = c :: t := by
        have happ := List.takeWhile_append_dropWhile (p := Char.isDigit) (l := c :: t)
        rwa [List.dropWhile_cons, if_pos hd] at happ
      have hds : ∀ d ∈ (c :: t).takeWhile Char.isDigit, d.isDigit = true := fun d hd => List.mem_takeWhile_imp hd
      have hne : (c :: t).takeWhile Char.isDigit ≠ [] := by simp [hd]
      have hrest := List.head?_dropWhile_not Char.isDigit t
      generalize (c :: t).takeWhile Char.isDigit = ds at hsplit hds hne
      split
      · rename_i hnil
        rw [hnil, List.append_nil] at hsplit
        subst hsplit
        refine @Scanned.digit _ sg _ hne hds fun x => ?_
        have hx : x = x.takeWhile Char.isDigit ++ x.dropWhile Char.isDigit := List.takeWhile_append_dropWhile.symm
        have hdx : ∀ d ∈ (c :: t) ++ x.takeWhile Char.isDigit, d.isDigit = true := by
          intro d hd
          rcases List.mem_append.mp hd with hd | hd
          · exact hds d hd
          · exact List.mem_takeWhile_imp hd
        have hnum := scanInt_number h (List.append_ne_nil_of_left_ne_nil hne _) hdx (r := x.dropWhile Char.isDigit) (by
          intro d hd
          have hd' := List.head?_dropWhile_not Char.isDigit x
          rw [hd] at hd'
          simpa using hd')
        rw [hassoc]
        nth_rewrite 1 [hx]
        rw [← List.append_assoc (c :: t)]
        exact hnum
      · rename_i e r hr
        rw [hr] at hsplit hrest
        refine .past (v := intVal sg ds) (by simp) fun x => ?_
        rw [hassoc, ← hsplit, List.append_assoc]
        exact scanInt_number h hne hds (by simpa using hrest)
    · rename_i hd
      refine .bad fun x => ?_
      rw [hassoc, List.cons_append, scanInt_lead h hc, if_neg hd]

end Parts

section Device

variable {user s x y z w : List Char}

private theorem scanChar_cons (c d : Char) (s : List Char) : scanChar c (d :: s) = if d = c then some s else none := rfl

private theorem scanChar_nil {c : Char} (hc : c ≠ NUL) : scanChar c [] = none := if_neg hc.symm

/-- What follows the `e` of a device. -/
def scanNumbers (s : List Char) : Option (BitVec 32 × BitVec 32) :=
  (scanInt s).bind fun a => (scanChar '.' a.2).bind fun s => (scanInt s).map fun b => (a.1, b.1)

private theorem sscanfDevice_cons (c : Char) (s : List Char) :
    sscanfDevice (c :: s) = if c = 'e' then scanNumbers s else none := by
  unfold sscanfDevice
  rw [scanChar_cons]
  split
  · cases h : scanInt s with
    | none => simp [scanNumbers, h]
    | some a =>
      cases h' : scanChar '.' a.2 with
      | none => simp [scanNumbers, h, h']
      | some t =>
        cases h'' : scanInt t with
        | none => simp [scanNumbers, h, h', h'']
        | some b => simp [scanNumbers, h, h', h'']
  · rfl

/-- The number of bytes behind those of the user that the second number still asks for, where it gets to the end of
them. -/
def wantedMinor (s : List Char) : Option ℕ :=
  match intEnd s with
  | .atEnd _ => some 1
  | _ => none

/-- The same for what follows the `e`. -/
def wantedNumbers (s : List Char) : Option ℕ :=
  match intEnd s with
  | .atEnd false => some 3
  | .atEnd true => some 2
  | .bad => none
  | .past [] => none
  | .past (c :: s) => if c = '.' then wantedMinor s else none

def wanted : List Char → Option ℕ
  | [] => some 4
  | c :: s => if c = 'e' then wantedNumbers s else none

private theorem strlen_append_nul_le (y w : List Char) : strlen (y ++ NUL :: w) ≤ y.length := by
  rw [strlen, cstr_append_nul]
  exact (List.takeWhile_prefix _).length_le

private theorem scanChar_strlen {c : Char} (hc : c ≠ NUL) (h : scanChar c s = some x) : strlen x + 1 = strlen s := by
  cases s with
  | nil =>
    rw [scanChar_nil hc] at h
    exact absurd h (by simp)
  | cons d s =>
    rw [scanChar_cons] at h
    split at h
    · rename_i hd
      rw [← Option.some.inj h, strlen, strlen, hd, cstr_cons hc, List.length_cons]
    · exact absurd h (by simp)

private theorem scanInt_strlen {a : BitVec 32 × List Char} (h : scanInt s = some a) : strlen a.2 < strlen s := by
  have hlead : Lead [] [] := ⟨by simp, .inl rfl⟩
  exact scanInt_lt hlead h

private theorem scanNumbers_rest {b : BitVec 32 × BitVec 32} (h : scanNumbers s = some b) :
    ∃ a, scanInt s = some a ∧ 2 ≤ strlen a.2 := by
  rw [scanNumbers, Option.bind_eq_some_iff] at h
  obtain ⟨a, ha, h⟩ := h
  obtain ⟨t, ht, h⟩ := Option.bind_eq_some_iff.mp h
  obtain ⟨c, hc, -⟩ := Option.map_eq_some_iff.mp h
  have hpoint := scanChar_strlen (by decide) ht
  have hdigit := scanInt_strlen hc
  exact ⟨a, ha, by omega⟩

private theorem sscanfDevice_strlen {b : BitVec 32 × BitVec 32} (h : sscanfDevice s = some b) : 4 ≤ strlen s := by
  cases s with
  | nil => exact absurd h (by simp [sscanfDevice, scanChar, NUL])
  | cons c s =>
    rw [sscanfDevice_cons] at h
    split at h
    · rename_i hc
      obtain ⟨a, ha, hrest⟩ := scanNumbers_rest h
      have hdigit := scanInt_strlen ha
      have hlen : strlen (c :: s) = strlen s + 1 := by
        rw [strlen, cstr_cons (by rw [hc]; decide), List.length_cons, strlen]
      omega
    · exact absurd h (by simp)

private theorem scanInt_zero {c : Char} (hc : c.isDigit = false) : scanInt ('0' :: c :: s) = some (0, c :: s) := by
  have hlead : Lead [] [] := ⟨by simp, .inl rfl⟩
  have hds : ∀ d ∈ ['0'], d.isDigit = true := by simp
  have hr : ∀ d ∈ (c :: s).head?, d.isDigit = false := by simpa using hc
  exact scanInt_number hlead (List.cons_ne_nil _ _) hds hr

private theorem nul_digit : NUL.isDigit = false := by decide

private theorem intVal_snoc (sg : List Char) {ds : List Char} (hds : ∀ c ∈ ds, c.isDigit = true) :
    intVal sg (ds ++ ['0']) ≠ intVal sg (ds ++ ['1']) := by
  have hdigits (c : Char) (hc : c.isDigit = true) : digits (ds ++ [c]) = 10 * digits ds + (c.toNat - 48) := by
    have hall : ∀ d ∈ ds ++ [c], d.isDigit = true := by
      intro d hd
      rcases List.mem_append.mp hd with hd | hd
      · exact hds d hd
      · exact List.mem_singleton.mp hd ▸ hc
    rw [digits, digits, List.takeWhile_eq_self_iff.mpr hall, List.takeWhile_eq_self_iff.mpr hds, List.foldl_append]
    rfl
  have h0 : digits (ds ++ ['0']) = 10 * digits ds := hdigits '0' (by decide)
  have h1 : digits (ds ++ ['1']) = 10 * digits ds + 1 := hdigits '1' (by decide)
  intro h
  rw [intVal, intVal, h0, h1] at h
  have hmod := congrArg BitVec.toNat h
  rw [BitVec.toNat_ofInt, BitVec.toNat_ofInt] at hmod
  split at hmod
  · push_cast at hmod
    omega
  · push_cast at hmod
    omega

/-- What becomes of a scan `f` of the bytes behind those of the user: they do not matter, or fewer than `k` of them do not
matter and `k` can. -/
inductive Outcome {β : Type} (f : List Char → Option β) : Option ℕ → Prop where
  | decided (h : ∀ z, f z = f []) : Outcome f none
  | undecided {k : ℕ} (few : ∀ y w, y.length < k → f (y ++ NUL :: w) = f [])
      (enough : ∃ y, y.length = k ∧ ∀ w, f (y ++ NUL :: w) ≠ f []) : Outcome f (some k)

private theorem outcome_of_strlen {β : Type} {f : List Char → Option β} {k : ℕ} (hlt : ∀ x b, f x = some b → k ≤ strlen x)
    (hk : 0 < k) (hy : y.length = k) (hfind : ∀ w, (f (y ++ NUL :: w)).isSome) : Outcome f (some k) := by
  have hnone (x : List Char) (hx : strlen x < k) : f x = none := by
    cases h : f x with
    | none => rfl
    | some b => exact absurd (hlt x b h) (not_le.mpr hx)
  have hnil : f [] = none := hnone [] hk
  refine .undecided ?_ ⟨y, hy, ?_⟩
  · intro y w hlen
    rw [hnil]
    exact hnone _ ((strlen_append_nul_le y w).trans_lt hlen)
  · intro w heq
    rw [hnil] at heq
    have hsome := hfind w
    rw [heq] at hsome
    exact absurd hsome Bool.false_ne_true

private theorem outcome_minor (a : BitVec 32) (t : List Char) :
    Outcome (fun x => (scanInt (t ++ x)).map fun b => (a, b.1)) (wantedMinor t) := by
  have ht := scanned t
  rw [wantedMinor]
  generalize intEnd t = k at ht
  cases ht with
  | short hnum hlt =>
    refine outcome_of_strlen (y := ['0']) ?_ one_pos rfl ?_
    · intro x b hb
      obtain ⟨c, hc, -⟩ := Option.map_eq_some_iff.mp hb
      have hdigit := hlt x c.1 c.2 hc
      omega
    · intro w
      rw [hnum ['0'] (NUL :: w) (by simp) (by simp) (by simp [nul_digit])]
      rfl
  | @digit sg ds hne hds hscan =>
    have hval (y w : List Char) (hy : ∀ c ∈ y, c.isDigit = true) :
        (scanInt (t ++ (y ++ NUL :: w))).map (fun b => (a, b.1)) = some (a, intVal sg (ds ++ y)) := by
      have hnul : ∀ c ∈ (NUL :: w).head?, c.isDigit = false := by simp [nul_digit]
      have htake := (takeWhile_digits hy hnul).1
      rw [hscan, htake]
      rfl
    have hnil : (scanInt (t ++ [])).map (fun b => (a, b.1)) = some (a, intVal sg ds) := by
      rw [hscan]
      simp
    refine .undecided ?_ ?_
    · intro y w hlen
      have hy : y = [] := List.length_eq_zero_iff.mp (by omega)
      rw [hy, hnil, hval [] w (by simp), List.append_nil]
    · -- one of two digits changes the number
      by_cases h0 : intVal sg (ds ++ ['0']) = intVal sg ds
      · refine ⟨['1'], rfl, fun w heq => intVal_snoc sg hds ?_⟩
        rw [hval ['1'] w (by simp), hnil] at heq
        rw [h0]
        exact (Prod.mk.inj (Option.some.inj heq)).2.symm
      · refine ⟨['0'], rfl, fun w heq => h0 ?_⟩
        rw [hval ['0'] w (by simp), hnil] at heq
        exact (Prod.mk.inj (Option.some.inj heq)).2
  | bad hscan =>
    refine .decided fun z => ?_
    rw [hscan, hscan]
  | past _ hscan =>
    refine .decided fun z => ?_
    rw [hscan, hscan]
    rfl

private theorem outcome_numbers (s : List Char) : Outcome (fun x => scanNumbers (s ++ x)) (wantedNumbers s) := by
  have hs := scanned s
  rw [wantedNumbers]
  generalize intEnd s = k at hs
  cases hs with
  | @short sg hnum hlt =>
    refine outcome_of_strlen (y := ['0', '.', '0']) ?_ (by norm_num) rfl ?_
    · intro x b hb
      obtain ⟨a, ha, hrest⟩ := scanNumbers_rest hb
      have hdigit := hlt x a.1 a.2 ha
      omega
    · intro w
      have hfirst := hnum ['0'] ('.' :: '0' :: NUL :: w) (by simp) (by simp) (by simp)
      have hsecond := scanInt_zero (s := w) nul_digit
      simp only [List.cons_append, List.nil_append] at hfirst ⊢
      simp [scanNumbers, hfirst, scanChar_cons, hsecond]
  | @digit sg ds hne hds hscan =>
    refine outcome_of_strlen (y := ['.', '0']) ?_ (by norm_num) rfl ?_
    · intro x b hb
      obtain ⟨a, ha, hrest⟩ := scanNumbers_rest hb
      rw [hscan] at ha
      have hle := strlen_dropWhile_le (p := Char.isDigit) (by decide) x
      rw [← Option.some.inj ha] at hrest
      exact hrest.trans hle
    · intro w
      have hsecond := scanInt_zero (s := w) nul_digit
      rw [scanNumbers, hscan]
      simp [scanChar_cons, hsecond]
  | bad hscan =>
    refine .decided fun z => ?_
    rw [scanNumbers, scanNumbers, hscan, hscan]
  | @past v r hne hscan =>
    cases r with
    | nil => exact absurd rfl hne
    | cons c t =>
      have hnumbers (x : List Char) : scanNumbers (s ++ x) =
          if c = '.' then (scanInt (t ++ x)).map fun b => (v, b.1) else none := by
        rw [scanNumbers, hscan, Option.bind_some, List.cons_append, scanChar_cons]
        split
        · rfl
        · rfl
      simp only [hnumbers]
      split
      · exact outcome_minor v t
      · exact .decided fun _ => rfl

private theorem outcome_device (user : List Char) : Outcome (fun x => sscanfDevice (user ++ x)) (wanted user) := by
  cases user with
  | nil =>
    refine outcome_of_strlen (y := ['e', '0', '.', '0']) ?_ (by norm_num) rfl ?_
    · exact fun x b hb => sscanfDevice_strlen hb
    · intro w
      have hfirst := scanInt_zero (c := '.') (s := '0' :: NUL :: w) (by decide)
      have hsecond := scanInt_zero (s := w) nul_digit
      simp [sscanfDevice_cons, scanNumbers, hfirst, scanChar_cons, hsecond]
  | cons c s =>
    simp only [List.cons_append, sscanfDevice_cons, wanted]
    split
    · exact outcome_numbers s
    · exact .decided fun _ => rfl

/-- The device is the one named by the bytes of the user, whatever the stack held. -/
def OwnBytes (user : List Char) : Prop :=
  ∀ stack stack', stack.length = 16 → stack'.length = 16 → revalidateDevice stack user = revalidateDevice stack' user ∧
    revalidateDevice stack user = sscanfDevice user

private theorem revalidateDevice_eq {stack : List Char} (hstack : stack.length = 16) (hu : user.length < 16) :
    revalidateDevice stack user = sscanfDevice (user ++ ((stack.take 15).drop user.length ++ [NUL])) := by
  have hset : stack.set 15 NUL = stack.take 15 ++ [NUL] := by
    rw [List.set_eq_take_append_cons_drop, if_pos (by omega), List.drop_of_length_le (by omega)]
  have hlen : (stack.take 15).length = 15 := by rw [List.length_take]; omega
  rw [revalidateDevice, if_neg (not_le.mpr hu), copyFromUser, hset, Nat.sub_self, List.take_length,
    List.drop_append_of_le_length (by omega)]
  simp

/-- `revalidate` depends on the user's bytes alone just where `sscanf` stops inside them, or where there is no room behind
them for the bytes it still asks for. -/
theorem revalidate_own_bytes_iff (hu : user.length < 16) :
    OwnBytes user ↔ ∀ k, wanted user = some k → 15 < user.length + k := by
  have hout := outcome_device user
  generalize wanted user = o at hout
  constructor
  · rintro hown k rfl
    by_contra hroom
    cases hout with
    | undecided few enough =>
      obtain ⟨y, rfl, hdiff⟩ := enough
      -- a stack with `y` behind the user's bytes
      obtain ⟨n, hn⟩ : ∃ n, user.length + y.length + n = 15 := ⟨15 - (user.length + y.length), by omega⟩
      have hstack : (user ++ (y ++ List.replicate (n + 1) NUL)).length = 16 := by simp; omega
      have heq := (hown _ _ hstack hstack).2
      have htake : (user ++ (y ++ List.replicate (n + 1) NUL)).take 15 = user ++ (y ++ List.replicate n NUL) := by
        rw [List.replicate_succ', ← List.append_assoc, ← List.append_assoc, ← List.append_assoc,
          List.take_append_of_le_length (by simp; omega), List.take_of_length_le (by simp; omega)]
      rw [revalidateDevice_eq hstack hu, htake, List.drop_left, List.append_assoc, ← List.replicate_succ',
        List.replicate_succ] at heq
      have hne := hdiff (List.replicate n NUL)
      rw [List.append_nil] at hne
      exact hne heq
  · intro hroom
    have hown {stack : List Char} (hstack : stack.length = 16) : revalidateDevice stack user = sscanfDevice user := by
      rw [revalidateDevice_eq hstack hu]
      cases hout with
      | decided h =>
        have hz := h ((stack.take 15).drop user.length ++ [NUL])
        rw [List.append_nil] at hz
        exact hz
      | undecided few enough =>
        have hfew := few ((stack.take 15).drop user.length) [] (by
          have hk := hroom _ rfl
          rw [List.length_drop, List.length_take]
          omega)
        rw [List.append_nil] at hfew
        exact hfew
    intro stack stack' h h'
    exact ⟨(hown h).trans (hown h').symm, hown h⟩

/-- Nothing is wanted behind `e1.2` and a newline. -/
theorem revalidate_own_bytes_sample : "e1.2\n".toList.length < 16 ∧ OwnBytes "e1.2\n".toList := by
  have hlen : "e1.2\n".toList.length < 16 := by decide
  refine ⟨hlen, (revalidate_own_bytes_iff hlen).mpr fun k hk => ?_⟩
  have hnone : wanted "e1.2\n".toList = none := by decide
  rw [hnone] at hk
  exact absurd hk (by simp)

/-- Without the newline, a digit left on the stack makes it another device. -/
theorem revalidate_stray_digit : "e1.2".toList.length < 16 ∧ ¬ OwnBytes "e1.2".toList := by
  refine ⟨by decide, fun h => ?_⟩
  have heq := (h (List.replicate 16 '3') (List.replicate 16 NUL) rfl rfl).1
  exact absurd heq (by decide +kernel)

end Device

end AoeDriver
