import AoeDriver.Devlist.Order

/-!
# Names of disks

A disk is called `etherd/eX.Y` after the shelf and slot of its device. The string that is written to the flush device
is compared with what follows the last slash.
-/

namespace AoeDriver

private theorem toDigits_inj {a b : ℕ} (h : Nat.toDigits 10 a = Nat.toDigits 10 b) : a = b := by
  rw [← Nat.ofDigitChars_ten_toDigits (n := a), h, Nat.ofDigitChars_ten_toDigits]

private theorem notMem_toDigits {c : Char} (hc : c.isDigit = false) (n : ℕ) : c ∉ Nat.toDigits 10 n := by
  intro hmem
  have hdigit := Nat.isDigit_of_mem_toDigits (by norm_num) (by norm_num) hmem
  exact absurd (hc.symm.trans hdigit) Bool.noConfusion

private theorem prefix_separated {α : Type*} {c : α} {x x' y y' : List α} (hx : c ∉ x) (hx' : c ∉ x') :
    x ++ c :: y <+: x' ++ c :: y' ↔ x = x' ∧ y <+: y' := by
  induction x generalizing x' with
  | nil =>
    cases x' with
    | nil => simp
    | cons b x' =>
      have hne : c ≠ b := fun heq => hx' (heq ▸ List.mem_cons_self)
      simp [List.cons_prefix_cons, hne]
  | cons a x ih =>
    have hxt : c ∉ x := fun hmem => hx (List.mem_cons_of_mem _ hmem)
    cases x' with
    | nil =>
      have hne : a ≠ c := fun heq => hx (heq ▸ List.mem_cons_self)
      simp [List.cons_prefix_cons, hne]
    | cons b x' =>
      have hxt' : c ∉ x' := fun hmem => hx' (List.mem_cons_of_mem _ hmem)
      rw [List.cons_append, List.cons_append, List.cons_prefix_cons, ih hxt hxt', List.cons.injEq, and_assoc]

theorem strncmpEq_prefix {s p : List Char} (hs : NUL ∉ s) : strncmpEq s.length s p = true ↔ s <+: p := by
  induction s generalizing p with
  | nil => simp [strncmpEq]
  | cons c s ih =>
    have hc : c ≠ NUL := fun heq => hs (heq ▸ List.mem_cons_self)
    have hrest : NUL ∉ s := fun hmem => hs (List.mem_cons_of_mem _ hmem)
    rw [List.length_cons, strncmpEq]
    cases p with
    | nil => simp [hc]
    | cons b p =>
      rw [List.cons_prefix_cons, ← ih hrest]
      by_cases heq : c = b
      · simp [heq.symm, hc]
      · simp [heq]

/-- `eX.Y` -/
def Node.name (n : Node) : List Char := 'e' :: (Nat.toDigits 10 n.addr.1 ++ '.' :: Nat.toDigits 10 n.addr.2)

section Names

variable {w : World} {n m : Node}

private theorem name_length (hn : n.addr.1 < 0xffff ∧ n.addr.2 < 0xff) : 4 ≤ n.name.length ∧ n.name.length ≤ 10 := by
  have hmaj : (Nat.toDigits 10 n.addr.1).length ≤ 5 :=
    (Nat.length_toDigits_le_iff (by norm_num) (by norm_num)).mpr (by omega)
  have hmin : (Nat.toDigits 10 n.addr.2).length ≤ 3 :=
    (Nat.length_toDigits_le_iff (by norm_num) (by norm_num)).mpr (by omega)
  have hmaj' : 0 < (Nat.toDigits 10 n.addr.1).length := Nat.length_toDigits_pos
  have hmin' : 0 < (Nat.toDigits 10 n.addr.2).length := Nat.length_toDigits_pos
  rw [Node.name, List.length_cons, List.length_append, List.length_cons]
  omega

private theorem notMem_name {c : Char} (hc : c.isDigit = false) (he : c ≠ 'e') (hdot : c ≠ '.') (n : Node) :
    c ∉ n.name := by
  have h₁ := notMem_toDigits hc n.addr.1
  have h₂ := notMem_toDigits hc n.addr.2
  simp [Node.name, h₁, h₂, he, hdot]

private theorem diskName_eq (hn : n.addr.1 < 0xffff ∧ n.addr.2 < 0xff) : n.dev.diskName = "etherd/".toList ++ n.name := by
  have hlen := (name_length hn).2
  have heq : "etherd/e".toList ++ Nat.toDigits 10 n.dev.aoemajor ++ '.' :: Nat.toDigits 10 n.dev.aoeminor =
      "etherd/".toList ++ n.name := by
    rw [List.append_assoc]
    rfl
  rw [Aoedev.diskName, heq, List.take_of_length_le]
  have hpre : "etherd/".toList.length = 7 := by decide
  rw [List.length_append, hpre, DISK_NAME_LEN]
  omega

private theorem baseName_slash (pre : List Char) {s : List Char} (h : '/' ∉ s) : baseName (pre ++ '/' :: s) = s := by
  have hall : ∀ c ∈ s.reverse, decide (c ≠ '/') = true := by
    intro c hc
    rw [List.mem_reverse] at hc
    exact decide_eq_true fun heq => h (heq ▸ hc)
  rw [baseName, List.reverse_append, List.reverse_cons, List.append_assoc, List.takeWhile_append_of_pos hall,
    List.singleton_append, List.takeWhile_cons_of_neg (by simp), List.append_nil, List.reverse_reverse]

theorem baseName_diskName (hn : n.addr.1 < 0xffff ∧ n.addr.2 < 0xff) : baseName n.dev.diskName = n.name := by
  have hslash : '/' ∉ n.name := notMem_name (by decide) (by decide) (by decide) n
  rw [diskName_eq hn]
  exact baseName_slash "etherd".toList hslash

theorem name_prefix : n.name <+: m.name ↔
    n.addr.1 = m.addr.1 ∧ Nat.toDigits 10 n.addr.2 <+: Nat.toDigits 10 m.addr.2 := by
  have hdot (k : ℕ) : '.' ∉ Nat.toDigits 10 k := notMem_toDigits (by decide) k
  rw [Node.name, Node.name, List.cons_prefix_cons, prefix_separated (hdot _) (hdot _)]
  constructor
  · exact fun h => ⟨toDigits_inj h.2.1, h.2.2⟩
  · exact fun h => ⟨rfl, by rw [h.1], h.2⟩

theorem name_inj : n.name = m.name ↔ n.addr = m.addr := by
  constructor
  · intro h
    have hnm : n.name <+: m.name := by rw [h]
    have hmn : m.name <+: n.name := by rw [h]
    obtain ⟨h₁, h₂⟩ := name_prefix.mp hnm
    obtain ⟨-, h₃⟩ := name_prefix.mp hmn
    have heq := List.IsPrefix.eq_of_length_le h₂ h₃.length_le
    exact Prod.ext h₁ (toDigits_inj heq)
  · intro h
    rw [Node.name, Node.name, h]

theorem userReq_name (hn : n.addr.1 < 0xffff ∧ n.addr.2 < 0xff) (hm : m.addr.1 < 0xffff ∧ m.addr.2 < 0xff)
    (hgd : m.dev.gd.isSome = true) : userReq n.name n.name.length m.dev = true ↔ n.name <+: m.name := by
  have hgd' : m.dev.gd.isNone = false := by rw [← Option.not_isSome, hgd, Bool.not_true]
  have hlen : m.dev.diskName.length = 7 + m.name.length := by
    have hpre : "etherd/".toList.length = 7 := by decide
    rw [diskName_eq hm, List.length_append, hpre]
  have hlim : n.name.length < DISK_NAME_LEN - (m.dev.diskName.length - m.name.length) := by
    have := (name_length hn).2
    rw [hlen, DISK_NAME_LEN]
    omega
  have hnul : NUL ∉ n.name := notMem_name (by decide) (by decide) (by decide) n
  rw [userReq, hgd', if_neg Bool.false_ne_true]
  dsimp only
  rw [baseName_diskName hm, if_pos hlim, strncmpEq_prefix hnul]

theorem flushSelects_name (hn : n.addr.1 < 0xffff ∧ n.addr.2 < 0xff) (d : Aoedev) :
    flushSelects false n.name d = userReq n.name n.name.length d := by
  obtain ⟨hlo, hhi⟩ := name_length hn
  have hbuf : flushBuf n.name = n.name := List.take_of_length_le (by omega)
  have hmode : flushMode false n.name = .named := by
    have hall : strncmpEq 3 n.name "all".toList = false := rfl
    rw [flushMode, if_neg Bool.false_ne_true, if_pos (by omega), hbuf, hall]
    rfl
  rw [flushSelects, hmode, hbuf]

end Names

end AoeDriver
