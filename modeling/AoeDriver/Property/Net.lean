import AoeDriver.Model.Net
import AoeDriver.Run.Reach

/-!
# Packets that are too short

Every field that is read lies inside the packet exactly when the packet is long enough for where it goes.
-/

namespace AoeDriver

variable {α β : Type} {p : Packet} {env : RcvEnv}

/-- All fields read lie inside the packet. -/
def Parse.Inside (m : Parse α) (p : Packet) : Prop := ∀ x ∈ m.fields, x.off + x.size ≤ p.len

@[simp] theorem inside_pure (a : α) : (pure a : Parse α).Inside p ↔ True := by
  simp [Parse.Inside, pure]

@[simp] theorem inside_bind (m : Parse α) (g : α → Parse β) : (m >>= g).Inside p ↔ m.Inside p ∧ (g m.val).Inside p := by
  simp only [Parse.Inside, bind, List.mem_append]
  constructor
  · intro h
    exact ⟨fun x hx => h x (.inl hx), fun x hx => h x (.inr hx)⟩
  · rintro ⟨hm, hg⟩ x (hx | hx)
    · exact hm x hx
    · exact hg x hx

@[simp] theorem inside_read (off size : ℕ) : (read p off size).Inside p ↔ off + size ≤ p.len := by
  simp [Parse.Inside, read]

private theorem inside_ite {c : Prop} [Decidable c] (m m' : Parse α) :
    (if c then m else m').Inside p ↔ (c → m.Inside p) ∧ (¬c → m'.Inside p) := by
  by_cases hc : c <;> simp [hc]

@[simp] theorem val_read (off size : ℕ) : (read p off size).val = p.be off size := by
  simp only [read]

theorem val_ite {c : Prop} [Decidable c] (m m' : Parse α) : (if c then m else m').val = if c then m.val else m'.val :=
  apply_ite Parse.val c m m'

@[simp] theorem val_pure (a : α) : (pure a : Parse α).val = a := rfl

@[simp] theorem val_bind (m : Parse α) (g : α → Parse β) : (m >>= g).val = (g m.val).val := rfl

/-- The packet is looked at. -/
def Packet.Heard (p : Packet) (env : RcvEnv) : Prop :=
  env.ours = true ∧ ¬(36 ≤ p.len ∧ env.headlen < 36 ∧ env.pull = false)

/-- A response without error, with a tag of the kernel. -/
def Packet.Response (p : Packet) : Prop :=
  (p.be 14 1).testBit 3 = true ∧ (p.be 20 4).testBit 31 = false ∧ (p.be 14 1).testBit 2 = false

/-- The frame that an ATA response completes. -/
def Packet.frame (p : Packet) (env : RcvEnv) : Option Frame :=
  (env.find (p.be 16 2) (p.be 18 1)).bind fun d =>
    ((getframe d (p.be 20 4)).map Prod.fst).or ((getframeDeferred d (p.be 20 4)).map Prod.fst)

/-- The device that a config response is for, unless its address is invalid. -/
def Packet.device (p : Packet) (env : RcvEnv) : Option Aoedev := env.create (p.be 16 2) (p.be 18 1)

def Packet.addressed (p : Packet) : Prop := ¬(p.be 16 2 = 0xfff ∨ p.be 16 2 = 0xffff ∨ p.be 18 1 = 0xff)

/-- The target that a config response comes from is known or can be added. -/
def Packet.targeted (p : Packet) (env : RcvEnv) (d : Aoedev) : Bool :=
  (cfgTgt d ⟨.ofNat 48 (p.be 6 6), env.dev, env.mtu, p.be 24 2, 0, 0⟩).2.isSome

private theorem cfgRspParse_inside : (cfgRspParse p env).Inside p ↔ 19 ≤ p.len ∧ (p.addressed →
    26 ≤ p.len ∧ ∀ d, p.device env = some d → p.targeted env d = true → 29 ≤ p.len) := by
  unfold cfgRspParse Packet.addressed Packet.device Packet.targeted
  simp only [inside_bind, inside_read, val_read]
  by_cases h : p.be 16 2 = 0xfff ∨ p.be 16 2 = 0xffff ∨ p.be 18 1 = 0xff
  · simp only [h, if_true, inside_pure, not_true_eq_false, false_implies, and_true]
    omega
  · simp only [h, if_false, inside_bind, inside_read, val_read, not_false_eq_true, true_implies]
    cases env.create (p.be 16 2) (p.be 18 1) with
    | none =>
      simp only [inside_pure, reduceCtorEq, false_implies, implies_true, and_true]
      omega
    | some d =>
      simp only [inside_bind, inside_read, val_read, Option.some.injEq, forall_eq']
      cases (cfgTgt d ⟨.ofNat 48 (p.be 6 6), env.dev, env.mtu, p.be 24 2, 0, 0⟩).2 with
      | none =>
        simp only [Option.isSome_none, Bool.false_eq_true, false_implies, inside_pure, and_true]
        omega
      | some t =>
        simp only [Option.isSome_some, true_implies, inside_bind, inside_read]
        by_cases hopen : d.nopen = 0
        · simp only [if_pos hopen, inside_bind, inside_read, inside_pure, and_true]
          omega
        · simp only [if_neg hopen, inside_pure, and_true]
          omega

private theorem ataRspParse_inside (h : 24 ≤ p.len) : (ataRspParse p env).Inside p := by
  unfold ataRspParse
  simp only [inside_bind, inside_read, val_read]
  refine ⟨by omega, by omega, ?_⟩
  split
  · simp
  · simp only [inside_bind, inside_read, val_read]
    refine ⟨by omega, ?_⟩
    split
    · simp
    · simp
    · simp only [inside_bind, inside_read, inside_pure, and_true]
      omega

private theorem ataRspParse_val : (ataRspParse p env).val = p.frame env := by
  unfold ataRspParse Packet.frame
  simp only [val_bind, val_read]
  cases env.find (p.be 16 2) (p.be 18 1) with
  | none => rfl
  | some d =>
    simp only [val_bind, val_read, Option.bind_some]
    cases getframe d (p.be 20 4) with
    | some g => rfl
    | none =>
      cases getframeDeferred d (p.be 20 4) with
      | some g => rfl
      | none => rfl

private theorem ktiocompleteParse_inside {f : Frame} (h : 24 ≤ p.len) :
    (ktiocompleteParse p f).Inside p ↔ f.probe = true ∨ 28 ≤ p.len := by
  have hin : skbPull (0, p.len) 24 = (24, p.len - 24) := by
    simp [skbPull, not_lt.mpr h]
  unfold ktiocompleteParse
  simp only [hin]
  split
  · simp [*]
  · rename_i hp
    simp only [hp, Bool.false_eq_true, false_or, inside_bind, inside_read, val_read]
    have hrest : 28 ≤ p.len → ∀ n, n ≤ (skbPull (24, p.len - 24) 12).2 →
        (skbPull (24, p.len - 24) 12).1 + n ≤ p.len := by
      intro _ n hn
      unfold skbPull at hn ⊢
      split at hn <;> rename_i hlt <;> simp only [hlt, if_true, if_false] at hn ⊢ <;> omega
    generalize skbPull (24, p.len - 24) 12 = skb at hrest
    simp only [inside_ite, inside_bind, inside_read, inside_pure, implies_true, true_and, and_true]
    refine ⟨fun hi => hi.1, fun hlen => ⟨hlen, fun _ => ⟨fun _ hn => ?_, fun _ _ => ⟨fun _ hn => ?_, fun _ => ?_⟩⟩⟩⟩
    · exact hrest hlen _ (by omega)
    · exact hrest hlen _ (by omega)
    · omega

/-- Every field read of a packet lies inside it, and `ahin` is the header behind the AoE header. -/
structure ParsedInside (p : Packet) (env : RcvEnv) : Prop where
  rcv : (aoenetRcv p env).Inside p
  ktio : ∀ f, (aoenetRcv p env).val = .ata (some f) → (ktiocompleteParse p f).Inside p
  ahin : ∀ f a, (aoenetRcv p env).val = .ata (some f) → (ktiocompleteParse p f).val = some a →
    a = 24 ∧ a + 12 ≤ p.len

/-- The packet is not looked at, or it has an AoE header and, as its command needs it, the fields of the config header
or the ATA header. -/
def LongEnough (p : Packet) (env : RcvEnv) : Prop :=
  p.Heard env → 24 ≤ p.len ∧ (p.Response →
    (p.be 19 1 = AOECMD_CFG → p.addressed →
      26 ≤ p.len ∧ ∀ d, p.device env = some d → p.targeted env d = true → 29 ≤ p.len) ∧
    (p.be 19 1 = AOECMD_ATA → ∀ f, p.frame env = some f → f.probe = false → 36 ≤ p.len))

private theorem heard_iff : p.Heard env ↔
    ¬env.ours = false ∧ ¬(36 ≤ p.len ∧ env.headlen < 36 ∧ env.pull = false) := by
  rw [Packet.Heard, Bool.not_eq_false]

private theorem response_iff : p.Response ↔
    ¬((p.be 14 1).testBit 3 = false ∨ (p.be 20 4).testBit 31 = true) ∧ ¬(p.be 14 1).testBit 2 = true := by
  simp [Packet.Response, and_assoc]

private theorem aoenetRcv_inside : (aoenetRcv p env).Inside p ↔ (p.Heard env → 24 ≤ p.len ∧ (p.Response →
    p.be 19 1 = AOECMD_CFG → p.addressed →
      26 ≤ p.len ∧ ∀ d, p.device env = some d → p.targeted env d = true → 29 ≤ p.len)) := by
  unfold aoenetRcv
  simp only [inside_ite, inside_bind, inside_read, inside_pure, val_read, implies_true, true_and, and_true,
    cfgRspParse_inside, heard_iff, response_iff]
  constructor
  · rintro h ⟨ho, hp⟩
    obtain ⟨htag, -, hrsp⟩ := h ho hp
    refine ⟨htag, fun hr hcmd haddr => ?_⟩
    have hne : ¬p.be 19 1 = AOECMD_ATA := by
      rw [hcmd]
      decide
    exact (((hrsp hr.1).2 hr.2).2.2 hne hcmd).2 haddr
  · intro h ho hp
    obtain ⟨htag, hcfg⟩ := h ⟨ho, hp⟩
    refine ⟨htag, by omega, fun hr => ⟨fun _ => ⟨by omega, fun _ => by omega⟩, fun he => ?_⟩⟩
    refine ⟨by omega, fun _ => ataRspParse_inside htag, fun _ hcmd => ⟨by omega, hcfg ⟨hr, he⟩ hcmd⟩⟩

private theorem aoenetRcv_ata {f : Frame} : (aoenetRcv p env).val = .ata (some f) ↔
    p.Heard env ∧ p.Response ∧ p.be 19 1 = AOECMD_ATA ∧ p.frame env = some f := by
  rw [heard_iff, response_iff, ← ataRspParse_val]
  unfold aoenetRcv
  simp only [val_ite, val_bind, val_read, val_pure]
  by_cases ho : env.ours = false
  · simp [ho]
  · by_cases hp : 36 ≤ p.len ∧ env.headlen < 36 ∧ env.pull = false
    · simp [hp]
    · by_cases hr : (p.be 14 1).testBit 3 = false ∨ (p.be 20 4).testBit 31 = true
      · simp [ho, hp, hr]
      · by_cases he : (p.be 14 1).testBit 2 = true
        · simp [ho, hp, hr, he]
        · by_cases ha : p.be 19 1 = AOECMD_ATA
          · simp [ho, hp, hr, he, ha]
          · have hne : (if p.be 19 1 = AOECMD_CFG then Rcv.cfg else Rcv.ignored) ≠ .ata (some f) := by
              split <;> simp
            simp [ho, hp, hr, he, ha, hne]

/-- A packet is read inside its bounds exactly when it is long enough. -/
theorem parsed_inside_iff (p : Packet) (env : RcvEnv) : ParsedInside p env ↔ LongEnough p env := by
  have hval {f : Frame} (hlen : 24 ≤ p.len) (hf : f.probe = false) : (ktiocompleteParse p f).val = some 24 := by
    have hin : skbPull (0, p.len) 24 = (24, p.len - 24) := by simp [skbPull, not_lt.mpr hlen]
    unfold ktiocompleteParse
    simp only [hin, hf]
    simp only [Bool.false_eq_true, if_false, val_bind]
    repeat' split
    all_goals rfl
  constructor
  · rintro ⟨hrcv, -, hahin⟩ hheard
    obtain ⟨hlen, hcfg⟩ := aoenetRcv_inside.mp hrcv hheard
    refine ⟨hlen, fun hr => ⟨hcfg hr, fun ha f hf hprobe => ?_⟩⟩
    exact (hahin f 24 (aoenetRcv_ata.mpr ⟨hheard, hr, ha, hf⟩) (hval hlen hprobe)).2
  · intro h
    have hata {f : Frame} (hv : (aoenetRcv p env).val = .ata (some f)) :
        24 ≤ p.len ∧ (f.probe = false → 36 ≤ p.len) := by
      obtain ⟨hheard, hr, ha, hf⟩ := aoenetRcv_ata.mp hv
      obtain ⟨hlen, hrest⟩ := h hheard
      exact ⟨hlen, (hrest hr).2 ha f hf⟩
    refine ⟨aoenetRcv_inside.mpr fun hheard => ?_, fun f hv => ?_, fun f a hv ha => ?_⟩
    · obtain ⟨hlen, hrest⟩ := h hheard
      exact ⟨hlen, fun hr => (hrest hr).1⟩
    · obtain ⟨hlen, hlong⟩ := hata hv
      rw [ktiocompleteParse_inside hlen]
      cases hp : f.probe with
      | true => exact .inl rfl
      | false =>
        have := hlong hp
        exact .inr (by omega)
    · obtain ⟨hlen, hlong⟩ := hata hv
      cases hp : f.probe with
      | true => simp [ktiocompleteParse, hp] at ha
      | false =>
        rw [hval hlen hp] at ha
        obtain rfl := Option.some.inj ha
        exact ⟨rfl, hlong hp⟩

/-- A config response that ends with the AoE header. -/
def shortCfg : Packet := ⟨24, fun i => if i = 14 then 0x18 else if i = 19 then 1 else 0⟩

/-- A host that has no memory for a new device. -/
def emptyHost : RcvEnv := ⟨true, 24, true, true, fun _ _ => none, fun _ _ => none, ⟨0, 0⟩, 1500⟩

/-- The number of buffers is read behind its end. -/
theorem parsed_outside : ¬ParsedInside shortCfg emptyHost := by
  intro h
  have hmem : (⟨24, 2⟩ : Field) ∈ (aoenetRcv shortCfg emptyHost).fields := by decide
  exact absurd (h.rcv _ hmem) (by decide)

end AoeDriver
