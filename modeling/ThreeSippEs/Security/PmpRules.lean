import ThreeSippEs.Common.Pmp
import ThreeSippEs.Lib.AlignedBlock

/-!
# The PMP/Smepmp decision and the checker

`Permits` is the protection rule in its own terms: byte ranges in exact integer
arithmetic, the lowest-numbered rule that covers the byte, and the legacy or
Smepmp permissions of that rule. `fault_eq_false_iff` says that the checker cell
computes it, for any number of regions.

- `Covers`: the byte range of a rule (TOR, NA4, NAPOT);
- `rights`: the Smepmp permissions by kind of region, the source has them as a
  sixteen-row table (`mmlPerm_eq_rights`);
- `permits_word`: the decision is the same for the four bytes of a word.
-/

namespace ThreeSippEs.PmpRules

open Pmp AlignedBlock

/-! ## What a rule covers -/

/-- Byte address `a` lies in the range of a rule with configuration `c`, address
register `pa` and preceding address register `prev`. -/
def Covers (c : BitVec 8) (pa prev : Nat) (a : Nat) : Prop :=
  if cfgA c = 0#2 then False
  else if cfgA c = 1#2 then 4 * prev ≤ a ∧ a < 4 * pa
  else if cfgA c = 2#2 then 4 * pa ≤ a ∧ a < 4 * pa + 4
  else
    let size := 2 ^ (trailingOnes pa + 1)
    4 * (pa / size * size) ≤ a ∧ a < 4 * (pa / size * size + size)

instance (c : BitVec 8) (pa prev a : Nat) : Decidable (Covers c pa prev a) := by
  unfold Covers
  infer_instance

theorem aw_toNat (addr : Word) : (aw addr).toNat = addr.toNat / 4 := by
  have hlt := addr.isLt
  simp only [aw, BitVec.extractLsb, BitVec.toNat_setWidth, BitVec.extractLsb'_toNat,
    Nat.shiftRight_eq_div_pow]
  omega

/-- The comparisons of the checker decide membership in the byte range. -/
theorem regionMatch_iff (c : BitVec 8) (pa prev addr : Word) :
    regionMatch c pa prev (aw addr) = true ↔ Covers c pa.toNat prev.toNat addr.toNat := by
  unfold regionMatch Covers
  split_ifs with hoff htor hna4
  · simp
  · simp only [Bool.and_eq_true, BitVec.ule_eq_decide, BitVec.ult_eq_decide, aw_toNat,
      decide_eq_true_eq]
    omega
  · simp only [beq_iff_eq, ← BitVec.toNat_inj, aw_toNat]
    omega
  · have hpos : 0 < 2 ^ (trailingOnes pa.toNat + 1) := Nat.two_pow_pos _
    rw [beq_iff_eq, napotMask, and_not_mask_eq_iff, aw_toNat, Nat.div_eq_iff hpos]
    dsimp only
    generalize pa.toNat / 2 ^ (trailingOnes pa.toNat + 1) *
      2 ^ (trailingOnes pa.toNat + 1) = base
    generalize 2 ^ (trailingOnes pa.toNat + 1) = size at hpos ⊢
    omega

/-! ## What a rule allows -/

/-- Read, write and execute rights. -/
structure Rights where
  r : Bool
  w : Bool
  x : Bool
  deriving DecidableEq

/-- Smepmp rights under MML by kind of region: `R=0, W=1` encodes a shared
region (data when `L=0`, code when `L=1`), `LRWX=1111` a shared read-only one;
any other rule is for M-mode when locked and for U-mode otherwise. -/
def rights (l r w x : Bool) (privM : Bool) : Rights :=
  if !r && w then
    if l then { r := privM && x, w := false, x := true }
    else { r := true, w := privM || x, x := false }
  else if l && r && w && x then { r := true, w := false, x := false }
  else if l == privM then { r := r, w := w, x := x }
  else { r := false, w := false, x := false }

/-- The table of the source, row by row. -/
theorem mmlPerm_eq_rights (l r w x privM : Bool) :
    let mp := mmlPerm (BitVec.ofBool l ++ BitVec.ofBool r ++ BitVec.ofBool w ++ BitVec.ofBool x)
    let rwx : BitVec 3 := if privM then mp.extractLsb 5 3 else mp.extractLsb 2 0
    rights l r w x privM = { r := rwx.getLsbD 2, w := rwx.getLsbD 1, x := rwx.getLsbD 0 } := by
  revert l r w x privM
  decide

/-- The rights a rule gives to an access. Without MML, M-mode passes every rule
that is not locked. -/
def ruleRights (c : BitVec 8) (privM mml : Bool) : Rights :=
  if mml then rights (cfgL c) (cfgR c) (cfgW c) (cfgX c) privM
  else if privM && !cfgL c then { r := true, w := true, x := true }
  else { r := cfgR c, w := cfgW c, x := cfgX c }

/-- Every requested access type is among the rights. -/
def Rights.allow (p : Rights) (acc : Pmp.Access) : Prop :=
  (acc.doR = true → p.r = true) ∧ (acc.doW = true → p.w = true) ∧ (acc.doX = true → p.x = true)

theorem regionAllow_iff (c : BitVec 8) (acc : Pmp.Access) (mode : Mode) :
    regionAllow c acc mode = true ↔ (ruleRights c acc.privM mode.mml).allow acc := by
  unfold regionAllow ruleRights Rights.allow
  rw [mmlPerm_eq_rights]
  dsimp only
  cases mode.mml <;> cases acc.privM <;> cases cfgL c <;>
    simp [Bool.or_eq_true, or_iff_not_imp_left, and_assoc] <;> tauto

/-! ## The decision -/

variable {n : Nat}

/-- The decision for one byte: the lowest-numbered rule covering it decides; a
byte that no rule covers is for M-mode only, unless MMWP, or MML on execute. -/
def Permits (cfg : Fin n → BitVec 8) (addrreg : Fin n → Word) (acc : Pmp.Access) (mode : Mode)
    (a : Word) : Prop :=
  let covers i := Covers (cfg i) (addrreg i).toNat (paPrev addrreg i).toNat a.toNat
  (∃ i, covers i ∧ (∀ j < i, ¬ covers j) ∧
    (ruleRights (cfg i) acc.privM mode.mml).allow acc) ∨
  ((∀ i, ¬ covers i) ∧ acc.privM = true ∧ mode.mmwp = false ∧
    ¬ (mode.mml = true ∧ acc.doX = true))

/-! ## The reverse scan -/

theorem scan_succ (hit allow : Fin (n + 1) → Bool) :
    scan hit allow =
      if hit 0 then (true, allow 0) else scan (fun i => hit i.succ) (fun i => allow i.succ) := by
  unfold scan
  rw [List.finRange_succ, List.foldr_cons, List.foldr_map]

/-- No region matches. -/
theorem scan_none {hit allow : Fin n → Bool} (h : ∀ i, hit i = false) :
    scan hit allow = (false, false) := by
  induction n with
  | zero => rfl
  | succ n ih =>
    rw [scan_succ, h 0, if_neg Bool.false_ne_true]
    exact ih fun i => h i.succ

/-- The lowest match wins. -/
theorem scan_lowest {hit allow : Fin n → Bool} {i : Fin n} (hi : hit i = true)
    (hlow : ∀ j < i, hit j = false) : scan hit allow = (true, allow i) := by
  induction n with
  | zero => exact i.elim0
  | succ n ih =>
    rw [scan_succ]
    cases i using Fin.cases with
    | zero => rw [hi, if_pos rfl]
    | succ i =>
      rw [hlow 0 (Fin.succ_pos i), if_neg Bool.false_ne_true]
      exact ih hi fun j hj => hlow j.succ (Fin.succ_lt_succ_iff.mpr hj)

/-- Among finitely many regions, either none matches or one is lowest. -/
theorem none_or_lowest (p : Fin n → Prop) : (∀ i, ¬ p i) ∨ ∃ i, p i ∧ ∀ j < i, ¬ p j := by
  by_cases h : ∃ i, p i
  · right
    have hwf : WellFounded (fun i j : Fin n => i < j) := wellFounded_lt
    obtain ⟨i, hi, hmin⟩ := hwf.has_min {i | p i} h
    exact ⟨i, hi, fun j hj hpj => hmin j hpj hj⟩
  · left
    exact not_exists.mp h

/-- Only one is lowest. -/
theorem lowest_unique {p : Fin n → Prop} {i j : Fin n} (hi : p i) (hlowi : ∀ k < i, ¬ p k)
    (hj : p j) (hlowj : ∀ k < j, ¬ p k) : i = j := by
  rcases lt_trichotomy i j with hlt | heq | hgt
  · exact absurd hi (hlowj i hlt)
  · exact heq
  · exact absurd hj (hlowi j hgt)

/-- **The checker computes the decision.** -/
theorem fault_eq_false_iff (cfg : Fin n → BitVec 8) (addrreg : Fin n → Word) (addr : Word)
    (acc : Pmp.Access) (mode : Mode) :
    fault cfg addrreg addr acc mode = false ↔ Permits cfg addrreg acc mode addr := by
  have hmatch := fun i => regionMatch_iff (cfg i) (addrreg i) (paPrev addrreg i) addr
  unfold fault Permits
  dsimp only
  rcases none_or_lowest
    fun i => Covers (cfg i) (addrreg i).toNat (paPrev addrreg i).toNat addr.toNat
    with hno | ⟨i, hc, hlow⟩
  · rw [scan_none fun i => Bool.eq_false_iff.mpr ((hmatch i).not.mpr (hno i))]
    constructor
    · intro h
      refine Or.inr ⟨hno, ?_⟩
      simpa [and_assoc] using h
    · rintro (⟨i, hc, -⟩ | ⟨-, h⟩)
      · exact absurd hc (hno i)
      · simpa [and_assoc] using h
  · rw [scan_lowest ((hmatch i).mpr hc)
      fun j hj => Bool.eq_false_iff.mpr ((hmatch j).not.mpr (hlow j hj))]
    simp only [if_true, Bool.not_eq_false']
    rw [regionAllow_iff]
    constructor
    · intro h
      exact Or.inl ⟨i, hc, hlow, h⟩
    · rintro (⟨j, hcj, hlowj, hallow⟩ | ⟨hno, -⟩)
      · have hji : j = i := lowest_unique hcj hlowj hc hlow
        exact hji ▸ hallow
      · exact absurd hc (hno i)

/-! ## Consequences -/

/-- The decision is per word: it agrees for bytes of one aligned word. -/
theorem permits_word {cfg : Fin n → BitVec 8} {addrreg : Fin n → Word} {acc : Pmp.Access}
    {mode : Mode} {a b : Word} (hw : a.toNat / 4 = b.toNat / 4) :
    Permits cfg addrreg acc mode a ↔ Permits cfg addrreg acc mode b := by
  have haw : aw a = aw b := by
    rw [← BitVec.toNat_inj, aw_toNat, aw_toNat, hw]
  rw [← fault_eq_false_iff, ← fault_eq_false_iff]
  unfold fault
  rw [haw]

/-- Asking for fewer access types is permitted whenever asking for more is. -/
theorem Permits.mono {cfg : Fin n → BitVec 8} {addrreg : Fin n → Word} {acc acc' : Pmp.Access}
    {mode : Mode} {a : Word} (h : Permits cfg addrreg acc mode a)
    (hpriv : acc'.privM = acc.privM) (hr : acc'.doR = true → acc.doR = true)
    (hw : acc'.doW = true → acc.doW = true) (hx : acc'.doX = true → acc.doX = true) :
    Permits cfg addrreg acc' mode a := by
  rcases h with ⟨i, hc, hlow, hrights⟩ | ⟨hno, hpm, hmmwp, hmml⟩
  · refine Or.inl ⟨i, hc, hlow, ?_⟩
    rw [hpriv]
    exact ⟨fun h => hrights.1 (hr h), fun h => hrights.2.1 (hw h), fun h => hrights.2.2 (hx h)⟩
  · refine Or.inr ⟨hno, hpriv.trans hpm, hmmwp, ?_⟩
    rintro ⟨h1, h2⟩
    exact hmml ⟨h1, hx h2⟩

end ThreeSippEs.PmpRules
