import Mathlib.Tactic

/-!
# Naturally aligned blocks encoded by trailing ones

An address with `k` trailing ones stands for the naturally aligned block of
`2 ^ (k + 1)` units that contains it (the NAPOT encoding). Hardware compares
under the mask `x ^ (x + 1)`, whose low `k + 1` bits are set. This file relates
the two views, for words of any width, the all-ones word (whose successor wraps
to zero) included.

- `and_not_mask_eq_iff`: the masked comparison is membership in the block;
- `wordOf`: the 4-byte word of a byte address, and counting bytes from its start.
-/

namespace ThreeSippEs.AlignedBlock

/-- The number of trailing one bits. -/
def trailingOnes (x : Nat) : Nat :=
  if x % 2 = 1 then trailingOnes (x / 2) + 1 else 0
termination_by x
decreasing_by omega

/-- The bits below the count are ones, and the next one is a zero. -/
theorem trailingOnes_spec (x : Nat) :
    (∀ j < trailingOnes x, x.testBit j = true) ∧ x.testBit (trailingOnes x) = false := by
  induction x using Nat.strong_induction_on with
  | _ x ih =>
    unfold trailingOnes
    split
    case isTrue hodd =>
      obtain ⟨hlow, hnext⟩ := ih (x / 2) (by omega)
      refine ⟨?_, by rw [Nat.testBit_succ]; exact hnext⟩
      intro j hj
      cases j with
      | zero => simpa [Nat.testBit_zero] using hodd
      | succ j =>
        rw [Nat.testBit_succ]
        exact hlow j (Nat.lt_of_succ_lt_succ hj)
    case isFalse heven =>
      refine ⟨fun j hj => absurd hj (Nat.not_lt_zero j), ?_⟩
      simpa [Nat.testBit_zero] using heven

/-- A bit lies above the trailing ones iff some bit below it is zero. -/
theorem trailingOnes_lt_iff (x i : Nat) :
    trailingOnes x < i ↔ ∃ j < i, x.testBit j = false := by
  obtain ⟨hlow, hnext⟩ := trailingOnes_spec x
  constructor
  · intro h
    exact ⟨_, h, hnext⟩
  · rintro ⟨j, hj, hzero⟩
    by_contra hle
    rw [hlow j (by omega)] at hzero
    cases hzero

variable {w : Nat}

/-- Bit `i` of `x ^ (x + 1)` is set iff every bit of `x` below it is. -/
theorem getLsbD_xor_add_one (x : BitVec w) {i : Nat} (hi : i < w) :
    (x ^^^ (x + 1#w)).getLsbD i = decide (∀ j < i, x.getLsbD j = true) := by
  have hcarry : BitVec.carry i x (1#w) false =
      (decide (0 < i) && decide (∀ j < i, x.getLsbD j = true)) := by
    cases i with
    | zero => simp
    | succ i =>
      rw [BitVec.carry_succ_one i x (by omega)]
      simp
  rw [BitVec.getLsbD_xor, BitVec.getLsbD_add hi, hcarry, BitVec.getLsbD_one]
  cases i with
  | zero => simp [hi]
  | succ i => simp

/-- Two words agree outside the mask `x ^ (x + 1)` iff they lie in the same
block of `2 ^ (trailingOnes x + 1)` units. -/
theorem and_not_mask_eq_iff (a x : BitVec w) :
    a &&& ~~~(x ^^^ (x + 1#w)) = x &&& ~~~(x ^^^ (x + 1#w)) ↔
      a.toNat / 2 ^ (trailingOnes x.toNat + 1) = x.toNat / 2 ^ (trailingOnes x.toNat + 1) := by
  -- both sides say that `a` and `x` have the same bits above the trailing ones
  have habove : ∀ i, trailingOnes x.toNat + 1 ≤ i ↔ ¬ ∀ j < i, x.getLsbD j = true := by
    intro i
    rw [Nat.succ_le_iff, trailingOnes_lt_iff]
    simp [BitVec.getLsbD]
  have hbits : a &&& ~~~(x ^^^ (x + 1#w)) = x &&& ~~~(x ^^^ (x + 1#w)) ↔
      ∀ i, trailingOnes x.toNat + 1 ≤ i → a.getLsbD i = x.getLsbD i := by
    constructor
    · intro h i hi
      by_cases hiw : i < w
      · have hbit := congrArg (fun v => BitVec.getLsbD v i) h
        simp only [BitVec.getLsbD_and, BitVec.getLsbD_not, hiw, decide_true,
          getLsbD_xor_add_one x hiw, (habove i).mp hi, decide_false, Bool.not_false,
          Bool.and_true] at hbit
        exact hbit
      · rw [BitVec.getLsbD_of_ge _ _ (by omega), BitVec.getLsbD_of_ge _ _ (by omega)]
    · intro h
      apply BitVec.eq_of_getLsbD_eq
      intro i hi
      simp only [BitVec.getLsbD_and, BitVec.getLsbD_not, hi, decide_true, Bool.true_and,
        getLsbD_xor_add_one x hi]
      by_cases hall : ∀ j < i, x.getLsbD j = true
      · rw [decide_eq_true hall, Bool.not_true, Bool.and_false, Bool.and_false]
      · rw [h i ((habove i).mpr hall)]
  rw [hbits]
  constructor
  · intro h
    apply Nat.eq_of_testBit_eq
    intro i
    rw [Nat.testBit_div_two_pow, Nat.testBit_div_two_pow]
    exact h _ (Nat.le_add_left _ _)
  · intro h i hi
    obtain ⟨j, rfl⟩ := Nat.exists_eq_add_of_le' hi
    have hbit := congrArg (fun v => Nat.testBit v j) h
    simp only [Nat.testBit_div_two_pow] at hbit
    exact hbit

/-! ## Words -/

/-- The word that byte `a` is in. -/
def wordOf (a : BitVec 32) : BitVec 32 := a.extractLsb 31 2 ++ 0b00#2

theorem wordOf_toNat (a : BitVec 32) : (wordOf a).toNat = a.toNat / 4 * 4 := by
  have hlt := a.isLt
  unfold wordOf
  rw [BitVec.toNat_append, BitVec.extractLsb, BitVec.extractLsb'_toNat,
    Nat.shiftRight_eq_div_pow, Nat.shiftLeft_eq]
  simp
  omega

theorem wordOf_add_lo (a : BitVec 32) : wordOf a + (a.extractLsb 1 0).setWidth 32 = a := by
  have hlt := a.isLt
  apply BitVec.eq_of_toNat_eq
  rw [BitVec.toNat_add, wordOf_toNat, BitVec.toNat_setWidth, BitVec.extractLsb,
    BitVec.extractLsb'_toNat, Nat.shiftRight_zero]
  omega

/-- The four lanes of a word are bytes of that word. -/
theorem lane_div (w : BitVec 32) (hw : w.toNat % 4 = 0) {k : Nat} (hk : k < 4) :
    (w + BitVec.ofNat 32 k).toNat / 4 = w.toNat / 4 := by
  have hlt := w.isLt
  rw [BitVec.toNat_add, BitVec.toNat_ofNat]
  omega

/-- Two bytes are in one word when they agree up to the last two bits. -/
theorem wordOf_eq_iff (a b : BitVec 32) : wordOf a = wordOf b ↔ a.toNat / 4 = b.toNat / 4 := by
  rw [← BitVec.toNat_inj, wordOf_toNat, wordOf_toNat]
  omega

theorem wordOf_mod (a : BitVec 32) : (wordOf a).toNat % 4 = 0 := by
  rw [wordOf_toNat]
  omega

theorem next_wordOf_mod (a : BitVec 32) : (wordOf a + 4#32).toNat % 4 = 0 := by
  have h := wordOf_toNat a
  have hlt := a.isLt
  rw [BitVec.toNat_add, h]
  have h4 : (4#32).toNat = 4 := rfl
  omega

/-- Counting from the start of the word instead of from the byte. -/
theorem wordOf_add (a : BitVec 32) {t : Nat} (ht : (a.extractLsb 1 0).toNat ≤ t) :
    wordOf a + BitVec.ofNat 32 t = a + BitVec.ofNat 32 (t - (a.extractLsb 1 0).toNat) := by
  have hlo := wordOf_add_lo a
  have hlt := (a.extractLsb 1 0).isLt
  generalize a.extractLsb 1 0 = lo at hlo ht hlt ⊢
  conv => rhs; rw [← hlo, BitVec.add_assoc]
  congr 1
  apply BitVec.eq_of_toNat_eq
  simp only [BitVec.toNat_add, BitVec.toNat_ofNat, BitVec.toNat_setWidth]
  omega

end ThreeSippEs.AlignedBlock
