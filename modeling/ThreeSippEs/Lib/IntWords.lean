import Mathlib.Data.Int.Bitwise
import Mathlib.Tactic

/-!
# Unbounded integers and words

Integers are bit strings in two's complement, with infinitely many sign bits, and a word
keeps the lowest ones. Masks and shifts of integers are those of words.

- `ofInt_land`, `ofInt_lor`, `ofInt_xor`: bit by bit;
- `land_low`, `land_bit`: a mask of the lowest bits, and of one;
- `land_sub_land`: the sign extension written with two masks.
-/

namespace ThreeSippEs.IntWords

/-! ## Bits -/

theorem getLsbD_ofInt (w : Nat) (v : Int) (i : Nat) :
    (BitVec.ofInt w v).getLsbD i = (decide (i < w) && v.testBit i) := by
  cases v with
  | ofNat n =>
    show (BitVec.ofInt w (n : Int)).getLsbD i = _
    rw [BitVec.ofInt_natCast, BitVec.getLsbD_ofNat]
    rfl
  | negSucc n =>
    rw [BitVec.ofInt_negSucc_eq_not_ofNat, BitVec.getLsbD_not, BitVec.getLsbD_ofNat]
    cases hi : decide (i < w) with
    | true => rfl
    | false => rfl

theorem ofInt_land (w : Nat) (u v : Int) :
    BitVec.ofInt w (Int.land u v) = BitVec.ofInt w u &&& BitVec.ofInt w v := by
  refine BitVec.eq_of_getLsbD_eq fun i _ => ?_
  rw [BitVec.getLsbD_and, getLsbD_ofInt, getLsbD_ofInt, getLsbD_ofInt, Int.testBit_land]
  cases decide (i < w) with
  | true => rfl
  | false => rfl

theorem ofInt_lor (w : Nat) (u v : Int) :
    BitVec.ofInt w (Int.lor u v) = BitVec.ofInt w u ||| BitVec.ofInt w v := by
  refine BitVec.eq_of_getLsbD_eq fun i _ => ?_
  rw [BitVec.getLsbD_or, getLsbD_ofInt, getLsbD_ofInt, getLsbD_ofInt, Int.testBit_lor]
  exact Bool.and_or_distrib_left ..

theorem ofInt_xor (w : Nat) (u v : Int) :
    BitVec.ofInt w (Int.xor u v) = BitVec.ofInt w u ^^^ BitVec.ofInt w v := by
  refine BitVec.eq_of_getLsbD_eq fun i _ => ?_
  rw [BitVec.getLsbD_xor, getLsbD_ofInt, getLsbD_ofInt, getLsbD_ofInt, Int.testBit_lxor]
  exact Bool.and_xor_distrib_left ..

/-! ## Masks -/

/-- The lowest bits. -/
theorem land_low (v : Int) (n : Nat) : Int.land v (2 ^ n - 1) = (BitVec.ofInt n v).toNat := by
  have hmask : (2 ^ n - 1 : Int) = ((2 ^ n - 1 : Nat) : Int) := by
    rw [Nat.cast_sub Nat.one_le_two_pow]
    push_cast
    rfl
  rw [hmask]
  cases v with
  | ofNat m =>
    show ((m &&& (2 ^ n - 1) : Nat) : Int) = (BitVec.ofInt n (m : Int)).toNat
    rw [BitVec.ofInt_natCast, BitVec.toNat_ofNat, Nat.and_two_pow_sub_one_eq_mod]
  | negSucc m =>
    show ((Nat.ldiff (2 ^ n - 1) m : Nat) : Int) = _
    rw [BitVec.ofInt_negSucc_eq_not_ofNat]
    refine congrArg Nat.cast (Nat.eq_of_testBit_eq fun i => ?_)
    rw [Nat.testBit_ldiff, Nat.testBit_two_pow_sub_one, BitVec.testBit_toNat, BitVec.getLsbD_not,
      BitVec.getLsbD_ofNat]
    cases hi : decide (i < n) with
    | true => rfl
    | false => rfl

/-- One bit. -/
theorem land_bit (v : Int) (n : Nat) : Int.land v (2 ^ n) = if v.testBit n then 2 ^ n else 0 := by
  have hmask : (2 ^ n : Int) = ((2 ^ n : Nat) : Int) := by
    push_cast
    rfl
  rw [hmask]
  cases v with
  | ofNat m =>
    show ((m &&& 2 ^ n : Nat) : Int) = if m.testBit n then ((2 ^ n : Nat) : Int) else 0
    rw [Nat.and_two_pow]
    cases m.testBit n with
    | true => rw [Bool.toNat_true, one_mul]; rfl
    | false => rw [Bool.toNat_false, zero_mul]; rfl
  | negSucc m =>
    show ((Nat.ldiff (2 ^ n) m : Nat) : Int) = if (!m.testBit n) then ((2 ^ n : Nat) : Int) else 0
    have hdiff : Nat.ldiff (2 ^ n) m = if (!m.testBit n) then 2 ^ n else 0 := by
      refine Nat.eq_of_testBit_eq fun i => ?_
      rw [Nat.testBit_ldiff, Nat.testBit_two_pow]
      by_cases hi : n = i
      · subst hi
        cases m.testBit n with
        | true => simp
        | false => simp [Nat.testBit_two_pow_self]
      · rw [decide_eq_false hi, Bool.false_and]
        split
        · rw [Nat.testBit_two_pow, decide_eq_false hi]
        · exact (Nat.zero_testBit i).symm
    rw [hdiff]
    split
    · rfl
    · rfl

/-- **Sign extension.** The bits below the sign, less the sign. -/
theorem land_sub_land (v : Int) (n : Nat) :
    Int.land v (2 ^ n - 1) - Int.land v (2 ^ n) = (BitVec.ofInt (n + 1) v).toInt := by
  have hlow : (BitVec.ofInt n v).toNat = (BitVec.ofInt (n + 1) v).toNat % 2 ^ n := by
    refine Nat.eq_of_testBit_eq fun i => ?_
    rw [BitVec.testBit_toNat, Nat.testBit_mod_two_pow, BitVec.testBit_toNat, getLsbD_ofInt,
      getLsbD_ofInt]
    by_cases hi : i < n
    · rw [decide_eq_true hi, decide_eq_true (Nat.lt_succ_of_lt hi), Bool.true_and,
        Bool.true_and]
    · rw [decide_eq_false hi, Bool.false_and, Bool.false_and]
  have hsign : (BitVec.ofInt (n + 1) v).msb = v.testBit n := by
    rw [BitVec.msb_eq_getLsbD_last, getLsbD_ofInt]
    simp
  have htop : v.testBit n = decide (2 ^ n ≤ (BitVec.ofInt (n + 1) v).toNat) := by
    rw [← hsign, BitVec.msb_eq_decide]
    rfl
  have hlt := (BitVec.ofInt (n + 1) v).isLt
  have hpow : 2 ^ (n + 1) = 2 * 2 ^ n := Nat.pow_succ'
  rw [land_low, land_bit, BitVec.toInt_eq_msb_cond, hsign, hlow]
  by_cases hbit : 2 ^ n ≤ (BitVec.ofInt (n + 1) v).toNat
  · have hmod : (BitVec.ofInt (n + 1) v).toNat % 2 ^ n = (BitVec.ofInt (n + 1) v).toNat - 2 ^ n := by
      rw [Nat.mod_eq_sub_mod hbit, Nat.mod_eq_of_lt (by omega)]
    rw [htop, decide_eq_true hbit, if_pos rfl, if_pos rfl, hmod, Nat.cast_sub hbit]
    push_cast [hpow]
    ring
  · rw [htop, decide_eq_false hbit, if_neg Bool.false_ne_true, if_neg Bool.false_ne_true,
      Nat.mod_eq_of_lt (by omega), sub_zero]

end ThreeSippEs.IntWords
