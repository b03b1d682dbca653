import Mathlib.Algebra.Polynomial.Coeff
import Mathlib.Data.ZMod.Basic
import Mathlib.Tactic

/-!
# Words as polynomials over GF(2)

The carry-less product of two words by shift and xor is the product of the
polynomials whose coefficients are their bits.

- `BinaryPolynomial.ofBits`: the polynomial of a word;
- `ofBits_xor`, `ofBits_shiftLeft`: xor adds, a shift multiplies by a power of `X`;
- `ofBits_clmul`: the loop.
-/

namespace BinaryPolynomial

open Polynomial

/-- The coefficient of a bit. -/
def bit (b : Bool) : ZMod 2 := if b then 1 else 0

theorem bit_xor (a b : Bool) : bit (a ^^ b) = bit a + bit b := by
  cases a <;> cases b <;> decide

theorem bit_eq_one_iff (b : Bool) : bit b = 1 ↔ b = true := by
  cases b <;> decide

/-- The low `n` bits of a word. -/
noncomputable def lowBits {w : Nat} (v : BitVec w) (n : Nat) : (ZMod 2)[X] :=
  ∑ i ∈ Finset.range n, C (bit (v.getLsbD i)) * X ^ i

/-- The polynomial with the bits of `v` as its coefficients. -/
noncomputable def ofBits {w : Nat} (v : BitVec w) : (ZMod 2)[X] := lowBits v w

@[simp] theorem coeff_ofBits {w : Nat} (v : BitVec w) (k : Nat) :
    (ofBits v).coeff k = bit (v.getLsbD k) := by
  unfold ofBits lowBits
  rw [finsetSum_coeff]
  simp only [coeff_C_mul_X_pow]
  rw [Finset.sum_ite_eq]
  split
  · rfl
  case isFalse h =>
    rw [Finset.mem_range, not_lt] at h
    rw [BitVec.getLsbD_of_ge v k h]
    rfl

/-- A bit of a word is a coefficient of its polynomial. -/
theorem getLsbD_eq_true_iff {w : Nat} (v : BitVec w) (k : Nat) :
    v.getLsbD k = true ↔ (ofBits v).coeff k = 1 := by
  rw [coeff_ofBits, bit_eq_one_iff]

theorem ofBits_zero (w : Nat) : ofBits (0#w) = 0 := by
  ext k
  rw [coeff_ofBits, BitVec.getLsbD_zero, coeff_zero]
  rfl

theorem ofBits_xor {w : Nat} (a b : BitVec w) : ofBits (a ^^^ b) = ofBits a + ofBits b := by
  ext k
  rw [coeff_add, coeff_ofBits, coeff_ofBits, coeff_ofBits, BitVec.getLsbD_xor, bit_xor]

/-- A shift that drops nothing multiplies by a power of `X`. -/
theorem ofBits_shiftLeft {n w : Nat} (v : BitVec n) {i : Nat} (h : n + i ≤ w) :
    ofBits (v.setWidth w <<< i) = ofBits v * X ^ i := by
  ext k
  rw [coeff_mul_X_pow', coeff_ofBits, coeff_ofBits, BitVec.getLsbD_shiftLeft,
    BitVec.getLsbD_setWidth]
  by_cases hk : i ≤ k
  · rw [if_pos hk]
    by_cases hw : k < w
    · have hlt : k - i < w := by omega
      simp [hw, hlt, Nat.not_lt.mpr hk]
    · rw [BitVec.getLsbD_of_ge v (k - i) (by omega)]
      simp
  · rw [if_neg hk]
    have hlt : k < i := by omega
    simp only [hlt, decide_true, Bool.not_true, Bool.and_false, Bool.false_and]
    rfl

/-- Shift and xor, over the low `n` bits of the multiplier. -/
theorem ofBits_clmul_low {m k w : Nat} (x : BitVec m) (y : BitVec k) (n : Nat)
    (h : n = 0 ∨ m + (n - 1) ≤ w) :
    ofBits ((List.range n).foldl
      (fun acc i => if y.getLsbD i then acc ^^^ (x.setWidth w <<< i) else acc) 0#w) =
      ofBits x * lowBits y n := by
  induction n with
  | zero =>
    unfold lowBits
    rw [List.range_zero, List.foldl_nil, ofBits_zero, Finset.sum_range_zero, mul_zero]
  | succ n ih =>
    have ih' := ih (by omega)
    unfold lowBits at ih' ⊢
    rw [List.range_succ, List.foldl_append, Finset.sum_range_succ, mul_add, ← ih',
      List.foldl_cons, List.foldl_nil]
    cases y.getLsbD n with
    | true =>
      have hone : C (bit true) = (1 : (ZMod 2)[X]) := C_1
      rw [if_pos rfl, ofBits_xor, ofBits_shiftLeft x (by omega), hone, one_mul]
    | false =>
      have hzero : C (bit false) = (0 : (ZMod 2)[X]) := C_0
      rw [if_neg Bool.false_ne_true, hzero, zero_mul, mul_zero, add_zero]

/-- **The carry-less product** is the product of the polynomials. -/
theorem ofBits_clmul {m k w : Nat} (x : BitVec m) (y : BitVec k) (h : m + k ≤ w + 1) (hm : m ≤ w) :
    ofBits ((List.range k).foldl
      (fun acc i => if y.getLsbD i then acc ^^^ (x.setWidth w <<< i) else acc) 0#w) =
      ofBits x * ofBits y :=
  ofBits_clmul_low x y k (by omega)

end BinaryPolynomial
