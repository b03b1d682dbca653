import Mathlib.Tactic
import Mathlib.Data.Int.Log

/-!
# Integer division through floating point

A quotient of integers is rounded to a significand of `p` bits, to nearest with ties
to even, and then truncated toward zero. The exponent is not bounded: quotients of
moderate integers are far from the ends of its range.

- `roundTo_error`, `roundTo_int`: the rounding is close, and exact on integers;
- `truncate_quotient`: a dividend below `2 ^ p` gives the truncated quotient.
-/

namespace ThreeSippEs.FloatQuotient

/-- The nearest integer, the even one of two. -/
def roundEven (x : ℚ) : ℤ :=
  if x - ⌊x⌋ < 1 / 2 then ⌊x⌋
  else if 1 / 2 < x - ⌊x⌋ then ⌊x⌋ + 1
  else if ⌊x⌋ % 2 = 0 then ⌊x⌋
  else ⌊x⌋ + 1

theorem roundEven_error (x : ℚ) : |(roundEven x : ℚ) - x| ≤ 1 / 2 := by
  have hlo := Int.floor_le x
  have hhi := Int.lt_floor_add_one x
  unfold roundEven
  rw [abs_le]
  split_ifs <;> push_cast <;> constructor <;> linarith

theorem roundEven_int (n : ℤ) : roundEven n = n := by
  unfold roundEven
  rw [Int.floor_intCast, sub_self, if_pos (by norm_num)]

variable {p : ℕ}

/-- The unit in the last place of `x`. -/
def ulp (p : ℕ) (x : ℚ) : ℚ := 2 ^ (Int.log 2 |x| + 1 - p)

theorem ulp_pos (p : ℕ) (x : ℚ) : 0 < ulp p x := by
  unfold ulp
  positivity

/-- The nearest number with a significand of `p` bits. -/
def roundTo (p : ℕ) (x : ℚ) : ℚ := if x = 0 then 0 else roundEven (x / ulp p x) * ulp p x

theorem ulp_le {x : ℚ} (hx : x ≠ 0) : ulp p x ≤ 2 * |x| / 2 ^ p := by
  have hlog : ((2 : ℕ) : ℚ) ^ Int.log 2 |x| ≤ |x| :=
    Int.zpow_log_le_self (by norm_num) (abs_pos.mpr hx)
  have htwo : (2 : ℚ) ≠ 0 := by norm_num
  unfold ulp
  rw [zpow_sub₀ htwo, zpow_add_one₀ htwo, zpow_natCast, mul_comm]
  push_cast at hlog
  gcongr

/-- The relative error is at most half a unit of the significand. -/
theorem roundTo_error (p : ℕ) (x : ℚ) : |roundTo p x - x| ≤ |x| / 2 ^ p := by
  unfold roundTo
  by_cases hx : x = 0
  · rw [if_pos hx, hx]
    simp
  · have hpos := ulp_pos p x
    have herr := roundEven_error (x / ulp p x)
    have hfact : (roundEven (x / ulp p x) : ℚ) * ulp p x - x =
        (roundEven (x / ulp p x) - x / ulp p x) * ulp p x := by
      rw [sub_mul, div_mul_cancel₀ _ hpos.ne']
    rw [if_neg hx, hfact, abs_mul, abs_of_pos hpos]
    calc |(roundEven (x / ulp p x) : ℚ) - x / ulp p x| * ulp p x
        ≤ 1 / 2 * ulp p x := by gcongr
      _ ≤ 1 / 2 * (2 * |x| / 2 ^ p) := by
          have hle := ulp_le (p := p) hx
          gcongr
      _ = |x| / 2 ^ p := by ring

/-- Integers that fit into the significand are not rounded. -/
theorem roundTo_int {n : ℤ} (hn : |n| < 2 ^ p) : roundTo p n = n := by
  unfold roundTo
  by_cases h0 : (n : ℚ) = 0
  · rw [if_pos h0, h0]
  · rw [if_neg h0]
    have hlt : |(n : ℚ)| < ((2 : ℕ) : ℚ) ^ (p : ℤ) := by
      rw [zpow_natCast]
      exact_mod_cast hn
    have hlog : Int.log 2 |(n : ℚ)| < p :=
      (Int.lt_zpow_iff_log_lt (by norm_num) (abs_pos.mpr h0)).mp hlt
    obtain ⟨k, hk⟩ : ∃ k : ℕ, Int.log 2 |(n : ℚ)| + 1 - p = -(k : ℤ) :=
      ⟨(p - (Int.log 2 |(n : ℚ)| + 1)).toNat, by omega⟩
    have hulp : ulp p n = ((2 : ℚ) ^ k)⁻¹ := by
      unfold ulp
      rw [hk, zpow_neg, zpow_natCast]
    have hquot : (n : ℚ) / ulp p n = ((n * 2 ^ k : ℤ) : ℚ) := by
      rw [hulp, div_inv_eq_mul]
      push_cast
      ring
    rw [hquot, roundEven_int, hulp]
    push_cast
    rw [mul_assoc, mul_inv_cancel₀ (by positivity), mul_one]

/-- Toward zero. -/
def truncate (x : ℚ) : ℤ := if 0 ≤ x then ⌊x⌋ else ⌈x⌉

theorem truncate_int (n : ℤ) : truncate n = n := by
  unfold truncate
  rw [Int.floor_intCast, Int.ceil_intCast, ite_self]

theorem truncate_of_pos {x : ℚ} {t : ℤ} (ht : 0 ≤ t) (hlo : t < x) (hhi : x < t + 1) :
    truncate x = t := by
  have h0 : (0 : ℚ) ≤ t := by exact_mod_cast ht
  unfold truncate
  rw [if_pos (by linarith), Int.floor_eq_iff]
  exact ⟨hlo.le, hhi⟩

theorem truncate_of_neg {x : ℚ} {t : ℤ} (ht : t ≤ 0) (hlo : t - 1 < x) (hhi : x < t) :
    truncate x = t := by
  have h0 : (t : ℚ) ≤ 0 := by exact_mod_cast ht
  unfold truncate
  rw [if_neg (by linarith), Int.ceil_eq_iff]
  exact ⟨hlo, hhi.le⟩

/-- The quotient and the remainder's part of it have the same sign. -/
theorem tdiv_sign (a b : ℤ) :
    (0 ≤ a.tdiv b ∧ 0 ≤ (a.tmod b : ℚ) / b) ∨ (a.tdiv b ≤ 0 ∧ (a.tmod b : ℚ) / b ≤ 0) := by
  have hpos : 0 ≤ a → (0 : ℚ) ≤ a.tmod b := fun ha => by exact_mod_cast Int.tmod_nonneg b ha
  have hneg : a ≤ 0 → (a.tmod b : ℚ) ≤ 0 := by
    intro ha
    have hmod := Int.tmod_nonneg b (Int.neg_nonneg_of_nonpos ha)
    rw [Int.neg_tmod] at hmod
    exact_mod_cast Int.nonpos_of_neg_nonneg hmod
  rcases le_total 0 a with ha | ha <;> rcases le_total 0 b with hb | hb
  · exact .inl ⟨Int.tdiv_nonneg ha hb, div_nonneg (hpos ha) (by exact_mod_cast hb)⟩
  · exact .inr ⟨Int.tdiv_nonpos_of_nonneg_of_nonpos ha hb,
      div_nonpos_of_nonneg_of_nonpos (hpos ha) (by exact_mod_cast hb)⟩
  · refine .inr ⟨?_, div_nonpos_of_nonpos_of_nonneg (hneg ha) (by exact_mod_cast hb)⟩
    have hdiv := Int.tdiv_nonneg (Int.neg_nonneg_of_nonpos ha) hb
    rw [Int.neg_tdiv] at hdiv
    exact Int.nonpos_of_neg_nonneg hdiv
  · exact .inl ⟨Int.tdiv_nonneg_of_nonpos_of_nonpos ha hb,
      div_nonneg_of_nonpos (hneg ha) (by exact_mod_cast hb)⟩

/-- **The quotient.** Rounding does not reach the next integer, from which the exact
quotient is at least one divisor's part away. -/
theorem truncate_quotient {a b : ℤ} (hb : b ≠ 0) (ha : |a| < 2 ^ p) :
    truncate (roundTo p (a / b)) = a.tdiv b := by
  have hdiv : b * a.tdiv b + a.tmod b = a := Int.mul_tdiv_add_tmod a b
  have hbq : (b : ℚ) ≠ 0 := by exact_mod_cast hb
  have hquot : (a : ℚ) / b = a.tdiv b + a.tmod b / b := by
    have hdivq : (b : ℚ) * a.tdiv b + a.tmod b = a := by exact_mod_cast hdiv
    rw [← hdivq]
    field_simp
  by_cases hm : a.tmod b = 0
  · have ht : |a.tdiv b| < 2 ^ p := by
      rw [hm, add_zero] at hdiv
      have habs : |a| = |b| * |a.tdiv b| := by rw [← abs_mul, hdiv]
      have hle : |a.tdiv b| ≤ |b| * |a.tdiv b| :=
        le_mul_of_one_le_left (abs_nonneg _) (Int.one_le_abs hb)
      omega
    rw [hquot, hm, Int.cast_zero, zero_div, add_zero, roundTo_int ht, truncate_int]
  · -- the fraction and the error, in parts of the divisor
    have hB : (0 : ℚ) < |(b : ℚ)| := abs_pos.mpr hbq
    have herr : |roundTo p ((a : ℚ) / b) - a / b| < 1 / |(b : ℚ)| := by
      have haq : |(a : ℚ)| < 2 ^ p := by exact_mod_cast ha
      calc |roundTo p ((a : ℚ) / b) - a / b| ≤ |(a : ℚ) / b| / 2 ^ p := roundTo_error p _
        _ = |(a : ℚ)| / 2 ^ p / |(b : ℚ)| := by rw [abs_div, div_right_comm]
        _ < 1 / |(b : ℚ)| := by
            gcongr
            rw [div_lt_one (by positivity)]
            exact haq
    have hlt : |a.tmod b| < |b| := by
      rw [Int.abs_eq_natAbs, Int.abs_eq_natAbs, Int.natAbs_tmod]
      exact_mod_cast Nat.mod_lt _ (Int.natAbs_pos.mpr hb)
    have hlo : 1 / |(b : ℚ)| ≤ |(a.tmod b : ℚ) / b| := by
      have hone : (1 : ℚ) ≤ |(a.tmod b : ℚ)| := by exact_mod_cast Int.one_le_abs hm
      rw [abs_div]
      gcongr
    have hhi : |(a.tmod b : ℚ) / b| ≤ 1 - 1 / |(b : ℚ)| := by
      have hle : |(a.tmod b : ℚ)| ≤ |(b : ℚ)| - 1 := by
        have hint : |a.tmod b| ≤ |b| - 1 := by omega
        exact_mod_cast hint
      rw [abs_div, div_le_iff₀ hB, sub_mul, one_mul, div_mul_cancel₀ _ hB.ne']
      exact hle
    rw [abs_lt] at herr
    rw [hquot] at herr ⊢
    rcases tdiv_sign a b with ⟨ht, hs⟩ | ⟨ht, hs⟩
    · rw [abs_of_nonneg hs] at hlo hhi
      exact truncate_of_pos ht (by linarith) (by linarith)
    · rw [abs_of_nonpos hs] at hlo hhi
      exact truncate_of_neg ht (by linarith) (by linarith)

end ThreeSippEs.FloatQuotient
