import Mathlib.Tactic

/-!
# Restoring division by shift and subtract

A restoring divider reads the dividend from its most significant bit on. After
some bits it holds the quotient and remainder of the number read so far; each
step shifts one more bit into the remainder and subtracts the divisor if it
fits.

- `DivMod`: what the divider holds for the number read so far;
- `DivMod.shift`: one step;
- `shiftRight_eq`: reading the dividend bit by bit.
-/

namespace ThreeSippEs.ShiftSubtract

/-- `q` and `r` are the quotient and the remainder of `n` by `d`. -/
structure DivMod (n d q r : Nat) : Prop where
  quot : q = n / d
  rem : r = n % d

theorem DivMod.zero (d : Nat) : DivMod 0 d 0 0 := ⟨by simp, by simp⟩

theorem DivMod.rem_lt {n d q r : Nat} (h : DivMod n d q r) (hd : 0 < d) : r < d := by
  rw [h.rem]
  exact Nat.mod_lt n hd

theorem DivMod.quot_le {n d q r : Nat} (h : DivMod n d q r) : q ≤ n := by
  rw [h.quot]
  exact Nat.div_le_self n d

/-- Quotient and remainder are determined by their defining equation. -/
theorem DivMod.of_eq {n d q r : Nat} (hr : r < d) (h : n = q * d + r) : DivMod n d q r := by
  have hd : 0 < d := Nat.lt_of_le_of_lt (Nat.zero_le r) hr
  constructor
  · rw [h, Nat.add_comm, Nat.add_mul_div_right r q hd, Nat.div_eq_of_lt hr, Nat.zero_add]
  · rw [h, Nat.add_comm, Nat.add_mul_mod_self_right, Nat.mod_eq_of_lt hr]

/-- **One step**: shift in a bit, subtract the divisor if it fits. -/
theorem DivMod.shift {n d q r b : Nat} (h : DivMod n d q r) (hd : 0 < d) (hb : b < 2) :
    if d ≤ 2 * r + b then DivMod (2 * n + b) d (2 * q + 1) (2 * r + b - d)
    else DivMod (2 * n + b) d (2 * q) (2 * r + b) := by
  have hr := h.rem_lt hd
  have hn : n = q * d + r := by
    rw [h.quot, h.rem, Nat.mul_comm]
    exact (Nat.div_add_mod n d).symm
  split
  case isTrue hle =>
    refine DivMod.of_eq (by omega) ?_
    have hq : (2 * q + 1) * d = 2 * (q * d) + d := by ring
    rw [hq]
    omega
  case isFalse hlt =>
    refine DivMod.of_eq (by omega) ?_
    have hq : 2 * q * d = 2 * (q * d) := by ring
    rw [hq]
    omega

/-- The number read after one more bit. -/
theorem shiftRight_eq (n k : Nat) :
    n / 2 ^ k = 2 * (n / 2 ^ (k + 1)) + (n.testBit k).toNat := by
  have hbit : (n.testBit k).toNat = n / 2 ^ k % 2 := by
    rw [Nat.testBit_eq_decide_div_mod_eq]
    rcases Nat.mod_two_eq_zero_or_one (n / 2 ^ k) with h | h <;> simp [h]
  rw [hbit, Nat.pow_succ, ← Nat.div_div_eq_div_mul]
  omega

end ThreeSippEs.ShiftSubtract
