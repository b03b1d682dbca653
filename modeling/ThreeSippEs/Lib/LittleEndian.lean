import Mathlib.Tactic

/-!
# Little-endian bytes

The value of a sequence of bytes, the first one lowest, and the bytes of a part
of a bit vector.
-/

namespace ThreeSippEs.LittleEndian

/-- The value of the first `n` bytes. -/
def value (byte : Nat → BitVec 8) (n : Nat) : Nat :=
  Nat.ofDigits 256 ((List.range n).map fun k => (byte k).toNat)

@[simp] theorem value_zero (byte : Nat → BitVec 8) : value byte 0 = 0 := rfl

theorem value_succ (byte : Nat → BitVec 8) (n : Nat) :
    value byte (n + 1) = value byte n + 256 ^ n * (byte n).toNat := by
  unfold value
  rw [List.range_succ, List.map_append, Nat.ofDigits_append, List.length_map, List.length_range,
    List.map_singleton, Nat.ofDigits_singleton]

/-- It depends on those bytes only. -/
theorem value_congr {byte byte' : Nat → BitVec 8} {n : Nat} (h : ∀ k < n, byte k = byte' k) :
    value byte n = value byte' n := by
  induction n with
  | zero => rfl
  | succ n ih =>
    rw [value_succ, value_succ, ih fun k hk => h k (Nat.lt_succ_of_lt hk),
      h n (Nat.lt_succ_self n)]

theorem value_lt (byte : Nat → BitVec 8) (n : Nat) : value byte n < 256 ^ n := by
  induction n with
  | zero => exact Nat.one_pos
  | succ n ih =>
    have hbyte : (byte n).toNat ≤ 255 := Nat.le_of_lt_succ (byte n).isLt
    rw [value_succ, pow_succ]
    calc value byte n + 256 ^ n * (byte n).toNat
        < 256 ^ n + 256 ^ n * (byte n).toNat := Nat.add_lt_add_right ih _
      _ ≤ 256 ^ n + 256 ^ n * 255 := Nat.add_le_add_left (Nat.mul_le_mul_left _ hbyte) _
      _ = 256 ^ n * 256 := by ring

/-- The value determines the bytes. -/
theorem value_inj {byte byte' : Nat → BitVec 8} {n : Nat} (h : value byte n = value byte' n) :
    ∀ k < n, byte k = byte' k := by
  induction n with
  | zero =>
    intro k hk
    exact absurd hk (Nat.not_lt_zero k)
  | succ n ih =>
    rw [value_succ, value_succ] at h
    have hlow : value byte n = value byte' n := by
      have hmod := congrArg (· % 256 ^ n) h
      simp only [Nat.add_mul_mod_self_left] at hmod
      rwa [Nat.mod_eq_of_lt (value_lt byte n), Nat.mod_eq_of_lt (value_lt byte' n)] at hmod
    have htop : byte n = byte' n := by
      rw [hlow] at h
      have hmul := Nat.add_left_cancel h
      exact BitVec.eq_of_toNat_eq (Nat.eq_of_mul_eq_mul_left (by positivity) hmul)
    intro k hk
    rcases Nat.lt_succ_iff_lt_or_eq.mp hk with hlt | heq
    · exact ih hlow k hlt
    · rw [heq]
      exact htop

/-- The bits of a number put together byte by byte. -/
theorem testBit_foldl_or {lane : Nat → Nat} (h : ∀ b, lane b < 2 ^ 8) (n : Nat) {k j : Nat}
    (hj : j < 8) :
    ((List.range n).foldl (fun acc b => acc ||| lane b <<< (8 * b)) 0).testBit (8 * k + j) =
      (decide (k < n) && (lane k).testBit j) := by
  induction n with
  | zero => simp
  | succ n ih =>
    rw [List.range_succ, List.foldl_append, List.foldl_cons, List.foldl_nil, Nat.testBit_or, ih,
      Nat.testBit_shiftLeft]
    rcases Nat.lt_trichotomy k n with hlt | heq | hgt
    · rw [decide_eq_true hlt, decide_eq_true (Nat.lt_succ_of_lt hlt),
        decide_eq_false (by omega : ¬ 8 * k + j ≥ 8 * n), Bool.false_and, Bool.or_false]
    · subst heq
      rw [decide_eq_false (Nat.lt_irrefl k), decide_eq_true (Nat.lt_succ_self k),
        decide_eq_true (by omega : 8 * k + j ≥ 8 * k), Bool.false_and, Bool.false_or,
        Bool.true_and, Bool.true_and, Nat.add_sub_cancel_left]
    · -- the new byte ends below
      have hhigh : (lane n).testBit (8 * k + j - 8 * n) = false :=
        Nat.testBit_lt_two_pow ((h n).trans_le (Nat.pow_le_pow_right (by omega) (by omega)))
      rw [decide_eq_false (by omega : ¬ k < n), decide_eq_false (by omega : ¬ k < n + 1), hhigh,
        Bool.false_and, Bool.and_false]
      rfl

variable {w : Nat}

/-- A part of a bit vector is the value of its bytes. -/
theorem toNat_extractLsb' (v : BitVec w) (s n : Nat) :
    (v.extractLsb' s (8 * n)).toNat = value (fun k => v.extractLsb' (s + 8 * k) 8) n := by
  induction n with
  | zero => simp
  | succ n ih =>
    have hpow : 2 ^ (8 * (n + 1)) = 2 ^ (8 * n) * 2 ^ 8 := by rw [← pow_add, Nat.mul_succ]
    have h256 : 256 ^ n = 2 ^ (8 * n) := by rw [show 256 = 2 ^ 8 by rfl, ← pow_mul]
    rw [value_succ, ← ih, h256]
    simp only [BitVec.extractLsb'_toNat, Nat.shiftRight_eq_div_pow]
    rw [hpow, Nat.mod_mul, Nat.div_div_eq_div_mul, ← pow_add]

/-- The lowest bytes of a shifted bit vector. -/
theorem ushiftRight_extractLsb' (v : BitVec w) {s n : Nat} {byte : Nat → BitVec 8}
    (h : ∀ k < n, v.extractLsb' (s + 8 * k) 8 = byte k) :
    (v >>> s).extractLsb' 0 (8 * n) = BitVec.ofNat (8 * n) (value byte n) := by
  have hshift : (v >>> s).extractLsb' 0 (8 * n) = v.extractLsb' s (8 * n) := by
    apply BitVec.eq_of_toNat_eq
    simp
  rw [hshift, ← value_congr h, ← toNat_extractLsb', BitVec.ofNat_toNat, BitVec.setWidth_eq]

/-- A byte of a part is a byte of the whole. -/
theorem byte_part (v : BitVec w) {hi lo t : Nat} (ht : lo + 8 * t + 7 ≤ hi) :
    (v.extractLsb hi lo).extractLsb' (8 * t) 8 = v.extractLsb' (lo + 8 * t) 8 := by
  refine BitVec.eq_of_getLsbD_eq fun j hj => ?_
  have hin : 8 * t + j < hi - lo + 1 := by omega
  rw [BitVec.getLsbD_extractLsb', BitVec.getLsbD_extractLsb', BitVec.getLsbD_extractLsb,
    Nat.add_assoc]
  simp [hin]

/-- The bytes of a word made of four. -/
theorem byte_quad (byte : Nat → BitVec 8) {k : Nat} (hk : k < 4) :
    (byte 3 ++ byte 2 ++ byte 1 ++ byte 0).extractLsb' (8 * k) 8 = byte k := by
  refine BitVec.eq_of_getLsbD_eq fun j hj => ?_
  rw [BitVec.getLsbD_extractLsb', BitVec.getLsbD_append, BitVec.getLsbD_append,
    BitVec.getLsbD_append]
  obtain rfl | rfl | rfl | rfl : k = 0 ∨ k = 1 ∨ k = 2 ∨ k = 3 := by omega
  all_goals grind

/-- The bytes of two words side by side. -/
theorem byte_pair (byte : Nat → BitVec 8) {hi lo : BitVec 32} {n : Nat} (hn : n ≤ 8)
    (hlo : ∀ k < 4, lo.extractLsb' (8 * k) 8 = byte k)
    (hhi : ∀ k < 4, k + 4 < n → hi.extractLsb' (8 * k) 8 = byte (k + 4)) {k : Nat} (hk : k < n) :
    (hi ++ lo).extractLsb' (8 * k) 8 = byte k := by
  by_cases h4 : k < 4
  · rw [← hlo k h4]
    refine BitVec.eq_of_getLsbD_eq fun j hj => ?_
    rw [BitVec.getLsbD_extractLsb', BitVec.getLsbD_append, BitVec.getLsbD_extractLsb',
      if_pos (by omega)]
  · obtain ⟨d, rfl⟩ := Nat.exists_eq_add_of_le' (Nat.le_of_not_lt h4)
    rw [← hhi d (by omega) hk]
    refine BitVec.eq_of_getLsbD_eq fun j hj => ?_
    rw [BitVec.getLsbD_extractLsb', BitVec.getLsbD_append, BitVec.getLsbD_extractLsb',
      if_neg (by omega)]
    congr 2
    omega

end ThreeSippEs.LittleEndian
