import ThreeSippEs.Common.MuldivCorrect
import ThreeSippEs.Golden.BaseIsa
import ThreeSippEs.Golden.Golden
import ThreeSippEs.Lib.IntWords

/-!
# Fields, immediates and operations of the golden model

What the integers of the script are as the words of the cells: the fields and
immediates of an instruction, the conditions of the branches, the operations of the ALU
and of the M extension.
-/

namespace ThreeSippEs.Golden

open Decode FloatQuotient IntWords

/-! ## Words -/

theorem u32_toNat (x : Word) : u32 x.toNat = x := by
  unfold u32
  rw [BitVec.ofInt_natCast, BitVec.ofNat_toNat, BitVec.setWidth_eq]

theorem u32_toInt (x : Word) : u32 x.toInt = x := BitVec.ofInt_toInt

theorem u32_add (u v : Int) : u32 (u + v) = u32 u + u32 v := BitVec.ofInt_add u v

theorem u32_sub (u v : Int) : u32 (u - v) = u32 u - u32 v := by
  unfold u32
  rw [sub_eq_add_neg, BitVec.ofInt_add, BitVec.ofInt_neg, BitVec.sub_eq_add_neg]

theorem u32_natCast (n : Nat) : u32 (n : Int) = BitVec.ofNat 32 n := BitVec.ofInt_natCast 32 n

theorem sext_eq (v : Int) {bits : Nat} (h : 0 < bits) :
    sext v bits = (BitVec.ofInt bits v).toInt := by
  obtain ⟨n, rfl⟩ := Nat.exists_eq_succ_of_ne_zero h.ne'
  exact land_sub_land v n

theorem sext_field {w : Nat} (h : 0 < w) (x : BitVec w) : sext x.toNat w = x.toInt := by
  rw [sext_eq _ h, BitVec.ofInt_natCast, BitVec.ofNat_toNat, BitVec.setWidth_eq]

/-- The upper half of a product. -/
theorem high_half (p : Int) : p >>> 32 = p / 2 ^ 32 :=
  (Int.shiftRight_natCast_right p 32).trans (Int.shiftRight_eq_div_pow p 32)

/-! ## Fields -/

variable (ins : Word)

/-- A shift and a mask cut out a field. -/
theorem field (lo w mask : Nat) (h : mask = 2 ^ w - 1) :
    (ins.toNat >>> lo) &&& mask = (ins.extractLsb' lo w).toNat := by
  rw [h, Nat.and_two_pow_sub_one_eq_mod, BitVec.extractLsb'_toNat]

/-- The field at the top needs no mask. -/
theorem field_top {lo w : Nat} (h : lo + w = 32) :
    ins.toNat >>> lo = (ins.extractLsb' lo w).toNat := by
  have hlt : ins.toNat >>> lo < 2 ^ w := by
    rw [Nat.shiftRight_eq_div_pow]
    refine Nat.div_lt_of_lt_mul ?_
    rw [← pow_add, h]
    exact ins.isLt
  rw [BitVec.extractLsb'_toNat, Nat.mod_eq_of_lt hlt]

theorem fields_op : (fields ins.toNat).op = (opcode ins).toNat := field ins 0 7 0x7F rfl
theorem fields_rd : (fields ins.toNat).rd = (ins.extractLsb 11 7).toNat := field ins 7 5 0x1F rfl
theorem fields_f3 : (fields ins.toNat).f3 = (funct3 ins).toNat := field ins 12 3 0x7 rfl
theorem fields_rs1 : (fields ins.toNat).rs1 = (ins.extractLsb 19 15).toNat :=
  field ins 15 5 0x1F rfl
theorem fields_rs2 : (fields ins.toNat).rs2 = (ins.extractLsb 24 20).toNat :=
  field ins 20 5 0x1F rfl
theorem fields_f7 : (fields ins.toNat).f7 = (funct7 ins).toNat := field ins 25 7 0x7F rfl

/-- The immediates are those of the immediate generator. -/
theorem fields_immI : (fields ins.toNat).immI = (Immgen.immI ins).toInt := by
  show sext ((ins.toNat >>> 20 : Nat) : Int) 12 = _
  rw [field_top ins (w := 12) rfl, sext_field (by omega)]
  exact (BitVec.toInt_signExtend_of_le (by omega)).symm

theorem fields_immS : (fields ins.toNat).immS = (Immgen.immS ins).toInt := by
  have hbits : ((ins.toNat >>> 25) <<< 5) ||| ((ins.toNat >>> 7) &&& 0x1F) =
      (ins.extractLsb 31 25 ++ ins.extractLsb 11 7 : BitVec 12).toNat := by
    rw [field ins 7 5 0x1F rfl, field_top ins (w := 7) rfl]
    exact (BitVec.toNat_append _ _).symm
  show sext ((((ins.toNat >>> 25) <<< 5) ||| ((ins.toNat >>> 7) &&& 0x1F) : Nat) : Int) 12 = _
  rw [hbits, sext_field (by omega)]
  exact (BitVec.toInt_signExtend_of_le (by omega)).symm

theorem fields_immU : (fields ins.toNat).immU = (Immgen.immU ins).toNat := by
  show ins.toNat &&& 0xFFFFF000 = (ins.extractLsb 31 12 ++ 0#12 : BitVec 32).toNat
  have hmask : ins &&& 0xFFFFF000#32 = (ins.extractLsb 31 12 ++ 0#12 : BitVec 32) := by
    refine BitVec.eq_of_getLsbD_eq fun i hi => ?_
    rw [BitVec.getLsbD_and, BitVec.getLsbD_append, BitVec.getLsbD_extractLsb]
    by_cases h12 : i < 12
    · have hzero : ∀ j < 12, (0xFFFFF000#32).getLsbD j = false := by decide
      rw [if_pos h12, hzero i h12, Bool.and_false, BitVec.getLsbD_zero]
    · have hone : ∀ j < 32, ¬ j < 12 → (0xFFFFF000#32).getLsbD j = true := by decide
      rw [if_neg h12, hone i hi h12, Bool.and_true, Nat.add_sub_cancel' (Nat.le_of_not_lt h12)]
      simp
      omega
  rw [← hmask, BitVec.toNat_and]
  rfl

theorem fields_immB : (fields ins.toNat).immB = (Immgen.immB ins).toInt := by
  have hbits : (((ins.toNat >>> 31) <<< 12) ||| (((ins.toNat >>> 7) &&& 1) <<< 11) |||
      (((ins.toNat >>> 25) &&& 0x3F) <<< 5) ||| (((ins.toNat >>> 8) &&& 0xF) <<< 1)) =
      (ins.extractLsb 31 31 ++ ins.extractLsb 7 7 ++ ins.extractLsb 30 25 ++
        ins.extractLsb 11 8 ++ 0#1 : BitVec 13).toNat := by
    rw [field ins 7 1 1 rfl, field ins 25 6 0x3F rfl, field ins 8 4 0xF rfl,
      field_top ins (w := 1) rfl]
    simp only [BitVec.toNat_append, Nat.shiftLeft_or_distrib, ← Nat.shiftLeft_add]
    exact (Nat.or_zero _).symm
  show sext (((((ins.toNat >>> 31) <<< 12) ||| (((ins.toNat >>> 7) &&& 1) <<< 11) |||
    (((ins.toNat >>> 25) &&& 0x3F) <<< 5) ||| (((ins.toNat >>> 8) &&& 0xF) <<< 1)) : Nat) : Int)
    13 = _
  rw [hbits, sext_field (by omega)]
  exact (BitVec.toInt_signExtend_of_le (by omega)).symm

theorem fields_immJ : (fields ins.toNat).immJ = (Immgen.immJ ins).toInt := by
  have hbits : (((ins.toNat >>> 31) <<< 20) ||| (((ins.toNat >>> 12) &&& 0xFF) <<< 12) |||
      (((ins.toNat >>> 20) &&& 1) <<< 11) ||| (((ins.toNat >>> 21) &&& 0x3FF) <<< 1)) =
      (ins.extractLsb 31 31 ++ ins.extractLsb 19 12 ++ ins.extractLsb 20 20 ++
        ins.extractLsb 30 21 ++ 0#1 : BitVec 21).toNat := by
    rw [field ins 12 8 0xFF rfl, field ins 20 1 1 rfl, field ins 21 10 0x3FF rfl,
      field_top ins (w := 1) rfl]
    simp only [BitVec.toNat_append, Nat.shiftLeft_or_distrib, ← Nat.shiftLeft_add]
    exact (Nat.or_zero _).symm
  show sext (((((ins.toNat >>> 31) <<< 20) ||| (((ins.toNat >>> 12) &&& 0xFF) <<< 12) |||
    (((ins.toNat >>> 20) &&& 1) <<< 11) ||| (((ins.toNat >>> 21) &&& 0x3FF) <<< 1)) : Nat) : Int)
    21 = _
  rw [hbits, sext_field (by omega)]
  exact (BitVec.toInt_signExtend_of_le (by omega)).symm

/-! ## Operations -/

section Operations

variable {c : Cpu} {f : Fields} {f3 : BitVec 3} {f7 : BitVec 7} {a b : Word}

theorem f3_cases (f3 : BitVec 3) : f3 = 0#3 ∨ f3 = 1#3 ∨ f3 = 2#3 ∨ f3 = 3#3 ∨ f3 = 4#3 ∨ f3 = 5#3 ∨
    f3 = 6#3 ∨ f3 = 7#3 := by
  revert f3
  decide

/-- The branch comparator. -/
theorem taken_eq (h3 : f.f3 = f3.toNat) (ha : c.a f = a.toNat) (hb : c.b f = b.toNat) :
    c.taken f = Branch.taken ((branchOp f3).getD .none) a b := by
  have heq : (a.toNat == b.toNat) = (a == b) := by
    rw [Bool.eq_iff_iff, beq_iff_eq, beq_iff_eq, BitVec.toNat_inj]
  unfold Cpu.taken
  rw [h3, ha, hb]
  dsimp only
  rw [sext_field (by omega), sext_field (by omega)]
  rcases f3_cases f3 with rfl | rfl | rfl | rfl | rfl | rfl | rfl | rfl
  · exact heq
  · exact congrArg Bool.not heq
  · rfl
  · rfl
  · rfl
  · exact (decide_eq_decide.mpr Int.not_lt.symm).trans decide_not
  · rfl
  · exact (decide_eq_decide.mpr Nat.not_lt.symm).trans decide_not

/-- The ALU, on the second operand as a word. -/
theorem alu_eq (immMode : Bool) (h3 : f.f3 = f3.toNat) (h7 : f.f7 = f7.toNat)
    (ha : c.a f = a.toNat) (hsrc : u32 (if immMode then f.immI else c.b f) = b) :
    u32 (c.alu f immMode) = Alu.y (BaseIsa.aluOp immMode f3 f7) a b := by
  unfold Cpu.alu
  rw [h3, h7, ha]
  dsimp only
  have hsub : immMode = false → (if immMode then f.immI else (c.b f : Int)) = c.b f := by
    intro himm
    rw [himm, if_neg Bool.false_ne_true]
  generalize (if immMode then f.immI else (c.b f : Int)) = src at hsrc hsub ⊢
  have hsh : (Int.land src 0x1F).toNat = Alu.shamt b := by
    have hlow : Int.land src 0x1F = (BitVec.ofInt 5 src).toNat := land_low src 5
    rw [hlow, Int.toNat_natCast, ← hsrc]
    show _ = ((BitVec.ofInt 32 src).extractLsb 4 0).toNat
    rw [BitVec.extractLsb, BitVec.extractLsb'_toNat, BitVec.toNat_ofInt, BitVec.toNat_ofInt]
    omega
  have h20 : f7.toNat = 0x20 ↔ f7 = 0b0100000#7 := BitVec.toNat_inj (y := 0b0100000#7)
  rw [hsh, sext_field (by omega), sext_eq src (by omega)]
  have hsext : (BitVec.ofInt 32 src).toInt = b.toInt := congrArg BitVec.toInt hsrc
  rw [hsext, u32_toNat, hsrc]
  unfold BaseIsa.aluOp
  rcases f3_cases f3 with rfl | rfl | rfl | rfl | rfl | rfl | rfl | rfl
  · show u32 (if (!immMode && f7.toNat == 0x20) = true then (a.toNat : Int) - c.b f
      else a.toNat + src) =
      Alu.y (if immMode = false ∧ f7 = 0b0100000#7 then .sub else .add) a b
    have hcond : (!immMode && f7.toNat == 0x20) = true ↔ immMode = false ∧ f7 = 0b0100000#7 := by
      rw [Bool.and_eq_true, Bool.not_eq_true', beq_iff_eq, h20]
    by_cases hs : immMode = false ∧ f7 = 0b0100000#7
    · rw [if_pos (hcond.mpr hs), if_pos hs, u32_sub, u32_toNat, ← hsub hs.1, hsrc]
      rfl
    · rw [if_neg fun h => hs (hcond.mp h), if_neg hs, u32_add, u32_toNat, hsrc]
      rfl
  · show u32 ((a.toNat <<< Alu.shamt b : Nat) : Int) = a <<< Alu.shamt b
    exact u32_natCast _
  · show u32 (if a.toInt < b.toInt then 1 else 0) = if a.slt b then 1#32 else 0#32
    rw [if_congr (BitVec.slt_iff_toInt_lt (x := a) (y := b)) rfl rfl]
    split
    · rfl
    · rfl
  · show u32 (if a.toNat < b.toNat then 1 else 0) = if a.ult b then 1#32 else 0#32
    rw [if_congr (BitVec.ult_iff_toNat_lt (x := a) (y := b)) rfl rfl]
    split
    · rfl
    · rfl
  · show u32 (Int.xor a.toNat src) = a ^^^ b
    unfold u32 at hsrc ⊢
    rw [ofInt_xor, hsrc]
    exact congrArg (· ^^^ b) (u32_toNat a)
  · have hmask : a.toNat &&& 0xFFFFFFFF = a.toNat :=
      Nat.and_two_pow_sub_one_of_lt_two_pow a.isLt
    show u32 (if f7.toNat = 0x20 then a.toInt >>> Alu.shamt b
      else ((a.toNat &&& 0xFFFFFFFF) >>> Alu.shamt b : Nat)) =
      Alu.y (if f7 = 0b0100000#7 then .sra else .srl) a b
    by_cases hs : f7 = 0b0100000#7
    · rw [if_pos (h20.mpr hs), if_pos hs]
      rfl
    · rw [if_neg fun h => hs (h20.mp h), if_neg hs, hmask, u32_natCast]
      refine BitVec.eq_of_toNat_eq ?_
      have hlt : a.toNat >>> Alu.shamt b < 2 ^ 32 := (a >>> Alu.shamt b).isLt
      rw [BitVec.toNat_ofNat, Nat.mod_eq_of_lt hlt]
      exact (BitVec.toNat_ushiftRight a _).symm
  · show u32 (Int.lor a.toNat src) = a ||| b
    unfold u32 at hsrc ⊢
    rw [ofInt_lor, hsrc]
    exact congrArg (· ||| b) (u32_toNat a)
  · show u32 (Int.land a.toNat src) = a &&& b
    unfold u32 at hsrc ⊢
    rw [ofInt_land, hsrc]
    exact congrArg (· &&& b) (u32_toNat a)

/-- The quotient of the script is the exact one, truncated. -/
theorem floatDiv_eq (h : b.toInt ≠ 0) : Cpu.floatDiv a.toInt b.toInt = a.toInt.tdiv b.toInt := by
  have hlo := BitVec.le_toInt a
  have hhi := BitVec.toInt_lt (x := a)
  refine truncate_quotient h ?_
  rw [abs_lt]
  omega

/-- The M extension. -/
theorem mext_eq (h3 : f.f3 = f3.toNat) (ha : c.a f = a.toNat) (hb : c.b f = b.toNat) :
    u32 (c.mext f) = Mext.value (mdOp f3) a b := by
  have hzero : b.toNat = 0 ↔ b = 0#32 := BitVec.toNat_inj (y := 0#32)
  have hzero' : b.toInt = 0 ↔ b = 0#32 := BitVec.toInt_inj (y := 0#32)
  unfold Cpu.mext
  rw [h3, ha, hb]
  dsimp only
  rw [sext_field (by omega), sext_field (by omega)]
  rcases f3_cases f3 with rfl | rfl | rfl | rfl | rfl | rfl | rfl | rfl
  · show u32 ((a.toNat : Int) * b.toNat) = BitVec.ofInt 32 (a.toInt * b.toInt)
    unfold u32
    rw [BitVec.ofInt_mul, BitVec.ofInt_mul, BitVec.ofInt_toInt, BitVec.ofInt_toInt]
    exact congrArg₂ (· * ·) (u32_toNat a) (u32_toNat b)
  · show u32 ((a.toInt * b.toInt) >>> 32) = BitVec.ofInt 32 (a.toInt * b.toInt / 2 ^ 32)
    rw [high_half]
    rfl
  · show u32 ((a.toInt * b.toNat) >>> 32) = BitVec.ofInt 32 (a.toInt * b.toNat / 2 ^ 32)
    rw [high_half]
    rfl
  · show u32 (((a.toNat * b.toNat : Nat) : Int) >>> 32) =
      BitVec.ofNat 32 (a.toNat * b.toNat / 2 ^ 32)
    rw [high_half]
    exact u32_natCast (a.toNat * b.toNat / 2 ^ 32)
  · show u32 (if b.toNat = 0 then 0xFFFFFFFF
      else if ¬ (a.toInt = -2 ^ 31 ∧ b.toInt = -1) then (u32 (Cpu.floatDiv a.toInt b.toInt)).toNat
      else 0x80000000) =
      if b = 0#32 then 0xFFFFFFFF#32 else BitVec.ofInt 32 (a.toInt.tdiv b.toInt)
    by_cases hb0 : b = 0#32
    · rw [if_pos (hzero.mpr hb0), if_pos hb0]
      rfl
    rw [if_neg fun h => hb0 (hzero.mp h), if_neg hb0]
    by_cases hover : a.toInt = -2 ^ 31 ∧ b.toInt = -1
    · rw [if_neg (not_not_intro hover), hover.1, hover.2]
      rfl
    · rw [if_pos hover, u32_toNat, floatDiv_eq fun h => hb0 (hzero'.mp h)]
      rfl
  · show u32 (if b.toNat = 0 then 0xFFFFFFFF else ((a.toNat / b.toNat : Nat) : Int)) =
      if b = 0#32 then 0xFFFFFFFF#32 else BitVec.ofNat 32 (a.toNat / b.toNat)
    by_cases hb0 : b = 0#32
    · rw [if_pos (hzero.mpr hb0), if_pos hb0]
      rfl
    · rw [if_neg fun h => hb0 (hzero.mp h), if_neg hb0, u32_natCast]
  · show u32 (if b.toNat = 0 then a.toNat
      else if ¬ (a.toInt = -2 ^ 31 ∧ b.toInt = -1) then
        (u32 (a.toInt - Cpu.floatDiv a.toInt b.toInt * b.toInt)).toNat
      else 0) =
      if b = 0#32 then a else BitVec.ofInt 32 (a.toInt.tmod b.toInt)
    by_cases hb0 : b = 0#32
    · rw [if_pos (hzero.mpr hb0), if_pos hb0, u32_toNat]
    rw [if_neg fun h => hb0 (hzero.mp h), if_neg hb0]
    by_cases hover : a.toInt = -2 ^ 31 ∧ b.toInt = -1
    · rw [if_neg (not_not_intro hover), hover.1, hover.2]
      rfl
    · rw [if_pos hover, u32_toNat, floatDiv_eq fun h => hb0 (hzero'.mp h), mul_comm,
        ← Int.tmod_def]
      rfl
  · show u32 (if b.toNat = 0 then (a.toNat : Int)
      else a.toNat - ((a.toNat / b.toNat : Nat) : Int) * b.toNat) =
      if b = 0#32 then a else BitVec.ofNat 32 (a.toNat % b.toNat)
    by_cases hb0 : b = 0#32
    · rw [if_pos (hzero.mpr hb0), if_pos hb0, u32_toNat]
    · have hmod : (a.toNat : Int) - ((a.toNat / b.toNat : Nat) : Int) * b.toNat =
          ((a.toNat % b.toNat : Nat) : Int) := by
        push_cast
        rw [Int.emod_def, mul_comm]
      rw [if_neg fun h => hb0 (hzero.mp h), if_neg hb0, hmod, u32_natCast]

end Operations

end ThreeSippEs.Golden
