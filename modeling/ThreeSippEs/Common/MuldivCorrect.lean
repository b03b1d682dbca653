import ThreeSippEs.Common.Muldiv
import ThreeSippEs.Lib.ShiftSubtract

/-!
# The multiply/divide unit computes the M extension

`Mext.value` is the M extension in integer arithmetic. `Muldiv.Inv` says what the
unit holds in each of its states; it is an invariant of every run, and in the
cycle of `done` it makes `result` the value of the latched operation.
-/

namespace ThreeSippEs

open ShiftSubtract

/-- What the eight operations of the M extension compute. -/
def Mext.value (op : MdOp) (a b : Word) : Word :=
  match op with
  | .mul => BitVec.ofInt 32 (a.toInt * b.toInt)
  | .mulh => BitVec.ofInt 32 (a.toInt * b.toInt / 2 ^ 32)
  | .mulhsu => BitVec.ofInt 32 (a.toInt * b.toNat / 2 ^ 32)
  | .mulhu => BitVec.ofNat 32 (a.toNat * b.toNat / 2 ^ 32)
  | .div => if b = 0#32 then 0xFFFFFFFF#32 else BitVec.ofInt 32 (a.toInt.tdiv b.toInt)
  | .divu => if b = 0#32 then 0xFFFFFFFF#32 else BitVec.ofNat 32 (a.toNat / b.toNat)
  | .rem => if b = 0#32 then a else BitVec.ofInt 32 (a.toInt.tmod b.toInt)
  | .remu => if b = 0#32 then a else BitVec.ofNat 32 (a.toNat % b.toNat)

namespace Muldiv

/-! ## Products -/

theorem signExtend_eq_ofInt (a : Word) : a.signExtend 64 = BitVec.ofInt 64 a.toInt := by
  apply BitVec.eq_of_toInt_eq
  rw [BitVec.toInt_signExtend_of_le (by omega), BitVec.toInt_ofInt]
  have hlo := BitVec.le_toInt a
  have hhi := BitVec.toInt_lt (x := a)
  rw [Int.bmod_eq_of_le] <;> omega

theorem setWidth_eq_ofInt (a : Word) : a.setWidth 64 = BitVec.ofInt 64 (a.toNat : Int) := by
  apply BitVec.eq_of_toNat_eq
  have hlt := a.isLt
  rw [BitVec.toNat_setWidth, BitVec.toNat_ofInt]
  omega

/-- The two halves of a 64-bit product. -/
theorem low_ofInt (p : Int) : (BitVec.ofInt 64 p).extractLsb 31 0 = BitVec.ofInt 32 p := by
  apply BitVec.eq_of_toNat_eq
  rw [BitVec.extractLsb, BitVec.extractLsb'_toNat, BitVec.toNat_ofInt, BitVec.toNat_ofInt]
  omega

theorem high_ofInt (p : Int) :
    (BitVec.ofInt 64 p).extractLsb 63 32 = BitVec.ofInt 32 (p / 2 ^ 32) := by
  apply BitVec.eq_of_toNat_eq
  rw [BitVec.extractLsb, BitVec.extractLsb'_toNat, BitVec.toNat_ofInt, BitVec.toNat_ofInt,
    Nat.shiftRight_eq_div_pow]
  omega

/-- `S_MUL` computes the product. -/
theorem mul_value {op : MdOp} (h : op.isMul = true) (a b : Word) :
    (if op = .mul then (prod op a b).extractLsb 31 0 else (prod op a b).extractLsb 63 32) =
      Mext.value op a b := by
  cases op with
  | mul =>
    show (a.signExtend 64 * b.signExtend 64).extractLsb 31 0 = _
    rw [signExtend_eq_ofInt, signExtend_eq_ofInt, ← BitVec.ofInt_mul, low_ofInt]
    rfl
  | mulh =>
    show (a.signExtend 64 * b.signExtend 64).extractLsb 63 32 = _
    rw [signExtend_eq_ofInt, signExtend_eq_ofInt, ← BitVec.ofInt_mul, high_ofInt]
    rfl
  | mulhsu =>
    show (a.signExtend 64 * b.setWidth 64).extractLsb 63 32 = _
    rw [signExtend_eq_ofInt, setWidth_eq_ofInt, ← BitVec.ofInt_mul, high_ofInt]
    rfl
  | mulhu =>
    show (a.setWidth 64 * b.setWidth 64).extractLsb 63 32 = _
    rw [setWidth_eq_ofInt, setWidth_eq_ofInt, ← BitVec.ofInt_mul, high_ofInt]
    unfold Mext.value
    rw [← BitVec.ofInt_natCast]
    push_cast
    rfl
  | div | divu | rem | remu => exact absurd h (by decide)

/-! ## Quotients -/

/-- The magnitude of a signed operand is its negation when it is negative. -/
theorem magnitude_signed {op : MdOp} (h : op.isSignedDiv = true) (v : Word) :
    magnitude op v = if v.msb then -v else v := by
  unfold magnitude
  rw [h, Bool.true_and, BitVec.neg_eq_not_add]

theorem magnitude_unsigned {op : MdOp} (h : op.isSignedDiv = false) (v : Word) :
    magnitude op v = v := by
  unfold magnitude
  rw [h]
  rfl

/-- Truncated division from the division of the magnitudes. -/
theorem div_value {a b : Word} (hb : b ≠ 0#32) :
    (if (a.msb ^^ b.msb) then ~~~(magnitude .div a / magnitude .div b) + 1#32
      else magnitude .div a / magnitude .div b) = Mext.value .div a b := by
  have hs : a.sdiv b = Mext.value .div a b := by
    show _ = if b = 0#32 then 0xFFFFFFFF#32 else BitVec.ofInt 32 (a.toInt.tdiv b.toInt)
    rw [if_neg hb]
    apply BitVec.eq_of_toInt_eq
    rw [BitVec.toInt_sdiv, BitVec.toInt_ofInt]
  rw [← hs, BitVec.sdiv_eq, magnitude_signed rfl, magnitude_signed rfl, ← BitVec.neg_eq_not_add]
  cases a.msb <;> cases b.msb <;> rfl

/-- The remainder takes the sign of the dividend. -/
theorem rem_value {a b : Word} (hb : b ≠ 0#32) :
    (if a.msb then ~~~(magnitude .rem a % magnitude .rem b) + 1#32
      else magnitude .rem a % magnitude .rem b) = Mext.value .rem a b := by
  have hs : a.srem b = Mext.value .rem a b := by
    show _ = if b = 0#32 then a else BitVec.ofInt 32 (a.toInt.tmod b.toInt)
    rw [if_neg hb, ← BitVec.toInt_srem, BitVec.ofInt_toInt]
  rw [← hs, BitVec.srem_eq, magnitude_signed rfl, magnitude_signed rfl, ← BitVec.neg_eq_not_add]
  cases a.msb <;> cases b.msb <;> rfl

/-- The magnitude of a divisor that is not zero is not zero. -/
theorem magnitude_pos (op : MdOp) {b : Word} (hb : b ≠ 0#32) : 0 < (magnitude op b).toNat := by
  rw [Nat.pos_iff_ne_zero]
  intro h
  have hz : magnitude op b = 0#32 := BitVec.eq_of_toNat_eq (by simpa using h)
  unfold magnitude at hz
  split at hz
  · rw [← BitVec.neg_eq_not_add] at hz
    exact hb (by simpa using hz)
  · exact hb hz

/-! ## The invariant -/

/-- The registers a division was set up with. -/
structure Loaded (m : Muldiv) : Prop where
  notMul : m.opQ.isMul = false
  divByZero : m.divByZero = (m.bQ == 0#32)
  divOverflow : m.divOverflow =
    (m.opQ.isSignedDiv && m.aQ == 0x80000000#32 && m.bQ == 0xFFFFFFFF#32)
  dividendRaw : m.dividendRaw = m.aQ
  dividendMag : m.dividendMag = magnitude m.opQ m.aQ
  divisorMag : m.divisorMag = magnitude m.opQ m.bQ
  negQuot : m.negQuot = (m.opQ == .div && (m.aQ.msb ^^ m.bQ.msb))
  negRem : m.negRem = (m.opQ == .rem && m.aQ.msb)

/-- What the unit holds in each of its states: during a division, quotient and
remainder of the bits above `bitIdx`; in the cycle of `done`, the result. -/
structure Inv (m : Muldiv) : Prop where
  done : m.done = true → m.state = .idle ∧ m.result = Mext.value m.opQ m.aQ m.bQ
  mul : m.state = .mul → m.opQ.isMul = true
  loaded : m.state = .div ∨ m.state = .fin → m.Loaded
  div : m.state = .div → m.bQ ≠ 0#32 →
    DivMod (m.dividendMag.toNat / 2 ^ (m.bitIdx.toNat + 1)) m.divisorMag.toNat
      m.quotientQ.toNat m.remQ.toNat
  fin : m.state = .fin → m.bQ ≠ 0#32 ∧
    DivMod m.dividendMag.toNat m.divisorMag.toNat m.quotientQ.toNat m.remQ.toNat

theorem Inv.reset (m : Muldiv) : m.reset.Inv where
  done h := absurd h Bool.false_ne_true
  mul h := absurd h (by simp [Muldiv.reset])
  loaded h := absurd h (by simp [Muldiv.reset])
  div h := absurd h (by simp [Muldiv.reset])
  fin h := absurd h (by simp [Muldiv.reset])

theorem Inv.accept (m : Muldiv) (op : MdOp) (a b : Word) : (m.accept op a b).Inv := by
  unfold Muldiv.accept
  split
  case isTrue hmul =>
    exact ⟨fun h => absurd h Bool.false_ne_true, fun _ => hmul, by simp, by simp, by simp⟩
  case isFalse hdiv =>
    refine ⟨fun h => absurd h Bool.false_ne_true, by simp, fun _ => ?_, fun _ _ => ?_, by simp⟩
    · exact ⟨by simpa using hdiv, rfl, rfl, rfl, rfl, rfl, rfl, rfl⟩
    · -- no bit of the dividend has been read
      have hzero : (magnitude op a).toNat / 2 ^ ((31#5).toNat + 1) = 0 :=
        Nat.div_eq_of_lt (magnitude op a).isLt
      show DivMod ((magnitude op a).toNat / 2 ^ ((31#5).toNat + 1)) _ 0 0
      rw [hzero]
      exact DivMod.zero _

theorem Inv.stepMul {m : Muldiv} (h : m.Inv) (hs : m.state = .mul) : m.stepMul.Inv := by
  refine ⟨fun _ => ⟨rfl, ?_⟩, ?_, ?_, ?_, ?_⟩
  · exact mul_value (h.mul hs) m.aQ m.bQ
  all_goals simp [Muldiv.stepMul]

/-- The partial remainder shifted by one bit of the dividend. -/
theorem remShifted_toNat (m : Muldiv) (hr : m.remQ.toNat < 2 ^ 32) :
    m.remShifted.toNat =
      2 * m.remQ.toNat + (m.dividendMag.toNat.testBit m.bitIdx.toNat).toNat := by
  unfold remShifted remLo
  rw [BitVec.toNat_append, BitVec.toNat_ofBool, Nat.shiftLeft_eq, BitVec.getLsbD,
    BitVec.extractLsb, BitVec.extractLsb'_toNat, Nat.shiftRight_zero]
  have hb : (m.dividendMag.toNat.testBit m.bitIdx.toNat).toNat < 2 := Bool.toNat_lt _
  rw [Nat.or_comm, ← Nat.mul_comm (2 ^ 1), Nat.or_comm, ← Nat.two_pow_add_eq_or_of_lt hb]
  omega

theorem zero_append_toNat (v : Word) : (0#1 ++ v : BitVec 33).toNat = v.toNat := by
  rw [BitVec.toNat_append]
  simp

theorem shl_toNat {q : Word} (h : q.toNat < 2 ^ 31) : (q <<< 1).toNat = 2 * q.toNat := by
  rw [BitVec.toNat_shiftLeft, Nat.shiftLeft_eq]
  omega

theorem shl_or_one_toNat {q : Word} (h : q.toNat < 2 ^ 31) :
    ((q <<< 1) ||| 1#32).toNat = 2 * q.toNat + 1 := by
  rw [BitVec.toNat_or, shl_toNat h]
  have hone : (1#32).toNat = 1 := rfl
  rw [hone, ← Nat.pow_one 2, ← Nat.two_pow_add_eq_or_of_lt (by omega)]

/-- **One shift-subtract step reads one more bit of the dividend.** -/
theorem shiftSubtract_divMod {m : Muldiv} (hd : 0 < m.divisorMag.toNat)
    (h : DivMod (m.dividendMag.toNat / 2 ^ (m.bitIdx.toNat + 1)) m.divisorMag.toNat
      m.quotientQ.toNat m.remQ.toNat) :
    DivMod (m.dividendMag.toNat / 2 ^ m.bitIdx.toNat) m.divisorMag.toNat
      m.shiftSubtract.quotientQ.toNat m.shiftSubtract.remQ.toNat := by
  have hdlt := m.divisorMag.isLt
  have hq : m.quotientQ.toNat < 2 ^ 31 := by
    have hle := h.quot_le
    have hD := m.dividendMag.isLt
    have hpow : 2 ^ 1 ≤ 2 ^ (m.bitIdx.toNat + 1) := Nat.pow_le_pow_right (by omega) (by omega)
    have hdiv := Nat.div_le_div_left hpow (by omega) (a := m.dividendMag.toNat)
    omega
  have hr : m.remQ.toNat < 2 ^ 32 := Nat.lt_trans (h.rem_lt hd) hdlt
  have hrs := remShifted_toNat m hr
  have hz := zero_append_toNat m.divisorMag
  have hstep := h.shift hd (Bool.toNat_lt (m.dividendMag.toNat.testBit m.bitIdx.toNat))
  rw [← shiftRight_eq, ← hrs] at hstep
  have hfits : m.fits = decide (m.divisorMag.toNat ≤ m.remShifted.toNat) := by
    unfold fits
    rw [BitVec.ule_eq_decide, hz]
  unfold shiftSubtract
  rw [hfits]
  by_cases hle : m.divisorMag.toNat ≤ m.remShifted.toNat
  · have hsub : (m.remShifted - (0#1 ++ m.divisorMag)).toNat =
        m.remShifted.toNat - m.divisorMag.toNat := by
      rw [BitVec.toNat_sub_of_le (by rw [BitVec.le_def, hz]; exact hle), hz]
    rw [if_pos hle] at hstep
    rw [decide_eq_true hle, if_pos rfl, if_pos rfl, shl_or_one_toNat hq, hsub]
    exact hstep
  · rw [if_neg hle] at hstep
    rw [decide_eq_false hle, if_neg Bool.false_ne_true, if_neg Bool.false_ne_true, shl_toNat hq]
    exact hstep

/-- A division by zero is answered at once. -/
theorem divByZero_value {op : MdOp} (h : op.isMul = false) (a : Word) :
    (if op = .div ∨ op = .divu then 0xFFFFFFFF#32 else a) = Mext.value op a 0#32 := by
  cases op with
  | mul | mulh | mulhsu | mulhu => exact absurd h (by decide)
  | div | divu | rem | remu => simp [Mext.value]

/-- So is the one signed division that overflows. -/
theorem divOverflow_value {op : MdOp} (h : op.isSignedDiv = true) :
    (if op = .div then 0x80000000#32 else 0#32) = Mext.value op 0x80000000#32 0xFFFFFFFF#32 := by
  cases op with
  | div | rem => decide
  | mul | mulh | mulhsu | mulhu | divu | remu => exact absurd h (by decide)

theorem Inv.stepDiv {m : Muldiv} (h : m.Inv) (hs : m.state = .div) : m.stepDiv.Inv := by
  have hl := h.loaded (Or.inl hs)
  unfold Muldiv.stepDiv
  by_cases hzero : m.divByZero = true
  · rw [if_pos hzero]
    refine ⟨fun _ => ⟨rfl, ?_⟩, by simp, by simp, by simp, by simp⟩
    have hb : m.bQ = 0#32 := by
      rw [hl.divByZero] at hzero
      exact eq_of_beq hzero
    show (if m.opQ = .div ∨ m.opQ = .divu then 0xFFFFFFFF#32 else m.dividendRaw) =
      Mext.value m.opQ m.aQ m.bQ
    rw [hl.dividendRaw, hb]
    exact divByZero_value hl.notMul m.aQ
  rw [if_neg hzero]
  by_cases hover : m.divOverflow = true
  · rw [if_pos hover]
    refine ⟨fun _ => ⟨rfl, ?_⟩, by simp, by simp, by simp, by simp⟩
    rw [hl.divOverflow] at hover
    simp only [Bool.and_eq_true, beq_iff_eq] at hover
    show (if m.opQ = .div then 0x80000000#32 else 0#32) = Mext.value m.opQ m.aQ m.bQ
    rw [hover.1.2, hover.2]
    exact divOverflow_value hover.1.1
  · rw [if_neg hover]
    have hb0 : m.bQ ≠ 0#32 := by
      intro hb0
      rw [hl.divByZero, hb0] at hzero
      exact hzero rfl
    have hpos : 0 < m.divisorMag.toNat := by
      rw [hl.divisorMag]
      exact magnitude_pos _ hb0
    have hdm := shiftSubtract_divMod hpos (h.div hs hb0)
    have hload : m.shiftSubtract.Loaded := ⟨hl.notMul, hl.divByZero, hl.divOverflow,
      hl.dividendRaw, hl.dividendMag, hl.divisorMag, hl.negQuot, hl.negRem⟩
    by_cases hidx : m.bitIdx = 0#5
    · -- that was the last bit
      have hst : m.shiftSubtract.state = .fin := if_pos hidx
      rw [hidx, show (0#5).toNat = 0 from rfl, Nat.pow_zero, Nat.div_one] at hdm
      refine ⟨fun hd => absurd hd Bool.false_ne_true, fun hm => ?_, fun _ => hload, fun hm => ?_,
        fun _ => ⟨hb0, hdm⟩⟩
      · exact absurd (hst.symm.trans hm) (by decide)
      · exact absurd (hst.symm.trans hm) (by decide)
    · have hst : m.shiftSubtract.state = .div := (if_neg hidx).trans hs
      have hnext : m.shiftSubtract.bitIdx.toNat + 1 = m.bitIdx.toNat := by
        have hne : m.bitIdx.toNat ≠ 0 := fun h0 => hidx (BitVec.eq_of_toNat_eq (by simpa using h0))
        have hone : (1#5).toNat = 1 := rfl
        show (if m.bitIdx = 0#5 then m.bitIdx else m.bitIdx - 1#5).toNat + 1 = _
        rw [if_neg hidx, BitVec.toNat_sub_of_le (by rw [BitVec.le_def, hone]; omega), hone]
        omega
      refine ⟨fun hd => absurd hd Bool.false_ne_true, fun hm => ?_, fun _ => hload, fun _ _ => ?_,
        fun hm => ?_⟩
      · exact absurd (hst.symm.trans hm) (by decide)
      · rw [hnext]
        exact hdm
      · exact absurd (hst.symm.trans hm) (by decide)

theorem Inv.stepFin {m : Muldiv} (h : m.Inv) (hs : m.state = .fin) : m.stepFin.Inv := by
  have hl := h.loaded (Or.inr hs)
  obtain ⟨hb0, hdm⟩ := h.fin hs
  have hpos : 0 < m.divisorMag.toNat := by
    rw [hl.divisorMag]
    exact magnitude_pos _ hb0
  have hquot : m.quotientQ = magnitude m.opQ m.aQ / magnitude m.opQ m.bQ := by
    apply BitVec.eq_of_toNat_eq
    rw [hdm.quot, BitVec.toNat_udiv, ← hl.dividendMag, ← hl.divisorMag]
  have hrem : m.remLo = magnitude m.opQ m.aQ % magnitude m.opQ m.bQ := by
    apply BitVec.eq_of_toNat_eq
    have hlt := Nat.lt_trans (hdm.rem_lt hpos) m.divisorMag.isLt
    unfold remLo
    rw [BitVec.extractLsb, BitVec.extractLsb'_toNat, Nat.shiftRight_zero, BitVec.toNat_umod,
      ← hl.dividendMag, ← hl.divisorMag, ← hdm.rem]
    exact Nat.mod_eq_of_lt hlt
  refine ⟨fun _ => ⟨rfl, ?_⟩, ?_, ?_, ?_, ?_⟩
  · show m.stepFin.result = Mext.value m.opQ m.aQ m.bQ
    unfold Muldiv.stepFin
    rw [hquot, hrem, hl.negQuot, hl.negRem]
    have hnm := hl.notMul
    cases hop : m.opQ with
    | mul | mulh | mulhsu | mulhu => rw [hop] at hnm; exact absurd hnm (by decide)
    | div => exact div_value hb0
    | rem => exact rem_value hb0
    | divu =>
      show magnitude .divu m.aQ / magnitude .divu m.bQ = if m.bQ = 0#32 then _ else _
      rw [if_neg hb0, magnitude_unsigned rfl, magnitude_unsigned rfl]
      apply BitVec.eq_of_toNat_eq
      rw [BitVec.toNat_udiv, BitVec.toNat_ofNat]
      exact (Nat.mod_eq_of_lt (Nat.lt_of_le_of_lt (Nat.div_le_self _ _) m.aQ.isLt)).symm
    | remu =>
      show magnitude .remu m.aQ % magnitude .remu m.bQ = if m.bQ = 0#32 then _ else _
      rw [if_neg hb0, magnitude_unsigned rfl, magnitude_unsigned rfl]
      apply BitVec.eq_of_toNat_eq
      rw [BitVec.toNat_umod, BitVec.toNat_ofNat]
      exact (Nat.mod_eq_of_lt (Nat.lt_of_le_of_lt (Nat.mod_le _ _) m.aQ.isLt)).symm
  all_goals simp [Muldiv.stepFin]

/-- **Every clock of the unit keeps the invariant**, whatever its inputs. -/
theorem Inv.step {m : Muldiv} (h : m.Inv) (start : Bool) (op : MdOp) (a b : Word) :
    (m.step start op a b).Inv := by
  unfold Muldiv.step
  cases hs : m.state with
  | idle =>
    dsimp only
    split
    · exact Inv.accept m op a b
    · refine ⟨fun hd => absurd hd Bool.false_ne_true, ?_, ?_, ?_, ?_⟩ <;> simp
  | mul => exact h.stepMul hs
  | div => exact h.stepDiv hs
  | fin => exact h.stepFin hs

end Muldiv

end ThreeSippEs
