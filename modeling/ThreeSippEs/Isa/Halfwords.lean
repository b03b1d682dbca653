import ThreeSippEs.Isa.Expander

/-!
# Halfwords and instructions

The expander reads every compressed instruction out of its halfword, C.SLLI by zero
apart, and reads nothing else.

- `citype_fields` and so on: the fields of a halfword of a format;
- `citype_of` and so on: the format of a halfword with those fields;
- `read_encode`: every instruction is read;
- `encode_read`: what is read is an instruction.
-/

namespace ThreeSippEs.Isa

open Rvc

/-! ## The fields of the formats -/

section Fields

variable {h : BitVec 16} {op : BitVec 2}

/-- C.LI, C.ADDI, C.LWSP and so on: a register and six bits of an immediate. -/
theorem citype_fields {f3 : BitVec 3} {imm : BitVec 6} {rd : BitVec 5}
    (hh : citype f3 imm rd op = h) :
    h.extractLsb 1 0 = op ∧
    funct3 h = f3 ∧
    imm6 h = imm ∧
    rdFull h = rd := by
  subst hh
  unfold citype funct3 imm6 rdFull
  refine ⟨BitVec.extractLsb'_append_eq_right, ?_, ?_, ?_⟩ <;>
  · refine BitVec.eq_of_getLsbD_eq fun i hi => ?_
    simp only [BitVec.getLsbD_extractLsb, BitVec.getLsbD_append]
    grind

/-- C.SWSP: six bits of an offset and the register stored. -/
theorem csstype_fields {f3 : BitVec 3} {imm : BitVec 6} {rs2 : BitVec 5}
    (hh : csstype f3 imm rs2 op = h) :
    h.extractLsb 1 0 = op ∧
    funct3 h = f3 ∧
    h.extractLsb 12 7 = imm ∧
    rs2Full h = rs2 := by
  subst hh
  unfold csstype funct3 rs2Full
  refine ⟨BitVec.extractLsb'_append_eq_right, ?_, ?_, ?_⟩ <;>
  · refine BitVec.eq_of_getLsbD_eq fun i hi => ?_
    simp only [BitVec.getLsbD_extractLsb, BitVec.getLsbD_append]
    grind

/-- C.ADDI4SPN: eight bits of an immediate and one of the eight registers. -/
theorem ciwtype_fields {f3 : BitVec 3} {imm : BitVec 8} {rd : BitVec 3}
    (hh : ciwtype f3 imm rd op = h) :
    h.extractLsb 1 0 = op ∧
    funct3 h = f3 ∧
    h.extractLsb 12 5 = imm ∧
    h.extractLsb 4 2 = rd := by
  subst hh
  unfold ciwtype funct3
  refine ⟨BitVec.extractLsb'_append_eq_right, ?_, ?_, ?_⟩ <;>
  · refine BitVec.eq_of_getLsbD_eq fun i hi => ?_
    simp only [BitVec.getLsbD_extractLsb, BitVec.getLsbD_append]
    grind

/-- Loads and stores of the eight registers, with the offset in two parts. -/
theorem cltype_fields {f3 immHi rs1 : BitVec 3} {immLo : BitVec 2} {r : BitVec 3}
    (hh : cltype f3 immHi rs1 immLo r op = h) :
    h.extractLsb 1 0 = op ∧
    funct3 h = f3 ∧
    h.extractLsb 12 10 = immHi ∧
    h.extractLsb 9 7 = rs1 ∧
    h.extractLsb 6 5 = immLo ∧
    h.extractLsb 4 2 = r := by
  subst hh
  unfold cltype funct3
  refine ⟨BitVec.extractLsb'_append_eq_right, ?_, ?_, ?_, ?_, ?_⟩ <;>
  · refine BitVec.eq_of_getLsbD_eq fun i hi => ?_
    simp only [BitVec.getLsbD_extractLsb, BitVec.getLsbD_append]
    grind

/-- Two of the eight registers; `funct6` is cut at bit 12, where the expander looks. -/
theorem catype_fields {f6 : BitVec 6} {rd : BitVec 3} {f2 : BitVec 2} {rs2 : BitVec 3}
    (hh : catype f6 rd f2 rs2 op = h) :
    h.extractLsb 1 0 = op ∧
    funct3 h = f6.extractLsb 5 3 ∧
    h.extractLsb 12 12 = f6.extractLsb 2 2 ∧
    h.extractLsb 11 10 = f6.extractLsb 1 0 ∧
    h.extractLsb 9 7 = rd ∧
    h.extractLsb 6 5 = f2 ∧
    h.extractLsb 4 2 = rs2 := by
  subst hh
  unfold catype funct3
  refine ⟨BitVec.extractLsb'_append_eq_right, ?_, ?_, ?_, ?_, ?_, ?_⟩ <;>
  · refine BitVec.eq_of_getLsbD_eq fun i hi => ?_
    simp only [BitVec.getLsbD_extractLsb, BitVec.getLsbD_append]
    grind

/-- C.SRLI, C.SRAI and C.ANDI: one of the eight registers and an immediate. -/
theorem cbitype_fields {f3 : BitVec 3} {imm : BitVec 6} {f2 : BitVec 2} {rd : BitVec 3}
    (hh : cbitype f3 imm f2 rd op = h) :
    h.extractLsb 1 0 = op ∧
    funct3 h = f3 ∧
    imm6 h = imm ∧
    h.extractLsb 11 10 = f2 ∧
    h.extractLsb 9 7 = rd := by
  subst hh
  unfold cbitype cbtype funct3 imm6
  refine ⟨BitVec.extractLsb'_append_eq_right, ?_, ?_, ?_, ?_⟩ <;>
  · refine BitVec.eq_of_getLsbD_eq fun i hi => ?_
    simp only [BitVec.getLsbD_extractLsb, BitVec.getLsbD_append]
    grind

/-- Branches: the offset is scattered over both immediate fields. -/
theorem cbtype_fields {f3 rs1 : BitVec 3} {off : BitVec 8}
    (hh : cbtype f3 (cbOffset off).1 rs1 (cbOffset off).2 op = h) :
    h.extractLsb 1 0 = op ∧
    funct3 h = f3 ∧
    bOff h = off ∧
    h.extractLsb 9 7 = rs1 := by
  subst hh
  unfold cbtype cbOffset funct3 bOff
  refine ⟨BitVec.extractLsb'_append_eq_right, ?_, ?_, ?_⟩ <;>
  · refine BitVec.eq_of_getLsbD_eq fun i hi => ?_
    simp only [BitVec.getLsbD_extractLsb, BitVec.getLsbD_append]
    grind

theorem cjtype_fields {f3 : BitVec 3} {imm : BitVec 11}
    (hh : cjtype f3 imm op = h) :
    h.extractLsb 1 0 = op ∧
    funct3 h = f3 ∧
    jOff h = imm := by
  subst hh
  unfold cjtype funct3 jOff
  refine ⟨BitVec.extractLsb'_append_eq_right, ?_, ?_⟩ <;>
  · refine BitVec.eq_of_getLsbD_eq fun i hi => ?_
    simp only [BitVec.getLsbD_extractLsb, BitVec.getLsbD_append]
    grind

/-- Two registers; `funct4` is read as `funct3` and bit 12. -/
theorem crtype_fields {f4 : BitVec 4} {rd rs2 : BitVec 5} (hh : crtype f4 rd rs2 op = h) :
    h.extractLsb 1 0 = op ∧ funct3 h = f4.extractLsb 3 1 ∧ h.getLsbD 12 = f4.getLsbD 0 ∧
    rdFull h = rd ∧ rs2Full h = rs2 := by
  subst hh
  unfold crtype funct3 rdFull rs2Full
  refine ⟨BitVec.extractLsb'_append_eq_right, ?_, ?_, ?_, ?_⟩
  · refine BitVec.eq_of_getLsbD_eq fun i hi => ?_
    simp only [BitVec.getLsbD_extractLsb, BitVec.getLsbD_append]
    grind
  · simp only [BitVec.getLsbD_append]
    grind
  · refine BitVec.eq_of_getLsbD_eq fun i hi => ?_
    simp only [BitVec.getLsbD_extractLsb, BitVec.getLsbD_append]
    grind
  · refine BitVec.eq_of_getLsbD_eq fun i hi => ?_
    simp only [BitVec.getLsbD_extractLsb, BitVec.getLsbD_append]
    grind

/-- The word offset of C.LW and C.SW, in the order of the expander. -/
theorem lwOff_cltype {f3 rs1 : BitVec 3} {off : BitVec 5} {r : BitVec 3}
    (hh : cltype f3 (off.extractLsb 3 1) rs1 (off.extractLsb 0 0 ++ off.extractLsb 4 4) r op = h) :
    (lwOff h).extractLsb 6 2 = off := by
  subst hh
  refine BitVec.eq_of_getLsbD_eq fun i hi => ?_
  simp only [lwOff, cltype, BitVec.getLsbD_extractLsb, BitVec.getLsbD_append]
  grind

/-- The immediate of C.ADDI4SPN, a multiple of four. -/
theorem nzuimm_ciwtype {f3 : BitVec 3} {imm : BitVec 8} {rd : BitVec 3}
    (hh : ciwtype f3 (imm.extractLsb 3 2 ++ imm.extractLsb 7 4 ++ imm.extractLsb 0 0 ++
      imm.extractLsb 1 1) rd op = h) : nzuimm h = imm ++ 0#2 := by
  subst hh
  refine BitVec.eq_of_getLsbD_eq fun i hi => ?_
  simp only [nzuimm, ciwtype, BitVec.getLsbD_extractLsb, BitVec.getLsbD_append]
  grind

/-- The immediate of C.ADDI16SP, a multiple of sixteen. -/
theorem nzimm16_citype {f3 : BitVec 3} {imm : BitVec 6} {rd : BitVec 5}
    (hh : citype f3 (imm.extractLsb 5 5 ++ imm.extractLsb 0 0 ++ imm.extractLsb 2 2 ++
      imm.extractLsb 4 3 ++ imm.extractLsb 1 1) rd op = h) : nzimm16 h = imm ++ 0#4 := by
  subst hh
  refine BitVec.eq_of_getLsbD_eq fun i hi => ?_
  simp only [nzimm16, citype, BitVec.getLsbD_extractLsb, BitVec.getLsbD_append]
  grind

theorem lwspOff_citype {f3 : BitVec 3} {off : BitVec 6} {rd : BitVec 5}
    (hh : citype f3 (off.extractLsb 3 3 ++ off.extractLsb 2 0 ++ off.extractLsb 5 4) rd op = h) :
    lwspOff h = off := by
  subst hh
  refine BitVec.eq_of_getLsbD_eq fun i hi => ?_
  simp only [lwspOff, citype, BitVec.getLsbD_extractLsb, BitVec.getLsbD_append]
  grind

theorem swspOff_csstype {f3 : BitVec 3} {off : BitVec 6} {rs2 : BitVec 5}
    (hh : csstype f3 (off.extractLsb 3 0 ++ off.extractLsb 5 4) rs2 op = h) : swspOff h = off := by
  subst hh
  refine BitVec.eq_of_getLsbD_eq fun i hi => ?_
  simp only [swspOff, csstype, BitVec.getLsbD_extractLsb, BitVec.getLsbD_append]
  grind

/-- Bits 5 and 6 are read one by one. -/
theorem bits_of_field {a b : BitVec 1} (hab : h.extractLsb 6 5 = a ++ b) :
    h.extractLsb 6 6 = a ∧ h.extractLsb 5 5 = b ∧ h.getLsbD 6 = a.getLsbD 0 := by
  have h6 : h.extractLsb 6 6 = (h.extractLsb 6 5).extractLsb 1 1 := by
    refine BitVec.eq_of_getLsbD_eq fun i hi => ?_
    simp only [BitVec.getLsbD_extractLsb]
    grind
  have h5 : h.extractLsb 5 5 = (h.extractLsb 6 5).extractLsb 0 0 := by
    refine BitVec.eq_of_getLsbD_eq fun i hi => ?_
    simp only [BitVec.getLsbD_extractLsb]
    grind
  have hbit : h.getLsbD 6 = (h.extractLsb 6 5).getLsbD 1 := by
    simp only [BitVec.getLsbD_extractLsb]
    grind
  have hsplit : ∀ a b : BitVec 1, (a ++ b).extractLsb 1 1 = a ∧ (a ++ b).extractLsb 0 0 = b ∧
      (a ++ b).getLsbD 1 = a.getLsbD 0 := by decide
  rw [h6, h5, hbit, hab]
  exact hsplit a b

end Fields

/-! ## Every instruction is read -/

/-- C.SLLI by zero -/
def CInstr.ShiftZero : CInstr → Prop
  | .slli _ shamt => shamt = 0#5
  | _ => False

theorem append_eq_zero {n m : Nat} {x : BitVec n} (h : x ++ 0#m = 0#(n + m)) : x = 0#n := by
  refine BitVec.eq_of_getLsbD_eq fun i hi => ?_
  have hbit := congrArg (BitVec.getLsbD · (m + i)) h
  simpa [BitVec.getLsbD_append] using hbit

/-- A byte offset is stored back to front. -/
theorem swap_bits (off : BitVec 2) : off.extractLsb 1 1 ++ off.extractLsb 0 0 = off := by
  decide +revert

/-- A shift amount has no sixth bit. -/
theorem append_shamt (shamt : BitVec 5) :
    (0b0#1 ++ shamt).getLsbD 5 = false ∧ (0b0#1 ++ shamt).extractLsb 4 0 = shamt ∧
    (0b0#1 ++ shamt = 0#6 ↔ shamt = 0#5) := by
  decide +revert

/-- **Every instruction is read**, except C.SLLI by zero. -/
theorem read_encode {c : CInstr} {h : BitVec 16} (hh : c.encode = h) (hc : c.Valid)
    (hs : ¬c.ShiftZero) : read h = some c := by
  cases c with
  | addi4spn rd imm =>
    obtain ⟨hq, hf3, -, hrd⟩ := ciwtype_fields hh
    have hne : imm ++ 0#2 ≠ 0#10 := fun h => hc (append_eq_zero h)
    have himm : (imm ++ 0#2).extractLsb 9 2 = imm := BitVec.extractLsb'_append_eq_left
    simp [read, readQuadrant0, hq, hf3, nzuimm_ciwtype hh, hne, himm, hrd]
  | lw rd rs1 off =>
    obtain ⟨hq, hf3, -, hrs1, -, hrd⟩ := cltype_fields hh
    simp [read, readQuadrant0, hq, hf3, hrs1, lwOff_cltype hh, hrd]
  | sw rs2 rs1 off =>
    obtain ⟨hq, hf3, -, hrs1, -, hrs2⟩ := cltype_fields hh
    simp [read, readQuadrant0, hq, hf3, hrs1, lwOff_cltype hh, hrs2]
  | lbu rd rs1 off =>
    obtain ⟨hq, hf3, hf, hrs1, hoff, hrd⟩ := cltype_fields hh
    obtain ⟨h6, h5, -⟩ := bits_of_field hoff
    simp [read, readQuadrant0, readZcbMem, hq, hf3, hf, hrs1, h6, h5, hrd]
    exact swap_bits off
  | lhu rd rs1 off =>
    obtain ⟨hq, hf3, hf, hrs1, hoff, hrd⟩ := cltype_fields hh
    obtain ⟨-, h5, h6⟩ := bits_of_field hoff
    simp [read, readQuadrant0, readZcbMem, hq, hf3, hf, hrs1, h6, h5, hrd,
      -BitVec.getLsbD_eq_getElem]
  | lh rd rs1 off =>
    obtain ⟨hq, hf3, hf, hrs1, hoff, hrd⟩ := cltype_fields hh
    obtain ⟨-, h5, h6⟩ := bits_of_field hoff
    simp [read, readQuadrant0, readZcbMem, hq, hf3, hf, hrs1, h6, h5, hrd,
      -BitVec.getLsbD_eq_getElem]
  | sb rs2 rs1 off =>
    obtain ⟨hq, hf3, hf, hrs1, hoff, hrs2⟩ := cltype_fields hh
    obtain ⟨h6, h5, -⟩ := bits_of_field hoff
    simp [read, readQuadrant0, readZcbMem, hq, hf3, hf, hrs1, h6, h5, hrs2]
    exact swap_bits off
  | sh rs2 rs1 off =>
    obtain ⟨hq, hf3, hf, hrs1, hoff, hrs2⟩ := cltype_fields hh
    obtain ⟨-, h5, h6⟩ := bits_of_field hoff
    simp [read, readQuadrant0, readZcbMem, hq, hf3, hf, hrs1, h6, h5, hrs2,
      -BitVec.getLsbD_eq_getElem]
  | addi rd imm =>
    obtain ⟨hq, hf3, himm, hrd⟩ := citype_fields hh
    simp [read, readQuadrant1, hq, hf3, himm, hrd]
  | jal off =>
    obtain ⟨hq, hf3, hoff⟩ := cjtype_fields hh
    simp [read, readQuadrant1, hq, hf3, hoff]
  | li rd imm =>
    obtain ⟨hq, hf3, himm, hrd⟩ := citype_fields hh
    simp [read, readQuadrant1, hq, hf3, himm, hrd]
  | addi16sp imm =>
    obtain ⟨hq, hf3, -, hrd⟩ := citype_fields hh
    have hne : imm ++ 0#4 ≠ 0#10 := fun h => hc (append_eq_zero h)
    have himm : (imm ++ 0#4).extractLsb 9 4 = imm := BitVec.extractLsb'_append_eq_left
    simp [read, readQuadrant1, readLui16, hq, hf3, nzimm16_citype hh, hne, himm, hrd]
  | lui rd imm =>
    obtain ⟨hq, hf3, himm, hrd⟩ := citype_fields hh
    obtain ⟨hrd2, hne⟩ := hc
    simp [read, readQuadrant1, readLui16, hq, hf3, himm, hrd, hrd2, hne]
  | srli rd shamt =>
    obtain ⟨hq, hf3, himm, hf, hrd⟩ := cbitype_fields hh
    obtain ⟨h5, hshamt, -⟩ := append_shamt shamt
    simp [read, readQuadrant1, readArith, hq, hf3, himm, hf, hrd, h5, hshamt,
      -BitVec.getLsbD_eq_getElem]
  | srai rd shamt =>
    obtain ⟨hq, hf3, himm, hf, hrd⟩ := cbitype_fields hh
    obtain ⟨h5, hshamt, -⟩ := append_shamt shamt
    simp [read, readQuadrant1, readArith, hq, hf3, himm, hf, hrd, h5, hshamt,
      -BitVec.getLsbD_eq_getElem]
  | andi rd imm =>
    obtain ⟨hq, hf3, himm, hf, hrd⟩ := cbitype_fields hh
    simp [read, readQuadrant1, readArith, hq, hf3, himm, hf, hrd]
  | arith o rd rs2 =>
    obtain ⟨hq, hf3, h12, hf, hrd, hf2, hrs2⟩ := catype_fields hh
    cases o <;>
    simp [read, readQuadrant1, readArith, readArithReg, hq, hf3, h12, hf, hf2, hrd, hrs2,
      CArith.code]
  | unary o rd =>
    obtain ⟨hq, hf3, h12, hf, hrd, hf2, hrs2⟩ := catype_fields hh
    cases o <;>
    simp [read, readQuadrant1, readArith, readArithReg, readZcbUnary, hq, hf3, h12, hf, hf2, hrd,
      hrs2, CUnary.code]
  | j off =>
    obtain ⟨hq, hf3, hoff⟩ := cjtype_fields hh
    simp [read, readQuadrant1, hq, hf3, hoff]
  | beqz rs1 off =>
    obtain ⟨hq, hf3, hoff, hrs1⟩ := cbtype_fields hh
    simp [read, readQuadrant1, hq, hf3, hoff, hrs1]
  | bnez rs1 off =>
    obtain ⟨hq, hf3, hoff, hrs1⟩ := cbtype_fields hh
    simp [read, readQuadrant1, hq, hf3, hoff, hrs1]
  | slli rd shamt =>
    obtain ⟨hq, hf3, himm, hrd⟩ := citype_fields hh
    obtain ⟨h5, hshamt, hzero⟩ := append_shamt shamt
    have hne : shamt ≠ 0#5 := hs
    simp [read, readQuadrant2, hq, hf3, himm, hrd, h5, hshamt, hzero, hne,
      -BitVec.getLsbD_eq_getElem]
  | lwsp rd off =>
    obtain ⟨hq, hf3, -, hrd⟩ := citype_fields hh
    have hne : rd ≠ 0#5 := hc
    simp [read, readQuadrant2, hq, hf3, lwspOff_citype hh, hrd, hne]
  | jr rs1 =>
    obtain ⟨hq, hf3, h12, hrd, hrs2⟩ := crtype_fields hh
    have hne : rs1 ≠ 0#5 := hc
    simp [read, readQuadrant2, readJumpMove, hq, hf3, h12, hrd, hrs2, hne,
      -BitVec.getLsbD_eq_getElem]
  | mv rd rs2 =>
    obtain ⟨hq, hf3, h12, hrd, hrs2⟩ := crtype_fields hh
    have hne : rs2 ≠ 0#5 := hc
    simp [read, readQuadrant2, readJumpMove, hq, hf3, h12, hrd, hrs2, hne,
      -BitVec.getLsbD_eq_getElem]
  | ebreak =>
    obtain ⟨hq, hf3, h12, hrd, hrs2⟩ := crtype_fields hh
    simp [read, readQuadrant2, readJumpMove, hq, hf3, h12, hrd, hrs2, -BitVec.getLsbD_eq_getElem]
  | jalr rs1 =>
    obtain ⟨hq, hf3, h12, hrd, hrs2⟩ := crtype_fields hh
    have hne : rs1 ≠ 0#5 := hc
    simp [read, readQuadrant2, readJumpMove, hq, hf3, h12, hrd, hrs2, hne,
      -BitVec.getLsbD_eq_getElem]
  | add rd rs2 =>
    obtain ⟨hq, hf3, h12, hrd, hrs2⟩ := crtype_fields hh
    have hne : rs2 ≠ 0#5 := hc
    simp [read, readQuadrant2, readJumpMove, hq, hf3, h12, hrd, hrs2, hne,
      -BitVec.getLsbD_eq_getElem]
  | swsp rs2 off =>
    obtain ⟨hq, hf3, -, hrs2⟩ := csstype_fields hh
    simp [read, readQuadrant2, hq, hf3, swspOff_csstype hh, hrs2]

/-! ## What is read is an instruction -/

section Layouts

variable {h : BitVec 16} {f3 : BitVec 3} {op : BitVec 2}

theorem citype_of (hq : h.extractLsb 1 0 = op) (hf3 : funct3 h = f3) :
    citype f3 (imm6 h) (rdFull h) op = h := by
  subst_vars
  refine BitVec.eq_of_getLsbD_eq fun i hi => ?_
  simp only [citype, funct3, imm6, rdFull, BitVec.getLsbD_extractLsb, BitVec.getLsbD_append]
  grind

theorem csstype_of (hq : h.extractLsb 1 0 = op) (hf3 : funct3 h = f3) :
    csstype f3 (h.extractLsb 12 7) (rs2Full h) op = h := by
  subst_vars
  refine BitVec.eq_of_getLsbD_eq fun i hi => ?_
  simp only [csstype, funct3, rs2Full, BitVec.getLsbD_extractLsb, BitVec.getLsbD_append]
  grind

theorem ciwtype_of (hq : h.extractLsb 1 0 = op) (hf3 : funct3 h = f3) :
    ciwtype f3 (h.extractLsb 12 5) (h.extractLsb 4 2) op = h := by
  subst_vars
  refine BitVec.eq_of_getLsbD_eq fun i hi => ?_
  simp only [ciwtype, funct3, BitVec.getLsbD_extractLsb, BitVec.getLsbD_append]
  grind

/-- The CL format; the caller says what its two immediate fields hold. -/
theorem cltype_of (hq : h.extractLsb 1 0 = op) (hf3 : funct3 h = f3) {immHi : BitVec 3}
    {immLo : BitVec 2} (hhi : h.extractLsb 12 10 = immHi) (hlo : h.extractLsb 6 5 = immLo) :
    cltype f3 immHi (h.extractLsb 9 7) immLo (h.extractLsb 4 2) op = h := by
  subst_vars
  refine BitVec.eq_of_getLsbD_eq fun i hi => ?_
  simp only [cltype, funct3, BitVec.getLsbD_extractLsb, BitVec.getLsbD_append]
  grind

/-- The format of C.SRLI, C.SRAI and C.ANDI, with `funct2` named. -/
theorem cbitype_of (hq : h.extractLsb 1 0 = op) (hf3 : funct3 h = f3) {f2 : BitVec 2}
    (hf2 : h.extractLsb 11 10 = f2) :
    cbitype f3 (imm6 h) f2 (h.extractLsb 9 7) op = h := by
  subst_vars
  refine BitVec.eq_of_getLsbD_eq fun i hi => ?_
  simp only [cbitype, funct3, cbtype, imm6, BitVec.getLsbD_extractLsb, BitVec.getLsbD_append]
  grind

/-- The CB format, with the offset scattered again. -/
theorem cbtype_of (hq : h.extractLsb 1 0 = op) (hf3 : funct3 h = f3) :
    cbtype f3 (cbOffset (bOff h)).1 (h.extractLsb 9 7) (cbOffset (bOff h)).2 op = h := by
  subst_vars
  refine BitVec.eq_of_getLsbD_eq fun i hi => ?_
  simp only [cbtype, funct3, cbOffset, bOff, BitVec.getLsbD_extractLsb, BitVec.getLsbD_append]
  grind

/-- Where every bit of a jump offset comes from. -/
theorem jOff_parts (h : BitVec 16) :
    (jOff h).extractLsb 10 10 = h.extractLsb 12 12 ∧ (jOff h).extractLsb 3 3 = h.extractLsb 11 11 ∧
    (jOff h).extractLsb 8 7 = h.extractLsb 10 9 ∧ (jOff h).extractLsb 9 9 = h.extractLsb 8 8 ∧
    (jOff h).extractLsb 5 5 = h.extractLsb 7 7 ∧ (jOff h).extractLsb 6 6 = h.extractLsb 6 6 ∧
    (jOff h).extractLsb 2 0 = h.extractLsb 5 3 ∧ (jOff h).extractLsb 4 4 = h.extractLsb 2 2 := by
  unfold jOff
  refine ⟨?_, ?_, ?_, ?_, ?_, ?_, ?_, ?_⟩ <;>
  · refine BitVec.eq_of_getLsbD_eq fun i hi => ?_
    simp only [BitVec.getLsbD_extractLsb, BitVec.getLsbD_append]
    grind

/-- The CJ format: the upper byte and the lower one are put together apart. -/
theorem cjtype_of (hq : h.extractLsb 1 0 = op) (hf3 : funct3 h = f3) :
    cjtype f3 (jOff h) op = h := by
  subst hq hf3
  obtain ⟨h12, h11, h10, h8, h7, h6, h5, h2⟩ := jOff_parts h
  have hhi : funct3 h ++ h.extractLsb 12 12 ++ h.extractLsb 11 11 ++ h.extractLsb 10 9 ++
      h.extractLsb 8 8 = h.extractLsb 15 8 := by
    refine BitVec.eq_of_getLsbD_eq fun i hi => ?_
    simp only [funct3, BitVec.getLsbD_extractLsb, BitVec.getLsbD_append]
    grind
  unfold cjtype
  rw [h12, h11, h10, h8, h7, h6, h5, h2, hhi]
  refine BitVec.eq_of_getLsbD_eq fun i hi => ?_
  simp only [BitVec.getLsbD_extractLsb, BitVec.getLsbD_append]
  grind

/-- The CR format: `funct4` is `funct3` and bit 12. -/
theorem crtype_of (f4 : BitVec 4) (hq : h.extractLsb 1 0 = op)
    (hf3 : funct3 h = f4.extractLsb 3 1) (h12 : h.getLsbD 12 = f4.getLsbD 0) :
    crtype f4 (rdFull h) (rs2Full h) op = h := by
  have hf4 : f4 = funct3 h ++ h.extractLsb 12 12 := by
    rw [hf3]
    refine BitVec.eq_of_getLsbD_eq fun i hi => ?_
    simp only [BitVec.getLsbD_extractLsb, BitVec.getLsbD_append]
    grind
  subst hf4 hq
  refine BitVec.eq_of_getLsbD_eq fun i hi => ?_
  simp only [crtype, funct3, rdFull, rs2Full, BitVec.getLsbD_extractLsb, BitVec.getLsbD_append]
  grind

/-- The CA format: `funct6` is `funct3` and bits 12 to 10. -/
theorem catype_of {f6 : BitVec 6} {f2 : BitVec 2} {rs2 : BitVec 3} (hq : h.extractLsb 1 0 = op)
    (hf3 : funct3 h = f6.extractLsb 5 3) (hf : h.extractLsb 12 10 = f6.extractLsb 2 0)
    (hf2 : h.extractLsb 6 5 = f2) (hrs2 : h.extractLsb 4 2 = rs2) :
    catype f6 (h.extractLsb 9 7) f2 rs2 op = h := by
  have hf6 : f6 = funct3 h ++ h.extractLsb 12 10 := by
    rw [hf3, hf]
    refine BitVec.eq_of_getLsbD_eq fun i hi => ?_
    simp only [BitVec.getLsbD_extractLsb, BitVec.getLsbD_append]
    grind
  subst hf6 hq hf2 hrs2
  refine BitVec.eq_of_getLsbD_eq fun i hi => ?_
  simp only [catype, funct3, BitVec.getLsbD_extractLsb, BitVec.getLsbD_append]
  grind

end Layouts

/-! The scattered immediates, put back. -/

section Scatter

variable (h : BitVec 16)

/-- C.LW and C.SW hold five bits of a word offset in two fields. -/
theorem lwOff_parts :
    ((lwOff h).extractLsb 6 2).extractLsb 3 1 = h.extractLsb 12 10 ∧
    ((lwOff h).extractLsb 6 2).extractLsb 0 0 ++ ((lwOff h).extractLsb 6 2).extractLsb 4 4 =
      h.extractLsb 6 5 := by
  unfold lwOff
  constructor <;>
  · refine BitVec.eq_of_getLsbD_eq fun i hi => ?_
    simp only [BitVec.getLsbD_extractLsb, BitVec.getLsbD_append]
    grind

/-- C.ADDI4SPN holds the eight bits above the two zeros. -/
theorem nzuimm_parts :
    ((nzuimm h).extractLsb 9 2).extractLsb 3 2 ++ ((nzuimm h).extractLsb 9 2).extractLsb 7 4 ++
      ((nzuimm h).extractLsb 9 2).extractLsb 0 0 ++ ((nzuimm h).extractLsb 9 2).extractLsb 1 1 =
      h.extractLsb 12 5 := by
  refine BitVec.eq_of_getLsbD_eq fun i hi => ?_
  simp only [nzuimm, BitVec.getLsbD_extractLsb, BitVec.getLsbD_append]
  grind

/-- C.ADDI16SP holds the six bits above the four zeros. -/
theorem nzimm16_parts :
    ((nzimm16 h).extractLsb 9 4).extractLsb 5 5 ++ ((nzimm16 h).extractLsb 9 4).extractLsb 0 0 ++
      ((nzimm16 h).extractLsb 9 4).extractLsb 2 2 ++ ((nzimm16 h).extractLsb 9 4).extractLsb 4 3 ++
      ((nzimm16 h).extractLsb 9 4).extractLsb 1 1 = imm6 h := by
  refine BitVec.eq_of_getLsbD_eq fun i hi => ?_
  simp only [nzimm16, imm6, BitVec.getLsbD_extractLsb, BitVec.getLsbD_append]
  grind

theorem lwspOff_parts :
    (lwspOff h).extractLsb 3 3 ++ (lwspOff h).extractLsb 2 0 ++ (lwspOff h).extractLsb 5 4 =
      imm6 h := by
  refine BitVec.eq_of_getLsbD_eq fun i hi => ?_
  simp only [lwspOff, imm6, BitVec.getLsbD_extractLsb, BitVec.getLsbD_append]
  grind

theorem swspOff_parts :
    (swspOff h).extractLsb 3 0 ++ (swspOff h).extractLsb 5 4 = h.extractLsb 12 7 := by
  refine BitVec.eq_of_getLsbD_eq fun i hi => ?_
  simp only [swspOff, BitVec.getLsbD_extractLsb, BitVec.getLsbD_append]
  grind

theorem field_parts : h.extractLsb 6 5 = h.extractLsb 6 6 ++ h.extractLsb 5 5 :=
  (BitVec.extractLsb'_append_extractLsb'_eq_extractLsb' rfl).symm

/-- A bit that is known is a known field of width one. -/
theorem extractLsb_bit {k : Nat} {b : Bool} (hb : h.getLsbD k = b) :
    h.extractLsb k k = (BitVec.ofBool b).setWidth _ := by
  refine BitVec.eq_of_getLsbD_eq fun i hi => ?_
  simp only [BitVec.getLsbD_extractLsb, BitVec.getLsbD_setWidth, BitVec.getLsbD_ofBool]
  grind

end Scatter

section Reading

variable {h : BitVec 16} {c : CInstr}

/-- Byte and halfword accesses of Zcb. -/
theorem encode_readZcbMem (hq : h.extractLsb 1 0 = 0b00#2) (hf3 : funct3 h = 0b100#3)
    (hr : readZcbMem h = some c) : c.Valid ∧ c.encode = h := by
  have hswap : ∀ a b : BitVec 1, (a ++ b).extractLsb 0 0 ++ (a ++ b).extractLsb 1 1 = b ++ a := by
    decide
  unfold readZcbMem at hr
  split_ifs at hr with hf0 hf1 hlh hf2 hf3' hsh <;> cases hr
  · exact ⟨trivial, cltype_of hq hf3 hf0 ((field_parts h).trans (hswap _ _).symm)⟩
  · refine ⟨trivial, cltype_of hq hf3 hf1 ((field_parts h).trans ?_)⟩
    rw [extractLsb_bit h hlh]
    rfl
  · refine ⟨trivial, cltype_of hq hf3 hf1 ((field_parts h).trans ?_)⟩
    rw [extractLsb_bit h (Bool.eq_false_iff.mpr hlh)]
    rfl
  · exact ⟨trivial, cltype_of hq hf3 hf2 ((field_parts h).trans (hswap _ _).symm)⟩
  · refine ⟨trivial, cltype_of hq hf3 hf3' ((field_parts h).trans ?_)⟩
    rw [extractLsb_bit h (Bool.eq_false_iff.mpr hsh)]
    rfl

theorem encode_readQuadrant0 (hq : h.extractLsb 1 0 = 0b00#2) (hr : readQuadrant0 h = some c) :
    c.Valid ∧ c.encode = h := by
  unfold readQuadrant0 at hr
  split_ifs at hr with hf0 hz hf2 hf6 hf4
  · cases hr
    refine ⟨fun himm => hz ?_, ?_⟩
    · rw [← nzuimm_append_zero, himm]
      rfl
    · rw [CInstr.encode, nzuimm_parts]
      exact ciwtype_of hq hf0
  · cases hr
    refine ⟨trivial, ?_⟩
    rw [CInstr.encode, (lwOff_parts h).1, (lwOff_parts h).2]
    exact cltype_of hq hf2 rfl rfl
  · cases hr
    refine ⟨trivial, ?_⟩
    rw [CInstr.encode, (lwOff_parts h).1, (lwOff_parts h).2]
    exact cltype_of hq hf6 rfl rfl
  · exact encode_readZcbMem hq hf4 hr

theorem encode_readZcbUnary (hq : h.extractLsb 1 0 = 0b01#2) (hf3 : funct3 h = 0b100#3)
    (hf : h.extractLsb 12 10 = 0b111#3) (hf2 : h.extractLsb 6 5 = 0b11#2)
    (hr : readZcbUnary h = some c) : c.Valid ∧ c.encode = h := by
  have hw : ∀ o : CUnary, h.extractLsb 4 2 = o.code → (CInstr.unary o (h.extractLsb 9 7)).encode =
      h := fun o ho => catype_of hq hf3 hf hf2 ho
  unfold readZcbUnary at hr
  split_ifs at hr with h0 h1 h2 h3 h5 <;> cases hr
  · exact ⟨trivial, hw .zextb h0⟩
  · exact ⟨trivial, hw .sextb h1⟩
  · exact ⟨trivial, hw .zexth h2⟩
  · exact ⟨trivial, hw .sexth h3⟩
  · exact ⟨trivial, hw .not h5⟩

/-- Operations on two registers, told apart by bit 12 and bits 6 to 5. -/
theorem encode_readArithReg (hq : h.extractLsb 1 0 = 0b01#2) (hf3 : funct3 h = 0b100#3)
    (hf : h.extractLsb 11 10 = 0b11#2) (hr : readArithReg h = some c) :
    c.Valid ∧ c.encode = h := by
  have hsplit : ∀ (a : BitVec 1) (b : BitVec 2) (a' : BitVec 1) (b' : BitVec 2),
      a ++ b = a' ++ b' → a = a' ∧ b = b' := by decide
  have h12 : h.extractLsb 12 10 = h.extractLsb 12 12 ++ h.extractLsb 11 10 := by
    refine BitVec.eq_of_getLsbD_eq fun i hi => ?_
    simp only [BitVec.getLsbD_extractLsb, BitVec.getLsbD_append]
    grind
  rw [hf] at h12
  have hw : ∀ o : CArith,
      (h.extractLsb 12 12 ++ h.extractLsb 6 5 : BitVec 3) = o.code.1.extractLsb 2 2 ++ o.code.2 →
      (CInstr.arith o (h.extractLsb 9 7) (h.extractLsb 4 2)).encode = h := by
    intro o ho
    obtain ⟨ha, hb⟩ := hsplit _ _ _ _ ho
    refine catype_of hq ?_ ?_ hb rfl
    · -- all five have the same upper half of `funct6`
      rw [hf3]
      cases o <;> rfl
    · rw [h12, ha]
      cases o <;> rfl
  unfold readArithReg at hr
  dsimp only at hr
  split_ifs at hr with h0 h1 h2 h3 h6 h7
  · cases hr
    exact ⟨trivial, hw .sub h0⟩
  · cases hr
    exact ⟨trivial, hw .xor h1⟩
  · cases hr
    exact ⟨trivial, hw .or h2⟩
  · cases hr
    exact ⟨trivial, hw .and h3⟩
  · cases hr
    exact ⟨trivial, hw .mul h6⟩
  · obtain ⟨ha, hb⟩ := hsplit _ _ 0b1#1 0b11#2 h7
    refine encode_readZcbUnary hq hf3 ?_ hb hr
    rw [h12, ha]
    rfl

/-- A shift amount is the lower part of the immediate. -/
theorem imm6_shamt (imm : BitVec 6) (h5 : ¬imm.getLsbD 5 = true) :
    0b0#1 ++ imm.extractLsb 4 0 = imm := by
  decide +revert

/-- Operations with `funct3 = 100` in the second quadrant. -/
theorem encode_readArith (hq : h.extractLsb 1 0 = 0b01#2) (hf3 : funct3 h = 0b100#3)
    (hr : readArith h = some c) : c.Valid ∧ c.encode = h := by
  unfold readArith at hr
  split_ifs at hr with h0 h5 h1 h5 h2
  · cases hr
    refine ⟨trivial, ?_⟩
    rw [CInstr.encode, imm6_shamt _ h5]
    exact cbitype_of hq hf3 h0
  · cases hr
    refine ⟨trivial, ?_⟩
    rw [CInstr.encode, imm6_shamt _ h5]
    exact cbitype_of hq hf3 h1
  · cases hr
    exact ⟨trivial, cbitype_of hq hf3 h2⟩
  · refine encode_readArithReg hq hf3 ?_ hr
    revert h0 h1 h2
    generalize h.extractLsb 11 10 = f
    decide +revert

/-- C.LUI and C.ADDI16SP differ in the register. -/
theorem encode_readLui16 (hq : h.extractLsb 1 0 = 0b01#2) (hf3 : funct3 h = 0b011#3)
    (hr : readLui16 h = some c) : c.Valid ∧ c.encode = h := by
  unfold readLui16 at hr
  split_ifs at hr with hrd hz hz
  · cases hr
    refine ⟨fun himm => hz ?_, ?_⟩
    · rw [← nzimm16_append, himm]
      rfl
    · rw [CInstr.encode, nzimm16_parts, ← hrd]
      exact citype_of hq hf3
  · cases hr
    exact ⟨⟨hrd, hz⟩, citype_of hq hf3⟩

theorem encode_readQuadrant1 (hq : h.extractLsb 1 0 = 0b01#2) (hr : readQuadrant1 h = some c) :
    c.Valid ∧ c.encode = h := by
  unfold readQuadrant1 at hr
  split_ifs at hr with h0 h1 h2 h3 h4 h5 h6
  · cases hr
    exact ⟨trivial, citype_of hq h0⟩
  · cases hr
    exact ⟨trivial, cjtype_of hq h1⟩
  · cases hr
    exact ⟨trivial, citype_of hq h2⟩
  · exact encode_readLui16 hq h3 hr
  · exact encode_readArith hq h4 hr
  · cases hr
    exact ⟨trivial, cjtype_of hq h5⟩
  · cases hr
    exact ⟨trivial, cbtype_of hq h6⟩
  · cases hr
    exact ⟨trivial, cbtype_of hq (by grind)⟩

/-- C.JR, C.MV, C.EBREAK, C.JALR and C.ADD, told apart by bit 12 and the fields at zero. -/
theorem encode_readJumpMove (hq : h.extractLsb 1 0 = 0b10#2) (hf3 : funct3 h = 0b100#3)
    (hr : readJumpMove h = some c) : c.Valid ∧ c.encode = h := by
  unfold readJumpMove at hr
  have h8 : h.getLsbD 12 = false → crtype 0b1000#4 (rdFull h) (rs2Full h) 0b10#2 = h :=
    crtype_of 0b1000#4 hq hf3
  have h9 : h.getLsbD 12 = true → crtype 0b1001#4 (rdFull h) (rs2Full h) 0b10#2 = h :=
    crtype_of 0b1001#4 hq hf3
  split_ifs at hr with h12 hrs2 hrd hrs2 hrd <;> cases hr
  · refine ⟨hrd, ?_⟩
    rw [hrs2] at h8
    exact h8 h12
  · exact ⟨hrs2, h8 h12⟩
  · refine ⟨trivial, ?_⟩
    rw [hrs2, hrd] at h9
    exact h9 (Bool.eq_true_of_not_eq_false h12)
  · refine ⟨hrd, ?_⟩
    rw [hrs2] at h9
    exact h9 (Bool.eq_true_of_not_eq_false h12)
  · exact ⟨hrs2, h9 (Bool.eq_true_of_not_eq_false h12)⟩

theorem encode_readQuadrant2 (hq : h.extractLsb 1 0 = 0b10#2) (hr : readQuadrant2 h = some c) :
    c.Valid ∧ c.encode = h := by
  unfold readQuadrant2 at hr
  split_ifs at hr with h0 hz h2 hrd h4 h6
  · cases hr
    -- the sixth bit of the amount is reserved
    rw [not_or] at hz
    refine ⟨trivial, ?_⟩
    rw [CInstr.encode, imm6_shamt _ hz.1]
    exact citype_of hq h0
  · cases hr
    refine ⟨hrd, ?_⟩
    rw [CInstr.encode, lwspOff_parts]
    exact citype_of hq h2
  · exact encode_readJumpMove hq h4 hr
  · cases hr
    refine ⟨trivial, ?_⟩
    rw [CInstr.encode, swspOff_parts]
    exact csstype_of hq h6

/-- What is read has the halfword as its encoding. -/
theorem encode_read (hcomp : isCompressed h = true) (hr : read h = some c) :
    c.Valid ∧ c.encode = h := by
  unfold isCompressed at hcomp
  rw [bne_iff_ne] at hcomp
  unfold read at hr
  split_ifs at hr with h0 h1
  · exact encode_readQuadrant0 h0 hr
  · exact encode_readQuadrant1 h1 hr
  · refine encode_readQuadrant2 ?_ hr
    revert hcomp h0 h1
    generalize h.extractLsb 1 0 = q
    decide +revert

end Reading

end ThreeSippEs.Isa
