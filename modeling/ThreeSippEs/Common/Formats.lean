import ThreeSippEs.Common.Decode

/-!
# Instruction formats

A 32-bit word laid out by its fields, and the fields the decoder cuts out of it
again. Every format is the R format with some fields read as parts of an immediate.

- `rtype_funct3` and so on, `immI_itype` and so on: what is cut out is what was put in;
- `rtype_eta` and so on: every word has every layout.
-/

namespace ThreeSippEs

namespace Formats

/-- `funct7 | rs2 | rs1 | funct3 | rd | opcode` -/
def rtype (funct7 : BitVec 7) (rs2 rs1 : BitVec 5) (funct3 : BitVec 3) (rd : BitVec 5)
    (opcode : BitVec 7) : Word :=
  funct7 ++ rs2 ++ rs1 ++ funct3 ++ rd ++ opcode

/-- `imm[11:0] | rs1 | funct3 | rd | opcode` -/
def itype (imm : BitVec 12) (rs1 : BitVec 5) (funct3 : BitVec 3) (rd : BitVec 5)
    (opcode : BitVec 7) : Word :=
  rtype (imm.extractLsb 11 5) (imm.extractLsb 4 0) rs1 funct3 rd opcode

/-- `imm[11:5] | rs2 | rs1 | funct3 | imm[4:0] | opcode` -/
def stype (imm : BitVec 12) (rs2 rs1 : BitVec 5) (funct3 : BitVec 3) (opcode : BitVec 7) : Word :=
  rtype (imm.extractLsb 11 5) rs2 rs1 funct3 (imm.extractLsb 4 0) opcode

/-- `imm[12|10:5] | rs2 | rs1 | funct3 | imm[4:1|11] | opcode`, for `imm[12:1]`. -/
def btype (imm : BitVec 12) (rs2 rs1 : BitVec 5) (funct3 : BitVec 3) (opcode : BitVec 7) : Word :=
  rtype (imm.extractLsb 11 11 ++ imm.extractLsb 9 4) rs2 rs1 funct3
    (imm.extractLsb 3 0 ++ imm.extractLsb 10 10) opcode

/-- `imm[31:12] | rd | opcode` -/
def utype (imm : BitVec 20) (rd : BitVec 5) (opcode : BitVec 7) : Word :=
  rtype (imm.extractLsb 19 13) (imm.extractLsb 12 8) (imm.extractLsb 7 3) (imm.extractLsb 2 0) rd
    opcode

/-- `imm[20|10:1|11|19:12] | rd | opcode`, for `imm[20:1]`. -/
def jtype (imm : BitVec 20) (rd : BitVec 5) (opcode : BitVec 7) : Word :=
  utype (imm.extractLsb 19 19 ++ imm.extractLsb 9 0 ++ imm.extractLsb 10 10 ++
    imm.extractLsb 18 11) rd opcode

/-! ## Fields -/

section

variable (funct7 : BitVec 7) (rs2 rs1 : BitVec 5) (funct3 : BitVec 3) (rd : BitVec 5)
  (opcode : BitVec 7)

/-- The lowest field. -/
@[simp] theorem rtype_opcode :
    (rtype funct7 rs2 rs1 funct3 rd opcode).extractLsb 6 0 = opcode :=
  BitVec.extractLsb'_append_eq_right

/-- The field above it. -/
@[simp] theorem rtype_rd :
    (rtype funct7 rs2 rs1 funct3 rd opcode).extractLsb 11 7 = rd := by
  apply BitVec.eq_of_getLsbD_eq
  intro i hi
  simp only [rtype, BitVec.getLsbD_extractLsb, BitVec.getLsbD_append]
  grind

@[simp] theorem rtype_funct3 :
    (rtype funct7 rs2 rs1 funct3 rd opcode).extractLsb 14 12 = funct3 := by
  apply BitVec.eq_of_getLsbD_eq
  intro i hi
  simp only [rtype, BitVec.getLsbD_extractLsb, BitVec.getLsbD_append]
  grind

@[simp] theorem rtype_rs1 :
    (rtype funct7 rs2 rs1 funct3 rd opcode).extractLsb 19 15 = rs1 := by
  apply BitVec.eq_of_getLsbD_eq
  intro i hi
  simp only [rtype, BitVec.getLsbD_extractLsb, BitVec.getLsbD_append]
  grind

@[simp] theorem rtype_rs2 :
    (rtype funct7 rs2 rs1 funct3 rd opcode).extractLsb 24 20 = rs2 := by
  apply BitVec.eq_of_getLsbD_eq
  intro i hi
  simp only [rtype, BitVec.getLsbD_extractLsb, BitVec.getLsbD_append]
  grind

/-- The highest field. -/
@[simp] theorem rtype_funct7 :
    (rtype funct7 rs2 rs1 funct3 rd opcode).extractLsb 31 25 = funct7 := by
  apply BitVec.eq_of_getLsbD_eq
  intro i hi
  simp only [rtype, BitVec.getLsbD_extractLsb, BitVec.getLsbD_append]
  grind

/-- The A extension splits `funct7`. -/
@[simp] theorem rtype_funct5 (funct5 : BitVec 5) (aqrl : BitVec 2) :
    (rtype (funct5 ++ aqrl) rs2 rs1 funct3 rd opcode).extractLsb 31 27 = funct5 := by
  refine BitVec.eq_of_getLsbD_eq fun i hi => ?_
  simp only [rtype, BitVec.getLsbD_extractLsb, BitVec.getLsbD_append]
  grind

end

/-! ## Immediates -/

section Immediates

variable (imm : BitVec 12) (off : BitVec 20) (rs2 rs1 : BitVec 5) (funct3 : BitVec 3)
  (rd : BitVec 5) (opcode : BitVec 7)

@[simp] theorem itype_opcode : (itype imm rs1 funct3 rd opcode).extractLsb 6 0 = opcode :=
  rtype_opcode ..

/-- The I format keeps the other fields where they are. -/
@[simp] theorem itype_rd : (itype imm rs1 funct3 rd opcode).extractLsb 11 7 = rd := rtype_rd ..

@[simp] theorem itype_funct3 : (itype imm rs1 funct3 rd opcode).extractLsb 14 12 = funct3 :=
  rtype_funct3 ..

@[simp] theorem itype_rs1 : (itype imm rs1 funct3 rd opcode).extractLsb 19 15 = rs1 :=
  rtype_rs1 ..

/-- The immediate in one piece. -/
@[simp] theorem itype_imm : (itype imm rs1 funct3 rd opcode).extractLsb 31 20 = imm := by
  refine BitVec.eq_of_getLsbD_eq fun i hi => ?_
  simp only [itype, rtype, BitVec.getLsbD_extractLsb, BitVec.getLsbD_append]
  grind

@[simp] theorem stype_opcode : (stype imm rs2 rs1 funct3 opcode).extractLsb 6 0 = opcode :=
  rtype_opcode ..

@[simp] theorem stype_funct3 : (stype imm rs2 rs1 funct3 opcode).extractLsb 14 12 = funct3 :=
  rtype_funct3 ..

/-- So does the S format. -/
@[simp] theorem stype_rs1 : (stype imm rs2 rs1 funct3 opcode).extractLsb 19 15 = rs1 :=
  rtype_rs1 ..

@[simp] theorem stype_rs2 : (stype imm rs2 rs1 funct3 opcode).extractLsb 24 20 = rs2 :=
  rtype_rs2 ..

@[simp] theorem btype_opcode : (btype imm rs2 rs1 funct3 opcode).extractLsb 6 0 = opcode :=
  rtype_opcode ..

@[simp] theorem btype_funct3 : (btype imm rs2 rs1 funct3 opcode).extractLsb 14 12 = funct3 :=
  rtype_funct3 ..

/-- So does the B format. -/
@[simp] theorem btype_rs1 : (btype imm rs2 rs1 funct3 opcode).extractLsb 19 15 = rs1 :=
  rtype_rs1 ..

@[simp] theorem btype_rs2 : (btype imm rs2 rs1 funct3 opcode).extractLsb 24 20 = rs2 :=
  rtype_rs2 ..

@[simp] theorem utype_opcode : (utype off rd opcode).extractLsb 6 0 = opcode := rtype_opcode ..

@[simp] theorem utype_rd : (utype off rd opcode).extractLsb 11 7 = rd := rtype_rd ..

@[simp] theorem jtype_opcode : (jtype off rd opcode).extractLsb 6 0 = opcode := rtype_opcode ..

@[simp] theorem jtype_rd : (jtype off rd opcode).extractLsb 11 7 = rd := rtype_rd ..

/-- Loads, JALR and operations with an immediate. -/
@[simp] theorem immI_itype :
    Immgen.immI (itype imm rs1 funct3 rd opcode) = imm.signExtend 32 :=
  congrArg _ (itype_imm ..)

/-- Stores: the immediate is in two pieces. -/
@[simp] theorem immS_stype :
    Immgen.immS (stype imm rs2 rs1 funct3 opcode) = imm.signExtend 32 := by
  unfold Immgen.immS
  congr 1
  refine BitVec.eq_of_getLsbD_eq fun i hi => ?_
  simp only [stype, rtype, BitVec.getLsbD_extractLsb, BitVec.getLsbD_append]
  grind

/-- Branches: in four, without the lowest bit. -/
@[simp] theorem immB_btype :
    Immgen.immB (btype imm rs2 rs1 funct3 opcode) = (imm ++ 0#1).signExtend 32 := by
  unfold Immgen.immB
  congr 1
  refine BitVec.eq_of_getLsbD_eq fun i hi => ?_
  simp only [btype, rtype, BitVec.getLsbD_extractLsb, BitVec.getLsbD_append]
  grind

/-- LUI and AUIPC: the upper twenty bits. -/
@[simp] theorem immU_utype : Immgen.immU (utype off rd opcode) = off ++ 0#12 := by
  unfold Immgen.immU
  congr 1
  refine BitVec.eq_of_getLsbD_eq fun i hi => ?_
  simp only [utype, rtype, BitVec.getLsbD_extractLsb, BitVec.getLsbD_append]
  grind

/-- JAL: in four pieces, without the lowest bit. -/
@[simp] theorem immJ_jtype :
    Immgen.immJ (jtype off rd opcode) = (off ++ 0#1).signExtend 32 := by
  unfold Immgen.immJ
  congr 1
  refine BitVec.eq_of_getLsbD_eq fun i hi => ?_
  simp only [jtype, utype, rtype, BitVec.getLsbD_extractLsb, BitVec.getLsbD_append]
  grind

end Immediates

/-! ## Layouts of a word -/

/-- Every word is its fields in the R format. -/
theorem rtype_eta (w : Word) :
    rtype (w.extractLsb 31 25) (w.extractLsb 24 20) (w.extractLsb 19 15) (w.extractLsb 14 12)
      (w.extractLsb 11 7) (w.extractLsb 6 0) = w := by
  refine BitVec.eq_of_getLsbD_eq fun i hi => ?_
  simp only [rtype, BitVec.getLsbD_extractLsb, BitVec.getLsbD_append]
  grind

/-- Every word is its fields in the I format. -/
theorem itype_eta (w : Word) :
    itype (w.extractLsb 31 20) (w.extractLsb 19 15) (w.extractLsb 14 12)
      (w.extractLsb 11 7) (w.extractLsb 6 0) = w := by
  refine BitVec.eq_of_getLsbD_eq fun i hi => ?_
  simp only [itype, rtype, BitVec.getLsbD_extractLsb, BitVec.getLsbD_append]
  grind

/-- Every word is its fields in the S format. -/
theorem stype_eta (w : Word) :
    stype (w.extractLsb 31 25 ++ w.extractLsb 11 7) (w.extractLsb 24 20) (w.extractLsb 19 15)
      (w.extractLsb 14 12) (w.extractLsb 6 0) = w := by
  refine BitVec.eq_of_getLsbD_eq fun i hi => ?_
  simp only [stype, rtype, BitVec.getLsbD_extractLsb, BitVec.getLsbD_append]
  grind

/-- Every word is its fields in the B format, with the offset put in order. -/
theorem btype_eta (w : Word) :
    btype (w.extractLsb 31 31 ++ w.extractLsb 7 7 ++ w.extractLsb 30 25 ++ w.extractLsb 11 8)
      (w.extractLsb 24 20) (w.extractLsb 19 15) (w.extractLsb 14 12) (w.extractLsb 6 0) = w := by
  refine BitVec.eq_of_getLsbD_eq fun i hi => ?_
  simp only [btype, rtype, BitVec.getLsbD_extractLsb, BitVec.getLsbD_append]
  grind

/-- Every word is its fields in the U format. -/
theorem utype_eta (w : Word) :
    utype (w.extractLsb 31 12) (w.extractLsb 11 7) (w.extractLsb 6 0) = w := by
  refine BitVec.eq_of_getLsbD_eq fun i hi => ?_
  simp only [utype, rtype, BitVec.getLsbD_extractLsb, BitVec.getLsbD_append]
  grind

/-- Every word is its fields in the J format, with the offset put in order. -/
theorem jtype_eta (w : Word) :
    jtype (w.extractLsb 31 31 ++ w.extractLsb 19 12 ++ w.extractLsb 20 20 ++ w.extractLsb 30 21)
      (w.extractLsb 11 7) (w.extractLsb 6 0) = w := by
  refine BitVec.eq_of_getLsbD_eq fun i hi => ?_
  simp only [jtype, utype, rtype, BitVec.getLsbD_extractLsb, BitVec.getLsbD_append]
  grind

end Formats

end ThreeSippEs
