import ThreeSippEs.Core.Fetch
import ThreeSippEs.Isa.Compressed

/-!
# The expander

The expander as a reader: what compressed instruction it takes a halfword for, and that
the word it builds out of the scattered bits is the word of the instruction that this one
stands for.

- `read`: the compressed instruction;
- `instr32_eq`: the word is the word of its expansion.
-/

namespace ThreeSippEs.Isa

open Formats Rvc

/-! ## Reading a halfword -/

/-- `zcbMem` -/
def readZcbMem (h : BitVec 16) : Option CInstr :=
  if h.extractLsb 12 10 = 0b000#3 then
    some (.lbu (h.extractLsb 4 2) (h.extractLsb 9 7) (h.extractLsb 5 5 ++ h.extractLsb 6 6))
  else if h.extractLsb 12 10 = 0b001#3 then
    if h.getLsbD 6 then some (.lh (h.extractLsb 4 2) (h.extractLsb 9 7) (h.extractLsb 5 5))
    else some (.lhu (h.extractLsb 4 2) (h.extractLsb 9 7) (h.extractLsb 5 5))
  else if h.extractLsb 12 10 = 0b010#3 then
    some (.sb (h.extractLsb 4 2) (h.extractLsb 9 7) (h.extractLsb 5 5 ++ h.extractLsb 6 6))
  else if h.extractLsb 12 10 = 0b011#3 then
    if h.getLsbD 6 then none
    else some (.sh (h.extractLsb 4 2) (h.extractLsb 9 7) (h.extractLsb 5 5))
  else none

/-- `quadrant0` -/
def readQuadrant0 (h : BitVec 16) : Option CInstr :=
  if funct3 h = 0b000#3 then
    if nzuimm h = 0#10 then none
    else some (.addi4spn (h.extractLsb 4 2) ((nzuimm h).extractLsb 9 2))
  else if funct3 h = 0b010#3 then
    some (.lw (h.extractLsb 4 2) (h.extractLsb 9 7) ((lwOff h).extractLsb 6 2))
  else if funct3 h = 0b110#3 then
    some (.sw (h.extractLsb 4 2) (h.extractLsb 9 7) ((lwOff h).extractLsb 6 2))
  else if funct3 h = 0b100#3 then readZcbMem h
  else none

/-- `zcbUnary` -/
def readZcbUnary (h : BitVec 16) : Option CInstr :=
  if h.extractLsb 4 2 = 0b000#3 then some (.unary .zextb (h.extractLsb 9 7))
  else if h.extractLsb 4 2 = 0b001#3 then some (.unary .sextb (h.extractLsb 9 7))
  else if h.extractLsb 4 2 = 0b010#3 then some (.unary .zexth (h.extractLsb 9 7))
  else if h.extractLsb 4 2 = 0b011#3 then some (.unary .sexth (h.extractLsb 9 7))
  else if h.extractLsb 4 2 = 0b101#3 then some (.unary .not (h.extractLsb 9 7))
  else none

/-- `arithReg` -/
def readArithReg (h : BitVec 16) : Option CInstr :=
  let f : BitVec 3 := h.extractLsb 12 12 ++ h.extractLsb 6 5
  if f = 0b000#3 then some (.arith .sub (h.extractLsb 9 7) (h.extractLsb 4 2))
  else if f = 0b001#3 then some (.arith .xor (h.extractLsb 9 7) (h.extractLsb 4 2))
  else if f = 0b010#3 then some (.arith .or (h.extractLsb 9 7) (h.extractLsb 4 2))
  else if f = 0b011#3 then some (.arith .and (h.extractLsb 9 7) (h.extractLsb 4 2))
  else if f = 0b110#3 then some (.arith .mul (h.extractLsb 9 7) (h.extractLsb 4 2))
  else if f = 0b111#3 then readZcbUnary h
  else none

/-- `arith` -/
def readArith (h : BitVec 16) : Option CInstr :=
  if h.extractLsb 11 10 = 0b00#2 then
    if (imm6 h).getLsbD 5 then none
    else some (.srli (h.extractLsb 9 7) ((imm6 h).extractLsb 4 0))
  else if h.extractLsb 11 10 = 0b01#2 then
    if (imm6 h).getLsbD 5 then none
    else some (.srai (h.extractLsb 9 7) ((imm6 h).extractLsb 4 0))
  else if h.extractLsb 11 10 = 0b10#2 then some (.andi (h.extractLsb 9 7) (imm6 h))
  else readArithReg h

/-- `lui16` -/
def readLui16 (h : BitVec 16) : Option CInstr :=
  if rdFull h = 2#5 then
    if nzimm16 h = 0#10 then none else some (.addi16sp ((nzimm16 h).extractLsb 9 4))
  else if imm6 h = 0#6 then none
  else some (.lui (rdFull h) (imm6 h))

/-- `quadrant1` -/
def readQuadrant1 (h : BitVec 16) : Option CInstr :=
  if funct3 h = 0b000#3 then some (.addi (rdFull h) (imm6 h))
  else if funct3 h = 0b001#3 then some (.jal (jOff h))
  else if funct3 h = 0b010#3 then some (.li (rdFull h) (imm6 h))
  else if funct3 h = 0b011#3 then readLui16 h
  else if funct3 h = 0b100#3 then readArith h
  else if funct3 h = 0b101#3 then some (.j (jOff h))
  else if funct3 h = 0b110#3 then some (.beqz (h.extractLsb 9 7) (bOff h))
  else some (.bnez (h.extractLsb 9 7) (bOff h))

/-- `jumpMove` -/
def readJumpMove (h : BitVec 16) : Option CInstr :=
  if h.getLsbD 12 = false then
    if rs2Full h = 0#5 then
      if rdFull h = 0#5 then none else some (.jr (rdFull h))
    else some (.mv (rdFull h) (rs2Full h))
  else if rs2Full h = 0#5 then
    if rdFull h = 0#5 then some .ebreak else some (.jalr (rdFull h))
  else some (.add (rdFull h) (rs2Full h))

/-- `quadrant2` -/
def readQuadrant2 (h : BitVec 16) : Option CInstr :=
  if funct3 h = 0b000#3 then
    if (imm6 h).getLsbD 5 ∨ imm6 h = 0#6 then none
    else some (.slli (rdFull h) ((imm6 h).extractLsb 4 0))
  else if funct3 h = 0b010#3 then
    if rdFull h = 0#5 then none else some (.lwsp (rdFull h) (lwspOff h))
  else if funct3 h = 0b100#3 then readJumpMove h
  else if funct3 h = 0b110#3 then some (.swsp (rs2Full h) (swspOff h))
  else none

/-- The compressed instruction that the expander reads out of a halfword. -/
def read (h : BitVec 16) : Option CInstr :=
  if h.extractLsb 1 0 = 0b00#2 then readQuadrant0 h
  else if h.extractLsb 1 0 = 0b01#2 then readQuadrant1 h
  else readQuadrant2 h

/-! ## What is read is expanded -/

theorem append_itype (imm : BitVec 12) (rs1 : BitVec 5) (f3 : BitVec 3) (rd : BitVec 5)
    (op : BitVec 7) : imm ++ rs1 ++ f3 ++ rd ++ op = itype imm rs1 f3 rd op := by
  refine BitVec.eq_of_getLsbD_eq fun i hi => ?_
  simp only [itype, rtype, BitVec.getLsbD_extractLsb, BitVec.getLsbD_append]
  grind

theorem append_utype (imm : BitVec 20) (rd : BitVec 5) (op : BitVec 7) :
    imm ++ rd ++ op = utype imm rd op := by
  refine BitVec.eq_of_getLsbD_eq fun i hi => ?_
  simp only [utype, rtype, BitVec.getLsbD_extractLsb, BitVec.getLsbD_append]
  grind

theorem signExtend_append6 (imm : BitVec 6) :
    (imm.extractLsb 5 5).signExtend 6 ++ imm = imm.signExtend 12 := by
  decide +revert

theorem signExtend_append10 (imm : BitVec 10) :
    (imm.extractLsb 9 9).signExtend 2 ++ imm = imm.signExtend 12 := by
  refine BitVec.eq_of_getLsbD_eq fun i hi => ?_
  simp only [BitVec.getLsbD_extractLsb, BitVec.getLsbD_append, BitVec.getLsbD_signExtend,
    BitVec.msb_eq_getLsbD_last]
  grind

theorem signExtend_append20 (imm : BitVec 6) :
    (imm.extractLsb 5 5).signExtend 14 ++ imm = imm.signExtend 20 := by
  decide +revert

theorem jalWord_eq (h : BitVec 16) (rd : BitVec 5) :
    jalWord h rd = jtype ((jOff h).signExtend 20) rd 0b1101111#7 := by
  unfold jalWord jtype
  rw [← append_utype]
  generalize jOff h = off
  refine BitVec.eq_of_getLsbD_eq fun i hi => ?_
  simp only [BitVec.getLsbD_extractLsb, BitVec.getLsbD_append, BitVec.getLsbD_signExtend,
    BitVec.msb_eq_getLsbD_last]
  grind

/-- A `rd` field of two parts. -/
theorem append_rtype (f7 : BitVec 7) (rs2 rs1 : BitVec 5) (f3 : BitVec 3) (hi : BitVec 4)
    (lo : BitVec 1) (op : BitVec 7) :
    f7 ++ rs2 ++ rs1 ++ f3 ++ hi ++ lo ++ op = rtype f7 rs2 rs1 f3 (hi ++ lo) op := by
  refine BitVec.eq_of_getLsbD_eq fun i hi => ?_
  simp only [rtype, BitVec.getLsbD_append]
  grind

theorem branchWord_eq (h : BitVec 16) (f3 : BitVec 3) :
    branchWord h f3 = btype ((bOff h).signExtend 12) 0#5 (rdP h) f3 0b1100011#7 := by
  unfold branchWord btype
  generalize bOff h = off
  have hhi : (off.signExtend 12).extractLsb 11 11 ++ (off.signExtend 12).extractLsb 9 4 =
      (off.extractLsb 7 7).signExtend 4 ++ off.extractLsb 6 4 := by
    decide +revert
  have hlo : (off.signExtend 12).extractLsb 3 0 ++ (off.signExtend 12).extractLsb 10 10 =
      off.extractLsb 3 0 ++ off.extractLsb 7 7 := by
    decide +revert
  rw [hhi, hlo]
  exact append_rtype _ _ _ _ _ _ _

/-- A `rd` field of two parts, split elsewhere. -/
theorem append_rtype' (f7 : BitVec 7) (rs2 rs1 : BitVec 5) (f3 : BitVec 3) (hi : BitVec 3)
    (lo : BitVec 2) (op : BitVec 7) :
    f7 ++ rs2 ++ rs1 ++ f3 ++ hi ++ lo ++ op = rtype f7 rs2 rs1 f3 (hi ++ lo) op := by
  refine BitVec.eq_of_getLsbD_eq fun i hi => ?_
  simp only [rtype, BitVec.getLsbD_append]
  grind

/-! The immediates that end in zeros. -/

theorem nzuimm_append (h : BitVec 16) :
    0#2 ++ (nzuimm h).extractLsb 9 2 ++ 0#2 = 0#2 ++ nzuimm h := by
  refine BitVec.eq_of_getLsbD_eq fun i hi => ?_
  simp only [nzuimm, BitVec.getLsbD_extractLsb, BitVec.getLsbD_append]
  grind

theorem nzuimm_append_zero (h : BitVec 16) : (nzuimm h).extractLsb 9 2 ++ 0#2 = nzuimm h := by
  refine BitVec.eq_of_getLsbD_eq fun i hi => ?_
  simp only [nzuimm, BitVec.getLsbD_extractLsb, BitVec.getLsbD_append]
  grind

theorem lwOff_append (h : BitVec 16) :
    0#5 ++ (lwOff h).extractLsb 6 2 ++ 0#2 = 0#5 ++ lwOff h := by
  refine BitVec.eq_of_getLsbD_eq fun i hi => ?_
  simp only [lwOff, BitVec.getLsbD_extractLsb, BitVec.getLsbD_append]
  grind

theorem nzimm16_append (h : BitVec 16) : (nzimm16 h).extractLsb 9 4 ++ 0#4 = nzimm16 h := by
  refine BitVec.eq_of_getLsbD_eq fun i hi => ?_
  simp only [nzimm16, BitVec.getLsbD_extractLsb, BitVec.getLsbD_append]
  grind

/-- C.SW -/
theorem sw_word (off : BitVec 7) (rs2 rs1 : BitVec 5) :
    0#5 ++ off.extractLsb 6 6 ++ off.extractLsb 5 5 ++ rs2 ++ rs1 ++ 0b010#3 ++
      off.extractLsb 4 0 ++ 0b0100011#7 = stype (0#5 ++ off) rs2 rs1 0b010#3 0b0100011#7 := by
  have hhi : (0#5 ++ off).extractLsb 11 5 = 0#5 ++ off.extractLsb 6 6 ++ off.extractLsb 5 5 := by
    decide +revert
  have hlo : (0#5 ++ off).extractLsb 4 0 = off.extractLsb 4 0 := by decide +revert
  unfold stype
  rw [hhi, hlo]
  rfl

/-- C.SB and C.SH -/
theorem zcb_store (a b : BitVec 1) (rs2 rs1 : BitVec 5) (f3 : BitVec 3) :
    0#7 ++ rs2 ++ rs1 ++ f3 ++ (0#3 ++ a ++ b) ++ 0b0100011#7 =
      stype (0#10 ++ (a ++ b)) rs2 rs1 f3 0b0100011#7 := by
  have hhi : (0#10 ++ (a ++ b)).extractLsb 11 5 = 0#7 := by decide +revert
  have hlo : (0#10 ++ (a ++ b)).extractLsb 4 0 = 0#3 ++ a ++ b := by decide +revert
  unfold stype
  rw [hhi, hlo]
  rfl

theorem zcb_load (a b : BitVec 1) : 0#5 ++ (0#5 ++ a ++ b) = 0#10 ++ (a ++ b) := by
  decide +revert

theorem zcbMem_eq (h : BitVec 16) : zcbMem h = (readZcbMem h).map fun c => c.expand.encode := by
  unfold zcbMem readZcbMem
  dsimp only
  split_ifs
  · rw [append_itype, zcb_load]
    rfl
  · rw [append_itype, zcb_load]
    rfl
  · rw [append_itype, zcb_load]
    rfl
  · rw [zcb_store]
    rfl
  · rfl
  · rw [zcb_store]
    rfl
  · rfl

theorem quadrant0_eq (h : BitVec 16) :
    quadrant0 h = (readQuadrant0 h).map fun c => c.expand.encode := by
  unfold quadrant0 readQuadrant0
  dsimp only
  split_ifs
  · rfl
  · rw [append_itype, ← nzuimm_append]
    rfl
  · rw [append_itype, ← lwOff_append]
    rfl
  · rw [sw_word, ← lwOff_append]
    rfl
  · exact zcbMem_eq h
  · rfl

theorem zcbUnary_eq (h : BitVec 16) :
    zcbUnary h = (readZcbUnary h).map fun c => c.expand.encode := by
  unfold zcbUnary readZcbUnary
  dsimp only
  split_ifs
  · rw [append_itype]
    rfl
  · rfl
  · rfl
  · rfl
  · rw [append_itype]
    rfl
  · rfl

theorem arithReg_eq (h : BitVec 16) :
    arithReg h = (readArithReg h).map fun c => c.expand.encode := by
  unfold arithReg readArithReg
  dsimp only
  split_ifs
  · rfl
  · rfl
  · rfl
  · rfl
  · rfl
  · exact zcbUnary_eq h
  · rfl

theorem arith_eq (h : BitVec 16) : arith h = (readArith h).map fun c => c.expand.encode := by
  unfold arith readArith
  dsimp only
  split_ifs
  · rfl
  · rfl
  · rfl
  · rfl
  · rw [signExtend_append6, append_itype]
    rfl
  · exact arithReg_eq h

theorem lui16_eq (h : BitVec 16) : lui16 h = (readLui16 h).map fun c => c.expand.encode := by
  unfold lui16 readLui16
  split_ifs
  · rfl
  · rw [signExtend_append10, append_itype]
    show _ = some (itype (((nzimm16 h).extractLsb 9 4 ++ 0#4).signExtend 12) _ _ _ _)
    rw [nzimm16_append]
    rfl
  · rfl
  · rw [signExtend_append20, append_utype]
    rfl

theorem quadrant1_eq (h : BitVec 16) :
    quadrant1 h = (readQuadrant1 h).map fun c => c.expand.encode := by
  unfold quadrant1 readQuadrant1
  dsimp only
  split_ifs
  · rw [signExtend_append6, append_itype]
    rfl
  · rw [jalWord_eq]
    rfl
  · rw [signExtend_append6, append_itype]
    rfl
  · exact lui16_eq h
  · exact arith_eq h
  · rw [jalWord_eq]
    rfl
  · rw [branchWord_eq]
    rfl
  · rw [branchWord_eq]
    rfl

/-- C.SWSP -/
theorem swsp_word (off : BitVec 6) (rs2 : BitVec 5) :
    0#4 ++ off.extractLsb 5 4 ++ off.extractLsb 3 3 ++ rs2 ++ 2#5 ++ 0b010#3 ++
      off.extractLsb 2 0 ++ 0b00#2 ++ 0b0100011#7 =
      stype (0#4 ++ off ++ 0#2) rs2 2#5 0b010#3 0b0100011#7 := by
  have hhi : (0#4 ++ off ++ 0#2).extractLsb 11 5 =
      0#4 ++ off.extractLsb 5 4 ++ off.extractLsb 3 3 := by decide +revert
  have hlo : (0#4 ++ off ++ 0#2).extractLsb 4 0 = off.extractLsb 2 0 ++ 0#2 := by decide +revert
  unfold stype
  rw [hhi, hlo]
  exact append_rtype' _ _ _ _ _ _ _

theorem jumpMove_eq (h : BitVec 16) :
    jumpMove h = (readJumpMove h).map fun c => c.expand.encode := by
  unfold jumpMove readJumpMove
  split_ifs
  · rfl
  · rw [append_itype]
    rfl
  · rfl
  · rfl
  · rw [append_itype]
    rfl
  · rfl

theorem quadrant2_eq (h : BitVec 16) :
    quadrant2 h = (readQuadrant2 h).map fun c => c.expand.encode := by
  unfold quadrant2 readQuadrant2
  dsimp only
  split_ifs
  · rfl
  · rfl
  · rfl
  · rw [append_itype]
    rfl
  · exact jumpMove_eq h
  · rw [swsp_word]
    rfl
  · rfl

/-- The expander gives the words of the instructions that it reads. -/
theorem instr32_eq {h : BitVec 16} (hc : isCompressed h = true) :
    instr32 h = (read h).map fun c => c.expand.encode := by
  unfold isCompressed at hc
  rw [bne_iff_ne] at hc
  unfold instr32 read
  dsimp only
  split_ifs with h0 h1 h2
  · exact quadrant0_eq h
  · exact quadrant1_eq h
  · exact quadrant2_eq h
  · exfalso
    revert hc h0 h1 h2
    generalize h.extractLsb 1 0 = q
    decide +revert

end ThreeSippEs.Isa
