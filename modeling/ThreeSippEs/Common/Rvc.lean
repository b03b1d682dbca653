import ThreeSippEs.Common.Pkg

/-!
# RV32C expander (`three_sipp_es_rvc.sv`)

`Rvc.instr32` is the 32-bit instruction a compressed halfword stands for.
Wherever the source sets `decomp_illegal` it also sets `instr32 = 0`, so the two
outputs together are an `Option`: `none` is `decomp_illegal`.
-/

namespace ThreeSippEs.Rvc

/-- `rp`: a three-bit register field names `x8`..`x15`. -/
def rp (bits : BitVec 3) : BitVec 5 := 0b01#2 ++ bits

/-- `is_compressed` -/
def isCompressed (instr16 : BitVec 16) : Bool := instr16.extractLsb 1 0 != 0b11#2

def funct3 (instr16 : BitVec 16) : BitVec 3 := instr16.extractLsb 15 13
def rs2Full (instr16 : BitVec 16) : BitVec 5 := instr16.extractLsb 6 2
def rdFull (instr16 : BitVec 16) : BitVec 5 := instr16.extractLsb 11 7
def rs2P (instr16 : BitVec 16) : BitVec 5 := rp (instr16.extractLsb 4 2)
def rdP (instr16 : BitVec 16) : BitVec 5 := rp (instr16.extractLsb 9 7)

/-! ## Immediates -/

def nzuimm (i : BitVec 16) : BitVec 10 :=
  i.extractLsb 10 7 ++ i.extractLsb 12 11 ++ i.extractLsb 5 5 ++ i.extractLsb 6 6 ++ 0b00#2

def lwOff (i : BitVec 16) : BitVec 7 :=
  i.extractLsb 5 5 ++ i.extractLsb 12 10 ++ i.extractLsb 6 6 ++ 0b00#2

/-- `nzimm6`, `lui_nzimm` and `shamt6` are the same field `{inst[12], inst[6:2]}`. -/
def imm6 (i : BitVec 16) : BitVec 6 := i.extractLsb 12 12 ++ i.extractLsb 6 2

/-- `j_off[11:1]` -/
def jOff (i : BitVec 16) : BitVec 11 :=
  i.extractLsb 12 12 ++ i.extractLsb 8 8 ++ i.extractLsb 10 9 ++ i.extractLsb 6 6 ++
    i.extractLsb 7 7 ++ i.extractLsb 2 2 ++ i.extractLsb 11 11 ++ i.extractLsb 5 3

def nzimm16 (i : BitVec 16) : BitVec 10 :=
  i.extractLsb 12 12 ++ i.extractLsb 4 3 ++ i.extractLsb 5 5 ++ i.extractLsb 2 2 ++
    i.extractLsb 6 6 ++ 0b0000#4

/-- `b_off[8:1]` -/
def bOff (i : BitVec 16) : BitVec 8 :=
  i.extractLsb 12 12 ++ i.extractLsb 6 5 ++ i.extractLsb 2 2 ++ i.extractLsb 11 10 ++
    i.extractLsb 4 3

/-- `lwsp_off[7:2]` -/
def lwspOff (i : BitVec 16) : BitVec 6 :=
  i.extractLsb 3 2 ++ i.extractLsb 12 12 ++ i.extractLsb 6 4

/-- `swsp_off[7:2]` -/
def swspOff (i : BitVec 16) : BitVec 6 := i.extractLsb 8 7 ++ i.extractLsb 12 9

/-! ## Formats shared by several arms -/

/-- `{j_off[11], j_off[10:1], j_off[11], {8{j_off[11]}}, rd, JAL}`: C.JAL and C.J. -/
def jalWord (i : BitVec 16) (rd : BitVec 5) : Word :=
  let j := jOff i
  j.extractLsb 10 10 ++ j.extractLsb 9 0 ++ j.extractLsb 10 10 ++
    (j.extractLsb 10 10).signExtend 8 ++ rd ++ 0b1101111#7

/-- `{{4{b_off[8]}}, b_off[7:5], x0, rd', f3, b_off[4:1], b_off[8], BRANCH}`:
C.BEQZ and C.BNEZ. -/
def branchWord (i : BitVec 16) (f3 : BitVec 3) : Word :=
  let b := bOff i
  (b.extractLsb 7 7).signExtend 4 ++ b.extractLsb 6 4 ++ 0#5 ++ rdP i ++ f3 ++
    b.extractLsb 3 0 ++ b.extractLsb 7 7 ++ 0b1100011#7

/-- A register-register instruction on `rd'` and `rs2'`. -/
def regWord (i : BitVec 16) (f7 : BitVec 7) (f3 : BitVec 3) : Word :=
  f7 ++ rs2P i ++ rdP i ++ f3 ++ rdP i ++ 0b0110011#7

/-! ## Quadrant 0 -/

/-- Zcb sub-word loads and stores (`funct3 = 100`). -/
def zcbMem (i : BitVec 16) : Option Word :=
  let f := i.extractLsb 12 10
  if f = 0b000#3 then         -- C.LBU
    some (0#5 ++ (0#5 ++ i.extractLsb 5 5 ++ i.extractLsb 6 6) ++ rdP i ++ 0b100#3 ++
      rs2P i ++ 0b0000011#7)
  else if f = 0b001#3 then    -- C.LH when inst[6], else C.LHU
    some (0#5 ++ (0#5 ++ i.extractLsb 5 5 ++ 0#1) ++ rdP i ++
      (if i.getLsbD 6 then 0b001#3 else 0b101#3) ++ rs2P i ++ 0b0000011#7)
  else if f = 0b010#3 then    -- C.SB
    some (0#7 ++ rs2P i ++ rdP i ++ 0b000#3 ++
      (0#3 ++ i.extractLsb 5 5 ++ i.extractLsb 6 6) ++ 0b0100011#7)
  else if f = 0b011#3 then    -- C.SH
    if i.getLsbD 6 then none
    else some (0#7 ++ rs2P i ++ rdP i ++ 0b001#3 ++ (0#3 ++ i.extractLsb 5 5 ++ 0#1) ++
      0b0100011#7)
  else none

def quadrant0 (i : BitVec 16) : Option Word :=
  let lw := lwOff i
  if funct3 i = 0b000#3 then
    if nzuimm i = 0#10 then none
    else some (0b00#2 ++ nzuimm i ++ 2#5 ++ 0b000#3 ++ rs2P i ++ 0b0010011#7)
  else if funct3 i = 0b010#3 then
    some (0#5 ++ lw ++ rdP i ++ 0b010#3 ++ rs2P i ++ 0b0000011#7)
  else if funct3 i = 0b110#3 then
    some (0#5 ++ lw.extractLsb 6 6 ++ lw.extractLsb 5 5 ++ rs2P i ++ rdP i ++ 0b010#3 ++
      lw.extractLsb 4 0 ++ 0b0100011#7)
  else if funct3 i = 0b100#3 then zcbMem i
  else none

/-! ## Quadrant 1 -/

/-- Zcb unary operations, selected by `inst[4:2]`. -/
def zcbUnary (i : BitVec 16) : Option Word :=
  let f := i.extractLsb 4 2
  if f = 0b000#3 then         -- C.ZEXT.B
    some (0x0FF#12 ++ rdP i ++ 0b111#3 ++ rdP i ++ 0b0010011#7)
  else if f = 0b001#3 then    -- C.SEXT.B
    some (0b0110000#7 ++ 0b00100#5 ++ rdP i ++ 0b001#3 ++ rdP i ++ 0b0010011#7)
  else if f = 0b010#3 then    -- C.ZEXT.H
    some (0b0000100#7 ++ 0b00000#5 ++ rdP i ++ 0b100#3 ++ rdP i ++ 0b0110011#7)
  else if f = 0b011#3 then    -- C.SEXT.H
    some (0b0110000#7 ++ 0b00101#5 ++ rdP i ++ 0b001#3 ++ rdP i ++ 0b0010011#7)
  else if f = 0b101#3 then    -- C.NOT
    some (0xFFF#12 ++ rdP i ++ 0b100#3 ++ rdP i ++ 0b0010011#7)
  else none

/-- `inst[11:10] = 11`: register-register operations and Zcb. -/
def arithReg (i : BitVec 16) : Option Word :=
  let f : BitVec 3 := i.extractLsb 12 12 ++ i.extractLsb 6 5
  if f = 0b000#3 then some (regWord i 0b0100000#7 0b000#3)
  else if f = 0b001#3 then some (regWord i 0b0000000#7 0b100#3)
  else if f = 0b010#3 then some (regWord i 0b0000000#7 0b110#3)
  else if f = 0b011#3 then some (regWord i 0b0000000#7 0b111#3)
  else if f = 0b110#3 then some (regWord i 0b0000001#7 0b000#3)   -- C.MUL
  else if f = 0b111#3 then zcbUnary i
  else none

/-- `funct3 = 100` of quadrant 1. -/
def arith (i : BitVec 16) : Option Word :=
  let sh := imm6 i
  let f := i.extractLsb 11 10
  if f = 0b00#2 then
    if sh.getLsbD 5 then none
    else some (0b0000000#7 ++ sh.extractLsb 4 0 ++ rdP i ++ 0b101#3 ++ rdP i ++ 0b0010011#7)
  else if f = 0b01#2 then
    if sh.getLsbD 5 then none
    else some (0b0100000#7 ++ sh.extractLsb 4 0 ++ rdP i ++ 0b101#3 ++ rdP i ++ 0b0010011#7)
  else if f = 0b10#2 then
    some ((sh.extractLsb 5 5).signExtend 6 ++ sh ++ rdP i ++ 0b111#3 ++ rdP i ++ 0b0010011#7)
  else arithReg i

/-- C.ADDI16SP when `rd = x2`, else C.LUI. -/
def lui16 (i : BitVec 16) : Option Word :=
  if rdFull i = 2#5 then
    if nzimm16 i = 0#10 then none
    else some ((((nzimm16 i).extractLsb 9 9).signExtend 2) ++ nzimm16 i ++ 2#5 ++ 0b000#3 ++
      2#5 ++ 0b0010011#7)
  else if imm6 i = 0#6 then none
  else some (((imm6 i).extractLsb 5 5).signExtend 14 ++ imm6 i ++ rdFull i ++ 0b0110111#7)

def quadrant1 (i : BitVec 16) : Option Word :=
  let imm : BitVec 12 := ((imm6 i).extractLsb 5 5).signExtend 6 ++ imm6 i
  if funct3 i = 0b000#3 then
    some (imm ++ rdFull i ++ 0b000#3 ++ rdFull i ++ 0b0010011#7)
  else if funct3 i = 0b001#3 then some (jalWord i 1#5)
  else if funct3 i = 0b010#3 then
    some (imm ++ 0#5 ++ 0b000#3 ++ rdFull i ++ 0b0010011#7)
  else if funct3 i = 0b011#3 then lui16 i
  else if funct3 i = 0b100#3 then arith i
  else if funct3 i = 0b101#3 then some (jalWord i 0#5)
  else if funct3 i = 0b110#3 then some (branchWord i 0b000#3)
  else some (branchWord i 0b001#3)

/-! ## Quadrant 2 -/

/-- `funct3 = 100` of quadrant 2: C.JR, C.MV, C.EBREAK, C.JALR and C.ADD. -/
def jumpMove (i : BitVec 16) : Option Word :=
  if i.getLsbD 12 = false then
    if rs2Full i = 0#5 then
      if rdFull i = 0#5 then none
      else some (0x0#12 ++ rdFull i ++ 0b000#3 ++ 0#5 ++ 0b1100111#7)
    else some (0b0000000#7 ++ rs2Full i ++ 0#5 ++ 0b000#3 ++ rdFull i ++ 0b0110011#7)
  else if rs2Full i = 0#5 then
    if rdFull i = 0#5 then some 0x00100073#32
    else some (0x0#12 ++ rdFull i ++ 0b000#3 ++ 1#5 ++ 0b1100111#7)
  else some (0b0000000#7 ++ rs2Full i ++ rdFull i ++ 0b000#3 ++ rdFull i ++ 0b0110011#7)

def quadrant2 (i : BitVec 16) : Option Word :=
  let sh := imm6 i
  let sw := swspOff i
  if funct3 i = 0b000#3 then
    if sh.getLsbD 5 ∨ sh = 0#6 then none
    else some (0b0000000#7 ++ sh.extractLsb 4 0 ++ rdFull i ++ 0b001#3 ++ rdFull i ++
      0b0010011#7)
  else if funct3 i = 0b010#3 then
    if rdFull i = 0#5 then none
    else some (0#4 ++ lwspOff i ++ 0b00#2 ++ 2#5 ++ 0b010#3 ++ rdFull i ++ 0b0000011#7)
  else if funct3 i = 0b100#3 then jumpMove i
  else if funct3 i = 0b110#3 then
    some (0#4 ++ sw.extractLsb 5 4 ++ sw.extractLsb 3 3 ++ rs2Full i ++ 2#5 ++ 0b010#3 ++
      sw.extractLsb 2 0 ++ 0b00#2 ++ 0b0100011#7)
  else none

/-- `instr32` and `decomp_illegal`. A halfword of quadrant 3 is passed through
zero-extended (the fetch stage never uses it). -/
def instr32 (instr16 : BitVec 16) : Option Word :=
  let quadrant := instr16.extractLsb 1 0
  if quadrant = 0b00#2 then quadrant0 instr16
  else if quadrant = 0b01#2 then quadrant1 instr16
  else if quadrant = 0b10#2 then quadrant2 instr16
  else some (instr16.setWidth 32)

end ThreeSippEs.Rvc
