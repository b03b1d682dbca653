import ThreeSippEs.Isa.Instr

/-!
# The compressed instructions

The 16-bit instructions of RV32C and Zcb, as the instruction set has them: their
operands, their encodings and the instructions they stand for. Offsets and immediates
are counted in the unit of the instruction, so that the bits that are always zero are
left out.

- `CInstr`, `CInstr.encode`: the instructions and their halfwords;
- `CInstr.Valid`: the operands that are not reserved;
- `CInstr.expand`: the 32-bit instruction;
- `CInstr.Hint`: the instructions without effect.
-/

namespace ThreeSippEs.Isa

/-! ## Formats -/

/-- `funct4 | rd/rs1 | rs2 | op` -/
def crtype (funct4 : BitVec 4) (rd rs2 : BitVec 5) (op : BitVec 2) : BitVec 16 :=
  funct4 ++ rd ++ rs2 ++ op

/-- `funct3 | imm[5] | rd/rs1 | imm[4:0] | op` -/
def citype (funct3 : BitVec 3) (imm : BitVec 6) (rd : BitVec 5) (op : BitVec 2) : BitVec 16 :=
  funct3 ++ imm.extractLsb 5 5 ++ rd ++ imm.extractLsb 4 0 ++ op

/-- `funct3 | imm | rs2 | op` -/
def csstype (funct3 : BitVec 3) (imm : BitVec 6) (rs2 : BitVec 5) (op : BitVec 2) : BitVec 16 :=
  funct3 ++ imm ++ rs2 ++ op

/-- `funct3 | imm | rd' | op` -/
def ciwtype (funct3 : BitVec 3) (imm : BitVec 8) (rd : BitVec 3) (op : BitVec 2) : BitVec 16 :=
  funct3 ++ imm ++ rd ++ op

/-- `funct3 | imm | rs1' | imm | rd'/rs2' | op` -/
def cltype (funct3 immHi : BitVec 3) (rs1 : BitVec 3) (immLo : BitVec 2) (r : BitVec 3)
    (op : BitVec 2) : BitVec 16 :=
  funct3 ++ immHi ++ rs1 ++ immLo ++ r ++ op

/-- `funct6 | rd'/rs1' | funct2 | rs2' | op` -/
def catype (funct6 : BitVec 6) (rd : BitVec 3) (funct2 : BitVec 2) (rs2 : BitVec 3)
    (op : BitVec 2) : BitVec 16 :=
  funct6 ++ rd ++ funct2 ++ rs2 ++ op

/-- `funct3 | offset | rs1' | offset | op` -/
def cbtype (funct3 offHi : BitVec 3) (rs1 : BitVec 3) (offLo : BitVec 5) (op : BitVec 2) :
    BitVec 16 :=
  funct3 ++ offHi ++ rs1 ++ offLo ++ op

/-- `funct3 | imm[5] | funct2 | rd'/rs1' | imm[4:0] | op` -/
def cbitype (funct3 : BitVec 3) (imm : BitVec 6) (funct2 : BitVec 2) (rd : BitVec 3)
    (op : BitVec 2) : BitVec 16 :=
  cbtype funct3 (imm.extractLsb 5 5 ++ funct2) rd (imm.extractLsb 4 0) op

/-- `funct3 | imm[11|4|9:8|10|6|7|3:1|5] | op`, for `imm[11:1]`. -/
def cjtype (funct3 : BitVec 3) (imm : BitVec 11) (op : BitVec 2) : BitVec 16 :=
  funct3 ++ imm.extractLsb 10 10 ++ imm.extractLsb 3 3 ++ imm.extractLsb 8 7 ++
    imm.extractLsb 9 9 ++ imm.extractLsb 5 5 ++ imm.extractLsb 6 6 ++ imm.extractLsb 2 0 ++
    imm.extractLsb 4 4 ++ op

/-! ## Instructions -/

inductive CArith
  | sub | xor | or | and | mul
  deriving DecidableEq

/-- `funct6` and `funct2` -/
def CArith.code : CArith → BitVec 6 × BitVec 2
  | .sub => (0b100011#6, 0b00#2)
  | .xor => (0b100011#6, 0b01#2)
  | .or => (0b100011#6, 0b10#2)
  | .and => (0b100011#6, 0b11#2)
  | .mul => (0b100111#6, 0b10#2)

inductive CUnary
  | zextb | sextb | zexth | sexth | not
  deriving DecidableEq

/-- The `rs2'` field. -/
def CUnary.code : CUnary → BitVec 3
  | .zextb => 0b000#3
  | .sextb => 0b001#3
  | .zexth => 0b010#3
  | .sexth => 0b011#3
  | .not => 0b101#3

/-- Registers of three bits are the popular ones. -/
inductive CInstr
  | addi4spn (rd : BitVec 3) (imm : BitVec 8)
  | lw (rd rs1 : BitVec 3) (off : BitVec 5)
  | sw (rs2 rs1 : BitVec 3) (off : BitVec 5)
  | lbu (rd rs1 : BitVec 3) (off : BitVec 2)
  | lhu (rd rs1 : BitVec 3) (off : BitVec 1)
  | lh (rd rs1 : BitVec 3) (off : BitVec 1)
  | sb (rs2 rs1 : BitVec 3) (off : BitVec 2)
  | sh (rs2 rs1 : BitVec 3) (off : BitVec 1)
  | addi (rd : BitVec 5) (imm : BitVec 6)
  | jal (off : BitVec 11)
  | li (rd : BitVec 5) (imm : BitVec 6)
  | addi16sp (imm : BitVec 6)
  | lui (rd : BitVec 5) (imm : BitVec 6)
  | srli (rd : BitVec 3) (shamt : BitVec 5)
  | srai (rd : BitVec 3) (shamt : BitVec 5)
  | andi (rd : BitVec 3) (imm : BitVec 6)
  | arith (o : CArith) (rd rs2 : BitVec 3)
  | unary (o : CUnary) (rd : BitVec 3)
  | j (off : BitVec 11)
  | beqz (rs1 : BitVec 3) (off : BitVec 8)
  | bnez (rs1 : BitVec 3) (off : BitVec 8)
  | slli (rd : BitVec 5) (shamt : BitVec 5)
  | lwsp (rd : BitVec 5) (off : BitVec 6)
  | jr (rs1 : BitVec 5)
  | mv (rd rs2 : BitVec 5)
  | ebreak
  | jalr (rs1 : BitVec 5)
  | add (rd rs2 : BitVec 5)
  | swsp (rs2 : BitVec 5) (off : BitVec 6)
  deriving DecidableEq

/-- `offset[8|4:3]` and `offset[7:6|2:1|5]` of a branch, for `offset[8:1]`. -/
def cbOffset (off : BitVec 8) : BitVec 3 × BitVec 5 :=
  (off.extractLsb 7 7 ++ off.extractLsb 3 2, off.extractLsb 6 5 ++ off.extractLsb 1 0 ++
    off.extractLsb 4 4)

/-- The halfword of an instruction. -/
def CInstr.encode : CInstr → BitVec 16
  -- `imm[5:4|9:6|2|3]`, for `imm[9:2]`
  | .addi4spn rd imm =>
    ciwtype 0b000#3 (imm.extractLsb 3 2 ++ imm.extractLsb 7 4 ++ imm.extractLsb 0 0 ++
      imm.extractLsb 1 1) rd 0b00#2
  -- `off[5:3]` and `off[2|6]`, for `off[6:2]`
  | .lw rd rs1 off =>
    cltype 0b010#3 (off.extractLsb 3 1) rs1 (off.extractLsb 0 0 ++ off.extractLsb 4 4) rd 0b00#2
  | .sw rs2 rs1 off =>
    cltype 0b110#3 (off.extractLsb 3 1) rs1 (off.extractLsb 0 0 ++ off.extractLsb 4 4) rs2 0b00#2
  -- `off[0|1]`
  | .lbu rd rs1 off =>
    cltype 0b100#3 0b000#3 rs1 (off.extractLsb 0 0 ++ off.extractLsb 1 1) rd 0b00#2
  | .lhu rd rs1 off => cltype 0b100#3 0b001#3 rs1 (0b0#1 ++ off) rd 0b00#2
  | .lh rd rs1 off => cltype 0b100#3 0b001#3 rs1 (0b1#1 ++ off) rd 0b00#2
  | .sb rs2 rs1 off =>
    cltype 0b100#3 0b010#3 rs1 (off.extractLsb 0 0 ++ off.extractLsb 1 1) rs2 0b00#2
  | .sh rs2 rs1 off => cltype 0b100#3 0b011#3 rs1 (0b0#1 ++ off) rs2 0b00#2
  | .addi rd imm => citype 0b000#3 imm rd 0b01#2
  | .jal off => cjtype 0b001#3 off 0b01#2
  | .li rd imm => citype 0b010#3 imm rd 0b01#2
  -- `imm[9]` and `imm[4|6|8:7|5]`, for `imm[9:4]`
  | .addi16sp imm =>
    citype 0b011#3 (imm.extractLsb 5 5 ++ imm.extractLsb 0 0 ++ imm.extractLsb 2 2 ++
      imm.extractLsb 4 3 ++ imm.extractLsb 1 1) 2#5 0b01#2
  | .lui rd imm => citype 0b011#3 imm rd 0b01#2
  | .srli rd shamt => cbitype 0b100#3 (0b0#1 ++ shamt) 0b00#2 rd 0b01#2
  | .srai rd shamt => cbitype 0b100#3 (0b0#1 ++ shamt) 0b01#2 rd 0b01#2
  | .andi rd imm => cbitype 0b100#3 imm 0b10#2 rd 0b01#2
  | .arith o rd rs2 => catype o.code.1 rd o.code.2 rs2 0b01#2
  | .unary o rd => catype 0b100111#6 rd 0b11#2 o.code 0b01#2
  | .j off => cjtype 0b101#3 off 0b01#2
  | .beqz rs1 off => cbtype 0b110#3 (cbOffset off).1 rs1 (cbOffset off).2 0b01#2
  | .bnez rs1 off => cbtype 0b111#3 (cbOffset off).1 rs1 (cbOffset off).2 0b01#2
  | .slli rd shamt => citype 0b000#3 (0b0#1 ++ shamt) rd 0b10#2
  -- `off[5]` and `off[4:2|7:6]`, for `off[7:2]`
  | .lwsp rd off =>
    citype 0b010#3 (off.extractLsb 3 3 ++ off.extractLsb 2 0 ++ off.extractLsb 5 4) rd 0b10#2
  | .jr rs1 => crtype 0b1000#4 rs1 0#5 0b10#2
  | .mv rd rs2 => crtype 0b1000#4 rd rs2 0b10#2
  | .ebreak => crtype 0b1001#4 0#5 0#5 0b10#2
  | .jalr rs1 => crtype 0b1001#4 rs1 0#5 0b10#2
  | .add rd rs2 => crtype 0b1001#4 rd rs2 0b10#2
  -- `off[5:2|7:6]`, for `off[7:2]`
  | .swsp rs2 off => csstype 0b110#3 (off.extractLsb 3 0 ++ off.extractLsb 5 4) rs2 0b10#2

/-- The operands that the instruction set does not reserve. -/
def CInstr.Valid : CInstr → Prop
  | .addi4spn _ imm => imm ≠ 0#8
  | .addi16sp imm => imm ≠ 0#6
  | .lui rd imm => rd ≠ 2#5 ∧ imm ≠ 0#6
  | .lwsp rd _ => rd ≠ 0#5
  | .jr rs1 => rs1 ≠ 0#5
  | .mv _ rs2 => rs2 ≠ 0#5
  | .jalr rs1 => rs1 ≠ 0#5
  | .add _ rs2 => rs2 ≠ 0#5
  | _ => True

/-- The halfwords of the instructions. -/
def CDefined (h : BitVec 16) : Prop := ∃ c : CInstr, c.Valid ∧ c.encode = h

/-! ## What they stand for -/

/-- `x8` to `x15` -/
def creg (r : BitVec 3) : BitVec 5 := 0b01#2 ++ r

def CArith.expand (rd rs2 : BitVec 5) : CArith → Instr
  | .sub => .op .sub rd rd rs2
  | .xor => .op .xor rd rd rs2
  | .or => .op .or rd rd rs2
  | .and => .op .and rd rd rs2
  | .mul => .mul .mul rd rd rs2

def CUnary.expand (rd : BitVec 5) : CUnary → Instr
  | .zextb => .opImm .andi rd rd 0x0FF#12
  | .sextb => .unary .sextb rd rd
  | .zexth => .unary .zexth rd rd
  | .sexth => .unary .sexth rd rd
  | .not => .opImm .xori rd rd 0xFFF#12

/-- The 32-bit instruction. -/
def CInstr.expand : CInstr → Instr
  | .addi4spn rd imm => .opImm .addi (creg rd) 2#5 (0#2 ++ imm ++ 0#2)
  | .lw rd rs1 off => .load .lw (creg rd) (creg rs1) (0#5 ++ off ++ 0#2)
  | .sw rs2 rs1 off => .store .sw (creg rs2) (creg rs1) (0#5 ++ off ++ 0#2)
  | .lbu rd rs1 off => .load .lbu (creg rd) (creg rs1) (0#10 ++ off)
  | .lhu rd rs1 off => .load .lhu (creg rd) (creg rs1) (0#10 ++ (off ++ 0#1))
  | .lh rd rs1 off => .load .lh (creg rd) (creg rs1) (0#10 ++ (off ++ 0#1))
  | .sb rs2 rs1 off => .store .sb (creg rs2) (creg rs1) (0#10 ++ off)
  | .sh rs2 rs1 off => .store .sh (creg rs2) (creg rs1) (0#10 ++ (off ++ 0#1))
  | .addi rd imm => .opImm .addi rd rd (imm.signExtend 12)
  | .jal off => .jal 1#5 (off.signExtend 20)
  | .li rd imm => .opImm .addi rd 0#5 (imm.signExtend 12)
  | .addi16sp imm => .opImm .addi 2#5 2#5 ((imm ++ 0#4).signExtend 12)
  | .lui rd imm => .lui rd (imm.signExtend 20)
  | .srli rd shamt => .shift .srli (creg rd) (creg rd) shamt
  | .srai rd shamt => .shift .srai (creg rd) (creg rd) shamt
  | .andi rd imm => .opImm .andi (creg rd) (creg rd) (imm.signExtend 12)
  | .arith o rd rs2 => o.expand (creg rd) (creg rs2)
  | .unary o rd => o.expand (creg rd)
  | .j off => .jal 0#5 (off.signExtend 20)
  | .beqz rs1 off => .branch .beq (creg rs1) 0#5 (off.signExtend 12)
  | .bnez rs1 off => .branch .bne (creg rs1) 0#5 (off.signExtend 12)
  | .slli rd shamt => .shift .slli rd rd shamt
  | .lwsp rd off => .load .lw rd 2#5 (0#4 ++ off ++ 0#2)
  | .jr rs1 => .jalr 0#5 rs1 0#12
  | .mv rd rs2 => .op .add rd 0#5 rs2
  | .ebreak => .ebreak
  | .jalr rs1 => .jalr 1#5 rs1 0#12
  | .add rd rs2 => .op .add rd rd rs2
  | .swsp rs2 off => .store .sw rs2 2#5 (0#4 ++ off ++ 0#2)

/-- The code points that are HINTs, C.NOP among them. -/
def CInstr.Hint : CInstr → Prop
  | .addi rd imm => rd = 0#5 ∨ imm = 0#6
  | .li rd _ => rd = 0#5
  | .lui rd _ => rd = 0#5
  | .srli _ shamt => shamt = 0#5
  | .srai _ shamt => shamt = 0#5
  | .slli rd shamt => rd = 0#5 ∨ shamt = 0#5
  | .mv rd _ => rd = 0#5
  | .add rd _ => rd = 0#5
  | _ => False

end ThreeSippEs.Isa
