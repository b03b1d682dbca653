import ThreeSippEs.Common.Formats

/-!
# The instructions

The instructions of RV32IMA, Zicsr, Zifencei, Zba, Zbb, Zbc, Zbs and Zicond and the
system instructions, as the instruction set has them: their operands and their
encodings. Branch and jump offsets are counted in halfwords.

- `Instr`, `Instr.encode`: the instructions and their words;
- `Defined`: the words that encode one.
-/

namespace ThreeSippEs.Isa

open Formats

/-! ## Operations -/

inductive BranchOp
  | beq | bne | blt | bge | bltu | bgeu
  deriving DecidableEq

def BranchOp.funct3 : BranchOp → BitVec 3
  | .beq => 0b000#3
  | .bne => 0b001#3
  | .blt => 0b100#3
  | .bge => 0b101#3
  | .bltu => 0b110#3
  | .bgeu => 0b111#3

inductive LoadOp
  | lb | lh | lw | lbu | lhu
  deriving DecidableEq

def LoadOp.funct3 : LoadOp → BitVec 3
  | .lb => 0b000#3
  | .lh => 0b001#3
  | .lw => 0b010#3
  | .lbu => 0b100#3
  | .lhu => 0b101#3

inductive StoreOp
  | sb | sh | sw
  deriving DecidableEq

def StoreOp.funct3 : StoreOp → BitVec 3
  | .sb => 0b000#3
  | .sh => 0b001#3
  | .sw => 0b010#3

/-- A register and a 12-bit immediate. -/
inductive ImmOp
  | addi | slti | sltiu | xori | ori | andi
  deriving DecidableEq

def ImmOp.funct3 : ImmOp → BitVec 3
  | .addi => 0b000#3
  | .slti => 0b010#3
  | .sltiu => 0b011#3
  | .xori => 0b100#3
  | .ori => 0b110#3
  | .andi => 0b111#3

/-- A register and a shift amount or bit index. -/
inductive ShiftOp
  | slli | srli | srai | rori | bseti | bclri | binvi | bexti
  deriving DecidableEq

/-- `funct7` and `funct3` -/
def ShiftOp.code : ShiftOp → BitVec 7 × BitVec 3
  | .slli => (0b0000000#7, 0b001#3)
  | .srli => (0b0000000#7, 0b101#3)
  | .srai => (0b0100000#7, 0b101#3)
  | .rori => (0b0110000#7, 0b101#3)
  | .bseti => (0b0010100#7, 0b001#3)
  | .bclri => (0b0100100#7, 0b001#3)
  | .binvi => (0b0110100#7, 0b001#3)
  | .bexti => (0b0100100#7, 0b101#3)

/-- One register. -/
inductive UnaryOp
  | clz | ctz | cpop | sextb | sexth | zexth | rev8 | orcb
  deriving DecidableEq

/-- `funct7`, `rs2`, `funct3` and the opcode -/
def UnaryOp.code : UnaryOp → BitVec 7 × BitVec 5 × BitVec 3 × BitVec 7
  | .clz => (0b0110000#7, 0b00000#5, 0b001#3, 0b0010011#7)
  | .ctz => (0b0110000#7, 0b00001#5, 0b001#3, 0b0010011#7)
  | .cpop => (0b0110000#7, 0b00010#5, 0b001#3, 0b0010011#7)
  | .sextb => (0b0110000#7, 0b00100#5, 0b001#3, 0b0010011#7)
  | .sexth => (0b0110000#7, 0b00101#5, 0b001#3, 0b0010011#7)
  | .zexth => (0b0000100#7, 0b00000#5, 0b100#3, 0b0110011#7)
  | .rev8 => (0b0110100#7, 0b11000#5, 0b101#3, 0b0010011#7)
  | .orcb => (0b0010100#7, 0b00111#5, 0b101#3, 0b0010011#7)

/-- Two registers. -/
inductive RegOp
  | add | sub | sll | slt | sltu | xor | srl | sra | or | and
  | andn | orn | xnor | min | minu | max | maxu | rol | ror
  | clmul | clmulh | clmulr
  | bset | bclr | binv | bext
  | sh1add | sh2add | sh3add
  | czeroEqz | czeroNez
  deriving DecidableEq

/-- `funct7` and `funct3` -/
def RegOp.code : RegOp → BitVec 7 × BitVec 3
  | .add => (0b0000000#7, 0b000#3)
  | .sub => (0b0100000#7, 0b000#3)
  | .sll => (0b0000000#7, 0b001#3)
  | .slt => (0b0000000#7, 0b010#3)
  | .sltu => (0b0000000#7, 0b011#3)
  | .xor => (0b0000000#7, 0b100#3)
  | .srl => (0b0000000#7, 0b101#3)
  | .sra => (0b0100000#7, 0b101#3)
  | .or => (0b0000000#7, 0b110#3)
  | .and => (0b0000000#7, 0b111#3)
  | .andn => (0b0100000#7, 0b111#3)
  | .orn => (0b0100000#7, 0b110#3)
  | .xnor => (0b0100000#7, 0b100#3)
  | .min => (0b0000101#7, 0b100#3)
  | .minu => (0b0000101#7, 0b101#3)
  | .max => (0b0000101#7, 0b110#3)
  | .maxu => (0b0000101#7, 0b111#3)
  | .rol => (0b0110000#7, 0b001#3)
  | .ror => (0b0110000#7, 0b101#3)
  | .clmul => (0b0000101#7, 0b001#3)
  | .clmulh => (0b0000101#7, 0b011#3)
  | .clmulr => (0b0000101#7, 0b010#3)
  | .bset => (0b0010100#7, 0b001#3)
  | .bclr => (0b0100100#7, 0b001#3)
  | .binv => (0b0110100#7, 0b001#3)
  | .bext => (0b0100100#7, 0b101#3)
  | .sh1add => (0b0010000#7, 0b010#3)
  | .sh2add => (0b0010000#7, 0b100#3)
  | .sh3add => (0b0010000#7, 0b110#3)
  | .czeroEqz => (0b0000111#7, 0b101#3)
  | .czeroNez => (0b0000111#7, 0b111#3)

/-- The `funct3` of the M extension. -/
def mulFunct3 : MdOp → BitVec 3
  | .mul => 0b000#3
  | .mulh => 0b001#3
  | .mulhsu => 0b010#3
  | .mulhu => 0b011#3
  | .div => 0b100#3
  | .divu => 0b101#3
  | .rem => 0b110#3
  | .remu => 0b111#3

inductive AmoOp
  | swap | add | xor | and | or | min | max | minu | maxu
  deriving DecidableEq

def AmoOp.funct5 : AmoOp → BitVec 5
  | .swap => 0b00001#5
  | .add => 0b00000#5
  | .xor => 0b00100#5
  | .and => 0b01100#5
  | .or => 0b01000#5
  | .min => 0b10000#5
  | .max => 0b10100#5
  | .minu => 0b11000#5
  | .maxu => 0b11100#5

inductive CsrOp
  | rw | rs | rc
  deriving DecidableEq

/-- `funct3[1:0]` -/
def CsrOp.fn : CsrOp → BitVec 2
  | .rw => 0b01#2
  | .rs => 0b10#2
  | .rc => 0b11#2

/-! ## Instructions -/

inductive Instr
  | lui (rd : BitVec 5) (imm : BitVec 20)
  | auipc (rd : BitVec 5) (imm : BitVec 20)
  | jal (rd : BitVec 5) (off : BitVec 20)
  | jalr (rd rs1 : BitVec 5) (imm : BitVec 12)
  | branch (o : BranchOp) (rs1 rs2 : BitVec 5) (off : BitVec 12)
  | load (o : LoadOp) (rd rs1 : BitVec 5) (imm : BitVec 12)
  | store (o : StoreOp) (rs2 rs1 : BitVec 5) (imm : BitVec 12)
  | opImm (o : ImmOp) (rd rs1 : BitVec 5) (imm : BitVec 12)
  | shift (o : ShiftOp) (rd rs1 shamt : BitVec 5)
  | unary (o : UnaryOp) (rd rs1 : BitVec 5)
  | op (o : RegOp) (rd rs1 rs2 : BitVec 5)
  | mul (o : MdOp) (rd rs1 rs2 : BitVec 5)
  | lr (aqrl : BitVec 2) (rd rs1 : BitVec 5)
  | sc (aqrl : BitVec 2) (rd rs1 rs2 : BitVec 5)
  | amo (o : AmoOp) (aqrl : BitVec 2) (rd rs1 rs2 : BitVec 5)
  | csr (o : CsrOp) (rd rs1 : BitVec 5) (addr : BitVec 12)
  | csrImm (o : CsrOp) (rd uimm : BitVec 5) (addr : BitVec 12)
  /-- with the fields that a simple implementation ignores -/
  | fence (rd rs1 : BitVec 5) (imm : BitVec 12)
  | fenceI (rd rs1 : BitVec 5) (imm : BitVec 12)
  | ecall
  | ebreak
  | mret
  | uret
  deriving DecidableEq

/-- The word of an instruction. -/
def Instr.encode : Instr → Word
  | .lui rd imm => utype imm rd 0b0110111#7
  | .auipc rd imm => utype imm rd 0b0010111#7
  | .jal rd off => jtype off rd 0b1101111#7
  | .jalr rd rs1 imm => itype imm rs1 0b000#3 rd 0b1100111#7
  | .branch o rs1 rs2 off => btype off rs2 rs1 o.funct3 0b1100011#7
  | .load o rd rs1 imm => itype imm rs1 o.funct3 rd 0b0000011#7
  | .store o rs2 rs1 imm => stype imm rs2 rs1 o.funct3 0b0100011#7
  | .opImm o rd rs1 imm => itype imm rs1 o.funct3 rd 0b0010011#7
  | .shift o rd rs1 shamt => rtype o.code.1 shamt rs1 o.code.2 rd 0b0010011#7
  | .unary o rd rs1 => rtype o.code.1 o.code.2.1 rs1 o.code.2.2.1 rd o.code.2.2.2
  | .op o rd rs1 rs2 => rtype o.code.1 rs2 rs1 o.code.2 rd 0b0110011#7
  | .mul o rd rs1 rs2 => rtype 0b0000001#7 rs2 rs1 (mulFunct3 o) rd 0b0110011#7
  | .lr aqrl rd rs1 => rtype (0b00010#5 ++ aqrl) 0#5 rs1 0b010#3 rd 0b0101111#7
  | .sc aqrl rd rs1 rs2 => rtype (0b00011#5 ++ aqrl) rs2 rs1 0b010#3 rd 0b0101111#7
  | .amo o aqrl rd rs1 rs2 => rtype (o.funct5 ++ aqrl) rs2 rs1 0b010#3 rd 0b0101111#7
  | .csr o rd rs1 addr => itype addr rs1 (0b0#1 ++ o.fn) rd 0b1110011#7
  | .csrImm o rd uimm addr => itype addr uimm (0b1#1 ++ o.fn) rd 0b1110011#7
  | .fence rd rs1 imm => itype imm rs1 0b000#3 rd 0b0001111#7
  | .fenceI rd rs1 imm => itype imm rs1 0b001#3 rd 0b0001111#7
  | .ecall => itype 0x000#12 0#5 0b000#3 0#5 0b1110011#7
  | .ebreak => itype 0x001#12 0#5 0b000#3 0#5 0b1110011#7
  | .mret => itype 0x302#12 0#5 0b000#3 0#5 0b1110011#7
  | .uret => itype 0x002#12 0#5 0b000#3 0#5 0b1110011#7

/-- URET belongs to the `SECURE` configuration. -/
def Instr.available (secure : Bool) (i : Instr) : Prop := i = .uret → secure = true

/-- The words of the instructions. -/
def Defined (secure : Bool) (w : Word) : Prop :=
  ∃ i : Instr, i.available secure ∧ i.encode = w

end ThreeSippEs.Isa
