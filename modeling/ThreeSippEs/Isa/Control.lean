import ThreeSippEs.Core.Execute
import ThreeSippEs.Isa.Instr

/-!
# Control signals

What an instruction asks of the core, and what the core reads out of a word. Signals
that an instruction does not depend on are left out: the ALU operation of a jump, the
width of an instruction without an access, an operand that the operation ignores.

- `Instr.control`: by the instruction set;
- `XIn.control`: the decoder and the overlays of the X stage.
-/

namespace ThreeSippEs

namespace Isa

/-! ## What an instruction asks for -/

inductive Src
  | pc
  | reg (r : BitVec 5)
  | imm (v : Word)
  deriving DecidableEq

/-- What the ALU computes. -/
inductive Value
  | pass (b : Src)
  | unary (op : AluOp) (a : Src)
  | binary (op : AluOp) (a b : Src)
  deriving DecidableEq

/-- Where the value of `rd` comes from. -/
inductive Result
  | value (v : Value)
  /-- the address behind the instruction -/
  | link
  | mem
  | csr
  | md (op : MdOp) (rs1 rs2 : BitVec 5)
  | atomic
  deriving DecidableEq

inductive Atomic
  | lr (addr : BitVec 5)
  | sc (addr src : BitVec 5)
  | rmw (op : BitVec 5) (addr src : BitVec 5)
  deriving DecidableEq

structure LoadAccess where
  /-- log2 of the bytes -/
  width : BitVec 2
  unsigned : Bool
  addr : Value
  deriving DecidableEq

structure StoreAccess where
  width : BitVec 2
  src : BitVec 5
  addr : Value
  deriving DecidableEq

structure BranchTest where
  op : BrOp
  rs1 : BitVec 5
  rs2 : BitVec 5
  offset : Word
  deriving DecidableEq

structure CsrAccess where
  addr : BitVec 12
  fn : BitVec 2
  src : Src
  write : Bool
  deriving DecidableEq

structure Control where
  dest : Option (BitVec 5 × Result) := none
  load : Option LoadAccess := none
  store : Option StoreAccess := none
  atomic : Option Atomic := none
  branch : Option BranchTest := none
  jal : Option Word := none
  /-- base and offset -/
  jalr : Option (BitVec 5 × Word) := none
  csr : Option CsrAccess := none
  fenceI : Bool := false
  ecall : Bool := false
  ebreak : Bool := false
  mret : Bool := false
  uret : Bool := false
  deriving DecidableEq

def BranchOp.brOp : BranchOp → BrOp
  | .beq => .eq
  | .bne => .ne
  | .blt => .lt
  | .bge => .ge
  | .bltu => .ltu
  | .bgeu => .geu

def LoadOp.width : LoadOp → BitVec 2
  | .lb | .lbu => 0#2
  | .lh | .lhu => 1#2
  | .lw => 2#2

def LoadOp.unsigned : LoadOp → Bool
  | .lbu | .lhu => true
  | .lb | .lh | .lw => false

def StoreOp.width : StoreOp → BitVec 2
  | .sb => 0#2
  | .sh => 1#2
  | .sw => 2#2

def ImmOp.aluOp : ImmOp → AluOp
  | .addi => .add
  | .slti => .slt
  | .sltiu => .sltu
  | .xori => .xor
  | .ori => .or
  | .andi => .and

def ShiftOp.aluOp : ShiftOp → AluOp
  | .slli => .sll
  | .srli => .srl
  | .srai => .sra
  | .rori => .ror
  | .bseti => .bset
  | .bclri => .bclr
  | .binvi => .binv
  | .bexti => .bext

def UnaryOp.aluOp : UnaryOp → AluOp
  | .clz => .clz
  | .ctz => .ctz
  | .cpop => .cpop
  | .sextb => .sextb
  | .sexth => .sexth
  | .zexth => .zexth
  | .rev8 => .rev8
  | .orcb => .orcb

def RegOp.aluOp : RegOp → AluOp
  | .add => .add
  | .sub => .sub
  | .sll => .sll
  | .slt => .slt
  | .sltu => .sltu
  | .xor => .xor
  | .srl => .srl
  | .sra => .sra
  | .or => .or
  | .and => .and
  | .andn => .andn
  | .orn => .orn
  | .xnor => .xnor
  | .min => .min
  | .minu => .minu
  | .max => .max
  | .maxu => .maxu
  | .rol => .rol
  | .ror => .ror
  | .clmul => .clmul
  | .clmulh => .clmulh
  | .clmulr => .clmulr
  | .bset => .bset
  | .bclr => .bclr
  | .binv => .binv
  | .bext => .bext
  | .sh1add => .sh1add
  | .sh2add => .sh2add
  | .sh3add => .sh3add
  | .czeroEqz => .czeqz
  | .czeroNez => .cznez

/-- `rs1 + imm` -/
def address (rs1 : BitVec 5) (imm : BitVec 12) : Value :=
  .binary .add (.reg rs1) (.imm (imm.signExtend 32))

/-- By the instruction set. -/
def Instr.control : Instr → Control
  | .lui rd imm => { dest := some (rd, .value (.pass (.imm (imm ++ 0#12)))) }
  | .auipc rd imm => { dest := some (rd, .value (.binary .add .pc (.imm (imm ++ 0#12)))) }
  | .jal rd off => { dest := some (rd, .link), jal := some ((off ++ 0#1).signExtend 32) }
  | .jalr rd rs1 imm => { dest := some (rd, .link), jalr := some (rs1, imm.signExtend 32) }
  | .branch o rs1 rs2 off =>
    { branch := some ⟨o.brOp, rs1, rs2, (off ++ 0#1).signExtend 32⟩ }
  | .load o rd rs1 imm =>
    { dest := some (rd, .mem), load := some ⟨o.width, o.unsigned, address rs1 imm⟩ }
  | .store o rs2 rs1 imm => { store := some ⟨o.width, rs2, address rs1 imm⟩ }
  | .opImm o rd rs1 imm =>
    { dest := some (rd, .value (.binary o.aluOp (.reg rs1) (.imm (imm.signExtend 32)))) }
  | .shift o rd rs1 shamt =>
    { dest := some (rd, .value (.binary o.aluOp (.reg rs1) (.imm (shamt.setWidth 32)))) }
  | .unary o rd rs1 => { dest := some (rd, .value (.unary o.aluOp (.reg rs1))) }
  | .op o rd rs1 rs2 => { dest := some (rd, .value (.binary o.aluOp (.reg rs1) (.reg rs2))) }
  | .mul o rd rs1 rs2 => { dest := some (rd, .md o rs1 rs2) }
  | .lr _ rd rs1 => { dest := some (rd, .atomic), atomic := some (.lr rs1) }
  | .sc _ rd rs1 rs2 => { dest := some (rd, .atomic), atomic := some (.sc rs1 rs2) }
  | .amo o _ rd rs1 rs2 => { dest := some (rd, .atomic), atomic := some (.rmw o.funct5 rs1 rs2) }
  | .csr o rd rs1 addr =>
    -- `csrrs` and `csrrc` of `x0` do not write
    { dest := some (rd, .csr), csr := some ⟨addr, o.fn, .reg rs1, o == .rw || rs1 != 0#5⟩ }
  | .csrImm o rd uimm addr =>
    { dest := some (rd, .csr)
      csr := some ⟨addr, o.fn, .imm (uimm.setWidth 32), o == .rw || uimm != 0#5⟩ }
  | .fence _ _ _ => {}
  | .fenceI _ _ _ => { fenceI := true }
  | .ecall => { ecall := true }
  | .ebreak => { ebreak := true }
  | .mret => { mret := true }
  | .uret => { uret := true }

end Isa

/-! ## What the X stage reads -/

/-- The operations that ignore the second operand. -/
def AluOp.isUnary : AluOp → Bool
  | .clz | .ctz | .cpop | .sextb | .sexth | .zexth | .rev8 | .orcb => true
  | _ => false

namespace XIn

open Isa

variable (P : Params) (x : XIn)

def srcA : Src := if x.dec.usePc then .pc else .reg x.rs1

def srcB : Src := if x.dec.useImm then .imm x.dec.idImm else .reg x.rs2

def value : Value :=
  if x.dec.aluOp = .passB then .pass x.srcB
  else if x.dec.aluOp.isUnary then .unary x.dec.aluOp x.srcA
  else .binary x.dec.aluOp x.srcA x.srcB

/-- The value that the instruction writes back. -/
def resultOf : Result :=
  if x.amoValid then .atomic
  else
    match x.dec.wbSel with
    | .alu => .value x.value
    | .mem => .mem
    | .pc4 => .link
    | .csr => .csr
    | .md => .md x.dec.mdOp x.rs1 x.rs2

/-- The signals with which the instruction in X is executed. -/
def control : Control where
  dest := if x.dec.regWe || x.amoValid then some (x.rd, x.resultOf) else none
  load := if x.dec.memRe then some ⟨x.dec.memWidth, x.dec.memUnsigned, x.value⟩ else none
  store := if x.dec.memWe then some ⟨x.dec.memWidth, x.rs2, x.value⟩ else none
  atomic :=
    if x.amoValid then
      some (if x.isLr then .lr x.rs1 else if x.isSc then .sc x.rs1 x.rs2
        else .rmw x.amoF5 x.rs1 x.rs2)
    else none
  branch := if x.dec.isBranch then some ⟨x.dec.brOp, x.rs1, x.rs2, x.dec.idImm⟩ else none
  jal := if x.dec.isJal then some x.dec.idImm else none
  jalr := if x.dec.isJalr then some (x.rs1, x.dec.idImm) else none
  csr :=
    if x.dec.isCsr then
      some ⟨x.sysImm12, x.csrFn, if x.csrImmMode then .imm (x.rs1.setWidth 32) else .reg x.rs1,
        x.csrDoWrite⟩
    else none
  fenceI := x.isFencei
  ecall := x.dec.isEcall
  ebreak := x.dec.isEbreak
  mret := x.dec.isMret
  uret := x.isUret P

end XIn

end ThreeSippEs
