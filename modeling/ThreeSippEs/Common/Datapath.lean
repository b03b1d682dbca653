import ThreeSippEs.Common.Pkg

/-!
# Combinational leaf cells and the register file

`three_sipp_es_immgen.sv`, `three_sipp_es_alu.sv`, `three_sipp_es_branch.sv` and
`three_sipp_es_regfile.sv`. The replications `{n{x[msb]}}` in front of a field
are `signExtend`; the counting loops of the ALU are folds over the loop index
in the order of the `for` statement.
-/

namespace ThreeSippEs

/-! ## Immediate generator -/

namespace Immgen

def immI (instr : Word) : Word := (instr.extractLsb 31 20).signExtend 32

def immS (instr : Word) : Word :=
  (instr.extractLsb 31 25 ++ instr.extractLsb 11 7 : BitVec 12).signExtend 32

def immB (instr : Word) : Word :=
  (instr.extractLsb 31 31 ++ instr.extractLsb 7 7 ++ instr.extractLsb 30 25 ++
    instr.extractLsb 11 8 ++ 0#1 : BitVec 13).signExtend 32

def immU (instr : Word) : Word := instr.extractLsb 31 12 ++ 0#12

def immJ (instr : Word) : Word :=
  (instr.extractLsb 31 31 ++ instr.extractLsb 19 12 ++ instr.extractLsb 20 20 ++
    instr.extractLsb 30 21 ++ 0#1 : BitVec 21).signExtend 32

end Immgen

/-! ## ALU -/

namespace Alu

/-- `clz32`: scan from bit 31 down, stop at the first set bit. -/
def clz32 (v : Word) : BitVec 6 :=
  ((List.range 32).reverse.foldl
    (fun (acc : BitVec 6 × Bool) i =>
      if !acc.2 && v.getLsbD i then (31#6 - BitVec.ofNat 6 i, true) else acc)
    (32#6, false)).1

/-- `ctz32`: scan from bit 0 up, stop at the first set bit. -/
def ctz32 (v : Word) : BitVec 6 :=
  ((List.range 32).foldl
    (fun (acc : BitVec 6 × Bool) i =>
      if !acc.2 && v.getLsbD i then (BitVec.ofNat 6 i, true) else acc)
    (32#6, false)).1

/-- `cpop32` -/
def cpop32 (v : Word) : BitVec 6 :=
  (List.range 32).foldl
    (fun acc i => acc + (BitVec.ofBool (v.getLsbD i)).setWidth 6) 0#6

/-- `clmul_full`: the 64-bit carry-less product. -/
def clmulFull (x yv : Word) : BitVec 64 :=
  (List.range 32).foldl
    (fun acc i => if yv.getLsbD i then acc ^^^ (x.setWidth 64 <<< i) else acc) 0#64

def rev8 (a : Word) : Word :=
  a.extractLsb 7 0 ++ a.extractLsb 15 8 ++ a.extractLsb 23 16 ++ a.extractLsb 31 24

/-- `{8{|v}}` -/
def orcByte (v : BitVec 8) : BitVec 8 := if v ≠ 0#8 then 0xFF#8 else 0#8

def orcb (a : Word) : Word :=
  orcByte (a.extractLsb 31 24) ++ orcByte (a.extractLsb 23 16) ++
    orcByte (a.extractLsb 15 8) ++ orcByte (a.extractLsb 7 0)

/-- `shamt = b[4:0]` -/
def shamt (b : Word) : Nat := (b.extractLsb 4 0).toNat

def rol (a b : Word) : Word := (a <<< shamt b) ||| (a >>> ((32 - shamt b) % 32))

def ror (a b : Word) : Word := (a >>> shamt b) ||| (a <<< ((32 - shamt b) % 32))

/-- `three_sipp_es_alu`: the result `y`. -/
def y (op : AluOp) (a b : Word) : Word :=
  match op with
  | .add => a + b
  | .sub => a - b
  | .sll => a <<< shamt b
  | .slt => if a.slt b then 1#32 else 0#32
  | .sltu => if a.ult b then 1#32 else 0#32
  | .xor => a ^^^ b
  | .srl => a >>> shamt b
  | .sra => a.sshiftRight (shamt b)
  | .or => a ||| b
  | .and => a &&& b
  | .passB => b
  | .andn => a &&& ~~~b
  | .orn => a ||| ~~~b
  | .xnor => ~~~(a ^^^ b)
  | .min => if a.slt b then a else b
  | .minu => if a.ult b then a else b
  | .max => if b.slt a then a else b
  | .maxu => if b.ult a then a else b
  | .clz => (clz32 a).setWidth 32
  | .ctz => (ctz32 a).setWidth 32
  | .cpop => (cpop32 a).setWidth 32
  | .sextb => (a.extractLsb 7 0).signExtend 32
  | .sexth => (a.extractLsb 15 0).signExtend 32
  | .zexth => (a.extractLsb 15 0).setWidth 32
  | .rol => rol a b
  | .ror => ror a b
  | .rev8 => rev8 a
  | .orcb => orcb a
  | .sh1add => (a <<< 1) + b
  | .sh2add => (a <<< 2) + b
  | .sh3add => (a <<< 3) + b
  | .bset => a ||| (1#32 <<< shamt b)
  | .bclr => a &&& ~~~(1#32 <<< shamt b)
  | .binv => a ^^^ (1#32 <<< shamt b)
  | .bext => (BitVec.ofBool (a.getLsbD (shamt b))).setWidth 32
  | .clmul => (clmulFull a b).extractLsb 31 0
  | .clmulh => (clmulFull a b).extractLsb 63 32
  | .clmulr => (clmulFull a b).extractLsb 62 31
  | .czeqz => if b = 0#32 then 0#32 else a
  | .cznez => if b ≠ 0#32 then 0#32 else a

end Alu

/-! ## Branch comparator -/

/-- `three_sipp_es_branch`: the output `taken`. -/
def Branch.taken (brOp : BrOp) (a b : Word) : Bool :=
  match brOp with
  | .eq => a == b
  | .ne => a != b
  | .lt => a.slt b
  | .ge => !a.slt b
  | .ltu => a.ult b
  | .geu => !a.ult b
  | .none => false

/-! ## Register file -/

/-- The register array; entry 0 is never written and reads as zero through
`Regfile.read`. -/
abbrev Regs := BitVec 5 → Word

namespace Regfile

/-- An asynchronous read port with write-first transparency
(`WRITE_FIRST = 1`). -/
def read (regs : Regs) (we : Bool) (wa : BitVec 5) (wd : Word) (ra : BitVec 5) : Word :=
  if ra = 0#5 then 0#32 else if we && wa != 0#5 && wa == ra then wd else regs ra

/-- The synchronous write port. -/
def write (regs : Regs) (we : Bool) (wa : BitVec 5) (wd : Word) : Regs :=
  fun r => if we && wa != 0#5 && r == wa then wd else regs r

end Regfile

end ThreeSippEs
