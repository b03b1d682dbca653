import ThreeSippEs.Isa.Control

/-!
# Every instruction is accepted

The word of an instruction goes to one arm of the decoder or to one overlay of the X
stage, and what is selected there is what the instruction asks for.

- `branchOp_funct3`, `opOp_code` and so on: the operation tables;
- `Plain`, `Amo`, `Env`: who sees an instruction;
- `control_encode`: every instruction is accepted with its signals.
-/

namespace ThreeSippEs

namespace Isa

open Decode Formats

/-! ## The operation tables -/

theorem branchOp_funct3 (o : BranchOp) : branchOp o.funct3 = some o.brOp := by
  cases o <;> rfl

/-- The width of a load, and whether it is extended with zeros. -/
theorem loadOp_funct3 (o : LoadOp) : loadOp o.funct3 = some (o.width, o.unsigned) := by
  cases o <;> rfl

theorem storeOp_funct3 (o : StoreOp) : storeOp o.funct3 = some o.width := by
  cases o <;> rfl

/-- An operation with an immediate ignores `funct7` and the rs2 field. -/
theorem opimmOp_imm (o : ImmOp) (f7 : BitVec 7) (r : BitVec 5) :
    opimmOp o.funct3 f7 r = some o.aluOp := by
  cases o <;> rfl

/-- An operation with a shift amount looks at `funct7`. -/
theorem opimmOp_shift (o : ShiftOp) (shamt : BitVec 5) :
    opimmOp o.code.2 o.code.1 shamt = some o.aluOp := by
  cases o <;> rfl

/-- An operation on two registers does not look at the second one. -/
theorem opOp_code (o : RegOp) (r : BitVec 5) : Decode.opOp o.code.2 o.code.1 r = some o.aluOp := by
  cases o <;> rfl

theorem mdOp_mulFunct3 (o : MdOp) : mdOp (mulFunct3 o) = o := by
  cases o <;> rfl

/-- The immediate of a shift is its amount. -/
theorem ShiftOp.funct3_eq (o : ShiftOp) : o.code.2 = 0b001#3 ∨ o.code.2 = 0b101#3 := by
  cases o <;> decide

/-- An immediate of twelve bits is no shift amount. -/
theorem ImmOp.funct3_ne (o : ImmOp) : ¬(o.funct3 = 0b001#3 ∨ o.funct3 = 0b101#3) := by
  cases o <;> decide

/-- None of the operations shares its `funct7` with the M extension. -/
theorem RegOp.funct7_ne (o : RegOp) : o.code.1 ≠ 0b0000001#7 := by
  cases o <;> decide

/-- With an immediate the ALU looks at both operands. -/
theorem ImmOp.binary (o : ImmOp) : o.aluOp ≠ .passB ∧ o.aluOp.isUnary = false := by
  cases o <;> decide

theorem ShiftOp.binary (o : ShiftOp) : o.aluOp ≠ .passB ∧ o.aluOp.isUnary = false := by
  cases o <;> decide

theorem RegOp.binary (o : RegOp) : o.aluOp ≠ .passB ∧ o.aluOp.isUnary = false := by
  cases o <;> decide

/-- Of a unary operation it looks at the first operand. -/
theorem UnaryOp.unary (o : UnaryOp) : o.aluOp ≠ .passB ∧ o.aluOp.isUnary = true := by
  cases o <;> decide

variable {P : Params} {x : XIn}

/-! ## The overlays of the X stage -/

/-- The opcode of the A extension, which the decoder does not have. -/
def opAmo : BitVec 7 := 0b0101111#7

theorem isAmo_eq_false (h : opcode x.fxInstr ≠ opAmo) : x.isAmo = false := by
  show (opcode x.fxInstr == opAmo && x.funct3 == 0b010#3) = false
  rw [beq_false_of_ne h, Bool.false_and]

theorem isFencei_eq_false (h : opcode x.fxInstr ≠ opFence) : x.isFencei = false := by
  show (opcode x.fxInstr == opFence && x.funct3 == 0b001#3) = false
  rw [beq_false_of_ne h, Bool.false_and]

theorem isUret_eq_false (P : Params) (h : x.fxInstr ≠ Instr.uret.encode) : x.isUret P = false := by
  show (P.secure && x.fxInstr == Instr.uret.encode) = false
  rw [beq_false_of_ne h, Bool.and_false]

/-! ## The decoder alone -/

/-- The arm of an opcode. -/
def arm (op : BitVec 7) (w : Word) : Decoded :=
  if op = opLui then lui w
  else if op = opAuipc then auipc w
  else if op = opJal then jal w
  else if op = opJalr then jalr w
  else if op = opBranch then branch w
  else if op = opLoad then load w
  else if op = opStore then store w
  else if op = opOpimm then opimm w
  else if op = ThreeSippEs.opOp then Decode.op w
  else if op = opSystem then system w
  else if op = opFence then fence w
  else illegalOpcode w

/-- The decoder takes the arm of the opcode. -/
theorem dec_of_opcode {op : BitVec 7} (hop : opcode x.fxInstr = op) : x.dec = arm op x.fxInstr :=
  hop ▸ rfl

/-- An instruction that only the decoder sees. -/
structure Plain (P : Params) (x : XIn) (d : Decoded) : Prop where
  dec : x.dec = d
  amo : x.isAmo = false
  uret : x.isUret P = false
  fenceI : x.isFencei = false

/-- An opcode outside of AMO, SYSTEM and MISC-MEM is seen by the decoder alone. -/
theorem Plain.of_opcode {op : BitVec 7} (hop : opcode x.fxInstr = op)
    (hne : op ≠ opAmo ∧ op ≠ opSystem ∧ op ≠ opFence) : Plain P x (arm op x.fxInstr) where
  dec := dec_of_opcode hop
  amo := isAmo_eq_false (hop ▸ hne.1)
  uret := isUret_eq_false P fun h => hne.2.1 (by rw [← hop, h]; decide)
  fenceI := isFencei_eq_false (hop ▸ hne.2.2)

/-- What only the decoder sees is illegal when the decoder says so. -/
theorem Plain.illegalEff {d : Decoded} (h : Plain P x d) : x.illegalEff P = d.illegal := by
  unfold XIn.illegalEff XIn.amoValid
  rw [h.dec, h.amo, h.uret, Bool.false_and, Bool.not_false, Bool.and_true, Bool.and_true]

attribute [local simp] Instr.encode Instr.control XIn.control

/-- LUI passes its immediate through the ALU. -/
theorem control_lui {rd : BitVec 5} {imm : BitVec 20}
    (hx : x.fxInstr = (Instr.lui rd imm).encode) :
    x.control P = (Instr.lui rd imm).control ∧ x.illegalEff P = false := by
  have hop : opcode x.fxInstr = opLui := hx ▸ utype_opcode ..
  have h : Plain P x (lui x.fxInstr) := .of_opcode hop (by decide)
  rw [h.illegalEff]
  simp [h.dec, h.amo, h.uret, h.fenceI, hx, lui, XIn.rd, XIn.amoValid, XIn.resultOf, XIn.value,
    XIn.srcB]

/-- AUIPC adds its immediate to the PC. -/
theorem control_auipc {rd : BitVec 5} {imm : BitVec 20}
    (hx : x.fxInstr = (Instr.auipc rd imm).encode) :
    x.control P = (Instr.auipc rd imm).control ∧ x.illegalEff P = false := by
  have hop : opcode x.fxInstr = opAuipc := hx ▸ utype_opcode ..
  have h : Plain P x (auipc x.fxInstr) := .of_opcode hop (by decide)
  rw [h.illegalEff]
  simp [h.dec, h.amo, h.uret, h.fenceI, hx, auipc, XIn.rd, XIn.amoValid, XIn.resultOf, XIn.value,
    XIn.srcA, XIn.srcB, AluOp.isUnary]

/-- JAL writes the link. -/
theorem control_jal {rd : BitVec 5} {off : BitVec 20}
    (hx : x.fxInstr = (Instr.jal rd off).encode) :
    x.control P = (Instr.jal rd off).control ∧ x.illegalEff P = false := by
  have hop : opcode x.fxInstr = opJal := hx ▸ jtype_opcode ..
  have h : Plain P x (jal x.fxInstr) := .of_opcode hop (by decide)
  rw [h.illegalEff]
  simp [h.dec, h.amo, h.uret, h.fenceI, hx, jal, XIn.rd, XIn.amoValid, XIn.resultOf]

/-- JALR writes the link and reads a register. -/
theorem control_jalr {rd rs1 : BitVec 5} {imm : BitVec 12}
    (hx : x.fxInstr = (Instr.jalr rd rs1 imm).encode) :
    x.control P = (Instr.jalr rd rs1 imm).control ∧ x.illegalEff P = false := by
  have hop : opcode x.fxInstr = opJalr := hx ▸ itype_opcode ..
  have h : Plain P x (jalr x.fxInstr) := .of_opcode hop (by decide)
  rw [h.illegalEff]
  simp [h.dec, h.amo, h.uret, h.fenceI, hx, jalr, XIn.rd, XIn.rs1, XIn.amoValid, Decode.funct3,
    XIn.resultOf]

/-- A branch compares two registers and writes none. -/
theorem control_branch {o : BranchOp} {rs1 rs2 : BitVec 5} {off : BitVec 12}
    (hx : x.fxInstr = (Instr.branch o rs1 rs2 off).encode) :
    x.control P = (Instr.branch o rs1 rs2 off).control ∧ x.illegalEff P = false := by
  have hop : opcode x.fxInstr = opBranch := hx ▸ btype_opcode ..
  have h : Plain P x (branch x.fxInstr) := .of_opcode hop (by decide)
  rw [h.illegalEff]
  simp [h.dec, h.amo, h.uret, h.fenceI, hx, branch, XIn.rs1, XIn.rs2, XIn.amoValid, Decode.funct3,
    branchOp_funct3]

/-- A load has its address from the ALU and its width from `funct3`. -/
theorem control_load {o : LoadOp} {rd rs1 : BitVec 5} {imm : BitVec 12}
    (hx : x.fxInstr = (Instr.load o rd rs1 imm).encode) :
    x.control P = (Instr.load o rd rs1 imm).control ∧ x.illegalEff P = false := by
  have hop : opcode x.fxInstr = opLoad := hx ▸ itype_opcode ..
  have h : Plain P x (load x.fxInstr) := .of_opcode hop (by decide)
  rw [h.illegalEff]
  simp [h.dec, h.amo, h.uret, h.fenceI, hx, load, XIn.rd, XIn.rs1, XIn.amoValid, Decode.funct3,
    loadOp_funct3, XIn.resultOf, XIn.value, XIn.srcA, XIn.srcB, AluOp.isUnary, address]

/-- So has a store, which writes no register. -/
theorem control_store {o : StoreOp} {rs2 rs1 : BitVec 5} {imm : BitVec 12}
    (hx : x.fxInstr = (Instr.store o rs2 rs1 imm).encode) :
    x.control P = (Instr.store o rs2 rs1 imm).control ∧ x.illegalEff P = false := by
  have hop : opcode x.fxInstr = opStore := hx ▸ stype_opcode ..
  have h : Plain P x (store x.fxInstr) := .of_opcode hop (by decide)
  rw [h.illegalEff]
  simp [h.dec, h.amo, h.uret, h.fenceI, hx, store, XIn.rs1, XIn.rs2, XIn.amoValid, Decode.funct3,
    storeOp_funct3, XIn.value, XIn.srcA, XIn.srcB, AluOp.isUnary, address]

theorem control_opImm {o : ImmOp} {rd rs1 : BitVec 5} {imm : BitVec 12}
    (hx : x.fxInstr = (Instr.opImm o rd rs1 imm).encode) :
    x.control P = (Instr.opImm o rd rs1 imm).control ∧ x.illegalEff P = false := by
  have hop : opcode x.fxInstr = opOpimm := hx ▸ itype_opcode ..
  have h : Plain P x (opimm x.fxInstr) := .of_opcode hop (by decide)
  rw [h.illegalEff]
  simp [h.dec, h.amo, h.uret, h.fenceI, hx, opimm, XIn.rd, XIn.rs1, XIn.amoValid, Decode.funct3,
    opimmOp_imm, o.funct3_ne, o.binary, XIn.resultOf, XIn.value, XIn.srcA, XIn.srcB]

/-- An operation with a shift amount, which the rs2 field holds. -/
theorem control_shift {o : ShiftOp} {rd rs1 shamt : BitVec 5}
    (hx : x.fxInstr = (Instr.shift o rd rs1 shamt).encode) :
    x.control P = (Instr.shift o rd rs1 shamt).control ∧ x.illegalEff P = false := by
  have hop : opcode x.fxInstr = opOpimm := hx ▸ rtype_opcode ..
  have h : Plain P x (opimm x.fxInstr) := .of_opcode hop (by decide)
  rw [h.illegalEff]
  simp [h.dec, h.amo, h.uret, h.fenceI, hx, opimm, XIn.rd, XIn.rs1, XIn.amoValid, Decode.funct3,
    Decode.funct7, Decode.rs2f, opimmOp_shift, o.funct3_eq, o.binary, XIn.resultOf, XIn.value,
    XIn.srcA, XIn.srcB]

theorem control_unary {o : UnaryOp} {rd rs1 : BitVec 5}
    (hx : x.fxInstr = (Instr.unary o rd rs1).encode) :
    x.control P = (Instr.unary o rd rs1).control ∧ x.illegalEff P = false := by
  have hcode : opcode x.fxInstr = o.code.2.2.2 := hx ▸ rtype_opcode ..
  by_cases hzext : o = .zexth
  · -- the only one among the operations of two registers
    subst hzext
    have hop : opcode x.fxInstr = ThreeSippEs.opOp := hcode
    have h : Plain P x (Decode.op x.fxInstr) := .of_opcode hop (by decide)
    rw [h.illegalEff]
    simp [h.dec, h.amo, h.uret, h.fenceI, hx, Decode.op, XIn.rd, XIn.rs1, XIn.amoValid, Decode.opOp,
      Decode.funct3, Decode.funct7, Decode.rs2f, UnaryOp.code, UnaryOp.aluOp, AluOp.isUnary,
      XIn.resultOf, XIn.value, XIn.srcA]
  · have hop : opcode x.fxInstr = opOpimm := by
      rw [hcode]
      cases o <;> first | rfl | exact absurd rfl hzext
    have h : Plain P x (opimm x.fxInstr) := .of_opcode hop (by decide)
    have hop : opimmOp o.code.2.2.1 o.code.1 o.code.2.1 = some o.aluOp := by
      cases o <;> first | rfl | exact absurd rfl hzext
    rw [h.illegalEff]
    simp [h.dec, h.amo, h.uret, h.fenceI, hx, opimm, XIn.rd, XIn.rs1, XIn.amoValid, Decode.funct3,
      Decode.funct7, Decode.rs2f, hop, o.unary, XIn.resultOf, XIn.value, XIn.srcA]

theorem control_op {o : RegOp} {rd rs1 rs2 : BitVec 5}
    (hx : x.fxInstr = (Instr.op o rd rs1 rs2).encode) :
    x.control P = (Instr.op o rd rs1 rs2).control ∧ x.illegalEff P = false := by
  have hop : opcode x.fxInstr = ThreeSippEs.opOp := hx ▸ rtype_opcode ..
  have h : Plain P x (Decode.op x.fxInstr) := .of_opcode hop (by decide)
  rw [h.illegalEff]
  simp [h.dec, h.amo, h.uret, h.fenceI, hx, Decode.op, XIn.rd, XIn.rs1, XIn.rs2, XIn.amoValid,
    Decode.funct3, Decode.funct7, o.funct7_ne, opOp_code, o.binary, XIn.resultOf, XIn.value,
    XIn.srcA, XIn.srcB]

/-- The M extension shares the opcode with them and goes to its own unit. -/
theorem control_mul {o : MdOp} {rd rs1 rs2 : BitVec 5}
    (hx : x.fxInstr = (Instr.mul o rd rs1 rs2).encode) :
    x.control P = (Instr.mul o rd rs1 rs2).control ∧ x.illegalEff P = false := by
  have hop : opcode x.fxInstr = ThreeSippEs.opOp := hx ▸ rtype_opcode ..
  have h : Plain P x (Decode.op x.fxInstr) := .of_opcode hop (by decide)
  rw [h.illegalEff]
  simp [h.dec, h.amo, h.uret, h.fenceI, hx, Decode.op, XIn.rd, XIn.rs1, XIn.rs2, XIn.amoValid,
    Decode.funct3, Decode.funct7, mdOp_mulFunct3, XIn.resultOf]

/-- An instruction of the A extension, which only the overlay sees. -/
structure Amo (P : Params) (x : XIn) : Prop where
  dec : x.dec = illegalOpcode x.fxInstr
  uret : x.isUret P = false
  fenceI : x.isFencei = false

theorem Amo.of_opcode (hop : opcode x.fxInstr = opAmo) : Amo P x where
  dec := dec_of_opcode hop
  uret := isUret_eq_false P fun h => absurd (h ▸ hop) (by decide)
  fenceI := isFencei_eq_false (hop ▸ by decide)

/-- LR reads one register. -/
theorem control_lr {aqrl : BitVec 2} {rd rs1 : BitVec 5}
    (hx : x.fxInstr = (Instr.lr aqrl rd rs1).encode) :
    x.control P = (Instr.lr aqrl rd rs1).control ∧ x.illegalEff P = false := by
  have h : Amo P x := .of_opcode (hx ▸ rtype_opcode ..)
  simp [XIn.illegalEff, h.dec, h.uret, h.fenceI, hx, illegalOpcode, XIn.rd, XIn.rs1, XIn.rs2,
    XIn.funct3, XIn.amoValid, XIn.isAmo, XIn.amoF5, XIn.isLr, rtype_funct5, XIn.resultOf]

theorem control_sc {aqrl : BitVec 2} {rd rs1 rs2 : BitVec 5}
    (hx : x.fxInstr = (Instr.sc aqrl rd rs1 rs2).encode) :
    x.control P = (Instr.sc aqrl rd rs1 rs2).control ∧ x.illegalEff P = false := by
  have h : Amo P x := .of_opcode (hx ▸ rtype_opcode ..)
  simp [XIn.illegalEff, h.dec, h.uret, h.fenceI, hx, illegalOpcode, XIn.rd, XIn.rs1, XIn.rs2,
    XIn.funct3, XIn.amoValid, XIn.isAmo, XIn.amoF5, XIn.isLr, XIn.isSc, rtype_funct5, XIn.resultOf]

/-- An AMO is told by `funct5`. -/
theorem control_amo {o : AmoOp} {aqrl : BitVec 2} {rd rs1 rs2 : BitVec 5}
    (hx : x.fxInstr = (Instr.amo o aqrl rd rs1 rs2).encode) :
    x.control P = (Instr.amo o aqrl rd rs1 rs2).control ∧ x.illegalEff P = false := by
  have h : Amo P x := .of_opcode (hx ▸ rtype_opcode ..)
  cases o <;>
  simp [XIn.illegalEff, h.dec, h.uret, h.fenceI, hx, illegalOpcode, XIn.rd, XIn.rs1, XIn.rs2,
    XIn.funct3, XIn.amoValid, XIn.isAmo, XIn.amoF5, XIn.isLr, XIn.isSc, rtype_funct5, XIn.resultOf,
    AmoOp.funct5]

/-- A system instruction. -/
structure Env (P : Params) (x : XIn) : Prop where
  dec : x.dec = system x.fxInstr
  amo : x.isAmo = false
  fenceI : x.isFencei = false

theorem Env.of_opcode (hop : opcode x.fxInstr = opSystem) : Env P x where
  dec := dec_of_opcode hop
  amo := isAmo_eq_false (hop ▸ by decide)
  fenceI := isFencei_eq_false (hop ▸ by decide)

/-- `csrrw` always writes. -/
theorem CsrOp.beq_rw (o : CsrOp) : (o == .rw) = (o.fn == 0b01#2) := by
  cases o <;> rfl

/-- A CSR access is not one of the instructions with `funct3 = 0`. -/
theorem CsrOp.fn_ne (o : CsrOp) (b : BitVec 1) : b ++ o.fn ≠ 0b000#3 := by
  cases o <;> revert b <;> decide

/-- How the X stage reads `funct3` of a CSR access. -/
theorem csr_funct3 {b : BitVec 1} {o : CsrOp} (h : x.funct3 = b ++ o.fn) :
    x.csrFn = o.fn ∧ x.csrImmMode = b.getLsbD 0 := by
  unfold XIn.csrFn XIn.csrImmMode
  rw [h]
  clear h
  cases o <;> revert b <;> decide

/-- A CSR access, with a register or an immediate. -/
structure CsrInstr (P : Params) (x : XIn) (b : BitVec 1) (o : CsrOp) : Prop extends Env P x where
  fn : x.csrFn = o.fn
  immMode : x.csrImmMode = b.getLsbD 0
  uret : x.isUret P = false

theorem CsrInstr.of_encode {b : BitVec 1} {o : CsrOp} {imm : BitVec 12} {rs1 rd : BitVec 5}
    (hx : x.fxInstr = itype imm rs1 (b ++ o.fn) rd opSystem) : CsrInstr P x b o := by
  have hf3 : x.funct3 = b ++ o.fn := by
    unfold XIn.funct3
    rw [hx]
    exact itype_funct3 ..
  obtain ⟨hfn, hmode⟩ := csr_funct3 hf3
  refine ⟨.of_opcode (hx ▸ itype_opcode ..), hfn, hmode, isUret_eq_false P fun huret => ?_⟩
  exact o.fn_ne b (hf3.symm.trans (congrArg Decode.funct3 huret))

/-- A CSR access with a register; with `x0` RS and RC do not write. -/
theorem control_csr {o : CsrOp} {rd rs1 : BitVec 5} {addr : BitVec 12}
    (hx : x.fxInstr = (Instr.csr o rd rs1 addr).encode) :
    x.control P = (Instr.csr o rd rs1 addr).control ∧ x.illegalEff P = false := by
  have h : CsrInstr P x 0b0#1 o := .of_encode hx
  simp [XIn.illegalEff, h.dec, h.amo, h.uret, h.fenceI, h.fn, h.immMode, hx, system, Decode.funct3,
    o.fn_ne, XIn.rd, XIn.rs1, XIn.amoValid, XIn.resultOf, XIn.sysImm12, XIn.csrDoWrite, o.beq_rw,
    bne]

theorem control_csrImm {o : CsrOp} {rd uimm : BitVec 5} {addr : BitVec 12}
    (hx : x.fxInstr = (Instr.csrImm o rd uimm addr).encode) :
    x.control P = (Instr.csrImm o rd uimm addr).control ∧ x.illegalEff P = false := by
  have h : CsrInstr P x 0b1#1 o := .of_encode hx
  simp [XIn.illegalEff, h.dec, h.amo, h.uret, h.fenceI, h.fn, h.immMode, hx, system, Decode.funct3,
    o.fn_ne, XIn.rd, XIn.rs1, XIn.amoValid, XIn.resultOf, XIn.sysImm12, XIn.csrDoWrite, o.beq_rw,
    bne]

/-- A fence: `funct3` alone tells FENCE.I apart. -/
structure Fence (P : Params) (x : XIn) : Prop where
  dec : x.dec = Decode.fence x.fxInstr
  amo : x.isAmo = false
  uret : x.isUret P = false

theorem Fence.of_opcode (hop : opcode x.fxInstr = opFence) : Fence P x where
  dec := dec_of_opcode hop
  amo := isAmo_eq_false (hop ▸ by decide)
  uret := isUret_eq_false P fun h => absurd (h ▸ hop) (by decide)

/-- FENCE does nothing. -/
theorem control_fence {rd rs1 : BitVec 5} {imm : BitVec 12}
    (hx : x.fxInstr = (Instr.fence rd rs1 imm).encode) :
    x.control P = (Instr.fence rd rs1 imm).control ∧ x.illegalEff P = false := by
  have h : Fence P x := .of_opcode (hx ▸ itype_opcode ..)
  simp [XIn.illegalEff, h.dec, h.amo, h.uret, XIn.isFencei, XIn.funct3, hx, Decode.fence,
    XIn.amoValid]

/-- FENCE.I is seen by the overlay too. -/
theorem control_fenceI {rd rs1 : BitVec 5} {imm : BitVec 12}
    (hx : x.fxInstr = (Instr.fenceI rd rs1 imm).encode) :
    x.control P = (Instr.fenceI rd rs1 imm).control ∧ x.illegalEff P = false := by
  have h : Fence P x := .of_opcode (hx ▸ itype_opcode ..)
  simp [XIn.illegalEff, h.dec, h.amo, h.uret, XIn.isFencei, XIn.funct3, hx, Decode.fence,
    XIn.amoValid]

/-- ECALL, EBREAK and MRET. -/
theorem control_env {i : Instr} (hi : i = .ecall ∨ i = .ebreak ∨ i = .mret)
    (hx : x.fxInstr = i.encode) : x.control P = i.control ∧ x.illegalEff P = false := by
  have h : Env P x := .of_opcode (by obtain rfl | rfl | rfl := hi <;> exact hx ▸ itype_opcode ..)
  have huret : x.isUret P = false :=
    isUret_eq_false P (by obtain rfl | rfl | rfl := hi <;> exact hx ▸ by decide)
  obtain rfl | rfl | rfl := hi <;>
  simp [XIn.illegalEff, h.dec, h.amo, huret, h.fenceI, hx, system, Decode.funct3, Decode.sysImm12,
    XIn.amoValid]

/-- URET is the overlay of the `SECURE` configuration. -/
theorem control_uret (hP : P.secure = true) (hx : x.fxInstr = Instr.uret.encode) :
    x.control P = Instr.uret.control ∧ x.illegalEff P = false := by
  have h : Env P x := .of_opcode (hx ▸ itype_opcode ..)
  have huret : x.isUret P = true := by
    unfold XIn.isUret
    rw [hP, hx]
    decide
  simp [XIn.illegalEff, h.dec, h.amo, huret, h.fenceI, hx, system, Decode.funct3, Decode.sysImm12,
    XIn.amoValid]

/-- **Every instruction is accepted with its signals.** -/
theorem control_encode {i : Instr} (hi : i.available P.secure) (hx : x.fxInstr = i.encode) :
    x.control P = i.control ∧ x.illegalEff P = false := by
  cases i with
  | lui => exact control_lui hx
  | auipc => exact control_auipc hx
  | jal => exact control_jal hx
  | jalr => exact control_jalr hx
  | branch => exact control_branch hx
  | load => exact control_load hx
  | store => exact control_store hx
  | opImm => exact control_opImm hx
  | shift => exact control_shift hx
  | unary => exact control_unary hx
  | op => exact control_op hx
  | mul => exact control_mul hx
  | lr => exact control_lr hx
  | sc => exact control_sc hx
  | amo => exact control_amo hx
  | csr => exact control_csr hx
  | csrImm => exact control_csrImm hx
  | fence => exact control_fence hx
  | fenceI => exact control_fenceI hx
  | ecall => exact control_env (.inl rfl) hx
  | ebreak => exact control_env (.inr (.inl rfl)) hx
  | mret => exact control_env (.inr (.inr rfl)) hx
  | uret => exact control_uret (hi rfl) hx

end Isa

end ThreeSippEs
