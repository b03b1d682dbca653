import ThreeSippEs.Common.Datapath

/-!
# Base instruction decoder (`three_sipp_es_decode.sv`)

One combinational decode of the (already RVC-expanded) instruction into the
control bundle `Decoded`. Every arm of the source's `unique case (opcode)` is a
definition of its own. A nested table that either selects an operation or sets
`illegal=1` is a function into `Option`: `none` leaves the operation at its
default and raises `illegal`.
-/

namespace ThreeSippEs

/-- The outputs of `three_sipp_es_decode`, at the defaults of its
`always_comb` (except `id_imm`, whose default is `imm_i`). -/
structure Decoded where
  aluOp : AluOp := .add
  brOp : BrOp := .none
  mdOp : MdOp := .mul
  wbSel : WbSel := .alu
  usePc : Bool := false
  useImm : Bool := true
  regWe : Bool := false
  memRe : Bool := false
  memWe : Bool := false
  memUnsigned : Bool := false
  memWidth : BitVec 2 := 2#2
  isBranch : Bool := false
  isJal : Bool := false
  isJalr : Bool := false
  isMd : Bool := false
  isCsr : Bool := false
  isEcall : Bool := false
  isEbreak : Bool := false
  isMret : Bool := false
  illegal : Bool := false
  usesRs2 : Bool := false
  idImm : Word

namespace Decode

/-! ## Instruction fields -/

def opcode (instr : Word) : BitVec 7 := instr.extractLsb 6 0
def funct3 (instr : Word) : BitVec 3 := instr.extractLsb 14 12
def funct7 (instr : Word) : BitVec 7 := instr.extractLsb 31 25
/-- `rs2f`: the rs2 field, shift amount and Zbb unary selector. -/
def rs2f (instr : Word) : BitVec 5 := instr.extractLsb 24 20
def sysImm12 (instr : Word) : BitVec 12 := instr.extractLsb 31 20

/-! ## Operation tables -/

/-- `OP_BRANCH`: `funct3` to comparison. -/
def branchOp (f3 : BitVec 3) : Option BrOp :=
  if f3 = 0b000#3 then some .eq
  else if f3 = 0b001#3 then some .ne
  else if f3 = 0b100#3 then some .lt
  else if f3 = 0b101#3 then some .ge
  else if f3 = 0b110#3 then some .ltu
  else if f3 = 0b111#3 then some .geu
  else none

/-- `OP_LOAD`: `funct3` to `(mem_width, mem_unsigned)`. -/
def loadOp (f3 : BitVec 3) : Option (BitVec 2 × Bool) :=
  if f3 = 0b000#3 then some (0#2, false)
  else if f3 = 0b001#3 then some (1#2, false)
  else if f3 = 0b010#3 then some (2#2, false)
  else if f3 = 0b100#3 then some (0#2, true)
  else if f3 = 0b101#3 then some (1#2, true)
  else none

/-- `OP_STORE`: `funct3` to `mem_width`. -/
def storeOp (f3 : BitVec 3) : Option (BitVec 2) :=
  if f3 = 0b000#3 then some 0#2
  else if f3 = 0b001#3 then some 1#2
  else if f3 = 0b010#3 then some 2#2
  else none

/-- Zbb unary operations of `OP_OPIMM`, selected by the rs2 field. -/
def zbbUnary (r : BitVec 5) : Option AluOp :=
  if r = 0b00000#5 then some .clz
  else if r = 0b00001#5 then some .ctz
  else if r = 0b00010#5 then some .cpop
  else if r = 0b00100#5 then some .sextb
  else if r = 0b00101#5 then some .sexth
  else none

/-- `OP_OPIMM` with `funct3 = 001`. -/
def opimmShl (f7 : BitVec 7) (r : BitVec 5) : Option AluOp :=
  if f7 = 0b0000000#7 then some .sll
  else if f7 = 0b0110000#7 then zbbUnary r
  else if f7 = 0b0010100#7 then some .bset
  else if f7 = 0b0100100#7 then some .bclr
  else if f7 = 0b0110100#7 then some .binv
  else none

/-- `OP_OPIMM` with `funct3 = 101`. -/
def opimmShr (f7 : BitVec 7) (r : BitVec 5) : Option AluOp :=
  if f7 = 0b0000000#7 then some .srl
  else if f7 = 0b0100000#7 then some .sra
  else if f7 = 0b0110000#7 then some .ror
  else if f7 = 0b0110100#7 ∧ r = 0b11000#5 then some .rev8
  else if f7 = 0b0010100#7 ∧ r = 0b00111#5 then some .orcb
  else if f7 = 0b0100100#7 then some .bext
  else none

/-- `OP_OPIMM`: the ALU operation. -/
def opimmOp (f3 : BitVec 3) (f7 : BitVec 7) (r : BitVec 5) : Option AluOp :=
  if f3 = 0b000#3 then some .add
  else if f3 = 0b010#3 then some .slt
  else if f3 = 0b011#3 then some .sltu
  else if f3 = 0b100#3 then some .xor
  else if f3 = 0b110#3 then some .or
  else if f3 = 0b111#3 then some .and
  else if f3 = 0b001#3 then opimmShl f7 r
  else opimmShr f7 r

/-- `OP_OP` with `funct7 = 0000001`: the M-extension operation. -/
def mdOp (f3 : BitVec 3) : MdOp :=
  if f3 = 0b000#3 then .mul
  else if f3 = 0b001#3 then .mulh
  else if f3 = 0b010#3 then .mulhsu
  else if f3 = 0b011#3 then .mulhu
  else if f3 = 0b100#3 then .div
  else if f3 = 0b101#3 then .divu
  else if f3 = 0b110#3 then .rem
  else .remu

/-- `OP_OP` with any other `funct7`: the ALU operation. -/
def opOp (f3 : BitVec 3) (f7 : BitVec 7) (r : BitVec 5) : Option AluOp :=
  if f7 = 0b0000000#7 then
    if f3 = 0b000#3 then some .add
    else if f3 = 0b001#3 then some .sll
    else if f3 = 0b010#3 then some .slt
    else if f3 = 0b011#3 then some .sltu
    else if f3 = 0b100#3 then some .xor
    else if f3 = 0b101#3 then some .srl
    else if f3 = 0b110#3 then some .or
    else some .and
  else if f7 = 0b0100000#7 then
    if f3 = 0b000#3 then some .sub
    else if f3 = 0b101#3 then some .sra
    else if f3 = 0b111#3 then some .andn
    else if f3 = 0b110#3 then some .orn
    else if f3 = 0b100#3 then some .xnor
    else none
  else if f7 = 0b0000101#7 then
    if f3 = 0b001#3 then some .clmul
    else if f3 = 0b010#3 then some .clmulr
    else if f3 = 0b011#3 then some .clmulh
    else if f3 = 0b100#3 then some .min
    else if f3 = 0b101#3 then some .minu
    else if f3 = 0b110#3 then some .max
    else if f3 = 0b111#3 then some .maxu
    else none
  else if f7 = 0b0000111#7 then
    if f3 = 0b101#3 then some .czeqz
    else if f3 = 0b111#3 then some .cznez
    else none
  else if f7 = 0b0110000#7 then
    if f3 = 0b001#3 then some .rol
    else if f3 = 0b101#3 then some .ror
    else none
  else if f7 = 0b0000100#7 then
    if f3 = 0b100#3 ∧ r = 0#5 then some .zexth else none
  else if f7 = 0b0010000#7 then
    if f3 = 0b010#3 then some .sh1add
    else if f3 = 0b100#3 then some .sh2add
    else if f3 = 0b110#3 then some .sh3add
    else none
  else if f7 = 0b0010100#7 then
    if f3 = 0b001#3 then some .bset else none
  else if f7 = 0b0100100#7 then
    if f3 = 0b001#3 then some .bclr
    else if f3 = 0b101#3 then some .bext
    else none
  else if f7 = 0b0110100#7 then
    if f3 = 0b001#3 then some .binv else none
  else none

/-! ## The arms of `unique case (opcode)` -/

def lui (instr : Word) : Decoded :=
  { aluOp := .passB, idImm := Immgen.immU instr, regWe := true }

def auipc (instr : Word) : Decoded :=
  { usePc := true, idImm := Immgen.immU instr, regWe := true }

def jal (instr : Word) : Decoded :=
  { isJal := true, wbSel := .pc4, regWe := true, idImm := Immgen.immJ instr }

def jalr (instr : Word) : Decoded :=
  { isJalr := true, wbSel := .pc4, regWe := true, idImm := Immgen.immI instr
    illegal := funct3 instr != 0b000#3 }

def branch (instr : Word) : Decoded :=
  { isBranch := true, idImm := Immgen.immB instr, usesRs2 := true
    brOp := (branchOp (funct3 instr)).getD .none
    illegal := (branchOp (funct3 instr)).isNone }

def load (instr : Word) : Decoded :=
  { memRe := true, regWe := true, wbSel := .mem, idImm := Immgen.immI instr
    memWidth := ((loadOp (funct3 instr)).getD (2#2, false)).1
    memUnsigned := ((loadOp (funct3 instr)).getD (2#2, false)).2
    illegal := (loadOp (funct3 instr)).isNone }

def store (instr : Word) : Decoded :=
  { memWe := true, idImm := Immgen.immS instr, usesRs2 := true
    memWidth := (storeOp (funct3 instr)).getD 2#2
    illegal := (storeOp (funct3 instr)).isNone }

def opimm (instr : Word) : Decoded :=
  let op := opimmOp (funct3 instr) (funct7 instr) (rs2f instr)
  { regWe := true
    -- both shift groups take `{27'b0, shamt_i}` as their immediate
    idImm := if funct3 instr = 0b001#3 ∨ funct3 instr = 0b101#3
      then (rs2f instr).setWidth 32 else Immgen.immI instr
    aluOp := op.getD .add
    illegal := op.isNone }

def op (instr : Word) : Decoded :=
  if funct7 instr = 0b0000001#7 then
    { regWe := true, useImm := false, usesRs2 := true, idImm := Immgen.immI instr
      isMd := true, wbSel := .md, mdOp := mdOp (funct3 instr) }
  else
    let op := opOp (funct3 instr) (funct7 instr) (rs2f instr)
    { regWe := true, useImm := false, usesRs2 := true, idImm := Immgen.immI instr
      aluOp := op.getD .add, illegal := op.isNone }

def system (instr : Word) : Decoded :=
  if funct3 instr = 0b000#3 then
    { isEcall := sysImm12 instr == 0x000#12
      isEbreak := sysImm12 instr == 0x001#12
      isMret := sysImm12 instr == 0x302#12
      illegal := sysImm12 instr != 0x000#12 && sysImm12 instr != 0x001#12 &&
        sysImm12 instr != 0x302#12
      idImm := Immgen.immI instr }
  else { isCsr := true, regWe := true, wbSel := .csr, idImm := Immgen.immI instr }

/-- `OP_FENCE` is a no-op. -/
def fence (instr : Word) : Decoded := { idImm := Immgen.immI instr }

def illegalOpcode (instr : Word) : Decoded :=
  { illegal := true, idImm := Immgen.immI instr }

end Decode

open Decode in
/-- `three_sipp_es_decode` -/
def decode (instr : Word) : Decoded :=
  if opcode instr = opLui then lui instr
  else if opcode instr = opAuipc then auipc instr
  else if opcode instr = opJal then jal instr
  else if opcode instr = opJalr then jalr instr
  else if opcode instr = opBranch then branch instr
  else if opcode instr = opLoad then load instr
  else if opcode instr = opStore then store instr
  else if opcode instr = opOpimm then opimm instr
  else if opcode instr = opOp then op instr
  else if opcode instr = opSystem then system instr
  else if opcode instr = opFence then fence instr
  else illegalOpcode instr

/-! ## What the decoder's control bits say about each other -/

namespace Decode

/-- The instruction classes of the decoder exclude each other, and each class
fixes where the result comes from and whether a register is written. -/
structure Classes (d : Decoded) : Prop where
  md : d.isMd = true → d.regWe = true ∧ d.wbSel = .md ∧ d.illegal = false ∧
    d.memRe = false ∧ d.memWe = false ∧ d.isCsr = false ∧ d.isJal = false ∧
    d.isJalr = false ∧ d.isBranch = false ∧ d.isMret = false
  load : d.memRe = true → d.regWe = true ∧ d.wbSel = .mem ∧ d.memWe = false ∧
    d.isMd = false ∧ d.aluOp = .add
  store : d.memWe = true → d.regWe = false ∧ d.wbSel = .alu ∧ d.memRe = false ∧
    d.isMd = false ∧ d.aluOp = .add
  csr : d.isCsr = true → d.regWe = true ∧ d.wbSel = .csr ∧ d.illegal = false ∧
    d.isMret = false ∧ d.isMd = false ∧ d.memRe = false ∧ d.memWe = false ∧
    d.isJal = false ∧ d.isJalr = false ∧ d.isBranch = false
  sys : (d.isEcall || d.isEbreak || d.isMret) = true → d.regWe = false ∧ d.wbSel = .alu ∧
    d.memRe = false ∧ d.memWe = false ∧ d.isCsr = false ∧ d.isMd = false ∧ d.isJal = false ∧
    d.isJalr = false ∧ d.isBranch = false ∧ d.illegal = false

/-- A bundle with every class bit off. -/
theorem Classes.plain {d : Decoded} (hmd : d.isMd = false) (hre : d.memRe = false)
    (hwe : d.memWe = false) (hcsr : d.isCsr = false)
    (hsys : (d.isEcall || d.isEbreak || d.isMret) = false) : Classes d := by
  constructor <;> simp [*]

theorem load_classes (instr : Word) : Classes (load instr) :=
  ⟨fun h => absurd h Bool.false_ne_true, fun _ => ⟨rfl, rfl, rfl, rfl, rfl⟩,
    fun h => absurd h Bool.false_ne_true, fun h => absurd h Bool.false_ne_true,
    fun h => absurd h Bool.false_ne_true⟩

theorem store_classes (instr : Word) : Classes (store instr) :=
  ⟨fun h => absurd h Bool.false_ne_true, fun h => absurd h Bool.false_ne_true,
    fun _ => ⟨rfl, rfl, rfl, rfl, rfl⟩, fun h => absurd h Bool.false_ne_true,
    fun h => absurd h Bool.false_ne_true⟩

theorem op_classes (instr : Word) : Classes (op instr) := by
  unfold op
  split
  · exact ⟨fun _ => ⟨rfl, rfl, rfl, rfl, rfl, rfl, rfl, rfl, rfl, rfl⟩,
      fun h => absurd h Bool.false_ne_true, fun h => absurd h Bool.false_ne_true,
      fun h => absurd h Bool.false_ne_true, fun h => absurd h Bool.false_ne_true⟩
  · exact .plain rfl rfl rfl rfl rfl

theorem system_classes (instr : Word) : Classes (system instr) := by
  unfold system
  split
  · -- ECALL, EBREAK and MRET are told apart by their `funct12`
    refine ⟨fun h => absurd h Bool.false_ne_true, fun h => absurd h Bool.false_ne_true,
      fun h => absurd h Bool.false_ne_true, fun h => absurd h Bool.false_ne_true,
      fun h => ⟨rfl, rfl, rfl, rfl, rfl, rfl, rfl, rfl, rfl, ?_⟩⟩
    simp only [Bool.or_eq_true, beq_iff_eq] at h
    rcases h with (h | h) | h <;> simp [h]
  · exact ⟨fun h => absurd h Bool.false_ne_true, fun h => absurd h Bool.false_ne_true,
      fun h => absurd h Bool.false_ne_true,
      fun _ => ⟨rfl, rfl, rfl, rfl, rfl, rfl, rfl, rfl, rfl, rfl⟩,
      fun h => absurd h Bool.false_ne_true⟩

/-- A property of the bundle is checked arm by arm. -/
theorem arms {p : Decoded → Prop} (instr : Word) (hlui : p (lui instr)) (hauipc : p (auipc instr))
    (hjal : p (jal instr)) (hjalr : p (jalr instr)) (hbranch : p (branch instr))
    (hload : p (load instr)) (hstore : p (store instr)) (hopimm : p (opimm instr))
    (hop : p (op instr)) (hsystem : p (system instr)) (hfence : p (fence instr))
    (hillegal : p (illegalOpcode instr)) : p (decode instr) := by
  have ite : ∀ {c : Prop} [Decidable c] {d e : Decoded}, p d → p e → p (if c then d else e) :=
    fun hd he => iteInduction (motive := p) (fun _ => hd) fun _ => he
  exact ite hlui <| ite hauipc <| ite hjal <| ite hjalr <| ite hbranch <| ite hload <|
    ite hstore <| ite hopimm <| ite hop <| ite hsystem <| ite hfence hillegal

end Decode

open Decode in
theorem decode_classes (instr : Word) : Classes (decode instr) :=
  arms instr (.plain rfl rfl rfl rfl rfl) (.plain rfl rfl rfl rfl rfl) (.plain rfl rfl rfl rfl rfl)
    (.plain rfl rfl rfl rfl rfl) (.plain rfl rfl rfl rfl rfl) (load_classes instr)
    (store_classes instr) (.plain rfl rfl rfl rfl rfl) (op_classes instr) (system_classes instr)
    (.plain rfl rfl rfl rfl rfl) (.plain rfl rfl rfl rfl rfl)

open Decode in
/-- The result comes from the M unit or the CSR file only for their instructions. -/
theorem decode_wbSel (instr : Word) :
    ((decode instr).wbSel = .md → (decode instr).isMd = true) ∧
    ((decode instr).wbSel = .csr → (decode instr).isCsr = true) := by
  refine arms (p := fun d => (d.wbSel = .md → d.isMd = true) ∧ (d.wbSel = .csr → d.isCsr = true))
    instr ⟨nofun, nofun⟩ ⟨nofun, nofun⟩ ⟨nofun, nofun⟩ ⟨nofun, nofun⟩ ⟨nofun, nofun⟩
    ⟨nofun, nofun⟩ ⟨nofun, nofun⟩ ⟨nofun, nofun⟩ ?_ ?_ ⟨nofun, nofun⟩ ⟨nofun, nofun⟩
  · unfold op
    split
    · exact ⟨fun _ => rfl, nofun⟩
    · exact ⟨nofun, nofun⟩
  · unfold system
    split
    · exact ⟨nofun, nofun⟩
    · exact ⟨nofun, fun _ => rfl⟩

open Decode in
/-- A JALR is neither a JAL nor a branch. -/
theorem decode_jalr (instr : Word) : (decode instr).isJalr = true →
    (decode instr).isJal = false ∧ (decode instr).isBranch = false := by
  refine arms (p := fun d => d.isJalr = true → d.isJal = false ∧ d.isBranch = false) instr
    nofun nofun nofun (fun _ => ⟨rfl, rfl⟩) nofun nofun nofun nofun ?_ ?_ nofun nofun
  · unfold op
    split <;> exact nofun
  · unfold system
    split <;> exact nofun

open Decode in
/-- A load goes straight on. -/
theorem decode_load (instr : Word) : (decode instr).memRe = true →
    (decode instr).isJal = false ∧ (decode instr).isJalr = false ∧
      (decode instr).isBranch = false := by
  refine arms (p := fun d => d.memRe = true → d.isJal = false ∧ d.isJalr = false ∧
    d.isBranch = false) instr nofun nofun nofun nofun nofun (fun _ => ⟨rfl, rfl, rfl⟩) nofun nofun
    ?_ ?_ nofun nofun
  · unfold op
    split <;> exact nofun
  · unfold system
    split <;> exact nofun

open Decode in
/-- The address of a load or store is a register and the immediate. -/
theorem decode_address (instr : Word) :
    ((decode instr).memRe = true ∨ (decode instr).memWe = true) →
      (decode instr).aluOp = .add ∧ (decode instr).usePc = false ∧ (decode instr).useImm = true := by
  have other : ∀ {q : Prop}, (false = true ∨ false = true) → q := fun h =>
    h.elim (fun h => absurd h Bool.false_ne_true) (fun h => absurd h Bool.false_ne_true)
  refine arms (p := fun d => (d.memRe = true ∨ d.memWe = true) →
    d.aluOp = .add ∧ d.usePc = false ∧ d.useImm = true) instr other other other other other
    (fun _ => ⟨rfl, rfl, rfl⟩) (fun _ => ⟨rfl, rfl, rfl⟩) other ?_ ?_ other other
  · unfold op
    split
    · exact other
    · exact other
  · unfold system
    split
    · exact other
    · exact other

open Decode in
/-- Accesses are of one, two or four bytes. -/
theorem decode_memWidth (instr : Word) : (decode instr).memWidth ≠ 3#2 := by
  refine arms (p := fun d => d.memWidth ≠ 3#2) instr nofun nofun nofun nofun nofun ?_ ?_ nofun ?_
    ?_ nofun nofun
  · show ((loadOp (funct3 instr)).getD (2#2, false)).1 ≠ 3#2
    unfold loadOp
    split_ifs <;> exact nofun
  · show (storeOp (funct3 instr)).getD 2#2 ≠ 3#2
    unfold storeOp
    split_ifs <;> exact nofun
  · unfold op
    split <;> exact nofun
  · unfold system
    split <;> exact nofun

end ThreeSippEs
