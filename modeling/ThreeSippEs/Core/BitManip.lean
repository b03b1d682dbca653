import ThreeSippEs.Isa.Accepted
import ThreeSippEs.Lib.BinaryPolynomial
import ThreeSippEs.Lib.BitScan

/-!
# Bit manipulation

What the Zbb, Zbc and Zbs instructions are defined to compute, and that the
decoder and the ALU compute it.

- `BitOp.Computes`: the definitions, bit by bit or in mathematics;
- `Alu.clz32_spec` and so on: what the loops and shifts of the ALU give;
- `Isa.Instr.bits`, `BitInstr`: the instructions that are such an operation;
- `bit_manip`: every instruction computes what it is defined to.
-/

namespace ThreeSippEs

/-! ## The definitions -/

inductive BitOp
  | clz
  | ctz
  | cpop
  | clmul
  | clmulh
  | clmulr
  | rol
  | ror
  | rev8
  | orcb
  | bset
  | bclr
  | binv
  | bext
  deriving DecidableEq

/-- Byte `k` of a word, from the bottom. -/
def byteOf (a : Word) (k : Nat) : BitVec 8 := a.extractLsb' (8 * k) 8

open BinaryPolynomial in
/-- `r` is the result of the operation on `a` and `b`. -/
def BitOp.Computes (op : BitOp) (a b r : Word) : Prop :=
  match op with
  -- the number of zeros above the highest bit set
  | .clz => r.toNat ≤ 32 ∧ (∀ i < r.toNat, a.getMsbD i = false) ∧
      (r.toNat < 32 → a.getMsbD r.toNat = true)
  -- the number of zeros below the lowest
  | .ctz => r.toNat ≤ 32 ∧ (∀ i < r.toNat, a.getLsbD i = false) ∧
      (r.toNat < 32 → a.getLsbD r.toNat = true)
  | .cpop => r.toNat = ((Finset.range 32).filter fun i => a.getLsbD i = true).card
  -- bits 31..0, 63..32 and 62..31 of the product in GF(2)[X]
  | .clmul => ∀ i < 32, r.getLsbD i = true ↔ (ofBits a * ofBits b).coeff i = 1
  | .clmulh => ∀ i < 32, r.getLsbD i = true ↔ (ofBits a * ofBits b).coeff (i + 32) = 1
  | .clmulr => ∀ i < 32, r.getLsbD i = true ↔ (ofBits a * ofBits b).coeff (i + 31) = 1
  | .rol => ∀ i < 32, r.getLsbD ((i + b.toNat) % 32) = a.getLsbD i
  -- which is the rotation left by `32 - b`
  | .ror => (∀ i < 32, r.getLsbD i = a.getLsbD ((i + b.toNat) % 32)) ∧
      ∀ i < 32, r.getLsbD ((i + (32#32 - b).toNat) % 32) = a.getLsbD i
  | .rev8 => ∀ k < 4, byteOf r k = byteOf a (3 - k)
  | .orcb => ∀ k < 4, byteOf r k = if byteOf a k = 0#8 then 0x00#8 else 0xFF#8
  | .bset => ∀ i < 32, r.getLsbD i = if i = b.toNat % 32 then true else a.getLsbD i
  | .bclr => ∀ i < 32, r.getLsbD i = if i = b.toNat % 32 then false else a.getLsbD i
  | .binv => ∀ i < 32, r.getLsbD i = if i = b.toNat % 32 then !a.getLsbD i else a.getLsbD i
  | .bext => r = if a.getLsbD (b.toNat % 32) then 1#32 else 0#32

/-! ## What the ALU gives -/

namespace Alu

/-- The scan from the top stops at the first bit from the top. -/
theorem clz32_toNat (v : Word) : (clz32 v).toNat = BitScan.first v.getMsbD 32 := by
  have hscan := BitScan.scan_eq_find v.getLsbD (fun i => 31#6 - BitVec.ofNat 6 i)
    (List.range 32).reverse 32#6
  have hrev : (List.range 32).reverse = (List.range 32).map (31 - ·) := by decide
  have hbit : ∀ i < 32, v.getLsbD (31 - i) = v.getMsbD i := by
    intro i hi
    rw [BitVec.getMsbD_eq_getLsbD, decide_eq_true hi, Bool.true_and]
  have hfind : (List.range 32).find? (v.getLsbD ∘ (31 - ·)) = (List.range 32).find? v.getMsbD :=
    List.find?_congr fun i hi => hbit i (List.mem_range.mp hi)
  rw [show clz32 v = _ from hscan, hrev, List.find?_map, hfind]
  unfold BitScan.first
  cases h : (List.range 32).find? v.getMsbD with
  | none => rfl
  | some i =>
    have hi : i < 32 := List.mem_range.mp (List.mem_of_find?_eq_some h)
    show (31#6 - BitVec.ofNat 6 (31 - i)).toNat = i
    rw [BitVec.toNat_sub, BitVec.toNat_ofNat, BitVec.toNat_ofNat]
    omega

/-- The scan from the bottom stops at the first bit from the bottom. -/
theorem ctz32_toNat (v : Word) : (ctz32 v).toNat = BitScan.first v.getLsbD 32 := by
  have hscan := BitScan.scan_eq_find v.getLsbD (BitVec.ofNat 6) (List.range 32) 32#6
  rw [show ctz32 v = _ from hscan]
  unfold BitScan.first
  cases h : (List.range 32).find? v.getLsbD with
  | none => rfl
  | some i =>
    have hi : i < 32 := List.mem_range.mp (List.mem_of_find?_eq_some h)
    exact Nat.mod_eq_of_lt (by omega)

theorem cpop32_toNat (v : Word) :
    (cpop32 v).toNat = ((Finset.range 32).filter fun i => v.getLsbD i = true).card :=
  BitScan.count_toNat v.getLsbD 32 (by decide)

open BinaryPolynomial in
/-- A bit of the carry-less product. -/
theorem clmulFull_bit (a b : Word) (k : Nat) :
    (clmulFull a b).getLsbD k = true ↔ (ofBits a * ofBits b).coeff k = 1 := by
  rw [← ofBits_clmul (w := 64) a b (by decide) (by decide), getLsbD_eq_true_iff]
  rfl

theorem shamt_eq (b : Word) : shamt b = b.toNat % 32 := by
  unfold shamt
  rw [BitVec.extractLsb_toNat, Nat.shiftRight_zero]

theorem rol_bit (a b : Word) {j : Nat} (hj : j < 32) :
    (rol a b).getLsbD j = a.getLsbD ((j + (32 - b.toNat % 32)) % 32) := by
  unfold rol
  rw [shamt_eq, BitVec.getLsbD_or, BitVec.getLsbD_shiftLeft, BitVec.getLsbD_ushiftRight]
  have hs : b.toNat % 32 < 32 := Nat.mod_lt _ (by decide)
  generalize b.toNat % 32 = s at hs
  rcases Nat.eq_zero_or_pos s with rfl | hpos
  · have hidx : (j + (32 - 0)) % 32 = j := by omega
    rw [hidx]
    simp [hj]
  · rw [Nat.mod_eq_of_lt (show 32 - s < 32 by omega)]
    by_cases hlt : j < s
    · -- from the top of `a`
      have hidx : (j + (32 - s)) % 32 = 32 - s + j := by omega
      rw [hidx]
      simp [hlt]
    · -- shifted up
      have hidx : (j + (32 - s)) % 32 = j - s := by omega
      rw [hidx, BitVec.getLsbD_of_ge a (32 - s + j) (by omega)]
      simp [hlt, hj]

theorem ror_bit (a b : Word) {j : Nat} (hj : j < 32) :
    (ror a b).getLsbD j = a.getLsbD ((j + b.toNat % 32) % 32) := by
  unfold ror
  rw [shamt_eq, BitVec.getLsbD_or, BitVec.getLsbD_shiftLeft, BitVec.getLsbD_ushiftRight]
  have hs : b.toNat % 32 < 32 := Nat.mod_lt _ (by decide)
  generalize b.toNat % 32 = s at hs
  rcases Nat.eq_zero_or_pos s with rfl | hpos
  · have hidx : (j + 0) % 32 = j := by omega
    rw [hidx]
    simp [hj]
  · rw [Nat.mod_eq_of_lt (show 32 - s < 32 by omega)]
    by_cases hlt : s + j < 32
    · have hidx : (j + s) % 32 = s + j := by omega
      have hlo : j < 32 - s := by omega
      rw [hidx]
      simp [hlo]
    · -- from the bottom of `a`
      have hidx : (j + s) % 32 = j - (32 - s) := by omega
      have hhi : ¬ j < 32 - s := by omega
      rw [hidx, BitVec.getLsbD_of_ge a (s + j) (by omega)]
      simp [hhi, hj]

/-- Rotating right by `b` is rotating left by `32 - b`. -/
theorem ror_eq_rol (a b : Word) : ror a b = rol a (32#32 - b) := by
  apply BitVec.eq_of_getLsbD_eq
  intro j hj
  rw [ror_bit a b hj, rol_bit a _ hj]
  congr 1
  rw [BitVec.toNat_sub]
  have hb := b.isLt
  show (j + b.toNat % 32) % 32 = (j + (32 - (2 ^ 32 - b.toNat + 32) % 2 ^ 32 % 32)) % 32
  omega

theorem rev8_byte (a : Word) {k : Nat} (hk : k < 4) : byteOf (rev8 a) k = byteOf a (3 - k) := by
  unfold rev8 byteOf
  apply BitVec.eq_of_getLsbD_eq
  intro i hi
  simp only [BitVec.getLsbD_extractLsb', BitVec.getLsbD_extractLsb, BitVec.getLsbD_append]
  interval_cases k <;> grind

theorem orcb_byte (a : Word) {k : Nat} (hk : k < 4) :
    byteOf (orcb a) k = if byteOf a k = 0#8 then 0x00#8 else 0xFF#8 := by
  have horc : ∀ v : BitVec 8, orcByte v = if v = 0#8 then 0x00#8 else 0xFF#8 := by decide
  have hbyte : byteOf (orcb a) k = orcByte (byteOf a k) := by
    unfold orcb byteOf
    apply BitVec.eq_of_getLsbD_eq
    intro i hi
    simp only [BitVec.getLsbD_extractLsb', BitVec.getLsbD_append]
    interval_cases k <;> grind
  rw [hbyte, horc]

/-- A single bit in place `b mod 32`. -/
theorem oneHot_bit (b : Word) {i : Nat} (hi : i < 32) :
    ((1#32 : Word) <<< shamt b).getLsbD i = decide (i = b.toNat % 32) := by
  rw [shamt_eq, BitVec.getLsbD_shiftLeft, BitVec.getLsbD_one]
  grind

/-- A rotation left moves every bit up by `b`. -/
theorem rol_moves (a b : Word) {i : Nat} (hi : i < 32) :
    (rol a b).getLsbD ((i + b.toNat) % 32) = a.getLsbD i := by
  rw [rol_bit a b (Nat.mod_lt _ (by decide))]
  congr 1
  omega

end Alu

/-- The ALU operation that stands for it. -/
def BitOp.alu : BitOp → AluOp
  | .clz => .clz
  | .ctz => .ctz
  | .cpop => .cpop
  | .clmul => .clmul
  | .clmulh => .clmulh
  | .clmulr => .clmulr
  | .rol => .rol
  | .ror => .ror
  | .rev8 => .rev8
  | .orcb => .orcb
  | .bset => .bset
  | .bclr => .bclr
  | .binv => .binv
  | .bext => .bext

/-- A count of up to 32 is not cut off. -/
theorem count_toNat {c : BitVec 6} : (c.setWidth 32).toNat = c.toNat := by
  rw [BitVec.toNat_setWidth]
  omega

open Alu in
/-- **The ALU computes** the definitions. -/
theorem BitOp.alu_computes (op : BitOp) (a b : Word) : op.Computes a b (y op.alu a b) := by
  cases op with
  | clz =>
    show (_ ∧ _ ∧ _)
    rw [show y BitOp.clz.alu a b = (clz32 a).setWidth 32 from rfl, count_toNat, clz32_toNat]
    exact BitScan.first_spec _ _
  | ctz =>
    show (_ ∧ _ ∧ _)
    rw [show y BitOp.ctz.alu a b = (ctz32 a).setWidth 32 from rfl, count_toNat, ctz32_toNat]
    exact BitScan.first_spec _ _
  | cpop => exact count_toNat.trans (cpop32_toNat a)
  | clmul =>
    intro i hi
    rw [← clmulFull_bit]
    show ((clmulFull a b).extractLsb 31 0).getLsbD i = true ↔ _
    rw [BitVec.getLsbD_extractLsb, decide_eq_true (by omega), Bool.true_and, Nat.zero_add]
  | clmulh =>
    intro i hi
    rw [← clmulFull_bit]
    show ((clmulFull a b).extractLsb 63 32).getLsbD i = true ↔ _
    rw [BitVec.getLsbD_extractLsb, decide_eq_true (by omega), Bool.true_and, Nat.add_comm]
  | clmulr =>
    intro i hi
    rw [← clmulFull_bit]
    show ((clmulFull a b).extractLsb 62 31).getLsbD i = true ↔ _
    rw [BitVec.getLsbD_extractLsb, decide_eq_true (by omega), Bool.true_and, Nat.add_comm]
  | rol => exact fun i hi => rol_moves a b hi
  | ror =>
    refine ⟨fun i hi => ?_, fun i hi => ?_⟩
    · show (Alu.ror a b).getLsbD i = _
      rw [ror_bit a b hi, Nat.add_mod_mod]
    · show (Alu.ror a b).getLsbD _ = _
      rw [ror_eq_rol, rol_moves a _ hi]
  | rev8 => exact fun k hk => rev8_byte a hk
  | orcb => exact fun k hk => orcb_byte a hk
  | bset =>
    intro i hi
    show (a ||| (1#32 <<< shamt b)).getLsbD i = _
    rw [BitVec.getLsbD_or, oneHot_bit b hi]
    by_cases h : i = b.toNat % 32 <;> simp [h]
  | bclr =>
    intro i hi
    show (a &&& ~~~(1#32 <<< shamt b)).getLsbD i = _
    rw [BitVec.getLsbD_and, BitVec.getLsbD_not, oneHot_bit b hi]
    by_cases h : i = b.toNat % 32 <;> simp [h, hi]
  | binv =>
    intro i hi
    show (a ^^^ (1#32 <<< shamt b)).getLsbD i = _
    rw [BitVec.getLsbD_xor, oneHot_bit b hi]
    by_cases h : i = b.toNat % 32 <;> simp [h]
  | bext =>
    show (BitVec.ofBool (a.getLsbD (shamt b))).setWidth 32 = _
    rw [shamt_eq]
    cases a.getLsbD (b.toNat % 32) <;> rfl

/-! ## The instructions -/

namespace Isa

/-- What an instruction on one register does with its bits. -/
def UnaryOp.bits : UnaryOp → Option BitOp
  | .clz => some .clz
  | .ctz => some .ctz
  | .cpop => some .cpop
  | .rev8 => some .rev8
  | .orcb => some .orcb
  | _ => none

/-- What an instruction on two registers does with them. -/
def RegOp.bits : RegOp → Option BitOp
  | .clmul => some .clmul
  | .clmulh => some .clmulh
  | .clmulr => some .clmulr
  | .rol => some .rol
  | .ror => some .ror
  | .bset => some .bset
  | .bclr => some .bclr
  | .binv => some .binv
  | .bext => some .bext
  | _ => none

/-- What an instruction on a register and a shift amount does with them. -/
def ShiftOp.bits : ShiftOp → Option BitOp
  | .rori => some .ror
  | .bseti => some .bset
  | .bclri => some .bclr
  | .binvi => some .binv
  | .bexti => some .bext
  | _ => none

def Instr.bits : Instr → Option BitOp
  | .unary o _ _ => o.bits
  | .op o _ _ _ => o.bits
  | .shift o _ _ _ => o.bits
  | _ => none

end Isa

/-- An instruction that manipulates bits, with its operation. -/
structure BitInstr where
  instr : Isa.Instr
  op : BitOp
  bits : instr.bits = some op

namespace BitInstr

variable (i : BitInstr)

def rd : BitVec 5 :=
  match i.instr with
  | .unary _ rd _ | .op _ rd _ _ | .shift _ rd _ _ => rd
  | _ => 0#5

def rs1 : BitVec 5 :=
  match i.instr with
  | .unary _ _ rs1 | .op _ _ rs1 _ | .shift _ _ rs1 _ => rs1
  | _ => 0#5

/-- The second register, where there is one. -/
def rs2 : Option (BitVec 5) :=
  match i.instr with
  | .op _ _ _ rs2 => some rs2
  | _ => none

/-- The second operand, with `b` in the second register. -/
def operand (b : Word) : Word :=
  match i.instr with
  | .op .. => b
  | .shift _ _ _ shamt => shamt.setWidth 32
  | _ => 0#32

end BitInstr

/-- X accepts the instruction, reads and writes its registers, and its result is
what the instruction is defined to compute. -/
structure ExecutesBits (P : Params) (x : XIn) (i : BitInstr) : Prop where
  legal : x.illegalAll P = false
  rs1 : x.rs1 = i.rs1
  rs2 : ∀ r, i.rs2 = some r → x.rs2 = r
  rd : x.rd = i.rd
  regWe : x.dec.regWe = true
  result : i.op.Computes x.op1 (i.operand x.op2) (x.xResult P)

section

variable {P : Params} {x : XIn}

/-- A legal instruction without a system function raises no illegal-instruction
exception. -/
theorem legal_of_dec (hill : x.dec.illegal = false) (hcsr : x.dec.isCsr = false)
    (hmret : x.dec.isMret = false) : x.illegalAll P = false := by
  unfold XIn.illegalAll XIn.illegalEff XIn.privFault XIn.csrPrivFault XIn.mretPrivFault
    XIn.csrRoFault
  rw [hill, hcsr, hmret]
  simp

/-- An OP-IMM instruction with an operation of the table. -/
theorem alu_of_opimm {op : AluOp} (hop : x.fxInstr.extractLsb 6 0 = 0b0010011#7)
    (h : Decode.opimmOp (Decode.funct3 x.fxInstr) (Decode.funct7 x.fxInstr)
      (Decode.rs2f x.fxInstr) = some op)
    (hsh : Decode.funct3 x.fxInstr = 0b001#3 ∨ Decode.funct3 x.fxInstr = 0b101#3) :
    x.illegalAll P = false ∧ x.dec.regWe = true ∧
      x.xResult P = Alu.y op x.op1 ((Decode.rs2f x.fxInstr).setWidth 32) := by
  have hdec : x.dec = Decode.opimm x.fxInstr := by
    unfold XIn.dec decode Decode.opcode
    rw [hop]
    rfl
  have hopimm : Decode.opimm x.fxInstr =
      { regWe := true, idImm := (Decode.rs2f x.fxInstr).setWidth 32, aluOp := op } := by
    unfold Decode.opimm
    rw [h, if_pos hsh]
    rfl
  rw [hopimm] at hdec
  refine ⟨legal_of_dec ?_ ?_ ?_, ?_, ?_⟩
  · rw [hdec]
  · rw [hdec]
  · rw [hdec]
  · rw [hdec]
  · unfold XIn.xResult XIn.aluY XIn.aluA XIn.aluB
    rw [hdec]
    rfl

/-- An OP instruction with an operation of the table. -/
theorem alu_of_op {op : AluOp} (hop : x.fxInstr.extractLsb 6 0 = 0b0110011#7)
    (hmd : Decode.funct7 x.fxInstr ≠ 0b0000001#7)
    (h : Decode.opOp (Decode.funct3 x.fxInstr) (Decode.funct7 x.fxInstr)
      (Decode.rs2f x.fxInstr) = some op) :
    x.illegalAll P = false ∧ x.dec.regWe = true ∧ x.xResult P = Alu.y op x.op1 x.op2 := by
  have hdec : x.dec = Decode.op x.fxInstr := by
    unfold XIn.dec decode Decode.opcode
    rw [hop]
    rfl
  have hopd : Decode.op x.fxInstr =
      { regWe := true, useImm := false, usesRs2 := true, idImm := Immgen.immI x.fxInstr
        aluOp := op } := by
    unfold Decode.op
    rw [if_neg hmd, h]
    rfl
  rw [hopd] at hdec
  refine ⟨legal_of_dec ?_ ?_ ?_, ?_, ?_⟩
  · rw [hdec]
  · rw [hdec]
  · rw [hdec]
  · rw [hdec]
  · unfold XIn.xResult XIn.aluY XIn.aluA XIn.aluB
    rw [hdec]
    rfl

end

/-- An operation on one register is in the table of OP-IMM. -/
theorem unary_code {o : Isa.UnaryOp} {op : BitOp} (h : o.bits = some op) :
    Decode.opimmOp o.code.2.2.1 o.code.1 o.code.2.1 = some op.alu ∧
      (o.code.2.2.1 = 0b001#3 ∨ o.code.2.2.1 = 0b101#3) ∧ o.code.2.2.2 = 0b0010011#7 := by
  cases o with
  | sextb | sexth | zexth => cases h
  | clz | ctz | cpop | rev8 | orcb =>
    cases h
    decide

theorem reg_alu {o : Isa.RegOp} {op : BitOp} (h : o.bits = some op) : o.aluOp = op.alu := by
  cases o <;> cases h <;> rfl

theorem shift_alu {o : Isa.ShiftOp} {op : BitOp} (h : o.bits = some op) : o.aluOp = op.alu := by
  cases o <;> cases h <;> rfl

/-- **Bit manipulation is correct**: for every such instruction, every registers and
whatever else X sees, the word of the instruction is accepted and its result is the
defined one. -/
theorem bit_manip (P : Params) (x : XIn) (i : BitInstr) :
    ExecutesBits P { x with fxInstr := i.instr.encode } i := by
  obtain ⟨instr, op, hbits⟩ := i
  cases instr with
  | unary o rd rs1 =>
    obtain ⟨hop, hfunct3, hopcode⟩ := unary_code hbits
    obtain ⟨hlegal, hwe, hres⟩ := @alu_of_opimm P
      { x with fxInstr := (Isa.Instr.unary o rd rs1).encode } op.alu
      ((Formats.rtype_opcode ..).trans hopcode)
      (by
        unfold Isa.Instr.encode Decode.funct3 Decode.funct7 Decode.rs2f
        rw [Formats.rtype_funct3, Formats.rtype_funct7, Formats.rtype_rs2]
        exact hop)
      (by
        unfold Isa.Instr.encode Decode.funct3
        rw [Formats.rtype_funct3]
        exact hfunct3)
    refine ⟨hlegal, Formats.rtype_rs1 .., nofun, Formats.rtype_rd .., hwe, ?_⟩
    rw [hres]
    -- the second operand is not looked at
    cases o with
    | sextb | sexth | zexth => cases hbits
    | clz | ctz | cpop | rev8 | orcb =>
      cases hbits
      exact BitOp.alu_computes _ _ _
  | op o rd rs1 rs2 =>
    have hop : Decode.opOp o.code.2 o.code.1 rs2 = some op.alu :=
      (Isa.opOp_code o rs2).trans (congrArg some (reg_alu hbits))
    obtain ⟨hlegal, hwe, hres⟩ := @alu_of_op P
      { x with fxInstr := (Isa.Instr.op o rd rs1 rs2).encode } op.alu (Formats.rtype_opcode ..)
      (by
        unfold Isa.Instr.encode Decode.funct7
        rw [Formats.rtype_funct7]
        exact o.funct7_ne)
      (by
        unfold Isa.Instr.encode Decode.funct3 Decode.funct7 Decode.rs2f
        rw [Formats.rtype_funct3, Formats.rtype_funct7, Formats.rtype_rs2]
        exact hop)
    refine ⟨hlegal, Formats.rtype_rs1 .., ?_, Formats.rtype_rd .., hwe, ?_⟩
    · intro r hr
      cases hr
      exact Formats.rtype_rs2 ..
    · rw [hres]
      exact BitOp.alu_computes _ _ _
  | shift o rd rs1 shamt =>
    have hop : Decode.opimmOp o.code.2 o.code.1 shamt = some op.alu :=
      (Isa.opimmOp_shift o shamt).trans (congrArg some (shift_alu hbits))
    obtain ⟨hlegal, hwe, hres⟩ := @alu_of_opimm P
      { x with fxInstr := (Isa.Instr.shift o rd rs1 shamt).encode } op.alu
      (Formats.rtype_opcode ..)
      (by
        unfold Isa.Instr.encode Decode.funct3 Decode.funct7 Decode.rs2f
        rw [Formats.rtype_funct3, Formats.rtype_funct7, Formats.rtype_rs2]
        exact hop)
      (by
        unfold Isa.Instr.encode Decode.funct3
        rw [Formats.rtype_funct3]
        exact o.funct3_eq)
    refine ⟨hlegal, Formats.rtype_rs1 .., nofun, Formats.rtype_rd .., hwe, ?_⟩
    rw [hres]
    have hsh : Decode.rs2f ((Isa.Instr.shift o rd rs1 shamt).encode) = shamt :=
      Formats.rtype_rs2 ..
    show op.Computes x.op1 (shamt.setWidth 32) (Alu.y _ x.op1 ((Decode.rs2f _).setWidth 32))
    rw [hsh]
    exact BitOp.alu_computes _ _ _
  | _ => cases hbits

end ThreeSippEs
