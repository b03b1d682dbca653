import ThreeSippEs.Isa.Accepted

/-!
# What is accepted is an instruction

The decoder read backwards: a word that an arm accepts has the layout of the arm, and
the operation that was selected has its code. Three fields the core does not look at.

- `branchOp_inv`, `opOp_inv` and so on: the operation tables, read backwards;
- `Clean`: the fields that are not looked at;
- `defined_of_decode`, `defined_of_amoValid`: accepted words are defined;
- `Defined.clean`: defined words are clean.
-/

namespace ThreeSippEs

namespace Isa

open Decode Formats

/-! ## The operation tables, read backwards -/

theorem branchOp_inv {f3 : BitVec 3} (h : (branchOp f3).isNone = false) :
    ∃ o : BranchOp, o.funct3 = f3 := by
  unfold branchOp at h
  split_ifs at h with h0 h1 h4 h5 h6 h7
  exacts [⟨.beq, h0.symm⟩, ⟨.bne, h1.symm⟩, ⟨.blt, h4.symm⟩, ⟨.bge, h5.symm⟩, ⟨.bltu, h6.symm⟩,
    ⟨.bgeu, h7.symm⟩, nomatch h]

theorem loadOp_inv {f3 : BitVec 3} (h : (loadOp f3).isNone = false) :
    ∃ o : LoadOp, o.funct3 = f3 := by
  unfold loadOp at h
  split_ifs at h with h0 h1 h2 h4 h5
  exacts [⟨.lb, h0.symm⟩, ⟨.lh, h1.symm⟩, ⟨.lw, h2.symm⟩, ⟨.lbu, h4.symm⟩, ⟨.lhu, h5.symm⟩,
    nomatch h]

theorem storeOp_inv {f3 : BitVec 3} (h : (storeOp f3).isNone = false) :
    ∃ o : StoreOp, o.funct3 = f3 := by
  unfold storeOp at h
  split_ifs at h with h0 h1 h2
  exacts [⟨.sb, h0.symm⟩, ⟨.sh, h1.symm⟩, ⟨.sw, h2.symm⟩, nomatch h]

theorem zbbUnary_inv {r : BitVec 5} (h : (zbbUnary r).isNone = false) :
    ∃ o : UnaryOp, o.code = (0b0110000#7, r, 0b001#3, opOpimm) := by
  unfold zbbUnary at h
  split_ifs at h with h0 h1 h2 h4 h5
  exacts [⟨.clz, h0 ▸ rfl⟩, ⟨.ctz, h1 ▸ rfl⟩, ⟨.cpop, h2 ▸ rfl⟩, ⟨.sextb, h4 ▸ rfl⟩,
    ⟨.sexth, h5 ▸ rfl⟩, nomatch h]

theorem opimmShl_inv {f7 : BitVec 7} {r : BitVec 5} (h : (opimmShl f7 r).isNone = false) :
    (∃ o : ShiftOp, o.code = (f7, 0b001#3)) ∨
    ∃ o : UnaryOp, o.code = (f7, r, 0b001#3, opOpimm) := by
  unfold opimmShl at h
  split_ifs at h with hsll hunary hbset hbclr hbinv
  · exact .inl ⟨.slli, hsll ▸ rfl⟩
  · obtain ⟨o, ho⟩ := zbbUnary_inv h
    exact .inr ⟨o, hunary ▸ ho⟩
  · exact .inl ⟨.bseti, hbset ▸ rfl⟩
  · exact .inl ⟨.bclri, hbclr ▸ rfl⟩
  · exact .inl ⟨.binvi, hbinv ▸ rfl⟩
  · exact nomatch h

theorem opimmShr_inv {f7 : BitVec 7} {r : BitVec 5} (h : (opimmShr f7 r).isNone = false) :
    (∃ o : ShiftOp, o.code = (f7, 0b101#3)) ∨
    ∃ o : UnaryOp, o.code = (f7, r, 0b101#3, opOpimm) := by
  unfold opimmShr at h
  split_ifs at h with hsrl hsra hror hrev hor hbext
  · exact .inl ⟨.srli, hsrl ▸ rfl⟩
  · exact .inl ⟨.srai, hsra ▸ rfl⟩
  · exact .inl ⟨.rori, hror ▸ rfl⟩
  · exact .inr ⟨.rev8, by rw [hrev.1, hrev.2]; rfl⟩
  · exact .inr ⟨.orcb, by rw [hor.1, hor.2]; rfl⟩
  · exact .inl ⟨.bexti, hbext ▸ rfl⟩
  · exact nomatch h

theorem opimmOp_inv {f3 : BitVec 3} {f7 : BitVec 7} {r : BitVec 5}
    (h : (opimmOp f3 f7 r).isNone = false) :
    (∃ o : ImmOp, o.funct3 = f3) ∨ (∃ o : ShiftOp, o.code = (f7, f3)) ∨
    ∃ o : UnaryOp, o.code = (f7, r, f3, opOpimm) := by
  unfold opimmOp at h
  split_ifs at h with h0 h2 h3 h4 h6 h7 h1
  · exact .inl ⟨.addi, h0.symm⟩
  · exact .inl ⟨.slti, h2.symm⟩
  · exact .inl ⟨.sltiu, h3.symm⟩
  · exact .inl ⟨.xori, h4.symm⟩
  · exact .inl ⟨.ori, h6.symm⟩
  · exact .inl ⟨.andi, h7.symm⟩
  · exact .inr (h1 ▸ opimmShl_inv h)
  · have h5 : f3 = 0b101#3 := by grind
    exact .inr (h5 ▸ opimmShr_inv h)

theorem mdOp_inv (f3 : BitVec 3) : mulFunct3 (mdOp f3) = f3 := by
  revert f3
  decide

theorem opOp_inv {f3 : BitVec 3} {f7 : BitVec 7} {r : BitVec 5}
    (h : (Decode.opOp f3 f7 r).isNone = false) :
    (∃ o : RegOp, o.code = (f7, f3)) ∨ ∃ o : UnaryOp, o.code = (f7, r, f3, ThreeSippEs.opOp) := by
  unfold Decode.opOp at h
  by_cases hbase : f7 = 0b0000000#7
  · rw [if_pos hbase] at h
    subst hbase
    split_ifs at h with h0 h1 h2 h3 h4 h5 h6
    · exact .inl ⟨.add, h0 ▸ rfl⟩
    · exact .inl ⟨.sll, h1 ▸ rfl⟩
    · exact .inl ⟨.slt, h2 ▸ rfl⟩
    · exact .inl ⟨.sltu, h3 ▸ rfl⟩
    · exact .inl ⟨.xor, h4 ▸ rfl⟩
    · exact .inl ⟨.srl, h5 ▸ rfl⟩
    · exact .inl ⟨.or, h6 ▸ rfl⟩
    · have h7 : f3 = 0b111#3 := by grind
      exact .inl ⟨.and, h7 ▸ rfl⟩
  rw [if_neg hbase] at h
  by_cases hneg : f7 = 0b0100000#7
  · rw [if_pos hneg] at h
    subst hneg
    split_ifs at h with h0 h5 h7 h6 h4
    · exact .inl ⟨.sub, h0 ▸ rfl⟩
    · exact .inl ⟨.sra, h5 ▸ rfl⟩
    · exact .inl ⟨.andn, h7 ▸ rfl⟩
    · exact .inl ⟨.orn, h6 ▸ rfl⟩
    · exact .inl ⟨.xnor, h4 ▸ rfl⟩
    · exact nomatch h
  rw [if_neg hneg] at h
  by_cases hmm : f7 = 0b0000101#7
  · rw [if_pos hmm] at h
    subst hmm
    split_ifs at h with h1 h2 h3 h4 h5 h6 h7
    · exact .inl ⟨.clmul, h1 ▸ rfl⟩
    · exact .inl ⟨.clmulr, h2 ▸ rfl⟩
    · exact .inl ⟨.clmulh, h3 ▸ rfl⟩
    · exact .inl ⟨.min, h4 ▸ rfl⟩
    · exact .inl ⟨.minu, h5 ▸ rfl⟩
    · exact .inl ⟨.max, h6 ▸ rfl⟩
    · exact .inl ⟨.maxu, h7 ▸ rfl⟩
    · exact nomatch h
  rw [if_neg hmm] at h
  by_cases hzic : f7 = 0b0000111#7
  · rw [if_pos hzic] at h
    subst hzic
    split_ifs at h with h5 h7
    · exact .inl ⟨.czeroEqz, h5 ▸ rfl⟩
    · exact .inl ⟨.czeroNez, h7 ▸ rfl⟩
    · exact nomatch h
  rw [if_neg hzic] at h
  by_cases hrot : f7 = 0b0110000#7
  · rw [if_pos hrot] at h
    subst hrot
    split_ifs at h with h1 h5
    · exact .inl ⟨.rol, h1 ▸ rfl⟩
    · exact .inl ⟨.ror, h5 ▸ rfl⟩
    · exact nomatch h
  rw [if_neg hrot] at h
  by_cases hzext : f7 = 0b0000100#7
  · rw [if_pos hzext] at h
    subst hzext
    split_ifs at h with hz
    · exact .inr ⟨.zexth, by rw [hz.1, hz.2]; rfl⟩
    · exact nomatch h
  rw [if_neg hzext] at h
  by_cases hsh : f7 = 0b0010000#7
  · rw [if_pos hsh] at h
    subst hsh
    split_ifs at h with h2 h4 h6
    · exact .inl ⟨.sh1add, h2 ▸ rfl⟩
    · exact .inl ⟨.sh2add, h4 ▸ rfl⟩
    · exact .inl ⟨.sh3add, h6 ▸ rfl⟩
    · exact nomatch h
  rw [if_neg hsh] at h
  by_cases hset : f7 = 0b0010100#7
  · rw [if_pos hset] at h
    subst hset
    split_ifs at h with h1
    · exact .inl ⟨.bset, h1 ▸ rfl⟩
    · exact nomatch h
  rw [if_neg hset] at h
  by_cases hclr : f7 = 0b0100100#7
  · rw [if_pos hclr] at h
    subst hclr
    split_ifs at h with h1 h5
    · exact .inl ⟨.bclr, h1 ▸ rfl⟩
    · exact .inl ⟨.bext, h5 ▸ rfl⟩
    · exact nomatch h
  rw [if_neg hclr] at h
  by_cases hinv : f7 = 0b0110100#7
  · rw [if_pos hinv] at h
    subst hinv
    split_ifs at h with h1
    · exact .inl ⟨.binv, h1 ▸ rfl⟩
    · exact nomatch h
  rw [if_neg hinv] at h
  exact nomatch h

/-! ## Words that are accepted -/

/-- The fields that the core does not look at hold what the instruction set has there. -/
structure Clean (w : Word) : Prop where
  /-- SYSTEM with `funct3 = 100` is only refused as a write to a read-only address -/
  csr : opcode w = opSystem → funct3 w = 0b100#3 →
    w.extractLsb 19 15 ≠ 0#5 ∧ (sysImm12 w).extractLsb 11 10 = 0b11#2
  /-- `rs1` and `rd` of ECALL, EBREAK and MRET -/
  env : opcode w = opSystem → funct3 w = 0b000#3 →
    sysImm12 w = 0x000#12 ∨ sysImm12 w = 0x001#12 ∨ sysImm12 w = 0x302#12 →
      w.extractLsb 19 15 = 0#5 ∧ w.extractLsb 11 7 = 0#5
  /-- `funct3` of MISC-MEM -/
  fence : opcode w = opFence → funct3 w = 0b000#3 ∨ funct3 w = 0b001#3

section Words

variable {w : Word} {secure : Bool}

theorem itype_of {f3 : BitVec 3} {op : BitVec 7} (hop : opcode w = op) (hf3 : funct3 w = f3) :
    itype (w.extractLsb 31 20) (w.extractLsb 19 15) f3 (w.extractLsb 11 7) op = w := by
  subst hop hf3
  exact itype_eta w

theorem rtype_of {f7 : BitVec 7} {f3 : BitVec 3} {op : BitVec 7} (hop : opcode w = op)
    (hf3 : funct3 w = f3) (hf7 : funct7 w = f7) :
    rtype f7 (w.extractLsb 24 20) (w.extractLsb 19 15) f3 (w.extractLsb 11 7) op = w := by
  subst hop hf3 hf7
  exact rtype_eta w

theorem utype_of {op : BitVec 7} (hop : opcode w = op) :
    utype (w.extractLsb 31 12) (w.extractLsb 11 7) op = w := by
  subst hop
  exact utype_eta w

theorem jtype_of {op : BitVec 7} (hop : opcode w = op) :
    jtype (w.extractLsb 31 31 ++ w.extractLsb 19 12 ++ w.extractLsb 20 20 ++ w.extractLsb 30 21)
      (w.extractLsb 11 7) op = w := by
  subst hop
  exact jtype_eta w

theorem stype_of {f3 : BitVec 3} {op : BitVec 7} (hop : opcode w = op) (hf3 : funct3 w = f3) :
    stype (w.extractLsb 31 25 ++ w.extractLsb 11 7) (w.extractLsb 24 20) (w.extractLsb 19 15) f3
      op = w := by
  subst hop hf3
  exact stype_eta w

theorem btype_of {f3 : BitVec 3} {op : BitVec 7} (hop : opcode w = op) (hf3 : funct3 w = f3) :
    btype (w.extractLsb 31 31 ++ w.extractLsb 7 7 ++ w.extractLsb 30 25 ++ w.extractLsb 11 8)
      (w.extractLsb 24 20) (w.extractLsb 19 15) f3 op = w := by
  subst hop hf3
  exact btype_eta w

/-- An operation of one register fixes everything but its registers. -/
theorem unary_of {o : UnaryOp} {op : BitVec 7} (hop : opcode w = op)
    (ho : o.code = (funct7 w, rs2f w, funct3 w, op)) :
    (Instr.unary o (w.extractLsb 11 7) (w.extractLsb 19 15)).encode = w := by
  rw [Instr.encode, ho]
  exact rtype_of hop rfl rfl

theorem Defined.of_encode {i : Instr} (hi : i ≠ .uret) (hw : i.encode = w) : Defined secure w :=
  ⟨i, fun h => absurd h hi, hw⟩

theorem defined_branch (hop : opcode w = opBranch) (h : (branch w).illegal = false) :
    Defined secure w := by
  obtain ⟨o, ho⟩ := branchOp_inv h
  exact .of_encode (i := .branch o _ _ _) (by simp) (btype_of hop ho.symm)

theorem defined_load (hop : opcode w = opLoad) (h : (load w).illegal = false) :
    Defined secure w := by
  obtain ⟨o, ho⟩ := loadOp_inv h
  exact .of_encode (i := .load o _ _ _) (by simp) (itype_of hop ho.symm)

theorem defined_store (hop : opcode w = opStore) (h : (store w).illegal = false) :
    Defined secure w := by
  obtain ⟨o, ho⟩ := storeOp_inv h
  exact .of_encode (i := .store o _ _ _) (by simp) (stype_of hop ho.symm)

theorem defined_opimm (hop : opcode w = opOpimm) (h : (opimm w).illegal = false) :
    Defined secure w := by
  obtain ⟨o, ho⟩ | ⟨o, ho⟩ | ⟨o, ho⟩ := opimmOp_inv h
  · exact .of_encode (i := .opImm o _ _ _) (by simp) (itype_of hop ho.symm)
  · exact .of_encode (i := .shift o _ _ _) (by simp)
      (rtype_of hop (congrArg Prod.snd ho).symm (congrArg Prod.fst ho).symm)
  · exact .of_encode (i := .unary o _ _) (by simp) (unary_of hop ho)

theorem defined_op (hop : opcode w = ThreeSippEs.opOp) (h : (Decode.op w).illegal = false) :
    Defined secure w := by
  by_cases hmul : funct7 w = 0b0000001#7
  · exact .of_encode (i := .mul (mdOp (funct3 w)) _ _ _) (by simp)
      (rtype_of hop (mdOp_inv _).symm hmul)
  · unfold Decode.op at h
    rw [if_neg hmul] at h
    obtain ⟨o, ho⟩ | ⟨o, ho⟩ := opOp_inv h
    · exact .of_encode (i := .op o _ _ _) (by simp)
        (rtype_of hop (congrArg Prod.snd ho).symm (congrArg Prod.fst ho).symm)
    · exact .of_encode (i := .unary o _ _) (by simp) (unary_of hop ho)

/-- Every `funct3` but 0 and 4 selects a CSR access. -/
theorem csr_funct3_inv (f3 : BitVec 3) (h0 : f3 ≠ 0b000#3) (h4 : f3 ≠ 0b100#3) :
    ∃ o : CsrOp, 0b0#1 ++ o.fn = f3 ∨ 0b1#1 ++ o.fn = f3 := by
  have hcases : ∀ f3 : BitVec 3, f3 ≠ 0b000#3 → f3 ≠ 0b100#3 →
      f3 = 0b001#3 ∨ f3 = 0b010#3 ∨ f3 = 0b011#3 ∨ f3 = 0b101#3 ∨ f3 = 0b110#3 ∨ f3 = 0b111#3 := by
    decide
  obtain rfl | rfl | rfl | rfl | rfl | rfl := hcases f3 h0 h4
  exacts [⟨.rw, .inl rfl⟩, ⟨.rs, .inl rfl⟩, ⟨.rc, .inl rfl⟩, ⟨.rw, .inr rfl⟩, ⟨.rs, .inr rfl⟩,
    ⟨.rc, .inr rfl⟩]

theorem defined_system (hop : opcode w = opSystem) (h : (system w).illegal = false)
    (hw : Clean w) (hcsr : funct3 w ≠ 0b100#3) : Defined secure w := by
  by_cases hf3 : funct3 w = 0b000#3
  · unfold system at h
    rw [if_pos hf3] at h
    have himm : w.extractLsb 31 20 = 0x000#12 ∨ w.extractLsb 31 20 = 0x001#12 ∨
        w.extractLsb 31 20 = 0x302#12 := by
      simp [sysImm12] at h
      grind
    obtain ⟨hrs1, hrd⟩ := hw.env hop hf3 himm
    have hw := itype_of hop hf3
    rw [hrs1, hrd] at hw
    obtain himm | himm | himm := himm <;> rw [himm] at hw
    · exact .of_encode (i := .ecall) (by simp) hw
    · exact .of_encode (i := .ebreak) (by simp) hw
    · exact .of_encode (i := .mret) (by simp) hw
  · obtain ⟨o, ho | ho⟩ := csr_funct3_inv _ hf3 hcsr
    · exact .of_encode (i := .csr o _ _ _) (by simp) (itype_of hop ho.symm)
    · exact .of_encode (i := .csrImm o _ _ _) (by simp) (itype_of hop ho.symm)

theorem defined_fence (hop : opcode w = opFence) (hw : Clean w) : Defined secure w := by
  obtain hf3 | hf3 := hw.fence hop
  · exact .of_encode (i := .fence _ _ _) (by simp) (itype_of hop hf3)
  · exact .of_encode (i := .fenceI _ _ _) (by simp) (itype_of hop hf3)

/-- What the decoder accepts is an instruction. -/
theorem defined_of_decode (h : (decode w).illegal = false) (hw : Clean w)
    (hcsr : opcode w = opSystem → funct3 w ≠ 0b100#3) : Defined secure w := by
  have harm : ∀ {op}, opcode w = op → (arm op w).illegal = false := fun hop => hop ▸ h
  by_cases hlui : opcode w = opLui
  · exact .of_encode (i := .lui _ _) (by simp) (utype_of hlui)
  by_cases hauipc : opcode w = opAuipc
  · exact .of_encode (i := .auipc _ _) (by simp) (utype_of hauipc)
  by_cases hjal : opcode w = opJal
  · exact .of_encode (i := .jal _ _) (by simp) (jtype_of hjal)
  by_cases hjalr : opcode w = opJalr
  · have hf3 : (funct3 w != 0b000#3) = false := harm hjalr
    exact .of_encode (i := .jalr _ _ _) (by simp) (itype_of hjalr (bne_eq_false_iff_eq.mp hf3))
  by_cases hbranch : opcode w = opBranch
  · exact defined_branch hbranch (harm hbranch)
  by_cases hload : opcode w = opLoad
  · exact defined_load hload (harm hload)
  by_cases hstore : opcode w = opStore
  · exact defined_store hstore (harm hstore)
  by_cases hopimm : opcode w = opOpimm
  · exact defined_opimm hopimm (harm hopimm)
  by_cases hop : opcode w = ThreeSippEs.opOp
  · exact defined_op hop (harm hop)
  by_cases hsystem : opcode w = opSystem
  · exact defined_system hsystem (harm hsystem) hw (hcsr hsystem)
  by_cases hfence : opcode w = opFence
  · exact defined_fence hfence hw
  -- no arm
  simp [decode, *, illegalOpcode] at h

theorem defined_of_amoValid {x : XIn} (h : x.amoValid = true) : Defined secure x.fxInstr := by
  unfold XIn.amoValid at h
  rw [Bool.and_eq_true] at h
  obtain ⟨hamo, hf5⟩ := h
  unfold XIn.isAmo at hamo
  rw [Bool.and_eq_true, beq_iff_eq, beq_iff_eq] at hamo
  obtain ⟨hop, hf3⟩ := hamo
  have hw : ∀ {f5}, x.amoF5 = f5 → rtype (f5 ++ x.fxInstr.extractLsb 26 25) x.rs2 x.rs1 0b010#3
      x.rd opAmo = x.fxInstr := by
    intro f5 hf5
    refine rtype_of hop hf3 ?_
    subst hf5
    refine BitVec.eq_of_getLsbD_eq fun i hi => ?_
    simp only [Decode.funct7, XIn.amoF5, BitVec.getLsbD_extractLsb, BitVec.getLsbD_append]
    grind
  simp only [Bool.or_eq_true, Bool.and_eq_true, beq_iff_eq] at hf5
  obtain (((((((((⟨hf5, hrs2⟩ | hf5) | hf5) | hf5) | hf5) | hf5) | hf5) | hf5) | hf5) | hf5) |
    hf5 := hf5
  · exact .of_encode (i := .lr _ _ _) (by simp) (hrs2 ▸ hw hf5)
  · exact .of_encode (i := .sc _ _ _ _) (by simp) (hw hf5)
  · exact .of_encode (i := .amo .swap _ _ _ _) (by simp) (hw hf5)
  · exact .of_encode (i := .amo .add _ _ _ _) (by simp) (hw hf5)
  · exact .of_encode (i := .amo .xor _ _ _ _) (by simp) (hw hf5)
  · exact .of_encode (i := .amo .and _ _ _ _) (by simp) (hw hf5)
  · exact .of_encode (i := .amo .or _ _ _ _) (by simp) (hw hf5)
  · exact .of_encode (i := .amo .min _ _ _ _) (by simp) (hw hf5)
  · exact .of_encode (i := .amo .max _ _ _ _) (by simp) (hw hf5)
  · exact .of_encode (i := .amo .minu _ _ _ _) (by simp) (hw hf5)
  · exact .of_encode (i := .amo .maxu _ _ _ _) (by simp) (hw hf5)

end Words

/-- An instruction in the opcode of the system instructions. -/
theorem encode_system {i : Instr} (h : opcode i.encode = opSystem) :
    (∃ o rd rs1 addr, i = .csr o rd rs1 addr) ∨ (∃ o rd uimm addr, i = .csrImm o rd uimm addr) ∨
    i = .ecall ∨ i = .ebreak ∨ i = .mret ∨ i = .uret := by
  cases i with
  | csr o rd rs1 addr => exact .inl ⟨o, rd, rs1, addr, rfl⟩
  | csrImm o rd uimm addr => exact .inr (.inl ⟨o, rd, uimm, addr, rfl⟩)
  | ecall => simp
  | ebreak => simp
  | mret => simp
  | uret => simp
  | unary o => cases o <;> simp [opcode, Instr.encode, UnaryOp.code, opSystem] at h
  | _ => simp [opcode, Instr.encode, opSystem] at h

theorem encode_fence {i : Instr} (h : opcode i.encode = opFence) :
    (∃ rd rs1 imm, i = .fence rd rs1 imm) ∨ ∃ rd rs1 imm, i = .fenceI rd rs1 imm := by
  cases i with
  | fence rd rs1 imm => exact .inl ⟨rd, rs1, imm, rfl⟩
  | fenceI rd rs1 imm => exact .inr ⟨rd, rs1, imm, rfl⟩
  | unary o => cases o <;> simp [opcode, Instr.encode, UnaryOp.code, opFence] at h
  | _ => simp [opcode, Instr.encode, opFence] at h

theorem csr_opcode {i : Instr} {c : CsrAccess} (h : i.control.csr = some c) :
    opcode i.encode = opSystem := by
  cases i with
  | csr => exact itype_opcode ..
  | csrImm => exact itype_opcode ..
  | _ => exact nomatch h

/-- No instruction has anything else in those fields. -/
theorem Defined.clean {secure : Bool} {w : Word} (h : Defined secure w) : Clean w := by
  obtain ⟨i, -, rfl⟩ := h
  refine ⟨fun hop hf3 => ?_, fun hop hf3 himm => ?_, fun hop => ?_⟩
  · exfalso
    obtain ⟨o, rd, rs1, addr, rfl⟩ | ⟨o, rd, rs1, addr, rfl⟩ | rfl | rfl | rfl | rfl :=
      encode_system hop
    · cases o <;> simp [funct3, Instr.encode, CsrOp.fn] at hf3
    · cases o <;> simp [funct3, Instr.encode, CsrOp.fn] at hf3
    all_goals exact absurd hf3 (by decide)
  · obtain ⟨o, rd, rs1, addr, rfl⟩ | ⟨o, rd, rs1, addr, rfl⟩ | rfl | rfl | rfl | rfl :=
      encode_system hop
    · exact absurd ((itype_funct3 ..).symm.trans hf3) (o.fn_ne _)
    · exact absurd ((itype_funct3 ..).symm.trans hf3) (o.fn_ne _)
    · exact ⟨itype_rs1 .., itype_rd ..⟩
    · exact ⟨itype_rs1 .., itype_rd ..⟩
    · exact ⟨itype_rs1 .., itype_rd ..⟩
    · exact ⟨itype_rs1 .., itype_rd ..⟩
  · obtain ⟨rd, rs1, imm, rfl⟩ | ⟨rd, rs1, imm, rfl⟩ := encode_fence hop
    · exact .inl (itype_funct3 ..)
    · exact .inr (itype_funct3 ..)

end Isa

end ThreeSippEs
