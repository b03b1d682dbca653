import ThreeSippEs.Golden.Memory

/-!
# The golden model against the core

`CPU.step` and one instruction of the core, from the same registers, pc and memories.

- `Agrees`: the same retirement, the same next pc, the same DRAM;
- `executes`: what the script does with a legal instruction, in terms of the decoded
  bundle;
- `agrees_iff`: it agrees with the core, except where its loads and stores round the
  address and that shows, and where it fetches another word than the one at `pc`.
-/

namespace ThreeSippEs.Golden

open BaseIsa Decode DataIsolation LittleEndian Misaligned

/-- The state of the script is what the programmer sees of the core. -/
structure Coupled (c : Cpu) (a : Arch) : Prop where
  pc : c.pc = a.pc
  regs : ∀ r, Regfile.get a.regs r = c.x r
  imem : a.mem.imem = c.mem.imageByte
  dmem : a.mem.dmem = c.mem.byte

/-- No interrupt comes; the M unit answers. -/
def env (a : Arch) : Env := { md := a.mdValue }

/-- **Agreement on one instruction.** The lines of the two traces are the same, and so are
the next pc and every byte of the DRAM. -/
structure Agrees (P : Params) (imemWritable : Word → Bool) (c : Cpu) (a : Arch) : Prop where
  retire : c.retire =
    ⟨(a.xw P (env a)).pc, (a.xw P (env a)).instr, (a.xw P (env a)).writes a.resv a.mem⟩
  pc : c.step.pc = (a.step P imemWritable (env a)).pc
  dram : ∀ b : Word, Mem.inDram b.toNat = true →
    c.step.mem.byte b = (a.step P imemWritable (env a)).mem.dmem b

/-! ## One instruction of the script -/

section Script

variable {P : Params} {c : Cpu} {a : Arch}

/-- What it does, by the decoded bundle. -/
structure Executes (P : Params) (c : Cpu) (x : XIn) (d : Decoded) (o : Out) : Prop where
  trap : o.trap = none
  npc : o.npc = if d.isJalr then x.jalrT else x.brActualNext
  wb : o.wb =
    if d.regWe then some
      (if d.memRe then
        loadBytes c.mem.byte (alignTo x.aluY (accessSize d.memWidth)) (accessSize d.memWidth)
          d.memUnsigned
      else x.xResult P)
    else none
  mem : o.mem =
    if d.memWe then c.mem.storeAt x.aluY x.op2 (accessSize d.memWidth) else c.mem

/-- The operands. -/
theorem a_eq (hc : Coupled c a) (e : Env) : c.a (fields a.instr.toNat) = (a.xIn e).op1.toNat := by
  unfold Cpu.a
  rw [fields_rs1, BitVec.ofNat_toNat, BitVec.setWidth_eq, ← hc.regs]
  rfl

theorem b_eq (hc : Coupled c a) (e : Env) : c.b (fields a.instr.toNat) = (a.xIn e).op2.toNat := by
  unfold Cpu.b
  rw [fields_rs2, BitVec.ofNat_toNat, BitVec.setWidth_eq, ← hc.regs]
  rfl

theorem pc_add (hc : Coupled c a) (v : Word) : u32 (c.pc.toNat + v.toInt) = a.pc + v := by
  rw [u32_add, u32_toNat, u32_toInt, hc.pc]

theorem pc_four (hc : Coupled c a) (hcomp : a.mem.imem.compAt a.pc = false) (e : Env) :
    u32 (c.pc.toNat + 4) = (a.xIn e).seqNx := by
  have hlen : (a.xIn e).fxLen = 4#3 := by
    show (if a.mem.imem.compAt a.pc then 2#3 else 4#3) = 4#3
    rw [hcomp]
    rfl
  unfold XIn.seqNx
  rw [hlen, u32_add, u32_toNat, hc.pc]
  rfl

/-- The opcode selects the arm. -/
theorem exec_at {op : BitVec 7} (hop : opcode a.instr = op) :
    (fields a.instr.toNat).op = op.toNat :=
  (fields_op a.instr).trans (congrArg BitVec.toNat hop)

/-- An instruction that goes straight on. -/
theorem npc_straight (hc : Coupled c a) (hcomp : a.mem.imem.compAt a.pc = false) {e : Env}
    {d : Decoded} (hd : (a.xIn e).dec = d) (hjal : d.isJal = false) (hjalr : d.isJalr = false)
    (hbr : d.isBranch = false) :
    u32 (c.pc.toNat + 4) = if d.isJalr then (a.xIn e).jalrT else (a.xIn e).brActualNext := by
  unfold XIn.brActualNext XIn.brActualTaken
  rw [hd, hjal, hjalr, hbr]
  exact pc_four hc hcomp e

/-- The shift amount of OP-IMM is the low end of its immediate. -/
theorem shift_imm (ins x : Word) {f3 : BitVec 3} (f7 : BitVec 7)
    (h : f3 = 0b001#3 ∨ f3 = 0b101#3) :
    Alu.y (aluOp true f3 f7) x ((rs2f ins).setWidth 32) =
      Alu.y (aluOp true f3 f7) x (Immgen.immI ins) := by
  have hlow : ∀ v : Word, v.extractLsb 4 0 = rs2f ins → Alu.shamt v = (rs2f ins).toNat :=
    fun v hv => congrArg BitVec.toNat hv
  have himm : Alu.shamt (Immgen.immI ins) = (rs2f ins).toNat := by
    refine hlow _ (BitVec.eq_of_getLsbD_eq fun i hi => ?_)
    have h5 : i < 5 := hi
    have h12 : i < 12 := by omega
    have h32 : i < 32 := by omega
    unfold Immgen.immI rs2f
    simp [BitVec.getElem_signExtend, h5, h12, h32]
  have hshamt : Alu.shamt ((rs2f ins).setWidth 32) = (rs2f ins).toNat := by
    refine hlow _ (BitVec.eq_of_getLsbD_eq fun i hi => ?_)
    have h5 : i < 5 := hi
    unfold rs2f
    simp [h5]
  rcases h with rfl | rfl
  · show x <<< Alu.shamt _ = x <<< Alu.shamt _
    rw [hshamt, himm]
  · by_cases hs : f7 = 0b0100000#7
    · subst hs
      show x.sshiftRight (Alu.shamt _) = x.sshiftRight (Alu.shamt _)
      rw [hshamt, himm]
    · have hop : aluOp true 0b101#3 f7 = .srl := if_neg hs
      rw [hop]
      show x >>> Alu.shamt _ = x >>> Alu.shamt _
      rw [hshamt, himm]

/-- LUI and AUIPC. -/
theorem exec_lui (hc : Coupled c a) (hcomp : a.mem.imem.compAt a.pc = false)
    (op : opcode a.instr = opLui) :
    Executes P c (a.xIn (env a)) (decode a.instr) (c.exec a.instr.toNat) := by
  have hdec : (a.xIn (env a)).dec = decode a.instr := rfl
  unfold Cpu.exec
  dsimp only
  rw [decode_at op] at hdec ⊢
  rw [exec_at op]
  refine ⟨rfl, npc_straight hc hcomp hdec rfl rfl rfl, ?_, rfl⟩
  have hresult : (a.xIn (env a)).xResult P = Immgen.immU a.instr := by
    unfold XIn.xResult XIn.aluY XIn.aluB
    rw [hdec]
    rfl
  show some (u32 (fields a.instr.toNat).immU) = some ((a.xIn (env a)).xResult P)
  rw [hresult, fields_immU, u32_toNat]

theorem exec_auipc (hc : Coupled c a) (hcomp : a.mem.imem.compAt a.pc = false)
    (op : opcode a.instr = opAuipc) :
    Executes P c (a.xIn (env a)) (decode a.instr) (c.exec a.instr.toNat) := by
  have hdec : (a.xIn (env a)).dec = decode a.instr := rfl
  unfold Cpu.exec
  dsimp only
  rw [decode_at op] at hdec ⊢
  rw [exec_at op]
  refine ⟨rfl, npc_straight hc hcomp hdec rfl rfl rfl, ?_, rfl⟩
  have hresult : (a.xIn (env a)).xResult P = a.pc + Immgen.immU a.instr := by
    unfold XIn.xResult XIn.aluY XIn.aluA XIn.aluB
    rw [hdec]
    rfl
  show some (u32 (u32 (c.pc.toNat + (fields a.instr.toNat).immU)).toNat) =
    some ((a.xIn (env a)).xResult P)
  rw [hresult, u32_toNat, fields_immU, u32_add, u32_toNat, u32_toNat, hc.pc]

/-- The jumps. -/
theorem exec_jal (hc : Coupled c a) (hcomp : a.mem.imem.compAt a.pc = false)
    (op : opcode a.instr = opJal) :
    Executes P c (a.xIn (env a)) (decode a.instr) (c.exec a.instr.toNat) := by
  have hfour := pc_four hc hcomp (env a)
  have hdec : (a.xIn (env a)).dec = decode a.instr := rfl
  unfold Cpu.exec
  dsimp only
  rw [decode_at op] at hdec ⊢
  rw [exec_at op]
  have hresult : (a.xIn (env a)).xResult P = (a.xIn (env a)).seqNx := by
    unfold XIn.xResult
    rw [hdec]
    rfl
  have htarget : (a.xIn (env a)).brActualNext = a.pc + Immgen.immJ a.instr := by
    unfold XIn.brActualNext XIn.brActualTaken XIn.btgt
    rw [hdec]
    rfl
  refine ⟨rfl, ?_, ?_, rfl⟩
  · show u32 (c.pc.toNat + (fields a.instr.toNat).immJ) = (a.xIn (env a)).brActualNext
    rw [htarget, fields_immJ, pc_add hc]
  · show some (u32 (c.pc.toNat + 4)) = some ((a.xIn (env a)).xResult P)
    rw [hresult, hfour]

theorem exec_jalr (hc : Coupled c a) (hcomp : a.mem.imem.compAt a.pc = false)
    (op : opcode a.instr = opJalr) :
    Executes P c (a.xIn (env a)) (decode a.instr) (c.exec a.instr.toNat) := by
  have hfour := pc_four hc hcomp (env a)
  have ha := a_eq hc (env a)
  have hdec : (a.xIn (env a)).dec = decode a.instr := rfl
  unfold Cpu.exec
  dsimp only
  rw [decode_at op] at hdec ⊢
  rw [exec_at op]
  have hresult : (a.xIn (env a)).xResult P = (a.xIn (env a)).seqNx := by
    unfold XIn.xResult
    rw [hdec]
    rfl
  have htarget : (a.xIn (env a)).jalrT =
      ((a.xIn (env a)).op1 + Immgen.immI a.instr) &&& ~~~1#32 := by
    unfold XIn.jalrT
    rw [hdec]
    rfl
  refine ⟨rfl, ?_, ?_, rfl⟩
  · have hmask : u32 (-2) = ~~~1#32 := rfl
    have hland : ∀ v, u32 (Int.land v (-2)) = u32 v &&& u32 (-2) := fun v =>
      IntWords.ofInt_land 32 v (-2)
    show u32 (Int.land (c.a (fields a.instr.toNat) + (fields a.instr.toNat).immI) (-2)) =
      (a.xIn (env a)).jalrT
    rw [htarget, hland, hmask, u32_add, ha, u32_toNat, fields_immI, u32_toInt]
  · show some (u32 (c.pc.toNat + 4)) = some ((a.xIn (env a)).xResult P)
    rw [hresult, hfour]

/-- The branches. -/
theorem exec_branch (hc : Coupled c a) (hcomp : a.mem.imem.compAt a.pc = false)
    (op : opcode a.instr = opBranch) :
    Executes P c (a.xIn (env a)) (decode a.instr) (c.exec a.instr.toNat) := by
  have hfour := pc_four hc hcomp (env a)
  have ha := a_eq hc (env a)
  have hb := b_eq hc (env a)
  have hf3 := fields_f3 a.instr
  have hdec : (a.xIn (env a)).dec = decode a.instr := rfl
  unfold Cpu.exec
  dsimp only
  rw [decode_at op] at hdec ⊢
  rw [exec_at op]
  have htaken : c.taken (fields a.instr.toNat) = (a.xIn (env a)).brTaken := by
    rw [taken_eq hf3 ha hb]
    unfold XIn.brTaken
    rw [hdec]
    rfl
  have hnpc : (a.xIn (env a)).brActualNext =
      if c.taken (fields a.instr.toNat) then a.pc + Immgen.immB a.instr
      else (a.xIn (env a)).seqNx := by
    unfold XIn.brActualNext XIn.brActualTaken XIn.btgt
    rw [htaken, hdec]
    rfl
  have hbranch : c.branch (fields a.instr.toNat) =
      { c.out with
        npc := if c.taken (fields a.instr.toNat) then
          u32 (c.pc.toNat + (fields a.instr.toNat).immB) else u32 (c.pc.toNat + 4) } := by
    unfold Cpu.branch
    split
    · rfl
    · rfl
  show Executes P c _ (branch a.instr) (c.branch (fields a.instr.toNat))
  rw [hbranch]
  refine ⟨rfl, ?_, rfl, rfl⟩
  show (if c.taken (fields a.instr.toNat) then u32 (c.pc.toNat + (fields a.instr.toNat).immB)
    else u32 (c.pc.toNat + 4)) = (a.xIn (env a)).brActualNext
  rw [hnpc, fields_immB, pc_add hc, hfour]

/-- Loads and stores. -/
theorem exec_load (hc : Coupled c a) (hcomp : a.mem.imem.compAt a.pc = false)
    (op : opcode a.instr = opLoad)
    (f3 : (loadOp (funct3 a.instr)).isNone = false) :
    Executes P c (a.xIn (env a)) (decode a.instr) (c.exec a.instr.toNat) := by
  have ha := a_eq hc (env a)
  have hf3 := fields_f3 a.instr
  have hdec : (a.xIn (env a)).dec = decode a.instr := rfl
  unfold Cpu.exec
  dsimp only
  rw [decode_at op] at hdec ⊢
  rw [exec_at op]
  obtain ⟨⟨width, zeroExtend⟩, hop⟩ : ∃ r, loadOp (funct3 a.instr) = some r :=
    Option.ne_none_iff_exists'.mp fun h => by rw [h] at f3; exact Bool.false_ne_true f3.symm
  have haddr : (a.xIn (env a)).aluY = (a.xIn (env a)).op1 + Immgen.immI a.instr := by
    unfold XIn.aluY XIn.aluA XIn.aluB
    rw [hdec]
    rfl
  have hea : u32 (c.a (fields a.instr.toNat) + (fields a.instr.toNat).immI) =
      (a.xIn (env a)).aluY := by
    rw [haddr, u32_add, ha, u32_toNat, fields_immI, u32_toInt]
  have hwidth : (load a.instr).memWidth = width ∧ (load a.instr).memUnsigned = zeroExtend := by
    unfold load
    rw [hop]
    exact ⟨rfl, rfl⟩
  show Executes P c _ (load a.instr) (c.load (fields a.instr.toNat))
  rw [load_eq hf3 hea hop]
  refine ⟨rfl, npc_straight hc hcomp hdec rfl rfl rfl, ?_, rfl⟩
  rw [hwidth.1, hwidth.2]
  rfl

theorem exec_store (hc : Coupled c a) (hcomp : a.mem.imem.compAt a.pc = false)
    (op : opcode a.instr = opStore)
    (f3 : (storeOp (funct3 a.instr)).isNone = false) :
    Executes P c (a.xIn (env a)) (decode a.instr) (c.exec a.instr.toNat) := by
  have ha := a_eq hc (env a)
  have hb := b_eq hc (env a)
  have hf3 := fields_f3 a.instr
  have hdec : (a.xIn (env a)).dec = decode a.instr := rfl
  unfold Cpu.exec
  dsimp only
  rw [decode_at op] at hdec ⊢
  rw [exec_at op]
  obtain ⟨width, hop⟩ : ∃ r, storeOp (funct3 a.instr) = some r :=
    Option.ne_none_iff_exists'.mp fun h => by rw [h] at f3; exact Bool.false_ne_true f3.symm
  have haddr : (a.xIn (env a)).aluY = (a.xIn (env a)).op1 + Immgen.immS a.instr := by
    unfold XIn.aluY XIn.aluA XIn.aluB
    rw [hdec]
    rfl
  have hea : u32 (c.a (fields a.instr.toNat) + (fields a.instr.toNat).immS) =
      (a.xIn (env a)).aluY := by
    rw [haddr, u32_add, ha, u32_toNat, fields_immS, u32_toInt]
  have hwidth : (store a.instr).memWidth = width := by
    unfold store
    rw [hop]
    rfl
  show Executes P c _ (store a.instr) (c.store (fields a.instr.toNat))
  rw [store_eq hf3 hea hb hop]
  refine ⟨rfl, npc_straight hc hcomp hdec rfl rfl rfl, rfl, ?_⟩
  rw [hwidth]
  rfl

/-- OP-IMM and OP. -/
theorem exec_opimm (hc : Coupled c a) (hcomp : a.mem.imem.compAt a.pc = false)
    (op : opcode a.instr = opOpimm)
    (f7 : funct3 a.instr = 0b001#3 ∨ funct3 a.instr = 0b101#3 →
      funct7 a.instr = 0b0000000#7 ∨ (funct3 a.instr = 0b101#3 ∧ funct7 a.instr = 0b0100000#7)) :
    Executes P c (a.xIn (env a)) (decode a.instr) (c.exec a.instr.toNat) := by
  have ha := a_eq hc (env a)
  have hf3 := fields_f3 a.instr
  have hf7 := fields_f7 a.instr
  have hdec : (a.xIn (env a)).dec = decode a.instr := rfl
  unfold Cpu.exec
  dsimp only
  rw [decode_at op] at hdec ⊢
  rw [exec_at op]
  have hresult : (a.xIn (env a)).xResult P =
      Alu.y (aluOp true (funct3 a.instr) (funct7 a.instr)) (a.xIn (env a)).op1
        (Immgen.immI a.instr) := by
    have hraw : (a.xIn (env a)).xResult P =
        Alu.y ((opimmOp (funct3 a.instr) (funct7 a.instr) (rs2f a.instr)).getD .add)
          (a.xIn (env a)).op1
          (if funct3 a.instr = 0b001#3 ∨ funct3 a.instr = 0b101#3 then
            (rs2f a.instr).setWidth 32 else Immgen.immI a.instr) := by
      unfold XIn.xResult XIn.aluY XIn.aluA XIn.aluB
      rw [hdec]
      rfl
    rw [hraw, opimmOp_of_kind _ f7]
    by_cases hshift : funct3 a.instr = 0b001#3 ∨ funct3 a.instr = 0b101#3
    · rw [if_pos hshift]
      exact shift_imm _ _ _ hshift
    · rw [if_neg hshift]
      rfl
  have hmode : c.opOrImm (fields a.instr.toNat) =
      { c.out with wb := some (u32 (c.alu (fields a.instr.toNat) true)) } := by
    unfold Cpu.opOrImm
    rw [exec_at op]
    rfl
  show Executes P c _ (opimm a.instr) (c.opOrImm (fields a.instr.toNat))
  rw [hmode]
  refine ⟨rfl, npc_straight hc hcomp hdec rfl rfl rfl, ?_, rfl⟩
  show some (u32 (c.alu (fields a.instr.toNat) true)) = some ((a.xIn (env a)).xResult P)
  have hsrc : u32 (if true then (fields a.instr.toNat).immI else c.b (fields a.instr.toNat)) =
      Immgen.immI a.instr := by
    rw [if_pos rfl, fields_immI, u32_toInt]
  rw [hresult, alu_eq true hf3 hf7 ha hsrc]

theorem exec_mext (hc : Coupled c a) (hcomp : a.mem.imem.compAt a.pc = false)
    (op : opcode a.instr = ThreeSippEs.opOp)
    (f7 : funct7 a.instr = 0b0000001#7) :
    Executes P c (a.xIn (env a)) (decode a.instr) (c.exec a.instr.toNat) := by
  have ha := a_eq hc (env a)
  have hb := b_eq hc (env a)
  have hf3 := fields_f3 a.instr
  have hf7 := fields_f7 a.instr
  have hdec : (a.xIn (env a)).dec = decode a.instr := rfl
  unfold Cpu.exec
  dsimp only
  have hd : decode a.instr = Decode.op a.instr := decode_at op
  unfold Decode.op at hd
  rw [if_pos f7] at hd
  rw [hd] at hdec ⊢
  rw [exec_at op]
  have hresult : (a.xIn (env a)).xResult P = Mext.value (mdOp (funct3 a.instr))
      (a.xIn (env a)).op1 (a.xIn (env a)).op2 := by
    have hmd : (a.xIn (env a)).xResult P = a.mdValue := by
      unfold XIn.xResult
      rw [hdec]
      rfl
    rw [hmd]
    unfold Arch.mdValue
    rw [hd]
    rfl
  have hmode : c.opOrImm (fields a.instr.toNat) =
      { c.out with wb := some (u32 (c.mext (fields a.instr.toNat))) } := by
    unfold Cpu.opOrImm
    rw [exec_at op, hf7, f7]
    rfl
  show Executes P c _ _ (c.opOrImm (fields a.instr.toNat))
  rw [hmode]
  refine ⟨rfl, npc_straight hc hcomp hdec rfl rfl rfl, ?_, rfl⟩
  show some (u32 (c.mext (fields a.instr.toNat))) = some ((a.xIn (env a)).xResult P)
  rw [hresult, mext_eq hf3 ha hb]

theorem exec_op (hc : Coupled c a) (hcomp : a.mem.imem.compAt a.pc = false)
    (op : opcode a.instr = ThreeSippEs.opOp)
    (f7 : funct7 a.instr = 0b0000000#7 ∨
      (funct7 a.instr = 0b0100000#7 ∧ (funct3 a.instr = 0b000#3 ∨ funct3 a.instr = 0b101#3))) :
    Executes P c (a.xIn (env a)) (decode a.instr) (c.exec a.instr.toNat) := by
  have ha := a_eq hc (env a)
  have hb := b_eq hc (env a)
  have hf3 := fields_f3 a.instr
  have hf7 := fields_f7 a.instr
  have hdec : (a.xIn (env a)).dec = decode a.instr := rfl
  unfold Cpu.exec
  dsimp only
  have hd : decode a.instr = Decode.op a.instr := decode_at op
  have hne : funct7 a.instr ≠ 0b0000001#7 := by
    rcases f7 with h | ⟨h, -⟩
    · rw [h]
      decide
    · rw [h]
      decide
  unfold Decode.op at hd
  rw [if_neg hne] at hd
  rw [hd] at hdec ⊢
  rw [exec_at op]
  have hresult : (a.xIn (env a)).xResult P =
      Alu.y (aluOp false (funct3 a.instr) (funct7 a.instr)) (a.xIn (env a)).op1
        (a.xIn (env a)).op2 := by
    have hraw : (a.xIn (env a)).xResult P =
        Alu.y ((Decode.opOp (funct3 a.instr) (funct7 a.instr) (rs2f a.instr)).getD .add)
          (a.xIn (env a)).op1 (a.xIn (env a)).op2 := by
      unfold XIn.xResult XIn.aluY XIn.aluA XIn.aluB
      rw [hdec]
      rfl
    rw [hraw, opOp_of_kind _ f7]
    rfl
  have hmode : c.opOrImm (fields a.instr.toNat) =
      { c.out with wb := some (u32 (c.alu (fields a.instr.toNat) false)) } := by
    have hf1 : ((funct7 a.instr).toNat == 1) = false := by
      rw [beq_eq_false_iff_ne]
      exact fun h => hne (BitVec.eq_of_toNat_eq h)
    unfold Cpu.opOrImm
    rw [exec_at op, hf7, hf1]
    rfl
  show Executes P c _ _ (c.opOrImm (fields a.instr.toNat))
  rw [hmode]
  refine ⟨rfl, npc_straight hc hcomp hdec rfl rfl rfl, ?_, rfl⟩
  show some (u32 (c.alu (fields a.instr.toNat) false)) = some ((a.xIn (env a)).xResult P)
  have hsrc : u32 (if false then (fields a.instr.toNat).immI else c.b (fields a.instr.toNat)) =
      (a.xIn (env a)).op2 := by
    rw [if_neg Bool.false_ne_true, hb, u32_toNat]
  rw [hresult, alu_eq false hf3 hf7 ha hsrc]

/-- FENCE and FENCE.I do nothing. -/
theorem exec_fence (hc : Coupled c a) (hcomp : a.mem.imem.compAt a.pc = false)
    (op : opcode a.instr = opFence) :
    Executes P c (a.xIn (env a)) (decode a.instr) (c.exec a.instr.toNat) := by
  have hdec : (a.xIn (env a)).dec = decode a.instr := rfl
  unfold Cpu.exec
  dsimp only
  rw [decode_at op] at hdec ⊢
  rw [exec_at op]
  exact ⟨rfl, npc_straight hc hcomp hdec rfl rfl rfl, rfl, rfl⟩

/-- **The script, by the decoded bundle.** -/
theorem executes (hc : Coupled c a) (hins : c.ins = a.instr)
    (hcomp : a.mem.imem.compAt a.pc = false) (hk : Kind a.instr) :
    Executes P c (a.xIn (env a)) (decode a.instr) c.next := by
  have hnext : c.next = c.exec a.instr.toNat := congrArg (fun w : Word => c.exec w.toNat) hins
  rw [hnext]
  cases hk with
  | lui op => exact exec_lui hc hcomp op
  | auipc op => exact exec_auipc hc hcomp op
  | jal op => exact exec_jal hc hcomp op
  | jalr op _ => exact exec_jalr hc hcomp op
  | branch op _ => exact exec_branch hc hcomp op
  | load op f3 => exact exec_load hc hcomp op f3
  | store op f3 => exact exec_store hc hcomp op f3
  | opimm op f7 => exact exec_opimm hc hcomp op f7
  | mext op f7 => exact exec_mext hc hcomp op f7
  | op op f7 => exact exec_op hc hcomp op f7
  | fence op => exact exec_fence hc hcomp op

end Script

/-! ## Agreement -/

section Compare

variable {P : Params} {imemWritable : Word → Bool} {c : Cpu} {a : Arch}

/-- The address of a load or store, and its size. -/
def address (a : Arch) : Word :=
  Regfile.get a.regs (a.instr.extractLsb 19 15) + (decode a.instr).idImm

def size (a : Arch) : Nat := accessSize (decode a.instr).memWidth

/-- Rounding down makes no difference: to the fetch, to the bytes of a load unless it
writes x0, to those of a store. -/
structure Sees (c : Cpu) (a : Arch) : Prop where
  fetch : c.mem.ifetch c.pc.toNat = a.instr
  load : (decode a.instr).memRe = true → a.instr.extractLsb 11 7 ≠ 0#5 →
    ∀ k < size a, c.mem.byte (alignTo (address a) (size a) + BitVec.ofNat 32 k) =
      c.mem.byte (address a + BitVec.ofNat 32 k)
  store : (decode a.instr).memWe = true →
    Stores c.mem (address a) (Regfile.get a.regs (a.instr.extractLsb 24 20)) (size a)

theorem size_cases (a : Arch) : size a = 1 ∨ size a = 2 ∨ size a = 4 := by
  unfold size accessSize
  split_ifs
  · exact .inl rfl
  · exact .inr (.inl rfl)
  · exact .inr (.inr rfl)

/-- The ALU computes the address. -/
theorem aluY_address (hmem : (decode a.instr).memRe = true ∨ (decode a.instr).memWe = true) :
    (a.xIn (env a)).aluY = address a := by
  obtain ⟨hadd, hpc, himm⟩ := decode_address a.instr hmem
  have hdec : (a.xIn (env a)).dec = decode a.instr := rfl
  unfold XIn.aluY XIn.aluA XIn.aluB
  rw [hdec, hadd, hpc, himm]
  rfl

/-- The register that the script writes. -/
theorem written_eq {o : Out} {we : Bool} {v : Word} (r : BitVec 5) (htrap : o.trap = none)
    (hwb : o.wb = if we then some v else none) :
    Cpu.written r.toNat o = if we = true ∧ r ≠ 0#5 then some (r, v) else none := by
  have hzero : r.toNat = 0 ↔ r = 0#5 := BitVec.toNat_inj (y := 0#5)
  unfold Cpu.written
  rw [htrap, hwb, BitVec.ofNat_toNat, BitVec.setWidth_eq,
    if_congr (and_iff_left rfl) rfl rfl, if_congr (not_congr hzero) rfl rfl]
  cases we with
  | true =>
    rw [if_congr (and_iff_right rfl) rfl rfl]
    rfl
  | false =>
    rw [if_neg fun h : false = true ∧ r ≠ 0#5 => Bool.false_ne_true h.1]
    exact ite_self none

/-- The retirements. -/
theorem writes_iff (hc : Coupled c a) (hb : Bare P a.csr a.trig) (hi : Base a.instr)
    (hx : Executes P c (a.xIn (env a)) (decode a.instr) c.next) :
    Cpu.written (a.instr.extractLsb 11 7).toNat c.next =
        (a.xw P (env a)).writes a.resv a.mem ↔
      ((decode a.instr).memRe = true → a.instr.extractLsb 11 7 ≠ 0#5 →
        ∀ k < size a, c.mem.byte (alignTo (address a) (size a) + BitVec.ofNat 32 k) =
          c.mem.byte (address a + BitVec.ofNat 32 k)) := by
  have hle : size a ≤ 4 := by
    have hsize := size_cases a
    omega
  have hrd : (a.xIn (env a)).rd = a.instr.extractLsb 11 7 := rfl
  rw [step_writes hb hi, written_eq _ hx.trap hx.wb, hrd]
  cases hload : (decode a.instr).memRe with
  | false =>
    rw [if_neg Bool.false_ne_true, if_neg Bool.false_ne_true]
    exact iff_of_true rfl fun h => absurd h Bool.false_ne_true
  | true =>
    have hwe : (decode a.instr).regWe = true := ((decode_classes a.instr).load hload).1
    rw [if_pos rfl, if_pos rfl, hwe, aluY_address (.inl hload), hc.dmem]
    by_cases hr : a.instr.extractLsb 11 7 = 0#5
    · rw [if_neg fun h => h.2 hr, if_neg fun h => h.2 hr]
      exact iff_of_true rfl fun _ h => absurd hr h
    · rw [if_pos ⟨rfl, hr⟩, if_pos ⟨rfl, hr⟩]
      refine (Option.some_inj.trans (Prod.mk_right_inj.trans (loadBytes_inj hle))).trans ?_
      exact ⟨fun h _ _ => h, fun h => h rfl hr⟩

/-- The data memories. -/
theorem dram_iff (hc : Coupled c a) (hb : Bare P a.csr a.trig) (hi : Base a.instr)
    (hx : Executes P c (a.xIn (env a)) (decode a.instr) c.next) :
    (∀ b : Word, Mem.inDram b.toNat = true →
        c.step.mem.byte b = (a.step P imemWritable (env a)).mem.dmem b) ↔
      ((decode a.instr).memWe = true →
        Stores c.mem (address a) (Regfile.get a.regs (a.instr.extractLsb 24 20)) (size a)) := by
  have hmem : c.step.mem = c.next.mem := rfl
  have hop2 : (a.xIn (env a)).op2 = Regfile.get a.regs (a.instr.extractLsb 24 20) := rfl
  rw [step_dmem hb hi, hmem, hx.mem, hc.dmem, hop2]
  cases hstore : (decode a.instr).memWe with
  | false =>
    refine iff_of_true (fun b _ => ?_) fun h => absurd h Bool.false_ne_true
    rw [if_neg Bool.false_ne_true, if_neg Bool.false_ne_true]
  | true =>
    rw [if_pos rfl, if_pos rfl, aluY_address (.inr hstore)]
    exact (stores_iff _ _ _ (size_cases a)).trans ⟨fun h _ => h, fun h => h rfl⟩

/-- A fetch from the first half of a word is a fetch of the word. -/
theorem fetch_aligned (hc : Coupled c a) (hcomp : a.mem.imem.compAt a.pc = false)
    (hpc : a.pc.toNat % 4 < 2) : c.mem.ifetch c.pc.toNat = a.instr := by
  have hlt := a.pc.isLt
  have hword : ∀ b : Word, b.toNat / 4 = a.pc.toNat / 4 →
      c.mem.imageByte b = (c.mem.ifetch c.pc.toNat).extractLsb' (8 * (b.toNat % 4)) 8 := by
    intro b hb
    have hidx : b.toNat >>> 2 = c.pc.toNat >>> 2 := by
      rw [hc.pc, Nat.shiftRight_eq_div_pow, Nat.shiftRight_eq_div_pow]
      exact hb
    unfold Mem.imageByte Mem.ifetch
    rw [hidx]
  have hhalf : ∀ (p : Word) (i : BitVec 1),
      (p.extractLsb 31 1 ++ i : Word).toNat = p.toNat / 2 * 2 + i.toNat := by
    intro p i
    have hi := i.isLt
    have hp := p.isLt
    rw [BitVec.toNat_append, BitVec.extractLsb, BitVec.extractLsb'_toNat,
      Nat.shiftRight_eq_div_pow, Nat.shiftLeft_eq, ← Nat.shiftLeft_eq,
      ← Nat.shiftLeft_add_eq_or_of_lt hi, Nat.shiftLeft_eq]
    omega
  have hnext : (a.pc + 2#32).toNat = a.pc.toNat + 2 := by
    rw [BitVec.toNat_add]
    show (a.pc.toNat + 2) % 2 ^ 32 = _
    omega
  -- the bytes of both halves
  have hbyte : ∀ (p : Word) (i : BitVec 1) (k : Nat), p.toNat / 2 * 2 + i.toNat =
      a.pc.toNat / 4 * 4 + k → k < 4 → a.mem.imem (p.extractLsb 31 1 ++ i) =
        (c.mem.ifetch c.pc.toNat).extractLsb' (8 * k) 8 := by
    intro p i k hk h4
    have hmod : (a.pc.toNat / 4 * 4 + k) % 4 = k := by omega
    rw [hc.imem, hword _ (by rw [hhalf]; omega), hhalf, hk, hmod]
  have hinstr : a.instr = a.mem.imem.half (a.pc + 2#32) ++ a.mem.imem.half a.pc := by
    unfold Arch.instr Bytes.instrAt
    rw [if_neg (Bool.eq_false_iff.mp hcomp)]
  have h1 : (1#1).toNat = 1 := rfl
  have h0 : (0#1).toNat = 0 := rfl
  rw [hinstr]
  unfold Bytes.half
  rw [hbyte (a.pc + 2#32) 1#1 3 (by omega) (by omega),
    hbyte (a.pc + 2#32) 0#1 2 (by omega) (by omega), hbyte a.pc 1#1 1 (by omega) (by omega),
    hbyte a.pc 0#1 0 (by omega) (by omega)]
  generalize c.mem.ifetch c.pc.toNat = w
  refine BitVec.eq_of_getLsbD_eq fun i hi => ?_
  simp only [BitVec.getLsbD_append, BitVec.getLsbD_extractLsb']
  grind

/-- Where everything is a multiple of its size, it makes none. -/
theorem Sees.of_aligned (hc : Coupled c a) (hcomp : a.mem.imem.compAt a.pc = false)
    (hpc : a.pc.toNat % 4 < 2) (haddr : (address a).toNat % size a = 0) : Sees c a := by
  have hround : alignTo (address a) (size a) = address a := by
    unfold alignTo
    rw [Nat.div_mul_cancel (Nat.dvd_of_mod_eq_zero haddr), BitVec.ofNat_toNat,
      BitVec.setWidth_eq]
  refine ⟨fetch_aligned hc hcomp hpc, fun _ _ k _ => ?_, fun _ => ?_⟩
  · rw [hround]
  · exact Stores.of_aligned _ _ (size_cases a) haddr

/-- **The golden model agrees with the core** on an instruction of RV32I or RV32M other
than SYSTEM exactly where rounding down makes no difference. -/
theorem agrees_iff (hc : Coupled c a) (hb : Bare P a.csr a.trig)
    (hcomp : a.mem.imem.compAt a.pc = false) (hl : legal a.instr = true) :
    Agrees P imemWritable c a ↔ Sees c a := by
  have hk := kind_of_legal hl
  constructor
  · intro h
    have hins : c.ins = a.instr := congrArg Cpu.Retire.instr h.retire
    have hx := executes (P := P) hc hins hcomp hk
    have hrd : c.rd = (a.instr.extractLsb 11 7).toNat := by
      unfold Cpu.rd
      rw [hins, fields_rd]
    have hwrite := congrArg Cpu.Retire.write h.retire
    refine ⟨hins, (writes_iff hc hb hk.base hx).mp ?_, (dram_iff hc hb hk.base hx).mp h.dram⟩
    rw [← hrd]
    exact hwrite
  · intro h
    have hins : c.ins = a.instr := h.fetch
    have hx := executes (P := P) hc hins hcomp hk
    have hrd : c.rd = (a.instr.extractLsb 11 7).toNat := by
      unfold Cpu.rd
      rw [hins, fields_rd]
    refine ⟨?_, ?_, (dram_iff hc hb hk.base hx).mpr h.store⟩
    · unfold Cpu.retire
      rw [hrd, (writes_iff hc hb hk.base hx).mpr h.load, hins, hc.pc]
      rfl
    · rw [step_pc hb hk.base rfl]
      show (if c.next.trap.isSome then c.csr 0x305#12 else c.next.npc) = _
      rw [hx.trap]
      exact hx.npc

end Compare

/-! ## Two runs -/

/-- The core in the state of the script, out of reset otherwise. -/
def Cpu.arch (c : Cpu) : Arch where
  pc := c.pc
  regs := c.x
  csr := {}
  ucsr := {}
  trig := {}
  resv := none
  mem := { imem := c.mem.imageByte, dmem := c.mem.byte }
  dirty := fun _ => false

theorem coupled_arch (c : Cpu) : Coupled c c.arch := by
  refine ⟨rfl, fun r => ?_, rfl, rfl⟩
  show (if r = 0#5 then 0#32 else c.x r) = c.x r
  split
  · rename_i hr
    rw [hr]
    exact c.x0.symm
  · rfl

/-- `lw x1, off(x2)` with `x2` at the start of the DRAM. -/
def loading (off : BitVec 12) : Cpu where
  x := fun r => if r = 2#5 then 0x80000000#32 else 0#32
  x0 := rfl
  pc := 0#32
  mem :=
    { imem := [off ++ 0x12083#20]
      dram := fun i => if i = 0 then 0x44332211#32 else 0x88776655#32 }
  csr := fun _ => 0#32

theorem agrees_iff_aligned :
    Agrees {} (fun _ => false) (loading 4#12) (loading 4#12).arch :=
  (agrees_iff (coupled_arch _) (Bare.reset _) (by decide +kernel) (by decide +kernel)).mpr
    (Sees.of_aligned (coupled_arch _) (by decide +kernel) (by decide +kernel) (by decide +kernel))

/-- **A misaligned load.** At an offset of one the script loads `44332211`, and the core
`55443322`. -/
theorem misaligned_load_differs :
    Coupled (loading 1#12) (loading 1#12).arch ∧ Bare {} (loading 1#12).arch.csr {} ∧
      (loading 1#12).arch.mem.imem.compAt 0#32 = false ∧
      legal (loading 1#12).arch.instr = true ∧
      ¬ Agrees {} (fun _ => false) (loading 1#12) (loading 1#12).arch := by
  refine ⟨coupled_arch _, Bare.reset _, by decide +kernel, by decide +kernel, fun h => ?_⟩
  have hwrite := congrArg Cpu.Retire.write h.retire
  revert hwrite
  decide +kernel

end ThreeSippEs.Golden
