import ThreeSippEs.Pipeline.Misaligned
import ThreeSippEs.Security.PmpRules
import ThreeSippEs.Traps.DebugTrigger

/-!
# The base instructions on the core's architecture

In Machine mode, without PMP regions, triggers and interrupts, an instruction of RV32I
or RV32M other than SYSTEM does not trap. This file has what `Arch.step` does with it,
in terms of its decoded bundle.

- `legal`: the encodings;
- `Bare`: the environment that a model without privilege can speak about;
- `step_pc`, `step_writes`, `step_dmem`: one instruction.
-/

namespace ThreeSippEs.BaseIsa

open Decode DataIsolation Misaligned

/-- The encodings of RV32I and RV32M, FENCE.I included, less SYSTEM. -/
def legal (ins : Word) : Bool :=
  let f3 := funct3 ins
  let f7 := funct7 ins
  if opcode ins = opLui ∨ opcode ins = opAuipc ∨ opcode ins = opJal then true
  else if opcode ins = opJalr then f3 == 0b000#3
  else if opcode ins = opBranch then f3 != 0b010#3 && f3 != 0b011#3
  else if opcode ins = opLoad then f3 != 0b011#3 && f3 != 0b110#3 && f3 != 0b111#3
  else if opcode ins = opStore then f3 == 0b000#3 || f3 == 0b001#3 || f3 == 0b010#3
  else if opcode ins = opOpimm then
    (f3 != 0b001#3 && f3 != 0b101#3) || f7 == 0b0000000#7 || (f3 == 0b101#3 && f7 == 0b0100000#7)
  else if opcode ins = opOp then
    f7 == 0b0000000#7 || f7 == 0b0000001#7 ||
      (f7 == 0b0100000#7 && (f3 == 0b000#3 || f3 == 0b101#3))
  else opcode ins == opFence && (f3 == 0b000#3 || f3 == 0b001#3)

/-- A legal encoding, by its opcode. -/
inductive Kind (ins : Word) : Prop
  | lui (op : opcode ins = opLui)
  | auipc (op : opcode ins = opAuipc)
  | jal (op : opcode ins = opJal)
  | jalr (op : opcode ins = opJalr) (f3 : funct3 ins = 0b000#3)
  | branch (op : opcode ins = opBranch) (f3 : (branchOp (funct3 ins)).isNone = false)
  | load (op : opcode ins = opLoad) (f3 : (loadOp (funct3 ins)).isNone = false)
  | store (op : opcode ins = opStore) (f3 : (storeOp (funct3 ins)).isNone = false)
  | opimm (op : opcode ins = opOpimm)
      (f7 : funct3 ins = 0b001#3 ∨ funct3 ins = 0b101#3 →
        funct7 ins = 0b0000000#7 ∨ (funct3 ins = 0b101#3 ∧ funct7 ins = 0b0100000#7))
  | mext (op : opcode ins = opOp) (f7 : funct7 ins = 0b0000001#7)
  | op (op : opcode ins = opOp)
      (f7 : funct7 ins = 0b0000000#7 ∨
        (funct7 ins = 0b0100000#7 ∧ (funct3 ins = 0b000#3 ∨ funct3 ins = 0b101#3)))
  | fence (op : opcode ins = opFence)

theorem kind_of_legal {ins : Word} (h : legal ins = true) : Kind ins := by
  have table : ∀ f3 : BitVec 3,
      ((f3 != 0b010#3 && f3 != 0b011#3) = true → (branchOp f3).isNone = false) ∧
      ((f3 != 0b011#3 && f3 != 0b110#3 && f3 != 0b111#3) = true → (loadOp f3).isNone = false) ∧
      ((f3 == 0b000#3 || f3 == 0b001#3 || f3 == 0b010#3) = true → (storeOp f3).isNone = false) := by
    decide
  unfold legal at h
  dsimp only at h
  split_ifs at h with hplain hjalr hbranch hload hstore hopimm hop
  · rcases hplain with hop | hop | hop
    · exact .lui hop
    · exact .auipc hop
    · exact .jal hop
  · exact .jalr hjalr (beq_iff_eq.mp h)
  · exact .branch hbranch ((table _).1 h)
  · exact .load hload ((table _).2.1 h)
  · exact .store hstore ((table _).2.2 h)
  · refine .opimm hopimm fun hf3 => ?_
    simp only [Bool.or_eq_true, Bool.and_eq_true, beq_iff_eq, bne_iff_ne] at h
    rcases h with (h | h) | h
    · exact absurd hf3 (not_or.mpr h)
    · exact .inl h
    · exact .inr h
  · simp only [Bool.or_eq_true, Bool.and_eq_true, beq_iff_eq] at h
    rcases h with (h | h) | h
    · exact .op hop (.inl h)
    · exact .mext hop h
    · exact .op hop (.inr h)
  · rw [Bool.and_eq_true, beq_iff_eq] at h
    exact .fence h.1

/-- What the decoder and the overlays make of a base instruction. -/
structure Base (ins : Word) : Prop where
  illegal : (decode ins).illegal = false
  csr : (decode ins).isCsr = false
  sys : (decode ins).isEcall = false ∧ (decode ins).isEbreak = false ∧ (decode ins).isMret = false
  system : opcode ins ≠ opSystem
  amo : opcode ins ≠ 0b0101111#7

theorem Base.of_arm {ins : Word} {d : Decoded} {op : BitVec 7} (hdec : decode ins = d)
    (hop : opcode ins = op) (hill : d.illegal = false)
    (hsys : d.isCsr = false ∧ d.isEcall = false ∧ d.isEbreak = false ∧ d.isMret = false)
    (hne : op ≠ opSystem ∧ op ≠ 0b0101111#7) : Base ins := by
  subst hdec
  subst hop
  exact ⟨hill, hsys.1, hsys.2, hne.1, hne.2⟩

/-- The operation of a legal OP or OP-IMM. -/
def aluOp (immMode : Bool) (f3 : BitVec 3) (f7 : BitVec 7) : AluOp :=
  if f3 = 0b000#3 then (if immMode = false ∧ f7 = 0b0100000#7 then .sub else .add)
  else if f3 = 0b001#3 then .sll
  else if f3 = 0b010#3 then .slt
  else if f3 = 0b011#3 then .sltu
  else if f3 = 0b100#3 then .xor
  else if f3 = 0b101#3 then (if f7 = 0b0100000#7 then .sra else .srl)
  else if f3 = 0b110#3 then .or
  else .and

theorem opimmOp_of_kind {f3 : BitVec 3} {f7 : BitVec 7} (r : BitVec 5)
    (h : f3 = 0b001#3 ∨ f3 = 0b101#3 → f7 = 0b0000000#7 ∨ (f3 = 0b101#3 ∧ f7 = 0b0100000#7)) :
    opimmOp f3 f7 r = some (aluOp true f3 f7) := by
  by_cases hshift : f3 = 0b001#3 ∨ f3 = 0b101#3
  · rcases h hshift with hf7 | ⟨h5, hf7⟩
    · rw [hf7]
      rcases hshift with h1 | h5
      · rw [h1]
        rfl
      · rw [h5]
        rfl
    · rw [hf7, h5]
      rfl
  · -- no shift looks at `f7`
    have hplain : ∀ f3 : BitVec 3, ¬ (f3 = 0b001#3 ∨ f3 = 0b101#3) →
        f3 = 0b000#3 ∨ f3 = 0b010#3 ∨ f3 = 0b011#3 ∨ f3 = 0b100#3 ∨ f3 = 0b110#3 ∨
          f3 = 0b111#3 := by decide
    rcases hplain f3 hshift with rfl | rfl | rfl | rfl | rfl | rfl <;> rfl

theorem opOp_of_kind {f3 : BitVec 3} {f7 : BitVec 7} (r : BitVec 5)
    (h : f7 = 0b0000000#7 ∨ (f7 = 0b0100000#7 ∧ (f3 = 0b000#3 ∨ f3 = 0b101#3))) :
    Decode.opOp f3 f7 r = some (aluOp false f3 f7) := by
  rcases h with hf7 | ⟨hf7, hf3 | hf3⟩
  · subst hf7
    unfold Decode.opOp
    rw [if_pos rfl]
    revert f3
    decide
  · rw [hf7, hf3]
    rfl
  · rw [hf7, hf3]
    rfl

/-- The arm of a legal instruction. -/
theorem decode_at {ins : Word} {op : BitVec 7} (h : opcode ins = op) :
    decode ins =
      if op = opLui then lui ins
      else if op = opAuipc then auipc ins
      else if op = opJal then jal ins
      else if op = opJalr then jalr ins
      else if op = opBranch then branch ins
      else if op = opLoad then load ins
      else if op = opStore then store ins
      else if op = opOpimm then opimm ins
      else if op = opOp then Decode.op ins
      else if op = opSystem then system ins
      else if op = opFence then fence ins
      else illegalOpcode ins := by
  subst h
  rfl

theorem Kind.base {ins : Word} (h : Kind ins) : Base ins := by
  cases h with
  | lui op => exact .of_arm (decode_at op) op rfl ⟨rfl, rfl, rfl, rfl⟩ (by decide)
  | auipc op => exact .of_arm (decode_at op) op rfl ⟨rfl, rfl, rfl, rfl⟩ (by decide)
  | jal op => exact .of_arm (decode_at op) op rfl ⟨rfl, rfl, rfl, rfl⟩ (by decide)
  | fence op => exact .of_arm (decode_at op) op rfl ⟨rfl, rfl, rfl, rfl⟩ (by decide)
  | jalr op f3 =>
    exact .of_arm (decode_at op) op (bne_eq_false_iff_eq.mpr f3) ⟨rfl, rfl, rfl, rfl⟩ (by decide)
  | branch op f3 => exact .of_arm (decode_at op) op f3 ⟨rfl, rfl, rfl, rfl⟩ (by decide)
  | load op f3 => exact .of_arm (decode_at op) op f3 ⟨rfl, rfl, rfl, rfl⟩ (by decide)
  | store op f3 => exact .of_arm (decode_at op) op f3 ⟨rfl, rfl, rfl, rfl⟩ (by decide)
  | opimm op f7 =>
    refine .of_arm (decode_at op) op ?_ ⟨rfl, rfl, rfl, rfl⟩ (by decide)
    show (opimmOp (funct3 ins) (funct7 ins) (rs2f ins)).isNone = false
    rw [opimmOp_of_kind _ f7]
    rfl
  | mext op f7 =>
    have hdec : decode ins = Decode.op ins := decode_at op
    unfold Decode.op at hdec
    rw [if_pos f7] at hdec
    exact .of_arm hdec op rfl ⟨rfl, rfl, rfl, rfl⟩ (by decide)
  | op op f7 =>
    have hdec : decode ins = Decode.op ins := decode_at op
    unfold Decode.op at hdec
    rw [if_neg (by rcases f7 with h | ⟨h, -⟩ <;> rw [h] <;> decide)] at hdec
    refine .of_arm hdec op ?_ ⟨rfl, rfl, rfl, rfl⟩ (by decide)
    show (Decode.opOp (funct3 ins) (funct7 ins) (rs2f ins)).isNone = false
    rw [opOp_of_kind _ f7]
    rfl

/-! ## The environment -/

/-- Machine mode without PMP regions, MPRV and enabled triggers. -/
structure Bare (P : Params) (c : Csr) (t : Trig) : Prop where
  machine : P.secure = true → c.priv = 0b11#2 ∧ Mstatus.mprv c.mstatus = false ∧
    c.mseccfg = 0#3 ∧ ∀ i, Pmp.cfgA (c.pmpcfg i) = 0#2
  triggers : ∀ g, Trig.slotEn (t.tdata1 g) = false

/-- It holds out of reset. -/
theorem Bare.reset (P : Params) : Bare P {} {} := by
  have hoff : Pmp.cfgA 0#8 = 0#2 := by decide
  refine ⟨fun _ => ⟨rfl, rfl, rfl, fun _ => hoff⟩, fun g => ?_⟩
  revert g
  decide

section Step

variable {P : Params} {imemWritable : Word → Bool} {a : Arch} {e : Env}

/-- No PMP region, no fault. -/
theorem pmpFault_bare {c : Csr} (hcfg : ∀ i, Pmp.cfgA (c.pmpcfg i) = 0#2)
    (hsec : c.mseccfg = 0#3) (addr : Word) {acc : Pmp.Access} (hm : acc.privM = true) :
    XIn.pmpFault c addr acc = false := by
  have hnone : Pmp.scan (n := 8)
      (fun i => Pmp.regionMatch (c.pmpcfg (BitVec.ofNat 4 i.val)) (c.pmpaddr (BitVec.ofNat 4 i.val))
        (Pmp.paPrev (fun i => c.pmpaddr (BitVec.ofNat 4 i.val)) i) (Pmp.aw addr))
      (fun i => Pmp.regionAllow (c.pmpcfg (BitVec.ofNat 4 i.val)) acc
        { mmwp := c.mmwp, mml := c.mml }) = (false, false) := by
    refine PmpRules.scan_none fun i => ?_
    unfold Pmp.regionMatch
    rw [if_pos (hcfg _)]
  unfold XIn.pmpFault Pmp.fault
  dsimp only
  rw [hnone, hm]
  unfold Csr.mmwp Csr.mml
  rw [hsec]
  rfl

theorem isUret_base (hi : Base a.instr) : (a.xIn e).isUret P = false := by
  by_contra hu
  rw [Bool.not_eq_false] at hu
  have hins : a.instr = 0x00200073#32 := (XIn.fxInstr_of_isUret hu).2
  exact hi.system (by rw [hins]; decide)

/-- **A base instruction does not trap.** -/
theorem exTrap_base (hb : Bare P a.csr a.trig) (hi : Base a.instr) :
    (a.xIn e).exTrap P = false := by
  have hdec : (a.xIn e).dec = decode a.instr := rfl
  have hfetch : (a.xIn e).accFetchFault P = false := by
    unfold XIn.accFetchFault
    cases hs : P.secure with
    | false => rfl
    | true =>
      obtain ⟨hpriv, -, hsec, hcfg⟩ := hb.machine hs
      refine pmpFault_bare hcfg hsec a.pc ?_
      show (a.csr.priv == 0b11#2) = true
      rw [hpriv]
      rfl
  have hdata : P.secure = true → (a.xIn e).pmpDataFault P = false := by
    intro hs
    obtain ⟨hpriv, hmprv, hsec, hcfg⟩ := hb.machine hs
    refine pmpFault_bare hcfg hsec _ ?_
    show a.csr.dataM P.csr = true
    unfold Csr.dataM
    rw [hmprv, Bool.and_false, hpriv]
    rfl
  have haccess : (a.xIn e).accFault P = false := by
    unfold XIn.accFault XIn.accLoadFault XIn.accStoreFault
    rw [hfetch]
    cases hs : P.secure with
    | false => rfl
    | true =>
      rw [hdata hs, Bool.and_false, Bool.and_false]
      rfl
  have hill : (a.xIn e).illegalAll P = false := by
    unfold XIn.illegalAll XIn.illegalEff XIn.privFault XIn.csrPrivFault XIn.mretPrivFault
      XIn.csrRoFault
    rw [hdec, hi.illegal, hi.csr, hi.sys.2.2]
    simp
  have hfire : (a.xIn e).trigFire = false := by
    have hslot : ∀ pc addr re we g, a.trig.slotMatches pc addr re we g = false := by
      intro pc addr re we g
      unfold Trig.slotMatches
      rw [hb.triggers g, Bool.false_and]
    show (((a.xIn e).trigMatch.exec || (a.xIn e).trigMatch.ldst)) = false
    unfold XIn.trigMatch
    split
    · exact (Trig.matchAll_fires ..).trans (by
        show (a.trig.slotMatches .. || a.trig.slotMatches ..) = false
        rw [hslot, hslot]
        rfl)
    · rfl
  unfold XIn.exTrap XIn.archTrap XIn.trigToExc
  rw [hill, hdec, hi.sys.1, hi.sys.2.1, haccess, hfire]
  simp

/-- Nor is it an atomic. -/
theorem amoValid_base (hi : Base a.instr) : (a.xIn e).amoValid = false := by
  by_contra hamo
  rw [Bool.not_eq_false] at hamo
  have hop := XIn.isAmo_of_amoValid hamo
  unfold XIn.isAmo at hop
  rw [Bool.and_eq_true, beq_iff_eq] at hop
  exact hi.amo hop.1

/-- **The next pc.** -/
theorem step_pc (hb : Bare P a.csr a.trig) (hi : Base a.instr) (he : e.irq = {}) :
    (a.step P imemWritable e).pc =
      if (decode a.instr).isJalr then (a.xIn e).jalrT else (a.xIn e).brActualNext := by
  have huret : (a.xIn e).isUret P = false := isUret_base hi
  have hirq : (a.xIn e).takeIrq P = false := by
    have hreq : (a.xIn e).irqReq = false := by
      show a.csr.irqReq e.irq = false
      rw [he]
      exact Bool.and_false _
    unfold XIn.takeIrq
    rw [hreq]
    simp
  show (a.xIn e).nextPc P = _
  unfold XIn.nextPc
  rw [exTrap_base hb hi, huret, hirq]
  have hmret : (a.xIn e).dec.isMret = false := hi.sys.2.2
  rw [hmret]
  rfl

/-- **The register it writes.** -/
theorem step_writes (hb : Bare P a.csr a.trig) (hi : Base a.instr) :
    (a.xw P e).writes a.resv a.mem =
      if (decode a.instr).regWe = true ∧ (a.xIn e).rd ≠ 0#5 then
        some ((a.xIn e).rd,
          if (decode a.instr).memRe then
            loadBytes a.mem.dmem (a.xIn e).aluY (accessSize (decode a.instr).memWidth)
              (decode a.instr).memUnsigned
          else (a.xIn e).xResult P)
      else none := by
  have htrap := exTrap_base (e := e) hb hi
  have hamo : (a.xw P e).isAmo = false := by
    show ((a.xIn e).amoValid && !(a.xIn e).exTrap P) = false
    rw [amoValid_base hi, Bool.false_and]
  have hregWe : (a.xw P e).regWe = (decode a.instr).regWe := by
    show (((a.xIn e).dec.regWe || (a.xIn e).amoValid) && !(a.xIn e).exTrap P) = _
    rw [htrap, amoValid_base hi, Bool.or_false, Bool.not_false, Bool.and_true]
    rfl
  have hre : (a.xw P e).memRe = (decode a.instr).memRe := by
    show ((a.xIn e).dec.memRe && !(a.xIn e).exTrap P) = _
    rw [htrap, Bool.not_false, Bool.and_true]
    rfl
  have hvalue : (a.xw P e).value a.resv a.mem =
      if (decode a.instr).memRe then
        loadBytes a.mem.dmem (a.xIn e).aluY (accessSize (decode a.instr).memWidth)
          (decode a.instr).memUnsigned
      else (a.xIn e).xResult P := by
    unfold XwReg.value
    rw [hamo, hre, if_neg Bool.false_ne_true]
    split
    · rename_i hload
      have hmem : ((a.xIn e).dec.memRe || (a.xIn e).dec.memWe) = true := Bool.or_eq_true_iff.mpr
        (.inl hload)
      have hplaced : Placed (a.xw P e) := placed_of_mem hmem htrap
      have hresult : (a.xw P e).result = (a.xIn e).aluY := XIn.xResult_of_mem (.inl hload)
      rw [hplaced.load a.mem.dmem, hresult]
      rfl
    · rfl
  unfold XwReg.writes
  rw [hregWe, hvalue]
  refine if_congr ?_ rfl rfl
  rw [Bool.and_eq_true, bne_iff_ne]
  exact Iff.rfl

/-- **The data memory.** -/
theorem step_dmem (hb : Bare P a.csr a.trig) (hi : Base a.instr) :
    (a.step P imemWritable e).mem.dmem =
      if (decode a.instr).memWe then
        storeBytes a.mem.dmem (a.xIn e).aluY (a.xIn e).op2 (accessSize (decode a.instr).memWidth)
      else a.mem.dmem := by
  have htrap := exTrap_base (e := e) hb hi
  have hamo : (a.xw P e).isAmo = false := by
    show ((a.xIn e).amoValid && !(a.xIn e).exTrap P) = false
    rw [amoValid_base hi, Bool.false_and]
  have hmemory : ∀ ra dm : Bool, (a.xIn e).dec.memRe = ra → (a.xIn e).dec.memWe = dm →
      (a.xw P e).memRe = ra ∧ (a.xw P e).memWe = dm := by
    intro ra dm hra hdm
    constructor
    · show ((a.xIn e).dec.memRe && !(a.xIn e).exTrap P) = _
      rw [htrap, Bool.not_false, Bool.and_true, hra]
    · show ((a.xIn e).dec.memWe && !(a.xIn e).exTrap P) = _
      rw [htrap, Bool.not_false, Bool.and_true, hdm]
  show ((a.xw P e).finish imemWritable ⟨a.regs, a.resv, a.mem⟩).mem.dmem = _
  cases hstore : (decode a.instr).memWe with
  | true =>
    have hload : (decode a.instr).memRe = false := ((decode_classes a.instr).store hstore).2.2.1
    have hmem : ((a.xIn e).dec.memRe || (a.xIn e).dec.memWe) = true := Bool.or_eq_true_iff.mpr
      (.inr hstore)
    have hplaced : Placed (a.xw P e) := placed_of_mem hmem htrap
    have hresult : (a.xw P e).result = (a.xIn e).aluY := XIn.xResult_of_mem (.inr hstore)
    rw [(store_finish hplaced hamo (hmemory _ _ hload hstore).1 (fun j hj => storeData_bytes hj)
      imemWritable ⟨a.regs, a.resv, a.mem⟩).1, hresult]
    rfl
  | false =>
    rw [if_neg Bool.false_ne_true]
    cases hload : (decode a.instr).memRe with
    | true =>
      have hmem : ((a.xIn e).dec.memRe || (a.xIn e).dec.memWe) = true := Bool.or_eq_true_iff.mpr
        (.inl hload)
      have hplaced : Placed (a.xw P e) := placed_of_mem hmem htrap
      rw [(load_finish hplaced hamo (hmemory _ _ hload hstore).1 imemWritable
        ⟨a.regs, a.resv, a.mem⟩).1]
    | false =>
      obtain ⟨hre, hwe⟩ := hmemory _ _ hload hstore
      unfold XwReg.finish XwReg.accesses
      dsimp only
      rw [hamo, hre, hwe]
      rfl

end Step

end ThreeSippEs.BaseIsa
