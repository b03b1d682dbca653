import ThreeSippEs.Isa.Accepted
import ThreeSippEs.Isa.Halfwords
import ThreeSippEs.Traps.Precise

/-!
# Executing compressed instructions

A halfword in memory, from the fetch to its effect. What the core does with it is one step
with the word of its expansion and a length of two bytes; a HINT only writes a register
that keeps its value.

- `aluY_eval`, `WritesOnly`: instructions that only write a register;
- `Arch.exec`: a step with a given word;
- `Performs`, `Idles`, `Refuses`, `Correct`: what the instruction set has for a halfword;
- `correct_iff`: when the core does that.
-/

namespace ThreeSippEs

open Isa

/-! ## Instructions that only write a register -/

namespace Isa

/-- The value of an operand. -/
def Src.eval (pc : Word) (regs : Regs) : Src → Word
  | .pc => pc
  | .reg r => Regfile.get regs r
  | .imm v => v

def Value.eval (pc : Word) (regs : Regs) : Value → Word
  | .pass b => b.eval pc regs
  | .unary op a => Alu.y op (a.eval pc regs) 0#32
  | .binary op a b => Alu.y op (a.eval pc regs) (b.eval pc regs)

end Isa

theorem AluOp.unary_y {op : AluOp} (h : op.isUnary = true) (a b b' : Word) :
    Alu.y op a b = Alu.y op a b' := by
  cases op <;> first | rfl | exact nomatch h

section Arch

variable {P : Params} {imemWritable : Word → Bool} {a : Arch} {e : Env}

/-- The ALU computes the value that the instruction asks for. -/
theorem aluY_eval : (a.xIn e).aluY = (a.xIn e).value.eval a.pc a.regs := by
  have hsrcA : (a.xIn e).aluA = (a.xIn e).srcA.eval a.pc a.regs := by
    unfold XIn.aluA XIn.srcA
    split <;> rfl
  have hsrcB : (a.xIn e).aluB = (a.xIn e).srcB.eval a.pc a.regs := by
    unfold XIn.aluB XIn.srcB
    split <;> rfl
  unfold XIn.aluY XIn.value
  split_ifs with hpass hunary
  · rw [hpass]
    exact hsrcB
  · rw [AluOp.unary_y hunary _ _ 0#32, hsrcA]
    rfl
  · rw [hsrcA, hsrcB]
    rfl

/-- The decoder's view of an instruction that only writes `v` to `rd`. -/
structure WritesOnly (P : Params) (x : XIn) (rd : BitVec 5) (v : Value) : Prop where
  rd : x.rd = rd
  value : x.value = v
  wbSel : x.dec.wbSel = .alu
  amo : x.amoValid = false
  memRe : x.dec.memRe = false
  memWe : x.dec.memWe = false
  branch : x.dec.isBranch = false
  jal : x.dec.isJal = false
  jalr : x.dec.isJalr = false
  csr : x.dec.isCsr = false
  fenceI : x.isFencei = false
  ecall : x.dec.isEcall = false
  ebreak : x.dec.isEbreak = false
  mret : x.dec.isMret = false
  uret : x.isUret P = false

theorem WritesOnly.of_control {x : XIn} {rd : BitVec 5} {v : Value}
    (h : x.control P = { dest := some (rd, .value v) }) : WritesOnly P x rd v := by
  have none : ∀ {α : Type} {c : Bool} {t : α}, (if c then some t else Option.none) = Option.none →
      c = false := by
    intro α c t hc
    cases c with
    | false => rfl
    | true => exact nomatch hc
  have hamo : x.amoValid = false := none (congrArg Control.atomic h)
  have hdest : (if x.dec.regWe || x.amoValid then some (x.rd, x.resultOf) else Option.none) =
    some (rd, .value v) := congrArg Control.dest h
  have hres : x.rd = rd ∧ x.resultOf = .value v := by
    split at hdest
    · exact ⟨congrArg Prod.fst (Option.some.inj hdest), congrArg Prod.snd (Option.some.inj hdest)⟩
    · exact nomatch hdest
  have hsel : x.dec.wbSel = .alu ∧ x.value = v := by
    have hval := hres.2
    unfold XIn.resultOf at hval
    rw [hamo] at hval
    cases hwb : x.dec.wbSel with
    | alu =>
      rw [hwb] at hval
      exact ⟨rfl, Result.value.inj hval⟩
    | mem | pc4 | csr | md =>
      rw [hwb] at hval
      exact nomatch hval
  exact {
    rd := hres.1
    value := hsel.2
    wbSel := hsel.1
    amo := hamo
    memRe := none (congrArg Control.load h)
    memWe := none (congrArg Control.store h)
    branch := none (congrArg Control.branch h)
    jal := none (congrArg Control.jal h)
    jalr := none (congrArg Control.jalr h)
    csr := none (congrArg Control.csr h)
    fenceI := congrArg Control.fenceI h
    ecall := congrArg Control.ecall h
    ebreak := congrArg Control.ebreak h
    mret := congrArg Control.mret h
    uret := congrArg Control.uret h }

/-- Such an instruction traps for its fetch, for a trigger or as illegal only. -/
theorem WritesOnly.exTrap {x : XIn} {rd : BitVec 5} {v : Value} (h : WritesOnly P x rd v)
    (hill : x.illegalAll P = false) (hacc : x.accFetchFault P = false)
    (htrig : x.trigFire = false) : x.exTrap P = false := by
  have hre : x.lsRe = false := by
    unfold XIn.lsRe
    rw [h.memRe, h.amo]
    rfl
  have hwe : x.lsWe = false := by
    unfold XIn.lsWe
    rw [h.memWe, h.amo]
    rfl
  have hfault : x.accFault P = false := by
    unfold XIn.accFault XIn.accLoadFault XIn.accStoreFault
    rw [hacc, hre, hwe]
    simp
  unfold XIn.exTrap XIn.archTrap XIn.trigToExc
  rw [hill, h.ecall, h.ebreak, hfault, htrig]
  simp

/-- It writes its value and goes on behind itself. -/
theorem WritesOnly.step {rd : BitVec 5} {v : Value} (h : WritesOnly P (a.xIn e) rd v)
    (htrap : (a.xIn e).exTrap P = false) (htrig : (a.xIn e).trigFire = false)
    (hirq : (a.xIn e).takeIrq P = false) :
    a.step P imemWritable e = { a with
      pc := (a.xIn e).seqNx
      regs := Regfile.write a.regs (a.xw P e).regWe rd (v.eval a.pc a.regs)
      csr := a.csr.uncounted } := by
  have hwe : (a.xIn e).csrWeEff P = false := by
    show (true && (a.xIn e).csrDoWrite && !(a.xIn e).exTrap P && !false) = false
    unfold XIn.csrDoWrite
    rw [h.csr]
    simp
  have hamo : (a.xw P e).isAmo = false := by
    show ((a.xIn e).amoValid && _) = false
    rw [h.amo, Bool.false_and]
  have hre : (a.xw P e).memRe = false := by
    show ((a.xIn e).dec.memRe && _) = false
    rw [h.memRe, Bool.false_and]
  have hme : (a.xw P e).memWe = false := by
    show ((a.xIn e).dec.memWe && _) = false
    rw [h.memWe, Bool.false_and]
  have hacc : a.accesses P e = [] := by
    unfold Arch.accesses XwReg.accesses
    dsimp only
    rw [hamo, hre, hme]
    rfl
  have hpc : (a.xIn e).nextPc P = (a.xIn e).seqNx := by
    unfold XIn.nextPc XIn.brActualNext XIn.brActualTaken
    rw [htrap, h.uret, h.mret, hirq, h.jalr, h.jal, h.branch]
    rfl
  have hvalue : (a.xw P e).value a.resv a.mem = v.eval a.pc a.regs := by
    unfold XwReg.value
    rw [hamo, hre, ← h.value, ← aluY_eval]
    show (a.xIn e).xResult P = _
    unfold XIn.xResult
    rw [h.wbSel]
  have hcsr : ((a.xIn e).csrNext P false).uncounted = a.csr.uncounted := by
    unfold XIn.csrNext
    rw [Csr.step_uncounted]
    have hset : ((a.xIn e).csrIn P false).trapSet = false := by
      show (((a.xIn e).exTrap P && _ && _) || (a.xIn e).takeIrq P) = false
      rw [htrap, hirq]
      rfl
    have hmret : ((a.xIn e).csrIn P false).mret = false := by
      show (true && (a.xIn e).dec.isMret && _ && _) = false
      rw [h.mret]
      rfl
    have hwrite : ((a.xIn e).csrIn P false).we = false := by
      show ((a.xIn e).csrWeEff P && _ && _) = false
      rw [hwe]
      rfl
    rw [hset, hmret, hwrite]
    rfl
  have hdeleg : (a.xIn e).delegTrap P = false := by
    unfold XIn.delegTrap
    rw [htrap]
    simp
  have hucsr : (a.xIn e).ucsrNext P = a.ucsr := by
    unfold XIn.ucsrNext XIn.ucsrWe
    rw [hdeleg, h.uret, hwe]
    simp
    rfl
  have htrigs : (a.xIn e).trigNext P = a.trig := by
    unfold XIn.trigNext XIn.trigCsrWe
    rw [hwe, htrig]
    rfl
  have hresv : (a.xw P e).resvNext a.resv = a.resv := by
    unfold XwReg.resvNext
    rw [hamo, hme]
    rfl
  have hrd : (a.xw P e).rd = rd := h.rd
  unfold Arch.step
  rw [hpc, hvalue, hcsr, hucsr, htrigs, hacc, h.fenceI, hresv, hrd]
  simp

end Arch

/-! ## HINTs -/

namespace Isa

/-- A HINT only writes a register, and nothing new. -/
theorem CInstr.Hint.control {c : CInstr} (hc : c.Hint) :
    ∃ rd v, c.expand.control = { dest := some (rd, .value v) } ∧
      (rd = 0#5 ∨ ∀ pc regs, v.eval pc regs = Regfile.get regs rd) := by
  cases c with
  | addi rd imm =>
    refine ⟨rd, _, rfl, hc.imp_right fun himm pc regs => ?_⟩
    subst himm
    exact BitVec.add_zero _
  | li rd imm => exact ⟨rd, _, rfl, .inl hc⟩
  | lui rd imm => exact ⟨rd, _, rfl, .inl hc⟩
  | srli rd shamt =>
    refine ⟨creg rd, _, rfl, .inr fun pc regs => ?_⟩
    obtain rfl : shamt = 0#5 := hc
    exact BitVec.ushiftRight_zero _
  | srai rd shamt =>
    refine ⟨creg rd, _, rfl, .inr fun pc regs => ?_⟩
    obtain rfl : shamt = 0#5 := hc
    exact BitVec.sshiftRight_zero
  | slli rd shamt =>
    refine ⟨rd, _, rfl, hc.imp_right fun hshamt pc regs => ?_⟩
    subst hshamt
    exact BitVec.shiftLeft_zero _
  | mv rd rs2 => exact ⟨rd, _, rfl, .inl hc⟩
  | add rd rs2 => exact ⟨rd, _, rfl, .inl hc⟩
  | _ => exact nomatch hc

theorem write_same {regs : Regs} {rd : BitVec 5} {v : Word}
    (h : rd = 0#5 ∨ v = Regfile.get regs rd) (we : Bool) : Regfile.write regs we rd v = regs := by
  funext r
  unfold Regfile.write
  split
  · rename_i hw
    simp only [Bool.and_eq_true, bne_iff_ne, beq_iff_eq] at hw
    obtain ⟨⟨-, hne⟩, rfl⟩ := hw
    rw [h.resolve_left hne]
    exact if_neg hne
  · rfl

end Isa

/-! ## Executing a compressed instruction -/

namespace Arch

variable (P : Params) (imemWritable : Word → Bool) (a : Arch) (e : Env)

/-- The X stage for the instruction `w` of `len` bytes at `pc`. -/
def xInOf (w : Word) (len : BitVec 3) : XIn :=
  { a.xIn e with
    fxInstr := w
    fxLen := len
    op1 := Regfile.get a.regs (w.extractLsb 19 15)
    op2 := Regfile.get a.regs (w.extractLsb 24 20) }

/-- One step with the instruction `w` of `len` bytes at `pc`. -/
def exec (w : Word) (len : BitVec 3) : Arch where
  pc := (a.xInOf e w len).nextPc P
  regs :=
    let xw := (a.xInOf e w len).xwNext P
    Regfile.write a.regs xw.regWe xw.rd (xw.value a.resv a.mem)
  csr := ((a.xInOf e w len).csrNext P false).uncounted
  ucsr := (a.xInOf e w len).ucsrNext P
  trig := (a.xInOf e w len).trigNext P
  resv := ((a.xInOf e w len).xwNext P).resvNext a.resv
  mem := (((a.xInOf e w len).xwNext P).accesses a.resv a.mem).foldl
    (Memory.access imemWritable) a.mem
  dirty := fun b =>
    if (a.xInOf e w len).isFencei && !(a.xInOf e w len).exTrap P then false
    else a.dirty b ||
      (((a.xInOf e w len).xwNext P).accesses a.resv a.mem).any
        fun acc => acc.touches imemWritable b

theorem step_eq_exec : a.step P imemWritable e = a.exec P imemWritable e a.instr a.len := rfl

end Arch

namespace CompressedInstructions

/-- The core executes `i` at `pc`, two bytes long, with the signals of `i`. -/
structure Performs (P : Params) (imemWritable : Word → Bool) (a : Arch) (e : Env) (i : Instr) :
    Prop where
  step : a.step P imemWritable e = a.exec P imemWritable e i.encode 2#3
  control : (a.xIn e).control P = i.control
  accepted : (a.xIn e).illegalAll P = false
  /-- the link and the sequential address -/
  behind : (a.xIn e).seqNx = a.pc + 2#32

/-- The instruction at `pc` does nothing. -/
structure Idles (P : Params) (imemWritable : Word → Bool) (a : Arch) (e : Env) : Prop where
  quiet : (a.xIn e).accFetchFault P = false → (a.xIn e).trigFire = false →
    (a.xIn e).exTrap P = false
  step : (a.xIn e).accFetchFault P = false → (a.xIn e).trigFire = false →
    (a.xIn e).takeIrq P = false →
    a.step P imemWritable e = { a with pc := a.pc + 2#32, csr := a.csr.uncounted }

/-- The instruction at `pc` traps as illegal and leaves registers and memories alone. -/
structure Refuses (P : Params) (imemWritable : Word → Bool) (a : Arch) (e : Env) : Prop where
  trap : (a.xIn e).accFetchFault P = false → (a.xIn e).trigFire = false →
    (a.xIn e).exTrap P = true ∧ (a.xIn e).exCause P = causeIllegal
  regs : (a.step P imemWritable e).regs = a.regs
  resv : (a.step P imemWritable e).resv = a.resv
  mem : (a.step P imemWritable e).mem = a.mem

/-- What the core makes of a halfword is what the instruction set has for it. -/
structure Correct (P : Params) (imemWritable : Word → Bool) (h : BitVec 16) : Prop where
  /-- the word and the length that F hands on -/
  fetched : ∀ (f : FStage P) (rdata : Word), f.straddle = false → f.fetchHalf rdata = h →
    f.fetchedLen rdata = 2#3 ∧
    (∀ c : CInstr, c.Valid → c.encode = h → f.fetchedInstr rdata = c.expand.encode) ∧
    (¬CDefined h → f.fetchedInstr rdata = 0#32)
  performed : ∀ c : CInstr, c.Valid → c.encode = h → ∀ (a : Arch) (e : Env),
    a.mem.imem.half a.pc = h → Performs P imemWritable a e c.expand
  hint : ∀ c : CInstr, c.Valid → c.encode = h → c.Hint → ∀ (a : Arch) (e : Env),
    a.mem.imem.half a.pc = h → Idles P imemWritable a e
  reserved : ¬CDefined h → ∀ (a : Arch) (e : Env), a.mem.imem.half a.pc = h →
    Refuses P imemWritable a e

section Halfword

variable {P : Params} {imemWritable : Word → Bool} {h : BitVec 16} {c : CInstr} {a : Arch} {e : Env}

theorem cInstr_encode (hc : c.Valid) (hs : ¬c.ShiftZero) (hh : c.encode = h)
    (hcomp : Rvc.isCompressed h = true) : FStage.cInstr h = c.expand.encode := by
  unfold FStage.cInstr
  rw [instr32_eq hcomp, read_encode hh hc hs]
  rfl

theorem cInstr_reserved (hcomp : Rvc.isCompressed h = true) (hdef : ¬CDefined h) :
    FStage.cInstr h = 0#32 := by
  unfold FStage.cInstr
  rw [instr32_eq hcomp]
  cases hr : read h with
  | none => rfl
  | some c => exact absurd ⟨c, encode_read hcomp hr⟩ hdef

/-- The instruction at `pc` is the one of the halfword. -/
theorem instr_of_half (hcomp : Rvc.isCompressed h = true) (ha : a.mem.imem.half a.pc = h) :
    a.instr = FStage.cInstr h ∧ a.len = 2#3 := by
  have hat : a.mem.imem.compAt a.pc = true := by
    unfold Bytes.compAt
    rw [ha]
    exact hcomp
  constructor
  · unfold Arch.instr Bytes.instrAt
    rw [hat, if_pos rfl, ha]
  · unfold Arch.len Bytes.lenAt
    rw [hat, if_pos rfl]

theorem fetched_of_half {f : FStage P} {rdata : Word} (hcomp : Rvc.isCompressed h = true)
    (hstr : f.straddle = false) (hf : f.fetchHalf rdata = h) :
    f.fetchedInstr rdata = FStage.cInstr h ∧ f.fetchedLen rdata = 2#3 := by
  have hc : f.cIsComp rdata = true := by
    unfold FStage.cIsComp
    rw [hf]
    exact hcomp
  unfold FStage.fetchedInstr FStage.fetchedLen
  rw [hstr, hc, hf]
  exact ⟨rfl, rfl⟩

/-- No expansion depends on the configuration. -/
theorem expand_available (c : CInstr) (secure : Bool) : c.expand.available secure := by
  intro h
  cases c with
  | arith o => cases o <;> exact nomatch h
  | unary o => cases o <;> exact nomatch h
  | _ => exact nomatch h

theorem expand_csr (c : CInstr) : c.expand.control.csr = none ∧ c.expand.control.mret = false := by
  cases c with
  | arith o => cases o <;> exact ⟨rfl, rfl⟩
  | unary o => cases o <;> exact ⟨rfl, rfl⟩
  | _ => exact ⟨rfl, rfl⟩

theorem performs_of_instr (hi : a.instr = c.expand.encode) (hl : a.len = 2#3) :
    Performs P imemWritable a e c.expand := by
  obtain ⟨hcontrol, heff⟩ := @control_encode P (a.xIn e) c.expand (expand_available c _) hi
  obtain ⟨hcsr, hmret⟩ := expand_csr c
  refine ⟨?_, hcontrol, ?_, ?_⟩
  · rw [Arch.step_eq_exec, hi, hl]
  · have hisCsr : (a.xIn e).dec.isCsr = false := by
      have hnone : (a.xIn e).control P = _ := hcontrol
      rw [← hcontrol] at hcsr
      unfold XIn.control at hcsr
      by_contra hc
      rw [Bool.not_eq_false] at hc
      exact nomatch (if_pos hc).symm.trans hcsr
    have hisMret : (a.xIn e).dec.isMret = false :=
      (congrArg Control.mret hcontrol).trans hmret
    unfold XIn.illegalAll XIn.privFault XIn.csrPrivFault XIn.mretPrivFault XIn.csrRoFault
    rw [heff, hisCsr, hisMret]
    simp
  · show a.pc + a.len.setWidth 32 = _
    rw [hl]
    rfl

theorem idles_of_hint (hi : a.instr = c.expand.encode) (hl : a.len = 2#3) (hc : c.Hint) :
    Idles P imemWritable a e := by
  have hp : Performs P imemWritable a e c.expand := performs_of_instr hi hl
  obtain ⟨rd, v, hcontrol, hsame⟩ := hc.control
  have hw : WritesOnly P (a.xIn e) rd v := .of_control (hp.control.trans hcontrol)
  refine ⟨fun hacc htrig => hw.exTrap hp.accepted hacc htrig, fun hacc htrig hirq => ?_⟩
  rw [hw.step (hw.exTrap hp.accepted hacc htrig) htrig hirq, hp.behind,
    write_same (hsame.imp_right fun hv => hv a.pc a.regs)]

theorem refuses_of_zero (hi : a.instr = 0#32) : Refuses P imemWritable a e := by
  have hdec : (a.xIn e).dec = Decode.illegalOpcode 0#32 := by
    show decode a.instr = _
    rw [hi]
    rfl
  have hamo : (a.xIn e).amoValid = false := by
    unfold XIn.amoValid
    rw [isAmo_eq_false (by show Decode.opcode a.instr ≠ _; rw [hi]; decide), Bool.false_and]
  have hill : (a.xIn e).illegalAll P = true := by
    have huret : (a.xIn e).isUret P = false :=
      isUret_eq_false P (by show a.instr ≠ _; rw [hi]; decide)
    unfold XIn.illegalAll XIn.illegalEff
    rw [hdec, hamo, huret]
    rfl
  have hfin : ∀ d, (a.xw P e).finish imemWritable d = d := by
    refine fun d => (XwReg.finish_of_squashed ?_ ?_ ?_ ?_ imemWritable d).1
    · show (((a.xIn e).dec.regWe || (a.xIn e).amoValid) && _) = false
      rw [hdec, hamo]
      rfl
    · show ((a.xIn e).amoValid && _) = false
      rw [hamo, Bool.false_and]
    · show ((a.xIn e).dec.memRe && _) = false
      rw [hdec]
      rfl
    · show ((a.xIn e).dec.memWe && _) = false
      rw [hdec]
      rfl
  have hd := hfin ⟨a.regs, a.resv, a.mem⟩
  refine ⟨fun hacc htrig => ⟨?_, ?_⟩, congrArg Data.regs hd, congrArg Data.resv hd,
    congrArg Data.mem hd⟩
  · unfold XIn.exTrap XIn.archTrap XIn.trigToDebug
    rw [hill, htrig]
    rfl
  · unfold XIn.exCause
    rw [hacc, hill]
    rfl

/-- Every halfword but those of C.SLLI by zero. -/
theorem correct_of_not_shiftZero (hcomp : Rvc.isCompressed h = true)
    (hs : ¬∃ rd, (CInstr.slli rd 0#5).encode = h) : Correct P imemWritable h := by
  have hexp : ∀ c : CInstr, c.Valid → c.encode = h → FStage.cInstr h = c.expand.encode := by
    refine fun c hc hh => cInstr_encode hc (fun hz => hs ?_) hh hcomp
    cases c with
    | slli rd shamt =>
      obtain rfl : shamt = 0#5 := hz
      exact ⟨rd, hh⟩
    | _ => exact nomatch hz
  refine ⟨fun f rdata hstr hf => ?_, fun c hc hh a e ha => ?_, fun c hc hh hhint a e ha => ?_,
    fun hdef a e ha => ?_⟩
  · obtain ⟨hinstr, hlen⟩ := fetched_of_half hcomp hstr hf
    exact ⟨hlen, fun c hc hh => hinstr.trans (hexp c hc hh),
      fun hdef => hinstr.trans (cInstr_reserved hcomp hdef)⟩
  · obtain ⟨hinstr, hlen⟩ := instr_of_half hcomp ha
    exact performs_of_instr (hinstr.trans (hexp c hc hh)) hlen
  · obtain ⟨hinstr, hlen⟩ := instr_of_half hcomp ha
    exact idles_of_hint (hinstr.trans (hexp c hc hh)) hlen hhint
  · obtain ⟨hinstr, -⟩ := instr_of_half hcomp ha
    exact refuses_of_zero (hinstr.trans (cInstr_reserved hcomp hdef))

/-- A halfword, fetched. -/
theorem fetchHalf_append (f : FStage P) (h : BitVec 16) : f.fetchHalf (h ++ h) = h := by
  have hhi : (h ++ h).extractLsb 31 16 = h := by
    refine BitVec.eq_of_getLsbD_eq fun i hi => ?_
    simp only [BitVec.getLsbD_extractLsb, BitVec.getLsbD_append]
    grind
  have hlo : (h ++ h).extractLsb 15 0 = h := BitVec.extractLsb'_append_eq_right
  unfold FStage.fetchHalf
  rw [hhi, hlo, ite_self]

/-- C.SLLI by zero is taken for a reserved halfword. -/
theorem cInstr_shiftZero {rd : BitVec 5} (hh : (CInstr.slli rd 0#5).encode = h)
    (hcomp : Rvc.isCompressed h = true) : FStage.cInstr h = 0#32 := by
  obtain ⟨hq, hf3, himm, -⟩ := citype_fields hh
  unfold FStage.cInstr
  rw [instr32_eq hcomp]
  simp [Isa.read, readQuadrant2, hq, hf3, himm]

end Halfword

/-- **The compressed instructions.** For every halfword of quadrants 0 to 2, what the core
makes of it is what RV32C and Zcb define, in every state, if and only if it is not a
C.SLLI by zero. -/
theorem correct_iff (P : Params) (imemWritable : Word → Bool) {h : BitVec 16}
    (hcomp : Rvc.isCompressed h = true) :
    Correct P imemWritable h ↔ ¬∃ rd, (CInstr.slli rd 0#5).encode = h := by
  refine ⟨fun hc ⟨rd, hh⟩ => ?_, correct_of_not_shiftZero hcomp⟩
  -- any fetch of the halfword shows the wrong word
  have hf := fetchHalf_append { (Core.powerUp P).f with straddle := false } h
  obtain ⟨hinstr, -⟩ := fetched_of_half hcomp rfl hf
  have hword : (CInstr.slli rd 0#5).expand.encode = 0#32 :=
    ((hc.fetched _ _ rfl hf).2.1 (.slli rd 0#5) trivial hh).symm.trans
      (hinstr.trans (cInstr_shiftZero hh hcomp))
  have hop := congrArg Decode.opcode hword
  rw [show Decode.opcode (CInstr.slli rd 0#5).expand.encode = opOpimm from
    Formats.rtype_opcode ..] at hop
  exact absurd hop (by decide)

/-- `c.addi a0, 1` -/
theorem correct_iff_addi : Correct {} (fun _ => false) 0x0505#16 := by
  refine (correct_iff {} (fun _ => false) (by decide)).mpr ?_
  decide

/-- `c.slli a0, 0` -/
theorem shift_by_zero_refused :
    ¬∀ h : BitVec 16, Rvc.isCompressed h = true → Correct {} (fun _ => false) h := by
  intro h
  have hc := h 0x0502#16 (by decide)
  have hw := ((hc.fetched { (Core.powerUp {}).f with straddle := false } 0x05020502#32 rfl
    (by decide)).2.1 (.slli 10#5 0#5) trivial (by decide))
  revert hw
  decide

end CompressedInstructions

end ThreeSippEs
