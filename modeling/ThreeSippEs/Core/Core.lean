import ThreeSippEs.Common.Muldiv
import ThreeSippEs.Core.Execute
import ThreeSippEs.Core.Fetch

/-!
# The core: F | X | W and the debug controller (`three_sipp_es_core.sv`)

The state of the whole core and one clock of it. `Core.xIn` assembles what the
X stage sees, `Core.step` is every `always_ff` of the module at once (the branch
with `rst` low) and `Core.reset` the branches with `rst` high.
-/

namespace ThreeSippEs

/-- The registers of the debug controller. -/
structure Dbg where
  dbgMode : Bool := false
  /-- halt requested; fetch frozen, pipe draining -/
  haltReq : Bool := false
  /-- resumed with step; halt after one fetch -/
  stepActive : Bool := false
  dpc : Word := 0#32
  dscratch0 : Word := 0#32
  dcsrEbreakm : Bool := false
  dcsrStep : Bool := false
  dcsrCause : BitVec 3 := 0#3
  dbgArBusy : Bool := false
  dbgArDone : Bool := false
  /-- dpc captured from an ebreak (its own PC) -/
  dpcCapValid : Bool := false
  dpcCap : Word := 0#32
  deriving DecidableEq

/-- A debugger write to `dcsr`, `dpc` or `dscratch0`. -/
def Dbg.writeLocal (d : Dbg) (regno : BitVec 12) (v : Word) : Dbg :=
  if regno = 0x7b0#12 then { d with dcsrEbreakm := v.getLsbD 15, dcsrStep := v.getLsbD 2 }
  else if regno = 0x7b1#12 then { d with dpc := v }
  else if regno = 0x7b2#12 then { d with dscratch0 := v }
  else d

/-- The registers of `three_sipp_es_core`. -/
structure Core (P : Params) where
  f : FStage P
  bp : Bpred P
  ras : Ras
  regs : Regs
  md : Muldiv
  mdInflight : Bool
  csr : Csr
  ucsr : Ucsr
  trig : Trig
  w : WStage
  dbg : Dbg

/-- The interrupt lines and the debug port in one cycle. -/
structure ExtIn where
  irq : IrqLines := {}
  dbgHaltreq : Bool := false
  dbgResumereq : Bool := false
  dbgArValid : Bool := false
  dbgArWrite : Bool := false
  dbgArCsr : Bool := false
  dbgArRegno : BitVec 12 := 0#12
  dbgArWdata : Word := 0#32
  deriving DecidableEq

/-- The input ports of `three_sipp_es_core` in one cycle. -/
structure CoreIn extends ExtIn where
  imemRdata : Word
  dmemRdata : Word
  deriving DecidableEq

namespace Core

variable {P : Params} (s : Core P) (i : CoreIn)

/-! ## Stalls and freezes -/

def mdStall : Bool := s.f.fxValid && (decode s.f.fxInstr).isMd && !s.md.done

/-- `fe_stall` and `ex_freeze` are the same net. -/
def exFreeze : Bool := s.mdStall || s.w.memBeatStall

/-- EBREAK enters debug (not a trap) when `dcsr.ebreakm` is set. -/
def ebreakToDebug : Bool :=
  s.f.fxValid && s.f.fxInstr == 0x00100073#32 && s.dbg.dcsrEbreakm && !s.dbg.dbgMode

def stepHaltNow : Bool := s.dbg.stepActive && s.f.fxValid && !s.dbg.dbgMode

def dbgFreeze : Bool :=
  -- the request itself freezes the front end one clock before `halt_req` does
  s.dbg.dbgMode || s.dbg.haltReq || (i.dbgHaltreq && !s.dbg.dbgMode) ||
    s.ebreakToDebug || s.stepHaltNow

def dbgResumeNow : Bool := s.dbg.dbgMode && i.dbgResumereq

/-- Nothing left in X or W. -/
def pipeDrained : Bool := !s.f.fxValid && !s.w.xwValid

/-! ## Debug abstract access -/

def dbgDo : Bool := s.dbg.dbgMode && i.dbgArValid && !s.dbg.dbgArBusy
def dbgGprWe : Bool := s.dbgDo i && i.dbgArWrite && !i.dbgArCsr
def dbgCsrLocal : Bool :=
  i.dbgArRegno == 0x7b0#12 || i.dbgArRegno == 0x7b1#12 || i.dbgArRegno == 0x7b2#12
def dbgCsrWe : Bool := s.dbgDo i && i.dbgArWrite && i.dbgArCsr && !dbgCsrLocal i

/-! ## Register file ports and forwarding -/

def rfWe : Bool := s.dbgGprWe i || s.w.rfWe
def rfWa : BitVec 5 := if s.dbgGprWe i then i.dbgArRegno.extractLsb 4 0 else s.w.xw.rd
def rfWd : Word := if s.dbgGprWe i then i.dbgArWdata else s.w.wWb i.dmemRdata

/-- Debug GPR access steals the first read port while halted. -/
def rfRa1 : BitVec 5 :=
  if s.dbg.dbgMode && i.dbgArValid && !i.dbgArCsr then i.dbgArRegno.extractLsb 4 0
  else s.f.fxInstr.extractLsb 19 15

def rdata1 : Word := Regfile.read s.regs (s.rfWe i) (s.rfWa i) (s.rfWd i) (s.rfRa1 i)

def rdata2 : Word :=
  Regfile.read s.regs (s.rfWe i) (s.rfWa i) (s.rfWd i) (s.f.fxInstr.extractLsb 24 20)

def op1 : Word :=
  if s.w.fwd (s.f.fxInstr.extractLsb 19 15) then s.w.wWb i.dmemRdata else s.rdata1 i

def op2 : Word :=
  if s.w.fwd (s.f.fxInstr.extractLsb 24 20) then s.w.wWb i.dmemRdata else s.rdata2 i

/-! ## The X stage in this cycle -/

def xIn : XIn where
  fxValid := s.f.fxValid
  fxPc := s.f.fxPc
  fxInstr := s.f.fxInstr
  fxLen := s.f.fxLen
  fxPredTaken := s.f.fxPredTaken
  fxPredTarget := s.f.fxPredTarget
  op1 := s.op1 i
  op2 := s.op2 i
  exFreeze := s.exFreeze
  mdResult := s.md.result
  csr := s.csr
  ucsr := s.ucsr
  trig := s.trig
  irq := i.irq
  dcsrEbreakm := s.dbg.dcsrEbreakm
  dbgMode := s.dbg.dbgMode
  dbgFreeze := s.dbgFreeze i
  dbgCsrWe := s.dbgCsrWe i
  dbgArRegno := i.dbgArRegno
  dbgArWdata := i.dbgArWdata

/-- EBREAK-to-debug is squashed, never advances to W. -/
def xCommit : Bool := s.f.fxValid && !s.mdStall && !s.ebreakToDebug

def redirect : Option Word := (s.xIn i).redirect P

/-! ## The F stage in this cycle -/

/-- `ras_predict` -/
def rasPredict : Bool := Ras.fIsRet P (s.f.fetchedInstr i.imemRdata) && s.ras.valid

def predictTakenF : Bool := s.rasPredict i || s.bp.predictTaken s.f.pc

def predictTargetF : Word := if s.rasPredict i then s.ras.top else s.bp.predictTarget s.f.pc

def fetchIn : FetchIn where
  imemRdata := i.imemRdata
  redirect := s.redirect i
  dbgResumeNow := s.dbgResumeNow i
  dpc := s.dbg.dpc
  dbgFreeze := s.dbgFreeze i
  feStall := s.exFreeze
  predictTakenF := s.predictTakenF i
  predictTargetF := s.predictTargetF i

def bpUpdate : BpUpdate P where
  en := s.f.fxValid && !s.exFreeze && !(s.xIn i).exTrap P &&
    ((s.xIn i).dec.isBranch || (s.xIn i).dec.isJal)
  isBranch := (s.xIn i).dec.isBranch
  taken := (s.xIn i).brActualTaken
  isjal := (s.xIn i).dec.isJal
  pc := s.f.fxPc
  target := (s.xIn i).btgt
  ghist := s.f.fxGhist

/-! ## Multiply/divide handshake -/

/-- The start pulse of the M unit. -/
def mdStart : Bool :=
  s.f.fxValid && (decode s.f.fxInstr).isMd && !s.mdInflight && !s.md.busy

/-! ## Ports -/

/-- `imem_addr` -/
def imemAddr : Word := s.f.imemAddr

/-- `dcsr_val` -/
def dcsrVal : Word :=
  4#4 ++ 0#12 ++ BitVec.ofBool s.dbg.dcsrEbreakm ++ 0#6 ++ s.dbg.dcsrCause ++ 0#3 ++
    BitVec.ofBool s.dbg.dcsrStep ++ 0b11#2

/-- `dbg_ar_rdata` -/
def dbgArRdata : Word :=
  if !i.dbgArCsr then s.rdata1 i
  else if i.dbgArRegno = 0x7b0#12 then s.dcsrVal
  else if i.dbgArRegno = 0x7b1#12 then s.dbg.dpc
  else if i.dbgArRegno = 0x7b2#12 then s.dbg.dscratch0
  else (s.xIn i).csrRdEff P

/-! ## Clock -/

/-- Abstract register accesses while halted. The busy flag is held until the
request is withdrawn. -/
def dbgAccess : Dbg :=
  { (if s.dbgDo i && i.dbgArWrite && i.dbgArCsr then
      s.dbg.writeLocal i.dbgArRegno i.dbgArWdata else s.dbg) with
    dbgArDone := s.dbgDo i
    dbgArBusy := if !i.dbgArValid then false else s.dbgDo i || s.dbg.dbgArBusy }

/-- Halt requests while running: external, by EBREAK, or after one step. -/
def dbgHalt (d : Dbg) : Dbg :=
  if !s.dbg.dbgMode then
    { d with
      haltReq := d.haltReq || i.dbgHaltreq || s.ebreakToDebug || s.stepHaltNow
      dpcCap := if s.ebreakToDebug then s.f.fxPc else d.dpcCap
      dpcCapValid := d.dpcCapValid || s.ebreakToDebug }
  else d

/-- Enter debug mode once the pipeline has drained. -/
def dbgEnter (d : Dbg) : Dbg :=
  if s.dbg.haltReq && !s.dbg.dbgMode && s.pipeDrained then
    { d with
      dbgMode := true
      haltReq := false
      -- an EBREAK resumes at itself, any other halt at the next fetch
      dpc := if s.dbg.dpcCapValid then s.dbg.dpcCap else s.f.pc
      dcsrCause := if s.dbg.dpcCapValid then 1#3 else if s.dbg.stepActive then 4#3 else 3#3
      stepActive := false
      dpcCapValid := false }
  else d

/-- Resume, optionally armed for a single step. -/
def dbgResume (d : Dbg) : Dbg :=
  if s.dbg.dbgMode && i.dbgResumereq then
    { d with dbgMode := false, stepActive := s.dbg.dcsrStep }
  else d

/-- One clock of the core with `rst` low. -/
def step : Core P where
  f := s.f.step s.bp.ghist (s.fetchIn i)
  bp := s.bp.step (s.bpUpdate i)
  ras :=
    if !s.exFreeze && (s.redirect i).isNone && !s.dbgFreeze i && !s.f.needStraddle i.imemRdata then
      s.ras.update P (s.f.fetchedInstr i.imemRdata)
        (s.f.pc + (s.f.fetchedLen i.imemRdata).setWidth 32)
    else s.ras
  regs := Regfile.write s.regs (s.rfWe i) (s.rfWa i) (s.rfWd i)
  -- the unit latches its operands with the start pulse, whatever stalls X
  md := s.md.step s.mdStart (decode s.f.fxInstr).mdOp (s.op1 i) (s.op2 i)
  mdInflight := if s.md.done then false else s.mdInflight || s.mdStart
  csr := (s.xIn i).csrNext P s.w.retireValid
  ucsr := (s.xIn i).ucsrNext P
  trig := (s.xIn i).trigNext P
  w := s.w.step i.dmemRdata s.xCommit ((s.xIn i).xwNext P)
  -- in the order of the `if` statements: the last assignment wins
  dbg := s.dbgResume i (s.dbgEnter (s.dbgHalt i (s.dbgAccess i)))

/-- One clock with `rst` high. Registers without a reset value keep what they
held, and the register file still performs its write. -/
def reset : Core P where
  f := s.f.reset
  bp := s.bp.reset
  ras := { s.ras with rasPtr := 0#3, rasCnt := 0#4 }
  regs := Regfile.write s.regs (s.rfWe i) (s.rfWa i) (s.rfWd i)
  md := s.md.reset
  mdInflight := false
  csr := {}
  ucsr := {}
  trig := {}
  w := s.w.reset
  dbg := {}

end Core

end ThreeSippEs
