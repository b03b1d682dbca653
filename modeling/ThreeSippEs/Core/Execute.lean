import ThreeSippEs.Common.Csr
import ThreeSippEs.Common.Decode
import ThreeSippEs.Common.Pmp
import ThreeSippEs.Core.Writeback

/-!
# X stage: decode and execute (`three_sipp_es_core.sv`)

All nets of the execute stage as functions of `XIn`, the values the stage sees
in one cycle: the F/X register, the forwarded operands, the state of the three
CSR files and the freeze conditions. The N-extension overlay (user traps) and
the hardware triggers, which the source inlines here, are `Ucsr` and `Trig`.
-/

namespace ThreeSippEs

/-! ## State owned by the execute stage -/

/-- The N-extension registers. The source builds them only when `SECURE`; every
read of them is gated by `SECURE` there. -/
structure Ucsr where
  utvec : Word := 0#32
  uepc : Word := 0#32
  ucause : Word := 0#32
  utval : Word := 0#32
  uscratch : Word := 0#32
  medeleg : Word := 0#32
  uie : Word := 0#32
  uip : Word := 0#32
  ustatusUie : Bool := false
  ustatusUpie : Bool := false
  deriving DecidableEq

namespace Ucsr

def addrUstatus : BitVec 12 := 0x000#12
def addrUie : BitVec 12 := 0x004#12
def addrUtvec : BitVec 12 := 0x005#12
def addrUscratch : BitVec 12 := 0x040#12
def addrUepc : BitVec 12 := 0x041#12
def addrUcause : BitVec 12 := 0x042#12
def addrUtval : BitVec 12 := 0x043#12
def addrUip : BitVec 12 := 0x044#12
def addrMedeleg : BitVec 12 := 0x302#12

/-- The addresses routed to this block (`is_ucsr`, less its `USERTRAPS`). -/
def isAddr (a : BitVec 12) : Bool :=
  a == addrUstatus || a == addrUie || a == addrUtvec || a == addrUscratch || a == addrUepc ||
    a == addrUcause || a == addrUtval || a == addrUip || a == addrMedeleg

/-- `ucsr_rdata` -/
def rdata (u : Ucsr) (a : BitVec 12) : Word :=
  if a = addrUstatus then
    0#27 ++ BitVec.ofBool u.ustatusUpie ++ 0#3 ++ BitVec.ofBool u.ustatusUie
  else if a = addrUie then u.uie
  else if a = addrUtvec then u.utvec
  else if a = addrUscratch then u.uscratch
  else if a = addrUepc then u.uepc
  else if a = addrUcause then u.ucause
  else if a = addrUtval then u.utval
  else if a = addrUip then u.uip
  else if a = addrMedeleg then u.medeleg
  else 0#32

/-- A software write. -/
def write (u : Ucsr) (a : BitVec 12) (v : Word) : Ucsr :=
  if a = addrUstatus then { u with ustatusUie := v.getLsbD 0, ustatusUpie := v.getLsbD 4 }
  else if a = addrUie then { u with uie := v }
  else if a = addrUtvec then { u with utvec := v }
  else if a = addrUscratch then { u with uscratch := v }
  else if a = addrUepc then { u with uepc := v }
  else if a = addrUcause then { u with ucause := v }
  else if a = addrUtval then { u with utval := v }
  else if a = addrUip then { u with uip := v }
  else if a = addrMedeleg then { u with medeleg := v }
  else u

/-- A delegated trap: save the context, disable user interrupts. -/
def trapEntry (u : Ucsr) (pc : Word) (cause : BitVec 4) (tval : Word) : Ucsr :=
  { u with
    uepc := pc, ucause := cause.setWidth 32, utval := tval
    ustatusUpie := u.ustatusUie, ustatusUie := false }

/-- URET -/
def uretReturn (u : Ucsr) : Ucsr :=
  { u with ustatusUie := u.ustatusUpie, ustatusUpie := true }

end Ucsr

/-- The trigger registers: `NTRIG = 2` mcontrol6 slots. -/
structure Trig where
  tselect : BitVec 1 := 0#1
  tdata1Cfg : BitVec 1 → Word := fun _ => 0x60000000#32
  trigHit0 : BitVec 1 → Bool := fun _ => false
  tdata2 : BitVec 1 → Word := fun _ => 0#32

namespace Trig

def addrTselect : BitVec 12 := 0x7A0#12
def addrTdata1 : BitVec 12 := 0x7A1#12
def addrTdata2 : BitVec 12 := 0x7A2#12
def addrTinfo : BitVec 12 := 0x7A4#12

/-- `TTYPE_MC6` -/
def ttypeMc6 : BitVec 4 := 0x6#4

def isAddr (a : BitVec 12) : Bool :=
  a == addrTselect || a == addrTdata1 || a == addrTdata2 || a == addrTinfo

variable (t : Trig)

/-- `tdata1[g]`, with the sticky hit bit in place. -/
def tdata1 (g : BitVec 1) : Word :=
  (t.tdata1Cfg g).extractLsb 31 22 ++ BitVec.ofBool (t.trigHit0 g) ++
    (t.tdata1Cfg g).extractLsb 20 0

/-- `trig_csr_rdata` -/
def rdata (a : BitVec 12) : Word :=
  if a = addrTselect then t.tselect.setWidth 32
  else if a = addrTdata1 then t.tdata1 t.tselect
  else if a = addrTdata2 then t.tdata2 t.tselect
  else if a = addrTinfo then 0x00000041#32
  else 0#32

/-- A software write: `tdata1` forces the type, `tselect` ignores an index out
of range. -/
def write (a : BitVec 12) (v : Word) : Trig :=
  if a = addrTselect then (if v.ult 2#32 then { t with tselect := v.extractLsb 0 0 } else t)
  else if a = addrTdata1 then
    { t with
      tdata1Cfg := fun g =>
        if g = t.tselect then ttypeMc6 ++ v.extractLsb 27 0 else t.tdata1Cfg g
      trigHit0 := fun g => if g = t.tselect then v.getLsbD 21 else t.trigHit0 g }
  else if a = addrTdata2 then
    { t with tdata2 := fun g => if g = t.tselect then v else t.tdata2 g }
  else t

/-- `slot_en`: type 6 and match-in-M. -/
def slotEn (d1 : Word) : Bool := d1.extractLsb 31 28 == ttypeMc6 && d1.getLsbD 6
def slotExec (d1 : Word) : Bool := d1.getLsbD 2
def slotStore (d1 : Word) : Bool := d1.getLsbD 1
def slotLoad (d1 : Word) : Bool := d1.getLsbD 0
def slotAction (d1 : Word) : Bool := d1.getLsbD 12

/-- The result of the match over both slots. -/
structure Match where
  exec : Bool := false
  ldst : Bool := false
  action : Bool := false
  tval : Word := 0#32
  fireMask : BitVec 1 → Bool := fun _ => false

/-- The body of the match loop for slot `g`: the first slot that matches gives
the action and the trap value, every slot that matches is in the mask. -/
def matchSlot (pc addr : Word) (re we : Bool) (acc : Match) (g : BitVec 1) : Match :=
  let d1 := t.tdata1 g
  if slotEn d1 then
    let acc :=
      if slotExec d1 && pc == t.tdata2 g then
        let acc := { acc with fireMask := fun j => if j = g then true else acc.fireMask j }
        if !acc.exec && !acc.ldst then
          { acc with exec := true, action := slotAction d1, tval := pc }
        else acc
      else acc
    if ((slotLoad d1 && re) || (slotStore d1 && we)) && addr == t.tdata2 g then
      -- the mask takes every slot that matches, the action only the first
      let acc := { acc with fireMask := fun j => if j = g then true else acc.fireMask j }
      if !acc.exec && !acc.ldst then
        { acc with ldst := true, action := slotAction d1, tval := addr }
      else acc
    else acc
  else acc

/-- The match loop. -/
def matchAll (pc addr : Word) (re we : Bool) : Match :=
  t.matchSlot pc addr re we (t.matchSlot pc addr re we {} 0#1) 1#1

/-- Raise the sticky hit bit of the slots in `mask`. -/
def setHits (mask : BitVec 1 → Bool) : Trig :=
  { t with trigHit0 := fun g => if mask g then true else t.trigHit0 g }

end Trig

/-! ## What the stage sees -/

/-- The inputs of the X stage in one cycle. -/
structure XIn where
  fxValid : Bool
  fxPc : Word
  fxInstr : Word
  fxLen : BitVec 3
  fxPredTaken : Bool := false
  fxPredTarget : Word := 0#32
  /-- forwarded rs1 and rs2 -/
  op1 : Word
  op2 : Word
  /-- `ex_freeze = md_stall | mem_beat_stall` -/
  exFreeze : Bool
  mdResult : Word
  csr : Csr
  ucsr : Ucsr
  trig : Trig
  irq : IrqLines
  /-- debug controller -/
  dcsrEbreakm : Bool := false
  dbgMode : Bool := false
  dbgFreeze : Bool := false
  /-- abstract register access borrowing the CSR ports -/
  dbgCsrWe : Bool := false
  dbgArRegno : BitVec 12 := 0#12
  dbgArWdata : Word := 0#32

/-- The parameters the core gives its CSR file: RV32IMAC + B, and `NPMP = 8`
regions when `SECURE`. -/
def Params.csr (P : Params) : CsrParams where
  misaVal := 0x40001107#32
  uMode := P.secure
  pmpRegions := if P.secure then 8 else 0

namespace XIn

variable (P : Params) (x : XIn)

/-! ## Decode -/

def dec : Decoded := decode x.fxInstr
def funct3 : BitVec 3 := x.fxInstr.extractLsb 14 12
def rs1 : BitVec 5 := x.fxInstr.extractLsb 19 15
def rs2 : BitVec 5 := x.fxInstr.extractLsb 24 20
def rd : BitVec 5 := x.fxInstr.extractLsb 11 7
def sysImm12 : BitVec 12 := x.fxInstr.extractLsb 31 20

def isAmo : Bool := x.fxInstr.extractLsb 6 0 == 0b0101111#7 && x.funct3 == 0b010#3
def amoF5 : BitVec 5 := x.fxInstr.extractLsb 31 27
def isLr : Bool := x.isAmo && x.amoF5 == 0b00010#5
def isSc : Bool := x.isAmo && x.amoF5 == 0b00011#5
def isAmoRmw : Bool := x.isAmo && !x.isLr && !x.isSc

def amoValid : Bool :=
  x.isAmo &&
    ((x.amoF5 == 0b00010#5 && x.rs2 == 0#5) ||
      x.amoF5 == 0b00011#5 || x.amoF5 == 0b00001#5 ||
      x.amoF5 == 0b00000#5 || x.amoF5 == 0b00100#5 ||
      x.amoF5 == 0b01100#5 || x.amoF5 == 0b01000#5 ||
      x.amoF5 == 0b10000#5 || x.amoF5 == 0b10100#5 ||
      x.amoF5 == 0b11000#5 || x.amoF5 == 0b11100#5)

def isFencei : Bool := x.fxInstr.extractLsb 6 0 == 0b0001111#7 && x.funct3 == 0b001#3
def isUret : Bool := P.secure && x.fxInstr == 0x00200073#32
def illegalEff : Bool := x.dec.illegal && !x.amoValid && !x.isUret P

/-! ## ALU and branch comparator -/

def aluA : Word := if x.dec.usePc then x.fxPc else x.op1
def aluB : Word := if x.dec.useImm then x.dec.idImm else x.op2
def aluY : Word := Alu.y x.dec.aluOp x.aluA x.aluB
def brTaken : Bool := Branch.taken x.dec.brOp x.op1 x.op2

/-! ## CSR access -/

def csrAddrEff : BitVec 12 := if x.dbgMode then x.dbgArRegno else x.sysImm12
def isUcsr : Bool := P.secure && Ucsr.isAddr x.csrAddrEff
def isTrigCsr : Bool := Trig.isAddr x.csrAddrEff
def csrFn : BitVec 2 := x.funct3.extractLsb 1 0
def csrImmMode : Bool := x.funct3.getLsbD 2
def csrSrc : Word := if x.csrImmMode then x.rs1.setWidth 32 else x.op1

def csrRdEff : Word :=
  if x.isTrigCsr then x.trig.rdata x.csrAddrEff
  else if x.isUcsr P then x.ucsr.rdata x.csrAddrEff
  else x.csr.rdata P.csr x.irq x.csrAddrEff

def csrWval : Word :=
  if x.csrFn = 0b01#2 then x.csrSrc
  else if x.csrFn = 0b10#2 then x.csrRdEff P ||| x.csrSrc
  else if x.csrFn = 0b11#2 then x.csrRdEff P &&& ~~~x.csrSrc
  else x.csrRdEff P

def csrDoWrite : Bool := x.dec.isCsr && !(x.csrFn != 0b01#2 && x.rs1 == 0#5)
def csrWdataEff : Word := if x.dbgMode then x.dbgArWdata else x.csrWval P

/-! ## Privilege and PMP -/

def privLow : Bool := P.secure && x.csr.priv != 0b11#2
def csrPrivFault : Bool := x.privLow P && x.dec.isCsr && x.sysImm12.extractLsb 9 8 != 0b00#2
def mretPrivFault : Bool := x.privLow P && x.dec.isMret
def csrRoFault : Bool := x.dec.isCsr && x.csrDoWrite && x.sysImm12.extractLsb 11 10 == 0b11#2
def privFault : Bool := x.csrPrivFault P || x.mretPrivFault P || x.csrRoFault

/-- Loads and stores use the ALU address, AMO/LR/SC address memory with rs1. -/
def lsAddr : Word := if x.amoValid then x.op1 else x.aluY
def lsRe : Bool := x.dec.memRe || (x.amoValid && !x.isSc)
def lsWe : Bool := x.dec.memWe || (x.amoValid && !x.isLr)

/-- A PMP checker on the configuration held by the CSR file. -/
def pmpFault (c : Csr) (addr : Word) (acc : Pmp.Access) : Bool :=
  Pmp.fault (n := 8) (fun i => c.pmpcfg (BitVec.ofNat 4 i.val))
    (fun i => c.pmpaddr (BitVec.ofNat 4 i.val)) addr acc { mmwp := c.mmwp, mml := c.mml }

/-- `u_pmp_if` -/
def pmpFetchFault : Bool := pmpFault x.csr x.fxPc { privM := x.csr.fetchM, doX := true }

/-- `u_pmp_ls` -/
def pmpDataFault : Bool :=
  pmpFault x.csr x.lsAddr { privM := x.csr.dataM P.csr, doR := x.lsRe, doW := x.lsWe }

def accFetchFault : Bool := P.secure && x.fxValid && x.pmpFetchFault
def accLoadFault : Bool := P.secure && x.fxValid && x.lsRe && !x.lsWe && x.pmpDataFault P
def accStoreFault : Bool := P.secure && x.fxValid && x.lsWe && x.pmpDataFault P
def accFault : Bool := x.accFetchFault P || x.accLoadFault P || x.accStoreFault P

/-! ## Triggers -/

def trigChkValid : Bool := x.fxValid && !x.exFreeze && !x.dbgMode

/-- `trig_exec`, `trig_ldst`, `trig_action_w`, `trig_tval_w` and `trig_fire_mask`. -/
def trigMatch : Trig.Match :=
  if x.trigChkValid then
    x.trig.matchAll x.fxPc x.aluY (x.fxValid && x.dec.memRe) (x.fxValid && x.dec.memWe)
  else {}

def trigFire : Bool := x.trigMatch.exec || x.trigMatch.ldst
/-- action=1: enter debug -/
def trigToDebug : Bool := x.trigFire && x.trigMatch.action
/-- action=0: breakpoint exception -/
def trigToExc : Bool := x.trigFire && !x.trigMatch.action

/-! ## Traps and interrupts -/

def illegalAll : Bool := x.illegalEff P || x.privFault P

def archTrap : Bool :=
  x.fxValid && (x.illegalAll P || x.dec.isEcall || (x.dec.isEbreak && !x.dcsrEbreakm) ||
    x.accFault P)

def exTrap : Bool := (x.archTrap P || x.trigToExc) && !x.trigToDebug

def exCause : BitVec 4 :=
  -- `ex_tval` below goes through the same conditions in another order
  if x.accFetchFault P then 1#4
  else if x.illegalAll P then causeIllegal
  else if x.dec.isEcall then (if x.csr.priv = 0b00#2 then 8#4 else causeEcallM)
  else if x.dec.isEbreak then causeBreakpoint
  else if x.accLoadFault P then 5#4
  else if x.accStoreFault P then 7#4
  else if x.trigToExc then causeBreakpoint
  else causeIllegal

def exTval : Word :=
  if x.accFetchFault P then x.fxPc
  else if x.accLoadFault P || x.accStoreFault P then x.lsAddr
  else if x.dec.isEbreak then x.fxPc
  else if x.illegalAll P then x.fxInstr
  else if x.trigToExc then x.trigMatch.tval
  else 0#32

def irqReq : Bool := x.csr.irqReq x.irq

/-- `take_irq`: an interrupt on a simple committing instruction. -/
def takeIrq : Bool :=
  x.fxValid && !x.exFreeze && x.irqReq && !x.exTrap P && !x.dbgFreeze &&
    !x.dec.isMret && !x.isUret P &&
    !x.dec.isCsr && !x.dec.isJal && !x.dec.isJalr && !x.dec.isBranch

def irqEpc : Word := x.fxPc + x.fxLen.setWidth 32

def delegTrap : Bool :=
  P.secure && x.csr.priv == 0b00#2 && x.exTrap P && !x.exFreeze &&
    x.ucsr.medeleg.getLsbD (x.exCause P).toNat

def mTrapSet : Bool := (x.exTrap P && !x.exFreeze && !x.delegTrap P) || x.takeIrq P

def csrWeEff : Bool :=
  if x.dbgMode then x.dbgCsrWe else x.fxValid && x.csrDoWrite && !x.exTrap P && !x.exFreeze

def trigCsrWe : Bool := x.csrWeEff P && x.isTrigCsr
def ucsrWe : Bool := x.csrWeEff P && x.isUcsr P

/-- `.mret(...)` of the CSR file -/
def csrMret : Bool := x.fxValid && x.dec.isMret && !x.mretPrivFault P && !x.exFreeze

/-! ## Redirect -/

def jalrT : Word := (x.op1 + x.dec.idImm) &&& ~~~1#32
def btgt : Word := x.fxPc + x.dec.idImm
def seqNx : Word := x.fxPc + x.fxLen.setWidth 32
def brActualTaken : Bool := x.dec.isJal || (x.dec.isBranch && x.brTaken)
def brActualNext : Word := if x.brActualTaken then x.btgt else x.seqNx
def predNext : Word := if x.fxPredTaken then x.fxPredTarget else x.seqNx

def mispredict : Bool :=
  P.bpred && (x.dec.isBranch || x.dec.isJal) && x.brActualNext != x.predNext

/-- `redirect` and `redirect_target`: `none` when `redirect` is low. -/
def redirect : Option Word :=
  if x.fxValid && !x.exFreeze then
    -- a trap wins over what the instruction would do to the PC
    if x.exTrap P then some (if x.delegTrap P then x.ucsr.utvec else x.csr.mtvec)
    else if x.isUret P then some x.ucsr.uepc
    else if x.dec.isMret then some x.csr.mepc
    else if x.dec.isJalr then
      -- a jump that was predicted right needs no redirect
      if !P.bpred || x.jalrT != x.predNext then some x.jalrT else none
    else if x.dec.isJal || x.dec.isBranch then
      if (if P.bpred then x.mispredict P else x.brActualTaken) then some x.brActualNext else none
    -- FENCE.I fetches its successor again
    else if x.isFencei then some x.seqNx
    else if x.takeIrq P then some x.csr.mtvec
    else none
  else none

/-! ## X result and the X/W register -/

def xResult : Word :=
  match x.dec.wbSel with
  | .pc4 => x.fxPc + x.fxLen.setWidth 32
  | .csr => x.csrRdEff P
  | .md => x.mdResult
  | _ => x.aluY

def xBe : BitVec 4 :=
  if !x.dec.memWe then 0b0000#4
  else if x.dec.memWidth = 0#2 then 0b0001#4 <<< (x.aluY.extractLsb 1 0).toNat
  else if x.dec.memWidth = 1#2 then (if x.aluY.getLsbD 1 then 0b1100#4 else 0b0011#4)
  else 0b1111#4

/-- `x_store`: the store data, replicated over the lanes. -/
def xStore : Word :=
  if x.dec.memWidth = 0#2 then
    x.op2.extractLsb 7 0 ++ x.op2.extractLsb 7 0 ++ x.op2.extractLsb 7 0 ++ x.op2.extractLsb 7 0
  else if x.dec.memWidth = 1#2 then x.op2.extractLsb 15 0 ++ x.op2.extractLsb 15 0
  else x.op2

/-- What the X/W register takes over from X. -/
def xwNext : XwReg where
  pc := x.fxPc
  instr := x.fxInstr
  result := x.xResult P
  storeData := x.xStore
  rd := x.rd
  regWe := (x.dec.regWe || x.amoValid) && !x.exTrap P
  memRe := x.dec.memRe && !x.exTrap P
  memWe := x.dec.memWe && !x.exTrap P
  memWidth := x.dec.memWidth
  addrLo := x.aluY.extractLsb 1 0
  memUnsigned := x.dec.memUnsigned
  be := x.xBe
  isAmo := x.amoValid && !x.exTrap P
  isLr := x.isLr
  isSc := x.isSc
  isAmoRmw := x.isAmoRmw
  amoF5 := x.amoF5
  amoAddr := x.op1
  amoB := x.op2

/-! ## Next state of the CSR files -/

/-- The inputs of `u_csr`. The event strobes are left unconnected. -/
def csrIn (retire : Bool) : CsrIn where
  addr := x.csrAddrEff
  we := x.csrWeEff P && !x.isTrigCsr && !x.isUcsr P
  wdata := x.csrWdataEff P
  trapSet := x.mTrapSet P
  trapCause := if x.exTrap P then x.exCause P else x.csr.irqCause x.irq
  trapInterrupt := x.takeIrq P
  trapEpc := if x.exTrap P then x.fxPc else x.irqEpc
  trapTval := x.exTval P
  mret := x.csrMret P
  retire := retire
  evBranch := false
  evBrtaken := false
  evLoad := false
  evStore := false

def csrNext (retire : Bool) : Csr := x.csr.step P.csr (x.csrIn P retire)

def ucsrNext : Ucsr :=
  if P.secure then
    -- URET counts even when it traps
    if x.delegTrap P then x.ucsr.trapEntry x.fxPc (x.exCause P) (x.exTval P)
    else if x.fxValid && x.isUret P && !x.exFreeze then x.ucsr.uretReturn
    else if x.ucsrWe P then x.ucsr.write x.csrAddrEff (x.csrWdataEff P)
    else x.ucsr
  else x.ucsr

def trigNext : Trig :=
  let t := if x.trigCsrWe P then x.trig.write x.csrAddrEff (x.csrWdataEff P) else x.trig
  if x.trigFire then t.setHits x.trigMatch.fireMask else t

end XIn

end ThreeSippEs
