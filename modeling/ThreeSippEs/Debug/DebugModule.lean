import ThreeSippEs.Common.Pkg
import ThreeSippEs.Lib.Clocked

/-!
# The Debug Module (`three_sipp_es_debug.sv`)

The register file behind the DMI and the engine that serves abstract commands
and System Bus accesses, from the latched DMI write to the ports of the hart and
of the bus. Both are assigned in one process: where a DMI write and the engine
assign the same register in one clock, the engine, which comes last, wins.
-/

namespace ThreeSippEs

/-- The states of the engine, `eng`. -/
inductive Eng where
  /-- `E_IDLE` -/
  | idle
  /-- `E_AR` -/
  | ar
  /-- `E_AR_WAIT` -/
  | arWait
  /-- `E_SB_RD` -/
  | sbRd
  /-- `E_SB_WR` -/
  | sbWr
  /-- `E_SB_WAIT` -/
  | sbWait
  deriving DecidableEq, Repr

/-- The registers of the Debug Module, with the values of its reset. -/
structure DebugModule where
  dmactive : Bool := false
  ndmresetR : Bool := false
  haltreqR : Bool := false
  /-- sticky: the hart acknowledged a resume -/
  resumeack : Bool := false
  havereset : Bool := false
  absBusy : Bool := false
  /-- 0 none, 2 not supported -/
  cmderr : BitVec 3 := 0#3
  data0 : Word := 0#32
  sbaddress0 : Word := 0#32
  sbdata0 : Word := 0#32
  /-- log2 of the bytes; 2 is a word -/
  sbaccess : BitVec 3 := 2#3
  sbautoincrement : Bool := false
  sbreadonaddr : Bool := false
  sbreadondata : Bool := false
  sberror : BitVec 3 := 0#3
  dbgResumereq : Bool := false
  dbgArValid : Bool := false
  dbgArWrite : Bool := false
  dbgArCsr : Bool := false
  dbgArRegno : BitVec 12 := 0#12
  dbgArWdata : Word := 0#32
  dmMemValid : Bool := false
  dmMemWrite : Bool := false
  dmMemAddr : Word := 0#32
  dmMemWdata : Word := 0#32
  eng : Eng := .idle
  deriving DecidableEq

/-- What the Debug Module sees in one clock: the latched DMI write, the hart and
the bus. -/
structure DmIn where
  dmiWePulse : Bool := false
  dmiWeAddr : BitVec 7 := 0#7
  dmiWeData : Word := 0#32
  dbgHalted : Bool := false
  dbgArRdata : Word := 0#32
  dbgArDone : Bool := false
  dmMemRdata : Word := 0#32
  dmMemReady : Bool := false
  deriving DecidableEq

namespace DebugModule

variable (s : DebugModule) (i : DmIn)

def dbgHaltreq : Bool := s.haltreqR && s.dmactive
def ndmreset : Bool := s.ndmresetR

/-! ## DMI addresses -/

def addrData0 : BitVec 7 := 0x04#7
def addrDmcontrol : BitVec 7 := 0x10#7
def addrDmstatus : BitVec 7 := 0x11#7
def addrAbstractcs : BitVec 7 := 0x16#7
def addrCommand : BitVec 7 := 0x17#7
def addrSbcs : BitVec 7 := 0x38#7
def addrSbaddress0 : BitVec 7 := 0x39#7
def addrSbdata0 : BitVec 7 := 0x3C#7

/-! ## Reads -/

/-- `dmstatus_val`: version 2 (0.13), authenticated. The source concatenates 30
bits. -/
def dmstatusVal (halted : Bool) : Word :=
  0#14 ++ BitVec.ofBool s.resumeack ++ BitVec.ofBool s.resumeack ++ 0#4 ++
    BitVec.ofBool (!halted) ++ BitVec.ofBool (!halted) ++ BitVec.ofBool halted ++
    BitVec.ofBool halted ++ 1#1 ++ 0#3 ++ 2#4

/-- `dmcontrol_val` -/
def dmcontrolVal : Word :=
  BitVec.ofBool s.haltreqR ++ 0#2 ++ BitVec.ofBool s.havereset ++ 0#26 ++
    BitVec.ofBool s.ndmresetR ++ BitVec.ofBool s.dmactive

/-- `abstractcs_val`: one data register, no program buffer. The source concatenates
28 bits. -/
def abstractcsVal : Word :=
  0#23 ++ BitVec.ofBool s.absBusy ++ 0#1 ++ s.cmderr ++ 1#4

/-- `sbcs_val`: version 1, 32-bit addresses and accesses. -/
def sbcsVal : Word :=
  1#3 ++ 0#8 ++ BitVec.ofBool s.sbreadonaddr ++ s.sbaccess ++ BitVec.ofBool s.sbautoincrement ++
    BitVec.ofBool s.sbreadondata ++ s.sberror ++ 32#7 ++ 0b00100#5

/-- `dm_read` -/
def dmRead (halted : Bool) (a : BitVec 7) : Word :=
  if a = addrData0 then s.data0
  else if a = addrDmcontrol then s.dmcontrolVal
  else if a = addrDmstatus then s.dmstatusVal halted
  else if a = addrAbstractcs then s.abstractcsVal
  else if a = addrSbcs then s.sbcsVal
  else if a = addrSbaddress0 then s.sbaddress0
  else if a = addrSbdata0 then s.sbdata0
  else 0#32

/-! ## Writes -/

/-- `start_access_reg` -/
def startAccessReg (cmd : Word) : DebugModule :=
  -- only Access Register is supported; without `transfer` it does nothing
  if cmd.extractLsb 31 24 ≠ 0#8 then { s with cmderr := 2#3 }
  else if cmd.getLsbD 17 then
    { s with
      absBusy := true
      dbgArRegno := cmd.extractLsb 11 0
      dbgArCsr := cmd.extractLsb 15 12 == 0x0#4
      dbgArWrite := cmd.getLsbD 16
      dbgArWdata := s.data0
      dbgArValid := true
      eng := .arWait }
  else s

/-- A write of `dmcontrol`. -/
def writeDmcontrol (v : Word) (halted : Bool) : DebugModule :=
  if !v.getLsbD 0 then { s with dmactive := false, haltreqR := false, ndmresetR := false }
  else
    { s with
      dmactive := true
      ndmresetR := v.getLsbD 1
      haltreqR := v.getLsbD 31
      dbgResumereq := if v.getLsbD 30 && halted then true else s.dbgResumereq
      resumeack := if v.getLsbD 30 && halted then true else s.resumeack
      havereset := if v.getLsbD 28 then false else s.havereset }

/-- A write of `sbcs`; `sberror` is cleared by writing ones. -/
def writeSbcs (v : Word) : DebugModule :=
  { s with
    sbreadonaddr := v.getLsbD 20
    sbaccess := v.extractLsb 19 17
    sbautoincrement := v.getLsbD 16
    sbreadondata := v.getLsbD 15
    sberror := if v.extractLsb 14 12 ≠ 0#3 then 0#3 else s.sberror }

/-- A write of `sbaddress0` starts a read with `sbreadonaddr`. -/
def writeSbaddress0 (v : Word) : DebugModule :=
  let s := { s with sbaddress0 := v }
  -- the engine is not asked whether it is free
  if s.sbreadonaddr then
    { s with dmMemValid := true, dmMemWrite := false, dmMemAddr := v, eng := .sbRd }
  else s

/-- A write of `sbdata0` starts a write. -/
def writeSbdata0 (v : Word) : DebugModule :=
  { s with
    sbdata0 := v
    dmMemValid := true
    dmMemWrite := true
    dmMemAddr := s.sbaddress0
    dmMemWdata := v
    eng := .sbWr }

/-- The DMI write of one clock; `dbg_resumereq` is a pulse. -/
def dmiWrite : DebugModule :=
  let s := { s with dbgResumereq := false }
  let v := i.dmiWeData
  if i.dmiWePulse then
    if i.dmiWeAddr = addrData0 then { s with data0 := v }
    else if i.dmiWeAddr = addrDmcontrol then s.writeDmcontrol v i.dbgHalted
    else if i.dmiWeAddr = addrAbstractcs then (if v.getLsbD 8 then { s with cmderr := 0#3 } else s)
    -- a command while one is running is dropped without `cmderr`
    else if i.dmiWeAddr = addrCommand then (if !s.absBusy then s.startAccessReg v else s)
    else if i.dmiWeAddr = addrSbcs then s.writeSbcs v
    else if i.dmiWeAddr = addrSbaddress0 then s.writeSbaddress0 v
    else if i.dmiWeAddr = addrSbdata0 then s.writeSbdata0 v
    else s
  else s

/-- What the engine, in the state of `s`, assigns on top of the DMI write `d`. -/
def engine (d : DebugModule) : DebugModule :=
  match s.eng with
  | .arWait =>
    if i.dbgArDone then
      { d with
        dbgArValid := false
        data0 := if !s.dbgArWrite then i.dbgArRdata else d.data0
        absBusy := false
        eng := .idle }
    else { d with dbgArValid := true }
  | .sbRd =>
    let d := { d with dmMemValid := false }
    if i.dmMemReady then
      { d with
        sbdata0 := i.dmMemRdata
        sbaddress0 := if s.sbautoincrement then s.sbaddress0 + 4#32 else d.sbaddress0
        eng := .idle }
    else d
  | .sbWr =>
    let d := { d with dmMemValid := false }
    if i.dmMemReady then
      { d with
        sbaddress0 := if s.sbautoincrement then s.sbaddress0 + 4#32 else d.sbaddress0
        eng := .idle }
    else d
  | _ => d

/-- One clock of the Debug Module. -/
def step : DebugModule := s.engine i (s.dmiWrite i)

/-- The state out of reset. -/
def reset : DebugModule := {}

/-- The state `n` clocks after a reset. -/
def runFrom (ins : Nat → DmIn) (n : Nat) : DebugModule := Clocked.run step reset ins n

end DebugModule

end ThreeSippEs
