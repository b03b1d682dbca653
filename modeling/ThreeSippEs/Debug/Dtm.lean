import ThreeSippEs.Debug.DebugModule
import ThreeSippEs.Lib.ShiftRegister

/-!
# The Debug Transport Module (`three_sipp_es_debug.sv`)

The JTAG side of the Debug Module: TCK oversampling, the TAP, the instruction
register and the data registers. It shares one process with the DM registers;
`DebugUnit` puts the two together. The reset reaches only `tap` and `ir` here.
-/

namespace ThreeSippEs

open ShiftRegister

/-- The states of the TAP (IEEE 1149.1). -/
inductive Tap where
  | tlr | rti | selDr | capDr | shfDr | ex1Dr | pauDr | ex2Dr | updDr
  | selIr | capIr | shfIr | ex1Ir | pauIr | ex2Ir | updIr
  deriving DecidableEq, Repr

/-- The transition at a rising edge of TCK. -/
def Tap.next (t : Tap) (tms : Bool) : Tap :=
  match t with
  | .tlr => if tms then .tlr else .rti
  | .rti => if tms then .selDr else .rti
  | .selDr => if tms then .selIr else .capDr
  | .capDr => if tms then .ex1Dr else .shfDr
  | .shfDr => if tms then .ex1Dr else .shfDr
  | .ex1Dr => if tms then .updDr else .pauDr
  | .pauDr => if tms then .ex2Dr else .pauDr
  | .ex2Dr => if tms then .updDr else .shfDr
  | .updDr => if tms then .selDr else .rti
  | .selIr => if tms then .tlr else .capIr
  | .capIr => if tms then .ex1Ir else .shfIr
  | .shfIr => if tms then .ex1Ir else .shfIr
  | .ex1Ir => if tms then .updIr else .pauIr
  | .pauIr => if tms then .ex2Ir else .pauIr
  | .ex2Ir => if tms then .updIr else .shfIr
  | .updIr => if tms then .selDr else .rti

/-- The JTAG pins in one clock. -/
structure Pins where
  tck : Bool := false
  tms : Bool := false
  tdi : Bool := false
  deriving DecidableEq

/-- The registers of the transport. -/
structure Dtm where
  tckS : BitVec 2 := 0#2
  tmsS : BitVec 2 := 0#2
  tdiS : BitVec 2 := 0#2
  tap : Tap := .tlr
  ir : BitVec 5 := 0x01#5
  irShift : BitVec 5 := 0#5
  /-- sized to the widest data register, DMI -/
  dr : BitVec 41 := 0#41
  bypassBit : Bool := false
  dmiRdata : Word := 0#32
  dmiRstat : BitVec 2 := 0#2
  dmiWePulse : Bool := false
  dmiWeAddr : BitVec 7 := 0#7
  dmiWeData : Word := 0#32
  deriving DecidableEq

namespace Dtm

variable (idcode : Word) (d : Dtm)

def irIdcode : BitVec 5 := 0x01#5
def irDtmcs : BitVec 5 := 0x10#5
def irDmi : BitVec 5 := 0x11#5

def tckRise : Bool := d.tckS == 0b01#2
def tmsQ : Bool := d.tmsS.getLsbD 1
def tdiQ : Bool := d.tdiS.getLsbD 1

/-- `dtmcs_val`: idle 1, dmistat 0, abits 7, version 1 (0.13). The source concatenates
29 bits. -/
def dtmcsVal : Word := 0#17 ++ 1#3 ++ 0#2 ++ 7#6 ++ 1#4

/-! ## The fields of a DMI request -/

def dmiAddr (r : BitVec 41) : BitVec 7 := r.extractLsb 40 34
def dmiData (r : BitVec 41) : Word := r.extractLsb 33 2
def dmiOp (r : BitVec 41) : BitVec 2 := r.extractLsb 1 0

/-- What Capture-DR loads for DMI. -/
def dmiCapture : BitVec 41 := 0#7 ++ d.dmiRdata ++ d.dmiRstat

def tdo : Bool :=
  if d.ir = irIdcode then d.dr.getLsbD 0
  else if d.ir = irDtmcs then d.dr.getLsbD 0
  else if d.ir = irDmi then d.dr.getLsbD 0
  else d.bypassBit

/-! ## The processes -/

/-- A synchroniser takes a sample in; it has no reset. -/
def sync (q : BitVec 2) (b : Bool) : BitVec 2 := BitVec.ofBool (q.getLsbD 0) ++ BitVec.ofBool b

/-- The instruction register. -/
def irNext : BitVec 5 :=
  if d.tap = .tlr then irIdcode else if d.tap = .updIr then d.irShift else d.ir

/-- Its shift register. -/
def irShiftNext : BitVec 5 :=
  if d.tap = .capIr then 0b00001#5
  else if d.tap = .shfIr then shiftIn d.irShift d.tdiQ
  else d.irShift

/-- Capture-DR -/
def captureDr : Dtm :=
  { d with
    dr :=
      if d.ir = irIdcode then 0#9 ++ idcode
      else if d.ir = irDtmcs then 0#9 ++ dtmcsVal
      else if d.ir = irDmi then d.dmiCapture
      else 0#41 }

/-- Shift-DR; a register of 32 bits takes the bit in at its own top. -/
def shiftDr : Dtm :=
  if d.ir = irIdcode ∨ d.ir = irDtmcs then
    { d with dr := 0#9 ++ shiftIn (d.dr.extractLsb' 0 32) d.tdiQ }
  else if d.ir = irDmi then { d with dr := shiftIn d.dr d.tdiQ }
  else { d with bypassBit := d.tdiQ }

/-- Update-DR: op 1 reads, op 2 writes. -/
def updateDr (dmRead : BitVec 7 → Word) : Dtm :=
  if d.ir = irDmi then
    -- the answer of a read waits for the next Capture-DR
    if dmiOp d.dr = 1#2 then { d with dmiRdata := dmRead (dmiAddr d.dr), dmiRstat := 0#2 }
    else if dmiOp d.dr = 2#2 then
      { d with
        dmiWePulse := true
        dmiWeAddr := dmiAddr d.dr
        dmiWeData := dmiData d.dr
        dmiRstat := 0#2 }
    else d
  else d

/-- `dmi_we_pulse` is a pulse. -/
def pulseLow : Dtm := { d with dmiWePulse := false }

/-- The data registers in a clock without reset. -/
def drNext (dmRead : BitVec 7 → Word) : Dtm :=
  if d.tckRise then
    match d.tap with
    | .capDr => d.pulseLow.captureDr idcode
    | .shfDr => d.pulseLow.shiftDr
    | .updDr => d.pulseLow.updateDr dmRead
    | _ => d.pulseLow
  else d.pulseLow

/-- One clock; a reset leaves the data registers alone. -/
def step (rst : Bool) (p : Pins) (dmRead : BitVec 7 → Word) : Dtm :=
  -- the pulse of a write keeps its value under reset
  let next := if rst then d else d.drNext idcode dmRead
  { next with
    tckS := sync d.tckS p.tck
    tmsS := sync d.tmsS p.tms
    tdiS := sync d.tdiS p.tdi
    tap := if rst then .tlr else if d.tckRise then d.tap.next d.tmsQ else d.tap
    ir := if rst then irIdcode else if d.tckRise then d.irNext else d.ir
    irShift := if !rst && d.tckRise then d.irShiftNext else d.irShift }

end Dtm

/-! ## The whole unit -/

/-- The inputs of `three_sipp_es_debug`. -/
structure DebugIn extends Pins where
  rst : Bool := false
  dbgHalted : Bool := false
  dbgArRdata : Word := 0#32
  dbgArDone : Bool := false
  dmMemRdata : Word := 0#32
  dmMemReady : Bool := false
  deriving DecidableEq

structure DebugUnit where
  dtm : Dtm := {}
  dm : DebugModule := {}
  deriving DecidableEq

namespace DebugUnit

variable (idcode : Word) (u : DebugUnit) (i : DebugIn)

/-- What the DM registers see in one clock, with the DMI write `w`. -/
def dmIn (w : Option (BitVec 7 × Word)) : DmIn where
  dmiWePulse := w.isSome
  dmiWeAddr := (w.getD (u.dtm.dmiWeAddr, u.dtm.dmiWeData)).1
  dmiWeData := (w.getD (u.dtm.dmiWeAddr, u.dtm.dmiWeData)).2
  dbgHalted := i.dbgHalted
  dbgArRdata := i.dbgArRdata
  dbgArDone := i.dbgArDone
  dmMemRdata := i.dmMemRdata
  dmMemReady := i.dmMemReady

/-- The DMI write that is applied to the DM registers in this clock. -/
def applied : Option (BitVec 7 × Word) :=
  if u.dtm.dmiWePulse && !i.rst then some (u.dtm.dmiWeAddr, u.dtm.dmiWeData) else none

/-- One clock. -/
def step : DebugUnit where
  dtm := u.dtm.step idcode i.rst i.toPins (u.dm.dmRead i.dbgHalted)
  dm := if i.rst then .reset else u.dm.step (u.dmIn i (u.applied i))

end DebugUnit

end ThreeSippEs
