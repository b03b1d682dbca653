import ThreeSippEs.Common.Datapath

/-!
# W stage: memory access and writeback (`three_sipp_es_core.sv`)

The X/W register, the two-beat memory sequencer, the LR/SC reservation and the
data port. Everything the stage drives in a cycle is a function of its own
registers and of `dmem_rdata`, so its outputs do not depend on the other stages.
-/

namespace ThreeSippEs

/-- The payload of the X/W pipeline register (`xw_*`). -/
structure XwReg where
  pc : Word := 0#32
  instr : Word := 0#32
  result : Word := 0#32
  storeData : Word := 0#32
  rd : BitVec 5 := 0#5
  regWe : Bool := false
  memRe : Bool := false
  memWe : Bool := false
  memWidth : BitVec 2 := 0#2
  addrLo : BitVec 2 := 0#2
  memUnsigned : Bool := false
  be : BitVec 4 := 0#4
  isAmo : Bool := false
  isLr : Bool := false
  isSc : Bool := false
  isAmoRmw : Bool := false
  amoF5 : BitVec 5 := 0#5
  /-- AMO address (rs1) -/
  amoAddr : Word := 0#32
  /-- AMO operand (rs2) -/
  amoB : Word := 0#32
  deriving DecidableEq

namespace XwReg

variable (r : XwReg)

/-- A misaligned access that crosses a word boundary and needs a second beat. -/
def crosses : Bool :=
  (r.memRe || r.memWe) &&
    ((r.memWidth == 2#2 && r.addrLo != 0b00#2) || (r.memWidth == 1#2 && r.addrLo == 0b11#2))

/-- `amo_addr_al` -/
def amoAddrAl : Word := r.amoAddr.extractLsb 31 2 ++ 0b00#2

/-- `amo_res`: what an AMO stores, from the word it loaded. -/
def amoRes (old : Word) : Word :=
  -- swap, add, xor, and, or, then min, max, minu, maxu
  if r.amoF5 = 0b00001#5 then r.amoB
  else if r.amoF5 = 0b00000#5 then old + r.amoB
  else if r.amoF5 = 0b00100#5 then old ^^^ r.amoB
  else if r.amoF5 = 0b01100#5 then old &&& r.amoB
  else if r.amoF5 = 0b01000#5 then old ||| r.amoB
  else if r.amoF5 = 0b10000#5 then (if old.slt r.amoB then old else r.amoB)
  else if r.amoF5 = 0b10100#5 then (if r.amoB.slt old then old else r.amoB)
  else if r.amoF5 = 0b11000#5 then (if old.ult r.amoB then old else r.amoB)
  else if r.amoF5 = 0b11100#5 then (if r.amoB.ult old then old else r.amoB)
  else r.amoB

/-- `{xw_addr_lo, 3'b000}`: the bit offset of the access in its first word. -/
def bitOff : Nat := 8 * r.addrLo.toNat

/-- `w_load`: extract and extend the loaded value from the assembled window. -/
def wLoad (comb : BitVec 64) : Word :=
  let sh := comb >>> r.bitOff
  if r.memWidth = 0#2 then
    if r.memUnsigned then (sh.extractLsb 7 0).setWidth 32 else (sh.extractLsb 7 0).signExtend 32
  else if r.memWidth = 1#2 then
    if r.memUnsigned then (sh.extractLsb 15 0).setWidth 32 else (sh.extractLsb 15 0).signExtend 32
  else sh.extractLsb 31 0

/-- `st_raw`: the store magnitude recovered from the replicated store data. -/
def stRaw : Word :=
  if r.memWidth = 0#2 then (r.storeData.extractLsb 7 0).setWidth 32
  else if r.memWidth = 1#2 then (r.storeData.extractLsb 15 0).setWidth 32
  else r.storeData

/-- `st_win`: the store in an 8-byte window. -/
def stWin : BitVec 64 := r.stRaw.setWidth 64 <<< r.bitOff

/-- `be_win`: the byte enables of the 8-byte window. -/
def beWin : BitVec 8 :=
  (if r.memWidth = 0#2 then 0x01#8 else if r.memWidth = 1#2 then 0x03#8 else 0x0F#8)
    <<< r.addrLo.toNat

/-- `{xw_result[XLEN-1:2], 2'b00}` -/
def wordAddr : Word := r.result.extractLsb 31 2 ++ 0b00#2

end XwReg

/-- The registers of the W stage. -/
structure WStage where
  xwValid : Bool := false
  xw : XwReg := {}
  /-- W is driving the 2nd beat -/
  beat2 : Bool := false
  /-- captured first word of a misaligned load, or the word an AMO loaded -/
  ldW0 : Word := 0#32
  resvValid : Bool := false
  resvAddr : Word := 0#32
  deriving DecidableEq

namespace WStage

variable (w : WStage)

def memMis : Bool := w.xwValid && w.xw.crosses
def amoHere : Bool := w.xwValid && w.xw.isAmo
def scOk : Bool := w.resvValid && w.resvAddr == w.xw.amoAddrAl
/-- load beat of an AMO -/
def amoRmwB1 : Bool := w.amoHere && w.xw.isAmoRmw && !w.beat2
/-- store beat of an AMO -/
def amoRmwB2 : Bool := w.amoHere && w.xw.isAmoRmw && w.beat2
def amoDoLoad : Bool := w.amoHere && (w.xw.isLr || w.amoRmwB1)
def amoDoStore : Bool := w.amoHere && ((w.xw.isSc && w.scOk) || w.amoRmwB2)

/-- `mem_beat_stall`: W is doing the first of two beats. -/
def memBeatStall : Bool := (w.memMis && !w.beat2) || w.amoRmwB1

/-! ## Data port -/

def dmemAddr : Word :=
  if w.amoHere then w.xw.amoAddrAl else w.xw.wordAddr + (if w.beat2 then 4#32 else 0#32)

def dmemRe : Bool := (w.xwValid && w.xw.memRe) || w.amoDoLoad

def dmemWe : Bool := (w.xwValid && w.xw.memWe) || w.amoDoStore

def dmemBe : BitVec 4 :=
  if w.amoHere then 0b1111#4
  else if w.beat2 then w.xw.beWin.extractLsb 7 4 else w.xw.beWin.extractLsb 3 0

def dmemWdata : Word :=
  if w.amoRmwB2 then w.xw.amoRes w.ldW0
  else if w.amoHere && w.xw.isSc then w.xw.amoB
  else if w.beat2 then w.xw.stWin.extractLsb 63 32 else w.xw.stWin.extractLsb 31 0

/-! ## Writeback value -/

/-- `ld_comb`: `{word1, word0}` in the second beat, one word otherwise. -/
def ldComb (rdata : Word) : BitVec 64 := if w.beat2 then rdata ++ w.ldW0 else 0#32 ++ rdata

/-- `amo_wb`: LR returns the word, SC the failure flag, an AMO the old word. -/
def amoWb (rdata : Word) : Word :=
  if w.xw.isLr then rdata
  else if w.xw.isSc then (if w.scOk then 0#32 else 1#32)
  else w.ldW0

/-- `w_wb`, the value written back and forwarded into X. -/
def wWb (rdata : Word) : Word :=
  if w.amoHere then w.amoWb rdata
  else if w.xw.memRe then w.xw.wLoad (w.ldComb rdata)
  else w.xw.result

def rfWe : Bool := w.xwValid && w.xw.regWe && w.xw.rd != 0#5 && !w.memBeatStall

def retireValid : Bool := w.xwValid && !w.memBeatStall

/-- `fwd1`/`fwd2`: W holds a result for source register `rs`. -/
def fwd (rs : BitVec 5) : Bool := w.xwValid && w.xw.regWe && w.xw.rd != 0#5 && w.xw.rd == rs

/-! ## Clock -/

/-- One clock: the X/W register, the beat sequencer and the reservation. -/
def step (rdata : Word) (commit : Bool) (next : XwReg) : WStage where
  xwValid := if w.memBeatStall then w.xwValid else commit
  xw := if w.memBeatStall then w.xw else next
  -- what stalls in its first beat is in its second one next
  beat2 := w.memBeatStall
  ldW0 := if w.memBeatStall then rdata else w.ldW0
  resvValid :=
    if w.amoHere && w.xw.isLr then true
    else if w.amoHere && w.xw.isSc then false
    -- a plain store, to any address
    else if w.xwValid && w.xw.memWe then false
    else w.resvValid
  resvAddr := if w.amoHere && w.xw.isLr then w.xw.amoAddrAl else w.resvAddr

/-- `rst` -/
def reset : WStage :=
  { w with xwValid := false, beat2 := false, ldW0 := 0#32, resvValid := false }

end WStage

end ThreeSippEs
