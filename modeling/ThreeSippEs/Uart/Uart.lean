import ThreeSippEs.Lib.Clocked
import ThreeSippEs.Lib.ShiftRegister

/-!
# The UART (`three_sipp_es_uart.sv`)

An 8-N-1 transmitter and a receiver with a common clock divisor. The processes of
the source are `UartTx`, `UartRx` and the assignment of `baud_div`.
-/

namespace ThreeSippEs

open ShiftRegister

/-- The bus side in one clock; `addr` is the byte offset within the window. -/
structure UartBus where
  addr : BitVec 4 := 0#4
  wdata : BitVec 8 := 0#8
  we : Bool := false
  re : Bool := false
  deriving DecidableEq

/-- `addr[3:2]` -/
def UartBus.reg (i : UartBus) : BitVec 2 := i.addr.extractLsb 3 2

/-! ## Transmitter -/

/-- The registers of the transmitter, with the values of its reset. -/
structure UartTx where
  txShift : BitVec 10 := 0x3FF#10
  txBitCount : BitVec 4 := 0#4
  txBaudCnt : BitVec 16 := 0#16
  txBusyQ : Bool := false
  serialTx : Bool := true
  txIrq : Bool := false
  deriving DecidableEq

namespace UartTx

variable (t : UartTx) (baudDiv : BitVec 16) (i : UartBus)

/-- `tx_load` -/
def txLoad : Bool := i.we && i.reg == 0b00#2 && !t.txBusyQ

/-- One clock: stop, data and start go out, the lowest bit first. -/
def step : UartTx :=
  let t := { t with txIrq := false }
  if t.txLoad i then
    { t with
      txShift := 1#1 ++ i.wdata ++ 0#1
      txBitCount := 10#4
      txBaudCnt := baudDiv - 1#16
      txBusyQ := true }
  else if t.txBusyQ then
    if t.txBaudCnt = 0#16 then
      { t with
        serialTx := t.txShift.getLsbD 0
        txShift := shiftIn t.txShift true
        txBitCount := t.txBitCount - 1#4
        txBaudCnt := baudDiv - 1#16
        -- the stop bit goes out with this clock
        txBusyQ := t.txBitCount != 1#4
        txIrq := t.txBitCount == 1#4 }
    else { t with txBaudCnt := t.txBaudCnt - 1#16 }
  else t

section

variable {t i}

theorem step_load (hl : t.txLoad i = true) :
    t.step baudDiv i =
      { t with
        txIrq := false
        txShift := 1#1 ++ i.wdata ++ 0#1
        txBitCount := 10#4
        txBaudCnt := baudDiv - 1#16
        txBusyQ := true } := by
  unfold step
  exact if_pos hl

/-- The next bit goes out. -/
theorem step_shift (hl : t.txLoad i = false) (hbusy : t.txBusyQ = true)
    (hbaud : t.txBaudCnt = 0#16) :
    t.step baudDiv i =
      { t with
        serialTx := t.txShift.getLsbD 0
        txShift := shiftIn t.txShift true
        txBitCount := t.txBitCount - 1#4
        txBaudCnt := baudDiv - 1#16
        txBusyQ := t.txBitCount != 1#4
        txIrq := t.txBitCount == 1#4 } := by
  have hload : (({ t with txIrq := false } : UartTx).txLoad i) = false := hl
  unfold step
  dsimp only
  rw [hload, if_neg Bool.false_ne_true, hbusy, if_pos rfl, if_pos hbaud]

theorem step_count (hl : t.txLoad i = false) (hbusy : t.txBusyQ = true)
    (hbaud : t.txBaudCnt ≠ 0#16) :
    t.step baudDiv i = { t with txIrq := false, txBaudCnt := t.txBaudCnt - 1#16 } := by
  have hload : (({ t with txIrq := false } : UartTx).txLoad i) = false := hl
  unfold step
  dsimp only
  rw [hload, if_neg Bool.false_ne_true, hbusy, if_pos rfl, if_neg hbaud]

theorem step_idle (hl : t.txLoad i = false) (hidle : t.txBusyQ = false) :
    t.step baudDiv i = { t with txIrq := false } := by
  have hload : (({ t with txIrq := false } : UartTx).txLoad i) = false := hl
  unfold step
  dsimp only
  rw [hload, if_neg Bool.false_ne_true, hidle, if_neg Bool.false_ne_true]

end

end UartTx

/-! ## Receiver -/

/-- The registers of the receiver, with the values of its reset. -/
structure UartRx where
  rxSync : BitVec 2 := 0b11#2
  rxBusyQ : Bool := false
  rxBitCount : BitVec 4 := 0#4
  rxBaudCnt : BitVec 16 := 0#16
  rxShift : BitVec 8 := 0#8
  rxDataQ : BitVec 8 := 0#8
  rxReadyQ : Bool := false
  rxOverrunQ : Bool := false
  rxIrq : Bool := false
  deriving DecidableEq

namespace UartRx

variable (r : UartRx) (baudDiv : BitVec 16) (i : UartBus) (serialRx : Bool)

/-- The clocks to the middle of the first data bit, in 16 bits. -/
def preload : BitVec 16 := 0#1 ++ baudDiv.extractLsb 15 1 + baudDiv - 1#16

/-- What a read clears. -/
def readOut : UartRx :=
  { r with
    rxIrq := false
    rxReadyQ := if i.re && i.reg == 0b01#2 then false else r.rxReadyQ
    rxOverrunQ := if i.re && i.reg == 0b00#2 then false else r.rxOverrunQ }

/-- The receiver behind the synchroniser. -/
def receive : UartRx :=
  let d := r.readOut i
  if !r.rxBusyQ then
    -- a start bit, which is not sampled again
    if r.rxSync.getLsbD 1 = false then
      { d with rxBusyQ := true, rxBitCount := 8#4, rxBaudCnt := preload baudDiv }
    else d
  else if r.rxBaudCnt = 0#16 then
    if r.rxBitCount ≠ 0#4 then
      { d with
        rxShift := shiftIn r.rxShift (r.rxSync.getLsbD 1)
        rxBitCount := r.rxBitCount - 1#4
        rxBaudCnt := baudDiv - 1#16 }
    else
      -- the stop bit: its level is not looked at
      { d with
        rxBusyQ := false
        rxDataQ := r.rxShift
        rxOverrunQ := if r.rxReadyQ then true else d.rxOverrunQ
        rxReadyQ := true
        rxIrq := true }
  else { d with rxBaudCnt := r.rxBaudCnt - 1#16 }

section

variable {r}

theorem receive_idle (hidle : r.rxBusyQ = false) (hline : r.rxSync.getLsbD 1 = true) :
    r.receive baudDiv i = r.readOut i := by
  unfold receive
  rw [hidle, hline]
  rfl

theorem receive_start (hidle : r.rxBusyQ = false) (hline : r.rxSync.getLsbD 1 = false) :
    r.receive baudDiv i =
      { r.readOut i with rxBusyQ := true, rxBitCount := 8#4, rxBaudCnt := preload baudDiv } := by
  unfold receive
  rw [hidle, hline]
  rfl

theorem receive_count (hbusy : r.rxBusyQ = true) (hbaud : r.rxBaudCnt ≠ 0#16) :
    r.receive baudDiv i = { r.readOut i with rxBaudCnt := r.rxBaudCnt - 1#16 } := by
  unfold receive
  rw [hbusy, if_neg (by decide), if_neg hbaud]

/-- The line is looked at for a data bit. -/
theorem receive_sample (hbusy : r.rxBusyQ = true) (hbaud : r.rxBaudCnt = 0#16)
    (hcount : r.rxBitCount ≠ 0#4) :
    r.receive baudDiv i =
      { r.readOut i with
        rxShift := shiftIn r.rxShift (r.rxSync.getLsbD 1)
        rxBitCount := r.rxBitCount - 1#4
        rxBaudCnt := baudDiv - 1#16 } := by
  unfold receive
  rw [hbusy, if_neg (by decide), if_pos hbaud, if_pos hcount]

/-- A byte arrives. The overrun test does not see that the old one is being read. -/
theorem receive_stop (hbusy : r.rxBusyQ = true) (hbaud : r.rxBaudCnt = 0#16)
    (hcount : r.rxBitCount = 0#4) :
    r.receive baudDiv i =
      { r.readOut i with
        rxBusyQ := false
        rxDataQ := r.rxShift
        rxOverrunQ := if r.rxReadyQ then true else (r.readOut i).rxOverrunQ
        rxReadyQ := true
        rxIrq := true } := by
  unfold receive
  rw [hbusy, if_neg (by decide), if_pos hbaud, if_neg (not_not.mpr hcount)]

end

/-- One clock. -/
def step : UartRx :=
  { r.receive baudDiv i with
    rxSync := BitVec.ofBool (r.rxSync.getLsbD 0) ++ BitVec.ofBool serialRx }

end UartRx

/-! ## The device -/

structure Uart where
  baudDiv : BitVec 16
  tx : UartTx := {}
  rx : UartRx := {}
  deriving DecidableEq

namespace Uart

variable (s : Uart) (i : UartBus)

/-- The state out of reset, with the low bits of `BAUD_DIV_RST`. -/
def reset (baudDivRst : BitVec 16) : Uart := { baudDiv := baudDivRst }

/-- `rdata` -/
def rdata : BitVec 8 :=
  if i.reg = 0b00#2 then
    0#4 ++ BitVec.ofBool s.rx.rxOverrunQ ++ BitVec.ofBool (!s.tx.txBusyQ) ++
      BitVec.ofBool s.rx.rxReadyQ ++ BitVec.ofBool s.tx.txBusyQ
  else if i.reg = 0b01#2 then s.rx.rxDataQ
  else if i.reg = 0b10#2 then s.baudDiv.extractLsb 7 0
  else 0#8

/-- A store to `baud_div` loads the byte. -/
def writesBaud (i : UartBus) : Bool := i.we && i.reg == 0b10#2

/-- One clock. -/
def step (serialRx : Bool) : Uart where
  baudDiv := if writesBaud i then 0#8 ++ i.wdata else s.baudDiv
  tx := s.tx.step s.baudDiv i
  rx := s.rx.step s.baudDiv i serialRx

end Uart

end ThreeSippEs
