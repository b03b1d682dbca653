import ThreeSippEs.Core.Hosted
import ThreeSippEs.Soc.Soc

/-!
# The FPGA SoC (`three_sipp_es_fpga.sv`)

The core with its default parameters, one RAM for code and data, the UART, the LEDs, a
CLINT and `tohost`. The RAM is a block RAM: its two ports answer at an edge of a
second clock, `clk_bram`, with what the RAM held before that edge.

- `Fpga`: the registers on `clk`; `Bram`: those on `clk_bram`;
- `Machine`: the same SoC with a RAM that answers at once, which is what the two
  clocks are meant to look like.
-/

namespace ThreeSippEs

/-- The parameters. The RAM starts at address 0 and ends below the devices. -/
structure FpgaParams where
  clkHz : Nat := 50000000
  uartBaud : Nat := 115200
  memWords : Nat := 4096
  belowDevices : 4 * memWords ≤ 0x02000000 := by decide

namespace FpgaParams

open AlignedBlock

variable (P : FpgaParams) (a : Word)

/-! ## Address decode -/

/-- `in_ram` -/
def inRam : Bool := a.ult (BitVec.ofNat 32 (P.memWords * 4))

/-- `didx`, and the index of the fetch port. -/
def ramIdx : Nat := (a.extractLsb' 2 (Nat.clog 2 P.memWords)).toNat

/-- `uart_sel` -/
def uartSel : Bool := a.extractLsb 31 16 == 0x1000#16

/-- `clint_sel` -/
def clintSel : Bool := a.extractLsb 31 16 == 0x0200#16

/-- `BAUD_DIV_RST` of the UART. -/
def baudDivRst : BitVec 16 := BitVec.ofNat 16 (P.clkHz / P.uartBaud)

variable {P a} {b : Word}

theorem inRam_iff : P.inRam a = true ↔ a.toNat < 4 * P.memWords := by
  have hfits := P.belowDevices
  have hend : (BitVec.ofNat 32 (P.memWords * 4)).toNat = 4 * P.memWords := by
    rw [BitVec.toNat_ofNat]
    omega
  unfold inRam
  rw [BitVec.ult_eq_decide, hend, decide_eq_true_iff]

theorem ramIdx_eq (h : P.inRam a = true) : P.ramIdx a = a.toNat / 4 := by
  have hhi := inRam_iff.mp h
  have hwords : P.memWords ≤ 2 ^ Nat.clog 2 P.memWords := Nat.le_pow_clog Nat.one_lt_two _
  unfold ramIdx
  rw [BitVec.extractLsb'_toNat, Nat.shiftRight_eq_div_pow, Nat.mod_eq_of_lt]
  omega

/-- Two addresses of one RAM word are in one word. -/
theorem ramIdx_inj (ha : P.inRam a = true) (hb : P.inRam b = true) :
    P.ramIdx a = P.ramIdx b ↔ wordOf a = wordOf b := by
  rw [ramIdx_eq ha, ramIdx_eq hb, wordOf_eq_iff]

/-- The RAM is below the devices. -/
theorem devices_of_inRam (h : P.inRam a = true) :
    uartSel a = false ∧ clintSel a = false := by
  have hhi := inRam_iff.mp h
  have hfits := P.belowDevices
  have htop : (a.extractLsb 31 16).toNat = a.toNat / 2 ^ 16 := by
    rw [BitVec.extractLsb_toNat, Nat.shiftRight_eq_div_pow, Nat.mod_eq_of_lt]
    have hlt := a.isLt
    omega
  constructor
  · by_contra hsel
    rw [Bool.not_eq_false] at hsel
    have h16 := congrArg BitVec.toNat (beq_iff_eq.mp hsel)
    rw [htop, show (0x1000#16).toNat = 0x1000 from rfl] at h16
    omega
  · by_contra hsel
    rw [Bool.not_eq_false] at hsel
    have h16 := congrArg BitVec.toNat (beq_iff_eq.mp hsel)
    rw [htop, show (0x0200#16).toNat = 0x200 from rfl] at h16
    omega

end FpgaParams

/-- The registers on `clk`. -/
structure Fpga where
  core : Core {}
  uart : Uart
  mtime : BitVec 64
  mtimecmp : BitVec 64
  msip : Bool
  leds : BitVec 8
  tohost : Word
  tohostWe : Bool

/-- The pins in one clock. -/
structure FpgaIn where
  rst : Bool := false
  serialRx : Bool := true
  deriving DecidableEq

namespace Fpga

variable (P : FpgaParams) (s : Fpga) (i : FpgaIn) (imemRdata ramRdata : Word)

/-! ## Ports -/

/-- The interrupt lines and the idle debug port. -/
def ext : ExtIn where
  irq := { timer := s.mtimecmp.ule s.mtime, soft := s.msip, ext := false }

/-- The wiring of `u_uart`. -/
def uartBus : UartBus where
  addr := s.core.w.dmemAddr.extractLsb 3 0
  wdata := s.core.w.dmemWdata.extractLsb 7 0
  we := s.core.w.dmemWe && FpgaParams.uartSel s.core.w.dmemAddr
  re := s.core.w.dmemRe && FpgaParams.uartSel s.core.w.dmemAddr

/-- `clint_rdata` -/
def clintRdata (a : Word) : Word :=
  if a.extractLsb 15 0 = 0x0000#16 then 0#31 ++ BitVec.ofBool s.msip
  else if a.extractLsb 15 0 = 0x4000#16 then s.mtimecmp.extractLsb 31 0
  else if a.extractLsb 15 0 = 0x4004#16 then s.mtimecmp.extractLsb 63 32
  else if a.extractLsb 15 0 = 0xBFF8#16 then s.mtime.extractLsb 31 0
  else if a.extractLsb 15 0 = 0xBFFC#16 then s.mtime.extractLsb 63 32
  else 0#32

/-- `dmem_rdata` -/
def dmemRdata : Word :=
  if FpgaParams.uartSel s.core.w.dmemAddr then 0#24 ++ s.uart.rdata s.uartBus
  else if FpgaParams.clintSel s.core.w.dmemAddr then s.clintRdata s.core.w.dmemAddr
  else if P.inRam s.core.w.dmemAddr then ramRdata
  else 0#32

def coreIn : CoreIn where
  toExtIn := s.ext
  imemRdata := imemRdata
  dmemRdata := s.dmemRdata P ramRdata

/-! ## Clock -/

/-- The registers behind the data port, in the order of the assignments. -/
def devices : Fpga :=
  let s := { s with tohostWe := false }
  if i.rst then
    { s with mtime := 0#64, mtimecmp := 0xFFFFFFFFFFFFFFFF#64, msip := false, leds := 0#8 }
  else
    let s := { s with mtime := s.mtime + 1#64 }
    let a := s.core.w.dmemAddr
    let v := s.core.w.dmemWdata
    if s.core.w.dmemWe then
      if FpgaParams.clintSel a then
        if a.extractLsb 15 0 = 0x0000#16 then { s with msip := v.getLsbD 0 }
        else if a.extractLsb 15 0 = 0x4000#16 then
          { s with mtimecmp := s.mtimecmp.extractLsb 63 32 ++ v }
        else if a.extractLsb 15 0 = 0x4004#16 then
          { s with mtimecmp := v ++ s.mtimecmp.extractLsb 31 0 }
        else s
      else if a = 0x20001000#32 then { s with leds := v.extractLsb 7 0 }
      else if a = 0x20000000#32 then { s with tohost := v, tohostWe := true }
      else s
    else s

/-- One edge of `clk`. -/
def step : Fpga :=
  { s.devices i with
    core :=
      if i.rst then s.core.reset (s.coreIn P imemRdata ramRdata)
      else s.core.step (s.coreIn P imemRdata ramRdata)
    uart := if i.rst then Uart.reset P.baudDivRst else s.uart.step s.uartBus i.serialRx }

end Fpga

/-- The RAM with the output registers of its two ports. -/
structure Bram where
  mem : Nat → Word
  imemRdata : Word
  dmemRamRdata : Word

namespace Bram

variable (P : FpgaParams) (w : WStage)

/-- The RAM after the write that W has at the data port. -/
def write (mem : Nat → Word) : Nat → Word :=
  if w.dmemWe && P.inRam w.dmemAddr then
    Function.update mem (P.ramIdx w.dmemAddr)
      (mergeLanes w.dmemBe w.dmemWdata (mem (P.ramIdx w.dmemAddr)))
  else mem

/-- One edge of `clk_bram`: both ports return what the RAM held before. -/
def step (b : Bram) (c : Core {}) : Bram where
  mem := write P c.w b.mem
  imemRdata := b.mem (P.ramIdx c.imemAddr)
  dmemRamRdata := b.mem (P.ramIdx c.w.dmemAddr)

end Bram

/-- The SoC with a RAM that answers at once. -/
structure Machine where
  soc : Fpga
  mem : Nat → Word

namespace Machine

variable (P : FpgaParams) (m : Machine) (i : FpgaIn)

/-- `dmem_rdata` in this clock. -/
def dmemRdata : Word := m.soc.dmemRdata P (m.mem (P.ramIdx m.soc.core.w.dmemAddr))

/-- One clock: combinational reads, writes at the clock edge. -/
def step : Machine where
  soc := m.soc.step P i (m.mem (P.ramIdx m.soc.core.imemAddr))
    (m.mem (P.ramIdx m.soc.core.w.dmemAddr))
  mem := Bram.write P m.soc.core.w m.mem

end Machine

end ThreeSippEs
