import ThreeSippEs.Core.Writeback
import ThreeSippEs.Lib.AlignedBlock
import ThreeSippEs.Lib.LittleEndian
import ThreeSippEs.Uart.Uart

/-!
# The SoC (`three_sipp_es_soc.sv`)

The memories, the CLINT, the UART and `tohost` behind the data port of the core,
and the memory path of the Debug Module. The two processes of the source assign
the same arrays: `dataWrite` is the first one and `dmAccess` the second one.
-/

namespace ThreeSippEs

/-- The parameters. The memories are arrays of words; IMEM starts at address 0 and
ends below the devices. -/
structure SocParams where
  imemWords : Nat := 8192
  dramWords : Nat := 8192
  dramBase : Word := 0x80000000#32
  tohostAddr : Word := 0x20000000#32
  uartBase : Word := 0x10000000#32
  imemDataWrite : Bool := false
  dramAligned : dramBase.toNat % 4 = 0 := by decide
  dramFits : dramBase.toNat + 4 * dramWords < 2 ^ 32 := by decide
  imemBelowClint : 4 * imemWords ≤ 0x02000000 := by decide
  imemBelowUart : 4 * imemWords ≤ uartBase.toNat / 2 ^ 16 * 2 ^ 16 := by decide
  imemBelowTohost : 4 * imemWords ≤ tohostAddr.toNat := by decide

namespace SocParams

/-- The values of the source. -/
def source : SocParams := {}

open AlignedBlock

variable (P : SocParams) (a : Word)

/-! ## Address decode -/

/-- `in_dram` and `dm_in_dram` -/
def inDram : Bool :=
  P.dramBase.ule a && a.ult (P.dramBase + BitVec.ofNat 32 (P.dramWords * 4))

/-- `dram_idx` and `dm_dram_idx` -/
def dramIdx : Nat :=
  (a.extractLsb' 2 (Nat.clog 2 P.dramWords) -
    P.dramBase.extractLsb' 2 (Nat.clog 2 P.dramWords)).toNat

/-- `in_imem` and `dm_in_imem` -/
def inImem : Bool := a.ult (BitVec.ofNat 32 (P.imemWords * 4))

/-- `imem_idx`, `imem_didx` and `dm_imem_idx` -/
def imemIdx : Nat := (a.extractLsb' 2 (Nat.clog 2 P.imemWords)).toNat

/-- `in_clint` -/
def inClint : Bool := a.extractLsb 31 16 == 0x0200#16

/-- `in_uart` -/
def inUart : Bool := a.extractLsb 31 16 == P.uartBase.extractLsb 31 16

variable {P a} {b : Word}

theorem inDram_iff :
    P.inDram a = true ↔
      P.dramBase.toNat ≤ a.toNat ∧ a.toNat < P.dramBase.toNat + 4 * P.dramWords := by
  have hfits := P.dramFits
  have hend : (P.dramBase + BitVec.ofNat 32 (P.dramWords * 4)).toNat =
      P.dramBase.toNat + 4 * P.dramWords := by
    rw [BitVec.toNat_add, BitVec.toNat_ofNat]
    omega
  unfold inDram
  rw [Bool.and_eq_true, BitVec.ule_eq_decide, BitVec.ult_eq_decide, hend, decide_eq_true_iff,
    decide_eq_true_iff]

theorem inImem_iff : P.inImem a = true ↔ a.toNat < 4 * P.imemWords := by
  have hlt := P.uartBase.isLt
  have hfits := P.imemBelowUart
  have hend : (BitVec.ofNat 32 (P.imemWords * 4)).toNat = 4 * P.imemWords := by
    rw [BitVec.toNat_ofNat]
    omega
  unfold inImem
  rw [BitVec.ult_eq_decide, hend, decide_eq_true_iff]

/-- DRAM is indexed from its base. -/
theorem dramIdx_eq (h : P.inDram a = true) :
    P.dramIdx a = a.toNat / 4 - P.dramBase.toNat / 4 := by
  obtain ⟨hlo, hhi⟩ := inDram_iff.mp h
  have hal := P.dramAligned
  have hwords : P.dramWords ≤ 2 ^ Nat.clog 2 P.dramWords := Nat.le_pow_clog Nat.one_lt_two _
  obtain ⟨d, hd⟩ := Nat.exists_eq_add_of_le (Nat.div_le_div_right (c := 4) hlo)
  have hdlt : d < 2 ^ Nat.clog 2 P.dramWords := by omega
  have hslice : ∀ v : Word, v.extractLsb' 2 (Nat.clog 2 P.dramWords) =
      BitVec.ofNat (Nat.clog 2 P.dramWords) (v.toNat / 4) := by
    intro v
    apply BitVec.eq_of_toNat_eq
    rw [BitVec.extractLsb'_toNat, BitVec.toNat_ofNat, Nat.shiftRight_eq_div_pow]
  unfold dramIdx
  rw [hslice, hslice, hd, BitVec.ofNat_add, BitVec.add_comm, BitVec.add_sub_cancel,
    BitVec.toNat_ofNat, Nat.mod_eq_of_lt hdlt, Nat.add_sub_cancel_left]

/-- IMEM is indexed from address 0. -/
theorem imemIdx_eq (h : P.inImem a = true) : P.imemIdx a = a.toNat / 4 := by
  have hhi := inImem_iff.mp h
  have hwords : P.imemWords ≤ 2 ^ Nat.clog 2 P.imemWords := Nat.le_pow_clog Nat.one_lt_two _
  unfold imemIdx
  rw [BitVec.extractLsb'_toNat, Nat.shiftRight_eq_div_pow, Nat.mod_eq_of_lt]
  omega

/-- A word is in DRAM as a whole. -/
theorem inDram_congr (h : wordOf a = wordOf b) : P.inDram a = P.inDram b := by
  have hal := P.dramAligned
  rw [wordOf_eq_iff] at h
  rw [Bool.eq_iff_iff, inDram_iff, inDram_iff]
  omega

theorem inImem_congr (h : wordOf a = wordOf b) : P.inImem a = P.inImem b := by
  rw [wordOf_eq_iff] at h
  rw [Bool.eq_iff_iff, inImem_iff, inImem_iff]
  omega

/-- Two addresses of one DRAM word are in one word. -/
theorem dramIdx_inj (ha : P.inDram a = true) (hb : P.inDram b = true) :
    P.dramIdx a = P.dramIdx b ↔ wordOf a = wordOf b := by
  have hloa := (inDram_iff.mp ha).1
  have hlob := (inDram_iff.mp hb).1
  rw [dramIdx_eq ha, dramIdx_eq hb, wordOf_eq_iff]
  omega

theorem imemIdx_inj (ha : P.inImem a = true) (hb : P.inImem b = true) :
    P.imemIdx a = P.imemIdx b ↔ wordOf a = wordOf b := by
  rw [imemIdx_eq ha, imemIdx_eq hb, wordOf_eq_iff]

end SocParams

/-- The registers of the SoC. -/
structure Soc where
  imem : Nat → Word
  dram : Nat → Word
  mtime : BitVec 64
  mtimecmp : BitVec 64
  msip : Bool
  tohostR : Word
  tohostWeR : Bool
  uart : Uart
  dmMemRdata : Word
  dmMemReady : Bool

/-- What it sees in one clock: the data port of the core and the System Bus port
of the Debug Module. -/
structure SocIn where
  rst : Bool := false
  dmemAddr : Word := 0#32
  dmemRe : Bool := false
  dmemWe : Bool := false
  dmemBe : BitVec 4 := 0#4
  dmemWdata : Word := 0#32
  dmMemValid : Bool := false
  dmMemWrite : Bool := false
  dmMemAddr : Word := 0#32
  dmMemWdata : Word := 0#32
  deriving DecidableEq

/-- Byte lane `k` of a word. -/
def lane (v : Word) (k : Nat) : BitVec 8 := v.extractLsb' (8 * k) 8

/-- `merged_word` and `merged_imem`: the enabled lanes of `wdata`, the others of
`cur`. -/
def mergeLanes (be : BitVec 4) (wdata cur : Word) : Word :=
  (if be.getLsbD 3 then lane wdata 3 else lane cur 3) ++
  (if be.getLsbD 2 then lane wdata 2 else lane cur 2) ++
  (if be.getLsbD 1 then lane wdata 1 else lane cur 1) ++
  (if be.getLsbD 0 then lane wdata 0 else lane cur 0)

/-- Every lane comes from one of the two words. -/
theorem lane_mergeLanes (be : BitVec 4) (wdata cur : Word) {k : Nat} (hk : k < 4) :
    lane (mergeLanes be wdata cur) k = if be.getLsbD k then lane wdata k else lane cur k :=
  LittleEndian.byte_quad (fun k => if be.getLsbD k then lane wdata k else lane cur k) hk

namespace Soc

variable (P : SocParams) (s : Soc) (i : SocIn)

/-! ## Ports -/

/-- `irq_timer_w` -/
def irqTimer : Bool := s.mtimecmp.ule s.mtime

/-- `irq_soft_w` -/
def irqSoft : Bool := s.msip

/-- The wiring of `u_uart`. -/
def uartBus : UartBus where
  addr := i.dmemAddr.extractLsb 3 0
  wdata := i.dmemWdata.extractLsb 7 0
  we := i.dmemWe && P.inUart i.dmemAddr
  re := i.dmemRe && P.inUart i.dmemAddr

/-- `clint_rdata` -/
def clintRdata (a : Word) : Word :=
  if a.extractLsb 15 0 = 0x0000#16 then 0#31 ++ BitVec.ofBool s.msip
  else if a.extractLsb 15 0 = 0x4000#16 then s.mtimecmp.extractLsb 31 0
  else if a.extractLsb 15 0 = 0x4004#16 then s.mtimecmp.extractLsb 63 32
  else if a.extractLsb 15 0 = 0xBFF8#16 then s.mtime.extractLsb 31 0
  else if a.extractLsb 15 0 = 0xBFFC#16 then s.mtime.extractLsb 63 32
  else 0#32

/-- `imem_rdata` -/
def imemRdata (a : Word) : Word := s.imem (P.imemIdx a)

/-- `dmem_rdata` -/
def dmemRdata : Word :=
  if P.inDram i.dmemAddr then s.dram (P.dramIdx i.dmemAddr)
  else if SocParams.inClint i.dmemAddr then s.clintRdata i.dmemAddr
  else if P.inUart i.dmemAddr then 0#24 ++ s.uart.rdata (uartBus P i)
  else if P.inImem i.dmemAddr then s.imem (P.imemIdx i.dmemAddr)
  else 0#32

/-- What the Debug Module reads at `a`. -/
def dmWord (a : Word) : Word :=
  if P.inDram a then s.dram (P.dramIdx a)
  else if P.inImem a then s.imem (P.imemIdx a)
  else 0#32

/-! ## Clock -/

/-- `mtime`, and the reset of the CLINT. -/
def tick : Soc :=
  if i.rst then
    { s with mtime := 0#64, mtimecmp := 0xFFFFFFFFFFFFFFFF#64, msip := false, tohostWeR := false }
  else { s with mtime := s.mtime + 1#64, tohostWeR := false }

/-- The data write of one clock, on top of `d`. -/
def dataWrite (d : Soc) : Soc :=
  if i.dmemWe then
    if P.inDram i.dmemAddr then
      { d with
        dram := Function.update d.dram (P.dramIdx i.dmemAddr)
          (mergeLanes i.dmemBe i.dmemWdata (s.dram (P.dramIdx i.dmemAddr))) }
    else if SocParams.inClint i.dmemAddr then
      if i.dmemAddr.extractLsb 15 0 = 0x0000#16 then { d with msip := i.dmemWdata.getLsbD 0 }
      else if i.dmemAddr.extractLsb 15 0 = 0x4000#16 then
        { d with mtimecmp := d.mtimecmp.extractLsb 63 32 ++ i.dmemWdata }
      else if i.dmemAddr.extractLsb 15 0 = 0x4004#16 then
        { d with mtimecmp := i.dmemWdata ++ d.mtimecmp.extractLsb 31 0 }
      else d
    else if i.dmemAddr = P.tohostAddr then { d with tohostR := i.dmemWdata, tohostWeR := true }
    else if P.imemDataWrite && P.inImem i.dmemAddr then
      { d with
        imem := Function.update d.imem (P.imemIdx i.dmemAddr)
          (mergeLanes i.dmemBe i.dmemWdata (s.imem (P.imemIdx i.dmemAddr))) }
    else d
  else d

/-- The System Bus access of one clock, on top of `d`; it is answered in the next
one. -/
def dmAccess (d : Soc) : Soc :=
  if i.dmMemValid then
    if i.dmMemWrite then
      if P.inDram i.dmMemAddr then
        { d with
          dmMemReady := true
          dram := Function.update d.dram (P.dramIdx i.dmMemAddr) i.dmMemWdata }
      else if P.inImem i.dmMemAddr then
        { d with
          dmMemReady := true
          imem := Function.update d.imem (P.imemIdx i.dmMemAddr) i.dmMemWdata }
      else { d with dmMemReady := true }
    else { d with dmMemReady := true, dmMemRdata := s.dmWord P i.dmMemAddr }
  else { d with dmMemReady := false }

/-- The low bits of `BAUD_DIV_RST`, 50 MHz over 115200. -/
def baudDivRst : BitVec 16 := BitVec.ofNat 16 (50000000 / 115200)

/-- One clock. -/
def step : Soc :=
  { s.dmAccess P i (s.dataWrite P i (s.tick i)) with
    uart := if i.rst then Uart.reset baudDivRst else s.uart.step (uartBus P i) true }

/-- Time leaves the memories. -/
theorem tick_memories : (s.tick i).dram = s.dram ∧ (s.tick i).imem = s.imem := by
  unfold tick
  split <;> exact ⟨rfl, rfl⟩

end Soc

end ThreeSippEs
