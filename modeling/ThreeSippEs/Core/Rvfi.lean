import ThreeSippEs.Core.Core
import ThreeSippEs.Lib.Clocked

/-!
# The RISC-V Formal Interface (`RISCV_FORMAL` in `three_sipp_es_core.sv`)

A second register set beside the X/W register, which captures what the main one
does not keep, and the `rvfi_*` ports driven from both. The capture has its own
enable: `x_commit`, which does not look at the beats of W.
-/

namespace ThreeSippEs

/-- The registers under `RISCV_FORMAL`. -/
structure Rvfi where
  xwRs1 : BitVec 5 := 0#5
  xwRs2 : BitVec 5 := 0#5
  xwRs1v : Word := 0#32
  xwRs2v : Word := 0#32
  xwPcw : Word := 0#32
  xwMemaddr : Word := 0#32
  xwTrap : Bool := false
  xwEntry : Bool := false
  xwUsesRs2 : Bool := false
  xwMwidth : BitVec 2 := 0#2
  rvfiOrderR : BitVec 64 := 0#64
  rvfiIntrR : Bool := false
  deriving DecidableEq

/-- The `rvfi_*` ports in one cycle. -/
structure RvfiOut where
  valid : Bool
  order : BitVec 64
  insn : Word
  trap : Bool
  halt : Bool
  intr : Bool
  mode : BitVec 2
  ixl : BitVec 2
  rs1Addr : BitVec 5
  rs2Addr : BitVec 5
  rs1Rdata : Word
  rs2Rdata : Word
  rdAddr : BitVec 5
  rdWdata : Word
  pcRdata : Word
  pcWdata : Word
  memAddr : Word
  memRmask : BitVec 4
  memWmask : BitVec 4
  memRdata : Word
  memWdata : Word
  deriving DecidableEq

/-- `x_pc_wdata`: the next PC of the instruction in X, computed apart from the
redirect. -/
def XIn.pcWdata (P : Params) (x : XIn) : Word :=
  if x.dec.isBranch || x.dec.isJal then x.brActualNext
  else if x.dec.isJalr then x.jalrT
  else (x.redirect P).getD x.seqNx

namespace Rvfi

variable {P : Params} (r : Rvfi) (s : Core P) (i : CoreIn)

/-- What is captured with `x_commit`. -/
def capture (P : Params) (x : XIn) : Rvfi :=
  { r with
    xwRs1 := x.rs1
    xwRs2 := if x.dec.usesRs2 then x.rs2 else 0#5
    xwRs1v := x.op1
    xwRs2v := if x.dec.usesRs2 then x.op2 else 0#32
    xwPcw := x.pcWdata P
    xwTrap := x.exTrap P
    xwEntry := x.exTrap P || x.takeIrq P
    xwMemaddr := x.aluY
    xwMwidth := x.dec.memWidth
    xwUsesRs2 := x.dec.usesRs2 }

/-- One clock with `rst` low, beside `Core.step`. -/
def step : Rvfi :=
  { (if s.xCommit then r.capture P (s.xIn i) else r) with
    rvfiOrderR := if s.w.xwValid then r.rvfiOrderR + 1#64 else r.rvfiOrderR
    rvfiIntrR := if s.w.xwValid then r.xwEntry else r.rvfiIntrR }

/-- `rst` -/
def reset : Rvfi := { r with rvfiOrderR := 0#64, rvfiIntrR := false }

/-- The load byte mask. -/
def rmask (addrLo : BitVec 2) : BitVec 4 :=
  if r.xwMwidth = 0#2 then 0b0001#4 <<< addrLo.toNat
  else if r.xwMwidth = 1#2 then (if addrLo.getLsbD 1 then 0b1100#4 else 0b0011#4)
  else 0b1111#4

/-- The ports. -/
def out : RvfiOut where
  valid := s.w.xwValid
  order := r.rvfiOrderR
  insn := s.w.xw.instr
  trap := r.xwTrap
  halt := false
  intr := r.rvfiIntrR
  mode := 0b11#2
  ixl := 0b01#2
  rs1Addr := r.xwRs1
  rs2Addr := r.xwRs2
  rs1Rdata := r.xwRs1v
  rs2Rdata := r.xwRs2v
  rdAddr := if s.w.rfWe then s.w.xw.rd else 0#5
  rdWdata := if s.w.rfWe then s.w.wWb i.dmemRdata else 0#32
  pcRdata := s.w.xw.pc
  pcWdata := r.xwPcw
  memAddr := r.xwMemaddr.extractLsb 31 2 ++ 0b00#2
  memRmask := if s.w.xw.memRe then r.rmask s.w.xw.addrLo else 0#4
  memWmask := if s.w.xw.memWe then s.w.xw.be else 0#4
  memRdata := i.dmemRdata
  memWdata := s.w.xw.storeData

/-- The registers along a run of the core out of reset. -/
def runFrom (s₀ : Core P) (r₀ : Rvfi) (i₀ : CoreIn) (ins : Nat → CoreIn) : Nat → Rvfi
  | 0 => r₀.reset
  | n + 1 => (runFrom s₀ r₀ i₀ ins n).step (Clocked.run Core.step (s₀.reset i₀) ins n) (ins n)

end Rvfi

end ThreeSippEs
