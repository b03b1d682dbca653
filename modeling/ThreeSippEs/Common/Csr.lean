import ThreeSippEs.Common.Pkg

/-!
# Machine-mode CSR file (`three_sipp_es_csr.sv`)

One combinational read port, one write port and the trap interface of the
execute stage. The free-running counters are a structure of their own,
`Counters`: they change in every cycle whatever the software does, and no other
register of the file depends on them.

The flat vectors `pmpcfg_r` and `pmpaddr_r` are indexed by region, so a slice
`pmpcfg_r[k*8 +: 8]` is `pmpcfg k`.
-/

namespace ThreeSippEs

/-- The parameters of `three_sipp_es_csr`. -/
structure CsrParams where
  /-- `MISA_VAL` -/
  misaVal : Word
  /-- `U_MODE` -/
  uMode : Bool
  /-- `PMP_REGIONS` -/
  pmpRegions : Nat

/-- `mcycle`, `minstret` and `mhpmcounter[3:6]` (index 0 is counter 3). -/
structure Counters where
  mcycle : BitVec 64 := 0#64
  minstret : BitVec 64 := 0#64
  mhpmcounter : Fin 4 → BitVec 64 := fun _ => 0#64

/-- The registers of `three_sipp_es_csr`, with their reset values. -/
structure Csr where
  mstatus : Word := 0#32
  mtvec : Word := 0#32
  mepc : Word := 0#32
  mcause : Word := 0#32
  mscratch : Word := 0#32
  mtval : Word := 0#32
  mie : Word := 0#32
  /-- the event selectors of counters 3..6 -/
  mhpmevent : Fin 4 → BitVec 6 := fun _ => 0#6
  /-- current privilege: 11 = M, 00 = U -/
  priv : BitVec 2 := 0b11#2
  pmpcfg : BitVec 4 → BitVec 8 := fun _ => 0#8
  pmpaddr : BitVec 4 → Word := fun _ => 0#32
  /-- `{RLB, MMWP, MML}` -/
  mseccfg : BitVec 3 := 0#3
  ctr : Counters := {}

/-- The inputs of `three_sipp_es_csr` in one cycle. -/
structure CsrIn where
  addr : BitVec 12
  we : Bool
  wdata : Word
  trapSet : Bool
  trapCause : BitVec 4
  trapInterrupt : Bool
  trapEpc : Word
  trapTval : Word
  mret : Bool
  retire : Bool
  evBranch : Bool
  evBrtaken : Bool
  evLoad : Bool
  evStore : Bool

/-- The interrupt pending lines `irq_ext`, `irq_timer` and `irq_soft`. -/
structure IrqLines where
  ext : Bool := false
  timer : Bool := false
  soft : Bool := false
  deriving DecidableEq

/-! ## `mstatus` fields -/

namespace Mstatus

def mie (v : Word) : Bool := v.getLsbD 3
def mpie (v : Word) : Bool := v.getLsbD 7
def mpp (v : Word) : BitVec 2 := v.extractLsb 12 11
def mprv (v : Word) : Bool := v.getLsbD 17

def setMie (v : Word) (b : Bool) : Word := v.extractLsb 31 4 ++ BitVec.ofBool b ++ v.extractLsb 2 0
def setMpie (v : Word) (b : Bool) : Word := v.extractLsb 31 8 ++ BitVec.ofBool b ++ v.extractLsb 6 0
def setMpp (v : Word) (p : BitVec 2) : Word := v.extractLsb 31 13 ++ p ++ v.extractLsb 10 0
def setMprv (v : Word) (b : Bool) : Word :=
  v.extractLsb 31 18 ++ BitVec.ofBool b ++ v.extractLsb 16 0

end Mstatus

/-- Position of an address in a group of four consecutive ones. -/
def group4 (base addr : BitVec 12) : Option (Fin 4) :=
  if addr = base then some 0
  else if addr = base + 1#12 then some 1
  else if addr = base + 2#12 then some 2
  else if addr = base + 3#12 then some 3
  else none

namespace Csr

variable (P : CsrParams) (c : Csr)

/-! ## Combinational outputs -/

/-- `misa` advertises U when User mode is configured. -/
def misaEff : Word := P.misaVal ||| (if P.uMode then 1#32 <<< 20 else 0#32)

/-- `fetch_m_o` -/
def fetchM : Bool := c.priv == 0b11#2

/-- `data_m_o`: the data-access privilege honours MPRV. -/
def dataM : Bool :=
  if P.uMode && Mstatus.mprv c.mstatus then Mstatus.mpp c.mstatus == 0b11#2
  else c.priv == 0b11#2

def mmwp : Bool := c.mseccfg.getLsbD 1
def mml : Bool := c.mseccfg.getLsbD 0
def rlb : Bool := c.mseccfg.getLsbD 2

/-- The L bit of region `k`. -/
def locked (k : BitVec 4) : Bool := (c.pmpcfg k).getLsbD 7

/-- With MML=1 and RLB=0, a `pmpcfg` write may not create a new executable
M-mode-only rule or a locked shared-code rule. -/
def mmlBlocked (v : BitVec 8) : Bool :=
  v.getLsbD 7 && ((v.getLsbD 2 && !v.getLsbD 1) || (!v.getLsbD 0 && v.getLsbD 1))

/-- Some implemented rule is locked. -/
def anyLocked : Bool := (List.range P.pmpRegions).any fun k => c.locked (BitVec.ofNat 4 k)

/-- 0x3B0..0x3BF -/
def isPmpaddr (addr : BitVec 12) : Bool := addr.extractLsb 11 4 == 0x3B#8

/-- 0x3A0..0x3A3 -/
def isPmpcfg (addr : BitVec 12) : Bool := addr.extractLsb 11 2 == 0x0E8#10

/-- `mip`: driven by the pending lines. -/
def mip (irq : IrqLines) : Word :=
  ((BitVec.ofBool irq.ext).setWidth 32 <<< 11) ||| ((BitVec.ofBool irq.timer).setWidth 32 <<< 7) |||
    ((BitVec.ofBool irq.soft).setWidth 32 <<< 3)

/-- `irq_req`: an enabled interrupt is pending. -/
def irqReq (irq : IrqLines) : Bool :=
  Mstatus.mie c.mstatus &&
    ((irq.ext && c.mie.getLsbD 11) || (irq.timer && c.mie.getLsbD 7) ||
      (irq.soft && c.mie.getLsbD 3))

/-- `irq_cause`: external > timer > software. -/
def irqCause (irq : IrqLines) : BitVec 4 :=
  if irq.ext && c.mie.getLsbD 11 then 11#4
  else if irq.timer && c.mie.getLsbD 7 then 7#4
  else 3#4

/-! ## Read port -/

/-- The configuration byte written by lane `jb` of `pmpcfg` register `addr`. -/
def cfgIndex (addr : BitVec 12) (jb : BitVec 2) : BitVec 4 := addr.extractLsb 1 0 ++ jb

/-- `csr_rdata` for the counters and event selectors. -/
def readCounter (addr : BitVec 12) : Option Word :=
  if addr = csrMcycle then some (c.ctr.mcycle.extractLsb 31 0)
  else if addr = csrMcycleh then some (c.ctr.mcycle.extractLsb 63 32)
  else if addr = csrMinstret then some (c.ctr.minstret.extractLsb 31 0)
  else if addr = csrMinstreth then some (c.ctr.minstret.extractLsb 63 32)
  else match group4 csrMhpmcounter3 addr, group4 csrMhpmcounter3h addr with
    | some k, _ => some ((c.ctr.mhpmcounter k).extractLsb 31 0)
    | none, some k => some ((c.ctr.mhpmcounter k).extractLsb 63 32)
    | none, none => none

/-- `csr_rdata`. `mvendorid`, `mhartid` and every unimplemented address read
as zero. -/
def rdata (irq : IrqLines) (addr : BitVec 12) : Word :=
  if 0 < P.pmpRegions ∧ isPmpaddr addr then c.pmpaddr (addr.extractLsb 3 0)
  else if 0 < P.pmpRegions ∧ isPmpcfg addr then
    c.pmpcfg (cfgIndex addr 3#2) ++ c.pmpcfg (cfgIndex addr 2#2) ++
      c.pmpcfg (cfgIndex addr 1#2) ++ c.pmpcfg (cfgIndex addr 0#2)
  else if 0 < P.pmpRegions ∧ addr = csrMseccfg then c.mseccfg.setWidth 32
  else if addr = csrMstatus then c.mstatus
  else if addr = csrMisa then misaEff P
  else if addr = csrMie then c.mie
  else if addr = csrMtvec then c.mtvec
  else if addr = csrMscratch then c.mscratch
  else if addr = csrMepc then c.mepc
  else if addr = csrMcause then c.mcause
  else if addr = csrMtval then c.mtval
  else if addr = csrMip then mip irq
  else if addr = csrMarchid then 0x41535452#32
  -- two groups of four, whose addresses do not overlap
  else match c.readCounter addr, group4 csrMhpmevent3 addr with
    | some v, _ => v
    | none, some k => (c.mhpmevent k).setWidth 32
    | none, none => 0#32

/-! ## Write port, traps and counters -/

/-- `ev_occurs`: does event code `ev` occur this cycle? -/
def evOccurs (i : CsrIn) (ev : BitVec 6) : Bool :=
  if ev = hpmEvCycle then true
  else if ev = hpmEvInstret then i.retire
  else if ev = hpmEvBranch then i.evBranch
  else if ev = hpmEvBrtaken then i.evBrtaken
  else if ev = hpmEvLoad then i.evLoad
  else if ev = hpmEvStore then i.evStore
  else false

/-- The increments every cycle makes before a software write overrides them. -/
def tick (i : CsrIn) : Counters where
  mcycle := c.ctr.mcycle + 1#64
  minstret := if i.retire then c.ctr.minstret + 1#64 else c.ctr.minstret
  mhpmcounter k :=
    if evOccurs i (c.mhpmevent k) then c.ctr.mhpmcounter k + 1#64 else c.ctr.mhpmcounter k

/-- A software write to a counter. A write to half of `mcycle` or `minstret`
assigns the full register; a write to half of an `mhpmcounter` assigns only its
slice, over this cycle's increment of the other one. -/
def writeCounter (i : CsrIn) : Counters :=
  let t := c.tick i
  -- these four take the other half from the register, not from this cycle's increment
  if i.addr = csrMcycle then { t with mcycle := c.ctr.mcycle.extractLsb 63 32 ++ i.wdata }
  else if i.addr = csrMcycleh then { t with mcycle := i.wdata ++ c.ctr.mcycle.extractLsb 31 0 }
  else if i.addr = csrMinstret then
    { t with minstret := c.ctr.minstret.extractLsb 63 32 ++ i.wdata }
  else if i.addr = csrMinstreth then
    { t with minstret := i.wdata ++ c.ctr.minstret.extractLsb 31 0 }
  else match group4 csrMhpmcounter3 i.addr, group4 csrMhpmcounter3h i.addr with
    | some k, _ =>
      { t with mhpmcounter := fun j =>
          if j = k then (t.mhpmcounter j).extractLsb 63 32 ++ i.wdata else t.mhpmcounter j }
    | none, some k =>
      { t with mhpmcounter := fun j =>
          if j = k then i.wdata ++ (t.mhpmcounter j).extractLsb 31 0 else t.mhpmcounter j }
    | none, none => t

/-- `trap_set`: save context and privilege, disable interrupts. -/
def trapEntry (i : CsrIn) : Csr :=
  { c with
    mepc := i.trapEpc
    mcause := BitVec.ofBool i.trapInterrupt ++ 0#27 ++ i.trapCause
    mtval := i.trapTval
    mstatus := Mstatus.setMpp
      (Mstatus.setMie (Mstatus.setMpie c.mstatus (Mstatus.mie c.mstatus)) false)
      (if P.uMode then c.priv else 0b11#2)
    priv := if P.uMode then 0b11#2 else c.priv }

/-- `mret`: restore the interrupt enable and the interrupted privilege; a
return below M clears MPRV. -/
def mretReturn : Csr :=
  let ms := Mstatus.setMpie (Mstatus.setMie c.mstatus (Mstatus.mpie c.mstatus)) true
  if P.uMode then
    let ms' := Mstatus.setMpp ms 0b00#2
    { c with
      priv := Mstatus.mpp c.mstatus
      mstatus := if Mstatus.mpp c.mstatus ≠ 0b11#2 then Mstatus.setMprv ms' false else ms' }
  -- with M-mode alone MPP stays M
  else { c with mstatus := Mstatus.setMpp ms 0b11#2 }

/-- `mstatus` writes: MPP only holds an implemented privilege. -/
def writeMstatus (v : Word) : Word :=
  if !P.uMode then Mstatus.setMpp v 0b11#2
  else if Mstatus.mpp v ≠ 0b11#2 then Mstatus.setMpp v 0b00#2
  else v

/-- `pmpaddr` writes: a locked entry is immutable unless RLB. -/
def writePmpaddr (k : BitVec 4) (v : Word) : BitVec 4 → Word := fun j =>
  if j = k ∧ (!c.locked k || c.rlb) then v else c.pmpaddr j

/-- Byte `jb` of a `pmpcfg` write takes effect. -/
def cfgLaneOk (addr : BitVec 12) (wdata : Word) (jb : BitVec 2) : Bool :=
  (!c.locked (cfgIndex addr jb) || c.rlb) &&
    !(c.mml && !c.rlb && mmlBlocked (wdata.extractLsb' (8 * jb.toNat) 8))

/-- `pmpcfg` writes: four byte lanes, each with its own guards. -/
def writePmpcfg (addr : BitVec 12) (wdata : Word) : BitVec 4 → BitVec 8 := fun j =>
  if j.extractLsb 3 2 = addr.extractLsb 1 0 ∧ c.cfgLaneOk addr wdata (j.extractLsb 1 0) then
    wdata.extractLsb' (8 * (j.extractLsb 1 0).toNat) 8
  else c.pmpcfg j

/-- `mseccfg` writes: MML and MMWP are sticky, RLB follows the lock rule. -/
def writeMseccfg (wdata : Word) : BitVec 3 :=
  (if c.rlb || !c.anyLocked P then wdata.extractLsb 2 2 else c.mseccfg.extractLsb 2 2) ++
    (c.mseccfg.extractLsb 1 1 ||| wdata.extractLsb 1 1) ++
    (c.mseccfg.extractLsb 0 0 ||| wdata.extractLsb 0 0)

/-- A software write to a register that is not a counter. -/
def write (addr : BitVec 12) (wdata : Word) : Csr :=
  if 0 < P.pmpRegions ∧ isPmpaddr addr then
    { c with pmpaddr := c.writePmpaddr (addr.extractLsb 3 0) wdata }
  else if 0 < P.pmpRegions ∧ isPmpcfg addr then
    { c with pmpcfg := c.writePmpcfg addr wdata }
  else if 0 < P.pmpRegions ∧ addr = csrMseccfg then
    { c with mseccfg := c.writeMseccfg P wdata }
  else if addr = csrMstatus then { c with mstatus := writeMstatus P wdata }
  else if addr = csrMie then { c with mie := wdata }
  -- `mtvec` keeps direct mode, `mepc` every bit of the value
  else if addr = csrMtvec then { c with mtvec := wdata.extractLsb 31 2 ++ 0b00#2 }
  else if addr = csrMscratch then { c with mscratch := wdata }
  else if addr = csrMepc then { c with mepc := wdata }
  else if addr = csrMcause then { c with mcause := wdata }
  else if addr = csrMtval then { c with mtval := wdata }
  else match group4 csrMhpmevent3 addr with
    | some k =>
      { c with mhpmevent := fun j => if j = k then wdata.extractLsb 5 0 else c.mhpmevent j }
    | none => c

/-- One clock of the CSR file: `trap_set` over `mret` over `csr_we`. -/
def step (i : CsrIn) : Csr :=
  if i.trapSet then { c.trapEntry P i with ctr := c.tick i }
  else if i.mret then { c.mretReturn P with ctr := c.tick i }
  else if i.we then { c.write P i.addr i.wdata with ctr := c.writeCounter i }
  else { c with ctr := c.tick i }

end Csr

end ThreeSippEs
