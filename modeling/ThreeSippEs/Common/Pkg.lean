import Mathlib.Tactic

/-!
# Shared types, opcodes and CSR constants (`three_sipp_es_pkg.sv`)

The datapath types used across the core and its leaf cells. A register or bus
of the RTL is a `BitVec` of its declared width, a one-bit net is a `Bool`, and
an SystemVerilog `enum` is an inductive type. A part select `x[hi:lo]` is
`x.extractLsb hi lo`.
-/

namespace ThreeSippEs

/-- `logic [XLEN-1:0]`, with `XLEN = 32`. -/
abbrev Word := BitVec 32

/-- The elaboration parameters of `three_sipp_es_core`. -/
structure Params where
  /-- `RESET_PC` -/
  resetPc : Word := 0#32
  /-- `SECURE`: User mode, the 8-region PMP and the `N` user traps. -/
  secure : Bool := false
  /-- `BPRED`: the dynamic branch predictor. -/
  bpred : Bool := true
  /-- `BHT_BITS`: `2 ^ bhtBits` two-bit gshare counters. -/
  bhtBits : Nat := 8
  /-- `BTB_BITS`: `2 ^ btbBits` direct-mapped BTB entries. -/
  btbBits : Nat := 6
  /-- `GHR_BITS`: length of the global history. -/
  ghrBits : Nat := 8

/-! ## Major opcodes (`instr[6:0]`) -/

def opLui : BitVec 7 := 0b0110111#7
def opAuipc : BitVec 7 := 0b0010111#7
def opJal : BitVec 7 := 0b1101111#7
def opJalr : BitVec 7 := 0b1100111#7
def opBranch : BitVec 7 := 0b1100011#7
def opLoad : BitVec 7 := 0b0000011#7
def opStore : BitVec 7 := 0b0100011#7
def opOpimm : BitVec 7 := 0b0010011#7
def opOp : BitVec 7 := 0b0110011#7
def opSystem : BitVec 7 := 0b1110011#7
def opFence : BitVec 7 := 0b0001111#7

/-! ## Operation selectors -/

/-- `alu_op_e`: base RV32I, Zbb, Zba, Zbs, Zbc and Zicond. -/
inductive AluOp where
  | add | sub | sll | slt | sltu
  | xor | srl | sra | or | and
  | passB
  | andn | orn | xnor
  | min | minu | max | maxu
  | clz | ctz | cpop
  | sextb | sexth | zexth
  | rol | ror
  | rev8 | orcb
  | sh1add | sh2add | sh3add
  | bset | bclr | binv | bext
  | clmul | clmulh | clmulr
  | czeqz | cznez
  deriving DecidableEq, Repr

/-- `md_op_e` -/
inductive MdOp where
  | mul | mulh | mulhsu | mulhu | div | divu | rem | remu
  deriving DecidableEq, Repr

/-- `br_op_e` -/
inductive BrOp where
  | eq | ne | lt | ge | ltu | geu | none
  deriving DecidableEq, Repr

/-- `wb_sel_e` -/
inductive WbSel where
  | alu | mem | pc4 | csr | md
  deriving DecidableEq, Repr

/-! ## Trap causes and CSR addresses -/

def causeIllegal : BitVec 4 := 2#4
def causeBreakpoint : BitVec 4 := 3#4
def causeEcallM : BitVec 4 := 11#4

def csrMstatus : BitVec 12 := 0x300#12
def csrMisa : BitVec 12 := 0x301#12
def csrMie : BitVec 12 := 0x304#12
def csrMtvec : BitVec 12 := 0x305#12
def csrMscratch : BitVec 12 := 0x340#12
def csrMepc : BitVec 12 := 0x341#12
def csrMcause : BitVec 12 := 0x342#12
def csrMtval : BitVec 12 := 0x343#12
def csrMip : BitVec 12 := 0x344#12
def csrMcycle : BitVec 12 := 0xB00#12
def csrMinstret : BitVec 12 := 0xB02#12
def csrMcycleh : BitVec 12 := 0xB80#12
def csrMinstreth : BitVec 12 := 0xB82#12
/-- `CSR_MHPMCOUNTER3`..`6` are four consecutive addresses. -/
def csrMhpmcounter3 : BitVec 12 := 0xB03#12
/-- `CSR_MHPMCOUNTER3H`..`6H` -/
def csrMhpmcounter3h : BitVec 12 := 0xB83#12
/-- `CSR_MHPMEVENT3`..`6` -/
def csrMhpmevent3 : BitVec 12 := 0x323#12
def csrMarchid : BitVec 12 := 0xF12#12
/-- `mseccfg`, which the CSR file addresses by its number. -/
def csrMseccfg : BitVec 12 := 0x747#12

/-! ## Hardware performance monitor events -/

def hpmEvCycle : BitVec 6 := 1#6
def hpmEvInstret : BitVec 6 := 2#6
def hpmEvBranch : BitVec 6 := 3#6
def hpmEvBrtaken : BitVec 6 := 4#6
def hpmEvLoad : BitVec 6 := 5#6
def hpmEvStore : BitVec 6 := 6#6

end ThreeSippEs
