import Mathlib.Data.Int.Bitwise
import ThreeSippEs.Core.Clock
import ThreeSippEs.Lib.FloatQuotient

/-!
# The golden model (`tools/golden_rv32im.py`)

One instruction of `CPU.step`, in the integers of the script: registers, memory words
and `pc` are kept below 2^32 by its `u32`, everything in between is unbounded. Shifts
and masks of integers that may be negative are those of two's complement.
-/

namespace ThreeSippEs.Golden

open FloatQuotient

def u32 (x : Int) : Word := BitVec.ofInt 32 x

/-- `(v & (s - 1)) - (v & s)` with `s = 1 << (bits - 1)`. -/
def sext (v : Int) (bits : Nat) : Int :=
  Int.land v (2 ^ (bits - 1) - 1) - Int.land v (2 ^ (bits - 1))

/-! ## Memory -/

def dramBase : Nat := 0x80000000
def tohostAddr : Nat := 0x20000000

/-- The image, the words of the DRAM (absent ones read as zero), and the stop address. -/
structure Mem where
  imem : List Word
  dram : Nat → Word := fun _ => 0#32
  tohost : Option Word := none

namespace Mem

variable (m : Mem)

def inDram (addr : Nat) : Bool := dramBase ≤ addr && addr < dramBase + (1 <<< 28)

/-- `ifetch`: NOPs behind the image. -/
def ifetch (addr : Nat) : Word := m.imem.getD (addr >>> 2) 0x13#32

/-- `load_word` -/
def loadWord (addr : Nat) : Word :=
  if inDram addr then m.dram ((addr - dramBase) >>> 2) else m.imem.getD (addr >>> 2) 0#32

/-- The loop of `store` over the lanes. -/
def lanes (cur val be : Nat) : Nat :=
  (List.range 4).foldl
    (fun new b =>
      new ||| ((if (be >>> b) &&& 1 = 1 then (val >>> (8 * b)) &&& 0xFF
        else (cur >>> (8 * b)) &&& 0xFF) <<< (8 * b))) 0

/-- `store` -/
def store (addr val be : Nat) : Mem :=
  if addr = tohostAddr then { m with tohost := some (u32 val) }
  else if inDram addr then
    let i := (addr - dramBase) >>> 2
    { m with dram := fun j => if j = i then u32 (lanes (m.dram i).toNat val be) else m.dram j }
  else m

end Mem

/-! ## Fields and immediates -/

/-- What `step` takes out of the instruction. -/
structure Fields where
  op : Nat
  rd : Nat
  f3 : Nat
  rs1 : Nat
  rs2 : Nat
  f7 : Nat
  immI : Int
  immS : Int
  immB : Int
  immU : Nat
  immJ : Int

def fields (ins : Nat) : Fields where
  op := ins &&& 0x7F
  rd := (ins >>> 7) &&& 0x1F
  f3 := (ins >>> 12) &&& 7
  rs1 := (ins >>> 15) &&& 0x1F
  rs2 := (ins >>> 20) &&& 0x1F
  f7 := (ins >>> 25) &&& 0x7F
  immI := sext (ins >>> 20 : Nat) 12
  immS := sext (((ins >>> 25) <<< 5) ||| ((ins >>> 7) &&& 0x1F) : Nat) 12
  immB := sext (((ins >>> 31) <<< 12) ||| (((ins >>> 7) &&& 1) <<< 11) |||
    (((ins >>> 25) &&& 0x3F) <<< 5) ||| (((ins >>> 8) &&& 0xF) <<< 1) : Nat) 13
  immU := ins &&& 0xFFFFF000
  immJ := sext (((ins >>> 31) <<< 20) ||| (((ins >>> 12) &&& 0xFF) <<< 12) |||
    (((ins >>> 20) &&& 1) <<< 11) ||| (((ins >>> 21) &&& 0x3FF) <<< 1) : Nat) 21

/-! ## State -/

structure Cpu where
  x : BitVec 5 → Word
  /-- never written -/
  x0 : x 0#5 = 0#32
  pc : Word
  mem : Mem
  csr : BitVec 12 → Word

/-- What an instruction does: `wb`, `npc`, the memory, the CSRs, and the cause of a
trap. -/
structure Out where
  wb : Option Word := none
  npc : Word
  mem : Mem
  csr : BitVec 12 → Word
  trap : Option Word := none

namespace Cpu

variable (c : Cpu) (f : Fields)

/-- `self.x[rs1]` and `self.x[rs2]` -/
def a : Nat := (c.x (BitVec.ofNat 5 f.rs1)).toNat
def b : Nat := (c.x (BitVec.ofNat 5 f.rs2)).toNat

/-- The values of `step` before the instruction is looked at. -/
def out : Out := { npc := u32 (c.pc.toNat + 4), mem := c.mem, csr := c.csr }

/-! ## The arms of `step` -/

/-- The branch condition. -/
def taken : Bool :=
  let a := c.a f
  let b := c.b f
  if f.f3 = 0 then a == b
  else if f.f3 = 1 then a != b
  else if f.f3 = 4 then sext a 32 < sext b 32
  else if f.f3 = 5 then sext a 32 ≥ sext b 32
  else if f.f3 = 6 then a < b
  else if f.f3 = 7 then a ≥ b
  else false

def branch : Out := if c.taken f then { c.out with npc := u32 (c.pc.toNat + f.immB) } else c.out

/-- A load takes its value out of one word; no cause is assigned for an illegal width. -/
def load : Out :=
  let addr := (u32 (c.a f + f.immI)).toNat
  let w := (c.mem.loadWord addr).toNat
  let off := addr &&& 3
  if f.f3 = 0 then { c.out with wb := some (u32 (sext ((w >>> (8 * off)) &&& 0xFF : Nat) 8)) }
  else if f.f3 = 4 then { c.out with wb := some (u32 ((w >>> (8 * off)) &&& 0xFF : Nat)) }
  else if f.f3 = 1 then
    { c.out with wb := some (u32 (sext ((w >>> (16 * (off >>> 1))) &&& 0xFFFF : Nat) 16)) }
  else if f.f3 = 5 then
    { c.out with wb := some (u32 ((w >>> (16 * (off >>> 1))) &&& 0xFFFF : Nat)) }
  else if f.f3 = 2 then { c.out with wb := some (u32 w) }
  else { c.out with trap := some 2#32 }

/-- A store hands one word and its lanes to the memory. -/
def store : Out :=
  let addr := (u32 (c.a f + f.immS)).toNat
  let off := addr &&& 3
  let b := c.b f
  if f.f3 = 0 then { c.out with mem := c.mem.store addr ((b &&& 0xFF) <<< (8 * off)) (1 <<< off) }
  else if f.f3 = 1 then
    { c.out with mem := c.mem.store addr ((b &&& 0xFFFF) <<< (8 * off)) (0b0011 <<< off) }
  else if f.f3 = 2 then { c.out with mem := c.mem.store addr b 0b1111 }
  else { c.out with trap := some 2#32 }

/-- `int(aa / bb)`: the division is that of binary64. -/
def floatDiv (aa bb : Int) : Int := truncate (roundTo 53 (aa / bb))

/-- RV32M -/
def mext : Int :=
  let a := c.a f
  let b := c.b f
  let aa := sext a 32
  let bb := sext b 32
  let overflow := aa = -2 ^ 31 ∧ bb = -1
  if f.f3 = 0 then a * b
  else if f.f3 = 1 then (aa * bb) >>> 32
  else if f.f3 = 2 then (aa * b) >>> 32
  else if f.f3 = 3 then (a * b : Nat) >>> 32
  else if f.f3 = 4 then
    if b = 0 then 0xFFFFFFFF else if ¬ overflow then (u32 (floatDiv aa bb)).toNat else 0x80000000
  else if f.f3 = 5 then if b = 0 then 0xFFFFFFFF else (a / b : Nat)
  else if f.f3 = 6 then
    if b = 0 then a else if ¬ overflow then (u32 (aa - floatDiv aa bb * bb)).toNat else 0
  else if b = 0 then a else a - (a / b : Nat) * b

/-- The operations of OP and OP-IMM. -/
def alu (immMode : Bool) : Int :=
  let a := c.a f
  let b := c.b f
  let src2 : Int := if immMode then f.immI else b
  let sh := (Int.land src2 0x1F).toNat
  if f.f3 = 0 then if !immMode && f.f7 == 0x20 then a - b else a + src2
  else if f.f3 = 1 then (a <<< sh : Nat)
  else if f.f3 = 2 then if sext a 32 < sext src2 32 then 1 else 0
  else if f.f3 = 3 then if (u32 a).toNat < (u32 src2).toNat then 1 else 0
  else if f.f3 = 4 then Int.xor a src2
  else if f.f3 = 5 then
    if f.f7 = 0x20 then sext a 32 >>> sh else ((a &&& 0xFFFFFFFF) >>> sh : Nat)
  else if f.f3 = 6 then Int.lor a src2
  else Int.land a src2

def opOrImm : Out :=
  let immMode := f.op == 0x13
  if !immMode && f.f7 == 1 then { c.out with wb := some (u32 (c.mext f)) }
  else { c.out with wb := some (u32 (c.alu f immMode)) }

/-- `rd_csr` -/
def rdCsr (addr : Nat) : Word :=
  if addr = 0x301 then 0x40001100#32
  else if addr = 0xF14 then 0#32
  else c.csr (BitVec.ofNat 12 addr)

/-- SYSTEM; `ins >> 20` is the CSR address. -/
def system (ins : Nat) : Out :=
  if f.f3 = 0 then
    if Int.land f.immI 0xFFF = 0 then { c.out with trap := some 11#32 }
    else if ins >>> 20 = 0x001 then { c.out with trap := some 3#32 }
    else if ins >>> 20 = 0x302 then { c.out with npc := c.csr 0x341#12 }
    else { c.out with trap := some 2#32 }
  else
    let addr := (ins >>> 20) &&& 0xFFF
    let old := c.rdCsr addr
    let src : Word := if f.f3 &&& 0b100 ≠ 0 then u32 f.rs1 else c.x (BitVec.ofNat 5 f.rs1)
    let fn := f.f3 &&& 0b011
    let new :=
      if fn = 1 then src else if fn = 2 then old ||| src else if fn = 3 then old &&& ~~~src else old
    { c.out with
      wb := some old
      csr := if ¬ (fn ≠ 1 ∧ f.rs1 = 0) then
          fun r => if r = BitVec.ofNat 12 addr then new else c.csr r
        else c.csr }

/-- The instruction, by its opcode. -/
def exec (ins : Nat) : Out :=
  let f := fields ins
  if f.op = 0x37 then { c.out with wb := some (u32 f.immU) }
  else if f.op = 0x17 then { c.out with wb := some (u32 (u32 (c.pc.toNat + f.immU)).toNat) }
  else if f.op = 0x6F then
    { c.out with wb := some (u32 (c.pc.toNat + 4)), npc := u32 (c.pc.toNat + f.immJ) }
  else if f.op = 0x67 then
    { c.out with
      wb := some (u32 (c.pc.toNat + 4))
      npc := u32 (Int.land (c.a f + f.immI) (-2)) }
  else if f.op = 0x63 then c.branch f
  else if f.op = 0x03 then c.load f
  else if f.op = 0x23 then c.store f
  else if f.op = 0x13 ∨ f.op = 0x33 then c.opOrImm f
  else if f.op = 0x0F then c.out
  else if f.op = 0x73 then c.system f ins
  else { c.out with trap := some 2#32 }

/-! ## One step -/

/-- The line that `step` prints: the instruction and the register it writes. -/
structure Retire where
  pc : Word
  instr : Word
  write : Option (BitVec 5 × Word)
  deriving DecidableEq

/-- `wb` and a trap: x0 is not written, nor is anything in a trap. -/
def written (rd : Nat) (o : Out) : Option (BitVec 5 × Word) :=
  if rd ≠ 0 ∧ o.trap = none then o.wb.map fun v => (BitVec.ofNat 5 rd, v) else none

def ins : Word := c.mem.ifetch c.pc.toNat

/-- What the next instruction does. -/
def next : Out := c.exec c.ins.toNat

def rd : Nat := (fields c.ins.toNat).rd

def retire : Retire := ⟨c.pc, c.ins, written c.rd c.next⟩

/-- The registers after the commit. -/
def xNext : BitVec 5 → Word :=
  match written c.rd c.next with
  | some (r, v) => fun q => if q = r then v else c.x q
  | none => c.x

theorem rd_lt (n : Nat) : (fields n).rd < 32 := by
  show (n >>> 7) &&& 0x1F < 32
  exact Nat.lt_succ_of_le Nat.and_le_right

theorem written_ne_zero {rd : Nat} {o : Out} {r : BitVec 5} {v : Word} (hlt : rd < 32)
    (h : written rd o = some (r, v)) : r ≠ 0#5 := by
  unfold written at h
  by_cases hc : rd ≠ 0 ∧ o.trap = none
  · rw [if_pos hc] at h
    obtain ⟨v', -, hv⟩ := Option.map_eq_some_iff.mp h
    intro h0
    have hnat := congrArg BitVec.toNat ((Prod.mk.inj hv).1.trans h0)
    rw [BitVec.toNat_ofNat, Nat.mod_eq_of_lt hlt] at hnat
    exact hc.1 hnat
  · rw [if_neg hc] at h
    exact absurd h (Option.some_ne_none _).symm

theorem xNext_zero : c.xNext 0#5 = 0#32 := by
  unfold xNext
  cases hw : written c.rd c.next with
  | none => exact c.x0
  | some w =>
    obtain ⟨r, v⟩ := w
    show (if 0#5 = r then v else c.x 0#5) = 0#32
    rw [if_neg (written_ne_zero (rd_lt _) hw).symm]
    exact c.x0

/-- `step`: a trap saves its cause and goes to `mtvec`. -/
def step : Cpu where
  x := c.xNext
  x0 := c.xNext_zero
  pc := if c.next.trap.isSome then c.csr 0x305#12 else c.next.npc
  mem := c.next.mem
  csr :=
    match c.next.trap with
    | some cause =>
      fun r => if r = 0x341#12 then c.pc else if r = 0x342#12 then cause else c.next.csr r
    | none => c.next.csr

end Cpu

end ThreeSippEs.Golden
