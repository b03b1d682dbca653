import ThreeSippEs.Common.MuldivCorrect
import ThreeSippEs.Core.System

/-!
# The one-instruction-at-a-time machine

The programmer's view of the core: fetch at `pc`, expand, decode, read the
registers, execute with the cells of the X stage, perform the memory access and
advance `pc`. It has no pipeline, no prediction, no beats and no counters.

- `Arch`: the architectural state, `Arch.step`: one instruction;
- `Arch.events`: what one instruction shows, its accesses on the data bus and
  its retirement;
- `Arch.fetchClean`: the instruction at `pc` has not been written since the last
  FENCE.I.

The machine serves as specification only. Interrupts come as labels of the
steps (`Env`), because nothing in the architecture says when they arrive.
-/

namespace ThreeSippEs

/-! ## Observations -/

/-- An access on the data bus. -/
structure Access where
  addr : Word
  be : BitVec 4
  write : Bool
  data : Word
  deriving DecidableEq

/-- What the core shows: bus accesses and retired instructions, these with the
register they write. -/
inductive Event where
  | bus (acc : Access)
  | retire (pc instr : Word) (wr : Option (BitVec 5 × Word))
  deriving DecidableEq

/-- The effect of an access on the memories. -/
def Memory.access (imemWritable : Word → Bool) (m : Memory) (acc : Access) : Memory :=
  if acc.write then m.write imemWritable acc.addr acc.be acc.data else m

/-- The access changes the instruction byte at `b`. -/
def Access.touches (imemWritable : Word → Bool) (acc : Access) (b : Word) : Bool :=
  acc.write && imemWritable acc.addr &&
    (b.extractLsb 31 2 == acc.addr.extractLsb 31 2 && acc.be.getLsbD (b.extractLsb 1 0).toNat)

/-- The aligned halfword containing `a`, little-endian. -/
def Bytes.half (m : Bytes) (a : Word) : BitVec 16 :=
  m (a.extractLsb 31 1 ++ 1#1) ++ m (a.extractLsb 31 1 ++ 0#1)

/-- The instruction at `a` is compressed. -/
def Bytes.compAt (m : Bytes) (a : Word) : Bool := Rvc.isCompressed (m.half a)

/-- The (expanded) instruction at `a`. -/
def Bytes.instrAt (m : Bytes) (a : Word) : Word :=
  if m.compAt a then FStage.cInstr (m.half a) else m.half (a + 2#32) ++ m.half a

/-- Its length in bytes. -/
def Bytes.lenAt (m : Bytes) (a : Word) : BitVec 3 := if m.compAt a then 2#3 else 4#3

/-! ## Memory access of one instruction -/

/-- The reservation held by LR/SC. -/
abbrev Resv := Option Word

namespace XwReg

variable (r : XwReg)

/-- The words of a load or store, with their byte enables and store data: one
word, or two when the access crosses a word boundary. -/
def words : List (Word × BitVec 4 × Word) :=
  (r.wordAddr, r.beWin.extractLsb 3 0, r.stWin.extractLsb 31 0) ::
    if r.crosses then [(r.wordAddr + 4#32, r.beWin.extractLsb 7 4, r.stWin.extractLsb 63 32)]
    else []

/-- The bus accesses of the instruction, in order. -/
def accesses (resv : Resv) (mem : Memory) : List Access :=
  let old := mem.dmem.readWord r.amoAddrAl
  if r.isAmo then
    if r.isLr then [⟨r.amoAddrAl, 0b1111#4, false, old⟩]
    else if r.isSc then
      if resv = some r.amoAddrAl then [⟨r.amoAddrAl, 0b1111#4, true, r.amoB⟩] else []
    else [⟨r.amoAddrAl, 0b1111#4, false, old⟩, ⟨r.amoAddrAl, 0b1111#4, true, r.amoRes old⟩]
  else if r.memRe then
    r.words.map fun (a, be, _) => ⟨a, be, false, mem.dmem.readWord a⟩
  else if r.memWe then r.words.map fun (a, be, v) => ⟨a, be, true, v⟩
  else []

/-- The value written to `rd`. -/
def value (resv : Resv) (mem : Memory) : Word :=
  if r.isAmo then
    if r.isSc && !r.isLr then (if resv = some r.amoAddrAl then 0#32 else 1#32)
    else mem.dmem.readWord r.amoAddrAl
  else if r.memRe then
    r.wLoad ((if r.crosses then mem.dmem.readWord (r.wordAddr + 4#32) else 0#32) ++
      mem.dmem.readWord r.wordAddr)
  else r.result

/-- The reservation afterwards: LR sets it, SC and stores clear it. -/
def resvNext (resv : Resv) : Resv :=
  if r.isAmo && r.isLr then some r.amoAddrAl
  else if r.isAmo && r.isSc then none
  else if r.memWe then none
  else resv

/-- The register written and its value. -/
def writes (resv : Resv) (mem : Memory) : Option (BitVec 5 × Word) :=
  if r.regWe && r.rd != 0#5 then some (r.rd, r.value resv mem) else none

end XwReg

/-! ## Architectural state -/

/-- The addresses of the counters. -/
def Csr.counterAddrs : List (BitVec 12) :=
  [csrMcycle, csrMcycleh, csrMinstret, csrMinstreth,
    csrMhpmcounter3, csrMhpmcounter3 + 1#12, csrMhpmcounter3 + 2#12, csrMhpmcounter3 + 3#12,
    csrMhpmcounter3h, csrMhpmcounter3h + 1#12, csrMhpmcounter3h + 2#12, csrMhpmcounter3h + 3#12]

def Csr.isCounter (a : BitVec 12) : Bool := counterAddrs.contains a

/-- The counters play no part in the architecture. -/
def Csr.uncounted (c : Csr) : Csr := { c with ctr := {} }

/-- The architectural state. -/
structure Arch where
  pc : Word
  regs : Regs
  csr : Csr
  ucsr : Ucsr
  trig : Trig
  resv : Resv
  mem : Memory
  /-- the instruction bytes written since the last FENCE.I -/
  dirty : Word → Bool

/-- What the outside contributes to one instruction. -/
structure Env where
  irq : IrqLines := {}
  /-- the debugger holds interrupts off -/
  masked : Bool := false
  /-- the answer of the M unit to an M-extension instruction -/
  md : Word := 0#32
  deriving DecidableEq

/-- The next PC in program order. -/
def XIn.nextPc (P : Params) (x : XIn) : Word :=
  if x.exTrap P then (if x.delegTrap P then x.ucsr.utvec else x.csr.mtvec)
  else if x.isUret P then x.ucsr.uepc
  else if x.dec.isMret then x.csr.mepc
  else if x.takeIrq P then x.csr.mtvec
  else if x.dec.isJalr then x.jalrT
  else x.brActualNext

namespace Arch

variable (P : Params) (imemWritable : Word → Bool) (a : Arch) (e : Env)

/-! ## Fetch -/

/-- The (expanded) instruction at `pc`. -/
def instr : Word := a.mem.imem.instrAt a.pc

/-- Its length in bytes. -/
def len : BitVec 3 := a.mem.imem.lenAt a.pc

/-- No byte of the aligned halfword containing `p` has been written since the
last FENCE.I. -/
def halfClean (p : Word) : Bool :=
  !a.dirty (p.extractLsb 31 1 ++ 1#1) && !a.dirty (p.extractLsb 31 1 ++ 0#1)

/-- Nor has any byte of the instruction at `pc`. -/
def fetchClean : Bool :=
  a.halfClean a.pc && (a.mem.imem.compAt a.pc || a.halfClean (a.pc + 2#32))

/-! ## Execute -/

/-- What the cells of the X stage see of the instruction. -/
def xIn : XIn where
  fxValid := true
  fxPc := a.pc
  fxInstr := a.instr
  fxLen := a.len
  op1 := Regfile.get a.regs (a.instr.extractLsb 19 15)
  op2 := Regfile.get a.regs (a.instr.extractLsb 24 20)
  exFreeze := false
  mdResult := e.md
  csr := a.csr
  ucsr := a.ucsr
  trig := a.trig
  irq := e.irq
  dbgFreeze := e.masked

/-- What the instruction hands to the memory access and the writeback. -/
def xw : XwReg := (a.xIn e).xwNext P

/-- Its accesses on the data bus. -/
def accesses : List Access := (a.xw P e).accesses a.resv a.mem

/-- What it shows: its accesses, then its retirement. -/
def events : List Event :=
  (a.accesses P e).map .bus ++
    [.retire (a.xw P e).pc (a.xw P e).instr ((a.xw P e).writes a.resv a.mem)]

/-- One instruction. -/
def step : Arch where
  pc := (a.xIn e).nextPc P
  regs := Regfile.write a.regs (a.xw P e).regWe (a.xw P e).rd ((a.xw P e).value a.resv a.mem)
  csr := ((a.xIn e).csrNext P false).uncounted
  ucsr := (a.xIn e).ucsrNext P
  trig := (a.xIn e).trigNext P
  resv := (a.xw P e).resvNext a.resv
  mem := (a.accesses P e).foldl (Memory.access imemWritable) a.mem
  dirty := fun b =>
    if (a.xIn e).isFencei && !(a.xIn e).exTrap P then false
    else a.dirty b || (a.accesses P e).any fun acc => acc.touches imemWritable b

/-- It neither traps nor returns nor writes a CSR, and no trigger fires on it. -/
def keepsFiles : Bool :=
  !(a.xIn e).mTrapSet P && !(a.xIn e).csrMret P && !(a.xIn e).csrWeEff P && !(a.xIn e).trigFire

/-- Such an instruction leaves the CSR file and the triggers alone. -/
theorem step_files (h : a.keepsFiles P e = true) :
    (a.step P imemWritable e).csr = a.csr.uncounted ∧ (a.step P imemWritable e).trig = a.trig := by
  unfold keepsFiles at h
  simp only [Bool.and_eq_true, Bool.not_eq_true'] at h
  obtain ⟨⟨⟨hset, hret⟩, hwe⟩, hfire⟩ := h
  constructor
  · show ((a.xIn e).csrNext P false).uncounted = _
    unfold XIn.csrNext Csr.step XIn.csrIn
    rw [hset, hret, hwe]
    rfl
  · show (a.xIn e).trigNext P = _
    unfold XIn.trigNext XIn.trigCsrWe
    rw [hwe, hfire]
    rfl

/-! ## Runs -/

/-- The state after `k` instructions without interrupts. -/
def after (k : Nat) : Arch := Clocked.seqRun (step P imemWritable) a (List.replicate k {})

theorem after_succ (k : Nat) :
    a.after P imemWritable (k + 1) = (a.after P imemWritable k).step P imemWritable {} := by
  unfold after
  rw [List.replicate_succ', Clocked.seqRun_append]
  rfl

/-- What these instructions show. -/
def trace (k : Nat) : List Event :=
  Clocked.seqTrace (step P imemWritable) (events P) a (List.replicate k {})

/-! ## Classes of instructions -/

/-- The next instruction reads a counter into a register. -/
def readsCounter : Bool :=
  (decode a.instr).isCsr && Csr.isCounter (a.instr.extractLsb 31 20) &&
    a.instr.extractLsb 11 7 != 0#5

/-- The next instruction is of the M extension. -/
def isMd : Bool := (decode a.instr).isMd

/-- The answer the M unit owes it. -/
def mdValue : Word :=
  Mext.value (decode a.instr).mdOp (Regfile.get a.regs (a.instr.extractLsb 19 15))
    (Regfile.get a.regs (a.instr.extractLsb 24 20))

end Arch

end ThreeSippEs
