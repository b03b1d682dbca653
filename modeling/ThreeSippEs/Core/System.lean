import ThreeSippEs.Core.Clock

/-!
# The core with its memories

Byte-addressed instruction and data memories with combinational reads, as the
testbenches and the SoC connect them, and runs of the composed system. A data
write also reaches the instruction memory where `imemWritable` says so: nowhere
in the Harvard testbench, in the IMEM region with `IMEM_DATA_WRITE`.
-/

namespace ThreeSippEs

/-- A byte-addressed memory. -/
abbrev Bytes := Word → BitVec 8

/-- The word containing address `a`, little-endian. -/
def Bytes.readWord (m : Bytes) (a : Word) : Word :=
  let b : Word := a.extractLsb 31 2 ++ 0b00#2
  m (b + 3#32) ++ m (b + 2#32) ++ m (b + 1#32) ++ m b

/-- Write the enabled lanes of the word containing `addr`. -/
def Bytes.writeWord (m : Bytes) (addr : Word) (be : BitVec 4) (wdata : Word) : Bytes := fun a =>
  if a.extractLsb 31 2 = addr.extractLsb 31 2 ∧ be.getLsbD (a.extractLsb 1 0).toNat then
    wdata.extractLsb' (8 * (a.extractLsb 1 0).toNat) 8
  else m a

/-- A memory image given by its words, zero behind them. -/
def Bytes.ofWords (l : List Word) : Bytes := fun a =>
  (l.getD (a.toNat / 4) 0#32).extractLsb' (8 * (a.toNat % 4)) 8

/-- The instruction memory and the data memory. -/
structure Memory where
  imem : Bytes
  dmem : Bytes

/-- A data write: the data memory, and the instruction memory where the write
reaches it. -/
def Memory.write (m : Memory) (imemWritable : Word → Bool) (addr : Word) (be : BitVec 4)
    (wdata : Word) : Memory where
  imem := if imemWritable addr then m.imem.writeWord addr be wdata else m.imem
  dmem := m.dmem.writeWord addr be wdata

/-- What the memories answer to the core in one cycle. -/
def Memory.answer {P : Params} (m : Memory) (e : ExtIn) (c : Core P) : CoreIn where
  toExtIn := e
  imemRdata := m.imem.readWord c.imemAddr
  dmemRdata := m.dmem.readWord c.w.dmemAddr

/-- A power-up state with every register zero. -/
def Core.powerUp (P : Params) : Core P where
  f :=
    { pc := 0#32, fxPc := 0#32, fxInstr := 0#32, fxValid := false, fxLen := 0#3, straddle := false
      stradLo := 0#16, fxPredTaken := false, fxPredTarget := 0#32, fxGhist := 0#_ }
  bp :=
    { bht := fun _ => 0#2, ghist := 0#_
      btb := fun _ => { valid := false, tag := 0#_, tgt := 0#32, isjal := false } }
  ras := { ras := fun _ => 0#32, rasPtr := 0#3, rasCnt := 0#4 }
  regs := fun _ => 0#32
  md := {}
  mdInflight := false
  csr := {}
  ucsr := {}
  trig := {}
  w := {}
  dbg := {}

namespace Memory

variable (P : Params) (m : Memory) (e : ExtIn)

/-- Its inputs in the clock of the reset. -/
def resetIn : CoreIn := m.answer e (Core.powerUp P)

/-- The core out of reset, on memories that are never written. -/
def boot : Core P := (Core.powerUp P).reset (m.resetIn P e)

/-- Its state after `n` clocks. -/
def bench (n : Nat) : Core P := Clocked.feedback Core.step (m.answer e) (m.boot P e) n

/-- Its inputs, clock by clock. -/
def inputs (n : Nat) : CoreIn := m.answer e (m.bench P e n)

/-- The bench is a run of the core. -/
theorem runFrom_inputs (n : Nat) :
    Core.runFrom (Core.powerUp P) (m.resetIn P e) (m.inputs P e) n =
      m.bench P e n :=
  Clocked.run_feedback Core.step (m.answer e) (m.boot P e) n

end Memory

/-- The core connected to its memories. -/
structure Sys (P : Params) where
  core : Core P
  mem : Memory

namespace Sys

variable {P : Params} (imemWritable : Word → Bool) (s : Sys P) (e : ExtIn)

def coreIn : CoreIn := s.mem.answer e s.core

/-- One clock: combinational reads, writes at the clock edge. -/
def step : Sys P where
  core := s.core.step (s.coreIn e)
  mem :=
    if s.core.w.dmemWe then
      s.mem.write imemWritable s.core.w.dmemAddr s.core.w.dmemBe s.core.w.dmemWdata
    else s.mem

/-- One clock with `rst` high. -/
def reset : Sys P where
  core := s.core.reset (s.coreIn e)
  mem := (s.step imemWritable e).mem

/-- The core of a run of the system is a run of the core, on the answers of the
memories. -/
theorem core_run (ins : Nat → ExtIn) (n : Nat) :
    (Clocked.run (step imemWritable) s ins n).core =
      Clocked.run Core.step s.core
        (fun k => (Clocked.run (step imemWritable) s ins k).coreIn (ins k)) n := by
  induction n with
  | zero => rfl
  | succ n ih =>
    rw [Clocked.run_succ, Clocked.run_succ, ← ih]
    rfl

section Run

variable {imemWritable}

/-- Out of reset it is one of `Core.runFrom`. -/
theorem run_core (s₀ : Sys P) (e₀ : ExtIn) (ins : Nat → ExtIn) (n : Nat) :
    (Clocked.run (step imemWritable) (s₀.reset imemWritable e₀) ins n).core =
      Core.runFrom s₀.core (s₀.coreIn e₀)
        (fun k =>
          (Clocked.run (step imemWritable) (s₀.reset imemWritable e₀) ins k).coreIn (ins k))
        n :=
  core_run imemWritable (s₀.reset imemWritable e₀) ins n

/-- X is empty in Debug Mode, in every reachable state. -/
theorem running_of_valid (s₀ : Sys P) (e₀ : ExtIn) (ins : Nat → ExtIn) (n : Nat)
    (hv : (Clocked.run (step imemWritable) (s₀.reset imemWritable e₀) ins n).core.f.fxValid =
      true) :
    (Clocked.run (step imemWritable) (s₀.reset imemWritable e₀) ins n).core.dbg.dbgMode =
      false := by
  rw [run_core] at hv ⊢
  exact Core.running_of_valid _ _ _ _ hv

/-- A halted core has nothing in X and W and no halt under way. -/
theorem halted_empty (s₀ : Sys P) (e₀ : ExtIn) (ins : Nat → ExtIn) (n : Nat)
    (hm : (Clocked.run (step imemWritable) (s₀.reset imemWritable e₀) ins n).core.dbg.dbgMode =
      true) :
    (Clocked.run (step imemWritable) (s₀.reset imemWritable e₀) ins n).core.f.fxValid = false ∧
      (Clocked.run (step imemWritable) (s₀.reset imemWritable e₀) ins n).core.w.xwValid = false ∧
      (Clocked.run (step imemWritable) (s₀.reset imemWritable e₀) ins n).core.dbg.haltReq =
        false ∧
      (Clocked.run (step imemWritable) (s₀.reset imemWritable e₀) ins n).core.dbg.dpcCapValid =
        false := by
  rw [run_core] at hm ⊢
  obtain ⟨hv, hw⟩ := Core.halted_empty _ _ _ _ hm
  have hans := Core.answered s₀.core (s₀.coreIn e₀)
    (fun k => (Clocked.run (step imemWritable) (s₀.reset imemWritable e₀) ins k).coreIn (ins k)) n
  refine ⟨hv, hw, hans.halted hm, ?_⟩
  by_contra hcap
  rw [Bool.not_eq_false] at hcap
  exact absurd ((hans.halted hm).symm.trans (hans.captured hcap)) Bool.false_ne_true

end Run

end Sys

end ThreeSippEs
