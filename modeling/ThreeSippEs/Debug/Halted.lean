import ThreeSippEs.Core.System
import ThreeSippEs.Debug.Registers

/-!
# One clock of a halted core

A core in Debug Mode has nothing in X and W. It does what the debugger asks for on the
port of the abstract commands and nothing else.

- `Halted`, `halted_of_dbgMode`: the state, and that every reachable core in Debug Mode is
  in it;
- `Halted.step_held`: the access of the debugger is all that a clock changes;
- `Halted.step_registers`: and so it is of the registers when the core is resumed.
-/

namespace ThreeSippEs

open Clocked DebugModule

namespace Core

variable {P : Params}

/-- In Debug Mode, with nothing in X and W. -/
structure Halted (c : Core P) : Prop where
  dbgMode : c.dbg.dbgMode = true
  fxValid : c.f.fxValid = false
  xwValid : c.w.xwValid = false
  beat2 : c.w.beat2 = false

/-- An empty W stage is in no second beat. -/
theorem beat2_valid (s₀ : Core P) (i₀ : CoreIn) (ins : Nat → CoreIn) (n : Nat)
    (hb : (runFrom s₀ i₀ ins n).w.beat2 = true) : (runFrom s₀ i₀ ins n).w.xwValid = true := by
  cases n with
  | zero => exact absurd hb Bool.false_ne_true
  | succ n =>
    have hstall : (runFrom s₀ i₀ ins n).w.memBeatStall = true := hb
    show (WStage.step _ _ _ _).xwValid = true
    rw [(WStage.step_of_stall _ hstall _ _ _).1]
    exact WStage.xwValid_of_memBeatStall _ hstall

/-- A reachable core in Debug Mode is halted. -/
theorem halted_of_dbgMode (s₀ : Core P) (i₀ : CoreIn) (ins : Nat → CoreIn) (n : Nat)
    (hm : (runFrom s₀ i₀ ins n).dbg.dbgMode = true) : Halted (runFrom s₀ i₀ ins n) := by
  obtain ⟨hv, hw⟩ := halted_empty s₀ i₀ ins n hm
  refine ⟨hm, hv, hw, ?_⟩
  by_contra hb
  rw [Bool.not_eq_false] at hb
  exact Bool.false_ne_true (hw.symm.trans (beat2_valid s₀ i₀ ins n hb))

namespace Halted

variable {c : Core P} {i : CoreIn}

theorem memBeatStall (h : Halted c) : c.w.memBeatStall = false := by
  by_contra hb
  rw [Bool.not_eq_false] at hb
  exact Bool.false_ne_true (h.xwValid.symm.trans (c.w.xwValid_of_memBeatStall hb))

/-- It stays halted unless it is resumed. -/
theorem step (h : Halted c) (hres : i.dbgResumereq = false) : Halted (c.step i) := by
  refine ⟨?_, fxValid_of_dbgFreeze c i (dbgFreeze_of_dbgMode h.dbgMode),
    xwValid_of_drained c i h.fxValid h.xwValid, h.memBeatStall⟩
  rw [dbg_of_dbgMode h.dbgMode]
  unfold dbgResume
  rw [hres, Bool.and_false, if_neg Bool.false_ne_true, dbgAccess_dbgMode]
  exact h.dbgMode

/-- Nothing is fetched, and the predictor and the stack of return addresses rest. -/
theorem step_front (h : Halted c) (hres : i.dbgResumereq = false) :
    (c.step i).f = c.f ∧ (c.step i).bp = c.bp ∧ (c.step i).ras = c.ras := by
  have hfz : c.dbgFreeze i = true := dbgFreeze_of_dbgMode h.dbgMode
  refine ⟨?_, ?_, ?_⟩
  · have hc := c.f.step_clock c.bp.ghist (c.fetchIn i)
    show c.f.step c.bp.ghist (c.fetchIn i) = c.f
    have hempty : { c.f with fxValid := false } = c.f := by
      rw [← h.fxValid]
    generalize c.f.step c.bp.ghist (c.fetchIn i) = f' at hc
    cases hc with
    | redirected target hr =>
      exact absurd ((redirect_of_empty h.fxValid i).symm.trans hr) (by simp)
    | resumed _ hres' =>
      have hno : (c.dbg.dbgMode && i.dbgResumereq) = true := hres'
      rw [hres, Bool.and_false] at hno
      exact absurd hno Bool.false_ne_true
    | frozen => exact hempty
    | stalled _ _ hfz' | straddled _ _ hfz' | accepted _ _ hfz' =>
      exact absurd (hfz.symm.trans hfz') (by simp)
  · have hen : (c.bpUpdate i).en = false := by
      show (c.f.fxValid && !c.exFreeze && !(c.xIn i).exTrap P &&
        ((c.xIn i).dec.isBranch || (c.xIn i).dec.isJal)) = false
      rw [h.fxValid]
      rfl
    show c.bp.step (c.bpUpdate i) = c.bp
    unfold Bpred.step
    rw [hen, Bool.and_false]
    rfl
  · show (if !c.exFreeze && (c.redirect i).isNone && !c.dbgFreeze i && !c.f.needStraddle i.imemRdata
      then _ else c.ras) = c.ras
    rw [hfz, Bool.not_true, Bool.and_false, Bool.false_and, if_neg Bool.false_ne_true]

/-- The M unit finishes what it has begun. -/
theorem step_md (h : Halted c) :
    (c.step i).md = c.md.step false .mul 0#32 0#32 ∧
    (c.step i).mdInflight = (!c.md.done && c.mdInflight) := by
  have hstart : c.mdStart = false := by
    unfold mdStart
    rw [h.fxValid]
    rfl
  refine ⟨?_, ?_⟩
  · show c.md.step c.mdStart (decode c.f.fxInstr).mdOp (c.op1 i) (c.op2 i) = _
    rw [hstart]
    unfold Muldiv.step
    cases c.md.state with
    | idle | mul | div | fin => rfl
  · show (if c.md.done then false else c.mdInflight || c.mdStart) = _
    rw [hstart, Bool.or_false]
    cases c.md.done with
    | true | false => rfl

/-- W stays empty. -/
theorem step_w (h : Halted c) : { (c.step i).w with xw := {} } = { c.w with xw := {} } := by
  have hamo : c.w.amoHere = false := by
    unfold WStage.amoHere
    rw [h.xwValid]
    rfl
  have hcommit : c.xCommit = false := xCommit_of_empty h.fxValid
  show { (c.w.step i.dmemRdata c.xCommit ((c.xIn i).xwNext P)) with xw := {} } = _
  unfold WStage.step
  rw [h.memBeatStall, hamo, hcommit]
  dsimp only
  rw [h.xwValid, h.beat2]
  rfl

/-- The write port of the register file is the debugger's. -/
theorem step_regs (h : Halted c) :
    (c.step i).regs =
      Regfile.write c.regs (c.dbgGprWe i) (i.dbgArRegno.extractLsb 4 0) i.dbgArWdata := by
  have hw : c.w.rfWe = false := by
    unfold WStage.rfWe
    rw [h.xwValid]
    rfl
  show Regfile.write c.regs (c.rfWe i) (c.rfWa i) (c.rfWd i) = _
  unfold rfWe rfWa rfWd
  rw [hw, Bool.or_false]
  cases c.dbgGprWe i with
  | true => rfl
  | false => rfl

/-- Nothing traps or returns. -/
theorem quiet (h : Halted c) :
    (c.xIn i).mTrapSet P = false ∧ (c.xIn i).csrMret P = false ∧ (c.xIn i).delegTrap P = false ∧
    ((c.xIn i).fxValid && (c.xIn i).isUret P && !(c.xIn i).exFreeze) = false ∧
    (c.xIn i).trigFire = false := by
  have hleaves : ({ c.xIn i with dbgCsrWe := false } : XIn).leaves = false := by
    show (c.f.fxValid && !c.exFreeze) = false
    rw [h.fxValid]
    rfl
  have hidle : ({ c.xIn i with dbgCsrWe := false } : XIn).Idle P :=
    XIn.idle hleaves fun _ => rfl
  exact ⟨hidle.mTrapSet, hidle.csrMret, hidle.delegTrap, hidle.uret, hidle.trigFire⟩

/-- The write port of the CSR files is the debugger's. -/
theorem csrPort (h : Halted c) :
    (c.xIn i).csrWeEff P = c.dbgCsrWe i ∧ (c.xIn i).csrAddrEff = i.dbgArRegno ∧
    (c.xIn i).csrWdataEff P = i.dbgArWdata :=
  ⟨if_pos h.dbgMode, if_pos h.dbgMode, if_pos h.dbgMode⟩

/-- A write goes to the file that its address is routed to. -/
theorem step_files (h : Halted c) :
    (c.step i).csr.uncounted =
      (if c.dbgCsrWe i && !Trig.isAddr i.dbgArRegno && !(P.secure && Ucsr.isAddr i.dbgArRegno)
        then c.csr.write P.csr i.dbgArRegno i.dbgArWdata else c.csr).uncounted ∧
    (c.step i).ucsr =
      (if c.dbgCsrWe i && (P.secure && Ucsr.isAddr i.dbgArRegno)
        then c.ucsr.write i.dbgArRegno i.dbgArWdata else c.ucsr) ∧
    (c.step i).trig =
      (if c.dbgCsrWe i && Trig.isAddr i.dbgArRegno
        then c.trig.write i.dbgArRegno i.dbgArWdata else c.trig) := by
  obtain ⟨htrap, hmret, hdeleg, huret, hfire⟩ := h.quiet (i := i)
  obtain ⟨hwe, haddr, hwdata⟩ := h.csrPort (i := i)
  refine ⟨?_, ?_, ?_⟩
  · refine (Csr.step_uncounted _).trans ?_
    show (if (c.xIn i).mTrapSet P then _ else if (c.xIn i).csrMret P then _
      else if (c.xIn i).csrWeEff P && !Trig.isAddr (c.xIn i).csrAddrEff &&
        !(P.secure && Ucsr.isAddr (c.xIn i).csrAddrEff)
      then (c.csr.write P.csr (c.xIn i).csrAddrEff ((c.xIn i).csrWdataEff P)).uncounted
      else c.csr.uncounted) = _
    rw [htrap, hmret, hwe, haddr, hwdata, if_neg Bool.false_ne_true, if_neg Bool.false_ne_true]
    exact (apply_ite Csr.uncounted _ _ _).symm
  · show (c.xIn i).ucsrNext P = _
    unfold XIn.ucsrNext XIn.ucsrWe XIn.isUcsr
    rw [hdeleg, huret, hwe, haddr, hwdata]
    cases P.secure with
    | true => rfl
    | false =>
      rw [Bool.false_and, Bool.and_false]
      rfl
  · show (c.xIn i).trigNext P = _
    unfold XIn.trigNext XIn.trigCsrWe XIn.isTrigCsr
    rw [hfire, hwe, haddr, hwdata]
    rfl

/-- The debug controller takes what is written to its own registers. -/
theorem step_dbg (h : Halted c) (hres : i.dbgResumereq = false) :
    { (c.step i).dbg with dbgArBusy := false, dbgArDone := false } =
      { (if c.dbgDo i && i.dbgArWrite && i.dbgArCsr then
          c.dbg.writeLocal i.dbgArRegno i.dbgArWdata else c.dbg) with
        dbgArBusy := false, dbgArDone := false } := by
  rw [dbg_of_dbgMode h.dbgMode]
  unfold dbgResume
  rw [hres, Bool.and_false, if_neg Bool.false_ne_true]
  rfl

end Halted

/-- The access that the port asks for. -/
def portAccess (i : CoreIn) : RegAccess where
  reg := if i.dbgArCsr then .csr i.dbgArRegno else .gpr (i.dbgArRegno.extractLsb 4 0)
  write := i.dbgArWrite
  wdata := i.dbgArWdata

/-- No address is in two files. -/
theorem isAddr_disjoint {a : BitVec 12} (ht : Trig.isAddr a = true) : Ucsr.isAddr a = false := by
  rcases Trig.isAddr_cases ht with rfl | rfl | rfl | rfl <;> decide

theorem writeLocal_of_not_isLocal {d : Dbg} {a : BitVec 12} {v : Word}
    (h : Dbg.isLocal a = false) : d.writeLocal a v = d := by
  have hno := mt Dbg.isLocal_iff.mpr (Bool.eq_false_iff.mp h)
  rw [not_or, not_or] at hno
  unfold Dbg.writeLocal
  rw [if_neg hno.1, if_neg hno.2.1, if_neg hno.2.2]

section Clock

variable {c : Core P} {i : CoreIn}

/-- A clock changes what the debugger may write, the counters and the M unit. -/
theorem Halted.held_eq (h : Halted c) (hres : i.dbgResumereq = false) {regs : Regs} {csr : Csr}
    {ucsr : Ucsr} {trig : Trig} {dbg : Dbg} (hregs : (c.step i).regs = regs)
    (hcsr : (c.step i).csr.uncounted = csr.uncounted) (hucsr : (c.step i).ucsr = ucsr)
    (htrig : (c.step i).trig = trig)
    (hdbg : { (c.step i).dbg with dbgArBusy := false, dbgArDone := false } =
      { dbg with dbgArBusy := false, dbgArDone := false }) :
    (c.step i).held = ({ c with regs, csr, ucsr, trig, dbg } : Core P).held := by
  obtain ⟨hf, hbp, hras⟩ := h.step_front hres
  unfold held
  rw [hf, hbp, hras, hregs, hcsr, hucsr, htrig, h.step_w, hdbg]

/-- A clock in which the debugger writes nothing. -/
theorem Halted.step_read (h : Halted c) (hres : i.dbgResumereq = false)
    (hw : (c.dbgDo i && i.dbgArWrite) = false) : (c.step i).held = c.held := by
  obtain ⟨hcsr, hucsr, htrig⟩ := h.step_files (i := i)
  have hgpr : c.dbgGprWe i = false := by
    unfold dbgGprWe
    rw [hw, Bool.false_and]
  have hport : c.dbgCsrWe i = false := by
    unfold dbgCsrWe
    rw [hw, Bool.false_and, Bool.false_and]
  have hregs := h.step_regs (i := i)
  have hdbg := h.step_dbg hres
  rw [hgpr, Regfile.write_false] at hregs
  rw [hport, Bool.false_and, Bool.false_and] at hcsr
  rw [hport, Bool.false_and] at hucsr htrig
  rw [hw, Bool.false_and] at hdbg
  exact h.held_eq hres hregs hcsr hucsr htrig hdbg

/-- A clock in which it writes a GPR. -/
theorem Halted.step_gpr (h : Halted c) (hres : i.dbgResumereq = false)
    (hw : (c.dbgDo i && i.dbgArWrite) = true) (hfile : i.dbgArCsr = false) :
    (c.step i).held = (c.put i.dbgArWdata (.gpr (i.dbgArRegno.extractLsb 4 0))).held := by
  obtain ⟨hcsr, hucsr, htrig⟩ := h.step_files (i := i)
  have hgpr : c.dbgGprWe i = true := by
    unfold dbgGprWe
    rw [hw, hfile]
    rfl
  have hport : c.dbgCsrWe i = false := by
    unfold dbgCsrWe
    rw [hfile, Bool.and_false, Bool.false_and]
  have hregs := h.step_regs (i := i)
  have hdbg := h.step_dbg hres
  rw [hgpr] at hregs
  rw [hport, Bool.false_and, Bool.false_and] at hcsr
  rw [hport, Bool.false_and] at hucsr htrig
  rw [hfile, Bool.and_false] at hdbg
  exact h.held_eq hres hregs hcsr hucsr htrig hdbg

/-- A clock in which it writes a CSR. -/
theorem Halted.step_csr (h : Halted c) (hres : i.dbgResumereq = false)
    (hw : (c.dbgDo i && i.dbgArWrite) = true) (hfile : i.dbgArCsr = true) :
    (c.step i).held = (c.put i.dbgArWdata (.csr i.dbgArRegno)).held := by
  obtain ⟨hcsr, hucsr, htrig⟩ := h.step_files (i := i)
  have hgpr : c.dbgGprWe i = false := by
    unfold dbgGprWe
    rw [hfile, Bool.not_true, Bool.and_false]
  have hport : c.dbgCsrWe i = !Dbg.isLocal i.dbgArRegno := by
    show (c.dbgDo i && i.dbgArWrite && i.dbgArCsr && !Dbg.isLocal i.dbgArRegno) = _
    rw [hw, hfile]
    rfl
  have hregs := h.step_regs (i := i)
  have hdbg := h.step_dbg hres
  rw [hgpr, Regfile.write_false] at hregs
  rw [hport] at hcsr hucsr htrig
  rw [hw, hfile] at hdbg
  unfold put
  dsimp only
  cases hl : Dbg.isLocal i.dbgArRegno with
  | true =>
    rw [hl] at hcsr hucsr htrig
    exact h.held_eq hres hregs hcsr hucsr htrig hdbg
  | false =>
    rw [hl] at hcsr hucsr htrig
    rw [writeLocal_of_not_isLocal hl] at hdbg
    cases ht : Trig.isAddr i.dbgArRegno with
    | true =>
      rw [ht, isAddr_disjoint ht] at hcsr
      rw [isAddr_disjoint ht, Bool.and_false] at hucsr
      rw [ht] at htrig
      exact h.held_eq hres hregs hcsr hucsr htrig hdbg
    | false =>
      rw [ht] at hcsr htrig
      cases hu : P.secure && Ucsr.isAddr i.dbgArRegno with
      | true =>
        rw [hu] at hcsr hucsr
        exact h.held_eq hres hregs hcsr hucsr htrig hdbg
      | false =>
        rw [hu] at hcsr hucsr
        exact h.held_eq hres hregs hcsr hucsr htrig hdbg

/-- **One clock of a halted core**: the access of the debugger, and nothing else. -/
theorem Halted.step_held (h : Halted c) (hres : i.dbgResumereq = false) :
    (c.step i).held = (if c.dbgDo i then c.access (portAccess i) else c).held := by
  cases hw : c.dbgDo i && i.dbgArWrite with
  | false =>
    rw [h.step_read hres hw]
    split
    case isTrue hdo =>
      have hread : (portAccess i).write = false := by
        rw [hdo, Bool.true_and] at hw
        exact hw
      unfold access
      rw [hread, if_neg Bool.false_ne_true]
    case isFalse => rfl
  | true =>
    obtain ⟨hdo, hwrite⟩ := Bool.and_eq_true_iff.mp hw
    have hacc : c.access (portAccess i) = c.put i.dbgArWdata (portAccess i).reg := if_pos hwrite
    rw [hdo, if_pos rfl, hacc]
    cases hfile : i.dbgArCsr with
    | true =>
      have hreg : (portAccess i).reg = .csr i.dbgArRegno := if_pos hfile
      rw [hreg]
      exact h.step_csr hres hw hfile
    | false =>
      have hreg : (portAccess i).reg = .gpr (i.dbgArRegno.extractLsb 4 0) :=
        if_neg (Bool.eq_false_iff.mp hfile)
      rw [hreg]
      exact h.step_gpr hres hw hfile

/-- A counter is read and written in the CSR file. -/
theorem value_counter (d : Core P) {irq : IrqLines} {a : BitVec 12} {v : Word}
    (ha : Csr.isCounter a = true) :
    d.value irq (.csr a) = d.csr.rdata P.csr irq a ∧ d.legal irq v (.csr a) = v := by
  have hmem := List.contains_iff_mem.mp ha
  obtain ⟨-, -, -, -, -, -, -, -, -, -, -, ht, hu⟩ := Csr.counter_address a hmem
  cases d.file irq v a with
  | dcsr ha' | dpc ha' | dscratch0 ha' =>
    have hl := Dbg.isLocal_counter ha
    rw [ha'] at hl
    exact absurd hl (by decide)
  | trig ht' => exact absurd (ht.symm.trans ht') (by simp)
  | ucsr hu' => exact absurd (hu.symm.trans hu') (by simp)
  | csr _ hvalue hlegal => exact ⟨hvalue d, hlegal.trans (Csr.legal_counter ha)⟩

/-- A counter that is written holds the value, whatever it counted. -/
theorem Halted.step_counter (h : Halted c) {irq : IrqLines}
    (hw : (c.dbgDo i && i.dbgArWrite && i.dbgArCsr) = true)
    (hctr : Csr.isCounter i.dbgArRegno = true) :
    (c.step i).value irq (.csr i.dbgArRegno) = i.dbgArWdata := by
  obtain ⟨htrap, hmret, -, -, -⟩ := h.quiet (i := i)
  obtain ⟨hwe, haddr, hwdata⟩ := h.csrPort (i := i)
  have hmem := List.contains_iff_mem.mp hctr
  obtain ⟨-, -, -, -, -, -, -, -, -, -, -, ht, hu⟩ := Csr.counter_address _ hmem
  have hin : ((c.xIn i).csrIn P c.w.retireValid).we = true := by
    show ((c.xIn i).csrWeEff P && !Trig.isAddr (c.xIn i).csrAddrEff &&
      !(P.secure && Ucsr.isAddr (c.xIn i).csrAddrEff)) = true
    rw [hwe, haddr, ht, hu, Bool.and_false]
    show (c.dbgDo i && i.dbgArWrite && i.dbgArCsr && !Dbg.isLocal i.dbgArRegno && !false &&
      !false) = true
    rw [hw, Dbg.isLocal_counter hctr]
    rfl
  have hstep : (c.step i).csr.ctr =
      c.csr.writeCounter ((c.xIn i).csrIn P c.w.retireValid) := by
    show (c.csr.step P.csr ((c.xIn i).csrIn P c.w.retireValid)).ctr = _
    have htrap' : ((c.xIn i).csrIn P c.w.retireValid).trapSet = false := htrap
    have hmret' : ((c.xIn i).csrIn P c.w.retireValid).mret = false := hmret
    unfold Csr.step
    rw [htrap', hmret', hin]
    rfl
  have hin' : ((c.xIn i).csrIn P c.w.retireValid).addr = i.dbgArRegno := haddr
  have hread := @Csr.rdata_writeCounter P.csr c.csr irq (c.step i).csr
    ((c.xIn i).csrIn P c.w.retireValid) ((congrArg Csr.isCounter hin').trans hctr) hstep
  rw [hin'] at hread
  rw [(value_counter (v := 0#32) _ hctr).1]
  exact hread.trans hwdata

/-- What the debugger may write, the counters apart. -/
def registers (c : Core P) : Regs × Csr × Ucsr × Trig × Dbg :=
  (c.regs, c.csr.uncounted, c.ucsr, c.trig,
    { c.dbg with dbgMode := false, stepActive := false, dbgArBusy := false, dbgArDone := false })

/-- A request to resume reaches the fetch and the mode, and no register. -/
theorem Halted.step_resume (h : Halted c) :
    (c.step i).registers = (c.step { i with dbgResumereq := false }).registers ∧
    ∀ irq reg, (c.step i).value irq reg = (c.step { i with dbgResumereq := false }).value irq reg := by
  have hdbg : (c.step i).dbg = c.dbgResume i (c.dbgAccess i) := dbg_of_dbgMode h.dbgMode
  have hdbg' : (c.step { i with dbgResumereq := false }).dbg = c.dbgAccess i := by
    rw [dbg_of_dbgMode h.dbgMode]
    unfold dbgResume
    rw [Bool.and_false, if_neg Bool.false_ne_true]
    rfl
  have hlocal : (c.dbgResume i (c.dbgAccess i)).dpc = (c.dbgAccess i).dpc ∧
      (c.dbgResume i (c.dbgAccess i)).dscratch0 = (c.dbgAccess i).dscratch0 ∧
      (c.dbgResume i (c.dbgAccess i)).dcsrEbreakm = (c.dbgAccess i).dcsrEbreakm ∧
      (c.dbgResume i (c.dbgAccess i)).dcsrStep = (c.dbgAccess i).dcsrStep ∧
      (c.dbgResume i (c.dbgAccess i)).dcsrCause = (c.dbgAccess i).dcsrCause := by
    unfold dbgResume
    split
    · exact ⟨rfl, rfl, rfl, rfl, rfl⟩
    · exact ⟨rfl, rfl, rfl, rfl, rfl⟩
  obtain ⟨hdpc, hscratch, hebreakm, hstep, hcause⟩ := hlocal
  refine ⟨?_, fun irq reg => ?_⟩
  · have hrest : ({ (c.step i).dbg with
          dbgMode := false, stepActive := false, dbgArBusy := false, dbgArDone := false } : Dbg) =
        { (c.step { i with dbgResumereq := false }).dbg with
          dbgMode := false, stepActive := false, dbgArBusy := false, dbgArDone := false } := by
      rw [hdbg, hdbg']
      unfold dbgResume
      split
      · rfl
      · rfl
    unfold registers
    rw [hrest]
    rfl
  · cases reg with
    | gpr r => rfl
    | csr a =>
      refine value_congr (fun _ => ?_) (fun _ => ?_) (fun _ => ?_) rfl rfl rfl
      · unfold dcsrVal
        rw [hdbg, hdbg', hebreakm, hstep, hcause]
      · rw [hdbg, hdbg', hdpc]
      · rw [hdbg, hdbg', hscratch]

/-- **An access changes the register that it names**, whether or not the hart is resumed. -/
theorem Halted.step_registers (h : Halted c) :
    (c.step i).registers = (if c.dbgDo i then c.access (portAccess i) else c).registers := by
  have hview : ∀ d : Core P, d.held.registers = d.registers := fun _ => rfl
  have hheld : (c.step { i with dbgResumereq := false }).held =
      (if c.dbgDo i then c.access (portAccess i) else c).held := h.step_held rfl
  rw [h.step_resume.1, ← hview, hheld, hview]

/-- A write leaves what the rule says, the counters included. -/
theorem Halted.written (h : Halted c) (hdo : c.dbgDo i = true) (hw : i.dbgArWrite = true)
    (irq : IrqLines) :
    (c.step i).value irq (portAccess i).reg = c.legal irq i.dbgArWdata (portAccess i).reg := by
  cases hctr : (portAccess i).reg.isCounter with
  | false =>
    rw [h.step_resume.2]
    have hheld : (c.step { i with dbgResumereq := false }).held =
        (c.access (portAccess i)).held := (h.step_held rfl).trans (congrArg held (if_pos hdo))
    have hput : c.access (portAccess i) = c.put i.dbgArWdata (portAccess i).reg := if_pos hw
    rw [← value_held hctr, hheld, value_held hctr, hput, value_put hctr]
  | true =>
    cases hfile : i.dbgArCsr with
    | false =>
      have hreg : (portAccess i).reg = .gpr (i.dbgArRegno.extractLsb 4 0) :=
        if_neg (Bool.eq_false_iff.mp hfile)
      rw [hreg] at hctr
      exact absurd hctr Bool.false_ne_true
    | true =>
      have hreg : (portAccess i).reg = .csr i.dbgArRegno := if_pos hfile
      have hport : (c.dbgDo i && i.dbgArWrite && i.dbgArCsr) = true := by
        rw [hdo, hw, hfile]
        rfl
      rw [hreg] at hctr ⊢
      rw [(value_counter c hctr).2]
      exact h.step_counter hport hctr

/-- What the port reads is the value of the register, while no access is made. -/
theorem Halted.rdata (h : Halted c) (hv : i.dbgArValid = true) (hdo : c.dbgDo i = false) :
    c.dbgArRdata i = c.value i.irq (portAccess i).reg := by
  cases hfile : i.dbgArCsr with
  | false =>
    have hreg : (portAccess i).reg = .gpr (i.dbgArRegno.extractLsb 4 0) :=
      if_neg (Bool.eq_false_iff.mp hfile)
    have hwe : c.rfWe i = false := by
      unfold rfWe dbgGprWe WStage.rfWe
      rw [hdo, h.xwValid]
      rfl
    have hra : c.rfRa1 i = i.dbgArRegno.extractLsb 4 0 := by
      unfold rfRa1
      rw [h.dbgMode, hv, hfile]
      rfl
    rw [hreg]
    unfold dbgArRdata
    rw [hfile]
    show Regfile.read c.regs (c.rfWe i) (c.rfWa i) (c.rfWd i) (c.rfRa1 i) = _
    rw [Regfile.read_eq_get, hwe, hra]
    rfl
  | true =>
    have hreg : (portAccess i).reg = .csr i.dbgArRegno := if_pos hfile
    have heff : (c.xIn i).csrRdEff P =
        if Trig.isAddr i.dbgArRegno then c.trig.rdata i.dbgArRegno
        else if P.secure && Ucsr.isAddr i.dbgArRegno then c.ucsr.rdata i.dbgArRegno
        else c.csr.rdata P.csr i.irq i.dbgArRegno := by
      unfold XIn.csrRdEff XIn.isTrigCsr XIn.isUcsr
      rw [(h.csrPort (i := i)).2.1]
      rfl
    rw [hreg]
    unfold dbgArRdata
    rw [hfile, heff]
    rfl

end Clock

end Core

end ThreeSippEs
