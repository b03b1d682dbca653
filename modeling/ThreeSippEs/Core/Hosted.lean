import ThreeSippEs.Core.System

/-!
# The core behind other memories

The core samples the data port in every clock, but the word matters only in a clock
that reads, or that holds the first beat of an access. So any host that answers these
clocks like the memories of `Sys` runs the same core.

- `step_of_answers`: the answers that count;
- `Unhalted`: a hart that no halt is pending for, `step_unaccessed`: abstract commands and
  resume requests do not reach it;
- `reset_reset`: out of reset a host may start over.
-/

namespace ThreeSippEs

/-- The inputs without abstract command and resume request. -/
def CoreIn.unaccessed (i : CoreIn) : CoreIn :=
  { irq := i.irq, dbgHaltreq := i.dbgHaltreq, imemRdata := i.imemRdata, dmemRdata := i.dmemRdata }

/-- X without the register that an abstract command names. -/
def XIn.unaccessed (x : XIn) : XIn := { x with dbgArRegno := 0#12, dbgArWdata := 0#32 }

namespace XIn

variable {P : Params} {x : XIn}

/-- Outside Debug Mode the CSR ports belong to the instruction. -/
theorem csrPorts_of_running (h : x.dbgMode = false) :
    x.unaccessed.csrAddrEff = x.csrAddrEff ∧ x.unaccessed.csrWdataEff P = x.csrWdataEff P ∧
      x.unaccessed.csrRdEff P = x.csrRdEff P := by
  have haddr : x.unaccessed.csrAddrEff = x.csrAddrEff := by
    unfold csrAddrEff
    rw [show x.unaccessed.dbgMode = x.dbgMode from rfl, h]
    rfl
  have hrd : x.unaccessed.csrRdEff P = x.csrRdEff P := by
    unfold csrRdEff isTrigCsr isUcsr
    rw [haddr]
    rfl
  refine ⟨haddr, ?_, hrd⟩
  unfold csrWdataEff csrWval
  rw [show x.unaccessed.dbgMode = x.dbgMode from rfl, h, hrd]
  rfl

/-- So does everything that X hands on. -/
theorem next_of_running (h : x.dbgMode = false) (retire : Bool) :
    x.unaccessed.csrNext P retire = x.csrNext P retire ∧
      x.unaccessed.ucsrNext P = x.ucsrNext P ∧ x.unaccessed.trigNext P = x.trigNext P ∧
      x.unaccessed.xwNext P = x.xwNext P := by
  obtain ⟨haddr, hwdata, hrd⟩ := csrPorts_of_running (P := P) h
  have hwe : x.unaccessed.csrWeEff P = x.csrWeEff P := rfl
  have htrig : x.unaccessed.isTrigCsr = x.isTrigCsr := by
    unfold isTrigCsr
    rw [haddr]
  have hu : x.unaccessed.isUcsr P = x.isUcsr P := by
    unfold isUcsr
    rw [haddr]
  refine ⟨?_, ?_, ?_, ?_⟩
  · unfold csrNext csrIn
    rw [haddr, hwdata, hwe, htrig, hu]
    rfl
  · unfold ucsrNext ucsrWe
    rw [haddr, hwdata, hwe, hu]
    rfl
  · unfold trigNext trigCsrWe
    rw [haddr, hwdata, hwe, htrig]
    rfl
  · unfold xwNext xResult
    rw [hrd]
    rfl

end XIn

namespace Core

variable {P : Params}

/-- A write value matters only to an enabled write. -/
theorem read_congr {regs : Regs} {we : Bool} {wa ra : BitVec 5} {wd wd' : Word}
    (h : we = true → wd' = wd) : Regfile.read regs we wa wd' ra = Regfile.read regs we wa wd ra := by
  unfold Regfile.read
  cases we with
  | false => rfl
  | true => rw [h rfl]

theorem write_congr {regs : Regs} {we : Bool} {wa : BitVec 5} {wd wd' : Word}
    (h : we = true → wd' = wd) : Regfile.write regs we wa wd' = Regfile.write regs we wa wd := by
  unfold Regfile.write
  cases we with
  | false => rfl
  | true => rw [h rfl]

section Unread

variable {s : Core P} {i : CoreIn} (r : Word)

/-- Without a read strobe the result in W does not depend on the memory. -/
theorem wWb_of_unread {w : WStage} (hre : w.dmemRe = false) (hv : w.xwValid = true)
    (r r' : Word) : w.wWb r' = w.wWb r := by
  unfold WStage.dmemRe WStage.amoDoLoad at hre
  rw [hv, Bool.true_and, Bool.or_eq_false_iff] at hre
  unfold WStage.wWb WStage.amoWb
  cases hamo : w.amoHere with
  | true =>
    have hlr : w.xw.isLr = false := by
      have h := hre.2
      rw [hamo, Bool.true_and, Bool.or_eq_false_iff] at h
      exact h.1
    rw [if_pos rfl, if_pos rfl, hlr, if_neg Bool.false_ne_true, if_neg Bool.false_ne_true]
  | false =>
    rw [if_neg Bool.false_ne_true, if_neg Bool.false_ne_true, hre.1, if_neg Bool.false_ne_true,
      if_neg Bool.false_ne_true]

theorem rfWd_of_unread (hre : s.w.dmemRe = false) (hwe : s.rfWe i = true) :
    s.rfWd { i with dmemRdata := r } = s.rfWd i := by
  unfold rfWd
  have hgpr : s.dbgGprWe { i with dmemRdata := r } = s.dbgGprWe i := rfl
  rw [hgpr]
  cases hd : s.dbgGprWe i with
  | true => rw [if_pos rfl, if_pos rfl]
  | false =>
    unfold rfWe at hwe
    rw [hd, Bool.false_or] at hwe
    rw [if_neg Bool.false_ne_true, if_neg Bool.false_ne_true]
    exact wWb_of_unread hre (s.w.fwd_iff.mp (s.w.fwd_of_rfWe hwe)).1 i.dmemRdata r

/-- A forwarded value is the result in W. -/
theorem forwarded_of_unread (hre : s.w.dmemRe = false) (rs ra : BitVec 5) :
    (if s.w.fwd rs then s.w.wWb r else
      Regfile.read s.regs (s.rfWe i) (s.rfWa i) (s.rfWd { i with dmemRdata := r }) ra) =
      if s.w.fwd rs then s.w.wWb i.dmemRdata else
        Regfile.read s.regs (s.rfWe i) (s.rfWa i) (s.rfWd i) ra := by
  rw [read_congr (rfWd_of_unread r hre)]
  cases hf : s.w.fwd rs with
  | false => rw [if_neg Bool.false_ne_true, if_neg Bool.false_ne_true]
  | true =>
    rw [if_pos rfl, if_pos rfl, wWb_of_unread hre (s.w.fwd_iff.mp hf).1 i.dmemRdata r]

theorem op1_of_unread (hre : s.w.dmemRe = false) :
    s.op1 { i with dmemRdata := r } = s.op1 i := by
  have hwe : s.rfWe { i with dmemRdata := r } = s.rfWe i := rfl
  have hwa : s.rfWa { i with dmemRdata := r } = s.rfWa i := rfl
  have hra : s.rfRa1 { i with dmemRdata := r } = s.rfRa1 i := rfl
  unfold op1 rdata1
  rw [hwe, hwa, hra]
  exact forwarded_of_unread r hre (s.f.fxInstr.extractLsb 19 15) (s.rfRa1 i)

theorem op2_of_unread (hre : s.w.dmemRe = false) :
    s.op2 { i with dmemRdata := r } = s.op2 i := by
  have hwe : s.rfWe { i with dmemRdata := r } = s.rfWe i := rfl
  have hwa : s.rfWa { i with dmemRdata := r } = s.rfWa i := rfl
  unfold op2 rdata2
  rw [hwe, hwa]
  exact forwarded_of_unread r hre (s.f.fxInstr.extractLsb 24 20) (s.f.fxInstr.extractLsb 24 20)

theorem xIn_of_unread (hre : s.w.dmemRe = false) :
    s.xIn { i with dmemRdata := r } = s.xIn i := by
  unfold xIn
  rw [op1_of_unread r hre, op2_of_unread r hre]
  rfl

theorem regs_of_unread (hre : s.w.dmemRe = false) :
    Regfile.write s.regs (s.rfWe { i with dmemRdata := r }) (s.rfWa { i with dmemRdata := r })
      (s.rfWd { i with dmemRdata := r }) =
      Regfile.write s.regs (s.rfWe i) (s.rfWa i) (s.rfWd i) := by
  have hwe : s.rfWe { i with dmemRdata := r } = s.rfWe i := rfl
  have hwa : s.rfWa { i with dmemRdata := r } = s.rfWa i := rfl
  rw [hwe, hwa]
  exact write_congr (rfWd_of_unread r hre)

/-- Nor does the next state of the core. -/
theorem step_of_unread (hre : s.w.dmemRe = false) (hst : s.w.memBeatStall = false) :
    s.step { i with dmemRdata := r } = s.step i := by
  unfold step fetchIn redirect bpUpdate WStage.step
  rw [xIn_of_unread r hre, regs_of_unread r hre, op1_of_unread r hre, op2_of_unread r hre, hst]
  rfl

/-- **The answers that count**: two inputs that differ only in a data word that nothing
asked for lead to the same state. -/
theorem step_of_answers {j : CoreIn} (hext : j.toExtIn = i.toExtIn)
    (himem : j.imemRdata = i.imemRdata)
    (hdmem : s.w.dmemRe = true ∨ s.w.memBeatStall = true → j.dmemRdata = i.dmemRdata) :
    s.step j = s.step i := by
  obtain ⟨ext, im, d⟩ := j
  have hj : (⟨ext, im, d⟩ : CoreIn) = { i with dmemRdata := d } := by
    rw [CoreIn.mk.injEq]
    exact ⟨hext, himem, rfl⟩
  rw [hj]
  by_cases hused : s.w.dmemRe = true ∨ s.w.memBeatStall = true
  · have hd : d = i.dmemRdata := hdmem hused
    subst hd
    rfl
  · rw [not_or, Bool.not_eq_true, Bool.not_eq_true] at hused
    exact step_of_unread d hused.1 hused.2

end Unread

/-! ## Abstract commands -/

/-- The hart runs, nothing makes it halt and no access is on its way. -/
structure Unhalted (s : Core P) : Prop where
  mode : s.dbg.dbgMode = false
  haltReq : s.dbg.haltReq = false
  stepActive : s.dbg.stepActive = false
  ebreakm : s.dbg.dcsrEbreakm = false
  busy : s.dbg.dbgArBusy = false

namespace Unhalted

variable {s : Core P} {i : CoreIn}

theorem reset (s : Core P) (i : CoreIn) : Unhalted (s.reset i) := ⟨rfl, rfl, rfl, rfl, rfl⟩

theorem dbgDo (h : Unhalted s) (i : CoreIn) : s.dbgDo i = false := by
  unfold Core.dbgDo
  rw [h.mode, Bool.false_and, Bool.false_and]

/-- Nothing comes of an abstract command. -/
theorem dbgAccess (h : Unhalted s) (i : CoreIn) :
    s.dbgAccess i = { s.dbg with dbgArDone := false, dbgArBusy := false } := by
  unfold Core.dbgAccess
  rw [h.dbgDo i, h.busy]
  cases i.dbgArValid <;> rfl

/-- **A clock without a halt request.** -/
theorem step (h : Unhalted s) (hi : i.dbgHaltreq = false) : Unhalted (s.step i) := by
  have hebr := ebreakToDebug_of_not_ebreakm h.ebreakm
  have hstep : s.stepHaltNow = false := by
    unfold stepHaltNow
    rw [h.stepActive]
    rfl
  have hdbg : (s.step i).dbg = s.dbgRunning i := dbg_stays h.mode (by rw [h.haltReq]; rfl)
  constructor
  · rw [hdbg]
    exact h.mode
  · rw [hdbg]
    show (s.dbg.haltReq || i.dbgHaltreq || s.ebreakToDebug || s.stepHaltNow) = false
    rw [h.haltReq, hi, hebr, hstep]
    rfl
  · rw [hdbg]
    exact h.stepActive
  · rw [hdbg]
    exact h.ebreakm
  · rw [hdbg]
    show (if !i.dbgArValid then false else s.dbg.dbgArBusy) = false
    rw [h.busy, ite_self]

/-- The ports of the registers are those of the program. -/
theorem ports (h : Unhalted s) :
    s.rfWe i.unaccessed = s.rfWe i ∧ s.rfWa i.unaccessed = s.rfWa i ∧
      s.rfWd i.unaccessed = s.rfWd i ∧ s.rfRa1 i.unaccessed = s.rfRa1 i := by
  have hgpr : ∀ j : CoreIn, s.dbgGprWe j = false := by
    intro j
    unfold dbgGprWe
    rw [h.dbgDo j, Bool.false_and, Bool.false_and]
  refine ⟨?_, ?_, ?_, ?_⟩
  · unfold rfWe
    rw [hgpr, hgpr]
  · unfold rfWa
    rw [hgpr, hgpr]
    rfl
  · unfold rfWd
    rw [hgpr, hgpr]
    rfl
  · unfold rfRa1
    rw [h.mode]
    rfl

theorem xIn (h : Unhalted s) :
    s.xIn i.unaccessed = (s.xIn i).unaccessed ∧ s.op1 i.unaccessed = s.op1 i ∧
      s.op2 i.unaccessed = s.op2 i := by
  obtain ⟨hwe, hwa, hwd, hra⟩ := h.ports (i := i)
  have hop1 : s.op1 i.unaccessed = s.op1 i := by
    unfold op1 rdata1
    rw [hwe, hwa, hwd, hra]
    rfl
  have hop2 : s.op2 i.unaccessed = s.op2 i := by
    unfold op2 rdata2
    rw [hwe, hwa, hwd]
    rfl
  have hcsr : s.dbgCsrWe i.unaccessed = s.dbgCsrWe i := by
    unfold dbgCsrWe
    rw [h.dbgDo, h.dbgDo]
    rfl
  refine ⟨?_, hop1, hop2⟩
  unfold Core.xIn
  rw [hop1, hop2, hcsr]
  rfl

/-- **A hart that runs serves no abstract command** and takes no resume request. -/
theorem step_unaccessed (h : Unhalted s) : s.step i.unaccessed = s.step i := by
  obtain ⟨hwe, hwa, hwd, -⟩ := h.ports (i := i)
  obtain ⟨hx, hop1, hop2⟩ := h.xIn (i := i)
  obtain ⟨hcsr, hucsr, htrig, hxw⟩ :=
    XIn.next_of_running (P := P) (x := s.xIn i) h.mode s.w.retireValid
  have hredirect : s.redirect i.unaccessed = s.redirect i := by
    unfold redirect
    rw [hx]
    rfl
  have hresume : s.dbgResumeNow i.unaccessed = s.dbgResumeNow i := by
    unfold dbgResumeNow
    rw [h.mode]
    rfl
  have hfetch : s.fetchIn i.unaccessed = s.fetchIn i := by
    unfold fetchIn
    rw [hredirect, hresume]
    rfl
  have hbp : s.bpUpdate i.unaccessed = s.bpUpdate i := by
    unfold bpUpdate
    rw [hx]
    rfl
  have hdbg : (s.step i.unaccessed).dbg = (s.step i).dbg := by
    show s.dbgResume _ (s.dbgEnter (s.dbgHalt _ (s.dbgAccess _))) =
      s.dbgResume _ (s.dbgEnter (s.dbgHalt _ (s.dbgAccess _)))
    rw [h.dbgAccess, h.dbgAccess]
    unfold dbgResume
    rw [h.mode]
    rfl
  refine (Core.mk.injEq ..).mpr ⟨?_, ?_, ?_, ?_, ?_, rfl, ?_, ?_, ?_, ?_, hdbg⟩
  · rw [hfetch]
  · rw [hbp]
  · rw [hredirect]
    rfl
  · rw [hwe, hwa, hwd]
  · rw [hop1, hop2]
  · rw [hx, hcsr]
  · rw [hx, hucsr]
  · rw [hx, htrig]
  · rw [hx, hxw]
    rfl

theorem reset_unaccessed (h : Unhalted s) : s.reset i.unaccessed = s.reset i := by
  obtain ⟨hwe, hwa, hwd, -⟩ := h.ports (i := i)
  refine (Core.mk.injEq ..).mpr ⟨rfl, rfl, rfl, ?_, rfl, rfl, rfl, rfl, rfl, rfl, rfl⟩
  rw [hwe, hwa, hwd]

end Unhalted

/-! ## Reset -/

/-- A second clock of reset changes nothing. -/
theorem reset_reset (c : Core P) (i j : CoreIn) : (c.reset i).reset j = c.reset i := by
  have hbp : (c.reset i).bp.reset = (c.reset i).bp := by
    show c.bp.reset.reset = c.bp.reset
    unfold Bpred.reset
    split
    case isTrue h => rfl
    case isFalse h => rfl
  have hregs : ((c.reset i).reset j).regs = (c.reset i).regs := rfl
  exact (Core.mk.injEq ..).mpr
    ⟨rfl, hbp, rfl, hregs, rfl, rfl, rfl, rfl, rfl, rfl, rfl⟩

end Core

end ThreeSippEs
