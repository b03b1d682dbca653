import ThreeSippEs.Isa.Backwards
import ThreeSippEs.Traps.Precise

/-!
# Illegal instructions

The decision whether a word traps as illegal is spread over the decoder, the overlays of
the X stage and the CSR checks. It follows the instruction set except for the fields that
none of them looks at.

- `illegalAll_eq`: the decision in M-mode;
- `Executes`, `Refused`, `Exact`: a word is executed, refused, decided exactly;
- `illegal_iff`: when the decision is exact.
-/

namespace ThreeSippEs

namespace Isa

open Decode Formats

/-! ## The X stage in M-mode -/

section Stage

variable {P : Params} {x : XIn}

/-- In M-mode only a write to a read-only CSR is refused. -/
theorem illegalAll_eq (hpriv : x.csr.priv = 0b11#2) :
    x.illegalAll P = (x.illegalEff P || x.csrRoFault) := by
  have hlow : x.privLow P = false := by
    unfold XIn.privLow
    rw [hpriv]
    exact Bool.and_false _
  unfold XIn.illegalAll XIn.privFault XIn.csrPrivFault XIn.mretPrivFault
  rw [hlow]
  rfl

theorem csrRoFault_of_system (hop : opcode x.fxInstr = opSystem)
    (hf3 : funct3 x.fxInstr = 0b100#3) :
    x.csrRoFault = true ↔
      x.fxInstr.extractLsb 19 15 ≠ 0#5 ∧ (sysImm12 x.fxInstr).extractLsb 11 10 = 0b11#2 := by
  have hdec : x.dec = system x.fxInstr := dec_of_opcode hop
  have hcsr : x.dec.isCsr = true := by
    rw [hdec, system, if_neg (by rw [hf3]; decide)]
  have hfn : x.csrFn = 0b00#2 := by
    unfold XIn.csrFn
    rw [show x.funct3 = 0b100#3 from hf3]
    decide
  unfold XIn.csrRoFault XIn.csrDoWrite
  rw [hcsr, hfn]
  simp [XIn.rs1, XIn.sysImm12, Decode.sysImm12]

theorem defined_of_accepted (hpriv : x.csr.priv = 0b11#2) (h : x.illegalAll P = false)
    (hw : Clean x.fxInstr) : Defined P.secure x.fxInstr := by
  rw [illegalAll_eq hpriv, Bool.or_eq_false_iff] at h
  obtain ⟨heff, hro⟩ := h
  by_cases hamo : x.amoValid = true
  · exact defined_of_amoValid hamo
  by_cases huret : x.isUret P = true
  · unfold XIn.isUret at huret
    rw [Bool.and_eq_true, beq_iff_eq] at huret
    exact ⟨.uret, fun _ => huret.1, huret.2.symm⟩
  · have hdec : x.dec.illegal = false := by
      rw [Bool.not_eq_true] at hamo huret
      rw [XIn.illegalEff, hamo, huret] at heff
      simpa using heff
    refine defined_of_decode hdec hw fun hop hf3 => ?_
    rw [(csrRoFault_of_system hop hf3).mpr (hw.csr hop hf3)] at hro
    exact Bool.false_ne_true hro.symm

theorem accepted_of_not_clean (hpriv : x.csr.priv = 0b11#2) (h : ¬Clean x.fxInstr) :
    x.illegalAll P = false := by
  rw [illegalAll_eq hpriv]
  by_contra hill
  rw [Bool.not_eq_false, Bool.or_eq_true] at hill
  have hcase : x.dec.illegal = true ∨ x.csrRoFault = true := by
    refine hill.imp_left fun heff => ?_
    unfold XIn.illegalEff at heff
    simp only [Bool.and_eq_true] at heff
    exact heff.1.1
  refine h ⟨fun hop hf3 => ?_, fun hop hf3 himm => ?_, fun hop => ?_⟩
  · refine (csrRoFault_of_system hop hf3).mp (hcase.resolve_left fun hdec => ?_)
    rw [show x.dec = system x.fxInstr from dec_of_opcode hop, system,
      if_neg (by rw [hf3]; decide)] at hdec
    exact Bool.false_ne_true hdec
  · exfalso
    have hdec : x.dec = system x.fxInstr := dec_of_opcode hop
    unfold XIn.csrRoFault at hcase
    rw [hdec, system, if_pos hf3] at hcase
    obtain himm | himm | himm := himm <;> simp [himm] at hcase
  · exfalso
    have hdec : x.dec = fence x.fxInstr := dec_of_opcode hop
    unfold XIn.csrRoFault at hcase
    rw [hdec] at hcase
    simp [fence] at hcase

theorem accepted_of_defined (hpriv : x.csr.priv = 0b11#2) (h : Defined P.secure x.fxInstr)
    (hro : ∀ i : Instr, i.encode = x.fxInstr → ∀ c, i.control.csr = some c → c.write = true →
      c.addr.extractLsb 11 10 ≠ 0b11#2) : x.illegalAll P = false := by
  obtain ⟨i, hi, hx⟩ := h
  obtain ⟨hcontrol, heff⟩ := control_encode hi hx.symm
  rw [illegalAll_eq hpriv, heff, Bool.false_or]
  by_contra hfault
  rw [Bool.not_eq_false] at hfault
  unfold XIn.csrRoFault at hfault
  simp only [Bool.and_eq_true, beq_iff_eq] at hfault
  obtain ⟨⟨hcsr, hwrite⟩, haddr⟩ := hfault
  have hc : i.control.csr = (x.control P).csr := by rw [hcontrol]
  unfold XIn.control at hc
  exact hro i hx _ (hc.trans (if_pos hcsr)) hwrite haddr

end Stage

end Isa

/-! ## The core -/

namespace IllegalInstructions

open Isa PreciseTraps Clocked Decode

variable {P : Params} {imemWritable : Word → Bool} {s : Sys P} {e : ExtIn}

/-- The instruction in X is executed in M-mode. -/
structure Executes (s : Sys P) (e : ExtIn) : Prop where
  valid : s.core.f.fxValid = true
  leaves : s.core.exFreeze = false
  running : s.core.dbg.dbgMode = false
  mmode : s.core.csr.priv = 0b11#2
  access : (s.xIn e).accFault P = false
  trigger : (s.xIn e).trigFire = false
  /-- it does not write a read-only CSR -/
  csr : ∀ i : Instr, i.encode = s.core.f.fxInstr → ∀ c, i.control.csr = some c → c.write = true →
    c.addr.extractLsb 11 10 ≠ 0b11#2

/-- It traps as illegal, and does nothing else. -/
structure Refused (imemWritable : Word → Bool) (s : Sys P) (e : ExtIn) : Prop where
  trap : (s.xIn e).exTrap P = true
  cause : (s.xIn e).exCause P = causeIllegal
  precise : Precise imemWritable s e

/-- Exactly the undefined words are refused, and the others keep their signals. -/
structure Exact (imemWritable : Word → Bool) (s : Sys P) (e : ExtIn) : Prop where
  refused : Refused imemWritable s e ↔ ¬Defined P.secure s.core.f.fxInstr
  accepted : ∀ i : Instr, i.available P.secure → i.encode = s.core.f.fxInstr →
    (s.xIn e).control P = i.control

theorem not_refused (h : Executes s e) (hall : (s.xIn e).illegalAll P = false) :
    ¬Refused imemWritable s e := by
  intro href
  have hcause := href.cause
  have htrap := href.trap
  have hacc := h.access
  unfold XIn.accFault at hacc
  simp only [Bool.or_eq_false_iff] at hacc
  have hexc : (s.xIn e).trigToExc = false := by
    unfold XIn.trigToExc
    rw [h.trigger]
    rfl
  unfold XIn.exTrap XIn.archTrap at htrap
  rw [hall, h.access, hexc] at htrap
  unfold XIn.exCause at hcause
  rw [hacc.1.1, hall, hacc.1.2, hacc.2, hexc, show (s.xIn e).csr.priv = _ from h.mmode] at hcause
  cases hecall : (s.xIn e).dec.isEcall with
  | true =>
    rw [hecall, if_neg (by decide), if_neg (by decide), if_pos rfl, if_neg (by decide)] at hcause
    exact absurd hcause (by decide)
  | false =>
    rw [hecall] at hcause htrap
    cases hebreak : (s.xIn e).dec.isEbreak with
    | true =>
      rw [hebreak] at hcause
      exact absurd hcause (by decide)
    | false =>
      rw [hebreak] at htrap
      simp at htrap

theorem refused_of_illegal (h : Executes s e) (hall : (s.xIn e).illegalAll P = true)
    (hdef : ¬Defined P.secure s.core.f.fxInstr) : Refused imemWritable s e := by
  have htrap : (s.xIn e).exTrap P = true := by
    unfold XIn.exTrap XIn.archTrap XIn.trigToDebug
    rw [hall, h.trigger, show (s.xIn e).fxValid = true from h.valid]
    rfl
  refine ⟨htrap, ?_, (precise_iff_uretKeeps htrap h.leaves h.running).mpr fun huret => ?_⟩
  · have hacc := h.access
    unfold XIn.accFault at hacc
    simp only [Bool.or_eq_false_iff] at hacc
    unfold XIn.exCause
    rw [hacc.1.1, hall]
    rfl
  · -- URET itself is an instruction
    exfalso
    unfold XIn.isUret at huret
    rw [Bool.and_eq_true, beq_iff_eq] at huret
    exact hdef ⟨.uret, fun _ => huret.1, huret.2.symm⟩

/-- **Illegal instructions.** In every state in which a word is executed in M-mode, the
core refuses exactly the undefined words and executes every other with its signals, if
and only if the fields that it does not look at are clean. -/
theorem illegal_iff (imemWritable : Word → Bool) (h : Executes s e) :
    Exact imemWritable s e ↔ Clean s.core.f.fxInstr := by
  constructor
  · intro hexact
    by_contra hclean
    have hdef : ¬Defined P.secure s.core.f.fxInstr := fun hdef => hclean hdef.clean
    exact not_refused h (@accepted_of_not_clean P (s.xIn e) h.mmode hclean)
      (hexact.refused.mpr hdef)
  · intro hclean
    refine ⟨⟨fun href hdef => ?_, fun hdef => ?_⟩, fun i hi hx => ?_⟩
    · exact not_refused h (@accepted_of_defined P (s.xIn e) h.mmode hdef h.csr) href
    · refine refused_of_illegal h ?_ hdef
      by_contra hall
      exact hdef (@defined_of_accepted P (s.xIn e) h.mmode (Bool.eq_false_iff.mpr hall) hclean)
    · exact (@control_encode P (s.xIn e) i hi hx.symm).1

/-- `lr.w` with `rs2 = 1` -/
def lrAtReset : Sys {} :=
  ⟨Core.powerUp {}, { imem := .ofWords [0x1010202F#32], dmem := fun _ => 0#8 }⟩

/-- The LR.W in X at clock 1 is refused. -/
theorem illegal_iff_lr :
    Exact (fun _ => false)
      (run (Sys.step fun _ => false) (lrAtReset.reset (fun _ => false) {}) (fun _ => {}) 1) {} := by
  have hw : (run (Sys.step fun _ => false) (lrAtReset.reset (fun _ => false) {})
      (fun _ => {}) 1).core.f.fxInstr = 0x1010202F#32 := by decide +kernel
  refine (illegal_iff (fun _ => false) ⟨by decide +kernel, by decide +kernel, by decide +kernel,
    by decide +kernel, by decide +kernel, by decide +kernel, fun i hi c hc => ?_⟩).mpr ?_
  · exact absurd ((congrArg opcode (hi.trans hw)).symm.trans (csr_opcode hc)) (by decide)
  · rw [hw]
    exact ⟨by decide, by decide, by decide⟩

/-- SYSTEM with `funct3 = 100` -/
def csrAtReset : Sys {} :=
  ⟨Core.powerUp {}, { imem := .ofWords [0x00004073#32], dmem := fun _ => 0#8 }⟩

/-- It is not refused. -/
theorem unchecked_funct3_accepted :
    ¬∀ (s : Sys {}) (e : ExtIn), Executes s e → Exact (fun _ => false) s e := by
  intro h
  have hw : (run (Sys.step fun _ => false) (csrAtReset.reset (fun _ => false) {})
      (fun _ => {}) 1).core.f.fxInstr = 0x00004073#32 := by decide +kernel
  have hdef : ∀ secure, ¬Defined secure 0x00004073#32 := fun secure hdef =>
    absurd (hdef.clean.csr (by decide) (by decide)).1 (by decide)
  have hexact := h (run (Sys.step fun _ => false) (csrAtReset.reset (fun _ => false) {})
    (fun _ => {}) 1) {} ⟨by decide +kernel, by decide +kernel, by decide +kernel,
    by decide +kernel, by decide +kernel, by decide +kernel,
    fun i hi => absurd ⟨i, fun _ => rfl, hi.trans hw⟩ (hdef true)⟩
  have htrap := (hexact.refused.mpr (by rw [hw]; exact hdef _)).trap
  revert htrap
  decide +kernel

end IllegalInstructions

end ThreeSippEs
