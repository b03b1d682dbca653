import ThreeSippEs.Core.Clock
import ThreeSippEs.Core.System

/-!
# Delivery of synchronous exceptions

An exception goes to the M-mode CSR file or, where `medeleg` says so, to the
N-extension registers. The two files decide by themselves, each with a priority
chain of its own.

- `csrNext_of_trap`, `csrNext_of_deleg`: what the M-mode file does in the clock
  of an exception;
- `ToUser`, `ToMachine`: the two ways an exception is delivered;
- `trap_delivered`: each exception is delivered in exactly one of them, and URET
  undoes a delivery to User mode.
-/

namespace ThreeSippEs

variable {P : Params}

/-! ## The fields of `mstatus` -/

namespace Mstatus

@[simp] theorem mie_setMpp (v : Word) (p : BitVec 2) : mie (setMpp v p) = mie v := by
  unfold mie setMpp
  rw [BitVec.getLsbD_append, if_pos (by omega), BitVec.getLsbD_extractLsb]
  simp

@[simp] theorem mpie_setMpp (v : Word) (p : BitVec 2) : mpie (setMpp v p) = mpie v := by
  unfold mpie setMpp
  rw [BitVec.getLsbD_append, if_pos (by omega), BitVec.getLsbD_extractLsb]
  simp

@[simp] theorem mie_setMie (v : Word) (b : Bool) : mie (setMie v b) = b := by
  unfold mie setMie
  rw [BitVec.getLsbD_append, if_neg (by omega), BitVec.getLsbD_append, if_pos (by omega),
    BitVec.getLsbD_ofBool]
  rfl

@[simp] theorem mpie_setMie (v : Word) (b : Bool) : mpie (setMie v b) = mpie v := by
  unfold mpie setMie
  rw [BitVec.getLsbD_append, if_neg (by omega), BitVec.getLsbD_append, if_neg (by omega),
    BitVec.getLsbD_extractLsb]
  simp

@[simp] theorem mie_setMpie (v : Word) (b : Bool) : mie (setMpie v b) = mie v := by
  unfold mie setMpie
  rw [BitVec.getLsbD_append, if_pos (by omega), BitVec.getLsbD_extractLsb]
  simp

@[simp] theorem mpie_setMpie (v : Word) (b : Bool) : mpie (setMpie v b) = b := by
  unfold mpie setMpie
  rw [BitVec.getLsbD_append, if_neg (by omega), BitVec.getLsbD_append, if_pos (by omega),
    BitVec.getLsbD_ofBool]
  rfl

end Mstatus

/-! ## An exception in X -/

namespace XIn

variable {x : XIn}

/-- An instruction that traps writes no CSR. -/
theorem csrWeEff_of_exTrap (h : x.exTrap P = true) (hdbg : x.dbgMode = false) :
    x.csrWeEff P = false := by
  unfold csrWeEff
  rw [hdbg, h]
  simp

theorem delegTrap_iff : x.delegTrap P = true ↔ P.secure = true ∧ x.csr.priv = 0b00#2 ∧
    x.exTrap P = true ∧ x.exFreeze = false ∧
    x.ucsr.medeleg.getLsbD (x.exCause P).toNat = true := by
  unfold delegTrap
  simp only [Bool.and_eq_true, Bool.not_eq_true', beq_iff_eq, and_assoc]

/-- The M-mode file enters the trap unless it is delegated. -/
theorem csrNext_of_trap (h : x.exTrap P = true) (hfz : x.exFreeze = false)
    (hd : x.delegTrap P = false) (retire : Bool) :
    x.csrNext P retire =
      { x.csr.trapEntry P.csr (x.csrIn P retire) with ctr := x.csr.tick (x.csrIn P retire) } := by
  refine Csr.step_trapSet ?_
  show x.mTrapSet P = true
  unfold mTrapSet
  rw [h, hfz, hd]
  rfl

/-- A delegated trap leaves it alone: it neither writes nor returns, for MRET is
not available in User mode. -/
theorem csrNext_of_deleg (hd : x.delegTrap P = true) (hdbg : x.dbgMode = false) (retire : Bool) :
    x.csrNext P retire = { x.csr with ctr := x.csr.tick (x.csrIn P retire) } := by
  obtain ⟨hP, hu, htrap, -, -⟩ := delegTrap_iff.mp hd
  have hset : (x.csrIn P retire).trapSet = false := by
    show ((x.exTrap P && !x.exFreeze && !x.delegTrap P) || x.takeIrq P) = false
    rw [hd, takeIrq_of_exTrap htrap]
    simp
  have hmret : (x.csrIn P retire).mret = false := by
    show (x.fxValid && x.dec.isMret && !(P.secure && x.csr.priv != 0b11#2 && x.dec.isMret) &&
      !x.exFreeze) = false
    rw [hP, hu]
    cases x.dec.isMret <;> simp
  have hwe : (x.csrIn P retire).we = false := by
    show (x.csrWeEff P && _ && _) = false
    rw [csrWeEff_of_exTrap htrap hdbg]
    rfl
  unfold csrNext Csr.step
  rw [hset, hmret, hwe]
  rfl

/-- The trigger registers take over the hit bits and nothing else. -/
theorem trigNext_of_exTrap (h : x.exTrap P = true) (hdbg : x.dbgMode = false) :
    x.trigNext P = if x.trigFire then x.trig.setHits x.trigMatch.fireMask else x.trig := by
  unfold trigNext trigCsrWe
  rw [csrWeEff_of_exTrap h hdbg]
  rfl

/-- The N-extension registers of an exception that is not delegated. -/
theorem ucsrNext_of_trap (h : x.exTrap P = true) (hd : x.delegTrap P = false)
    (hdbg : x.dbgMode = false) :
    x.ucsrNext P =
      if x.isUret P && !x.exFreeze then x.ucsr.uretReturn else x.ucsr := by
  unfold ucsrNext ucsrWe
  rw [hd, csrWeEff_of_exTrap h hdbg, exTrap_valid h]
  cases hP : P.secure with
  | true => simp
  | false => simp [isUret, hP]

theorem ucsrNext_of_deleg (hd : x.delegTrap P = true) :
    x.ucsrNext P = x.ucsr.trapEntry x.fxPc (x.exCause P) (x.exTval P) := by
  unfold ucsrNext
  rw [(delegTrap_iff.mp hd).1, hd]
  rfl

end XIn

namespace Delivery

open Clocked

/-- The clock `i` in state `s` delivers the exception of the instruction in X to
User mode. -/
structure ToUser (s : Core P) (i : CoreIn) : Prop where
  uepc : (s.step i).ucsr.uepc = s.f.fxPc
  ucause : (s.step i).ucsr.ucause = 0#28 ++ (s.xIn i).exCause P
  utval : (s.step i).ucsr.utval = (s.xIn i).exTval P
  upie : (s.step i).ucsr.ustatusUpie = s.ucsr.ustatusUie
  uie : (s.step i).ucsr.ustatusUie = false
  /-- the rest of the N-extension registers, `medeleg` among them -/
  rest : (s.step i).ucsr.medeleg = s.ucsr.medeleg ∧ (s.step i).ucsr.utvec = s.ucsr.utvec ∧
    (s.step i).ucsr.uscratch = s.ucsr.uscratch ∧ (s.step i).ucsr.uie = s.ucsr.uie ∧
    (s.step i).ucsr.uip = s.ucsr.uip
  pc : (s.step i).f.pc = s.ucsr.utvec ∧ (s.step i).f.fxValid = false
  priv : (s.step i).csr.priv = 0b00#2
  /-- the M-mode file with its PMP registers, the counters apart -/
  machine : (s.step i).csr = { s.csr with ctr := (s.step i).csr.ctr }

/-- It delivers the exception to M-mode. -/
structure ToMachine (s : Core P) (i : CoreIn) : Prop where
  mepc : (s.step i).csr.mepc = s.f.fxPc
  mcause : (s.step i).csr.mcause = 0#28 ++ (s.xIn i).exCause P
  mtval : (s.step i).csr.mtval = (s.xIn i).exTval P
  mpie : Mstatus.mpie (s.step i).csr.mstatus = Mstatus.mie s.csr.mstatus
  mie : Mstatus.mie (s.step i).csr.mstatus = false
  mpp : Mstatus.mpp (s.step i).csr.mstatus = s.csr.priv
  pc : (s.step i).f.pc = s.csr.mtvec ∧ (s.step i).f.fxValid = false
  priv : (s.step i).csr.priv = 0b11#2
  user : (s.step i).ucsr.uepc = s.ucsr.uepc ∧ (s.step i).ucsr.ucause = s.ucsr.ucause ∧
    (s.step i).ucsr.utval = s.ucsr.utval

/-- The exception of the instruction in X is to be delivered to User mode. -/
def Delegated (s : Core P) (i : CoreIn) : Prop :=
  s.csr.priv = 0b00#2 ∧ s.ucsr.medeleg.getLsbD ((s.xIn i).exCause P).toNat = true

theorem zero_append_cause (cause : BitVec 4) :
    (cause.setWidth 32 : Word) = 0#28 ++ cause := by
  revert cause
  decide

section Step

variable {s : Core P} {i : CoreIn}

theorem f_step_of_exTrap (htrap : (s.xIn i).exTrap P = true) (hfz : s.exFreeze = false) :
    (s.step i).f.pc = (if (s.xIn i).delegTrap P then s.ucsr.utvec else s.csr.mtvec) ∧
    (s.step i).f.fxValid = false ∧ (s.step i).f.straddle = false := by
  have hr : s.redirect i = some (if (s.xIn i).delegTrap P then s.ucsr.utvec else s.csr.mtvec) :=
    XIn.redirect_of_exTrap htrap hfz
  have hf : (s.step i).f = { s.f with
      pc := if (s.xIn i).delegTrap P then s.ucsr.utvec else s.csr.mtvec
      fxValid := false, straddle := false } :=
    FStage.step_of_redirect (i := s.fetchIn i) hr
  rw [hf]
  exact ⟨rfl, rfl, rfl⟩

theorem toUser (hd : (s.xIn i).delegTrap P = true) (hdbg : s.dbg.dbgMode = false) :
    ToUser s i := by
  obtain ⟨-, hu, htrap, hfz, -⟩ := XIn.delegTrap_iff.mp hd
  have hcsr : (s.step i).csr = { s.csr with
      ctr := s.csr.tick ((s.xIn i).csrIn P s.w.retireValid) } :=
    XIn.csrNext_of_deleg (x := s.xIn i) hd hdbg s.w.retireValid
  have hucsr : (s.step i).ucsr =
      s.ucsr.trapEntry s.f.fxPc ((s.xIn i).exCause P) ((s.xIn i).exTval P) :=
    XIn.ucsrNext_of_deleg (x := s.xIn i) hd
  obtain ⟨hpc, hv, -⟩ := f_step_of_exTrap htrap hfz
  rw [hd, if_pos rfl] at hpc
  refine ⟨?_, ?_, ?_, ?_, ?_, ?_, ⟨hpc, hv⟩, ?_, ?_⟩
  · rw [hucsr]
    rfl
  · rw [hucsr]
    exact zero_append_cause _
  · rw [hucsr]
    rfl
  · rw [hucsr]
    rfl
  · rw [hucsr]
    rfl
  · rw [hucsr]
    exact ⟨rfl, rfl, rfl, rfl, rfl⟩
  · rw [hcsr]
    exact hu
  · rw [hcsr]

theorem toMachine (hP : P.secure = true) (htrap : (s.xIn i).exTrap P = true)
    (hfz : s.exFreeze = false) (hd : (s.xIn i).delegTrap P = false)
    (hdbg : s.dbg.dbgMode = false) : ToMachine s i := by
  have hcsr : (s.step i).csr = { s.csr.trapEntry P.csr ((s.xIn i).csrIn P s.w.retireValid) with
      ctr := s.csr.tick ((s.xIn i).csrIn P s.w.retireValid) } :=
    XIn.csrNext_of_trap (x := s.xIn i) htrap hfz hd s.w.retireValid
  have hucsr : (s.step i).ucsr =
      if (s.xIn i).isUret P && !s.exFreeze then s.ucsr.uretReturn else s.ucsr :=
    XIn.ucsrNext_of_trap (x := s.xIn i) htrap hd hdbg
  obtain ⟨hepc, hcause⟩ := XIn.trapEntry_of_exTrap htrap s.w.retireValid
  have hum : P.csr.uMode = true := hP
  obtain ⟨hpc, hv, -⟩ := f_step_of_exTrap htrap hfz
  rw [hd, if_neg Bool.false_ne_true] at hpc
  refine ⟨?_, ?_, ?_, ?_, ?_, ?_, ⟨hpc, hv⟩, ?_, ?_⟩
  · rw [hcsr]
    exact hepc
  · rw [hcsr]
    exact hcause
  · rw [hcsr]
    rfl
  · rw [hcsr]
    show Mstatus.mpie (Mstatus.setMpp (Mstatus.setMie (Mstatus.setMpie _ _) false) _) = _
    simp
  · rw [hcsr]
    show Mstatus.mie (Mstatus.setMpp (Mstatus.setMie (Mstatus.setMpie _ _) false) _) = _
    simp
  · rw [hcsr]
    show Mstatus.mpp (Mstatus.setMpp _ (if P.csr.uMode then s.csr.priv else 0b11#2)) = _
    rw [hum, if_pos rfl, Mstatus.mpp_setMpp]
  · rw [hcsr]
    show (if P.csr.uMode then 0b11#2 else s.csr.priv) = _
    rw [hum, if_pos rfl]
  · -- a URET that traps still restores `ustatus`, but no trap record
    rw [hucsr]
    split <;> exact ⟨rfl, rfl, rfl⟩

/-- URET goes to `uepc` and restores the interrupt enable. -/
theorem uret_step (huret : (s.xIn i).isUret P = true) (hl : (s.xIn i).leaves = true)
    (htrap : (s.xIn i).exTrap P = false) :
    (s.step i).f.pc = s.ucsr.uepc ∧ (s.step i).ucsr.ustatusUie = s.ucsr.ustatusUpie ∧
    (s.step i).csr.priv = s.csr.priv := by
  obtain ⟨hv, hfz⟩ := XIn.leaves_iff.mp hl
  have hP := (XIn.fxInstr_of_isUret huret).1
  have hdeleg : (s.xIn i).delegTrap P = false := by
    unfold XIn.delegTrap
    rw [htrap]
    simp
  refine ⟨?_, ?_, ?_⟩
  · have hr : s.redirect i = some s.ucsr.uepc := by
      show (s.xIn i).redirect P = _
      unfold XIn.redirect
      rw [hv, hfz, htrap, huret]
      rfl
    have hf : (s.step i).f =
        { s.f with pc := s.ucsr.uepc, fxValid := false, straddle := false } :=
      FStage.step_of_redirect (i := s.fetchIn i) hr
    rw [hf]
  · have hucsr : (s.step i).ucsr = s.ucsr.uretReturn := by
      show (s.xIn i).ucsrNext P = _
      unfold XIn.ucsrNext
      rw [hP, hdeleg, hv, huret, hfz]
      rfl
    rw [hucsr]
    rfl
  · have hirq : (s.xIn i).takeIrq P = false :=
      XIn.takeIrq_eq_false_iff.mpr fun ht => Bool.false_ne_true (ht.uret.symm.trans huret)
    have hset : ((s.xIn i).csrIn P s.w.retireValid).trapSet = false := by
      show (((s.xIn i).exTrap P && _ && _) || (s.xIn i).takeIrq P) = false
      rw [htrap, hirq]
      rfl
    have hmret : ((s.xIn i).csrIn P s.w.retireValid).mret = false := by
      show ((s.xIn i).fxValid && (s.xIn i).dec.isMret && _ && _) = false
      rw [(XIn.dec_of_isUret huret).1]
      simp
    show ((s.xIn i).csrNext P s.w.retireValid).priv = _
    unfold XIn.csrNext
    rw [Csr.step_priv, hset, hmret]
    rfl

end Step

/-- **Every exception is delivered to exactly one mode.** In every reachable
state, the exception that the instruction in X takes is delivered to User mode
when it is delegated and to M-mode otherwise; and a URET that executes with the
recorded `uepc` and `ustatus` goes back to the instruction that trapped, with
the interrupt enable it had, in the mode it executes in. -/
theorem trap_delivered (hP : P.secure = true) (s₀ : Core P) (i₀ : CoreIn) (ins : Nat → CoreIn)
    (n : Nat) (htrap : ((Core.runFrom s₀ i₀ ins n).xIn (ins n)).exTrap P = true)
    (hfz : (Core.runFrom s₀ i₀ ins n).exFreeze = false) :
    (Delegated (Core.runFrom s₀ i₀ ins n) (ins n) →
      ToUser (Core.runFrom s₀ i₀ ins n) (ins n) ∧
      ∀ m, n < m →
        (Core.runFrom s₀ i₀ ins m).ucsr.uepc = (Core.runFrom s₀ i₀ ins (n + 1)).ucsr.uepc →
        (Core.runFrom s₀ i₀ ins m).ucsr.ustatusUpie =
          (Core.runFrom s₀ i₀ ins (n + 1)).ucsr.ustatusUpie →
        ((Core.runFrom s₀ i₀ ins m).xIn (ins m)).isUret P = true →
        ((Core.runFrom s₀ i₀ ins m).xIn (ins m)).leaves = true →
        ((Core.runFrom s₀ i₀ ins m).xIn (ins m)).exTrap P = false →
        (Core.runFrom s₀ i₀ ins (m + 1)).f.pc = (Core.runFrom s₀ i₀ ins n).f.fxPc ∧
        (Core.runFrom s₀ i₀ ins (m + 1)).ucsr.ustatusUie =
          (Core.runFrom s₀ i₀ ins n).ucsr.ustatusUie ∧
        (Core.runFrom s₀ i₀ ins (m + 1)).csr.priv = (Core.runFrom s₀ i₀ ins m).csr.priv) ∧
    (¬ Delegated (Core.runFrom s₀ i₀ ins n) (ins n) →
      ToMachine (Core.runFrom s₀ i₀ ins n) (ins n)) := by
  have hdbg := Core.running_of_valid s₀ i₀ ins n (XIn.exTrap_valid htrap)
  have hiff : ((Core.runFrom s₀ i₀ ins n).xIn (ins n)).delegTrap P = true ↔
      Delegated (Core.runFrom s₀ i₀ ins n) (ins n) := by
    rw [XIn.delegTrap_iff]
    exact ⟨fun h => ⟨h.2.1, h.2.2.2.2⟩, fun h => ⟨hP, h.1, htrap, hfz, h.2⟩⟩
  refine ⟨fun hd => ?_, fun hd => ?_⟩
  · have huser := toUser (hiff.mpr hd) hdbg
    refine ⟨huser, fun m _ hepc hpie huret hl hno => ?_⟩
    obtain ⟨hpc, huie, hpriv⟩ := uret_step huret hl hno
    refine ⟨?_, ?_, hpriv⟩
    · exact hpc.trans (hepc.trans huser.uepc)
    · exact huie.trans (hpie.trans huser.upie)
  · refine toMachine hP htrap hfz ?_ hdbg
    rw [← Bool.not_eq_true, hiff]
    exact hd

/-- A program that opens the first bytes for User mode, delegates its ECALL and
leaves for one. The User handler at address 0 is a URET. -/
def delegatedEcall : Memory where
  imem := .ofWords
    [0x00200073#32,   -- uret
     0x3B0FD073#32,   -- csrrwi x0, pmpaddr0, 31
     0x3A07D073#32,   -- csrrwi x0, pmpcfg0, 15
     0x10000113#32,   -- addi x2, x0, 256
     0x30211073#32,   -- csrrw x0, medeleg, x2
     0x341E5073#32,   -- csrrwi x0, mepc, 28
     0x30200073#32,   -- mret
     0x00000073#32]   -- ecall
  dmem := fun _ => 0#8

/-- Clock 8 delivers the ECALL to User mode, and the URET of clock 10 goes back
to it. -/
theorem trap_delivered_ecall :
    ToUser (delegatedEcall.bench { secure := true, resetPc := 4#32 } {} 8)
      (delegatedEcall.inputs { secure := true, resetPc := 4#32 } {} 8) ∧
    (delegatedEcall.bench { secure := true, resetPc := 4#32 } {} 11).f.pc = 28#32 := by
  have h := (trap_delivered rfl (Core.powerUp { secure := true, resetPc := 4#32 })
    (delegatedEcall.resetIn { secure := true, resetPc := 4#32 } {})
    (delegatedEcall.inputs { secure := true, resetPc := 4#32 } {}) 8
    (by rw [Memory.runFrom_inputs]; decide +kernel)
    (by rw [Memory.runFrom_inputs]; decide +kernel)).1
  simp only [Memory.runFrom_inputs] at h
  obtain ⟨huser, huret⟩ := h ⟨by decide +kernel, by decide +kernel⟩
  refine ⟨huser, ?_⟩
  have hpc := (huret 10 (by decide) (by decide +kernel) (by decide +kernel) (by decide +kernel)
    (by decide +kernel) (by decide +kernel)).1
  exact hpc.trans (by decide +kernel)

end Delivery

end ThreeSippEs
