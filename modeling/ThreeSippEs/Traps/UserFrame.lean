import ThreeSippEs.Core.System
import ThreeSippEs.Traps.Delivery

/-!
# What User mode can change

A CSR write of User mode is held back by the exception it raises, and by nothing
else: the address decides that there is an exception, the exception that there
is no write. A debug-action trigger that cancels the exception lets the write
through.

- `MachineFrame`: the machine state that one clock leaves as it is;
- `Csr.write_user`: no machine register has an address of the User level;
- `user_cannot_write`: User mode keeps the frame, debug-action triggers on its
  CSR writes apart.
-/

namespace ThreeSippEs

variable {P : Params}

/-! ## Addresses of the User level -/

/-- No register of the M-mode file has an address of the User level. -/
theorem Csr.write_user {c : Csr} {Q : CsrParams} {a : BitVec 12}
    (h : a.extractLsb 9 8 = 0b00#2) (v : Word) : c.write Q a v = c := by
  have hne : ∀ b : BitVec 12, b.extractLsb 9 8 ≠ 0b00#2 → a ≠ b := by
    rintro b hb rfl
    exact hb h
  have hpa : isPmpaddr a = false := by
    unfold isPmpaddr
    rw [beq_eq_false_iff_ne]
    intro hb
    have h' : (a.extractLsb 11 4).extractLsb 5 4 = 0b00#2 := by
      rw [← h]
      apply BitVec.eq_of_getLsbD_eq
      intro k hk
      simp only [BitVec.getLsbD_extractLsb]
      grind
    rw [hb] at h'
    exact absurd h' (by decide)
  have hpc : isPmpcfg a = false := by
    unfold isPmpcfg
    rw [beq_eq_false_iff_ne]
    intro hb
    have h' : (a.extractLsb 11 2).extractLsb 7 6 = 0b00#2 := by
      rw [← h]
      apply BitVec.eq_of_getLsbD_eq
      intro k hk
      simp only [BitVec.getLsbD_extractLsb]
      grind
    rw [hb] at h'
    exact absurd h' (by decide)
  have hev : group4 csrMhpmevent3 a = none := by
    unfold group4
    rw [if_neg (hne _ (by decide)), if_neg (hne _ (by decide)), if_neg (hne _ (by decide)),
      if_neg (hne _ (by decide))]
  unfold write
  rw [hpa, hpc, hev]
  simp only [Bool.false_eq_true, and_false, if_false]
  rw [if_neg fun h' => hne csrMseccfg (by decide) h'.2, if_neg (hne csrMstatus (by decide)),
    if_neg (hne csrMie (by decide)), if_neg (hne csrMtvec (by decide)),
    if_neg (hne csrMscratch (by decide)), if_neg (hne csrMepc (by decide)),
    if_neg (hne csrMcause (by decide)), if_neg (hne csrMtval (by decide))]

/-- Nor do the trigger registers. -/
theorem Trig.isAddr_user {a : BitVec 12} (h : a.extractLsb 9 8 = 0b00#2) :
    Trig.isAddr a = false := by
  have hne : ∀ b : BitVec 12, b.extractLsb 9 8 ≠ 0b00#2 → (a == b) = false := by
    intro b hb
    rw [beq_eq_false_iff_ne]
    rintro rfl
    exact hb h
  unfold isAddr
  rw [hne addrTselect (by decide), hne addrTdata1 (by decide), hne addrTdata2 (by decide),
    hne addrTinfo (by decide)]
  rfl

/-- Nor does `medeleg`. -/
theorem Ucsr.write_medeleg_user {u : Ucsr} {a : BitVec 12} (h : a.extractLsb 9 8 = 0b00#2)
    (v : Word) : (u.write a v).medeleg = u.medeleg := by
  have hne : a ≠ addrMedeleg := by
    rintro rfl
    exact absurd h (by decide)
  unfold write
  iterate 8 refine (apply_ite Ucsr.medeleg _ _ _).trans (ite_eq_left_iff.mpr fun _ => ?_)
  rw [if_neg hne]

namespace UserFrame

open Clocked

/-- What one clock in User mode leaves of the machine state. -/
structure MachineFrame (s : Core P) (i : CoreIn) : Prop where
  mtvec : (s.step i).csr.mtvec = s.csr.mtvec
  mscratch : (s.step i).csr.mscratch = s.csr.mscratch
  mie : (s.step i).csr.mie = s.csr.mie
  mhpmevent : (s.step i).csr.mhpmevent = s.csr.mhpmevent
  medeleg : (s.step i).ucsr.medeleg = s.ucsr.medeleg
  pmp : (s.step i).csr.pmpcfg = s.csr.pmpcfg ∧ (s.step i).csr.pmpaddr = s.csr.pmpaddr ∧
    (s.step i).csr.mseccfg = s.csr.mseccfg
  /-- the trigger registers, the hit bits apart -/
  trig : { (s.step i).trig with trigHit0 := s.trig.trigHit0 } = s.trig
  /-- without a trap to M-mode: `mstatus`, the trap record and the privilege -/
  untrapped : (s.xIn i).mTrapSet P = false →
    (s.step i).csr.mstatus = s.csr.mstatus ∧ (s.step i).csr.mepc = s.csr.mepc ∧
    (s.step i).csr.mcause = s.csr.mcause ∧ (s.step i).csr.mtval = s.csr.mtval ∧
    (s.step i).csr.priv = 0b00#2
  /-- with a trap: the entry from User mode, by an exception or an interrupt -/
  trapped : (s.xIn i).mTrapSet P = true →
    (s.step i).csr.mstatus =
      Mstatus.setMpp (Mstatus.setMie (Mstatus.setMpie s.csr.mstatus (Mstatus.mie s.csr.mstatus))
        false) 0b00#2 ∧
    (s.step i).csr.priv = 0b11#2 ∧ (s.step i).csr.mtval = (s.xIn i).exTval P ∧
    (((s.xIn i).exTrap P = true ∧ (s.step i).csr.mepc = s.f.fxPc ∧
        (s.step i).csr.mcause = 0#28 ++ (s.xIn i).exCause P) ∨
      ((s.xIn i).takeIrq P = true ∧ (s.step i).csr.mepc = s.f.fxPc + s.f.fxLen.setWidth 32 ∧
        (s.step i).csr.mcause = 1#1 ++ 0#27 ++ s.csr.irqCause i.irq))

/-- A debug-action trigger cancels the exception that holds back a CSR write of
User mode. -/
def writeReleased (P : Params) (x : XIn) : Bool :=
  x.trigToDebug && x.csrPrivFault P && x.csrDoWrite

section Step

variable {s : Core P} {i : CoreIn}

/-- What User mode writes has an address of the User level. -/
theorem user_addr (hok : writeReleased P (s.xIn i) = false) (hP : P.secure = true)
    (hu : s.csr.priv = 0b00#2) (hdbg : s.dbg.dbgMode = false)
    (hwe : (s.xIn i).csrWeEff P = true) : (s.xIn i).csrAddrEff.extractLsb 9 8 = 0b00#2 := by
  have haddr : (s.xIn i).csrAddrEff = (s.xIn i).sysImm12 := by
    unfold XIn.csrAddrEff
    rw [show (s.xIn i).dbgMode = false from hdbg]
    rfl
  unfold XIn.csrWeEff at hwe
  rw [show (s.xIn i).dbgMode = false from hdbg, if_neg Bool.false_ne_true] at hwe
  simp only [Bool.and_eq_true, Bool.not_eq_true'] at hwe
  obtain ⟨⟨⟨hv, hdo⟩, htrap⟩, -⟩ := hwe
  rw [haddr]
  by_contra hlevel
  have hcsr : (s.xIn i).dec.isCsr = true := by
    unfold XIn.csrDoWrite at hdo
    rw [Bool.and_eq_true] at hdo
    exact hdo.1
  have hfault : (s.xIn i).csrPrivFault P = true := by
    unfold XIn.csrPrivFault XIn.privLow
    rw [hP, show (s.xIn i).csr.priv = 0b00#2 from hu, hcsr]
    simpa using hlevel
  -- the fault is an exception, unless a trigger cancels it
  have harch : (s.xIn i).archTrap P = true := by
    unfold XIn.archTrap XIn.illegalAll XIn.privFault
    rw [hv, hfault]
    simp
  have htd : (s.xIn i).trigToDebug = true := by
    unfold XIn.exTrap at htrap
    rw [harch] at htrap
    simpa using htrap
  unfold writeReleased at hok
  rw [htd, hfault, hdo] at hok
  exact absurd hok (by decide)

/-- The M-mode file in User mode. -/
theorem csr_step_user (hok : writeReleased P (s.xIn i) = false) (hP : P.secure = true)
    (hu : s.csr.priv = 0b00#2) (hdbg : s.dbg.dbgMode = false) :
    (s.step i).csr =
      if (s.xIn i).mTrapSet P then
        { s.csr.trapEntry P.csr ((s.xIn i).csrIn P s.w.retireValid) with
          ctr := (s.step i).csr.ctr }
      else { s.csr with ctr := (s.step i).csr.ctr } := by
  have hstep : (s.step i).csr = s.csr.step P.csr ((s.xIn i).csrIn P s.w.retireValid) := rfl
  have hset : ((s.xIn i).csrIn P s.w.retireValid).trapSet = (s.xIn i).mTrapSet P := rfl
  have hmret : ((s.xIn i).csrIn P s.w.retireValid).mret = false := by
    show ((s.xIn i).fxValid && (s.xIn i).dec.isMret &&
      !(P.secure && s.csr.priv != 0b11#2 && (s.xIn i).dec.isMret) && !(s.xIn i).exFreeze) = false
    rw [hP, hu]
    cases (s.xIn i).dec.isMret <;> simp
  rw [hstep]
  unfold Csr.step
  rw [hset, hmret]
  cases (s.xIn i).mTrapSet P with
  | true => rfl
  | false =>
    rw [if_neg Bool.false_ne_true, if_neg Bool.false_ne_true, if_neg Bool.false_ne_true]
    cases hwe : ((s.xIn i).csrIn P s.w.retireValid).we with
    | false => rfl
    | true =>
      have hwe' : ((s.xIn i).csrWeEff P && !(s.xIn i).isTrigCsr && !(s.xIn i).isUcsr P) = true := hwe
      simp only [Bool.and_eq_true] at hwe'
      have haddr : ((s.xIn i).csrIn P s.w.retireValid).addr.extractLsb 9 8 = 0b00#2 :=
        user_addr hok hP hu hdbg hwe'.1.1
      rw [if_pos rfl, Csr.write_user haddr]

/-- The N-extension registers. -/
theorem medeleg_step_user (hok : writeReleased P (s.xIn i) = false) (hP : P.secure = true)
    (hu : s.csr.priv = 0b00#2) (hdbg : s.dbg.dbgMode = false) :
    (s.step i).ucsr.medeleg = s.ucsr.medeleg := by
  show ((s.xIn i).ucsrNext P).medeleg = _
  unfold XIn.ucsrNext
  rw [hP, if_pos rfl]
  by_cases hd : (s.xIn i).delegTrap P = true
  · rw [if_pos hd]
    rfl
  rw [if_neg hd]
  by_cases hr : ((s.xIn i).fxValid && (s.xIn i).isUret P && !(s.xIn i).exFreeze) = true
  · rw [if_pos hr]
    rfl
  rw [if_neg hr]
  by_cases hwe : (s.xIn i).ucsrWe P = true
  · rw [if_pos hwe]
    unfold XIn.ucsrWe at hwe
    rw [Bool.and_eq_true] at hwe
    exact Ucsr.write_medeleg_user (user_addr hok hP hu hdbg hwe.1) _
  · rw [if_neg hwe]
    rfl

/-- The trigger registers. -/
theorem trig_step_user (hok : writeReleased P (s.xIn i) = false) (hP : P.secure = true)
    (hu : s.csr.priv = 0b00#2) (hdbg : s.dbg.dbgMode = false) :
    { (s.step i).trig with trigHit0 := s.trig.trigHit0 } = s.trig := by
  have hwe : (s.xIn i).trigCsrWe P = false := by
    by_contra hwe
    rw [Bool.not_eq_false] at hwe
    unfold XIn.trigCsrWe XIn.isTrigCsr at hwe
    rw [Bool.and_eq_true] at hwe
    have haddr := user_addr hok hP hu hdbg hwe.1
    exact absurd hwe.2 (by rw [Trig.isAddr_user haddr]; simp)
  have htrig : (s.step i).trig =
      if (s.xIn i).trigFire then s.trig.setHits (s.xIn i).trigMatch.fireMask else s.trig := by
    show (s.xIn i).trigNext P = _
    unfold XIn.trigNext
    rw [hwe]
    rfl
  rw [htrig]
  split <;> rfl

/-- **One clock in User mode.** -/
theorem machineFrame (hok : writeReleased P (s.xIn i) = false) (hP : P.secure = true)
    (hu : s.csr.priv = 0b00#2) (hdbg : s.dbg.dbgMode = false) : MachineFrame s i := by
  have hcsr := csr_step_user hok hP hu hdbg
  have hmedeleg := medeleg_step_user hok hP hu hdbg
  have htrig := trig_step_user hok hP hu hdbg
  have hum : P.csr.uMode = true := hP
  generalize (s.step i).csr.ctr = ctr at hcsr
  cases hset : (s.xIn i).mTrapSet P with
  | false =>
    rw [hset, if_neg Bool.false_ne_true] at hcsr
    refine ⟨?_, ?_, ?_, ?_, hmedeleg, ?_, htrig, fun _ => ?_,
      fun h => absurd (hset.symm.trans h) (by simp)⟩ <;> rw [hcsr]
    · exact ⟨rfl, rfl, rfl⟩
    · exact ⟨rfl, rfl, rfl, rfl, hu⟩
  | true =>
    rw [hset, if_pos rfl] at hcsr
    refine ⟨?_, ?_, ?_, ?_, hmedeleg, ?_, htrig,
      fun h => absurd (hset.symm.trans h) (by simp), fun _ => ?_⟩ <;> rw [hcsr]
    · rfl
    · rfl
    · rfl
    · rfl
    · exact ⟨rfl, rfl, rfl⟩
    · refine ⟨?_, ?_, rfl, ?_⟩
      · show Mstatus.setMpp _ (if P.csr.uMode then s.csr.priv else 0b11#2) = _
        rw [hum, if_pos rfl, hu]
      · show (if P.csr.uMode then 0b11#2 else s.csr.priv) = _
        rw [hum, if_pos rfl]
      · obtain ⟨-, -, ⟨htrap, -⟩ | ⟨-, hirq⟩⟩ := XIn.mTrapSet_cases hset
        · obtain ⟨hepc, hcause⟩ := XIn.trapEntry_of_exTrap htrap s.w.retireValid
          exact Or.inl ⟨htrap, hepc, hcause⟩
        · obtain ⟨hepc, hcause⟩ := XIn.trapEntry_of_takeIrq hirq s.w.retireValid
          exact Or.inr ⟨hirq, hepc, hcause⟩

end Step

/-- **User mode cannot change machine state.** In every reachable state in User
mode, a clock keeps the frame, unless a debug-action trigger cancels the
exception of a CSR write above the User level. -/
theorem user_cannot_write (hP : P.secure = true) (s₀ : Core P) (i₀ : CoreIn) (ins : Nat → CoreIn)
    (n : Nat) (hu : (Core.runFrom s₀ i₀ ins n).csr.priv = 0b00#2)
    (hdbg : (Core.runFrom s₀ i₀ ins n).dbg.dbgMode = false)
    (hok : writeReleased P ((Core.runFrom s₀ i₀ ins n).xIn (ins n)) = false) :
    MachineFrame (Core.runFrom s₀ i₀ ins n) (ins n) :=
  machineFrame hok hP hu hdbg

/-- User mode at address 0 tries to write `mscratch`. -/
def userWrite : Memory where
  imem := .ofWords
    [0x3402D073#32,   -- csrrwi x0, mscratch, 5
     0x3B0FD073#32,   -- csrrwi x0, pmpaddr0, 31
     0x3A07D073#32,   -- csrrwi x0, pmpcfg0, 15
     0x30200073#32]   -- mret
  dmem := fun _ => 0#8

/-- The write traps at clock 5. -/
theorem user_cannot_write_mscratch :
    MachineFrame (userWrite.bench { secure := true, resetPc := 4#32 } {} 5)
      (userWrite.inputs { secure := true, resetPc := 4#32 } {} 5) := by
  have h := user_cannot_write rfl (Core.powerUp { secure := true, resetPc := 4#32 })
    (userWrite.resetIn { secure := true, resetPc := 4#32 } {})
    (userWrite.inputs { secure := true, resetPc := 4#32 } {}) 5
  rw [Memory.runFrom_inputs] at h
  exact h (by decide +kernel) (by decide +kernel) (by decide +kernel)

/-- The same with a debug-action trigger left armed on address 0. -/
def userWriteReleased : Memory where
  imem := .ofWords
    [0x3402D073#32,   -- csrrwi x0, mscratch, 5
     0x000010B7#32,   -- lui x1, 1
     0x04408093#32,   -- addi x1, x1, 0x44
     0x7A109073#32,   -- csrrw x0, tdata1, x1
     0x3B0FD073#32,   -- csrrwi x0, pmpaddr0, 31
     0x3A07D073#32,   -- csrrwi x0, pmpcfg0, 15
     0x30200073#32]   -- mret
  dmem := fun _ => 0#8

/-- At clock 8 User mode writes `mscratch`. -/
theorem trigger_releases_write :
    ¬ ∀ (s₀ : Core { secure := true, resetPc := 4#32 }) (i₀ : CoreIn) (ins : Nat → CoreIn) (n : Nat),
      (Core.runFrom s₀ i₀ ins n).csr.priv = 0b00#2 →
      (Core.runFrom s₀ i₀ ins n).dbg.dbgMode = false →
      MachineFrame (Core.runFrom s₀ i₀ ins n) (ins n) := by
  intro h
  have h' := h (Core.powerUp _) (userWriteReleased.resetIn { secure := true, resetPc := 4#32 } {})
    (userWriteReleased.inputs { secure := true, resetPc := 4#32 } {}) 8
  rw [Memory.runFrom_inputs] at h'
  have h'' := (h' (by decide +kernel) (by decide +kernel)).mscratch
  revert h''
  decide +kernel

end UserFrame

end ThreeSippEs
