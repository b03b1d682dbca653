import ThreeSippEs.Core.Clock
import ThreeSippEs.Core.System

/-!
# Privilege and control flow

The CSR file raises the privilege and the redirect chain moves the PC, each by
its own conditions. `Owner` tracks, from the redirects alone, the privilege of
the program that PC and the F/X register belong to; the two agree as long as no
interrupt is taken on a FENCE.I in User mode.

- `Entered`: a trap entry from User mode, PC at the handler and the trap recorded;
- `priv_step`: the privilege changes together with the owner of PC;
- `privilege_follows_program`: over a run, X never executes with another
  privilege than the one of the program it fetched for.
-/

namespace ThreeSippEs.Privilege

open Clocked

variable {P : Params}

/-- The privilege of the program that PC and the F/X register belong to. -/
structure Owner where
  pc : BitVec 2 := 0b11#2
  fx : BitVec 2 := 0b11#2
  deriving DecidableEq

/-- PC passes to M-mode when a trap sends it to the handler, and to the mode in
MPP when MRET sends it to `mepc`; an accepted fetch passes the owner on to X. -/
def Owner.step (s : Core P) (i : CoreIn) (o : Owner) : Owner where
  pc :=
    if (s.xIn i).mTrapSet P ∧ s.redirect i = some s.csr.mtvec then 0b11#2
    else if (s.xIn i).csrMret P ∧ s.redirect i = some s.csr.mepc then Mstatus.mpp s.csr.mstatus
    else o.pc
  fx := if s.exFreeze then o.fx else o.pc

/-- The owner after `n` clocks. M-mode owns the core out of reset. -/
def ownerAt (s₀ : Core P) (i₀ : CoreIn) (ins : Nat → CoreIn) (n : Nat) : Owner :=
  (run (withGhost Core.step Owner.step) (s₀.reset i₀, {}) ins n).2

/-- The clock `i` in state `s` enters the M-mode handler from User mode: PC is
at `mtvec`, nothing fetched before is left in F or X, and the CSR file holds
where, why and from which privilege the trap was taken. -/
structure Entered (s : Core P) (i : CoreIn) : Prop where
  pc : (s.step i).f.pc = s.csr.mtvec
  flushed : (s.step i).f.fxValid = false ∧ (s.step i).f.straddle = false
  mpp : Mstatus.mpp (s.step i).csr.mstatus = 0b00#2
  record :
    ((s.xIn i).exTrap P = true ∧ (s.step i).csr.mepc = s.f.fxPc ∧
      (s.step i).csr.mcause = 0#28 ++ (s.xIn i).exCause P) ∨
    ((s.xIn i).exTrap P = false ∧ s.csr.irqReq i.irq = true ∧
      (s.step i).csr.mepc = s.f.fxPc + s.f.fxLen.setWidth 32 ∧
      (s.step i).csr.mcause = 1#1 ++ 0#27 ++ s.csr.irqCause i.irq)

section Step

variable {s : Core P} {i : CoreIn}

/-- A trap taken by the CSR file sends PC to the handler, unless it is an
interrupt on a FENCE.I. -/
theorem redirect_of_mTrapSet (h : (s.xIn i).mTrapSet P = true)
    (hf : (s.xIn i).fenceiInterrupted P = false) : s.redirect i = some s.csr.mtvec := by
  obtain ⟨-, hfz, ⟨htrap, hdeleg⟩ | ⟨-, hirq⟩⟩ := XIn.mTrapSet_cases h
  · show (s.xIn i).redirect P = _
    rw [XIn.redirect_of_exTrap htrap hfz, hdeleg]
    rfl
  · refine XIn.redirect_of_takeIrq hirq ?_
    by_contra hfencei
    rw [Bool.not_eq_false] at hfencei
    exact absurd (XIn.takeIrq_fencei hirq hfencei) (by simp [hf])

/-- MRET sends PC to `mepc` whenever the CSR file performs it and takes no trap. -/
theorem redirect_of_csrMret (h : (s.xIn i).csrMret P = true)
    (hno : (s.xIn i).mTrapSet P = false) (hP : P.secure = true) :
    s.redirect i = some s.csr.mepc := by
  unfold XIn.csrMret at h
  simp only [Bool.and_eq_true, Bool.not_eq_true'] at h
  obtain ⟨⟨⟨hv, hmret⟩, hpriv⟩, hfz⟩ := h
  -- MRET is M-mode only, so no trap on it is delegated
  have hm : s.csr.priv = 0b11#2 := by
    unfold XIn.mretPrivFault XIn.privLow at hpriv
    rw [hmret, hP] at hpriv
    exact (by simpa using hpriv : (s.xIn i).csr.priv = 0b11#2)
  have hdeleg : (s.xIn i).delegTrap P = false := by
    unfold XIn.delegTrap
    simp [Core.xIn, hm]
  have htrap : (s.xIn i).exTrap P = false := by
    by_contra ht
    rw [Bool.not_eq_false] at ht
    unfold XIn.mTrapSet at hno
    simp [ht, hfz, hdeleg] at hno
  exact XIn.redirect_of_mret hv hfz htrap hmret

/-- The privilege after one clock. -/
theorem priv_step (hP : P.secure = true) : (s.step i).csr.priv =
    if (s.xIn i).mTrapSet P then 0b11#2
    else if (s.xIn i).csrMret P then Mstatus.mpp s.csr.mstatus else s.csr.priv := by
  show ((s.xIn i).csrNext P s.w.retireValid).priv = _
  unfold XIn.csrNext
  rw [Csr.step_priv]
  have hu : P.csr.uMode = true := hP
  rw [hu]
  rfl

/-- **The owner of PC and the privilege change together.** -/
theorem owner_step {o : Owner} (hP : P.secure = true)
    (hok : s.csr.priv = 0b00#2 → (s.xIn i).fenceiInterrupted P = false)
    (hpriv : s.csr.priv = 0b00#2 ∨ s.csr.priv = 0b11#2) (ho : o.pc = s.csr.priv) :
    (o.step s i).pc = (s.step i).csr.priv := by
  rw [priv_step hP]
  unfold Owner.step
  cases htrap : (s.xIn i).mTrapSet P with
  | true =>
    cases hf : (s.xIn i).fenceiInterrupted P with
    | false => simp [redirect_of_mTrapSet htrap hf]
    | true =>
      -- from M-mode: PC stays with M-mode although it is not at the handler
      have hm : s.csr.priv = 0b11#2 := by
        rcases hpriv with hu | hm
        · exact absurd hf (by simp [hok hu])
        · exact hm
      have hret : (s.xIn i).csrMret P = false := by
        unfold XIn.fenceiInterrupted at hf
        simp only [Bool.and_eq_true] at hf
        unfold XIn.csrMret
        rw [XIn.dec_of_isFencei hf.1.1.1.1.2]
        simp [Decode.fence]
      simp [ho, hm, hret]
  | false =>
    cases hmret : (s.xIn i).csrMret P with
    | true => simp [redirect_of_csrMret hmret htrap hP]
    | false => simp [ho]

/-- The privilege only changes in a clock that redirects. -/
theorem priv_step_of_no_redirect (hP : P.secure = true)
    (hok : s.csr.priv = 0b00#2 → (s.xIn i).fenceiInterrupted P = false)
    (hlegal : s.csr.Legal) (hr : s.redirect i = none) : (s.step i).csr.priv = s.csr.priv := by
  have ho := owner_step (o := { pc := s.csr.priv }) hP hok hlegal.priv rfl
  rw [← ho]
  simp [Owner.step, hr]

/-- What is in X after one clock belongs to the current privilege. -/
theorem owner_fx_step {o : Owner} (hP : P.secure = true)
    (hok : s.csr.priv = 0b00#2 → (s.xIn i).fenceiInterrupted P = false)
    (hlegal : s.csr.Legal) (ho : o.pc = s.csr.priv)
    (hfx : s.f.fxValid = true → o.fx = s.csr.priv) (hv : (s.step i).f.fxValid = true) :
    (o.step s i).fx = (s.step i).csr.priv := by
  have hc := s.f.step_clock s.bp.ghist (s.fetchIn i)
  have hv' : (s.f.step s.bp.ghist (s.fetchIn i)).fxValid = true := hv
  generalize s.f.step s.bp.ghist (s.fetchIn i) = f' at hc hv'
  cases hc with
  | redirected | resumed | frozen | straddled => exact absurd hv' Bool.false_ne_true
  | stalled hr hres hfz hst =>
    have hr' : s.redirect i = none := hr
    have hst' : s.exFreeze = true := hst
    rw [priv_step_of_no_redirect hP hok hlegal hr']
    simp [Owner.step, hst', hfx hv']
  | accepted hr hres hfz hst =>
    have hr' : s.redirect i = none := hr
    have hst' : s.exFreeze = false := hst
    rw [priv_step_of_no_redirect hP hok hlegal hr']
    simp [Owner.step, hst', ho]

/-- **One clock from U to M enters the handler.** -/
theorem entered_of_priv (hP : P.secure = true)
    (hok : (s.xIn i).fenceiInterrupted P = false) (hu : s.csr.priv = 0b00#2)
    (hm : (s.step i).csr.priv = 0b11#2) : Entered s i := by
  have hum : P.csr.uMode = true := hP
  have htrap : (s.xIn i).mTrapSet P = true := by
    by_contra hno
    rw [Bool.not_eq_true] at hno
    -- MRET is not available in User mode
    have hret : (s.xIn i).csrMret P = false := by
      unfold XIn.csrMret XIn.mretPrivFault XIn.privLow
      cases hd : (s.xIn i).dec.isMret <;> simp [hP, Core.xIn, hu]
    rw [priv_step hP, hno, hret, hu] at hm
    simp at hm
  have hcsr : (s.step i).csr = { s.csr.trapEntry P.csr ((s.xIn i).csrIn P s.w.retireValid) with
      ctr := s.csr.tick ((s.xIn i).csrIn P s.w.retireValid) } :=
    Csr.step_trapSet htrap
  have hredirect := redirect_of_mTrapSet htrap hok
  have hf : (s.step i).f =
      { s.f with pc := s.csr.mtvec, fxValid := false, straddle := false } := by
    show s.f.step s.bp.ghist (s.fetchIn i) = _
    unfold FStage.step
    rw [show (s.fetchIn i).redirect = some s.csr.mtvec from hredirect]
  refine ⟨by rw [hf], by rw [hf]; exact ⟨rfl, rfl⟩, ?_, ?_⟩
  · rw [hcsr]
    show Mstatus.mpp (Mstatus.setMpp _ (if P.csr.uMode then s.csr.priv else 0b11#2)) = _
    rw [Mstatus.mpp_setMpp, hum, if_pos rfl, hu]
  · rw [hcsr]
    obtain ⟨-, hfz, ⟨ht, -⟩ | ⟨ht, hirq⟩⟩ := XIn.mTrapSet_cases htrap
    · -- an exception is never recorded as an interrupt
      obtain ⟨hepc, hcause⟩ := XIn.trapEntry_of_exTrap ht s.w.retireValid
      exact Or.inl ⟨ht, hepc, hcause⟩
    · obtain ⟨hepc, hcause⟩ := XIn.trapEntry_of_takeIrq hirq s.w.retireValid
      exact Or.inr ⟨ht, (XIn.takeIrq_iff.mp hirq).irqReq, hepc, hcause⟩

end Step

/-! ## Runs -/

/-- The state and the owner of a run, side by side. -/
theorem run_owner (s₀ : Core P) (i₀ : CoreIn) (ins : Nat → CoreIn) (n : Nat) :
    ownerAt s₀ i₀ ins (n + 1) =
      (ownerAt s₀ i₀ ins n).step (Core.runFrom s₀ i₀ ins n) (ins n) := by
  have h := run_ghost Core.step Owner.step (s₀.reset i₀) {} ins n
  show (withGhost Core.step Owner.step (run _ (s₀.reset i₀, {}) ins n) (ins n)).2 = _
  rw [withGhost, h]
  rfl

/-- **No privilege escalation.** In every run in which no interrupt is taken on
a FENCE.I in User mode, the instruction in X and PC belong to a program of the
current privilege, and a clock that raises the privilege enters the handler. -/
theorem privilege_follows_program (hP : P.secure = true) (s₀ : Core P) (i₀ : CoreIn)
    (ins : Nat → CoreIn) (n : Nat)
    (hok : ∀ k ≤ n, (Core.runFrom s₀ i₀ ins k).csr.priv = 0b00#2 →
      ((Core.runFrom s₀ i₀ ins k).xIn (ins k)).fenceiInterrupted P = false) :
    (ownerAt s₀ i₀ ins n).pc = (Core.runFrom s₀ i₀ ins n).csr.priv ∧
    ((Core.runFrom s₀ i₀ ins n).f.fxValid = true →
      (ownerAt s₀ i₀ ins n).fx = (Core.runFrom s₀ i₀ ins n).csr.priv) ∧
    ((Core.runFrom s₀ i₀ ins n).csr.priv = 0b00#2 →
      (Core.runFrom s₀ i₀ ins (n + 1)).csr.priv = 0b11#2 →
      Entered (Core.runFrom s₀ i₀ ins n) (ins n)) := by
  have howner : ∀ m ≤ n, (ownerAt s₀ i₀ ins m).pc = (Core.runFrom s₀ i₀ ins m).csr.priv ∧
      ((Core.runFrom s₀ i₀ ins m).f.fxValid = true →
        (ownerAt s₀ i₀ ins m).fx = (Core.runFrom s₀ i₀ ins m).csr.priv) := by
    intro m
    induction m with
    | zero => exact fun _ => ⟨rfl, fun h => absurd h Bool.false_ne_true⟩
    | succ m ih =>
      intro hm
      obtain ⟨hpc, hfx⟩ := ih (by omega)
      have hlegal := Core.csr_legal s₀ i₀ ins m
      have hokm := hok m (by omega)
      rw [run_owner]
      exact ⟨owner_step hP hokm hlegal.priv hpc, owner_fx_step hP hokm hlegal hpc hfx⟩
  obtain ⟨hpc, hfx⟩ := howner n (Nat.le_refl n)
  exact ⟨hpc, hfx, fun hu hm => entered_of_priv hP (hok n (Nat.le_refl n) hu) hu hm⟩

/-- MRET, and then nothing that User mode may execute. -/
def mretLoop : Memory := { imem := .ofWords [0x30200073#32], dmem := fun _ => 0#8 }

/-- MRET to User mode at address 0, where every fetch is denied: the fetch fault
enters the handler. -/
theorem privilege_follows_program_mret :
    Entered (mretLoop.bench { secure := true } {} 3) (mretLoop.inputs { secure := true } {} 3) := by
  have h := (privilege_follows_program rfl (Core.powerUp _) (mretLoop.resetIn { secure := true } {})
    (mretLoop.inputs { secure := true } {}) 3 (fun k hk => by
      rw [Memory.runFrom_inputs]
      revert k
      decide +kernel)).2.2
  rw [Memory.runFrom_inputs, Memory.runFrom_inputs] at h
  exact h (by decide +kernel) (by decide +kernel)

/-- A program that opens the PMP for User mode, enables the software interrupt
and leaves for a FENCE.I at address 0. -/
def fenceiInUserMode : Memory where
  imem := .ofWords
    [0x0000100F#32,   -- fence.i
     0xFFF00093#32,   -- addi x1, x0, -1
     0x3B009073#32,   -- csrrw x0, pmpaddr0, x1
     0x3A0FD073#32,   -- csrrwi x0, pmpcfg0, 31
     0x30445073#32,   -- csrrwi x0, mie, 8
     0x08000113#32,   -- addi x2, x0, 128
     0x30011073#32,   -- csrrw x0, mstatus, x2
     0x30200073#32]   -- mret
  dmem := fun _ => 0#8

/-- An interrupt on a FENCE.I in User mode raises the privilege and goes on with
the User program: with the software interrupt pending, clock 11 is in User mode
with `mtvec = 0` and clock 12 is in M-mode with PC behind the FENCE.I. -/
theorem fencei_interrupt_escapes :
    ¬ ∀ (s₀ : Core { secure := true }) (i₀ : CoreIn) (ins : Nat → CoreIn) (n : Nat),
      (Core.runFrom s₀ i₀ ins n).csr.priv = 0b00#2 →
      (Core.runFrom s₀ i₀ ins (n + 1)).csr.priv = 0b11#2 →
      (Core.runFrom s₀ i₀ ins (n + 1)).f.pc = (Core.runFrom s₀ i₀ ins n).csr.mtvec := by
  intro h
  have h' := h (Core.powerUp _) (fenceiInUserMode.resetIn { secure := true } { irq := { soft := true } })
    (fenceiInUserMode.inputs { secure := true } { irq := { soft := true } }) 11
  rw [Memory.runFrom_inputs, Memory.runFrom_inputs] at h'
  revert h'
  decide +kernel

end ThreeSippEs.Privilege
