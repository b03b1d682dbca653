import ThreeSippEs.Traps.Breakpoint

/-!
# The cause and the value of an exception

`ex_cause` and `ex_tval` are two priority chains over the same conditions, in
different orders. Where the orders disagree the record mixes two exceptions: the
cause of one with the value of another.

- `Prescribes`: the pairs of a cause and the value that belongs to it;
- `record`: what the clock of an exception leaves in the CSR files;
- `record_iff`: when the record is such a pair.
-/

namespace ThreeSippEs

variable {P : Params}

namespace Cause

/-- The exceptions of the instruction in X: a cause whose condition holds, with
the value it prescribes. For an illegal instruction that is `fx_instr`, which F has
expanded. -/
inductive Prescribes (P : Params) (x : XIn) : BitVec 4 → Word → Prop
  | fetch : x.accFetchFault P = true → Prescribes P x 1#4 x.fxPc
  | illegal : x.illegalAll P = true → Prescribes P x 2#4 x.fxInstr
  | ebreak : x.dec.isEbreak = true → x.dcsrEbreakm = false → Prescribes P x 3#4 x.fxPc
  | trigger (g : BitVec 1) : Breakpoint.Decides x g → Breakpoint.asksDebug x g = false →
      Prescribes P x 3#4 (x.trig.tdata2 g)
  | load : x.accLoadFault P = true → Prescribes P x 5#4 x.lsAddr
  | store : x.accStoreFault P = true → Prescribes P x 7#4 x.lsAddr
  | ecallU : x.dec.isEcall = true → x.csr.priv = 0b00#2 → Prescribes P x 8#4 0#32
  | ecallM : x.dec.isEcall = true → x.csr.priv = 0b11#2 → Prescribes P x 11#4 0#32

/-- The cause and value registers after the clock, of the file that takes the
exception. -/
def record (s : Core P) (i : CoreIn) : Word × Word :=
  if (s.xIn i).delegTrap P then ((s.step i).ucsr.ucause, (s.step i).ucsr.utval)
  else ((s.step i).csr.mcause, (s.step i).csr.mtval)

/-- No two conditions meet on which the chains disagree: an undefined load or
store whose access faults, or an ECALL with a breakpoint trigger. A fetch fault
comes first in both. -/
structure Agree (P : Params) (x : XIn) : Prop where
  access : x.illegalAll P = true → (x.accLoadFault P || x.accStoreFault P) = true →
    x.accFetchFault P = true ∨ x.lsAddr = x.fxInstr
  ecall : x.dec.isEcall = true → x.trigToExc = true → x.accFetchFault P = true ∨ x.fxPc = 0#32

/-! ## The conditions that exclude each other -/

/-- ECALL and EBREAK are told apart by their `funct12`. -/
theorem system_ecall (instr : Word) : (decode instr).isEcall = true →
    (decode instr).isEbreak = false := by
  have hno : ∀ {q : Prop}, false = true → q := fun h => absurd h Bool.false_ne_true
  refine Decode.arms (p := fun d => d.isEcall = true → d.isEbreak = false) instr hno hno hno
    hno hno hno hno hno ?_ ?_ hno hno
  · unfold Decode.op
    split <;> exact hno
  · unfold Decode.system
    split
    · intro h
      rw [beq_iff_eq] at h
      show (_ == 0x001#12) = false
      rw [h]
      decide
    · exact hno

section

variable {x : XIn}

/-- A data access fault comes from an instruction with an access. -/
theorem access_of_fault (h : (x.accLoadFault P || x.accStoreFault P) = true) :
    x.lsRe = true ∨ x.lsWe = true := by
  unfold XIn.accLoadFault XIn.accStoreFault at h
  simp only [Bool.or_eq_true, Bool.and_eq_true] at h
  exact h.imp (fun h => h.1.1.2) (fun h => h.1.2)

/-- ECALL and EBREAK make no access and are legal. -/
structure Quiet (P : Params) (x : XIn) : Prop where
  re : x.dec.memRe = false
  we : x.dec.memWe = false
  fault : (x.accLoadFault P || x.accStoreFault P) = false
  legal : x.illegalAll P = false

theorem quiet_of_system (h : (x.dec.isEcall || x.dec.isEbreak) = true) : Quiet P x := by
  obtain ⟨-, -, hre, hwe, hcsr, -, -, -, -, hill⟩ := (decode_classes x.fxInstr).sys (by
    rw [show ((decode x.fxInstr).isEcall || (decode x.fxInstr).isEbreak) = true from h]
    rfl)
  have hre' : x.dec.memRe = false := hre
  have hwe' : x.dec.memWe = false := hwe
  have hcsr' : x.dec.isCsr = false := hcsr
  have hill' : x.dec.illegal = false := hill
  have hamo : x.amoValid = false := by
    by_contra hamo
    rw [Bool.not_eq_false] at hamo
    rw [XIn.dec_of_isAmo (XIn.isAmo_of_amoValid hamo)] at hill'
    exact absurd hill' (by simp [Decode.illegalOpcode])
  have hmret : x.dec.isMret = false := by
    revert h
    have hno : ∀ {q : Prop}, false = true → q := fun h => absurd h Bool.false_ne_true
    unfold XIn.dec
    refine Decode.arms (p := fun d => (d.isEcall || d.isEbreak) = true → d.isMret = false)
      x.fxInstr hno hno hno hno hno hno hno hno ?_ ?_ hno hno
    · unfold Decode.op
      split <;> exact hno
    · unfold Decode.system
      split
      · intro h
        simp only [Bool.or_eq_true, beq_iff_eq] at h
        show (_ == 0x302#12) = false
        rcases h with h | h <;> rw [h] <;> decide
      · exact hno
  refine ⟨hre', hwe', ?_, ?_⟩
  · by_contra hf
    rw [Bool.not_eq_false] at hf
    have hacc := access_of_fault hf
    unfold XIn.lsRe XIn.lsWe at hacc
    rw [hre', hwe', hamo] at hacc
    simp at hacc
  · unfold XIn.illegalAll XIn.illegalEff XIn.privFault XIn.csrPrivFault XIn.mretPrivFault
      XIn.csrRoFault
    rw [hill', hcsr', hmret]
    simp

/-- The value of the causes that the chains can mix up. -/
theorem value_of_prescribes {cause : BitVec 4} {v : Word} (h : Prescribes P x cause v) :
    (cause = 2#4 → v = x.fxInstr) ∧ (cause = 8#4 ∨ cause = 11#4 → v = 0#32) := by
  cases h with
  | illegal h => exact ⟨fun _ => rfl, fun hc => absurd hc (by decide)⟩
  | ecallU h hp | ecallM h hp => exact ⟨fun hc => absurd hc (by decide), fun _ => rfl⟩
  | fetch | ebreak | trigger | load | store =>
    exact ⟨fun hc => absurd hc (by decide), fun hc => absurd hc (by decide)⟩

/-! ## The two chains -/

/-- An exception about to be taken. -/
structure Taken (P : Params) (x : XIn) : Prop where
  trap : x.exTrap P = true
  unfrozen : x.exFreeze = false
  running : x.dbgMode = false
  priv : x.csr.priv = 0b00#2 ∨ x.csr.priv = 0b11#2

theorem Taken.chk (h : Taken P x) : x.trigChkValid = true := by
  unfold XIn.trigChkValid
  rw [XIn.exTrap_valid h.trap, h.unfrozen, h.running]
  rfl

/-- With a fetch fault both chains stop at once. -/
theorem chains_fetch (h : x.accFetchFault P = true) :
    x.exCause P = 1#4 ∧ x.exTval P = x.fxPc := by
  unfold XIn.exCause XIn.exTval
  rw [if_pos h, if_pos h]
  exact ⟨rfl, rfl⟩

/-- The value chain looks for data faults before it looks for an illegal instruction. -/
theorem chains_illegal (hf : x.accFetchFault P = false) (h : x.illegalAll P = true) :
    x.exCause P = 2#4 ∧ x.exTval P =
      if x.accLoadFault P || x.accStoreFault P then x.lsAddr else x.fxInstr := by
  have hbrk : x.dec.isEbreak = false := by
    by_contra hbrk
    rw [Bool.not_eq_false] at hbrk
    have hq : Quiet P x := quiet_of_system (by rw [hbrk, Bool.or_true])
    exact absurd (h.symm.trans hq.legal) (by decide)
  unfold XIn.exCause XIn.exTval
  rw [hf, h, hbrk]
  exact ⟨rfl, rfl⟩

/-- It ends with the triggers, where an ECALL is at its default. -/
theorem chains_ecall (hf : x.accFetchFault P = false) (h : x.dec.isEcall = true) :
    x.exCause P = (if x.csr.priv = 0b00#2 then 8#4 else 11#4) ∧
    x.exTval P = if x.trigToExc then x.trigMatch.tval else 0#32 := by
  have hq : Quiet P x := quiet_of_system (by rw [h, Bool.true_or])
  have hbrk : x.dec.isEbreak = false := system_ecall _ h
  unfold XIn.exCause XIn.exTval
  rw [hf, hq.legal, hq.fault, h, hbrk]
  exact ⟨rfl, rfl⟩

/-- On everything else they agree. -/
theorem prescribes_rest (ht : Taken P x) (hf : x.accFetchFault P = false)
    (hill : x.illegalAll P = false) (hecall : x.dec.isEcall = false) :
    Prescribes P x (x.exCause P) (x.exTval P) := by
  have htrig : x.trigToExc = true → Prescribes P x 3#4 x.trigMatch.tval := by
    intro hexc
    obtain ⟨g, hg, hask⟩ := (Breakpoint.trigToExc_iff ht.chk).mp hexc
    rw [Breakpoint.tval_of_decides ht.chk hg]
    exact .trigger g hg hask
  unfold XIn.exCause XIn.exTval
  rw [hf, hill, hecall]
  simp only [Bool.false_eq_true, if_false]
  cases hbrk : x.dec.isEbreak with
  | true =>
    have hq : Quiet P x := quiet_of_system (by rw [hbrk, Bool.or_true])
    rw [hq.fault]
    simp only [Bool.false_eq_true, if_false, if_true]
    cases hm : x.dcsrEbreakm with
    | false => exact .ebreak hbrk hm
    | true =>
      -- the EBREAK itself goes to Debug Mode, so it is a trigger that traps
      have hexc : x.trigToExc = true := by
        have htrap := ht.trap
        have hacc := hq.fault
        rw [Bool.or_eq_false_iff] at hacc
        unfold XIn.exTrap XIn.archTrap XIn.accFault at htrap
        rw [hill, hecall, hm, hf, hacc.1, hacc.2] at htrap
        simp only [Bool.not_true, Bool.and_false, Bool.or_false, Bool.false_or,
          Bool.and_eq_true] at htrap
        exact htrap.1
      obtain ⟨g, hg, hask⟩ := (Breakpoint.trigToExc_iff ht.chk).mp hexc
      rw [← Breakpoint.tdata2_of_ebreak hbrk hg.1]
      exact .trigger g hg hask
  | false =>
    cases hload : x.accLoadFault P with
    | true => exact .load hload
    | false =>
      cases hstore : x.accStoreFault P with
      | true => exact .store hstore
      | false =>
        cases hexc : x.trigToExc with
        | true => exact htrig hexc
        | false =>
          have htrap := ht.trap
          unfold XIn.exTrap XIn.archTrap XIn.accFault at htrap
          rw [hill, hecall, hbrk, hf, hload, hstore, hexc] at htrap
          simp at htrap

/-- The chains give a cause with its value exactly when no two conditions meet on
which they disagree. -/
theorem prescribes_iff (ht : Taken P x) :
    Prescribes P x (x.exCause P) (x.exTval P) ↔ Agree P x := by
  cases hf : x.accFetchFault P with
  | true =>
    obtain ⟨hcause, hval⟩ := chains_fetch hf
    rw [hcause, hval]
    exact ⟨fun _ => ⟨fun _ _ => Or.inl hf, fun _ _ => Or.inl hf⟩, fun _ => .fetch hf⟩
  | false =>
    have hnf : ¬ x.accFetchFault P = true := by rw [hf]; exact Bool.false_ne_true
    cases hill : x.illegalAll P with
    | true =>
      have hecall : x.dec.isEcall = false := by
        by_contra hecall
        rw [Bool.not_eq_false] at hecall
        have hq : Quiet P x := quiet_of_system (by rw [hecall, Bool.true_or])
        exact absurd (hill.symm.trans hq.legal) (by decide)
      obtain ⟨hcause, hval⟩ := chains_illegal hf hill
      rw [hcause, hval]
      constructor
      · intro h
        have hv := (value_of_prescribes h).1 rfl
        refine ⟨fun _ hacc => Or.inr ?_, fun h => absurd (hecall.symm.trans h) (by decide)⟩
        rw [if_pos hacc] at hv
        exact hv
      · intro h
        split
        · next hacc =>
          rw [(h.access hill hacc).resolve_left hnf]
          exact .illegal hill
        · exact .illegal hill
    | false =>
      cases hecall : x.dec.isEcall with
      | true =>
        obtain ⟨hcause, hval⟩ := chains_ecall hf hecall
        have hq : Quiet P x := quiet_of_system (by rw [hecall, Bool.true_or])
        -- the trigger that meets the ECALL matched its PC
        have hpc : x.trigToExc = true → x.trigMatch.tval = x.fxPc := by
          intro hexc
          obtain ⟨g, hg, -⟩ := (Breakpoint.trigToExc_iff ht.chk).mp hexc
          rw [Breakpoint.tval_of_decides ht.chk hg]
          exact Breakpoint.tdata2_of_no_access hq.re hq.we hg.1
        have hzero : Prescribes P x (x.exCause P) 0#32 := by
          rw [hcause]
          rcases ht.priv with hp | hp
          · rw [if_pos hp]
            exact .ecallU hecall hp
          · rw [if_neg (by rw [hp]; decide)]
            exact .ecallM hecall hp
        constructor
        · intro h
          refine ⟨fun h => absurd (hill.symm.trans h) (by decide), fun _ hexc => Or.inr ?_⟩
          have hv := (value_of_prescribes h).2 (by rw [hcause]; split <;> simp)
          rw [hval, if_pos hexc, hpc hexc] at hv
          exact hv
        · intro h
          have hv : x.exTval P = 0#32 := by
            rw [hval]
            split
            · next hexc => exact (hpc hexc).trans ((h.ecall hecall hexc).resolve_left hnf)
            · rfl
          rw [hv]
          exact hzero
      | false =>
        exact ⟨fun _ => ⟨fun h => absurd (hill.symm.trans h) (by decide),
          fun h => absurd (hecall.symm.trans h) (by decide)⟩,
          fun _ => prescribes_rest ht hf hill hecall⟩

end

/-! ## What is recorded -/

/-- The file that takes the exception records what the chains say. -/
theorem record_eq {s : Core P} {i : CoreIn} (ht : Taken P (s.xIn i)) :
    record s i = (0#28 ++ (s.xIn i).exCause P, (s.xIn i).exTval P) := by
  unfold record
  cases hd : (s.xIn i).delegTrap P with
  | true =>
    have hucsr : (s.step i).ucsr =
        s.ucsr.trapEntry s.f.fxPc ((s.xIn i).exCause P) ((s.xIn i).exTval P) :=
      XIn.ucsrNext_of_deleg (x := s.xIn i) hd
    rw [if_pos rfl, hucsr, ← Delivery.zero_append_cause]
    rfl
  | false =>
    have hcsr : (s.step i).csr = { s.csr.trapEntry P.csr ((s.xIn i).csrIn P s.w.retireValid) with
        ctr := s.csr.tick ((s.xIn i).csrIn P s.w.retireValid) } :=
      XIn.csrNext_of_trap (x := s.xIn i) ht.trap ht.unfrozen hd s.w.retireValid
    have hcause := (XIn.trapEntry_of_exTrap ht.trap s.w.retireValid).2
    rw [if_neg Bool.false_ne_true, hcsr]
    exact Prod.ext hcause rfl

theorem append_inj : ∀ a b : BitVec 4, (0#28 ++ a : Word) = 0#28 ++ b → a = b := by
  decide

/-- The record is a cause whose condition holds with the value it prescribes. -/
def Matched (s : Core P) (i : CoreIn) : Prop :=
  ∃ cause value, Prescribes P (s.xIn i) cause value ∧ record s i = (0#28 ++ cause, value)

/-- **When cause and value belong together**, in every reachable state and for
every exception: exactly when no undefined load or store faults on its data
address, unless that address is the instruction word, and no ECALL meets a
breakpoint trigger, unless it is at address 0. The instruction word is the one that
X holds: of a halfword its expansion, and 0 for a reserved one. -/
theorem record_iff (s₀ : Core P) (i₀ : CoreIn) (ins : Nat → CoreIn) (n : Nat)
    (htrap : ((Core.runFrom s₀ i₀ ins n).xIn (ins n)).exTrap P = true)
    (hfz : (Core.runFrom s₀ i₀ ins n).exFreeze = false) :
    Matched (Core.runFrom s₀ i₀ ins n) (ins n) ↔
      Agree P ((Core.runFrom s₀ i₀ ins n).xIn (ins n)) := by
  have ht : Taken P ((Core.runFrom s₀ i₀ ins n).xIn (ins n)) :=
    ⟨htrap, hfz, Core.running_of_valid s₀ i₀ ins n (XIn.exTrap_valid htrap),
      (Core.csr_legal s₀ i₀ ins n).priv⟩
  rw [← prescribes_iff ht]
  unfold Matched
  rw [record_eq ht]
  constructor
  · rintro ⟨cause, value, hp, heq⟩
    obtain ⟨hcause, hval⟩ := Prod.mk.inj heq
    rw [append_inj _ _ hcause, hval]
    exact hp
  · intro hp
    exact ⟨_, _, hp, rfl⟩

/-- Slot 0 breaks at address 16, where `instr` is. -/
def watchedPc (instr : Word) : Memory where
  imem := .ofWords
    [0x04400093#32,   -- addi x1, x0, 0x44
     0x7A109073#32,   -- csrrw x0, tdata1, x1
     0x7A285073#32,   -- csrrwi x0, tdata2, 16
     0x01000113#32,   -- addi x2, x0, 16
     instr]
  dmem := fun _ => 0#8

/-- An EBREAK there at clock 5: cause 3 with its PC. -/
theorem record_iff_ebreak :
    Matched ((watchedPc 0x00100073#32).bench {} {} 5) ((watchedPc 0x00100073#32).inputs {} {} 5) ∧
    record ((watchedPc 0x00100073#32).bench {} {} 5)
      ((watchedPc 0x00100073#32).inputs {} {} 5) = (3#32, 16#32) := by
  have h := record_iff (Core.powerUp {}) ((watchedPc 0x00100073#32).resetIn {} {})
    ((watchedPc 0x00100073#32).inputs {} {}) 5
    (by rw [Memory.runFrom_inputs]; decide +kernel)
    (by rw [Memory.runFrom_inputs]; decide +kernel)
  rw [Memory.runFrom_inputs] at h
  exact ⟨h.mpr ⟨by decide +kernel, by decide +kernel⟩, by decide +kernel⟩

/-- An ECALL there leaves cause 11 with its PC. -/
theorem record_mixes_ecall :
    ¬ ∀ (s₀ : Core {}) (i₀ : CoreIn) (ins : Nat → CoreIn) (n : Nat),
      ((Core.runFrom s₀ i₀ ins n).xIn (ins n)).exTrap {} = true →
      (Core.runFrom s₀ i₀ ins n).exFreeze = false →
      Matched (Core.runFrom s₀ i₀ ins n) (ins n) := by
  intro h
  have h' := h (Core.powerUp {}) ((watchedPc 0x00000073#32).resetIn {} {})
    ((watchedPc 0x00000073#32).inputs {} {}) 5
  rw [Memory.runFrom_inputs] at h'
  obtain ⟨cause, value, hp, hrec⟩ := h' (by decide +kernel) (by decide +kernel)
  have hpair : record ((watchedPc 0x00000073#32).bench {} {} 5)
      ((watchedPc 0x00000073#32).inputs {} {} 5) = (11#32, 16#32) := by decide +kernel
  obtain ⟨hcause, hval⟩ := Prod.mk.inj (hpair.symm.trans hrec)
  have hv := (value_of_prescribes hp).2 (Or.inr (append_inj cause 11#4 hcause.symm))
  rw [hv] at hval
  exact absurd hval (by decide)

end Cause

end ThreeSippEs
