import ThreeSippEs.Traps.DebugTrigger

/-!
# Triggers that raise a breakpoint exception

A trigger with action 0 owes a breakpoint exception to the M-mode instruction it
matches. The match loop compares its two slots without the privilege, without the
accesses of atomics and with one bit of the action field, and the first slot that
compares equal decides alone.

- `Owes`: what a slot owes to the instruction in X;
- `raised_iff`: what the loop raises, by the slot that decides;
- `breakpoint_iff`: when the two agree.
-/

namespace ThreeSippEs

variable {P : Params}

namespace Breakpoint

/-- Slot `g` has type 6 and action 0, is enabled for the current privilege (the
m bit enables M-mode only), and matches: its PC, or an address the instruction
reads or writes. LR and AMO read, SC and AMO write. -/
structure Owes (x : XIn) (g : BitVec 1) : Prop where
  type : (x.trig.tdata1 g).extractLsb 31 28 = 6#4
  action : (x.trig.tdata1 g).extractLsb 15 12 = 0#4
  m : (x.trig.tdata1 g).getLsbD 6 = true
  priv : x.csr.priv = 0b11#2
  hit : (Trig.slotExec (x.trig.tdata1 g) = true ∧ x.fxPc = x.trig.tdata2 g) ∨
    (((Trig.slotLoad (x.trig.tdata1 g) = true ∧ x.lsRe = true) ∨
      (Trig.slotStore (x.trig.tdata1 g) = true ∧ x.lsWe = true)) ∧ x.lsAddr = x.trig.tdata2 g)

instance (x : XIn) (g : BitVec 1) : Decidable (Owes x g) :=
  decidable_of_iff
    ((x.trig.tdata1 g).extractLsb 31 28 = 6#4 ∧ (x.trig.tdata1 g).extractLsb 15 12 = 0#4 ∧
      (x.trig.tdata1 g).getLsbD 6 = true ∧ x.csr.priv = 0b11#2 ∧
      ((Trig.slotExec (x.trig.tdata1 g) = true ∧ x.fxPc = x.trig.tdata2 g) ∨
        (((Trig.slotLoad (x.trig.tdata1 g) = true ∧ x.lsRe = true) ∨
          (Trig.slotStore (x.trig.tdata1 g) = true ∧ x.lsWe = true)) ∧
          x.lsAddr = x.trig.tdata2 g)))
    ⟨fun ⟨h1, h2, h3, h4, h5⟩ => ⟨h1, h2, h3, h4, h5⟩,
      fun ⟨h1, h2, h3, h4, h5⟩ => ⟨h1, h2, h3, h4, h5⟩⟩

/-- A breakpoint exception with `mtval` equal to `v`. -/
def Raised (P : Params) (x : XIn) (v : Word) : Prop :=
  x.exTrap P = true ∧ x.exCause P = causeBreakpoint ∧ x.exTval P = v

/-- A breakpoint is raised exactly when some slot owes it, and `mtval` is the PC
or the address that slot matched. -/
def Exact (P : Params) (x : XIn) : Prop :=
  (∀ v, Raised P x v → ∃ g, Owes x g ∧ v = x.trig.tdata2 g) ∧
  ((∃ g, Owes x g) → ∃ v, Raised P x v)

/-! ## The slot that decides -/

/-- The registers of slot `g` compare equal in the match loop. -/
def compares (x : XIn) (g : BitVec 1) : Bool :=
  x.trig.slotMatches x.fxPc x.aluY x.dec.memRe x.dec.memWe g

/-- Bit 12 of `tdata1`, all the loop looks at of the action field. -/
def asksDebug (x : XIn) (g : BitVec 1) : Bool := Trig.slotAction (x.trig.tdata1 g)

/-- The first slot that compares equal. -/
def Decides (x : XIn) (g : BitVec 1) : Prop :=
  compares x g = true ∧ (g = 1#1 → compares x 0#1 = false)

instance (x : XIn) (g : BitVec 1) : Decidable (Decides x g) := by
  unfold Decides
  infer_instance

/-- An instruction about to leave X that raises no other exception. -/
structure Checked (P : Params) (x : XIn) : Prop where
  valid : x.fxValid = true
  unfrozen : x.exFreeze = false
  running : x.dbgMode = false
  arch : x.archTrap P = false

/-- There are two slots. -/
theorem slot_cases (g : BitVec 1) : g = 0#1 ∨ g = 1#1 := by
  revert g
  decide

/-- One round of the loop keeps the value of the first slot that matched, and a
slot that matches reports its `tdata2`. -/
theorem matchSlot_tval {t : Trig} {pc addr : Word} {re we : Bool} (acc : Trig.Match)
    (g : BitVec 1) :
    (t.matchSlot pc addr re we acc g).tval =
      if acc.exec || acc.ldst then acc.tval
      else if t.slotMatches pc addr re we g then t.tdata2 g else acc.tval := by
  rw [Trig.matchSlot, Trig.slotMatches]
  cases Trig.slotEn (t.tdata1 g) with
  | false => rw [if_neg Bool.false_ne_true, Bool.false_and, if_neg Bool.false_ne_true, ite_self]
  | true =>
    rw [if_pos rfl, Bool.true_and]
    by_cases hpc : pc = t.tdata2 g <;> by_cases haddr : addr = t.tdata2 g <;>
      cases Trig.slotExec (t.tdata1 g) <;>
      cases ((Trig.slotLoad (t.tdata1 g) && re) || (Trig.slotStore (t.tdata1 g) && we)) <;>
      cases hx : acc.exec <;> cases hl : acc.ldst <;> simp [hx, hl, hpc, haddr]

theorem matchAll_tval {t : Trig} {pc addr : Word} {re we : Bool} :
    (t.matchAll pc addr re we).tval =
      if t.slotMatches pc addr re we 0#1 then t.tdata2 0#1
      else if t.slotMatches pc addr re we 1#1 then t.tdata2 1#1 else 0#32 := by
  unfold Trig.matchAll
  rw [matchSlot_tval, (Trig.matchSlot_fires _ _).1, matchSlot_tval]
  cases t.slotMatches pc addr re we 0#1 <;> rfl

section Loop

variable {x : XIn}

theorem Checked.chk (h : Checked P x) : x.trigChkValid = true := by
  unfold XIn.trigChkValid
  rw [h.valid, h.unfrozen, h.running]
  rfl

theorem trigMatch_of_chk (h : x.trigChkValid = true) :
    x.trigMatch = x.trig.matchAll x.fxPc x.aluY x.dec.memRe x.dec.memWe := by
  have hv : x.fxValid = true := by
    unfold XIn.trigChkValid at h
    simp only [Bool.and_eq_true] at h
    exact h.1.1
  unfold XIn.trigMatch
  rw [if_pos h, hv]
  rfl

/-- A breakpoint exception comes from a slot that decides without the debug action. -/
theorem trigToExc_iff (h : x.trigChkValid = true) :
    x.trigToExc = true ↔ ∃ g, Decides x g ∧ asksDebug x g = false := by
  unfold XIn.trigToExc XIn.trigFire
  rw [trigMatch_of_chk h, Trig.matchAll_fires, Trig.matchAll_action]
  constructor
  · intro hexc
    cases h0 : compares x 0#1 with
    | true =>
      refine ⟨0#1, ⟨h0, fun h => absurd h (by decide)⟩, ?_⟩
      unfold compares at h0
      rw [h0] at hexc
      simpa [asksDebug] using hexc
    | false =>
      unfold compares at h0
      rw [h0, if_neg Bool.false_ne_true, Bool.false_or] at hexc
      have h1 : compares x 1#1 = true := (Bool.and_eq_true .. ▸ hexc).1
      refine ⟨1#1, ⟨h1, fun _ => h0⟩, ?_⟩
      unfold compares at h1
      rw [h1] at hexc
      simpa [asksDebug] using hexc
  · rintro ⟨g, ⟨hcmp, hfirst⟩, hask⟩
    unfold compares at hcmp hfirst
    unfold asksDebug at hask
    rcases slot_cases g with rfl | rfl
    · rw [hcmp, if_pos rfl, hask]
      rfl
    · rw [hfirst rfl, hcmp, if_neg Bool.false_ne_true, hask]
      rfl

/-- Its value is the `tdata2` of the slot that decides. -/
theorem tval_of_decides (h : x.trigChkValid = true) {g : BitVec 1} (hg : Decides x g) :
    x.trigMatch.tval = x.trig.tdata2 g := by
  obtain ⟨hcmp, hfirst⟩ := hg
  unfold compares at hcmp hfirst
  rw [trigMatch_of_chk h, matchAll_tval]
  rcases slot_cases g with rfl | rfl
  · rw [if_pos hcmp]
  · rw [hfirst rfl, if_neg Bool.false_ne_true, if_pos hcmp]

/-- Without an access, a slot that compares equal names the PC. -/
theorem tdata2_of_no_access {g : BitVec 1} (hre : x.dec.memRe = false) (hwe : x.dec.memWe = false)
    (hcmp : compares x g = true) : x.trig.tdata2 g = x.fxPc := by
  unfold compares Trig.slotMatches at hcmp
  rw [hre, hwe] at hcmp
  simp only [Bool.and_false, Bool.or_false, Bool.false_and, Bool.and_eq_true, beq_iff_eq] at hcmp
  exact hcmp.2.2.symm

/-- So it does for an EBREAK. -/
theorem tdata2_of_ebreak {g : BitVec 1} (hbrk : x.dec.isEbreak = true)
    (hcmp : compares x g = true) : x.trig.tdata2 g = x.fxPc := by
  obtain ⟨-, -, hre, hwe, -⟩ := (decode_classes x.fxInstr).sys
    (by rw [show (decode x.fxInstr).isEbreak = true from hbrk]; simp)
  exact tdata2_of_no_access hre hwe hcmp

/-- **What is raised**: a breakpoint exception, when the slot that decides does
not ask for Debug Mode, with the `tdata2` of that slot. -/
theorem raised_iff (h : Checked P x) (v : Word) :
    Raised P x v ↔ ∃ g, Decides x g ∧ asksDebug x g = false ∧ v = x.trig.tdata2 g := by
  have harch := h.arch
  unfold XIn.archTrap at harch
  rw [h.valid, Bool.true_and] at harch
  simp only [Bool.or_eq_false_iff] at harch
  obtain ⟨⟨⟨hill, hecall⟩, -⟩, hacc⟩ := harch
  unfold XIn.accFault at hacc
  simp only [Bool.or_eq_false_iff] at hacc
  obtain ⟨⟨hfetch, hload⟩, hstore⟩ := hacc
  have htrap : x.exTrap P = x.trigToExc := by
    unfold XIn.exTrap XIn.trigToDebug XIn.trigToExc
    rw [h.arch]
    cases x.trigFire <;> cases x.trigMatch.action <;> rfl
  have hcause : x.trigToExc = true → x.exCause P = causeBreakpoint := by
    intro hexc
    unfold XIn.exCause
    rw [hfetch, hill, hecall, hload, hstore, hexc]
    simp
  have htval : ∀ g, x.trigToExc = true → Decides x g → x.exTval P = x.trig.tdata2 g := by
    intro g hexc hg
    unfold XIn.exTval
    rw [hfetch, hload, hstore, hill, hexc]
    cases hbrk : x.dec.isEbreak with
    | true => exact (tdata2_of_ebreak hbrk hg.1).symm
    | false => exact tval_of_decides h.chk hg
  unfold Raised
  rw [htrap]
  constructor
  · rintro ⟨hexc, -, hv⟩
    obtain ⟨g, hg, hask⟩ := (trigToExc_iff h.chk).mp hexc
    exact ⟨g, hg, hask, hv.symm.trans (htval g hexc hg)⟩
  · rintro ⟨g, hg, hask, hv⟩
    have hexc := (trigToExc_iff h.chk).mpr ⟨g, hg, hask⟩
    exact ⟨hexc, hcause hexc, (htval g hexc hg).trans hv.symm⟩

/-! ## What is owed and what is compared -/

/-- In M-mode a slot that compares equal with a zero action field owes. -/
theorem owes_of_compares {g : BitVec 1} (hcmp : compares x g = true)
    (hpriv : x.csr.priv = 0b11#2) (haction : (x.trig.tdata1 g).extractLsb 15 12 = 0#4) :
    Owes x g := by
  unfold compares Trig.slotMatches Trig.slotEn at hcmp
  simp only [Bool.and_eq_true, Bool.or_eq_true, beq_iff_eq] at hcmp
  obtain ⟨⟨htype, hm⟩, hhit⟩ := hcmp
  refine ⟨htype, haction, hm, hpriv, ?_⟩
  rcases hhit with hpc | ⟨hacc, haddr⟩
  · exact Or.inl hpc
  · have hmem : x.dec.memRe = true ∨ x.dec.memWe = true := hacc.imp And.right And.right
    have hamo := XIn.amoValid_eq_false hmem
    unfold XIn.lsRe XIn.lsWe XIn.lsAddr
    rw [hamo]
    simp only [Bool.false_and, Bool.or_false, Bool.false_eq_true, if_false]
    exact Or.inr ⟨hacc, haddr⟩

theorem asksDebug_of_owes {g : BitVec 1} (h : Owes x g) : asksDebug x g = false := by
  have hbit := congrArg (fun v => BitVec.getLsbD v 0) h.action
  simpa [asksDebug, Trig.slotAction] using hbit

end Loop

/-! ## When they agree -/

/-- The cases in which the loop compares what the trigger specifies. -/
structure Plain (x : XIn) : Prop where
  /-- in U-mode no slot without the debug action decides -/
  user : x.csr.priv = 0b11#2 ∨ ∀ g, Decides x g → asksDebug x g = true
  /-- a deciding slot with bit 12 clear has a zero action field, or agrees with one that has -/
  action : ∀ g, Decides x g → asksDebug x g = false →
    (x.trig.tdata1 g).extractLsb 15 12 = 0#4 ∨
      ∃ g', Owes x g' ∧ x.trig.tdata2 g' = x.trig.tdata2 g
  /-- slot 0 does not ask for Debug Mode where slot 1 owes a breakpoint -/
  shadow : Owes x 1#1 → compares x 0#1 = true → asksDebug x 0#1 = false
  /-- a slot that owes compares equal, or the other one raises the exception for it -/
  atomic : ∀ g, Owes x g → compares x g = true ∨ ∃ g', Decides x g' ∧ asksDebug x g' = false

theorem exact_iff_plain {x : XIn} (h : Checked P x) : Exact P x ↔ Plain x := by
  constructor
  · rintro ⟨honly, hall⟩
    have howed : ∀ g, Decides x g → asksDebug x g = false →
        ∃ g', Owes x g' ∧ x.trig.tdata2 g = x.trig.tdata2 g' :=
      fun g hg hask => honly _ ((raised_iff h _).mpr ⟨g, hg, hask, rfl⟩)
    have hdecides : ∀ g, Owes x g → ∃ g', Decides x g' ∧ asksDebug x g' = false := by
      intro g hg
      obtain ⟨v, hv⟩ := hall ⟨g, hg⟩
      obtain ⟨g', hg', hask, -⟩ := (raised_iff h v).mp hv
      exact ⟨g', hg', hask⟩
    refine ⟨?_, ?_, ?_, fun g hg => Or.inr (hdecides g hg)⟩
    · by_contra hcon
      rw [not_or, not_forall] at hcon
      obtain ⟨hpriv, g, hg⟩ := hcon
      rw [Classical.not_imp, Bool.not_eq_true] at hg
      obtain ⟨g', hg', -⟩ := howed g hg.1 hg.2
      exact hpriv hg'.priv
    · intro g hg hask
      obtain ⟨g', hg', hv⟩ := howed g hg hask
      exact Or.inr ⟨g', hg', hv.symm⟩
    · intro hown hcmp
      obtain ⟨g, hg, hask⟩ := hdecides _ hown
      rcases slot_cases g with rfl | rfl
      · exact hask
      · exact absurd (hcmp.symm.trans (hg.2 rfl)) (by decide)
  · intro hp
    refine ⟨?_, ?_⟩
    · intro v hv
      obtain ⟨g, hg, hask, rfl⟩ := (raised_iff h v).mp hv
      have hpriv : x.csr.priv = 0b11#2 :=
        hp.user.resolve_right fun hdbg => absurd (hask.symm.trans (hdbg g hg)) (by decide)
      rcases hp.action g hg hask with hzero | ⟨g', hg', hsame⟩
      · exact ⟨g, owes_of_compares hg.1 hpriv hzero, rfl⟩
      · exact ⟨g', hg', hsame.symm⟩
    · rintro ⟨g, hg⟩
      have hdec : ∃ g', Decides x g' ∧ asksDebug x g' = false := by
        rcases hp.atomic g hg with hcmp | hother
        · rcases slot_cases g with rfl | rfl
          · exact ⟨0#1, ⟨hcmp, fun h => absurd h (by decide)⟩, asksDebug_of_owes hg⟩
          · cases h0 : compares x 0#1 with
            | true => exact ⟨0#1, ⟨h0, fun h => absurd h (by decide)⟩, hp.shadow hg h0⟩
            | false => exact ⟨1#1, ⟨hcmp, fun _ => h0⟩, asksDebug_of_owes hg⟩
        · exact hother
      obtain ⟨g', hg', hask⟩ := hdec
      exact ⟨_, (raised_iff h _).mpr ⟨g', hg', hask, rfl⟩⟩

/-- **When triggers raise the breakpoints they owe**, in every reachable state and
for every instruction that leaves X without another exception: exactly when the
match loop compares what the trigger specifies. -/
theorem breakpoint_iff (s₀ : Core P) (i₀ : CoreIn) (ins : Nat → CoreIn) (n : Nat)
    (hx : Checked P ((Core.runFrom s₀ i₀ ins n).xIn (ins n))) :
    Exact P ((Core.runFrom s₀ i₀ ins n).xIn (ins n)) ↔
      Plain ((Core.runFrom s₀ i₀ ins n).xIn (ins n)) :=
  exact_iff_plain hx

/-- Slot 0 watches loads from address 16, and `instr` loads from it. -/
def watched (instr : Word) : Memory where
  imem := .ofWords
    [0x04100093#32,   -- addi x1, x0, 0x41
     0x7A109073#32,   -- csrrw x0, tdata1, x1
     0x7A285073#32,   -- csrrwi x0, tdata2, 16
     0x01000113#32,   -- addi x2, x0, 16
     instr]
  dmem := fun _ => 0#8

/-- The core with that program, from power-up. -/
abbrev watchRun (instr : Word) (n : Nat) : Core {} :=
  Core.runFrom (Core.powerUp {}) ((watched instr).resetIn {} {}) ((watched instr).inputs {} {}) n

/-- `lw x3, 0(x2)` at clock 5 is watched. -/
theorem breakpoint_iff_load :
    Owes ((watchRun 0x00012183#32 5).xIn ((watched 0x00012183#32).inputs {} {} 5)) 0#1 ∧
    Exact {} ((watchRun 0x00012183#32 5).xIn ((watched 0x00012183#32).inputs {} {} 5)) :=
  ⟨by unfold watchRun; rw [Memory.runFrom_inputs]; decide +kernel,
    (breakpoint_iff _ _ _ 5
      (by rw [Memory.runFrom_inputs]; exact ⟨by decide +kernel, by decide +kernel,
        by decide +kernel, by decide +kernel⟩)).mpr
      (by rw [Memory.runFrom_inputs]; exact ⟨by decide +kernel, by decide +kernel,
        by decide +kernel, by decide +kernel⟩)⟩

/-- `lr.w x3, (x2)` reads the same address, and no exception is raised. -/
theorem breakpoint_misses_lr :
    ¬ ∀ (s₀ : Core {}) (i₀ : CoreIn) (ins : Nat → CoreIn) (n : Nat),
      Checked {} ((Core.runFrom s₀ i₀ ins n).xIn (ins n)) →
      Exact {} ((Core.runFrom s₀ i₀ ins n).xIn (ins n)) := by
  intro h
  have h' := h (Core.powerUp {}) ((watched 0x100121AF#32).resetIn {} {})
    ((watched 0x100121AF#32).inputs {} {}) 5
  rw [Memory.runFrom_inputs] at h'
  obtain ⟨v, hv⟩ := (h' ⟨by decide +kernel, by decide +kernel, by decide +kernel,
    by decide +kernel⟩).2 ⟨0#1, by decide +kernel⟩
  exact absurd hv.1 (by decide +kernel)

end Breakpoint

end ThreeSippEs
