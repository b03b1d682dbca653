import ThreeSippEs.Common.MuldivCorrect
import ThreeSippEs.Core.System

/-!
# The M-extension hazard

The M unit latches the forwarded operands in the first clock its instruction is
in X and answers with `done` some clocks later. Between start and answer the
instruction has to stay in X, and the operands it took have to be final.

- `Hazard`: what ties the operation in flight to the instruction in X;
- `ClockOk`: the two situations in which a clock breaks the tie, excluded: a
  start from a forwarded value that the second beat still changes, and a new
  M-extension instruction that finds an abandoned operation in flight;
- `md_retire`: the value an M-extension instruction retires with.
-/

namespace ThreeSippEs.MulDivHazard

open Clocked

variable {P : Params}

/-! ## Register values in program order -/

/-- Assign register `r`. -/
def setReg (regs : Regs) (r : BitVec 5) (v : Word) : Regs :=
  fun k => if k = r ∧ r ≠ 0#5 then v else regs k

/-- The registers after `n` clocks, as the retire port (`retire_rd_we`,
`retire_rd`, `retire_rd_val`) and the debugger have assigned them. -/
def archRegs (s₀ : Core P) (i₀ : CoreIn) (ins : Nat → CoreIn) : Nat → Regs
  | 0 => (s₀.reset i₀).regs
  | n + 1 =>
    let s := Core.runFrom s₀ i₀ ins n
    if s.dbgGprWe (ins n) then
      setReg (archRegs s₀ i₀ ins n) ((ins n).dbgArRegno.extractLsb 4 0) (ins n).dbgArWdata
    else if s.w.rfWe then
      setReg (archRegs s₀ i₀ ins n) s.w.xw.rd (s.w.wWb (ins n).dmemRdata)
    else archRegs s₀ i₀ ins n

theorem write_eq_setReg (regs : Regs) (r : BitVec 5) (v : Word) :
    Regfile.write regs true r v = setReg regs r v := by
  funext k
  unfold Regfile.write setReg
  by_cases hr : r = 0#5 <;> by_cases hk : k = r <;> simp [hr, hk]

/-- The register file holds them. -/
theorem archRegs_eq (s₀ : Core P) (i₀ : CoreIn) (ins : Nat → CoreIn) (n : Nat) :
    archRegs s₀ i₀ ins n = (Core.runFrom s₀ i₀ ins n).regs := by
  induction n with
  | zero => rfl
  | succ n ih =>
    have hregs : (Core.runFrom s₀ i₀ ins (n + 1)).regs =
        Regfile.write (Core.runFrom s₀ i₀ ins n).regs ((Core.runFrom s₀ i₀ ins n).rfWe (ins n))
          ((Core.runFrom s₀ i₀ ins n).rfWa (ins n)) ((Core.runFrom s₀ i₀ ins n).rfWd (ins n)) := rfl
    rw [hregs, archRegs, ih]
    unfold Core.rfWe Core.rfWa Core.rfWd
    cases hd : (Core.runFrom s₀ i₀ ins n).dbgGprWe (ins n) with
    | true =>
      rw [if_pos rfl, if_pos rfl, if_pos rfl, Bool.true_or, write_eq_setReg]
    | false =>
      rw [if_neg Bool.false_ne_true, if_neg Bool.false_ne_true, if_neg Bool.false_ne_true,
        Bool.false_or]
      cases (Core.runFrom s₀ i₀ ins n).w.rfWe with
      | true => rw [if_pos rfl, write_eq_setReg]
      | false => rfl

/-! ## The two hazards -/

/-- F delivers a new instruction to X in this clock. -/
def accepts (s : Core P) (i : CoreIn) : Bool :=
  (s.redirect i).isNone && !s.dbgResumeNow i && !s.dbgFreeze i && !s.exFreeze &&
    !s.f.needStraddle i.imemRdata

/-- The source registers of the instruction in X. -/
def rs1 (s : Core P) : BitVec 5 := s.f.fxInstr.extractLsb 19 15
def rs2 (s : Core P) : BitVec 5 := s.f.fxInstr.extractLsb 24 20

/-- The instruction in X is an M-extension instruction. -/
def mdInX (s : Core P) : Bool := s.f.fxValid && (decode s.f.fxInstr).isMd

/-- What a clock must not do for the hazard logic to be right. -/
structure ClockOk (s : Core P) (i : CoreIn) : Prop where
  /-- no start on a value forwarded from the first of two beats -/
  start : s.mdStart = true → s.w.memBeatStall = true →
    s.w.fwd (rs1 s) = false ∧ s.w.fwd (rs2 s) = false
  /-- no M-extension instruction enters X while an operation is in flight whose
  instruction has left -/
  enter : accepts s i = true → (decode (s.f.fetchedInstr i.imemRdata)).isMd = true →
    s.mdInflight = true → s.md.done = true

instance (s : Core P) (i : CoreIn) : Decidable (ClockOk s i) :=
  decidable_of_iff
    ((s.mdStart = true → s.w.memBeatStall = true →
        s.w.fwd (rs1 s) = false ∧ s.w.fwd (rs2 s) = false) ∧
      (accepts s i = true → (decode (s.f.fetchedInstr i.imemRdata)).isMd = true →
        s.mdInflight = true → s.md.done = true))
    ⟨fun h => ⟨h.1, h.2⟩, fun h => ⟨h.start, h.enter⟩⟩

/-! ## The invariant -/

/-- The M unit and its handshake flag. -/
structure Handshake (s : Core P) : Prop where
  unit : s.md.Inv
  /-- the flag is up from start to answer -/
  flight : s.mdInflight = (s.md.busy || s.md.done)

/-- What holds between the M unit, X, W and the registers. -/
structure Hazard (s : Core P) : Prop extends Handshake s where
  /-- the operation in flight is that of the instruction in X, on its final
  operands -/
  own : mdInX s = true → s.mdInflight = true →
    s.md.opQ = (decode s.f.fxInstr).mdOp ∧ s.md.aQ = Regfile.get s.regs (rs1 s) ∧
    s.md.bQ = Regfile.get s.regs (rs2 s)
  /-- what W still holds does not write the operands and stays one clock -/
  drained : mdInX s = true → s.mdInflight = true →
    s.w.memBeatStall = false ∧ s.w.fwd (rs1 s) = false ∧ s.w.fwd (rs2 s) = false
  /-- no debugger access while an instruction is in X -/
  running : s.f.fxValid = true → s.dbg.dbgMode = false

section Step

variable {s : Core P} {i : CoreIn}

/-- The unit is idle in the clock of `done`. -/
theorem Handshake.not_busy (h : Handshake s) (hd : s.md.done = true) : s.md.busy = false := by
  unfold Muldiv.busy
  rw [(h.unit.done hd).1]
  rfl

theorem busy_accept (m : Muldiv) (op : MdOp) (a b : Word) : (m.accept op a b).busy = true := by
  unfold Muldiv.accept Muldiv.busy
  split <;> rfl

/-- A busy unit stays busy or answers, and keeps what it latched. -/
theorem busy_step {m : Muldiv} (hb : m.busy = true) (start : Bool) (op : MdOp) (a b : Word) :
    ((m.step start op a b).busy || (m.step start op a b).done) = true ∧
    (m.step start op a b).opQ = m.opQ ∧ (m.step start op a b).aQ = m.aQ ∧
    (m.step start op a b).bQ = m.bQ := by
  unfold Muldiv.busy at hb
  unfold Muldiv.step
  cases hs : m.state with
  | idle => rw [hs] at hb; exact absurd hb (by decide)
  | mul => exact ⟨by simp [Muldiv.stepMul], rfl, rfl, rfl⟩
  | fin => exact ⟨by simp [Muldiv.stepFin], rfl, rfl, rfl⟩
  | div =>
    show ((m.stepDiv).busy || (m.stepDiv).done) = true ∧ m.stepDiv.opQ = _ ∧ m.stepDiv.aQ = _ ∧
      m.stepDiv.bQ = _
    unfold Muldiv.stepDiv
    split
    · exact ⟨by simp, rfl, rfl, rfl⟩
    · split
      · exact ⟨by simp, rfl, rfl, rfl⟩
      · refine ⟨?_, rfl, rfl, rfl⟩
        unfold Muldiv.busy Muldiv.shiftSubtract
        rw [hs]
        dsimp only
        split <;> rfl

/-- The handshake flag follows the unit. -/
theorem Handshake.flight_step (h : Handshake s) :
    (s.step i).mdInflight = ((s.step i).md.busy || (s.step i).md.done) := by
  have hf := h.flight
  show (if s.md.done then false else s.mdInflight || s.mdStart) =
    ((s.md.step s.mdStart (decode s.f.fxInstr).mdOp (s.op1 i) (s.op2 i)).busy ||
      (s.md.step s.mdStart (decode s.f.fxInstr).mdOp (s.op1 i) (s.op2 i)).done)
  cases hb : s.md.busy with
  | true =>
    -- busy: not the clock of `done`
    have hd : s.md.done = false := by
      by_contra hd
      rw [Bool.not_eq_false] at hd
      exact absurd (h.not_busy hd) (by simp [hb])
    rw [hd, if_neg Bool.false_ne_true, hf, hb, (busy_step hb _ _ _ _).1]
    rfl
  | false =>
    have hidle : s.md.state = .idle := by
      unfold Muldiv.busy at hb
      simpa using hb
    unfold Muldiv.step
    rw [hidle]
    dsimp only
    cases hd : s.md.done with
    | true =>
      -- the flag is still up in the clock of `done`, so nothing starts
      have hst : s.mdStart = false := by
        unfold Core.mdStart
        rw [hf, hd]
        simp
      rw [hst, if_pos rfl, if_neg Bool.false_ne_true]
      rfl
    | false =>
      rw [hf, hb, hd, if_neg Bool.false_ne_true]
      cases hst : s.mdStart with
      | true =>
        rw [if_pos rfl, busy_accept]
        rfl
      | false =>
        rw [if_neg Bool.false_ne_true]
        rfl

/-- Every clock keeps the handshake. -/
theorem Handshake.step (h : Handshake s) : Handshake (s.step i) :=
  ⟨h.unit.step _ _ _ _, h.flight_step⟩

/-- The operand of source `r` in X is the value `r` has after this clock, unless
it is forwarded from a first beat. -/
theorem operand_eq (hdbg : s.dbg.dbgMode = false) (r : BitVec 5)
    (hok : s.w.memBeatStall = true → s.w.fwd r = false) :
    (if s.w.fwd r then s.w.wWb i.dmemRdata
      else Regfile.read s.regs (s.rfWe i) (s.rfWa i) (s.rfWd i) r) =
      Regfile.get (s.step i).regs r := by
  have hregs : (s.step i).regs = Regfile.write s.regs (s.rfWe i) (s.rfWa i) (s.rfWd i) := rfl
  cases hf : s.w.fwd r with
  | false => rw [if_neg Bool.false_ne_true, Regfile.read_eq_get, hregs]
  | true =>
    have hstall : s.w.memBeatStall = false := by
      by_contra hb
      rw [Bool.not_eq_false] at hb
      exact absurd (hok hb) (by simp [hf])
    have hgpr : s.dbgGprWe i = false := Core.dbgGprWe_of_running hdbg
    obtain ⟨hv, hwe, hne, rfl⟩ := s.w.fwd_iff.mp hf
    have hrf : s.w.rfWe = true := by
      unfold WStage.rfWe
      rw [hv, hwe, hstall]
      simpa using hne
    rw [if_pos rfl, hregs]
    unfold Core.rfWe Core.rfWa Core.rfWd
    rw [hgpr, hrf, if_neg Bool.false_ne_true, if_neg Bool.false_ne_true, Bool.false_or,
      Regfile.get_write_same hne]

theorem op1_eq (hdbg : s.dbg.dbgMode = false)
    (hok : s.w.memBeatStall = true → s.w.fwd (rs1 s) = false) :
    s.op1 i = Regfile.get (s.step i).regs (rs1 s) := by
  rw [← operand_eq hdbg (rs1 s) hok]
  unfold Core.op1 Core.rdata1 Core.rfRa1
  rw [hdbg]
  rfl

theorem op2_eq (hdbg : s.dbg.dbgMode = false)
    (hok : s.w.memBeatStall = true → s.w.fwd (rs2 s) = false) :
    s.op2 i = Regfile.get (s.step i).regs (rs2 s) := by
  rw [← operand_eq hdbg (rs2 s) hok]
  rfl

/-- What W writes leaves the other registers alone. -/
theorem get_step_of_not_fwd (hdbg : s.dbg.dbgMode = false) {r : BitVec 5}
    (hf : s.w.fwd r = false) : Regfile.get (s.step i).regs r = Regfile.get s.regs r := by
  have hgpr : s.dbgGprWe i = false := Core.dbgGprWe_of_running hdbg
  refine Regfile.get_write_of_ne ?_
  unfold Core.rfWe Core.rfWa
  rw [hgpr, Bool.false_or, if_neg Bool.false_ne_true]
  intro hwe heq
  have hfwd := s.w.fwd_of_rfWe hwe
  rw [heq] at hfwd
  exact Bool.false_ne_true (hf.symm.trans hfwd)

theorem mdInX_iff :
    mdInX s = true ↔ s.f.fxValid = true ∧ (decode s.f.fxInstr).isMd = true :=
  iff_of_eq (Bool.and_eq_true ..)

theorem mdInX_of_mdStart (h : s.mdStart = true) : mdInX s = true := by
  unfold Core.mdStart at h
  simp only [Bool.and_eq_true] at h
  exact mdInX_iff.mpr h.1.1

/-- An M-extension instruction waits in X until `done`. -/
theorem mdStall_iff : s.mdStall = true ↔ mdInX s = true ∧ s.md.done = false := by
  unfold Core.mdStall mdInX
  rw [Bool.and_eq_true, Bool.not_eq_true']

/-- While X holds an M-extension instruction that has not been answered, F keeps
it, drops it or is redirected, but never replaces it. -/
theorem stays_in_X (hst : s.mdStall = true) (hv : (s.step i).f.fxValid = true) :
    (s.step i).f = s.f ∧ s.dbgFreeze i = false := by
  have hc := s.f.step_clock s.bp.ghist (s.fetchIn i)
  have hfz := Core.exFreeze_of_mdStall hst
  show s.f.step s.bp.ghist (s.fetchIn i) = s.f ∧ _
  have hv' : (s.f.step s.bp.ghist (s.fetchIn i)).fxValid = true := hv
  generalize s.f.step s.bp.ghist (s.fetchIn i) = f' at hc hv'
  cases hc with
  | redirected | resumed | frozen | straddled => exact absurd hv' Bool.false_ne_true
  | stalled hr hres hdf hfe => exact ⟨rfl, hdf⟩
  | accepted hr hres hdf hfe => exact absurd (hfz.symm.trans hfe) (by simp)

/-- An M-extension instruction in X after a clock either was there, unanswered,
or has just entered and finds the unit free. -/
theorem mdInX_step (hok : ClockOk s i) (hmd : mdInX (s.step i) = true)
    (hfl : (s.step i).mdInflight = true) : s.mdStall = true ∧ (s.step i).f = s.f := by
  have hv := (mdInX_iff.mp hmd).1
  by_cases hst : s.mdStall = true
  · exact ⟨hst, (stays_in_X hst hv).1⟩
  · exfalso
    rw [Bool.not_eq_true] at hst
    have hnext : (s.step i).mdInflight =
        if s.md.done then false else s.mdInflight || s.mdStart := rfl
    rw [hnext] at hfl
    have hdone : s.md.done = false := by
      by_contra hd
      rw [Bool.not_eq_false] at hd
      rw [hd, if_pos rfl] at hfl
      exact Bool.false_ne_true hfl
    -- without a stall no M-extension instruction is in X before `done`
    have hnx : mdInX s = false := by
      by_contra hx
      rw [Bool.not_eq_false] at hx
      exact absurd (mdStall_iff.mpr ⟨hx, hdone⟩) (by simp [hst])
    have hnostart : s.mdStart = false := by
      by_contra hst'
      rw [Bool.not_eq_false] at hst'
      exact absurd (hnx.symm.trans (mdInX_of_mdStart hst')) Bool.false_ne_true
    rw [hdone, if_neg Bool.false_ne_true, hnostart, Bool.or_false] at hfl
    have hc := s.f.step_clock s.bp.ghist (s.fetchIn i)
    have hmd' : ((s.f.step s.bp.ghist (s.fetchIn i)).fxValid &&
        (decode (s.f.step s.bp.ghist (s.fetchIn i)).fxInstr).isMd) = true := hmd
    generalize s.f.step s.bp.ghist (s.fetchIn i) = f' at hc hmd'
    cases hc with
    | redirected | resumed | frozen | straddled => exact absurd hmd' (by simp)
    | stalled => exact absurd (hnx.symm.trans hmd') Bool.false_ne_true
    | accepted hr hres hdf hfe hs =>
      have hacc : accepts s i = true := by
        have hr' : s.redirect i = none := hr
        have hres' : s.dbgResumeNow i = false := hres
        have hdf' : s.dbgFreeze i = false := hdf
        have hfe' : s.exFreeze = false := hfe
        have hs' : s.f.needStraddle i.imemRdata = false := hs
        unfold accepts
        rw [hr', hres', hdf', hfe', hs']
        rfl
      have hisMd : (decode (s.f.fetchedInstr i.imemRdata)).isMd = true := by
        rw [Bool.and_eq_true] at hmd'
        exact hmd'.2
      exact absurd (hok.enter hacc hisMd hfl) (by simp [hdone])

/-- What the start of an operation latches. -/
theorem latched_of_start (hst : s.mdStart = true) :
    (s.step i).md.opQ = (decode s.f.fxInstr).mdOp ∧ (s.step i).md.aQ = s.op1 i ∧
    (s.step i).md.bQ = s.op2 i := by
  have hidle : s.md.state = .idle := by
    unfold Core.mdStart Muldiv.busy at hst
    simp only [Bool.and_eq_true, Bool.not_eq_true', bne_eq_false_iff_eq] at hst
    exact hst.2
  show (s.md.step s.mdStart _ _ _).opQ = _ ∧ (s.md.step s.mdStart _ _ _).aQ = _ ∧
    (s.md.step s.mdStart _ _ _).bQ = _
  unfold Muldiv.step
  rw [hidle, hst]
  dsimp only
  rw [if_pos rfl]
  unfold Muldiv.accept
  split <;> exact ⟨rfl, rfl, rfl⟩

/-- W after a clock in which X waits: empty, or in the second beat of what it
held. -/
theorem w_step_of_mdStall (hst : s.mdStall = true) :
    (s.step i).w.xwValid = false ∨
      (s.w.memBeatStall = true ∧ (s.step i).w.memBeatStall = false ∧
        ∀ r, (s.step i).w.fwd r = s.w.fwd r) := by
  have hw : (s.step i).w = s.w.step i.dmemRdata s.xCommit ((s.xIn i).xwNext P) := rfl
  cases hb : s.w.memBeatStall with
  | false =>
    left
    rw [hw, (s.w.step_of_not_stall hb _ _ _).1]
    exact Core.xCommit_of_mdStall hst
  | true =>
    right
    obtain ⟨hval, hxw, hbeat⟩ := s.w.step_of_stall hb i.dmemRdata s.xCommit ((s.xIn i).xwNext P)
    refine ⟨rfl, ?_, ?_⟩
    · by_contra hb'
      rw [Bool.not_eq_false] at hb'
      have h2 := WStage.beat2_of_memBeatStall _ hb'
      rw [hw, hbeat] at h2
      exact absurd h2 (by simp)
    · intro r
      unfold WStage.fwd
      rw [hw, hval, hxw]

/-- An empty W neither stalls nor forwards. -/
theorem w_empty {w : WStage} (h : w.xwValid = false) :
    w.memBeatStall = false ∧ ∀ r, w.fwd r = false := by
  constructor
  · by_contra hb
    rw [Bool.not_eq_false] at hb
    exact absurd (w.xwValid_of_memBeatStall hb) (by simp [h])
  · intro r
    unfold WStage.fwd
    rw [h]
    rfl

/-- While X waits, W finishes what it holds. -/
theorem beat_step (hx : s.w.memBeatStall = false → s.xCommit = false) :
    (s.step i).w.memBeatStall = false := by
  cases hb : s.w.memBeatStall with
  | true =>
    by_contra hb'
    rw [Bool.not_eq_false] at hb'
    have hbeat := WStage.beat2_of_memBeatStall _ hb'
    have hbeat' : (s.step i).w.beat2 = true := (s.w.step_of_stall hb _ _ _).2.2
    exact absurd (hbeat.symm.trans hbeat') (by simp)
  | false =>
    refine (w_empty ?_).1
    show (s.w.step _ s.xCommit _).xwValid = false
    rw [(s.w.step_of_not_stall hb _ _ _).1]
    exact hx hb

/-- No operation has been abandoned: the one in flight is that of the instruction in X. -/
structure Owned (s : Core P) : Prop extends Handshake s where
  owned : s.mdInflight = true → mdInX s = true ∧ s.w.memBeatStall = false

/-- An instruction that waits in X stays there, unless the front end is frozen. -/
theorem stalled_step (hm : s.dbg.dbgMode = false) (hdf : s.dbgFreeze i = false)
    (hfz : s.exFreeze = true) : (s.step i).f = s.f := by
  refine FStage.step_of_stall (i := s.fetchIn i) ?_ ?_ hdf hfz
  · cases hr : s.redirect i with
    | none => exact hr
    | some target =>
      have hx := (XIn.redirect_valid (x := s.xIn i) hr).2
      exact absurd (hfz.symm.trans hx) (by simp)
  · show (s.dbg.dbgMode && i.dbgResumereq) = false
    rw [hm]
    rfl

/-- An operation in flight after a clock is that of an instruction that waited in X, and
still does when the front end was not frozen. -/
theorem Owned.waits (h : Owned s) (hrun : s.f.fxValid = true → s.dbg.dbgMode = false)
    (hkept : s.f.fxValid = true → s.exFreeze = true → s.dbgFreeze i = false)
    (hfl : (s.step i).mdInflight = true) : s.mdStall = true ∧ (s.step i).f = s.f := by
  have hnext : (s.step i).mdInflight = if s.md.done then false else s.mdInflight || s.mdStart := rfl
  cases hd : s.md.done with
  | true =>
    rw [hnext, hd, if_pos rfl] at hfl
    exact absurd hfl Bool.false_ne_true
  | false =>
    rw [hnext, hd, if_neg Bool.false_ne_true, Bool.or_eq_true] at hfl
    have hx : mdInX s = true := by
      rcases hfl with hfl | hst
      · exact (h.owned hfl).1
      · exact mdInX_of_mdStart hst
    have hstall : s.mdStall = true := mdStall_iff.mpr ⟨hx, hd⟩
    have hv := (mdInX_iff.mp hx).1
    have hfz := Core.exFreeze_of_mdStall hstall
    exact ⟨hstall, stalled_step (hrun hv) (hkept hv hfz) hfz⟩

/-- As long as no halt meets an instruction that waits in X, no operation is abandoned. -/
theorem Owned.step (h : Owned s) (hrun : s.f.fxValid = true → s.dbg.dbgMode = false)
    (hkept : s.f.fxValid = true → s.exFreeze = true → s.dbgFreeze i = false) :
    Owned (s.step i) := by
  refine ⟨h.toHandshake.step, fun hfl => ?_⟩
  obtain ⟨hst, hf⟩ := h.waits hrun hkept hfl
  refine ⟨?_, beat_step fun _ => Core.xCommit_of_mdStall hst⟩
  unfold mdInX
  rw [hf]
  exact (mdStall_iff.mp hst).1

/-- **Every clock that is `ClockOk` keeps the tie.** -/
theorem Hazard.step (h : Hazard s) (hok : ClockOk s i)
    (hrun : (s.step i).f.fxValid = true → (s.step i).dbg.dbgMode = false) :
    Hazard (s.step i) := by
  have key : mdInX (s.step i) = true → (s.step i).mdInflight = true →
      ((s.step i).md.opQ = (decode (s.step i).f.fxInstr).mdOp ∧
        (s.step i).md.aQ = Regfile.get (s.step i).regs (rs1 (s.step i)) ∧
        (s.step i).md.bQ = Regfile.get (s.step i).regs (rs2 (s.step i))) ∧
      ((s.step i).w.memBeatStall = false ∧ (s.step i).w.fwd (rs1 (s.step i)) = false ∧
        (s.step i).w.fwd (rs2 (s.step i)) = false) := by
    intro hmd hfl
    obtain ⟨hst, hf⟩ := mdInX_step hok hmd hfl
    obtain ⟨hx, hdone⟩ := mdStall_iff.mp hst
    have hdbg := h.running (mdInX_iff.mp hx).1
    have hrs1 : rs1 (s.step i) = rs1 s := by unfold rs1; rw [hf]
    have hrs2 : rs2 (s.step i) = rs2 s := by unfold rs2; rw [hf]
    rw [hf, hrs1, hrs2]
    cases hflight : s.mdInflight with
    | true =>
      -- the operation goes on
      have hbusy : s.md.busy = true := by
        have hfl := h.flight
        rw [hflight, hdone, Bool.or_false] at hfl
        exact hfl.symm
      obtain ⟨hop, ha, hb⟩ := h.own hx hflight
      obtain ⟨hnb, hf1, hf2⟩ := h.drained hx hflight
      obtain ⟨-, hop', ha', hb'⟩ := busy_step hbusy s.mdStart (decode s.f.fxInstr).mdOp
        (s.op1 i) (s.op2 i)
      have hempty : (s.step i).w.xwValid = false := by
        rcases w_step_of_mdStall (i := i) hst with he | ⟨hb, -⟩
        · exact he
        · exact absurd hb (by simp [hnb])
      refine ⟨⟨hop'.trans hop, ?_, ?_⟩, (w_empty hempty).1, (w_empty hempty).2 _,
        (w_empty hempty).2 _⟩
      · rw [get_step_of_not_fwd hdbg hf1]
        exact ha'.trans ha
      · rw [get_step_of_not_fwd hdbg hf2]
        exact hb'.trans hb
    | false =>
      -- it starts in this clock
      have hstart : s.mdStart = true := by
        have hnext : (s.step i).mdInflight =
            if s.md.done then false else s.mdInflight || s.mdStart := rfl
        rw [hnext, hdone, hflight, if_neg Bool.false_ne_true, Bool.false_or] at hfl
        exact hfl
      obtain ⟨hop, ha, hb⟩ := latched_of_start (i := i) hstart
      refine ⟨⟨hop, ?_, ?_⟩, ?_⟩
      · rw [ha]
        exact op1_eq hdbg fun hb => (hok.start hstart hb).1
      · rw [hb]
        exact op2_eq hdbg fun hb => (hok.start hstart hb).2
      · rcases w_step_of_mdStall (i := i) hst with he | ⟨hb, hnb, hfwd⟩
        · exact ⟨(w_empty he).1, (w_empty he).2 _, (w_empty he).2 _⟩
        · rw [hfwd, hfwd]
          exact ⟨hnb, hok.start hstart hb⟩
  exact ⟨h.toHandshake.step, fun hmd hfl => (key hmd hfl).1,
    fun hmd hfl => (key hmd hfl).2, hrun⟩

end Step

/-- No M-extension instruction is in X right after reset. -/
theorem Hazard.reset (s : Core P) (i : CoreIn) : Hazard (s.reset i) where
  unit := Muldiv.Inv.reset s.md
  flight := rfl
  own h := absurd h Bool.false_ne_true
  drained h := absurd h Bool.false_ne_true
  running h := absurd h Bool.false_ne_true

/-- What an M-extension instruction passes to W: the answer of the unit, and no
memory access. -/
theorem xwNext_md {x : XIn} (h : x.dec.isMd = true) :
    (x.xwNext P).result = x.mdResult ∧ (x.xwNext P).memRe = false ∧
    (x.xwNext P).memWe = false ∧ (x.xwNext P).isAmo = false := by
  obtain ⟨-, hsel, -, hre, hwe, -⟩ := (decode_classes x.fxInstr).md h
  have hamo : x.amoValid = false := by
    by_contra ha
    rw [Bool.not_eq_false] at ha
    rw [XIn.dec_of_isAmo (XIn.isAmo_of_amoValid ha)] at h
    exact Bool.false_ne_true h
  refine ⟨?_, ?_, ?_, ?_⟩
  · show x.xResult P = _
    unfold XIn.xResult XIn.dec
    rw [hsel]
  · show ((decode x.fxInstr).memRe && _) = false
    rw [hre]
    rfl
  · show ((decode x.fxInstr).memWe && _) = false
    rw [hwe]
    rfl
  · show (x.amoValid && _) = false
    rw [hamo]
    rfl

/-- The M-extension result of instruction `instr` on the registers `regs`. -/
def mdResult (regs : Regs) (instr : Word) : Word :=
  Mext.value (decode instr).mdOp (Regfile.get regs (instr.extractLsb 19 15))
    (Regfile.get regs (instr.extractLsb 24 20))

/-! ## Runs -/

/-- The operation started at clock `m` is still that of the instruction in X at
clock `d`: F has not moved, nothing else was started or answered. -/
structure Tied (s₀ : Core P) (i₀ : CoreIn) (ins : Nat → CoreIn) (m d : Nat) : Prop where
  start : (Core.runFrom s₀ i₀ ins m).mdStart = true
  alone : ∀ k, m < k → k ≤ d → (Core.runFrom s₀ i₀ ins k).mdStart = false
  pending : ∀ k, m < k → k < d → (Core.runFrom s₀ i₀ ins k).md.done = false
  held : ∀ k, m ≤ k → k < d → (Core.runFrom s₀ i₀ ins k).mdStall = true ∧
    (Core.runFrom s₀ i₀ ins (k + 1)).f = (Core.runFrom s₀ i₀ ins k).f

section Run

variable {s₀ : Core P} {i₀ : CoreIn} {ins : Nat → CoreIn} {n : Nat}

/-- The tie holds in every state of a run whose clocks are all `ClockOk`. -/
theorem hazard_run (hok : ∀ k < n, ClockOk (Core.runFrom s₀ i₀ ins k) (ins k)) :
    Hazard (Core.runFrom s₀ i₀ ins n) := by
  induction n with
  | zero => exact Hazard.reset s₀ i₀
  | succ n ih =>
    exact (ih fun k hk => hok k (by omega)).step (hok n (by omega))
      (Core.running_of_valid s₀ i₀ ins (n + 1))

/-- An M-extension instruction in X with an operation in flight has started it
itself. -/
theorem tied_run (hok : ∀ k < n, ClockOk (Core.runFrom s₀ i₀ ins k) (ins k))
    (hmd : mdInX (Core.runFrom s₀ i₀ ins n) = true)
    (hfl : (Core.runFrom s₀ i₀ ins n).mdInflight = true) :
    ∃ m < n, Tied s₀ i₀ ins m n := by
  induction n with
  | zero => exact absurd hfl Bool.false_ne_true
  | succ n ih =>
    obtain ⟨hst, hf⟩ := mdInX_step (hok n (by omega)) hmd hfl
    obtain ⟨hx, hdone⟩ := mdStall_iff.mp hst
    have hlast : (Core.runFrom s₀ i₀ ins (n + 1)).mdStart = false := by
      unfold Core.mdStart
      rw [hfl]
      simp
    cases hflight : (Core.runFrom s₀ i₀ ins n).mdInflight with
    | true =>
      obtain ⟨m, hm, ht⟩ := ih (fun k hk => hok k (by omega)) hx hflight
      refine ⟨m, by omega, ht.start, ?_, ?_, ?_⟩
      · intro k hmk hk
        rcases Nat.lt_or_eq_of_le hk with hlt | rfl
        · exact ht.alone k hmk (by omega)
        · exact hlast
      · intro k hmk hk
        rcases Nat.lt_or_eq_of_le (Nat.le_of_lt_succ hk) with hlt | rfl
        · exact ht.pending k hmk hlt
        · exact hdone
      · intro k hmk hk
        rcases Nat.lt_or_eq_of_le (Nat.le_of_lt_succ hk) with hlt | rfl
        · exact ht.held k hmk hlt
        · exact ⟨hst, hf⟩
    | false =>
      have hstart : (Core.runFrom s₀ i₀ ins n).mdStart = true := by
        have hnext : (Core.runFrom s₀ i₀ ins (n + 1)).mdInflight =
            if (Core.runFrom s₀ i₀ ins n).md.done then false
            else (Core.runFrom s₀ i₀ ins n).mdInflight || (Core.runFrom s₀ i₀ ins n).mdStart := rfl
        rw [hnext, hdone, hflight, if_neg Bool.false_ne_true, Bool.false_or] at hfl
        exact hfl
      refine ⟨n, by omega, hstart, ?_, fun k hmk hk => by omega, ?_⟩
      · intro k hmk hk
        obtain rfl : k = n + 1 := by omega
        exact hlast
      · intro k hmk hk
        obtain rfl : k = n := by omega
        exact ⟨hst, hf⟩

/-- An M-extension instruction spends one clock in W. -/
theorem issued_md {m : Nat} (hm : Core.Issued s₀ i₀ ins m n)
    (hmd : (decode (Core.runFrom s₀ i₀ ins m).f.fxInstr).isMd = true) : n = m + 1 := by
  have hbeat := hm.beat
  cases hb : (Core.runFrom s₀ i₀ ins n).w.beat2 with
  | false =>
    rw [hb, if_neg Bool.false_ne_true] at hbeat
    exact hbeat
  | true =>
    rw [hb, if_pos rfl] at hbeat
    subst hbeat
    exfalso
    -- the clock in between held the same instruction and stalled
    have hstall := (Core.exFreeze_eq_false_iff.mp hm.leaves).2
    have hxw : (Core.runFrom s₀ i₀ ins (m + 1)).w.xw =
        ((Core.runFrom s₀ i₀ ins m).xIn (ins m)).xwNext P :=
      (WStage.step_of_not_stall _ hstall (ins m).dmemRdata _ _).2.1
    have hbeat2 : (Core.runFrom s₀ i₀ ins (m + 1)).w.memBeatStall = true := hb
    obtain ⟨-, hre, hwe, hamo⟩ := xwNext_md (P := P)
      (x := (Core.runFrom s₀ i₀ ins m).xIn (ins m)) hmd
    unfold WStage.memBeatStall WStage.memMis WStage.amoRmwB1 WStage.amoHere XwReg.crosses at hbeat2
    rw [hxw, hre, hwe, hamo] at hbeat2
    simp at hbeat2

/-- **The hazard law.** In every run whose clocks are `ClockOk`, an M-extension
instruction that retires with a result writes the M-extension function of the
values its sources have in program order, and was released from X by the answer
to the operation it started itself. -/
theorem md_retire (s₀ : Core P) (i₀ : CoreIn) (ins : Nat → CoreIn) (n : Nat)
    (hok : ∀ k < n, ClockOk (Core.runFrom s₀ i₀ ins k) (ins k))
    (hret : (Core.runFrom s₀ i₀ ins n).w.retireValid = true)
    (hmd : (decode (Core.runFrom s₀ i₀ ins n).w.xw.instr).isMd = true)
    (hwe : (Core.runFrom s₀ i₀ ins n).w.xw.regWe = true) :
    (Core.runFrom s₀ i₀ ins n).w.wWb (ins n).dmemRdata =
      mdResult (archRegs s₀ i₀ ins n) (Core.runFrom s₀ i₀ ins n).w.xw.instr ∧
    ((Core.runFrom s₀ i₀ ins n).w.xw.rd ≠ 0#5 →
      Regfile.get (archRegs s₀ i₀ ins (n + 1)) (Core.runFrom s₀ i₀ ins n).w.xw.rd =
        mdResult (archRegs s₀ i₀ ins n) (Core.runFrom s₀ i₀ ins n).w.xw.instr) ∧
    ∃ m d, n = d + 1 ∧ m < d ∧ Tied s₀ i₀ ins m d ∧ (Core.runFrom s₀ i₀ ins d).md.done = true ∧
      (Core.runFrom s₀ i₀ ins d).f.fxPc = (Core.runFrom s₀ i₀ ins n).w.xw.pc ∧
      (Core.runFrom s₀ i₀ ins d).f.fxInstr = (Core.runFrom s₀ i₀ ins n).w.xw.instr := by
  obtain ⟨hval, hbeat⟩ := (WStage.retireValid_iff _).mp hret
  obtain ⟨d, hd⟩ := Core.issued s₀ i₀ ins n hval
  have hxw := hd.xw
  have hinstr : (Core.runFrom s₀ i₀ ins n).w.xw.instr = (Core.runFrom s₀ i₀ ins d).f.fxInstr := by
    rw [hxw]
    rfl
  rw [hinstr] at hmd ⊢
  obtain rfl := issued_md hd hmd
  -- clock `d` is the clock of `done`
  have hx := mdInX_iff.mpr ⟨(Core.xCommit_iff.mp hd.commit).1, hmd⟩
  have hdone : (Core.runFrom s₀ i₀ ins d).md.done = true := by
    have hl := (Core.exFreeze_eq_false_iff.mp hd.leaves).1
    by_contra hnd
    rw [Bool.not_eq_true] at hnd
    exact absurd (mdStall_iff.mpr ⟨hx, hnd⟩) (by simp [hl])
  have hok' : ∀ k < d, ClockOk (Core.runFrom s₀ i₀ ins k) (ins k) := fun k hk => hok k (by omega)
  have hz := hazard_run hok'
  have hfl : (Core.runFrom s₀ i₀ ins d).mdInflight = true := by
    rw [hz.flight, hdone, Bool.or_true]
  obtain ⟨m, hm, ht⟩ := tied_run hok' hx hfl
  obtain ⟨hop, ha, hb⟩ := hz.own hx hfl
  obtain ⟨-, hf1, hf2⟩ := hz.drained hx hfl
  have hdbg := hz.running (mdInX_iff.mp hx).1
  -- the value W holds is the answer of the unit
  have hvalue : (Core.runFrom s₀ i₀ ins (d + 1)).w.wWb (ins (d + 1)).dmemRdata =
      mdResult (archRegs s₀ i₀ ins (d + 1)) (Core.runFrom s₀ i₀ ins d).f.fxInstr := by
    have hres := (hz.unit.done hdone).2
    obtain ⟨hr, hre, hwe', hamo⟩ := xwNext_md (P := P)
      (x := (Core.runFrom s₀ i₀ ins d).xIn (ins d)) hmd
    unfold WStage.wWb WStage.amoHere
    rw [hxw, hamo, hre, hr, Bool.and_false, if_neg Bool.false_ne_true, if_neg Bool.false_ne_true]
    show (Core.runFrom s₀ i₀ ins d).md.result = _
    rw [hres, hop, ha, hb, archRegs_eq]
    unfold mdResult
    have h1 := get_step_of_not_fwd (i := ins d) hdbg hf1
    have h2 := get_step_of_not_fwd (i := ins d) hdbg hf2
    unfold rs1 at h1 ⊢
    unfold rs2 at h2 ⊢
    rw [← h1, ← h2]
    rfl
  refine ⟨hvalue, ?_, m, d, rfl, hm, ht, hdone, by rw [hxw]; rfl, rfl⟩
  intro hrd
  -- the write port is not taken by the debugger while W is busy
  have hrun : (Core.runFrom s₀ i₀ ins (d + 1)).dbg.dbgMode = false := by
    by_contra h
    rw [Bool.not_eq_false] at h
    exact absurd hval (by simp [(Core.halted_empty s₀ i₀ ins (d + 1) h).2])
  have hgpr := Core.dbgGprWe_of_running (i := ins (d + 1)) hrun
  have hrf : (Core.runFrom s₀ i₀ ins (d + 1)).w.rfWe = true := by
    unfold WStage.rfWe
    rw [hval, hwe, hbeat]
    simpa using hrd
  rw [archRegs, hgpr, hrf, if_neg Bool.false_ne_true, if_pos rfl, ← write_eq_setReg,
    Regfile.get_write_same hrd]
  exact hvalue

end Run

/-- `addi x1, x0, 3; mul x2, x1, x1` -/
def square : Memory := { imem := .ofWords [0x00300093#32, 0x02108133#32], dmem := fun _ => 0#8 }

/-- The product retires at clock 5. -/
theorem md_retire_square :
    (square.bench {} {} 5).w.wWb (square.inputs {} {} 5).dmemRdata =
      mdResult (archRegs (Core.powerUp {}) (square.resetIn {} {}) (square.inputs {} {}) 5)
        (square.bench {} {} 5).w.xw.instr := by
  have h := md_retire (Core.powerUp {}) (square.resetIn {} {}) (square.inputs {} {}) 5
    (fun k hk => by
      rw [Memory.runFrom_inputs]
      revert k
      decide +kernel)
  rw [Memory.runFrom_inputs] at h
  exact (h (by decide +kernel) (by decide +kernel) (by decide +kernel)).1

/-- `lw x1, 2(x0); mul x2, x1, x1`, with `0x00050003` at address 2. -/
def squareOfMisaligned : Memory where
  imem := .ofWords [0x00202083#32, 0x02108133#32]
  dmem := .ofWords [0x00030000#32, 5#32]

/-- A product starts on the first beat of the load it depends on: the MUL that
retires at clock 5 squares 3 instead of `0x00050003`. -/
theorem mul_latches_first_beat :
    ¬ ∀ (s₀ : Core {}) (i₀ : CoreIn) (ins : Nat → CoreIn) (n : Nat),
      (Core.runFrom s₀ i₀ ins n).w.retireValid = true →
      (decode (Core.runFrom s₀ i₀ ins n).w.xw.instr).isMd = true →
      (Core.runFrom s₀ i₀ ins n).w.xw.regWe = true →
      (Core.runFrom s₀ i₀ ins n).w.wWb (ins n).dmemRdata =
        mdResult (archRegs s₀ i₀ ins n) (Core.runFrom s₀ i₀ ins n).w.xw.instr := by
  intro h
  have h' := h (Core.powerUp {}) (squareOfMisaligned.resetIn {} {})
    (squareOfMisaligned.inputs {} {}) 5
  rw [archRegs_eq, Memory.runFrom_inputs] at h'
  revert h'
  decide +kernel

end ThreeSippEs.MulDivHazard
