import ThreeSippEs.Common.MuldivRun
import ThreeSippEs.Pipeline.Simulation

/-!
# Runs without the debugger

As long as no halt is requested the front end is never frozen, an operation of
the M unit belongs to the instruction in X, and an instruction leaves X within a
bounded number of clocks.

- `Quiet`: the invariant of such runs, `Quiet.step`;
- `Core.rank`: an upper bound for the clocks until the next instruction leaves X,
  `Quiet.rank_step`.
-/

namespace ThreeSippEs

open MulDivHazard

variable {P : Params}

/-- No halt is pending, and the operation in flight is that of the instruction
in X. -/
structure Quiet (s : Core P) : Prop extends Handshake s where
  mode : s.dbg.dbgMode = false
  haltReq : s.dbg.haltReq = false
  stepActive : s.dbg.stepActive = false
  ebreakm : s.dbg.dcsrEbreakm = false
  captured : s.dbg.dpcCapValid = false
  owned : s.mdInflight = true → mdInX s = true ∧ s.w.memBeatStall = false

/-- An upper bound for the clocks until the next instruction leaves X. -/
def Core.rank (s : Core P) : Nat :=
  (if s.w.memBeatStall then 1 else 0) +
    if s.f.fxValid then (if (decode s.f.fxInstr).isMd then s.md.left else 0)
    else 40 + if s.f.straddle then 1 else 2

theorem Core.rank_le (s : Core P) : s.rank ≤ 43 := by
  have hleft := s.md.left_le
  unfold rank
  split_ifs <;> omega

namespace Quiet

variable {s : Core P} {i : CoreIn}

theorem dbgFreeze (h : Quiet s) (hi : i.dbgHaltreq = false) : s.dbgFreeze i = false := by
  unfold Core.dbgFreeze Core.stepHaltNow
  rw [Core.ebreakToDebug_of_not_ebreakm h.ebreakm, h.mode, h.haltReq, h.stepActive, hi]
  rfl

theorem dbgResumeNow (h : Quiet s) : s.dbgResumeNow i = false := by
  unfold Core.dbgResumeNow
  rw [h.mode]
  rfl

theorem dbg_step (h : Quiet s) (hi : i.dbgHaltreq = false) :
    (s.step i).dbg.dbgMode = false ∧ (s.step i).dbg.haltReq = false ∧
    (s.step i).dbg.stepActive = false ∧ (s.step i).dbg.dcsrEbreakm = false ∧
    (s.step i).dbg.dpcCapValid = false := by
  have hebr := Core.ebreakToDebug_of_not_ebreakm h.ebreakm
  have hstep : s.stepHaltNow = false := by
    unfold Core.stepHaltNow
    rw [h.stepActive]
    rfl
  rw [Core.dbg_stays h.mode (by rw [h.haltReq]; rfl)]
  refine ⟨h.mode, ?_, h.stepActive, h.ebreakm, ?_⟩
  · show (s.dbg.haltReq || i.dbgHaltreq || s.ebreakToDebug || s.stepHaltNow) = false
    rw [h.haltReq, hi, hebr, hstep]
    rfl
  · show (s.dbg.dpcCapValid || s.ebreakToDebug) = false
    rw [h.captured, hebr]
    rfl

/-- No operation is abandoned. -/
theorem toOwned (h : Quiet s) : Owned s := ⟨h.toHandshake, h.owned⟩

/-- An instruction that waits in X stays there. -/
theorem stalled (h : Quiet s) (hi : i.dbgHaltreq = false) (hfz : s.exFreeze = true) :
    (s.step i).f = s.f :=
  stalled_step h.mode (h.dbgFreeze hi) hfz

/-- **A clock without a halt request.** -/
theorem step (h : Quiet s) (hi : i.dbgHaltreq = false) : Quiet (s.step i) := by
  obtain ⟨hm, hreq, hact, hebr, hcap⟩ := h.dbg_step hi
  have howned := h.toOwned.step (i := i) (fun _ => h.mode) fun _ _ => h.dbgFreeze hi
  exact ⟨howned.toHandshake, hm, hreq, hact, hebr, hcap, howned.owned⟩

/-- A clock in which no instruction leaves X brings the next one closer. -/
theorem rank_step (h : Quiet s) (hi : i.dbgHaltreq = false)
    (hl : (s.xIn i).leaves = false) : (s.step i).rank < s.rank := by
  have hbeat : (s.step i).w.memBeatStall = false := by
    refine beat_step fun hb => ?_
    by_contra hx
    rw [Bool.not_eq_false] at hx
    obtain ⟨hv, hst, -⟩ := Core.xCommit_iff.mp hx
    have hfz := Core.exFreeze_eq_false_iff.mpr ⟨hst, hb⟩
    exact absurd (XIn.leaves_iff (x := s.xIn i).mpr ⟨hv, hfz⟩) (by simp [hl])
  unfold Core.rank
  rw [hbeat, if_neg Bool.false_ne_true, Nat.zero_add]
  cases hv : s.f.fxValid with
  | true =>
    have hfz : s.exFreeze = true := by
      by_contra hfz
      rw [Bool.not_eq_true] at hfz
      exact absurd (XIn.leaves_iff (x := s.xIn i).mpr ⟨hv, hfz⟩) (by simp [hl])
    rw [h.stalled hi hfz, hv, if_pos rfl, if_pos rfl]
    cases hmd : (decode s.f.fxInstr).isMd with
    | false =>
      -- only the first beat of W can hold it
      have hb : s.w.memBeatStall = true := by
        unfold Core.exFreeze at hfz
        rw [Core.mdStall_of_not_md hmd] at hfz
        exact hfz
      rw [hb]
      simp
    | true =>
      have hx := mdInX_iff.mpr ⟨hv, hmd⟩
      cases hd : s.md.done with
      | true =>
        -- the answer is taken in the clock in which it is given
        have hfl : s.mdInflight = true := by rw [h.flight, hd, Bool.or_true]
        have hfree := Core.exFreeze_eq_false_iff.mpr ⟨Core.mdStall_of_done hd, (h.owned hfl).2⟩
        exact absurd (hfree.symm.trans hfz) Bool.false_ne_true
      | false =>
        have hstart : s.md.busy = false → s.mdStart = true := by
          intro hb
          unfold Core.mdStart
          rw [hv, hmd, h.flight, hb, hd]
          rfl
        have hlt := Muldiv.left_step s.md hd s.mdStart (decode s.f.fxInstr).mdOp (s.op1 i)
          (s.op2 i) hstart
        rw [if_pos rfl, if_pos rfl]
        show (s.md.step s.mdStart _ (s.op1 i) (s.op2 i)).left < _
        omega
  | false =>
    rw [if_neg Bool.false_ne_true]
    have hleft := (s.step i).md.left_le
    have hc := s.f.step_clock s.bp.ghist (s.fetchIn i)
    have hf : (s.step i).f = s.f.step s.bp.ghist (s.fetchIn i) := rfl
    rw [hf]
    generalize s.f.step s.bp.ghist (s.fetchIn i) = f' at hc
    cases hc with
    | redirected target hr =>
      exact absurd (XIn.redirect_valid (x := s.xIn i) hr).1 (by
        show ¬ s.f.fxValid = true
        simp [hv])
    | resumed _ hres => exact absurd (h.dbgResumeNow.symm.trans hres) (by simp)
    | frozen _ _ hfz => exact absurd ((h.dbgFreeze hi).symm.trans hfz) (by simp)
    | stalled _ _ _ hst =>
      have hb : s.w.memBeatStall = true := by
        have hst' : s.exFreeze = true := hst
        unfold Core.exFreeze at hst'
        rw [Core.mdStall_of_empty hv] at hst'
        exact hst'
      rw [hv, hb]
      simp
    | straddled _ _ _ _ hs =>
      have hstr : s.f.straddle = false := by
        unfold FStage.needStraddle at hs
        simp only [Bool.and_eq_true, Bool.not_eq_true'] at hs
        exact hs.2
      rw [hstr]
      dsimp only
      simp only [if_true, Bool.false_eq_true, if_false]
      omega
    | accepted =>
      unfold FStage.accept
      dsimp only
      rw [if_pos rfl]
      split <;> split <;> omega

end Quiet

/-! ## Quiet systems -/

namespace Sys

variable {imemWritable : Word → Bool} {s : Sys P} {e : ExtIn} {a : Arch}

theorem irqReq_eq_false (h : e.irq = {}) : (s.xIn e).irqReq = false := by
  show s.core.csr.irqReq e.irq = false
  rw [h]
  unfold Csr.irqReq
  simp

/-- The instruction that leaves X is the one at the architectural PC. -/
theorem Sim.fxInstr_eq (h : s.Sim imemWritable a) (hc : s.commits = true)
    (hclean : a.fetchClean = true) : s.core.f.fxInstr = a.instr := by
  have hl := h.leaves {} hc
  exact ((h.running hl.mode).instr hl.valid hclean).1

/-- Without interrupts and halt requests three things are left that disturb. -/
theorem undisturbed_of_quiet (h : s.Sim imemWritable a) (hq : Quiet s.core) (hirq : e.irq = {})
    (hdbg : e.dbgHaltreq = false) (hclean : s.commits = true → a.fetchClean = true)
    (hchecked : (s.xIn e).stale P = false) (hctr : s.commits = true → a.readsCounter = false) :
    s.Undisturbed e a where
  kept _ _ := hq.dbgFreeze hdbg
  unwritten := by
    rw [Core.dbgDo_of_running hq.mode]
    rfl
  fenced := hclean
  checked := hchecked
  fencei := by
    unfold XIn.fenceiInterrupted
    rw [irqReq_eq_false hirq]
    simp
  counter hc := by
    rw [← hctr hc]
    show ((decode s.core.f.fxInstr).isCsr &&
      Csr.isCounter (s.core.f.fxInstr.extractLsb 31 20) &&
      s.core.f.fxInstr.extractLsb 11 7 != 0#5) = _
    rw [h.fxInstr_eq hc (hclean hc)]
    rfl

/-- The label of an instruction outside the M extension is empty. -/
theorem label_eq (h : s.Sim imemWritable a) (hirq : e.irq = {}) (hc : s.commits = true)
    (hclean : a.fetchClean = true) (hmd : a.isMd = false) : s.label e = {} := by
  have hmd' : (s.xIn e).dec.isMd = false := by
    show (decode s.core.f.fxInstr).isMd = false
    rw [h.fxInstr_eq hc hclean]
    exact hmd
  unfold label
  rw [irqReq_eq_false hirq, hmd', hirq]
  rfl

end Sys

end ThreeSippEs
