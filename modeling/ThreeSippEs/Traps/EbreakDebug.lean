import ThreeSippEs.Traps.Cause
import ThreeSippEs.Traps.DebugTrigger
import ThreeSippEs.Traps.Precise

/-!
# EBREAK with `dcsr.ebreakm`

An EBREAK goes to Debug Mode when `dcsr.ebreakm` is set. The debug controller
looks for the instruction word, the trap logic for the decoder's flag, and the
decoder knows EBREAK by its `funct12` alone. Neither looks at the other.

- `EntersDebug`, `TakesTrap`: the two things an EBREAK may do;
- `exclusive_iff`: when it does exactly one of them.
-/

namespace ThreeSippEs

open Clocked

variable {P : Params} {imemWritable : Word → Bool}

namespace EbreakDebug

/-- From `s` on, the next thing that happens is Debug Mode in clock `m`, for the
EBREAK that is in X in `s`. -/
structure HaltsAt (imemWritable : Word → Bool) (s : Sys P) (ins : Nat → ExtIn) (m : Nat) :
    Prop where
  mode : (run (Sys.step imemWritable) s ins m).core.dbg.dbgMode = true
  first : ∀ k < m, (run (Sys.step imemWritable) s ins k).core.dbg.dbgMode = false
  dpc : (run (Sys.step imemWritable) s ins m).core.dbg.dpc = s.core.f.fxPc
  cause : (run (Sys.step imemWritable) s ins m).core.dbg.dcsrCause = 1#3
  /-- no exception is taken, and nothing leaves X -/
  untrapped : ∀ k < m, ((run (Sys.step imemWritable) s ins k).xIn (ins k)).exTrap P = true →
    (run (Sys.step imemWritable) s ins k).core.exFreeze = true
  silent : ∀ k < m, (run (Sys.step imemWritable) s ins k).commits = false
  /-- registers and memories are as W leaves them, the CSR files keep their state -/
  data : (run (Sys.step imemWritable) s ins m).backend.data = s.backend.drained imemWritable
  csr : (run (Sys.step imemWritable) s ins m).core.csr.uncounted = s.core.csr.uncounted
  ucsr : (run (Sys.step imemWritable) s ins m).core.ucsr = s.core.ucsr

def EntersDebug (imemWritable : Word → Bool) (s : Sys P) (ins : Nat → ExtIn) : Prop :=
  ∃ m, HaltsAt imemWritable s ins m

/-- The EBREAK in X in `s` waits there until clock `m`, takes an exception in it,
and asks for no halt. -/
structure TrapsAt (imemWritable : Word → Bool) (s : Sys P) (ins : Nat → ExtIn) (m : Nat) :
    Prop where
  waits : ∀ k < m, (run (Sys.step imemWritable) s ins k).core.exFreeze = true
  same : ∀ k ≤ m, (run (Sys.step imemWritable) s ins k).core.f.fxValid = true ∧
    (run (Sys.step imemWritable) s ins k).core.f.fxPc = s.core.f.fxPc ∧
    (run (Sys.step imemWritable) s ins k).core.f.fxInstr = s.core.f.fxInstr
  leaves : (run (Sys.step imemWritable) s ins m).core.exFreeze = false
  trap : ((run (Sys.step imemWritable) s ins m).xIn (ins m)).exTrap P = true
  entry : PreciseTraps.Precise imemWritable (run (Sys.step imemWritable) s ins m) (ins m)
  undebugged : ∀ k ≤ m, (run (Sys.step imemWritable) s ins k).core.ebreakToDebug = false

def TakesTrap (imemWritable : Word → Bool) (s : Sys P) (ins : Nat → ExtIn) : Prop :=
  ∃ m, TrapsAt imemWritable s ins m

/-- Exactly one of the two. -/
def Exclusive (imemWritable : Word → Bool) (s : Sys P) (ins : Nat → ExtIn) : Prop :=
  (EntersDebug imemWritable s ins ∧ ¬ TakesTrap imemWritable s ins) ∨
    (TakesTrap imemWritable s ins ∧ ¬ EntersDebug imemWritable s ins)

/-- The instruction in X takes an exception once nothing holds it there. -/
def wouldTrap (P : Params) (x : XIn) : Bool := { x with exFreeze := false }.exTrap P

/-- The EBREAK word with `rd` and `rs1` zero meets no exception, unless W holds it
in X for that clock. An EBREAK with other register fields takes an exception, and
no halt drops it while W holds it in X. -/
def Clean (s : Core P) (i : CoreIn) : Prop :=
  if s.f.fxInstr = 0x00100073#32 then s.exFreeze = true ∨ wouldTrap P (s.xIn i) = false
  else wouldTrap P (s.xIn i) = true ∧ (s.exFreeze = true → s.dbgFreeze i = false)

instance (s : Core P) (i : CoreIn) : Decidable (Clean s i) := by
  unfold Clean
  infer_instance

/-- An EBREAK in X of a running core with `dcsr.ebreakm`, and no halt under way. -/
structure InX (s : Core P) : Prop where
  valid : s.f.fxValid = true
  brk : (decode s.f.fxInstr).isEbreak = true
  ebreakm : s.dbg.dcsrEbreakm = true
  mode : s.dbg.dbgMode = false
  haltReq : s.dbg.haltReq = false
  captured : s.dbg.dpcCapValid = false

/-! ## The exceptions of an EBREAK -/

section Exceptions

variable {x : XIn}

/-- Without an access the match loop does not look at the address. -/
theorem matchAll_addr (t : Trig) (pc a b : Word) :
    t.matchAll pc a false false = t.matchAll pc b false false := by
  have hslot : ∀ acc g, t.matchSlot pc a false false acc g = t.matchSlot pc b false false acc g := by
    intro acc g
    unfold Trig.matchSlot
    simp only [Bool.and_false, Bool.or_self, Bool.false_and, Bool.false_eq_true, if_false]
  unfold Trig.matchAll
  rw [hslot, hslot]

/-- The triggers on its PC. -/
def pcMatch (x : XIn) : Trig.Match := x.trig.matchAll x.fxPc 0#32 false false

/-- An EBREAK with `ebreakm` takes an exception for its fetch or a trigger only. -/
theorem exTrap_of_ebreak (hv : x.fxValid = true) (hfz : x.exFreeze = false)
    (hbrk : x.dec.isEbreak = true) (hm : x.dcsrEbreakm = true) (hdbg : x.dbgMode = false) :
    x.exTrap P =
      ((x.accFetchFault P || ((pcMatch x).exec || (pcMatch x).ldst) && !(pcMatch x).action) &&
        !(((pcMatch x).exec || (pcMatch x).ldst) && (pcMatch x).action)) := by
  have hq : Cause.Quiet P x := Cause.quiet_of_system ((Bool.or_eq_true ..).mpr (Or.inr hbrk))
  have hacc := hq.fault
  rw [Bool.or_eq_false_iff] at hacc
  have hecall : x.dec.isEcall = false := by
    by_contra hecall
    rw [Bool.not_eq_false] at hecall
    exact absurd ((Cause.system_ecall _ hecall).symm.trans hbrk) (by decide)
  have hmatch : x.trigMatch = pcMatch x := by
    unfold XIn.trigMatch XIn.trigChkValid
    rw [hv, hfz, hdbg, hq.re, hq.we]
    exact matchAll_addr _ _ _ _
  unfold XIn.exTrap XIn.archTrap XIn.trigToExc XIn.trigToDebug XIn.trigFire XIn.accFault
  rw [hq.legal, hacc.1, hacc.2, hmatch, hv, hm, hecall, hbrk]
  simp

/-- So it would. -/
theorem wouldTrap_eq (hv : x.fxValid = true) (hbrk : x.dec.isEbreak = true)
    (hm : x.dcsrEbreakm = true) (hdbg : x.dbgMode = false) :
    wouldTrap P x =
      ((x.accFetchFault P || ((pcMatch x).exec || (pcMatch x).ldst) && !(pcMatch x).action) &&
        !(((pcMatch x).exec || (pcMatch x).ldst) && (pcMatch x).action)) :=
  exTrap_of_ebreak (x := { x with exFreeze := false }) hv rfl hbrk hm hdbg

theorem wouldTrap_of_unfrozen (h : x.exFreeze = false) : wouldTrap P x = x.exTrap P := by
  unfold wouldTrap
  rw [← h]

end Exceptions

/-! ## One clock -/

section Step

variable {s : Sys P} {e : ExtIn}

/-- Nothing moves while X is empty and no debugger is there. -/
theorem csr_step_of_empty (hv : s.core.f.fxValid = false) (hm : s.core.dbg.dbgMode = false) :
    (s.step imemWritable e).core.csr.uncounted = s.core.csr.uncounted ∧
    (s.step imemWritable e).core.ucsr = s.core.ucsr := by
  have hl : (s.xIn e).leaves = false := by
    unfold XIn.leaves
    rw [show (s.xIn e).fxValid = false from hv]
    rfl
  have hidle : (s.xIn e).Idle P := XIn.idle hl fun h => absurd (hm.symm.trans h) (by decide)
  obtain ⟨hcsr, hucsr, -⟩ := hidle.keeps s.core.w.retireValid
  refine ⟨?_, hucsr⟩
  show ((s.xIn e).csrNext P s.core.w.retireValid).uncounted = _
  rw [hcsr]
  rfl

/-- W works off what it holds while X hands over nothing. -/
theorem drained_step (hm : s.core.dbg.dbgMode = false) (hc : s.commits = false) :
    (s.step imemWritable e).backend.drained imemWritable = s.backend.drained imemWritable := by
  refine (Sys.drained_stutter ?_ hc).1
  rw [Core.dbgDo_of_running hm]
  rfl

theorem commits_of_empty (hv : s.core.f.fxValid = false) : s.commits = false := by
  unfold Sys.commits
  rw [Core.xCommit_of_empty hv]
  rfl

/-- An EBREAK that does not halt and is not held back goes on to W. -/
theorem commits_of_other (hx : InX s.core) (hne : s.core.ebreakToDebug = false)
    (hfz : s.core.exFreeze = false) : s.commits = true := by
  obtain ⟨hmd, hbeat⟩ := Core.exFreeze_eq_false_iff.mp hfz
  unfold Sys.commits
  rw [hbeat, Core.xCommit_iff.mpr ⟨hx.valid, hmd, hne⟩]
  rfl

theorem ebreakToDebug_eq (hx : InX s.core) :
    s.core.ebreakToDebug = (s.core.f.fxInstr == 0x00100073#32) := by
  unfold Core.ebreakToDebug
  rw [hx.valid, hx.ebreakm, hx.mode]
  simp

/-- An EBREAK does not wait for the M unit. -/
theorem memBeatStall_of_exFreeze (hx : InX s.core) (hfz : s.core.exFreeze = true) :
    s.core.w.memBeatStall = true := by
  have hsys := (decode_classes s.core.f.fxInstr).sys (by rw [hx.brk]; simp)
  have hmd : (decode s.core.f.fxInstr).isMd = false := hsys.2.2.2.2.2.1
  unfold Core.exFreeze at hfz
  rw [Core.mdStall_of_not_md hmd, Bool.false_or] at hfz
  exact hfz

variable (imemWritable) in
/-- Held in X without a halt, it is there in the next clock, and leaves in it. -/
theorem waits (hx : InX s.core) (hne : s.core.ebreakToDebug = false)
    (hfz : s.core.exFreeze = true) (hrun : s.core.dbgFreeze (s.coreIn e) = false) :
    InX (s.step imemWritable e).core ∧ (s.step imemWritable e).core.f = s.core.f ∧
    (s.step imemWritable e).core.exFreeze = false ∧
    (s.step imemWritable e).core.csr.uncounted = s.core.csr.uncounted ∧
    (s.step imemWritable e).core.trig = s.core.trig := by
  have hl : (s.xIn e).leaves = false := by
    unfold XIn.leaves
    rw [show (s.xIn e).exFreeze = true from hfz]
    exact Bool.and_false _
  have hidle : (s.xIn e).Idle P :=
    XIn.idle hl fun h => absurd (hx.mode.symm.trans h) (by decide)
  obtain ⟨hcsr, -, htrig⟩ := hidle.keeps s.core.w.retireValid
  have hf : (s.step imemWritable e).core.f = s.core.f := by
    refine FStage.step_of_stall (i := s.core.fetchIn (s.coreIn e)) hidle.redirect ?_ hrun hfz
    show (s.core.dbg.dbgMode && _) = false
    rw [hx.mode]
    rfl
  have hbeat := memBeatStall_of_exFreeze hx hfz
  have hdbg : (s.step imemWritable e).core.dbg = s.core.dbgRunning (s.coreIn e) :=
    Core.dbg_stays hx.mode (by rw [hx.haltReq]; rfl)
  unfold Core.dbgFreeze at hrun
  simp only [Bool.or_eq_false_iff] at hrun
  obtain ⟨⟨⟨⟨-, -⟩, hext⟩, -⟩, hnow⟩ := hrun
  have hx' : InX (s.step imemWritable e).core := by
    refine ⟨by rw [hf]; exact hx.valid, by rw [hf]; exact hx.brk, by rw [hdbg]; exact hx.ebreakm,
      by rw [hdbg]; exact hx.mode, ?_, ?_⟩
    · rw [hdbg]
      show (s.core.dbg.haltReq || (s.coreIn e).dbgHaltreq || s.core.ebreakToDebug ||
        s.core.stepHaltNow) = false
      rw [hx.mode, Bool.not_false, Bool.and_true] at hext
      rw [hx.haltReq, hext, hne, hnow]
      rfl
    · rw [hdbg]
      show (s.core.dbg.dpcCapValid || s.core.ebreakToDebug) = false
      rw [hx.captured, hne]
      rfl
  refine ⟨hx', hf, ?_, ?_, htrig⟩
  · -- the second beat is the last one
    have hw : (s.step imemWritable e).core.w =
        s.core.w.step (s.coreIn e).dmemRdata s.core.xCommit ((s.xIn e).xwNext P) := rfl
    by_contra hfz'
    rw [Bool.not_eq_false] at hfz'
    have hbeat' := memBeatStall_of_exFreeze hx' hfz'
    have h2 := WStage.beat2_of_memBeatStall _ hbeat'
    rw [hw, (s.core.w.step_of_stall hbeat _ _ _).2.2] at h2
    exact absurd h2 (by decide)
  · show ((s.xIn e).csrNext P s.core.w.retireValid).uncounted = _
    rw [hcsr]
    rfl

variable (imemWritable) in
/-- Waiting changes nothing about its exceptions. -/
theorem exTrap_waits (hx : InX s.core) (hne : s.core.ebreakToDebug = false)
    (hfz : s.core.exFreeze = true) (hrun : s.core.dbgFreeze (s.coreIn e) = false) (e' : ExtIn) :
    ((s.step imemWritable e).xIn e').exTrap P = wouldTrap P (s.xIn e) := by
  obtain ⟨hx', hf, hfz', hcsr, htrig⟩ := waits imemWritable hx hne hfz hrun
  have hfetch : ((s.step imemWritable e).xIn e').accFetchFault P = (s.xIn e).accFetchFault P := by
    show (P.secure && (s.step imemWritable e).core.f.fxValid &&
      XIn.pmpFault (s.step imemWritable e).core.csr.uncounted (s.step imemWritable e).core.f.fxPc
        { privM := (s.step imemWritable e).core.csr.uncounted.fetchM, doX := true }) = _
    rw [hf, hcsr]
    rfl
  have hmatch : pcMatch ((s.step imemWritable e).xIn e') = pcMatch (s.xIn e) := by
    show (s.step imemWritable e).core.trig.matchAll (s.step imemWritable e).core.f.fxPc _ _ _ = _
    rw [htrig, hf]
    rfl
  rw [exTrap_of_ebreak (x := (s.step imemWritable e).xIn e') hx'.valid hfz' hx'.brk hx'.ebreakm
    hx'.mode, wouldTrap_eq (x := s.xIn e) hx.valid hx.brk hx.ebreakm hx.mode, hfetch, hmatch]

end Step

/-! ## The clocks after it -/

section Run

variable {s : Sys P} {ins : Nat → ExtIn}

variable (imemWritable) in
/-- With a halt requested and X empty, Debug Mode is the next thing that happens. -/
theorem drained_from (ins : Nat → ExtIn) (hm : s.core.dbg.dbgMode = false) (hreq : s.core.dbg.haltReq = true)
    (hv : s.core.f.fxValid = false) :
    ∃ m, 0 < m ∧ (∀ j ≤ m, (run (Sys.step imemWritable) s ins j).core.f.fxValid = false) ∧
      (∀ j < m, (run (Sys.step imemWritable) s ins j).core.dbg.dbgMode = false) ∧
      (run (Sys.step imemWritable) s ins m).core.dbg.dbgMode = true ∧
      (run (Sys.step imemWritable) s ins m).core.dbg.dpc =
        (if s.core.dbg.dpcCapValid then s.core.dbg.dpcCap else s.core.f.pc) ∧
      (run (Sys.step imemWritable) s ins m).core.dbg.dcsrCause =
        (if s.core.dbg.dpcCapValid then 1#3 else if s.core.dbg.stepActive then 4#3 else 3#3) ∧
      (run (Sys.step imemWritable) s ins m).backend.data = s.backend.drained imemWritable ∧
      (run (Sys.step imemWritable) s ins m).core.csr.uncounted = s.core.csr.uncounted ∧
      (run (Sys.step imemWritable) s ins m).core.ucsr = s.core.ucsr := by
  obtain ⟨m, hpos, -, hempty, hrun, hmode, hdpc, hcause⟩ :=
    Core.drains s.core (fun k => (run (Sys.step imemWritable) s ins k).coreIn (ins k)) hm hreq hv
  simp only [← Sys.core_run imemWritable s ins] at hempty hrun hmode hdpc hcause
  -- nothing moves in any clock before
  let busy : Nat → Bool := fun k => decide (m ≤ k)
  have hlt : ∀ k, busy k = false → k < m := fun k hk => by
    have hk' := of_decide_eq_false hk
    omega
  have hno : ∀ k, 0 ≤ k → k < m → busy k = false := fun k _ hk => decide_eq_false (by omega)
  have hdata := unchanged (c := busy)
    (f := fun k => (run (Sys.step imemWritable) s ins k).backend.drained imemWritable)
    (fun k hk => drained_step (hrun k (hlt k hk))
      (commits_of_empty (hempty k (Nat.le_of_lt (hlt k hk))))) (Nat.zero_le m) hno
  have hcsr := unchanged (c := busy)
    (f := fun k => (run (Sys.step imemWritable) s ins k).core.csr.uncounted)
    (fun k hk => (csr_step_of_empty (hempty k (Nat.le_of_lt (hlt k hk)))
      (hrun k (hlt k hk))).1) (Nat.zero_le m) hno
  have hucsr := unchanged (c := busy)
    (f := fun k => (run (Sys.step imemWritable) s ins k).core.ucsr)
    (fun k hk => (csr_step_of_empty (hempty k (Nat.le_of_lt (hlt k hk)))
      (hrun k (hlt k hk))).2) (Nat.zero_le m) hno
  refine ⟨m, hpos, hempty, hrun, hmode, hdpc, hcause, ?_, hcsr, hucsr⟩
  -- W is empty when Debug Mode is entered
  obtain ⟨j, rfl⟩ := Nat.exists_eq_succ_of_ne_zero (Nat.pos_iff_ne_zero.mp hpos)
  have hw : (run (Sys.step imemWritable) s ins (j + 1)).backend.w.xwValid = false := by
    rcases Core.dbgMode_step _ _ hmode with hm' | ⟨-, hx, hxw⟩
    · exact absurd ((hrun j (Nat.lt_succ_self j)).symm.trans hm') (by decide)
    · exact Core.xwValid_of_drained _ _ hx hxw
  rw [← (Backend.drained_empty imemWritable hw).1]
  exact hdata

variable (hx : InX s.core)
include hx

/-- The EBREAK word enters Debug Mode unless it takes an exception. -/
theorem haltsAt_of_ebreak (hebr : s.core.ebreakToDebug = true)
    (htrap : (s.xIn (ins 0)).exTrap P = true → s.core.exFreeze = true) :
    EntersDebug imemWritable s ins := by
  have hm := hx.mode
  have hfree : s.core.exFreeze = false → (s.xIn (ins 0)).exTrap P = false := by
    intro hfz
    by_contra ht
    rw [Bool.not_eq_false] at ht
    exact absurd (hfz.symm.trans (htrap ht)) (by decide)
  obtain ⟨-, hm', hreq, hcapv, hcap⟩ :=
    DebugTrigger.dbg_step_of_ebreak (s := s.core) (i := s.coreIn (ins 0)) hebr
  obtain ⟨hcsr, hucsr, -⟩ :=
    DebugTrigger.csr_step_of_ebreak (s := s.core) (i := s.coreIn (ins 0)) hebr hfree hm
  have hv' := Core.fxValid_of_dbgFreeze s.core (s.coreIn (ins 0))
    (Core.dbgFreeze_of_ebreakToDebug hebr)
  have hcommit : s.commits = false := by
    unfold Sys.commits
    rw [Core.xCommit_of_ebreakToDebug hebr]
    rfl
  obtain ⟨m, hpos, hempty, hrun, hmode, hdpc, hcause, hdata, hcsrm, hucsrm⟩ :=
    drained_from (s := s.step imemWritable (ins 0)) imemWritable (fun k => ins (1 + k)) hm' hreq
      hv'
  have hshift : ∀ j, run (Sys.step imemWritable) s ins (1 + j) =
      run (Sys.step imemWritable) (s.step imemWritable (ins 0)) (fun k => ins (1 + k)) j :=
    run_add (Sys.step imemWritable) s ins 1
  have hcapv' : (s.step imemWritable (ins 0)).core.dbg.dpcCapValid = true := hcapv
  rw [hcapv', if_pos rfl] at hdpc hcause
  refine ⟨1 + m, ?_, ?_, ?_, ?_, ?_, ?_, ?_, ?_, ?_⟩
  · rw [hshift]
    exact hmode
  · intro k hk
    cases k with
    | zero => exact hm
    | succ k =>
      rw [Nat.add_comm k 1, hshift]
      exact hrun k (by omega)
  · rw [hshift, hdpc]
    exact hcap
  · rw [hshift]
    exact hcause
  · intro k hk ht
    cases k with
    | zero => exact htrap ht
    | succ k =>
      have hv := hempty k (by omega)
      rw [← hshift, Nat.add_comm] at hv
      exact absurd (hv.symm.trans (XIn.exTrap_valid ht)) (by decide)
  · intro k hk
    cases k with
    | zero => exact hcommit
    | succ k =>
      rw [Nat.add_comm k 1, hshift]
      exact commits_of_empty (hempty k (by omega))
  · rw [hshift, hdata]
    exact drained_step hm hcommit
  · rw [hshift, hcsrm]
    show (s.core.step (s.coreIn (ins 0))).csr.uncounted = _
    rw [hcsr]
    rfl
  · rw [hshift, hucsrm]
    exact hucsr

/-- A halt for it takes at least a clock, in which it does not go on to W. -/
theorem HaltsAt.leaves {m : Nat} (h : HaltsAt imemWritable s ins m) :
    0 < m ∧ s.commits = false := by
  have hpos : 0 < m := by
    by_contra h0
    obtain rfl : m = 0 := by omega
    exact absurd (hx.mode.symm.trans h.mode) (by decide)
  exact ⟨hpos, h.silent 0 hpos⟩

variable (imemWritable) (ins) in
/-- An exception that it takes at once is precise. -/
theorem trapsAt_now (hne : s.core.ebreakToDebug = false) (hfz : s.core.exFreeze = false)
    (ht : (s.xIn (ins 0)).exTrap P = true) : TrapsAt imemWritable s ins 0 := by
  refine ⟨fun k hk => absurd hk (Nat.not_lt_zero k), fun k hk => ?_, hfz, ht, ?_, fun k hk => ?_⟩
  · obtain rfl := Nat.le_zero.mp hk
    exact ⟨hx.valid, rfl, rfl⟩
  · refine (PreciseTraps.precise_iff_uretKeeps ht hfz hx.mode).mpr fun huret => ?_
    have hbrk : (decode (s.xIn (ins 0)).fxInstr).isEbreak = true := hx.brk
    rw [(XIn.fxInstr_of_isUret huret).2] at hbrk
    exact absurd hbrk (by decide)
  · obtain rfl := Nat.le_zero.mp hk
    exact hne

/-- The EBREAK word asks for the halt, so an exception is one thing too many. -/
theorem exclusive_of_word (hebr : s.core.ebreakToDebug = true) :
    Exclusive imemWritable s ins ↔
      (s.core.exFreeze = true ∨ wouldTrap P (s.xIn (ins 0)) = false) := by
  have hno : ¬ TakesTrap imemWritable s ins := by
    rintro ⟨m, h⟩
    exact absurd (hebr.symm.trans (h.undebugged 0 (Nat.zero_le m))) (by decide)
  have htrap : (s.core.exFreeze = true ∨ wouldTrap P (s.xIn (ins 0)) = false) ↔
      ((s.xIn (ins 0)).exTrap P = true → s.core.exFreeze = true) := by
    cases hfz : s.core.exFreeze with
    | true => exact ⟨fun _ _ => rfl, fun _ => Or.inl rfl⟩
    | false =>
      rw [wouldTrap_of_unfrozen (x := s.xIn (ins 0)) hfz]
      simp
  rw [htrap]
  constructor
  · rintro (⟨⟨m, h⟩, -⟩ | ⟨ht, -⟩)
    · exact h.untrapped 0 (h.leaves hx).1
    · exact absurd ht hno
  · exact fun h => Or.inl ⟨haltsAt_of_ebreak hx hebr h, hno⟩

/-- Any other EBREAK goes on to W, so only an exception keeps it from being a no-op. -/
theorem exclusive_of_other (hne : s.core.ebreakToDebug = false) (hfz : s.core.exFreeze = false) :
    Exclusive imemWritable s ins ↔ wouldTrap P (s.xIn (ins 0)) = true := by
  have hno : ¬ EntersDebug imemWritable s ins := by
    rintro ⟨m, h⟩
    exact absurd ((commits_of_other hx hne hfz).symm.trans (h.leaves hx).2) (by decide)
  rw [wouldTrap_of_unfrozen (x := s.xIn (ins 0)) hfz]
  constructor
  · rintro (⟨hd, -⟩ | ⟨⟨m, h⟩, -⟩)
    · exact absurd hd hno
    · cases m with
      | zero => exact h.trap
      | succ m => exact absurd (hfz.symm.trans (h.waits 0 (Nat.succ_pos m))) (by decide)
  · exact fun ht => Or.inr ⟨⟨0, trapsAt_now imemWritable ins hx hne hfz ht⟩, hno⟩

/-- Held in X, it does so one clock later. -/
theorem exclusive_of_waiting (hne : s.core.ebreakToDebug = false) (hfz : s.core.exFreeze = true)
    (hrun : s.core.dbgFreeze (s.coreIn (ins 0)) = false) :
    Exclusive imemWritable s ins ↔ wouldTrap P (s.xIn (ins 0)) = true := by
  obtain ⟨hx', hf, hfz', -⟩ := waits imemWritable hx hne hfz hrun
  have hne' : (s.step imemWritable (ins 0)).core.ebreakToDebug = false := by
    rw [ebreakToDebug_eq hx', hf, ← ebreakToDebug_eq hx]
    exact hne
  have hnext : run (Sys.step imemWritable) s ins 1 = s.step imemWritable (ins 0) := rfl
  have hno : ¬ EntersDebug imemWritable s ins := by
    rintro ⟨m, h⟩
    have hpos := (h.leaves hx).1
    have h1 : 1 < m := by
      by_contra hle
      obtain rfl : m = 1 := by omega
      exact absurd (hx'.mode.symm.trans h.mode) (by decide)
    exact absurd ((commits_of_other hx' hne' hfz').symm.trans (h.silent 1 h1)) (by decide)
  rw [← exTrap_waits imemWritable hx hne hfz hrun (ins 1)]
  constructor
  · rintro (⟨hd, -⟩ | ⟨⟨m, h⟩, -⟩)
    · exact absurd hd hno
    · rcases Nat.lt_trichotomy m 1 with hm | rfl | hm
      · obtain rfl : m = 0 := by omega
        exact absurd (hfz.symm.trans h.leaves) (by decide)
      · exact h.trap
      · exact absurd (hfz'.symm.trans (h.waits 1 hm)) (by decide)
  · intro ht
    have hnow := trapsAt_now imemWritable (fun k => ins (1 + k)) hx' hne' hfz' ht
    refine Or.inr ⟨⟨1, fun k hk => ?_, fun k hk => ?_, hfz', ht, hnow.entry, fun k hk => ?_⟩, hno⟩
    · obtain rfl : k = 0 := by omega
      exact hfz
    · rcases Nat.le_one_iff_eq_zero_or_eq_one.mp hk with rfl | rfl
      · exact ⟨hx.valid, rfl, rfl⟩
      · rw [hnext, hf]
        exact ⟨hx.valid, rfl, rfl⟩
    · rcases Nat.le_one_iff_eq_zero_or_eq_one.mp hk with rfl | rfl
      · exact hne
      · exact hne'

/-- Dropped from X by a halt that somebody else asked for, it does neither. -/
theorem exclusive_of_dropped (hne : s.core.ebreakToDebug = false) (hfz : s.core.exFreeze = true)
    (hhalt : s.core.dbgFreeze (s.coreIn (ins 0)) = true) : ¬ Exclusive imemWritable s ins := by
  have hv' : (s.step imemWritable (ins 0)).core.f.fxValid = false :=
    Core.fxValid_of_dbgFreeze _ _ hhalt
  have hdbg : (s.step imemWritable (ins 0)).core.dbg = s.core.dbgRunning (s.coreIn (ins 0)) :=
    Core.dbg_stays hx.mode (by rw [hx.haltReq]; rfl)
  have hm' : (s.step imemWritable (ins 0)).core.dbg.dbgMode = false := by
    rw [hdbg]
    exact hx.mode
  have hreq : (s.step imemWritable (ins 0)).core.dbg.haltReq = true := by
    rw [hdbg]
    show (s.core.dbg.haltReq || (s.coreIn (ins 0)).dbgHaltreq || s.core.ebreakToDebug ||
      s.core.stepHaltNow) = true
    unfold Core.dbgFreeze at hhalt
    rw [hx.mode] at hhalt
    simpa using hhalt
  have hcap : (s.step imemWritable (ins 0)).core.dbg.dpcCapValid = false := by
    rw [hdbg]
    show (s.core.dbg.dpcCapValid || s.core.ebreakToDebug) = false
    rw [hx.captured, hne]
    rfl
  obtain ⟨m, hpos, -, hrun, hmode, -, hcause, -⟩ :=
    drained_from imemWritable (fun k => ins (1 + k)) hm' hreq hv'
  have hshift : ∀ j, run (Sys.step imemWritable) s ins (1 + j) =
      run (Sys.step imemWritable) (s.step imemWritable (ins 0)) (fun k => ins (1 + k)) j :=
    run_add (Sys.step imemWritable) s ins 1
  rw [hcap, if_neg Bool.false_ne_true] at hcause
  rintro (⟨⟨m', h⟩, -⟩ | ⟨⟨m', h⟩, -⟩)
  · -- Debug Mode is entered once, and not for an EBREAK
    obtain ⟨j, rfl⟩ := Nat.exists_eq_add_of_le (Nat.succ_le_of_lt (h.leaves hx).1)
    have hj : j = m := by
      rcases Nat.lt_trichotomy j m with hlt | heq | hlt
      · have h1 := h.mode
        rw [hshift] at h1
        exact absurd ((hrun j hlt).symm.trans h1) (by decide)
      · exact heq
      · have h1 := h.first (1 + m) (by omega)
        rw [hshift] at h1
        exact absurd (h1.symm.trans hmode) (by decide)
    subst hj
    have h1 := h.cause
    rw [hshift, hcause] at h1
    revert h1
    split <;> decide
  · cases m' with
    | zero => exact absurd (hfz.symm.trans h.leaves) (by decide)
    | succ m' =>
      have h1 := (h.same 1 (by omega)).1
      exact absurd (hv'.symm.trans h1) (by decide)

theorem exclusive_iff_clean :
    Exclusive imemWritable s ins ↔ Clean s.core (s.coreIn (ins 0)) := by
  have hword := ebreakToDebug_eq hx
  unfold Clean
  split
  case isTrue h =>
    rw [h] at hword
    exact exclusive_of_word hx hword
  case isFalse h =>
    have hne : s.core.ebreakToDebug = false := hword.trans (beq_eq_false_iff_ne.mpr h)
    cases hfz : s.core.exFreeze with
    | false =>
      rw [exclusive_of_other hx hne hfz]
      exact ⟨fun h => ⟨h, fun hc => absurd hc (by decide)⟩, And.left⟩
    | true =>
      cases hhalt : s.core.dbgFreeze (s.coreIn (ins 0)) with
      | false =>
        rw [exclusive_of_waiting hx hne hfz hhalt]
        exact ⟨fun h => ⟨h, fun _ => rfl⟩, And.left⟩
      | true =>
        exact ⟨fun h => absurd h (exclusive_of_dropped hx hne hfz hhalt), fun h => absurd (h.2 rfl)
          (by decide)⟩

end Run

/-! ## In every reachable state -/

/-- A halt under way leaves nothing in X. -/
theorem empty_of_haltReq (s₀ : Core P) (i₀ : CoreIn) (ins : Nat → CoreIn) (n : Nat)
    (h : (Core.runFrom s₀ i₀ ins n).dbg.haltReq = true) :
    (Core.runFrom s₀ i₀ ins n).f.fxValid = false := by
  cases n with
  | zero => exact absurd h Bool.false_ne_true
  | succ n =>
    refine Core.fxValid_of_dbgFreeze _ _ ?_
    cases hm : (Core.runFrom s₀ i₀ ins n).dbg.dbgMode with
    | true => exact Core.dbgFreeze_of_dbgMode hm
    | false =>
      cases hd : ((Core.runFrom s₀ i₀ ins n).dbg.haltReq &&
        (Core.runFrom s₀ i₀ ins n).pipeDrained) with
      | true => exact Core.dbgFreeze_of_haltReq (Bool.and_eq_true .. ▸ hd).1
      | false =>
        have hdbg := Core.dbg_stays (i := ins n) hm hd
        have hreq : (Core.runFrom s₀ i₀ ins (n + 1)).dbg.haltReq =
            ((Core.runFrom s₀ i₀ ins n).dbg.haltReq || (ins n).dbgHaltreq ||
              (Core.runFrom s₀ i₀ ins n).ebreakToDebug ||
              (Core.runFrom s₀ i₀ ins n).stepHaltNow) := congrArg Dbg.haltReq hdbg
        rw [hreq] at h
        unfold Core.dbgFreeze
        rw [hm]
        simpa using h

/-- **When an EBREAK does exactly one thing**, in every reachable state with
`dcsr.ebreakm` and an EBREAK in X: the word with zero register fields exactly when
no exception meets it in the clock in which it is free to leave; any other EBREAK
exactly when an exception does, and no halt drops it first. -/
theorem exclusive_iff (s₀ : Sys P) (e₀ : ExtIn) (ins : Nat → ExtIn) (n : Nat)
    (hv : (run (Sys.step imemWritable) (s₀.reset imemWritable e₀) ins n).core.f.fxValid = true)
    (hbrk : (decode (run (Sys.step imemWritable) (s₀.reset imemWritable e₀) ins
      n).core.f.fxInstr).isEbreak = true)
    (hm : (run (Sys.step imemWritable) (s₀.reset imemWritable e₀) ins n).core.dbg.dcsrEbreakm =
      true) :
    Exclusive imemWritable (run (Sys.step imemWritable) (s₀.reset imemWritable e₀) ins n)
        (fun k => ins (n + k)) ↔
      Clean (run (Sys.step imemWritable) (s₀.reset imemWritable e₀) ins n).core
        ((run (Sys.step imemWritable) (s₀.reset imemWritable e₀) ins n).coreIn (ins n)) := by
  have hcore := @Sys.run_core P imemWritable s₀ e₀ ins n
  have hreq : (run (Sys.step imemWritable) (s₀.reset imemWritable e₀) ins n).core.dbg.haltReq =
      false := by
    by_contra h
    rw [Bool.not_eq_false, hcore] at h
    have hempty := empty_of_haltReq _ _ _ _ h
    rw [← hcore, hv] at hempty
    exact absurd hempty (by decide)
  have hcap : (run (Sys.step imemWritable) (s₀.reset imemWritable e₀) ins
      n).core.dbg.dpcCapValid = false := by
    by_contra h
    rw [Bool.not_eq_false, hcore] at h
    have hreq' := (Core.answered _ _ _ _).captured h
    rw [← hcore, hreq] at hreq'
    exact absurd hreq' (by decide)
  exact exclusive_iff_clean ⟨hv, hbrk, hm, Sys.running_of_valid s₀ e₀ ins n hv, hreq, hcap⟩

/-- A debugger that sets `ebreakm` and lets the hart run. -/
def ebreakmSet (n : Nat) : ExtIn :=
  ([{ dbgHaltreq := true }, {}, {},
    { dbgArValid := true, dbgArWrite := true, dbgArCsr := true, dbgArRegno := 0x7B0#12
      dbgArWdata := 0x8000#32 }, {},
    { dbgResumereq := true }] : List ExtIn).getD n {}

/-- `instr` at the reset address. -/
def atReset (instr : Word) : Sys {} where
  core := Core.powerUp {}
  mem := { imem := .ofWords [instr], dmem := fun _ => 0#8 }

/-- In clock 7 an EBREAK is in X, and it does one thing. -/
theorem exclusive_iff_ebreak :
    Exclusive (fun _ => false)
      (run (Sys.step fun _ => false) ((atReset 0x00100073#32).reset (fun _ => false) {})
        ebreakmSet 7) (fun k => ebreakmSet (7 + k)) :=
  (exclusive_iff (atReset 0x00100073#32) {} ebreakmSet 7 (by decide +kernel) (by decide +kernel)
    (by decide +kernel)).mpr (by decide +kernel)

/-- With `rd` = x2 it is a no-op. -/
theorem ebreak_with_rd_retires :
    ¬ ∀ (s₀ : Sys {}) (e₀ : ExtIn) (ins : Nat → ExtIn) (n : Nat),
      (run (Sys.step fun _ => false) (s₀.reset (fun _ => false) e₀) ins n).core.f.fxValid = true →
      (decode (run (Sys.step fun _ => false) (s₀.reset (fun _ => false) e₀) ins
        n).core.f.fxInstr).isEbreak = true →
      (run (Sys.step fun _ => false) (s₀.reset (fun _ => false) e₀) ins n).core.dbg.dcsrEbreakm =
        true →
      Exclusive (fun _ => false)
        (run (Sys.step fun _ => false) (s₀.reset (fun _ => false) e₀) ins n)
        (fun k => ins (n + k)) := by
  intro h
  have h' := h (atReset 0x00100173#32) {} ebreakmSet 7 (by decide +kernel) (by decide +kernel)
    (by decide +kernel)
  have hc := (exclusive_iff_clean ⟨by decide +kernel, by decide +kernel, by decide +kernel,
    by decide +kernel, by decide +kernel, by decide +kernel⟩).mp h'
  revert hc
  decide +kernel

end EbreakDebug

end ThreeSippEs
