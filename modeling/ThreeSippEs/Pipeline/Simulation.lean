import ThreeSippEs.Pipeline.Frontend
import ThreeSippEs.Pipeline.MulDivHazard
import ThreeSippEs.Pipeline.XView

/-!
# The pipeline simulates the one-instruction machine

The core with its memories, related to the sequential machine by flushing: the
registers, the reservation and the memory are those W leaves behind, PC is the
address of the instruction in X, or of the one F is fetching.

- `Sys.Sim`: the relation;
- `Sys.Undisturbed`: what a clock must not do, every condition excluding one way
  in which the core departs from the architecture;
- `Sim.commit`: an instruction that leaves X is one step of the sequential machine,
  `Sim.stutter`: every other clock is none;
- `refines_live`: the two as a refinement, with the counters given from outside.
-/

namespace ThreeSippEs

open Clocked

variable {P : Params} {imemWritable : Word → Bool}

/-! ## The front end -/

namespace FStage

/-- Where F went after the instruction in X. -/
def predNext (f : FStage P) : Word :=
  if f.fxPredTaken then f.fxPredTarget else f.fxPc + f.fxLen.setWidth 32

/-- F is about to fetch the next instruction, or its second half. -/
structure Ready (f : FStage P) (a : Arch) : Prop where
  pc : f.pc = a.pc
  straddle : f.straddle = true → f.pc.getLsbD 1 = true ∧
    (a.halfClean f.pc = true →
      a.mem.imem.compAt f.pc = false ∧ f.stradLo = a.mem.imem.half f.pc)

/-- The next instruction is in X, or F is about to fetch it. -/
structure Holds (f : FStage P) (a : Arch) : Prop where
  pc : (if f.fxValid then f.fxPc else f.pc) = a.pc
  next : f.fxValid = true → f.pc = f.predNext
  instr : f.fxValid = true → a.fetchClean = true → f.fxInstr = a.instr ∧ f.fxLen = a.len
  straddle : f.straddle = true → f.fxValid = false ∧ f.pc.getLsbD 1 = true ∧
    (a.halfClean f.pc = true →
      a.mem.imem.compAt f.pc = false ∧ f.stradLo = a.mem.imem.half f.pc)

variable {f : FStage P} {a : Arch}

theorem Holds.ready (h : f.Holds a) (hv : f.fxValid = false) : f.Ready a := by
  refine ⟨?_, fun hs => (h.straddle hs).2⟩
  have hpc := h.pc
  rw [hv, if_neg Bool.false_ne_true] at hpc
  exact hpc

/-- An empty X holds the next instruction when F is ready for it. -/
theorem Ready.holds (h : f.Ready a) : Holds { f with fxValid := false } a where
  pc := h.pc
  next hv := absurd hv Bool.false_ne_true
  instr hv := absurd hv Bool.false_ne_true
  straddle hs := ⟨rfl, h.straddle hs⟩

/-- After a redirect nothing is in flight. -/
theorem holds_of_redirect (f : FStage P) (a : Arch) :
    Holds { f with pc := a.pc, fxValid := false, straddle := false } a where
  pc := rfl
  next hv := absurd hv Bool.false_ne_true
  instr hv := absurd hv Bool.false_ne_true
  straddle hs := absurd hs Bool.false_ne_true

/-- The instruction memory `m` that F reads agrees with the architectural one,
except for bytes written since the last FENCE.I. -/
def Agrees (m : Bytes) (a : Arch) : Prop := ∀ b, a.dirty b = false → m b = a.mem.imem b

theorem Agrees.half {m : Bytes} (hm : Agrees m a) {p : Word} (h : a.halfClean p = true) :
    m.half p = a.mem.imem.half p := by
  unfold Arch.halfClean at h
  simp only [Bool.and_eq_true, Bool.not_eq_true'] at h
  unfold Bytes.half
  rw [hm _ h.1, hm _ h.2]

/-- The first beat of a straddling fetch. -/
theorem Ready.straddled {m : Bytes} (h : f.Ready a) (hm : Agrees m a)
    (hn : f.needStraddle (m.readWord f.imemAddr) = true) :
    Holds { f with
      stradLo := (m.readWord f.imemAddr).extractLsb 31 16, straddle := true, fxValid := false }
      a := by
  obtain ⟨h1, -, hc, hlo⟩ := f.fetch_first m hn
  refine ⟨h.pc, nofun, nofun, fun _ => ⟨rfl, h1, fun hclean => ?_⟩⟩
  have hhalf := hm.half hclean
  refine ⟨?_, hlo.trans hhalf⟩
  unfold Bytes.compAt at hc ⊢
  rw [← hhalf]
  exact hc

/-- **An accepted fetch delivers the instruction at PC**, unless its bytes have
been written since the last FENCE.I. -/
theorem Ready.accepted {m : Bytes} (h : f.Ready a) (hm : Agrees m a)
    (hn : f.needStraddle (m.readWord f.imemAddr) = false) (ghist : BitVec P.ghrBits)
    {i : FetchIn} (hi : i.imemRdata = m.readWord f.imemAddr) : Holds (f.accept ghist i) a := by
  refine ⟨h.pc, fun _ => rfl, fun _ hclean => ?_, nofun⟩
  show f.fetchedInstr i.imemRdata = a.mem.imem.instrAt a.pc ∧
    f.fetchedLen i.imemRdata = a.mem.imem.lenAt a.pc
  unfold Arch.fetchClean at hclean
  simp only [Bool.and_eq_true, Bool.or_eq_true] at hclean
  obtain ⟨hclean, hnext⟩ := hclean
  rw [hi, ← h.pc]
  rw [← h.pc] at hclean hnext
  cases hs : f.straddle with
  | false =>
    obtain ⟨hinstr, hlen⟩ := f.fetch_whole m hs hn
    obtain ⟨hinstr', hlen'⟩ := Bytes.instrAt_congr (hm.half hclean) fun hc =>
      hm.half (hnext.resolve_left (by simp [hc]))
    exact ⟨hinstr.trans hinstr', hlen.trans hlen'⟩
  | true =>
    -- the halves come from two beats
    obtain ⟨h1, hfirst⟩ := h.straddle hs
    obtain ⟨hcomp, hlo⟩ := hfirst hclean
    obtain ⟨hinstr, hlen⟩ := f.fetch_second m hs h1
    have hhi := hm.half (hnext.resolve_left (by simp [hcomp]))
    unfold Bytes.instrAt Bytes.lenAt
    rw [hcomp, if_neg Bool.false_ne_true, if_neg Bool.false_ne_true, hinstr, hlen, hhi, hlo]
    exact ⟨rfl, rfl⟩

/-- **One clock of F** that neither redirects nor resumes. -/
theorem Ready.step {m : Bytes} (h : f.Ready a) (hm : Agrees m a) (ghist : BitVec P.ghrBits)
    {i : FetchIn} (hi : i.imemRdata = m.readWord f.imemAddr) (hr : i.redirect = none)
    (hres : i.dbgResumeNow = false) (hst : i.feStall = true → f.fxValid = false) :
    Holds (f.step ghist i) a := by
  have hc := f.step_clock ghist i
  generalize f.step ghist i = f' at hc
  cases hc with
  | redirected target hr' => exact absurd (hr.symm.trans hr') (by simp)
  | resumed _ hres' => exact absurd (hres.symm.trans hres') (by simp)
  | frozen => exact h.holds
  | stalled _ _ _ hst' =>
    have hf : f = { f with fxValid := false } := by rw [← hst hst']
    rw [hf]
    exact h.holds
  | straddled _ _ _ _ hs =>
    rw [hi] at hs ⊢
    exact h.straddled hm hs
  | accepted _ _ _ _ hs =>
    rw [hi] at hs
    exact h.accepted hm hs ghist hi

/-- Without the predictor nothing is predicted taken. -/
theorem unpredicted_step (h : f.fxPredTaken = false) (ghist : BitVec P.ghrBits) {i : FetchIn}
    (hi : i.predictTakenF = false) : (f.step ghist i).fxPredTaken = false := by
  have hc := f.step_clock ghist i
  generalize f.step ghist i = f' at hc
  cases hc with
  | redirected | resumed | frozen | stalled | straddled => exact h
  | accepted => exact hi

end FStage

theorem Core.predictTakenF_eq_false (hb : P.bpred = false) (c : Core P) (i : CoreIn) :
    c.predictTakenF i = false := by
  unfold Core.predictTakenF Core.rasPredict Ras.fIsRet Bpred.predictTaken Bpred.btbHit
  rw [hb]
  rfl

/-! ## The relation -/

/-- What the instruction at `pc` leaves behind is made of. -/
def Arch.data (a : Arch) : Data := ⟨a.regs, a.resv, a.mem⟩

/-- The machine with the counters of a CSR file. -/
def Arch.live (a : Arch) (c : Csr) : Arch := { a with csr := c }

namespace Sys

variable (s : Sys P) (e : ExtIn)

/-- W, the register file and the memories. -/
def backend : Backend := ⟨s.core.w, s.core.regs, s.mem⟩

/-- The X stage in this clock. -/
def xIn : XIn := s.core.xIn (s.coreIn e)

/-- The instruction in X goes on to W in this clock. -/
def commits : Bool := s.core.xCommit && !s.core.w.memBeatStall

/-- What the outside contributes to that instruction. -/
def label : Env where
  irq := e.irq
  masked := (s.xIn e).irqReq && (s.xIn e).dbgFreeze
  md := if (s.xIn e).dec.isMd then s.core.md.result else 0#32

/-- **The relation between the pipeline and the sequential machine.** -/
structure Sim (imemWritable : Word → Bool) (s : Sys P) (a : Arch) : Prop where
  data : s.backend.drained imemWritable = a.data
  csr : s.core.csr.uncounted = a.csr
  ucsr : s.core.ucsr = a.ucsr
  trig : s.core.trig = a.trig
  running : s.core.dbg.dbgMode = false → s.core.f.Holds a
  halted : s.core.dbg.dbgMode = true →
    s.core.dbg.dpc = a.pc ∧ s.core.f.fxValid = false ∧ s.core.w.xwValid = false
  unpredicted : P.bpred = false → s.core.f.fxPredTaken = false
  imem : FStage.Agrees s.mem.imem a
  /-- an access still to come touches bytes that count as written -/
  pending : ∀ acc, .bus acc ∈ s.backend.pending imemWritable →
    ∀ b, acc.touches imemWritable b = true → a.dirty b = true
  ebreakm : s.core.dbg.dcsrEbreakm = false
  captured : s.core.dbg.dpcCapValid = false

/-- What a clock must not do for the core to follow the architecture. -/
structure Undisturbed (s : Sys P) (e : ExtIn) (a : Arch) : Prop where
  /-- a halt does not meet an instruction that is stalled in X -/
  kept : s.core.f.fxValid = true → s.core.exFreeze = true →
    s.core.dbgFreeze (s.coreIn e) = false
  /-- the debugger writes no register -/
  unwritten : (s.core.dbgDo (s.coreIn e) && e.dbgArWrite) = false
  /-- the instruction that leaves X was not written after the last FENCE.I -/
  fenced : s.commits = true → a.fetchClean = true
  /-- F has not followed a stale prediction -/
  checked : (s.xIn e).stale P = false
  /-- no interrupt is taken on a FENCE.I -/
  fencei : (s.xIn e).fenceiInterrupted P = false
  /-- the instruction that leaves X does not read a counter -/
  counter : s.commits = true → (s.xIn e).readsCounter = false

/-- The same with the counters left aside. -/
structure Steady (s : Sys P) (e : ExtIn) (a : Arch) : Prop where
  kept : s.core.f.fxValid = true → s.core.exFreeze = true →
    s.core.dbgFreeze (s.coreIn e) = false
  unwritten : (s.core.dbgDo (s.coreIn e) && e.dbgArWrite) = false
  fenced : s.commits = true → a.fetchClean = true
  checked : (s.xIn e).stale P = false
  fencei : (s.xIn e).fenceiInterrupted P = false

variable {s} {e} {a : Arch}

theorem Undisturbed.steady (h : s.Undisturbed e a) : s.Steady e a :=
  ⟨h.kept, h.unwritten, h.fenced, h.checked, h.fencei⟩

/-- To commit is to leave X. -/
theorem commits_eq_leaves (h : s.core.dbg.dcsrEbreakm = false) : s.commits = (s.xIn e).leaves := by
  show (s.core.f.fxValid && !s.core.mdStall && !s.core.ebreakToDebug && !s.core.w.memBeatStall) =
    (s.core.f.fxValid && !(s.core.mdStall || s.core.w.memBeatStall))
  rw [Core.ebreakToDebug_of_not_ebreakm h]
  cases s.core.f.fxValid <;> cases s.core.mdStall <;> rfl

theorem dbgGprWe_eq_false (h : (s.core.dbgDo (s.coreIn e) && e.dbgArWrite) = false) :
    s.core.dbgGprWe (s.coreIn e) = false := by
  unfold Core.dbgGprWe
  show (s.core.dbgDo (s.coreIn e) && e.dbgArWrite && _) = false
  rw [h]
  rfl

/-- The back end of the system is clocked by what X hands over. -/
theorem backend_step (h : (s.core.dbgDo (s.coreIn e) && e.dbgArWrite) = false) :
    (s.step imemWritable e).backend =
      s.backend.step imemWritable s.core.xCommit ((s.xIn e).xwNext P) := by
  have hgpr := dbgGprWe_eq_false h
  have hregs : (s.step imemWritable e).core.regs =
      Regfile.write s.core.regs s.core.w.rfWe s.core.w.xw.rd
        (s.core.w.wWb (s.coreIn e).dmemRdata) := by
    show Regfile.write s.core.regs (s.core.rfWe (s.coreIn e)) (s.core.rfWa (s.coreIn e))
      (s.core.rfWd (s.coreIn e)) = _
    unfold Core.rfWe Core.rfWa Core.rfWd
    rw [hgpr]
    rfl
  unfold backend
  rw [hregs]
  rfl

/-! ## Parts of the step -/

/-- EBREAK-to-debug stays off. -/
theorem Sim.dbg_step (h : s.Sim imemWritable a)
    (hw : (s.core.dbgDo (s.coreIn e) && e.dbgArWrite) = false) :
    (s.step imemWritable e).core.dbg.dcsrEbreakm = false ∧
    (s.step imemWritable e).core.dbg.dpcCapValid = false := by
  show (s.core.step (s.coreIn e)).dbg.dcsrEbreakm = false ∧
    (s.core.step (s.coreIn e)).dbg.dpcCapValid = false
  cases hm : s.core.dbg.dbgMode with
  | true =>
    rw [Core.dbg_of_halted hm hw]
    unfold Core.dbgResume
    split
    · exact ⟨h.ebreakm, h.captured⟩
    · exact ⟨h.ebreakm, h.captured⟩
  | false =>
    cases hd : s.core.dbg.haltReq && s.core.pipeDrained with
    | false =>
      rw [Core.dbg_stays hm hd]
      refine ⟨h.ebreakm, ?_⟩
      show (s.core.dbg.dpcCapValid || s.core.ebreakToDebug) = false
      rw [h.captured, Core.ebreakToDebug_of_not_ebreakm h.ebreakm]
      rfl
    | true =>
      rw [Bool.and_eq_true] at hd
      rw [Core.dbg_enters hm hd.1 hd.2]
      exact ⟨h.ebreakm, rfl⟩

theorem Sim.unpredicted_step (h : s.Sim imemWritable a) (hb : P.bpred = false) :
    (s.step imemWritable e).core.f.fxPredTaken = false :=
  FStage.unpredicted_step (h.unpredicted hb) _ (Core.predictTakenF_eq_false hb _ _)

/-- In a clock in which X hands over nothing W works off what it holds. -/
theorem drained_stutter (hw : (s.core.dbgDo (s.coreIn e) && e.dbgArWrite) = false)
    (hc : s.commits = false) :
    (s.step imemWritable e).backend.drained imemWritable = s.backend.drained imemWritable ∧
    s.backend.pending imemWritable =
      s.backend.shown ++ (s.step imemWritable e).backend.pending imemWritable := by
  rw [backend_step hw]
  cases hb : s.core.w.memBeatStall with
  | true => exact Backend.drained_beat hb _ _
  | false =>
    -- X hands over nothing, so W is empty afterwards
    have hx : s.core.xCommit = false := by
      unfold commits at hc
      rw [hb] at hc
      simpa using hc
    obtain ⟨hdata, hpend⟩ := Backend.drained_last imemWritable
      (b := s.backend) hb s.core.xCommit ((s.xIn e).xwNext P)
    have hempty : (s.backend.step imemWritable s.core.xCommit ((s.xIn e).xwNext P)).w.xwValid =
        false := by
      show (s.core.w.step _ s.core.xCommit _).xwValid = false
      rw [(s.core.w.step_of_not_stall hb _ _ _).1, hx]
    obtain ⟨hdr, hpe, -⟩ := Backend.drained_empty imemWritable hempty
    rw [hdr, hpe, hdata, hpend, List.append_nil]
    exact ⟨rfl, rfl⟩

theorem Sim.back_stutter (h : s.Sim imemWritable a)
    (hw : (s.core.dbgDo (s.coreIn e) && e.dbgArWrite) = false) (hc : s.commits = false) :
    (s.step imemWritable e).backend.drained imemWritable = a.data ∧
    s.backend.pending imemWritable =
      s.backend.shown ++ (s.step imemWritable e).backend.pending imemWritable := by
  rw [← h.data]
  exact drained_stutter hw hc

/-- The bytes that still agree do so after a clock of W. -/
theorem Sim.agrees_step (h : s.Sim imemWritable a)
    (hw : (s.core.dbgDo (s.coreIn e) && e.dbgArWrite) = false)
    (hsub : ∀ acc, .bus acc ∈ s.backend.shown → .bus acc ∈ s.backend.pending imemWritable) :
    FStage.Agrees (s.step imemWritable e).mem.imem a := by
  intro b hb
  rw [← h.imem b hb]
  have hmem : (s.step imemWritable e).mem =
      (s.backend.step imemWritable s.core.xCommit ((s.xIn e).xwNext P)).mem := by
    rw [← backend_step hw]
    rfl
  rw [hmem]
  refine Backend.step_imem (fun acc hacc => ?_) _ _
  by_contra ht
  rw [Bool.not_eq_false] at ht
  exact absurd (h.pending acc (hsub acc hacc) b ht) (by simp [hb])

/-- In a stuttering clock the CSR files keep what they hold. -/
theorem Sim.csr_stutter (h : s.Sim imemWritable a)
    (hw : (s.core.dbgDo (s.coreIn e) && e.dbgArWrite) = false) (hc : s.commits = false) :
    (s.step imemWritable e).core.csr.uncounted = a.csr ∧
    (s.step imemWritable e).core.ucsr = a.ucsr ∧ (s.step imemWritable e).core.trig = a.trig := by
  rw [commits_eq_leaves (e := e) h.ebreakm] at hc
  have hidle : (s.xIn e).Idle P := by
    refine XIn.idle hc fun _ => ?_
    show s.core.dbgCsrWe (s.coreIn e) = false
    unfold Core.dbgCsrWe
    show (s.core.dbgDo (s.coreIn e) && e.dbgArWrite && _ && _) = false
    rw [hw]
    rfl
  obtain ⟨h1, h2, h3⟩ := hidle.keeps s.core.w.retireValid
  refine ⟨?_, h2.trans h.ucsr, h3.trans h.trig⟩
  rw [← h.csr]
  show ((s.xIn e).csrNext P s.core.w.retireValid).uncounted = _
  rw [h1]
  rfl

/-- In a stuttering clock the front end goes on fetching the next instruction, or
keeps it. -/
theorem Sim.front_stutter (h : s.Sim imemWritable a) (hok : s.Steady e a)
    (hc : s.commits = false) :
    ((s.step imemWritable e).core.dbg.dbgMode = false →
      (s.step imemWritable e).core.f.Holds a) ∧
    ((s.step imemWritable e).core.dbg.dbgMode = true →
      (s.step imemWritable e).core.dbg.dpc = a.pc ∧
      (s.step imemWritable e).core.f.fxValid = false ∧
      (s.step imemWritable e).core.w.xwValid = false) := by
  have hredirect : s.core.redirect (s.coreIn e) = none := by
    rw [commits_eq_leaves (e := e) h.ebreakm] at hc
    cases hr : s.core.redirect (s.coreIn e) with
    | none => rfl
    | some target =>
      exact absurd (XIn.leaves_iff.mpr (XIn.redirect_valid (x := s.xIn e) hr)) (by simp [hc])
  cases hm : s.core.dbg.dbgMode with
  | true =>
    obtain ⟨hdpc, hv, hxw⟩ := h.halted hm
    have hdbg := Core.dbg_of_halted (i := s.coreIn e) hm hok.unwritten
    cases hres : e.dbgResumereq with
    | true =>
      -- resume: F starts at dpc
      have hmode : (s.step imemWritable e).core.dbg.dbgMode = false := by
        show (s.core.step (s.coreIn e)).dbg.dbgMode = false
        rw [hdbg]
        unfold Core.dbgResume
        rw [hm, show (s.coreIn e).dbgResumereq = true from hres]
        rfl
      refine ⟨fun _ => ?_, fun hm' => absurd (hmode.symm.trans hm') (by simp)⟩
      have hf : (s.step imemWritable e).core.f =
          { s.core.f with pc := a.pc, fxValid := false, straddle := false } := by
        have hnow : s.core.dbgResumeNow (s.coreIn e) = true := by
          show (s.core.dbg.dbgMode && e.dbgResumereq) = true
          rw [hm, hres]
          rfl
        rw [← hdpc]
        exact FStage.step_of_resume (i := s.core.fetchIn (s.coreIn e)) hredirect hnow
      rw [hf]
      exact FStage.holds_of_redirect _ _
    | false =>
      have hdbg' : (s.step imemWritable e).core.dbg.dbgMode = true ∧
          (s.step imemWritable e).core.dbg.dpc = s.core.dbg.dpc := by
        show (s.core.step (s.coreIn e)).dbg.dbgMode = true ∧
          (s.core.step (s.coreIn e)).dbg.dpc = _
        rw [hdbg]
        unfold Core.dbgResume
        rw [show (s.coreIn e).dbgResumereq = false from hres, Bool.and_false,
          if_neg Bool.false_ne_true]
        exact ⟨hm, rfl⟩
      refine ⟨fun hm' => absurd (hdbg'.1.symm.trans hm') (by simp), fun _ => ⟨?_, ?_, ?_⟩⟩
      · rw [hdbg'.2, hdpc]
      · exact Core.fxValid_of_dbgFreeze _ _ (Core.dbgFreeze_of_dbgMode hm)
      · exact Core.xwValid_of_drained _ _ hv hxw
  | false =>
    have hholds := h.running hm
    have hnores : s.core.dbgResumeNow (s.coreIn e) = false := by
      unfold Core.dbgResumeNow
      rw [hm]
      rfl
    cases hv : s.core.f.fxValid with
    | true =>
      -- the instruction is stalled in X and F waits
      have hfz : s.core.exFreeze = true := by
        rw [commits_eq_leaves (e := e) h.ebreakm] at hc
        by_contra hfz
        rw [Bool.not_eq_true] at hfz
        exact absurd (XIn.leaves_iff (x := s.xIn e).mpr ⟨hv, hfz⟩) (by simp [hc])
      have hf : (s.step imemWritable e).core.f = s.core.f :=
        FStage.step_of_stall (i := s.core.fetchIn (s.coreIn e)) hredirect hnores
          (hok.kept hv hfz) hfz
      have hmode : (s.step imemWritable e).core.dbg.dbgMode = false := by
        show (s.core.step (s.coreIn e)).dbg.dbgMode = false
        rw [Core.dbg_stays hm (by rw [Core.pipeDrained_of_valid (.inl hv), Bool.and_false])]
        exact hm
      refine ⟨fun _ => ?_, fun hm' => absurd (hmode.symm.trans hm') (by simp)⟩
      rw [hf]
      exact hholds
    | false =>
      have hready := hholds.ready hv
      have hfront : (s.step imemWritable e).core.f.Holds a :=
        hready.step h.imem _ rfl hredirect hnores fun _ => hv
      refine ⟨fun _ => hfront, fun hm' => ?_⟩
      -- Debug Mode is entered: dpc is the address F has not fetched from yet
      rcases Core.dbgMode_step s.core (s.coreIn e) hm' with hm'' | ⟨hreq, hx, hxw⟩
      · exact absurd (hm.symm.trans hm'') (by simp)
      · have hdrain := Core.pipeDrained_iff.mpr ⟨hx, hxw⟩
        refine ⟨?_, ?_, ?_⟩
        · show (s.core.step (s.coreIn e)).dbg.dpc = a.pc
          rw [Core.dbg_enters hm hreq hdrain]
          show (if s.core.dbg.dpcCapValid then _ else s.core.f.pc) = a.pc
          rw [h.captured]
          exact hready.pc
        · exact Core.fxValid_of_dbgFreeze _ _ (Core.dbgFreeze_of_haltReq hreq)
        · exact Core.xwValid_of_drained _ _ hx hxw

/-- **A stuttering clock.** -/
theorem Sim.stutter (h : s.Sim imemWritable a) (hok : s.Steady e a)
    (hc : s.commits = false) :
    (s.step imemWritable e).Sim imemWritable a ∧
    s.backend.pending imemWritable =
      s.backend.shown ++ (s.step imemWritable e).backend.pending imemWritable := by
  obtain ⟨hdata, hpend⟩ := h.back_stutter hok.unwritten hc
  obtain ⟨hcsr, hucsr, htrig⟩ := h.csr_stutter hok.unwritten hc
  obtain ⟨hrun, hhalt⟩ := h.front_stutter hok hc
  obtain ⟨hebr, hcap⟩ := h.dbg_step hok.unwritten
  refine ⟨⟨hdata, hcsr, hucsr, htrig, hrun, hhalt, h.unpredicted_step, ?_, ?_, hebr, hcap⟩, hpend⟩
  · refine h.agrees_step hok.unwritten fun acc hacc => ?_
    rw [hpend]
    exact List.mem_append_left _ hacc
  · intro acc hacc
    refine h.pending acc ?_
    rw [hpend]
    exact List.mem_append_right _ hacc

/-! ## An instruction leaves X -/

/-- The conditions under which the instruction in X leaves. -/
structure Leaves (s : Sys P) (e : ExtIn) : Prop where
  valid : s.core.f.fxValid = true
  mdStall : s.core.mdStall = false
  beat : s.core.w.memBeatStall = false
  mode : s.core.dbg.dbgMode = false
  leaves : (s.xIn e).leaves = true

theorem Sim.leaves (h : s.Sim imemWritable a) (e : ExtIn) (hc : s.commits = true) :
    s.Leaves e := by
  have hl := hc
  rw [commits_eq_leaves (e := e) h.ebreakm] at hl
  unfold commits Core.xCommit at hc
  simp only [Bool.and_eq_true, Bool.not_eq_true'] at hc
  obtain ⟨⟨⟨hv, hmd⟩, -⟩, hb⟩ := hc
  refine ⟨hv, hmd, hb, ?_, hl⟩
  by_contra hm
  rw [Bool.not_eq_false] at hm
  exact absurd hv (by simp [(h.halted hm).2.1])

/-- The registers after the clock in which an instruction leaves X are those of
the architecture before it. -/
theorem Sim.regs_step (h : s.Sim imemWritable a)
    (hw : (s.core.dbgDo (s.coreIn e) && e.dbgArWrite) = false) (hb : s.core.w.memBeatStall = false) :
    (s.step imemWritable e).backend.data = a.data := by
  rw [backend_step hw, (Backend.drained_last imemWritable (b := s.backend) hb _ _).1]
  exact h.data

/-- **X sees the architecture.** -/
theorem Sim.sees (h : s.Sim imemWritable a) (hok : s.Steady e a) (hc : s.commits = true) :
    (s.xIn e).visible = a.xIn (s.label e) := by
  obtain ⟨hv, hmd, hb, hm, -⟩ := h.leaves e hc
  have hholds := h.running hm
  obtain ⟨hinstr, hlen⟩ := hholds.instr hv (hok.fenced hc)
  have hpc : s.core.f.fxPc = a.pc := by
    have hpc := hholds.pc
    rw [hv, if_pos rfl] at hpc
    exact hpc
  have hregs : (s.core.step (s.coreIn e)).regs = a.regs :=
    congrArg Data.regs (h.regs_step hok.unwritten hb)
  have hop1 : s.core.op1 (s.coreIn e) = Regfile.get a.regs (a.instr.extractLsb 19 15) := by
    rw [MulDivHazard.op1_eq hm (fun hb' => absurd (hb.symm.trans hb') (by simp)), hregs, ← hinstr]
    rfl
  have hop2 : s.core.op2 (s.coreIn e) = Regfile.get a.regs (a.instr.extractLsb 24 20) := by
    rw [MulDivHazard.op2_eq hm (fun hb' => absurd (hb.symm.trans hb') (by simp)), hregs, ← hinstr]
    rfl
  have hfz := Core.exFreeze_eq_false_iff.mpr ⟨hmd, hb⟩
  refine (XIn.mk.injEq ..).mpr ⟨hv, hpc, hinstr, hlen, rfl, rfl, hop1, hop2, hfz, rfl, h.csr, h.ucsr,
    h.trig, rfl, h.ebreakm, hm, rfl, rfl, rfl, rfl⟩

/-- The machine `b` with label `l` does what the instruction in X does. -/
structure Executes (imemWritable : Word → Bool) (s : Sys P) (e : ExtIn) (a b : Arch) (l : Env) :
    Prop where
  finish : ((s.xIn e).xwNext P).finish imemWritable a.data = (b.step P imemWritable l).data
  events : ((s.xIn e).xwNext P).events a.data = b.events P l
  pc : (b.step P imemWritable l).pc = (s.xIn e).nextPc P
  csr : ((s.xIn e).csrNext P s.core.w.retireValid).uncounted = (b.step P imemWritable l).csr
  ucsr : (s.xIn e).ucsrNext P = (b.step P imemWritable l).ucsr
  trig : (s.xIn e).trigNext P = (b.step P imemWritable l).trig
  fencei : (b.xIn l).isFencei = (s.xIn e).isFencei ∧ (b.xIn l).exTrap P = (s.xIn e).exTrap P
  dirty : b.dirty = a.dirty
  mem : b.mem = a.mem

/-- The machine of the relation does, unless a counter is read. -/
theorem Sim.executes (h : s.Sim imemWritable a) (hok : s.Undisturbed e a)
    (hc : s.commits = true) : s.Executes imemWritable e a a (s.label e) := by
  have hm := (h.leaves e hc).mode
  have hsees := h.sees hok.steady hc
  obtain ⟨hfinish, hevents⟩ := XIn.finish_visible (P := P) hm (hok.counter hc) imemWritable a.data
  refine ⟨?_, ?_, ?_, ?_, ?_, ?_, ⟨?_, ?_⟩, rfl, rfl⟩
  · rw [← hfinish, hsees]
    rfl
  · rw [← hevents, hsees]
    rfl
  · show (a.xIn (s.label e)).nextPc P = _
    rw [← hsees, XIn.nextPc_visible]
  · show _ = ((a.xIn (s.label e)).csrNext P false).uncounted
    rw [← hsees]
    exact (XIn.csrNext_visible hm false s.core.w.retireValid).symm
  · show _ = (a.xIn (s.label e)).ucsrNext P
    rw [← hsees, XIn.ucsrNext_visible hm]
  · show _ = (a.xIn (s.label e)).trigNext P
    rw [← hsees, XIn.trigNext_visible hm]
  · rw [← hsees]
    rfl
  · rw [← hsees]
    rfl

/-- X sees the architecture and the counters. -/
theorem Sim.sees_live (h : s.Sim imemWritable a) (hok : s.Steady e a) (hc : s.commits = true) :
    (s.xIn e).known = (a.live s.core.csr).xIn (s.label e) := by
  show { (s.xIn e).visible with csr := s.core.csr } = _
  rw [h.sees hok hc]
  rfl

/-- What W takes over is what the machine with the counters of the core hands on. -/
theorem Sim.xw_live (h : s.Sim imemWritable a) (hok : s.Steady e a) (hc : s.commits = true) :
    (s.xIn e).xwNext P = (a.live s.core.csr).xw P (s.label e) := by
  rw [← XIn.xwNext_known (h.leaves e hc).mode, h.sees_live hok hc]
  rfl

/-- The machine with the counters of the core always does. -/
theorem Sim.executes_live (h : s.Sim imemWritable a) (hok : s.Steady e a)
    (hc : s.commits = true) :
    s.Executes imemWritable e a (a.live s.core.csr) (s.label e) := by
  have hm := (h.leaves e hc).mode
  have hsees := h.sees_live hok hc
  have hvis : (s.xIn e).known.visible = (s.xIn e).visible := XIn.known_visible
  have hm' : (s.xIn e).known.dbgMode = false := hm
  refine ⟨?_, ?_, ?_, ?_, ?_, ?_, ⟨?_, ?_⟩, rfl, rfl⟩
  · rw [h.xw_live hok hc]
    rfl
  · rw [h.xw_live hok hc]
    rfl
  · show ((a.live s.core.csr).xIn (s.label e)).nextPc P = _
    rw [← hsees, ← XIn.nextPc_visible, hvis, XIn.nextPc_visible]
  · show _ = (((a.live s.core.csr).xIn (s.label e)).csrNext P false).uncounted
    rw [← hsees, ← XIn.csrNext_visible hm' false, hvis]
    exact (XIn.csrNext_visible hm false s.core.w.retireValid).symm
  · show _ = ((a.live s.core.csr).xIn (s.label e)).ucsrNext P
    rw [← hsees, ← XIn.ucsrNext_visible hm', hvis, XIn.ucsrNext_visible hm]
  · show _ = ((a.live s.core.csr).xIn (s.label e)).trigNext P
    rw [← hsees, ← XIn.trigNext_visible hm', hvis, XIn.trigNext_visible hm]
  · rw [← hsees]
    rfl
  · rw [← hsees]
    rfl

section Commit

variable {b : Arch} {l : Env}

/-- A FENCE.I makes no access. -/
theorem not_fencei {acc : Access} (hacc : acc ∈ b.accesses P l) :
    ((b.xIn l).isFencei && !(b.xIn l).exTrap P) = false := by
  by_contra hfe
  simp only [Bool.not_eq_false, Bool.and_eq_true] at hfe
  unfold Arch.accesses Arch.xw at hacc
  rw [XIn.accesses_of_isFencei hfe.1] at hacc
  exact absurd hacc (by simp)

/-- The bytes it leaves clean are those that were clean and that it does not touch. -/
theorem Executes.clean (h : s.Executes imemWritable e a b l)
    (hf : ((b.xIn l).isFencei && !(b.xIn l).exTrap P) = false) {p : Word}
    (hp : (b.step P imemWritable l).dirty p = false) :
    a.dirty p = false ∧ ∀ acc ∈ b.accesses P l, acc.touches imemWritable p = false := by
  unfold Arch.step at hp
  dsimp only at hp
  rw [hf, if_neg Bool.false_ne_true, Bool.or_eq_false_iff, List.any_eq_false, h.dirty] at hp
  exact ⟨hp.1, fun acc hacc => by simpa using hp.2 acc hacc⟩

/-- The back end after the commit. -/
theorem Sim.back_commit (h : s.Sim imemWritable a) (hok : s.Steady e a) (hc : s.commits = true)
    (hx : s.Executes imemWritable e a b l) :
    (s.step imemWritable e).backend.drained imemWritable = (b.step P imemWritable l).data ∧
    s.backend.shown = s.backend.pending imemWritable ∧
    (s.step imemWritable e).backend.pending imemWritable = b.events P l := by
  obtain ⟨-, -, hb, -, -⟩ := h.leaves e hc
  have hcommit : s.core.xCommit = true := by
    unfold commits at hc
    rw [Bool.and_eq_true] at hc
    exact hc.1
  have hdata := h.regs_step (e := e) hok.unwritten hb
  have hpend := (Backend.drained_last imemWritable (b := s.backend) hb
    s.core.xCommit ((s.xIn e).xwNext P)).2
  -- the instruction is fresh in W
  obtain ⟨hval, hxw, hbeat⟩ := s.core.w.step_of_not_stall hb (s.coreIn e).dmemRdata s.core.xCommit
    ((s.xIn e).xwNext P)
  have hxw' : (s.step imemWritable e).backend.w.xw = (s.xIn e).xwNext P := hxw
  obtain ⟨hdr, hpe⟩ := Backend.drained_fresh imemWritable
    (b := (s.step imemWritable e).backend) (hval.trans hcommit) hbeat
    (hxw' ▸ XIn.xwNext_formed P (s.xIn e))
  rw [hdr, hpe, hxw', hdata]
  exact ⟨hx.finish, hpend.symm, hx.events⟩

/-- The front end after the commit: redirected to the next instruction, or
already there. -/
theorem Sim.front_commit (h : s.Sim imemWritable a) (hok : s.Steady e a) (hc : s.commits = true)
    (hx : s.Executes imemWritable e a b l) :
    (s.step imemWritable e).core.f.Holds (b.step P imemWritable l) ∧
    (s.step imemWritable e).core.dbg.dbgMode = false := by
  obtain ⟨hv, hmd, hb, hm, hl⟩ := h.leaves e hc
  have hholds := h.running hm
  have hpc := hx.pc
  have hfz : s.core.exFreeze = false := (XIn.leaves_iff.mp hl).2
  refine ⟨?_, ?_⟩
  · cases hr : s.core.redirect (s.coreIn e) with
    | some target =>
      have htarget : target = (s.xIn e).nextPc P := XIn.redirect_nextPc hok.fencei hr
      have hf : (s.step imemWritable e).core.f =
          { s.core.f with pc := target, fxValid := false, straddle := false } :=
        FStage.step_of_redirect (i := s.core.fetchIn (s.coreIn e)) hr
      rw [hf, htarget, ← hpc]
      exact FStage.holds_of_redirect _ _
    | none =>
      have hnext : s.core.f.pc = (b.step P imemWritable l).pc := by
        rw [hholds.next hv, hpc]
        exact XIn.predNext_nextPc (x := s.xIn e) hl hr h.unpredicted hok.checked
      have hready : s.core.f.Ready (b.step P imemWritable l) :=
        ⟨hnext, fun hs => absurd hv (by simp [(hholds.straddle hs).1])⟩
      have hnores : s.core.dbgResumeNow (s.coreIn e) = false := by
        unfold Core.dbgResumeNow
        rw [hm]
        rfl
      -- what is clean after the instruction was clean before it and is not written by it
      have hagrees : FStage.Agrees s.mem.imem (b.step P imemWritable l) := by
        intro p hp
        have hfence : ((b.xIn l).isFencei && !(b.xIn l).exTrap P) = false := by
          rw [hx.fencei.1, hx.fencei.2]
          by_contra hfe
          simp only [Bool.not_eq_false, Bool.and_eq_true, Bool.not_eq_true'] at hfe
          have hsome := XIn.redirect_of_isFencei hl hfe.2 hfe.1
          exact absurd (hr.symm.trans hsome) (by simp)
        obtain ⟨hclean, hacc⟩ := hx.clean hfence hp
        rw [h.imem p hclean, ← hx.mem]
        exact (Memory.accesses_imem _ hacc b.mem).symm
      exact hready.step hagrees _ rfl hr hnores
        fun hst => absurd (hfz.symm.trans hst) (by simp)
  · show (s.core.step (s.coreIn e)).dbg.dbgMode = false
    rw [Core.dbg_stays hm (by rw [Core.pipeDrained_of_valid (.inl hv), Bool.and_false])]
    exact hm

/-- **An instruction that leaves X** is one step of the machine that executes it. -/
theorem Sim.commit_of (h : s.Sim imemWritable a) (hok : s.Steady e a) (hc : s.commits = true)
    (hx : s.Executes imemWritable e a b l) :
    (s.step imemWritable e).Sim imemWritable (b.step P imemWritable l) ∧
    s.backend.shown = s.backend.pending imemWritable ∧
    (s.step imemWritable e).backend.pending imemWritable = b.events P l := by
  obtain ⟨hdata, hshown, hpend⟩ := h.back_commit hok hc hx
  obtain ⟨hfront, hmode⟩ := h.front_commit hok hc hx
  obtain ⟨hebr, hcap⟩ := h.dbg_step hok.unwritten
  obtain ⟨hv, hmd, hb, hm, hl⟩ := h.leaves e hc
  have hmem : (s.step imemWritable e).mem = b.mem :=
    (congrArg Data.mem (h.regs_step (e := e) hok.unwritten hb)).trans hx.mem.symm
  refine ⟨⟨hdata, hx.csr, hx.ucsr, hx.trig, fun _ => hfront,
    fun hm' => absurd (hmode.symm.trans hm') (by simp), h.unpredicted_step, ?_, ?_, hebr, hcap⟩,
    hshown, hpend⟩
  · intro p hp
    rw [hmem]
    refine (Memory.accesses_imem _ (fun acc hacc => ?_) b.mem).symm
    exact (hx.clean (not_fencei hacc) hp).2 acc hacc
  · intro acc hacc p ht
    rw [hpend] at hacc
    have hmem' : acc ∈ b.accesses P l := by
      unfold Arch.events at hacc
      simpa using hacc
    by_contra hp
    rw [Bool.not_eq_true] at hp
    exact absurd (((hx.clean (not_fencei hmem') hp).2 acc hmem').symm.trans ht) (by simp)

end Commit

/-- An instruction that reads no counter is one step of the sequential machine. -/
theorem Sim.commit (h : s.Sim imemWritable a) (hok : s.Undisturbed e a)
    (hc : s.commits = true) :
    (s.step imemWritable e).Sim imemWritable (a.step P imemWritable (s.label e)) ∧
    s.backend.shown = s.backend.pending imemWritable ∧
    (s.step imemWritable e).backend.pending imemWritable = a.events P (s.label e) :=
  h.commit_of hok.steady hc (h.executes hok hc)

/-- With the counters as part of the label, a counter may be read. -/
theorem refines_live (P : Params) (imemWritable : Word → Bool) :
    Refines (Sys.step (P := P) imemWritable) (fun s _ => s.backend.shown) (fun s _ => s.commits)
      (fun s e => (s.label e, s.core.csr))
      (fun a l => (a.live l.2).step P imemWritable l.1) (fun a l => (a.live l.2).events P l.1)
      (Sim imemWritable) (fun s => s.backend.pending imemWritable) Steady where
  stutter _ _ _ h hok hc := h.stutter hok hc
  commit _ _ _ h hok hc := h.commit_of hok hc (h.executes_live hok hc)

/-- What a core with nothing in X and W stands for. -/
def archAt (s : Sys P) : Arch where
  pc := s.core.f.pc
  regs := s.core.regs
  csr := s.core.csr.uncounted
  ucsr := s.core.ucsr
  trig := s.core.trig
  resv := s.backend.data.resv
  mem := s.mem
  dirty := fun _ => false

/-- It is related to it when it runs. -/
theorem sim_archAt (imemWritable : Word → Bool) {s : Sys P} (hv : s.core.f.fxValid = false)
    (hs : s.core.f.straddle = false) (hw : s.core.w.xwValid = false)
    (hm : s.core.dbg.dbgMode = false) (hpred : P.bpred = false → s.core.f.fxPredTaken = false)
    (hebr : s.core.dbg.dcsrEbreakm = false) (hcap : s.core.dbg.dpcCapValid = false) :
    s.Sim imemWritable s.archAt ∧ s.backend.pending imemWritable = [] := by
  obtain ⟨hdr, hpe, -⟩ := Backend.drained_empty imemWritable (b := s.backend) hw
  have hholds : s.core.f.Holds s.archAt := by
    refine ⟨?_, fun hv' => ?_, fun hv' => ?_, fun hs' => ?_⟩
    · rw [hv, if_neg Bool.false_ne_true]
      rfl
    · exact absurd (hv.symm.trans hv') Bool.false_ne_true
    · exact absurd (hv.symm.trans hv') Bool.false_ne_true
    · exact absurd (hs.symm.trans hs') Bool.false_ne_true
  refine ⟨⟨hdr, rfl, rfl, rfl, fun _ => hholds, fun hm' => ?_, hpred, fun _ _ => rfl, ?_, hebr,
    hcap⟩, hpe⟩
  · exact absurd (hm.symm.trans hm') Bool.false_ne_true
  · intro acc hacc
    rw [hpe] at hacc
    exact absurd hacc (by simp)

/-- Out of reset the core is related to the machine at the reset address. -/
def archBoot (s : Sys P) : Arch where
  pc := P.resetPc
  regs := s.core.regs
  csr := {}
  ucsr := {}
  trig := {}
  resv := none
  mem := s.mem
  dirty := fun _ => false

theorem sim_reset (imemWritable : Word → Bool) (s : Sys P) (e : ExtIn) :
    (s.reset imemWritable e).Sim imemWritable (s.reset imemWritable e).archBoot ∧
    (s.reset imemWritable e).backend.pending imemWritable = [] := by
  have hv : (s.reset imemWritable e).backend.w.xwValid = false := rfl
  obtain ⟨hdr, hpe, -⟩ := Backend.drained_empty imemWritable hv
  refine ⟨⟨hdr, rfl, rfl, rfl, fun _ => ⟨rfl, nofun, nofun, nofun⟩, nofun, fun _ => rfl,
    fun _ _ => rfl, ?_, rfl, rfl⟩, hpe⟩
  intro acc hacc
  rw [hpe] at hacc
  exact absurd hacc (by simp)

/-- Without the predictor nothing is predicted taken, in every reachable state. -/
theorem unpredicted_run (hb : P.bpred = false) (s₀ : Sys P) (e₀ : ExtIn) (ins : Nat → ExtIn)
    (n : Nat) :
    (run (Sys.step imemWritable) (s₀.reset imemWritable e₀) ins n).core.f.fxPredTaken = false := by
  induction n with
  | zero => rfl
  | succ n ih => exact FStage.unpredicted_step ih _ (Core.predictTakenF_eq_false hb _ _)

end Sys

end ThreeSippEs
