import ThreeSippEs.Pipeline.XView
import ThreeSippEs.Traps.Delivery

/-!
# Interrupt entry

The CSR file records an interrupt in the clock in which the instruction in X leaves,
and the front end is sent to the handler by a redirect of its own. `Interrupted` is
what one clock of a run has to do for the entry to be precise; the two disagree when
the instruction is a FENCE.I.

- `Unaffected`: the instruction has the effect it would have had;
- `issued_once`: it retires exactly once;
- `Parked`, `parked_run`: nothing enters X before the instruction F is headed for,
  whatever the debugger does;
- `interrupt_precise_iff`: the law, with its exact condition.
-/

namespace ThreeSippEs.Interrupt

open Clocked

variable {P : Params}

/-! ## What an entry has to do -/

/-- The inputs of the clock without its interrupt lines. -/
def calm (i : CoreIn) : CoreIn := { i with irq := {} }

/-- What X sees without them. -/
def calmX (x : XIn) : XIn := { x with irq := {} }

/-- The inputs of the CSR file in one clock. -/
abbrev entryIn (s : Core P) (i : CoreIn) : CsrIn := (s.xIn i).csrIn P s.w.retireValid

/-- Everything but F and the trap record is as after a clock without interrupts. -/
structure Unaffected (s : Core P) (i : CoreIn) : Prop where
  w : (s.step i).w = (s.step (calm i)).w
  regs : (s.step i).regs = (s.step (calm i)).regs
  md : (s.step i).md = (s.step (calm i)).md
  ucsr : (s.step i).ucsr = (s.step (calm i)).ucsr
  trig : (s.step i).trig = (s.step (calm i)).trig
  dbg : (s.step i).dbg = (s.step (calm i)).dbg
  csr : (s.step i).csr = { (s.step (calm i)).csr with
    mepc := (s.step i).csr.mepc
    mcause := (s.step i).csr.mcause
    mtval := (s.step i).csr.mtval
    mstatus := (s.step i).csr.mstatus }

/-- The debugger writes `dpc`. -/
def writesDpc (s : Core P) (i : CoreIn) : Bool :=
  s.dbgDo i && i.dbgArWrite && i.dbgArCsr && i.dbgArRegno == 0x7b1#12

/-- The interrupt taken in clock `n` of a run is precise: the instruction in X has its
effect and retires once, the record holds where the program goes on, the handler is
next, and an MRET on this record goes on there. -/
structure Precise (s₀ : Core P) (i₀ : CoreIn) (ins : Nat → CoreIn) (n : Nat) : Prop where
  effect : Unaffected (Core.runFrom s₀ i₀ ins n) (ins n)
  once : ∃! r, Core.Issued s₀ i₀ ins n r ∧ (Core.runFrom s₀ i₀ ins r).w.retireValid = true
  mepc : (Core.runFrom s₀ i₀ ins (n + 1)).csr.mepc =
    ((Core.runFrom s₀ i₀ ins n).xIn (calm (ins n))).nextPc P
  masked : Mstatus.mie (Core.runFrom s₀ i₀ ins (n + 1)).csr.mstatus = false ∧
    Mstatus.mpie (Core.runFrom s₀ i₀ ins (n + 1)).csr.mstatus = true
  /-- F is sent to the handler -/
  goes : (Core.runFrom s₀ i₀ ins (n + 1)).f.pc = (Core.runFrom s₀ i₀ ins n).csr.mtvec ∧
    (Core.runFrom s₀ i₀ ins (n + 1)).f.fxValid = false
  /-- the next instruction in X is the handler's first -/
  enters : ∀ m, n < m → (∀ k, n < k → k < m → (Core.runFrom s₀ i₀ ins k).f.fxValid = false ∧
      writesDpc (Core.runFrom s₀ i₀ ins k) (ins k) = false) →
    (Core.runFrom s₀ i₀ ins m).f.fxValid = true →
    (Core.runFrom s₀ i₀ ins m).f.fxPc = (Core.runFrom s₀ i₀ ins n).csr.mtvec
  /-- an MRET that finds the record goes back -/
  returns : ∀ q, ((Core.runFrom s₀ i₀ ins q).xIn (ins q)).leaves = true →
    ((Core.runFrom s₀ i₀ ins q).xIn (ins q)).exTrap P = false →
    ((Core.runFrom s₀ i₀ ins q).xIn (ins q)).dec.isMret = true →
    (Core.runFrom s₀ i₀ ins q).csr.mepc = (Core.runFrom s₀ i₀ ins (n + 1)).csr.mepc →
    (Core.runFrom s₀ i₀ ins (q + 1)).f.pc =
        ((Core.runFrom s₀ i₀ ins n).xIn (calm (ins n))).nextPc P ∧
      Mstatus.mie (Core.runFrom s₀ i₀ ins (q + 1)).csr.mstatus =
        Mstatus.mpie (Core.runFrom s₀ i₀ ins q).csr.mstatus

/-! ## The clock of the entry -/

section Entry

variable {x : XIn}

theorem takeIrq_calm (x : XIn) : (calmX x).takeIrq P = false := by
  have hreq : (calmX x).irqReq = false := by
    unfold XIn.irqReq Csr.irqReq calmX
    simp
  exact XIn.takeIrq_eq_false_iff.mpr fun ht => Bool.false_ne_true (hreq.symm.trans ht.irqReq)

/-- Without the interrupt the program would go on behind the instruction. -/
theorem nextPc_calm (hP : P.secure = false) (h : x.takeIrq P = true) :
    (calmX x).nextPc P = x.seqNx := by
  have ht := XIn.takeIrq_iff.mp h
  have htrap' : (calmX x).exTrap P = false := ht.exTrap
  have huret : (calmX x).isUret P = false := by
    unfold XIn.isUret
    rw [hP]
    rfl
  have hmret' : (calmX x).dec.isMret = false := ht.mret
  have hjalr' : (calmX x).dec.isJalr = false := ht.jalr
  unfold XIn.nextPc
  rw [htrap', huret, hmret', hjalr', takeIrq_calm]
  exact XIn.brActualNext_of_plain ht.jal ht.branch

/-- The X/W register sees the interrupt lines only through a CSR read. -/
theorem xwNext_calm (h : x.dec.isCsr = false) :
    (calmX x).xwNext P = x.xwNext P := by
  have hres : (calmX x).xResult P = x.xResult P := by
    have hsel : x.dec.wbSel ≠ .csr := fun hs =>
      Bool.false_ne_true (h.symm.trans ((decode_wbSel x.fxInstr).2 hs))
    have hdec : (calmX x).dec.wbSel = x.dec.wbSel := rfl
    unfold XIn.xResult
    rw [hdec]
    cases hw : x.dec.wbSel with
    | csr => exact absurd hw hsel
    | alu | mem | pc4 | md => rfl
  show { x.xwNext P with result := (calmX x).xResult P } = x.xwNext P
  rw [hres]
  rfl

theorem csrWeEff_of_not_csr (h : x.dec.isCsr = false) (hm : x.dbgMode = false) :
    x.csrWeEff P = false := by
  unfold XIn.csrWeEff XIn.csrDoWrite
  rw [hm, h]
  simp

theorem trigNext_of_not_csr (h : x.dec.isCsr = false) (hm : x.dbgMode = false) :
    x.trigNext P = if x.trigFire then x.trig.setHits x.trigMatch.fireMask else x.trig := by
  unfold XIn.trigNext XIn.trigCsrWe
  rw [csrWeEff_of_not_csr h hm]
  rfl

theorem ucsrNext_of_not_secure (hP : P.secure = false) : x.ucsrNext P = x.ucsr := by
  unfold XIn.ucsrNext
  rw [hP]
  rfl

/-- Without the interrupt the CSR file only counts. -/
theorem csrNext_calm (h : x.takeIrq P = true) (hm : x.dbgMode = false) (retire : Bool) :
    (calmX x).csrNext P retire =
      { x.csr with ctr := x.csr.tick (x.csrIn P retire) } := by
  have ht := XIn.takeIrq_iff.mp h
  have hset : (calmX x).mTrapSet P = false := by
    unfold XIn.mTrapSet
    rw [takeIrq_calm, show (calmX x).exTrap P = false from ht.exTrap]
    rfl
  have hret : (calmX x).csrMret P = false := by
    unfold XIn.csrMret
    rw [show (calmX x).dec.isMret = false from ht.mret, Bool.and_false]
    rfl
  have hwe : (calmX x).csrWeEff P = false := csrWeEff_of_not_csr (x := calmX x) ht.csr hm
  unfold XIn.csrNext Csr.step XIn.csrIn
  rw [hset, hret, hwe]
  rfl

/-- With it, it enters the trap. -/
theorem csrNext_of_takeIrq (h : x.takeIrq P = true) (retire : Bool) :
    x.csrNext P retire =
      { x.csr.trapEntry P.csr (x.csrIn P retire) with ctr := x.csr.tick (x.csrIn P retire) } := by
  refine Csr.step_trapSet ?_
  show x.mTrapSet P = true
  unfold XIn.mTrapSet
  rw [h, Bool.or_true]

end Entry

section Step

variable {s : Core P} {i : CoreIn}

/-- **The instruction in X is not affected** by the interrupt taken on it. -/
theorem unaffected (hP : P.secure = false) (hm : s.dbg.dbgMode = false)
    (h : (s.xIn i).takeIrq P = true) : Unaffected s i := by
  have hcsr := (XIn.takeIrq_iff.mp h).csr
  have hxw : (s.xIn (calm i)).xwNext P = (s.xIn i).xwNext P := xwNext_calm hcsr
  have htick : (s.step i).csr = { s.csr.trapEntry P.csr ((s.xIn i).csrIn P s.w.retireValid) with
      ctr := s.csr.tick ((s.xIn i).csrIn P s.w.retireValid) } :=
    csrNext_of_takeIrq h s.w.retireValid
  have hcalm : (s.step (calm i)).csr = { s.csr with
      ctr := s.csr.tick ((s.xIn i).csrIn P s.w.retireValid) } := csrNext_calm h hm s.w.retireValid
  refine ⟨?_, rfl, rfl, ?_, ?_, rfl, ?_⟩
  · show s.w.step i.dmemRdata s.xCommit ((s.xIn i).xwNext P) =
      s.w.step i.dmemRdata s.xCommit ((s.xIn (calm i)).xwNext P)
    rw [hxw]
  · exact (ucsrNext_of_not_secure hP).trans (ucsrNext_of_not_secure (x := s.xIn (calm i)) hP).symm
  · exact (trigNext_of_not_csr hcsr hm).trans
      (trigNext_of_not_csr (x := s.xIn (calm i)) hcsr hm).symm
  · rw [htick, hcalm]
    unfold Csr.trapEntry
    rw [show P.csr.uMode = false from hP]
    rfl

/-- What the record holds. -/
theorem record (h : (s.xIn i).takeIrq P = true) :
    (s.step i).csr.mepc = (s.xIn i).seqNx ∧ Mstatus.mie (s.step i).csr.mstatus = false ∧
      Mstatus.mpie (s.step i).csr.mstatus = true := by
  have ht := XIn.takeIrq_iff.mp h
  have hcsr : (s.step i).csr = { s.csr.trapEntry P.csr ((s.xIn i).csrIn P s.w.retireValid) with
      ctr := s.csr.tick ((s.xIn i).csrIn P s.w.retireValid) } :=
    csrNext_of_takeIrq h s.w.retireValid
  have hmie : Mstatus.mie s.csr.mstatus = true := by
    have hreq := ht.irqReq
    unfold XIn.irqReq Csr.irqReq at hreq
    exact (Bool.and_eq_true .. ▸ hreq : _ ∧ _).1
  rw [hcsr]
  refine ⟨?_, ?_, ?_⟩
  · exact (XIn.trapEntry_of_takeIrq h s.w.retireValid).1
  · unfold Csr.trapEntry
    simp
  · unfold Csr.trapEntry
    simp [hmie]

/-- F goes to the handler, but behind a FENCE.I. -/
theorem front_of_takeIrq (h : (s.xIn i).takeIrq P = true) :
    (s.step i).f = { s.f with
      pc := if (s.xIn i).isFencei then (s.xIn i).seqNx else s.csr.mtvec
      fxValid := false, straddle := false } := by
  have ht := XIn.takeIrq_iff.mp h
  refine FStage.step_of_redirect (i := s.fetchIn i) ?_
  show (s.xIn i).redirect P = _
  cases hf : (s.xIn i).isFencei with
  | true => exact XIn.redirect_of_isFencei (XIn.leaves_iff.mpr ⟨ht.valid, ht.free⟩) ht.exTrap hf
  | false => exact XIn.redirect_of_takeIrq h hf

/-- An MRET goes back to the address recorded. -/
theorem front_of_mret (hP : P.secure = false) (hl : (s.xIn i).leaves = true)
    (htrap : (s.xIn i).exTrap P = false) (hmret : (s.xIn i).dec.isMret = true) :
    (s.step i).f.pc = s.csr.mepc ∧
      Mstatus.mie (s.step i).csr.mstatus = Mstatus.mpie s.csr.mstatus := by
  obtain ⟨hv, hfz⟩ := XIn.leaves_iff.mp hl
  constructor
  · have hf : (s.step i).f = _ := FStage.step_of_redirect (i := s.fetchIn i)
      (XIn.redirect_of_mret hv hfz htrap hmret)
    rw [hf]
    rfl
  · have hset : (s.xIn i).mTrapSet P = false := by
      have hirq : (s.xIn i).takeIrq P = false :=
        XIn.takeIrq_eq_false_iff.mpr fun ht => Bool.false_ne_true (ht.mret.symm.trans hmret)
      unfold XIn.mTrapSet
      rw [htrap, hirq]
      rfl
    have hret : (s.xIn i).csrMret P = true := by
      unfold XIn.csrMret XIn.mretPrivFault XIn.privLow
      rw [hv, hmret, hfz, hP]
      rfl
    show Mstatus.mie ((s.xIn i).csrNext P s.w.retireValid).mstatus = _
    unfold XIn.csrNext Csr.step XIn.csrIn
    rw [hset, hret]
    show Mstatus.mie (Csr.mretReturn P.csr s.csr).mstatus = _
    unfold Csr.mretReturn
    rw [show P.csr.uMode = false from hP]
    simp

end Step

/-! ## What enters X next -/

/-- X is empty and F headed for `target`, or will be when Debug Mode is left. -/
structure Parked (s : Core P) (target : Word) : Prop where
  empty : s.f.fxValid = false
  captured : s.dbg.dpcCapValid = false
  headed : (if s.dbg.dbgMode then s.dbg.dpc else s.f.pc) = target

section Parking

variable {s : Core P} {i : CoreIn} {target : Word}

/-- In Debug Mode only a write changes `dpc`. -/
theorem halted_step (hm : s.dbg.dbgMode = true) (hw : writesDpc s i = false) :
    (s.step i).dbg.dpc = s.dbg.dpc ∧ (s.step i).dbg.dpcCapValid = s.dbg.dpcCapValid ∧
      (s.step i).dbg.dbgMode = !i.dbgResumereq := by
  have hacc : (s.dbgAccess i).dpc = s.dbg.dpc ∧
      (s.dbgAccess i).dpcCapValid = s.dbg.dpcCapValid := by
    unfold Core.dbgAccess
    dsimp only
    cases hdo : (s.dbgDo i && i.dbgArWrite && i.dbgArCsr) with
    | false => exact ⟨rfl, rfl⟩
    | true =>
      have hreg : i.dbgArRegno ≠ 0x7b1#12 := by
        unfold writesDpc at hw
        rw [hdo, Bool.true_and] at hw
        simpa using hw
      rw [if_pos rfl]
      unfold Dbg.writeLocal
      rw [if_neg hreg]
      split_ifs <;> exact ⟨rfl, rfl⟩
  rw [Core.dbg_of_dbgMode hm]
  unfold Core.dbgResume
  rw [hm, Bool.true_and]
  cases hr : i.dbgResumereq with
  | true => exact ⟨hacc.1, hacc.2, rfl⟩
  | false => exact ⟨hacc.1, hacc.2, (Core.dbgAccess_dbgMode s i).trans hm⟩

/-- What the debug registers do while X is empty outside Debug Mode. -/
theorem parked_dbg (h : Parked s target) (hm : s.dbg.dbgMode = false) :
    (s.step i).dbg.dpcCapValid = false ∧
      ((s.step i).dbg.dbgMode = true → (s.step i).dbg.dpc = s.f.pc ∧ s.dbg.haltReq = true) := by
  have hebr : s.ebreakToDebug = false := by
    unfold Core.ebreakToDebug
    rw [h.empty]
    rfl
  cases hd : (s.dbg.haltReq && s.pipeDrained) with
  | false =>
    rw [Core.dbg_stays hm hd]
    refine ⟨?_, fun hm' => absurd (hm.symm.trans hm') (by simp)⟩
    show (s.dbg.dpcCapValid || s.ebreakToDebug) = false
    rw [h.captured, hebr]
    rfl
  | true =>
    rw [Bool.and_eq_true] at hd
    rw [Core.dbg_enters hm hd.1 hd.2, h.captured]
    exact ⟨rfl, fun _ => ⟨rfl, hd.1⟩⟩

/-- **A parked core stays parked until the instruction at `target` enters X.** -/
theorem Parked.step (h : Parked s target) (hw : writesDpc s i = false) :
    ((s.step i).f.fxValid = false → Parked (s.step i) target) ∧
      ((s.step i).f.fxValid = true → (s.step i).f.fxPc = target) := by
  have hr : (s.fetchIn i).redirect = none := Core.redirect_of_empty h.empty i
  have hhead := h.headed
  cases hm : s.dbg.dbgMode with
  | true =>
    rw [hm, if_pos rfl] at hhead
    obtain ⟨hdpc, hcap, hmode⟩ := halted_step hm hw
    have hv : (s.step i).f.fxValid = false := s.fxValid_of_dbgFreeze i (by
      unfold Core.dbgFreeze
      rw [hm]
      rfl)
    refine ⟨fun _ => ⟨hv, hcap.trans h.captured, ?_⟩,
      fun hv' => absurd (hv.symm.trans hv') (by simp)⟩
    rw [hmode, hdpc]
    cases hq : i.dbgResumereq with
    | false => exact hhead
    | true =>
      -- resumed: F goes on at `dpc`
      have hres : (s.fetchIn i).dbgResumeNow = true := by
        show (s.dbg.dbgMode && i.dbgResumereq) = true
        rw [hm, hq]
        rfl
      have hf : (s.step i).f = _ := FStage.step_of_resume hr hres
      rw [Bool.not_true, if_neg Bool.false_ne_true, hf]
      exact hhead
  | false =>
    rw [hm, if_neg Bool.false_ne_true] at hhead
    obtain ⟨hcap, henters⟩ := parked_dbg (i := i) h hm
    have hpark : (s.step i).f.pc = s.f.pc → (s.step i).f.fxValid = false →
        Parked (s.step i) target := by
      intro hpc hv
      refine ⟨hv, hcap, ?_⟩
      cases hm' : (s.step i).dbg.dbgMode with
      | true => exact (henters hm').1.trans hhead
      | false => exact hpc.trans hhead
    have hc := s.f.step_clock s.bp.ghist (s.fetchIn i)
    have hf : (s.step i).f = s.f.step s.bp.ghist (s.fetchIn i) := rfl
    rw [← hf] at hc
    generalize hf' : (s.step i).f = f' at hc hpark ⊢
    cases hc with
    | redirected t hr' => exact absurd (hr.symm.trans hr') (by simp)
    | resumed _ hres =>
      have hres' : (s.dbg.dbgMode && i.dbgResumereq) = true := hres
      rw [hm] at hres'
      exact absurd hres' Bool.false_ne_true
    | frozen | straddled => exact ⟨fun hv => hpark rfl hv, fun hv => absurd hv Bool.false_ne_true⟩
    | stalled =>
      exact ⟨fun hv => hpark rfl hv, fun hv => absurd (h.empty.symm.trans hv) (by simp)⟩
    | accepted => exact ⟨fun hv => absurd hv (by simp [FStage.accept]), fun _ => hhead⟩

end Parking

/-! ## Whole runs -/

section Run

variable {s₀ : Core P} {i₀ : CoreIn} {ins : Nat → CoreIn} {n : Nat}

/-- **What leaves X retires exactly once.** -/
theorem issued_once (hc : (Core.runFrom s₀ i₀ ins n).xCommit = true)
    (hfz : (Core.runFrom s₀ i₀ ins n).exFreeze = false) :
    ∃! r, Core.Issued s₀ i₀ ins n r ∧ (Core.runFrom s₀ i₀ ins r).w.retireValid = true := by
  have hb : (Core.runFrom s₀ i₀ ins n).w.memBeatStall = false := by
    unfold Core.exFreeze at hfz
    rw [Bool.or_eq_false_iff] at hfz
    exact hfz.2
  obtain ⟨hval, hxw, hbeat⟩ := WStage.step_of_not_stall _ hb (ins n).dmemRdata
    (Core.runFrom s₀ i₀ ins n).xCommit (((Core.runFrom s₀ i₀ ins n).xIn (ins n)).xwNext P)
  have hval1 : (Core.runFrom s₀ i₀ ins (n + 1)).w.xwValid = true := hval.trans hc
  have hbeat1 : (Core.runFrom s₀ i₀ ins (n + 1)).w.beat2 = false := hbeat
  have hstep : (Core.runFrom s₀ i₀ ins (n + 2)).w.beat2 =
      (Core.runFrom s₀ i₀ ins (n + 1)).w.memBeatStall := rfl
  have hcases : ∀ r, Core.Issued s₀ i₀ ins n r →
      (r = n + 1 ∨ r = n + 2 ∧ (Core.runFrom s₀ i₀ ins (n + 2)).w.beat2 = true) := by
    intro r hr
    have h := hr.beat
    cases hb2 : (Core.runFrom s₀ i₀ ins r).w.beat2 with
    | false =>
      rw [hb2, if_neg Bool.false_ne_true] at h
      exact .inl h
    | true =>
      rw [hb2, if_pos rfl] at h
      subst h
      exact .inr ⟨rfl, hb2⟩
  cases hb1 : (Core.runFrom s₀ i₀ ins (n + 1)).w.memBeatStall with
  | false =>
    refine ⟨n + 1, ⟨⟨hc, hfz, hxw, by rw [hbeat1]; rfl⟩, ?_⟩, ?_⟩
    · exact (WStage.retireValid_iff _).mpr ⟨hval1, hb1⟩
    · rintro r ⟨hr, -⟩
      rcases hcases r hr with rfl | ⟨-, hb2⟩
      · rfl
      · exact absurd ((hstep.trans hb1).symm.trans hb2) (by simp)
  | true =>
    -- the first of two beats: it retires in the clock of the second
    obtain ⟨hval2, hxw2, hbeat2⟩ := WStage.step_of_stall _ hb1 (ins (n + 1)).dmemRdata
      (Core.runFrom s₀ i₀ ins (n + 1)).xCommit
      (((Core.runFrom s₀ i₀ ins (n + 1)).xIn (ins (n + 1))).xwNext P)
    have hb2 : (Core.runFrom s₀ i₀ ins (n + 2)).w.memBeatStall = false := by
      by_contra h
      rw [Bool.not_eq_false] at h
      exact absurd ((WStage.beat2_of_memBeatStall _ h).symm.trans hbeat2) (by simp)
    have hval2' : (Core.runFrom s₀ i₀ ins (n + 2)).w.xwValid = true := hval2.trans hval1
    refine ⟨n + 2, ⟨⟨hc, hfz, hxw2.trans hxw, by rw [hstep, hb1]; rfl⟩, ?_⟩, ?_⟩
    · exact (WStage.retireValid_iff _).mpr ⟨hval2', hb2⟩
    · rintro r ⟨hr, hret⟩
      rcases hcases r hr with rfl | ⟨rfl, -⟩
      · exact absurd (((WStage.retireValid_iff _).mp hret).2.symm.trans hb1) Bool.false_ne_true
      · rfl

/-- From a parked state the next instruction in X is the one at `target`. -/
theorem parked_run {target : Word} (h : Parked (Core.runFrom s₀ i₀ ins (n + 1)) target) {m : Nat}
    (hnm : n < m)
    (hno : ∀ k, n < k → k < m → (Core.runFrom s₀ i₀ ins k).f.fxValid = false ∧
      writesDpc (Core.runFrom s₀ i₀ ins k) (ins k) = false)
    (hv : (Core.runFrom s₀ i₀ ins m).f.fxValid = true) :
    (Core.runFrom s₀ i₀ ins m).f.fxPc = target := by
  obtain ⟨d, rfl⟩ : ∃ d, m = n + 1 + d := ⟨m - (n + 1), by omega⟩
  have hparked : ∀ j, j < d → Parked (Core.runFrom s₀ i₀ ins (n + 1 + j)) target := by
    intro j
    induction j with
    | zero => exact fun _ => h
    | succ j ih =>
      intro hj
      have hstep := (ih (by omega)).step (hno (n + 1 + j) (by omega) (by omega)).2
      exact hstep.1 (hno (n + 1 + (j + 1)) (by omega) (by omega)).1
  cases d with
  | zero => exact absurd (h.empty.symm.trans hv) (by simp)
  | succ d =>
    have hstep := (hparked d (by omega)).step (hno (n + 1 + d) (by omega) (by omega)).2
    exact hstep.2 hv

/-- **When an interrupt entry is precise.** In every reachable state in which an
interrupt is taken, the entry is precise exactly when the instruction in X is no
FENCE.I, or one that happens to stand before the handler. -/
theorem interrupt_precise_iff (hP : P.secure = false) (s₀ : Core P) (i₀ : CoreIn)
    (ins : Nat → CoreIn) (n : Nat)
    (h : (entryIn (Core.runFrom s₀ i₀ ins n) (ins n)).trapSet = true ∧
      (entryIn (Core.runFrom s₀ i₀ ins n) (ins n)).trapInterrupt = true) :
    Precise s₀ i₀ ins n ↔
      (((Core.runFrom s₀ i₀ ins n).xIn (ins n)).isFencei = true →
        ((Core.runFrom s₀ i₀ ins n).xIn (ins n)).seqNx = (Core.runFrom s₀ i₀ ins n).csr.mtvec) := by
  have htake : ((Core.runFrom s₀ i₀ ins n).xIn (ins n)).takeIrq P = true := h.2
  have ht := XIn.takeIrq_iff.mp htake
  have hv := ht.valid
  have hm := Core.running_of_valid s₀ i₀ ins n hv
  have hfront : (Core.runFrom s₀ i₀ ins (n + 1)).f = _ := front_of_takeIrq htake
  have hrecord := record htake
  have hnext : ((Core.runFrom s₀ i₀ ins n).xIn (calm (ins n))).nextPc P =
      ((Core.runFrom s₀ i₀ ins n).xIn (ins n)).seqNx := nextPc_calm hP htake
  constructor
  · intro hp hf
    have hgoes := hp.goes.1
    rw [hfront, hf, if_pos rfl] at hgoes
    exact hgoes
  · intro hok
    -- no halt is under way, so that nothing is captured
    have hdf' : (Core.runFrom s₀ i₀ ins n).dbgFreeze (ins n) = false := ht.dbgFreeze
    unfold Core.dbgFreeze at hdf'
    simp only [Bool.or_eq_false_iff] at hdf'
    obtain ⟨⟨⟨⟨-, hreq⟩, -⟩, hebr⟩, -⟩ := hdf'
    have hstays := Core.dbg_stays (i := ins n) hm (by rw [hreq]; rfl)
    have hpc : (Core.runFrom s₀ i₀ ins (n + 1)).f.pc = (Core.runFrom s₀ i₀ ins n).csr.mtvec := by
      rw [hfront]
      cases hf : ((Core.runFrom s₀ i₀ ins n).xIn (ins n)).isFencei with
      | true => exact hok hf
      | false => rfl
    have hempty : (Core.runFrom s₀ i₀ ins (n + 1)).f.fxValid = false := by
      rw [hfront]
    have hparked : Parked (Core.runFrom s₀ i₀ ins (n + 1)) (Core.runFrom s₀ i₀ ins n).csr.mtvec := by
      have hdbg : (Core.runFrom s₀ i₀ ins (n + 1)).dbg = _ := hstays
      refine ⟨hempty, ?_, ?_⟩
      · rw [hdbg]
        show ((Core.runFrom s₀ i₀ ins n).dbg.dpcCapValid ||
          (Core.runFrom s₀ i₀ ins n).ebreakToDebug) = false
        rw [hebr, Bool.or_false]
        by_contra hcap
        rw [Bool.not_eq_false] at hcap
        exact absurd (hreq.symm.trans ((Core.answered s₀ i₀ ins n).captured hcap)) (by simp)
      · have hm' : (Core.runFrom s₀ i₀ ins (n + 1)).dbg.dbgMode = false := by
          rw [hdbg]
          exact hm
        rw [hm', if_neg Bool.false_ne_true]
        exact hpc
    have hcommit : (Core.runFrom s₀ i₀ ins n).xCommit = true :=
      Core.xCommit_iff.mpr ⟨hv, (Core.exFreeze_eq_false_iff.mp ht.free).1, hebr⟩
    exact
      { effect := unaffected hP hm htake
        once := issued_once hcommit ht.free
        mepc := hrecord.1.trans hnext.symm
        masked := hrecord.2
        goes := ⟨hpc, hempty⟩
        enters := fun m hnm hno hvm => parked_run hparked hnm hno hvm
        returns := fun q hlq htrap hmret hepc => by
          obtain ⟨hback, hmie⟩ := front_of_mret hP hlq htrap hmret
          refine ⟨?_, hmie⟩
          rw [hnext, ← hrecord.1]
          exact hback.trans hepc }

end Run

/-- `csrrwi x0, mie, 8; csrrwi x0, mstatus, 8; addi x1, x0, 64` -/
def addiInterrupted : Memory where
  imem := .ofWords [0x30445073#32, 0x30045073#32, 0x04000093#32]
  dmem := fun _ => 0#8

/-- The software interrupt is taken on the ADDI, in clock 3. -/
theorem interrupt_precise_iff_addi :
    Precise (Core.powerUp {}) (addiInterrupted.resetIn {} { irq := { soft := true } })
      (addiInterrupted.inputs {} { irq := { soft := true } }) 3 := by
  refine (interrupt_precise_iff rfl _ _ _ 3 ?_).mpr ?_
  · rw [Memory.runFrom_inputs]
    decide +kernel
  · rw [Memory.runFrom_inputs]
    exact fun hf => absurd hf (by decide +kernel)

/-- `csrrwi x0, mie, 8; csrrwi x0, mstatus, 8; fence.i` -/
def fenceiInterrupted : Memory where
  imem := .ofWords [0x30445073#32, 0x30045073#32, 0x0000100f#32]
  dmem := fun _ => 0#8

/-- The software interrupt is recorded on the FENCE.I, and F goes on behind it. -/
theorem interrupt_lost_on_fencei :
    (entryIn (Core.runFrom (Core.powerUp {})
        (fenceiInterrupted.resetIn {} { irq := { soft := true } })
        (fenceiInterrupted.inputs {} { irq := { soft := true } }) 3)
      (fenceiInterrupted.inputs {} { irq := { soft := true } } 3)).trapInterrupt = true ∧
    ¬ Precise (Core.powerUp {}) (fenceiInterrupted.resetIn {} { irq := { soft := true } })
      (fenceiInterrupted.inputs {} { irq := { soft := true } }) 3 := by
  constructor
  · rw [Memory.runFrom_inputs]
    decide +kernel
  · intro h
    have hgoes := h.goes.1
    rw [Memory.runFrom_inputs, Memory.runFrom_inputs] at hgoes
    exact absurd hgoes (by decide +kernel)

end ThreeSippEs.Interrupt
