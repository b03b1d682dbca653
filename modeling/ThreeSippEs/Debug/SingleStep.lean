import ThreeSippEs.Pipeline.Simulation

/-!
# Single step

A core that is resumed with `dcsr.step` set freezes its front end in the first
clock in which the instruction is in X. An instruction that leaves X in that clock
is executed as by the sequential machine; one of the M extension waits there for
its unit, and the freeze drops it.

- `Clear`: what a clock must not do while the core steps;
- `Armed`, `Armed.reaches`: the instruction gets into X;
- `single_step`: it is executed, alone, and Debug Mode is entered behind it.
-/

namespace ThreeSippEs.SingleStep

open Clocked

variable {P : Params} {imemWritable : Word → Bool}

/-! ## What a step has to do -/

/-- What a clock must not do while the core steps. -/
structure Clear (s : Sys P) (e : ExtIn) : Prop where
  /-- the instruction is not of the M extension -/
  md : s.core.stepHaltNow = true → (decode s.core.f.fxInstr).isMd = false
  /-- no halt is requested before it is in X -/
  halt : s.core.dbg.stepActive = true → s.core.dbg.haltReq = false →
    s.core.f.fxValid = false → e.dbgHaltreq = false
  /-- F has not followed a stale prediction behind it -/
  checked : s.core.stepHaltNow = true → (s.xIn e).stale P = false

instance (s : Sys P) (e : ExtIn) : Decidable (Clear s e) :=
  decidable_of_iff
    ((s.core.stepHaltNow = true → (decode s.core.f.fxInstr).isMd = false) ∧
      (s.core.dbg.stepActive = true → s.core.dbg.haltReq = false →
        s.core.f.fxValid = false → e.dbgHaltreq = false) ∧
      (s.core.stepHaltNow = true → (s.xIn e).stale P = false))
    ⟨fun h => ⟨h.1, h.2.1, h.2.2⟩, fun h => ⟨h.md, h.halt, h.checked⟩⟩

/-- The machine at the PC of `s`, with the counters of `c`. -/
def counted (s : Sys P) (c : Csr) : Arch :=
  s.archAt.live { s.core.csr with ctr := c.ctr }

/-- The interrupt lines of a clock, none of which is taken. -/
def heldOff (c : Csr) (e : ExtIn) : Env where
  irq := e.irq
  masked := c.irqReq e.irq

/-- From `s` the core is in Debug Mode again after `m` clocks, and the machine `a` has
taken one step, with label `l`. -/
structure Executes (imemWritable : Word → Bool) (s : Sys P) (ins : Nat → ExtIn) (m : Nat)
    (a : Arch) (l : Env) : Prop where
  running : ∀ k < m, (run (Sys.step imemWritable) s ins k).core.dbg.dbgMode = false
  halted : (run (Sys.step imemWritable) s ins m).core.dbg.dbgMode = true
  cause : (run (Sys.step imemWritable) s ins m).core.dbg.dcsrCause = 4#3
  dpc : (run (Sys.step imemWritable) s ins m).core.dbg.dpc = (a.step P imemWritable l).pc
  data : (run (Sys.step imemWritable) s ins m).backend.data = (a.step P imemWritable l).data
  csr : (run (Sys.step imemWritable) s ins m).core.csr.uncounted = (a.step P imemWritable l).csr
  ucsr : (run (Sys.step imemWritable) s ins m).core.ucsr = (a.step P imemWritable l).ucsr
  trig : (run (Sys.step imemWritable) s ins m).core.trig = (a.step P imemWritable l).trig
  /-- its accesses and its retirement are all that is seen -/
  shown : trace (Sys.step imemWritable) (fun s _ => s.backend.shown) s ins m = a.events P l

/-- The instruction at the PC of `s` is executed, in the clock `c` in which it is in X,
and nothing else is. -/
def StepsOnce (imemWritable : Word → Bool) (s : Sys P) (ins : Nat → ExtIn) : Prop :=
  ∃ c m, c < m ∧ Executes imemWritable s ins m
    (counted s (run (Sys.step imemWritable) s ins c).core.csr)
    (heldOff (run (Sys.step imemWritable) s ins c).core.csr (ins c))

/-! ## Into X -/

/-- Resumed to step, with nothing in W and no halt under way. -/
structure Armed (s : Core P) : Prop where
  w : s.w.xwValid = false
  mode : s.dbg.dbgMode = false
  active : s.dbg.stepActive = true
  haltReq : s.dbg.haltReq = false
  ebreakm : s.dbg.dcsrEbreakm = false
  captured : s.dbg.dpcCapValid = false

section Fetch

variable {s : Core P} {i : CoreIn}

/-- A clock with X empty fetches the instruction, or its first half. -/
theorem Armed.fetch (h : Armed s) (hx : s.f.fxValid = false) (hi : i.dbgHaltreq = false) :
    Armed (s.step i) ∧ ((s.step i).f.fxValid = true ∨
      s.f.straddle = false ∧ (s.step i).f.straddle = true) := by
  have hnow : s.stepHaltNow = false := by
    unfold Core.stepHaltNow
    rw [hx]
    simp
  have hebr := Core.ebreakToDebug_of_empty hx
  have hdbg := Core.dbg_stays (i := i) h.mode (by rw [h.haltReq]; rfl)
  constructor
  · refine ⟨s.xwValid_of_drained i hx h.w, ?_, ?_, ?_, ?_, ?_⟩
    · rw [hdbg]
      exact h.mode
    · rw [hdbg]
      exact h.active
    · rw [hdbg]
      show (s.dbg.haltReq || i.dbgHaltreq || s.ebreakToDebug || s.stepHaltNow) = false
      rw [h.haltReq, hi, hebr, hnow]
      rfl
    · rw [hdbg]
      exact h.ebreakm
    · rw [hdbg]
      show (s.dbg.dpcCapValid || s.ebreakToDebug) = false
      rw [h.captured, hebr]
      rfl
  · have hfree : s.dbgFreeze i = false := by
      unfold Core.dbgFreeze
      rw [h.mode, h.haltReq, hi, hebr, hnow]
      rfl
    have hstall := Core.exFreeze_eq_false_iff.mpr
      ⟨Core.mdStall_of_empty hx, (MulDivHazard.w_empty h.w).1⟩
    have hc := s.f.step_clock s.bp.ghist (s.fetchIn i)
    have hf : (s.step i).f = s.f.step s.bp.ghist (s.fetchIn i) := rfl
    rw [hf]
    generalize s.f.step s.bp.ghist (s.fetchIn i) = f' at hc
    cases hc with
    | redirected target hr =>
      exact absurd ((Core.redirect_of_empty hx i).symm.trans hr) (by simp)
    | resumed _ hres =>
      have hres' : (s.dbg.dbgMode && i.dbgResumereq) = true := hres
      rw [h.mode] at hres'
      exact absurd hres' Bool.false_ne_true
    | frozen _ _ hfz => exact absurd (hfree.symm.trans hfz) Bool.false_ne_true
    | stalled _ _ _ hst => exact absurd (hstall.symm.trans hst) Bool.false_ne_true
    | straddled _ _ _ _ hs =>
      unfold FStage.needStraddle at hs
      rw [Bool.and_eq_true, Bool.not_eq_true'] at hs
      exact .inr ⟨hs.2, rfl⟩
    | accepted => exact .inl rfl

/-- **The instruction gets into X**, in one clock or, when it straddles, in two. -/
theorem Armed.reaches {ins : Nat → CoreIn} (h : Armed s) (hx : s.f.fxValid = false)
    (hhalt : ∀ k < 2, Armed (run Core.step s ins k) →
      (run Core.step s ins k).f.fxValid = false → (ins k).dbgHaltreq = false) :
    ∃ c ≤ 2, (∀ k < c, (run Core.step s ins k).f.fxValid = false) ∧
      (run Core.step s ins c).f.fxValid = true ∧ ∀ k ≤ c, Armed (run Core.step s ins k) := by
  obtain ⟨h1, hf1⟩ := h.fetch hx (hhalt 0 (by omega) h hx)
  cases hv : (s.step (ins 0)).f.fxValid with
  | true =>
    refine ⟨1, by omega, fun k hk => ?_, hv, fun k hk => ?_⟩
    · obtain rfl : k = 0 := by omega
      exact hx
    · rcases Nat.le_one_iff_eq_zero_or_eq_one.mp hk with rfl | rfl
      · exact h
      · exact h1
  | false =>
    -- the second half follows
    obtain ⟨h2, hf2⟩ := h1.fetch hv (hhalt 1 (by omega) h1 hv)
    have hs := (hf1.resolve_left (by simp [hv])).2
    have hv2 := hf2.resolve_right fun hs' => absurd (hs.symm.trans hs'.1) (by simp)
    refine ⟨2, Nat.le_refl 2, fun k hk => ?_, hv2, fun k hk => ?_⟩
    · rcases Nat.le_one_iff_eq_zero_or_eq_one.mp (Nat.le_of_lt_succ hk) with rfl | rfl
      · exact hx
      · exact hv
    · match k, hk with
      | 0, _ => exact h
      | 1, _ => exact h1
      | 2, _ => exact h2

end Fetch

/-! ## Out of X -/

/-- The instruction to step is in X. -/
structure Stepped (s : Core P) : Prop extends Armed s where
  valid : s.f.fxValid = true
  plain : (decode s.f.fxInstr).isMd = false

section Leave

variable {s : Core P} {i : CoreIn}

theorem Stepped.stepHaltNow (h : Stepped s) : s.stepHaltNow = true := by
  unfold Core.stepHaltNow
  rw [h.active, h.valid, h.mode]
  rfl

theorem Stepped.dbgFreeze (h : Stepped s) : s.dbgFreeze i = true := by
  unfold Core.dbgFreeze
  rw [h.stepHaltNow, Bool.or_true]

/-- Only the M unit could have held it. -/
theorem Stepped.exFreeze (h : Stepped s) : s.exFreeze = false :=
  Core.exFreeze_eq_false_iff.mpr ⟨Core.mdStall_of_not_md h.plain, (MulDivHazard.w_empty h.w).1⟩

/-- **It leaves X, and the front end is frozen behind it** until Debug Mode is entered. -/
theorem Stepped.leaves (h : Stepped s) (ins : Nat → CoreIn) :
    ∃ m, 1 < m ∧ (∀ k, 0 < k → k ≤ m → (run Core.step s ins k).f.fxValid = false) ∧
      (∀ k < m, (run Core.step s ins k).dbg.dbgMode = false) ∧
      (run Core.step s ins m).dbg.dbgMode = true ∧ (run Core.step s ins m).dbg.dcsrCause = 4#3 := by
  have hebr := Core.ebreakToDebug_of_not_ebreakm h.ebreakm
  have hdbg : (s.step (ins 0)).dbg = s.dbgRunning (ins 0) :=
    Core.dbg_stays h.mode (by rw [h.haltReq]; rfl)
  have hm : (s.step (ins 0)).dbg.dbgMode = false := by
    rw [hdbg]
    exact h.mode
  have hreq : (s.step (ins 0)).dbg.haltReq = true := by
    rw [hdbg]
    show (s.dbg.haltReq || (ins 0).dbgHaltreq || s.ebreakToDebug || s.stepHaltNow) = true
    rw [h.stepHaltNow, Bool.or_true]
  have hcap : (s.step (ins 0)).dbg.dpcCapValid = false := by
    rw [hdbg]
    show (s.dbg.dpcCapValid || s.ebreakToDebug) = false
    rw [h.captured, hebr]
    rfl
  have hact : (s.step (ins 0)).dbg.stepActive = true := by
    rw [hdbg]
    exact h.active
  have hv : (s.step (ins 0)).f.fxValid = false := s.fxValid_of_dbgFreeze _ h.dbgFreeze
  obtain ⟨m, hpos, -, hempty, hrun, hmode, -, hcause⟩ :=
    Core.drains (s.step (ins 0)) (fun k => ins (1 + k)) hm hreq hv
  have hshift : ∀ j, run Core.step s ins (1 + j) =
      run Core.step (s.step (ins 0)) (fun k => ins (1 + k)) j := run_add Core.step s ins 1
  refine ⟨1 + m, by omega, fun k hk0 hk => ?_, fun k hk => ?_, ?_, ?_⟩
  · obtain ⟨j, rfl⟩ : ∃ j, k = 1 + j := ⟨k - 1, by omega⟩
    rw [hshift]
    exact hempty j (by omega)
  · cases k with
    | zero => exact h.mode
    | succ j =>
      rw [Nat.add_comm j 1, hshift]
      exact hrun j (by omega)
  · rw [hshift]
    exact hmode
  · rw [hshift, hcause, hcap, hact]
    rfl

end Leave

/-! ## The step -/

section Run

variable {s : Sys P} {ins : Nat → ExtIn}

/-- The counters apart, the machine with the counters of `c` is the one with `c`. -/
theorem counted_eq {c : Csr} (h : c.uncounted = s.archAt.csr) : counted s c = s.archAt.live c := by
  have hc : { s.core.csr with ctr := c.ctr } = c := by
    show { s.core.csr.uncounted with ctr := c.ctr } = c
    rw [show s.core.csr.uncounted = c.uncounted from h.symm]
    rfl
  unfold counted
  rw [hc]

/-- What a clock has to be for the pipeline to follow the architecture: X is empty, or
holds the instruction to step, which was not written meanwhile. -/
theorem steady {t : Sys P} {e : ExtIn} {a : Arch} (hm : t.core.dbg.dbgMode = false)
    (hx : t.core.f.fxValid = true → Stepped t.core ∧ a.fetchClean = true)
    (hclear : t.core.f.fxValid = true → Clear t e) : t.Steady e a where
  kept hv hfz := absurd ((hx hv).1.exFreeze.symm.trans hfz) Bool.false_ne_true
  unwritten := by
    rw [Core.dbgDo_of_running hm]
    rfl
  fenced hc := by
    unfold Sys.commits Core.xCommit at hc
    simp only [Bool.and_eq_true] at hc
    exact (hx hc.1.1.1).2
  checked := by
    by_contra hst
    rw [Bool.not_eq_false] at hst
    have hv : t.core.f.fxValid = true := by
      unfold XIn.stale at hst
      simp only [Bool.and_eq_true] at hst
      exact (XIn.leaves_iff.mp hst.1.1.1.1.1).1
    exact absurd (((hclear hv).checked (hx hv).1.stepHaltNow).symm.trans hst) Bool.false_ne_true
  fencei := by
    by_contra hf
    rw [Bool.not_eq_false] at hf
    unfold XIn.fenceiInterrupted at hf
    simp only [Bool.and_eq_true, Bool.not_eq_true'] at hf
    have hdf : t.core.dbgFreeze (t.coreIn e) = false := hf.2
    exact absurd ((hx hf.1.1.1.1.1).1.dbgFreeze.symm.trans hdf) (by simp)

/-- Nothing was written since the core was resumed. -/
theorem archAt_clean (s : Sys P) : s.archAt.fetchClean = true := by
  unfold Arch.fetchClean Arch.halfClean Sys.archAt
  simp

/-- The course of a step: the instruction is in X in one clock `c`, and Debug Mode is
entered in clock `m`. -/
theorem course (h : Armed s.core) (hx : s.core.f.fxValid = false)
    (hclear : ∀ k ≤ 2, Clear (run (Sys.step imemWritable) s ins k) (ins k)) :
    ∃ c m, c < m ∧ c ≤ 2 ∧ Stepped (run (Sys.step imemWritable) s ins c).core ∧
      (∀ k ≤ m, (run (Sys.step imemWritable) s ins k).core.f.fxValid = true → k = c) ∧
      (∀ k < m, (run (Sys.step imemWritable) s ins k).core.dbg.dbgMode = false) ∧
      (run (Sys.step imemWritable) s ins m).core.dbg.dbgMode = true ∧
      (run (Sys.step imemWritable) s ins m).core.dbg.dcsrCause = 4#3 := by
  have hcore := s.core_run imemWritable ins
  obtain ⟨c, hc2, hempty, hvalid, harmed⟩ :=
    @Armed.reaches _ _ (fun k => (run (Sys.step imemWritable) s ins k).coreIn (ins k)) h hx
      fun k hk hk' hv => by
        rw [← hcore] at hk' hv
        exact (hclear k (Nat.le_of_lt hk)).halt hk'.active hk'.haltReq hv
  -- in clock `c` the instruction is in X
  have hX : Stepped (run (Sys.step imemWritable) s ins c).core := by
    have hA := harmed c (Nat.le_refl c)
    rw [← hcore] at hA hvalid
    refine ⟨hA, hvalid, (hclear c hc2).md ?_⟩
    unfold Core.stepHaltNow
    rw [hA.active, hvalid, hA.mode]
    rfl
  have htail : ∀ k, (run (Sys.step imemWritable) s ins (c + k)).core = _ := fun k =>
    (congrArg Sys.core (run_add _ s ins c k)).trans
      ((run (Sys.step imemWritable) s ins c).core_run imemWritable (fun j => ins (c + j)) k)
  obtain ⟨d, hd, hafter, hrun, hmode, hcause⟩ := hX.leaves fun k =>
    (run (Sys.step imemWritable) (run (Sys.step imemWritable) s ins c) (fun j => ins (c + j))
      k).coreIn (ins (c + k))
  have hm : ∀ k < c + d, (run (Sys.step imemWritable) s ins k).core.dbg.dbgMode = false := by
    intro k hk
    rcases Nat.lt_or_ge k c with hlt | hge
    · rw [hcore]
      exact (harmed k (Nat.le_of_lt hlt)).mode
    · obtain ⟨j, rfl⟩ := Nat.exists_eq_add_of_le hge
      rw [htail]
      exact hrun j (by omega)
  have honly : ∀ k ≤ c + d, (run (Sys.step imemWritable) s ins k).core.f.fxValid = true →
      k = c := by
    intro k hk hv
    rcases Nat.lt_trichotomy k c with hlt | heq | hgt
    · rw [hcore] at hv
      exact absurd ((hempty k hlt).symm.trans hv) Bool.false_ne_true
    · exact heq
    · obtain ⟨j, rfl⟩ := Nat.exists_eq_add_of_le (Nat.le_of_lt hgt)
      rw [htail] at hv
      exact absurd ((hafter j (by omega) (by omega)).symm.trans hv) Bool.false_ne_true
  refine ⟨c, c + d, by omega, hc2, hX, honly, hm, ?_, ?_⟩
  · rw [htail]
    exact hmode
  · rw [htail]
    exact hcause

/-- **From a core that has been resumed to step.** -/
theorem stepsOnce (h : Armed s.core) (hx : s.core.f.fxValid = false)
    (hs : s.core.f.straddle = false) (hpred : P.bpred = false → s.core.f.fxPredTaken = false)
    (hclear : ∀ k ≤ 2, Clear (run (Sys.step imemWritable) s ins k) (ins k)) :
    StepsOnce imemWritable s ins := by
  obtain ⟨c, m, hcm, hc2, hX, honly, hrunning, hhalted, hcause⟩ := course h hx hclear
  obtain ⟨hsim, hpend⟩ :=
    Sys.sim_archAt imemWritable hx hs h.w h.mode hpred h.ebreakm h.captured
  have hcommit : (run (Sys.step imemWritable) s ins c).commits = true := by
    have hb := (MulDivHazard.w_empty hX.w).1
    have hcommit := Core.xCommit_iff.mpr
      ⟨hX.valid, Core.mdStall_of_not_md hX.plain, Core.ebreakToDebug_of_not_ebreakm hX.ebreakm⟩
    unfold Sys.commits
    rw [hcommit, hb]
    rfl
  have hlabels : ∀ n ≤ m, labels (Sys.step imemWritable) (fun t _ => t.commits)
      (fun t e => (t.label e, t.core.csr)) s ins n = if c < n then
        [((run (Sys.step imemWritable) s ins c).label (ins c),
          (run (Sys.step imemWritable) s ins c).core.csr)] else [] := by
    intro n hn
    refine @labels_once _ _ _ _ (fun (t : Sys P) _ => t.commits) _ _ _ _ hcommit n fun k hk hkc => ?_
    by_contra hc
    rw [Bool.not_eq_false] at hc
    unfold Sys.commits Core.xCommit at hc
    simp only [Bool.and_eq_true] at hc
    exact hkc (honly k (by omega) hc.1.1.1)
  -- up to clock `m` the pipeline follows the architecture
  have hok : ∀ k < m, (run (Sys.step imemWritable) s ins k).Steady (ins k)
      (seqRun (fun a l => (a.live l.2).step P imemWritable l.1) s.archAt
        (labels (Sys.step imemWritable) (fun t _ => t.commits)
          (fun t e => (t.label e, t.core.csr)) s ins k)) := by
    intro k hk
    refine steady (hrunning k hk) (fun hv => ?_) (fun hv => ?_)
    · obtain rfl := honly k (Nat.le_of_lt hk) hv
      rw [hlabels k (Nat.le_of_lt hk), if_neg (Nat.lt_irrefl k)]
      exact ⟨hX, archAt_clean s⟩
    · obtain rfl := honly k (Nat.le_of_lt hk) hv
      exact hclear k hc2
  have hsimC := ((Sys.refines_live P imemWritable).run hsim hpend c
    fun k hk => hok k (by omega)).1
  obtain ⟨hsimM, htrace⟩ := (Sys.refines_live P imemWritable).run hsim hpend m hok
  rw [hlabels c (Nat.le_of_lt hcm), if_neg (Nat.lt_irrefl c)] at hsimC
  rw [hlabels m (Nat.le_refl m), if_pos hcm, seqTrace_singleton] at htrace
  rw [hlabels m (Nat.le_refl m), if_pos hcm] at hsimM
  have hlabel : (run (Sys.step imemWritable) s ins c).label (ins c) =
      heldOff (run (Sys.step imemWritable) s ins c).core.csr (ins c) := by
    have hfz : ((run (Sys.step imemWritable) s ins c).xIn (ins c)).dbgFreeze = true := hX.dbgFreeze
    have hmd : ((run (Sys.step imemWritable) s ins c).xIn (ins c)).dec.isMd = false := hX.plain
    unfold Sys.label
    rw [hfz, hmd, Bool.and_true]
    rfl
  rw [hlabel] at hsimM htrace
  obtain ⟨hdpc, -, hw⟩ := hsimM.halted hhalted
  obtain ⟨hdr, hpe, -⟩ := Backend.drained_empty imemWritable
    (b := (run (Sys.step imemWritable) s ins m).backend) hw
  refine ⟨c, m, hcm, ?_⟩
  rw [counted_eq hsimC.csr]
  rw [hpe, List.append_nil] at htrace
  exact ⟨hrunning, hhalted, hcause, hdpc, hdr.symm.trans hsimM.data, hsimM.csr, hsimM.ucsr,
    hsimM.trig, htrace⟩

end Run

/-! ## Resumed -/

section Resume

variable {s : Sys P} {e : ExtIn}

/-- F goes on at `dpc`, and the core is armed when `dcsr.step` is set. -/
theorem resume (hm : s.core.dbg.dbgMode = true) (hres : e.dbgResumereq = true)
    (hv : s.core.f.fxValid = false) :
    (s.step imemWritable e).core.f =
        { s.core.f with pc := s.core.dbg.dpc, fxValid := false, straddle := false } ∧
      (s.step imemWritable e).core.dbg.dbgMode = false ∧
      (s.step imemWritable e).core.dbg.stepActive = s.core.dbg.dcsrStep ∧
      (s.step imemWritable e).core.dbg.haltReq = s.core.dbg.haltReq ∧
      (s.step imemWritable e).core.dbg.dpcCapValid = s.core.dbg.dpcCapValid := by
  constructor
  · refine FStage.step_of_resume (i := s.core.fetchIn (s.coreIn e))
      (Core.redirect_of_empty hv _) ?_
    show (s.core.dbg.dbgMode && e.dbgResumereq) = true
    rw [hm, hres]
    rfl
  · show (s.core.step (s.coreIn e)).dbg.dbgMode = false ∧ _
    have hdbg : (s.core.step (s.coreIn e)).dbg =
        { s.core.dbgAccess (s.coreIn e) with
          dbgMode := false, stepActive := s.core.dbg.dcsrStep } := by
      rw [Core.dbg_of_dbgMode hm]
      unfold Core.dbgResume
      rw [hm, show (s.coreIn e).dbgResumereq = true from hres]
      rfl
    obtain ⟨hreq, hcap⟩ := s.core.dbgAccess_request (s.coreIn e)
    show _ ∧ (s.core.step (s.coreIn e)).dbg.stepActive = _ ∧
      (s.core.step (s.coreIn e)).dbg.haltReq = _ ∧ (s.core.step (s.coreIn e)).dbg.dpcCapValid = _
    rw [hdbg]
    exact ⟨rfl, rfl, hreq, hcap⟩

/-- An empty core keeps its architectural state when the debugger writes nothing. -/
theorem archAt_step (hw : (s.core.dbgDo (s.coreIn e) && e.dbgArWrite) = false)
    (hv : s.core.f.fxValid = false) (hxw : s.core.w.xwValid = false) :
    (s.step imemWritable e).archAt =
      { s.archAt with pc := (s.step imemWritable e).core.f.pc } := by
  have hdata : (s.step imemWritable e).backend.data = s.backend.data := by
    rw [Sys.backend_step hw, Backend.data_step]
    exact (Backend.drained_empty imemWritable (b := s.backend) hxw).2.2
  have hidle : (s.xIn e).Idle P := by
    refine XIn.idle ?_ fun _ => ?_
    · by_contra hl
      rw [Bool.not_eq_false] at hl
      exact absurd (hv.symm.trans (XIn.leaves_iff.mp hl).1) Bool.false_ne_true
    · show s.core.dbgCsrWe (s.coreIn e) = false
      unfold Core.dbgCsrWe
      show (s.core.dbgDo (s.coreIn e) && e.dbgArWrite && _ && _) = false
      rw [hw]
      rfl
  obtain ⟨hcsr, hucsr, htrig⟩ := hidle.keeps s.core.w.retireValid
  refine (Arch.mk.injEq ..).mpr ⟨rfl, congrArg Data.regs hdata, ?_, hucsr, htrig,
    congrArg Data.resv hdata, congrArg Data.mem hdata, rfl⟩
  show ((s.xIn e).csrNext P s.core.w.retireValid).uncounted = s.core.csr.uncounted
  rw [hcsr]
  rfl

end Resume

/-- **Single step.** In every reachable state, a halted core that is resumed with
`dcsr.step` set and `dcsr.ebreakm` clear executes the instruction at `dpc`, that one
alone and with its full effect, and is in Debug Mode again behind it, when the three
clocks behind the resume are clear. -/
theorem single_step (P : Params) (imemWritable : Word → Bool) (s₀ : Sys P) (e₀ : ExtIn)
    (ins : Nat → ExtIn) (n : Nat)
    (hm : (run (Sys.step imemWritable) (s₀.reset imemWritable e₀) ins n).core.dbg.dbgMode = true)
    (hres : (ins n).dbgResumereq = true)
    (hstep : (run (Sys.step imemWritable) (s₀.reset imemWritable e₀) ins n).core.dbg.dcsrStep = true)
    (hebr : (run (Sys.step imemWritable) (s₀.reset imemWritable e₀) ins
      (n + 1)).core.dbg.dcsrEbreakm = false)
    (hclear : ∀ k, n < k → k ≤ n + 3 →
      Clear (run (Sys.step imemWritable) (s₀.reset imemWritable e₀) ins k) (ins k)) :
    (run (Sys.step imemWritable) (s₀.reset imemWritable e₀) ins (n + 1)).archAt.pc =
        (run (Sys.step imemWritable) (s₀.reset imemWritable e₀) ins n).core.dbg.dpc ∧
      (((run (Sys.step imemWritable) (s₀.reset imemWritable e₀) ins n).core.dbgDo
          ((run (Sys.step imemWritable) (s₀.reset imemWritable e₀) ins n).coreIn (ins n)) &&
          (ins n).dbgArWrite) = false →
        (run (Sys.step imemWritable) (s₀.reset imemWritable e₀) ins (n + 1)).archAt =
          { (run (Sys.step imemWritable) (s₀.reset imemWritable e₀) ins n).archAt with
            pc := (run (Sys.step imemWritable) (s₀.reset imemWritable e₀) ins n).core.dbg.dpc }) ∧
      StepsOnce imemWritable (run (Sys.step imemWritable) (s₀.reset imemWritable e₀) ins (n + 1))
        (fun k => ins (n + 1 + k)) := by
  obtain ⟨hv, hw, hreq, hcap⟩ := Sys.halted_empty s₀ e₀ ins n hm
  obtain ⟨hf, hmode, hact, hreq', hcap'⟩ := @resume _ imemWritable _ _ hm hres hv
  have hpc : (run (Sys.step imemWritable) (s₀.reset imemWritable e₀) ins (n + 1)).core.f.pc =
      (run (Sys.step imemWritable) (s₀.reset imemWritable e₀) ins n).core.dbg.dpc :=
    congrArg FStage.pc hf
  have harmed : Armed (run (Sys.step imemWritable) (s₀.reset imemWritable e₀) ins (n + 1)).core :=
    ⟨Core.xwValid_of_drained _ _ hv hw, hmode, hact.trans hstep, hreq'.trans hreq, hebr,
      hcap'.trans hcap⟩
  refine ⟨hpc, fun hwrite => ?_, ?_⟩
  · rw [← hpc]
    exact archAt_step hwrite hv hw
  · refine stepsOnce harmed (congrArg FStage.fxValid hf) (congrArg FStage.straddle hf)
      (fun hb => Sys.unpredicted_run hb s₀ e₀ ins (n + 1)) fun k hk => ?_
    rw [← run_add]
    exact hclear (n + 1 + k) (by omega) (by omega)

/-- The debugger halts the core out of reset, sets `dcsr.step` and resumes it. -/
def haltAndStep : Nat → ExtIn
  | 0 => { dbgHaltreq := true }
  | 2 => { dbgArValid := true, dbgArWrite := true, dbgArCsr := true, dbgArRegno := 0x7b0#12
           dbgArWdata := 4#32 }
  | 3 => { dbgResumereq := true }
  | _ => {}

/-- `addi x1, x0, 64; addi x2, x0, 64` -/
def twoAddis : Sys {} :=
  ⟨Core.powerUp {}, { imem := .ofWords [0x04000093#32, 0x04000113#32], dmem := fun _ => 0#8 }⟩

/-- The first ADDI is stepped. -/
theorem single_step_addi :
    StepsOnce (fun _ => false)
      (run (Sys.step fun _ => false) (twoAddis.reset (fun _ => false) {}) haltAndStep 4)
      (fun k => haltAndStep (4 + k)) := by
  refine (single_step {} (fun _ => false) twoAddis {} haltAndStep 3 (by decide +kernel) rfl
    (by decide +kernel) (by decide +kernel) fun k hk hk' => ?_).2.2
  have hcases : k = 4 ∨ k = 5 ∨ k = 6 := by omega
  rcases hcases with rfl | rfl | rfl <;> decide +kernel

/-- `mul x2, x1, x1` -/
def mulAtReset : Sys {} :=
  ⟨Core.powerUp {}, { imem := .ofWords [0x02108133#32], dmem := fun _ => 0#8 }⟩

/-- A MUL that is stepped never retires: Debug Mode is entered again behind it without
anything being seen. -/
theorem mul_not_stepped :
    (run (Sys.step fun _ => false) (mulAtReset.reset (fun _ => false) {}) haltAndStep
        3).core.dbg.dbgMode = true ∧
      (run (Sys.step fun _ => false) (mulAtReset.reset (fun _ => false) {}) haltAndStep
        3).core.dbg.dcsrStep = true ∧
      ¬ StepsOnce (fun _ => false)
        (run (Sys.step fun _ => false) (mulAtReset.reset (fun _ => false) {}) haltAndStep 4)
        (fun k => haltAndStep (4 + k)) := by
  refine ⟨by decide +kernel, by decide +kernel, ?_⟩
  rintro ⟨c, m, -, h⟩
  -- Debug Mode is entered in the third clock behind the resume
  have hm : m = 3 := by
    rcases Nat.lt_trichotomy m 3 with hlt | heq | hgt
    · have hhalted := h.halted
      have hcases : m = 0 ∨ m = 1 ∨ m = 2 := by omega
      rcases hcases with rfl | rfl | rfl <;> exact absurd hhalted (by decide +kernel)
    · exact heq
    · exact absurd (h.running 3 hgt) (by decide +kernel)
  subst hm
  have hshown := h.shown
  have hnone : trace (Sys.step fun _ => false) (fun s _ => s.backend.shown)
      (run (Sys.step fun _ => false) (mulAtReset.reset (fun _ => false) {}) haltAndStep 4)
      (fun k => haltAndStep (4 + k)) 3 = [] := by decide +kernel
  rw [hnone] at hshown
  unfold Arch.events at hshown
  exact absurd hshown.symm (by simp)

end ThreeSippEs.SingleStep
