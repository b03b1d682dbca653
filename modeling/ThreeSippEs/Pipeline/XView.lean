import ThreeSippEs.Pipeline.Backend

/-!
# What X computes is architectural

The X stage sees more than the architecture: the prediction its instruction was
fetched with, the counters, the ports of the debugger, an answer of the M unit
that is not for it. `XIn.visible` blanks all of that, and the lemmas here say
that nothing the stage computes depends on it, the choice between redirecting
and going on apart.

- `step_visible`: the next CSR state; `finish_visible`: what W makes of the
  instruction;
- `redirect_nextPc`, `predNext_nextPc`: where the front end goes is the next PC
  in program order, unless a prediction is stale or an interrupt meets a FENCE.I.
-/

namespace ThreeSippEs

/-! ## Counters -/

namespace Csr

variable {P : CsrParams} {c : Csr}

/-- Other addresses read the same whatever the counters hold. -/
theorem rdata_uncounted {a : BitVec 12} (h : isCounter a = false) (irq : IrqLines) :
    c.uncounted.rdata P irq a = c.rdata P irq a := by
  have hread : ∀ d : Csr, d.readCounter a = none := by
    intro d
    unfold isCounter counterAddrs at h
    simp only [List.contains_cons, Bool.or_eq_false_iff, beq_eq_false_iff_ne] at h
    unfold readCounter group4
    simp [h]
  unfold rdata
  rw [hread, hread]
  rfl

/-- No other register has the address of a counter. -/
theorem counter_address : ∀ a ∈ counterAddrs, isPmpaddr a = false ∧ isPmpcfg a = false ∧
    a ≠ csrMseccfg ∧ a ≠ csrMstatus ∧ a ≠ csrMie ∧ a ≠ csrMtvec ∧ a ≠ csrMscratch ∧
    a ≠ csrMepc ∧ a ≠ csrMcause ∧ a ≠ csrMtval ∧ group4 csrMhpmevent3 a = none ∧
    Trig.isAddr a = false ∧ Ucsr.isAddr a = false := by
  unfold counterAddrs
  iterate 12 refine List.forall_mem_cons.mpr ⟨by decide, ?_⟩
  exact List.forall_mem_nil _

/-- Outside of the PMP the regions play no part. -/
theorem rdata_regions {a : BitVec 12} {irq : IrqLines} (d : Csr) (hpa : isPmpaddr a = false)
    (hpc : isPmpcfg a = false) (hsec : a ≠ csrMseccfg) :
    d.rdata P irq a = d.rdata { P with pmpRegions := 0 } irq a := by
  have hno : ∀ n : Nat, ¬ (0 < n ∧ isPmpaddr a = true) ∧ ¬ (0 < n ∧ isPmpcfg a = true) ∧
      ¬ (0 < n ∧ a = csrMseccfg) := by
    intro n
    rw [hpa, hpc]
    exact ⟨fun h => Bool.false_ne_true h.2, fun h => Bool.false_ne_true h.2, fun h => hsec h.2⟩
  unfold rdata
  rw [if_neg (hno _).1, if_neg (hno _).2.1, if_neg (hno _).2.2, if_neg (hno _).1,
    if_neg (hno _).2.1, if_neg (hno _).2.2]
  rfl

/-- A counter is read at its address. -/
theorem rdata_counter {a : BitVec 12} {irq : IrqLines} (d : Csr) (h : isCounter a = true) :
    d.rdata P irq a = (d.readCounter a).getD 0#32 := by
  have hall : ∀ x ∈ counterAddrs, d.rdata P irq x = (d.readCounter x).getD 0#32 := by
    unfold counterAddrs
    iterate 12
      refine List.forall_mem_cons.mpr
        ⟨(rdata_regions d (by decide) (by decide) (by decide)).trans rfl, ?_⟩
    exact List.forall_mem_nil _
  exact hall a (List.contains_iff_mem.mp h)

/-- A write to a counter reaches no other register. -/
theorem write_counter {a : BitVec 12} (h : isCounter a = true) (v : Word) :
    c.write P a v = c := by
  have hmem : a ∈ counterAddrs := by simpa [isCounter] using h
  obtain ⟨hpa, hpc, h0, h1, h2, h3, h4, h5, h6, h7, hev, -, -⟩ := counter_address a hmem
  unfold write
  simp [hpa, hpc, h0, h1, h2, h3, h4, h5, h6, h7, hev]

/-- Writes commute with forgetting the counters. -/
theorem write_uncounted (a : BitVec 12) (v : Word) :
    (c.uncounted.write P a v).uncounted = (c.write P a v).uncounted := by
  have ite : ∀ {p : Prop} [Decidable p] {d d' e e' : Csr}, d.uncounted = d'.uncounted →
      e.uncounted = e'.uncounted → (if p then d else e).uncounted = (if p then d' else e').uncounted := by
    intro p _ d d' e e' hd he
    split
    · exact hd
    · exact he
  unfold write
  iterate 10 refine ite rfl ?_
  split <;> rfl

theorem mretReturn_uncounted :
    (c.uncounted.mretReturn P).uncounted = (c.mretReturn P).uncounted := by
  unfold mretReturn
  split <;> rfl

/-- A clock of the file without its counters. -/
theorem step_uncounted (i : CsrIn) :
    (c.step P i).uncounted =
      if i.trapSet then (c.trapEntry P i).uncounted
      else if i.mret then (c.mretReturn P).uncounted
      else if i.we then (c.write P i.addr i.wdata).uncounted
      else c.uncounted := by
  unfold step
  split_ifs <;> rfl

end Csr

/-! ## The view of X -/

namespace XIn

variable {P : Params} {x : XIn}

/-- What the architecture knows of what X sees. -/
def visible (x : XIn) : XIn :=
  { x with
    fxPredTaken := false
    fxPredTarget := 0#32
    mdResult := if x.dec.isMd then x.mdResult else 0#32
    csr := x.csr.uncounted
    dbgFreeze := x.irqReq && x.dbgFreeze
    dbgCsrWe := false
    dbgArRegno := 0#12
    dbgArWdata := 0#32 }

/-- The instruction reads a counter into a register. -/
def readsCounter (x : XIn) : Bool :=
  x.dec.isCsr && Csr.isCounter x.sysImm12 && x.rd != 0#5

theorem exTrap_visible : x.visible.exTrap P = x.exTrap P := rfl

theorem takeIrq_visible : x.visible.takeIrq P = x.takeIrq P := by
  have h : (x.irqReq && !(x.irqReq && x.dbgFreeze)) = (x.irqReq && !x.dbgFreeze) := by
    cases x.irqReq <;> rfl
  show (x.fxValid && !x.exFreeze && x.irqReq && !x.exTrap P && !(x.irqReq && x.dbgFreeze) &&
    !x.dec.isMret && !x.isUret P && !x.dec.isCsr && !x.dec.isJal && !x.dec.isJalr &&
    !x.dec.isBranch) = _
  unfold takeIrq
  cases x.irqReq <;> simp

theorem mTrapSet_visible : x.visible.mTrapSet P = x.mTrapSet P := by
  unfold mTrapSet
  rw [takeIrq_visible]
  rfl

theorem nextPc_visible : x.visible.nextPc P = x.nextPc P := by
  unfold nextPc
  rw [takeIrq_visible]
  rfl

theorem trapEntry_visible (c : Csr) (retire retire' : Bool) :
    (c.uncounted.trapEntry P.csr (x.visible.csrIn P retire)).uncounted =
      (c.trapEntry P.csr (x.csrIn P retire')).uncounted := by
  have h : (x.visible.csrIn P retire).trapInterrupt = (x.csrIn P retire').trapInterrupt :=
    takeIrq_visible
  unfold Csr.trapEntry
  rw [h]
  rfl

/-- What X hands over can differ in the result only. -/
theorem xwNext_visible :
    x.visible.xwNext P = { x.xwNext P with result := x.visible.xResult P } := rfl

/-- What the architecture knows, and the counters. -/
def known (x : XIn) : XIn := { x.visible with csr := x.csr }

theorem known_visible : x.known.visible = x.visible := by
  have hmd : (if x.dec.isMd then (if x.dec.isMd then x.mdResult else 0#32) else 0#32) =
      if x.dec.isMd then x.mdResult else 0#32 := by
    split <;> rfl
  have hfz : (x.irqReq && (x.irqReq && x.dbgFreeze)) = (x.irqReq && x.dbgFreeze) := by
    cases x.irqReq <;> rfl
  exact (XIn.mk.injEq ..).mpr ⟨rfl, rfl, rfl, rfl, rfl, rfl, rfl, rfl, rfl, hmd, rfl, rfl, rfl, rfl,
    rfl, rfl, hfz, rfl, rfl, rfl⟩

section Running

variable (hdbg : x.dbgMode = false)
include hdbg

theorem csrAddrEff_eq : x.csrAddrEff = x.sysImm12 := by
  unfold csrAddrEff
  rw [hdbg]
  rfl

theorem csrAddrEff_visible : x.visible.csrAddrEff = x.csrAddrEff := by
  unfold csrAddrEff
  show (if x.dbgMode then _ else _) = _
  rw [hdbg]
  rfl

/-- What a CSR instruction reads, except from a counter. -/
theorem csrRdEff_visible (h : Csr.isCounter x.sysImm12 = false) :
    x.visible.csrRdEff P = x.csrRdEff P := by
  unfold csrRdEff isTrigCsr isUcsr
  rw [csrAddrEff_visible hdbg]
  show (if _ then _ else if _ then _ else x.csr.uncounted.rdata P.csr x.irq x.csrAddrEff) = _
  rw [Csr.rdata_uncounted (by rw [csrAddrEff_eq hdbg]; exact h)]
  rfl

theorem csrWeEff_visible : x.visible.csrWeEff P = x.csrWeEff P := by
  unfold csrWeEff
  show (if x.dbgMode then _ else _) = _
  rw [hdbg]
  rfl

theorem csrWdataEff_visible (h : Csr.isCounter x.sysImm12 = false) :
    x.visible.csrWdataEff P = x.csrWdataEff P := by
  unfold csrWdataEff csrWval
  rw [csrRdEff_visible hdbg h]
  show (if x.dbgMode then _ else _) = _
  rw [hdbg]
  rfl

/-- The next state of the CSR file. -/
theorem csrNext_visible (retire retire' : Bool) :
    (x.visible.csrNext P retire).uncounted = (x.csrNext P retire').uncounted := by
  unfold csrNext
  rw [Csr.step_uncounted, Csr.step_uncounted]
  show (if x.visible.mTrapSet P then _ else if x.csrMret P then _
    else if (x.visible.csrWeEff P && !Trig.isAddr x.visible.csrAddrEff &&
      !(P.secure && Ucsr.isAddr x.visible.csrAddrEff)) then
      (x.csr.uncounted.write P.csr x.visible.csrAddrEff (x.visible.csrWdataEff P)).uncounted
    else _) = if x.mTrapSet P then _ else if x.csrMret P then _
    else if (x.csrWeEff P && !Trig.isAddr x.csrAddrEff &&
      !(P.secure && Ucsr.isAddr x.csrAddrEff)) then
      (x.csr.write P.csr x.csrAddrEff (x.csrWdataEff P)).uncounted else _
  rw [mTrapSet_visible, csrWeEff_visible hdbg, csrAddrEff_visible hdbg, Csr.write_uncounted]
  by_cases ht : x.mTrapSet P = true
  · rw [if_pos ht, if_pos ht]
    exact trapEntry_visible x.csr retire retire'
  rw [if_neg ht, if_neg ht]
  by_cases hm : x.csrMret P = true
  · rw [if_pos hm, if_pos hm]
    exact Csr.mretReturn_uncounted
  rw [if_neg hm, if_neg hm]
  -- a write to a counter is lost on both sides, any other write has the same data
  cases hc : Csr.isCounter x.sysImm12 with
  | false =>
    rw [csrWdataEff_visible hdbg hc]
    rfl
  | true =>
    rw [← csrAddrEff_eq hdbg] at hc
    rw [Csr.write_counter hc, Csr.write_counter hc]
    rfl

/-- A write to another CSR file has the same data. -/
theorem csrWdataEff_visible_of_addr
    (h : Trig.isAddr x.csrAddrEff = true ∨ Ucsr.isAddr x.csrAddrEff = true) :
    x.visible.csrWdataEff P = x.csrWdataEff P := by
  refine csrWdataEff_visible hdbg ?_
  by_contra hc
  rw [Bool.not_eq_false, ← csrAddrEff_eq hdbg] at hc
  obtain ⟨-, -, -, -, -, -, -, -, -, -, -, ht, hu⟩ :=
    Csr.counter_address x.csrAddrEff (by simpa [Csr.isCounter] using hc)
  rcases h with h | h
  · exact absurd h (by simp [ht])
  · exact absurd h (by simp [hu])

/-- The next state of the N-extension registers. -/
theorem ucsrNext_visible : x.visible.ucsrNext P = x.ucsrNext P := by
  unfold ucsrNext
  cases hs : P.secure with
  | false => rfl
  | true =>
    rw [if_pos rfl, if_pos rfl]
    show (if x.delegTrap P then _ else if x.fxValid && x.isUret P && !x.exFreeze then _
      else if x.visible.csrWeEff P && (P.secure && Ucsr.isAddr x.visible.csrAddrEff) then
        x.ucsr.write x.visible.csrAddrEff (x.visible.csrWdataEff P) else _) =
      if x.delegTrap P then _ else if x.fxValid && x.isUret P && !x.exFreeze then _
      else if x.csrWeEff P && (P.secure && Ucsr.isAddr x.csrAddrEff) then _ else _
    rw [csrWeEff_visible hdbg, csrAddrEff_visible hdbg]
    cases ha : Ucsr.isAddr x.csrAddrEff with
    | false =>
      rw [Bool.and_false, Bool.and_false, if_neg Bool.false_ne_true]
      rfl
    | true =>
      rw [csrWdataEff_visible_of_addr hdbg (Or.inr ha)]
      rfl

/-- The next state of the triggers. -/
theorem trigNext_visible : x.visible.trigNext P = x.trigNext P := by
  have hwrite : (if x.visible.trigCsrWe P then
      x.visible.trig.write x.visible.csrAddrEff (x.visible.csrWdataEff P) else x.visible.trig) =
      if x.trigCsrWe P then x.trig.write x.csrAddrEff (x.csrWdataEff P) else x.trig := by
    show (if x.visible.csrWeEff P && Trig.isAddr x.visible.csrAddrEff then
      x.trig.write x.visible.csrAddrEff (x.visible.csrWdataEff P) else x.trig) =
      if x.csrWeEff P && Trig.isAddr x.csrAddrEff then _ else _
    rw [csrWeEff_visible hdbg, csrAddrEff_visible hdbg]
    cases ha : Trig.isAddr x.csrAddrEff with
    | false => rw [Bool.and_false, if_neg Bool.false_ne_true, if_neg Bool.false_ne_true]
    | true => rw [csrWdataEff_visible_of_addr hdbg (Or.inl ha)]
  unfold trigNext
  rw [hwrite]
  rfl

/-! ## What W makes of it -/

theorem xResult_visible (h : ¬ (x.dec.isCsr = true ∧ Csr.isCounter x.sysImm12 = true)) :
    x.visible.xResult P = x.xResult P := by
  have hdec : x.visible.dec.wbSel = x.dec.wbSel := rfl
  unfold xResult
  rw [hdec]
  cases hsel : x.dec.wbSel with
  | csr =>
    have hcsr := (decode_wbSel x.fxInstr).2 hsel
    refine csrRdEff_visible hdbg ?_
    by_contra hc
    rw [Bool.not_eq_false] at hc
    exact h ⟨hcsr, hc⟩
  | md =>
    have hmd : x.dec.isMd = true := (decode_wbSel x.fxInstr).1 hsel
    show (if x.dec.isMd then x.mdResult else 0#32) = x.mdResult
    rw [hmd]
    rfl
  | alu | mem | pc4 => rfl

/-- With the counters nothing is missing. -/
theorem xwNext_known : x.known.xwNext P = x.xwNext P := by
  have hrd : x.known.csrRdEff P = x.csrRdEff P := by
    have haddr : x.known.csrAddrEff = x.csrAddrEff := by
      unfold csrAddrEff
      show (if x.dbgMode then _ else _) = _
      rw [hdbg]
      rfl
    unfold csrRdEff isTrigCsr isUcsr
    rw [haddr]
    rfl
  have hres : x.known.xResult P = x.xResult P := by
    have hdec : x.known.dec.wbSel = x.dec.wbSel := rfl
    unfold xResult
    rw [hrd, hdec]
    cases hsel : x.dec.wbSel with
    | md =>
      have hmd : x.dec.isMd = true := (decode_wbSel x.fxInstr).1 hsel
      show (if x.dec.isMd then x.mdResult else 0#32) = x.mdResult
      rw [hmd]
      rfl
    | alu | mem | pc4 | csr => rfl
  show { x.xwNext P with result := x.known.xResult P } = x.xwNext P
  rw [hres]
  rfl

/-- **W does the same with the instruction as X sees it.** -/
theorem finish_visible (h : x.readsCounter = false) (imemWritable : Word → Bool) (d : Data) :
    (x.visible.xwNext P).finish imemWritable d = (x.xwNext P).finish imemWritable d ∧
    (x.visible.xwNext P).events d = (x.xwNext P).events d := by
  rw [xwNext_visible]
  by_cases hc : x.dec.isCsr = true ∧ Csr.isCounter x.sysImm12 = true
  · -- a counter access: the value is not written and nothing else uses it
    obtain ⟨hcsr, hctr⟩ := hc
    obtain ⟨-, -, -, -, -, hre, hwe, -⟩ := (decode_classes x.fxInstr).csr hcsr
    have hrd : (x.xwNext P).rd = 0#5 := by
      unfold readsCounter at h
      rw [hcsr, hctr] at h
      show x.rd = 0#5
      simpa using h
    have hamo : (x.xwNext P).isAmo = false := by
      show (x.amoValid && _) = false
      by_contra ha
      simp only [Bool.not_eq_false, Bool.and_eq_true] at ha
      rw [dec_of_isAmo (isAmo_of_amoValid ha.1)] at hcsr
      exact Bool.false_ne_true hcsr
    have hre' : (x.xwNext P).memRe = false := by
      show (x.dec.memRe && _) = false
      unfold dec
      rw [hre]
      rfl
    have hwe' : (x.xwNext P).memWe = false := by
      show (x.dec.memWe && _) = false
      unfold dec
      rw [hwe]
      rfl
    exact XwReg.finish_of_rd_zero hrd hamo hre' hwe' imemWritable d _
  · rw [xResult_visible hdbg hc]
    exact ⟨rfl, rfl⟩

end Running

/-! ## Where the front end goes -/

/-- The front end has gone elsewhere than behind an instruction whose prediction
X does not check. -/
def stale (P : Params) (x : XIn) : Bool :=
  x.leaves && (x.redirect P).isNone && !x.dec.isBranch && !x.dec.isJal && !x.dec.isJalr &&
    x.predNext != x.seqNx

/-- An interrupt is never taken on a jump or branch. -/
theorem takeIrq_eq_false (h : x.dec.isJalr = true ∨ x.dec.isJal = true ∨ x.dec.isBranch = true) :
    x.takeIrq P = false := by
  refine takeIrq_eq_false_iff.mpr fun ht => ?_
  rcases h with h | h | h
  · exact Bool.false_ne_true (ht.jalr.symm.trans h)
  · exact Bool.false_ne_true (ht.jal.symm.trans h)
  · exact Bool.false_ne_true (ht.branch.symm.trans h)

theorem brActualNext_of_plain (hj : x.dec.isJal = false) (hb : x.dec.isBranch = false) :
    x.brActualNext = x.seqNx := by
  unfold brActualNext brActualTaken
  rw [hj, hb]
  rfl

/-- **A redirect goes to the next PC in program order**, unless it is that of a
FENCE.I on which an interrupt is taken. -/
theorem redirect_nextPc (hf : x.fenceiInterrupted P = false) {target : Word}
    (hr : x.redirect P = some target) : target = x.nextPc P := by
  obtain ⟨hv, hfz⟩ := redirect_valid hr
  unfold redirect at hr
  rw [hv, hfz, Bool.not_false, Bool.and_true, if_pos rfl] at hr
  unfold nextPc
  by_cases htrap : x.exTrap P = true
  · rw [if_pos htrap] at hr ⊢
    exact (Option.some.inj hr).symm
  rw [if_neg htrap] at hr ⊢
  by_cases huret : x.isUret P = true
  · rw [if_pos huret] at hr ⊢
    exact (Option.some.inj hr).symm
  rw [if_neg huret] at hr ⊢
  by_cases hmret : x.dec.isMret = true
  · rw [if_pos hmret] at hr ⊢
    exact (Option.some.inj hr).symm
  rw [if_neg hmret] at hr ⊢
  by_cases hjalr : x.dec.isJalr = true
  · rw [takeIrq_eq_false (Or.inl hjalr), if_neg Bool.false_ne_true, if_pos hjalr]
    rw [if_pos hjalr] at hr
    split at hr
    · exact (Option.some.inj hr).symm
    · exact absurd hr (by simp)
  rw [if_neg hjalr] at hr ⊢
  by_cases hbr : (x.dec.isJal || x.dec.isBranch) = true
  · rw [takeIrq_eq_false (Or.inr (by simpa using hbr)), if_neg Bool.false_ne_true]
    rw [if_pos hbr] at hr
    generalize (if P.bpred then x.mispredict P else x.brActualTaken) = c at hr
    cases c with
    | true => exact (Option.some.inj hr).symm
    | false => exact absurd hr (by simp)
  rw [if_neg hbr] at hr
  have hplain : x.dec.isJal = false ∧ x.dec.isBranch = false := by simpa using hbr
  rw [brActualNext_of_plain hplain.1 hplain.2]
  by_cases hfence : x.isFencei = true
  · -- no interrupt is taken together with the FENCE.I
    have hirq : x.takeIrq P = false := by
      by_contra hirq
      rw [Bool.not_eq_false] at hirq
      exact absurd (takeIrq_fencei hirq hfence) (by simp [hf])
    rw [if_pos hfence] at hr
    rw [hirq, if_neg Bool.false_ne_true]
    exact (Option.some.inj hr).symm
  rw [if_neg hfence] at hr
  by_cases hirq : x.takeIrq P = true
  · rw [if_pos hirq] at hr ⊢
    exact (Option.some.inj hr).symm
  · rw [if_neg hirq] at hr
    exact absurd hr (by simp)

/-- **Without a redirect the front end has already gone there**, unless the
prediction is stale. -/
theorem predNext_nextPc (hl : x.leaves = true) (hr : x.redirect P = none)
    (hoff : P.bpred = false → x.fxPredTaken = false) (hst : x.stale P = false) :
    x.predNext = x.nextPc P := by
  obtain ⟨hv, hfz⟩ := leaves_iff.mp hl
  have hr' := hr
  unfold redirect at hr
  rw [hv, hfz, Bool.not_false, Bool.and_true, if_pos rfl] at hr
  unfold nextPc
  by_cases htrap : x.exTrap P = true
  · rw [if_pos htrap] at hr
    exact absurd hr (by simp)
  rw [if_neg htrap] at hr ⊢
  by_cases huret : x.isUret P = true
  · rw [if_pos huret] at hr
    exact absurd hr (by simp)
  rw [if_neg huret] at hr ⊢
  by_cases hmret : x.dec.isMret = true
  · rw [if_pos hmret] at hr
    exact absurd hr (by simp)
  rw [if_neg hmret] at hr ⊢
  by_cases hjalr : x.dec.isJalr = true
  · -- JALR: the predicted target is the computed one
    rw [takeIrq_eq_false (Or.inl hjalr), if_neg Bool.false_ne_true, if_pos hjalr]
    rw [if_pos hjalr] at hr
    split at hr
    case isTrue => exact absurd hr (by simp)
    case isFalse h =>
      simp only [Bool.or_eq_true, Bool.not_eq_true', bne_iff_ne, not_or, not_not] at h
      exact h.2.symm
  rw [if_neg hjalr] at hr ⊢
  by_cases hbr : (x.dec.isJal || x.dec.isBranch) = true
  · -- branch or JAL: predicted right, or not taken and not predicted
    rw [takeIrq_eq_false (Or.inr (by simpa using hbr)), if_neg Bool.false_ne_true]
    rw [if_pos hbr] at hr
    cases hb : P.bpred with
    | true =>
      rw [hb, if_pos rfl] at hr
      unfold mispredict at hr
      rw [hb, Bool.or_comm x.dec.isBranch, hbr] at hr
      have hpred : x.brActualNext = x.predNext := by simpa using hr
      exact hpred.symm
    | false =>
      rw [hb, if_neg Bool.false_ne_true] at hr
      have hnt : x.brActualTaken = false := by simpa using hr
      unfold brActualNext predNext
      rw [hnt, hoff hb]
      rfl
  rw [if_neg hbr] at hr
  have hplain : x.dec.isJal = false ∧ x.dec.isBranch = false := by simpa using hbr
  rw [brActualNext_of_plain hplain.1 hplain.2]
  have hirq : x.takeIrq P = false := by
    by_contra hirq
    rw [Bool.not_eq_false] at hirq
    rw [hirq, if_pos rfl] at hr
    split at hr <;> exact absurd hr (by simp)
  rw [hirq, if_neg Bool.false_ne_true]
  unfold stale at hst
  rw [hl, hr', hplain.1, hplain.2, Bool.eq_false_iff.mpr hjalr] at hst
  simpa using hst

/-! ## FENCE.I -/

/-- A FENCE.I redirects behind itself, so that F fetches again. -/
theorem redirect_of_isFencei (hl : x.leaves = true) (htrap : x.exTrap P = false)
    (hf : x.isFencei = true) : x.redirect P = some x.seqNx := by
  obtain ⟨hv, hfz⟩ := leaves_iff.mp hl
  have hdec := dec_of_isFencei hf
  have huret : x.isUret P = false := by
    by_contra hu
    rw [Bool.not_eq_false] at hu
    have hinstr := (fxInstr_of_isUret hu).2
    unfold isFencei at hf
    rw [hinstr, Bool.and_eq_true] at hf
    exact absurd hf.1 (by decide)
  unfold redirect
  rw [hv, hfz, htrap, huret, hdec, hf]
  rfl

/-- It accesses no data. -/
theorem accesses_of_isFencei (hf : x.isFencei = true) (resv : Resv) (mem : Memory) :
    (x.xwNext P).accesses resv mem = [] := by
  have hdec := dec_of_isFencei hf
  have hamo : x.amoValid = false := by
    by_contra ha
    rw [Bool.not_eq_false] at ha
    have hop : x.fxInstr.extractLsb 6 0 = 0b0001111#7 := by
      unfold isFencei at hf
      simp only [Bool.and_eq_true, beq_iff_eq] at hf
      exact hf.1
    have h' := isAmo_of_amoValid ha
    unfold isAmo at h'
    rw [hop] at h'
    exact absurd h' (by simp)
  have h1 : (x.xwNext P).isAmo = false := by
    show (x.amoValid && _) = false
    rw [hamo]
    rfl
  have h2 : (x.xwNext P).memRe = false := by
    show (x.dec.memRe && _) = false
    rw [hdec]
    rfl
  have h3 : (x.xwNext P).memWe = false := by
    show (x.dec.memWe && _) = false
    rw [hdec]
    rfl
  unfold XwReg.accesses
  rw [h1, h2, h3]
  rfl

end XIn

end ThreeSippEs
