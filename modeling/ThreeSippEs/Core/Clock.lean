import ThreeSippEs.Core.Core
import ThreeSippEs.Lib.Clocked

/-!
# What one clock of the core can do

One inversion or case lemma for each part of the core, from which the invariants
of the later modules follow without unfolding the step functions again.

- `FStage.Clock`: the six things a clock does to the fetch registers;
- `Csr.step_priv`: the three ways the privilege is set;
- `XIn.redirect_*`: which branch of the redirect chain is taken;
- `drains`: a requested halt enters Debug Mode; `halted_empty`: it is entered and
  left with X empty.
-/

namespace ThreeSippEs

open Clocked

/-! ## Fetch -/

/-- The effect of one clock on the fetch registers, by the branch taken. -/
inductive FStage.Clock {P : Params} (f : FStage P) (ghist : BitVec P.ghrBits) (i : FetchIn) :
    FStage P → Prop where
  | redirected (target : Word) (hr : i.redirect = some target) :
      Clock f ghist i { f with pc := target, fxValid := false, straddle := false }
  | resumed (hr : i.redirect = none) (hres : i.dbgResumeNow = true) :
      Clock f ghist i { f with pc := i.dpc, fxValid := false, straddle := false }
  | frozen (hr : i.redirect = none) (hres : i.dbgResumeNow = false) (hfz : i.dbgFreeze = true) :
      Clock f ghist i { f with fxValid := false }
  | stalled (hr : i.redirect = none) (hres : i.dbgResumeNow = false) (hfz : i.dbgFreeze = false)
      (hst : i.feStall = true) : Clock f ghist i f
  | straddled (hr : i.redirect = none) (hres : i.dbgResumeNow = false)
      (hfz : i.dbgFreeze = false) (hst : i.feStall = false)
      (hs : f.needStraddle i.imemRdata = true) :
      Clock f ghist i { f with
        stradLo := i.imemRdata.extractLsb 31 16, straddle := true, fxValid := false }
  | accepted (hr : i.redirect = none) (hres : i.dbgResumeNow = false)
      (hfz : i.dbgFreeze = false) (hst : i.feStall = false)
      (hs : f.needStraddle i.imemRdata = false) : Clock f ghist i (f.accept ghist i)

theorem FStage.step_clock {P : Params} (f : FStage P) (ghist : BitVec P.ghrBits) (i : FetchIn) :
    f.Clock ghist i (f.step ghist i) := by
  unfold FStage.step
  cases hr : i.redirect with
  | some target => exact .redirected target hr
  | none =>
    dsimp only
    split_ifs with hres hfz hst hs
    · exact .resumed hr hres
    · exact .frozen hr (by simpa using hres) hfz
    · exact .stalled hr (by simpa using hres) (by simpa using hfz) hst
    · exact .straddled hr (by simpa using hres) (by simpa using hfz) (by simpa using hst) hs
    · exact .accepted hr (by simpa using hres) (by simpa using hfz) (by simpa using hst)
        (by simpa using hs)

section Branches

variable {P : Params} {f : FStage P} {ghist : BitVec P.ghrBits} {i : FetchIn}

theorem FStage.step_of_redirect {target : Word} (hr : i.redirect = some target) :
    f.step ghist i = { f with pc := target, fxValid := false, straddle := false } := by
  unfold FStage.step
  rw [hr]

theorem FStage.step_of_resume (hr : i.redirect = none) (hres : i.dbgResumeNow = true) :
    f.step ghist i = { f with pc := i.dpc, fxValid := false, straddle := false } := by
  unfold FStage.step
  rw [hr]
  dsimp only
  rw [if_pos hres]

theorem FStage.step_of_stall (hr : i.redirect = none) (hres : i.dbgResumeNow = false)
    (hfz : i.dbgFreeze = false) (hst : i.feStall = true) : f.step ghist i = f := by
  unfold FStage.step
  rw [hr]
  dsimp only
  rw [if_neg (ne_true_of_eq_false hres), if_neg (ne_true_of_eq_false hfz), if_pos hst]

end Branches

/-! ## Registers -/

/-- The value of register `r`: `x0` is zero. -/
def Regfile.get (regs : Regs) (r : BitVec 5) : Word := if r = 0#5 then 0#32 else regs r

/-- Write-first transparency: a read returns what the register holds after the
write of this clock. -/
theorem Regfile.read_eq_get (regs : Regs) (we : Bool) (wa : BitVec 5) (wd : Word) (r : BitVec 5) :
    read regs we wa wd r = get (write regs we wa wd) r := by
  unfold read get write
  by_cases h : wa = r
  · rw [h, BEq.comm]
  · have h' : (wa == r) = false := by simpa using h
    have h'' : (r == wa) = false := by simpa using fun e => h e.symm
    rw [h', h'']

/-- A write to another register, or none at all, keeps the value. -/
theorem Regfile.get_write_of_ne {regs : Regs} {we : Bool} {wa r : BitVec 5} {wd : Word}
    (h : we = true → wa ≠ r) : get (write regs we wa wd) r = get regs r := by
  unfold get write
  split
  · rfl
  · cases we with
    | false => rfl
    | true =>
      have hne : (r == wa) = false := by simpa using fun e => h rfl e.symm
      rw [hne]
      simp

theorem Regfile.get_write_same {regs : Regs} {wa : BitVec 5} {wd : Word} (h : wa ≠ 0#5) :
    get (write regs true wa wd) wa = wd := by
  unfold get write
  rw [if_neg h]
  simp [h]

@[simp] theorem Regfile.write_false (regs : Regs) (wa : BitVec 5) (wd : Word) :
    write regs false wa wd = regs := rfl

@[simp] theorem Regfile.write_zero (regs : Regs) (we : Bool) (wd : Word) :
    write regs we 0#5 wd = regs := by
  unfold write
  simp

/-- The write port guards `x0` itself. -/
@[simp] theorem Regfile.write_guarded (regs : Regs) (we : Bool) (wa : BitVec 5) (wd : Word) :
    write regs (we && wa != 0#5) wa wd = write regs we wa wd := by
  unfold write
  simp

/-! ## Memory access -/

namespace WStage

variable (w : WStage)

theorem fwd_iff {r : BitVec 5} :
    w.fwd r = true ↔
      w.xwValid = true ∧ w.xw.regWe = true ∧ w.xw.rd ≠ 0#5 ∧ w.xw.rd = r := by
  unfold fwd
  simp only [Bool.and_eq_true, bne_iff_ne, beq_iff_eq, and_assoc]

/-- What W writes is forwarded. -/
theorem fwd_of_rfWe (h : w.rfWe = true) : w.fwd w.xw.rd = true := by
  unfold rfWe at h
  simp only [Bool.and_eq_true, bne_iff_ne] at h
  exact w.fwd_iff.mpr ⟨h.1.1.1, h.1.1.2, h.1.2, rfl⟩

theorem retireValid_iff : w.retireValid = true ↔ w.xwValid = true ∧ w.memBeatStall = false := by
  unfold retireValid
  rw [Bool.and_eq_true, Bool.not_eq_true']

/-- The first beat is not the second. -/
theorem beat2_of_memBeatStall (h : w.memBeatStall = true) : w.beat2 = false := by
  unfold memBeatStall amoRmwB1 at h
  cases hb : w.beat2 with
  | false => rfl
  | true => simp [hb] at h

/-- The first beat belongs to an instruction. -/
theorem xwValid_of_memBeatStall (h : w.memBeatStall = true) : w.xwValid = true := by
  unfold memBeatStall amoRmwB1 memMis amoHere at h
  cases hv : w.xwValid with
  | true => rfl
  | false => simp [hv] at h

/-- What the data port reads for: a load, an LR or the first beat of an AMO. -/
theorem dmemRe_cases (h : w.dmemRe = true) :
    w.xwValid = true ∧
      (w.xw.memRe = true ∨ (w.xw.isAmo = true ∧ (w.xw.isLr = true ∨ w.xw.isAmoRmw = true))) := by
  unfold dmemRe amoDoLoad amoRmwB1 amoHere at h
  simp only [Bool.or_eq_true, Bool.and_eq_true] at h
  rcases h with ⟨hv, hre⟩ | ⟨⟨hv, hamo⟩, hlr | ⟨⟨-, hrmw⟩, -⟩⟩
  · exact ⟨hv, Or.inl hre⟩
  · exact ⟨hv, Or.inr ⟨hamo, Or.inl hlr⟩⟩
  · exact ⟨hv, Or.inr ⟨hamo, Or.inr hrmw⟩⟩

/-- What the data port writes for: a store, an SC or the second beat of an AMO. -/
theorem dmemWe_cases (h : w.dmemWe = true) :
    w.xwValid = true ∧
      (w.xw.memWe = true ∨ (w.xw.isAmo = true ∧ (w.xw.isSc = true ∨ w.xw.isAmoRmw = true))) := by
  unfold dmemWe amoDoStore amoRmwB2 amoHere at h
  simp only [Bool.or_eq_true, Bool.and_eq_true] at h
  rcases h with ⟨hv, hwe⟩ | ⟨⟨hv, hamo⟩, ⟨hsc, -⟩ | ⟨⟨-, hrmw⟩, -⟩⟩
  · exact ⟨hv, Or.inl hwe⟩
  · exact ⟨hv, Or.inr ⟨hamo, Or.inl hsc⟩⟩
  · exact ⟨hv, Or.inr ⟨hamo, Or.inr hrmw⟩⟩

theorem step_of_stall (h : w.memBeatStall = true) (rdata : Word) (commit : Bool) (next : XwReg) :
    (w.step rdata commit next).xwValid = w.xwValid ∧ (w.step rdata commit next).xw = w.xw ∧
    (w.step rdata commit next).beat2 = true := by
  simp [step, h]

theorem step_of_not_stall (h : w.memBeatStall = false) (rdata : Word) (commit : Bool)
    (next : XwReg) :
    (w.step rdata commit next).xwValid = commit ∧ (w.step rdata commit next).xw = next ∧
    (w.step rdata commit next).beat2 = false := by
  simp [step, h]

/-- The clocks W still needs for what it holds. -/
def left : Nat := if w.xwValid then (if w.memBeatStall then 2 else 1) else 0

theorem left_step (hv : w.xwValid = true) (rdata : Word) (commit : Bool) (next : XwReg)
    (hc : commit = false) : (w.step rdata commit next).left < w.left := by
  unfold left
  rw [hv, if_pos rfl]
  cases hb : w.memBeatStall with
  | true =>
    have hb' : (w.step rdata commit next).memBeatStall = false := by
      by_contra hb'
      rw [Bool.not_eq_false] at hb'
      have hbeat := (w.step_of_stall hb rdata commit next).2.2
      exact absurd (beat2_of_memBeatStall _ hb') (by simp [hbeat])
    rw [hb', if_pos rfl, if_neg Bool.false_ne_true]
    split <;> omega
  | false =>
    rw [(w.step_of_not_stall hb rdata commit next).1, hc, if_neg Bool.false_ne_true,
      if_neg Bool.false_ne_true]
    exact Nat.one_pos

end WStage

/-! ## Privilege and trap records -/

namespace Csr

variable {P : CsrParams} {c : Csr}

/-- No write reaches the privilege. -/
theorem write_priv (addr : BitVec 12) (v : Word) : (c.write P addr v).priv = c.priv := by
  unfold write
  iterate 10 refine (apply_ite Csr.priv _ _ _).trans (ite_eq_left_iff.mpr fun _ => ?_)
  split <;> rfl

/-- The privilege is set by a trap or by MRET, and by nothing else. -/
theorem step_priv (i : CsrIn) :
    (c.step P i).priv =
      if i.trapSet then (if P.uMode then 0b11#2 else c.priv)
      else if i.mret then (if P.uMode then Mstatus.mpp c.mstatus else c.priv)
      else c.priv := by
  unfold step
  split_ifs with htrap hu hmret hwe
  · simp [trapEntry, hu]
  · simp [trapEntry, hu]
  · simp_all [mretReturn]
  · simp_all [mretReturn]
  · exact write_priv i.addr i.wdata
  · rfl

/-- A trap records where, why and from which privilege it was taken. -/
theorem step_trapSet {i : CsrIn} (h : i.trapSet = true) :
    c.step P i = { c.trapEntry P i with ctr := c.tick i } := by
  unfold step
  rw [if_pos h]

end Csr

@[simp] theorem Mstatus.mpp_setMpp (v : Word) (p : BitVec 2) : mpp (setMpp v p) = p := by
  unfold mpp setMpp
  generalize v.extractLsb 31 13 = a
  generalize v.extractLsb 10 0 = b
  have hp : ∀ k : Nat, k < 2 → (a ++ p ++ b).getLsbD (11 + k) = p.getLsbD k := by
    intro k hk
    rw [BitVec.getLsbD_append, BitVec.getLsbD_append, if_neg (by omega), if_pos (by omega)]
    congr 1
    omega
  apply BitVec.eq_of_getLsbD_eq
  intro k hk
  rw [BitVec.getLsbD_extractLsb, hp k hk]
  simp
  omega

@[simp] theorem Mstatus.mpp_setMprv (v : Word) (b : Bool) : mpp (setMprv v b) = mpp v := by
  unfold mpp setMprv
  have hlo : ∀ k : Nat, k < 2 → (v.extractLsb 31 18 ++ BitVec.ofBool b ++
      v.extractLsb 16 0).getLsbD (11 + k) = v.getLsbD (11 + k) := by
    intro k hk
    rw [BitVec.getLsbD_append, if_pos (by omega), BitVec.getLsbD_extractLsb]
    simp
    omega
  apply BitVec.eq_of_getLsbD_eq
  intro k hk
  rw [BitVec.getLsbD_extractLsb, BitVec.getLsbD_extractLsb, hlo k hk]

/-! ## Implemented privileges -/

/-- `priv` and `mstatus.MPP` hold an implemented privilege, M or U. -/
structure Csr.Legal (c : Csr) : Prop where
  priv : c.priv = 0b00#2 ∨ c.priv = 0b11#2
  mpp : Mstatus.mpp c.mstatus = 0b00#2 ∨ Mstatus.mpp c.mstatus = 0b11#2

namespace Csr.Legal

variable {P : CsrParams} {c : Csr}

theorem ite {d d' : Csr} {p : Prop} [Decidable p] (h : Legal d) (h' : Legal d') :
    Legal (if p then d else d') := by
  split
  · exact h
  · exact h'

theorem write (h : c.Legal) (addr : BitVec 12) (v : Word) : (c.write P addr v).Legal := by
  have hmstatus : ∀ w : Word, Mstatus.mpp (writeMstatus P w) = 0b00#2 ∨
      Mstatus.mpp (writeMstatus P w) = 0b11#2 := by
    intro w
    unfold writeMstatus
    split_ifs with hu hmpp
    · exact Or.inr (Mstatus.mpp_setMpp w _)
    · exact Or.inl (Mstatus.mpp_setMpp w _)
    · exact Or.inr (not_not.mp hmpp)
  unfold Csr.write
  iterate 3 refine ite ⟨h.priv, h.mpp⟩ ?_
  refine ite ⟨h.priv, hmstatus v⟩ ?_
  iterate 6 refine ite ⟨h.priv, h.mpp⟩ ?_
  split
  · exact ⟨h.priv, h.mpp⟩
  · exact h

theorem trapEntry (h : c.Legal) (i : CsrIn) : (c.trapEntry P i).Legal := by
  unfold Csr.trapEntry
  refine ⟨?_, ?_⟩
  · dsimp only
    split
    · exact Or.inr rfl
    · exact h.priv
  · dsimp only
    rw [Mstatus.mpp_setMpp]
    split
    · exact h.priv
    · exact Or.inr rfl

theorem mretReturn (h : c.Legal) : (c.mretReturn P).Legal := by
  unfold Csr.mretReturn
  refine ite ⟨h.mpp, Or.inl ?_⟩ ⟨h.priv, Or.inr (Mstatus.mpp_setMpp _ _)⟩
  dsimp only
  split
  · rw [Mstatus.mpp_setMprv, Mstatus.mpp_setMpp]
  · rw [Mstatus.mpp_setMpp]

/-- Every clock of the CSR file keeps the privileges implemented. -/
theorem step (h : c.Legal) (i : CsrIn) : (c.step P i).Legal := by
  have ht := h.trapEntry (P := P) i
  have hm := h.mretReturn (P := P)
  have hw := h.write (P := P) i.addr i.wdata
  unfold Csr.step
  exact ite ⟨ht.priv, ht.mpp⟩ (ite ⟨hm.priv, hm.mpp⟩ (ite ⟨hw.priv, hw.mpp⟩ ⟨h.priv, h.mpp⟩))

end Csr.Legal

/-! ## Execute -/

namespace XIn

variable {P : Params} {x : XIn}

/-- FENCE.I is a no-op for the decoder. -/
theorem dec_of_isFencei (h : x.isFencei = true) : x.dec = Decode.fence x.fxInstr := by
  have hop : Decode.opcode x.fxInstr = opFence := by
    unfold isFencei at h
    simp only [Bool.and_eq_true, beq_iff_eq] at h
    exact h.1
  unfold dec decode
  rw [hop]
  rfl

/-- The decoder does not know the atomics. -/
theorem dec_of_isAmo (h : x.isAmo = true) : x.dec = Decode.illegalOpcode x.fxInstr := by
  have hop : Decode.opcode x.fxInstr = 0b0101111#7 := by
    unfold isAmo at h
    simp only [Bool.and_eq_true, beq_iff_eq] at h
    exact h.1
  unfold dec decode
  rw [hop]
  rfl

theorem isAmo_of_amoValid (h : x.amoValid = true) : x.isAmo = true := by
  unfold amoValid at h
  simp only [Bool.and_eq_true] at h
  exact h.1

/-- A load or store of the decoder is not an atomic. -/
theorem amoValid_eq_false (h : x.dec.memRe = true ∨ x.dec.memWe = true) : x.amoValid = false := by
  by_contra hamo
  rw [Bool.not_eq_false] at hamo
  rw [dec_of_isAmo (isAmo_of_amoValid hamo)] at h
  simp [Decode.illegalOpcode] at h

/-- The ALU computes the address of a load or store, and it is what W takes over. -/
theorem xResult_of_mem (h : x.dec.memRe = true ∨ x.dec.memWe = true) : x.xResult P = x.aluY := by
  have hsel : x.dec.wbSel = .mem ∨ x.dec.wbSel = .alu := by
    rcases h with hre | hwe
    · exact Or.inl ((decode_classes x.fxInstr).load hre).2.1
    · exact Or.inr ((decode_classes x.fxInstr).store hwe).2.1
  unfold xResult
  rcases hsel with hs | hs <;> rw [hs]

theorem fxInstr_of_isUret (h : x.isUret P = true) : P.secure = true ∧ x.fxInstr = 0x00200073#32 := by
  unfold isUret at h
  simpa using h

/-- The decoder only knows MRET: it takes URET for an illegal SYSTEM instruction. -/
theorem dec_of_isUret (h : x.isUret P = true) :
    x.dec.isMret = false ∧ x.dec.isJal = false ∧ x.dec.isJalr = false ∧
    x.dec.isBranch = false ∧ x.dec.isCsr = false ∧ x.dec.isMd = false := by
  unfold dec
  rw [(fxInstr_of_isUret h).2]
  decide

/-- A trigger only fires on an instruction that is leaving X. -/
theorem trigFire_valid (h : x.trigFire = true) : x.fxValid = true ∧ x.exFreeze = false := by
  unfold trigFire trigMatch at h
  split at h
  case isTrue hv =>
    unfold trigChkValid at hv
    simp only [Bool.and_eq_true, Bool.not_eq_true'] at hv
    exact hv.1
  case isFalse => exact absurd h Bool.false_ne_true

theorem exTrap_valid (h : x.exTrap P = true) : x.fxValid = true := by
  unfold exTrap archTrap trigToExc at h
  simp only [Bool.and_eq_true, Bool.or_eq_true] at h
  obtain ⟨⟨hv, -⟩ | ⟨hfire, -⟩, -⟩ := h
  · exact hv
  · exact (trigFire_valid hfire).1

/-- What an interrupt is taken on: an instruction that leaves X and neither traps nor
jumps, returns or accesses a CSR. -/
structure TakesIrq (P : Params) (x : XIn) : Prop where
  valid : x.fxValid = true
  free : x.exFreeze = false
  irqReq : x.irqReq = true
  exTrap : x.exTrap P = false
  dbgFreeze : x.dbgFreeze = false
  mret : x.dec.isMret = false
  uret : x.isUret P = false
  csr : x.dec.isCsr = false
  jal : x.dec.isJal = false
  jalr : x.dec.isJalr = false
  branch : x.dec.isBranch = false

theorem takeIrq_iff : x.takeIrq P = true ↔ x.TakesIrq P := by
  unfold takeIrq
  simp only [Bool.and_eq_true, Bool.not_eq_true']
  constructor
  · rintro ⟨⟨⟨⟨⟨⟨⟨⟨⟨⟨hv, hfz⟩, hreq⟩, htrap⟩, hdbg⟩, hmret⟩, huret⟩, hcsr⟩, hjal⟩, hjalr⟩, hbr⟩
    exact ⟨hv, hfz, hreq, htrap, hdbg, hmret, huret, hcsr, hjal, hjalr, hbr⟩
  · rintro ⟨hv, hfz, hreq, htrap, hdbg, hmret, huret, hcsr, hjal, hjalr, hbr⟩
    exact ⟨⟨⟨⟨⟨⟨⟨⟨⟨⟨hv, hfz⟩, hreq⟩, htrap⟩, hdbg⟩, hmret⟩, huret⟩, hcsr⟩, hjal⟩, hjalr⟩, hbr⟩

theorem takeIrq_eq_false_iff : x.takeIrq P = false ↔ ¬ x.TakesIrq P := by
  rw [← takeIrq_iff, Bool.not_eq_true]

/-- An exception is not an interrupt. -/
theorem takeIrq_of_exTrap (h : x.exTrap P = true) : x.takeIrq P = false :=
  takeIrq_eq_false_iff.mpr fun ht => Bool.false_ne_true (ht.exTrap.symm.trans h)

theorem mcause_exception (cause : BitVec 4) :
    BitVec.ofBool false ++ 0#27 ++ cause = (0#28 ++ cause : Word) := by
  revert cause
  decide

/-- What the CSR file records of an exception. -/
theorem trapEntry_of_exTrap (h : x.exTrap P = true) (retire : Bool) :
    (x.csr.trapEntry P.csr (x.csrIn P retire)).mepc = x.fxPc ∧
      (x.csr.trapEntry P.csr (x.csrIn P retire)).mcause = 0#28 ++ x.exCause P := by
  constructor
  · show (if x.exTrap P then x.fxPc else x.irqEpc) = _
    rw [h, if_pos rfl]
  · show BitVec.ofBool (x.takeIrq P) ++ 0#27 ++
      (if x.exTrap P then x.exCause P else x.csr.irqCause x.irq) = _
    rw [takeIrq_of_exTrap h, h, if_pos rfl]
    exact mcause_exception _

/-- What it records of an interrupt. -/
theorem trapEntry_of_takeIrq (h : x.takeIrq P = true) (retire : Bool) :
    (x.csr.trapEntry P.csr (x.csrIn P retire)).mepc = x.irqEpc ∧
      (x.csr.trapEntry P.csr (x.csrIn P retire)).mcause =
        1#1 ++ 0#27 ++ x.csr.irqCause x.irq := by
  have htrap := (takeIrq_iff.mp h).exTrap
  constructor
  · show (if x.exTrap P then x.fxPc else x.irqEpc) = _
    rw [htrap, if_neg Bool.false_ne_true]
  · show BitVec.ofBool (x.takeIrq P) ++ 0#27 ++
      (if x.exTrap P then x.exCause P else x.csr.irqCause x.irq) = _
    rw [h, htrap, if_neg Bool.false_ne_true]
    rfl

/-- The CSR file takes a trap for one of two reasons, and only when the
instruction in X leaves it. -/
theorem mTrapSet_cases (h : x.mTrapSet P = true) :
    x.fxValid = true ∧ x.exFreeze = false ∧
      ((x.exTrap P = true ∧ x.delegTrap P = false) ∨
        (x.exTrap P = false ∧ x.takeIrq P = true)) := by
  unfold mTrapSet at h
  simp only [Bool.or_eq_true, Bool.and_eq_true, Bool.not_eq_true'] at h
  rcases h with ⟨⟨htrap, hfz⟩, hdeleg⟩ | hirq
  · exact ⟨exTrap_valid htrap, hfz, Or.inl ⟨htrap, hdeleg⟩⟩
  · have ht := takeIrq_iff.mp hirq
    exact ⟨ht.valid, ht.free, Or.inr ⟨ht.exTrap, hirq⟩⟩

/-- No redirect without an instruction that leaves X. -/
theorem redirect_valid {target : Word} (h : x.redirect P = some target) :
    x.fxValid = true ∧ x.exFreeze = false := by
  unfold redirect at h
  split at h
  case isTrue hv => simpa using hv
  case isFalse => exact absurd h (by simp)

theorem redirect_of_exTrap (htrap : x.exTrap P = true) (hfz : x.exFreeze = false) :
    x.redirect P = some (if x.delegTrap P then x.ucsr.utvec else x.csr.mtvec) := by
  unfold redirect
  rw [exTrap_valid htrap, hfz, htrap]
  rfl

theorem redirect_of_mret (hv : x.fxValid = true) (hfz : x.exFreeze = false)
    (htrap : x.exTrap P = false) (h : x.dec.isMret = true) :
    x.redirect P = some x.csr.mepc := by
  have huret : x.isUret P = false := by
    by_contra hu
    rw [Bool.not_eq_false] at hu
    exact absurd h (by simp [(dec_of_isUret hu).1])
  unfold redirect
  rw [hv, hfz, htrap, huret, h]
  rfl

/-- An interrupt redirects to the handler, unless a FENCE.I redirects first. -/
theorem redirect_of_takeIrq (h : x.takeIrq P = true) (hf : x.isFencei = false) :
    x.redirect P = some x.csr.mtvec := by
  have ht := takeIrq_iff.mp h
  unfold redirect
  rw [ht.valid, ht.free, ht.exTrap, ht.uret, ht.mret, ht.jalr, ht.jal, ht.branch, hf, h]
  rfl

/-- An instruction leaves X in this clock. -/
def leaves (x : XIn) : Bool := x.fxValid && !x.exFreeze

theorem leaves_iff : x.leaves = true ↔ x.fxValid = true ∧ x.exFreeze = false := by
  unfold leaves
  rw [Bool.and_eq_true, Bool.not_eq_true']

/-- Without an instruction that leaves, and without an abstract access of the
debugger, X has no effect. -/
structure Idle (P : Params) (x : XIn) : Prop where
  redirect : x.redirect P = none
  mTrapSet : x.mTrapSet P = false
  takeIrq : x.takeIrq P = false
  delegTrap : x.delegTrap P = false
  csrMret : x.csrMret P = false
  uret : (x.fxValid && x.isUret P && !x.exFreeze) = false
  csrWeEff : x.csrWeEff P = false
  trigFire : x.trigFire = false

theorem idle (h : x.leaves = false) (hdbg : x.dbgMode = true → x.dbgCsrWe = false) :
    x.Idle P := by
  have hno : ∀ hv : x.fxValid = true, x.exFreeze = false → False := by
    intro hv hfz
    exact absurd (leaves_iff.mpr ⟨hv, hfz⟩) (by simp [h])
  have hirq : x.takeIrq P = false := takeIrq_eq_false_iff.mpr fun ht => hno ht.valid ht.free
  refine ⟨?_, ?_, hirq, ?_, ?_, ?_, ?_, ?_⟩
  · cases hr : x.redirect P with
    | none => rfl
    | some target => exact (hno (redirect_valid hr).1 (redirect_valid hr).2).elim
  · by_contra ht
    rw [Bool.not_eq_false] at ht
    exact hno (mTrapSet_cases ht).1 (mTrapSet_cases ht).2.1
  · by_contra ht
    rw [Bool.not_eq_false] at ht
    unfold delegTrap at ht
    simp only [Bool.and_eq_true, Bool.not_eq_true'] at ht
    exact hno (exTrap_valid ht.1.1.2) ht.1.2
  · by_contra ht
    rw [Bool.not_eq_false] at ht
    unfold csrMret at ht
    simp only [Bool.and_eq_true, Bool.not_eq_true'] at ht
    exact hno ht.1.1.1 ht.2
  · by_contra ht
    rw [Bool.not_eq_false] at ht
    simp only [Bool.and_eq_true, Bool.not_eq_true'] at ht
    exact hno ht.1.1 ht.2
  · by_contra ht
    rw [Bool.not_eq_false] at ht
    unfold csrWeEff at ht
    cases hm : x.dbgMode with
    | true =>
      rw [hm, if_pos rfl, hdbg hm] at ht
      exact Bool.false_ne_true ht
    | false =>
      rw [hm, if_neg Bool.false_ne_true] at ht
      simp only [Bool.and_eq_true, Bool.not_eq_true'] at ht
      exact hno ht.1.1.1 ht.2
  · by_contra ht
    rw [Bool.not_eq_false] at ht
    exact hno (trigFire_valid ht).1 (trigFire_valid ht).2

/-- An idle X keeps the three CSR files, the counters apart. -/
theorem Idle.keeps (h : x.Idle P) (retire : Bool) :
    x.csrNext P retire = { x.csr with ctr := x.csr.tick (x.csrIn P retire) } ∧
    x.ucsrNext P = x.ucsr ∧ x.trigNext P = x.trig := by
  refine ⟨?_, ?_, ?_⟩
  · have ht : (x.csrIn P retire).trapSet = false := h.mTrapSet
    have hm : (x.csrIn P retire).mret = false := h.csrMret
    have hw : (x.csrIn P retire).we = false := by
      show (x.csrWeEff P && !x.isTrigCsr && !x.isUcsr P) = false
      rw [h.csrWeEff]
      rfl
    unfold csrNext Csr.step
    rw [ht, hm, hw]
    rfl
  · unfold ucsrNext ucsrWe
    rw [h.delegTrap, h.uret, h.csrWeEff]
    simp
  · unfold trigNext trigCsrWe
    rw [h.csrWeEff, h.trigFire]
    simp

/-- The instruction in X is a FENCE.I that an interrupt is about to be taken on. -/
def fenceiInterrupted (P : Params) (x : XIn) : Bool :=
  x.fxValid && x.isFencei && !x.exFreeze && x.irqReq && !x.exTrap P && !x.dbgFreeze

theorem takeIrq_fencei (h : x.takeIrq P = true) (hf : x.isFencei = true) :
    x.fenceiInterrupted P = true := by
  have ht := takeIrq_iff.mp h
  unfold fenceiInterrupted
  simp [ht.valid, hf, ht.free, ht.irqReq, ht.exTrap, ht.dbgFreeze]

end XIn

/-! ## Stalls, freezes and commits -/

namespace Core

variable {P : Params}

section Nets

variable {s : Core P} {i : CoreIn}

theorem exFreeze_eq_false_iff :
    s.exFreeze = false ↔ s.mdStall = false ∧ s.w.memBeatStall = false :=
  Bool.or_eq_false_iff

theorem exFreeze_of_mdStall (h : s.mdStall = true) : s.exFreeze = true := by
  unfold exFreeze
  rw [h, Bool.true_or]

theorem mdStall_of_empty (h : s.f.fxValid = false) : s.mdStall = false := by
  unfold mdStall
  rw [h]
  rfl

theorem mdStall_of_not_md (h : (decode s.f.fxInstr).isMd = false) : s.mdStall = false := by
  unfold mdStall
  rw [h, Bool.and_false]
  rfl

theorem mdStall_of_done (h : s.md.done = true) : s.mdStall = false := by
  unfold mdStall
  rw [h]
  exact Bool.and_false _

theorem ebreakToDebug_of_empty (h : s.f.fxValid = false) : s.ebreakToDebug = false := by
  unfold ebreakToDebug
  rw [h]
  rfl

theorem ebreakToDebug_of_not_ebreakm (h : s.dbg.dcsrEbreakm = false) :
    s.ebreakToDebug = false := by
  unfold ebreakToDebug
  rw [h]
  simp

theorem xCommit_iff :
    s.xCommit = true ↔
      s.f.fxValid = true ∧ s.mdStall = false ∧ s.ebreakToDebug = false := by
  unfold xCommit
  simp only [Bool.and_eq_true, Bool.not_eq_true', and_assoc]

theorem xCommit_of_empty (h : s.f.fxValid = false) : s.xCommit = false := by
  unfold xCommit
  rw [h]
  rfl

theorem xCommit_of_mdStall (h : s.mdStall = true) : s.xCommit = false := by
  unfold xCommit
  rw [h]
  simp

theorem xCommit_of_ebreakToDebug (h : s.ebreakToDebug = true) : s.xCommit = false := by
  unfold xCommit
  rw [h]
  exact Bool.and_false _

theorem dbgFreeze_of_dbgMode (h : s.dbg.dbgMode = true) : s.dbgFreeze i = true := by
  unfold dbgFreeze
  rw [h]
  rfl

theorem dbgFreeze_of_haltReq (h : s.dbg.haltReq = true) : s.dbgFreeze i = true := by
  unfold dbgFreeze
  rw [h]
  simp

theorem dbgFreeze_of_ebreakToDebug (h : s.ebreakToDebug = true) : s.dbgFreeze i = true := by
  unfold dbgFreeze
  rw [h]
  simp

theorem pipeDrained_iff :
    s.pipeDrained = true ↔ s.f.fxValid = false ∧ s.w.xwValid = false := by
  unfold pipeDrained
  rw [Bool.and_eq_true, Bool.not_eq_true', Bool.not_eq_true']

theorem pipeDrained_of_valid (h : s.f.fxValid = true ∨ s.w.xwValid = true) :
    s.pipeDrained = false := by
  unfold pipeDrained
  rcases h with h | h <;> simp [h]

/-- The debugger reaches a halted core only. -/
theorem dbgDo_of_running (h : s.dbg.dbgMode = false) : s.dbgDo i = false := by
  unfold dbgDo
  rw [h]
  rfl

theorem dbgGprWe_of_running (h : s.dbg.dbgMode = false) : s.dbgGprWe i = false := by
  unfold dbgGprWe
  rw [dbgDo_of_running h]
  rfl

end Nets

/-! ## Debug Mode and issue -/

/-- A run of the core out of reset, from any power-up state. -/
abbrev runFrom (s₀ : Core P) (i₀ : CoreIn) (ins : Nat → CoreIn) (n : Nat) : Core P :=
  run step (s₀.reset i₀) ins n

/-- The instruction in W at clock `n` is the one that left X at clock `m`. -/
structure Issued (s₀ : Core P) (i₀ : CoreIn) (ins : Nat → CoreIn) (m n : Nat) : Prop where
  commit : (runFrom s₀ i₀ ins m).xCommit = true
  leaves : (runFrom s₀ i₀ ins m).exFreeze = false
  xw : (runFrom s₀ i₀ ins n).w.xw = ((runFrom s₀ i₀ ins m).xIn (ins m)).xwNext P
  beat : n = m + if (runFrom s₀ i₀ ins n).w.beat2 then 2 else 1

/-- Every instruction in W was issued one or two clocks before. -/
theorem issued (s₀ : Core P) (i₀ : CoreIn) (ins : Nat → CoreIn) (n : Nat)
    (hv : (runFrom s₀ i₀ ins n).w.xwValid = true) : ∃ m, Issued s₀ i₀ ins m n := by
  induction n with
  | zero => exact absurd hv Bool.false_ne_true
  | succ n ih =>
    have hw : (runFrom s₀ i₀ ins (n + 1)).w = (runFrom s₀ i₀ ins n).w.step (ins n).dmemRdata
        (runFrom s₀ i₀ ins n).xCommit (((runFrom s₀ i₀ ins n).xIn (ins n)).xwNext P) := rfl
    rw [hw] at hv
    cases hb : (runFrom s₀ i₀ ins n).w.memBeatStall with
    | true =>
      -- the first beat: the instruction stays for its second
      obtain ⟨m, hm⟩ := ih (WStage.xwValid_of_memBeatStall _ hb)
      obtain ⟨-, hxw, hbeat⟩ := WStage.step_of_stall _ hb (ins n).dmemRdata
        (runFrom s₀ i₀ ins n).xCommit (((runFrom s₀ i₀ ins n).xIn (ins n)).xwNext P)
      have hmn := hm.beat
      rw [WStage.beat2_of_memBeatStall _ hb] at hmn
      refine ⟨m, hm.commit, hm.leaves, ?_, ?_⟩
      · rw [hw, hxw, hm.xw]
      · rw [hw, hbeat]
        simpa using hmn
    | false =>
      obtain ⟨hval, hxw, hbeat⟩ := WStage.step_of_not_stall _ hb (ins n).dmemRdata
        (runFrom s₀ i₀ ins n).xCommit (((runFrom s₀ i₀ ins n).xIn (ins n)).xwNext P)
      have hc : (runFrom s₀ i₀ ins n).xCommit = true := hval.symm.trans hv
      refine ⟨n, hc, ?_, by rw [hw, hxw], by rw [hw, hbeat]; simp⟩
      exact exFreeze_eq_false_iff.mpr ⟨(xCommit_iff.mp hc).2.1, hb⟩

/-- The privileges are implemented ones in every reachable state. -/
theorem csr_legal (s₀ : Core P) (i₀ : CoreIn) (ins : Nat → CoreIn) (n : Nat) :
    (runFrom s₀ i₀ ins n).csr.Legal := by
  induction n with
  | zero => exact ⟨Or.inr rfl, Or.inl (by decide : Mstatus.mpp 0#32 = 0b00#2)⟩
  | succ n ih => exact ih.step _

@[simp] theorem writeLocal_dbgMode (d : Dbg) (regno : BitVec 12) (v : Word) :
    (d.writeLocal regno v).dbgMode = d.dbgMode := by
  unfold Dbg.writeLocal
  split_ifs <;> rfl

@[simp] theorem dbgAccess_dbgMode (s : Core P) (i : CoreIn) :
    (s.dbgAccess i).dbgMode = s.dbg.dbgMode := by
  unfold dbgAccess
  dsimp only
  split_ifs
  · exact writeLocal_dbgMode _ _ _
  · rfl

@[simp] theorem dbgHalt_dbgMode (s : Core P) (i : CoreIn) (d : Dbg) :
    (s.dbgHalt i d).dbgMode = d.dbgMode := by
  unfold dbgHalt
  split_ifs <;> rfl

/-- Debug Mode goes on, or it is entered from a requested halt of a drained
pipeline. -/
theorem dbgMode_step (s : Core P) (i : CoreIn) (h : (s.step i).dbg.dbgMode = true) :
    s.dbg.dbgMode = true ∨ (s.dbg.haltReq = true ∧ s.f.fxValid = false ∧ s.w.xwValid = false) := by
  by_contra hno
  rw [not_or, Bool.not_eq_true] at hno
  obtain ⟨hm, hdrain⟩ := hno
  have henter : ∀ d : Dbg, s.dbgEnter d = d := by
    intro d
    unfold dbgEnter pipeDrained
    rw [if_neg]
    simpa [hm] using hdrain
  have hresume : ∀ d : Dbg, s.dbgResume i d = d := by
    intro d
    unfold dbgResume
    rw [hm]
    rfl
  have hmode : (s.step i).dbg.dbgMode = s.dbg.dbgMode := by
    show (s.dbgResume i (s.dbgEnter (s.dbgHalt i (s.dbgAccess i)))).dbgMode = _
    rw [hresume, henter, dbgHalt_dbgMode, dbgAccess_dbgMode]
  rw [hmode, hm] at h
  exact Bool.false_ne_true h

/-- The debug registers of a running core before Debug Mode is entered. -/
def dbgRunning (s : Core P) (i : CoreIn) : Dbg :=
  { s.dbg with
    dbgArDone := false
    dbgArBusy := if !i.dbgArValid then false else s.dbg.dbgArBusy
    haltReq := s.dbg.haltReq || i.dbgHaltreq || s.ebreakToDebug || s.stepHaltNow
    dpcCap := if s.ebreakToDebug then s.f.fxPc else s.dbg.dpcCap
    dpcCapValid := s.dbg.dpcCapValid || s.ebreakToDebug }

section Debug

variable {s : Core P} {i : CoreIn}

theorem dbg_of_running (hm : s.dbg.dbgMode = false) :
    (s.step i).dbg = s.dbgEnter (s.dbgRunning i) := by
  have haccess : s.dbgHalt i (s.dbgAccess i) = s.dbgRunning i := by
    unfold dbgHalt dbgAccess dbgRunning
    rw [dbgDo_of_running hm, hm]
    rfl
  show s.dbgResume i (s.dbgEnter (s.dbgHalt i (s.dbgAccess i))) = _
  rw [haccess]
  unfold dbgResume
  rw [hm]
  rfl

/-- A core that runs on. -/
theorem dbg_stays (hm : s.dbg.dbgMode = false) (h : (s.dbg.haltReq && s.pipeDrained) = false) :
    (s.step i).dbg = s.dbgRunning i := by
  rw [dbg_of_running hm]
  unfold dbgEnter
  rw [hm, Bool.not_false, Bool.and_true, h]
  rfl

/-- A core that enters Debug Mode. -/
theorem dbg_enters (hm : s.dbg.dbgMode = false) (hreq : s.dbg.haltReq = true)
    (hdrain : s.pipeDrained = true) :
    (s.step i).dbg =
      { s.dbgRunning i with
        dbgMode := true
        haltReq := false
        dpc := if s.dbg.dpcCapValid then s.dbg.dpcCap else s.f.pc
        dcsrCause := if s.dbg.dpcCapValid then 1#3 else if s.dbg.stepActive then 4#3 else 3#3
        stepActive := false
        dpcCapValid := false } := by
  rw [dbg_of_running hm]
  unfold dbgEnter
  rw [hm, hreq, hdrain]
  rfl

/-- A halted core only serves the debugger. -/
theorem dbg_of_dbgMode (hm : s.dbg.dbgMode = true) :
    (s.step i).dbg = s.dbgResume i (s.dbgAccess i) := by
  have hhalt : s.dbgHalt i (s.dbgAccess i) = s.dbgAccess i := by
    unfold dbgHalt
    rw [hm]
    rfl
  have henter : s.dbgEnter (s.dbgAccess i) = s.dbgAccess i := by
    unfold dbgEnter
    rw [hm]
    simp
  show s.dbgResume i (s.dbgEnter (s.dbgHalt i (s.dbgAccess i))) = _
  rw [hhalt, henter]

/-- The debugger does not reach the halt request. -/
theorem dbgAccess_request (s : Core P) (i : CoreIn) :
    (s.dbgAccess i).haltReq = s.dbg.haltReq ∧
      (s.dbgAccess i).dpcCapValid = s.dbg.dpcCapValid := by
  unfold dbgAccess Dbg.writeLocal
  split_ifs <;> exact ⟨rfl, rfl⟩

/-- A halted core, on which the debugger writes nothing. -/
theorem dbg_of_halted (hm : s.dbg.dbgMode = true) (hacc : (s.dbgDo i && i.dbgArWrite) = false) :
    (s.step i).dbg =
      s.dbgResume i
        { s.dbg with
          dbgArDone := s.dbgDo i
          dbgArBusy := if !i.dbgArValid then false else s.dbgDo i || s.dbg.dbgArBusy } := by
  rw [dbg_of_dbgMode hm]
  unfold dbgAccess
  rw [hacc, Bool.false_and, if_neg Bool.false_ne_true]

end Debug

/-- While the front end is frozen nothing new reaches X. -/
theorem fxValid_of_dbgFreeze (s : Core P) (i : CoreIn) (h : s.dbgFreeze i = true) :
    (s.step i).f.fxValid = false := by
  have hc := s.f.step_clock s.bp.ghist (s.fetchIn i)
  show (s.f.step s.bp.ghist (s.fetchIn i)).fxValid = false
  generalize s.f.step s.bp.ghist (s.fetchIn i) = f' at hc
  cases hc with
  | redirected | resumed | frozen | straddled => rfl
  | stalled hr hres hfz => exact absurd (h.symm.trans hfz) (by simp)
  | accepted hr hres hfz => exact absurd (h.symm.trans hfz) (by simp)

/-- An empty pipeline stays empty in W. -/
theorem xwValid_of_drained (s : Core P) (i : CoreIn) (hx : s.f.fxValid = false)
    (hw : s.w.xwValid = false) : (s.step i).w.xwValid = false := by
  have hb : s.w.memBeatStall = false := by
    by_contra hb
    rw [Bool.not_eq_false] at hb
    exact absurd (s.w.xwValid_of_memBeatStall hb) (by simp [hw])
  show (s.w.step i.dmemRdata s.xCommit _).xwValid = false
  rw [(s.w.step_of_not_stall hb _ _ _).1]
  exact xCommit_of_empty hx

/-- An empty X redirects nothing. -/
theorem redirect_of_empty {s : Core P} (hv : s.f.fxValid = false) (i : CoreIn) :
    s.redirect i = none := by
  cases hr : s.redirect i with
  | none => rfl
  | some target =>
    exact absurd (hv.symm.trans (XIn.redirect_valid (x := s.xIn i) hr).1) Bool.false_ne_true

/-- With X empty and the front end frozen, PC stays. -/
theorem pc_of_frozen {s : Core P} {i : CoreIn} (hm : s.dbg.dbgMode = false)
    (hv : s.f.fxValid = false) (hfz : s.dbgFreeze i = true) : (s.step i).f.pc = s.f.pc := by
  have hc := s.f.step_clock s.bp.ghist (s.fetchIn i)
  show (s.f.step s.bp.ghist (s.fetchIn i)).pc = s.f.pc
  generalize s.f.step s.bp.ghist (s.fetchIn i) = f' at hc
  cases hc with
  | redirected target hr => exact absurd ((redirect_of_empty hv i).symm.trans hr) (by simp)
  | resumed _ hres =>
    have hres' : (s.dbg.dbgMode && i.dbgResumereq) = true := hres
    rw [hm] at hres'
    exact absurd hres' Bool.false_ne_true
  | frozen => rfl
  | stalled _ _ hfz' => exact absurd (hfz.symm.trans hfz') (by simp)
  | straddled _ _ hfz' => exact absurd (hfz.symm.trans hfz') (by simp)
  | accepted _ _ hfz' => exact absurd (hfz.symm.trans hfz') (by simp)

/-- A halt has been requested and X is empty. -/
structure Draining (s : Core P) : Prop where
  running : s.dbg.dbgMode = false
  requested : s.dbg.haltReq = true
  empty : s.f.fxValid = false

/-- While W is at work nothing of the request changes. -/
theorem Draining.step {s : Core P} (h : Draining s) (i : CoreIn) (hw : s.w.xwValid = true) :
    Draining (s.step i) ∧ (s.step i).w.left < s.w.left ∧ (s.step i).f.pc = s.f.pc ∧
      (s.step i).dbg.dpcCapValid = s.dbg.dpcCapValid ∧ (s.step i).dbg.dpcCap = s.dbg.dpcCap ∧
      (s.step i).dbg.stepActive = s.dbg.stepActive := by
  have hfz : s.dbgFreeze i = true := dbgFreeze_of_haltReq h.requested
  have hdrain : s.pipeDrained = false := pipeDrained_of_valid (.inr hw)
  have hdbg : (s.step i).dbg = s.dbgRunning i := dbg_stays h.running (by rw [hdrain]; simp)
  have hebr : s.ebreakToDebug = false := ebreakToDebug_of_empty h.empty
  have hcap : (s.step i).dbg.dpcCapValid = s.dbg.dpcCapValid ∧
      (s.step i).dbg.dpcCap = s.dbg.dpcCap := by
    rw [hdbg]
    unfold dbgRunning
    rw [hebr]
    exact ⟨Bool.or_false _, rfl⟩
  refine ⟨⟨?_, ?_, s.fxValid_of_dbgFreeze i hfz⟩, ?_, pc_of_frozen h.running h.empty hfz, hcap.1,
    hcap.2, ?_⟩
  · rw [hdbg]
    exact h.running
  · rw [hdbg]
    show (s.dbg.haltReq || i.dbgHaltreq || s.ebreakToDebug || s.stepHaltNow) = true
    rw [h.requested]
    simp
  · exact s.w.left_step hw _ _ _ (xCommit_of_empty h.empty)
  · rw [hdbg]
    rfl

/-- **A requested halt drains the pipeline and enters Debug Mode**, once X is
empty, within the clocks that W still needs. Nothing reaches X meanwhile. -/
theorem drains (s : Core P) (ins : Nat → CoreIn) (hm : s.dbg.dbgMode = false)
    (hreq : s.dbg.haltReq = true) (hv : s.f.fxValid = false) :
    ∃ m, 0 < m ∧ m ≤ s.w.left + 1 ∧ (∀ j ≤ m, (run step s ins j).f.fxValid = false) ∧
      (∀ j < m, (run step s ins j).dbg.dbgMode = false) ∧
      (run step s ins m).dbg.dbgMode = true ∧
      (run step s ins m).dbg.dpc = (if s.dbg.dpcCapValid then s.dbg.dpcCap else s.f.pc) ∧
      (run step s ins m).dbg.dcsrCause =
        if s.dbg.dpcCapValid then 1#3 else if s.dbg.stepActive then 4#3 else 3#3 := by
  -- on the clocks that W has left
  induction hl : s.w.left using Nat.strong_induction_on generalizing s ins with
  | _ l ih =>
    cases hw : s.w.xwValid with
    | false =>
      -- drained: Debug Mode is entered in this clock
      have hdrain : s.pipeDrained = true := pipeDrained_iff.mpr ⟨hv, hw⟩
      have hdbg := dbg_enters (i := ins 0) hm hreq hdrain
      refine ⟨1, Nat.one_pos, by omega, ?_, ?_, ?_, ?_, ?_⟩
      · intro j hj
        rcases Nat.le_one_iff_eq_zero_or_eq_one.mp hj with rfl | rfl
        · exact hv
        · exact s.fxValid_of_dbgFreeze (ins 0) (dbgFreeze_of_haltReq hreq)
      · intro j hj
        obtain rfl : j = 0 := by omega
        exact hm
      · show (s.step (ins 0)).dbg.dbgMode = true
        rw [hdbg]
      · show (s.step (ins 0)).dbg.dpc = _
        rw [hdbg]
      · show (s.step (ins 0)).dbg.dcsrCause = _
        rw [hdbg]
    | true =>
      obtain ⟨⟨hm', hreq', hv'⟩, hlt, hpc, hcapv, hcap, hact⟩ :=
        Draining.step ⟨hm, hreq, hv⟩ (ins 0) hw
      obtain ⟨m, hpos, hle, hempty, hrun, hmode, hdpc, hcause⟩ :=
        ih _ (hl ▸ hlt) (s.step (ins 0)) (fun k => ins (1 + k)) hm' hreq' hv' rfl
      have hshift : ∀ j, run step s ins (1 + j) =
          run step (s.step (ins 0)) (fun k => ins (1 + k)) j := run_add step s ins 1
      refine ⟨1 + m, by omega, by omega, ?_, ?_, ?_, ?_, ?_⟩
      · intro j hj
        cases j with
        | zero => exact hv
        | succ j =>
          rw [Nat.add_comm j 1, hshift]
          exact hempty j (by omega)
      · intro j hj
        cases j with
        | zero => exact hm
        | succ j =>
          rw [Nat.add_comm j 1, hshift]
          exact hrun j (by omega)
      · rw [hshift]
        exact hmode
      · rw [hshift, hdpc, hcapv, hcap, hpc]
      · rw [hshift, hcause, hcapv, hact]

/-- **Debug Mode is entered and left with X and W empty**, in every reachable
state. -/
theorem halted_empty (s₀ : Core P) (i₀ : CoreIn) (ins : Nat → CoreIn) (n : Nat)
    (h : (runFrom s₀ i₀ ins n).dbg.dbgMode = true) :
    (runFrom s₀ i₀ ins n).f.fxValid = false ∧ (runFrom s₀ i₀ ins n).w.xwValid = false := by
  induction n with
  | zero => exact ⟨rfl, rfl⟩
  | succ n ih =>
    have hempty : (runFrom s₀ i₀ ins n).f.fxValid = false ∧
        (runFrom s₀ i₀ ins n).w.xwValid = false := by
      rcases dbgMode_step _ _ h with hm | ⟨-, hx, hw⟩
      · exact ih hm
      · exact ⟨hx, hw⟩
    refine ⟨fxValid_of_dbgFreeze _ _ ?_, xwValid_of_drained _ _ hempty.1 hempty.2⟩
    rcases dbgMode_step _ _ h with hm | ⟨hreq, -, -⟩
    · exact dbgFreeze_of_dbgMode hm
    · exact dbgFreeze_of_haltReq hreq

/-- An instruction in X is not in Debug Mode. -/
theorem running_of_valid (s₀ : Core P) (i₀ : CoreIn) (ins : Nat → CoreIn) (n : Nat)
    (hv : (runFrom s₀ i₀ ins n).f.fxValid = true) : (runFrom s₀ i₀ ins n).dbg.dbgMode = false := by
  by_contra h
  rw [Bool.not_eq_false] at h
  exact absurd hv (by simp [(halted_empty s₀ i₀ ins n h).1])

/-- A halted core has answered the request for it, and a captured `dpc` waits for a
halt that is under way. -/
structure Answered (s : Core P) : Prop where
  halted : s.dbg.dbgMode = true → s.dbg.haltReq = false
  captured : s.dbg.dpcCapValid = true → s.dbg.haltReq = true

theorem Answered.step {s : Core P} (h : Answered s) (i : CoreIn) : Answered (s.step i) := by
  cases hm : s.dbg.dbgMode with
  | true =>
    have hdbg : (s.step i).dbg.haltReq = s.dbg.haltReq ∧
        (s.step i).dbg.dpcCapValid = s.dbg.dpcCapValid := by
      rw [dbg_of_dbgMode hm]
      unfold dbgResume
      split
      · exact s.dbgAccess_request i
      · exact s.dbgAccess_request i
    exact ⟨fun _ => hdbg.1.trans (h.halted hm),
      fun hc => hdbg.1.trans (h.captured (hdbg.2.symm.trans hc))⟩
  | false =>
    cases hd : (s.dbg.haltReq && s.pipeDrained) with
    | false =>
      have hdbg : (s.step i).dbg = s.dbgRunning i := dbg_stays hm hd
      refine ⟨fun hm' => ?_, fun hc => ?_⟩
      · rw [hdbg] at hm'
        exact absurd (hm.symm.trans hm') (by simp)
      rw [hdbg] at hc ⊢
      show (s.dbg.haltReq || i.dbgHaltreq || s.ebreakToDebug || s.stepHaltNow) = true
      rcases (Bool.or_eq_true ..).mp hc with hc | hc
      · rw [h.captured hc]
        simp
      · rw [hc]
        simp
    | true =>
      rw [Bool.and_eq_true] at hd
      refine ⟨fun _ => ?_, fun hc => ?_⟩
      · rw [dbg_enters hm hd.1 hd.2]
      · rw [dbg_enters hm hd.1 hd.2] at hc
        exact absurd hc Bool.false_ne_true

theorem answered (s₀ : Core P) (i₀ : CoreIn) (ins : Nat → CoreIn) (n : Nat) :
    Answered (runFrom s₀ i₀ ins n) := by
  induction n with
  | zero => exact ⟨fun _ => rfl, fun h => absurd h Bool.false_ne_true⟩
  | succ n ih => exact ih.step _

end Core

end ThreeSippEs
