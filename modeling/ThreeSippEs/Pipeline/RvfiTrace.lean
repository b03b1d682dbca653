import ThreeSippEs.Core.Rvfi
import ThreeSippEs.Pipeline.Quiet
import ThreeSippEs.Security.DataIsolation

/-!
# The RVFI trace

What the formal interface reports in a run without the debugger, against what the
core retires. A report is made from two register sets, the X/W register and the one
captured beside it, and its next PC is computed apart from the redirect; the trace
is right exactly in the runs in which the two agree.

- `Consistent`: one report for each retirement, numbered, linked by their PCs, and
  describing the instruction that retires;
- `Traceable`: what a clock must not do;
- `Describes.iff_portable`: the fields of a report, `XIn.pcWdata_iff`: its next PC;
- `heading_run`: the next instruction in X is fetched where the last one led.
-/

namespace ThreeSippEs

open Clocked MulDivHazard
open DataIsolation (accessSize beWin_iff)

variable {P : Params}

namespace RvfiTrace

/-! ## What a trace has to say -/

/-- The instruction in W takes a value from its rs2 field. -/
def readsRs2 (r : XwReg) : Bool := (decode r.instr).usesRs2 || r.isAmo

/-- The memory fields of a report are those of the access W makes on the data port. -/
structure DescribesAccess (o : RvfiOut) (w : WStage) (rdata : Word) : Prop where
  addr : (w.dmemRe || w.dmemWe) = true → o.memAddr = w.dmemAddr
  rmask : o.memRmask = if w.dmemRe then w.dmemBe else 0#4
  wmask : o.memWmask = if w.dmemWe then w.dmemBe else 0#4
  read : w.dmemRe = true → o.memRdata = rdata
  /-- on the lanes that are written -/
  written : w.dmemWe = true → ∀ k, w.dmemBe.getLsbD k = true →
    o.memWdata.extractLsb' (8 * k) 8 = w.dmemWdata.extractLsb' (8 * k) 8

/-- A report describes the instruction in W: its encoding, the registers it reads
and writes, and its access. -/
structure Describes (o : RvfiOut) (s : Core P) (i : CoreIn) : Prop where
  insn : o.insn = s.w.xw.instr
  rs1Addr : o.rs1Addr = s.w.xw.instr.extractLsb 19 15
  rs1Rdata : o.rs1Rdata = Regfile.get s.regs o.rs1Addr
  rs2Addr : o.rs2Addr = if readsRs2 s.w.xw then s.w.xw.instr.extractLsb 24 20 else 0#5
  rs2Rdata : o.rs2Rdata = Regfile.get s.regs o.rs2Addr
  rd : (s.step i).regs = Regfile.write s.regs true o.rdAddr o.rdWdata
  access : DescribesAccess o s.w i.dmemRdata

/-- The port in clock `n` of a run. -/
abbrev port (s₀ : Core P) (r₀ : Rvfi) (i₀ : CoreIn) (ins : Nat → CoreIn) (n : Nat) : RvfiOut :=
  (Rvfi.runFrom s₀ r₀ i₀ ins n).out (Core.runFrom s₀ i₀ ins n) (ins n)

/-- The trace of a run: every retirement has its report and every report its
retirement, the numbers count up, the PCs are linked, and the fields are those of
the instruction. -/
structure Consistent (s₀ : Core P) (r₀ : Rvfi) (i₀ : CoreIn) (ins : Nat → CoreIn) : Prop where
  once : ∀ n, (port s₀ r₀ i₀ ins n).valid = (Core.runFrom s₀ i₀ ins n).w.retireValid
  order : ∀ n m, Consecutive (fun k => (port s₀ r₀ i₀ ins k).valid) n m →
    (port s₀ r₀ i₀ ins m).order = (port s₀ r₀ i₀ ins n).order + 1#64
  pc : ∀ n m, Consecutive (fun k => (port s₀ r₀ i₀ ins k).valid) n m →
    (port s₀ r₀ i₀ ins m).pcRdata = (port s₀ r₀ i₀ ins n).pcWdata
  fields : ∀ n, (port s₀ r₀ i₀ ins n).valid = true →
    Describes (port s₀ r₀ i₀ ins n) (Core.runFrom s₀ i₀ ins n) (ins n)

end RvfiTrace

/-! ## The next PC -/

namespace XIn

variable (P) (x : XIn)

/-- A jump or branch. -/
def jumps : Bool := x.dec.isBranch || x.dec.isJal || x.dec.isJalr

/-- Where it goes unless it traps. -/
def jumpTarget : Word := if x.dec.isJalr then x.jalrT else x.brActualNext

/-- Where a trap goes. -/
def handler : Word := if x.delegTrap P then x.ucsr.utvec else x.csr.mtvec

/-- Where the front end goes behind the instruction in X. -/
def frontPc : Word := (x.redirect P).getD x.predNext

/-- The next PC computed for the trace can be that of the front end. -/
structure Followed : Prop where
  /-- a jump or branch that traps would have gone to the handler -/
  trap : x.exTrap P = true → x.jumps = true → x.jumpTarget = x.handler P
  /-- no unchecked prediction -/
  checked : x.stale P = false

variable {P x}

theorem pcWdata_of_jumps (h : x.jumps = true) : x.pcWdata P = x.jumpTarget := by
  unfold pcWdata jumpTarget
  cases hr : x.dec.isJalr with
  | true =>
    obtain ⟨hj, hb⟩ := decode_jalr x.fxInstr hr
    have hj' : x.dec.isJal = false := hj
    have hb' : x.dec.isBranch = false := hb
    rw [hj', hb']
    rfl
  | false =>
    unfold jumps at h
    rw [hr, Bool.or_false] at h
    rw [if_pos h]
    rfl

theorem pcWdata_of_not_jumps (h : x.jumps = false) :
    x.pcWdata P = (x.redirect P).getD x.seqNx := by
  unfold jumps at h
  simp only [Bool.or_eq_false_iff] at h
  unfold pcWdata
  rw [h.1.1, h.1.2, h.2]
  rfl

theorem stale_of_redirect {target : Word} (h : x.redirect P = some target) :
    x.stale P = false := by
  unfold stale
  rw [h]
  simp

theorem stale_of_jumps (h : x.jumps = true) : x.stale P = false := by
  unfold jumps at h
  unfold stale
  rcases (by simpa using h : (x.dec.isBranch = true ∨ x.dec.isJal = true) ∨
    x.dec.isJalr = true) with (h | h) | h <;> simp [h]

/-- A jump that does not trap is redirected or was predicted right. -/
theorem frontPc_of_jumps (hl : x.leaves = true) (hj : x.jumps = true)
    (htrap : x.exTrap P = false) (hoff : P.bpred = false → x.fxPredTaken = false) :
    x.frontPc P = x.jumpTarget := by
  obtain ⟨hv, hfz⟩ := leaves_iff.mp hl
  have hmret : x.dec.isMret = false := by
    by_contra hm
    rw [Bool.not_eq_false] at hm
    have hsys := (decode_classes x.fxInstr).sys (by
      show (_ || x.dec.isMret) = true
      rw [hm, Bool.or_true])
    have h1 : x.dec.isJal = false := hsys.2.2.2.2.2.2.1
    have h2 : x.dec.isJalr = false := hsys.2.2.2.2.2.2.2.1
    have h3 : x.dec.isBranch = false := hsys.2.2.2.2.2.2.2.2.1
    unfold jumps at hj
    rw [h1, h2, h3] at hj
    exact Bool.false_ne_true hj
  have huret : x.isUret P = false := by
    by_contra hu
    rw [Bool.not_eq_false] at hu
    unfold jumps dec at hj
    rw [(fxInstr_of_isUret hu).2] at hj
    exact absurd hj (by decide)
  unfold frontPc jumpTarget redirect
  rw [hv, hfz, htrap, huret, hmret, Bool.not_false, Bool.and_true, if_pos rfl,
    if_neg Bool.false_ne_true, if_neg Bool.false_ne_true, if_neg Bool.false_ne_true]
  -- JALR is redirected unless its prediction holds, the others by their own rule
  cases hr : x.dec.isJalr with
  | true =>
    rw [if_pos rfl, if_pos rfl]
    by_cases hc : (!P.bpred || x.jalrT != x.predNext) = true
    · rw [if_pos hc]
      rfl
    · rw [if_neg hc]
      simp only [Bool.or_eq_true, bne_iff_ne, not_or, not_not] at hc
      exact hc.2.symm
  | false =>
    have hbr : (x.dec.isJal || x.dec.isBranch) = true := by
      unfold jumps at hj
      rw [hr, Bool.or_false, Bool.or_comm] at hj
      exact hj
    rw [if_neg Bool.false_ne_true, if_pos hbr, if_neg Bool.false_ne_true]
    cases hb : P.bpred with
    | true =>
      rw [if_pos rfl]
      unfold mispredict
      rw [hb, Bool.or_comm x.dec.isBranch, hbr, Bool.true_and]
      by_cases hc : x.brActualNext = x.predNext
      · rw [hc]
        simp
      · rw [if_pos (by simpa using hc)]
        rfl
    | false =>
      rw [if_neg Bool.false_ne_true]
      cases ht : x.brActualTaken with
      | true => rfl
      | false =>
        unfold brActualNext predNext
        rw [ht, hoff hb]
        rfl

/-- **The next PC of the trace is the one the front end goes to**, exactly when
nothing separates the two. -/
theorem pcWdata_iff (hl : x.leaves = true) (hoff : P.bpred = false → x.fxPredTaken = false) :
    x.pcWdata P = x.frontPc P ↔ x.Followed P := by
  obtain ⟨hv, hfz⟩ := leaves_iff.mp hl
  cases hj : x.jumps with
  | true =>
    rw [pcWdata_of_jumps hj]
    cases htrap : x.exTrap P with
    | true =>
      have hfront : x.frontPc P = x.handler P := by
        unfold frontPc
        rw [redirect_of_exTrap htrap hfz]
        rfl
      rw [hfront]
      exact ⟨fun h => ⟨fun _ _ => h, stale_of_jumps hj⟩, fun h => h.trap htrap hj⟩
    | false =>
      rw [frontPc_of_jumps hl hj htrap hoff]
      exact ⟨fun _ => ⟨fun h => absurd (htrap.symm.trans h) (by simp), stale_of_jumps hj⟩,
        fun _ => rfl⟩
  | false =>
    rw [pcWdata_of_not_jumps hj]
    unfold frontPc
    cases hr : x.redirect P with
    | some target =>
      exact ⟨fun _ => ⟨fun _ h => absurd (hj.symm.trans h) (by simp), stale_of_redirect hr⟩,
        fun _ => rfl⟩
    | none =>
      -- nothing checks a prediction made for an instruction that is no jump
      have hst : x.stale P = (x.predNext != x.seqNx) := by
        unfold jumps at hj
        simp only [Bool.or_eq_false_iff] at hj
        unfold stale
        rw [hl, hr, hj.1.1, hj.1.2, hj.2]
        rfl
      constructor
      · intro h
        refine ⟨fun _ h => absurd (hj.symm.trans h) (by simp), ?_⟩
        rw [hst, ← (show x.seqNx = x.predNext from h)]
        simp
      · intro h
        have hc := h.checked
        rw [hst] at hc
        rw [bne_eq_false_iff_eq] at hc
        exact hc.symm

end XIn

namespace RvfiTrace

/-! ## The lanes of an access -/

theorem byte_quad (b : BitVec 8) {k : Nat} (hk : k < 4) :
    (b ++ b ++ b ++ b).extractLsb' (8 * k) 8 = b := by
  refine BitVec.eq_of_getLsbD_eq fun j hj => ?_
  rw [BitVec.getLsbD_extractLsb', BitVec.getLsbD_append, BitVec.getLsbD_append,
    BitVec.getLsbD_append]
  obtain rfl | rfl | rfl | rfl : k = 0 ∨ k = 1 ∨ k = 2 ∨ k = 3 := by omega
  all_goals grind

theorem byte_pair (h : BitVec 16) {k : Nat} (hk : k < 4) :
    (h ++ h).extractLsb' (8 * k) 8 = h.extractLsb' (8 * (k % 2)) 8 := by
  refine BitVec.eq_of_getLsbD_eq fun j hj => ?_
  rw [BitVec.getLsbD_extractLsb', BitVec.getLsbD_append, BitVec.getLsbD_extractLsb']
  obtain rfl | rfl | rfl | rfl : k = 0 ∨ k = 1 ∨ k = 2 ∨ k = 3 := by omega
  all_goals grind

theorem byte_low {n : Nat} (v : Word) {j : Nat} (hj : 8 * (j + 1) ≤ n) (_ : n ≤ 32) :
    ((v.extractLsb' 0 n).setWidth 32).extractLsb' (8 * j) 8 = v.extractLsb' (8 * j) 8 := by
  refine BitVec.eq_of_getLsbD_eq fun i hi => ?_
  simp only [BitVec.getLsbD_extractLsb', BitVec.getLsbD_setWidth]
  grind

/-- Byte `k` of the first word of a window. -/
theorem byte_window (v : Word) {lo k : Nat} (hlo : lo ≤ k) (hk : k < 4) :
    ((v.setWidth 64 <<< (8 * lo)).extractLsb 31 0).extractLsb' (8 * k) 8 =
      v.extractLsb' (8 * (k - lo)) 8 := by
  refine BitVec.eq_of_getLsbD_eq fun j hj => ?_
  rw [BitVec.getLsbD_extractLsb', BitVec.getLsbD_extractLsb, BitVec.getLsbD_shiftLeft,
    BitVec.getLsbD_setWidth, BitVec.getLsbD_extractLsb']
  have hidx : 0 + (8 * k + j) - 8 * lo = 8 * (k - lo) + j := by omega
  rw [hidx]
  grind

/-- The store data repeat the bytes of the operand. -/
theorem byte_xStore (x : XIn) {k : Nat} (hk : k < 4) :
    x.xStore.extractLsb' (8 * k) 8 =
      x.op2.extractLsb' (8 * (k % accessSize x.dec.memWidth)) 8 := by
  unfold XIn.xStore accessSize
  by_cases h0 : x.dec.memWidth = 0#2
  · rw [if_pos h0, if_pos h0, Nat.mod_one]
    exact byte_quad (x.op2.extractLsb 7 0) hk
  rw [if_neg h0, if_neg h0]
  by_cases h1 : x.dec.memWidth = 1#2
  · rw [if_pos h1, if_pos h1]
    refine (byte_pair (x.op2.extractLsb 15 0) hk).trans ?_
    refine BitVec.eq_of_getLsbD_eq fun j hj => ?_
    rw [BitVec.getLsbD_extractLsb', BitVec.getLsbD_extractLsb']
    show (_ && (BitVec.extractLsb' 0 16 x.op2).getLsbD _) = _
    rw [BitVec.getLsbD_extractLsb']
    have hmod := Nat.mod_lt k (show 0 < 2 by decide)
    grind
  · rw [if_neg h1, if_neg h1, Nat.mod_eq_of_lt hk]

/-- The magnitude recovered from the store data has its bytes. -/
theorem byte_stRaw (r : XwReg) {j : Nat} (hj : j < accessSize r.memWidth) :
    r.stRaw.extractLsb' (8 * j) 8 = r.storeData.extractLsb' (8 * j) 8 := by
  unfold accessSize at hj
  unfold XwReg.stRaw
  by_cases h0 : r.memWidth = 0#2
  · rw [if_pos h0] at hj ⊢
    exact byte_low (n := 8) r.storeData (by omega) (by omega)
  rw [if_neg h0] at hj ⊢
  by_cases h1 : r.memWidth = 1#2
  · rw [if_pos h1] at hj ⊢
    exact byte_low (n := 16) r.storeData (by omega) (by omega)
  · rw [if_neg h1]

/-- The lanes of an access by the formula of the trace. -/
def laneMask (width addrLo : BitVec 2) : BitVec 4 :=
  if width = 0#2 then 0b0001#4 <<< addrLo.toNat
  else if width = 1#2 then (if addrLo.getLsbD 1 then 0b1100#4 else 0b0011#4)
  else 0b1111#4

/-- Within one word it is wrong for a halfword at offset 1. -/
theorem laneMask_iff {r : XwReg} (hwidth : r.memWidth ≠ 3#2)
    (hcross : r.addrLo.toNat + accessSize r.memWidth ≤ 4) :
    laneMask r.memWidth r.addrLo = r.beWin.extractLsb 3 0 ↔
      ¬ (r.memWidth = 1#2 ∧ r.addrLo = 1#2) := by
  have table : ∀ width addrLo : BitVec 2, width ≠ 3#2 →
      addrLo.toNat + accessSize width ≤ 4 →
      (laneMask width addrLo = BitVec.extractLsb 3 0 ((if width = 0#2 then 0x01#8
        else if width = 1#2 then 0x03#8 else 0x0F#8) <<< addrLo.toNat) ↔
        ¬ (width = 1#2 ∧ addrLo = 1#2)) := by decide
  exact table r.memWidth r.addrLo hwidth hcross

/-- Elsewhere the access is aligned to its size. -/
theorem aligned_of_lanes {r : XwReg} (hcross : r.addrLo.toNat + accessSize r.memWidth ≤ 4)
    (hhalf : ¬ (r.memWidth = 1#2 ∧ r.addrLo = 1#2)) :
    r.addrLo.toNat % accessSize r.memWidth = 0 := by
  have table : ∀ width addrLo : BitVec 2, addrLo.toNat + accessSize width ≤ 4 →
      ¬ (width = 1#2 ∧ addrLo = 1#2) → addrLo.toNat % accessSize width = 0 := by decide
  exact table r.memWidth r.addrLo hcross hhalf

/-- On its lanes an aligned access writes the store data. -/
theorem stWin_lane {r : XwReg} {x : XIn} (hw : r.memWidth = x.dec.memWidth)
    (hs : r.storeData = x.xStore) (ha : r.addrLo.toNat % accessSize r.memWidth = 0) {k : Nat}
    (hk : (r.beWin.extractLsb 3 0).getLsbD k = true) :
    r.storeData.extractLsb' (8 * k) 8 = (r.stWin.extractLsb 31 0).extractLsb' (8 * k) 8 := by
  have hk4 : k < 4 := BitVec.lt_of_getLsbD hk
  have hk8 : r.beWin.getLsbD k = true := by
    rw [BitVec.getLsbD_extractLsb, Nat.zero_add, Bool.and_eq_true] at hk
    exact hk.2
  obtain ⟨hlo, hhi⟩ := (beWin_iff r (by omega)).mp hk8
  have hmod : k % accessSize r.memWidth = k - r.addrLo.toNat := by
    obtain ⟨q, hq⟩ := Nat.dvd_of_mod_eq_zero ha
    obtain ⟨d, rfl⟩ := Nat.exists_eq_add_of_le hlo
    rw [hq, Nat.mul_add_mod, Nat.add_sub_cancel_left]
    exact Nat.mod_eq_of_lt (by omega)
  have hd : k - r.addrLo.toNat < accessSize r.memWidth := by omega
  unfold XwReg.stWin XwReg.bitOff
  rw [byte_window _ hlo hk4, byte_stRaw r hd, hs, byte_xStore x hk4, byte_xStore x (by omega),
    ← hw, hmod, Nat.mod_eq_of_lt hd]

/-! ## The fields of a report -/

/-- What the report of the instruction in W cannot describe: the access of an LR, of
an SC that stores and of an AMO, their rs2, and a halfword at offset 1. -/
structure Portable (w : WStage) : Prop where
  amo : w.amoHere = true →
    w.xw.isSc = true ∧ w.scOk = false ∧ w.xw.instr.extractLsb 24 20 = 0#5
  half : (w.xw.memRe || w.xw.memWe) = true → ¬ (w.xw.memWidth = 1#2 ∧ w.xw.addrLo = 1#2)

section Report

variable {s : Core P} {r : Rvfi} {i i' : CoreIn}

/-- What a clock without a first beat hands to W and to the trace. -/
structure Handed (s : Core P) (r : Rvfi) (i : CoreIn) : Prop where
  commit : s.xCommit = true
  xw : (s.step i).w.xw = (s.xIn i).xwNext P
  beat : (s.step i).w.beat2 = false
  captured : r.step s i = { r.capture P (s.xIn i) with
    rvfiOrderR := (r.step s i).rvfiOrderR, rvfiIntrR := (r.step s i).rvfiIntrR }

theorem handed (hb : s.w.memBeatStall = false) (hv : (s.step i).w.xwValid = true) :
    Handed s r i := by
  obtain ⟨hval, hxw, hbeat⟩ := s.w.step_of_not_stall hb i.dmemRdata s.xCommit ((s.xIn i).xwNext P)
  have hc : s.xCommit = true := hval.symm.trans hv
  refine ⟨hc, hxw, hbeat, ?_⟩
  unfold Rvfi.step
  rw [hc, if_pos rfl]

/-- The data port with an atomic in W that takes one beat. -/
theorem port_of_amo {w : WStage} (hv : w.xwValid = true) (hf : w.xw.Formed)
    (hamo : w.xw.isAmo = true) (hbeat : w.beat2 = false) (hb : w.memBeatStall = false) :
    w.dmemRe = w.xw.isLr ∧ w.dmemWe = (w.xw.isSc && w.scOk) ∧ w.dmemBe = 0b1111#4 ∧
      (w.xw.isLr || w.xw.isSc) = true := by
  obtain ⟨hre, hwe, hrmw, -⟩ := hf.amo hamo
  have hhere : w.amoHere = true := by
    unfold WStage.amoHere
    rw [hv, hamo]
    rfl
  have hb1 : w.amoRmwB1 = false := by
    unfold WStage.memBeatStall at hb
    rw [Bool.or_eq_false_iff] at hb
    exact hb.2
  have hone : w.xw.isAmoRmw = false := by
    unfold WStage.amoRmwB1 at hb1
    rw [hhere, hbeat] at hb1
    simpa using hb1
  refine ⟨?_, ?_, ?_, ?_⟩
  · unfold WStage.dmemRe WStage.amoDoLoad
    rw [hre, hb1, hhere]
    simp
  · unfold WStage.dmemWe WStage.amoDoStore WStage.amoRmwB2
    rw [hwe, hbeat, hhere]
    simp
  · unfold WStage.dmemBe
    rw [if_pos hhere]
  · rw [hone] at hrmw
    cases hl : w.xw.isLr with
    | true => rfl
    | false =>
      rw [hl] at hrmw
      simpa using hrmw.symm

/-- With any other instruction in its first beat. -/
theorem port_of_plain {w : WStage} (hv : w.xwValid = true) (hamo : w.xw.isAmo = false)
    (hbeat : w.beat2 = false) :
    w.dmemRe = w.xw.memRe ∧ w.dmemWe = w.xw.memWe ∧ w.dmemAddr = w.xw.wordAddr ∧
      w.dmemBe = w.xw.beWin.extractLsb 3 0 ∧ w.dmemWdata = w.xw.stWin.extractLsb 31 0 := by
  have hhere : w.amoHere = false := by
    unfold WStage.amoHere
    rw [hamo, Bool.and_false]
  refine ⟨?_, ?_, ?_, ?_, ?_⟩
  · unfold WStage.dmemRe WStage.amoDoLoad
    rw [hv, hhere]
    simp
  · unfold WStage.dmemWe WStage.amoDoStore
    rw [hv, hhere]
    simp
  · unfold WStage.dmemAddr
    rw [hhere, hbeat]
    exact BitVec.add_zero _
  · unfold WStage.dmemBe
    rw [hhere, hbeat]
    rfl
  · unfold WStage.dmemWdata WStage.amoRmwB2
    rw [hhere, hbeat]
    rfl

/-- An access of one beat stays within its word. -/
theorem within_word {w : WStage} (hv : w.xwValid = true) (hb : w.memBeatStall = false)
    (hbeat : w.beat2 = false) (hwidth : w.xw.memWidth ≠ 3#2)
    (hmem : (w.xw.memRe || w.xw.memWe) = true) :
    w.xw.addrLo.toNat + accessSize w.xw.memWidth ≤ 4 := by
  have hc : w.xw.crosses = false := by
    unfold WStage.memBeatStall WStage.memMis at hb
    rw [hv, hbeat] at hb
    simp only [Bool.or_eq_false_iff] at hb
    simpa using hb.1
  unfold XwReg.crosses at hc
  rw [hmem, Bool.true_and] at hc
  have table : ∀ width lo : BitVec 2,
      ((width == 2#2 && lo != 0b00#2) || (width == 1#2 && lo == 0b11#2)) = false →
      width ≠ 3#2 → lo.toNat + accessSize width ≤ 4 := by decide
  exact table _ _ hc hwidth

/-- The registers after a clock are those the report says are written. -/
theorem rd_of_running (hm : s.dbg.dbgMode = false) :
    (s.step i).regs = Regfile.write s.regs true (r.out s i).rdAddr (r.out s i).rdWdata := by
  have hgpr := Core.dbgGprWe_of_running (i := i) hm
  show Regfile.write s.regs (s.rfWe i) (s.rfWa i) (s.rfWd i) =
    Regfile.write s.regs true (if s.w.rfWe then s.w.xw.rd else 0#5)
      (if s.w.rfWe then s.w.wWb i.dmemRdata else 0#32)
  unfold Core.rfWe Core.rfWa Core.rfWd
  rw [hgpr, Bool.false_or, if_neg Bool.false_ne_true, if_neg Bool.false_ne_true]
  cases s.w.rfWe with
  | true => rfl
  | false => rw [Regfile.write_false, if_neg Bool.false_ne_true, Regfile.write_zero]

/-- The source registers. -/
theorem sources_of_handed (hm : s.dbg.dbgMode = false) (hb : s.w.memBeatStall = false)
    (h : Handed s r i) :
    ((r.step s i).xwRs1 = (s.step i).w.xw.instr.extractLsb 19 15 ∧
      (r.step s i).xwRs1v = Regfile.get (s.step i).regs (r.step s i).xwRs1) ∧
    (r.step s i).xwRs2v = Regfile.get (s.step i).regs (r.step s i).xwRs2 := by
  rw [h.captured, h.xw]
  refine ⟨⟨rfl, op1_eq hm fun hb' => absurd (hb.symm.trans hb') (by simp)⟩, ?_⟩
  show (if (s.xIn i).dec.usesRs2 then s.op2 i else 0#32) = Regfile.get _
    (if (s.xIn i).dec.usesRs2 then (s.xIn i).rs2 else 0#5)
  cases (s.xIn i).dec.usesRs2 with
  | true => exact op2_eq hm fun hb' => absurd (hb.symm.trans hb') (by simp)
  | false => rfl

/-- The rs2 field is left out for an atomic. -/
theorem rs2Addr_iff (h : Handed s r i) :
    (r.step s i).xwRs2 = (if readsRs2 (s.step i).w.xw then
      (s.step i).w.xw.instr.extractLsb 24 20 else 0#5) ↔
    ((s.step i).w.xw.isAmo = true → (s.step i).w.xw.instr.extractLsb 24 20 = 0#5) := by
  rw [h.captured, h.xw]
  generalize s.xIn i = x
  show (if x.dec.usesRs2 then x.rs2 else 0#5) = (if x.dec.usesRs2 || (x.xwNext P).isAmo then x.rs2
    else 0#5) ↔ ((x.xwNext P).isAmo = true → x.rs2 = 0#5)
  cases hamo : (x.xwNext P).isAmo with
  | false => simp
  | true =>
    have hdec : x.dec.usesRs2 = false := by
      have ha : x.amoValid = true := (Bool.and_eq_true .. ▸ hamo : _ ∧ _).1
      rw [XIn.dec_of_isAmo (XIn.isAmo_of_amoValid ha)]
      rfl
    rw [hdec]
    exact ⟨fun h _ => h.symm, fun h => (h rfl).symm⟩

/-- What X computes of a load or store, as W and the trace see it. -/
theorem access_of_handed (h : Handed s r i)
    (hmem : ((s.step i).w.xw.memRe || (s.step i).w.xw.memWe) = true) :
    (r.step s i).xwMemaddr = (s.step i).w.xw.result ∧
    (s.step i).w.xw.memWidth ≠ 3#2 ∧
    (r.step s i).rmask (s.step i).w.xw.addrLo =
      laneMask (s.step i).w.xw.memWidth (s.step i).w.xw.addrLo ∧
    ((s.step i).w.xw.memWe = true →
      (s.step i).w.xw.be = laneMask (s.step i).w.xw.memWidth (s.step i).w.xw.addrLo) := by
  rw [h.captured]
  rw [h.xw] at hmem ⊢
  generalize s.xIn i = x at hmem ⊢
  have hdec : x.dec.memRe = true ∨ x.dec.memWe = true := by
    rcases (by simpa using hmem : (x.xwNext P).memRe = true ∨ (x.xwNext P).memWe = true) with h | h
    · exact .inl (Bool.and_eq_true .. ▸ h : _ ∧ _).1
    · exact .inr (Bool.and_eq_true .. ▸ h : _ ∧ _).1
  refine ⟨(XIn.xResult_of_mem hdec).symm, decode_memWidth x.fxInstr, rfl, fun hwe => ?_⟩
  have hwe' : x.dec.memWe = true := (Bool.and_eq_true .. ▸ hwe : _ ∧ _).1
  have hbit : (x.aluY.extractLsb 1 0).getLsbD 1 = x.aluY.getLsbD 1 := by
    rw [BitVec.getLsbD_extractLsb]
    rfl
  show x.xBe = laneMask x.dec.memWidth (x.aluY.extractLsb 1 0)
  unfold XIn.xBe laneMask
  rw [hwe', hbit]
  rfl

/-- Of the atomics only an SC that fails is described. -/
theorem access_iff_of_amo (hv : s.w.xwValid = true) (hf : s.w.xw.Formed)
    (hamo : s.w.xw.isAmo = true) (hbeat : s.w.beat2 = false) (hb : s.w.memBeatStall = false) :
    DescribesAccess (r.out s i) s.w i.dmemRdata ↔ s.w.xw.isSc = true ∧ s.w.scOk = false := by
  obtain ⟨hre, hwe, hbe, hone⟩ := port_of_amo hv hf hamo hbeat hb
  obtain ⟨hre', hwe', -, hexcl⟩ := hf.amo hamo
  have hrmask : (r.out s i).memRmask = 0#4 := by
    show (if s.w.xw.memRe then _ else 0#4) = 0#4
    rw [hre', if_neg Bool.false_ne_true]
  have hwmask : (r.out s i).memWmask = 0#4 := by
    show (if s.w.xw.memWe then _ else 0#4) = 0#4
    rw [hwe', if_neg Bool.false_ne_true]
  constructor
  · intro h
    have hlr : s.w.xw.isLr = false := by
      by_contra hlr
      rw [Bool.not_eq_false] at hlr
      have hr := h.rmask
      rw [hrmask, hre, hlr, if_pos rfl, hbe] at hr
      exact absurd hr (by decide)
    have hsc : s.w.xw.isSc = true := by
      rw [hlr, Bool.false_or] at hone
      exact hone
    refine ⟨hsc, ?_⟩
    by_contra hok
    rw [Bool.not_eq_false] at hok
    have hw := h.wmask
    rw [hwmask, hwe, hsc, hok, Bool.and_self, if_pos rfl, hbe] at hw
    exact absurd hw (by decide)
  · rintro ⟨hsc, hok⟩
    have hlr : s.w.xw.isLr = false := by
      by_contra hlr
      rw [Bool.not_eq_false] at hlr
      exact absurd (hsc.symm.trans (hexcl hlr)) (by simp)
    rw [hlr] at hre
    rw [hok, Bool.and_false] at hwe
    refine ⟨?_, ?_, ?_, ?_, ?_⟩
    · rw [hre, hwe]
      exact fun h => absurd h Bool.false_ne_true
    · rw [hrmask, hre, if_neg Bool.false_ne_true]
    · rw [hwmask, hwe, if_neg Bool.false_ne_true]
    · rw [hre]
      exact fun h => absurd h Bool.false_ne_true
    · rw [hwe]
      exact fun h => absurd h Bool.false_ne_true

/-- Of the other instructions all but a halfword access at offset 1. -/
theorem access_iff_of_plain (i' : CoreIn) (h : Handed s r i) (hv : (s.step i).w.xwValid = true)
    (hamo : (s.step i).w.xw.isAmo = false) (hb : (s.step i).w.memBeatStall = false) :
    DescribesAccess ((r.step s i).out (s.step i) i') (s.step i).w i'.dmemRdata ↔
      (((s.step i).w.xw.memRe || (s.step i).w.xw.memWe) = true →
        ¬ ((s.step i).w.xw.memWidth = 1#2 ∧ (s.step i).w.xw.addrLo = 1#2)) := by
  obtain ⟨hre, hwe, haddr, hbe, hwd⟩ := port_of_plain hv hamo h.beat
  have hacc := access_of_handed h
  have hdata : (s.step i).w.xw.memWidth = (s.xIn i).dec.memWidth ∧
      (s.step i).w.xw.storeData = (s.xIn i).xStore := by
    rw [h.xw]
    exact ⟨rfl, rfl⟩
  have hwithin := within_word hv hb h.beat
  have hrmask : ((r.step s i).out (s.step i) i').memRmask =
      if (s.step i).w.xw.memRe then (r.step s i).rmask (s.step i).w.xw.addrLo else 0#4 := rfl
  have hwmask : ((r.step s i).out (s.step i) i').memWmask =
      if (s.step i).w.xw.memWe then (s.step i).w.xw.be else 0#4 := rfl
  have hmaddr : ((r.step s i).out (s.step i) i').memAddr =
      (r.step s i).xwMemaddr.extractLsb 31 2 ++ 0b00#2 := rfl
  have hmdata : ((r.step s i).out (s.step i) i').memWdata = (s.step i).w.xw.storeData := rfl
  constructor
  · intro hd hmem
    obtain ⟨-, hwidth, hread, hwrite⟩ := hacc hmem
    refine (laneMask_iff hwidth (hwithin hwidth hmem)).mp ?_
    rw [Bool.or_eq_true] at hmem
    rcases hmem with hmem | hmem
    · have hr := hd.rmask
      rw [hrmask, hre, hmem, if_pos rfl, if_pos rfl, hbe] at hr
      exact hread.symm.trans hr
    · have hw := hd.wmask
      rw [hwmask, hwe, hmem, if_pos rfl, if_pos rfl, hbe] at hw
      exact (hwrite hmem).symm.trans hw
  · intro hhalf
    refine ⟨?_, ?_, ?_, fun _ => rfl, ?_⟩
    · rw [hre, hwe]
      intro hmem
      rw [hmaddr, (hacc hmem).1, haddr]
      rfl
    · rw [hrmask, hre, hbe]
      cases hmem : (s.step i).w.xw.memRe with
      | false => rfl
      | true =>
        have hor : ((s.step i).w.xw.memRe || (s.step i).w.xw.memWe) = true := by
          rw [hmem, Bool.true_or]
        obtain ⟨-, hwidth, hread, -⟩ := hacc hor
        rw [if_pos rfl, if_pos rfl, hread]
        exact (laneMask_iff hwidth (hwithin hwidth hor)).mpr (hhalf hor)
    · rw [hwmask, hwe, hbe]
      cases hmem : (s.step i).w.xw.memWe with
      | false => rfl
      | true =>
        have hor : ((s.step i).w.xw.memRe || (s.step i).w.xw.memWe) = true := by
          rw [hmem, Bool.or_true]
        obtain ⟨-, hwidth, -, hwrite⟩ := hacc hor
        rw [if_pos rfl, if_pos rfl, hwrite hmem]
        exact (laneMask_iff hwidth (hwithin hwidth hor)).mpr (hhalf hor)
    · rw [hwe, hbe, hwd, hmdata]
      intro hmem k hk
      have hor : ((s.step i).w.xw.memRe || (s.step i).w.xw.memWe) = true := by
        rw [hmem, Bool.or_true]
      have hwidth := (hacc hor).2.1
      exact stWin_lane hdata.1 hdata.2 (aligned_of_lanes (hwithin hwidth hor) (hhalf hor)) hk

/-- **The fields of a report**: they are those of the instruction exactly when its
access can be described. -/
theorem Describes.iff_portable (hm : s.dbg.dbgMode = false) (hm' : (s.step i).dbg.dbgMode = false)
    (hb : s.w.memBeatStall = false) (hb' : (s.step i).w.memBeatStall = false)
    (hv : (s.step i).w.xwValid = true) :
    Describes ((r.step s i).out (s.step i) i') (s.step i) i' ↔ Portable (s.step i).w := by
  have h := handed (r := r) hb hv
  have hf : (s.step i).w.xw.Formed := h.xw ▸ (s.xIn i).xwNext_formed P
  obtain ⟨⟨hrs1, hrs1v⟩, hrs2v⟩ := sources_of_handed hm hb h
  have hrs2 := rs2Addr_iff h
  have hhere : (s.step i).w.amoHere = (s.step i).w.xw.isAmo := by
    unfold WStage.amoHere
    rw [hv, Bool.true_and]
  cases hamo : (s.step i).w.xw.isAmo with
  | true =>
    have hacc := access_iff_of_amo (r := r.step s i) (i := i') hv hf hamo h.beat hb'
    obtain ⟨hre, hwe, -⟩ := hf.amo hamo
    constructor
    · intro hd
      refine ⟨fun _ => ?_, ?_⟩
      · obtain ⟨hsc, hok⟩ := hacc.mp hd.access
        exact ⟨hsc, hok, hrs2.mp hd.rs2Addr hamo⟩
      · rw [hre, hwe]
        exact fun h => absurd h Bool.false_ne_true
    · intro hp
      obtain ⟨hsc, hok, hzero⟩ := hp.amo (hhere.trans hamo)
      exact ⟨rfl, hrs1, hrs1v, hrs2.mpr fun _ => hzero, hrs2v, rd_of_running hm',
        hacc.mpr ⟨hsc, hok⟩⟩
  | false =>
    have hacc := access_iff_of_plain i' h hv hamo hb'
    constructor
    · intro hd
      exact ⟨fun h => absurd ((hhere.trans hamo).symm.trans h) (by simp), hacc.mp hd.access⟩
    · intro hp
      exact ⟨rfl, hrs1, hrs1v, hrs2.mpr fun h => absurd (hamo.symm.trans h) (by simp), hrs2v,
        rd_of_running hm', hacc.mpr hp.half⟩

end Report

/-! ## Where the next instruction is fetched -/

/-- Where F goes behind the instruction in X before X has checked it. -/
def nextFetch (f : FStage P) : Word :=
  if f.fxPredTaken then f.fxPredTarget else f.fxPc + f.fxLen.setWidth 32

/-- The address of the next instruction to leave X. -/
def heading (f : FStage P) : Word := if f.fxValid then f.fxPc else f.pc

/-- A quiet core whose F is ahead of X by one instruction. -/
structure Fetching (s : Core P) : Prop extends Quiet s where
  predicted : s.f.fxValid = true → s.f.pc = nextFetch s.f
  unpredicted : P.bpred = false → s.f.fxPredTaken = false

section Front

variable {s : Core P} {i : CoreIn}

theorem Fetching.step (h : Fetching s) (hi : i.dbgHaltreq = false) : Fetching (s.step i) := by
  refine ⟨h.toQuiet.step hi, ?_, fun hb =>
    FStage.unpredicted_step (h.unpredicted hb) _ (Core.predictTakenF_eq_false hb s i)⟩
  have hc := s.f.step_clock s.bp.ghist (s.fetchIn i)
  show (s.f.step s.bp.ghist (s.fetchIn i)).fxValid = true →
    (s.f.step s.bp.ghist (s.fetchIn i)).pc = nextFetch (s.f.step s.bp.ghist (s.fetchIn i))
  generalize s.f.step s.bp.ghist (s.fetchIn i) = f' at hc
  cases hc with
  | redirected | resumed | frozen | straddled => exact fun hv => absurd hv Bool.false_ne_true
  | stalled => exact h.predicted
  | accepted => exact fun _ => rfl

/-- Behind an instruction that leaves X, F goes where the redirect or else the
prediction says. -/
theorem heading_of_leaves (h : Fetching s) (hi : i.dbgHaltreq = false)
    (hl : (s.xIn i).leaves = true) : heading (s.step i).f = (s.xIn i).frontPc P := by
  obtain ⟨hv, hfz⟩ := XIn.leaves_iff.mp hl
  have hpc : s.f.pc = (s.xIn i).predNext := h.predicted hv
  have hc := s.f.step_clock s.bp.ghist (s.fetchIn i)
  show heading (s.f.step s.bp.ghist (s.fetchIn i)) = ((s.xIn i).redirect P).getD (s.xIn i).predNext
  generalize s.f.step s.bp.ghist (s.fetchIn i) = f' at hc
  cases hc with
  | redirected target hr =>
    have hr' : (s.xIn i).redirect P = some target := hr
    rw [hr']
    rfl
  | resumed _ hres => exact absurd (h.dbgResumeNow.symm.trans hres) (by simp)
  | frozen _ _ hdbg => exact absurd ((h.dbgFreeze hi).symm.trans hdbg) (by simp)
  | stalled _ _ _ hst => exact absurd (hfz.symm.trans hst) (by simp)
  | straddled hr | accepted hr =>
    have hr' : (s.xIn i).redirect P = none := hr
    rw [hr', Option.getD_none]
    exact hpc

/-- Until the next one does, it stays headed there. -/
theorem heading_of_waits (h : Quiet s) (hi : i.dbgHaltreq = false)
    (hl : (s.xIn i).leaves = false) : heading (s.step i).f = heading s.f := by
  have hempty : s.exFreeze = false → s.f.fxValid = false := by
    intro hfz
    by_contra hv
    rw [Bool.not_eq_false] at hv
    exact absurd (hl.symm.trans (XIn.leaves_iff.mpr ⟨hv, hfz⟩)) (by simp)
  have hc := s.f.step_clock s.bp.ghist (s.fetchIn i)
  show heading (s.f.step s.bp.ghist (s.fetchIn i)) = heading s.f
  generalize s.f.step s.bp.ghist (s.fetchIn i) = f' at hc
  cases hc with
  | redirected target hr =>
    have hleaves := XIn.leaves_iff.mpr (XIn.redirect_valid (x := s.xIn i) hr)
    exact absurd (hl.symm.trans hleaves) (by simp)
  | resumed _ hres => exact absurd (h.dbgResumeNow.symm.trans hres) (by simp)
  | frozen _ _ hdbg => exact absurd ((h.dbgFreeze hi).symm.trans hdbg) (by simp)
  | stalled => rfl
  | straddled _ _ _ hst | accepted _ _ _ hst =>
    have hpc : heading s.f = s.f.pc := if_neg (by rw [hempty hst]; exact Bool.false_ne_true)
    rw [hpc]
    rfl

end Front

/-! ## Whole runs -/

/-- What a clock must not do for the trace to be right: hold an access of two beats,
hold one that the report cannot describe, or let an instruction leave X with a next
PC that F does not go to. -/
structure Traceable (s : Core P) (i : CoreIn) : Prop where
  beat : s.w.memBeatStall = false
  port : s.w.xwValid = true → Portable s.w
  next : (s.xIn i).leaves = true → (s.xIn i).Followed P

section Run

variable {s₀ : Core P} {r₀ : Rvfi} {i₀ : CoreIn} {ins : Nat → CoreIn}

theorem fetching_run (hdbg : ∀ n, (ins n).dbgHaltreq = false) (n : Nat) :
    Fetching (Core.runFrom s₀ i₀ ins n) := by
  refine @run_invariant _ _ Core.step _ _ Fetching (fun _ i => i.dbgHaltreq = false) ?_
    (fun _ _ h hi => h.step hi) n fun k _ => hdbg k
  exact ⟨⟨(Hazard.reset s₀ i₀).toHandshake, rfl, rfl, rfl, rfl, rfl, nofun⟩, nofun, fun _ => rfl⟩

/-- The reports are numbered. -/
theorem order_run {n m : Nat} (h : Consecutive (fun k => (port s₀ r₀ i₀ ins k).valid) n m) :
    (port s₀ r₀ i₀ ins m).order = (port s₀ r₀ i₀ ins n).order + 1#64 := by
  have hstep : ∀ k, (Rvfi.runFrom s₀ r₀ i₀ ins (k + 1)).rvfiOrderR =
      if (port s₀ r₀ i₀ ins k).valid then (Rvfi.runFrom s₀ r₀ i₀ ins k).rvfiOrderR + 1#64
      else (Rvfi.runFrom s₀ r₀ i₀ ins k).rvfiOrderR := fun _ => rfl
  have hsame : (Rvfi.runFrom s₀ r₀ i₀ ins m).rvfiOrderR =
      (Rvfi.runFrom s₀ r₀ i₀ ins (n + 1)).rvfiOrderR := by
    refine unchanged (c := fun k => (port s₀ r₀ i₀ ins k).valid)
      (f := fun k => (Rvfi.runFrom s₀ r₀ i₀ ins k).rvfiOrderR) (fun k hk => ?_) h.lt
      fun k hnk hkm => h.between k hnk hkm
    show (Rvfi.runFrom s₀ r₀ i₀ ins (k + 1)).rvfiOrderR = _
    rw [hstep, hk, if_neg Bool.false_ne_true]
  show (Rvfi.runFrom s₀ r₀ i₀ ins m).rvfiOrderR = (Rvfi.runFrom s₀ r₀ i₀ ins n).rvfiOrderR + 1#64
  rw [hsame, hstep, if_pos h.first]

/-- A report follows an instruction that leaves X. -/
theorem valid_succ (hdbg : ∀ n, (ins n).dbgHaltreq = false) {n : Nat}
    (hb : (Core.runFrom s₀ i₀ ins n).w.memBeatStall = false) :
    (port s₀ r₀ i₀ ins (n + 1)).valid = ((Core.runFrom s₀ i₀ ins n).xIn (ins n)).leaves := by
  have hq : Fetching (Core.runFrom s₀ i₀ ins n) := fetching_run hdbg n
  have hval := (WStage.step_of_not_stall _ hb (ins n).dmemRdata (Core.runFrom s₀ i₀ ins n).xCommit
    (((Core.runFrom s₀ i₀ ins n).xIn (ins n)).xwNext P)).1
  refine Eq.trans hval ?_
  show _ = ((Core.runFrom s₀ i₀ ins n).f.fxValid && !(Core.runFrom s₀ i₀ ins n).exFreeze)
  unfold Core.xCommit Core.exFreeze
  rw [Core.ebreakToDebug_of_not_ebreakm hq.ebreakm, hb]
  simp

/-- A report is not made in the clock of the reset. -/
theorem pos_of_valid {n : Nat} (hv : (Core.runFrom s₀ i₀ ins n).w.xwValid = true) :
    ∃ p, n = p + 1 := by
  cases n with
  | zero => exact absurd hv Bool.false_ne_true
  | succ p => exact ⟨p, rfl⟩

/-- **Consecutive reports**: the first has the next PC computed in X, the second the
PC that F went to. -/
theorem pc_of_consecutive (hdbg : ∀ n, (ins n).dbgHaltreq = false)
    (hb : ∀ n, (Core.runFrom s₀ i₀ ins n).w.memBeatStall = false) {p m : Nat}
    (h : Consecutive (fun k => (port s₀ r₀ i₀ ins k).valid) (p + 1) m) :
    (port s₀ r₀ i₀ ins (p + 1)).pcWdata =
      ((Core.runFrom s₀ i₀ ins p).xIn (ins p)).pcWdata P ∧
    (port s₀ r₀ i₀ ins m).pcRdata = ((Core.runFrom s₀ i₀ ins p).xIn (ins p)).frontPc P := by
  obtain ⟨q, rfl⟩ := pos_of_valid h.second
  have hvalid : ∀ k, (port s₀ r₀ i₀ ins (k + 1)).valid =
      ((Core.runFrom s₀ i₀ ins k).xIn (ins k)).leaves := fun k => valid_succ hdbg (hb k)
  have hfirst : Handed (Core.runFrom s₀ i₀ ins p) (Rvfi.runFrom s₀ r₀ i₀ ins p) (ins p) :=
    handed (hb p) h.first
  have hsecond : Handed (Core.runFrom s₀ i₀ ins q) (Rvfi.runFrom s₀ r₀ i₀ ins q) (ins q) :=
    handed (hb q) h.second
  have hpcw : (Rvfi.runFrom s₀ r₀ i₀ ins (p + 1)).xwPcw =
      ((Core.runFrom s₀ i₀ ins p).xIn (ins p)).pcWdata P := by
    show ((Rvfi.runFrom s₀ r₀ i₀ ins p).step _ _).xwPcw = _
    rw [hfirst.captured]
    rfl
  have hpcr : (Core.runFrom s₀ i₀ ins (q + 1)).w.xw.pc = (Core.runFrom s₀ i₀ ins q).f.fxPc := by
    show ((Core.runFrom s₀ i₀ ins q).step (ins q)).w.xw.pc = _
    rw [hsecond.xw]
    rfl
  refine ⟨hpcw, hpcr.trans ?_⟩
  -- from the one leaving X to the other F stays headed for the same address
  have hleft : ((Core.runFrom s₀ i₀ ins p).xIn (ins p)).leaves = true :=
    (hvalid p).symm.trans h.first
  have hgoes := heading_of_leaves (fetching_run hdbg p) (hdbg p) hleft
  have hstays := unchanged (c := fun k => ((Core.runFrom s₀ i₀ ins k).xIn (ins k)).leaves)
    (f := fun k => heading (Core.runFrom s₀ i₀ ins k).f)
    (fun k hk => heading_of_waits (fetching_run hdbg k).toQuiet (hdbg k) hk)
    (Nat.le_of_lt_succ h.lt)
    (fun k hpk hkq => (hvalid k).symm.trans (h.between (k + 1) (by omega) (by omega)))
  have hq := XIn.leaves_iff.mp ((hvalid q).symm.trans h.second)
  have hhead : heading (Core.runFrom s₀ i₀ ins q).f = (Core.runFrom s₀ i₀ ins q).f.fxPc :=
    if_pos hq.1
  exact hhead.symm.trans (hstays.trans hgoes)

/-- After every report there is another. -/
theorem exists_next (r₀ : Rvfi) (hdbg : ∀ n, (ins n).dbgHaltreq = false)
    (hb : ∀ n, (Core.runFrom s₀ i₀ ins n).w.memBeatStall = false) {p : Nat}
    (hl : ((Core.runFrom s₀ i₀ ins p).xIn (ins p)).leaves = true) :
    ∃ m, Consecutive (fun k => (port s₀ r₀ i₀ ins k).valid) (p + 1) m := by
  have hvalid : ∀ k, (port s₀ r₀ i₀ ins (k + 1)).valid =
      ((Core.runFrom s₀ i₀ ins k).xIn (ins k)).leaves := fun k => valid_succ hdbg (hb k)
  obtain ⟨q, hpq, hq, hno⟩ := @first_event
    (fun k => ((Core.runFrom s₀ i₀ ins k).xIn (ins k)).leaves)
    (fun k => (Core.runFrom s₀ i₀ ins k).rank)
    (fun k hk => (fetching_run hdbg k).toQuiet.rank_step (hdbg k) hk) (p + 1)
  refine ⟨q + 1, ⟨by omega, (hvalid p).trans hl, (hvalid q).trans hq, fun k hpk hkq => ?_⟩⟩
  obtain ⟨j, rfl⟩ : ∃ j, k = j + 1 := ⟨k - 1, by omega⟩
  exact (hvalid j).trans (hno j (by omega) (by omega))

/-- **When the trace is right.** In a run without the debugger, the trace is
consistent exactly when no clock holds an access of two beats or one that its report
cannot describe, and every instruction goes where its report says. -/
theorem rvfi_trace_iff (s₀ : Core P) (r₀ : Rvfi) (i₀ : CoreIn) (ins : Nat → CoreIn)
    (hdbg : ∀ n, (ins n).dbgHaltreq = false) :
    Consistent s₀ r₀ i₀ ins ↔ ∀ n, Traceable (Core.runFrom s₀ i₀ ins n) (ins n) := by
  have hrun : ∀ n, (Core.runFrom s₀ i₀ ins n).dbg.dbgMode = false :=
    fun n => (fetching_run hdbg n).mode
  have hoff : ∀ n, P.bpred = false →
      ((Core.runFrom s₀ i₀ ins n).xIn (ins n)).fxPredTaken = false :=
    fun n => (fetching_run hdbg n).unpredicted
  constructor
  · intro h
    have hb : ∀ n, (Core.runFrom s₀ i₀ ins n).w.memBeatStall = false := by
      intro n
      by_contra hb
      rw [Bool.not_eq_false] at hb
      have honce := h.once n
      have hv : (port s₀ r₀ i₀ ins n).valid = true := WStage.xwValid_of_memBeatStall _ hb
      have hret := ((WStage.retireValid_iff _).mp (honce.symm.trans hv)).2
      exact absurd (hret.symm.trans hb) Bool.false_ne_true
    refine fun n => ⟨hb n, fun hv => ?_, fun hl => ?_⟩
    · obtain ⟨p, rfl⟩ := pos_of_valid hv
      exact (Describes.iff_portable (hrun p) (hrun (p + 1)) (hb p) (hb (p + 1)) hv).mp
        (h.fields (p + 1) hv)
    · obtain ⟨m, hm⟩ := exists_next r₀ hdbg hb hl
      obtain ⟨hpcw, hpcr⟩ := pc_of_consecutive hdbg hb hm
      refine (XIn.pcWdata_iff hl (hoff n)).mp ?_
      rw [← hpcw, ← hpcr]
      exact (h.pc _ _ hm).symm
  · intro h
    have hb : ∀ n, (Core.runFrom s₀ i₀ ins n).w.memBeatStall = false := fun n => (h n).beat
    refine ⟨fun n => ?_, fun _ _ => order_run, fun n m hm => ?_, fun n hv => ?_⟩
    · unfold WStage.retireValid
      rw [hb n, Bool.not_false, Bool.and_true]
      rfl
    · obtain ⟨p, rfl⟩ := pos_of_valid hm.first
      obtain ⟨hpcw, hpcr⟩ := pc_of_consecutive hdbg hb hm
      have hl : ((Core.runFrom s₀ i₀ ins p).xIn (ins p)).leaves = true :=
        (valid_succ hdbg (hb p)).symm.trans hm.first
      rw [hpcw, hpcr]
      exact ((XIn.pcWdata_iff hl (hoff p)).mpr ((h p).next hl)).symm
    · obtain ⟨p, rfl⟩ := pos_of_valid hv
      exact (Describes.iff_portable (hrun p) (hrun (p + 1)) (hb p) (hb (p + 1)) hv).mpr
        ((h (p + 1)).port hv)

end Run

/-- `jalr x0, 8(x0)` with a reserved `funct3` -/
def reservedJump : Memory := { imem := .ofWords [0x00801067#32], dmem := fun _ => 0#8 }

/-- It traps, and its report says that it jumps. -/
theorem rvfi_trace_iff_reservedJump :
    ¬ Consistent (Core.powerUp {}) {} (reservedJump.resetIn {} {}) (reservedJump.inputs {} {}) := by
  intro h
  have hnext := ((rvfi_trace_iff _ _ _ _ fun _ => rfl).mp h 1).next
  rw [Memory.runFrom_inputs] at hnext
  exact absurd ((hnext (by decide +kernel)).trap (by decide +kernel) (by decide +kernel))
    (by decide +kernel)

/-- `lw x2, 1(x0)` -/
def misalignedLoad : Memory := { imem := .ofWords [0x00102103#32], dmem := fun _ => 0#8 }

/-- A misaligned load is reported twice, the first time before it retires. -/
theorem misaligned_reported_twice :
    (∀ n, (misalignedLoad.inputs {} {} n).dbgHaltreq = false) ∧
    ¬ Consistent (Core.powerUp {}) {} (misalignedLoad.resetIn {} {})
      (misalignedLoad.inputs {} {}) := by
  refine ⟨fun _ => rfl, fun h => ?_⟩
  have hvalid : (misalignedLoad.bench {} {} 2).w.xwValid =
      (misalignedLoad.bench {} {} 2).w.retireValid := by
    have honce := h.once 2
    rw [Memory.runFrom_inputs] at honce
    exact honce
  exact absurd hvalid (by decide +kernel)

end RvfiTrace

end ThreeSippEs
