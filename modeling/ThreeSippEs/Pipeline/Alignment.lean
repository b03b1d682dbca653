import ThreeSippEs.Traps.Delivery

/-!
# Halfword alignment of the program counter

Every producer of a PC masks bit 0 by itself or not at all: JALR and `mtvec` do,
branch offsets and instruction lengths have none, and `mepc`, `uepc` and `utvec`
hold what software writes.

- `XIn.Redirected`: the targets of a redirect, by the branch taken;
- `Vectored`: no odd value of the three registers is used;
- `Inv`: what keeps the PC aligned in between, predictor tables included;
- `aligned_iff`: the PC stays aligned exactly in the runs that keep to `Vectored`.
-/

namespace ThreeSippEs

open Clocked

variable {P : Params}

/-- Bit 0 is clear. -/
def HalfAligned (a : Word) : Prop := a.getLsbD 0 = false

instance (a : Word) : Decidable (HalfAligned a) := by
  unfold HalfAligned
  infer_instance

namespace HalfAligned

theorem zero : HalfAligned 0#32 := by decide

theorem add {a b : Word} (ha : HalfAligned a) (hb : HalfAligned b) : HalfAligned (a + b) := by
  unfold HalfAligned at *
  rw [BitVec.getLsbD_add (by decide), ha, hb, BitVec.carry_zero]
  rfl

theorem append {n : Nat} (hi : BitVec n) :
    HalfAligned ((hi ++ 0#1 : BitVec (n + 1)).signExtend 32) := by
  unfold HalfAligned
  rw [BitVec.getLsbD_signExtend, if_pos (by omega), BitVec.getLsbD_append, if_pos (by omega)]
  rfl

theorem len {l : BitVec 3} (h : l.getLsbD 0 = false) : HalfAligned (l.setWidth 32) := by
  unfold HalfAligned
  rw [BitVec.getLsbD_setWidth, h]
  rfl

end HalfAligned

/-- Branch and jump offsets are even. -/
theorem decode_offset (instr : Word) :
    ((decode instr).isJal || (decode instr).isBranch) = true →
      HalfAligned (decode instr).idImm := by
  refine Decode.arms (p := fun d => (d.isJal || d.isBranch) = true → HalfAligned d.idImm) instr
    nofun nofun (fun _ => HalfAligned.append _) nofun (fun _ => HalfAligned.append _) nofun nofun
    nofun ?_ ?_ nofun nofun
  · unfold Decode.op
    split <;> exact nofun
  · unfold Decode.system
    split <;> exact nofun

/-! ## Where a redirect goes -/

/-- The target of a redirect, by the branch that gives it. -/
inductive XIn.Redirected (P : Params) (x : XIn) : Word → Prop
  | delegated (h : x.delegTrap P = true) : Redirected P x x.ucsr.utvec
  | trapped : Redirected P x x.csr.mtvec
  | uret (ht : x.exTrap P = false) (h : x.isUret P = true) : Redirected P x x.ucsr.uepc
  | mret (ht : x.exTrap P = false) (h : x.dec.isMret = true) : Redirected P x x.csr.mepc
  | jalr : Redirected P x x.jalrT
  | branch (h : (x.dec.isJal || x.dec.isBranch) = true) : Redirected P x x.brActualNext
  | sequential : Redirected P x x.seqNx

theorem XIn.redirect_cases {x : XIn} {target : Word} (h : x.redirect P = some target) :
    x.Redirected P target := by
  obtain ⟨hv, hfz⟩ := redirect_valid h
  unfold redirect at h
  rw [hv, hfz, Bool.not_false, Bool.and_true, if_pos rfl] at h
  split at h
  · split at h
    case isTrue hd =>
      cases h
      exact .delegated hd
    case isFalse =>
      cases h
      exact .trapped
  case isFalse ht =>
    rw [Bool.not_eq_true] at ht
    split at h
    case isTrue huret =>
      cases h
      exact .uret ht huret
    case isFalse =>
      split at h
      case isTrue hmret =>
        cases h
        exact .mret ht hmret
      case isFalse =>
        split at h
        · obtain ⟨-, h⟩ := Option.ite_none_right_eq_some.mp h
          cases h
          exact .jalr
        · split at h
          case isTrue hbr =>
            obtain ⟨-, h⟩ := Option.ite_none_right_eq_some.mp h
            cases h
            exact .branch hbr
          case isFalse =>
            split at h
            · cases h
              exact .sequential
            · split at h
              · cases h
                exact .trapped
              · exact absurd h (by simp)

namespace Alignment

/-! ## The registers that software writes -/

/-- No delegated trap, URET or MRET goes to an odd address. -/
structure Vectored (P : Params) (x : XIn) : Prop where
  utvec : x.delegTrap P = true → HalfAligned x.ucsr.utvec
  uepc : x.leaves = true → x.exTrap P = false → x.isUret P = true → HalfAligned x.ucsr.uepc
  mepc : x.leaves = true → x.exTrap P = false → x.dec.isMret = true → HalfAligned x.csr.mepc

instance (x : XIn) : Decidable (Vectored P x) :=
  decidable_of_iff
    ((x.delegTrap P = true → HalfAligned x.ucsr.utvec) ∧
      (x.leaves = true → x.exTrap P = false → x.isUret P = true → HalfAligned x.ucsr.uepc) ∧
      (x.leaves = true → x.exTrap P = false → x.dec.isMret = true → HalfAligned x.csr.mepc))
    ⟨fun ⟨h1, h2, h3⟩ => ⟨h1, h2, h3⟩, fun ⟨h1, h2, h3⟩ => ⟨h1, h2, h3⟩⟩

/-- A debugger write to `dpc`. -/
def writesDpc (s : Core P) (i : CoreIn) : Bool :=
  s.dbgDo i && i.dbgArWrite && i.dbgArCsr && i.dbgArRegno == 0x7B1#12

/-- The program counters of this clock, the target of its redirect and the values
that its traps record. -/
structure Aligned (s : Core P) (i : CoreIn) : Prop where
  pc : HalfAligned s.f.pc
  fx : s.f.fxValid = true → HalfAligned s.f.fxPc
  target : ∀ t, s.redirect i = some t → HalfAligned t
  mepc : (s.xIn i).mTrapSet P = true → HalfAligned (s.step i).csr.mepc
  uepc : (s.xIn i).delegTrap P = true → HalfAligned (s.step i).ucsr.uepc

/-! ## What holds in between -/

/-- The links on the return address stack. -/
def Linked (r : Ras) : Prop :=
  ∀ k : BitVec 3, k.toNat < r.rasCnt.toNat → HalfAligned (r.ras (r.rasPtr - 1#3 - k))

/-- Everything a PC can come from, the three registers of software apart. -/
structure Inv (s : Core P) : Prop where
  pc : HalfAligned s.f.pc
  fx : s.f.fxValid = true → HalfAligned s.f.fxPc
  len : s.f.fxLen.getLsbD 0 = false
  mtvec : HalfAligned s.csr.mtvec
  btb : P.bpred = true → ∀ k, (s.bp.btb k).valid = true → HalfAligned (s.bp.btb k).tgt
  ras : Linked s.ras
  dpc : HalfAligned s.dbg.dpc
  dpcCap : HalfAligned s.dbg.dpcCap

namespace Linked

/-- Under a new link the others are one further down. -/
theorem below : ∀ p k : BitVec 3, k ≠ 0#3 →
    p + 1#3 - 1#3 - k = p - 1#3 - (k - 1#3) ∧ p + 1#3 - 1#3 - k ≠ p := by
  decide

theorem below_count : ∀ (k : BitVec 3) (c : BitVec 4), k ≠ 0#3 →
    k.toNat < (if c ≠ 8#4 then c + 1#4 else c).toNat → (k - 1#3).toNat < c.toNat := by
  decide

/-- Without the last link they are one further up. -/
theorem above : ∀ p k : BitVec 3, p - 1#3 - 1#3 - k = p - 1#3 - (k + 1#3) := by
  decide

theorem above_count : ∀ (k : BitVec 3) (c : BitVec 4), c ≠ 0#4 →
    k.toNat < (c - 1#4).toNat → (k + 1#3).toNat < c.toNat := by
  decide

theorem pushed : ∀ p : BitVec 3, p + 1#3 - 1#3 - 0#3 = p := by
  decide

variable {r : Ras}

theorem top (h : Linked r) (hv : r.valid = true) : HalfAligned r.top := by
  unfold Ras.valid at hv
  rw [bne_iff_ne] at hv
  have h0 := h 0#3 (Nat.pos_of_ne_zero fun hz => hv (BitVec.eq_of_toNat_eq hz))
  rwa [BitVec.sub_zero] at h0

theorem push (h : Linked r) {link : Word} (hl : HalfAligned link) :
    Linked { ras := fun k => if k = r.rasPtr then link else r.ras k
             rasPtr := r.rasPtr + 1#3
             rasCnt := if r.rasCnt ≠ 8#4 then r.rasCnt + 1#4 else r.rasCnt } := by
  intro k hk
  by_cases h0 : k = 0#3
  · subst h0
    show HalfAligned (if _ = r.rasPtr then link else _)
    rw [if_pos (pushed r.rasPtr)]
    exact hl
  · obtain ⟨hidx, hne⟩ := below r.rasPtr k h0
    show HalfAligned (if _ = r.rasPtr then link else r.ras _)
    rw [if_neg hne, hidx]
    exact h _ (below_count k r.rasCnt h0 hk)

theorem pop (h : Linked r) (hv : r.valid = true) :
    Linked { r with rasPtr := r.rasPtr - 1#3, rasCnt := r.rasCnt - 1#4 } := by
  intro k hk
  unfold Ras.valid at hv
  rw [bne_iff_ne] at hv
  show HalfAligned (r.ras (r.rasPtr - 1#3 - 1#3 - k))
  rw [above]
  exact h _ (above_count k r.rasCnt hv hk)

/-- An accepted fetch keeps them aligned. -/
theorem update (h : Linked r) {instr link : Word} (hl : HalfAligned link) :
    Linked (r.update P instr link) := by
  unfold Ras.update
  split
  · exact h.push hl
  · split
    case isTrue hret =>
      rw [Bool.and_eq_true] at hret
      exact h.pop hret.2
    case isFalse => exact h

end Linked

/-- `mtvec` keeps its two low bits clear. -/
theorem mtvec_step {C : CsrParams} {c : Csr} (h : HalfAligned c.mtvec) (i : CsrIn) :
    HalfAligned (c.step C i).mtvec := by
  have ite : ∀ {q : Prop} [Decidable q] {d e : Csr}, HalfAligned d.mtvec → HalfAligned e.mtvec →
      HalfAligned (if q then d else e).mtvec := fun hd he =>
    iteInduction (motive := fun d : Csr => HalfAligned d.mtvec) (fun _ => hd) fun _ => he
  have hw : HalfAligned (c.write C i.addr i.wdata).mtvec := by
    unfold Csr.write
    iterate 5 refine ite h ?_
    refine ite ?_ ?_
    · show HalfAligned (i.wdata.extractLsb 31 2 ++ 0b00#2)
      unfold HalfAligned
      rw [BitVec.getLsbD_append, if_pos (by omega)]
      rfl
    · iterate 4 refine ite h ?_
      split
      · exact h
      · exact h
  have hret : HalfAligned (c.mretReturn C).mtvec := by
    unfold Csr.mretReturn
    exact ite h h
  unfold Csr.step
  exact ite h (ite hret (ite hw h))

section Step

variable {s : Core P} {i : CoreIn}

/-- Every target is aligned. -/
theorem Inv.target (h : Inv s) (hx : Vectored P (s.xIn i)) {t : Word}
    (hr : s.redirect i = some t) : HalfAligned t := by
  obtain ⟨hv, hfz⟩ := XIn.redirect_valid hr
  have hl : (s.xIn i).leaves = true := XIn.leaves_iff.mpr ⟨hv, hfz⟩
  have hseq : HalfAligned (s.xIn i).seqNx := (h.fx hv).add (.len h.len)
  cases XIn.redirect_cases hr with
  | delegated hd => exact hx.utvec hd
  | trapped => exact h.mtvec
  | uret ht hu => exact hx.uepc hl ht hu
  | mret ht hm => exact hx.mepc hl ht hm
  | jalr =>
    show (_ &&& ~~~1#32).getLsbD 0 = false
    rw [BitVec.getLsbD_and]
    exact Bool.and_false _
  | branch hb =>
    unfold XIn.brActualNext
    split
    · exact (h.fx hv).add (decode_offset _ hb)
    · exact hseq
  | sequential => exact hseq

/-- The PC after an accepted fetch. -/
theorem Inv.pcNext (h : Inv s) : HalfAligned (s.f.pcNext (s.fetchIn i)) := by
  unfold FStage.pcNext
  split
  case isTrue hp =>
    show HalfAligned (s.predictTargetF i)
    unfold Core.predictTargetF
    have hp' : (s.rasPredict i || s.bp.predictTaken s.f.pc) = true := hp
    cases hr : s.rasPredict i with
    | true =>
      rw [if_pos rfl]
      unfold Core.rasPredict at hr
      rw [Bool.and_eq_true] at hr
      exact h.ras.top hr.2
    | false =>
      rw [hr, Bool.false_or] at hp'
      rw [if_neg Bool.false_ne_true]
      unfold Bpred.predictTaken Bpred.btbHit at hp'
      simp only [Bool.and_eq_true] at hp'
      exact h.btb hp'.1.1.1 _ hp'.1.1.2
  case isFalse => exact h.pc.add (.len (s.f.fetchedLen_even i.imemRdata))

/-- One clock of the fetch registers. -/
theorem Inv.fetch (h : Inv s) (hx : Vectored P (s.xIn i)) :
    HalfAligned (s.step i).f.pc ∧ ((s.step i).f.fxValid = true → HalfAligned (s.step i).f.fxPc) ∧
    (s.step i).f.fxLen.getLsbD 0 = false := by
  have hc := s.f.step_clock s.bp.ghist (s.fetchIn i)
  have hf : (s.step i).f = s.f.step s.bp.ghist (s.fetchIn i) := rfl
  rw [hf]
  generalize s.f.step s.bp.ghist (s.fetchIn i) = f' at hc
  cases hc with
  | redirected target hr => exact ⟨h.target hx hr, fun hv => absurd hv Bool.false_ne_true, h.len⟩
  | resumed => exact ⟨h.dpc, fun hv => absurd hv Bool.false_ne_true, h.len⟩
  | frozen | straddled => exact ⟨h.pc, fun hv => absurd hv Bool.false_ne_true, h.len⟩
  | stalled => exact ⟨h.pc, h.fx, h.len⟩
  | accepted => exact ⟨h.pcNext, fun _ => h.pc, s.f.fetchedLen_even i.imemRdata⟩

/-- A branch or jump installs an aligned target. -/
theorem Inv.btb_step (h : Inv s) (hP : P.bpred = true) (k : BitVec P.btbBits)
    (hv : ((s.step i).bp.btb k).valid = true) : HalfAligned ((s.step i).bp.btb k).tgt := by
  have hbtb := h.btb hP
  have hstep : (s.step i).bp = s.bp.step (s.bpUpdate i) := rfl
  have htrain : (s.bp.trainBht (s.bpUpdate i)).btb = s.bp.btb := by
    unfold Bpred.trainBht
    split <;> rfl
  rw [hstep] at hv ⊢
  unfold Bpred.step at hv ⊢
  split
  case isFalse hen =>
    rw [if_neg hen] at hv
    exact hbtb k hv
  case isTrue hen =>
    rw [if_pos hen] at hv
    unfold Bpred.install at hv ⊢
    split
    case isFalse htk =>
      rw [if_neg htk, htrain] at hv
      rw [htrain]
      exact hbtb k hv
    case isTrue htk =>
      rw [if_pos htk, htrain] at hv
      by_cases hk : k = Bpred.btbIdx (s.bpUpdate i).pc
      · -- the entry of this branch
        dsimp only
        rw [if_pos hk]
        have hen' : (s.bpUpdate i).en = true := (Bool.and_eq_true .. ▸ hen).2
        unfold Core.bpUpdate at hen'
        simp only [Bool.and_eq_true] at hen'
        obtain ⟨⟨⟨hval, -⟩, -⟩, hbr⟩ := hen'
        rw [Bool.or_comm] at hbr
        exact (h.fx hval).add (decode_offset _ hbr)
      · dsimp only at hv ⊢
        rw [if_neg hk] at hv ⊢
        rw [htrain]
        exact hbtb k hv

/-- The debug controller takes its addresses from the pipeline. -/
theorem Inv.dbg_step (h : Inv s) (hw : writesDpc s i = false) :
    HalfAligned (s.step i).dbg.dpc ∧ HalfAligned (s.step i).dbg.dpcCap := by
  cases hm : s.dbg.dbgMode with
  | true =>
    have hacc : (s.dbgAccess i).dpc = s.dbg.dpc ∧ (s.dbgAccess i).dpcCap = s.dbg.dpcCap := by
      unfold Core.dbgAccess
      dsimp only
      split
      case isFalse => exact ⟨rfl, rfl⟩
      case isTrue hcsr =>
        have hne : i.dbgArRegno ≠ 0x7B1#12 := by
          intro heq
          unfold writesDpc at hw
          rw [hcsr, heq] at hw
          exact absurd hw (by decide)
        unfold Dbg.writeLocal
        rw [if_neg hne]
        split_ifs <;> exact ⟨rfl, rfl⟩
    have hres : (s.dbgResume i (s.dbgAccess i)).dpc = s.dbg.dpc ∧
        (s.dbgResume i (s.dbgAccess i)).dpcCap = s.dbg.dpcCap := by
      unfold Core.dbgResume
      split <;> exact hacc
    rw [Core.dbg_of_dbgMode hm, hres.1, hres.2]
    exact ⟨h.dpc, h.dpcCap⟩
  | false =>
    have hcap : HalfAligned (s.dbgRunning i).dpcCap := by
      show HalfAligned (if s.ebreakToDebug then s.f.fxPc else s.dbg.dpcCap)
      split
      case isTrue hebr =>
        unfold Core.ebreakToDebug at hebr
        simp only [Bool.and_eq_true] at hebr
        exact h.fx hebr.1.1.1
      case isFalse => exact h.dpcCap
    cases hd : (s.dbg.haltReq && s.pipeDrained) with
    | false =>
      rw [Core.dbg_stays hm hd]
      exact ⟨h.dpc, hcap⟩
    | true =>
      rw [Bool.and_eq_true] at hd
      rw [Core.dbg_enters hm hd.1 hd.2]
      refine ⟨?_, hcap⟩
      dsimp only
      split
      · exact h.dpcCap
      · exact h.pc

/-- Every clock that keeps to `Vectored` keeps the invariant. -/
theorem Inv.step (h : Inv s) (hx : Vectored P (s.xIn i)) (hw : writesDpc s i = false) :
    Inv (s.step i) := by
  obtain ⟨hpc, hfx, hlen⟩ := h.fetch hx
  obtain ⟨hdpc, hcap⟩ := h.dbg_step hw
  refine ⟨hpc, hfx, hlen, mtvec_step h.mtvec _, h.btb_step, ?_, hdpc, hcap⟩
  show Linked (if _ then _ else _)
  split
  · exact h.ras.update (h.pc.add (.len (s.f.fetchedLen_even i.imemRdata)))
  · exact h.ras

/-- In a clock that keeps to `Vectored` everything is aligned. -/
theorem Inv.aligned (h : Inv s) (hx : Vectored P (s.xIn i)) : Aligned s i := by
  refine ⟨h.pc, h.fx, fun t hr => h.target hx hr, ?_, ?_⟩
  · intro hset
    have hcsr : (s.step i).csr.mepc = ((s.xIn i).csrIn P s.w.retireValid).trapEpc := by
      show ((s.xIn i).csrNext P s.w.retireValid).mepc = _
      unfold XIn.csrNext Csr.step
      rw [show ((s.xIn i).csrIn P s.w.retireValid).trapSet = true from hset]
      rfl
    rw [hcsr]
    obtain ⟨hv, -⟩ := XIn.mTrapSet_cases hset
    show HalfAligned (if (s.xIn i).exTrap P then (s.xIn i).fxPc else (s.xIn i).irqEpc)
    split
    · exact h.fx hv
    · exact (h.fx hv).add (.len h.len)
  · intro hd
    have hucsr : (s.step i).ucsr =
        s.ucsr.trapEntry s.f.fxPc ((s.xIn i).exCause P) ((s.xIn i).exTval P) :=
      XIn.ucsrNext_of_deleg (x := s.xIn i) hd
    rw [hucsr]
    exact h.fx (XIn.exTrap_valid (XIn.delegTrap_iff.mp hd).2.2.1)

/-- Where everything is aligned, the clock keeps to `Vectored`. -/
theorem Aligned.vectored (h : Aligned s i) : Vectored P (s.xIn i) := by
  refine ⟨fun hd => ?_, fun hl ht hu => ?_, fun hl ht hm => ?_⟩
  · obtain ⟨-, -, ht, hfz, -⟩ := XIn.delegTrap_iff.mp hd
    refine h.target _ ((XIn.redirect_of_exTrap ht hfz).trans ?_)
    rw [hd]
    rfl
  · obtain ⟨hv, hfz⟩ := XIn.leaves_iff.mp hl
    refine h.target _ ?_
    show (s.xIn i).redirect P = _
    unfold XIn.redirect
    rw [hv, hfz, ht, hu]
    rfl
  · obtain ⟨hv, hfz⟩ := XIn.leaves_iff.mp hl
    exact h.target _ (XIn.redirect_of_mret hv hfz ht hm)

end Step

/-! ## Every run -/

/-- Reset leaves nothing odd behind but its own address. -/
theorem inv_reset (s : Core P) (i : CoreIn) (hP : HalfAligned P.resetPc) : Inv (s.reset i) := by
  have hlen : (4#3 : BitVec 3).getLsbD 0 = false := by decide
  refine ⟨hP, fun hv => absurd hv Bool.false_ne_true, hlen, .zero, fun hb k hv => ?_, ?_, .zero,
    .zero⟩
  · have hbp : (s.reset i).bp = s.bp.reset := rfl
    rw [hbp] at hv
    unfold Bpred.reset at hv
    rw [if_pos hb] at hv
    exact absurd hv Bool.false_ne_true
  · intro k hk
    exact absurd hk (Nat.not_lt_zero _)

/-- **When the program counter stays halfword-aligned**: in every run in which the
debugger does not write `dpc`, exactly as long as the reset address is even and no
delegated trap, URET or MRET finds an odd address in `utvec`, `uepc` or `mepc`. -/
theorem aligned_iff (s₀ : Core P) (i₀ : CoreIn) (ins : Nat → CoreIn) (n : Nat)
    (hdpc : ∀ k < n, writesDpc (Core.runFrom s₀ i₀ ins k) (ins k) = false) :
    (∀ k ≤ n, Aligned (Core.runFrom s₀ i₀ ins k) (ins k)) ↔
      HalfAligned P.resetPc ∧
        ∀ k ≤ n, Vectored P ((Core.runFrom s₀ i₀ ins k).xIn (ins k)) := by
  constructor
  · intro h
    exact ⟨(h 0 (Nat.zero_le n)).pc, fun k hk => (h k hk).vectored⟩
  · rintro ⟨hP, hx⟩ k hk
    have hstep : ∀ (s : Core P) (i : CoreIn), Inv s →
        Vectored P (s.xIn i) ∧ writesDpc s i = false → Inv (s.step i) :=
      fun s i hs hok => hs.step hok.1 hok.2
    have hinv : Inv (Core.runFrom s₀ i₀ ins k) :=
      run_invariant (inv_reset s₀ i₀ hP) hstep k
        fun j hj => ⟨hx j (by omega), hdpc j (by omega)⟩
    exact hinv.aligned (hx k hk)

/-- A write to `mepc`, and MRET. -/
def returnsAfter (instr : Word) : Memory where
  imem := .ofWords
    [instr,
     0x30200073#32,   -- mret
     0x0000006F#32]   -- jal x0, 0
  dmem := fun _ => 0#8

/-- `csrrwi x0, mepc, 8` -/
theorem aligned_iff_mret :
    Aligned ((returnsAfter 0x34145073#32).bench {} {} 8)
      ((returnsAfter 0x34145073#32).inputs {} {} 8) := by
  have h := aligned_iff (Core.powerUp {}) ((returnsAfter 0x34145073#32).resetIn {} {})
    ((returnsAfter 0x34145073#32).inputs {} {}) 8
    (by simp only [Memory.runFrom_inputs]; decide +kernel)
  simp only [Memory.runFrom_inputs] at h
  exact h.mpr ⟨by decide, by decide +kernel⟩ 8 (Nat.le_refl 8)

/-- `csrrwi x0, mepc, 17` -/
theorem odd_mepc_is_followed :
    ¬ ∀ (s₀ : Core {}) (i₀ : CoreIn) (ins : Nat → CoreIn) (n : Nat),
      (∀ k < n, writesDpc (Core.runFrom s₀ i₀ ins k) (ins k) = false) →
      ∀ k ≤ n, Aligned (Core.runFrom s₀ i₀ ins k) (ins k) := by
  intro h
  have h' := h (Core.powerUp {}) ((returnsAfter 0x3418D073#32).resetIn {} {})
    ((returnsAfter 0x3418D073#32).inputs {} {}) 3
  simp only [Memory.runFrom_inputs] at h'
  have hpc := (h' (by decide +kernel) 3 (Nat.le_refl 3)).pc
  revert hpc
  decide +kernel

end Alignment

end ThreeSippEs
