import ThreeSippEs.Common.CounterWrites
import ThreeSippEs.Pipeline.Simulation

/-!
# `minstret` counts behind the reader

An instruction is counted when it leaves W and reads a CSR when it leaves X. In between
there is one place, so that what is read is what has left X before, less the instruction
that is in W.

- `XIn.writesInstret`: what the program must not do;
- `counted`: the counter and W together count the instructions that have left X;
- `nth`: they are the instructions of the program, in its order;
- `instret_iff`: a read gives their number when W is empty.
-/

namespace ThreeSippEs

open Clocked

variable {P : Params} {imemWritable : Word → Bool}

/-! ## One clock of the counter -/

namespace Csr

variable {Q : CsrParams} {c : Csr} {i : CsrIn}

/-- Writes to other addresses leave `minstret` to count. -/
theorem writeCounter_minstret (h : ∀ half, i.addr ≠ Counter.minstret.address half) :
    (c.writeCounter i).minstret = (c.tick i).minstret := by
  have hlow : i.addr ≠ csrMinstret := h .low
  have hhigh : i.addr ≠ csrMinstreth := h .high
  unfold writeCounter
  dsimp only
  rw [if_neg hlow, if_neg hhigh]
  split_ifs
  · rfl
  · rfl
  · split
    · rfl
    · rfl
    · rfl

/-- Without a write of software it counts what retires. -/
theorem step_minstret (h : i.we = true → ∀ half, i.addr ≠ Counter.minstret.address half) :
    (c.step Q i).ctr.minstret = if i.retire then c.ctr.minstret + 1#64 else c.ctr.minstret := by
  have htick : (c.step Q i).ctr.minstret = (c.tick i).minstret := by
    unfold step
    split_ifs with htrap hmret hwe
    · rfl
    · rfl
    · exact writeCounter_minstret (h hwe)
    · rfl
  exact htick

end Csr

/-! ## Writes and reads of the instruction in X -/

namespace XIn

/-- The CSR file is told to write a half of `minstret`, by the program or the debugger. -/
def writesInstret (P : Params) (x : XIn) : Bool :=
  (x.csrIn P false).we && (x.csrAddrEff == csrMinstret || x.csrAddrEff == csrMinstreth)

theorem csrNext_minstret {x : XIn} (h : x.writesInstret P = false) (retire : Bool) :
    (x.csrNext P retire).ctr.minstret =
      if retire then x.csr.ctr.minstret + 1#64 else x.csr.ctr.minstret := by
  refine Csr.step_minstret fun hwe half haddr => ?_
  have hwe' : (x.csrIn P false).we = true := hwe
  unfold writesInstret at h
  rw [hwe', Bool.true_and, Bool.or_eq_false_iff, beq_eq_false_iff_ne, beq_eq_false_iff_ne] at h
  cases half with
  | low => exact h.1 haddr
  | high => exact h.2 haddr

/-- A CSR instruction reads the half whose address it has. -/
theorem result_instret {x : XIn} (hdbg : x.dbgMode = false) (hcsr : x.dec.isCsr = true)
    {half : Half} (haddr : x.sysImm12 = Counter.minstret.address half) :
    (x.xwNext P).result = half.get x.csr.ctr.minstret := by
  have hctr : ∀ half, Csr.isCounter (Counter.minstret.address half) = true ∧
      Trig.isAddr (Counter.minstret.address half) = false ∧
      Ucsr.isAddr (Counter.minstret.address half) = false := by
    intro half
    cases half with
    | low | high => decide
  obtain ⟨hc, ht, hu⟩ := hctr half
  have hsel : x.dec.wbSel = .csr := ((decode_classes x.fxInstr).csr hcsr).2.1
  have hrd : x.csrRdEff P = x.csr.rdata P.csr x.irq (Counter.minstret.address half) := by
    unfold csrRdEff isTrigCsr isUcsr
    rw [csrAddrEff_eq hdbg, haddr, ht, hu, Bool.and_false]
    rfl
  show x.xResult P = _
  unfold xResult
  rw [hsel]
  show x.csrRdEff P = _
  rw [hrd, Csr.rdata_counter x.csr hc, Csr.readCounter_address]
  rfl

end XIn

/-! ## The run -/

namespace Sys

section Run

variable (imemWritable : Word → Bool) (s₀ : Sys P) (e₀ : ExtIn) (ins : Nat → ExtIn)

/-- The system `n` clocks after reset. -/
def booted (n : Nat) : Sys P := run (Sys.step imemWritable) (s₀.reset imemWritable e₀) ins n

/-- The instructions that have left X before clock `n`, with what the outside contributes
to each. -/
def executed (n : Nat) : List (Env × Csr) :=
  labels (Sys.step imemWritable) (fun s _ => s.commits) (fun s e => (s.label e, s.core.csr))
    (s₀.reset imemWritable e₀) ins n

end Run

/-- The instruction in X goes on to W and reads a half of `minstret`. -/
structure ReadsInstret (half : Half) (s : Sys P) (e : ExtIn) : Prop where
  commits : s.commits = true
  csr : (s.xIn e).dec.isCsr = true
  address : (s.xIn e).sysImm12 = Counter.minstret.address half
  untrapped : (s.xIn e).exTrap P = false

/-- What W writes to its register. -/
def instretRead (s : Sys P) (e : ExtIn) : Word := ((s.xIn e).xwNext P).result

/-- The instruction in W, which is still to be counted. -/
def uncounted (s : Sys P) : BitVec 64 := if s.core.w.xwValid then 1#64 else 0#64

variable {s₀ : Sys P} {e₀ : ExtIn} {ins : Nat → ExtIn}

/-- **One clock**: an instruction that leaves X is counted later, one that leaves W now. -/
theorem counted_step (s : Sys P) (e : ExtIn) (h : (s.xIn e).writesInstret P = false) :
    (s.step imemWritable e).core.csr.ctr.minstret + (s.step imemWritable e).uncounted =
      s.core.csr.ctr.minstret + s.uncounted + if s.commits then 1#64 else 0#64 := by
  have hctr : (s.step imemWritable e).core.csr.ctr.minstret =
      if s.core.w.retireValid then s.core.csr.ctr.minstret + 1#64
      else s.core.csr.ctr.minstret :=
    XIn.csrNext_minstret h s.core.w.retireValid
  have hw : (s.step imemWritable e).core.w.xwValid =
      if s.core.w.memBeatStall then s.core.w.xwValid else s.core.xCommit := rfl
  rw [hctr]
  unfold uncounted commits WStage.retireValid
  rw [hw]
  cases hb : s.core.w.memBeatStall with
  | true =>
    -- W keeps its instruction and X waits
    rw [Bool.not_true, Bool.and_false, Bool.and_false, if_neg Bool.false_ne_true,
      if_neg Bool.false_ne_true, if_pos rfl, BitVec.add_zero]
  | false =>
    rw [Bool.not_false, Bool.and_true, Bool.and_true, if_neg Bool.false_ne_true]
    cases s.core.w.xwValid with
    | true => rfl
    | false => rw [if_neg Bool.false_ne_true, if_neg Bool.false_ne_true, BitVec.add_zero]

/-- **The counter and W count the instructions that have left X.** -/
theorem counted (n : Nat)
    (hfree : ∀ k < n, ((booted imemWritable s₀ e₀ ins k).xIn (ins k)).writesInstret P = false) :
    (booted imemWritable s₀ e₀ ins n).core.csr.ctr.minstret +
        (booted imemWritable s₀ e₀ ins n).uncounted =
      BitVec.ofNat 64 (executed imemWritable s₀ e₀ ins n).length := by
  induction n with
  | zero => rfl
  | succ n ih =>
    have hstep := @counted_step _ imemWritable _ _ (hfree n (Nat.lt_succ_self n))
    have hlast : (executed imemWritable s₀ e₀ ins (n + 1)).length =
        (executed imemWritable s₀ e₀ ins n).length +
          if (booted imemWritable s₀ e₀ ins n).commits then 1 else 0 := by
      show (executed imemWritable s₀ e₀ ins n ++
        if (booted imemWritable s₀ e₀ ins n).commits then [_] else []).length = _
      rw [List.length_append]
      cases (booted imemWritable s₀ e₀ ins n).commits with
      | true => rfl
      | false => rfl
    rw [hlast, BitVec.ofNat_add, ← ih fun k hk => hfree k (Nat.lt_succ_of_lt hk)]
    refine hstep.trans (congrArg _ ?_)
    cases (booted imemWritable s₀ e₀ ins n).commits with
    | true => rfl
    | false => rfl

/-- **What is read**: the number of the instructions before, less the one in W. -/
theorem instretRead_eq {n : Nat} {half : Half}
    (hfree : ∀ k < n, ((booted imemWritable s₀ e₀ ins k).xIn (ins k)).writesInstret P = false)
    (hread : (booted imemWritable s₀ e₀ ins n).ReadsInstret half (ins n)) :
    (booted imemWritable s₀ e₀ ins n).instretRead (ins n) =
      half.get (BitVec.ofNat 64 (executed imemWritable s₀ e₀ ins n).length -
        (booted imemWritable s₀ e₀ ins n).uncounted) := by
  have hvalid : (booted imemWritable s₀ e₀ ins n).core.f.fxValid = true := by
    have hc := hread.commits
    unfold commits Core.xCommit at hc
    simp only [Bool.and_eq_true] at hc
    exact hc.1.1.1
  have hrun : (booted imemWritable s₀ e₀ ins n).core.dbg.dbgMode = false :=
    running_of_valid s₀ e₀ ins n hvalid
  rw [← counted n hfree, BitVec.add_sub_cancel]
  exact XIn.result_instret hrun hread.csr hread.address

/-- **The instructions that have left X** are those of the program, in its order: the next
one is in X when one leaves. -/
theorem nth {n : Nat}
    (hok : ∀ k ≤ n, (booted imemWritable s₀ e₀ ins k).Steady (ins k)
      (seqRun (fun a l => (a.live l.2).step P imemWritable l.1)
        (s₀.reset imemWritable e₀).archBoot (executed imemWritable s₀ e₀ ins k)))
    (hc : (booted imemWritable s₀ e₀ ins n).commits = true) :
    ((booted imemWritable s₀ e₀ ins n).xIn (ins n)).visible =
      (seqRun (fun a l => (a.live l.2).step P imemWritable l.1)
        (s₀.reset imemWritable e₀).archBoot (executed imemWritable s₀ e₀ ins n)).xIn
          ((booted imemWritable s₀ e₀ ins n).label (ins n)) := by
  obtain ⟨hsim, hpend⟩ := sim_reset imemWritable s₀ e₀
  obtain ⟨hsim', -⟩ := (refines_live P imemWritable).run hsim hpend n
    fun k hk => hok k (Nat.le_of_lt hk)
  exact hsim'.sees (hok n (Nat.le_refl n)) hc

end Sys

/-! ## The number of the instructions before -/

/-- **A read gives the number of the instructions before it** when none of them is left in
W, and its high half also when the low one has not just wrapped. -/
theorem instret_iff (P : Params) (imemWritable : Word → Bool) (s₀ : Sys P) (e₀ : ExtIn)
    (ins : Nat → ExtIn) (n : Nat) (half : Half)
    (hfree : ∀ k < n, ((Sys.booted imemWritable s₀ e₀ ins k).xIn (ins k)).writesInstret P = false)
    (hread : (Sys.booted imemWritable s₀ e₀ ins n).ReadsInstret half (ins n)) :
    (Sys.booted imemWritable s₀ e₀ ins n).instretRead (ins n) =
        half.get (BitVec.ofNat 64 (Sys.executed imemWritable s₀ e₀ ins n).length) ↔
      (Sys.booted imemWritable s₀ e₀ ins n).core.w.xwValid = false ∨
        half = .high ∧ (BitVec.ofNat 64
          (Sys.executed imemWritable s₀ e₀ ins n).length).extractLsb 31 0 ≠ 0#32 := by
  rw [Sys.instretRead_eq hfree hread]
  unfold Sys.uncounted
  cases (Sys.booted imemWritable s₀ e₀ ins n).core.w.xwValid with
  | false =>
    rw [if_neg Bool.false_ne_true, BitVec.sub_zero]
    exact ⟨fun _ => .inl rfl, fun _ => rfl⟩
  | true =>
    rw [if_pos rfl, Half.get_decrement]
    exact ⟨.inr, fun h => h.resolve_left Bool.true_eq_false.mp⟩

/-- Two cores, with or without the predictor, read the same as their `n`-th instruction
when W is in the same state. -/
theorem instret_agree_iff {P' : Params} {imemWritable' : Word → Bool} {s₀ : Sys P} {s₀' : Sys P'}
    {e₀ e₀' : ExtIn} {ins ins' : Nat → ExtIn} {n n' : Nat} {half : Half}
    (hfree : ∀ k < n, ((Sys.booted imemWritable s₀ e₀ ins k).xIn (ins k)).writesInstret P = false)
    (hfree' : ∀ k < n',
      ((Sys.booted imemWritable' s₀' e₀' ins' k).xIn (ins' k)).writesInstret P' = false)
    (hread : (Sys.booted imemWritable s₀ e₀ ins n).ReadsInstret half (ins n))
    (hread' : (Sys.booted imemWritable' s₀' e₀' ins' n').ReadsInstret half (ins' n'))
    (hlen : (Sys.executed imemWritable' s₀' e₀' ins' n').length =
      (Sys.executed imemWritable s₀ e₀ ins n).length) :
    (Sys.booted imemWritable s₀ e₀ ins n).instretRead (ins n) =
        (Sys.booted imemWritable' s₀' e₀' ins' n').instretRead (ins' n') ↔
      (Sys.booted imemWritable s₀ e₀ ins n).core.w.xwValid =
          (Sys.booted imemWritable' s₀' e₀' ins' n').core.w.xwValid ∨
        half = .high ∧ (BitVec.ofNat 64
          (Sys.executed imemWritable s₀ e₀ ins n).length).extractLsb 31 0 ≠ 0#32 := by
  rw [Sys.instretRead_eq hfree hread, Sys.instretRead_eq hfree' hread', hlen]
  unfold Sys.uncounted
  cases (Sys.booted imemWritable s₀ e₀ ins n).core.w.xwValid with
  | false =>
    cases (Sys.booted imemWritable' s₀' e₀' ins' n').core.w.xwValid with
    | false => exact ⟨fun _ => .inl rfl, fun _ => rfl⟩
    | true =>
      rw [if_neg Bool.false_ne_true, if_pos rfl, BitVec.sub_zero, eq_comm, Half.get_decrement]
      exact ⟨.inr, fun h => h.resolve_left Bool.false_ne_true⟩
  | true =>
    cases (Sys.booted imemWritable' s₀' e₀' ins' n').core.w.xwValid with
    | false =>
      rw [if_neg Bool.false_ne_true, if_pos rfl, BitVec.sub_zero, Half.get_decrement]
      exact ⟨.inr, fun h => h.resolve_left Bool.true_eq_false.mp⟩
    | true => exact ⟨fun _ => .inl rfl, fun _ => rfl⟩

/-! ## Two programs -/

/-- A read of the counter and a jump back to it. -/
def countsLoop (b : Bool) : Sys { bpred := b } where
  core := Core.powerUp _
  mem :=
    { imem := .ofWords
        [0xB02020F3#32,   -- csrrs x1, minstret, x0
         0xFFDFF06F#32]   -- jal x0, -4
      dmem := fun _ => 0#8 }

/-- Its `n`-th clock, with the instruction memory read-only. -/
def countsAt (b : Bool) (n : Nat) : Sys { bpred := b } :=
  Sys.booted (fun _ => false) (countsLoop b) {} (fun _ => {}) n

/-- The instructions before that clock. -/
def countsBefore (b : Bool) (n : Nat) : Nat :=
  (Sys.executed (fun _ => false) (countsLoop b) {} (fun _ => {}) n).length

/-- The fifth instruction finds the jump before it in W when that one has been predicted,
and W empty when it has not. -/
theorem instret_iff_loop :
    (countsAt true 6).instretRead {} ≠ Half.low.get (BitVec.ofNat 64 (countsBefore true 6)) ∧
    (countsAt false 7).instretRead {} = Half.low.get (BitVec.ofNat 64 (countsBefore false 7)) := by
  have hpredicted := instret_iff { bpred := true } (fun _ => false) (countsLoop true) {}
    (fun _ => {}) 6 .low (by decide +kernel)
    ⟨by decide +kernel, by decide +kernel, by decide +kernel, by decide +kernel⟩
  have hunpredicted := instret_iff { bpred := false } (fun _ => false) (countsLoop false) {}
    (fun _ => {}) 7 .low (by decide +kernel)
    ⟨by decide +kernel, by decide +kernel, by decide +kernel, by decide +kernel⟩
  refine ⟨fun h => ?_, hunpredicted.mpr (.inl (by decide +kernel))⟩
  have hempty := hpredicted.mp h
  exact absurd hempty (by decide +kernel)

/-- Neither a trap nor an interrupt, and `minstret` is not written. -/
def Sys.uneventful (s : Sys P) (e : ExtIn) : Bool :=
  !(s.xIn e).exTrap P && !(s.xIn e).takeIrq P && !(s.xIn e).writesInstret P

/-- The fifth instruction reads 3 when the jump before it is predicted, and 4 when it is
not. -/
theorem instret_of_predicted :
    (∀ k ≤ 6, (countsAt true k).uneventful {} = true) ∧
    (countsAt true 6).ReadsInstret .low {} ∧ countsBefore true 6 = 4 ∧
    (countsAt true 6).instretRead {} ≠
      Half.low.get (BitVec.ofNat 64 (countsBefore true 6)) ∧
    (∀ k ≤ 7, (countsAt false k).uneventful {} = true) ∧
    (countsAt false 7).ReadsInstret .low {} ∧ countsBefore false 7 = 4 ∧
    (countsAt false 7).instretRead {} ≠ (countsAt true 6).instretRead {} := by
  refine ⟨by decide +kernel, ⟨?_, ?_, ?_, ?_⟩, by decide +kernel, by decide +kernel,
    by decide +kernel, ⟨?_, ?_, ?_, ?_⟩, by decide +kernel, by decide +kernel⟩
  all_goals decide +kernel

end ThreeSippEs
