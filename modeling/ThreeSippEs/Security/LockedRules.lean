import ThreeSippEs.Core.Execute
import ThreeSippEs.Lib.Clocked
import ThreeSippEs.Security.PmpRules

/-!
# Locked PMP rules

The lock of a PMP entry guards its own configuration byte and its own address
register. The range of a TOR rule also depends on the preceding address
register, which only its own lock guards, so a locked TOR rule above an unlocked
entry can be moved.

- `step_keeps`: one clock of the CSR file leaves the registers of a locked entry
  alone and cannot set RLB;
- `run_keeps`: so does every run;
- `locked_rule_immutable_iff`: exactly when the range of a locked rule cannot be
  changed by any sequence of writes, traps and MRETs.
-/

namespace ThreeSippEs.LockedRules

open Clocked Pmp PmpRules

/-- The register index of implemented entry `i`. -/
def idx (i : Fin 8) : BitVec 4 := BitVec.ofNat 4 i.val

/-- Byte `a` is in the range of entry `i`. -/
def RuleCovers (c : Csr) (i : Fin 8) (a : Word) : Prop :=
  Covers (c.pmpcfg (idx i)) (c.pmpaddr (idx i)).toNat
    (paPrev (fun j : Fin 8 => c.pmpaddr (idx j)) i).toNat a.toNat

instance (c : Csr) (i : Fin 8) (a : Word) : Decidable (RuleCovers c i a) := by
  unfold RuleCovers
  infer_instance

/-- The rule of entry `i` is the same in both states and RLB is clear: its
range, its permissions and its lock. -/
def SameRule (c c' : Csr) (i : Fin 8) : Prop :=
  (∀ a, RuleCovers c' i a ↔ RuleCovers c i a) ∧
  cfgR (c'.pmpcfg (idx i)) = cfgR (c.pmpcfg (idx i)) ∧
  cfgW (c'.pmpcfg (idx i)) = cfgW (c.pmpcfg (idx i)) ∧
  cfgX (c'.pmpcfg (idx i)) = cfgX (c.pmpcfg (idx i)) ∧
  c'.locked (idx i) = true ∧ c'.rlb = false

/-- The state of the CSR file after `n` clocks. -/
abbrev csrRun (P : CsrParams) (c : Csr) (ins : Nat → CsrIn) (n : Nat) : Csr :=
  run (Csr.step P) c ins n

/-! ## One clock -/

/-- The registers of entry `k` are the same in `d` as in `c`, and RLB is clear. -/
structure Keeps (c : Csr) (k : BitVec 4) (d : Csr) : Prop where
  cfg : d.pmpcfg k = c.pmpcfg k
  addr : d.pmpaddr k = c.pmpaddr k
  rlb : d.rlb = false

/-- `Keeps` passes through a branch. -/
theorem Keeps.ite {c d d' : Csr} {k : BitVec 4} {p : Prop} [Decidable p] (h : Keeps c k d)
    (h' : Keeps c k d') : Keeps c k (if p then d else d') :=
  iteInduction (motive := Keeps c k) (fun _ => h) fun _ => h'

/-- A register index is its group of four followed by its lane. -/
theorem cfgIndex_lane (k : BitVec 4) : k.extractLsb 3 2 ++ k.extractLsb 1 0 = k := by
  revert k
  decide

section Step

variable {P : CsrParams} {c : Csr}

theorem writePmpaddr_locked {k : BitVec 4} (hl : c.locked k = true) (hr : c.rlb = false)
    (j : BitVec 4) (v : Word) : c.writePmpaddr j v k = c.pmpaddr k := by
  unfold Csr.writePmpaddr
  split
  case isTrue h =>
    obtain ⟨rfl, hopen⟩ := h
    simp [hl, hr] at hopen
  case isFalse => rfl

theorem writePmpaddr_open {k : BitVec 4} (hl : c.locked k = false) (v : Word) :
    c.writePmpaddr k v = fun j => if j = k then v else c.pmpaddr j := by
  funext j
  simp [Csr.writePmpaddr, hl]

theorem writePmpcfg_locked {k : BitVec 4} (hl : c.locked k = true) (hr : c.rlb = false)
    (addr : BitVec 12) (v : Word) : c.writePmpcfg addr v k = c.pmpcfg k := by
  unfold Csr.writePmpcfg
  split
  case isTrue h =>
    obtain ⟨hreg, hopen⟩ := h
    -- the lane that reaches entry `k` is guarded by the lock of `k`
    have hk : Csr.cfgIndex addr (k.extractLsb 1 0) = k := by
      unfold Csr.cfgIndex
      rw [← hreg]
      exact cfgIndex_lane k
    simp [Csr.cfgLaneOk, hk, hl, hr] at hopen
  case isFalse => rfl

theorem anyLocked_of_locked {k : Nat} (hk : k < P.pmpRegions)
    (hl : c.locked (BitVec.ofNat 4 k) = true) : c.anyLocked P = true := by
  unfold Csr.anyLocked
  exact List.any_eq_true.mpr ⟨k, List.mem_range.mpr hk, hl⟩

/-- RLB cannot be set while some rule is locked. -/
theorem writeMseccfg_rlb (hany : c.anyLocked P = true) (hr : c.rlb = false) (v : Word) :
    (c.writeMseccfg P v).getLsbD 2 = false := by
  unfold Csr.writeMseccfg
  rw [hany, hr, if_neg (by decide)]
  have hbit : c.mseccfg.getLsbD 2 = false := hr
  generalize v.extractLsb 1 1 = a
  generalize v.extractLsb 0 0 = b
  generalize c.mseccfg.extractLsb 1 1 ||| a = x
  generalize c.mseccfg.extractLsb 0 0 ||| b = y
  rw [BitVec.getLsbD_append, BitVec.getLsbD_append]
  simpa using hbit

/-- A write leaves the registers of a locked entry alone. -/
theorem write_keeps {k : Nat} (hk : k < P.pmpRegions)
    (hl : c.locked (BitVec.ofNat 4 k) = true) (hr : c.rlb = false) (addr : BitVec 12) (v : Word) :
    Keeps c (BitVec.ofNat 4 k) (c.write P addr v) := by
  have hrefl : Keeps c (BitVec.ofNat 4 k) c := ⟨rfl, rfl, hr⟩
  unfold Csr.write
  refine Keeps.ite ⟨rfl, writePmpaddr_locked hl hr _ _, hr⟩ ?_
  refine Keeps.ite ⟨writePmpcfg_locked hl hr _ _, rfl, hr⟩ ?_
  refine Keeps.ite ⟨rfl, rfl, writeMseccfg_rlb (anyLocked_of_locked hk hl) hr v⟩ ?_
  -- no other register holds a part of a rule
  iterate 7 refine Keeps.ite ⟨rfl, rfl, hr⟩ ?_
  split
  · exact ⟨rfl, rfl, hr⟩
  · exact hrefl

/-- **One clock** leaves the registers of a locked entry alone and RLB clear,
whatever mixture of trap, MRET and write it performs. -/
theorem step_keeps {k : Nat} (hk : k < P.pmpRegions)
    (hl : c.locked (BitVec.ofNat 4 k) = true) (hr : c.rlb = false) (i : CsrIn) :
    Keeps c (BitVec.ofNat 4 k) (c.step P i) := by
  have hmret : Keeps c (BitVec.ofNat 4 k) (c.mretReturn P) := by
    unfold Csr.mretReturn
    exact Keeps.ite ⟨rfl, rfl, hr⟩ ⟨rfl, rfl, hr⟩
  have hwrite := write_keeps hk hl hr i.addr i.wdata
  unfold Csr.step
  refine Keeps.ite ⟨rfl, rfl, hr⟩ ?_
  refine Keeps.ite ⟨hmret.cfg, hmret.addr, hmret.rlb⟩ ?_
  exact Keeps.ite ⟨hwrite.cfg, hwrite.addr, hwrite.rlb⟩ ⟨rfl, rfl, hr⟩

/-- The addresses 0x3B0..0x3BF select the address registers. -/
theorem pmpaddr_select (k : BitVec 4) :
    Csr.isPmpaddr (0x3B#8 ++ k) = true ∧ (0x3B#8 ++ k).extractLsb 3 0 = k := by
  revert k
  decide

/-- A write to the address register of an entry that is not locked reaches it. -/
theorem step_writePmpaddr (hP : P.pmpRegions = 8) {k : Fin 8} (hl : c.locked (idx k) = false)
    (i : CsrIn) (htrap : i.trapSet = false) (hmret : i.mret = false) (hwe : i.we = true)
    (haddr : i.addr = 0x3B#8 ++ idx k) :
    (c.step P i).pmpcfg = c.pmpcfg ∧
    (c.step P i).pmpaddr = fun j => if j = idx k then i.wdata else c.pmpaddr j := by
  have hsel : Csr.isPmpaddr i.addr = true ∧ i.addr.extractLsb 3 0 = idx k := by
    rw [haddr]
    exact pmpaddr_select (idx k)
  have hwrite : c.write P i.addr i.wdata =
      { c with pmpaddr := c.writePmpaddr (idx k) i.wdata } := by
    unfold Csr.write
    rw [if_pos ⟨by omega, hsel.1⟩, hsel.2]
  unfold Csr.step
  rw [htrap, hmret, hwe, hwrite, writePmpaddr_open hl]
  exact ⟨rfl, rfl⟩

end Step

/-! ## Runs -/

/-- **Every run** leaves the registers of a locked entry alone and RLB clear. -/
theorem run_keeps {P : CsrParams} {c : Csr} {k : Nat} (hk : k < P.pmpRegions)
    (hl : c.locked (BitVec.ofNat 4 k) = true) (hr : c.rlb = false) (ins : Nat → CsrIn) (n : Nat) :
    Keeps c (BitVec.ofNat 4 k) (csrRun P c ins n) := by
  have hstep : ∀ d i, Keeps c (BitVec.ofNat 4 k) d → Keeps c (BitVec.ofNat 4 k) (d.step P i) := by
    intro d i hd
    have hld : d.locked (BitVec.ofNat 4 k) = true := by
      unfold Csr.locked
      rw [hd.cfg]
      exact hl
    have h := step_keeps hk hld hd.rlb i
    exact ⟨h.cfg.trans hd.cfg, h.addr.trans hd.addr, h.rlb⟩
  exact run_invariant' ⟨rfl, rfl, hr⟩ hstep n

/-- Two states with the same registers of entry `i` differ in its range only by
the register below it, and only for TOR. -/
theorem ruleCovers_congr {c d : Csr} {i : Fin 8} (hcfg : d.pmpcfg (idx i) = c.pmpcfg (idx i))
    (haddr : d.pmpaddr (idx i) = c.pmpaddr (idx i))
    (hprev : cfgA (c.pmpcfg (idx i)) ≠ 1#2 ∨ c.pmpaddr (idx i) = 0#32 ∨
      paPrev (fun j : Fin 8 => d.pmpaddr (idx j)) i = paPrev (fun j : Fin 8 => c.pmpaddr (idx j)) i)
    (a : Word) : RuleCovers d i a ↔ RuleCovers c i a := by
  unfold RuleCovers Covers
  rw [hcfg, haddr]
  rcases hprev with htor | hzero | heq
  · rw [if_neg htor, if_neg htor]
  · split_ifs
    · exact Iff.rfl
    · rw [hzero]
      simp
    · exact Iff.rfl
    · exact Iff.rfl
  · rw [heq]

/-- The entry below entry `i`. -/
def below (i : Fin 8) : Fin 8 := ⟨i.val - 1, by omega⟩

theorem idx_ne_below {i : Fin 8} (hi : i ≠ 0) : idx i ≠ idx (below i) := by
  revert i
  decide

/-- The register below entry `i` bounds it. -/
theorem paPrev_below (c : Csr) {i : Fin 8} (hi : i ≠ 0) :
    paPrev (fun j : Fin 8 => c.pmpaddr (idx j)) i = c.pmpaddr (idx (below i)) := by
  unfold paPrev
  have hval : i.val ≠ 0 := fun h => hi (Fin.ext h)
  rw [if_neg hval]
  rfl

/-- A nonempty upper bound lets some lower bound change the range. -/
theorem exists_lower_bound (pa prev : Word) (hpa : pa ≠ 0#32) :
    ∃ v a : Word, ¬ ((4 * v.toNat ≤ a.toNat ∧ a.toNat < 4 * pa.toNat) ↔
      (4 * prev.toNat ≤ a.toNat ∧ a.toNat < 4 * pa.toNat)) := by
  have hpos : 0 < pa.toNat := by
    rw [Nat.pos_iff_ne_zero]
    intro h
    exact hpa (BitVec.eq_of_toNat_eq (by simpa using h))
  by_cases hzero : prev = 0#32
  · -- the rule starts at zero: move its start to the top
    subst hzero
    refine ⟨0xFFFFFFFF#32, 0#32, ?_⟩
    simp
    omega
  · refine ⟨0#32, 0#32, ?_⟩
    have hprev : 0 < prev.toNat := by
      rw [Nat.pos_iff_ne_zero]
      intro h
      exact hzero (BitVec.eq_of_toNat_eq (by simpa using h))
    simp
    omega

/-- The inputs of one clock that only write `v` to the register `addr`. -/
def writeIn (addr : BitVec 12) (v : Word) : CsrIn where
  addr := addr
  we := true
  wdata := v
  trapSet := false
  trapCause := 0#4
  trapInterrupt := false
  trapEpc := 0#32
  trapTval := 0#32
  mret := false
  retire := false
  evBranch := false
  evBrtaken := false
  evLoad := false
  evStore := false

/-- A write to the register below a nonempty TOR rule moves the rule. -/
theorem tor_rule_moves {P : CsrParams} (hP : P.pmpRegions = 8) {c : Csr} {i : Fin 8} (hi : i ≠ 0)
    (htor : cfgA (c.pmpcfg (idx i)) = 1#2) (hpa : c.pmpaddr (idx i) ≠ 0#32)
    (hopen : c.locked (idx (below i)) = false) :
    ∃ v a, ¬ (RuleCovers (c.step P (writeIn (0x3B#8 ++ idx (below i)) v)) i a ↔
      RuleCovers c i a) := by
  obtain ⟨v, a, hdiff⟩ := exists_lower_bound _ (c.pmpaddr (idx (below i))) hpa
  refine ⟨v, a, fun hsame => hdiff ?_⟩
  obtain ⟨hcfg, haddr⟩ :=
    step_writePmpaddr hP hopen (writeIn (0x3B#8 ++ idx (below i)) v) rfl rfl rfl rfl
  unfold RuleCovers Covers at hsame
  rw [paPrev_below _ hi, paPrev_below _ hi, hcfg, haddr, htor] at hsame
  simp only [idx_ne_below hi, if_false, if_true] at hsame
  exact hsame

/-- **When a locked rule is immutable.** Every sequence of writes, traps and
MRETs leaves the rule of a locked entry as it is, unless it is a nonempty TOR
rule over an unlocked entry: a write to the register below then moves it. -/
theorem locked_rule_immutable_iff (P : CsrParams) (hP : P.pmpRegions = 8) (c : Csr) (i : Fin 8)
    (hl : c.locked (idx i) = true) (hr : c.rlb = false) :
    (∀ ins n, SameRule c (csrRun P c ins n) i) ↔
      (cfgA (c.pmpcfg (idx i)) ≠ 1#2 ∨ c.pmpaddr (idx i) = 0#32 ∨ i = 0 ∨
        c.locked (idx (below i)) = true) := by
  constructor
  · intro hall
    by_contra hcond
    rw [not_or, not_or, not_or, not_not, Bool.not_eq_true] at hcond
    obtain ⟨htor, hpa, hi, hopen⟩ := hcond
    obtain ⟨v, a, hmoved⟩ := tor_rule_moves hP hi htor hpa hopen
    exact hmoved ((hall (fun _ => writeIn (0x3B#8 ++ idx (below i)) v) 1).1 a)
  · intro hcond ins n
    have hk : Keeps c (idx i) (csrRun P c ins n) := run_keeps (by rw [hP]; exact i.isLt) hl hr ins n
    have hprev : cfgA (c.pmpcfg (idx i)) ≠ 1#2 ∨ c.pmpaddr (idx i) = 0#32 ∨
        paPrev (fun j : Fin 8 => (csrRun P c ins n).pmpaddr (idx j)) i =
          paPrev (fun j : Fin 8 => c.pmpaddr (idx j)) i := by
      rcases hcond with htor | hpa | hi | hbelow
      · exact Or.inl htor
      · exact Or.inr (Or.inl hpa)
      · -- entry 0 starts at address zero
        subst hi
        exact Or.inr (Or.inr rfl)
      · -- the lock of the entry below guards the bound
        by_cases hi : i = 0
        · subst hi
          exact Or.inr (Or.inr rfl)
        · refine Or.inr (Or.inr ?_)
          rw [paPrev_below _ hi, paPrev_below _ hi]
          have hlt : (below i).val < P.pmpRegions := by
            rw [hP]
            exact (below i).isLt
          exact (run_keeps hlt hbelow hr ins n).addr
    refine ⟨ruleCovers_congr hk.cfg hk.addr hprev, ?_, ?_, ?_, ?_, hk.rlb⟩
    · rw [hk.cfg]
    · rw [hk.cfg]
    · rw [hk.cfg]
    · unfold Csr.locked
      rw [hk.cfg]
      exact hl

/-- Writes to the address of a locked NA4 rule in entry 0 of an otherwise reset file. -/
theorem locked_rule_immutable_iff_na4 :
    SameRule { pmpcfg := fun k => if k = 0#4 then 0x97#8 else 0#8 }
      (csrRun (Params.csr { secure := true })
        { pmpcfg := fun k => if k = 0#4 then 0x97#8 else 0#8 }
        (fun n => writeIn 0x3B0#12 (BitVec.ofNat 32 n)) 5) 0 :=
  (locked_rule_immutable_iff (Params.csr { secure := true }) rfl _ 0 (by decide) (by decide)).mpr
    (Or.inl (by decide)) _ 5

/-- A locked TOR rule over `[0, 64)` in entry 1 moves when `pmpaddr0`, whose
entry is not locked, is written. -/
theorem locked_tor_rule_moves :
    ¬ ∀ (ins : Nat → CsrIn) (m n : Nat) (i : Fin 8),
      (csrRun (Params.csr { secure := true }) {} ins m).locked (idx i) = true →
      (csrRun (Params.csr { secure := true }) {} ins m).rlb = false →
      SameRule (csrRun (Params.csr { secure := true }) {} ins m)
        (csrRun (Params.csr { secure := true }) {} ins (m + n)) i := by
  intro h
  let ins : Nat → CsrIn := fun n =>
    match n with
    | 0 => writeIn 0x3B1#12 16#32
    | 1 => writeIn 0x3A0#12 0x8F00#32
    | _ => writeIn 0x3B0#12 8#32
  have hcov := (h ins 2 1 1 (by decide) (by decide)).1 0#32
  revert hcov
  decide

end ThreeSippEs.LockedRules
