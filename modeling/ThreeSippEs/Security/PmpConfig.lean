import ThreeSippEs.Core.System
import ThreeSippEs.Security.LockedRules

/-!
# The PMP that software sees

The CSR file stores and reads back sixteen PMP entries, the checkers and the lock
of RLB use the first eight.

- `permits_front_iff`: when the decision on the first rules of a configuration is
  the decision on all of them;
- `Expected`, `rlbExpected`: the decision and the lock rule, from what the CSRs
  read back;
- `pmp_config_iff`: when the core follows them.
-/

namespace ThreeSippEs.PmpConfig

open Pmp PmpRules

/-! ## The first rules of a configuration -/

/-- The decision for a byte that no rule covers. -/
def Default (acc : Pmp.Access) (mode : Mode) : Prop :=
  acc.privM = true ∧ mode.mmwp = false ∧ ¬ (mode.mml = true ∧ acc.doX = true)

section Front

variable {N : Nat} {cfg : Fin N → BitVec 8} {addrreg : Fin N → Word} {acc : Pmp.Access}
  {mode : Mode}
  {a : Word}

/-- Rule `i` covers the byte `a`. -/
def RuleHas (cfg : Fin N → BitVec 8) (addrreg : Fin N → Word) (a : Word) (i : Fin N) : Prop :=
  Covers (cfg i) (addrreg i).toNat (paPrev addrreg i).toNat a.toNat

/-- Rule `i` is the one that decides about the byte `a`. -/
def Decides (cfg : Fin N → BitVec 8) (addrreg : Fin N → Word) (a : Word) (i : Fin N) : Prop :=
  RuleHas cfg addrreg a i ∧ ∀ j < i, ¬ RuleHas cfg addrreg a j

theorem none_or_decides (cfg : Fin N → BitVec 8) (addrreg : Fin N → Word) (a : Word) :
    (∀ i, ¬ RuleHas cfg addrreg a i) ∨ ∃ i, Decides cfg addrreg a i :=
  none_or_lowest (RuleHas cfg addrreg a)

theorem Decides.unique {i j : Fin N} (hi : Decides cfg addrreg a i)
    (hj : Decides cfg addrreg a j) : i = j :=
  lowest_unique hi.1 hi.2 hj.1 hj.2

/-- The rule that decides gives its rights. -/
theorem permits_of_decides {i : Fin N} (h : Decides cfg addrreg a i) :
    Permits cfg addrreg acc mode a ↔ (ruleRights (cfg i) acc.privM mode.mml).allow acc := by
  constructor
  · rintro (⟨j, hj, hlow, hallow⟩ | ⟨hno, -⟩)
    · rw [h.unique ⟨hj, hlow⟩]
      exact hallow
    · exact absurd h.1 (hno i)
  · intro hallow
    exact .inl ⟨i, h.1, h.2, hallow⟩

/-- Without one, the default decides. -/
theorem permits_of_none (h : ∀ i, ¬ RuleHas cfg addrreg a i) :
    Permits cfg addrreg acc mode a ↔ Default acc mode := by
  constructor
  · rintro (⟨i, hi, -⟩ | ⟨-, hdef⟩)
    · exact absurd hi (h i)
    · exact hdef
  · intro hdef
    exact .inr ⟨h, hdef⟩

variable {n : Nat}

/-- The range of a rule depends on the rules below it only. -/
theorem ruleHas_castLE (hn : n ≤ N) (cfg : Fin N → BitVec 8) (addrreg : Fin N → Word) (a : Word)
    (i : Fin n) :
    RuleHas (fun k : Fin n => cfg (k.castLE hn)) (fun k => addrreg (k.castLE hn)) a i ↔
      RuleHas cfg addrreg a (i.castLE hn) := by
  have hprev : paPrev (fun k : Fin n => addrreg (k.castLE hn)) i =
      paPrev addrreg (i.castLE hn) := rfl
  unfold RuleHas
  rw [hprev]

/-- A rule among the first `n` decides for all when it decides for them. -/
theorem decides_castLE (hn : n ≤ N) {i : Fin n} :
    Decides (fun k : Fin n => cfg (k.castLE hn)) (fun k => addrreg (k.castLE hn)) a i ↔
      Decides cfg addrreg a (i.castLE hn) := by
  unfold Decides
  rw [ruleHas_castLE hn]
  refine and_congr_right fun _ => ⟨fun h j hj => ?_, fun h j hj => ?_⟩
  · have hlt : j.val < n := lt_trans hj i.isLt
    exact (ruleHas_castLE hn cfg addrreg a ⟨j.val, hlt⟩).not.mp (h ⟨j.val, hlt⟩ hj)
  · exact (ruleHas_castLE hn cfg addrreg a j).not.mpr (h (j.castLE hn) hj)

/-- **The first `n` rules decide as all of them** exactly when the deciding rule,
if it is a later one, gives the access what the default gives it. -/
theorem permits_front_iff (hn : n ≤ N) :
    (Permits (fun k : Fin n => cfg (k.castLE hn)) (fun k => addrreg (k.castLE hn)) acc mode a ↔
      Permits cfg addrreg acc mode a) ↔
    ∀ i : Fin N, n ≤ i.val → Decides cfg addrreg a i →
      ((ruleRights (cfg i) acc.privM mode.mml).allow acc ↔ Default acc mode) := by
  rcases none_or_decides cfg addrreg a with hnone | ⟨i, hi⟩
  · have hfront : ∀ k : Fin n, ¬ RuleHas (fun k : Fin n => cfg (k.castLE hn))
        (fun k => addrreg (k.castLE hn)) a k :=
      fun k => (ruleHas_castLE hn cfg addrreg a k).not.mpr (hnone _)
    rw [permits_of_none hnone, permits_of_none hfront]
    exact ⟨fun _ i _ hi => absurd hi.1 (hnone i), fun _ => Iff.rfl⟩
  · by_cases hlt : i.val < n
    · have hfront : Decides (fun k : Fin n => cfg (k.castLE hn)) (fun k => addrreg (k.castLE hn)) a
          ⟨i.val, hlt⟩ := (decides_castLE hn).mpr hi
      rw [permits_of_decides hi, permits_of_decides hfront]
      refine ⟨fun _ j hj hdec => ?_, fun _ => Iff.rfl⟩
      rw [hdec.unique hi] at hj
      exact absurd hlt (Nat.not_lt.mpr hj)
    · have hfront : ∀ k : Fin n, ¬ RuleHas (fun k : Fin n => cfg (k.castLE hn))
          (fun k => addrreg (k.castLE hn)) a k := by
        intro k
        refine (ruleHas_castLE hn cfg addrreg a k).not.mpr (hi.2 _ ?_)
        show k.val < i.val
        exact lt_of_lt_of_le k.isLt (Nat.not_lt.mp hlt)
      rw [permits_of_decides hi, permits_of_none hfront]
      constructor
      · intro h j _ hdec
        rw [hdec.unique hi]
        exact h.symm
      · intro h
        exact (h i (Nat.not_lt.mp hlt) hi).symm

end Front

/-! ## What software reads -/

section Seen

variable (P : CsrParams) (c : Csr) (irq : IrqLines)

/-- The configuration byte of entry `k`, as the `pmpcfg` registers read. -/
def cfgSeen (k : Fin 16) : BitVec 8 :=
  (c.rdata P irq (0x0E8#10 ++ BitVec.ofNat 2 (k.val / 4))).extractLsb' (8 * (k.val % 4)) 8

/-- The address register of entry `k`, as it reads. -/
def addrSeen (k : Fin 16) : Word := c.rdata P irq (0x3B#8 ++ BitVec.ofNat 4 k.val)

def mseccfgSeen : Word := c.rdata P irq csrMseccfg

/-- The decision that the registers, as they read, call for. -/
def Expected (acc : Pmp.Access) (a : Word) : Prop :=
  Permits (cfgSeen P c irq) (addrSeen P c irq) acc
    { mmwp := (mseccfgSeen P c irq).getLsbD 1, mml := (mseccfgSeen P c irq).getLsbD 0 } a

/-- The value of RLB after a write of `v` to `mseccfg` that the registers, as they
read, call for: with RLB clear and a rule locked it cannot be set. -/
def rlbExpected (v : Word) : Bool :=
  if (mseccfgSeen P c irq).getLsbD 2 ∨ ∀ k, cfgL (cfgSeen P c irq k) = false then v.getLsbD 2
  else false

variable {P}

/-- The bytes of a word. -/
theorem lanes (b3 b2 b1 b0 : BitVec 8) :
    (b3 ++ b2 ++ b1 ++ b0).extractLsb' 0 8 = b0 ∧ (b3 ++ b2 ++ b1 ++ b0).extractLsb' 8 8 = b1 ∧
    (b3 ++ b2 ++ b1 ++ b0).extractLsb' 16 8 = b2 ∧
    (b3 ++ b2 ++ b1 ++ b0).extractLsb' 24 8 = b3 := by
  refine ⟨?_, ?_, ?_, ?_⟩ <;> ext i hi <;>
    simp only [BitVec.getElem_extractLsb', BitVec.getLsbD_append] <;>
    grind

/-- The addresses 0x3A0..0x3A3 select the configuration registers. -/
theorem pmpcfg_select (y jb : BitVec 2) :
    Csr.isPmpaddr (0x0E8#10 ++ y) = false ∧ Csr.isPmpcfg (0x0E8#10 ++ y) = true ∧
    Csr.cfgIndex (0x0E8#10 ++ y) jb = y ++ jb := by
  revert y jb
  decide

/-- Entry `k` is in register `k / 4`, lane `k % 4`. -/
theorem entry_index (k : Fin 16) :
    BitVec.ofNat 4 k.val = BitVec.ofNat 2 (k.val / 4) ++ BitVec.ofNat 2 (k.val % 4) := by
  revert k
  decide

/-- The configuration registers read back what they hold. -/
theorem cfgSeen_eq (hP : 0 < P.pmpRegions) (k : Fin 16) :
    cfgSeen P c irq k = c.pmpcfg (BitVec.ofNat 4 k.val) := by
  rw [entry_index]
  have hlane : k.val % 4 < 4 := Nat.mod_lt _ (by decide)
  unfold cfgSeen
  generalize k.val % 4 = lane at hlane ⊢
  generalize BitVec.ofNat 2 (k.val / 4) = y
  have hread : c.rdata P irq (0x0E8#10 ++ y) =
      c.pmpcfg (y ++ 3#2) ++ c.pmpcfg (y ++ 2#2) ++ c.pmpcfg (y ++ 1#2) ++ c.pmpcfg (y ++ 0#2) := by
    have hsel := fun jb => pmpcfg_select y jb
    unfold Csr.rdata
    rw [(hsel 0#2).1, (hsel 0#2).2.1, (hsel 0#2).2.2, (hsel 1#2).2.2, (hsel 2#2).2.2,
      (hsel 3#2).2.2, if_neg (by simp), if_pos ⟨hP, rfl⟩]
  rw [hread]
  obtain ⟨h0, h1, h2, h3⟩ := lanes (c.pmpcfg (y ++ 3#2)) (c.pmpcfg (y ++ 2#2))
    (c.pmpcfg (y ++ 1#2)) (c.pmpcfg (y ++ 0#2))
  interval_cases lane
  · exact h0
  · exact h1
  · exact h2
  · exact h3

theorem addrSeen_eq (hP : 0 < P.pmpRegions) (k : Fin 16) :
    addrSeen P c irq k = c.pmpaddr (BitVec.ofNat 4 k.val) := by
  obtain ⟨hsel, hidx⟩ := LockedRules.pmpaddr_select (BitVec.ofNat 4 k.val)
  unfold addrSeen Csr.rdata
  rw [if_pos ⟨hP, hsel⟩, hidx]

theorem mseccfgSeen_eq (hP : 0 < P.pmpRegions) :
    mseccfgSeen P c irq = c.mseccfg.setWidth 32 := by
  unfold mseccfgSeen Csr.rdata
  rw [if_neg fun h => absurd h.2 (by decide), if_neg fun h => absurd h.2 (by decide),
    if_pos ⟨hP, rfl⟩]

end Seen

/-! ## What the core does -/

section Core

variable {P : Params} (c : Csr) (irq : IrqLines)

/-- The sixteen entries that the CSR file holds. -/
def cfgHeld (k : Fin 16) : BitVec 8 := c.pmpcfg (BitVec.ofNat 4 k.val)
def addrHeld (k : Fin 16) : Word := c.pmpaddr (BitVec.ofNat 4 k.val)
def modeHeld : Mode := { mmwp := c.mmwp, mml := c.mml }

/-- Where one of the entries 8..15 decides about the byte, it gives the access what
the default gives it. -/
def FrontSuffices (acc : Pmp.Access) (a : Word) : Prop :=
  ∀ i : Fin 16, 8 ≤ i.val → Decides (cfgHeld c) (addrHeld c) a i →
    ((ruleRights (cfgHeld c i) acc.privM c.mml).allow acc ↔ Default acc (modeHeld c))

/-- RLB is set, or one of the entries 0..7 is locked if any entry is. -/
def LockSuffices : Prop :=
  c.rlb = true ∨ ∀ i : Fin 16, cfgL (cfgHeld c i) = true →
    ∃ k : Fin 16, k.val < 8 ∧ cfgL (cfgHeld c k) = true

variable {c irq}

theorem expected_iff (hP : P.secure = true) {acc : Pmp.Access} {a : Word} :
    Expected P.csr c irq acc a ↔ Permits (cfgHeld c) (addrHeld c) acc (modeHeld c) a := by
  have hpos : 0 < P.csr.pmpRegions := by
    show 0 < if P.secure then 8 else 0
    rw [hP]
    decide
  have hcfg : cfgSeen P.csr c irq = cfgHeld c := funext (cfgSeen_eq c irq hpos)
  have haddr : addrSeen P.csr c irq = addrHeld c := funext (addrSeen_eq c irq hpos)
  unfold Expected
  rw [hcfg, haddr, mseccfgSeen_eq c irq hpos]
  have hmode : ({ mmwp := (c.mseccfg.setWidth 32).getLsbD 1
                  mml := (c.mseccfg.setWidth 32).getLsbD 0 } : Mode) = modeHeld c := by
    unfold modeHeld Csr.mmwp Csr.mml
    simp
  rw [hmode]

/-- A checker of the core decides as the registers call for exactly when the first
eight entries suffice. -/
theorem pmpFault_agrees_iff (hP : P.secure = true) {acc : Pmp.Access} {a : Word} :
    (XIn.pmpFault c a acc = false ↔ Expected P.csr c irq acc a) ↔ FrontSuffices c acc a := by
  have hfault : XIn.pmpFault c a acc = false ↔
      Permits (fun k : Fin 8 => cfgHeld c (k.castLE (by decide)))
        (fun k => addrHeld c (k.castLE (by decide))) acc (modeHeld c) a :=
    fault_eq_false_iff _ _ a acc (modeHeld c)
  rw [hfault, expected_iff hP]
  exact permits_front_iff (by decide)

/-- RLB after a write of `mseccfg`. -/
theorem rlb_write (hP : P.secure = true) (v : Word) :
    (c.write P.csr csrMseccfg v).rlb =
      if c.rlb || !c.anyLocked P.csr then v.getLsbD 2 else c.rlb := by
  have hpos : 0 < P.csr.pmpRegions := by
    show 0 < if P.secure then 8 else 0
    rw [hP]
    decide
  have hwrite : c.write P.csr csrMseccfg v = { c with mseccfg := c.writeMseccfg P.csr v } := by
    unfold Csr.write
    rw [if_neg fun h => absurd h.2 (by decide), if_neg fun h => absurd h.2 (by decide),
      if_pos ⟨hpos, rfl⟩]
  rw [hwrite]
  show (c.writeMseccfg P.csr v).getLsbD 2 = _
  unfold Csr.writeMseccfg
  rw [BitVec.getLsbD_append, BitVec.getLsbD_append]
  by_cases hg : (c.rlb || !c.anyLocked P.csr) = true
  · rw [if_pos hg, if_pos hg]
    simp
  · rw [if_neg hg, if_neg hg]
    simp [Csr.rlb]

/-- Some entry among the first eight is locked. -/
theorem anyLocked_iff (hP : P.secure = true) :
    c.anyLocked P.csr = true ↔ ∃ k : Fin 16, k.val < 8 ∧ cfgL (cfgHeld c k) = true := by
  have h8 : P.csr.pmpRegions = 8 := by
    show (if P.secure then 8 else 0) = 8
    rw [hP, if_pos rfl]
  unfold Csr.anyLocked
  rw [h8, List.any_eq_true]
  constructor
  · rintro ⟨k, hk, hl⟩
    have hk8 := List.mem_range.mp hk
    exact ⟨⟨k, by omega⟩, hk8, hl⟩
  · rintro ⟨k, hk, hl⟩
    exact ⟨k.val, List.mem_range.mpr hk, hl⟩

/-- RLB follows the lock rule, as the registers call for it, exactly when the first
eight entries suffice. -/
theorem rlb_agrees_iff (hP : P.secure = true) :
    (∀ v, (c.write P.csr csrMseccfg v).rlb = rlbExpected P.csr c irq v) ↔ LockSuffices c := by
  have hpos : 0 < P.csr.pmpRegions := by
    show 0 < if P.secure then 8 else 0
    rw [hP]
    decide
  have hseen : ∀ v, rlbExpected P.csr c irq v =
      if c.rlb = true ∨ ∀ k, cfgL (cfgHeld c k) = false then v.getLsbD 2 else false := by
    intro v
    unfold rlbExpected
    rw [mseccfgSeen_eq c irq hpos, show cfgSeen P.csr c irq = cfgHeld c from
      funext (cfgSeen_eq c irq hpos)]
    have hbit : (c.mseccfg.setWidth 32).getLsbD 2 = c.rlb := by
      unfold Csr.rlb
      simp
    rw [hbit]
  unfold LockSuffices
  cases hr : c.rlb with
  | true =>
    refine ⟨fun _ => .inl rfl, fun _ v => ?_⟩
    rw [rlb_write hP, hseen, hr]
    simp
  | false =>
    have hrule : ∀ v, (c.write P.csr csrMseccfg v).rlb = (!c.anyLocked P.csr && v.getLsbD 2) := by
      intro v
      rw [rlb_write hP, hr]
      cases c.anyLocked P.csr <;> rfl
    constructor
    · intro h
      right
      intro i hi
      by_contra hnone
      -- no entry below 8 is locked, so the core sets RLB
      have hany : c.anyLocked P.csr = false := by
        rw [← Bool.not_eq_true, anyLocked_iff hP]
        exact hnone
      have h4 := h 4#32
      have hlocked : ¬ ∀ k, cfgL (cfgHeld c k) = false := by
        intro hno
        exact Bool.false_ne_true ((hno i).symm.trans hi)
      rw [hrule, hseen, hany, hr, if_neg (by simpa using hlocked)] at h4
      revert h4
      decide
    · rintro (h | h) v
      · cases h
      · rw [hrule, hseen, hr]
        by_cases hno : ∀ k, cfgL (cfgHeld c k) = false
        · have hany : c.anyLocked P.csr = false := by
            rw [← Bool.not_eq_true, anyLocked_iff hP]
            rintro ⟨k, -, hk⟩
            exact Bool.false_ne_true ((hno k).symm.trans hk)
          rw [hany, if_pos (.inr hno)]
          rfl
        · have hany : c.anyLocked P.csr = true := by
            rw [anyLocked_iff hP]
            obtain ⟨i, hi⟩ := not_forall.mp hno
            exact h i (by simpa using hi)
          rw [hany, if_neg (by simpa using hno)]
          rfl

/-- **When the PMP is the one that software sees**: in every state of every run, a
checker decides about a byte as the PMP registers read back at that moment call
for, and the lock of RLB takes every locked entry into account, exactly as far as
the entries 0..7 suffice. -/
theorem pmp_config_iff (hP : P.secure = true) (s₀ : Core P) (i₀ : CoreIn) (ins : Nat → CoreIn)
    (n : Nat) (irq : IrqLines) :
    (∀ acc a, (XIn.pmpFault (Core.runFrom s₀ i₀ ins n).csr a acc = false ↔
        Expected P.csr (Core.runFrom s₀ i₀ ins n).csr irq acc a) ↔
      FrontSuffices (Core.runFrom s₀ i₀ ins n).csr acc a) ∧
    ((∀ v, ((Core.runFrom s₀ i₀ ins n).csr.write P.csr csrMseccfg v).rlb =
        rlbExpected P.csr (Core.runFrom s₀ i₀ ins n).csr irq v) ↔
      LockSuffices (Core.runFrom s₀ i₀ ins n).csr) :=
  ⟨fun _ _ => pmpFault_agrees_iff hP, rlb_agrees_iff hP⟩

end Core

/-- M-mode locks address 0 and the bytes around it through entry 8. -/
def entry8 : Memory where
  imem := .ofWords
    [0x3B8FD073#32,   -- csrrwi x0, pmpaddr8, 31
     0x09800093#32,   -- addi x1, x0, 0x98
     0x3A209073#32]   -- csrrw x0, pmpcfg2, x1
  dmem := fun _ => 0#8

/-- Before the write of `pmpcfg2`, at clock 3, the PMP is the one that software
sees. -/
theorem pmp_config_off :
    XIn.pmpFault (entry8.bench { secure := true } {} 3).csr 0#32 { privM := true, doR := true } =
      false ↔
    Expected (Params.csr { secure := true }) (entry8.bench { secure := true } {} 3).csr {}
      { privM := true, doR := true } 0#32 := by
  have h := pmp_config_iff rfl (Core.powerUp { secure := true })
    (entry8.resetIn { secure := true } {}) (entry8.inputs { secure := true } {}) 3 {}
  rw [Memory.runFrom_inputs] at h
  refine (h.1 _ _).mpr fun i hi hdec => ?_
  -- the entries 8..15 are off
  have hoff : ∀ i : Fin 16, cfgA (cfgHeld (entry8.bench { secure := true } {} 3).csr i) = 0#2 := by
    decide +kernel
  have hcov := hdec.1
  unfold RuleHas Covers at hcov
  rw [if_pos (hoff i)] at hcov
  exact hcov.elim

/-- After it, at clock 4, a read of address 0 passes. -/
theorem entry8_ignored :
    ¬ ∀ (s₀ : Core { secure := true }) (i₀ : CoreIn) (ins : Nat → CoreIn) (n : Nat)
      (irq : IrqLines) (acc : Pmp.Access) (a : Word),
      (XIn.pmpFault (Core.runFrom s₀ i₀ ins n).csr a acc = false ↔
        Expected (Params.csr { secure := true }) (Core.runFrom s₀ i₀ ins n).csr irq acc a) := by
  intro h
  have h' := h (Core.powerUp _) (entry8.resetIn { secure := true } {})
    (entry8.inputs { secure := true } {}) 4 {} { privM := true, doR := true } 0#32
  rw [Memory.runFrom_inputs] at h'
  unfold Expected at h'
  rw [← fault_eq_false_iff] at h'
  revert h'
  decide +kernel

end ThreeSippEs.PmpConfig
