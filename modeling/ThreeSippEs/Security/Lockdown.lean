import ThreeSippEs.Security.LockedRules

/-!
# Machine-mode lockdown

With MML set, M-mode executes only what a locked code rule covers, and such a rule
can no longer be created. So the code that M-mode can ever run again is fixed when
firmware sets MML: later software, in whatever mode, may shadow it but not add to
it.

- `MCode`: the rule lets M-mode execute;
- `Sealed`: what every run from a locked-down state keeps;
- `mml_lockdown`: all that M-mode may execute afterwards.
-/

namespace ThreeSippEs.Lockdown

open Clocked Pmp PmpRules LockedRules

/-- Under MML a rule with this configuration lets M-mode execute. -/
def MCode (v : BitVec 8) : Prop := (ruleRights v true true).x = true

instance (v : BitVec 8) : Decidable (MCode v) := by
  unfold MCode
  infer_instance

/-- Such a rule is locked, and a write under MML may not create it. -/
theorem mcode_blocked {v : BitVec 8} (h : MCode v) : Csr.mmlBlocked v = true := by
  revert v
  decide

/-- The code rules of `d` are locked rules of `c`, and MML and RLB stay as they are. -/
structure Sealed (c d : Csr) : Prop where
  mml : d.mml = true
  rlb : d.rlb = false
  code : ∀ k, MCode (d.pmpcfg k) → d.pmpcfg k = c.pmpcfg k

section Step

variable {P : CsrParams} {c d : Csr}

/-- `Sealed` passes through a branch. -/
theorem Sealed.ite {d' : Csr} {p : Prop} [Decidable p] (h : Sealed c d) (h' : Sealed c d') :
    Sealed c (if p then d else d') :=
  iteInduction (motive := Sealed c) (fun _ => h) fun _ => h'

theorem Sealed.of_rules {d' : Csr} (h : Sealed c d) (hcfg : d'.pmpcfg = d.pmpcfg)
    (hsec : d'.mseccfg = d.mseccfg) : Sealed c d' := by
  refine ⟨?_, ?_, fun k hk => ?_⟩
  · unfold Csr.mml
    rw [hsec]
    exact h.mml
  · unfold Csr.rlb
    rw [hsec]
    exact h.rlb
  · rw [hcfg] at hk ⊢
    exact h.code k hk

/-- A byte that a write reaches is no code rule. -/
theorem writePmpcfg_code (h : Sealed c d) (addr : BitVec 12) (v : Word) (k : BitVec 4)
    (hk : MCode (d.writePmpcfg addr v k)) : d.writePmpcfg addr v k = c.pmpcfg k := by
  unfold Csr.writePmpcfg at hk ⊢
  split at hk
  case isTrue hlane =>
    have hopen := hlane.2
    unfold Csr.cfgLaneOk at hopen
    rw [h.mml, h.rlb, mcode_blocked hk] at hopen
    simp at hopen
  case isFalse hlane =>
    rw [if_neg hlane]
    exact h.code k hk

/-- MML is sticky. -/
theorem writeMseccfg_mml (hm : d.mml = true) (v : Word) :
    (d.writeMseccfg P v).getLsbD 0 = true := by
  have hbit : (d.mseccfg.extractLsb 0 0).getLsbD 0 = true := by
    unfold Csr.mml at hm
    rw [BitVec.getLsbD_extractLsb]
    simpa using hm
  unfold Csr.writeMseccfg
  rw [BitVec.getLsbD_append, if_pos (by decide), BitVec.getLsbD_or, hbit]
  rfl

/-- A software write keeps the seal as long as some rule is locked. -/
theorem Sealed.write (h : Sealed c d) (hany : d.anyLocked P = true) (addr : BitVec 12)
    (v : Word) : Sealed c (d.write P addr v) := by
  unfold Csr.write
  refine Sealed.ite (h.of_rules rfl rfl) ?_
  refine Sealed.ite ⟨h.mml, h.rlb, fun k hk => writePmpcfg_code h _ _ k hk⟩ ?_
  refine Sealed.ite ⟨writeMseccfg_mml h.mml v, writeMseccfg_rlb hany h.rlb v, h.code⟩ ?_
  -- no other register holds a configuration
  iterate 7 refine Sealed.ite (h.of_rules rfl rfl) ?_
  split
  · exact h.of_rules rfl rfl
  · exact h

/-- **One clock** keeps the seal, for any mixture of trap, MRET and write. -/
theorem Sealed.step (h : Sealed c d) (hany : d.anyLocked P = true) (i : CsrIn) :
    Sealed c (d.step P i) := by
  have hmret : Sealed c (d.mretReturn P) := by
    unfold Csr.mretReturn
    exact Sealed.ite (h.of_rules rfl rfl) (h.of_rules rfl rfl)
  unfold Csr.step
  refine Sealed.ite (h.of_rules rfl rfl) ?_
  refine Sealed.ite (hmret.of_rules rfl rfl) ?_
  exact Sealed.ite ((h.write hany i.addr i.wdata).of_rules rfl rfl) (h.of_rules rfl rfl)

end Step

/-! ## Runs -/

section Run

variable {P : CsrParams} {c : Csr}

/-- **Every run** keeps the seal of a file with a locked rule. -/
theorem run_sealed {k : Nat} (hk : k < P.pmpRegions) (hl : c.locked (BitVec.ofNat 4 k) = true)
    (hm : c.mml = true) (hr : c.rlb = false) (ins : Nat → CsrIn) (n : Nat) :
    Sealed c (csrRun P c ins n) := by
  induction n with
  | zero => exact ⟨hm, hr, fun _ _ => rfl⟩
  | succ n ih =>
    have hlocked : (csrRun P c ins n).locked (BitVec.ofNat 4 k) = true := by
      unfold Csr.locked
      rw [(run_keeps hk hl hr ins n).cfg]
      exact hl
    exact ih.step (anyLocked_of_locked hk hlocked) (ins n)

/-- The locked code rules of `c` that later writes cannot move: a TOR rule needs a
locked entry below it. -/
def Anchored (c : Csr) : Prop :=
  ∀ i : Fin 8, MCode (c.pmpcfg (idx i)) → cfgA (c.pmpcfg (idx i)) = 1#2 →
    i = 0 ∨ c.locked (idx (below i)) = true

instance (c : Csr) : Decidable (Anchored c) := by
  unfold Anchored
  infer_instance

/-- A code rule is locked. -/
theorem locked_of_mcode {k : BitVec 4} (h : MCode (c.pmpcfg k)) : c.locked k = true := by
  have hb := mcode_blocked h
  unfold Csr.mmlBlocked at hb
  rw [Bool.and_eq_true] at hb
  exact hb.1

/-- **Lockdown**: once MML is set with RLB clear and a locked rule, whatever the
software writes, M-mode may execute an address only if a locked code rule of that
moment covers it. -/
theorem mml_lockdown (P : CsrParams) (hP : P.pmpRegions = 8) (c : Csr) (hm : c.mml = true)
    (hr : c.rlb = false) (hany : ∃ i : Fin 8, c.locked (idx i) = true) (hanch : Anchored c)
    (ins : Nat → CsrIn) (n : Nat) (a : Word)
    (hexec : XIn.pmpFault (csrRun P c ins n) a { privM := true, doX := true } = false) :
    ∃ i : Fin 8, c.locked (idx i) = true ∧ MCode (c.pmpcfg (idx i)) ∧ RuleCovers c i a := by
  obtain ⟨j, hj⟩ := hany
  have hseal := run_sealed (by rw [hP]; exact j.isLt) hj hm hr ins n
  have hperm : Permits (fun i : Fin 8 => (csrRun P c ins n).pmpcfg (idx i))
      (fun i : Fin 8 => (csrRun P c ins n).pmpaddr (idx i)) { privM := true, doX := true }
      { mmwp := (csrRun P c ins n).mmwp, mml := (csrRun P c ins n).mml } a :=
    (fault_eq_false_iff ..).mp hexec
  rw [hseal.mml] at hperm
  rcases hperm with ⟨i, hcovers, -, hallow⟩ | ⟨-, -, -, hno⟩
  · have hcode : MCode ((csrRun P c ins n).pmpcfg (idx i)) := hallow.2.2 rfl
    have hcfg := hseal.code _ hcode
    rw [hcfg] at hcode
    have hl := locked_of_mcode hcode
    have hk := run_keeps (P := P) (k := i.val) (by rw [hP]; exact i.isLt) hl hr ins n
    refine ⟨i, hl, hcode, (ruleCovers_congr hk.cfg hk.addr ?_ a).mp hcovers⟩
    by_cases htor : cfgA (c.pmpcfg (idx i)) = 1#2
    · -- the register below a TOR rule is locked as well
      refine Or.inr (Or.inr ?_)
      rcases hanch i hcode htor with rfl | hbelow
      · rfl
      · by_cases hi : i = 0
        · subst hi
          rfl
        · rw [paPrev_below _ hi, paPrev_below _ hi]
          exact (run_keeps (by rw [hP]; exact (below i).isLt) hbelow hr ins n).addr
    · exact Or.inl htor
  · exact absurd ⟨rfl, rfl⟩ hno

/-- MML with a locked code rule over the first 64 bytes. -/
def lockedDown : Csr where
  pmpcfg := fun k => if k = 0#4 then 0x9D#8 else 0#8
  pmpaddr := fun k => if k = 0#4 then 7#32 else 0#32
  mseccfg := 1#3

/-- Software tries to lock a code rule over the whole memory behind it. -/
theorem mml_lockdown_write :
    ∃ i : Fin 8, lockedDown.locked (idx i) = true ∧ MCode (lockedDown.pmpcfg (idx i)) ∧
      RuleCovers lockedDown i 60#32 :=
  mml_lockdown (Params.csr { secure := true }) rfl lockedDown (by decide) (by decide) ⟨0, by decide⟩
    (by decide)
    (fun n => if n = 0 then writeIn 0x3B1#12 0xFFFFFFFF#32 else writeIn 0x3A0#12 0x00009D00#32)
    2 60#32 (by decide +kernel)

end Run

end ThreeSippEs.Lockdown
