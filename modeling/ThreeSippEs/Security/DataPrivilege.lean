import ThreeSippEs.Core.Clock
import ThreeSippEs.Security.LockedRules

/-!
# The privilege of data accesses

MPRV lends the privilege MPP to the data accesses of M-mode. Nothing may carry
that loan into U-mode: MRET is the only way down, and a return below M clears
MPRV. `MprvConfined` is the invariant, `step_mprvConfined` one clock of the
CSR file with any combination of trap, MRET and write, and
`data_privilege` every run from reset in which software writes only in M-mode.
-/

namespace ThreeSippEs.DataPrivilege

open Clocked LockedRules

@[simp] theorem mprv_setMprv (v : Word) (b : Bool) : Mstatus.mprv (Mstatus.setMprv v b) = b := by
  unfold Mstatus.mprv Mstatus.setMprv
  rw [BitVec.getLsbD_append, BitVec.getLsbD_append]
  simp

/-! ## The invariant -/

/-- The privileges are implemented ones, and U-mode runs with MPRV clear. -/
structure MprvConfined (c : Csr) : Prop where
  legal : c.Legal
  mprv : c.priv = 0b00#2 → Mstatus.mprv c.mstatus = false

section Step

variable {P : CsrParams} {c : Csr}

/-- A trap leaves M-mode behind it. -/
theorem MprvConfined.trapEntry (hu : P.uMode = true) (h : MprvConfined c) (i : CsrIn) :
    MprvConfined (c.trapEntry P i) := by
  refine ⟨h.legal.trapEntry i, fun hpriv => ?_⟩
  simp [Csr.trapEntry, hu] at hpriv

/-- MRET restores MPP. When that is below M it clears MPRV. -/
theorem MprvConfined.mretReturn (hu : P.uMode = true) (h : MprvConfined c) :
    MprvConfined (c.mretReturn P) := by
  refine ⟨h.legal.mretReturn, ?_⟩
  unfold Csr.mretReturn
  rw [if_pos hu]
  dsimp only
  intro hpriv
  have hne : Mstatus.mpp c.mstatus ≠ 0b11#2 := by
    rw [hpriv]
    decide
  rw [if_pos hne]
  exact mprv_setMprv _ _

/-- A write from M-mode may set MPRV: the file stays in M-mode. -/
theorem MprvConfined.write (h : MprvConfined c) (hM : c.priv = 0b11#2) (addr : BitVec 12)
    (v : Word) : MprvConfined (c.write P addr v) := by
  refine ⟨h.legal.write addr v, fun hpriv => ?_⟩
  rw [Csr.write_priv, hM] at hpriv
  exact absurd hpriv (by decide)

/-- The counters take no part. -/
theorem MprvConfined.counters (h : MprvConfined c) (ctr : Counters) :
    MprvConfined { c with ctr := ctr } :=
  ⟨⟨h.legal.priv, h.legal.mpp⟩, h.mprv⟩

/-- **One clock** keeps the invariant, for any combination of trap, MRET and a
write from M-mode. -/
theorem step_mprvConfined (hu : P.uMode = true) (h : MprvConfined c) (i : CsrIn)
    (hwe : i.we = true → c.priv = 0b11#2) : MprvConfined (c.step P i) := by
  unfold Csr.step
  split_ifs with htrap hmret hw
  · exact (h.trapEntry hu i).counters _
  · exact (h.mretReturn hu).counters _
  · exact (h.write (hwe hw) _ _).counters _
  · exact h.counters _

end Step

/-! ## Runs -/

theorem reset_mprvConfined : MprvConfined {} :=
  ⟨⟨Or.inr rfl, Or.inl rfl⟩, fun h => absurd h (by decide)⟩

/-- With MPRV clear the data privilege is the current one. -/
theorem dataM_of_user {P : CsrParams} {c : Csr} (h : MprvConfined c) (hU : c.priv = 0b00#2) :
    c.dataM P = false := by
  unfold Csr.dataM
  rw [h.mprv hU, hU, Bool.and_false]
  rfl

/-- **Data privilege.** In every state of every run from reset in which software
writes registers only in M-mode, `priv` and MPP are M or U, U-mode has MPRV
clear, and the data accesses of U-mode are checked as U-mode accesses. -/
theorem data_privilege (P : CsrParams) (hu : P.uMode = true) (ins : Nat → CsrIn)
    (n : Nat) (hwe : ∀ k < n, (ins k).we = true → (csrRun P {} ins k).priv = 0b11#2) :
    let c := csrRun P {} ins n
    (c.priv = 0b11#2 ∨ c.priv = 0b00#2) ∧
    (Mstatus.mpp c.mstatus = 0b11#2 ∨ Mstatus.mpp c.mstatus = 0b00#2) ∧
    (c.priv = 0b00#2 → Mstatus.mprv c.mstatus = false ∧ c.dataM P = false) := by
  have hstep : ∀ c i, MprvConfined c → (i.we = true → c.priv = 0b11#2) →
      MprvConfined (c.step P i) :=
    fun c i hc hok => step_mprvConfined hu hc i hok
  have hinv : MprvConfined (csrRun P {} ins n) := run_invariant reset_mprvConfined hstep n hwe
  refine ⟨hinv.legal.priv.symm, hinv.legal.mpp.symm, fun hU => ⟨hinv.mprv hU, ?_⟩⟩
  exact dataM_of_user hinv hU

/-- Software sets MPRV with MPP=M and returns twice: first to M-mode, which
keeps MPRV, then to U-mode. -/
def returnTwice : Nat → CsrIn
  | 0 => writeIn csrMstatus 0x00021800#32
  | _ => { writeIn 0#12 0#32 with we := false, mret := true }

theorem data_privilege_returnTwice :
    let c := csrRun (Params.csr { secure := true }) {} returnTwice 3
    c.priv = 0b00#2 ∧
    ((c.priv = 0b11#2 ∨ c.priv = 0b00#2) ∧
    (Mstatus.mpp c.mstatus = 0b11#2 ∨ Mstatus.mpp c.mstatus = 0b00#2) ∧
    (c.priv = 0b00#2 →
      Mstatus.mprv c.mstatus = false ∧ c.dataM (Params.csr { secure := true }) = false)) :=
  ⟨by decide, data_privilege (Params.csr { secure := true }) rfl returnTwice 3 (by decide)⟩

end ThreeSippEs.DataPrivilege
