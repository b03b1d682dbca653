import ThreeSippEs.Pipeline.Sequential
import ThreeSippEs.Soc.ByteEnables

/-!
# The CLINT

`mtimecmp` and `msip` are registers of the program: they hold what its stores have left.
The time comes on top.

- `Clint`: the two registers, `Clint.see`: what an event at the ports of the core makes of
  them, `Clint.lines`: the interrupt lines;
- `Soc.step_clint`: one clock.
-/

namespace ThreeSippEs

/-- The registers, as the reset leaves them. -/
structure Clint where
  mtimecmp : BitVec 64 := 0xFFFFFFFFFFFFFFFF#64
  msip : Bool := false
  deriving DecidableEq

/-- The registers in the SoC. -/
def Soc.clint (s : Soc) : Clint := ⟨s.mtimecmp, s.msip⟩

namespace Clint

variable (P : SocParams) (k : Clint)

/-- A store of `v` to `a`. The byte enables do not matter. -/
def write (a v : Word) : Clint :=
  if a.extractLsb 15 0 = 0x0000#16 then { k with msip := v.getLsbD 0 }
  else if a.extractLsb 15 0 = 0x4000#16 then
    { k with mtimecmp := k.mtimecmp.extractLsb 63 32 ++ v }
  else if a.extractLsb 15 0 = 0x4004#16 then
    { k with mtimecmp := v ++ k.mtimecmp.extractLsb 31 0 }
  else k

/-- The accesses that reach it. -/
def selects (acc : Access) : Bool :=
  acc.write && !P.inDram acc.addr && SocParams.inClint acc.addr

/-- What it makes of an event. -/
def see : Event → Clint
  | .bus acc => if selects P acc then k.write acc.addr acc.data else k
  | .retire .. => k

/-- The lines at a time. -/
def lines (time : BitVec 64) : IrqLines where
  timer := k.mtimecmp.ule time
  soft := k.msip

/-- Out of reset the lines are down until the time runs out. -/
theorem lines_reset {time : BitVec 64} (h : time ≠ 0xFFFFFFFFFFFFFFFF#64) :
    ({} : Clint).lines time = {} := by
  refine (IrqLines.mk.injEq ..).mpr ⟨rfl, ?_, rfl⟩
  show (0xFFFFFFFFFFFFFFFF#64).ule time = false
  rw [BitVec.ule_eq_decide, decide_eq_false_iff_not]
  intro hle
  refine h (BitVec.eq_of_toNat_eq ?_)
  have hmax := time.isLt
  have hall : (0xFFFFFFFFFFFFFFFF#64).toNat = 2 ^ 64 - 1 := rfl
  omega

end Clint

namespace Soc

variable {P : SocParams} {s : Soc} {i : SocIn}

theorem lines_clint : s.clint.lines s.mtime = { timer := s.irqTimer, soft := s.irqSoft } := rfl

/-- **One clock** of the registers. -/
theorem step_clint (hrst : i.rst = false) :
    (s.step P i).clint =
      if Clint.selects P ⟨i.dmemAddr, i.dmemBe, i.dmemWe, i.dmemWdata⟩ then
        s.clint.write i.dmemAddr i.dmemWdata
      else s.clint := by
  obtain ⟨hcmp, hsip⟩ := ByteEnables.tick_clint (s := s) hrst
  have hstep : (s.step P i).clint = (s.dataWrite P i (s.tick i)).clint :=
    (Clint.mk.injEq ..).mpr ⟨ByteEnables.step_mtimecmp, ByteEnables.step_msip⟩
  have htick : (s.tick i).clint = s.clint := (Clint.mk.injEq ..).mpr ⟨hcmp, hsip⟩
  rw [hstep, ← htick]
  generalize s.tick i = d
  unfold Clint.selects
  dsimp only
  cases hwe : i.dmemWe with
  | false =>
    unfold dataWrite
    rw [hwe]
    rfl
  | true =>
    cases hin : P.inDram i.dmemAddr with
    | true =>
      unfold dataWrite
      rw [hwe, hin]
      rfl
    | false =>
      cases hclint : SocParams.inClint i.dmemAddr with
      | true =>
        rw [ByteEnables.dataWrite_clint hwe hin hclint]
        unfold Clint.write
        simp only [Bool.not_false, Bool.and_true, if_true]
        split_ifs <;> rfl
      | false =>
        unfold dataWrite
        rw [hwe, hin, hclint]
        simp only [Bool.not_false, Bool.and_false, if_true, if_false, Bool.false_eq_true]
        split_ifs <;> rfl

end Soc

end ThreeSippEs
