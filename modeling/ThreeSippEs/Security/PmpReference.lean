import ThreeSippEs.Security.PmpRules

/-!
# The PMP checker against the reference decision

`denies` is the reference: it computes the byte range of every region in exact
integers, searches for the first region whose range contains the address, and
reads the rights of that region. `fault_eq_denies` says that the checker, which
compares masked words and scans the regions in reverse, gives the same answer
for every number of regions.

- `byteRange`: the range of a region (`byteRange_napotAddr` ties it to the
  encoding the test programs use);
- `scan_eq_find`: the reverse scan is a search from region 0.
-/

namespace ThreeSippEs.PmpReference

open Pmp PmpRules AlignedBlock

/-! ## Ranges -/

/-- The bytes from `base` up to `top`, which is not included. -/
structure ByteRange where
  base : Nat
  top : Nat
  deriving DecidableEq

/-- Byte `a` is in the range. -/
def ByteRange.contains (r : ByteRange) (a : Nat) : Bool :=
  decide (r.base ≤ a) && decide (a < r.top)

/-- The bytes of a region with configuration `c`, address register `pa` and
preceding address register `prev`. -/
def byteRange (c : BitVec 8) (pa prev : Nat) : ByteRange :=
  match (cfgA c).toNat with
  | 0 => { base := 0, top := 0 }
  | 1 => { base := 4 * prev, top := 4 * pa }
  | 2 => { base := 4 * pa, top := 4 * pa + 4 }
  | _ =>
    let size := 2 ^ (trailingOnes pa + 3)
    let base := 4 * pa / size * size
    { base := base, top := base + size }

theorem contains_iff (r : ByteRange) (a : Nat) :
    r.contains a = true ↔ r.base ≤ a ∧ a < r.top := by
  simp [ByteRange.contains]

/-- Scaling from words to bytes keeps the block. -/
theorem napot_scale (pa k : Nat) :
    4 * pa / 2 ^ (k + 3) * 2 ^ (k + 3) = 4 * (pa / 2 ^ (k + 1) * 2 ^ (k + 1)) := by
  have hsize : 2 ^ (k + 3) = 4 * 2 ^ (k + 1) := by
    rw [show k + 3 = (k + 1) + 2 by rfl, pow_add]
    omega
  rw [hsize, Nat.mul_div_mul_left _ _ (by decide : 0 < 4)]
  ring

/-- The range is the one the protection rule covers. -/
theorem byteRange_contains_iff (c : BitVec 8) (pa prev a : Nat) :
    (byteRange c pa prev).contains a = true ↔ Covers c pa prev a := by
  rw [contains_iff]
  have hfield : cfgA c = 0#2 ∨ cfgA c = 1#2 ∨ cfgA c = 2#2 ∨ cfgA c = 3#2 := by
    generalize cfgA c = A
    revert A
    decide
  rcases hfield with h | h | h | h <;> simp only [byteRange, Covers, h]
  · simp
  · simp
  · simp
  · have hsize : 2 ^ (trailingOnes pa + 3) = 4 * 2 ^ (trailingOnes pa + 1) := by
      rw [show trailingOnes pa + 3 = (trailingOnes pa + 1) + 2 by rfl, pow_add]
      omega
    simp only [BitVec.reduceToNat, BitVec.reduceEq, if_false, napot_scale]
    rw [hsize, Nat.mul_add]

/-! ## The search -/

variable {n : Nat}

/-- The reverse scan finds the first region from 0 on. -/
theorem scan_eq_find (hit allow : Fin n → Bool) :
    scan hit allow = (((List.finRange n).find? hit).map fun i => (true, allow i)).getD
      (false, false) := by
  unfold scan
  induction List.finRange n with
  | nil => rfl
  | cons i rest ih =>
    rw [List.foldr_cons, List.find?_cons]
    cases hit i with
    | true => rfl
    | false => exact ih

/-- The rights cover every access type asked for. -/
def grants (p : Rights) (acc : Pmp.Access) : Bool :=
  (!acc.doR || p.r) && (!acc.doW || p.w) && (!acc.doX || p.x)

theorem grants_iff (p : Rights) (acc : Pmp.Access) : grants p acc = true ↔ p.allow acc := by
  simp [grants, Rights.allow, Bool.or_eq_true, or_iff_not_imp_left, and_assoc]

/-- **Reference decision.** The access to byte `a` is denied: by the rights of
the lowest-numbered region that contains `a`, and where there is none for every
U-mode access, for every M-mode access under MMWP, and for M-mode execution
under MML. -/
def denies (cfg : Fin n → BitVec 8) (addrreg : Fin n → Word) (a : Nat)
    (acc : Pmp.Access) (mode : Mode) : Bool :=
  let contains i := (byteRange (cfg i) (addrreg i).toNat (paPrev addrreg i).toNat).contains a
  match (List.finRange n).find? contains with
  | some i => !grants (ruleRights (cfg i) acc.privM mode.mml) acc
  | none => !acc.privM || mode.mmwp || (mode.mml && acc.doX)

/-- **The checker is the reference decision**, for any number of regions. -/
theorem fault_eq_denies (cfg : Fin n → BitVec 8) (addrreg : Fin n → Word) (addr : Word)
    (acc : Pmp.Access) (mode : Mode) :
    fault cfg addrreg addr acc mode = denies cfg addrreg addr.toNat acc mode := by
  have hhit : (fun i => regionMatch (cfg i) (addrreg i) (paPrev addrreg i) (aw addr)) =
      fun i => (byteRange (cfg i) (addrreg i).toNat (paPrev addrreg i).toNat).contains
        addr.toNat := by
    funext i
    rw [Bool.eq_iff_iff, regionMatch_iff, byteRange_contains_iff]
  have hallow : ∀ i, regionAllow (cfg i) acc mode =
      grants (ruleRights (cfg i) acc.privM mode.mml) acc := by
    intro i
    rw [Bool.eq_iff_iff, regionAllow_iff, grants_iff]
  unfold fault denies
  dsimp only
  rw [scan_eq_find, hhit]
  cases (List.finRange n).find? _ with
  | none => rfl
  | some i => exact congrArg Bool.not (hallow i)

/-! ## Encodings -/

/-- A run of ones below an aligned number has exactly that many trailing ones. -/
theorem trailingOnes_mul_add (q k : Nat) :
    trailingOnes (2 ^ (k + 1) * q + (2 ^ k - 1)) = k := by
  induction k with
  | zero =>
    unfold trailingOnes
    rw [if_neg (by omega)]
  | succ k ih =>
    have hpow : 0 < 2 ^ k := Nat.two_pow_pos k
    have htop : 2 ^ (k + 1 + 1) * q = 2 * (2 ^ (k + 1) * q) := by
      rw [pow_succ]
      ring
    unfold trailingOnes
    rw [htop, pow_succ 2 k, if_pos (by omega)]
    have hhalf : (2 * (2 ^ (k + 1) * q) + (2 ^ k * 2 - 1)) / 2 =
        2 ^ (k + 1) * q + (2 ^ k - 1) := by
      omega
    rw [← pow_succ 2 k] at hhalf ⊢
    rw [hhalf, ih]

/-- `napot_addr(base, size)` of the test programs. -/
def napotAddr (base size : Nat) : Nat := (base >>> 2) ||| ((size >>> 3) - 1)

theorem napotAddr_eq (q k : Nat) :
    napotAddr (q * 2 ^ (k + 3)) (2 ^ (k + 3)) = 2 ^ (k + 1) * q + (2 ^ k - 1) := by
  have hpow : 0 < 2 ^ k := Nat.two_pow_pos k
  have hbase : (q * 2 ^ (k + 3)) >>> 2 = 2 ^ (k + 1) * q := by
    rw [Nat.shiftRight_eq_div_pow, show k + 3 = (k + 1) + 2 by rfl, pow_add, ← Nat.mul_assoc,
      Nat.mul_div_cancel _ (by decide), Nat.mul_comm]
  have hsize : (2 ^ (k + 3)) >>> 3 = 2 ^ k := by
    rw [Nat.shiftRight_eq_div_pow, pow_add, Nat.mul_div_cancel _ (by decide)]
  rw [napotAddr, hbase, hsize, ← Nat.two_pow_add_eq_or_of_lt (by rw [pow_succ]; omega)]

/-- The encoding names the range it is meant to name. -/
theorem byteRange_napotAddr {c : BitVec 8} (hc : cfgA c = 3#2) (q k prev : Nat) :
    byteRange c (napotAddr (q * 2 ^ (k + 3)) (2 ^ (k + 3))) prev =
      { base := q * 2 ^ (k + 3), top := q * 2 ^ (k + 3) + 2 ^ (k + 3) } := by
  have hpow : 0 < 2 ^ k := Nat.two_pow_pos k
  have hdiv : (2 ^ (k + 1) * q + (2 ^ k - 1)) / 2 ^ (k + 1) = q := by
    rw [Nat.mul_add_div (Nat.two_pow_pos _), Nat.div_eq_of_lt (by rw [pow_succ]; omega),
      Nat.add_zero]
  have hbase : 4 * (2 ^ (k + 1) * q + (2 ^ k - 1)) / 2 ^ (k + 3) * 2 ^ (k + 3) =
      q * 2 ^ (k + 3) := by
    rw [napot_scale, hdiv, show k + 3 = (k + 1) + 2 by rfl, pow_add]
    ring
  simp only [byteRange, hc, BitVec.reduceToNat]
  rw [napotAddr_eq, trailingOnes_mul_add, hbase]

/-- All ones stands for the whole space. -/
theorem byteRange_allOnes {c : BitVec 8} (hc : cfgA c = 3#2) (prev : Nat) (a : Word) :
    (byteRange c (BitVec.allOnes 32).toNat prev).contains a.toNat = true := by
  have hlt := a.isLt
  have hreg : (BitVec.allOnes 32).toNat = napotAddr (0 * 2 ^ (32 + 3)) (2 ^ (32 + 3)) := by decide
  rw [hreg, byteRange_napotAddr hc, contains_iff]
  dsimp only
  omega

end ThreeSippEs.PmpReference
