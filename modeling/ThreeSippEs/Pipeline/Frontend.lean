import ThreeSippEs.Lib.AlignedBlock
import ThreeSippEs.Pipeline.Sequential

/-!
# What F assembles

The instruction that F hands to X, in one beat or two, is the instruction at its
PC in the instruction memory as it was read in those beats.

- `FStage.fetch_whole`: one beat; `FStage.fetch_first` and `FStage.fetch_second`:
  the two beats of a word-straddling instruction;
- `Bytes.instrAt_congr`: the instruction depends on its own bytes only.
-/

namespace ThreeSippEs

open AlignedBlock

/-! ## Halfwords of a word -/

/-- The byte addresses of the aligned halfword containing `a`. -/
theorem half_toNat (a : Word) (b : BitVec 1) :
    (a.extractLsb 31 1 ++ b).toNat = a.toNat / 2 * 2 + b.toNat := by
  have hlt := a.isLt
  have hb := b.isLt
  rw [BitVec.toNat_append, BitVec.extractLsb, BitVec.extractLsb'_toNat,
    Nat.shiftRight_eq_div_pow, ← Nat.shiftLeft_add_eq_or_of_lt hb, Nat.shiftLeft_eq]
  omega

theorem bit1_iff (a : Word) : a.getLsbD 1 = true ↔ a.toNat / 2 % 2 = 1 := by
  rw [BitVec.getLsbD, Nat.testBit_eq_decide_div_mod_eq, decide_eq_true_iff]

theorem half_of_bit1 {a : Word} (h : a.getLsbD 1 = true) :
    a.extractLsb 31 1 ++ 1#1 = wordOf a + 3#32 ∧ a.extractLsb 31 1 ++ 0#1 = wordOf a + 2#32 := by
  rw [bit1_iff] at h
  have hlt := a.isLt
  constructor <;> apply BitVec.eq_of_toNat_eq <;> rw [half_toNat, BitVec.toNat_add, wordOf_toNat]
  · have h3 : (3#32).toNat = 3 := rfl
    have h1 : (1#1).toNat = 1 := rfl
    omega
  · have h2 : (2#32).toNat = 2 := rfl
    have h0 : (0#1).toNat = 0 := rfl
    omega

theorem half_of_not_bit1 {a : Word} (h : a.getLsbD 1 = false) :
    a.extractLsb 31 1 ++ 1#1 = wordOf a + 1#32 ∧ a.extractLsb 31 1 ++ 0#1 = wordOf a := by
  have h' : ¬ a.toNat / 2 % 2 = 1 := by
    rw [← bit1_iff, h]
    exact Bool.false_ne_true
  have hlt := a.isLt
  constructor <;> apply BitVec.eq_of_toNat_eq
  · rw [half_toNat, BitVec.toNat_add, wordOf_toNat]
    have h1 : (1#32).toNat = 1 := rfl
    have h1' : (1#1).toNat = 1 := rfl
    omega
  · rw [half_toNat, wordOf_toNat]
    have h0 : (0#1).toNat = 0 := rfl
    omega

/-- The halfword behind `a` is in the same word, or the first of the next. -/
theorem bit1_add_two (a : Word) : (a + 2#32).getLsbD 1 = !a.getLsbD 1 := by
  have hlt := a.isLt
  have h2 : (2#32).toNat = 2 := rfl
  rw [Bool.eq_iff_iff, bit1_iff, Bool.not_eq_true', ← Bool.not_eq_true, bit1_iff,
    BitVec.toNat_add]
  omega

theorem wordOf_add_two (a : Word) :
    wordOf (a + 2#32) = if a.getLsbD 1 then wordOf a + 4#32 else wordOf a := by
  have hlt := a.isLt
  have h2 : (2#32).toNat = 2 := rfl
  have h4 : (4#32).toNat = 4 := rfl
  apply BitVec.eq_of_toNat_eq
  rw [wordOf_toNat, BitVec.toNat_add]
  split
  case isTrue h =>
    rw [bit1_iff] at h
    rw [BitVec.toNat_add, wordOf_toNat]
    omega
  case isFalse h =>
    rw [bit1_iff] at h
    rw [wordOf_toNat]
    omega

namespace Bytes

variable (m : Bytes)

theorem readWord_eq (a : Word) : m.readWord a =
    m (wordOf a + 3#32) ++ m (wordOf a + 2#32) ++ m (wordOf a + 1#32) ++ m (wordOf a) := rfl

/-- A word read depends on the word of the address only. -/
theorem readWord_congr {a a' : Word} (h : wordOf a = wordOf a') :
    m.readWord a = m.readWord a' := by
  rw [readWord_eq, readWord_eq, h]

theorem wordOf_wordOf (a : Word) : wordOf (wordOf a) = wordOf a := by
  rw [wordOf_eq_iff, wordOf_toNat]
  omega

theorem wordOf_next (a : Word) : wordOf (wordOf a + 4#32) = wordOf a + 4#32 := by
  have hlt := a.isLt
  have h4 : (4#32).toNat = 4 := rfl
  apply BitVec.eq_of_toNat_eq
  rw [wordOf_toNat, BitVec.toNat_add, wordOf_toNat]
  omega

theorem append_toNat {n k : Nat} (x : BitVec n) (y : BitVec k) :
    (x ++ y).toNat = x.toNat * 2 ^ k + y.toNat := by
  rw [BitVec.toNat_append, ← Nat.shiftLeft_add_eq_or_of_lt y.isLt, Nat.shiftLeft_eq]

/-- The upper halfword of four bytes. -/
theorem upper_half (b3 b2 b1 b0 : BitVec 8) :
    (b3 ++ b2 ++ b1 ++ b0 : BitVec 32).extractLsb 31 16 = b3 ++ b2 := by
  have h3 := b3.isLt
  have h2 := b2.isLt
  have h1 := b1.isLt
  have h0 := b0.isLt
  apply BitVec.eq_of_toNat_eq
  rw [BitVec.extractLsb, BitVec.extractLsb'_toNat, Nat.shiftRight_eq_div_pow]
  simp only [append_toNat]
  omega

/-- The lower halfword of four bytes. -/
theorem lower_half (b3 b2 b1 b0 : BitVec 8) :
    (b3 ++ b2 ++ b1 ++ b0 : BitVec 32).extractLsb 15 0 = b1 ++ b0 := by
  have h1 := b1.isLt
  have h0 := b0.isLt
  apply BitVec.eq_of_toNat_eq
  rw [BitVec.extractLsb, BitVec.extractLsb'_toNat, Nat.shiftRight_eq_div_pow]
  simp only [append_toNat]
  omega

theorem eq_halves (v : BitVec 32) : v = v.extractLsb 31 16 ++ v.extractLsb 15 0 := by
  have h := v.isLt
  apply BitVec.eq_of_toNat_eq
  rw [append_toNat, BitVec.extractLsb, BitVec.extractLsb, BitVec.extractLsb'_toNat,
    BitVec.extractLsb'_toNat, Nat.shiftRight_eq_div_pow, Nat.shiftRight_eq_div_pow]
  omega

theorem half_upper {a : Word} (h : a.getLsbD 1 = true) :
    m.half a = (m.readWord a).extractLsb 31 16 := by
  obtain ⟨h1, h0⟩ := half_of_bit1 h
  unfold half
  rw [h1, h0, readWord_eq]
  exact (upper_half _ _ _ _).symm

theorem half_lower {a : Word} (h : a.getLsbD 1 = false) :
    m.half a = (m.readWord a).extractLsb 15 0 := by
  obtain ⟨h1, h0⟩ := half_of_not_bit1 h
  unfold half
  rw [h1, h0, readWord_eq]
  exact (lower_half _ _ _ _).symm

/-- The instruction depends on its own halfwords only. -/
theorem instrAt_congr {m m' : Bytes} {a : Word} (h : m.half a = m'.half a)
    (h2 : m'.compAt a = false → m.half (a + 2#32) = m'.half (a + 2#32)) :
    m.instrAt a = m'.instrAt a ∧ m.lenAt a = m'.lenAt a := by
  have hc : m.compAt a = m'.compAt a := by
    unfold compAt
    rw [h]
  unfold instrAt lenAt
  rw [hc, h]
  refine ⟨?_, rfl⟩
  cases hcomp : m'.compAt a with
  | true => rw [if_pos rfl, if_pos rfl]
  | false => rw [if_neg Bool.false_ne_true, if_neg Bool.false_ne_true, h2 hcomp]

end Bytes

/-! ## The beats of a fetch -/

namespace FStage

variable {P : Params} (f : FStage P) (m : Bytes)

theorem imemAddr_of_not_straddle (hs : f.straddle = false) : f.imemAddr = f.pc := by
  unfold imemAddr
  rw [hs]
  rfl

/-- The halfword at PC, in a fetch that is not in its second beat. -/
theorem fetchHalf_eq (hs : f.straddle = false) :
    f.fetchHalf (m.readWord f.imemAddr) = m.half f.pc := by
  rw [f.imemAddr_of_not_straddle hs]
  unfold fetchHalf
  cases h : f.pc.getLsbD 1 with
  | true => rw [if_pos rfl, m.half_upper h]
  | false => rw [if_neg Bool.false_ne_true, m.half_lower h]

theorem cIsComp_eq (hs : f.straddle = false) :
    f.cIsComp (m.readWord f.imemAddr) = m.compAt f.pc := by
  unfold cIsComp Bytes.compAt
  rw [f.fetchHalf_eq m hs]

/-- **A fetch of one beat.** -/
theorem fetch_whole (hs : f.straddle = false)
    (hn : f.needStraddle (m.readWord f.imemAddr) = false) :
    f.fetchedInstr (m.readWord f.imemAddr) = m.instrAt f.pc ∧
    f.fetchedLen (m.readWord f.imemAddr) = m.lenAt f.pc := by
  unfold needStraddle at hn
  unfold fetchedInstr fetchedLen Bytes.instrAt Bytes.lenAt
  rw [f.cIsComp_eq m hs, hs] at hn ⊢
  rw [f.fetchHalf_eq m hs]
  cases hc : m.compAt f.pc with
  | true => exact ⟨rfl, rfl⟩
  | false =>
    refine ⟨?_, rfl⟩
    -- a 32-bit instruction in one word
    have h1 : f.pc.getLsbD 1 = false := by simpa [hc] using hn
    have hnext : (f.pc + 2#32).getLsbD 1 = true := by rw [bit1_add_two, h1]; rfl
    have hword : m.readWord (f.pc + 2#32) = m.readWord f.pc := by
      refine m.readWord_congr ?_
      rw [wordOf_add_two, h1]
      rfl
    rw [f.imemAddr_of_not_straddle hs, m.half_upper hnext, m.half_lower h1, hword]
    show m.readWord f.pc = (m.readWord f.pc).extractLsb 31 16 ++ (m.readWord f.pc).extractLsb 15 0
    exact Bytes.eq_halves _

/-- The first beat of a straddling instruction. -/
theorem fetch_first (hn : f.needStraddle (m.readWord f.imemAddr) = true) :
    f.pc.getLsbD 1 = true ∧ f.straddle = false ∧ m.compAt f.pc = false ∧
    (m.readWord f.imemAddr).extractLsb 31 16 = m.half f.pc := by
  unfold needStraddle at hn
  simp only [Bool.and_eq_true, Bool.not_eq_true'] at hn
  obtain ⟨⟨hc, h1⟩, hs⟩ := hn
  refine ⟨h1, hs, ?_, ?_⟩
  · rw [← f.cIsComp_eq m hs]
    exact hc
  · rw [f.imemAddr_of_not_straddle hs, m.half_upper h1]

/-- Its second beat. -/
theorem fetch_second (hs : f.straddle = true) (h1 : f.pc.getLsbD 1 = true) :
    f.fetchedInstr (m.readWord f.imemAddr) = m.half (f.pc + 2#32) ++ f.stradLo ∧
    f.fetchedLen (m.readWord f.imemAddr) = 4#3 := by
  have hnext : (f.pc + 2#32).getLsbD 1 = false := by rw [bit1_add_two, h1]; rfl
  have hword : m.readWord (f.pc + 2#32) = m.readWord f.imemAddr := by
    refine m.readWord_congr ?_
    unfold imemAddr
    rw [wordOf_add_two, h1, hs]
    exact (Bytes.wordOf_next f.pc).symm
  unfold fetchedInstr fetchedLen
  rw [hs, m.half_lower hnext, hword]
  exact ⟨rfl, rfl⟩

end FStage

end ThreeSippEs
