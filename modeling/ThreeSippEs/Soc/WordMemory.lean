import ThreeSippEs.Core.System
import ThreeSippEs.Soc.Soc

/-!
# Arrays of words as memories of bytes

The hosts of the core hold their memories as arrays of words and decode part of the
address space to them. `Mirrors` relates such an array to the byte memory it stands for,
and a data write keeps the relation.
-/

namespace ThreeSippEs

open AlignedBlock

namespace Bytes

variable (m : Bytes) (a b : Word) (be : BitVec 4) (v : Word)

/-- The lanes of a word are the bytes from its start on. -/
theorem lane_readWord {k : Nat} (hk : k < 4) :
    lane (m.readWord a) k = m (wordOf a + BitVec.ofNat 32 k) := by
  have hquad := LittleEndian.byte_quad (fun k => m (wordOf a + BitVec.ofNat 32 k)) hk
  rw [BitVec.add_zero] at hquad
  exact hquad

/-- A word is its lanes. -/
theorem eq_of_lanes {v w : Word} (h : ∀ k < 4, lane v k = lane w k) : v = w := by
  refine BitVec.eq_of_getLsbD_eq fun j hj => ?_
  have hlane := congrArg (fun l => l.getLsbD (j % 8)) (h (j / 8) (by omega))
  unfold lane at hlane
  simp only [BitVec.getLsbD_extractLsb', Nat.mod_lt j (by decide : 0 < 8), decide_true,
    Bool.true_and, Nat.div_add_mod] at hlane
  exact hlane

/-- The bytes of the word of `a`: where they are, and in which lane. -/
theorem byte_of_word {k : Nat} (hk : k < 4) :
    (wordOf a + BitVec.ofNat 32 k).extractLsb 31 2 = a.extractLsb 31 2 ∧
      ((wordOf a + BitVec.ofNat 32 k).extractLsb 1 0).toNat = k := by
  have hlt := a.isLt
  have hadd : (wordOf a + BitVec.ofNat 32 k).toNat = a.toNat / 4 * 4 + k := by
    rw [BitVec.toNat_add, wordOf_toNat, BitVec.toNat_ofNat]
    omega
  constructor
  · apply BitVec.eq_of_toNat_eq
    simp only [BitVec.extractLsb, BitVec.extractLsb'_toNat, Nat.shiftRight_eq_div_pow]
    rw [hadd]
    omega
  · simp only [BitVec.extractLsb, BitVec.extractLsb'_toNat, Nat.shiftRight_zero]
    rw [hadd]
    omega

theorem extract_eq_iff : a.extractLsb 31 2 = b.extractLsb 31 2 ↔ wordOf a = wordOf b := by
  have ha := a.isLt
  have hb := b.isLt
  rw [wordOf_eq_iff, ← BitVec.toNat_inj]
  simp only [BitVec.extractLsb, BitVec.extractLsb'_toNat, Nat.shiftRight_eq_div_pow]
  omega

/-- The memory whose words are given by a function of their addresses. -/
def ofMap (f : Word → Word) : Bytes := fun a => lane (f (wordOf a)) (a.extractLsb 1 0).toNat

theorem readWord_ofMap (f : Word → Word) : (ofMap f).readWord a = f (wordOf a) := by
  refine eq_of_lanes fun k hk => ?_
  obtain ⟨hword, hlane⟩ := byte_of_word a hk
  rw [lane_readWord _ _ hk]
  unfold ofMap
  rw [hlane, (extract_eq_iff _ _).mp hword]

/-- A write merges its enabled lanes into its word, -/
theorem readWord_writeWord (h : wordOf a = wordOf b) :
    (m.writeWord b be v).readWord a = mergeLanes be v (m.readWord b) := by
  refine eq_of_lanes fun k hk => ?_
  obtain ⟨hword, hlane⟩ := byte_of_word a hk
  rw [lane_readWord _ _ hk, lane_mergeLanes _ _ _ hk, lane_readWord _ _ hk, ← h]
  unfold writeWord
  rw [hlane, hword, (extract_eq_iff a b).mpr h]
  simp only [true_and]
  rfl

/-- and leaves the others. -/
theorem readWord_writeWord_of_ne (h : wordOf a ≠ wordOf b) :
    (m.writeWord b be v).readWord a = m.readWord a := by
  refine eq_of_lanes fun k hk => ?_
  rw [lane_readWord _ _ hk, lane_readWord _ _ hk]
  unfold writeWord
  rw [(byte_of_word a hk).1]
  exact if_neg fun hb => h ((extract_eq_iff a b).mp hb.1)

end Bytes

/-- The addresses in `dom` are decoded to the words of `arr`, which are those of `m`. -/
def Mirrors (idx : Word → Nat) (dom : Word → Prop) (arr : Nat → Word) (m : Bytes) : Prop :=
  ∀ a, dom a → arr (idx a) = m.readWord a

namespace Mirrors

variable {idx : Word → Nat} {dom : Word → Prop} {arr : Nat → Word} {m : Bytes} {b : Word}

/-- A write to the array. -/
theorem write (h : Mirrors idx dom arr m) (hb : dom b)
    (hinj : ∀ a, dom a → (idx a = idx b ↔ wordOf a = wordOf b)) (be : BitVec 4) (v : Word) :
    Mirrors idx dom (Function.update arr (idx b) (mergeLanes be v (arr (idx b))))
      (m.writeWord b be v) := by
  intro a ha
  by_cases hword : wordOf a = wordOf b
  · rw [(hinj a ha).mpr hword, Function.update_self, m.readWord_writeWord a b be v hword, h b hb]
  · rw [Function.update_of_ne fun hidx => hword ((hinj a ha).mp hidx),
      m.readWord_writeWord_of_ne a b be v hword]
    exact h a ha

/-- A write elsewhere. -/
theorem write_outside (h : Mirrors idx dom arr m) (hb : ∀ a, dom a → wordOf a ≠ wordOf b)
    (be : BitVec 4) (v : Word) : Mirrors idx dom arr (m.writeWord b be v) := by
  intro a ha
  rw [m.readWord_writeWord_of_ne a b be v (hb a ha)]
  exact h a ha

/-- A write to a part of the array that `m` does not see. -/
theorem write_unseen (h : Mirrors idx dom arr m) {k : Nat} (hk : ∀ a, dom a → idx a ≠ k)
    (v : Word) : Mirrors idx dom (Function.update arr k v) m := by
  intro a ha
  rw [Function.update_of_ne (hk a ha)]
  exact h a ha

end Mirrors

end ThreeSippEs
