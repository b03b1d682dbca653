import Mathlib.Tactic

/-!
# Shift registers

A register that takes a bit at the top and gives one away at the bottom is a
queue of fixed length: `bits` reads it as one, the oldest bit first.
-/

namespace ThreeSippEs.ShiftRegister

variable {w : Nat}

/-- A bit comes in at the top, the lowest one is lost. -/
def shiftIn (r : BitVec w) (b : Bool) : BitVec w := (BitVec.cons b r).extractLsb' 1 w

/-- The bits of a sequence come in, one after the other. -/
def shiftAll (r : BitVec w) (bs : List Bool) : BitVec w := bs.foldl shiftIn r

/-- The contents, the lowest bit first. -/
def bits (r : BitVec w) : List Bool := (List.range w).map r.getLsbD

/-- The register with the contents `bs`. -/
def word (w : Nat) (bs : List Bool) : BitVec w := (BitVec.ofBoolListLE bs).setWidth w

@[simp] theorem length_bits (r : BitVec w) : (bits r).length = w := by simp [bits]

theorem getElem?_bits (r : BitVec w) {i : Nat} (hi : i < w) :
    (bits r)[i]? = some (r.getLsbD i) := by
  simp [bits, hi]

theorem bits_inj {r r' : BitVec w} (h : bits r = bits r') : r = r' := by
  refine BitVec.eq_of_getLsbD_eq fun i hi => ?_
  have hget := getElem?_bits r hi
  rw [h, getElem?_bits r' hi] at hget
  exact (Option.some_inj.mp hget).symm

theorem getLsbD_shiftIn (r : BitVec w) (b : Bool) {i : Nat} (hi : i < w) :
    (shiftIn r b).getLsbD i = if i + 1 = w then b else r.getLsbD (i + 1) := by
  rw [shiftIn, BitVec.getLsbD_extractLsb', BitVec.getLsbD_cons, decide_eq_true hi, Bool.true_and,
    Nat.add_comm]

/-- A register of at least one bit is a queue. -/
theorem bits_shiftIn (hw : 0 < w) (r : BitVec w) (b : Bool) :
    bits (shiftIn r b) = (bits r).tail ++ [b] := by
  refine List.ext_getElem? fun i => ?_
  by_cases hi : i < w
  · rw [getElem?_bits _ hi, getLsbD_shiftIn r b hi]
    by_cases hlast : i + 1 = w
    · rw [if_pos hlast, List.getElem?_append_right (by simp; omega), List.length_tail, length_bits,
        show i - (w - 1) = 0 by omega]
      rfl
    · rw [if_neg hlast, List.getElem?_append_left (by simp; omega), List.getElem?_tail,
        getElem?_bits r (by omega)]
  · rw [List.getElem?_eq_none (by simp; omega), List.getElem?_eq_none (by simp; omega)]

/-- What comes in pushes the same number of bits out. -/
theorem bits_shiftAll (hw : 0 < w) (r : BitVec w) (bs : List Bool) :
    bits (shiftAll r bs) = (bits r ++ bs).drop bs.length := by
  induction bs generalizing r with
  | nil => simp [shiftAll]
  | cons b bs ih =>
    have hcons : ∃ x xs, bits r = x :: xs := List.exists_cons_of_length_pos (by simpa using hw)
    obtain ⟨x, xs, hx⟩ := hcons
    show bits (shiftAll (shiftIn r b) bs) = _
    rw [ih, bits_shiftIn hw, hx]
    simp

theorem shiftAll_append (r : BitVec w) (bs : List Bool) (b : Bool) :
    shiftAll r (bs ++ [b]) = shiftIn (shiftAll r bs) b := by
  rw [shiftAll, List.foldl_append]
  rfl

theorem bits_word {bs : List Bool} (h : bs.length = w) : bits (word w bs) = bs := by
  refine List.ext_getElem? fun i => ?_
  by_cases hi : i < w
  · rw [getElem?_bits _ hi, word, BitVec.getLsbD_setWidth, decide_eq_true hi, Bool.true_and,
      BitVec.getLsbD_ofBoolListLE, List.getD_eq_getElem?_getD,
      List.getElem?_eq_getElem (h ▸ hi)]
    rfl
  · rw [List.getElem?_eq_none (by simp; omega), List.getElem?_eq_none (by omega)]

/-- **In**: after as many bits as the register is long it holds them. -/
theorem shiftAll_full (hw : 0 < w) (r : BitVec w) {bs : List Bool} (h : bs.length = w) :
    shiftAll r bs = word w bs := by
  apply bits_inj
  rw [bits_shiftAll hw, bits_word h, h, List.drop_left' (length_bits r)]

/-- **Out**: before that, its own bits come out in order. -/
theorem lsb_shiftAll (r : BitVec w) {bs : List Bool} (h : bs.length < w) :
    (shiftAll r bs).getLsbD 0 = r.getLsbD bs.length := by
  have hw : 0 < w := Nat.zero_lt_of_lt h
  have hget := getElem?_bits (shiftAll r bs) hw
  rw [bits_shiftAll hw, List.getElem?_drop, Nat.add_zero,
    List.getElem?_append_left (by simpa using h), getElem?_bits r h] at hget
  exact (Option.some_inj.mp hget).symm

end ThreeSippEs.ShiftRegister
