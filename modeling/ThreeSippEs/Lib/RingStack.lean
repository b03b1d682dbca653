import Mathlib.Data.BitVec

/-!
# A stack in a ring

A ring of `2^w` cells and a pointer to the next free one make a stack that forgets: a push
on a full ring overwrites the oldest entry.

- `Holds`: the ring holds a list, the newest entry first;
- `Holds.push`, `Holds.pop`, `Holds.top`: the operations.
-/

namespace ThreeSippEs.RingStack

variable {α : Type*} {w : Nat} {ring : BitVec w → α} {ptr : BitVec w} {x : α} {xs : List α}

/-- The cells below the pointer hold `xs`. -/
structure Holds (ring : BitVec w → α) (ptr : BitVec w) (xs : List α) : Prop where
  length : xs.length ≤ 2 ^ w
  cell : ∀ (k : Nat) (hk : k < xs.length), ring (ptr - BitVec.ofNat w (k + 1)) = xs[k]

namespace Holds

/-- Nothing is on the stack. -/
theorem nil (ring : BitVec w → α) (ptr : BitVec w) : Holds ring ptr [] :=
  ⟨Nat.zero_le _, fun _ hk => absurd hk (Nat.not_lt_zero _)⟩

/-- The newest entry. -/
theorem top (h : Holds ring ptr (x :: xs)) : ring (ptr - 1) = x :=
  h.cell 0 (Nat.succ_pos _)

theorem pop (h : Holds ring ptr (x :: xs)) : Holds ring (ptr - 1) xs := by
  constructor
  · exact Nat.le_trans (Nat.le_succ _) h.length
  · intro k hk
    have hcell := h.cell (k + 1) (Nat.succ_lt_succ hk)
    rw [List.getElem_cons_succ] at hcell
    rw [← hcell]
    congr 1
    rw [BitVec.ofNat_add (n := w) (k + 1) 1, BitVec.sub_sub, BitVec.add_comm]
    rfl

/-- A push keeps the newest `2^w` entries. -/
theorem push (h : Holds ring ptr xs) (x : α) :
    Holds (fun p => if p = ptr then x else ring p) (ptr + 1) ((x :: xs).take (2 ^ w)) := by
  constructor
  · rw [List.length_take]
    exact Nat.min_le_left _ _
  · intro k hk
    rw [List.length_take, List.length_cons, Nat.lt_min] at hk
    rw [List.getElem_take]
    cases k with
    | zero =>
      have hsame : ptr + 1 - BitVec.ofNat w (0 + 1) = ptr := BitVec.add_sub_cancel ptr 1
      rw [hsame, if_pos rfl]
      rfl
    | succ k =>
      -- the entry moves down, and does not come around
      have hdown : ptr + 1 - BitVec.ofNat w (k + 1 + 1) = ptr - BitVec.ofNat w (k + 1) := by
        rw [BitVec.ofNat_add (n := w) (k + 1) 1]
        show ptr + 1 - (BitVec.ofNat w (k + 1) + 1) = _
        rw [BitVec.add_comm (BitVec.ofNat w (k + 1)) 1, ← BitVec.sub_sub, BitVec.add_sub_cancel]
      have hne : ptr - BitVec.ofNat w (k + 1) ≠ ptr := by
        intro hsame
        have hval := congrArg BitVec.toNat hsame
        rw [BitVec.toNat_sub, BitVec.toNat_ofNat, Nat.mod_eq_of_lt hk.1] at hval
        have hlt := ptr.isLt
        rcases Nat.lt_or_ge (2 ^ w - (k + 1) + ptr.toNat) (2 ^ w) with hin | hout
        · rw [Nat.mod_eq_of_lt hin] at hval
          omega
        · rw [Nat.mod_eq_sub_mod hout, Nat.mod_eq_of_lt (by omega)] at hval
          omega
      rw [hdown, if_neg hne, List.getElem_cons_succ]
      exact h.cell k (by omega)

end Holds

end ThreeSippEs.RingStack
