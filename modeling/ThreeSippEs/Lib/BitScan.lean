import Mathlib.Data.Finset.Card
import Mathlib.Tactic

/-!
# Scanning and counting bits

Two loops over the positions of a word: one that stops at the first position that
satisfies a predicate, written with a flag that says that it has stopped, and one
that counts the positions.

- `BitScan.scan_eq_find`: the loop with the flag is `List.find?`;
- `BitScan.count_toNat`: the counting loop counts, as long as its counter does not
  wrap.
-/

namespace BitScan

variable {α β : Type*}

/-- One round: keep the value once the flag is up. -/
def step (p : α → Bool) (f : α → β) (acc : β × Bool) (a : α) : β × Bool :=
  if !acc.2 && p a then (f a, true) else acc

/-- With the flag up the rest of the loop does nothing. -/
theorem foldl_stopped (p : α → Bool) (f : α → β) (l : List α) (v : β) :
    l.foldl (step p f) (v, true) = (v, true) := by
  induction l with
  | nil => rfl
  | cons a l ih => exact ih

/-- The loop ends with the value of the first element that satisfies `p`. -/
theorem scan_eq_find (p : α → Bool) (f : α → β) (l : List α) (v : β) :
    (l.foldl (step p f) (v, false)).1 = ((l.find? p).map f).getD v := by
  induction l with
  | nil => rfl
  | cons a l ih =>
    rw [List.foldl_cons, List.find?_cons]
    cases hp : p a with
    | true =>
      have hstep : step p f (v, false) a = (f a, true) := by
        unfold step
        rw [hp]
        rfl
      rw [hstep, foldl_stopped]
      rfl
    | false =>
      have hstep : step p f (v, false) a = (v, false) := by
        unfold step
        rw [hp]
        rfl
      rw [hstep]
      exact ih

/-- The first position below `n` that satisfies `p`, or `n`. -/
def first (p : Nat → Bool) (n : Nat) : Nat := ((List.range n).find? p).getD n

/-- It is what its name says. -/
theorem first_spec (p : Nat → Bool) (n : Nat) :
    first p n ≤ n ∧ (∀ i < first p n, p i = false) ∧ (first p n < n → p (first p n) = true) := by
  unfold first
  cases h : (List.range n).find? p with
  | none =>
    rw [List.find?_range_eq_none] at h
    exact ⟨Nat.le_refl n, fun i hi => by simpa using h i hi,
      fun hlt => absurd hlt (Nat.lt_irrefl n)⟩
  | some i =>
    rw [List.find?_range_eq_some] at h
    obtain ⟨hp, hmem, hbefore⟩ := h
    exact ⟨Nat.le_of_lt (List.mem_range.mp hmem), fun j hj => by simpa using hbefore j hj,
      fun _ => hp⟩

/-- The counting loop over the first `n` positions. -/
theorem count_toNat {w : Nat} (p : Nat → Bool) (n : Nat) (h : n < 2 ^ w) :
    ((List.range n).foldl (fun acc i => acc + (BitVec.ofBool (p i)).setWidth w) 0#w).toNat =
      ((Finset.range n).filter fun i => p i = true).card := by
  induction n with
  | zero => simp
  | succ n ih =>
    have ih' := ih (by omega)
    have hle : ((Finset.range n).filter fun i => p i = true).card ≤ n :=
      (Finset.card_filter_le _ _).trans (Finset.card_range n).le
    have hone : 1 < 2 ^ w := by omega
    have hbit : ((BitVec.ofBool (p n)).setWidth w).toNat = if p n then 1 else 0 := by
      rw [BitVec.toNat_setWidth, BitVec.toNat_ofBool]
      cases p n
      · rfl
      · exact Nat.mod_eq_of_lt hone
    rw [List.range_succ, List.foldl_append, List.foldl_cons, List.foldl_nil, BitVec.toNat_add,
      ih', hbit, Finset.range_add_one, Finset.filter_insert]
    cases hp : p n with
    | true =>
      rw [if_pos rfl, if_pos rfl, Finset.card_insert_of_notMem (by simp)]
      exact Nat.mod_eq_of_lt (by omega)
    | false =>
      rw [if_neg Bool.false_ne_true, if_neg Bool.false_ne_true, Nat.add_zero]
      exact Nat.mod_eq_of_lt (by omega)

end BitScan
