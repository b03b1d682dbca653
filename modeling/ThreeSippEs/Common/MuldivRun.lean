import ThreeSippEs.Common.MuldivCorrect
import ThreeSippEs.Lib.Clocked

/-!
# Runs of the multiply/divide unit

An operation comes closer to its answer in every clock: `Muldiv.left` counts the
clocks that are left. While the unit is busy it ignores its inputs and keeps the
operation and the operands it was started with, so one pulse of `start` leads to
one pulse of `done` with the result of that operation (`Muldiv.one_pulse`).
-/

namespace ThreeSippEs

open Clocked

/-! ## The clocks that are left -/

/-- Clocks until the M unit answers, when its instruction is in X. -/
def Muldiv.left (m : Muldiv) : Nat :=
  match m.state with
  | .idle => if m.done then 0 else 36
  | .mul => 1
  | .fin => 1
  | .div => 2 + m.bitIdx.toNat

theorem Muldiv.left_le (m : Muldiv) : m.left ≤ 36 := by
  have hlt := m.bitIdx.isLt
  unfold left
  cases m.state with
  | idle => dsimp only; split <;> omega
  | mul | fin | div => dsimp only; omega

theorem Muldiv.left_of_div {m : Muldiv} (h : m.state = .div) : m.left = 2 + m.bitIdx.toNat := by
  unfold left
  rw [h]

theorem Muldiv.left_of_fin {m : Muldiv} (h : m.state = .fin) : m.left = 1 := by
  unfold left
  rw [h]

theorem Muldiv.left_of_mul {m : Muldiv} (h : m.state = .mul) : m.left = 1 := by
  unfold left
  rw [h]

theorem Muldiv.left_accept (m : Muldiv) (op : MdOp) (a b : Word) : (m.accept op a b).left ≤ 33 := by
  unfold accept
  split
  · exact Nat.le_of_ble_eq_true rfl
  · exact Nat.le_refl 33

theorem Muldiv.left_shiftSubtract {m : Muldiv} (h : m.state = .div) :
    m.shiftSubtract.left < 2 + m.bitIdx.toNat := by
  by_cases hb : m.bitIdx = 0#5
  · have hs : m.shiftSubtract.state = .fin := by
      show (if m.bitIdx = 0#5 then MdState.fin else m.state) = .fin
      rw [if_pos hb]
    rw [left_of_fin hs]
    omega
  · -- on to the next bit of the dividend
    have hs : m.shiftSubtract.state = .div := by
      show (if m.bitIdx = 0#5 then MdState.fin else m.state) = .div
      rw [if_neg hb, h]
    have hidx : m.shiftSubtract.bitIdx = m.bitIdx - 1#5 := by
      show (if m.bitIdx = 0#5 then m.bitIdx else m.bitIdx - 1#5) = _
      rw [if_neg hb]
    have hne : m.bitIdx.toNat ≠ 0 := fun h => hb (BitVec.eq_of_toNat_eq h)
    have h1 : (1#5).toNat = 1 := rfl
    have hle : 1#5 ≤ m.bitIdx := by
      rw [BitVec.le_def, h1]
      omega
    rw [left_of_div hs, hidx, BitVec.toNat_sub_of_le hle, h1]
    omega

/-- An operation comes closer to its answer in every clock. -/
theorem Muldiv.left_step (m : Muldiv) (hd : m.done = false) (start : Bool) (op : MdOp)
    (a b : Word) (hstart : m.busy = false → start = true) :
    (m.step start op a b).left < m.left := by
  unfold step
  cases hs : m.state with
  | idle =>
    have hst : start = true := hstart (by unfold busy; rw [hs]; rfl)
    have hleft : m.left = 36 := by
      unfold left
      rw [hs, hd]
      rfl
    have haccept := m.left_accept op a b
    rw [hst, hleft]
    show (m.accept op a b).left < 36
    omega
  | mul =>
    rw [left_of_mul hs]
    exact Nat.zero_lt_one
  | fin =>
    rw [left_of_fin hs]
    exact Nat.zero_lt_one
  | div =>
    rw [left_of_div hs]
    show m.stepDiv.left < _
    unfold stepDiv
    by_cases hz : m.divByZero = true
    · rw [if_pos hz]
      show (0 : Nat) < _
      omega
    rw [if_neg hz]
    by_cases ho : m.divOverflow = true
    · rw [if_pos ho]
      show (0 : Nat) < _
      omega
    rw [if_neg ho]
    exact left_shiftSubtract hs

/-! ## One operation -/

/-- The inputs of the unit in one clock. -/
structure MdIn where
  start : Bool
  op : MdOp
  a : Word
  b : Word

namespace Muldiv

/-- One clock of the unit. -/
def clock (m : Muldiv) (i : MdIn) : Muldiv := m.step i.start i.op i.a i.b

/-- The unit works on `op`, `a` and `b`. -/
structure Working (m : Muldiv) (op : MdOp) (a b : Word) : Prop where
  inv : m.Inv
  busy : m.busy = true
  done : m.done = false
  opQ : m.opQ = op
  aQ : m.aQ = a
  bQ : m.bQ = b

/-- The unit answers and is idle again. -/
structure Answers (m : Muldiv) (op : MdOp) (a b : Word) : Prop where
  done : m.done = true
  busy : m.busy = false
  result : m.result = Mext.value op a b

/-- A start pulse in the idle state. -/
theorem working_of_start {m : Muldiv} (hidle : m.busy = false) {i : MdIn}
    (hstart : i.start = true) : (m.clock i).Working i.op i.a i.b := by
  have hs : m.state = .idle := by
    simpa [Muldiv.busy] using hidle
  have hacc : m.clock i = m.accept i.op i.a i.b := by
    unfold clock step
    rw [hs, hstart]
    rfl
  rw [hacc]
  have hinv := Inv.accept m i.op i.a i.b
  unfold accept at hinv ⊢
  split at hinv
  case isTrue hmul =>
    rw [if_pos hmul]
    exact ⟨hinv, rfl, rfl, rfl, rfl, rfl⟩
  case isFalse hdiv =>
    rw [if_neg hdiv]
    exact ⟨hinv, rfl, rfl, rfl, rfl, rfl⟩

/-- **One clock** of a busy unit, whatever its inputs: it goes on working on the
same operation, or it answers. -/
theorem Working.next {m : Muldiv} {op : MdOp} {a b : Word} (h : m.Working op a b) (i : MdIn) :
    (m.clock i).Working op a b ∨ (m.clock i).Answers op a b := by
  have hinv : (m.clock i).Inv := h.inv.step _ _ _ _
  -- the answer of the invariant is that of the latched operation
  have hans : (m.clock i).done = true → (m.clock i).opQ = m.opQ → (m.clock i).aQ = m.aQ →
      (m.clock i).bQ = m.bQ → (m.clock i).Answers op a b := by
    intro hd ho ha hb
    obtain ⟨hs, hr⟩ := hinv.done hd
    refine ⟨hd, by unfold Muldiv.busy; rw [hs]; rfl, ?_⟩
    rw [hr, ho, ha, hb, h.opQ, h.aQ, h.bQ]
  cases hs : m.state with
  | idle =>
    have hbusy := h.busy
    unfold Muldiv.busy at hbusy
    rw [hs] at hbusy
    exact absurd hbusy (by decide)
  | mul =>
    have hstep : m.clock i = m.stepMul := by
      unfold clock step
      rw [hs]
    rw [hstep] at hans ⊢
    exact Or.inr (hans rfl rfl rfl rfl)
  | fin =>
    have hstep : m.clock i = m.stepFin := by
      unfold clock step
      rw [hs]
    rw [hstep] at hans ⊢
    exact Or.inr (hans rfl rfl rfl rfl)
  | div =>
    have hstep : m.clock i = m.stepDiv := by
      unfold clock step
      rw [hs]
    rw [hstep] at hans hinv ⊢
    unfold stepDiv at hans hinv ⊢
    by_cases hzero : m.divByZero = true
    · rw [if_pos hzero] at hans ⊢
      exact Or.inr (hans rfl rfl rfl rfl)
    rw [if_neg hzero] at hans hinv ⊢
    by_cases hover : m.divOverflow = true
    · rw [if_pos hover] at hans ⊢
      exact Or.inr (hans rfl rfl rfl rfl)
    rw [if_neg hover] at hinv ⊢
    refine Or.inl ⟨hinv, ?_, rfl, h.opQ, h.aQ, h.bQ⟩
    show ((if m.bitIdx = 0#5 then MdState.fin else m.state) != .idle) = true
    split
    · rfl
    · rw [hs]
      rfl

theorem Working.left_next {m : Muldiv} {op : MdOp} {a b : Word} (h : m.Working op a b)
    (i : MdIn) : (m.clock i).left < m.left :=
  m.left_step h.done i.start i.op i.a i.b fun hb => absurd (h.busy.symm.trans hb) (by decide)

/-- A busy unit answers after at most `left` clocks, whatever its inputs. -/
theorem Working.answered {m : Muldiv} {op : MdOp} {a b : Word} (h : m.Working op a b)
    (ins : Nat → MdIn) :
    ∃ k, 0 < k ∧ k ≤ m.left ∧ (run clock m ins k).Answers op a b ∧
      ∀ j < k, (run clock m ins j).Working op a b := by
  induction hn : m.left using Nat.strong_induction_on generalizing m ins with
  | _ n ih =>
    have hlt := h.left_next (ins 0)
    rcases h.next (ins 0) with hwork | hans
    · obtain ⟨k, hpos, hle, hans, hbefore⟩ := ih _ (hn ▸ hlt) hwork (fun k => ins (1 + k)) rfl
      have hrun : ∀ j, run clock m ins (1 + j) =
          run clock (m.clock (ins 0)) (fun k => ins (1 + k)) j :=
        fun j => run_add clock m ins 1 j
      refine ⟨1 + k, by omega, by omega, (hrun k).symm ▸ hans, ?_⟩
      intro j hj
      cases j with
      | zero => exact h
      | succ j =>
        rw [Nat.add_comm j 1, hrun]
        exact hbefore j (by omega)
    · refine ⟨1, Nat.zero_lt_one, by omega, hans, ?_⟩
      intro j hj
      rw [Nat.lt_one_iff.mp hj]
      exact h

/-- Without a new start the unit stays idle, and `result` stays. -/
theorem clock_idle {m : Muldiv} (hidle : m.busy = false) {i : MdIn} (hstart : i.start = false) :
    (m.clock i).busy = false ∧ (m.clock i).done = false ∧ (m.clock i).result = m.result := by
  have hs : m.state = .idle := by
    simpa [Muldiv.busy] using hidle
  unfold clock step
  rw [hs, hstart]
  exact ⟨rfl, rfl, rfl⟩

/-- **One pulse of `start`, one pulse of `done`.** From the idle state, whatever
the other registers hold and whatever `op`, `a` and `b` do later, the unit is busy
for at most 33 clocks, answers in exactly one clock with the result of the
operation it was started with, and is idle from then on. -/
theorem one_pulse (m : Muldiv) (ins : Nat → MdIn) (hidle : m.busy = false)
    (hstart : (ins 0).start = true) (hpulse : ∀ k, 0 < k → (ins k).start = false) :
    ∃ k, 1 < k ∧ k ≤ 34 ∧
      (∀ j, 0 < j → ((run clock m ins j).done = true ↔ j = k)) ∧
      (∀ j, 0 < j → ((run clock m ins j).busy = true ↔ j < k)) ∧
      (∀ j, k ≤ j → (run clock m ins j).result =
        Mext.value (ins 0).op (ins 0).a (ins 0).b) := by
  have hwork : (m.clock (ins 0)).Working (ins 0).op (ins 0).a (ins 0).b :=
    working_of_start hidle hstart
  have hrun : ∀ j, run clock m ins (1 + j) =
      run clock (m.clock (ins 0)) (fun k => ins (1 + k)) j := fun j => run_add clock m ins 1 j
  have hle : (m.clock (ins 0)).left ≤ 33 := by
    have hs : m.state = .idle := by
      simpa [Muldiv.busy] using hidle
    unfold clock step
    rw [hs, hstart]
    exact m.left_accept _ _ _
  obtain ⟨k, hpos, hk, hans, hbefore⟩ := hwork.answered fun k => ins (1 + k)
  rw [← hrun] at hans
  -- after the answer nothing happens
  have hafter : ∀ d, (run clock m ins (1 + k + (d + 1))).busy = false ∧
      (run clock m ins (1 + k + (d + 1))).done = false ∧
      (run clock m ins (1 + k + (d + 1))).result = Mext.value (ins 0).op (ins 0).a (ins 0).b := by
    intro d
    induction d with
    | zero =>
      obtain ⟨hb, hd, hr⟩ := clock_idle hans.busy (hpulse (1 + k) (by omega))
      exact ⟨hb, hd, hr.trans hans.result⟩
    | succ d ih =>
      obtain ⟨hb, hd, hr⟩ := clock_idle ih.1 (hpulse (1 + k + (d + 1)) (by omega))
      exact ⟨hb, hd, hr.trans ih.2.2⟩
  have hcases : ∀ j, 0 < j → (j < 1 + k ∧ (run clock m ins j).busy = true ∧
      (run clock m ins j).done = false) ∨ j = 1 + k ∨ (1 + k < j ∧
      (run clock m ins j).busy = false ∧ (run clock m ins j).done = false) := by
    intro j hj
    rcases lt_trichotomy j (1 + k) with hlt | heq | hgt
    · obtain ⟨d, rfl⟩ := Nat.exists_eq_add_of_le (Nat.succ_le_of_lt hj)
      have hw := hbefore d (by omega)
      rw [← hrun] at hw
      exact Or.inl ⟨hlt, hw.busy, hw.done⟩
    · exact Or.inr (Or.inl heq)
    · obtain ⟨d, rfl⟩ := Nat.exists_eq_add_of_lt hgt
      obtain ⟨hb, hd, -⟩ := hafter d
      exact Or.inr (Or.inr ⟨hgt, hb, hd⟩)
  refine ⟨1 + k, by omega, by omega, ?_, ?_, ?_⟩
  · intro j hj
    rcases hcases j hj with ⟨hlt, -, hd⟩ | heq | ⟨hgt, -, hd⟩
    · simp [hd, Nat.ne_of_lt hlt]
    · simp [heq, hans.done]
    · simp [hd, Nat.ne_of_gt hgt]
  · intro j hj
    rcases hcases j hj with ⟨hlt, hb, -⟩ | heq | ⟨hgt, hb, -⟩
    · simp [hb, hlt]
    · simp [heq, hans.busy]
    · simp [hb, Nat.le_of_lt hgt]
  · intro j hj
    rcases Nat.eq_or_lt_of_le hj with heq | hgt
    · rw [← heq]
      exact hans.result
    · obtain ⟨d, rfl⟩ := Nat.exists_eq_add_of_lt hgt
      exact (hafter d).2.2

/-- The signed remainder that overflows, with other operands presented later. -/
def overflowIns (n : Nat) : MdIn where
  start := n == 0
  op := .rem
  a := 0x80000000#32
  b := BitVec.allOnes 32 - BitVec.ofNat 32 n

theorem one_pulse_overflow :
    ∃ k, 1 < k ∧ k ≤ 34 ∧
      (∀ j, 0 < j → ((run clock {} overflowIns j).done = true ↔ j = k)) ∧
      (∀ j, 0 < j → ((run clock {} overflowIns j).busy = true ↔ j < k)) ∧
      (∀ j, k ≤ j → (run clock {} overflowIns j).result =
        Mext.value .rem 0x80000000#32 0xFFFFFFFF#32) :=
  one_pulse {} overflowIns rfl rfl fun _ hk => beq_eq_false_iff_ne.mpr (Nat.ne_of_gt hk)

end Muldiv

end ThreeSippEs
