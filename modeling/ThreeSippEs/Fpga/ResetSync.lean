import ThreeSippEs.Lib.Clocked

/-!
# The reset synchronizer (`three_sipp_es_reset_sync.sv`)

A chain of flip-flops that the asynchronous reset fills at once and that the clock
empties. The chain sees two kinds of events, edges of the clock and changes of
`async_rst_in`, in any order.

- `ResetSync.step`: both branches of the `generate`, with the polarity as parameter;
- `sync_out`: when the output is asserted, in terms of the events alone.
-/

namespace ThreeSippEs

/-- What the flip-flops of the chain react to. -/
inductive SyncEvent where
  /-- a rising edge of `clk` -/
  | clk
  /-- a new level of `async_rst_in` -/
  | async (level : Bool)
  deriving DecidableEq

/-- The chain, with the level of `async_rst_in`. -/
structure ResetSync (depth : Nat) where
  asyncRstIn : Bool
  syncChain : BitVec depth
  deriving DecidableEq

namespace ResetSync

open Clocked

variable {depth : Nat} (activeHigh : Bool)

/-- `ASSERTED`; `RELEASED` is its negation. -/
def asserted : Bool := activeHigh

/-- `{DEPTH{ASSERTED}}` -/
def full : BitVec depth := BitVec.fill depth (asserted activeHigh)

/-- `{sync_chain[DEPTH-2:0], RELEASED}` -/
def shift (chain : BitVec depth) : BitVec depth :=
  (chain ++ BitVec.ofBool (!asserted activeHigh)).setWidth depth

variable (s : ResetSync depth)

/-- The input asks for a reset. -/
def requested : Bool := s.asyncRstIn == asserted activeHigh

/-- One event. A change of the input is seen when it asserts the reset. -/
def step : SyncEvent → ResetSync depth
  | .clk =>
    { s with
      syncChain := if s.requested activeHigh then full activeHigh else shift activeHigh s.syncChain }
  | .async level =>
    { asyncRstIn := level
      syncChain :=
        if !s.requested activeHigh && level == asserted activeHigh then full activeHigh
        else s.syncChain }

theorem step_clk : s.step activeHigh .clk =
    { s with
      syncChain :=
        if s.requested activeHigh then full activeHigh else shift activeHigh s.syncChain } := rfl

theorem step_async (level : Bool) : s.step activeHigh (.async level) =
    { asyncRstIn := level
      syncChain :=
        if !s.requested activeHigh && level == asserted activeHigh then full activeHigh
        else s.syncChain } := rfl

/-- `sync_rst_out` -/
def syncRstOut : Bool := s.syncChain.getLsbD (depth - 1)

section

variable {activeHigh}

@[simp] theorem getLsbD_full {i : Nat} (hi : i < depth) :
    (full activeHigh : BitVec depth).getLsbD i = asserted activeHigh := by
  unfold full
  rw [BitVec.getLsbD_fill, decide_eq_true hi, Bool.and_true]

theorem getLsbD_shift (chain : BitVec depth) {i : Nat} (hi : i < depth) :
    (shift activeHigh chain).getLsbD i =
      if i = 0 then !asserted activeHigh else chain.getLsbD (i - 1) := by
  unfold shift
  rw [BitVec.getLsbD_setWidth, decide_eq_true hi, Bool.true_and, BitVec.getLsbD_append]
  cases i with
  | zero => simp
  | succ i => simp

end

/-! ## Runs -/

/-- The edges of the clock among the events `k`, ..., `n - 1`. -/
def edges (ins : Nat → SyncEvent) (k n : Nat) : Nat :=
  ((List.range' k (n - k)).filter fun j => ins j = .clk).length

theorem edges_self (ins : Nat → SyncEvent) (k : Nat) : edges ins k k = 0 := by
  unfold edges
  rw [Nat.sub_self]
  rfl

theorem edges_succ (ins : Nat → SyncEvent) {k n : Nat} (h : k ≤ n) :
    edges ins k (n + 1) = edges ins k n + if ins n = .clk then 1 else 0 := by
  unfold edges
  rw [Nat.sub_add_comm h, List.range'_concat, List.filter_append, List.length_append,
    Nat.one_mul, Nat.add_sub_cancel' h]
  split
  case isTrue hclk => simp [hclk]
  case isFalse hclk => simp [hclk]

section Run

variable {activeHigh} {s} {ins : Nat → SyncEvent}

/-- A requested reset has filled the chain, unless the request was there at power-up. -/
theorem full_of_requested (h0 : s.requested activeHigh = false) (n : Nat)
    (h : (run (step activeHigh) s ins n).requested activeHigh = true) :
    (run (step activeHigh) s ins n).syncChain = full activeHigh := by
  induction n with
  | zero => exact absurd (h0.symm.trans h) Bool.false_ne_true
  | succ n ih =>
    rw [run_succ] at h ⊢
    generalize run (step activeHigh) s ins n = t at ih h ⊢
    cases hev : ins n with
    | clk =>
      rw [hev] at h
      exact if_pos h
    | async level =>
      rw [hev] at h
      have hlevel : (level == asserted activeHigh) = true := h
      rw [step_async, hlevel, Bool.and_true]
      cases hreq : t.requested activeHigh with
      | true => exact ih hreq
      | false => rfl

/-- Since the last request the clock has emptied the chain from below. -/
theorem chain_released (h0 : s.requested activeHigh = false) {k : Nat}
    (hk : (run (step activeHigh) s ins k).requested activeHigh = true) (n : Nat) (hkn : k ≤ n)
    (hno : ∀ j, k < j → j ≤ n → (run (step activeHigh) s ins j).requested activeHigh = false) :
    ∀ i < depth, (run (step activeHigh) s ins n).syncChain.getLsbD i =
      if i < edges ins k n then !asserted activeHigh else asserted activeHigh := by
  induction n, hkn using Nat.le_induction with
  | base =>
    intro i hi
    rw [full_of_requested h0 k hk, edges_self, if_neg (Nat.not_lt_zero i), getLsbD_full hi]
  | succ n hkn ih =>
    intro i hi
    have ih' := ih fun j hkj hjn => hno j hkj (Nat.le_succ_of_le hjn)
    have hnow := hno (n + 1) (Nat.lt_succ_of_le hkn) (Nat.le_refl _)
    rw [edges_succ ins hkn]
    rw [run_succ] at hnow ⊢
    generalize run (step activeHigh) s ins n = t at ih' hnow ⊢
    cases hev : ins n with
    | clk =>
      rw [hev] at hnow
      have hreq : t.requested activeHigh = false := hnow
      rw [step_clk, hreq, if_pos rfl]
      show (shift activeHigh t.syncChain).getLsbD i = _
      rw [getLsbD_shift _ hi]
      cases i with
      | zero => rw [if_pos rfl, if_pos (Nat.succ_pos _)]
      | succ i =>
        rw [if_neg (Nat.succ_ne_zero i), Nat.add_sub_cancel, ih' i (Nat.lt_of_succ_lt hi)]
        simp only [Nat.add_lt_add_iff_right]
    | async level =>
      rw [hev] at hnow
      have hlevel : (level == asserted activeHigh) = false := hnow
      have hne : SyncEvent.async level ≠ .clk := fun h => by cases h
      rw [step_async, hlevel, Bool.and_false, if_neg hne, Nat.add_zero]
      exact ih' i hi

/-- **The synchronizer**: while the reset is requested the output is asserted, from the
very event that requests it. After the last request it stays asserted for the next
`depth` edges of the clock, whatever else the input did before, and falls with the last
of these. -/
theorem sync_out (activeHigh : Bool) (hd : 0 < depth) (s : ResetSync depth)
    (h0 : s.requested activeHigh = false) (ins : Nat → SyncEvent) (k n : Nat) (hkn : k ≤ n)
    (hk : (run (step activeHigh) s ins k).requested activeHigh = true)
    (hno : ∀ j, k < j → j ≤ n → (run (step activeHigh) s ins j).requested activeHigh = false) :
    (run (step activeHigh) s ins n).syncRstOut = asserted activeHigh ↔ edges ins k n < depth := by
  unfold syncRstOut
  rw [chain_released h0 hk n hkn hno (depth - 1) (by omega)]
  constructor
  · intro h
    by_contra hge
    rw [if_pos (by omega)] at h
    cases hact : asserted activeHigh <;> rw [hact] at h <;> cases h
  · intro hlt
    rw [if_neg (by omega)]

/-- A request of one clock, and two of the three edges behind it. -/
def pulse (n : Nat) : SyncEvent :=
  if n = 0 then .async true else if n = 2 then .async false else .clk

theorem sync_out_pulse :
    (run (step true) (⟨false, 0#3⟩ : ResetSync 3) pulse 5).syncRstOut = asserted true ↔
      edges pulse 2 5 < 3 :=
  sync_out true (by decide) ⟨false, 0#3⟩ rfl pulse 2 5 (by decide) (by decide) fun j hj hj' => by
    interval_cases j <;> decide

end Run

end ResetSync

end ThreeSippEs
