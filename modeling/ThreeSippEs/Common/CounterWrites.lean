import ThreeSippEs.Common.Csr

/-!
# Software writes to the counters

The counters are 64 bits wide and written by halves, in a clock in which they count. A
write is to replace the increment: the half that is written takes the value, the other one
keeps what it held.

`mcycle` and `minstret` are assigned in full. An `mhpmcounter` is assigned by slices, over
the increment of the same clock, so that the other half takes part in it.

- `writeCounter_eq`: what a write leaves, one counter at a time;
- `half_write_iff`: when the half that is not written keeps its value.
-/

namespace ThreeSippEs

/-- The counters with two halves. -/
inductive Counter where
  | mcycle
  | minstret
  /-- `mhpmcounter3`..`6` -/
  | hpm (k : Fin 4)
  deriving DecidableEq

inductive Half where
  | low | high
  deriving DecidableEq

namespace Counter

/-- The CSR of a half. -/
def address : Counter → Half → BitVec 12
  | mcycle, .low => csrMcycle
  | mcycle, .high => csrMcycleh
  | minstret, .low => csrMinstret
  | minstret, .high => csrMinstreth
  | hpm k, .low => csrMhpmcounter3 + BitVec.ofNat 12 k.val
  | hpm k, .high => csrMhpmcounter3h + BitVec.ofNat 12 k.val

/-- The low half of an `mhpmcounter` is looked up by its address. -/
theorem hpm_low : ∀ k : Fin 4, address (.hpm k) .low ≠ csrMcycle ∧
    address (.hpm k) .low ≠ csrMcycleh ∧ address (.hpm k) .low ≠ csrMinstret ∧
    address (.hpm k) .low ≠ csrMinstreth ∧
    group4 csrMhpmcounter3 (address (.hpm k) .low) = some k := by
  decide

/-- So is the high one. -/
theorem hpm_high : ∀ k : Fin 4, address (.hpm k) .high ≠ csrMcycle ∧
    address (.hpm k) .high ≠ csrMcycleh ∧ address (.hpm k) .high ≠ csrMinstret ∧
    address (.hpm k) .high ≠ csrMinstreth ∧
    group4 csrMhpmcounter3 (address (.hpm k) .high) = none ∧
    group4 csrMhpmcounter3h (address (.hpm k) .high) = some k := by
  decide

/-- The counters that are assigned in full. -/
def isFull : Counter → Bool
  | hpm _ => false
  | _ => true

end Counter

namespace Counters

def get (t : Counters) : Counter → BitVec 64
  | .mcycle => t.mcycle
  | .minstret => t.minstret
  | .hpm k => t.mhpmcounter k

def set (t : Counters) (r : Counter) (v : BitVec 64) : Counters :=
  match r with
  | .mcycle => { t with mcycle := v }
  | .minstret => { t with minstret := v }
  | .hpm k => { t with mhpmcounter := fun j => if j = k then v else t.mhpmcounter j }

theorem get_set (t : Counters) (r r' : Counter) (v : BitVec 64) :
    (t.set r v).get r' = if r' = r then v else t.get r' := by
  cases r with
  | mcycle | minstret =>
    cases r' with
    | mcycle | minstret | hpm k => rfl
  | hpm k =>
    cases r' with
    | mcycle | minstret => rfl
    | hpm j =>
      refine if_congr ?_ rfl rfl
      exact ⟨congrArg Counter.hpm, Counter.hpm.inj⟩

/-- A slice of a counter, assigned over what it holds. -/
theorem set_hpm (t : Counters) (k : Fin 4) (f : BitVec 64 → BitVec 64) :
    { t with mhpmcounter := fun j => if j = k then f (t.mhpmcounter j) else t.mhpmcounter j } =
      t.set (.hpm k) (f (t.mhpmcounter k)) := by
  have hfun : (fun j => if j = k then f (t.mhpmcounter j) else t.mhpmcounter j) =
      fun j => if j = k then f (t.mhpmcounter k) else t.mhpmcounter j := by
    funext j
    by_cases hj : j = k
    · rw [if_pos hj, if_pos hj, hj]
    · rw [if_neg hj, if_neg hj]
  exact congrArg (fun g => { t with mhpmcounter := g }) hfun

end Counters

/-- A counter whose half takes the value `v`. -/
def Half.put (x : BitVec 64) (v : Word) : Half → BitVec 64
  | low => x.extractLsb 63 32 ++ v
  | high => v ++ x.extractLsb 31 0

/-- The half that is not written. -/
def Half.other (x : BitVec 64) : Half → Word
  | low => x.extractLsb 63 32
  | high => x.extractLsb 31 0

theorem Half.put_inj {x y : BitVec 64} {v : Word} (half : Half) :
    half.put x v = half.put y v ↔ half.other x = half.other y := by
  cases half with
  | low =>
    refine ⟨fun h => ?_, fun h => congrArg (fun w : Word => (w ++ v : BitVec 64)) h⟩
    have hhi := congrArg (fun w : BitVec 64 => w.extractLsb' 32 32) h
    exact BitVec.extractLsb'_append_eq_left.symm.trans
      (hhi.trans BitVec.extractLsb'_append_eq_left)
  | high =>
    refine ⟨fun h => ?_, fun h => congrArg (fun w : Word => (v ++ w : BitVec 64)) h⟩
    have hlo := congrArg (fun w : BitVec 64 => w.extractLsb' 0 32) h
    exact BitVec.extractLsb'_append_eq_right.symm.trans
      (hlo.trans BitVec.extractLsb'_append_eq_right)

/-- The half that is read. -/
def Half.get (x : BitVec 64) : Half → Word
  | low => x.extractLsb 31 0
  | high => x.extractLsb 63 32

theorem Half.get_put (x : BitVec 64) (v : Word) (half : Half) : half.get (half.put x v) = v := by
  cases half with
  | low => exact BitVec.extractLsb'_append_eq_right
  | high => exact BitVec.extractLsb'_append_eq_left

/-- A decrement changes the low half, and the high one by a borrow. -/
theorem Half.get_decrement (x : BitVec 64) (half : Half) :
    half.get (x - 1#64) = half.get x ↔ half = .high ∧ x.extractLsb 31 0 ≠ 0#32 := by
  have hx := x.isLt
  cases half with
  | low =>
    show (x - 1#64).extractLsb 31 0 = x.extractLsb 31 0 ↔ _
    rw [← BitVec.toNat_inj]
    simp [BitVec.extractLsb_toNat, BitVec.toNat_sub]
    omega
  | high =>
    show (x - 1#64).extractLsb 63 32 = x.extractLsb 63 32 ↔ _
    rw [← BitVec.toNat_inj, ne_eq, ← BitVec.toNat_inj]
    simp [BitVec.extractLsb_toNat, BitVec.toNat_sub, Nat.shiftRight_eq_div_pow]
    omega

/-- An increment changes the low half, and the high one by a carry. -/
theorem Half.other_increment (x : BitVec 64) (half : Half) :
    half.other (x + 1#64) = half.other x ↔
      half = .low ∧ x.extractLsb 31 0 ≠ 0xFFFFFFFF#32 := by
  have hx := x.isLt
  cases half with
  | low =>
    show (x + 1#64).extractLsb 63 32 = x.extractLsb 63 32 ↔ _
    rw [← BitVec.toNat_inj, ne_eq, ← BitVec.toNat_inj]
    simp [BitVec.extractLsb_toNat, Nat.shiftRight_eq_div_pow]
    omega
  | high =>
    show (x + 1#64).extractLsb 31 0 = x.extractLsb 31 0 ↔ _
    rw [← BitVec.toNat_inj]
    simp [BitVec.extractLsb_toNat]
    omega

namespace Csr

variable (P : CsrParams) (c : Csr) (i : CsrIn)

/-- The counter counts in this clock. -/
def counts : Counter → Bool
  | .mcycle => true
  | .minstret => i.retire
  | .hpm k => evOccurs i (c.mhpmevent k)

theorem tick_get (r : Counter) :
    (c.tick i).get r = if c.counts i r then c.ctr.get r + 1#64 else c.ctr.get r := by
  cases r with
  | mcycle | minstret | hpm k => rfl

/-- **What a write leaves**: an `mhpmcounter` has counted before. -/
theorem writeCounter_eq {r : Counter} {half : Half} (haddr : i.addr = r.address half) :
    c.writeCounter i = (c.tick i).set r
      (half.put (if r.isFull then c.ctr.get r else (c.tick i).get r) i.wdata) := by
  unfold writeCounter
  rw [haddr]
  cases r with
  | mcycle | minstret =>
    cases half with
    | low | high => rfl
  | hpm k =>
    cases half with
    | low =>
      obtain ⟨h0, h1, h2, h3, hk⟩ := Counter.hpm_low k
      dsimp only
      rw [if_neg h0, if_neg h1, if_neg h2, if_neg h3, hk]
      exact Counters.set_hpm (c.tick i) k fun x => x.extractLsb 63 32 ++ i.wdata
    | high =>
      obtain ⟨h0, h1, h2, h3, hno, hk⟩ := Counter.hpm_high k
      dsimp only
      rw [if_neg h0, if_neg h1, if_neg h2, if_neg h3, hno, hk]
      exact Counters.set_hpm (c.tick i) k fun x => i.wdata ++ x.extractLsb 31 0

/-- The CSR of a half reads it. -/
theorem readCounter_address (r : Counter) (half : Half) :
    c.readCounter (r.address half) = some (half.get (c.ctr.get r)) := by
  cases r with
  | mcycle | minstret =>
    cases half with
    | low | high => rfl
  | hpm k =>
    unfold readCounter
    cases half with
    | low =>
      obtain ⟨h0, h1, h2, h3, hk⟩ := Counter.hpm_low k
      rw [if_neg h0, if_neg h1, if_neg h2, if_neg h3, hk]
      rfl
    | high =>
      obtain ⟨h0, h1, h2, h3, hno, hk⟩ := Counter.hpm_high k
      rw [if_neg h0, if_neg h1, if_neg h2, if_neg h3, hno, hk]
      rfl

/-- **A half-write is exact**: the half takes the value and the other one keeps what it
held; the other counters count. -/
structure HalfWrite (r : Counter) (half : Half) : Prop where
  written : (c.step P i).ctr.get r = half.put (c.ctr.get r) i.wdata
  others : ∀ r' ≠ r,
    (c.step P i).ctr.get r' = if c.counts i r' then c.ctr.get r' + 1#64 else c.ctr.get r'

variable {P c i}

/-- A clock in which software writes a half of a counter. -/
theorem step_half {r : Counter} {half : Half} (htrap : i.trapSet = false)
    (hmret : i.mret = false) (hwe : i.we = true) (haddr : i.addr = r.address half) (r' : Counter) :
    (c.step P i).ctr.get r' =
      if r' = r then half.put (if r.isFull then c.ctr.get r else (c.tick i).get r) i.wdata
      else (c.tick i).get r' := by
  have hstep : (c.step P i).ctr = c.writeCounter i := by
    unfold step
    rw [htrap, hmret, hwe]
    rfl
  rw [hstep, writeCounter_eq c i haddr, Counters.get_set]

/-- **Half-writes are exact** except where an `mhpmcounter` counts in the same clock: its
high half then takes the carry, and its low half the increment. -/
theorem half_write_iff (P : CsrParams) (c : Csr) (i : CsrIn) (r : Counter) (half : Half)
    (htrap : i.trapSet = false) (hmret : i.mret = false) (hwe : i.we = true)
    (haddr : i.addr = r.address half) :
    HalfWrite P c i r half ↔
      (r.isFull = false → c.counts i r = true →
        half = .low ∧ (c.ctr.get r).extractLsb 31 0 ≠ 0xFFFFFFFF#32) := by
  have hwritten := step_half (P := P) (c := c) htrap hmret hwe haddr
  have hiff : (c.step P i).ctr.get r = half.put (c.ctr.get r) i.wdata ↔
      (r.isFull = false → c.counts i r = true →
        half = .low ∧ (c.ctr.get r).extractLsb 31 0 ≠ 0xFFFFFFFF#32) := by
    rw [hwritten, if_pos rfl, Half.put_inj]
    -- the other half is that of the register, or that of the increment
    cases r.isFull with
    | true => exact ⟨fun _ h => absurd h Bool.true_eq_false.mp, fun _ => rfl⟩
    | false =>
      rw [if_neg Bool.false_ne_true, tick_get]
      cases c.counts i r with
      | true =>
        rw [if_pos rfl, Half.other_increment]
        exact ⟨fun h _ _ => h, fun h => h rfl rfl⟩
      | false =>
        rw [if_neg Bool.false_ne_true]
        exact ⟨fun _ _ h => absurd h Bool.false_ne_true, fun _ => rfl⟩
  refine ⟨fun h => hiff.mp h.written, fun h => ⟨hiff.mpr h, fun r' hr => ?_⟩⟩
  rw [hwritten, if_neg hr, tick_get]

/-- A clock with a write of `v` at `a`, in which no instruction retires. -/
def writeIn (a : BitVec 12) (v : Word) : CsrIn where
  addr := a
  we := true
  wdata := v
  trapSet := false
  trapCause := 0#4
  trapInterrupt := false
  trapEpc := 0#32
  trapTval := 0#32
  mret := false
  retire := false
  evBranch := false
  evBrtaken := false
  evLoad := false
  evStore := false

/-- A file without PMP. -/
def plainParams : CsrParams := ⟨0x40001107#32, false, 0⟩

/-- `mhpmcounter3` counts cycles, and its low half is about to wrap. -/
def wrapping : Csr where
  mhpmevent := fun k => if k.val = 0 then hpmEvCycle else 0#6
  ctr := { mcycle := 0xFFFFFFFF#64, mhpmcounter := fun k => if k.val = 0 then 0xFFFFFFFF#64 else 0#64 }

theorem half_write_iff_mcycle :
    HalfWrite plainParams wrapping (writeIn csrMcycle 5#32) .mcycle .low :=
  (half_write_iff plainParams wrapping (writeIn csrMcycle 5#32) .mcycle .low rfl rfl rfl rfl).mpr
    fun h => absurd h (by decide)

/-- The high half takes the carry of an increment that was to be replaced. -/
theorem half_write_carries :
    ¬ HalfWrite plainParams wrapping (writeIn csrMhpmcounter3 5#32) (.hpm 0) .low := by
  intro h
  have hcarry : (wrapping.step plainParams (writeIn csrMhpmcounter3 5#32)).ctr.get (.hpm 0) ≠
      Half.put (wrapping.ctr.get (.hpm 0)) 5#32 .low := by
    decide
  exact hcarry h.written

end Csr

end ThreeSippEs
