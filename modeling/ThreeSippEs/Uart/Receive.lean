import ThreeSippEs.Lib.Sessions
import ThreeSippEs.Uart.Uart

/-!
# What the receiver says about its bytes

The receiver has room for one byte. `rx_ready` tells that it has not been read,
`rx_overrun` that one was overwritten before it was. Both flags are set and cleared in the
process that completes the frames, by what they held before the clock, so a read can meet
a frame.

- `Returned`, `Overwritten`: the life of a byte, in clocks;
- `Accounts`: what the flags and the data register say about it;
- `accounts_iff`: they are right in a clock unless an unread byte is read in the very
  clock in which the next one replaces it.
-/

namespace ThreeSippEs

open Clocked ShiftRegister

def UartBus.readsData (i : UartBus) : Bool := i.re && i.reg == 0b01#2

def UartBus.readsStatus (i : UartBus) : Bool := i.re && i.reg == 0b00#2

/-- One access reads one register. -/
theorem UartBus.readsData_of_readsStatus {i : UartBus} (h : i.readsStatus = true) :
    i.readsData = false := by
  unfold readsStatus at h
  unfold readsData
  rw [Bool.and_eq_true, beq_iff_eq] at h
  rw [h.2]
  exact Bool.and_false i.re

/-! ## One clock -/

namespace UartRx

/-- A frame is complete. -/
def completes (r : UartRx) : Bool := r.rxBusyQ && r.rxBaudCnt == 0#16 && r.rxBitCount == 0#4

variable (r : UartRx) (baudDiv : BitVec 16) (i : UartBus) (serialRx : Bool)

theorem readOut_ready : (r.readOut i).rxReadyQ = (r.rxReadyQ && !i.readsData) := by
  show (if i.readsData then false else r.rxReadyQ) = _
  cases i.readsData with
  | false => exact (Bool.and_true _).symm
  | true => exact (Bool.and_false _).symm

theorem readOut_overrun : (r.readOut i).rxOverrunQ = (r.rxOverrunQ && !i.readsStatus) := by
  show (if i.readsStatus then false else r.rxOverrunQ) = _
  cases i.readsStatus with
  | false => exact (Bool.and_true _).symm
  | true => exact (Bool.and_false _).symm

variable {r}

theorem receive_of_completes (h : r.completes = true) :
    r.receive baudDiv i =
      { r.readOut i with
        rxBusyQ := false
        rxDataQ := r.rxShift
        rxOverrunQ := if r.rxReadyQ then true else (r.readOut i).rxOverrunQ
        rxReadyQ := true
        rxIrq := true } := by
  unfold completes at h
  simp only [Bool.and_eq_true, beq_iff_eq] at h
  exact receive_stop baudDiv i h.1.1 h.1.2 h.2

/-- In any other clock the reads are all that happens. -/
theorem receive_of_not_completes (h : r.completes = false) :
    (r.receive baudDiv i).rxReadyQ = (r.readOut i).rxReadyQ ∧
    (r.receive baudDiv i).rxOverrunQ = (r.readOut i).rxOverrunQ ∧
    (r.receive baudDiv i).rxDataQ = r.rxDataQ := by
  cases hbusy : r.rxBusyQ with
  | false =>
    cases hline : r.rxSync.getLsbD 1 with
    | false =>
      rw [receive_start baudDiv i hbusy hline]
      exact ⟨rfl, rfl, rfl⟩
    | true =>
      rw [receive_idle baudDiv i hbusy hline]
      exact ⟨rfl, rfl, rfl⟩
  | true =>
    by_cases hbaud : r.rxBaudCnt = 0#16
    · have hcount : r.rxBitCount ≠ 0#4 := by
        intro hcount
        unfold completes at h
        rw [hbusy, hbaud, hcount] at h
        exact absurd h (by decide)
      rw [receive_sample baudDiv i hbusy hbaud hcount]
      exact ⟨rfl, rfl, rfl⟩
    · rw [receive_count baudDiv i hbusy hbaud]
      exact ⟨rfl, rfl, rfl⟩

theorem step_ready :
    (r.step baudDiv i serialRx).rxReadyQ = (r.completes || (r.rxReadyQ && !i.readsData)) := by
  show (r.receive baudDiv i).rxReadyQ = _
  cases hc : r.completes with
  | true => rw [receive_of_completes baudDiv i hc, Bool.true_or]
  | false => rw [(receive_of_not_completes baudDiv i hc).1, readOut_ready, Bool.false_or]

theorem step_overrun :
    (r.step baudDiv i serialRx).rxOverrunQ =
      ((r.completes && r.rxReadyQ) || (r.rxOverrunQ && !i.readsStatus)) := by
  show (r.receive baudDiv i).rxOverrunQ = _
  cases hc : r.completes with
  | true =>
    rw [receive_of_completes baudDiv i hc, ← readOut_overrun, Bool.true_and]
    cases r.rxReadyQ with
    | true => rfl
    | false => rfl
  | false =>
    rw [(receive_of_not_completes baudDiv i hc).2.1, readOut_overrun, Bool.false_and,
      Bool.false_or]

theorem step_data :
    (r.step baudDiv i serialRx).rxDataQ = if r.completes then r.rxShift else r.rxDataQ := by
  show (r.receive baudDiv i).rxDataQ = _
  cases hc : r.completes with
  | true => rw [receive_of_completes baudDiv i hc, if_pos rfl]
  | false => rw [(receive_of_not_completes baudDiv i hc).2.2, if_neg Bool.false_ne_true]

end UartRx

/-! ## The life of a byte -/

namespace Receive

/-- One clock, with the level of the line. -/
def step (s : Uart) (i : UartBus × Bool) : Uart := s.step i.1 i.2

variable (baudDivRst : BitVec 16) (ins : Nat → UartBus × Bool)

/-- The UART `n` clocks after reset. -/
def state (n : Nat) : Uart := run step (.reset baudDivRst) ins n

/-- In clock `n` a byte arrives. -/
def arrives (n : Nat) : Bool := (state baudDivRst ins n).rx.completes

/-- That byte. -/
def byte (n : Nat) : BitVec 8 := (state baudDivRst ins n).rx.rxShift

def readsData (n : Nat) : Bool := (ins n).1.readsData

def readsStatus (n : Nat) : Bool := (ins n).1.readsStatus

/-- The byte of clock `k` is returned by a data read in clock `j`. -/
structure Returned (k j : Nat) : Prop where
  read : readsData ins j = true
  last : Last (arrives baudDivRst ins) k j

/-- The byte of clock `k` is overwritten in clock `n` and no read has returned it. -/
structure Overwritten (k n : Nat) : Prop where
  next : Consecutive (arrives baudDivRst ins) k n
  unread : ∀ j, ¬ Returned baudDivRst ins k j

/-- A byte is lost in clock `n`. -/
def Overruns (n : Nat) : Prop := ∃ k, Overwritten baudDivRst ins k n

/-- **What clock `n` says about the bytes is right.** -/
structure Accounts (n : Nat) : Prop where
  /-- `rx_ready` is up when no read before this clock has returned the last byte -/
  ready : (state baudDivRst ins n).rx.rxReadyQ = true ↔
    ∃ k, Last (arrives baudDivRst ins) k n ∧ ∀ j < n, ¬ Returned baudDivRst ins k j
  /-- a data read gives the byte it is said to return -/
  data (k : Nat) : Returned baudDivRst ins k n →
    (state baudDivRst ins n).rdata (ins n).1 = byte baudDivRst ins k
  /-- `rx_overrun` goes up when a byte is overwritten that no read has returned -/
  rises : (state baudDivRst ins n).rx.rxOverrunQ = false →
    ((state baudDivRst ins (n + 1)).rx.rxOverrunQ = true ↔ Overruns baudDivRst ins n)
  /-- it goes down with a status read that meets no new overrun -/
  falls : (state baudDivRst ins n).rx.rxOverrunQ = true →
    ((state baudDivRst ins (n + 1)).rx.rxOverrunQ = false ↔
      readsStatus ins n = true ∧ ¬ Overruns baudDivRst ins n)
  /-- no byte is lost silently -/
  lost : Overruns baudDivRst ins n → (state baudDivRst ins (n + 1)).rx.rxOverrunQ = true

/-- An unread byte is read in the clock in which the next one arrives, with `rx_overrun`
down. -/
def collides (n : Nat) : Bool :=
  arrives baudDivRst ins n && readsData ins n && (state baudDivRst ins n).rx.rxReadyQ &&
    !(state baudDivRst ins n).rx.rxOverrunQ

section

variable {baudDivRst : BitVec 16} {ins : Nat → UartBus × Bool}

/-! ## The flags over a run -/

theorem ready_succ (n : Nat) : (state baudDivRst ins (n + 1)).rx.rxReadyQ =
    (arrives baudDivRst ins n ||
      ((state baudDivRst ins n).rx.rxReadyQ && !readsData ins n)) :=
  UartRx.step_ready _ (ins n).1 (ins n).2

theorem overrun_succ (n : Nat) : (state baudDivRst ins (n + 1)).rx.rxOverrunQ =
    ((arrives baudDivRst ins n && (state baudDivRst ins n).rx.rxReadyQ) ||
      ((state baudDivRst ins n).rx.rxOverrunQ && !readsStatus ins n)) :=
  UartRx.step_overrun _ (ins n).1 (ins n).2

theorem data_succ (n : Nat) : (state baudDivRst ins (n + 1)).rx.rxDataQ =
    if arrives baudDivRst ins n then byte baudDivRst ins n
    else (state baudDivRst ins n).rx.rxDataQ :=
  UartRx.step_data _ (ins n).1 (ins n).2

/-- `rx_ready` since reset. -/
theorem ready_iff (n : Nat) : (state baudDivRst ins n).rx.rxReadyQ = true ↔
    ∃ k, Last (arrives baudDivRst ins) k n ∧ ∀ j, k < j → j < n → readsData ins j = false :=
  (Since.flag_iff (f := fun n => (state baudDivRst ins n).rx.rxReadyQ) rfl ready_succ n).trans
    Since.iff_last

/-- The data register holds the last byte. -/
theorem data_of_last {k n : Nat} (h : Last (arrives baudDivRst ins) k n) :
    (state baudDivRst ins n).rx.rxDataQ = byte baudDivRst ins k := by
  have hkeep := unchanged (f := fun n => (state baudDivRst ins n).rx.rxDataQ)
    (fun j hj => by rw [data_succ, hj, if_neg Bool.false_ne_true]) h.lt
    fun j hkj hjn => h.after j hkj hjn
  rw [hkeep, data_succ, h.event, if_pos rfl]

/-- Between two arrivals, to be read is to be returned. -/
theorem unread_iff {k n : Nat} (h : Last (arrives baudDivRst ins) k n) :
    (∀ j < n, ¬ Returned baudDivRst ins k j) ↔
      ∀ j, k < j → j < n → readsData ins j = false := by
  constructor
  · intro hno j hkj hjn
    by_contra hread
    rw [Bool.not_eq_false] at hread
    exact hno j hjn
      ⟨hread, hkj, h.event, fun m hkm hmj => h.after m hkm (Nat.lt_trans hmj hjn)⟩
  · intro hno j hjn hret
    exact absurd (hret.read.symm.trans (hno j hret.last.lt hjn)) (by simp)

/-- **A byte is lost** when `rx_ready` is up, the next one arrives and nothing reads. -/
theorem overruns_iff (n : Nat) : Overruns baudDivRst ins n ↔
    arrives baudDivRst ins n = true ∧ (state baudDivRst ins n).rx.rxReadyQ = true ∧
      readsData ins n = false := by
  constructor
  · rintro ⟨k, hnext, hno⟩
    refine ⟨hnext.second, (ready_iff n).mpr ⟨k, hnext.last, ?_⟩, ?_⟩
    · exact (unread_iff hnext.last).mp fun j _ => hno j
    · by_contra hread
      rw [Bool.not_eq_false] at hread
      exact hno n ⟨hread, hnext.last⟩
  · rintro ⟨hc, hready, hread⟩
    obtain ⟨k, hlast, hno⟩ := (ready_iff n).mp hready
    refine ⟨k, hlast.consecutive hc, fun j hret => ?_⟩
    rcases Nat.lt_trichotomy j n with hlt | rfl | hgt
    · exact (unread_iff hlast).mpr hno j hlt hret
    · exact absurd (hret.read.symm.trans hread) (by simp)
    · -- by then the byte is gone
      exact absurd (hc.symm.trans (hret.last.after n hlast.lt hgt)) (by simp)

theorem rdata_of_readsData {s : Uart} {i : UartBus} (h : i.readsData = true) :
    s.rdata i = s.rx.rxDataQ := by
  unfold UartBus.readsData at h
  rw [Bool.and_eq_true, beq_iff_eq] at h
  unfold Uart.rdata
  rw [h.2]
  rfl

/-- A status read reads no data. -/
theorem readsData_of_readsStatus {n : Nat} (h : readsStatus ins n = true) :
    readsData ins n = false :=
  UartBus.readsData_of_readsStatus h

/-- Without a collision the test of the source tells, where it makes a difference. -/
theorem tested_iff {n : Nat} (hcol : collides baudDivRst ins n = false)
    (hwhen : (state baudDivRst ins n).rx.rxOverrunQ = false ∨ readsStatus ins n = true) :
    (arrives baudDivRst ins n && (state baudDivRst ins n).rx.rxReadyQ) = true ↔
      Overruns baudDivRst ins n := by
  rw [overruns_iff, Bool.and_eq_true]
  refine ⟨fun ⟨hc, hready⟩ => ⟨hc, hready, ?_⟩, fun h => ⟨h.1, h.2.1⟩⟩
  rcases hwhen with hov | hstatus
  · unfold collides at hcol
    rw [hc, hready, hov] at hcol
    simpa using hcol
  · exact readsData_of_readsStatus hstatus

/-- **`rx_overrun` over a run**: a byte has been lost since the last status read. -/
theorem overrun_iff (n : Nat) (hcol : ∀ m < n, collides baudDivRst ins m = false) :
    (state baudDivRst ins n).rx.rxOverrunQ = true ↔
      Since (Overruns baudDivRst ins) (fun k => readsStatus ins k = true) n := by
  induction n with
  | zero => exact ⟨fun h => absurd h Bool.false_ne_true, fun h => absurd h Since.zero⟩
  | succ n ih =>
    have hagree := tested_iff (hcol n (Nat.lt_succ_self n))
    rw [Since.succ, ← ih fun m hm => hcol m (Nat.lt_succ_of_lt hm), overrun_succ,
      Bool.or_eq_true]
    cases hov : (state baudDivRst ins n).rx.rxOverrunQ with
    | false =>
      rw [hagree (.inl hov), Bool.false_and]
      simp
    | true =>
      cases hstatus : readsStatus ins n with
      | false => simp
      | true =>
        rw [hagree (.inr hstatus)]
        simp

end

/-! ## The account -/

/-- **The flags are right** in every clock of every run in which no unread byte is read
just as the next one arrives. -/
theorem accounts_iff (n : Nat) :
    Accounts baudDivRst ins n ↔ collides baudDivRst ins n = false := by
  have hsucc := @overrun_succ baudDivRst ins n
  have hover := @overruns_iff baudDivRst ins n
  constructor
  · intro h
    by_contra hcol
    unfold collides at hcol
    simp only [Bool.not_eq_false, Bool.and_eq_true, Bool.not_eq_true'] at hcol
    obtain ⟨⟨⟨hc, hread⟩, hready⟩, hov⟩ := hcol
    rw [hc, hready] at hsucc
    have hlost := hover.mp ((h.rises hov).mp hsucc)
    exact absurd (hread.symm.trans hlost.2.2) (by simp)
  · intro hcol
    have hagree := tested_iff hcol
    refine ⟨?_, fun k hret => ?_, fun hov => ?_, fun hov => ?_, fun hlost => ?_⟩
    · rw [ready_iff]
      exact exists_congr fun k => and_congr_right fun hlast => (unread_iff hlast).symm
    · rw [← data_of_last hret.last]
      exact rdata_of_readsData hret.read
    · rw [hsucc, hov, Bool.false_and, Bool.or_false]
      exact hagree (.inl hov)
    · cases hstatus : readsStatus ins n with
      | false =>
        rw [hsucc, hov, hstatus, Bool.not_false, Bool.and_true, Bool.or_true]
        exact ⟨fun h => absurd h.symm Bool.false_ne_true, fun h => absurd h.1 Bool.false_ne_true⟩
      | true =>
        rw [hsucc, hov, hstatus, Bool.not_true, Bool.and_false, Bool.or_false,
          ← hagree (.inr hstatus), Bool.not_eq_true]
        exact ⟨fun h => ⟨rfl, h⟩, fun h => h.2⟩
    · obtain ⟨hc, hready, -⟩ := hover.mp hlost
      rw [hsucc, hc, hready]
      rfl

/-- The letter `A` twice, four clocks a bit. The first one is read in the clock in which the
second one is complete. -/
def readInTime (n : Nat) : UartBus × Bool :=
  ({ addr := 4#4, re := n == 80 }, (1#1 ++ 0x41#8 ++ 0#1 : BitVec 10).getLsbD (n / 4 % 10))

/-- It is returned and nothing is lost, but `rx_overrun` goes up. -/
theorem overrun_without_loss :
    ¬ ∀ (baudDivRst : BitVec 16) (ins : Nat → UartBus × Bool) (n : Nat),
      Accounts baudDivRst ins n := by
  intro h
  have hbefore : (state 4#16 readInTime 80).rx.rxOverrunQ = false := by decide +kernel
  have hafter : (state 4#16 readInTime 81).rx.rxOverrunQ = true := by decide +kernel
  have hlost := (overruns_iff 80).mp (((h 4#16 readInTime 80).rises hbefore).mp hafter)
  exact absurd hlost.2.2 (by decide)

end Receive

end ThreeSippEs
