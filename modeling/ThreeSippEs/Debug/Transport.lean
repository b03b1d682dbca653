import ThreeSippEs.Debug.Dtm
import ThreeSippEs.Lib.Clocked

/-!
# DMI transport

What happens in the Debug Module is compared with the walk of the TAP that the pins
show: the bits shifted in since the last capture are the request, and the register
that holds them is a queue.

- `Walk`: the TAP and the bits, after the rising edges of TCK;
- `Faithful`: what a debugger relies on, clock by clock;
- `dmi_transport`: runs in which no reset comes while a DMI write is pending.
-/

namespace ThreeSippEs.Transport

open Clocked ShiftRegister Dtm

/-! ## Walks of the TAP -/

/-- What the pins show at a rising edge of TCK. -/
structure Edge where
  tms : Bool
  tdi : Bool
  deriving DecidableEq

/-- The TAP, and the bits shifted in since the last Capture-DR, the first one first. -/
structure Walk where
  tap : Tap := .tlr
  bits : List Bool := []
  deriving DecidableEq

def Walk.step (w : Walk) (e : Edge) : Walk where
  tap := w.tap.next e.tms
  bits :=
    match w.tap with
    | .capDr => []
    | .shfDr => w.bits ++ [e.tdi]
    | _ => w.bits

/-- The walk after the edges `es`, from Test-Logic-Reset. -/
def walk (es : List Edge) : Walk := es.foldl Walk.step {}

/-! ## Runs -/

section Run

variable (idcode : Word) (u : DebugUnit) (ins : Nat → DebugIn)

/-- The unit after `n` clocks. -/
def unit (n : Nat) : DebugUnit := run (DebugUnit.step idcode) u ins n

/-- The samples of the pins. Before the first clock there are two more: the
synchronisers hold them. -/
def pinsAt : Nat → Pins
  | 0 => ⟨u.dtm.tckS.getLsbD 1, u.dtm.tmsS.getLsbD 1, u.dtm.tdiS.getLsbD 1⟩
  | 1 => ⟨u.dtm.tckS.getLsbD 0, u.dtm.tmsS.getLsbD 0, u.dtm.tdiS.getLsbD 0⟩
  | n + 2 => (ins n).toPins

/-- There is a rising edge between two samples. The unit sees it in clock `n`. -/
def rises (n : Nat) : Bool := !(pinsAt u ins n).tck && (pinsAt u ins (n + 1)).tck

/-- TMS and TDI do not change around the rising edges. -/
def Stable : Prop :=
  ∀ n, rises u ins n = true → (pinsAt u ins n).tms = (pinsAt u ins (n + 1)).tms ∧
    (pinsAt u ins n).tdi = (pinsAt u ins (n + 1)).tdi

/-- The edges that the unit has seen before clock `n`, since the last reset. -/
def edges : Nat → List Edge
  | 0 => []
  | n + 1 =>
    if (ins n).rst then []
    else if rises u ins n then
      edges n ++ [⟨(pinsAt u ins (n + 1)).tms, (pinsAt u ins (n + 1)).tdi⟩]
    else edges n

/-- In clock `n` the walk leaves Update-DR with IR = DMI. -/
def leaves (n : Nat) : Bool :=
  !(ins n).rst && rises u ins n && (walk (edges u ins n)).tap == .updDr &&
    (unit idcode u ins n).dtm.ir == irDmi

/-- The bits of the walk as a DMI request. -/
def request (n : Nat) : BitVec 41 := word 41 (walk (edges u ins n)).bits

/-- What a debugger relies on in clock `n`. -/
structure Faithful (n : Nat) : Prop where
  /-- TDO shows zeros, the data of the latest read and the status, the lowest bit first -/
  tdo : (walk (edges u ins n)).tap = .shfDr → (unit idcode u ins n).dtm.ir = irDmi →
    (walk (edges u ins n)).bits.length < 41 →
    (unit idcode u ins n).dtm.tdo =
      (0#7 ++ (unit idcode u ins n).dtm.dmiRdata ++ (unit idcode u ins n).dtm.dmiRstat).getLsbD
        (walk (edges u ins n)).bits.length
  /-- op 2 is one write, no other op is one -/
  write : leaves idcode u ins n = true → (walk (edges u ins n)).bits.length = 41 →
    (unit idcode u ins (n + 1)).applied (ins (n + 1)) =
      if dmiOp (request u ins n) = 2#2 then
        some (dmiAddr (request u ins n), dmiData (request u ins n))
      else none
  /-- op 1 samples the register, no other op does -/
  read : leaves idcode u ins n = true → (walk (edges u ins n)).bits.length = 41 →
    (unit idcode u ins (n + 1)).dtm.dmiRdata =
      if dmiOp (request u ins n) = 1#2 then
        (unit idcode u ins n).dm.dmRead (ins n).dbgHalted (dmiAddr (request u ins n))
      else (unit idcode u ins n).dtm.dmiRdata
  /-- no other walk writes -/
  onlyWrite : ((unit idcode u ins (n + 1)).applied (ins (n + 1))).isSome = true →
    leaves idcode u ins n = true
  /-- nor reads -/
  onlyRead : (unit idcode u ins (n + 1)).dtm.dmiRdata ≠ (unit idcode u ins n).dtm.dmiRdata →
    leaves idcode u ins n = true
  /-- without a write only the engine works on the registers -/
  unwritten : (ins n).rst = false → (unit idcode u ins n).applied (ins n) = none →
    (unit idcode u ins (n + 1)).dm = (unit idcode u ins n).dm.engine
      ((unit idcode u ins n).dmIn (ins n) none)
      { (unit idcode u ins n).dm with dbgResumereq := false }

/-! ## One clock of the transport -/

/-- The TAP is between Capture-DR and the end of Update-DR. -/
def inScan (t : Tap) : Bool :=
  t == .shfDr || t == .ex1Dr || t == .pauDr || t == .ex2Dr || t == .updDr

/-- The registers hold the walk `w`. -/
structure Tracks (d : Dtm) (w : Walk) : Prop where
  tap : d.tap = w.tap
  dr : inScan w.tap = true → d.ir = irDmi → d.dr = shiftAll d.dmiCapture w.bits

end Run

variable {d : Dtm} {w : Walk} {p : Pins} (idcode : Word) (rd : BitVec 7 → Word)

theorem Tracks.reset : Tracks (d.step idcode true p rd) {} :=
  ⟨rfl, fun h => absurd h Bool.false_ne_true⟩

/-- Outside Update-DR nothing is read or written. -/
theorem drNext_keeps (h : (d.tckRise && d.tap == .updDr && d.ir == irDmi) = false) :
    (d.drNext idcode rd).dmiRdata = d.dmiRdata ∧ (d.drNext idcode rd).dmiRstat = d.dmiRstat ∧
    (d.drNext idcode rd).dmiWePulse = false := by
  unfold drNext
  cases hr : d.tckRise with
  | false => exact ⟨rfl, rfl, rfl⟩
  | true =>
    rw [hr, Bool.true_and] at h
    rw [if_pos rfl]
    cases ht : d.tap with
    | shfDr =>
      dsimp only
      unfold shiftDr
      split
      · exact ⟨rfl, rfl, rfl⟩
      · split <;> exact ⟨rfl, rfl, rfl⟩
    | updDr =>
      rw [ht, beq_self_eq_true, Bool.true_and, beq_eq_false_iff_ne] at h
      dsimp only
      unfold updateDr
      rw [if_neg (show d.pulseLow.ir ≠ irDmi from h)]
      exact ⟨rfl, rfl, rfl⟩
    | _ => exact ⟨rfl, rfl, rfl⟩

/-- Only Capture-DR and Shift-DR touch the shift register. -/
theorem drNext_dr (hr : d.tckRise = true) (hi : d.ir = irDmi) :
    (d.drNext idcode rd).dr =
      match d.tap with
      | .capDr => d.dmiCapture
      | .shfDr => shiftIn d.dr d.tdiQ
      | _ => d.dr := by
  have hlow : d.pulseLow.ir = irDmi := hi
  unfold drNext
  rw [if_pos hr]
  cases d.tap with
  | capDr =>
    dsimp only
    unfold captureDr
    rw [hlow]
    rfl
  | shfDr =>
    dsimp only
    unfold shiftDr
    rw [hlow]
    rfl
  | updDr =>
    dsimp only
    unfold updateDr
    rw [if_pos hlow]
    split
    · rfl
    · split <;> rfl
  | _ => rfl

theorem drNext_still (hr : d.tckRise = false) : d.drNext idcode rd = d.pulseLow := by
  unfold drNext
  rw [hr]
  rfl

/-- A scan is entered through Capture-DR. -/
theorem next_inScan {t : Tap} {tms : Bool} (h : inScan (t.next tms) = true) :
    t = .capDr ∨ (inScan t = true ∧ t ≠ .updDr) := by
  revert h
  cases t <;> cases tms <;> decide

/-- **One clock**: a rising edge is a step of the walk. -/
theorem Tracks.step (h : Tracks d w) :
    Tracks (d.step idcode false p rd)
      (if d.tckRise then w.step ⟨d.tmsQ, d.tdiQ⟩ else w) := by
  cases hr : d.tckRise with
  | false =>
    have hkeep := drNext_still idcode rd hr
    refine ⟨?_, fun hs hi => ?_⟩
    · show (if d.tckRise then d.tap.next d.tmsQ else d.tap) = w.tap
      rw [hr]
      exact h.tap
    · have hir : d.ir = irDmi := by
        rw [← hi]
        show d.ir = if d.tckRise then d.irNext else d.ir
        rw [hr]
        rfl
      -- neither the queue nor what a capture would load changes
      show (d.drNext idcode rd).dr = shiftAll (0#7 ++ (d.drNext idcode rd).dmiRdata ++
        (d.drNext idcode rd).dmiRstat) w.bits
      rw [hkeep]
      exact h.dr hs hir
  | true =>
    refine ⟨?_, fun hs hi => ?_⟩
    · show (if d.tckRise then d.tap.next d.tmsQ else d.tap) = w.tap.next d.tmsQ
      rw [hr, if_pos rfl, h.tap]
    · have hfrom := next_inScan hs
      -- within a scan nothing is read, so the capture is still the latest answer
      have hne : d.tap ≠ .updDr := by
        rw [h.tap]
        rcases hfrom with hc | ⟨-, hu⟩
        · rw [hc]
          decide
        · exact hu
      have hir : d.ir = irDmi := by
        rw [← hi]
        show d.ir = if d.tckRise then d.irNext else d.ir
        rw [hr, if_pos rfl]
        unfold irNext
        rw [h.tap]
        rcases hfrom with hc | ⟨hin, -⟩
        · rw [hc]
          rfl
        · revert hin
          cases w.tap <;> simp [inScan]
      obtain ⟨hdata, hstat, -⟩ := drNext_keeps (d := d) idcode rd (by
        rw [beq_false_of_ne hne, Bool.and_false, Bool.false_and])
      show (d.drNext idcode rd).dr = shiftAll (0#7 ++ (d.drNext idcode rd).dmiRdata ++
        (d.drNext idcode rd).dmiRstat) (w.step ⟨d.tmsQ, d.tdiQ⟩).bits
      rw [hdata, hstat, drNext_dr idcode rd hr hir]
      unfold Walk.step
      dsimp only
      rw [h.tap]
      rcases hfrom with hc | ⟨hin, -⟩
      · rw [hc]
        rfl
      · have hdr := h.dr hin hir
        revert hin
        cases w.tap <;> intro hin <;> first | exact absurd hin (by decide) | exact hdr | skip
        show shiftIn d.dr d.tdiQ = _
        rw [shiftAll_append, hdr]
        rfl

/-- Update-DR carries out the request in the shift register. -/
theorem drNext_update (hr : d.tckRise = true) (ht : d.tap = .updDr) (hi : d.ir = irDmi) :
    (d.drNext idcode rd).dmiRdata =
        (if dmiOp d.dr = 1#2 then rd (dmiAddr d.dr) else d.dmiRdata) ∧
      (if (d.drNext idcode rd).dmiWePulse then
          some ((d.drNext idcode rd).dmiWeAddr, (d.drNext idcode rd).dmiWeData) else none) =
        if dmiOp d.dr = 2#2 then some (dmiAddr d.dr, dmiData d.dr) else none := by
  have hlow : d.pulseLow.ir = irDmi := hi
  have hnext : d.drNext idcode rd = d.pulseLow.updateDr rd := by
    unfold drNext
    rw [if_pos hr, ht]
  rw [hnext]
  unfold updateDr
  rw [if_pos hlow]
  show _ = (if dmiOp d.pulseLow.dr = 1#2 then rd (dmiAddr d.pulseLow.dr) else d.dmiRdata) ∧
    _ = if dmiOp d.pulseLow.dr = 2#2 then some (dmiAddr d.pulseLow.dr, dmiData d.pulseLow.dr) else none
  by_cases h1 : dmiOp d.pulseLow.dr = 1#2
  · rw [if_pos h1, if_pos h1, h1]
    exact ⟨rfl, rfl⟩
  · rw [if_neg h1, if_neg h1]
    by_cases h2 : dmiOp d.pulseLow.dr = 2#2
    · rw [if_pos h2, if_pos h2]
      exact ⟨rfl, rfl⟩
    · rw [if_neg h2, if_neg h2]
      exact ⟨rfl, rfl⟩

/-! ## Runs of the unit -/

section Law

variable {idcode} {u : DebugUnit} {ins : Nat → DebugIn}

theorem unit_succ (n : Nat) :
    unit idcode u ins (n + 1) = (unit idcode u ins n).step idcode (ins n) := rfl

theorem sync_pair (a b c : Bool) :
    sync (BitVec.ofBool a ++ BitVec.ofBool b) c = BitVec.ofBool b ++ BitVec.ofBool c := by
  cases a <;> cases b <;> cases c <;> rfl

theorem pair_bits (v : BitVec 2) :
    v = BitVec.ofBool (v.getLsbD 1) ++ BitVec.ofBool (v.getLsbD 0) := by
  revert v
  decide

/-- The synchronisers hold two samples. -/
theorem synced (n : Nat) :
    (unit idcode u ins n).dtm.tckS =
        BitVec.ofBool (pinsAt u ins n).tck ++ BitVec.ofBool (pinsAt u ins (n + 1)).tck ∧
      (unit idcode u ins n).dtm.tmsS =
        BitVec.ofBool (pinsAt u ins n).tms ++ BitVec.ofBool (pinsAt u ins (n + 1)).tms ∧
      (unit idcode u ins n).dtm.tdiS =
        BitVec.ofBool (pinsAt u ins n).tdi ++ BitVec.ofBool (pinsAt u ins (n + 1)).tdi := by
  induction n with
  | zero => exact ⟨pair_bits _, pair_bits _, pair_bits _⟩
  | succ n ih =>
    obtain ⟨hck, hms, hdi⟩ := ih
    refine ⟨?_, ?_, ?_⟩
    · show sync (unit idcode u ins n).dtm.tckS (ins n).tck = _
      rw [hck, sync_pair]
      rfl
    · show sync (unit idcode u ins n).dtm.tmsS (ins n).tms = _
      rw [hms, sync_pair]
      rfl
    · show sync (unit idcode u ins n).dtm.tdiS (ins n).tdi = _
      rw [hdi, sync_pair]
      rfl

/-- The unit sees every rising edge. -/
theorem tckRise_eq (n : Nat) : (unit idcode u ins n).dtm.tckRise = rises u ins n := by
  unfold tckRise rises
  rw [(synced n).1]
  cases (pinsAt u ins n).tck <;> cases (pinsAt u ins (n + 1)).tck <;> rfl

/-- It takes TMS and TDI from the sample before the edge. -/
theorem edge_eq (hst : Stable u ins) {n : Nat} (hr : rises u ins n = true) :
    (⟨(unit idcode u ins n).dtm.tmsQ, (unit idcode u ins n).dtm.tdiQ⟩ : Edge) =
      ⟨(pinsAt u ins (n + 1)).tms, (pinsAt u ins (n + 1)).tdi⟩ := by
  have hone : ∀ a b : Bool, (BitVec.ofBool a ++ BitVec.ofBool b : BitVec 2).getLsbD 1 = a := by
    decide
  unfold tmsQ tdiQ
  rw [(synced n).2.1, (synced n).2.2, hone, hone, (hst n hr).1, (hst n hr).2]

/-- **Runs**: out of reset the registers hold the walk that the pins show. -/
theorem tracks (hst : Stable u ins) (h0 : (ins 0).rst = true) (n : Nat) :
    Tracks (unit idcode u ins (n + 1)).dtm (walk (edges u ins (n + 1))) := by
  have hreset : ∀ n, (ins n).rst = true →
      Tracks (unit idcode u ins (n + 1)).dtm (walk (edges u ins (n + 1))) := by
    intro n hn
    rw [edges, if_pos hn, unit_succ]
    show Tracks (Dtm.step idcode _ (ins n).rst _ _) {}
    rw [hn]
    exact .reset idcode _
  induction n with
  | zero => exact hreset 0 h0
  | succ n ih =>
    cases hrst : (ins (n + 1)).rst with
    | true => exact hreset (n + 1) hrst
    | false =>
      have hstep := ih.step idcode (p := (ins (n + 1)).toPins)
        ((unit idcode u ins (n + 1)).dm.dmRead (ins (n + 1)).dbgHalted)
      rw [tckRise_eq] at hstep
      rw [edges, hrst, if_neg Bool.false_ne_true, unit_succ]
      show Tracks (Dtm.step idcode _ (ins (n + 1)).rst _ _) _
      rw [hrst]
      cases hr : rises u ins (n + 1) with
      | false =>
        rw [hr] at hstep
        exact hstep
      | true =>
        rw [hr, if_pos rfl, edge_eq hst hr] at hstep
        rw [if_pos rfl, walk, List.foldl_append]
        exact hstep

/-- What holds in a clock whose walk leaves Update-DR with IR = DMI. -/
theorem of_leaves (hst : Stable u ins) (h0 : (ins 0).rst = true) {n : Nat}
    (hl : leaves idcode u ins n = true) :
    (ins n).rst = false ∧ (unit idcode u ins n).dtm.tckRise = true ∧
      (unit idcode u ins n).dtm.tap = .updDr ∧ (unit idcode u ins n).dtm.ir = irDmi ∧
      (unit idcode u ins n).dtm.dr =
        shiftAll (unit idcode u ins n).dtm.dmiCapture (walk (edges u ins n)).bits := by
  unfold leaves at hl
  simp only [Bool.and_eq_true, Bool.not_eq_true', beq_iff_eq] at hl
  obtain ⟨⟨⟨hrst, hr⟩, ht⟩, hi⟩ := hl
  cases n with
  | zero => rw [h0] at hrst; exact absurd hrst (by decide)
  | succ n =>
    have htr := @tracks idcode _ _ hst h0 n
    refine ⟨hrst, (tckRise_eq _).trans hr, htr.tap.trans ht, hi, htr.dr ?_ hi⟩
    rw [ht]
    rfl

/-- A clock without reset in which the walk does not leave Update-DR with IR = DMI. -/
theorem of_stays (hst : Stable u ins) (h0 : (ins 0).rst = true) {n : Nat}
    (hl : leaves idcode u ins n = false) (hrst : (ins n).rst = false) :
    ((unit idcode u ins n).dtm.tckRise && (unit idcode u ins n).dtm.tap == .updDr &&
      (unit idcode u ins n).dtm.ir == irDmi) = false := by
  cases n with
  | zero => rw [h0] at hrst; exact absurd hrst (by decide)
  | succ n =>
    rw [tckRise_eq, (tracks hst h0 n).tap]
    unfold leaves at hl
    rw [hrst] at hl
    exact hl

/-- In a clock without reset the data registers take their next values. -/
theorem unit_dr {n : Nat} (hrst : (ins n).rst = false) :
    let rd := (unit idcode u ins n).dm.dmRead (ins n).dbgHalted
    (unit idcode u ins (n + 1)).dtm.dmiRdata = ((unit idcode u ins n).dtm.drNext idcode rd).dmiRdata ∧
      (unit idcode u ins (n + 1)).dtm.dmiWePulse =
        ((unit idcode u ins n).dtm.drNext idcode rd).dmiWePulse ∧
      (unit idcode u ins (n + 1)).dtm.dmiWeAddr =
        ((unit idcode u ins n).dtm.drNext idcode rd).dmiWeAddr ∧
      (unit idcode u ins (n + 1)).dtm.dmiWeData =
        ((unit idcode u ins n).dtm.drNext idcode rd).dmiWeData := by
  rw [unit_succ]
  simp only [DebugUnit.step, Dtm.step, hrst, Bool.false_eq_true, if_false, and_self]

/-- In a clock with reset they keep them. -/
theorem unit_reset {n : Nat} (hrst : (ins n).rst = true) :
    (unit idcode u ins (n + 1)).dtm.dmiRdata = (unit idcode u ins n).dtm.dmiRdata ∧
      (unit idcode u ins (n + 1)).dtm.dmiWePulse = (unit idcode u ins n).dtm.dmiWePulse := by
  rw [unit_succ]
  simp only [DebugUnit.step, Dtm.step, hrst, if_true, and_self]

/-- A pulse outside resets is a write. -/
theorem applied_eq {v : DebugUnit} {i : DebugIn} (h : i.rst = true → v.dtm.dmiWePulse = false) :
    v.applied i = if v.dtm.dmiWePulse then some (v.dtm.dmiWeAddr, v.dtm.dmiWeData) else none := by
  unfold DebugUnit.applied
  cases hrst : i.rst with
  | false => rw [Bool.not_false, Bool.and_true]
  | true =>
    rw [h hrst]
    rfl

variable (idcode u ins)

/-- **DMI transport**: in a run from a reset in which `dmi_we_pulse` is low in every
clock of a reset, the pins are served faithfully in every clock. -/
theorem dmi_transport (h0 : (ins 0).rst = true) (hst : Stable u ins)
    (hpulse : ∀ n, (ins n).rst = true → (unit idcode u ins n).dtm.dmiWePulse = false) (n : Nat) :
    Faithful idcode u ins n := by
  refine ⟨?tdo, ?write, ?read, ?onlyWrite, ?onlyRead, ?unwritten⟩
  case tdo =>
    intro ht hi hlen
    cases n with
    | zero => exact Tap.noConfusion ht
    | succ n =>
      have hdr := (@tracks idcode _ _ hst h0 n).dr (by rw [ht]; rfl) hi
      rw [← dmiCapture, ← lsb_shiftAll _ hlen, ← hdr]
      unfold tdo
      rw [hi]
      rfl
  case write =>
    intro hl hlen
    obtain ⟨hrst, hr, ht, hi, hdr⟩ := of_leaves hst h0 hl
    obtain ⟨-, hpls, haddr, hdata⟩ := @unit_dr idcode u _ _ hrst
    rw [applied_eq (hpulse (n + 1)), hpls, haddr, hdata,
      (drNext_update idcode _ hr ht hi).2, hdr, shiftAll_full (by decide) _ hlen]
    rfl
  case read =>
    intro hl hlen
    obtain ⟨hrst, hr, ht, hi, hdr⟩ := of_leaves hst h0 hl
    rw [(unit_dr hrst).1, (drNext_update idcode _ hr ht hi).1, hdr,
      shiftAll_full (by decide) _ hlen]
    rfl
  case onlyWrite =>
    intro hw
    by_contra hl
    rw [Bool.not_eq_true] at hl
    have hlow : (unit idcode u ins (n + 1)).dtm.dmiWePulse = false := by
      -- a reset keeps the pulse, which is low by assumption
      cases hrst : (ins n).rst with
      | true => rw [(unit_reset hrst).2, hpulse n hrst]
      | false => rw [(unit_dr hrst).2.1, (drNext_keeps idcode _ (of_stays hst h0 hl hrst)).2.2]
    rw [DebugUnit.applied, hlow] at hw
    exact Bool.false_ne_true hw
  case onlyRead =>
    intro hd
    by_contra hl
    rw [Bool.not_eq_true] at hl
    refine hd ?_
    cases hrst : (ins n).rst with
    | true => exact (unit_reset hrst).1
    | false => rw [(unit_dr hrst).1, (drNext_keeps idcode _ (of_stays hst h0 hl hrst)).1]
  case unwritten =>
    intro hrst hnone
    rw [unit_succ]
    show (if (ins n).rst then _ else DebugModule.step _ _) = _
    rw [hrst, hnone]
    rfl

end Law

/-! ## A session -/

/-- The edges that shift `bs`; TMS is high at the last one. -/
def shiftEdges (bs : List Bool) : List Edge :=
  bs.mapIdx fun k b => ⟨k + 1 == bs.length, b⟩

/-- The edges of a `scan_ir` from Run-Test/Idle and back. -/
def scanIr (v : BitVec 5) : List Edge :=
  [⟨true, false⟩, ⟨true, false⟩, ⟨false, false⟩, ⟨false, false⟩] ++ shiftEdges (bits v) ++
    [⟨true, false⟩, ⟨false, false⟩]

/-- The edges of a `scan_dr` of a DMI request. -/
def scanDr (v : BitVec 41) : List Edge :=
  [⟨true, false⟩, ⟨false, false⟩, ⟨false, false⟩] ++ shiftEdges (bits v) ++
    [⟨true, false⟩, ⟨false, false⟩]

/-- A request to halt the hart: `dmi_write` of `dmcontrol`. -/
def haltSession : List Edge :=
  ⟨false, false⟩ :: (scanIr irDmi ++ scanDr (0x10#7 ++ 0x80000001#32 ++ 2#2))

/-- Its pins, with two clocks for each level of TCK, and a reset in the clocks `rst`. -/
def sessionIn (rst : Nat → Bool) (n : Nat) : DebugIn where
  tck := 2 ≤ n % 4
  tms := (haltSession.getD (n / 4) ⟨false, false⟩).tms
  tdi := (haltSession.getD (n / 4) ⟨false, false⟩).tdi
  rst := rst n

theorem session_stable (rst : Nat → Bool) : Stable {} (sessionIn rst) := by
  intro n hr
  unfold rises at hr
  rw [Bool.and_eq_true, Bool.not_eq_true'] at hr
  match n with
  | 0 => exact absurd hr.2 Bool.false_ne_true
  | 1 => exact absurd hr.2 Bool.false_ne_true
  | n + 2 =>
    have hlow : ¬ 2 ≤ n % 4 := of_decide_eq_false hr.1
    have hhigh : 2 ≤ (n + 1) % 4 := of_decide_eq_true hr.2
    have hsame : (n + 1) / 4 = n / 4 := by omega
    show (haltSession.getD (n / 4) _).tms = (haltSession.getD ((n + 1) / 4) _).tms ∧
      (haltSession.getD (n / 4) _).tdi = (haltSession.getD ((n + 1) / 4) _).tdi
    rw [hsame]
    exact ⟨rfl, rfl⟩

/-- The request of a session is applied in the clock after Update-DR. -/
theorem dmi_transport_session :
    Faithful 0x54414B53#32 {} (sessionIn (· == 0)) 231 ∧
      (unit 0x54414B53#32 {} (sessionIn (· == 0)) 232).applied (sessionIn (· == 0) 232) =
        some (0x10#7, 0x80000001#32) := by
  refine ⟨dmi_transport _ _ _ rfl (session_stable _) (fun n hn => ?_) 231, ?_⟩
  · have hzero : n = 0 := beq_iff_eq.mp hn
    rw [hzero]
    rfl
  · decide +kernel

/-- With the pins at rest behind the power-on reset, a pulse that is high at power-up is a
write. -/
theorem pulse_survives_reset (idcode : Word) {u : DebugUnit} (hp : u.dtm.dmiWePulse = true) :
    ¬ Faithful idcode u (fun n => { rst := n == 0 }) 0 := by
  intro hf
  have hleaves : leaves idcode u (fun n => { rst := n == 0 }) 0 = false := rfl
  have hpulse : (unit idcode u (fun n => { rst := n == 0 }) 1).dtm.dmiWePulse = true :=
    (unit_reset (n := 0) rfl).2.trans hp
  have happlied : ((unit idcode u (fun n => { rst := n == 0 }) 1).applied
      { rst := 1 == 0 }).isSome = true := by
    unfold DebugUnit.applied
    rw [hpulse]
    rfl
  exact Bool.false_ne_true (hleaves.symm.trans (hf.onlyWrite happlied))

/-- A reset in the clock of the pulse keeps the request, which is then applied to the
registers out of reset, without a walk; so is one that is there at power-up. -/
theorem write_survives_reset :
    (¬ ∀ n, Faithful 0x54414B53#32 {} (sessionIn fun n => n == 0 || n == 232) n) ∧
    ¬ ∀ (idcode : Word) (u : DebugUnit) (ins : Nat → DebugIn), (ins 0).rst = true →
      Stable u ins → ∀ n, Faithful idcode u ins n := by
  have hleaves : leaves 0x54414B53#32 {} (sessionIn fun n => n == 0 || n == 232) 232 = false := by
    unfold leaves
    rw [show (sessionIn (fun n => n == 0 || n == 232) 232).rst = true from rfl]
    rfl
  have hlate : ¬ ∀ n, Faithful 0x54414B53#32 {} (sessionIn fun n => n == 0 || n == 232) n := by
    intro h
    exact Bool.false_ne_true (hleaves.symm.trans ((h 232).onlyWrite (by decide +kernel)))
  refine ⟨hlate, fun h => ?_⟩
  have hpins : Stable { dtm := { dmiWePulse := true } } fun n => { rst := n == 0 } := by
    intro n _
    match n with
    | 0 | 1 | n + 2 => exact ⟨rfl, rfl⟩
  exact pulse_survives_reset 0#32 rfl (h 0#32 _ _ rfl hpins 0)

end ThreeSippEs.Transport
