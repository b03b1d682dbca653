import ThreeSippEs.Fpga.Fpga
import ThreeSippEs.Fpga.ResetSync

/-!
# The Arty A7 board (`three_sipp_es_arty_a7.sv`)

The board derives both clocks of the SoC from its oscillator: `clk25` is the upper bit
of a two-bit divider and `clk_bram` is a register beside it. The block RAM thus answers
halfway between two edges of `clk25`.

- `ArtyA7.tick`: one edge of `CLK100`, with the edges of the derived clocks it causes;
- `answers`, `cycle`: four ticks are one clock of the SoC on a RAM that answers at once;
- `board_run`: every run of the board is a run of that SoC.
-/

namespace ThreeSippEs

/-- The parameters of the board. -/
def FpgaParams.artyA7 : FpgaParams where
  clkHz := 25000000
  uartBaud := 115200
  memWords := 8192
  belowDevices := Nat.le_of_ble_eq_true rfl

/-- The registers of the board, with the initial values of the divider. -/
structure ArtyA7 where
  uRst : ResetSync 3
  clkDiv : BitVec 2 := 0#2
  clkBramQ : Bool := false
  soc : Fpga
  bram : Bram

/-- The pins of the board up to an edge of `CLK100`. -/
structure ArtyIn where
  /-- the levels of the button since the last edge, active low -/
  ckRst : List Bool := []
  uartTxdIn : Bool := true
  deriving DecidableEq

namespace ArtyA7

open Clocked

variable (b : ArtyA7) (i : ArtyIn)

/-- The synchronizer after the edge. -/
def rstNext : ResetSync 3 :=
  (i.ckRst.foldl (fun r level => r.step true (.async (!level))) b.uRst).step true .clk

/-- `sys_rst` -/
def sysRst : Bool := b.uRst.syncRstOut

/-- The divider after the edge. -/
def divNext : BitVec 2 := b.clkDiv + 1#2

/-- The edge is one of `clk25`, the upper bit of the divider. -/
def clk25Rises : Bool := !b.clkDiv.getLsbD 1 && b.divNext.getLsbD 1

/-- `clk_bram_q` after the edge. -/
def bramNext : Bool := !(b.clkDiv.getLsbD 1 ^^ b.clkDiv.getLsbD 0)

/-- The edge is one of `clk_bram`. -/
def clkBramRises : Bool := !b.clkBramQ && b.bramNext

/-- One edge of `CLK100`. The derived clocks follow it, so what they clock sees the
reset of after the edge. -/
def tick : ArtyA7 where
  uRst := b.rstNext i
  clkDiv := b.divNext
  clkBramQ := b.bramNext
  soc :=
    if b.clk25Rises then
      b.soc.step .artyA7 { rst := (b.rstNext i).syncRstOut, serialRx := i.uartTxdIn }
        b.bram.imemRdata b.bram.dmemRamRdata
    else b.soc
  bram := if b.clkBramRises then b.bram.step .artyA7 b.soc.core else b.bram

/-! ## The two clocks -/

/-- Neither clock rises. -/
theorem tick_quiet (h25 : b.clk25Rises = false) (hbram : b.clkBramRises = false) :
    (b.tick i).soc = b.soc ∧ (b.tick i).bram = b.bram := by
  unfold tick
  rw [h25, hbram]
  exact ⟨rfl, rfl⟩

/-- The RAM answers and takes the write. -/
theorem tick_bram (h25 : b.clk25Rises = false) (hbram : b.clkBramRises = true) :
    (b.tick i).soc = b.soc ∧ (b.tick i).bram = b.bram.step .artyA7 b.soc.core := by
  unfold tick
  rw [h25, hbram]
  exact ⟨rfl, rfl⟩

/-- The rest of the SoC takes the answers. -/
theorem tick_clk25 (h25 : b.clk25Rises = true) (hbram : b.clkBramRises = false) :
    (b.tick i).soc =
      b.soc.step .artyA7 { rst := (b.tick i).sysRst, serialRx := i.uartTxdIn }
        b.bram.imemRdata b.bram.dmemRamRdata ∧
    (b.tick i).bram = b.bram := by
  unfold tick
  rw [h25, hbram]
  exact ⟨rfl, rfl⟩

/-- Where the clocks stand: the divider, and `clk_bram`. -/
def Phase (d : BitVec 2) (q : Bool) : Prop := b.clkDiv = d ∧ b.clkBramQ = q

section

variable {b}

theorem Phase.tick {d : BitVec 2} {q : Bool} (h : b.Phase d q) :
    (b.tick i).Phase (d + 1#2) (!(d.getLsbD 1 ^^ d.getLsbD 0)) := by
  unfold Phase ArtyA7.tick divNext bramNext
  rw [h.1]
  exact ⟨rfl, rfl⟩

theorem Phase.clk25Rises {d : BitVec 2} {q : Bool} (h : b.Phase d q) :
    b.clk25Rises = (!d.getLsbD 1 && (d + 1#2).getLsbD 1) := by
  unfold ArtyA7.clk25Rises divNext
  rw [h.1]

theorem Phase.clkBramRises {d : BitVec 2} {q : Bool} (h : b.Phase d q) :
    b.clkBramRises = (!q && !(d.getLsbD 1 ^^ d.getLsbD 0)) := by
  unfold ArtyA7.clkBramRises bramNext
  rw [h.1, h.2]

end

/-- The SoC that the board stands for. -/
def machine : Machine := ⟨b.soc, b.bram.mem⟩

/-- The RAM has answered, and `clk25` rises next: the two edges together are one clock of
the SoC. -/
theorem clock_of_answered {b b' : ArtyA7} {i : ArtyIn} (hsoc : b'.soc = b.soc)
    (hbram : b'.bram = b.bram.step .artyA7 b.soc.core) (hphase : b'.Phase 1#2 true) :
    (b'.tick i).machine =
        b.machine.step .artyA7 { rst := (b'.tick i).sysRst, serialRx := i.uartTxdIn } ∧
      (b'.tick i).Phase 2#2 false := by
  obtain ⟨hs, hb⟩ := b'.tick_clk25 i hphase.clk25Rises hphase.clkBramRises
  refine ⟨?_, hphase.tick i⟩
  unfold machine
  rw [hs, hb, hsoc, hbram]
  rfl

/-- Before the first edge of `clk25` the RAM answers once. -/
theorem first_cycle (h : b.Phase 0#2 false) (i j : ArtyIn) :
    ((b.tick i).tick j).machine =
        b.machine.step .artyA7 { rst := ((b.tick i).tick j).sysRst, serialRx := j.uartTxdIn } ∧
      ((b.tick i).tick j).Phase 2#2 false := by
  obtain ⟨hs, hb⟩ := b.tick_bram i h.clk25Rises h.clkBramRises
  exact clock_of_answered hs hb (h.tick i)

/-- Behind an edge of `clk25` the RAM waits for a tick, answers in the next one and
holds the answers in the third. -/
theorem answers (h : b.Phase 2#2 false) (ins : Nat → ArtyIn) :
    (run tick b ins 3).soc = b.soc ∧
      (run tick b ins 3).bram = b.bram.step .artyA7 b.soc.core ∧
      (run tick b ins 3).Phase 1#2 true := by
  obtain ⟨hs₁, hb₁⟩ := b.tick_quiet (ins 0) h.clk25Rises h.clkBramRises
  have h₁ : (b.tick (ins 0)).Phase 3#2 false := h.tick (ins 0)
  obtain ⟨hs₂, hb₂⟩ := (b.tick (ins 0)).tick_bram (ins 1) h₁.clk25Rises h₁.clkBramRises
  have h₂ : ((b.tick (ins 0)).tick (ins 1)).Phase 0#2 true := h₁.tick (ins 1)
  obtain ⟨hs₃, hb₃⟩ :=
    ((b.tick (ins 0)).tick (ins 1)).tick_quiet (ins 2) h₂.clk25Rises h₂.clkBramRises
  rw [hs₁] at hs₂ hb₂
  rw [hb₁] at hb₂
  exact ⟨hs₃.trans hs₂, hb₃.trans hb₂, h₂.tick (ins 2)⟩

/-- So from one edge of `clk25` to the next it answers once. -/
theorem cycle (h : b.Phase 2#2 false) (ins : Nat → ArtyIn) :
    (run tick b ins 4).machine =
        b.machine.step .artyA7
          { rst := (run tick b ins 4).sysRst, serialRx := (ins 3).uartTxdIn } ∧
      (run tick b ins 4).Phase 2#2 false := by
  obtain ⟨hs, hb, hphase⟩ := b.answers h ins
  exact clock_of_answered hs hb hphase

/-! ## Runs -/

/-- The pins as the SoC sees them at the `k`-th edge of `clk25`. -/
def pins (b : ArtyA7) (ins : Nat → ArtyIn) (k : Nat) : FpgaIn where
  rst := (run tick b ins (4 * k + 2)).sysRst
  serialRx := (ins (4 * k + 1)).uartTxdIn

/-- The board behind an edge of `clk25`. -/
theorem run_cycle (hdiv : b.clkDiv = 0#2) (hbram : b.clkBramQ = false) (ins : Nat → ArtyIn)
    (k : Nat) :
    (run tick b ins (4 * k + 2)).machine =
        run (Machine.step .artyA7) b.machine (b.pins ins) (k + 1) ∧
      (run tick b ins (4 * k + 2)).Phase 2#2 false := by
  induction k with
  | zero => exact b.first_cycle ⟨hdiv, hbram⟩ (ins 0) (ins 1)
  | succ k ih =>
    obtain ⟨hm, hphase⟩ := ih
    have hcut : run tick b ins (4 * (k + 1) + 2) =
        run tick (run tick b ins (4 * k + 2)) (fun j => ins (4 * k + 2 + j)) 4 := by
      rw [← run_add, show 4 * k + 2 + 4 = 4 * (k + 1) + 2 by omega]
    obtain ⟨hm', hphase'⟩ := cycle _ hphase fun j => ins (4 * k + 2 + j)
    rw [← hcut] at hm' hphase'
    refine ⟨?_, hphase'⟩
    rw [hm', hm, run_succ]
    rfl

/-- **The board is the SoC on a RAM that answers at once.** From power-up, whatever the
registers hold and whatever happens at the pins, resets included, the state behind
each edge of `clk25` is the one that this SoC reaches with the same number of clocks,
and before the next edge the output registers of the RAM hold its words at the two
ports. -/
theorem board_run (b : ArtyA7) (hdiv : b.clkDiv = 0#2) (hbram : b.clkBramQ = false)
    (ins : Nat → ArtyIn) (k : Nat) :
    (run tick b ins (4 * k + 2)).machine =
        run (Machine.step .artyA7) b.machine (b.pins ins) (k + 1) ∧
      (run tick b ins (4 * k + 5)).soc = (run tick b ins (4 * k + 2)).soc ∧
      (run tick b ins (4 * k + 5)).bram =
        (run tick b ins (4 * k + 2)).bram.step .artyA7 (run tick b ins (4 * k + 2)).soc.core := by
  obtain ⟨hm, hphase⟩ := b.run_cycle hdiv hbram ins k
  obtain ⟨hs, hb, -⟩ := answers _ hphase fun j => ins (4 * k + 2 + j)
  have hcut : run tick b ins (4 * k + 5) =
      run tick (run tick b ins (4 * k + 2)) (fun j => ins (4 * k + 2 + j)) 3 := by
    rw [← run_add]
  rw [hcut]
  exact ⟨hm, hs, hb⟩

/-- Power-up. -/
def powerUp : ArtyA7 where
  uRst := ⟨false, 0b111#3⟩
  soc := ⟨Core.powerUp {}, Uart.reset 0#16, 0#64, 0#64, false, 0#8, 0#32, false⟩
  bram := ⟨fun _ => 0x0000006F#32, 0#32, 0#32⟩

theorem board_run_powerUp :
    (run tick powerUp (fun _ => {}) 10).machine =
      run (Machine.step .artyA7) powerUp.machine (powerUp.pins fun _ => {}) 3 :=
  (board_run powerUp rfl rfl (fun _ => {}) 2).1

end ArtyA7

end ThreeSippEs
