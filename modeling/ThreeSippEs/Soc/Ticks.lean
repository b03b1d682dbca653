import ThreeSippEs.Pipeline.Interrupted
import ThreeSippEs.Soc.Programs

/-!
# Programs with a timer

The CLINT closes a loop around the core: the program stores to `mtimecmp` and `msip`, and
these, with the time, make the interrupt lines that it is interrupted by.

- `Core.see_shown`, `clint_run`: the registers hold what the stores shown so far have left;
- `ticks`: the lines, clock by clock;
- `chip_interrupted`: the SoC shows the log of the sequential machine that samples them.
-/

namespace ThreeSippEs

open Clocked

/-- A clock shows the CLINT no more than one store. -/
theorem Core.see_shown {P : Params} (c : Core P) (rdata : Word) (S : SocParams) (k : Clint) :
    (c.shown rdata).foldl (Clint.see S) k =
      if Clint.selects S ⟨c.w.dmemAddr, c.w.dmemBe, c.w.dmemWe, c.w.dmemWdata⟩ then
        k.write c.w.dmemAddr c.w.dmemWdata
      else k := by
  unfold Core.shown
  cases c.w.dmemRe <;> cases c.w.dmemWe <;> cases c.w.retireValid <;>
    simp [Clint.see, Clint.selects]

namespace Chip

open DebugModule

variable {P : ChipParams} {c : Chip P} {ins : Nat → ChipIn}

/-- The registers of the CLINT after `n` clocks. -/
theorem clint_run (h0 : c.soc.clint = {}) (hrst : ∀ k, (ins k).rst = false) (n : Nat) :
    (run step c ins n).soc.clint =
      (trace step (fun c _ => c.shown) c ins n).foldl (Clint.see P.toSocParams) {} := by
  induction n with
  | zero => exact h0
  | succ n ih =>
    rw [trace, List.foldl_append, ← ih, run_succ]
    generalize run step c ins n = d
    have hclock : (d.step (ins n)).soc.clint = if Clint.selects P.toSocParams
        ⟨d.core.w.dmemAddr, d.core.w.dmemBe, d.core.w.dmemWe, d.core.w.dmemWdata⟩ then
          d.soc.clint.write d.core.w.dmemAddr d.core.w.dmemWdata else d.soc.clint :=
      Soc.step_clint (s := d.soc) (i := d.socIn (ins n)) (hrst n)
    rw [hclock]
    exact (d.core.see_shown _ _ _).symm

/-- The interrupt lines in clock `n`. -/
def ticks (c : Chip P) (ins : Nat → ChipIn) (n : Nat) : ExtIn := (run step c ins n).lines

/-- They are made of what has been shown, and the time. -/
theorem ticks_eq (h0 : c.soc.clint = {}) (htime : c.soc.mtime = 0#64)
    (hrst : ∀ k, (ins k).rst = false) (n : Nat) :
    (c.ticks ins n).irq =
      ((trace step (fun c _ => c.shown) c ins n).foldl (Clint.see P.toSocParams) {}).lines
        (BitVec.ofNat 64 n) := by
  rw [← clint_run h0 hrst n, ← mtime_run htime hrst n]
  rfl

/-- The sequential machine from the memories of `c` on: the lines that its instructions
have sampled before clock `n`, and its log. -/
abbrev samples (c : Chip P) (ins : Nat → ChipIn) (n : Nat) : List IrqLines :=
  sampled c.image {} (c.ticks ins) n

abbrev log (c : Chip P) (ins : Nat → ChipIn) (n : Nat) : List Event :=
  servedLog c.image {} (c.ticks ins) n

/-- What is promised of the instruction that is issued in clock `n`. -/
def Promised (c : Chip P) (ins : Nat → ChipIn) (n : Nat) : Prop :=
  (harvardRun c.image {} (c.ticks ins) n).commits = true →
    Serves P.core (servedBy c.image {} (c.ticks ins) n) (c.ticks ins n).irq

instance (c : Chip P) (ins : Nat → ChipIn) (n : Nat) : Decidable (c.Promised ins n) :=
  inferInstanceAs (Decidable (_ → _))

/-- **The SoC is the core with two memories and these lines**, as long as its accesses are
answered. -/
theorem trace_ticks (h0 : Mirrored c (c.image.reset never {})) (hrun : ∀ k, (ins k).rst = false)
    {n : Nat} {es : List Event} (hes : es.all (answered P.toSocParams) = true)
    (hle : harvardTrace c.image {} (c.ticks ins) n <+: es)
    (hpassive : ∀ k < n, ((run step c ins k).dmiWrite (ins k)).all harmless = true) :
    trace step (fun c _ => c.shown) c ins n = harvardTrace c.image {} (c.ticks ins) n :=
  (hosts.run h0 ins n fun k hk => ⟨polite_of_trace hle hes k hk, hrun k, hpassive k hk⟩).2

/-- **Programs with a timer on the SoC.** From any state, behind two clocks of reset, with
a passive debugger: the timer line is up in clock `n` when `mtimecmp`, as the stores shown
before have left it, is not above `n`, and the software line is `msip`. What the SoC shows
is a prefix of the log of the sequential machine in which each instruction samples these
lines, with interrupts between two instructions; and `k` instructions are issued, and all
that they show has been shown, within `44 * (k + 1)` clocks. -/
theorem chip_interrupted (P : ChipParams) (c₀ c : Chip P) (i i' : ChipIn) (hrst : i.rst = true)
    (hrst' : i'.rst = true) (hc : c = (c₀.step i).step i') (ins : Nat → ChipIn)
    (hrun : ∀ k, (ins k).rst = false) :
    (∀ n, (c.ticks ins n).irq =
      ((trace step (fun c _ => c.shown) c ins n).foldl (Clint.see P.toSocParams) {}).lines
        (BitVec.ofNat 64 n)) ∧
    (∀ n, (∀ j < n, c.Promised ins j) →
      (c.log ins n).all (answered P.toSocParams) = true →
      (∀ j < n, ((run step c ins j).dmiWrite (ins j)).all harmless = true) →
      trace step (fun c _ => c.shown) c ins n <+: c.log ins n) ∧
    (∀ k, (∀ j < 44 * (k + 1), (c.samples ins j).length ≤ k →
        c.Promised ins j ∧ (c.log ins j).all (answered P.toSocParams) = true) →
      (∀ j < 44 * (k + 1), ((run step c ins j).dmiWrite (ins j)).all harmless = true) →
      ∃ n < 44 * (k + 1), (c.samples ins n).length = k ∧
        trace step (fun c _ => c.shown) c ins (n + 1) = c.log ins n) := by
  subst hc
  obtain ⟨h0, htime⟩ := mirrored_reset (c := c₀) hrst hrst'
  refine ⟨fun n => ticks_eq h0.clint htime hrun n, ?_, ?_⟩
  · intro n hserves hes hpassive
    have hle := shows_served_le (fun _ => rfl) n hserves
    rw [trace_ticks h0.toMirrored hrun hes hle hpassive]
    exact hle
  · intro k hok hpassive
    obtain ⟨n, hn, hlen, hlog⟩ := shows_served (fun _ => rfl) k fun j hj hle => (hok j hj hle).1
    refine ⟨n, hn, hlen, Eq.trans ?_ hlog⟩
    refine trace_ticks h0.toMirrored hrun (hok n hn (Nat.le_of_eq hlen)).2 ?_ fun j hj =>
      hpassive j (by omega)
    rw [hlog]

/-! ## A program -/

/-- `lui x1, 0x2004; sw x0, 4(x1); sw x0, 0(x1)`: the timer runs out at once.
`addi x2, x0, 128; csrrs x0, mie, x2; csrrsi x0, mstatus, 8`: its interrupt is enabled. The
handler is the program. -/
def alarm : List Word :=
  [0x020040B7#32, 0x0000A223#32, 0x0000A023#32, 0x08000113#32, 0x30412073#32, 0x30046073#32]

/-- The SoC with this program in IMEM. -/
def armed : Chip .source where
  core := Core.powerUp _
  dbg := {}
  soc := ⟨fun n => alarm.getD n 0x13#32, fun _ => 0#32, 0#64, 0#64, false, 0#32, false,
    Uart.reset 0#16, 0#32, false⟩

/-- Behind the reset. -/
def ringing : Chip .source := (armed.step { rst := true }).step { rst := true }

theorem chip_interrupted_ringing :
    (servedBy ringing.image {} (ringing.ticks fun _ => {}) 10).csr.mcause = 0x80000007#32 ∧
      trace step (fun c _ => c.shown) ringing (fun _ => {}) 10 <+: ringing.log (fun _ => {}) 10 :=
  ⟨by decide +kernel,
    (chip_interrupted .source armed ringing { rst := true } { rst := true } rfl rfl rfl (fun _ => {})
      fun _ => rfl).2.1 10 (by decide +kernel) (by decide +kernel) (by decide +kernel)⟩

end Chip

end ThreeSippEs
