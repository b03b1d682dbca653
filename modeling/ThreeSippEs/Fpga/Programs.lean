import ThreeSippEs.Fpga.ArtyA7
import ThreeSippEs.Pipeline.Hosted
import ThreeSippEs.Soc.WordMemory

/-!
# Programs on the FPGA board

The board has one RAM for code and data behind a second clock, and devices that can
interrupt. A program that keeps its stores off its code and off the CLINT and reads
from the RAM does not notice any of it.

- `Mirrored`: the SoC beside the core with two memories, the code in one and the RAM
  in the other;
- `Polite`: what the program promises in a clock;
- `board_programs`: what the board shows, from the release of its reset on.
-/

namespace ThreeSippEs

open Clocked AlignedBlock

namespace Machine

variable {P : FpgaParams}

/-- What the ports of the core show. -/
def shown (P : FpgaParams) (m : Machine) : List Event := m.soc.core.shown (m.dmemRdata P)

/-- The RAM as bytes; addresses above it wrap around. -/
def bytes (P : FpgaParams) (mem : Nat → Word) : Bytes := .ofMap fun a => mem (P.ramIdx a)

theorem readWord_bytes (mem : Nat → Word) (a : Word) :
    (bytes P mem).readWord a = mem (P.ramIdx a) := by
  have hdiv : (wordOf a).toNat / 4 = a.toNat / 4 := by
    rw [wordOf_toNat]
    omega
  unfold bytes
  rw [Bytes.readWord_ofMap]
  unfold FpgaParams.ramIdx
  rw [BitVec.extractLsb'_toNat, BitVec.extractLsb'_toNat, Nat.shiftRight_eq_div_pow,
    Nat.shiftRight_eq_div_pow, show 2 ^ 2 = 4 from rfl, hdiv]

section Mirror

variable (P) (code : Nat → Prop) (m : Machine) (i : FpgaIn) (t : Sys {})

/-- The SoC `m` beside the core with two memories: `code` are the words of the code. -/
structure Mirrored : Prop where
  core : m.soc.core = t.core
  code : Mirrors P.ramIdx (fun a => code (a.toNat / 4)) m.mem t.mem.imem
  data : Mirrors P.ramIdx (fun a => P.inRam a = true) m.mem t.mem.dmem
  timer : m.soc.mtimecmp = 0xFFFFFFFFFFFFFFFF#64
  soft : m.soc.msip = false

/-- What the program promises in a clock: the fetch is from the code, a read from the RAM,
and a store leaves the code and the CLINT alone. -/
structure Polite : Prop where
  fetch : code (t.core.imemAddr.toNat / 4)
  read : t.core.w.dmemRe = true ∨ t.core.w.memBeatStall = true → P.inRam t.core.w.dmemAddr = true
  write : t.core.w.dmemWe = true →
    ¬ code (t.core.w.dmemAddr.toNat / 4) ∧ FpgaParams.clintSel t.core.w.dmemAddr = false

/-- And the board: it is not reset, and the timer has not run out. -/
structure Behaves : Prop extends Polite P code t where
  rst : i.rst = false
  early : m.soc.mtime ≠ 0xFFFFFFFFFFFFFFFF#64

instance [DecidablePred code] : Decidable (Polite P code t) :=
  decidable_of_iff (code (t.core.imemAddr.toNat / 4) ∧
      (t.core.w.dmemRe = true ∨ t.core.w.memBeatStall = true →
        P.inRam t.core.w.dmemAddr = true) ∧
      (t.core.w.dmemWe = true →
        ¬ code (t.core.w.dmemAddr.toNat / 4) ∧ FpgaParams.clintSel t.core.w.dmemAddr = false))
    ⟨fun h => ⟨h.1, h.2.1, h.2.2⟩, fun h => ⟨h.fetch, h.read, h.write⟩⟩

end Mirror

section Step

variable {code : Nat → Prop} {m : Machine} {i : FpgaIn} {t : Sys {}}

/-- No interrupt line is up. -/
theorem Mirrored.ext (h : Mirrored P code m t) (hok : Behaves P code m i t) : m.soc.ext = {} := by
  have hlt : m.soc.mtimecmp.ule m.soc.mtime = false := by
    rw [h.timer, BitVec.ule_eq_decide, decide_eq_false_iff_not]
    intro hle
    refine hok.early (BitVec.eq_of_toNat_eq ?_)
    have hmax := m.soc.mtime.isLt
    have hall : (0xFFFFFFFFFFFFFFFF#64).toNat = 2 ^ 64 - 1 := rfl
    omega
  unfold Fpga.ext
  rw [hlt, h.soft]

/-- The data port answers with the RAM when it matters. -/
theorem Mirrored.rdata (h : Mirrored P code m t) (hok : Behaves P code m i t)
    (hused : t.core.w.dmemRe = true ∨ t.core.w.memBeatStall = true) :
    m.dmemRdata P = t.mem.dmem.readWord t.core.w.dmemAddr := by
  have hram := hok.read hused
  obtain ⟨huart, hclint⟩ := FpgaParams.devices_of_inRam hram
  unfold dmemRdata Fpga.dmemRdata
  rw [h.core, huart, hclint, hram, if_neg Bool.false_ne_true, if_neg Bool.false_ne_true,
    if_pos rfl]
  exact h.data _ hram

/-- The devices keep quiet. -/
theorem devices_quiet (hrst : i.rst = false)
    (hclint : m.soc.core.w.dmemWe = true →
      FpgaParams.clintSel m.soc.core.w.dmemAddr = false) :
    (m.step P i).soc.mtimecmp = m.soc.mtimecmp ∧ (m.step P i).soc.msip = m.soc.msip := by
  show (m.soc.devices i).mtimecmp = m.soc.mtimecmp ∧ (m.soc.devices i).msip = m.soc.msip
  unfold Fpga.devices
  dsimp only
  rw [hrst, if_neg Bool.false_ne_true]
  cases hwe : m.soc.core.w.dmemWe with
  | false => exact ⟨rfl, rfl⟩
  | true =>
    rw [if_pos rfl, hclint hwe, if_neg Bool.false_ne_true]
    split_ifs <;> exact ⟨rfl, rfl⟩

/-- **One clock** of a program that behaves. -/
theorem Mirrored.step (hcode : ∀ w, code w → w < P.memWords) (h : Mirrored P code m t)
    (hok : Behaves P code m i t) : Mirrored P code (m.step P i) (t.step never {}) := by
  have hword : ∀ a : Word, code (a.toNat / 4) → P.inRam a = true := fun a ha =>
    FpgaParams.inRam_iff.mpr (by have hlt := hcode _ ha; omega)
  have hcore : (m.step P i).soc.core = (t.step never {}).core := by
    show (if i.rst then _ else m.soc.core.step _) = t.core.step (t.coreIn {})
    rw [hok.rst, if_neg Bool.false_ne_true,
      Core.step_of_answers (i := t.coreIn {}) (h.ext hok) ?_ fun hused => ?_, h.core]
    · show m.mem (P.ramIdx m.soc.core.imemAddr) = _
      rw [h.core]
      exact h.code _ hok.fetch
    · rw [h.core] at hused
      exact h.rdata hok hused
  obtain ⟨htimer, hsoft⟩ := devices_quiet (m := m) (P := P) hok.rst fun hwe => by
    rw [h.core] at hwe ⊢
    exact (hok.write hwe).2
  have hmem : (m.step P i).mem = Bram.write P t.core.w m.mem := by
    show Bram.write P m.soc.core.w m.mem = _
    rw [h.core]
  refine ⟨hcore, ?_, ?_, htimer.trans h.timer, hsoft.trans h.soft⟩
  · -- the code stays
    have himem : (t.step never {}).mem.imem = t.mem.imem := by
      show (if t.core.w.dmemWe then t.mem.write never _ _ _ else t.mem).imem = _
      split <;> rfl
    rw [hmem, himem]
    unfold Bram.write
    split
    case isFalse => exact h.code
    case isTrue hwrite =>
      rw [Bool.and_eq_true] at hwrite
      refine h.code.write_unseen (fun a ha hidx => (hok.write hwrite.1).1 ?_) _
      rw [← (wordOf_eq_iff _ _).mp ((FpgaParams.ramIdx_inj (hword a ha) hwrite.2).mp hidx)]
      exact ha
  · rw [hmem]
    show Mirrors _ _ _ (if t.core.w.dmemWe then t.mem.write never _ _ _ else t.mem).dmem
    unfold Bram.write
    cases hwe : t.core.w.dmemWe with
    | false => exact h.data
    | true =>
      rw [if_pos rfl, Bool.true_and]
      cases hram : P.inRam t.core.w.dmemAddr with
      | true =>
        rw [if_pos rfl]
        exact h.data.write hram (fun a ha => FpgaParams.ramIdx_inj ha hram) _ _
      | false =>
        -- the word is not in the RAM as a whole
        refine h.data.write_outside (fun a ha hsame => Bool.false_ne_true ?_) _ _
        rw [← hram, FpgaParams.inRam_iff]
        have hlt := FpgaParams.inRam_iff.mp ha
        rw [wordOf_eq_iff] at hsame
        omega

/-- The SoC is a host of the core. -/
theorem hosts (hcode : ∀ w, code w → w < P.memWords) :
    Hosts (Machine.step P) (shown P) (fun _ => {}) (Mirrored P code) (Behaves P code) where
  clock _ _ _ h hok := h.step hcode hok
  shown m i t h hok := by
    rw [Sys.shown_eq]
    unfold shown
    rw [h.core]
    exact Core.shown_of_answers fun hre => h.rdata hok (Or.inl hre)

end Step

/-! ## Out of reset -/

/-- The core with two memories that starts where the SoC does. -/
def image (P : FpgaParams) (m : Machine) : Sys {} :=
  ⟨m.soc.core, { imem := bytes P m.mem, dmem := bytes P m.mem }⟩

section Reset

variable {code : Nat → Prop} {m : Machine} {i : FpgaIn} {ins : Nat → FpgaIn}

/-- The clock of the reset. -/
theorem mirrored_reset (hrst : i.rst = true) :
    Mirrored P code (m.step P i) (((m.step P i).image P).reset never {}) ∧
      (m.step P i).soc.mtime = 0#64 := by
  have hsoc : (m.step P i).soc.core = m.soc.core.reset
      (m.soc.coreIn P (m.mem (P.ramIdx m.soc.core.imemAddr))
        (m.mem (P.ramIdx m.soc.core.w.dmemAddr))) := by
    show (if i.rst then _ else _) = _
    rw [hrst, if_pos rfl]
  have hdev : (m.soc.devices i).mtime = 0#64 ∧
      (m.soc.devices i).mtimecmp = 0xFFFFFFFFFFFFFFFF#64 ∧ (m.soc.devices i).msip = false := by
    unfold Fpga.devices
    dsimp only
    rw [hrst, if_pos rfl]
    exact ⟨rfl, rfl, rfl⟩
  have hidle : (m.step P i).soc.core.w.dmemWe = false := by
    rw [hsoc]
    rfl
  have hmem : (((m.step P i).image P).reset never {}).mem =
      { imem := bytes P (m.step P i).mem, dmem := bytes P (m.step P i).mem } := by
    show (if (m.step P i).soc.core.w.dmemWe then _ else _) = _
    rw [hidle, if_neg Bool.false_ne_true]
    rfl
  refine ⟨⟨?_, ?_, ?_, hdev.2.1, hdev.2.2⟩, hdev.1⟩
  · show (m.step P i).soc.core = (m.step P i).soc.core.reset _
    rw [hsoc, Core.reset_reset]
  · rw [hmem]
    exact fun a _ => (readWord_bytes _ a).symm
  · rw [hmem]
    exact fun a _ => (readWord_bytes _ a).symm

/-- Behind it the timer counts the clocks. -/
theorem mtime_run (h0 : m.soc.mtime = 0#64) (hrst : ∀ k, (ins k).rst = false) (n : Nat) :
    (run (Machine.step P) m ins n).soc.mtime = BitVec.ofNat 64 n := by
  induction n with
  | zero => exact h0
  | succ n ih =>
    have hnext : (run (Machine.step P) m ins (n + 1)).soc.mtime =
        (run (Machine.step P) m ins n).soc.mtime + 1#64 := by
      show ((run (Machine.step P) m ins n).soc.devices (ins n)).mtime = _
      unfold Fpga.devices
      dsimp only
      rw [hrst n, if_neg Bool.false_ne_true]
      split_ifs <;> rfl
    rw [hnext, ih, BitVec.ofNat_add]

/-- **Programs on the SoC**, from the clock behind the reset on and before the timer runs
out. -/
theorem machine_programs (hcode : ∀ w, code w → w < P.memWords) (hrst : i.rst = true)
    (hrun : ∀ k, (ins k).rst = false) :
    (∀ n < 2 ^ 64, Paced {} (((m.step P i).image P).reset never {}).archBoot n →
      (∀ k < n, Polite P code (harvardRun ((m.step P i).image P) {} (fun _ => {}) k)) →
      ∃ k ≤ n, trace (Machine.step P) (fun m _ => m.shown P) (m.step P i) ins n <+:
        (((m.step P i).image P).reset never {}).archBoot.log {} k) ∧
    (∀ k, 44 * (k + 1) < 2 ^ 64 → Paced {} (((m.step P i).image P).reset never {}).archBoot k →
      (∀ j < 44 * (k + 1), Polite P code (harvardRun ((m.step P i).image P) {} (fun _ => {}) j)) →
      ∃ n ≤ 44 * (k + 1), trace (Machine.step P) (fun m _ => m.shown P) (m.step P i) ins n =
        (((m.step P i).image P).reset never {}).archBoot.log {} k) := by
  obtain ⟨h0, htime⟩ : Mirrored P code (m.step P i) (((m.step P i).image P).reset never {}) ∧
      (m.step P i).soc.mtime = 0#64 := mirrored_reset hrst
  obtain ⟨hsafe, hlive⟩ := (hosts hcode).programs h0 ins
  have hok : ∀ n < 2 ^ 64,
      (∀ k < n, Polite P code (harvardRun ((m.step P i).image P) {} (fun _ => {}) k)) →
      ∀ k < n, Behaves P code (run (Machine.step P) (m.step P i) ins k) (ins k)
        (harvardRun ((m.step P i).image P) {} (fun _ => {}) k) := by
    intro n hn hpolite k hk
    refine ⟨hpolite k hk, hrun k, fun hmax => ?_⟩
    rw [mtime_run htime hrun k] at hmax
    have hnat := congrArg BitVec.toNat hmax
    rw [BitVec.toNat_ofNat, Nat.mod_eq_of_lt (by omega)] at hnat
    have hall : (0xFFFFFFFFFFFFFFFF#64).toNat = 2 ^ 64 - 1 := rfl
    omega
  constructor
  · intro n hn hprog hpolite
    exact hsafe n hprog (hok n hn hpolite)
  · intro k hk hprog hpolite
    exact hlive k hprog (hok _ hk hpolite)

end Reset

end Machine

/-! ## The board -/

namespace ArtyA7

/-- What the ports of the core show, with the word that the data port holds. -/
def shown (b : ArtyA7) : List Event :=
  b.soc.core.shown (b.soc.dmemRdata .artyA7 b.bram.dmemRamRdata)

/-- What the board shows in `n` clocks of the SoC from the `r`-th on, each looked at
before the edge of `clk25` that ends it. -/
def boardTrace (b : ArtyA7) (ins : Nat → ArtyIn) (r n : Nat) : List Event :=
  (List.range n).flatMap fun k => (run tick b ins (4 * (r + k) + 5)).shown

/-- The core with two memories that starts where the board does behind the `r`-th edge of
`clk25`. -/
def image (b : ArtyA7) (ins : Nat → ArtyIn) (r : Nat) : Sys {} :=
  (run tick b ins (4 * r + 2)).machine.image .artyA7

section Run

variable {b : ArtyA7} {ins : Nat → ArtyIn}

/-- Before the edge the ports are those of the SoC on a RAM that answers at once. -/
theorem shown_run (hdiv : b.clkDiv = 0#2) (hbram : b.clkBramQ = false) (k : Nat) :
    (run tick b ins (4 * k + 5)).shown =
      (run (Machine.step .artyA7) b.machine (b.pins ins) (k + 1)).shown .artyA7 := by
  obtain ⟨hm, hphase⟩ := b.run_cycle hdiv hbram ins k
  obtain ⟨hs, hb, -⟩ := answers _ hphase fun j => ins (4 * k + 2 + j)
  have hcut : run tick b ins (4 * k + 5) =
      run tick (run tick b ins (4 * k + 2)) (fun j => ins (4 * k + 2 + j)) 3 := by
    rw [← run_add]
  rw [hcut, ← hm]
  unfold shown
  rw [hs, hb]
  rfl

theorem boardTrace_eq (hdiv : b.clkDiv = 0#2) (hbram : b.clkBramQ = false) (r n : Nat) :
    boardTrace b ins r n = trace (Machine.step .artyA7) (fun m _ => m.shown .artyA7)
      (run tick b ins (4 * r + 2)).machine (fun k => b.pins ins (r + 1 + k)) n := by
  induction n with
  | zero => rfl
  | succ n ih =>
    have hlast : boardTrace b ins r (n + 1) =
        boardTrace b ins r n ++ (run tick b ins (4 * (r + n) + 5)).shown := by
      unfold boardTrace
      rw [List.range_succ, List.flatMap_append, List.flatMap_singleton]
    rw [hlast, ih, trace, shown_run hdiv hbram, (b.run_cycle hdiv hbram ins r).1, ← run_add,
      show r + 1 + n = r + n + 1 by omega]

end Run

/-- **Programs on the board.** From any power-up state, with the `r`-th edge of `clk25` the
last one in reset: what the board then shows is a prefix of the log of the sequential
machine on the RAM of that moment, and the log of `k` instructions is shown within
`44 * (k + 1)` clocks, for 2^64 clocks and as long as the program is polite. -/
theorem board_programs (b : ArtyA7) (hdiv : b.clkDiv = 0#2) (hbram : b.clkBramQ = false)
    (ins : Nat → ArtyIn) (r : Nat) (hrst : (b.pins ins r).rst = true)
    (hrun : ∀ k, r < k → (b.pins ins k).rst = false) (code : Nat → Prop)
    (hcode : ∀ w, code w → w < 8192) :
    (∀ n < 2 ^ 64, Paced {} ((b.image ins r).reset never {}).archBoot n →
      (∀ k < n, Machine.Polite .artyA7 code (harvardRun (b.image ins r) {} (fun _ => {}) k)) →
      ∃ k ≤ n, boardTrace b ins r n <+: ((b.image ins r).reset never {}).archBoot.log {} k) ∧
    (∀ k, 44 * (k + 1) < 2 ^ 64 → Paced {} ((b.image ins r).reset never {}).archBoot k →
      (∀ j < 44 * (k + 1),
        Machine.Polite .artyA7 code (harvardRun (b.image ins r) {} (fun _ => {}) j)) →
      ∃ n ≤ 44 * (k + 1),
        boardTrace b ins r n = ((b.image ins r).reset never {}).archBoot.log {} k) := by
  have hlast : (run tick b ins (4 * r + 2)).machine =
      (run (Machine.step .artyA7) b.machine (b.pins ins) r).step .artyA7 (b.pins ins r) :=
    (b.run_cycle hdiv hbram ins r).1
  have himage : b.image ins r = Machine.image .artyA7
      ((run (Machine.step .artyA7) b.machine (b.pins ins) r).step .artyA7 (b.pins ins r)) :=
    congrArg (Machine.image .artyA7) hlast
  have htrace := fun n => @boardTrace_eq b ins hdiv hbram r n
  rw [hlast] at htrace
  simp only [htrace]
  rw [himage]
  exact Machine.machine_programs hcode hrst fun k => hrun _ (by omega)

/-! ## A program -/

/-- The synchronizer lets the board go at the fourth edge. -/
theorem released_powerUp (n : Nat) (h : 3 ≤ n) :
    (run tick powerUp (fun _ => {}) n).uRst = ⟨false, 0b000#3⟩ := by
  induction n, h using Nat.le_induction with
  | base => decide +kernel
  | succ n _ ih =>
    show (run tick powerUp (fun _ => {}) n).rstNext {} = _
    unfold rstNext
    rw [ih]
    decide

/-- The jump to itself that fills the RAM. -/
def jumps : Arch := ((powerUp.image (fun _ => {}) 0).reset never {}).archBoot

theorem board_programs_jumps :
    ∃ k ≤ 6, boardTrace powerUp (fun _ => {}) 0 6 <+: jumps.log {} k := by
  refine (board_programs powerUp rfl rfl (fun _ => {}) 0 (by decide +kernel) (fun k hk => ?_)
    (fun w => w < 4) (fun w hw => by omega)).1 6 (by decide) (by decide +kernel) ?_
  · show (run tick powerUp (fun _ => {}) (4 * k + 2)).uRst.syncRstOut = false
    rw [released_powerUp _ (by omega)]
    decide
  · decide +kernel

end ArtyA7

end ThreeSippEs
