import ThreeSippEs.Golden.Programs
import ThreeSippEs.Soc.Programs

/-!
# Co-simulation (`tools/cosim.py`, `tb/tb_three_sipp_es.sv`)

The testbench runs a program on the SoC and prints a line for each retirement. The golden
model prints its lines, and the harness compares the two.

- `Cosim.exitCode`: the comparison;
- `Tb.print`: the lines of the testbench, from its reset to `$finish`;
- `Tb.Loaded`: the SoC with a program in its memories;
- `cosim_passes`: a plain program passes.
-/

namespace ThreeSippEs

open Clocked AlignedBlock Golden

/-! ## The comparison -/

namespace Cosim

/-- Two lines differ. The register of a line without a write is not looked at. -/
def differs (r g : Cpu.Retire) : Bool := r.pc != g.pc || r.instr != g.instr || r.write != g.write

/-- `main`: the exit code. -/
def exitCode (rtl gold : List Cpu.Retire) : Nat :=
  let n := min rtl.length gold.length
  if n = 0 then 3
  else if ((rtl.take n).zip (gold.take n)).any fun p => differs p.1 p.2 then 1
  -- one instruction behind the halting store is tolerated
  else if max rtl.length gold.length - n > 1 then 2
  else 0

theorem differs_self (r : Cpu.Retire) : differs r r = false := by
  unfold differs
  simp

/-- The same lines, and no more than one behind them. -/
theorem exitCode_append {gold tail : List Cpu.Retire} (hne : gold ≠ []) (htail : tail.length ≤ 1) :
    exitCode (gold ++ tail) gold = 0 := by
  have hmin : min (gold ++ tail).length gold.length = gold.length := by
    rw [List.length_append]
    omega
  have hlen : gold.length ≠ 0 := fun h => hne (List.length_eq_zero_iff.mp h)
  have hsame : ((gold ++ tail).take gold.length).zip (gold.take gold.length) =
      gold.map fun g => (g, g) := by
    have hzip := @List.zip_map' _ _ _ id id gold
    rw [List.map_id] at hzip
    rw [List.take_left, List.take_length]
    exact hzip
  have hany : (gold.map fun g => (g, g)).any (fun p => differs p.1 p.2) = false := by
    rw [List.any_map, List.any_eq_false]
    intro g _
    exact Bool.eq_false_iff.mp (differs_self g)
  unfold exitCode
  dsimp only
  rw [hmin, if_neg hlen, hsame, hany, if_neg Bool.false_ne_true, List.length_append, if_neg]
  omega

end Cosim

/-! ## The testbench -/

/-- The SoC of a build, with or without `THREE_SIPP_ES_SECURE`. -/
def ChipParams.built (secure : Bool) : ChipParams := { SocParams.source with secure := secure }

/-- A store to `tohost`. -/
def Event.halts : Event → Bool
  | .bus acc => acc.write && acc.addr == SocParams.source.tohostAddr
  | .retire .. => false

namespace Tb

variable {secure : Bool} (c : Chip (.built secure))

/-- The lines of one clock. -/
def lines : List Cpu.Retire := c.shown.filterMap Event.line

/-- The lines of no more than `n` clocks, up to `$finish` behind the store to `tohost`.
Simulators differ in whether the line of the last clock comes before (`late`). -/
def print (late : Bool) : Nat → Chip (.built secure) → List Cpu.Retire
  | 0, _ => []
  | n + 1, c =>
    if c.soc.tohostWeR then (if late then lines c else [])
    else lines c ++ print late n (c.step {})

/-- A store to `tohost` is in W. -/
def stores : Bool := c.core.w.dmemWe && c.core.w.dmemAddr == SocParams.source.tohostAddr

/-- The store that a clock shows. -/
theorem stores_eq : stores c = c.shown.any Event.halts := by
  unfold stores Chip.shown Core.shown
  cases c.core.w.dmemRe <;> cases c.core.w.dmemWe <;> cases c.core.w.retireValid <;>
    simp [Event.halts]

/-- The SoC after `n` clocks. -/
abbrev after (n : Nat) : Chip (.built secure) := run Chip.step c (fun _ => {}) n

variable {c}

theorem dmAccess_tohost {P : SocParams} (s d : Soc) (i : SocIn) :
    (s.dmAccess P i d).tohostWeR = d.tohostWeR := by
  unfold Soc.dmAccess
  split_ifs <;> rfl

theorem tohost_step : (c.step {}).soc.tohostWeR = stores c := by
  show (c.soc.dmAccess _ (c.socIn {}) (c.soc.dataWrite _ (c.socIn {})
    (c.soc.tick (c.socIn {})))).tohostWeR = _
  rw [dmAccess_tohost]
  have hwe : (c.socIn {}).dmemWe = c.core.w.dmemWe := rfl
  have haddr : (c.socIn {}).dmemAddr = c.core.w.dmemAddr := rfl
  unfold stores Soc.dataWrite
  rw [hwe, haddr]
  cases c.core.w.dmemWe with
  | false => rfl
  | true =>
    rw [if_pos rfl, Bool.true_and]
    by_cases htohost : c.core.w.dmemAddr = SocParams.source.tohostAddr
    · rw [htohost]
      rfl
    · have hne : (c.core.w.dmemAddr == SocParams.source.tohostAddr) = false := by simpa using htohost
      have hno : ¬ c.core.w.dmemAddr = (ChipParams.built secure).tohostAddr := htohost
      rw [hne, if_neg hno]
      split_ifs <;> rfl

/-- The lines of the clocks before the store, and the rest. -/
theorem print_cut {late : Bool} (h0 : c.soc.tohostWeR = false) {j : Nat}
    (hno : ∀ i < j, stores (after c i) = false) (n : Nat) :
    print late (n + j + 1) c =
      (trace Chip.step (fun c _ => c.shown) c (fun _ => {}) (j + 1)).filterMap Event.line ++
        print late n (after c (j + 1)) := by
  have hquiet : ∀ i ≤ j, (after c i).soc.tohostWeR = false := by
    intro i hi
    cases i with
    | zero => exact h0
    | succ i => exact tohost_step.trans (hno i (by omega))
  have hcut : ∀ i ≤ j + 1, print late (n + j + 1) c =
      (trace Chip.step (fun c _ => c.shown) c (fun _ => {}) i).filterMap Event.line ++
        print late (n + (j + 1 - i)) (after c i) := by
    intro i
    induction i with
    | zero => exact fun _ => rfl
    | succ i ih =>
      intro hi
      have hlen : n + (j + 1 - i) = n + (j + 1 - (i + 1)) + 1 := by omega
      rw [ih (by omega), hlen, print, hquiet i (by omega), if_neg Bool.false_ne_true, trace,
        List.filterMap_append, List.append_assoc]
      rfl
  have h := hcut (j + 1) (Nat.le_refl _)
  rw [Nat.sub_self, Nat.add_zero] at h
  exact h

/-- **The lines of a run** that stores to `tohost` in clock `t`: those of the clocks up to
then, and what retires in the clock of `$finish`. -/
theorem print_eq {late : Bool} (h0 : c.soc.tohostWeR = false) {t : Nat}
    (hno : ∀ i < t, stores (after c i) = false) (ht : stores (after c t) = true) {n : Nat}
    (hn : t + 2 ≤ n) :
    print late n c =
      (trace Chip.step (fun c _ => c.shown) c (fun _ => {}) (t + 1)).filterMap Event.line ++
        if late then lines (after c (t + 1)) else [] := by
  have hlast : (after c (t + 1)).soc.tohostWeR = true := tohost_step.trans ht
  obtain ⟨d, rfl⟩ := Nat.exists_eq_add_of_le hn
  rw [show t + 2 + d = (d + 1) + t + 1 by omega, print_cut h0 hno (d + 1), print, hlast,
    if_pos rfl]

/-- A clock retires no more than one instruction. -/
theorem lines_length (c : Chip (.built secure)) : (lines c).length ≤ 1 := by
  unfold lines Chip.shown Core.shown
  split_ifs <;> first | exact Nat.le_refl 1 | exact Nat.zero_le 1

/-! ## The program in the memories -/

/-- The SoC before the reset: the image in IMEM with NOPs behind it, an empty DRAM, the
registers zero, and no access under way. -/
structure Loaded (image : List Word) (c : Chip (.built secure)) : Prop where
  imem : ∀ n < 8192, c.soc.imem n = image.getD n 0x13#32
  dram : ∀ n < 8192, c.soc.dram n = 0#32
  regs : ∀ r, Regfile.get c.core.regs r = 0#32
  empty : c.core.w.xwValid = false
  running : c.core.dbg.dbgMode = false
  dm : c.dbg.dm.dmMemValid = false
  dmi : c.dbg.dtm.dmiWePulse = false

/-- A reset leaves it as it is. -/
theorem Loaded.reset {image : List Word} (h : Loaded image c) {i : ChipIn} (hrst : i.rst = true) :
    Loaded image (c.step i) := by
  have hcore : (c.step i).core = c.core.reset (c.coreIn i) := by
    show (if i.rst || c.dbg.dm.ndmreset then _ else _) = _
    rw [hrst, Bool.true_or, if_pos rfl]
  have hdbg : (c.step i).dbg.dm = .reset := by
    show (if i.rst then DebugModule.reset else _) = _
    rw [hrst, if_pos rfl]
  have hwe : (c.socIn i).dmemWe = false := by
    show c.core.w.dmemWe = false
    unfold WStage.dmemWe WStage.amoDoStore WStage.amoRmwB2 WStage.amoHere
    rw [h.empty]
    rfl
  have hsoc : (c.step i).soc.imem = c.soc.imem ∧ (c.step i).soc.dram = c.soc.dram := by
    have hdm : (c.socIn i).dmMemValid = false := h.dm
    have hacc : ∀ d : Soc, (c.soc.dmAccess (ChipParams.built secure).toSocParams (c.socIn i) d).imem =
        d.imem ∧ (c.soc.dmAccess (ChipParams.built secure).toSocParams (c.socIn i) d).dram = d.dram := by
      intro d
      unfold Soc.dmAccess
      rw [hdm, if_neg Bool.false_ne_true]
      exact ⟨rfl, rfl⟩
    have hdata : c.soc.dataWrite (ChipParams.built secure).toSocParams (c.socIn i)
        (c.soc.tick (c.socIn i)) = c.soc.tick (c.socIn i) := Chip.dataWrite_of_no_write hwe
    obtain ⟨hdram, himem⟩ := c.soc.tick_memories (c.socIn i)
    show (c.soc.dmAccess _ _ (c.soc.dataWrite _ _ _)).imem = _ ∧
      (c.soc.dmAccess _ _ (c.soc.dataWrite _ _ _)).dram = _
    rw [hdata]
    exact ⟨(hacc _).1.trans himem, (hacc _).2.trans hdram⟩
  have hregs : (c.step i).core.regs = c.core.regs := by
    have hrf : c.core.rfWe (c.coreIn i) = false := by
      unfold Core.rfWe WStage.rfWe
      rw [Core.dbgGprWe_of_running h.running, h.empty]
      rfl
    rw [hcore]
    show Regfile.write c.core.regs (c.core.rfWe (c.coreIn i)) _ _ = _
    rw [hrf, Regfile.write_false]
  refine ⟨?_, ?_, ?_, ?_, ?_, ?_, ?_⟩
  · rw [hsoc.1]
    exact h.imem
  · rw [hsoc.2]
    exact h.dram
  · rw [hregs]
    exact h.regs
  · rw [hcore]
    rfl
  · rw [hcore]
    rfl
  · rw [hdbg]
    rfl
  · show ((if i.rst then c.dbg.dtm else _).dmiWePulse) = false
    rw [hrst, if_pos rfl]
    exact h.dmi

/-! ## The pins at rest -/

/-- No DMI write, and no edge of TCK. -/
structure Silent (d : Dtm) : Prop where
  dmi : d.dmiWePulse = false
  low : d.tckS.getLsbD 0 = false

namespace Silent

variable {d : Dtm} {p : Pins}

theorem tckRise (h : Silent d) : d.tckRise = false := by
  unfold Dtm.tckRise
  rw [beq_eq_false_iff_ne]
  intro hrise
  have hlow := h.low
  rw [hrise] at hlow
  exact absurd hlow (by decide)

theorem step {rst : Bool} (h : d.dmiWePulse = false) (hrise : rst = false → d.tckRise = false)
    (hp : p.tck = false) (idcode : Word) (dmRead : BitVec 7 → Word) :
    Silent (d.step idcode rst p dmRead) := by
  constructor
  · show (if rst then d else d.drNext idcode dmRead).dmiWePulse = false
    cases rst with
    | true => exact h
    | false =>
      rw [if_neg Bool.false_ne_true]
      unfold Dtm.drNext
      rw [hrise rfl, if_neg Bool.false_ne_true]
      rfl
  · show (Dtm.sync d.tckS p.tck).getLsbD 0 = false
    rw [hp]
    unfold Dtm.sync
    generalize d.tckS.getLsbD 0 = b
    revert b
    decide

end Silent

/-- With the pins at rest no DMI write comes. -/
theorem dmiWrite_after (h : Silent c.dbg.dtm) (n : Nat) :
    Silent (after c n).dbg.dtm ∧ (after c n).dmiWrite {} = none := by
  have hsilent : Silent (after c n).dbg.dtm := by
    induction n with
    | zero => exact h
    | succ n ih => exact Silent.step ih.dmi (fun _ => ih.tckRise) rfl ..
  refine ⟨hsilent, ?_⟩
  show (if (after c n).dbg.dtm.dmiWePulse && true then _ else _) = _
  rw [hsilent.dmi]
  rfl

end Tb

/-! ## The two sides at the reset address -/

/-- A byte of a memory is a lane of its word. -/
theorem Bytes.byte_eq (m : Bytes) (b : Word) : m b = lane (m.readWord b) (b.toNat % 4) := by
  have hmod : b.toNat % 4 < 4 := Nat.mod_lt _ (by omega)
  rw [m.lane_readWord b hmod]
  refine congrArg m (BitVec.eq_of_toNat_eq ?_)
  have hlt := b.isLt
  rw [BitVec.toNat_add, wordOf_toNat, BitVec.toNat_ofNat]
  omega

namespace Golden

/-- `CPU(Mem(load_hex(..)))` -/
def Cpu.boot (image : List Word) : Cpu where
  x := fun _ => 0#32
  x0 := rfl
  pc := 0#32
  mem := { imem := image }
  csr := fun _ => 0#32

/-- **Both sides start alike.** -/
theorem Joined.boot {secure : Bool} {image : List Word} {c : Chip (.built secure)}
    {t : Sys (ChipParams.built secure).core} (hfit : image.length ≤ 8192) (h : Tb.Loaded image c)
    (hm : Chip.Mirrored c t) : Joined (Cpu.boot image) t.archBoot := by
  have hidx : ∀ b : Word, b.toNat >>> 2 = b.toNat / 4 := fun b => Nat.shiftRight_eq_div_pow _ 2
  refine ⟨rfl, fun r => ?_, fun b hb => ?_, fun b hb => ?_, rfl, rfl, hfit⟩
  · show Regfile.get t.core.regs r = 0#32
    rw [← hm.core]
    exact h.regs r
  · have hlast := SocParams.inImem_iff.mp hb
    have hwords : SocParams.source.imemWords = 8192 := rfl
    have hword : c.soc.imem (SocParams.source.imemIdx b) = t.mem.imem.readWord b :=
      hm.fetched b trivial
    rw [SocParams.imemIdx_eq hb, h.imem _ (by omega)] at hword
    show t.mem.imem b = _
    rw [Bytes.byte_eq t.mem.imem b, ← hword]
    unfold Mem.imageByte Mem.ifetch
    rw [hidx]
    rfl
  · show t.mem.dmem b = _
    rw [Bytes.byte_eq t.mem.dmem b]
    unfold Mem.byte Mem.loadWord
    by_cases hin : SocParams.source.inDram b = true
    · have hrange := SocParams.inDram_iff.mp hin
      have hbase : SocParams.source.dramBase.toNat = 0x80000000 := rfl
      have hwords : SocParams.source.dramWords = 8192 := rfl
      have hword : c.soc.dram (SocParams.source.dramIdx b) = t.mem.dmem.readWord b := hm.dram b hin
      rw [SocParams.dramIdx_eq hin, h.dram _ (by omega)] at hword
      rw [← hword, if_pos (inDram_iff.mpr (by omega))]
      rfl
    · have himage : b.toNat / 4 < image.length := hb.resolve_left hin
      have hwords : SocParams.source.imemWords = 8192 := rfl
      have himem : SocParams.source.inImem b = true := SocParams.inImem_iff.mpr (by omega)
      have hword : c.soc.imem (SocParams.source.imemIdx b) = t.mem.dmem.readWord b :=
        hm.imem b ⟨himem, Bool.eq_false_iff.mpr hin⟩
      rw [SocParams.imemIdx_eq himem, h.imem _ (by omega)] at hword
      have hno : ¬ Mem.inDram b.toNat = true := fun hdram => by
        have hrange := inDram_iff.mp hdram
        omega
      rw [← hword, if_neg hno, hidx, List.getD_eq_getElem _ _ himage]
      show _ = (image.getD (b.toNat / 4) 0#32).extractLsb' _ _
      rw [List.getD_eq_getElem _ _ himage]
      rfl

/-- The SoC serves the accesses of a plain instruction. -/
theorem Joined.served {P : Params} {c : Cpu} {a : Arch} (h : Joined c a) (hp : Plain c) :
    (a.shows P).all (Chip.served SocParams.source) = true := by
  refine List.all_eq_true.mpr fun e he => ?_
  cases e with
  | retire pc instr wr => rfl
  | bus acc =>
    obtain ⟨haddr, hread, hwrite⟩ := h.shows_bus hp he
    have hword : wordOf acc.addr = wordOf c.addr := by
      rw [haddr, wordOf_eq_iff, wordOf_toNat]
      omega
    show (Chip.accAnswered SocParams.source acc && !Clint.selects SocParams.source acc) = true
    unfold Chip.accAnswered Clint.selects
    rw [Bool.and_eq_true]
    cases hw : acc.write with
    | false =>
      refine ⟨?_, rfl⟩
      rw [Bool.or_eq_true]
      rcases hp.load (hread hw) with hin | himage
      · rw [SocParams.inDram_congr hword]
        exact Or.inl hin
      · refine Or.inr ?_
        have hfit := h.image
        have hwords : SocParams.source.imemWords = 8192 := rfl
        rw [if_neg Bool.false_ne_true, SocParams.inImem_congr hword, SocParams.inImem_iff]
        omega
    | true =>
      obtain ⟨hwe, hbe⟩ := hwrite hw
      rcases hp.store hwe with hin | htohost
      · rw [SocParams.inDram_congr hword, hin]
        exact ⟨rfl, rfl⟩
      · have haddr' : acc.addr = SocParams.source.tohostAddr := by
          rw [haddr, htohost]
          rfl
        rw [if_pos rfl, haddr']
        refine ⟨?_, rfl⟩
        rw [Bool.or_eq_true, Bool.and_eq_true, Bool.or_eq_true, beq_iff_eq, Bool.not_eq_true',
          Bool.not_eq_true']
        exact Or.inr ⟨rfl, hbe (by rw [htohost]; rfl)⟩

/-! ## The store to `tohost` -/

theorem storeAt_tohost (m : Mem) (b v : Word) (size : Nat) :
    (m.storeAt b v size).tohost.isSome = (b == SocParams.source.tohostAddr || m.tohost.isSome) := by
  have hstore : ∀ val be : Nat, (m.store b.toNat val be).tohost.isSome =
      (b == SocParams.source.tohostAddr || m.tohost.isSome) := by
    intro val be
    unfold Mem.store
    by_cases hb : b = SocParams.source.tohostAddr
    · have heq : b.toNat = Golden.tohostAddr := congrArg BitVec.toNat hb
      rw [if_pos heq, beq_iff_eq.mpr hb]
      rfl
    · have hne : ¬ b.toNat = Golden.tohostAddr := fun h => hb (BitVec.eq_of_toNat_eq h)
      rw [if_neg hne, beq_eq_false_iff_ne.mpr hb, Bool.false_or]
      split_ifs <;> rfl
  unfold Mem.storeAt
  split <;> exact hstore _ _

/-- The instruction that stops the script. -/
theorem Joined.stops_iff {c : Cpu} {a : Arch} (h : Joined c a) (hp : Plain c)
    (hgo : c.mem.tohost = none) : c.step.mem.tohost.isSome = true ↔
      (decode c.ins).memWe = true ∧ c.addr = SocParams.source.tohostAddr := by
  obtain ⟨-, -, hins, -⟩ := h.fetch hp
  have hx := h.executes (P := {}) hp
  have hmem : c.step.mem = c.next.mem := rfl
  rw [hmem, hx.mem, hins]
  cases hwe : (decode a.instr).memWe with
  | false => simp [hgo]
  | true =>
    have haddr := h.addr_eq hp (.inr hwe)
    rw [if_pos rfl, storeAt_tohost, haddr, hgo]
    simp

/-- It shows the store and its line. -/
theorem Joined.stop {P : Params} {c : Cpu} {a : Arch} (h : Joined c a) (hp : Plain c)
    (hgo : c.mem.tohost = none) (hstop : c.step.mem.tohost.isSome = true) :
    ∃ e e', a.shows P = [e, e'] ∧ e.halts = true := by
  obtain ⟨hwe, haddr⟩ := (h.stops_iff hp hgo).mp hstop
  obtain ⟨acc, wr, hshows, hwrite, hword⟩ := h.shows_store (P := P) hp hwe
  refine ⟨_, _, hshows, ?_⟩
  show (acc.write && acc.addr == SocParams.source.tohostAddr) = true
  rw [hwrite, hword, haddr]
  decide

/-- The others show no store to `tohost`. -/
theorem Joined.goes {P : Params} {c : Cpu} {a : Arch} (h : Joined c a) (hp : Plain c)
    (hgo : c.mem.tohost = none) (hgo' : c.step.mem.tohost = none) :
    ∀ e ∈ a.shows P, e.halts = false := by
  intro e he
  cases e with
  | retire pc instr wr => rfl
  | bus acc =>
    obtain ⟨haddr, -, hwrite⟩ := h.shows_bus hp he
    by_contra hhalts
    rw [Bool.not_eq_false] at hhalts
    obtain ⟨hw, hto⟩ : acc.write = true ∧ acc.addr = SocParams.source.tohostAddr := by
      simpa [Event.halts] using hhalts
    have hwe := (hwrite hw).1
    have hword : AlignedBlock.wordOf c.addr = AlignedBlock.wordOf SocParams.source.tohostAddr := by
      rw [← haddr, hto]
      decide
    rcases hp.store hwe with hdram | htohost
    · rw [SocParams.inDram_congr hword] at hdram
      exact absurd hdram (by decide)
    · have hstop := (h.stops_iff hp hgo).mpr ⟨hwe, htohost⟩
      rw [hgo'] at hstop
      cases hstop

/-! ## A program that stops -/

section Stops

variable {P : Params} {c : Cpu} {a : Arch} {k : Nat}

/-- Its log: nothing halts up to the store and its line. -/
theorem Joined.log_stops (h : Joined c a) (hnew : c.mem.tohost = none)
    (hplain : ∀ i ≤ k, Plain (c.steps i)) (hgo : ∀ i < k, (c.steps (i + 1)).mem.tohost = none)
    (hstop : (c.steps (k + 1)).mem.tohost.isSome = true) :
    (∀ e ∈ a.log P k, e.halts = false) ∧
      ∃ e e', a.log P (k + 1) = a.log P k ++ [e, e'] ∧ e.halts = true := by
  have hnone : ∀ i ≤ k, (c.steps i).mem.tohost = none := by
    intro i hi
    cases i with
    | zero => exact hnew
    | succ i => exact hgo i (Nat.lt_of_succ_le hi)
  have hrun : ∀ i ≤ k, Joined (c.steps i) (a.executed P i) := fun i hi =>
    (h.run i fun j hj => hplain j (by omega)).1
  constructor
  · have hquiet : ∀ i ≤ k, ∀ e ∈ a.log P i, e.halts = false := by
      intro i
      induction i with
      | zero =>
        intro _ e he
        cases he
      | succ i ih =>
        intro hi e he
        rw [Arch.log_succ, List.mem_append] at he
        rcases he with he | he
        · exact ih (by omega) e he
        · exact (hrun i (by omega)).goes (hplain i (by omega)) (hnone i (by omega)) (hgo i hi) e he
    exact hquiet k (Nat.le_refl k)
  · obtain ⟨e, e', hshows, hhalts⟩ := (hrun k (Nat.le_refl k)).stop (P := P)
      (hplain k (Nat.le_refl k)) (hnone k (Nat.le_refl k)) hstop
    exact ⟨e, e', by rw [Arch.log_succ, hshows], hhalts⟩

/-- And the SoC serves it. -/
theorem Joined.log_served (h : Joined c a) (hplain : ∀ i < k, Plain (c.steps i)) :
    (a.log P k).all (Chip.served SocParams.source) = true := by
  induction k with
  | zero => rfl
  | succ k ih =>
    have hk := (h.run (P := P) k fun i hi => hplain i (Nat.lt_succ_of_lt hi)).1
    rw [Arch.log_succ, List.all_append, ih fun i hi => hplain i (Nat.lt_succ_of_lt hi),
      hk.served (hplain k (Nat.lt_succ_self k))]
    rfl

end Stops

end Golden

namespace Tb

variable {secure : Bool} {c : Chip (.built secure)}

/-- What the SoC has shown after `n` clocks. -/
abbrev shown (c : Chip (.built secure)) (n : Nat) : List Event :=
  trace Chip.step (fun c _ => c.shown) c (fun _ => {}) n

/-- A part of the log that goes beyond the store goes to the end. -/
theorem eq_of_halts {l es : List Event} {e e' last : Event} (hes : ∀ x ∈ es, x.halts = false)
    (he : e.halts = true) (hlast : last.halts = false) (hl : ∃ x ∈ l, x.halts = true)
    (hle : l ++ [last] <+: es ++ [e, e']) : l ++ [last] = es ++ [e, e'] := by
  obtain ⟨x, hx, hhalts⟩ := hl
  obtain ⟨rest, hrest⟩ := hle
  rcases rest.eq_nil_or_concat' with rfl | ⟨rest, y, rfl⟩
  · rwa [List.append_nil] at hrest
  · rw [show es ++ [e, e'] = (es ++ [e]) ++ [e'] by simp, ← List.append_assoc] at hrest
    have hrest' := (List.append_inj' hrest rfl).1
    rcases rest.eq_nil_or_concat' with rfl | ⟨rest, z, rfl⟩
    · -- it ends with the store
      rw [List.append_nil] at hrest'
      have hsame : last = e := List.singleton_inj.mp (List.append_inj' hrest' rfl).2
      rw [hsame, he] at hlast
      cases hlast
    · -- it ends before the store
      rw [← List.append_assoc] at hrest'
      have hall := (List.append_inj' hrest' rfl).1
      have hno := hes x (hall ▸ List.mem_append_left _ (List.mem_append_left _ hx))
      rw [hhalts] at hno
      cases hno

/-- **The clock of the store**, when the instruction retires with it. -/
theorem stop_clock {m : Nat} {es : List Event} {e e' : Event} (hes : ∀ x ∈ es, x.halts = false)
    (he : e.halts = true) (hlog : shown c m = es ++ [e, e'])
    (hretire : ∀ i < m, stores (after c i) = true → (after c i).core.w.retireValid = true) :
    ∃ t < m, (∀ i < t, stores (after c i) = false) ∧ stores (after c t) = true ∧
      shown c (t + 1) = es ++ [e, e'] := by
  obtain ⟨j, hj, hin⟩ : ∃ j < m, e ∈ (after c j).shown := by
    have hin : e ∈ shown c m := by
      rw [hlog]
      simp
    exact mem_trace.mp hin
  have hstores : ∃ j, stores (after c j) = true := by
    refine ⟨j, ?_⟩
    rw [stores_eq]
    exact List.any_eq_true.mpr ⟨e, hin, he⟩
  have hle : Nat.find hstores ≤ j := by
    refine Nat.find_min' hstores ?_
    rw [stores_eq]
    exact List.any_eq_true.mpr ⟨e, hin, he⟩
  have hspec := Nat.find_spec hstores
  refine ⟨Nat.find hstores, by omega, fun i hi => Bool.eq_false_iff.mpr (Nat.find_min hstores hi),
    hspec, ?_⟩
  generalize Nat.find hstores = t at hle hspec
  -- the events of the clock end with the line
  obtain ⟨l, last, hclock, hlast⟩ : ∃ l last, (after c t).shown = l ++ [last] ∧
      last.halts = false := by
    unfold Chip.shown Core.shown
    rw [hretire t (by omega) hspec, if_pos rfl]
    exact ⟨_, _, rfl, rfl⟩
  have hshown : shown c (t + 1) = (shown c t ++ l) ++ [last] := by
    show shown c t ++ (after c t).shown = _
    rw [hclock, List.append_assoc]
  have hpre : shown c (t + 1) <+: shown c m := trace_le (by omega)
  rw [hlog, hshown] at hpre
  rw [hshown]
  refine eq_of_halts hes he hlast ?_ hpre
  rw [stores_eq, hclock, List.any_append, Bool.or_eq_true] at hspec
  rcases hspec with hspec | hspec
  · obtain ⟨x, hx, hhalts⟩ := List.any_eq_true.mp hspec
    exact ⟨x, List.mem_append_right _ hx, hhalts⟩
  · rw [List.any_cons, hlast] at hspec
    cases hspec

/-- The SoC behind the reset. -/
theorem Loaded.booted {image : List Word} (h : Loaded image c) :
    Loaded image ((c.step { rst := true }).step { rst := true }) ∧
      Silent ((c.step { rst := true }).step { rst := true }).dbg.dtm ∧
      ((c.step { rst := true }).step { rst := true }).soc.tohostWeR = false := by
  have h1 := h.reset (i := { rst := true }) rfl
  refine ⟨h1.reset rfl, ?_, ?_⟩
  · exact Silent.step h1.dmi (fun h => absurd h Bool.false_ne_true.symm) rfl ..
  · have hwe : ((c.step { rst := true }).socIn { rst := true }).dmemWe = false := by
      show (c.step { rst := true }).core.w.dmemWe = false
      unfold WStage.dmemWe WStage.amoDoStore WStage.amoRmwB2 WStage.amoHere
      rw [h1.empty]
      rfl
    generalize c.step { rst := true } = d at hwe ⊢
    show (d.soc.dmAccess _ (d.socIn { rst := true }) (d.soc.dataWrite _ (d.socIn { rst := true })
      (d.soc.tick (d.socIn { rst := true })))).tohostWeR = _
    rw [dmAccess_tohost, Chip.dataWrite_of_no_write hwe]
    rfl

open Golden in
/-- A plain program that stops: the SoC stores to `tohost` in some clock, and has then
printed the lines of the script. -/
theorem Loaded.stops {image : List Word} (h : Loaded image c) (hfit : image.length ≤ 8192) {k : Nat}
    (hplain : ∀ i ≤ k + 1, Plain ((Cpu.boot image).steps i))
    (hgo : ∀ i < k, ((Cpu.boot image).steps (i + 1)).mem.tohost = none)
    (hstop : ((Cpu.boot image).steps (k + 1)).mem.tohost.isSome = true)
    (hlimit : 44 * (k + 2) < 2 ^ 64) :
    ∃ t < 44 * (k + 2),
      (∀ i < t, stores (after ((c.step { rst := true }).step { rst := true }) i) = false) ∧
      stores (after ((c.step { rst := true }).step { rst := true }) t) = true ∧
      (shown ((c.step { rst := true }).step { rst := true }) (t + 1)).filterMap Event.line =
        (Cpu.boot image).lines (k + 1) := by
  obtain ⟨hbooted, hsilent, -⟩ := h.booted
  obtain ⟨hmirrored, -⟩ := @Chip.mirrored_reset _ c { rst := true } { rst := true } rfl rfl
  have hjoined := Joined.boot hfit hbooted hmirrored.toMirrored
  obtain ⟨-, hlines⟩ := hjoined.run (P := (ChipParams.built secure).core) (k + 1)
    fun i hi => hplain i (by omega)
  have hserved := hjoined.log_served (P := (ChipParams.built secure).core) (k := k + 1)
    fun i hi => hplain i (by omega)
  obtain ⟨hes, e, e', hlog, he⟩ := hjoined.log_stops (P := (ChipParams.built secure).core) rfl
    (fun i hi => hplain i (by omega)) hgo hstop
  obtain ⟨m, hm, hall⟩ := @Paced.shows_log _ _ {} (fun _ => {}) (k + 1)
    (hjoined.paced (k + 1) hplain) (fun _ => rfl) (fun _ => rfl)
  have hle : harvardTrace ((c.step { rst := true }).step { rst := true }).image {} (fun _ => {}) m <+:
      Arch.log (ChipParams.built secure).core
        ((((c.step { rst := true }).step { rst := true }).image).reset never {}).archBoot (k + 1) := by
    rw [hall]
  -- the clocks of the SoC are those of the core with two memories
  have hpassive : ∀ j, ((after ((c.step { rst := true }).step { rst := true }) j).dmiWrite {}).all
      DebugModule.harmless = true := by
    intro j
    rw [(dmiWrite_after hsilent j).2]
    rfl
  have hsame := fun j (hj : j ≤ m) => @Chip.trace_eq _ c { rst := true } { rst := true } rfl rfl
    (fun _ => {}) (fun _ => rfl) j (by omega) _ hserved ((trace_le hj).trans hle)
    fun i _ => hpassive i
  obtain ⟨t, ht, hno, hstores, hshown⟩ := stop_clock hes he
    ((hsame m (Nat.le_refl m)).2.trans (hall.trans hlog)) fun j hj hstores => by
      obtain ⟨hcore, -⟩ := hsame j (Nat.le_of_lt hj)
      unfold stores at hstores
      rw [hcore] at hstores ⊢
      obtain ⟨hwe, haddr⟩ : _ ∧ _ := Bool.and_eq_true .. ▸ hstores
      rw [beq_iff_eq] at haddr
      refine Chip.retires_of_shown (Chip.formed_run _ _ j)
        (Chip.all_of_trace hle (Chip.answered_of_served hserved) j hj) hwe ?_
      rw [haddr]
      rfl
  refine ⟨t, by omega, hno, hstores, ?_⟩
  rw [hshown, ← hlog]
  exact hlines

end Tb

open Golden in
/-- **Co-simulation passes.** The testbench loads an image and holds the reset for at least
two clocks. When the program stores to `tohost` after `k + 1` instructions, which like the
one behind them both sides run alike, and the budgets of both suffice, the lines of the SoC
are those of the script but for one behind the store, for both builds and with or without
it. -/
theorem cosim_passes (secure late : Bool) (image : List Word) (hfit : image.length ≤ 8192)
    (c : Chip (.built secure)) (hload : Tb.Loaded image c) (r k n maxSteps : Nat)
    (hplain : ∀ i ≤ k + 1, Plain ((Cpu.boot image).steps i))
    (hgo : ∀ i < k, ((Cpu.boot image).steps (i + 1)).mem.tohost = none)
    (hstop : ((Cpu.boot image).steps (k + 1)).mem.tohost.isSome = true)
    (hlimit : 44 * (k + 2) < 2 ^ 64) (hn : 44 * (k + 2) < n) (hmax : k < maxSteps) :
    Cosim.exitCode (Tb.print late n (run Chip.step c (fun _ => { rst := true }) (r + 2)))
      ((Cpu.boot image).main maxSteps) = 0 := by
  have hreset : ∀ j, Tb.Loaded image (run Chip.step c (fun _ => { rst := true }) j) := by
    intro j
    induction j with
    | zero => exact hload
    | succ j ih => exact ih.reset rfl
  obtain ⟨-, -, hquiet⟩ := (hreset r).booted
  obtain ⟨t, ht, hno, hstores, hlines⟩ := (hreset r).stops hfit hplain hgo hstop hlimit
  have hc : run Chip.step c (fun _ => { rst := true }) (r + 2) =
      ((run Chip.step c (fun _ => { rst := true }) r).step { rst := true }).step { rst := true } :=
    rfl
  rw [hc, Tb.print_eq hquiet hno hstores (by omega), hlines, Cpu.main_eq _ hgo hstop hmax]
  refine Cosim.exitCode_append ?_ ?_
  · unfold Cpu.lines
    simp
  · cases late with
    | true => exact Tb.lines_length _
    | false => exact Nat.zero_le 1

/-! ## A program -/

/-- `lui x1, 0x20000; addi x2, x0, 1; sw x2, 0(x1); jal x0, 0` -/
def passing : List Word := [0x200000B7#32, 0x00100113#32, 0x0020A023#32, 0x0000006F#32]

/-- The SoC with an image in its IMEM. -/
def Tb.load (image : List Word) : Chip (.built false) where
  core := Core.powerUp _
  dbg := {}
  soc := ⟨fun n => image.getD n 0x13#32, fun _ => 0#32, 0#64, 0#64, false, 0#32, false,
    Uart.reset 0#16, 0#32, false⟩

theorem Tb.loaded_load (image : List Word) : Tb.Loaded image (Tb.load image) :=
  ⟨fun _ _ => rfl, fun _ _ => rfl, fun _ => ite_self _, rfl, rfl, rfl, rfl⟩

theorem cosim_passes_passing :
    Cosim.exitCode (Tb.print true 200 (run Chip.step (Tb.load passing) (fun _ => { rst := true }) 4))
      ((Golden.Cpu.boot passing).main 100000) = 0 :=
  cosim_passes false true passing (by decide) (Tb.load passing) (Tb.loaded_load passing) 2 2 200
    100000 (by decide +kernel) (by decide +kernel) (by decide +kernel) (by decide) (by decide)
    (by decide)

end ThreeSippEs
