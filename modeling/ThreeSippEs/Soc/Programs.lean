import ThreeSippEs.Pipeline.Hosted
import ThreeSippEs.Soc.Chip
import ThreeSippEs.Soc.Clint
import ThreeSippEs.Soc.WordMemory

/-!
# Programs on the SoC

The SoC has two memories behind the data port, devices that can interrupt, and a
debugger at the JTAG pins. A program that reads from the memories and keeps its stores
off IMEM notices no more of the rest than the interrupt lines, nor does it notice a
passive debugger. Off the CLINT the lines stay down as well.

- `Mirrored`: the SoC beside the core with two memories and interrupt lines;
- `answered`: the accesses that the SoC answers like these memories, `Polite`: the clocks
  of a program that makes no others;
- `Still`, `served`: the same without interrupts;
- `chip_programs`: what the SoC then shows, from its reset on.
-/

namespace ThreeSippEs.Chip

open Clocked AlignedBlock DebugModule SocParams

variable {P : ChipParams}

/-- What the ports of the core show. -/
def shown (c : Chip P) : List Event :=
  c.core.shown (c.soc.dmemRdata P.toSocParams (c.socIn {}))

/-! ## The memories as bytes -/

/-- What the fetch port reads. -/
def imemBytes (P : SocParams) (s : Soc) : Bytes := .ofMap fun a => s.imem (P.imemIdx a)

/-- What the data port reads from the two memories. -/
def dataBytes (P : SocParams) (s : Soc) : Bytes :=
  .ofMap fun a => if P.inDram a then s.dram (P.dramIdx a) else s.imem (P.imemIdx a)

theorem slice_wordOf (w : Nat) (a : Word) :
    (wordOf a).extractLsb' 2 w = a.extractLsb' 2 w := by
  have hdiv : (wordOf a).toNat / 4 = a.toNat / 4 := by
    rw [wordOf_toNat]
    omega
  apply BitVec.eq_of_toNat_eq
  rw [BitVec.extractLsb'_toNat, BitVec.extractLsb'_toNat, Nat.shiftRight_eq_div_pow,
    Nat.shiftRight_eq_div_pow, show 2 ^ 2 = 4 from rfl, hdiv]

theorem readWord_imemBytes (P : SocParams) (s : Soc) (a : Word) :
    (imemBytes P s).readWord a = s.imem (P.imemIdx a) := by
  unfold imemBytes
  rw [Bytes.readWord_ofMap]
  unfold imemIdx
  rw [slice_wordOf]

theorem readWord_dataBytes (P : SocParams) (s : Soc) (a : Word) :
    (dataBytes P s).readWord a =
      if P.inDram a then s.dram (P.dramIdx a) else s.imem (P.imemIdx a) := by
  have hsame : wordOf (wordOf a) = wordOf a := by
    rw [wordOf_eq_iff, wordOf_toNat]
    omega
  unfold dataBytes
  rw [Bytes.readWord_ofMap, inDram_congr hsame]
  unfold imemIdx dramIdx
  rw [slice_wordOf, slice_wordOf]

section Mirror

variable (c : Chip P) (i : ChipIn) (t : Sys P.core)

/-- The interrupt lines. -/
def lines : ExtIn where
  irq := { timer := c.soc.irqTimer, soft := c.soc.irqSoft }

/-- The SoC `c` beside the core with two memories. -/
structure Mirrored : Prop extends Watched c where
  core : c.core = t.core
  fetched : Mirrors P.imemIdx (fun _ => True) c.soc.imem t.mem.imem
  dram : Mirrors P.dramIdx (fun a => P.inDram a = true) c.soc.dram t.mem.dmem
  imem : Mirrors P.imemIdx (fun a => P.inImem a = true ∧ P.inDram a = false) c.soc.imem t.mem.dmem

/-- What the program promises in a clock: a read is from one of the memories, and a store
goes to DRAM or at least not to IMEM. -/
structure Polite (P : ChipParams) (t : Sys P.core) : Prop where
  read : t.core.w.dmemRe = true ∨ t.core.w.memBeatStall = true →
    P.inDram t.core.w.dmemAddr = true ∨ P.inImem t.core.w.dmemAddr = true
  write : t.core.w.dmemWe = true →
    P.inDram t.core.w.dmemAddr = true ∨ P.inImem t.core.w.dmemAddr = false

/-- And the pins: there is no reset, and the debugger is passive. -/
structure Behaves : Prop extends Polite P t where
  rst : i.rst = false
  passive : (c.dmiWrite i).all harmless = true

/-- With the CLINT as the reset leaves it. -/
structure Still : Prop extends Mirrored c t where
  clint : c.soc.clint = {}

/-- When no store reaches the CLINT and the time has not run out, it stays so. -/
structure Quiet : Prop extends Behaves c i t where
  apart : Clint.selects P.toSocParams
    ⟨t.core.w.dmemAddr, t.core.w.dmemBe, t.core.w.dmemWe, t.core.w.dmemWdata⟩ = false
  early : c.soc.mtime ≠ 0xFFFFFFFFFFFFFFFF#64

end Mirror

/-! ## What a program promises -/

/-- An access to one of the memories, or a store to a device. The latter has one beat: it
is of a word, or leaves the top byte out. -/
def accAnswered (P : SocParams) (acc : Access) : Bool :=
  P.inDram acc.addr ||
    if acc.write then !P.inImem acc.addr && (acc.be == 0b1111#4 || !acc.be.getLsbD 3)
    else P.inImem acc.addr

def answered (P : SocParams) : Event → Bool
  | .bus acc => accAnswered P acc
  | .retire .. => true

/-- Such an event, other than a store to the CLINT. -/
def served (P : SocParams) : Event → Bool
  | .bus acc => accAnswered P acc && !Clint.selects P acc
  | .retire .. => true

theorem answered_of_served {P : SocParams} {es : List Event} (h : es.all (served P) = true) :
    es.all (answered P) = true := by
  refine List.all_eq_true.mpr fun e he => ?_
  have hs := List.all_eq_true.mp h e he
  cases e with
  | bus acc => exact (Bool.and_eq_true .. ▸ hs).1
  | retire pc instr wr => rfl

/-- The first of two beats that does not read writes the top byte, but not the whole
word. -/
theorem first_beat_be {w : WStage} (hf : w.xwValid = true → w.xw.Formed)
    (hb : w.memBeatStall = true) (hre : w.dmemRe = false) :
    w.dmemWe = true ∧ w.dmemBe ≠ 0b1111#4 ∧ w.dmemBe.getLsbD 3 = true := by
  have hv := WStage.xwValid_of_memBeatStall w hb
  have hbeat2 := WStage.beat2_of_memBeatStall w hb
  have hformed := hf hv
  unfold WStage.dmemRe WStage.amoDoLoad at hre
  simp only [Bool.or_eq_false_iff] at hre
  -- the first beat of an AMO reads
  have hamo : w.amoHere = false := by
    by_contra hamo
    rw [Bool.not_eq_false] at hamo
    rw [hamo, Bool.true_and, Bool.or_eq_false_iff] at hre
    have hisAmo : w.xw.isAmo = true := by
      unfold WStage.amoHere at hamo
      exact (Bool.and_eq_true .. ▸ hamo).2
    obtain ⟨hr, hw, -⟩ := hformed.amo hisAmo
    have hmis : w.memMis = false := by
      unfold WStage.memMis XwReg.crosses
      rw [hr, hw]
      simp
    unfold WStage.memBeatStall at hb
    rw [hmis, hre.2.2] at hb
    exact Bool.false_ne_true hb
  have hcross : w.xw.crosses = true := by
    unfold WStage.memBeatStall WStage.memMis WStage.amoRmwB1 at hb
    rw [hamo, hbeat2, hv] at hb
    simpa using hb
  unfold XwReg.crosses at hcross
  have table : ∀ width lo : BitVec 2,
      ((width == 2#2 && lo != 0b00#2) || (width == 1#2 && lo == 0b11#2)) = true →
      ((if width = 0#2 then 0x01#8 else if width = 1#2 then 0x03#8 else 0x0F#8) <<<
        lo.toNat).extractLsb 3 0 ≠ 0b1111#4 ∧
      (((if width = 0#2 then 0x01#8 else if width = 1#2 then 0x03#8 else 0x0F#8) <<<
        lo.toNat).extractLsb 3 0).getLsbD 3 = true := by decide
  constructor
  · rw [hv, Bool.true_and] at hre
    rw [hre.1, Bool.false_or, Bool.and_eq_true] at hcross
    unfold WStage.dmemWe
    rw [hv, hcross.1]
    rfl
  · unfold WStage.dmemBe XwReg.beWin
    rw [hamo, hbeat2, if_neg Bool.false_ne_true, if_neg Bool.false_ne_true]
    exact table _ _ (Bool.and_eq_true .. ▸ hcross).2

section Promise

variable {P : ChipParams} {s₀ : Sys P.core} {es : List Event}

/-- What W holds came from X. -/
theorem formed_run (s₀ : Sys P.core) (ins : Nat → ExtIn) (n : Nat)
    (hv : (harvardRun s₀ {} ins n).core.w.xwValid = true) :
    (harvardRun s₀ {} ins n).core.w.xw.Formed := by
  rw [Sys.run_core] at hv ⊢
  obtain ⟨m, h⟩ := Core.issued _ _ _ n hv
  rw [h.xw]
  exact XIn.xwNext_formed P.core _

/-- A read that is answered. -/
theorem read_of_shown {t : Sys P.core} (h : t.backend.shown.all (answered P.toSocParams) = true)
    (hre : t.core.w.dmemRe = true) :
    P.inDram t.core.w.dmemAddr = true ∨ P.inImem t.core.w.dmemAddr = true := by
  have hacc : answered P.toSocParams (.bus ⟨t.core.w.dmemAddr, t.core.w.dmemBe, false,
      t.backend.rdata⟩) = true := by
    refine List.all_eq_true.mp h _ ?_
    unfold Backend.shown
    show _ ∈ ((if t.core.w.dmemRe then _ else _) ++ _) ++ _
    rw [hre, if_pos rfl]
    exact List.mem_append_left _ (List.mem_append_left _ (List.mem_singleton.mpr rfl))
  unfold answered accAnswered at hacc
  simpa using hacc

/-- A store is shown. -/
theorem write_shown {t : Sys P.core} (hwe : t.core.w.dmemWe = true) :
    .bus ⟨t.core.w.dmemAddr, t.core.w.dmemBe, true, t.core.w.dmemWdata⟩ ∈ t.backend.shown := by
  unfold Backend.shown
  show _ ∈ (_ ++ (if t.core.w.dmemWe then _ else _)) ++ _
  rw [hwe, if_pos rfl]
  exact List.mem_append_left _ (List.mem_append_right _ (List.mem_singleton.mpr rfl))

/-- A store that is answered. -/
theorem write_of_shown {t : Sys P.core} (h : t.backend.shown.all (answered P.toSocParams) = true)
    (hwe : t.core.w.dmemWe = true) :
    P.inDram t.core.w.dmemAddr = true ∨
      P.inImem t.core.w.dmemAddr = false ∧
        (t.core.w.dmemBe = 0b1111#4 ∨ t.core.w.dmemBe.getLsbD 3 = false) := by
  have hacc := List.all_eq_true.mp h _ (write_shown hwe)
  unfold answered accAnswered at hacc
  simpa using hacc

/-- A clock that shows only accesses that are answered. -/
theorem polite_of_shown {t : Sys P.core} (hf : t.core.w.xwValid = true → t.core.w.xw.Formed)
    (h : t.backend.shown.all (answered P.toSocParams) = true) : Polite P t := by
  refine ⟨fun hused => ?_, fun hwe => (write_of_shown h hwe).imp_right fun h => h.1⟩
  rcases hused with hre | hb
  · exact read_of_shown h hre
  · cases hre : t.core.w.dmemRe with
    | true => exact read_of_shown h hre
    | false =>
      -- a first beat that writes
      obtain ⟨hwe, hne, htop⟩ := first_beat_be hf hb hre
      rcases write_of_shown h hwe with hin | ⟨-, hall | hlow⟩
      · exact Or.inl hin
      · exact absurd hall hne
      · rw [htop] at hlow
        cases hlow

/-- A store to a device retires in the clock in which it is shown. -/
theorem retires_of_shown {t : Sys P.core} (hf : t.core.w.xwValid = true → t.core.w.xw.Formed)
    (h : t.backend.shown.all (answered P.toSocParams) = true) (hwe : t.core.w.dmemWe = true)
    (hdram : P.inDram t.core.w.dmemAddr = false) : t.core.w.retireValid = true := by
  obtain ⟨himem, hbe⟩ := (write_of_shown h hwe).resolve_left (Bool.eq_false_iff.mp hdram)
  refine (WStage.retireValid_iff _).mpr ⟨(WStage.dmemWe_cases _ hwe).1, ?_⟩
  by_contra hb
  rw [Bool.not_eq_false] at hb
  have hre : t.core.w.dmemRe = false := by
    by_contra hre
    rw [Bool.not_eq_false] at hre
    rcases read_of_shown h hre with hin | hin
    · exact absurd (hin.symm.trans hdram) (by decide)
    · exact absurd (hin.symm.trans himem) (by decide)
  obtain ⟨-, hne, htop⟩ := first_beat_be hf hb hre
  rcases hbe with hall | hlow
  · exact hne hall
  · exact absurd (htop.symm.trans hlow) (by decide)

/-- **The promise of a program** about its accesses holds in every clock that shows them. -/
theorem all_of_trace {ins : Nat → ExtIn} {p : Event → Bool} {n : Nat}
    (hn : harvardTrace s₀ {} ins n <+: es) (hes : es.all p = true) :
    ∀ j < n, (harvardRun s₀ {} ins j).backend.shown.all p = true := by
  intro j hj
  refine List.all_eq_true.mpr fun e he => ?_
  have hshown : e ∈ harvardTrace s₀ {} ins (j + 1) := List.mem_append_right _ he
  have hle : harvardTrace s₀ {} ins (j + 1) <+: es := (trace_le (Nat.succ_le_of_lt hj)).trans hn
  exact List.all_eq_true.mp hes e (hle.subset hshown)

theorem polite_of_trace {ins : Nat → ExtIn} {n : Nat} (hn : harvardTrace s₀ {} ins n <+: es)
    (hes : es.all (answered P.toSocParams) = true) :
    ∀ j < n, Polite P (harvardRun s₀ {} ins j) :=
  fun j hj => polite_of_shown (formed_run s₀ ins j) (all_of_trace hn hes j hj)

end Promise

/-! ## One clock of the memories -/

section Memories

variable {P : SocParams} {s d : Soc} {i : SocIn}

/-- Beside a read on the System Bus the data write alone decides. -/
theorem step_of_reads (hread : i.dmMemValid = true → i.dmMemWrite = false) :
    (s.step P i).imem = (s.dataWrite P i (s.tick i)).imem ∧
      (s.step P i).dram = (s.dataWrite P i (s.tick i)).dram := by
  have hdm : ∀ d : Soc, (s.dmAccess P i d).imem = d.imem ∧ (s.dmAccess P i d).dram = d.dram := by
    intro d
    unfold Soc.dmAccess
    cases hv : i.dmMemValid with
    | false => exact ⟨rfl, rfl⟩
    | true =>
      rw [if_pos rfl, hread hv, if_neg Bool.false_ne_true]
      exact ⟨rfl, rfl⟩
  exact hdm (s.dataWrite P i (s.tick i))

theorem dataWrite_of_no_write (h : i.dmemWe = false) : s.dataWrite P i d = d := by
  unfold Soc.dataWrite
  rw [h, if_neg Bool.false_ne_true]

/-- One clock in which a store goes to DRAM or at least not to IMEM. -/
theorem clock_memories (hread : i.dmMemValid = true → i.dmMemWrite = false)
    (hwrite : i.dmemWe = true → P.inDram i.dmemAddr = true ∨ P.inImem i.dmemAddr = false) :
    (s.step P i).imem = s.imem ∧
      (s.step P i).dram = if i.dmemWe && P.inDram i.dmemAddr then
        Function.update s.dram (P.dramIdx i.dmemAddr)
          (mergeLanes i.dmemBe i.dmemWdata (s.dram (P.dramIdx i.dmemAddr))) else s.dram := by
  obtain ⟨himem, hdram⟩ := step_of_reads (P := P) (s := s) hread
  obtain ⟨htdram, htimem⟩ := s.tick_memories i
  rw [himem, hdram]
  cases hwe : i.dmemWe with
  | false =>
    rw [dataWrite_of_no_write hwe]
    exact ⟨htimem, htdram⟩
  | true =>
    unfold Soc.dataWrite
    rw [hwe, if_pos rfl, Bool.true_and]
    cases hin : P.inDram i.dmemAddr with
    | true =>
      rw [if_pos rfl, if_pos rfl]
      exact ⟨htimem, congrArg (Function.update · _ _) htdram⟩
    | false =>
      rcases hwrite hwe with hin' | hno
      · rw [hin] at hin'
        cases hin'
      · -- a device or nowhere
        rw [hno, Bool.and_false, if_neg Bool.false_ne_true, if_neg Bool.false_ne_true,
          if_neg Bool.false_ne_true]
        split_ifs <;> exact ⟨htimem, htdram⟩

/-- Nothing but a reset stops the time. -/
theorem step_mtime (hrst : i.rst = false) : (s.step P i).mtime = s.mtime + 1#64 := by
  have hdm : ∀ d : Soc, (s.dmAccess P i d).mtime = d.mtime := by
    intro d
    unfold Soc.dmAccess
    split_ifs <;> rfl
  have hdata : ∀ d : Soc, (s.dataWrite P i d).mtime = d.mtime := by
    intro d
    unfold Soc.dataWrite
    split_ifs <;> rfl
  show (s.dmAccess P i (s.dataWrite P i (s.tick i))).mtime = _
  rw [hdm, hdata]
  unfold Soc.tick
  rw [hrst, if_neg Bool.false_ne_true]

end Memories

section Step

variable {c : Chip P} {i : ChipIn} {t : Sys P.core}

/-- The data port answers with a memory when it matters. -/
theorem Mirrored.rdata (h : Mirrored c t) (hok : Polite P t)
    (hused : t.core.w.dmemRe = true ∨ t.core.w.memBeatStall = true) (j : ChipIn) :
    c.soc.dmemRdata P.toSocParams (c.socIn j) = t.mem.dmem.readWord t.core.w.dmemAddr := by
  have haddr : (c.socIn j).dmemAddr = t.core.w.dmemAddr := by
    rw [← h.core]
    rfl
  unfold Soc.dmemRdata
  rw [haddr]
  cases hdram : P.inDram t.core.w.dmemAddr with
  | true =>
    rw [if_pos rfl]
    exact h.dram _ hdram
  | false =>
    rcases hok.read hused with hin | himem
    · rw [hdram] at hin
      cases hin
    · obtain ⟨hclint, huart, -⟩ := ByteEnables.imem_apart himem
      rw [if_neg Bool.false_ne_true, hclint, if_neg Bool.false_ne_true, huart,
        if_neg Bool.false_ne_true, himem, if_pos rfl]
      exact h.imem _ ⟨himem, hdram⟩

/-- The core. -/
theorem Mirrored.core_step (h : Mirrored c t) (hok : Behaves c i t) :
    (c.step i).core = (t.step never c.lines).core := by
  have hrst : c.coreRst i = false := by
    unfold coreRst ndmreset
    rw [hok.rst, h.passive.ndmreset, Bool.or_false]
  have hext : (c.coreIn i).unaccessed.toExtIn = c.lines := by
    unfold CoreIn.unaccessed coreIn
    dsimp only
    rw [h.passive.dbgHaltreq]
    rfl
  show (if c.coreRst i then _ else c.core.step (c.coreIn i)) = t.core.step (t.coreIn c.lines)
  rw [hrst, if_neg Bool.false_ne_true, ← h.unhalted.step_unaccessed,
    Core.step_of_answers (i := t.coreIn c.lines) hext ?_ fun hused => ?_, h.core]
  · show c.soc.imem (P.imemIdx c.core.imemAddr) = _
    rw [h.core]
    exact h.fetched _ trivial
  · rw [h.core] at hused
    exact h.rdata hok.toPolite hused i

/-- **One clock** of a program that behaves. -/
theorem Mirrored.step (h : Mirrored c t) (hok : Behaves c i t) :
    Mirrored (c.step i) (t.step never c.lines) := by
  have hwrite : (c.socIn i).dmemWe = true → P.inDram (c.socIn i).dmemAddr = true ∨
      P.inImem (c.socIn i).dmemAddr = false := by
    show c.core.w.dmemWe = true → P.inDram c.core.w.dmemAddr = true ∨
      P.inImem c.core.w.dmemAddr = false
    rw [h.core]
    exact hok.write
  obtain ⟨himem, hdram⟩ : (c.step i).soc.imem = c.soc.imem ∧
      (c.step i).soc.dram = (if c.core.w.dmemWe && P.inDram c.core.w.dmemAddr then
        Function.update c.soc.dram (P.dramIdx c.core.w.dmemAddr)
          (mergeLanes c.core.w.dmemBe c.core.w.dmemWdata
            (c.soc.dram (P.dramIdx c.core.w.dmemAddr))) else c.soc.dram) :=
    clock_memories (s := c.soc) h.passive.reads hwrite
  rw [h.core] at hdram
  have hfetched : (t.step never c.lines).mem.imem = t.mem.imem := by
    show (if t.core.w.dmemWe then t.mem.write never _ _ _ else t.mem).imem = _
    split <;> rfl
  have hdata : (t.step never c.lines).mem.dmem = if t.core.w.dmemWe then
      t.mem.dmem.writeWord t.core.w.dmemAddr t.core.w.dmemBe t.core.w.dmemWdata else t.mem.dmem := by
    show (if t.core.w.dmemWe then t.mem.write never _ _ _ else t.mem).dmem = _
    split <;> rfl
  refine ⟨h.toWatched.step hok.passive, h.core_step hok, ?_, ?_, ?_⟩
  · rw [himem, hfetched]
    exact h.fetched
  · rw [hdram, hdata]
    cases hwe : t.core.w.dmemWe with
    | false => exact h.dram
    | true =>
      rw [if_pos rfl, Bool.true_and]
      cases hin : P.inDram t.core.w.dmemAddr with
      | true =>
        rw [if_pos rfl]
        exact h.dram.write hin (fun a ha => dramIdx_inj ha hin) _ _
      | false =>
        -- the word of the store is not in DRAM as a whole
        rw [if_neg Bool.false_ne_true]
        refine h.dram.write_outside (fun a ha hsame => ?_) _ _
        rw [inDram_congr hsame, hin] at ha
        cases ha
  · rw [himem, hdata]
    cases hwe : t.core.w.dmemWe with
    | false => exact h.imem
    | true =>
      rw [if_pos rfl]
      refine h.imem.write_outside (fun a ha hsame => ?_) _ _
      rcases hok.write hwe with hin | hno
      · rw [inDram_congr hsame, hin] at ha
        cases ha.2
      · rw [inImem_congr hsame, hno] at ha
        cases ha.1

/-- What the ports show. -/
theorem Mirrored.shown_eq (h : Mirrored c t) (hok : Polite P t) : c.shown = t.backend.shown := by
  rw [Sys.shown_eq]
  unfold shown
  rw [h.core]
  exact Core.shown_of_answers fun hre => h.rdata hok (Or.inl hre) {}

/-- The SoC is a host of the core. -/
theorem hosts : Hosts (Chip.step (P := P)) shown lines Mirrored Behaves where
  clock _ _ _ h hok := h.step hok
  shown _ _ _ h hok := h.shown_eq hok.toPolite

/-- Without stores to the CLINT no line goes up. -/
theorem Still.lines (h : Still c t) (hok : Quiet c i t) : c.lines = {} := by
  have hlines : c.lines.irq = ({} : Clint).lines c.soc.mtime := by
    rw [← h.clint]
    exact Soc.lines_clint.symm
  rw [Clint.lines_reset hok.early] at hlines
  exact (ExtIn.mk.injEq ..).mpr ⟨hlines, rfl, rfl, rfl, rfl, rfl, rfl, rfl⟩

/-- And the SoC hosts the core without interrupts. -/
theorem still_hosts : Hosts (Chip.step (P := P)) shown (fun _ => {}) Still Quiet where
  clock c i t h hok := by
    refine ⟨h.lines hok ▸ h.toMirrored.step hok.toBehaves, ?_⟩
    have hapart := hok.apart
    rw [← h.core] at hapart
    have hclint : (c.step i).soc.clint = if Clint.selects P.toSocParams
        ⟨c.core.w.dmemAddr, c.core.w.dmemBe, c.core.w.dmemWe, c.core.w.dmemWdata⟩ then
          c.soc.clint.write c.core.w.dmemAddr c.core.w.dmemWdata else c.soc.clint :=
      Soc.step_clint (s := c.soc) (i := c.socIn i) hok.rst
    rw [hclint, hapart, if_neg Bool.false_ne_true]
    exact h.clint
  shown _ _ _ h hok := h.shown_eq hok.toPolite

end Step

/-! ## Out of reset -/

/-- The core with two memories that starts where the SoC does. -/
def image (c : Chip P) : Sys P.core :=
  ⟨c.core, { imem := imemBytes P.toSocParams c.soc, dmem := dataBytes P.toSocParams c.soc }⟩

section Reset

variable {c : Chip P} {i i' : ChipIn} {ins : Nat → ChipIn}

/-- In the first clock of a reset a store may still be under way, even to the CLINT; the
second one finds the core at rest. -/
theorem mirrored_reset (hrst : i.rst = true) (hrst' : i'.rst = true) :
    Still ((c.step i).step i') (((c.step i).step i').image.reset never {}) ∧
      ((c.step i).step i').soc.mtime = 0#64 := by
  have hfirst : (c.step i).core = c.core.reset (c.coreIn i) := by
    show (if i.rst || c.dbg.dm.ndmreset then _ else _) = _
    rw [hrst, Bool.true_or, if_pos rfl]
  have hsecond : ((c.step i).step i').core = (c.step i).core.reset ((c.step i).coreIn i') := by
    show (if i'.rst || (c.step i).dbg.dm.ndmreset then _ else _) = _
    rw [hrst', Bool.true_or, if_pos rfl]
  have hcore : ((c.step i).step i').core = c.core.reset (c.coreIn i) := by
    rw [hsecond, hfirst, Core.reset_reset]
  have hno : ((c.step i).socIn i').dmemWe = false := by
    show (c.step i).core.w.dmemWe = false
    rw [hfirst]
    rfl
  have hdevices : ((c.step i).step i').soc.clint = {} ∧
      ((c.step i).step i').soc.mtime = 0#64 := by
    have hi : ((c.step i).socIn i').rst = true := hrst'
    have hkept : ∀ (s d : Soc) (j : SocIn), (s.dmAccess P.toSocParams j d).clint = d.clint ∧
        (s.dmAccess P.toSocParams j d).mtime = d.mtime := by
      intro s d j
      unfold Soc.dmAccess
      split_ifs <;> exact ⟨rfl, rfl⟩
    obtain ⟨hclint, htime⟩ := hkept (c.step i).soc ((c.step i).soc.dataWrite P.toSocParams
      ((c.step i).socIn i') ((c.step i).soc.tick ((c.step i).socIn i'))) ((c.step i).socIn i')
    refine ⟨hclint.trans ?_, htime.trans ?_⟩
    · rw [dataWrite_of_no_write hno]
      unfold Soc.tick
      rw [hi, if_pos rfl]
      rfl
    · rw [dataWrite_of_no_write hno]
      unfold Soc.tick
      rw [hi, if_pos rfl]
  have hmem : (((c.step i).step i').image.reset never {}).mem =
      { imem := imemBytes P.toSocParams ((c.step i).step i').soc
        dmem := dataBytes P.toSocParams ((c.step i).step i').soc } := by
    have hidle : ((c.step i).step i').core.w.dmemWe = false := by
      rw [hcore]
      rfl
    show (if ((c.step i).step i').core.w.dmemWe then _ else _) = _
    rw [hidle, if_neg Bool.false_ne_true]
    rfl
  refine ⟨⟨⟨Watched.reset hrst', ?_, ?_, ?_, ?_⟩, hdevices.1⟩, hdevices.2⟩
  · show ((c.step i).step i').core = ((c.step i).step i').core.reset _
    rw [hcore, Core.reset_reset]
  · rw [hmem]
    exact fun a _ => (readWord_imemBytes _ _ a).symm
  · rw [hmem]
    intro a ha
    rw [readWord_dataBytes, if_pos ha]
  · rw [hmem]
    intro a ha
    rw [readWord_dataBytes, ha.2, if_neg Bool.false_ne_true]

/-- Behind it the timer counts the clocks. -/
theorem mtime_run (h0 : c.soc.mtime = 0#64) (hrst : ∀ k, (ins k).rst = false) (n : Nat) :
    (run step c ins n).soc.mtime = BitVec.ofNat 64 n := by
  induction n with
  | zero => exact h0
  | succ n ih =>
    rw [run_succ, BitVec.ofNat_add, ← ih]
    exact step_mtime (i := (run step c ins n).socIn (ins n)) (hrst n)

end Reset

/-- **The SoC is the core with two memories**, as long as its clocks are polite. -/
theorem trace_eq {c : Chip P} {i i' : ChipIn} (hrst : i.rst = true) (hrst' : i'.rst = true)
    {ins : Nat → ChipIn} (hrun : ∀ k, (ins k).rst = false) {n : Nat} (hn : n < 2 ^ 64)
    {es : List Event} (hes : es.all (served P.toSocParams) = true)
    (hle : harvardTrace ((c.step i).step i').image {} (fun _ => {}) n <+: es)
    (hpassive : ∀ k < n,
      ((run step ((c.step i).step i') ins k).dmiWrite (ins k)).all harmless = true) :
    (run step ((c.step i).step i') ins n).core =
        (harvardRun ((c.step i).step i').image {} (fun _ => {}) n).core ∧
      trace step (fun c _ => c.shown) ((c.step i).step i') ins n =
        harvardTrace ((c.step i).step i').image {} (fun _ => {}) n := by
  obtain ⟨h0, htime⟩ : Still ((c.step i).step i') (((c.step i).step i').image.reset never {}) ∧
      ((c.step i).step i').soc.mtime = 0#64 := mirrored_reset hrst hrst'
  have hpolite := polite_of_trace hle (answered_of_served hes)
  refine (still_hosts.run h0 ins n fun k hk => ⟨⟨hpolite k hk, hrun k, hpassive k hk⟩, ?_,
    fun hmax => ?_⟩).imp_left fun h => h.core
  · have hshown := all_of_trace hle hes k hk
    by_contra hselect
    rw [Bool.not_eq_false] at hselect
    have hwe : (harvardRun ((c.step i).step i').image {} (fun _ => {}) k).core.w.dmemWe = true := by
      unfold Clint.selects at hselect
      rw [Bool.and_eq_true, Bool.and_eq_true] at hselect
      exact hselect.1.1
    have hacc := List.all_eq_true.mp hshown _ (write_shown hwe)
    unfold served at hacc
    rw [Bool.and_eq_true, Bool.not_eq_true', ← hwe, hselect] at hacc
    exact Bool.false_ne_true hacc.2.symm
  · rw [mtime_run htime hrun k] at hmax
    have hval := congrArg BitVec.toNat hmax
    rw [BitVec.toNat_ofNat, Nat.mod_eq_of_lt (by omega)] at hval
    have hall : (0xFFFFFFFFFFFFFFFF#64).toNat = 2 ^ 64 - 1 := rfl
    omega

/-- **Programs on the SoC.** From any state, behind two clocks of reset: what the SoC
shows is a prefix of the log of the sequential machine on the memories of that moment,
and the log of `k` instructions is shown within `44 * (k + 1)` clocks, for 2^64 clocks
and as long as the SoC serves the accesses of the program and the debugger is passive. -/
theorem chip_programs (P : ChipParams) (c : Chip P) (i i' : ChipIn) (hrst : i.rst = true)
    (hrst' : i'.rst = true) (ins : Nat → ChipIn) (hrun : ∀ k, (ins k).rst = false) :
    (∀ n < 2 ^ 64, Paced P.core (((c.step i).step i').image.reset never {}).archBoot n →
      ((((c.step i).step i').image.reset never {}).archBoot.log P.core n).all
        (served P.toSocParams) = true →
      (∀ k < n, ((run step ((c.step i).step i') ins k).dmiWrite (ins k)).all harmless = true) →
      ∃ k ≤ n, trace step (fun c _ => c.shown) ((c.step i).step i') ins n <+:
        (((c.step i).step i').image.reset never {}).archBoot.log P.core k) ∧
    (∀ k, 44 * (k + 1) < 2 ^ 64 →
      Paced P.core (((c.step i).step i').image.reset never {}).archBoot k →
      ((((c.step i).step i').image.reset never {}).archBoot.log P.core k).all
        (served P.toSocParams) = true →
      (∀ j < 44 * (k + 1),
        ((run step ((c.step i).step i') ins j).dmiWrite (ins j)).all harmless = true) →
      ∃ n ≤ 44 * (k + 1), trace step (fun c _ => c.shown) ((c.step i).step i') ins n =
        (((c.step i).step i').image.reset never {}).archBoot.log P.core k) := by
  constructor
  · intro n hn hprog hserved hpassive
    obtain ⟨hle, hshown⟩ := @Paced.shows_le _ _ {} (fun _ => {}) (fun _ => rfl)
      (fun _ => rfl) n hprog
    refine ⟨_, hle, ?_⟩
    rw [(trace_eq hrst hrst' hrun hn hserved (hshown.trans (Arch.log_le hle)) hpassive).2]
    exact hshown
  · intro k hk hprog hserved hpassive
    obtain ⟨n, hn, hlog⟩ := @Paced.shows_log _ _ {} (fun _ => {}) k hprog (fun _ => rfl)
      (fun _ => rfl)
    have hshown : harvardTrace ((c.step i).step i').image {} (fun _ => {}) n <+:
        (((c.step i).step i').image.reset never {}).archBoot.log P.core k := by
      rw [hlog]
    exact ⟨n, hn, (trace_eq hrst hrst' hrun (Nat.lt_of_le_of_lt hn hk) hserved hshown
      fun j hj => hpassive j (Nat.lt_of_lt_of_le hj hn)).2.trans hlog⟩

/-! ## A program -/

/-- The jump to itself that fills IMEM. -/
def jumps : Arch :=
  (((spins.step { rst := true }).step { rst := true }).image.reset never {}).archBoot

/-- Beside it TCK runs, and the write of `sbcs` is taken. -/
theorem chip_programs_jumps :
    ∃ k ≤ 6, trace step (fun c _ => c.shown) ((spins.step { rst := true }).step { rst := true })
      (fun k => clocked false (k + 1)) 6 <+: jumps.log {} k :=
  (chip_programs .source spins { rst := true } { rst := true } rfl rfl
    (fun k => clocked false (k + 1)) (fun _ => rfl)).1 6 (by decide) (by decide +kernel)
    (by decide +kernel) (by decide +kernel)

end ThreeSippEs.Chip
