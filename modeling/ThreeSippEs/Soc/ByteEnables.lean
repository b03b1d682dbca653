import ThreeSippEs.Lib.Clocked
import ThreeSippEs.Security.DataIsolation
import ThreeSippEs.Soc.Soc

/-!
# Byte enables of the SoC

The memories merge the enabled lanes of a write into the word they hold. The CLINT
takes the whole word and the UART takes the lowest byte, whatever is enabled. The
core drives zeros on the lanes that it does not enable, so that a device is
disturbed unless it holds zeros there.

- `Honoured`: what the byte enables of a write mean for every target;
- `Covered`: the write disables nothing that a device takes and does not hold;
- `byte_enables_iff`: the one is the other, for every write of the core.
-/

namespace ThreeSippEs.ByteEnables

open Clocked AlignedBlock

/-- The port of the core carries the write of the instruction in W. -/
structure Presents (i : SocIn) (w : WStage) : Prop where
  we : i.dmemWe = true
  dmemWe : w.dmemWe = true
  addr : i.dmemAddr = w.dmemAddr
  be : i.dmemBe = w.dmemBe
  wdata : i.dmemWdata = w.dmemWdata

def msipAddr : Word := 0x02000000#32

/-- The word of `mtimecmp` that byte `k` is in. -/
def mtimecmpAddr (k : Nat) : Word := if k < 4 then 0x02004000#32 else 0x02004004#32

/-- Byte `k` of `mtimecmp`. -/
def mtimecmpByte (v : BitVec 64) (k : Nat) : BitVec 8 := v.extractLsb' (8 * k) 8

variable (P : SocParams)

/-- The Debug Module writes word `n` of DRAM. -/
def dmWritesDram (i : SocIn) (n : Nat) : Bool :=
  i.dmMemValid && i.dmMemWrite && P.inDram i.dmMemAddr && P.dramIdx i.dmMemAddr == n

/-- The Debug Module writes word `n` of IMEM. -/
def dmWritesImem (i : SocIn) (n : Nat) : Bool :=
  i.dmMemValid && i.dmMemWrite && !P.inDram i.dmMemAddr && P.inImem i.dmMemAddr &&
    P.imemIdx i.dmMemAddr == n

/-- The word of `a` can be stored to and loaded again. -/
def Storage (a : Word) : Prop :=
  P.inDram a = true ∨ a = mtimecmpAddr 0 ∨ a = mtimecmpAddr 4 ∨
    (P.imemDataWrite = true ∧ P.inImem a = true)

/-- The Debug Module leaves the word of `a` alone. -/
def DmApart (a : Word) (i : SocIn) : Prop :=
  i.dmMemValid = true → i.dmMemWrite = true → wordOf i.dmMemAddr ≠ wordOf a

/-- Nothing is written to the word of `a`. -/
structure Apart (a : Word) (i : SocIn) : Prop where
  rst : i.rst = false
  core : i.dmemWe = true → wordOf i.dmemAddr ≠ wordOf a
  dm : DmApart a i

/-- What the byte enables of the write in `i` mean. -/
structure Honoured (s : Soc) (i : SocIn) : Prop where
  dram : ∀ n, ∀ k < 4, dmWritesDram P i n = false →
    (P.inDram i.dmemAddr = true → P.dramIdx i.dmemAddr = n → i.dmemBe.getLsbD k = false) →
    lane ((s.step P i).dram n) k = lane (s.dram n) k
  imem : ∀ n, ∀ k < 4, dmWritesImem P i n = false →
    (P.imemDataWrite = true → P.inImem i.dmemAddr = true → P.imemIdx i.dmemAddr = n →
      i.dmemBe.getLsbD k = false) →
    lane ((s.step P i).imem n) k = lane (s.imem n) k
  mtimecmp : ∀ k < 8, (i.dmemAddr = mtimecmpAddr k → i.dmemBe.getLsbD (k % 4) = false) →
    mtimecmpByte (s.step P i).mtimecmp k = mtimecmpByte s.mtimecmp k
  msip : (i.dmemAddr = msipAddr → i.dmemBe.getLsbD 0 = false) → (s.step P i).msip = s.msip
  transmit : s.uart.tx.txLoad (Soc.uartBus P i) = true → i.dmemBe.getLsbD 0 = true
  divisor : (s.step P i).uart.baudDiv ≠ s.uart.baudDiv → i.dmemBe.getLsbD 0 = true
  /-- a later load returns the stored byte -/
  load : Storage P i.dmemAddr → DmApart i.dmemAddr i →
    ∀ k < 4, i.dmemBe.getLsbD k = true → ∀ (ins : Nat → SocIn) (n : Nat),
      (∀ j < n, Apart i.dmemAddr (ins j)) → ∀ r : SocIn, r.dmemAddr = i.dmemAddr →
        lane ((run (Soc.step P) (s.step P i) ins n).dmemRdata P r) k = lane i.dmemWdata k

/-- Where a device takes a lane that is not enabled, it holds zeros already, or is
busy. -/
structure Covered (s : Soc) (i : SocIn) : Prop where
  mtimecmp : ∀ k < 8, P.inDram i.dmemAddr = false → i.dmemAddr = mtimecmpAddr k →
    i.dmemBe.getLsbD (k % 4) = false → mtimecmpByte s.mtimecmp k = 0#8
  msip : P.inDram i.dmemAddr = false → i.dmemAddr = msipAddr → i.dmemBe.getLsbD 0 = false →
    s.msip = false
  transmit : P.inUart i.dmemAddr = true → (Soc.uartBus P i).reg = 0b00#2 →
    i.dmemBe.getLsbD 0 = false → s.uart.tx.txBusyQ = true
  divisor : P.inUart i.dmemAddr = true → (Soc.uartBus P i).reg = 0b10#2 →
    i.dmemBe.getLsbD 0 = false → s.uart.baudDiv = 0#16

/-! ## The data port of the core -/

/-- The lanes of the store window that are not enabled are zero. -/
theorem stWin_disabled (r : XwReg) {k : Nat} (hk : k < 8) (h : r.beWin.getLsbD k = false) :
    r.stWin.extractLsb' (8 * k) 8 = 0#8 := by
  have hlo := r.addrLo.isLt
  have hout : ¬ (r.addrLo.toNat ≤ k ∧ k < r.addrLo.toNat + DataIsolation.accessSize r.memWidth) := by
    rw [← DataIsolation.beWin_iff r hk, h]
    exact Bool.false_ne_true
  have hraw : ∀ j, 8 * DataIsolation.accessSize r.memWidth ≤ j → r.stRaw.getLsbD j = false := by
    intro j hj
    unfold XwReg.stRaw
    unfold DataIsolation.accessSize at hj
    split_ifs at hj ⊢
    · rw [BitVec.getLsbD_setWidth, BitVec.getLsbD_of_ge _ _ (by omega), Bool.and_false]
    · rw [BitVec.getLsbD_setWidth, BitVec.getLsbD_of_ge _ _ (by omega), Bool.and_false]
    · exact BitVec.getLsbD_of_ge _ _ (by omega)
  refine BitVec.eq_of_getLsbD_eq fun j hj => ?_
  unfold XwReg.stWin XwReg.bitOff
  rw [BitVec.getLsbD_extractLsb', BitVec.getLsbD_shiftLeft, BitVec.getLsbD_setWidth]
  by_cases hlt : 8 * k + j < 8 * r.addrLo.toNat
  · simp [hlt]
  · rw [hraw _ (by omega)]
    simp

/-- The core drives zeros on the lanes that it does not enable. -/
theorem wdata_disabled (w : WStage) {k : Nat} (hk : k < 4) (h : w.dmemBe.getLsbD k = false) :
    lane w.dmemWdata k = 0#8 := by
  have hbyte : ∀ {hi lo : Nat}, lo + k ≤ hi → hi < 8 →
      (w.xw.beWin.extractLsb hi lo).getLsbD k = false →
      w.xw.stWin.extractLsb' (8 * (lo + k)) 8 = 0#8 := by
    intro hi lo hle hlt hbe
    refine stWin_disabled w.xw (by omega) ?_
    rw [← hbe, BitVec.getLsbD_extractLsb, decide_eq_true (by omega), Bool.true_and]
  unfold WStage.dmemBe at h
  cases hamo : w.amoHere with
  | true =>
    -- an AMO enables every lane
    rw [hamo, if_pos rfl] at h
    interval_cases k <;> exact absurd h (by decide)
  | false =>
    have hrmw : w.amoRmwB2 = false := by
      unfold WStage.amoRmwB2
      rw [hamo, Bool.false_and, Bool.false_and]
    rw [hamo, if_neg Bool.false_ne_true] at h
    unfold WStage.dmemWdata lane
    rw [hrmw, hamo, if_neg Bool.false_ne_true, Bool.false_and, if_neg Bool.false_ne_true]
    cases hb : w.beat2 with
    | true =>
      rw [hb, if_pos rfl] at h
      rw [if_pos rfl, LittleEndian.byte_part _ (by omega)]
      have hwin := hbyte (by omega) (by omega) h
      rwa [Nat.mul_add] at hwin
    | false =>
      rw [hb, if_neg Bool.false_ne_true] at h
      rw [if_neg Bool.false_ne_true, LittleEndian.byte_part _ (by omega)]
      have hwin := hbyte (by omega) (by omega) h
      rwa [Nat.mul_add] at hwin

/-! ## One clock -/

variable {P} {s d : Soc} {i : SocIn} {a : Word}

/-- The CLINT compares the low half of the address. -/
theorem clint_addr {r : BitVec 16} (hin : SocParams.inClint a = true)
    (h : a.extractLsb 15 0 = r) : a = 0x0200#16 ++ r := by
  unfold SocParams.inClint at hin
  rw [beq_iff_eq] at hin
  rw [← hin, ← h]
  refine BitVec.eq_of_getLsbD_eq fun j hj => ?_
  rw [BitVec.getLsbD_append, BitVec.getLsbD_extractLsb, BitVec.getLsbD_extractLsb]
  grind

/-- A property of what the data write leaves is checked target by target. -/
theorem dataWrite_arms {p : Soc → Prop} (P : SocParams) (s d : Soc) (i : SocIn) (hnone : p d)
    (hdram : i.dmemWe = true → P.inDram i.dmemAddr = true →
      p { d with
        dram := Function.update d.dram (P.dramIdx i.dmemAddr)
          (mergeLanes i.dmemBe i.dmemWdata (s.dram (P.dramIdx i.dmemAddr))) })
    (hmsip : i.dmemWe = true → P.inDram i.dmemAddr = false → i.dmemAddr = msipAddr →
      p { d with msip := i.dmemWdata.getLsbD 0 })
    (hlo : i.dmemWe = true → P.inDram i.dmemAddr = false → i.dmemAddr = mtimecmpAddr 0 →
      p { d with mtimecmp := d.mtimecmp.extractLsb 63 32 ++ i.dmemWdata })
    (hhi : i.dmemWe = true → P.inDram i.dmemAddr = false → i.dmemAddr = mtimecmpAddr 4 →
      p { d with mtimecmp := i.dmemWdata ++ d.mtimecmp.extractLsb 31 0 })
    (htohost : p { d with tohostR := i.dmemWdata, tohostWeR := true })
    (himem : i.dmemWe = true → P.imemDataWrite = true → P.inImem i.dmemAddr = true →
      p { d with
        imem := Function.update d.imem (P.imemIdx i.dmemAddr)
          (mergeLanes i.dmemBe i.dmemWdata (s.imem (P.imemIdx i.dmemAddr))) }) :
    p (s.dataWrite P i d) := by
  unfold Soc.dataWrite
  split_ifs with hwe hin hc h0 h1 h2 ht him
  · exact hdram hwe hin
  · exact hmsip hwe (Bool.eq_false_of_not_eq_true hin) (clint_addr hc h0)
  · exact hlo hwe (Bool.eq_false_of_not_eq_true hin) (clint_addr hc h1)
  · exact hhi hwe (Bool.eq_false_of_not_eq_true hin) (clint_addr hc h2)
  · exact hnone
  · exact htohost
  · rw [Bool.and_eq_true] at him
    exact himem hwe him.1 him.2
  · exact hnone
  · exact hnone

/-- The Debug Module writes whole words of the memories. -/
theorem dmAccess_keeps (n : Nat) :
    (dmWritesDram P i n = false → (s.dmAccess P i d).dram n = d.dram n) ∧
    (dmWritesImem P i n = false → (s.dmAccess P i d).imem n = d.imem n) ∧
    (s.dmAccess P i d).mtimecmp = d.mtimecmp ∧ (s.dmAccess P i d).msip = d.msip := by
  unfold Soc.dmAccess dmWritesDram dmWritesImem
  split_ifs with hv hw hin him
  · refine ⟨fun h => Function.update_of_ne ?_ _ _, fun _ => rfl, rfl, rfl⟩
    rintro rfl
    simp [hv, hw, hin] at h
  · refine ⟨fun _ => rfl, fun h => Function.update_of_ne ?_ _ _, rfl, rfl⟩
    rintro rfl
    simp [hv, hw, hin, him] at h
  all_goals exact ⟨fun _ => rfl, fun _ => rfl, rfl, rfl⟩

/-! ## Memories -/

/-- A lane of the merged word that is not enabled is the old one. -/
theorem lane_update {f : Nat → Word} {m n k : Nat} {be : BitVec 4} {v : Word} (hk : k < 4)
    (h : m = n → be.getLsbD k = false) :
    lane (Function.update f m (mergeLanes be v (f m)) n) k = lane (f n) k := by
  by_cases hmn : m = n
  · subst hmn
    rw [Function.update_self, lane_mergeLanes _ _ _ hk, h rfl, if_neg Bool.false_ne_true]
  · rw [Function.update_of_ne (Ne.symm hmn)]

/-- DRAM honours the byte enables. -/
theorem dram_lane {n k : Nat} (hk : k < 4) (hdm : dmWritesDram P i n = false)
    (h : i.dmemWe = true → P.inDram i.dmemAddr = true → P.dramIdx i.dmemAddr = n →
      i.dmemBe.getLsbD k = false) :
    lane ((s.step P i).dram n) k = lane (s.dram n) k := by
  have htick : (s.tick i).dram = s.dram := (Soc.tick_memories s i).1
  show lane ((s.dmAccess P i _).dram n) k = _
  rw [(dmAccess_keeps n).1 hdm]
  refine dataWrite_arms (p := fun d' => lane (d'.dram n) k = lane (s.dram n) k) P s (s.tick i) i
    (by rw [htick]) (fun hwe hin => ?_) ?_ ?_ ?_ ?_ ?_
  · dsimp only
    rw [htick]
    exact lane_update hk (h hwe hin)
  all_goals
    intros
    dsimp only
    rw [htick]

/-- IMEM does, too. -/
theorem imem_lane {n k : Nat} (hk : k < 4) (hdm : dmWritesImem P i n = false)
    (h : i.dmemWe = true → P.imemDataWrite = true → P.inImem i.dmemAddr = true →
      P.imemIdx i.dmemAddr = n → i.dmemBe.getLsbD k = false) :
    lane ((s.step P i).imem n) k = lane (s.imem n) k := by
  have htick : (s.tick i).imem = s.imem := (Soc.tick_memories s i).2
  show lane ((s.dmAccess P i _).imem n) k = _
  rw [(dmAccess_keeps n).2.1 hdm]
  refine dataWrite_arms (p := fun d' => lane (d'.imem n) k = lane (s.imem n) k) P s (s.tick i) i
    (by rw [htick]) ?_ ?_ ?_ ?_ ?_ fun hwe hwr hin => ?_
  case refine_6 =>
    dsimp only
    rw [htick]
    exact lane_update hk (h hwe hwr hin)
  all_goals
    intros
    dsimp only
    rw [htick]

/-! ## CLINT -/

/-- The bytes after a write of the low word. -/
theorem mtimecmpByte_lo (v : BitVec 64) (w : Word) {k : Nat} (hk : k < 8) :
    mtimecmpByte (v.extractLsb 63 32 ++ w) k = if k < 4 then lane w k else mtimecmpByte v k := by
  unfold mtimecmpByte lane
  split_ifs with h4
  · refine BitVec.eq_of_getLsbD_eq fun j hj => ?_
    rw [BitVec.getLsbD_extractLsb', BitVec.getLsbD_extractLsb', BitVec.getLsbD_append,
      if_pos (by omega)]
  · refine BitVec.eq_of_getLsbD_eq fun j hj => ?_
    rw [BitVec.getLsbD_extractLsb', BitVec.getLsbD_extractLsb', BitVec.getLsbD_append,
      if_neg (by omega), BitVec.getLsbD_extractLsb]
    grind

/-- The bytes after a write of the high word. -/
theorem mtimecmpByte_hi (v : BitVec 64) (w : Word) {k : Nat} (hk : k < 8) :
    mtimecmpByte (w ++ v.extractLsb 31 0) k =
      if k < 4 then mtimecmpByte v k else lane w (k % 4) := by
  unfold mtimecmpByte lane
  split_ifs with h4
  · refine BitVec.eq_of_getLsbD_eq fun j hj => ?_
    rw [BitVec.getLsbD_extractLsb', BitVec.getLsbD_extractLsb', BitVec.getLsbD_append,
      if_pos (by omega), BitVec.getLsbD_extractLsb]
    grind
  · refine BitVec.eq_of_getLsbD_eq fun j hj => ?_
    rw [BitVec.getLsbD_extractLsb', BitVec.getLsbD_extractLsb', BitVec.getLsbD_append,
      if_neg (by omega)]
    grind

/-- A write that reaches the CLINT. -/
theorem dataWrite_clint (hwe : i.dmemWe = true) (hin : P.inDram i.dmemAddr = false)
    (hc : SocParams.inClint i.dmemAddr = true) :
    s.dataWrite P i d =
      if i.dmemAddr.extractLsb 15 0 = 0x0000#16 then { d with msip := i.dmemWdata.getLsbD 0 }
      else if i.dmemAddr.extractLsb 15 0 = 0x4000#16 then
        { d with mtimecmp := d.mtimecmp.extractLsb 63 32 ++ i.dmemWdata }
      else if i.dmemAddr.extractLsb 15 0 = 0x4004#16 then
        { d with mtimecmp := i.dmemWdata ++ d.mtimecmp.extractLsb 31 0 }
      else d := by
  unfold Soc.dataWrite
  rw [if_pos hwe, hin, if_neg Bool.false_ne_true, if_pos hc]

theorem step_mtimecmp : (s.step P i).mtimecmp = (s.dataWrite P i (s.tick i)).mtimecmp :=
  (dmAccess_keeps 0).2.2.1

theorem step_msip : (s.step P i).msip = (s.dataWrite P i (s.tick i)).msip :=
  (dmAccess_keeps 0).2.2.2

/-- The reset apart, time leaves `mtimecmp` and `msip`. -/
theorem tick_clint (hrst : i.rst = false) :
    (s.tick i).mtimecmp = s.mtimecmp ∧ (s.tick i).msip = s.msip := by
  unfold Soc.tick
  rw [hrst]
  exact ⟨rfl, rfl⟩

/-- A write to a word of `mtimecmp` replaces all its bytes. -/
theorem mtimecmp_stored (hwe : i.dmemWe = true) (hin : P.inDram i.dmemAddr = false) {k : Nat}
    (hk : k < 8) (haddr : i.dmemAddr = mtimecmpAddr k) :
    mtimecmpByte (s.step P i).mtimecmp k = lane i.dmemWdata (k % 4) := by
  rw [step_mtimecmp]
  by_cases h4 : k < 4
  · have haddr' : i.dmemAddr = 0x02004000#32 := by rw [haddr, mtimecmpAddr, if_pos h4]
    rw [dataWrite_clint hwe hin (by rw [haddr']; rfl), haddr', if_neg (by decide),
      if_pos (by decide)]
    dsimp only
    rw [mtimecmpByte_lo _ _ hk, if_pos h4, Nat.mod_eq_of_lt h4]
  · have haddr' : i.dmemAddr = 0x02004004#32 := by rw [haddr, mtimecmpAddr, if_neg h4]
    rw [dataWrite_clint hwe hin (by rw [haddr']; rfl), haddr', if_neg (by decide),
      if_neg (by decide), if_pos (by decide)]
    dsimp only
    rw [mtimecmpByte_hi _ _ hk, if_neg h4]

/-- No other write changes them. -/
theorem mtimecmp_kept (hrst : i.rst = false) {k : Nat} (hk : k < 8)
    (h : i.dmemWe = true → P.inDram i.dmemAddr = false → i.dmemAddr ≠ mtimecmpAddr k) :
    mtimecmpByte (s.step P i).mtimecmp k = mtimecmpByte s.mtimecmp k := by
  have htick := (tick_clint (s := s) hrst).1
  rw [step_mtimecmp]
  refine dataWrite_arms (p := fun d' => mtimecmpByte d'.mtimecmp k = mtimecmpByte s.mtimecmp k)
    P s (s.tick i) i (by rw [htick]) ?_ ?_ (fun hwe hin haddr => ?_) (fun hwe hin haddr => ?_) ?_ ?_
  case refine_3 =>
    have h4 : ¬ k < 4 := by
      intro h4
      refine h hwe hin (haddr.trans ?_)
      unfold mtimecmpAddr
      rw [if_pos h4, if_pos (by omega)]
    dsimp only
    rw [mtimecmpByte_lo _ _ hk, if_neg h4, htick]
  case refine_4 =>
    have h4 : k < 4 := by
      by_contra h4
      refine h hwe hin (haddr.trans ?_)
      unfold mtimecmpAddr
      rw [if_neg h4, if_neg (by omega)]
    dsimp only
    rw [mtimecmpByte_hi _ _ hk, if_pos h4, htick]
  all_goals
    intros
    dsimp only
    rw [htick]

/-- A write to `msip` replaces it. -/
theorem msip_stored (hwe : i.dmemWe = true) (hin : P.inDram i.dmemAddr = false)
    (haddr : i.dmemAddr = msipAddr) : (s.step P i).msip = i.dmemWdata.getLsbD 0 := by
  rw [step_msip, dataWrite_clint hwe hin (by rw [haddr]; rfl), haddr, if_pos (by decide)]

theorem msip_kept (hrst : i.rst = false)
    (h : i.dmemWe = true → P.inDram i.dmemAddr = false → i.dmemAddr ≠ msipAddr) :
    (s.step P i).msip = s.msip := by
  have htick := (tick_clint (s := s) hrst).2
  rw [step_msip]
  refine dataWrite_arms (p := fun d' => d'.msip = s.msip) P s (s.tick i) i htick ?_
    (fun hwe hin haddr => absurd haddr (h hwe hin)) ?_ ?_ ?_ ?_
  all_goals
    intros
    exact htick

/-! ## Loads -/

/-- The word that is stored for `a`. -/
def held (P : SocParams) (s : Soc) (a : Word) : Word :=
  if P.inDram a then s.dram (P.dramIdx a)
  else if a = mtimecmpAddr 0 then s.mtimecmp.extractLsb 31 0
  else if a = mtimecmpAddr 4 then s.mtimecmp.extractLsb 63 32
  else s.imem (P.imemIdx a)

/-- IMEM ends below the devices. -/
theorem imem_apart (h : P.inImem a = true) :
    SocParams.inClint a = false ∧ P.inUart a = false ∧ a ≠ P.tohostAddr := by
  have hlt := SocParams.inImem_iff.mp h
  have hclint := P.imemBelowClint
  have huart := P.imemBelowUart
  have htohost := P.imemBelowTohost
  refine ⟨?_, ?_, ?_⟩
  · unfold SocParams.inClint
    rw [beq_eq_false_iff_ne]
    intro heq
    have hpage := congrArg BitVec.toNat heq
    simp only [BitVec.extractLsb, BitVec.extractLsb'_toNat, Nat.shiftRight_eq_div_pow] at hpage
    simp at hpage
    omega
  · unfold SocParams.inUart
    rw [beq_eq_false_iff_ne]
    intro heq
    have hpage := congrArg BitVec.toNat heq
    simp only [BitVec.extractLsb, BitVec.extractLsb'_toNat, Nat.shiftRight_eq_div_pow] at hpage
    simp at hpage
    omega
  · rintro rfl
    omega

/-- A load reads what is stored. -/
theorem dmemRdata_eq {r : SocIn} (h : Storage P r.dmemAddr) :
    s.dmemRdata P r = held P s r.dmemAddr := by
  unfold Soc.dmemRdata held
  cases hin : P.inDram r.dmemAddr with
  | true => rfl
  | false =>
    rw [if_neg Bool.false_ne_true, if_neg Bool.false_ne_true]
    rcases h with h | h | h | ⟨-, h⟩
    · rw [hin] at h
      cases h
    · rw [h]
      rfl
    · rw [h]
      rfl
    · obtain ⟨hclint, huart, -⟩ := imem_apart h
      have hne : ∀ k, r.dmemAddr ≠ mtimecmpAddr k := by
        rintro k heq
        rw [heq] at hclint
        unfold mtimecmpAddr at hclint
        split at hclint <;> cases hclint
      rw [hclint, huart, h, if_neg (hne 0), if_neg (hne 4)]
      rfl

/-- A word from its lanes. -/
theorem word_ext {v w : Word} (h : ∀ k < 4, lane v k = lane w k) : v = w := by
  refine BitVec.eq_of_getLsbD_eq fun j hj => ?_
  have hbit := congrArg (fun b => BitVec.getLsbD b (j % 8)) (h (j / 8) (by omega))
  simp only [lane] at hbit
  rw [BitVec.getLsbD_extractLsb', BitVec.getLsbD_extractLsb', decide_eq_true (by omega),
    Bool.true_and, Bool.true_and, Nat.div_add_mod] at hbit
  exact hbit

theorem lane_mtimecmp (v : BitVec 64) {k : Nat} (hk : k < 4) :
    lane (v.extractLsb 31 0) k = mtimecmpByte v k ∧
      lane (v.extractLsb 63 32) k = mtimecmpByte v (4 + k) := by
  unfold lane mtimecmpByte
  rw [LittleEndian.byte_part _ (by omega), LittleEndian.byte_part _ (by omega)]
  refine ⟨by rw [Nat.zero_add], by rw [Nat.mul_add]⟩

/-- The Debug Module does not write the word of `a`. -/
theorem dmApart_memories (h : DmApart a i) :
    (P.inDram a = true → dmWritesDram P i (P.dramIdx a) = false) ∧
      (P.inImem a = true → dmWritesImem P i (P.imemIdx a) = false) := by
  unfold dmWritesDram dmWritesImem
  refine ⟨fun hin => ?_, fun hin => ?_⟩
  · by_contra hw
    simp only [Bool.not_eq_false, Bool.and_eq_true, beq_iff_eq] at hw
    exact h hw.1.1.1 hw.1.1.2 ((SocParams.dramIdx_inj hw.1.2 hin).mp hw.2)
  · by_contra hw
    simp only [Bool.not_eq_false, Bool.and_eq_true, beq_iff_eq] at hw
    exact h hw.1.1.1.1 hw.1.1.1.2 ((SocParams.imemIdx_inj hw.1.2 hin).mp hw.2)

/-- What is stored stays while nothing is written to the word. -/
theorem held_step (hs : Storage P a) (h : Apart a i) : held P (s.step P i) a = held P s a := by
  obtain ⟨hdram, himem⟩ := dmApart_memories (P := P) h.dm
  have hother : ∀ k, a = mtimecmpAddr k → i.dmemWe = true → P.inDram i.dmemAddr = false →
      i.dmemAddr ≠ mtimecmpAddr k := by
    intro k hk hwe _ heq
    exact h.core hwe (by rw [heq, hk])
  unfold held
  split_ifs with hin hlo hhi
  · exact word_ext fun k hk => dram_lane hk (hdram hin) fun hwe hin' hidx =>
      absurd ((SocParams.dramIdx_inj hin' hin).mp hidx) (h.core hwe)
  · refine word_ext fun k hk => ?_
    rw [(lane_mtimecmp _ hk).1, (lane_mtimecmp _ hk).1]
    refine mtimecmp_kept h.rst (by omega) ?_
    have haddr : mtimecmpAddr k = mtimecmpAddr 0 := if_pos hk
    rw [haddr]
    exact hother 0 hlo
  · refine word_ext fun k hk => ?_
    rw [(lane_mtimecmp _ hk).2, (lane_mtimecmp _ hk).2]
    refine mtimecmp_kept h.rst (by omega) ?_
    have haddr : mtimecmpAddr (4 + k) = mtimecmpAddr 4 := if_neg (by omega)
    rw [haddr]
    exact hother 4 hhi
  · have him : P.inImem a = true := by
      rcases hs with hs | hs | hs | hs
      · exact absurd hs hin
      · exact absurd hs hlo
      · exact absurd hs hhi
      · exact hs.2
    exact word_ext fun k hk => imem_lane hk (himem him) fun hwe _ him' hidx =>
      absurd ((SocParams.imemIdx_inj him' him).mp hidx) (h.core hwe)

/-- A write stores its enabled lanes. -/
theorem held_stored (hs : Storage P i.dmemAddr) (hdm : DmApart i.dmemAddr i)
    (hwe : i.dmemWe = true) {k : Nat} (hk : k < 4) (hbe : i.dmemBe.getLsbD k = true) :
    lane (held P (s.step P i) i.dmemAddr) k = lane i.dmemWdata k := by
  obtain ⟨hdram, himem⟩ := dmApart_memories (P := P) hdm
  unfold held
  split_ifs with hin hlo hhi
  · show lane ((s.dmAccess P i _).dram _) k = _
    rw [(dmAccess_keeps _).1 (hdram hin)]
    unfold Soc.dataWrite
    rw [if_pos hwe, if_pos hin]
    dsimp only
    rw [Function.update_self, lane_mergeLanes _ _ _ hk, if_pos hbe]
  · have haddr : mtimecmpAddr 0 = mtimecmpAddr k := (if_pos hk).symm
    rw [(lane_mtimecmp _ hk).1, mtimecmp_stored hwe (Bool.eq_false_of_not_eq_true hin) (by omega)
      (hlo.trans haddr), Nat.mod_eq_of_lt hk]
  · have haddr : mtimecmpAddr 4 = mtimecmpAddr (4 + k) := (if_neg (by omega)).symm
    rw [(lane_mtimecmp _ hk).2, mtimecmp_stored hwe (Bool.eq_false_of_not_eq_true hin) (by omega)
      (hhi.trans haddr), Nat.add_mod_left, Nat.mod_eq_of_lt hk]
  · have him : P.imemDataWrite = true ∧ P.inImem i.dmemAddr = true := by
      rcases hs with hs | hs | hs | hs
      · exact absurd hs hin
      · exact absurd hs hlo
      · exact absurd hs hhi
      · exact hs
    obtain ⟨hclint, -, htohost⟩ := imem_apart him.2
    show lane ((s.dmAccess P i _).imem _) k = _
    rw [(dmAccess_keeps _).2.1 (himem him.2)]
    unfold Soc.dataWrite
    rw [if_pos hwe, if_neg hin, hclint, if_neg Bool.false_ne_true, if_neg htohost, him.1, him.2,
      Bool.true_and, if_pos rfl]
    dsimp only
    rw [Function.update_self, lane_mergeLanes _ _ _ hk, if_pos hbe]

/-- A later load returns what was stored. -/
theorem load_stored (hs : Storage P i.dmemAddr) (hdm : DmApart i.dmemAddr i)
    (hwe : i.dmemWe = true) {k : Nat} (hk : k < 4) (hbe : i.dmemBe.getLsbD k = true)
    (ins : Nat → SocIn) (n : Nat) (hno : ∀ j < n, Apart i.dmemAddr (ins j)) (r : SocIn)
    (hr : r.dmemAddr = i.dmemAddr) :
    lane ((run (Soc.step P) (s.step P i) ins n).dmemRdata P r) k = lane i.dmemWdata k := by
  have hkept : ∀ (t : Soc) (j : SocIn),
      held P t i.dmemAddr = held P (s.step P i) i.dmemAddr → Apart i.dmemAddr j →
        held P (t.step P j) i.dmemAddr = held P (s.step P i) i.dmemAddr := by
    intro t j ht hj
    rw [held_step hs hj, ht]
  have hrun : held P (run (Soc.step P) (s.step P i) ins n) i.dmemAddr =
      held P (s.step P i) i.dmemAddr :=
    @run_invariant _ _ _ _ _ (fun t => held P t i.dmemAddr = held P (s.step P i) i.dmemAddr)
      (fun _ j => Apart i.dmemAddr j) rfl hkept n hno
  rw [dmemRdata_eq (hr ▸ hs), hr, hrun]
  exact held_stored hs hdm hwe hk hbe

/-! ## UART -/

/-- The divisor takes the lowest byte of a write to its register. -/
theorem baudDiv_step (hrst : i.rst = false) :
    (s.step P i).uart.baudDiv =
      if (i.dmemWe && P.inUart i.dmemAddr && (Soc.uartBus P i).reg == 0b10#2) = true then
        0#8 ++ lane i.dmemWdata 0
      else s.uart.baudDiv := by
  show (if i.rst = true then _ else _ : Uart).baudDiv = _
  rw [hrst]
  rfl

/-! ## Every target -/

/-- Where nothing that is not enabled is taken, the byte enables are honoured. -/
theorem honoured_of_covered (hwe : i.dmemWe = true) (hrst : i.rst = false)
    (hzero : ∀ k < 4, i.dmemBe.getLsbD k = false → lane i.dmemWdata k = 0#8)
    (h : Covered P s i) : Honoured P s i where
  dram n k hk hdm hbe := dram_lane hk hdm fun _ => hbe
  imem n k hk hdm hbe := imem_lane hk hdm fun _ => hbe
  mtimecmp k hk hbe := by
    -- the CLINT takes the whole word: what is not enabled must be zero already
    by_cases hhit : P.inDram i.dmemAddr = false ∧ i.dmemAddr = mtimecmpAddr k
    · obtain ⟨hin, haddr⟩ := hhit
      rw [mtimecmp_stored hwe hin hk haddr, hzero _ (Nat.mod_lt k (by decide)) (hbe haddr),
        h.mtimecmp k hk hin haddr (hbe haddr)]
    · exact mtimecmp_kept hrst hk fun _ hin haddr => hhit ⟨hin, haddr⟩
  msip hbe := by
    by_cases hhit : P.inDram i.dmemAddr = false ∧ i.dmemAddr = msipAddr
    · obtain ⟨hin, haddr⟩ := hhit
      have hbit := congrArg (fun b => BitVec.getLsbD b 0) (hzero 0 (by decide) (hbe haddr))
      rw [msip_stored hwe hin haddr, h.msip hin haddr (hbe haddr)]
      simpa [lane] using hbit
    · exact msip_kept hrst fun _ hin haddr => hhit ⟨hin, haddr⟩
  transmit hload := by
    unfold UartTx.txLoad Soc.uartBus at hload
    simp only [Bool.and_eq_true, beq_iff_eq, Bool.not_eq_true'] at hload
    by_contra hbe
    have hbusy := h.transmit hload.1.1.2 hload.1.2 (Bool.eq_false_of_not_eq_true hbe)
    rw [hload.2] at hbusy
    cases hbusy
  divisor hne := by
    by_contra hbe
    rw [Bool.not_eq_true] at hbe
    refine hne ?_
    rw [baudDiv_step hrst]
    split_ifs with hw
    · simp only [Bool.and_eq_true, beq_iff_eq] at hw
      rw [hzero 0 (by decide) hbe, h.divisor hw.1.2 hw.2 hbe]
      rfl
    · rfl
  load hs hdm k hk hbe ins n hno r hr := load_stored hs hdm hwe hk hbe ins n hno r hr

/-- A device that takes a lane that is not enabled takes a zero. -/
theorem covered_of_honoured (hwe : i.dmemWe = true) (hrst : i.rst = false)
    (hzero : ∀ k < 4, i.dmemBe.getLsbD k = false → lane i.dmemWdata k = 0#8)
    (h : Honoured P s i) : Covered P s i where
  mtimecmp k hk hin haddr hbe := by
    rw [← h.mtimecmp k hk fun _ => hbe, mtimecmp_stored hwe hin hk haddr]
    exact hzero _ (Nat.mod_lt k (by decide)) hbe
  msip hin haddr hbe := by
    have hbit := congrArg (fun b => BitVec.getLsbD b 0) (hzero 0 (by decide) hbe)
    rw [← h.msip fun _ => hbe, msip_stored hwe hin haddr]
    simpa [lane] using hbit
  transmit hin hreg hbe := by
    by_contra hbusy
    rw [Bool.not_eq_true] at hbusy
    have hload : s.uart.tx.txLoad (Soc.uartBus P i) = true := by
      unfold UartTx.txLoad
      rw [hreg, hbusy]
      unfold Soc.uartBus
      rw [hwe, hin]
      rfl
    rw [h.transmit hload] at hbe
    cases hbe
  divisor hin hreg hbe := by
    by_contra hne
    have hdiv : (s.step P i).uart.baudDiv ≠ s.uart.baudDiv := by
      rw [baudDiv_step hrst, hwe, hin, hreg, if_pos (by decide), hzero 0 (by decide) hbe]
      exact Ne.symm hne
    rw [h.divisor hdiv] at hbe
    cases hbe

/-- **Byte enables**: a write of the core changes what it enables, in every target,
exactly when no device takes a lane that is not enabled and not already zero. -/
theorem byte_enables_iff (P : SocParams) (s : Soc) (i : SocIn) (w : WStage) (hw : Presents i w)
    (hrst : i.rst = false) : Honoured P s i ↔ Covered P s i := by
  have hzero : ∀ k < 4, i.dmemBe.getLsbD k = false → lane i.dmemWdata k = 0#8 := by
    intro k hk hbe
    rw [hw.wdata]
    exact wdata_disabled w hk (hw.be ▸ hbe)
  exact ⟨covered_of_honoured hw.we hrst hzero, honoured_of_covered hw.we hrst hzero⟩

/-- `sb` of a zero to the lowest byte of `mtimecmp`. -/
def sbMtimecmp : WStage :=
  { xwValid := true, xw := { result := 0x02004000#32, memWe := true } }

/-- Its write on the port. -/
def sbMtimecmpIn : SocIn where
  dmemAddr := 0x02004000#32
  dmemWe := true
  dmemBe := 0b0001#4

/-- `sh` to the upper half of the first word of the DRAM. -/
def shDram : WStage :=
  { xwValid := true
    xw :=
      { result := 0x80000002#32, storeData := 0x5A7B#32, memWe := true, memWidth := 1#2
        addrLo := 2#2 } }

/-- Its write on the port. -/
def shDramIn : SocIn where
  dmemAddr := 0x80000000#32
  dmemWe := true
  dmemBe := 0b1100#4
  dmemWdata := 0x5A7B0000#32

/-- The SoC out of reset. -/
def fresh : Soc where
  imem := fun _ => 0#32
  dram := fun _ => 0x44332211#32
  mtime := 0#64
  mtimecmp := 0xFFFFFFFFFFFFFFFF#64
  msip := false
  tohostR := 0#32
  tohostWeR := false
  uart := Uart.reset Soc.baudDivRst
  dmMemRdata := 0#32
  dmMemReady := false

/-- No device takes part in the second store. -/
theorem byte_enables_fresh :
    (Honoured .source fresh sbMtimecmpIn ↔ Covered .source fresh sbMtimecmpIn) ∧
      Honoured .source fresh shDramIn := by
  have hsb := byte_enables_iff .source fresh sbMtimecmpIn sbMtimecmp
    ⟨rfl, rfl, by decide, by decide, by decide⟩ rfl
  have hsh := byte_enables_iff .source fresh shDramIn shDram
    ⟨rfl, rfl, by decide, by decide, by decide⟩ rfl
  have hdram : SocParams.source.inDram shDramIn.dmemAddr = true := by decide
  have huart : SocParams.source.inUart shDramIn.dmemAddr = false := by decide
  refine ⟨hsb, hsh.mpr ⟨fun _ _ hno => ?_, fun hno => ?_, fun hno => ?_, fun hno => ?_⟩⟩
  · exact absurd (hdram.symm.trans hno) (by simp)
  · exact absurd (hdram.symm.trans hno) (by simp)
  · exact absurd (huart.symm.trans hno) (by simp)
  · exact absurd (huart.symm.trans hno) (by simp)

/-- The other bytes of the word are overwritten, too. -/
theorem byte_enables_ignored :
    ¬ ∀ (P : SocParams) (s : Soc) (i : SocIn) (w : WStage), Presents i w → i.rst = false →
      Honoured P s i := by
  intro h
  have hbyte := (h .source fresh sbMtimecmpIn sbMtimecmp
    ⟨rfl, rfl, by decide, by decide, by decide⟩ rfl).mtimecmp 1 (by decide) fun _ => by decide
  revert hbyte
  decide +kernel

end ThreeSippEs.ByteEnables
