import ThreeSippEs.Core.Clock
import ThreeSippEs.Core.System
import ThreeSippEs.Security.PmpRules

/-!
# PMP isolation of data accesses

X checks the address an access starts at and W performs the access one or two
clocks later, over one or two words. The check covers every byte the data port
enables, except in two situations that `DataChecked` rules out: an access that
runs into a second, denied word, and a debug-action trigger on a denied access.

- `dmem_bytes_permitted`: what the data port enables was permitted when the
  instruction left X;
- `denied_traps`: an access with a denied byte traps and never reaches the port;
- `data_isolation`: both, for every clock of a run.
-/

namespace ThreeSippEs.DataIsolation

open Clocked AlignedBlock

variable {P : Params}

/-! ## The access of the instruction in X -/

/-- The number of bytes of an access of width `mem_width`. -/
def accessSize (width : BitVec 2) : Nat := if width = 0#2 then 1 else if width = 1#2 then 2 else 4

/-- The byte enables of the 8-byte window are those of the access. -/
theorem beWin_iff (r : XwReg) {k : Nat} (hk : k < 8) :
    r.beWin.getLsbD k = true ↔
      r.addrLo.toNat ≤ k ∧ k < r.addrLo.toNat + accessSize r.memWidth := by
  unfold XwReg.beWin accessSize
  generalize r.memWidth = width
  generalize r.addrLo = lo
  revert lo width
  interval_cases k <;> decide

/-- The bytes the instruction in X asks to read or write. -/
def Touches (x : XIn) (a : Word) : Prop :=
  if x.amoValid then wordOf a = wordOf x.op1
  else ∃ j < accessSize x.dec.memWidth, a = x.aluY + BitVec.ofNat 32 j

/-- The PMP rules permit the access of the instruction in X to reach byte `a`,
under the configuration and the effective privilege of this clock. -/
def Permitted (P : Params) (x : XIn) (a : Word) : Prop :=
  PmpRules.Permits (fun i : Fin 8 => x.csr.pmpcfg (BitVec.ofNat 4 i.val))
    (fun i : Fin 8 => x.csr.pmpaddr (BitVec.ofNat 4 i.val))
    { privM := x.csr.dataM P.csr, doR := x.lsRe, doW := x.lsWe }
    { mmwp := x.csr.mmwp, mml := x.csr.mml } a

theorem pmpDataFault_eq_false_iff (x : XIn) :
    x.pmpDataFault P = false ↔ Permitted P x x.lsAddr :=
  PmpRules.fault_eq_false_iff _ _ _ _ _

instance (x : XIn) (a : Word) : Decidable (Permitted P x a) :=
  decidable_of_iff _ (PmpRules.fault_eq_false_iff _ _ _ _ _)

theorem permitted_word {x : XIn} {a b : Word} (h : a.toNat / 4 = b.toNat / 4) :
    Permitted P x a ↔ Permitted P x b :=
  PmpRules.permits_word h

/-- A load or store that runs over the end of a word. -/
def crossesWord (x : XIn) : Bool :=
  (x.dec.memRe || x.dec.memWe) &&
    decide (4 < (x.aluY.extractLsb 1 0).toNat + accessSize x.dec.memWidth)

/-- Another exception squashes the access: a fetch fault, an illegal
instruction or a breakpoint trigger. -/
def otherTrap (P : Params) (x : XIn) : Bool :=
  (x.accFetchFault P || x.illegalAll P || x.trigToExc) && !x.trigToDebug

/-- What the check on the start address leaves to the program: the second word
of an access that crosses words is permitted when the first one is, and no
debug-action trigger hits a denied access. -/
structure DataChecked (P : Params) (x : XIn) : Prop where
  crossing : crossesWord x = true → otherTrap P x = false →
    Permitted P x x.aluY → Permitted P x (wordOf x.aluY + 4#32)
  trigger : x.trigToDebug = true → Permitted P x x.lsAddr

/-- A memory instruction leaves X in this clock. -/
def accesses (s : Core P) (i : CoreIn) : Bool :=
  s.f.fxValid && !s.exFreeze && ((s.xIn i).lsRe || (s.xIn i).lsWe)

section Clock

variable {x : XIn}

/-- An access that is not squashed passed the check of its start address. -/
theorem permitted_of_not_exTrap (hP : P.secure = true) (hv : x.fxValid = true)
    (hls : x.lsRe = true ∨ x.lsWe = true) (hck : x.trigToDebug = true → Permitted P x x.lsAddr)
    (htrap : x.exTrap P = false) : Permitted P x x.lsAddr := by
  by_cases hdbg : x.trigToDebug = true
  · exact hck hdbg
  · rw [Bool.not_eq_true] at hdbg
    unfold XIn.exTrap at htrap
    rw [hdbg] at htrap
    have harch : x.archTrap P = false := by
      cases ha : x.archTrap P with
      | false => rfl
      | true => simp [ha] at htrap
    rw [← pmpDataFault_eq_false_iff]
    by_contra hfault
    rw [Bool.not_eq_false] at hfault
    have hacc : x.accFault P = true := by
      unfold XIn.accFault XIn.accLoadFault XIn.accStoreFault
      cases hwe : x.lsWe with
      | true => simp [hP, hv, hfault]
      | false =>
        have hre : x.lsRe = true := by
          rcases hls with h | h
          · exact h
          · exact absurd (h.symm.trans hwe) (by simp)
        simp [hP, hv, hfault, hre]
    unfold XIn.archTrap at harch
    simp [hv, hacc] at harch

theorem exTrap_of_otherTrap (hv : x.fxValid = true) (h : otherTrap P x = true) :
    x.exTrap P = true := by
  unfold otherTrap at h
  unfold XIn.exTrap XIn.archTrap XIn.accFault
  simp only [Bool.and_eq_true, Bool.or_eq_true, Bool.not_eq_true'] at h
  obtain ⟨(hfetch | hill) | hexc, hdbg⟩ := h
  · simp [hv, hfetch, hdbg]
  · simp [hv, hill, hdbg]
  · simp [hexc, hdbg]

/-! ## The data port -/

/-- The enabled bytes of the 8-byte window are bytes of the access. -/
theorem window_touches (hmem : x.dec.memRe = true ∨ x.dec.memWe = true) {t : Nat} (ht : t < 8)
    (hbe : (x.xwNext P).beWin.getLsbD t = true) :
    Touches x (wordOf x.aluY + BitVec.ofNat 32 t) := by
  obtain ⟨hlo, hhi⟩ := (beWin_iff _ ht).mp hbe
  have hlo' : (x.aluY.extractLsb 1 0).toNat ≤ t := hlo
  have hhi' : t < (x.aluY.extractLsb 1 0).toNat + accessSize x.dec.memWidth := hhi
  unfold Touches
  rw [XIn.amoValid_eq_false hmem, if_neg Bool.false_ne_true]
  exact ⟨t - (x.aluY.extractLsb 1 0).toNat, by omega, wordOf_add x.aluY hlo'⟩

/-- They are permitted when the start address is and the access is checked. -/
theorem window_permitted (hmem : x.dec.memRe = true ∨ x.dec.memWe = true)
    (hstart : Permitted P x x.aluY)
    (hnext : crossesWord x = true → Permitted P x (wordOf x.aluY + 4#32)) {t : Nat} (ht : t < 8)
    (hbe : (x.xwNext P).beWin.getLsbD t = true) :
    Permitted P x (wordOf x.aluY + BitVec.ofNat 32 t) := by
  obtain ⟨-, hhi⟩ := (beWin_iff _ ht).mp hbe
  have hhi' : t < (x.aluY.extractLsb 1 0).toNat + accessSize x.dec.memWidth := hhi
  by_cases h4 : t < 4
  · refine (permitted_word ?_).mpr hstart
    rw [lane_div _ (wordOf_mod x.aluY) h4, wordOf_toNat]
    omega
  · -- the second word of a crossing access
    have hcross : crossesWord x = true := by
      unfold crossesWord
      rw [Bool.and_eq_true, Bool.or_eq_true, decide_eq_true_eq]
      exact ⟨hmem, by omega⟩
    refine (permitted_word ?_).mpr (hnext hcross)
    have hsplit : wordOf x.aluY + BitVec.ofNat 32 t =
        wordOf x.aluY + 4#32 + BitVec.ofNat 32 (t - 4) := by
      rw [BitVec.add_assoc]
      congr 1
      apply BitVec.eq_of_toNat_eq
      simp only [BitVec.toNat_add, BitVec.toNat_ofNat]
      omega
    rw [hsplit, lane_div _ (next_wordOf_mod x.aluY) (by omega)]

/-- LR and SC have different function codes. -/
theorem isSc_eq_false_of_isLr (h : x.isLr = true) : x.isSc = false := by
  unfold XIn.isLr at h
  unfold XIn.isSc
  simp only [Bool.and_eq_true, beq_iff_eq] at h
  rw [h.2]
  simp

/-- A read strobe belongs to an instruction that was not squashed and reads. -/
theorem read_strobe {w : WStage} (hxw : w.xw = x.xwNext P) (h : w.dmemRe = true) :
    x.exTrap P = false ∧ x.lsRe = true := by
  obtain ⟨-, hre⟩ := w.dmemRe_cases h
  rw [hxw] at hre
  simp only [XIn.xwNext, Bool.and_eq_true, Bool.not_eq_true'] at hre
  unfold XIn.lsRe
  rcases hre with ⟨hre, htrap⟩ | ⟨⟨hamo, htrap⟩, hlr | hrmw⟩
  · exact ⟨htrap, by rw [hre]; rfl⟩
  · exact ⟨htrap, by rw [hamo, isSc_eq_false_of_isLr hlr]; simp⟩
  · unfold XIn.isAmoRmw at hrmw
    simp only [Bool.and_eq_true, Bool.not_eq_true'] at hrmw
    exact ⟨htrap, by rw [hamo, hrmw.2]; simp⟩

/-- A write strobe belongs to an instruction that was not squashed and writes. -/
theorem write_strobe {w : WStage} (hxw : w.xw = x.xwNext P) (h : w.dmemWe = true) :
    x.exTrap P = false ∧ x.lsWe = true := by
  obtain ⟨-, hwe⟩ := w.dmemWe_cases h
  rw [hxw] at hwe
  simp only [XIn.xwNext, Bool.and_eq_true, Bool.not_eq_true'] at hwe
  unfold XIn.lsWe
  rcases hwe with ⟨hwe, htrap⟩ | ⟨⟨hamo, htrap⟩, hsc | hrmw⟩
  · exact ⟨htrap, by rw [hwe]; rfl⟩
  · have hlr : x.isLr = false := by
      by_contra hl
      rw [Bool.not_eq_false] at hl
      exact absurd ((isSc_eq_false_of_isLr hl).symm.trans hsc) (by simp)
    exact ⟨htrap, by rw [hamo, hlr]; simp⟩
  · unfold XIn.isAmoRmw at hrmw
    simp only [Bool.and_eq_true, Bool.not_eq_true'] at hrmw
    exact ⟨htrap, by rw [hamo, hrmw.1.2]; simp⟩

/-- A read or write that is not an atomic is a load or store of the decoder. -/
theorem mem_of_not_amo (hls : x.lsRe = true ∨ x.lsWe = true) (hamo : x.amoValid = false) :
    x.dec.memRe = true ∨ x.dec.memWe = true := by
  unfold XIn.lsRe XIn.lsWe at hls
  simpa [hamo] using hls

/-- **The data port only enables permitted bytes of the access.** -/
theorem dmem_bytes_permitted (hP : P.secure = true) {w : WStage} (hv : x.fxValid = true)
    (hval : w.xwValid = true) (hxw : w.xw = x.xwNext P) (hck : DataChecked P x)
    (hs : w.dmemRe = true ∨ w.dmemWe = true) {k : Nat} (hk : k < 4)
    (hbe : w.dmemBe.getLsbD k = true) :
    Touches x (w.dmemAddr + BitVec.ofNat 32 k) ∧ Permitted P x (w.dmemAddr + BitVec.ofNat 32 k) := by
  have htrap : x.exTrap P = false := by
    rcases hs with h | h
    · exact (read_strobe hxw h).1
    · exact (write_strobe hxw h).1
  have hls : x.lsRe = true ∨ x.lsWe = true := by
    rcases hs with h | h
    · exact Or.inl (read_strobe hxw h).2
    · exact Or.inr (write_strobe hxw h).2
  have hstart := permitted_of_not_exTrap hP hv hls hck.trigger htrap
  unfold XIn.lsAddr at hstart
  have hhere : w.amoHere = x.amoValid := by
    unfold WStage.amoHere
    rw [hval, hxw]
    simp [XIn.xwNext, htrap]
  cases hamo : x.amoValid with
  | true =>
    -- an atomic accesses the whole word of `rs1`
    rw [hamo, if_pos rfl] at hstart
    rw [hamo] at hhere
    have haddr : w.dmemAddr = wordOf x.op1 := by
      unfold WStage.dmemAddr
      rw [hhere, if_pos rfl, hxw]
      rfl
    have hdiv : (wordOf x.op1 + BitVec.ofNat 32 k).toNat / 4 = x.op1.toNat / 4 := by
      rw [lane_div _ (wordOf_mod x.op1) hk, wordOf_toNat]
      omega
    rw [haddr]
    refine ⟨?_, (permitted_word hdiv).mpr hstart⟩
    unfold Touches
    rw [hamo, if_pos rfl, wordOf_eq_iff]
    exact hdiv
  | false =>
    rw [hamo, if_neg Bool.false_ne_true] at hstart
    rw [hamo] at hhere
    have hmem := mem_of_not_amo hls hamo
    have hother : otherTrap P x = false := by
      by_contra h
      rw [Bool.not_eq_false] at h
      exact absurd (exTrap_of_otherTrap hv h) (by simp [htrap])
    have hnext := fun hc => hck.crossing hc hother hstart
    have haddr : w.dmemAddr = wordOf x.aluY + (if w.beat2 then 4#32 else 0#32) := by
      unfold WStage.dmemAddr XwReg.wordAddr
      rw [hhere, if_neg Bool.false_ne_true, hxw]
      show (x.xResult P).extractLsb 31 2 ++ 0b00#2 + _ = _
      rw [XIn.xResult_of_mem hmem]
      rfl
    have hbe' : (x.xwNext P).beWin.getLsbD ((if w.beat2 then 4 else 0) + k) = true := by
      unfold WStage.dmemBe at hbe
      rw [hhere, if_neg Bool.false_ne_true, hxw] at hbe
      cases hb : w.beat2 <;> simp only [hb, if_true, if_false, Bool.false_eq_true,
        BitVec.getLsbD_extractLsb, Bool.and_eq_true] at hbe ⊢
      · exact hbe.2
      · exact hbe.2
    have hoff : w.dmemAddr + BitVec.ofNat 32 k =
        wordOf x.aluY + BitVec.ofNat 32 ((if w.beat2 then 4 else 0) + k) := by
      rw [haddr, BitVec.add_assoc]
      congr 1
      split
      · exact (BitVec.ofNat_add 4 k).symm
      · exact (BitVec.ofNat_add 0 k).symm
    rw [hoff]
    have ht : (if w.beat2 then 4 else 0) + k < 8 := by
      split <;> omega
    exact ⟨window_touches hmem ht hbe', window_permitted hmem hstart hnext ht hbe'⟩

/-! ## Denied accesses -/

/-- Every byte of the access lies in the word of its start address, or in the
next word when the access crosses. -/
theorem touches_word {a : Word} (hls : x.lsRe = true ∨ x.lsWe = true) (h : Touches x a) :
    a.toNat / 4 = x.lsAddr.toNat / 4 ∨
      (crossesWord x = true ∧ x.amoValid = false ∧
        a.toNat / 4 = (wordOf x.aluY + 4#32).toNat / 4) := by
  unfold Touches at h
  unfold XIn.lsAddr
  cases hamo : x.amoValid with
  | true =>
    rw [hamo, if_pos rfl, wordOf_eq_iff] at h
    exact Or.inl h
  | false =>
    rw [hamo, if_neg Bool.false_ne_true] at h
    obtain ⟨j, hj, rfl⟩ := h
    -- the byte is `lo + j` bytes behind the start of the word
    have hwin := wordOf_add x.aluY (t := (x.aluY.extractLsb 1 0).toNat + j) (by omega)
    rw [Nat.add_sub_cancel_left] at hwin
    rw [← hwin]
    have hsize : accessSize x.dec.memWidth ≤ 4 := by
      unfold accessSize
      split_ifs <;> omega
    have hlo := (x.aluY.extractLsb 1 0).isLt
    by_cases h4 : (x.aluY.extractLsb 1 0).toNat + j < 4
    · left
      rw [lane_div _ (wordOf_mod x.aluY) h4, wordOf_toNat]
      simp
    · right
      refine ⟨?_, rfl, ?_⟩
      · unfold crossesWord
        rw [Bool.and_eq_true, Bool.or_eq_true, decide_eq_true_eq]
        exact ⟨mem_of_not_amo hls hamo, by omega⟩
      · have hsplit : wordOf x.aluY + BitVec.ofNat 32 ((x.aluY.extractLsb 1 0).toNat + j) =
            wordOf x.aluY + 4#32 + BitVec.ofNat 32 ((x.aluY.extractLsb 1 0).toNat + j - 4) := by
          rw [BitVec.add_assoc]
          congr 1
          apply BitVec.eq_of_toNat_eq
          simp only [BitVec.toNat_add, BitVec.toNat_ofNat]
          omega
        rw [hsplit, lane_div _ (next_wordOf_mod x.aluY) (by omega)]

/-- A memory instruction is neither ECALL nor EBREAK. -/
theorem not_system (hls : x.lsRe = true ∨ x.lsWe = true) :
    x.dec.isEcall = false ∧ x.dec.isEbreak = false := by
  cases hamo : x.amoValid with
  | true =>
    rw [XIn.dec_of_isAmo (XIn.isAmo_of_amoValid hamo)]
    exact ⟨rfl, rfl⟩
  | false =>
    have hmem := mem_of_not_amo hls hamo
    have hsys := (decode_classes x.fxInstr).sys
    constructor
    · by_contra h
      rw [Bool.not_eq_false] at h
      obtain ⟨-, -, hre, hwe, -⟩ := hsys (by rw [show (decode x.fxInstr).isEcall = true from h]; rfl)
      exact absurd hmem (by simp [XIn.dec, hre, hwe])
    · by_contra h
      rw [Bool.not_eq_false] at h
      obtain ⟨-, -, hre, hwe, -⟩ := hsys
        (by rw [show (decode x.fxInstr).isEbreak = true from h]; simp)
      exact absurd hmem (by simp [XIn.dec, hre, hwe])

/-- The cause of an access fault that nothing else precedes. -/
theorem exCause_of_dataFault (hP : P.secure = true) (hv : x.fxValid = true)
    (hls : x.lsRe = true ∨ x.lsWe = true) (hfault : x.pmpDataFault P = true)
    (htrap : x.exTrap P = true) (hother : otherTrap P x = false) :
    x.exCause P = if x.lsWe then 7#4 else 5#4 := by
  have hdbg : x.trigToDebug = false := by
    unfold XIn.exTrap at htrap
    simp only [Bool.and_eq_true, Bool.not_eq_true'] at htrap
    exact htrap.2
  unfold otherTrap at hother
  simp only [hdbg, Bool.not_false, Bool.and_true, Bool.or_eq_false_iff] at hother
  obtain ⟨⟨hfetch, hill⟩, -⟩ := hother
  obtain ⟨hecall, hebreak⟩ := not_system hls
  unfold XIn.exCause
  rw [hfetch, hill, hecall, hebreak]
  unfold XIn.accLoadFault XIn.accStoreFault
  cases hwe : x.lsWe with
  | true => simp [hP, hv, hfault]
  | false =>
    have hre : x.lsRe = true := by
      rcases hls with h | h
      · exact h
      · exact absurd (h.symm.trans hwe) (by simp)
    simp [hP, hv, hfault, hre]

/-- **A denied byte traps**: as a load or store access fault, unless another
exception is reported first. -/
theorem denied_traps (hP : P.secure = true) (hv : x.fxValid = true)
    (hls : x.lsRe = true ∨ x.lsWe = true) (hck : DataChecked P x) {a : Word} (ha : Touches x a)
    (hden : ¬ Permitted P x a) :
    x.exTrap P = true ∧
      (otherTrap P x = true ∨ x.exCause P = if x.lsWe then 7#4 else 5#4) := by
  cases hother : otherTrap P x with
  | true => exact ⟨exTrap_of_otherTrap hv hother, Or.inl rfl⟩
  | false =>
    -- the denied byte is in the first word, or the first word is denied as well
    have hstart : ¬ Permitted P x x.lsAddr := by
      rcases touches_word hls ha with hfirst | ⟨hcross, hamo, hsecond⟩
      · exact fun h => hden ((permitted_word hfirst).mpr h)
      · intro h
        unfold XIn.lsAddr at h
        rw [hamo, if_neg Bool.false_ne_true] at h
        exact hden ((permitted_word hsecond).mpr (hck.crossing hcross hother h))
    have htrap : x.exTrap P = true := by
      by_contra hno
      rw [Bool.not_eq_true] at hno
      exact hstart (permitted_of_not_exTrap hP hv hls hck.trigger hno)
    refine ⟨htrap, Or.inr ?_⟩
    have hfault : x.pmpDataFault P = true := by
      by_contra h
      rw [Bool.not_eq_true, pmpDataFault_eq_false_iff] at h
      exact hstart h
    exact exCause_of_dataFault hP hv hls hfault htrap hother

/-- A squashed instruction leaves the data port idle. -/
theorem no_strobe_of_exTrap {w : WStage} (hxw : w.xw = x.xwNext P) (htrap : x.exTrap P = true) :
    w.dmemRe = false ∧ w.dmemWe = false := by
  constructor
  · by_contra h
    rw [Bool.not_eq_false] at h
    exact absurd (read_strobe hxw h).1 (by simp [htrap])
  · by_contra h
    rw [Bool.not_eq_false] at h
    exact absurd (write_strobe hxw h).1 (by simp [htrap])

end Clock

/-! ## Runs -/

instance (x : XIn) : Decidable (DataChecked P x) :=
  decidable_of_iff
    ((crossesWord x = true → otherTrap P x = false → Permitted P x x.aluY →
        Permitted P x (wordOf x.aluY + 4#32)) ∧
      (x.trigToDebug = true → Permitted P x x.lsAddr))
    ⟨fun h => ⟨h.1, h.2⟩, fun h => ⟨h.crossing, h.trigger⟩⟩

/-- Byte `a` of the access that W performs at clock `n` is a byte that the
instruction was permitted to access when it left X. -/
def WasPermitted (s₀ : Core P) (i₀ : CoreIn) (ins : Nat → CoreIn) (n : Nat) (a : Word) : Prop :=
  ∃ m, Core.Issued s₀ i₀ ins m n ∧ Touches ((Core.runFrom s₀ i₀ ins m).xIn (ins m)) a ∧
    Permitted P ((Core.runFrom s₀ i₀ ins m).xIn (ins m)) a ∧
    ((Core.runFrom s₀ i₀ ins n).w.dmemRe = true →
      ((Core.runFrom s₀ i₀ ins m).xIn (ins m)).lsRe = true) ∧
    ((Core.runFrom s₀ i₀ ins n).w.dmemWe = true →
      ((Core.runFrom s₀ i₀ ins m).xIn (ins m)).lsWe = true)

/-- The clock `i` in state `s` takes a trap for the access of X, whose next
clock does not drive the data port. -/
structure FaultTaken (s : Core P) (i : CoreIn) : Prop where
  trap : (s.xIn i).exTrap P = true
  cause : otherTrap P (s.xIn i) = true ∨
    (s.xIn i).exCause P = if (s.xIn i).lsWe then 7#4 else 5#4
  entry : (s.xIn i).mTrapSet P = true ∨ (s.xIn i).delegTrap P = true
  idle : (s.step i).w.dmemRe = false ∧ (s.step i).w.dmemWe = false

/-- **Isolation of data accesses.** In every run whose memory instructions are
`DataChecked` when they leave X, the data port enables permitted bytes only, and
an access with a denied byte takes a trap instead. -/
theorem data_isolation (hP : P.secure = true) (s₀ : Core P) (i₀ : CoreIn) (ins : Nat → CoreIn)
    (n : Nat)
    (hok : ∀ m ≤ n, accesses (Core.runFrom s₀ i₀ ins m) (ins m) = true →
      DataChecked P ((Core.runFrom s₀ i₀ ins m).xIn (ins m))) :
    ((Core.runFrom s₀ i₀ ins n).w.dmemRe = true ∨ (Core.runFrom s₀ i₀ ins n).w.dmemWe = true →
      ∀ k < 4, (Core.runFrom s₀ i₀ ins n).w.dmemBe.getLsbD k = true →
        WasPermitted s₀ i₀ ins n ((Core.runFrom s₀ i₀ ins n).w.dmemAddr + BitVec.ofNat 32 k)) ∧
    (accesses (Core.runFrom s₀ i₀ ins n) (ins n) = true →
      ∀ a, Touches ((Core.runFrom s₀ i₀ ins n).xIn (ins n)) a →
        ¬ Permitted P ((Core.runFrom s₀ i₀ ins n).xIn (ins n)) a →
        FaultTaken (Core.runFrom s₀ i₀ ins n) (ins n)) := by
  constructor
  · intro hs k hk hbe
    have hval : (Core.runFrom s₀ i₀ ins n).w.xwValid = true := by
      rcases hs with h | h
      · exact (WStage.dmemRe_cases _ h).1
      · exact (WStage.dmemWe_cases _ h).1
    obtain ⟨m, hm⟩ := Core.issued s₀ i₀ ins n hval
    have hv := (Core.xCommit_iff.mp hm.commit).1
    have hre := fun h => (read_strobe hm.xw h).2
    have hwe := fun h => (write_strobe hm.xw h).2
    have hacc : accesses (Core.runFrom s₀ i₀ ins m) (ins m) = true := by
      unfold accesses
      rw [hv, hm.leaves]
      rcases hs with h | h
      · simp [hre h]
      · simp [hwe h]
    have hmn : m ≤ n := by
      have hbeat := hm.beat
      omega
    obtain ⟨htouch, hperm⟩ :=
      dmem_bytes_permitted hP hv hval hm.xw (hok m hmn hacc) hs hk hbe
    exact ⟨m, hm, htouch, hperm, hre, hwe⟩
  · intro hacc a htouch hden
    have hck := hok n (Nat.le_refl n) hacc
    unfold accesses at hacc
    simp only [Bool.and_eq_true, Bool.or_eq_true, Bool.not_eq_true'] at hacc
    obtain ⟨⟨hv, hfz⟩, hls⟩ := hacc
    obtain ⟨htrap, hcause⟩ := denied_traps hP hv hls hck htouch hden
    have hstall := (Core.exFreeze_eq_false_iff.mp hfz).2
    have hxw := (WStage.step_of_not_stall _ hstall (ins n).dmemRdata
      (Core.runFrom s₀ i₀ ins n).xCommit
      (((Core.runFrom s₀ i₀ ins n).xIn (ins n)).xwNext P)).2.1
    refine ⟨htrap, hcause, ?_, no_strobe_of_exTrap hxw htrap⟩
    have hfz' : ((Core.runFrom s₀ i₀ ins n).xIn (ins n)).exFreeze = false := hfz
    unfold XIn.mTrapSet
    rw [htrap, hfz']
    cases ((Core.runFrom s₀ i₀ ins n).xIn (ins n)).delegTrap P <;> simp

/-- A program that locks bytes 64..67 without permissions, loads the word at 58, in two
beats, and the word at 64. -/
def loadBesideLocked : Memory where
  imem := .ofWords
    [0x01000093#32,   -- addi x1, x0, 16
     0x3B009073#32,   -- csrrw x0, pmpaddr0, x1
     0x09000093#32,   -- addi x1, x0, 0x90
     0x3A009073#32,   -- csrrw x0, pmpcfg0, x1
     0x03A02103#32,   -- lw x2, 58(x0)
     0x04002183#32]   -- lw x3, 64(x0)
  dmem := fun _ => 0#8

/-- At clock 7 the first load reads byte 60 in its second beat, and the second one traps. -/
theorem data_isolation_besideLocked :
    WasPermitted (Core.powerUp { secure := true }) (loadBesideLocked.resetIn { secure := true } {})
      (loadBesideLocked.inputs { secure := true } {}) 7 60#32 ∧
    FaultTaken (loadBesideLocked.bench { secure := true } {} 7)
      (loadBesideLocked.inputs { secure := true } {} 7) := by
  have h := data_isolation rfl (Core.powerUp _) (loadBesideLocked.resetIn { secure := true } {})
    (loadBesideLocked.inputs { secure := true } {}) 7 (fun m hm => by
      rw [Memory.runFrom_inputs]
      revert m
      decide +kernel)
  rw [Memory.runFrom_inputs] at h
  have hbyte : (loadBesideLocked.bench { secure := true } {} 7).w.dmemAddr + BitVec.ofNat 32 0 =
      60#32 := by decide +kernel
  have htouch : Touches ((loadBesideLocked.bench { secure := true } {} 7).xIn
      (loadBesideLocked.inputs { secure := true } {} 7)) 64#32 := by
    unfold Touches
    rw [if_neg (by decide +kernel)]
    exact ⟨0, by decide +kernel, by decide +kernel⟩
  refine ⟨?_, ?_⟩
  · rw [← hbyte]
    exact h.1 (by decide +kernel) 0 (by decide) (by decide +kernel)
  · exact h.2 (by decide +kernel) 64#32 htouch (by decide +kernel)

/-- A program that locks bytes 64..67 without permissions and loads the word at
62. -/
def loadIntoLocked : Memory where
  imem := .ofWords
    [0x01000093#32,   -- addi x1, x0, 16
     0x3B009073#32,   -- csrrw x0, pmpaddr0, x1
     0x09000093#32,   -- addi x1, x0, 0x90
     0x3A009073#32,   -- csrrw x0, pmpcfg0, x1
     0x03E02103#32]   -- lw x2, 62(x0)
  dmem := fun _ => 0#8

/-- The second beat of a misaligned load reads denied bytes: at clock 7 the data
port reads byte 64. -/
theorem second_beat_unchecked :
    ¬ ∀ (s₀ : Core { secure := true }) (i₀ : CoreIn) (ins : Nat → CoreIn) (n : Nat),
      (Core.runFrom s₀ i₀ ins n).w.dmemRe = true ∨ (Core.runFrom s₀ i₀ ins n).w.dmemWe = true →
      ∀ k < 4, (Core.runFrom s₀ i₀ ins n).w.dmemBe.getLsbD k = true →
        WasPermitted s₀ i₀ ins n ((Core.runFrom s₀ i₀ ins n).w.dmemAddr + BitVec.ofNat 32 k) := by
  intro h
  have h' := h (Core.powerUp _) (loadIntoLocked.resetIn { secure := true } {})
    (loadIntoLocked.inputs { secure := true } {}) 7
  rw [Memory.runFrom_inputs] at h'
  obtain ⟨m, hm, -, hperm, -, -⟩ := h' (by decide +kernel) 0 (by decide) (by decide +kernel)
  have hbeat := hm.beat
  have hb : (loadIntoLocked.bench { secure := true } {} 7).w.beat2 = true := by decide +kernel
  rw [Memory.runFrom_inputs, hb, if_pos rfl] at hbeat
  obtain rfl : m = 5 := by omega
  rw [Memory.runFrom_inputs] at hperm
  revert hperm
  decide +kernel

end ThreeSippEs.DataIsolation
