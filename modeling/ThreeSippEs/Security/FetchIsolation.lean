import ThreeSippEs.Core.Clock
import ThreeSippEs.Core.System
import ThreeSippEs.Security.PmpRules

/-!
# PMP isolation of instruction fetch

F assembles an instruction from one or two words and X checks the address it
starts at. `FetchChecked` rules out what this check leaves open: a second word
that is denied, and the effects that do not wait for the outcome of the check
(triggers, EBREAK to Debug Mode, the status update of URET).

- `assembled`: where the bytes of the instruction in X were read;
- `fetch_isolation`: an instruction with a byte that may not be executed does
  nothing but take an instruction access fault.
-/

namespace ThreeSippEs.FetchIsolation

open Clocked AlignedBlock

variable {P : Params}

/-! ## Where an instruction comes from -/

/-- The instruction in X at clock `n` was assembled from what the instruction
port returned for the word of its address and, when it straddles, for the next
word. -/
def Assembled (s₀ : Core P) (i₀ : CoreIn) (ins : Nat → CoreIn) (n : Nat) : Prop :=
  let x := (Core.runFrom s₀ i₀ ins n).f
  (∃ m < n, (Core.runFrom s₀ i₀ ins m).imemAddr = x.fxPc ∧
    x.fxInstr = (Core.runFrom s₀ i₀ ins m).f.fetchedInstr (ins m).imemRdata ∧
    x.fxLen = (Core.runFrom s₀ i₀ ins m).f.fetchedLen (ins m).imemRdata ∧
    (x.fxLen = 4#3 → x.fxPc.getLsbD 1 = false)) ∨
  (∃ l m, l < m ∧ m < n ∧ (Core.runFrom s₀ i₀ ins l).imemAddr = x.fxPc ∧
    (Core.runFrom s₀ i₀ ins m).imemAddr = wordOf x.fxPc + 4#32 ∧
    x.fxInstr = (ins m).imemRdata.extractLsb 15 0 ++ (ins l).imemRdata.extractLsb 31 16 ∧
    x.fxLen = 4#3 ∧ x.fxPc.getLsbD 1 = true)

/-- Between the beats of a straddling fetch F holds the first half. -/
def HalfFetched (s₀ : Core P) (i₀ : CoreIn) (ins : Nat → CoreIn) (n : Nat) : Prop :=
  (Core.runFrom s₀ i₀ ins n).f.pc.getLsbD 1 = true ∧
  ∃ l < n, (Core.runFrom s₀ i₀ ins l).imemAddr = (Core.runFrom s₀ i₀ ins n).f.pc ∧
    (Core.runFrom s₀ i₀ ins n).f.stradLo = (ins l).imemRdata.extractLsb 31 16

/-- A 4-byte instruction fetched in one beat starts at a word. -/
theorem FStage.low_of_fetchedLen {f : FStage P} {rdata : Word} (hs : f.needStraddle rdata = false)
    (hstr : f.straddle = false) (hlen : f.fetchedLen rdata = 4#3) : f.pc.getLsbD 1 = false := by
  unfold FStage.fetchedLen at hlen
  unfold FStage.needStraddle at hs
  cases hcomp : f.cIsComp rdata with
  | true => simp [hcomp, hstr] at hlen
  | false => simpa [hcomp, hstr] using hs

theorem assembled_step (s₀ : Core P) (i₀ : CoreIn) (ins : Nat → CoreIn) (n : Nat)
    (hhalf : (Core.runFrom s₀ i₀ ins n).f.straddle = true → HalfFetched s₀ i₀ ins n)
    (hfx : (Core.runFrom s₀ i₀ ins n).f.fxValid = true → Assembled s₀ i₀ ins n) :
    ((Core.runFrom s₀ i₀ ins (n + 1)).f.straddle = true → HalfFetched s₀ i₀ ins (n + 1)) ∧
    ((Core.runFrom s₀ i₀ ins (n + 1)).f.fxValid = true → Assembled s₀ i₀ ins (n + 1)) := by
  have hc := (Core.runFrom s₀ i₀ ins n).f.step_clock (Core.runFrom s₀ i₀ ins n).bp.ghist
    ((Core.runFrom s₀ i₀ ins n).fetchIn (ins n))
  have hf : (Core.runFrom s₀ i₀ ins (n + 1)).f = (Core.runFrom s₀ i₀ ins n).f.step
    (Core.runFrom s₀ i₀ ins n).bp.ghist ((Core.runFrom s₀ i₀ ins n).fetchIn (ins n)) := rfl
  unfold HalfFetched Assembled
  rw [hf]
  generalize (Core.runFrom s₀ i₀ ins n).f.step _ _ = f' at hc
  cases hc with
  | redirected | resumed =>
    exact ⟨fun h => absurd h Bool.false_ne_true, fun h => absurd h Bool.false_ne_true⟩
  | frozen =>
    refine ⟨fun h => ?_, fun h => absurd h Bool.false_ne_true⟩
    obtain ⟨hpc, l, hl, haddr, hlo⟩ := hhalf h
    exact ⟨hpc, l, by omega, haddr, hlo⟩
  | stalled =>
    constructor
    · intro h
      obtain ⟨hpc, l, hl, haddr, hlo⟩ := hhalf h
      exact ⟨hpc, l, by omega, haddr, hlo⟩
    · intro h
      rcases hfx h with ⟨m, hm, hone⟩ | ⟨l, m, hl, hm, htwo⟩
      · exact Or.inl ⟨m, by omega, hone⟩
      · exact Or.inr ⟨l, m, hl, by omega, htwo⟩
  | straddled hr hres hfz hst hs =>
    refine ⟨fun _ => ?_, fun h => absurd h Bool.false_ne_true⟩
    unfold FStage.needStraddle at hs
    simp only [Bool.and_eq_true, Bool.not_eq_true'] at hs
    refine ⟨hs.1.2, n, by omega, ?_, rfl⟩
    unfold Core.imemAddr FStage.imemAddr
    rw [hs.2]
    rfl
  | accepted hr hres hfz hst hs =>
    refine ⟨fun h => absurd h Bool.false_ne_true, fun _ => ?_⟩
    cases hstr : (Core.runFrom s₀ i₀ ins n).f.straddle with
    | false =>
      left
      refine ⟨n, by omega, ?_, rfl, rfl, ?_⟩
      · unfold Core.imemAddr FStage.imemAddr
        rw [hstr]
        rfl
      · intro hlen
        -- an uncompressed instruction in the upper half would have straddled
        show (Core.runFrom s₀ i₀ ins n).f.pc.getLsbD 1 = false
        exact FStage.low_of_fetchedLen hs hstr hlen
    | true =>
      right
      obtain ⟨hpc, l, hl, haddr, hlo⟩ := hhalf hstr
      refine ⟨l, n, hl, by omega, haddr, ?_, ?_, ?_, hpc⟩
      · unfold Core.imemAddr FStage.imemAddr
        rw [hstr]
        rfl
      · show (Core.runFrom s₀ i₀ ins n).f.fetchedInstr (ins n).imemRdata = _
        unfold FStage.fetchedInstr
        rw [hstr, if_pos rfl, hlo]
      · show (Core.runFrom s₀ i₀ ins n).f.fetchedLen (ins n).imemRdata = _
        unfold FStage.fetchedLen
        rw [hstr]
        rfl

/-- **Every instruction in X was read at its own address**, in every reachable
state. -/
theorem assembled (s₀ : Core P) (i₀ : CoreIn) (ins : Nat → CoreIn) (n : Nat) :
    ((Core.runFrom s₀ i₀ ins n).f.straddle = true → HalfFetched s₀ i₀ ins n) ∧
    ((Core.runFrom s₀ i₀ ins n).f.fxValid = true → Assembled s₀ i₀ ins n) := by
  induction n with
  | zero => exact ⟨fun h => absurd h Bool.false_ne_true, fun h => absurd h Bool.false_ne_true⟩
  | succ n ih => exact assembled_step s₀ i₀ ins n ih.1 ih.2

/-! ## The check of the instruction in X -/

/-- The PMP rules let the current privilege execute byte `a`. -/
def Executable (x : XIn) (a : Word) : Prop :=
  PmpRules.Permits (fun i : Fin 8 => x.csr.pmpcfg (BitVec.ofNat 4 i.val))
    (fun i : Fin 8 => x.csr.pmpaddr (BitVec.ofNat 4 i.val))
    { privM := x.csr.fetchM, doX := true } { mmwp := x.csr.mmwp, mml := x.csr.mml } a

instance (x : XIn) (a : Word) : Decidable (Executable x a) :=
  decidable_of_iff _ (PmpRules.fault_eq_false_iff _ _ _ _ _)

theorem pmpFetchFault_eq_false_iff (x : XIn) :
    x.pmpFetchFault = false ↔ Executable x x.fxPc :=
  PmpRules.fault_eq_false_iff _ _ _ _ _

/-- Byte `a` belongs to the encoding of the instruction in X, which starts at
the halfword of PC. -/
def Encodes (x : XIn) (a : Word) : Prop :=
  ∃ j < x.fxLen.toNat, a = x.fxPc.extractLsb 31 1 ++ 0#1 + BitVec.ofNat 32 j

/-- A 4-byte instruction in the upper half of a word. -/
def straddles (x : XIn) : Bool := x.fxLen == 4#3 && x.fxPc.getLsbD 1

/-- What the check on the address of the instruction leaves open. -/
structure FetchChecked (P : Params) (x : XIn) : Prop where
  /-- the second word is executable when the first one is -/
  crossing : straddles x = true → Executable x x.fxPc → Executable x (wordOf x.fxPc + 4#32)
  /-- no trigger fires on a denied instruction -/
  trigger : x.trigFire = true → Executable x x.fxPc
  /-- no denied EBREAK enters Debug Mode -/
  ebreak : x.fxInstr = 0x00100073#32 → x.dcsrEbreakm = true → Executable x x.fxPc
  /-- a denied URET is only fetched where the fault is delegated -/
  uret : x.isUret P = true →
    Executable x x.fxPc ∨ (x.csr.priv = 0b00#2 ∧ x.ucsr.medeleg.getLsbD 1 = true)

instance (x : XIn) : Decidable (FetchChecked P x) :=
  decidable_of_iff
    ((straddles x = true → Executable x x.fxPc → Executable x (wordOf x.fxPc + 4#32)) ∧
      (x.trigFire = true → Executable x x.fxPc) ∧
      (x.fxInstr = 0x00100073#32 → x.dcsrEbreakm = true → Executable x x.fxPc) ∧
      (x.isUret P = true →
        Executable x x.fxPc ∨ (x.csr.priv = 0b00#2 ∧ x.ucsr.medeleg.getLsbD 1 = true)))
    ⟨fun h => ⟨h.1, h.2.1, h.2.2.1, h.2.2.2⟩, fun h => ⟨h.crossing, h.trigger, h.ebreak, h.uret⟩⟩

/-- The halfword of PC lies in the word of PC. -/
theorem halfword_toNat (a : Word) : (a.extractLsb 31 1 ++ 0#1).toNat = a.toNat / 2 * 2 := by
  have hlt := a.isLt
  rw [BitVec.toNat_append, BitVec.extractLsb, BitVec.extractLsb'_toNat,
    Nat.shiftRight_eq_div_pow, Nat.shiftLeft_eq]
  simp
  omega

theorem bit1_toNat (a : Word) : a.getLsbD 1 = decide (a.toNat / 2 % 2 = 1) := by
  rw [BitVec.getLsbD, Nat.testBit_eq_decide_div_mod_eq]

/-- The bytes of an encoding lie in the word of PC, or in the next word when the
instruction straddles. -/
theorem encodes_word {x : XIn} {a : Word} (hlen : x.fxLen = 2#3 ∨ x.fxLen = 4#3)
    (h : Encodes x a) :
    a.toNat / 4 = x.fxPc.toNat / 4 ∨
      (straddles x = true ∧ a.toNat / 4 = (wordOf x.fxPc + 4#32).toNat / 4) := by
  obtain ⟨j, hj, rfl⟩ := h
  have hbase := halfword_toNat x.fxPc
  have hword := wordOf_toNat x.fxPc
  have hlt := x.fxPc.isLt
  unfold straddles
  rw [bit1_toNat, BitVec.toNat_add, BitVec.toNat_ofNat, BitVec.toNat_add, hbase, hword]
  rcases hlen with h2 | h4
  · rw [h2] at hj ⊢
    have hj2 : j < 2 := hj
    left
    omega
  · rw [h4] at hj ⊢
    have hj4 : j < 4 := hj
    have h44 : (4#32).toNat = 4 := rfl
    by_cases hup : x.fxPc.toNat / 2 % 2 = 1
    · simp only [hup, beq_self_eq_true, decide_true, Bool.and_self, true_and, h44]
      omega
    · left
      omega

/-- Some byte is denied only if the address the check looks at is. -/
theorem fetchFault_of_denied {x : XIn} {a : Word} (hlen : x.fxLen = 2#3 ∨ x.fxLen = 4#3)
    (hck : FetchChecked P x) (ha : Encodes x a) (hden : ¬ Executable x a) :
    ¬ Executable x x.fxPc := by
  intro hpc
  rcases encodes_word hlen ha with hw | ⟨hstr, hw⟩
  · exact hden ((PmpRules.permits_word hw).mpr hpc)
  · exact hden ((PmpRules.permits_word hw).mpr (hck.crossing hstr hpc))

/-! ## What a denied instruction does -/

/-- The clock `i` in state `s` changes nothing on behalf of the instruction in
X, which waits there. The counters go on. -/
structure Waits (s : Core P) (i : CoreIn) : Prop where
  redirect : s.redirect i = none
  notIssued : (s.step i).w.xwValid = true → (s.step i).w.xw = s.w.xw
  csr : ∃ j, (s.step i).csr = { s.csr with ctr := s.csr.tick j }
  ucsr : (s.step i).ucsr = s.ucsr
  trig : (s.step i).trig = s.trig
  dbg : s.ebreakToDebug = false

/-- The clock `i` in state `s` takes an instruction access fault on the
instruction in X and does nothing else on its behalf: what W takes over neither
writes a register nor accesses memory, and the trap is entered by M-mode or, when
delegated, by User mode. -/
structure OnlyFaults (s : Core P) (i : CoreIn) : Prop where
  cause : (s.xIn i).exTrap P = true ∧ (s.xIn i).exCause P = 1#4
  redirect : s.redirect i = some (if (s.xIn i).delegTrap P then s.ucsr.utvec else s.csr.mtvec)
  squashed : (s.step i).w.xw.regWe = false ∧ (s.step i).w.xw.memRe = false ∧
    (s.step i).w.xw.memWe = false ∧ (s.step i).w.xw.isAmo = false
  csr : ∃ j, (j.trapEpc = s.f.fxPc ∧ j.trapCause = 1#4 ∧ j.trapInterrupt = false ∧
      j.trapTval = s.f.fxPc) ∧
    (s.step i).csr =
      { (if (s.xIn i).delegTrap P then s.csr else s.csr.trapEntry P.csr j) with
        ctr := s.csr.tick j }
  ucsr : (s.step i).ucsr =
    if (s.xIn i).delegTrap P then s.ucsr.trapEntry s.f.fxPc 1#4 s.f.fxPc else s.ucsr
  trig : (s.step i).trig = s.trig
  dbg : s.ebreakToDebug = false

section Clock

variable {s : Core P} {i : CoreIn}

/-- A denied EBREAK stays out of Debug Mode. -/
theorem ebreakToDebug_eq_false (hck : FetchChecked P (s.xIn i))
    (hpc : ¬ Executable (s.xIn i) s.f.fxPc) : s.ebreakToDebug = false := by
  by_contra h
  rw [Bool.not_eq_false] at h
  unfold Core.ebreakToDebug at h
  simp only [Bool.and_eq_true, beq_iff_eq] at h
  exact hpc (hck.ebreak h.1.1.2 h.1.2)

theorem waits_of_not_leaves (hdbg : s.dbg.dbgMode = false) (hl : (s.xIn i).leaves = false)
    (hv : s.f.fxValid = true) (heb : s.ebreakToDebug = false) : Waits s i := by
  have hidle : (s.xIn i).Idle P := XIn.idle hl fun hm => absurd (hm.symm.trans hdbg) (by simp)
  obtain ⟨hcsr, hucsr, htrig⟩ := hidle.keeps s.w.retireValid
  refine ⟨hidle.redirect, ?_, ⟨_, hcsr⟩, hucsr, htrig, heb⟩
  intro hval
  cases hb : s.w.memBeatStall with
  | true => exact (WStage.step_of_stall _ hb _ _ _).2.1
  | false =>
    -- X waits for the M unit and commits nothing
    have hcommit : s.xCommit = true :=
      (WStage.step_of_not_stall _ hb i.dmemRdata s.xCommit ((s.xIn i).xwNext P)).1.symm.trans hval
    have hfz : s.exFreeze = false :=
      Core.exFreeze_eq_false_iff.mpr ⟨(Core.xCommit_iff.mp hcommit).2.1, hb⟩
    have hl' : (s.xIn i).leaves = true := XIn.leaves_iff.mpr ⟨hv, hfz⟩
    exact absurd hl' (by simp [hl])

/-- A denied address traps, with the highest priority. -/
theorem exTrap_of_denied (hP : P.secure = true) (hck : FetchChecked P (s.xIn i))
    (hv : s.f.fxValid = true) (hpc : ¬ Executable (s.xIn i) s.f.fxPc) :
    (s.xIn i).exTrap P = true ∧ (s.xIn i).exCause P = 1#4 ∧ (s.xIn i).exTval P = s.f.fxPc ∧
    (s.xIn i).trigFire = false := by
  have hfire : (s.xIn i).trigFire = false := by
    by_contra h
    rw [Bool.not_eq_false] at h
    exact hpc (hck.trigger h)
  have hfault : (s.xIn i).accFetchFault P = true := by
    have hpmp : (s.xIn i).pmpFetchFault = true := by
      by_contra h
      rw [Bool.not_eq_true, pmpFetchFault_eq_false_iff] at h
      exact hpc h
    have hv' : (s.xIn i).fxValid = true := hv
    unfold XIn.accFetchFault
    rw [hP, hv', hpmp]
    rfl
  have hv' : (s.xIn i).fxValid = true := hv
  refine ⟨?_, ?_, ?_, hfire⟩
  · unfold XIn.exTrap XIn.archTrap XIn.accFault XIn.trigToDebug
    simp [hv', hfault, hfire]
  · unfold XIn.exCause
    rw [hfault, if_pos rfl]
  · unfold XIn.exTval
    rw [hfault, if_pos rfl]
    rfl

/-- A delegated trap is never on an MRET, and a denied URET is delegated. -/
theorem returns_of_denied (hP : P.secure = true) (hck : FetchChecked P (s.xIn i))
    (hpc : ¬ Executable (s.xIn i) s.f.fxPc) (hl : (s.xIn i).leaves = true)
    (htrap : (s.xIn i).exTrap P = true) (hcause : (s.xIn i).exCause P = 1#4) :
    ((s.xIn i).delegTrap P = true → (s.xIn i).csrMret P = false) ∧
    ((s.xIn i).delegTrap P = false → (s.xIn i).isUret P = false) := by
  constructor
  · intro hd
    unfold XIn.delegTrap at hd
    simp only [Bool.and_eq_true, beq_iff_eq] at hd
    unfold XIn.csrMret XIn.mretPrivFault XIn.privLow
    rw [hd.1.1.1.2, hP]
    cases (s.xIn i).dec.isMret <;> simp
  · intro hd
    by_contra hu
    rw [Bool.not_eq_false] at hu
    rcases hck.uret hu with h | ⟨hpriv, hdeleg⟩
    · exact hpc h
    · unfold XIn.delegTrap at hd
      rw [hP, hpriv, htrap, hcause, (XIn.leaves_iff.mp hl).2,
        show (1#4).toNat = 1 from rfl, hdeleg] at hd
      simp at hd

theorem onlyFaults_of_leaves (hP : P.secure = true) (hdbg : s.dbg.dbgMode = false)
    (hl : (s.xIn i).leaves = true) (hck : FetchChecked P (s.xIn i))
    (hpc : ¬ Executable (s.xIn i) s.f.fxPc) : OnlyFaults s i := by
  obtain ⟨hv, hfz⟩ := XIn.leaves_iff.mp hl
  obtain ⟨htrap, hcause, htval, hfire⟩ := exTrap_of_denied hP hck hv hpc
  obtain ⟨hmret, huret⟩ := returns_of_denied hP hck hpc hl htrap hcause
  have hirq := XIn.takeIrq_of_exTrap htrap
  have hwe : (s.xIn i).csrWeEff P = false := by
    have hdbg' : (s.xIn i).dbgMode = false := hdbg
    unfold XIn.csrWeEff
    rw [hdbg', htrap]
    simp
  have hset : (s.xIn i).mTrapSet P = !(s.xIn i).delegTrap P := by
    unfold XIn.mTrapSet
    rw [htrap, hfz, hirq]
    simp
  have hstall : s.w.memBeatStall = false := (Core.exFreeze_eq_false_iff.mp hfz).2
  have hxw : (s.step i).w.xw = (s.xIn i).xwNext P :=
    (WStage.step_of_not_stall _ hstall i.dmemRdata s.xCommit _).2.1
  refine ⟨⟨htrap, hcause⟩, XIn.redirect_of_exTrap htrap hfz, ?_, ?_, ?_, ?_,
    ebreakToDebug_eq_false hck hpc⟩
  · rw [hxw]
    simp [XIn.xwNext, htrap]
  · refine ⟨(s.xIn i).csrIn P s.w.retireValid, ⟨?_, ?_, hirq, htval⟩, ?_⟩
    · show (if (s.xIn i).exTrap P then _ else _) = _
      rw [htrap]
      rfl
    · show (if (s.xIn i).exTrap P then _ else _) = _
      rw [htrap, if_pos rfl, hcause]
    · show s.csr.step P.csr ((s.xIn i).csrIn P s.w.retireValid) = _
      have hts : ((s.xIn i).csrIn P s.w.retireValid).trapSet = !(s.xIn i).delegTrap P := hset
      have hm : ((s.xIn i).csrIn P s.w.retireValid).mret = (s.xIn i).csrMret P := rfl
      have hw : ((s.xIn i).csrIn P s.w.retireValid).we = false := by
        show ((s.xIn i).csrWeEff P && _ && _) = false
        rw [hwe]
        rfl
      unfold Csr.step
      rw [hts, hm, hw]
      cases hd : (s.xIn i).delegTrap P with
      | true =>
        rw [hmret hd]
        rfl
      | false => rfl
  · show (s.xIn i).ucsrNext P = _
    unfold XIn.ucsrNext XIn.ucsrWe
    rw [hP, hwe, hcause, htval]
    cases hd : (s.xIn i).delegTrap P with
    | true => rfl
    | false =>
      rw [huret hd]
      simp
      rfl
  · show (s.xIn i).trigNext P = _
    unfold XIn.trigNext XIn.trigCsrWe
    rw [hwe, hfire]
    rfl

end Clock

/-! ## Runs -/

/-- **Isolation of instruction fetch.** In every reachable state, the instruction
in X was read at its own address, and when it is `FetchChecked` and a byte of it
is denied, it waits or takes an instruction access fault and nothing else. -/
theorem fetch_isolation (hP : P.secure = true) (s₀ : Core P) (i₀ : CoreIn) (ins : Nat → CoreIn)
    (n : Nat) (hv : (Core.runFrom s₀ i₀ ins n).f.fxValid = true)
    (hck : FetchChecked P ((Core.runFrom s₀ i₀ ins n).xIn (ins n))) :
    Assembled s₀ i₀ ins n ∧
    ((∃ a, Encodes ((Core.runFrom s₀ i₀ ins n).xIn (ins n)) a ∧
        ¬ Executable ((Core.runFrom s₀ i₀ ins n).xIn (ins n)) a) →
      if ((Core.runFrom s₀ i₀ ins n).xIn (ins n)).leaves then
        OnlyFaults (Core.runFrom s₀ i₀ ins n) (ins n)
      else Waits (Core.runFrom s₀ i₀ ins n) (ins n)) := by
  have hasm := (assembled s₀ i₀ ins n).2 hv
  refine ⟨hasm, ?_⟩
  rintro ⟨a, ha, hden⟩
  have hlen : (Core.runFrom s₀ i₀ ins n).f.fxLen = 2#3 ∨
      (Core.runFrom s₀ i₀ ins n).f.fxLen = 4#3 := by
    rcases hasm with ⟨m, -, -, -, hlen, -⟩ | ⟨l, m, -, -, -, -, -, hlen, -⟩
    · rw [hlen]
      unfold FStage.fetchedLen
      split
      · exact Or.inr rfl
      · exact Or.inl rfl
    · exact Or.inr hlen
  have hpc := fetchFault_of_denied hlen hck ha hden
  have hdbg : (Core.runFrom s₀ i₀ ins n).dbg.dbgMode = false := by
    by_contra h
    rw [Bool.not_eq_false] at h
    exact absurd hv (by simp [(Core.halted_empty s₀ i₀ ins n h).1])
  split
  case isTrue hl => exact onlyFaults_of_leaves hP hdbg hl hck hpc
  case isFalse hl =>
    exact waits_of_not_leaves hdbg (by simpa using hl) hv (ebreakToDebug_eq_false hck hpc)

/-- MRET to User mode at address 0, where no rule permits a fetch. -/
def deniedFetch : Memory := { imem := .ofWords [0x30200073#32], dmem := fun _ => 0#8 }

/-- At clock 3 the MRET itself is in X in User mode and only faults. -/
theorem fetch_isolation_deniedFetch :
    OnlyFaults (deniedFetch.bench { secure := true } {} 3)
      (deniedFetch.inputs { secure := true } {} 3) := by
  have h := fetch_isolation (P := { secure := true }) rfl (Core.powerUp _) (deniedFetch.resetIn { secure := true } {})
    (deniedFetch.inputs { secure := true } {}) 3
  rw [Memory.runFrom_inputs] at h
  have h' := (h (by decide +kernel) (by decide +kernel)).2
    ⟨0#32, ⟨0, by decide +kernel, by decide +kernel⟩, by decide +kernel⟩
  rw [if_pos (by decide +kernel)] at h'
  exact h'

/-- A program that locks bytes 64..67 without permissions and runs into an
instruction at 62. -/
def straddleIntoLocked : Memory where
  imem := .ofWords
    [0x01000093#32,   -- addi x1, x0, 16
     0x3B009073#32,   -- csrrw x0, pmpaddr0, x1
     0x09000093#32,   -- addi x1, x0, 0x90
     0x3A009073#32,   -- csrrw x0, pmpcfg0, x1
     0x02E0006F#32,   -- jal x0, 62
     0#32, 0#32, 0#32, 0#32, 0#32, 0#32, 0#32, 0#32, 0#32, 0#32,
     0x01130000#32,   -- addi x2, x0, 1 at 62
     0x00000010#32]
  dmem := fun _ => 0#8

/-- The second word of a straddling instruction is not checked: at clock 8 the
ADDI at 62 is in X, byte 64 is denied, and there is no trap. -/
theorem second_word_unchecked :
    ¬ ∀ (s₀ : Core { secure := true }) (i₀ : CoreIn) (ins : Nat → CoreIn) (n : Nat),
      (Core.runFrom s₀ i₀ ins n).f.fxValid = true →
      (∃ a, Encodes ((Core.runFrom s₀ i₀ ins n).xIn (ins n)) a ∧
        ¬ Executable ((Core.runFrom s₀ i₀ ins n).xIn (ins n)) a) →
      if ((Core.runFrom s₀ i₀ ins n).xIn (ins n)).leaves then
        OnlyFaults (Core.runFrom s₀ i₀ ins n) (ins n)
      else Waits (Core.runFrom s₀ i₀ ins n) (ins n) := by
  intro h
  have h' := h (Core.powerUp _) (straddleIntoLocked.resetIn { secure := true } {})
    (straddleIntoLocked.inputs { secure := true } {}) 8
  rw [Memory.runFrom_inputs] at h'
  have hbad := h' (by decide +kernel)
    ⟨64#32, ⟨2, by decide +kernel, by decide +kernel⟩, by decide +kernel⟩
  rw [if_pos (by decide +kernel)] at hbad
  have hno : ((straddleIntoLocked.bench { secure := true } {} 8).xIn
      (straddleIntoLocked.inputs { secure := true } {} 8)).exTrap { secure := true } = false := by
    decide +kernel
  exact absurd hbad.cause.1 (by rw [hno]; exact Bool.false_ne_true)

end ThreeSippEs.FetchIsolation
