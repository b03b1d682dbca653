import ThreeSippEs.Core.System

/-!
# Interrupts and control flow

An interrupt is taken on an instruction that leaves X, and not on every one: jumps,
branches, CSR instructions and trap returns are passed over, so that its return
address is the next sequential one. A program made of these alone keeps a pending
interrupt waiting.

- `Waiting`: an enabled interrupt is pending, and neither it nor a trap is taken;
- `passedOver_of_waiting`: what leaves X meanwhile;
- `LeftBefore`, `LeftInHalt`: the two exceptions, the instruction that is in W when the
  interrupt comes and the one that leaves X while the hart is being halted;
- `waiting_retires`: what retires in a window of such clocks;
- `self_loop_starves`: a one-instruction loop does so without end.
-/

namespace ThreeSippEs.Starvation

open Clocked

variable {P : Params}

/-- The instructions that `take_irq` passes over. -/
def passedOver (P : Params) (instr : Word) : Bool :=
  (decode instr).isMret || (P.secure && instr == 0x00200073#32) || (decode instr).isCsr ||
    (decode instr).isJal || (decode instr).isJalr || (decode instr).isBranch

/-- Outside Debug Mode an interrupt is requested, and neither it nor a trap is
taken. -/
def Waiting (s : Core P) (i : CoreIn) : Prop :=
  s.dbg.dbgMode = false ∧ (s.xIn i).irqReq = true ∧ (s.xIn i).takeIrq P = false ∧
    ((s.xIn i).leaves && (s.xIn i).exTrap P) = false

instance (s : Core P) (i : CoreIn) : Decidable (Waiting s i) := by
  unfold Waiting
  infer_instance

/-! ## One clock -/

section Step

variable {s : Core P} {i : CoreIn}

/-- What leaves X while an interrupt waits is passed over, unless a halt is under
way. -/
theorem passedOver_of_waiting (h : Waiting s i) (hl : (s.xIn i).leaves = true) :
    s.dbgFreeze i = true ∨ passedOver P s.f.fxInstr = true := by
  obtain ⟨-, hreq, htake, htrap⟩ := h
  rw [hl, Bool.true_and] at htrap
  obtain ⟨hv, hfz⟩ := XIn.leaves_iff.mp hl
  cases hf : s.dbgFreeze i with
  | true => exact .inl rfl
  | false =>
    right
    by_contra hno
    rw [Bool.not_eq_true] at hno
    unfold passedOver at hno
    simp only [Bool.or_eq_false_iff] at hno
    obtain ⟨⟨⟨⟨⟨hmret, huret⟩, hcsr⟩, hjal⟩, hjalr⟩, hbr⟩ := hno
    have ht : (s.xIn i).TakesIrq P :=
      ⟨hv, hfz, hreq, htrap, hf, hmret, huret, hcsr, hjal, hjalr, hbr⟩
    exact Bool.false_ne_true (htake.symm.trans (XIn.takeIrq_iff.mpr ht))

/-- A halt under way goes on until Debug Mode. -/
theorem dbgFreeze_step (hm : s.dbg.dbgMode = false) (hf : s.dbgFreeze i = true)
    (hm' : (s.step i).dbg.dbgMode = false) (i' : CoreIn) : (s.step i).dbgFreeze i' = true := by
  have hdrain : (s.dbg.haltReq && s.pipeDrained) = false := by
    by_contra hdrain
    rw [Bool.not_eq_false, Bool.and_eq_true] at hdrain
    rw [Core.dbg_enters hm hdrain.1 hdrain.2] at hm'
    exact absurd hm' (by simp)
  have hreq : (s.step i).dbg.haltReq = true := by
    rw [Core.dbg_stays hm hdrain]
    show (s.dbg.haltReq || i.dbgHaltreq || s.ebreakToDebug || s.stepHaltNow) = true
    unfold Core.dbgFreeze at hf
    rw [hm] at hf
    simpa using hf
  unfold Core.dbgFreeze
  rw [hreq]
  simp

end Step

/-! ## Windows of clocks -/

section Window

variable {s₀ : Core P} {i₀ : CoreIn} {ins : Nat → CoreIn} {a b m k : Nat}

/-- The instruction in W at clock `k` retires there. -/
abbrev retires (s₀ : Core P) (i₀ : CoreIn) (ins : Nat → CoreIn) (k : Nat) : Bool :=
  (Core.runFrom s₀ i₀ ins k).w.retireValid

theorem retires_iff : retires s₀ i₀ ins k = true ↔
    (Core.runFrom s₀ i₀ ins k).w.xwValid = true ∧
      (Core.runFrom s₀ i₀ ins k).w.memBeatStall = false := by
  exact WStage.retireValid_iff _

/-- An instruction in its second beat was in its first the clock before. -/
theorem stalls_before (h : (Core.runFrom s₀ i₀ ins (k + 1)).w.beat2 = true) :
    retires s₀ i₀ ins k = false := by
  have hbeat : (Core.runFrom s₀ i₀ ins (k + 1)).w.beat2 =
      (Core.runFrom s₀ i₀ ins k).w.memBeatStall := rfl
  rw [hbeat] at h
  unfold retires WStage.retireValid
  rw [h]
  exact Bool.and_false _

/-- What left X before the window is the first to retire in it. -/
theorem first_of_issued (hissued : Core.Issued s₀ i₀ ins m k) (hm : m < a) :
    ∀ j, a ≤ j → j < k → retires s₀ i₀ ins j = false := by
  intro j haj hjk
  have hbeat := hissued.beat
  cases hb : (Core.runFrom s₀ i₀ ins k).w.beat2 with
  | false =>
    rw [hb, if_neg Bool.false_ne_true] at hbeat
    omega
  | true =>
    rw [hb, if_pos rfl] at hbeat
    obtain rfl : k = j + 1 := by omega
    exact stalls_before hb

/-- Once a halt is under way nothing is in X, as long as Debug Mode is not entered. -/
theorem empty_of_dbgFreeze
    (hm : ∀ j, m ≤ j → j < b → (Core.runFrom s₀ i₀ ins j).dbg.dbgMode = false)
    (hf : (Core.runFrom s₀ i₀ ins m).dbgFreeze (ins m) = true) :
    ∀ d, m + d < b → (Core.runFrom s₀ i₀ ins (m + d)).dbgFreeze (ins (m + d)) = true ∧
      (d ≠ 0 → (Core.runFrom s₀ i₀ ins (m + d)).f.fxValid = false) := by
  intro d
  induction d with
  | zero => exact fun _ => ⟨hf, fun h => absurd rfl h⟩
  | succ d ih =>
    intro hd
    obtain ⟨hfd, -⟩ := ih (by omega)
    refine ⟨?_, fun _ => Core.fxValid_of_dbgFreeze _ _ hfd⟩
    exact dbgFreeze_step (hm (m + d) (by omega) (by omega)) hfd (hm (m + (d + 1)) (by omega) hd) _

/-- What leaves X while a halt is under way is the last to retire outside Debug
Mode. -/
theorem last_of_dbgFreeze (hissued : Core.Issued s₀ i₀ ins m k)
    (hk : retires s₀ i₀ ins k = true)
    (hm : ∀ j, m ≤ j → j < b → (Core.runFrom s₀ i₀ ins j).dbg.dbgMode = false)
    (hf : (Core.runFrom s₀ i₀ ins m).dbgFreeze (ins m) = true) :
    ∀ j, k < j → j < b → retires s₀ i₀ ins j = false := by
  intro j hkj hjb
  by_contra hj
  rw [Bool.not_eq_false] at hj
  obtain ⟨m', hissued'⟩ := Core.issued s₀ i₀ ins j (retires_iff.mp hj).1
  have hbeat := hissued.beat
  have hbeat' := hissued'.beat
  -- it left X later, when X was empty
  have hlater : m < m' := by
    cases hb : (Core.runFrom s₀ i₀ ins k).w.beat2 <;>
      cases hb' : (Core.runFrom s₀ i₀ ins j).w.beat2 <;>
      rw [hb] at hbeat <;> rw [hb'] at hbeat'
    · rw [if_neg Bool.false_ne_true] at hbeat hbeat'
      omega
    · rw [if_neg Bool.false_ne_true] at hbeat
      rw [if_pos rfl] at hbeat'
      by_contra hle
      obtain rfl : j = k + 1 := by omega
      exact absurd (hk.symm.trans (stalls_before hb')) (by simp)
    · rw [if_pos rfl] at hbeat
      rw [if_neg Bool.false_ne_true] at hbeat'
      omega
    · rw [if_pos rfl] at hbeat hbeat'
      omega
  obtain ⟨d, rfl⟩ := Nat.exists_eq_add_of_lt hlater
  have hmb : m + (d + 1) < b := by
    split at hbeat' <;> omega
  have hempty := (empty_of_dbgFreeze hm hf (d + 1) hmb).2 (Nat.succ_ne_zero d)
  have hcommit := hissued'.commit
  unfold Core.xCommit at hcommit
  rw [show m + d + 1 = m + (d + 1) from rfl, hempty] at hcommit
  exact absurd hcommit (by simp)

/-- The instruction that retires at clock `k` was in W before the window from `a` on, and
is the first to retire there. -/
structure LeftBefore (s₀ : Core P) (i₀ : CoreIn) (ins : Nat → CoreIn) (a k : Nat) : Prop where
  issued : ∃ m < a, Core.Issued s₀ i₀ ins m k
  inW : (Core.runFrom s₀ i₀ ins a).w.xwValid = true ∧
    (Core.runFrom s₀ i₀ ins a).w.xw = (Core.runFrom s₀ i₀ ins k).w.xw
  first : ∀ j, a ≤ j → j < k → retires s₀ i₀ ins j = false

/-- The instruction that retires at clock `k` left X in the window, in a clock in which a
halt was under way, and is the last to retire before `b`. -/
structure LeftInHalt (s₀ : Core P) (i₀ : CoreIn) (ins : Nat → CoreIn) (a b k : Nat) : Prop where
  issued : ∃ m, a ≤ m ∧ Core.Issued s₀ i₀ ins m k ∧
    (Core.runFrom s₀ i₀ ins m).dbgFreeze (ins m) = true
  last : ∀ j, k < j → j < b → retires s₀ i₀ ins j = false

/-- What left X before the window and retires in it was in W all the time. -/
theorem leftBefore_of_issued (hissued : Core.Issued s₀ i₀ ins m k) (hm : m < a) (hak : a ≤ k)
    (hk : retires s₀ i₀ ins k = true) : LeftBefore s₀ i₀ ins a k := by
  refine ⟨⟨m, hm, hissued⟩, ?_, first_of_issued hissued hm⟩
  have hbeat := hissued.beat
  cases hb : (Core.runFrom s₀ i₀ ins k).w.beat2 with
  | false =>
    rw [hb, if_neg Bool.false_ne_true] at hbeat
    obtain rfl : a = k := by omega
    exact ⟨(retires_iff.mp hk).1, rfl⟩
  | true =>
    rw [hb, if_pos rfl] at hbeat
    rcases (by omega : a = k ∨ k = a + 1) with rfl | rfl
    · exact ⟨(retires_iff.mp hk).1, rfl⟩
    · -- the window begins with its first beat
      have hstall : (Core.runFrom s₀ i₀ ins a).w.memBeatStall = true := hb
      obtain ⟨-, hxw, -⟩ := WStage.step_of_stall _ hstall (ins a).dmemRdata
        (Core.runFrom s₀ i₀ ins a).xCommit (((Core.runFrom s₀ i₀ ins a).xIn (ins a)).xwNext P)
      exact ⟨WStage.xwValid_of_memBeatStall _ hstall, hxw.symm⟩

end Window

/-- **What retires while an interrupt waits**: in a window of clocks in each of which
an interrupt is requested and neither it nor a trap is taken, every instruction that
retires is one that is passed over, but for a first one that was in W already and a last
one that left X while a halt was under way. -/
theorem waiting_retires (s₀ : Core P) (i₀ : CoreIn) (ins : Nat → CoreIn) (a b : Nat)
    (hwait : ∀ j, a ≤ j → j < b → Waiting (Core.runFrom s₀ i₀ ins j) (ins j)) (k : Nat)
    (hak : a ≤ k) (hkb : k < b) (hk : retires s₀ i₀ ins k = true) :
    passedOver P (Core.runFrom s₀ i₀ ins k).w.xw.instr = true ∨
      LeftBefore s₀ i₀ ins a k ∨ LeftInHalt s₀ i₀ ins a b k := by
  obtain ⟨m, hissued⟩ := Core.issued s₀ i₀ ins k (retires_iff.mp hk).1
  by_cases hm : m < a
  · exact .inr (.inl (leftBefore_of_issued hissued hm hak hk))
  · rw [Nat.not_lt] at hm
    have hmb : m < b := by
      have hbeat := hissued.beat
      omega
    have hleaves : ((Core.runFrom s₀ i₀ ins m).xIn (ins m)).leaves = true := by
      have hcommit := hissued.commit
      unfold Core.xCommit at hcommit
      simp only [Bool.and_eq_true] at hcommit
      exact XIn.leaves_iff.mpr ⟨hcommit.1.1, hissued.leaves⟩
    rcases passedOver_of_waiting (hwait m hm hmb) hleaves with hf | hpass
    · refine .inr (.inr ⟨⟨m, hm, hissued, hf⟩, last_of_dbgFreeze hissued hk (fun j hmj hjb => ?_) hf⟩)
      exact (hwait j (hm.trans hmj) hjb).1
    · left
      rw [hissued.xw]
      exact hpass

/-- A program that enables the software interrupt and jumps to itself. -/
def selfLoop : Memory where
  imem := .ofWords
    [0x30445073#32,   -- csrrwi x0, mie, 8
     0x30045073#32,   -- csrrwi x0, mstatus, 8
     0x0000006F#32]   -- jal x0, 0
  dmem := fun _ => 0#8

/-- In the clocks 6..9 of the loop the jump retires. -/
theorem waiting_retires_self_loop :
    passedOver {} (selfLoop.bench {} { irq := { soft := true } } 8).w.xw.instr = true := by
  have h := waiting_retires (Core.powerUp {}) (selfLoop.resetIn {} { irq := { soft := true } })
    (selfLoop.inputs {} { irq := { soft := true } }) 6 10
  simp only [Memory.runFrom_inputs, retires] at h
  have hall : ∀ j < 10, 6 ≤ j → Waiting (selfLoop.bench {} { irq := { soft := true } } j)
      (selfLoop.inputs {} { irq := { soft := true } } j) := by decide +kernel
  rcases h (fun j hj hjb => hall j hjb hj) 8 (by decide) (by decide) (by decide +kernel) with
    h | h | h
  · exact h
  · have hfirst := h.first 7 (by decide) (by decide)
    rw [retires, Memory.runFrom_inputs] at hfirst
    exact absurd hfirst (by decide +kernel)
  · have hlast := h.last 9 (by decide) (by decide)
    rw [retires, Memory.runFrom_inputs] at hlast
    exact absurd hlast (by decide +kernel)

/-- In each of the clocks 6..69 of the loop an interrupt waits and a jump retires. -/
theorem self_loop_starves :
    ¬ ∀ (s₀ : Core {}) (i₀ : CoreIn) (ins : Nat → CoreIn) (a b : Nat),
      (∀ j < b, Waiting (Core.runFrom s₀ i₀ ins (a + j)) (ins (a + j))) →
      (List.range b).countP (fun j => retires s₀ i₀ ins (a + j)) < 64 := by
  intro h
  have h' := h (Core.powerUp _) (selfLoop.resetIn {} { irq := { soft := true } })
    (selfLoop.inputs {} { irq := { soft := true } }) 6 64
  simp only [retires, Memory.runFrom_inputs] at h'
  have hall : ∀ j < 64, Waiting (selfLoop.bench {} { irq := { soft := true } } (6 + j))
        (selfLoop.inputs {} { irq := { soft := true } } (6 + j)) ∧
      (selfLoop.bench {} { irq := { soft := true } } (6 + j)).w.retireValid = true := by
    decide +kernel
  have hcount := h' fun j hj => (hall j hj).1
  rw [List.countP_eq_length.mpr fun j hj => (hall j (List.mem_range.mp hj)).2,
    List.length_range] at hcount
  exact absurd hcount (by decide)

end ThreeSippEs.Starvation
