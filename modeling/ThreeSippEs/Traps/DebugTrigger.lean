import ThreeSippEs.Core.System
import ThreeSippEs.Traps.Delivery

/-!
# Triggers that enter Debug Mode

A trigger with action 1 cancels the exception of the instruction it fires on and
leaves the rest to the debug controller. The controller does not look at the
trigger: only an EBREAK with `dcsr.ebreakm` halts, whether a trigger fires or not.
Nor does the match loop look at the accesses of atomics.

- `Trig.matchAll_fires`, `Trig.matchAll_action`: the match loop fires when
  some slot compares equal, with the action of one that does;
- `matched`: a debug-action slot matches the PC or an access of the instruction;
- `Halts`: what a debug-action trigger owes to the instruction it matches;
- `debug_trigger_iff`: when it is given.
-/

namespace ThreeSippEs

variable {P : Params}

/-! ## The match loop -/

namespace Trig

variable (t : Trig) (pc addr : Word) (re we : Bool)

/-- Slot `g` is enabled and matches the instruction at `pc`, or its access at
`addr`, a read (`re`), a write (`we`) or both. -/
def slotMatches (g : BitVec 1) : Bool :=
  slotEn (t.tdata1 g) &&
    ((slotExec (t.tdata1 g) && pc == t.tdata2 g) ||
      (((slotLoad (t.tdata1 g) && re) || (slotStore (t.tdata1 g) && we)) && addr == t.tdata2 g))

/-- A slot with the debug action matches. -/
def debugMatches : Bool :=
  (t.slotMatches pc addr re we 0#1 && slotAction (t.tdata1 0#1)) ||
    (t.slotMatches pc addr re we 1#1 && slotAction (t.tdata1 1#1))

variable {t pc addr re we}

/-- A slot goes on matching what makes the same accesses and more. -/
theorem slotMatches_mono {addr' : Word} {re' we' : Bool} {g : BitVec 1}
    (hre : re = true → re' = true ∧ addr' = addr) (hwe : we = true → we' = true ∧ addr' = addr)
    (h : t.slotMatches pc addr re we g = true) : t.slotMatches pc addr' re' we' g = true := by
  unfold slotMatches at h ⊢
  simp only [Bool.and_eq_true, Bool.or_eq_true, beq_iff_eq] at h ⊢
  refine ⟨h.1, h.2.imp_right ?_⟩
  rintro ⟨⟨hslot, hacc⟩ | ⟨hslot, hacc⟩, haddr⟩
  · exact ⟨.inl ⟨hslot, (hre hacc).1⟩, (hre hacc).2.trans haddr⟩
  · exact ⟨.inr ⟨hslot, (hwe hacc).1⟩, (hwe hacc).2.trans haddr⟩

/-- One round of the loop: the first slot that matches decides. -/
theorem matchSlot_fires (acc : Match) (g : BitVec 1) :
    ((t.matchSlot pc addr re we acc g).exec || (t.matchSlot pc addr re we acc g).ldst) =
      (acc.exec || acc.ldst || t.slotMatches pc addr re we g) ∧
    (t.matchSlot pc addr re we acc g).action =
      if acc.exec || acc.ldst then acc.action
      else if t.slotMatches pc addr re we g then slotAction (t.tdata1 g) else acc.action := by
  rw [matchSlot, slotMatches]
  cases slotEn (t.tdata1 g) with
  | false =>
    rw [if_neg Bool.false_ne_true, Bool.false_and, Bool.or_false, if_neg Bool.false_ne_true,
      ite_self]
    exact ⟨rfl, rfl⟩
  | true =>
    rw [if_pos rfl, Bool.true_and]
    cases (slotExec (t.tdata1 g) && pc == t.tdata2 g) <;>
      cases (((slotLoad (t.tdata1 g) && re) || (slotStore (t.tdata1 g) && we)) &&
        addr == t.tdata2 g) <;>
      cases hx : acc.exec <;> cases hl : acc.ldst <;> simp [hx, hl]

/-- The loop fires when a slot matches. -/
theorem matchAll_fires :
    ((t.matchAll pc addr re we).exec || (t.matchAll pc addr re we).ldst) =
      (t.slotMatches pc addr re we 0#1 || t.slotMatches pc addr re we 1#1) := by
  unfold matchAll
  rw [(matchSlot_fires _ _).1, (matchSlot_fires _ _).1]
  rfl

/-- It takes the action of the first slot that matches. -/
theorem matchAll_action :
    (t.matchAll pc addr re we).action =
      if t.slotMatches pc addr re we 0#1 then slotAction (t.tdata1 0#1)
      else t.slotMatches pc addr re we 1#1 && slotAction (t.tdata1 1#1) := by
  unfold matchAll
  rw [(matchSlot_fires _ _).2, (matchSlot_fires _ _).1, (matchSlot_fires _ _).2]
  cases t.slotMatches pc addr re we 0#1 <;> cases t.slotMatches pc addr re we 1#1 <;> rfl

/-- When the loop ends with the debug action, a slot with that action matches. -/
theorem debugMatches_of_action (h : (t.matchAll pc addr re we).action = true) :
    t.debugMatches pc addr re we = true := by
  rw [matchAll_action] at h
  unfold debugMatches
  cases h0 : t.slotMatches pc addr re we 0#1 with
  | true =>
    rw [h0, if_pos rfl] at h
    rw [h]
    rfl
  | false =>
    rw [h0, if_neg Bool.false_ne_true] at h
    rw [h]
    exact Bool.or_true _

/-- Slot 0 matches with the breakpoint action, and so hides slot 1. -/
def breakFirst (t : Trig) (pc addr : Word) (re we : Bool) : Bool :=
  t.slotMatches pc addr re we 0#1 && !slotAction (t.tdata1 0#1)

/-- Where a slot with the debug action matches, the loop ends with that action
unless a breakpoint slot comes first. -/
theorem action_of_debugMatches (h : t.debugMatches pc addr re we = true) :
    (t.matchAll pc addr re we).action = !t.breakFirst pc addr re we := by
  rw [matchAll_action]
  unfold debugMatches at h
  unfold breakFirst
  cases h0 : t.slotMatches pc addr re we 0#1 with
  | true =>
    rw [if_pos rfl, Bool.true_and, Bool.not_not]
  | false =>
    rw [h0, Bool.false_and, Bool.false_or] at h
    rw [if_neg Bool.false_ne_true, h, Bool.false_and, Bool.not_false]

/-- When a slot with the debug action matches, the loop fires. -/
theorem fires_of_debugMatches (h : t.debugMatches pc addr re we = true) :
    ((t.matchAll pc addr re we).exec || (t.matchAll pc addr re we).ldst) = true := by
  unfold debugMatches at h
  simp only [Bool.or_eq_true, Bool.and_eq_true] at h
  rw [matchAll_fires, Bool.or_eq_true]
  exact h.imp And.left And.left

end Trig

namespace DebugTrigger

open Clocked

/-- A debug-action slot matches the instruction in X: its PC, or the address that it
reads or writes. LR and AMO read, SC and AMO write. -/
def matched (x : XIn) : Bool :=
  x.fxValid && x.trig.debugMatches x.fxPc x.lsAddr x.lsRe x.lsWe

/-- The instruction in X at clock `n` enters Debug Mode instead of executing:
it is gone without an effect, and the next thing that happens is Debug Mode with
its address in `dpc`. -/
structure Halts (s₀ : Core P) (i₀ : CoreIn) (ins : Nat → CoreIn) (n : Nat) : Prop where
  commit : (Core.runFrom s₀ i₀ ins n).xCommit = false
  trap : (Core.runFrom s₀ i₀ ins n).exFreeze = false →
    ((Core.runFrom s₀ i₀ ins n).xIn (ins n)).exTrap P = false
  /-- the CSR files, the counters and the hit bits apart -/
  csr : (Core.runFrom s₀ i₀ ins (n + 1)).csr =
    { (Core.runFrom s₀ i₀ ins n).csr with ctr := (Core.runFrom s₀ i₀ ins (n + 1)).csr.ctr }
  ucsr : (Core.runFrom s₀ i₀ ins (n + 1)).ucsr = (Core.runFrom s₀ i₀ ins n).ucsr
  trig : { (Core.runFrom s₀ i₀ ins (n + 1)).trig with
      trigHit0 := (Core.runFrom s₀ i₀ ins n).trig.trigHit0 } = (Core.runFrom s₀ i₀ ins n).trig
  enters : ∃ m, n < m ∧ (Core.runFrom s₀ i₀ ins m).dbg.dbgMode = true ∧
    (Core.runFrom s₀ i₀ ins m).dbg.dpc = (Core.runFrom s₀ i₀ ins n).f.fxPc ∧
    ∀ k, n < k → k ≤ m → (Core.runFrom s₀ i₀ ins k).f.fxValid = false

/-- The instruction in X leaves it as if it had not raised an exception. -/
def completes (s : Core P) (i : CoreIn) : Bool :=
  s.xCommit && !s.exFreeze && !(s.xIn i).exTrap P

/-- What the triggers owe: a debug-action match halts, and no exception is lost. -/
def Obeys (s₀ : Core P) (i₀ : CoreIn) (ins : Nat → CoreIn) (n : Nat) : Prop :=
  (matched ((Core.runFrom s₀ i₀ ins n).xIn (ins n)) = true → Halts s₀ i₀ ins n) ∧
  (((Core.runFrom s₀ i₀ ins n).xIn (ins n)).archTrap P = true →
    completes (Core.runFrom s₀ i₀ ins n) (ins n) = false)

/-- A debug-action match meets nothing but an EBREAK that halts by itself, and
no breakpoint slot comes first. -/
def HaltsAnyway (s : Core P) (i : CoreIn) : Prop :=
  matched (s.xIn i) = true →
    s.ebreakToDebug = true ∧
      s.trig.breakFirst s.f.fxPc (s.xIn i).lsAddr (s.xIn i).lsRe (s.xIn i).lsWe = false

/-- Off the atomics the loop compares the accesses that are made. -/
theorem access_of_not_amo {x : XIn} (h : x.amoValid = false) :
    x.lsAddr = x.aluY ∧ x.lsRe = x.dec.memRe ∧ x.lsWe = x.dec.memWe := by
  unfold XIn.lsAddr XIn.lsRe XIn.lsWe
  rw [h, Bool.false_and, Bool.false_and, Bool.or_false, Bool.or_false]
  exact ⟨if_neg Bool.false_ne_true, rfl, rfl⟩

/-- What the loop compares equal is a match. -/
theorem debugMatches_of_loop {x : XIn}
    (h : x.trig.debugMatches x.fxPc x.aluY x.dec.memRe x.dec.memWe = true) :
    x.trig.debugMatches x.fxPc x.lsAddr x.lsRe x.lsWe = true := by
  have hslot : ∀ g, x.trig.slotMatches x.fxPc x.aluY x.dec.memRe x.dec.memWe g = true →
      x.trig.slotMatches x.fxPc x.lsAddr x.lsRe x.lsWe g = true := by
    intro g
    refine Trig.slotMatches_mono (fun hre => ?_) (fun hwe => ?_)
    · obtain ⟨haddr, hread, -⟩ := access_of_not_amo (XIn.amoValid_eq_false (.inl hre))
      exact ⟨hread.trans hre, haddr⟩
    · obtain ⟨haddr, -, hwrite⟩ := access_of_not_amo (XIn.amoValid_eq_false (.inr hwe))
      exact ⟨hwrite.trans hwe, haddr⟩
  unfold Trig.debugMatches at h ⊢
  simp only [Bool.or_eq_true, Bool.and_eq_true] at h ⊢
  exact h.imp (And.imp_left (hslot _)) (And.imp_left (hslot _))

section Step

variable {s : Core P} {i : CoreIn}

theorem trigMatch_eq (hv : s.f.fxValid = true) (hfz : s.exFreeze = false)
    (hm : s.dbg.dbgMode = false) :
    (s.xIn i).trigMatch = s.trig.matchAll s.f.fxPc (s.xIn i).aluY (s.xIn i).dec.memRe
      (s.xIn i).dec.memWe := by
  unfold XIn.trigMatch XIn.trigChkValid
  rw [show (s.xIn i).fxValid = true from hv, show (s.xIn i).exFreeze = false from hfz,
    show (s.xIn i).dbgMode = false from hm]
  rfl

/-- The debug action comes from a slot that matches. -/
theorem matched_of_trigToDebug (hm : s.dbg.dbgMode = false)
    (h : (s.xIn i).trigToDebug = true) : matched (s.xIn i) = true := by
  unfold XIn.trigToDebug at h
  rw [Bool.and_eq_true] at h
  obtain ⟨hv, hfz⟩ := XIn.trigFire_valid h.1
  rw [trigMatch_eq hv hfz hm] at h
  unfold matched
  rw [hv]
  exact debugMatches_of_loop (Trig.debugMatches_of_action h.2)

/-- A halting EBREAK is no atomic. -/
theorem not_amo_of_ebreakToDebug (h : s.ebreakToDebug = true) : (s.xIn i).amoValid = false := by
  unfold Core.ebreakToDebug at h
  simp only [Bool.and_eq_true, beq_iff_eq] at h
  have hx : (s.xIn i).fxInstr = 0x00100073#32 := h.1.1.2
  by_contra hamo
  rw [Bool.not_eq_false] at hamo
  have hop := XIn.isAmo_of_amoValid hamo
  unfold XIn.isAmo at hop
  rw [hx, Bool.and_eq_true] at hop
  exact absurd hop.1 (by decide)

/-- The loop compares a matched EBREAK equal, with the debug action unless a
breakpoint slot comes first. -/
theorem trig_of_ebreak (hm : s.dbg.dbgMode = false) (hfz : s.exFreeze = false)
    (hebr : s.ebreakToDebug = true) (h : matched (s.xIn i) = true) :
    (s.xIn i).trigFire = true ∧ (s.xIn i).trigToDebug =
      !s.trig.breakFirst s.f.fxPc (s.xIn i).lsAddr (s.xIn i).lsRe (s.xIn i).lsWe := by
  obtain ⟨haddr, hre, hwe⟩ := access_of_not_amo (not_amo_of_ebreakToDebug (i := i) hebr)
  unfold matched at h
  rw [Bool.and_eq_true, haddr, hre, hwe] at h
  have hfire : (s.xIn i).trigFire = true := by
    unfold XIn.trigFire
    rw [trigMatch_eq h.1 hfz hm]
    exact Trig.fires_of_debugMatches h.2
  refine ⟨hfire, ?_⟩
  unfold XIn.trigToDebug
  rw [hfire, Bool.true_and, trigMatch_eq h.1 hfz hm, haddr, hre, hwe]
  exact Trig.action_of_debugMatches h.2

/-- An EBREAK that halts is none of the instructions with an effect of their own. -/
theorem dec_of_ebreakToDebug (h : s.ebreakToDebug = true) :
    s.f.fxValid = true ∧ (s.xIn i).dec.isMret = false ∧ (s.xIn i).dec.isCsr = false ∧
    (s.xIn i).isUret P = false := by
  unfold Core.ebreakToDebug at h
  simp only [Bool.and_eq_true, beq_iff_eq] at h
  obtain ⟨⟨⟨hv, hinstr⟩, -⟩, -⟩ := h
  have hx : (s.xIn i).fxInstr = 0x00100073#32 := hinstr
  refine ⟨hv, ?_, ?_, ?_⟩
  · unfold XIn.dec
    rw [hx]
    decide
  · unfold XIn.dec
    rw [hx]
    decide
  · unfold XIn.isUret
    rw [hx]
    exact Bool.and_false _

/-- The CSR files when an EBREAK halts and no exception is taken. -/
theorem csr_step_of_ebreak (h : s.ebreakToDebug = true)
    (htrap : s.exFreeze = false → (s.xIn i).exTrap P = false) (hm : s.dbg.dbgMode = false) :
    (s.step i).csr = { s.csr with ctr := (s.step i).csr.ctr } ∧ (s.step i).ucsr = s.ucsr ∧
    { (s.step i).trig with trigHit0 := s.trig.trigHit0 } = s.trig := by
  obtain ⟨hv, hmret, hcsr, huret⟩ := dec_of_ebreakToDebug (i := i) h
  have hfreeze : s.dbgFreeze i = true := by
    unfold Core.dbgFreeze
    rw [h]
    simp
  have htaken : ((s.xIn i).exTrap P && !(s.xIn i).exFreeze) = false := by
    cases hfz : s.exFreeze with
    | true => rw [show (s.xIn i).exFreeze = true from hfz, Bool.not_true, Bool.and_false]
    | false => rw [htrap hfz, Bool.false_and]
  have hirq : (s.xIn i).takeIrq P = false :=
    XIn.takeIrq_eq_false_iff.mpr fun ht => Bool.false_ne_true (ht.dbgFreeze.symm.trans hfreeze)
  have hdeleg : (s.xIn i).delegTrap P = false := by
    by_contra hd
    rw [Bool.not_eq_false] at hd
    obtain ⟨-, -, ht, hfz, -⟩ := XIn.delegTrap_iff.mp hd
    rw [ht, hfz] at htaken
    exact absurd htaken (by decide)
  have hwe : (s.xIn i).csrWeEff P = false := by
    unfold XIn.csrWeEff XIn.csrDoWrite
    rw [show (s.xIn i).dbgMode = false from hm, hcsr]
    simp
  refine ⟨?_, ?_, ?_⟩
  · have hset : ((s.xIn i).csrIn P s.w.retireValid).trapSet = false := by
      show (((s.xIn i).exTrap P && !(s.xIn i).exFreeze && !(s.xIn i).delegTrap P) ||
        (s.xIn i).takeIrq P) = false
      rw [htaken, hirq]
      rfl
    have hret : ((s.xIn i).csrIn P s.w.retireValid).mret = false := by
      show ((s.xIn i).fxValid && (s.xIn i).dec.isMret && _ && _) = false
      rw [hmret]
      simp
    have hno : ((s.xIn i).csrIn P s.w.retireValid).we = false := by
      show ((s.xIn i).csrWeEff P && _ && _) = false
      rw [hwe]
      rfl
    have hstep : (s.step i).csr = s.csr.step P.csr ((s.xIn i).csrIn P s.w.retireValid) := rfl
    rw [hstep]
    unfold Csr.step
    rw [hset, hret, hno]
    rfl
  · show (s.xIn i).ucsrNext P = s.ucsr
    unfold XIn.ucsrNext XIn.ucsrWe
    rw [hdeleg, huret, hwe]
    simp only [Bool.and_false, Bool.false_and, Bool.false_eq_true, if_false, ite_self]
    rfl
  · have htrig : (s.step i).trig =
        if (s.xIn i).trigFire then s.trig.setHits (s.xIn i).trigMatch.fireMask else s.trig := by
      show (s.xIn i).trigNext P = _
      unfold XIn.trigNext XIn.trigCsrWe
      rw [hwe]
      rfl
    rw [htrig]
    split <;> rfl

/-- What a halting EBREAK leaves in the debug registers. -/
theorem dbg_step_of_ebreak (h : s.ebreakToDebug = true) :
    s.dbg.dbgMode = false ∧ (s.step i).dbg.dbgMode = false ∧ (s.step i).dbg.haltReq = true ∧
    (s.step i).dbg.dpcCapValid = true ∧ (s.step i).dbg.dpcCap = s.f.fxPc := by
  have h' := h
  unfold Core.ebreakToDebug at h'
  simp only [Bool.and_eq_true, Bool.not_eq_true'] at h'
  obtain ⟨⟨⟨hv, -⟩, -⟩, hm⟩ := h'
  have hdbg : (s.step i).dbg = s.dbgRunning i := by
    refine Core.dbg_stays hm ?_
    rw [Core.pipeDrained_of_valid (.inl hv), Bool.and_false]
  rw [hdbg]
  refine ⟨hm, hm, ?_, ?_, ?_⟩
  · show (s.dbg.haltReq || i.dbgHaltreq || s.ebreakToDebug || s.stepHaltNow) = true
    rw [h]
    simp
  · show (s.dbg.dpcCapValid || s.ebreakToDebug) = true
    rw [h, Bool.or_true]
  · show (if s.ebreakToDebug then s.f.fxPc else s.dbg.dpcCap) = _
    rw [h, if_pos rfl]

end Step

section Run

variable {s₀ : Core P} {i₀ : CoreIn} {ins : Nat → CoreIn} {n : Nat}

/-- An EBREAK with `dcsr.ebreakm` halts, unless it takes an exception. -/
theorem halts_of_ebreak (h : (Core.runFrom s₀ i₀ ins n).ebreakToDebug = true)
    (htrap : (Core.runFrom s₀ i₀ ins n).exFreeze = false →
      ((Core.runFrom s₀ i₀ ins n).xIn (ins n)).exTrap P = false) : Halts s₀ i₀ ins n := by
  obtain ⟨hm, hm', hreq, hcapv, hcap⟩ := dbg_step_of_ebreak (i := ins n) h
  obtain ⟨hcsr, hucsr, htrig⟩ := csr_step_of_ebreak h htrap hm
  have hfreeze := Core.dbgFreeze_of_ebreakToDebug (i := ins n) h
  have hcommit := Core.xCommit_of_ebreakToDebug h
  refine ⟨hcommit, htrap, hcsr, hucsr, htrig, ?_⟩
  have hv' := Core.fxValid_of_dbgFreeze _ _ hfreeze
  obtain ⟨m, hpos, -, hempty, -, hmode, hdpc, -⟩ :=
    Core.drains (Core.runFrom s₀ i₀ ins (n + 1)) (fun k => ins (n + 1 + k)) hm' hreq hv'
  have hshift : ∀ j, Core.runFrom s₀ i₀ ins (n + 1 + j) =
      run Core.step (Core.runFrom s₀ i₀ ins (n + 1)) (fun k => ins (n + 1 + k)) j :=
    run_add Core.step (s₀.reset i₀) ins (n + 1)
  refine ⟨n + 1 + m, by omega, ?_, ?_, ?_⟩
  · rw [hshift]
    exact hmode
  · have hcapv' : (Core.runFrom s₀ i₀ ins (n + 1)).dbg.dpcCapValid = true := hcapv
    rw [hshift, hdpc, hcapv', if_pos rfl]
    exact hcap
  · intro k hk hkm
    obtain ⟨j, rfl⟩ := Nat.exists_eq_add_of_le (Nat.succ_le_of_lt hk)
    rw [hshift]
    exact hempty j (by omega)

/-- **When debug-action triggers do what they are for**: in every reachable state
outside Debug Mode, if a match meets only an EBREAK that halts by itself; and in
those in which the instruction is about to leave X, only then. -/
theorem debug_trigger_iff (s₀ : Core P) (i₀ : CoreIn) (ins : Nat → CoreIn) (n : Nat)
    (hm : (Core.runFrom s₀ i₀ ins n).dbg.dbgMode = false) :
    (HaltsAnyway (Core.runFrom s₀ i₀ ins n) (ins n) → Obeys s₀ i₀ ins n) ∧
    ((Core.runFrom s₀ i₀ ins n).exFreeze = false →
      (Obeys s₀ i₀ ins n ↔ HaltsAnyway (Core.runFrom s₀ i₀ ins n) (ins n))) := by
  have hif : HaltsAnyway (Core.runFrom s₀ i₀ ins n) (ins n) → Obeys s₀ i₀ ins n := by
    intro h
    refine ⟨fun hmatch => ?_, fun harch => ?_⟩
    · obtain ⟨hebr, hfirst⟩ := h hmatch
      refine halts_of_ebreak hebr fun hfz => ?_
      unfold XIn.exTrap
      rw [(trig_of_ebreak hm hfz hebr hmatch).2, hfirst]
      simp
    · by_contra hc
      rw [Bool.not_eq_false] at hc
      unfold completes at hc
      simp only [Bool.and_eq_true, Bool.not_eq_true'] at hc
      obtain ⟨⟨hcommit, -⟩, htrap⟩ := hc
      -- only the debug action can have cancelled the exception
      have htd : ((Core.runFrom s₀ i₀ ins n).xIn (ins n)).trigToDebug = true := by
        unfold XIn.exTrap at htrap
        rw [harch] at htrap
        simpa using htrap
      have hebr := (h (matched_of_trigToDebug hm htd)).1
      unfold Core.xCommit at hcommit
      rw [hebr] at hcommit
      exact absurd hcommit (by simp)
  refine ⟨hif, fun hfz => ⟨fun h hmatch => ?_, hif⟩⟩
  obtain ⟨hcommit, htrap, -⟩ := h.1 hmatch
  have hv : (Core.runFrom s₀ i₀ ins n).f.fxValid = true := by
    unfold matched at hmatch
    rw [Bool.and_eq_true] at hmatch
    exact hmatch.1
  have hebr : (Core.runFrom s₀ i₀ ins n).ebreakToDebug = true := by
    have hfz' := hfz
    unfold Core.exFreeze at hfz'
    rw [Bool.or_eq_false_iff] at hfz'
    unfold Core.xCommit at hcommit
    rw [hv, hfz'.1] at hcommit
    simpa using hcommit
  refine ⟨hebr, ?_⟩
  -- a match without the debug action would be a breakpoint exception
  obtain ⟨hfire, htd⟩ := trig_of_ebreak hm hfz hebr hmatch
  by_contra hfirst
  rw [Bool.not_eq_false] at hfirst
  rw [hfirst] at htd
  have hexc : ((Core.runFrom s₀ i₀ ins n).xIn (ins n)).trigToExc = true := by
    unfold XIn.trigToDebug at htd
    unfold XIn.trigToExc
    rw [hfire] at htd ⊢
    simpa using htd
  have ht := htrap hfz
  unfold XIn.exTrap at ht
  rw [hexc, htd] at ht
  simp at ht

end Run

/-- A debugger that sets `ebreakm`, arms slot 0 with the debug action on address
0, and lets the hart run; the memory holds EBREAKs. -/
def armed (n : Nat) : CoreIn where
  toExtIn :=
    ([{ dbgHaltreq := true }, {}, {},
      { dbgArValid := true, dbgArWrite := true, dbgArCsr := true, dbgArRegno := 0x7B0#12
        dbgArWdata := 0x8000#32 }, {},
      { dbgArValid := true, dbgArWrite := true, dbgArCsr := true, dbgArRegno := 0x7A1#12
        dbgArWdata := 0x60001044#32 }, {},
      { dbgResumereq := true }] : List ExtIn).getD n {}
  imemRdata := 0x00100073#32
  dmemRdata := 0#32

/-- The EBREAK at clock 9 is matched, and halts. -/
theorem debug_trigger_ebreak :
    matched ((Core.runFrom (Core.powerUp {}) (armed 1) armed 9).xIn (armed 9)) = true ∧
    Obeys (Core.powerUp {}) (armed 1) armed 9 :=
  ⟨by decide +kernel,
    ((debug_trigger_iff (Core.powerUp {}) (armed 1) armed 9 (by decide +kernel)).2
      (by decide +kernel)).mpr fun _ => ⟨by decide +kernel, by decide +kernel⟩⟩

/-- A debug-action trigger on the address of an ECALL. -/
def skippedEcall : Memory where
  imem := .ofWords
    [0x000010B7#32,   -- lui x1, 1
     0x04408093#32,   -- addi x1, x1, 0x44
     0x7A285073#32,   -- csrrwi x0, tdata2, 16
     0x7A109073#32,   -- csrrw x0, tdata1, x1
     0x00000073#32]   -- ecall
  dmem := fun _ => 0#8

/-- At clock 5 the ECALL leaves X as a no-op. -/
theorem debug_trigger_skips_ecall :
    ¬ ∀ (s₀ : Core {}) (i₀ : CoreIn) (ins : Nat → CoreIn) (n : Nat),
      (Core.runFrom s₀ i₀ ins n).dbg.dbgMode = false → Obeys s₀ i₀ ins n := by
  intro h
  have h' := h (Core.powerUp _) (skippedEcall.resetIn {} {}) (skippedEcall.inputs {} {}) 5
  unfold Obeys at h'
  rw [Memory.runFrom_inputs] at h'
  have h'' := (h' (by decide +kernel)).2 (by decide +kernel)
  revert h''
  decide +kernel

end DebugTrigger

end ThreeSippEs
