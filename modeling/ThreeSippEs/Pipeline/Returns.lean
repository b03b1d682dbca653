import ThreeSippEs.Lib.RingStack
import ThreeSippEs.Pipeline.Interrupted

/-!
# Returns

The return address stack is written by what F hands over, and F hands over what X
executes. So it follows the calls and returns of the program, and a return to the newest
of the last eight calls that have not returned costs no redirect.

- `linked`: the calls that have not returned, behind an instruction;
- `Core.Links`: the stack beside them, `Core.Links.step`: one clock;
- `returns_predicted`: such a return is predicted right, in every run without halts.
-/

namespace ThreeSippEs

open Clocked

/-- The link addresses of the calls that have not returned, newest first: no more than the
last eight. -/
def linked (P : Params) (instr link : Word) (links : List Word) : List Word :=
  if Ras.fIsCall P instr then (link :: links).take 8
  else if Ras.fIsRet P instr then links.tail
  else links

/-! ## The ring -/

/-- The stack holds them. -/
structure Ras.Holds (r : Ras) (links : List Word) : Prop where
  ring : RingStack.Holds r.ras r.rasPtr links
  count : r.rasCnt.toNat = links.length

namespace Ras.Holds

variable {P : Params} {r : Ras} {links : List Word}

theorem length_le (h : r.Holds links) : links.length ≤ 8 := h.ring.length

theorem valid_iff (h : r.Holds links) : r.valid = true ↔ links ≠ [] := by
  have hzero : (0#4).toNat = 0 := rfl
  unfold valid
  rw [bne_iff_ne, ne_eq, ← BitVec.toNat_inj, h.count, hzero, List.length_eq_zero_iff]

theorem top (h : r.Holds links) {t : Word} (ht : links.head? = some t) :
    r.valid = true ∧ r.top = t := by
  cases links with
  | nil => cases ht
  | cons link links =>
    obtain rfl := Option.some.inj ht
    exact ⟨h.valid_iff.mpr (List.cons_ne_nil _ _), h.ring.top⟩

/-- **One instruction.** -/
theorem update (h : r.Holds links) (instr link : Word) :
    (r.update P instr link).Holds (linked P instr link links) := by
  have hlen := h.length_le
  unfold Ras.update linked
  cases hcall : Ras.fIsCall P instr with
  | true =>
    rw [if_pos rfl, if_pos rfl]
    refine ⟨h.ring.push link, ?_⟩
    show (if r.rasCnt ≠ 8#4 then r.rasCnt + 1#4 else r.rasCnt).toNat = _
    rw [List.length_take, List.length_cons, ← h.count]
    rw [← h.count] at hlen
    by_cases hfull : r.rasCnt = 8#4
    · rw [if_neg (not_not_intro hfull), hfull]
      decide
    · have hne : r.rasCnt.toNat ≠ 8 := fun heq => hfull (BitVec.eq_of_toNat_eq heq)
      have hone : (1#4).toNat = 1 := rfl
      rw [if_pos hfull, BitVec.toNat_add]
      omega
  | false =>
    rw [if_neg Bool.false_ne_true, if_neg Bool.false_ne_true]
    cases hret : Ras.fIsRet P instr with
    | false =>
      rw [Bool.false_and, if_neg Bool.false_ne_true, if_neg Bool.false_ne_true]
      exact h
    | true =>
      rw [Bool.true_and, if_pos rfl]
      cases links with
      | nil =>
        have hvalid : ¬ r.valid = true := fun hv => h.valid_iff.mp hv rfl
        rw [if_neg hvalid]
        exact h
      | cons x links =>
        rw [if_pos (h.valid_iff.mpr (List.cons_ne_nil _ _))]
        refine ⟨h.ring.pop, ?_⟩
        have hcount := h.count
        have hone : (1#4).toNat = 1 := rfl
        have hlt := r.rasCnt.isLt
        rw [List.length_cons] at hcount
        show (r.rasCnt - 1#4).toNat = links.length
        rw [BitVec.toNat_sub]
        omega

end Ras.Holds

/-! ## One clock -/

namespace Core

variable {P : Params} {s : Core P} {i : CoreIn} {links : List Word}

/-- Behind the instruction in X, if there is one. -/
def linked (s : Core P) (links : List Word) : List Word :=
  if s.f.fxValid then ThreeSippEs.linked P s.f.fxInstr (s.f.fxPc + s.f.fxLen.setWidth 32) links
  else links

/-- The stack is ahead of X by the instruction in it, and a return in X has been predicted
with the link it finds. -/
structure Links (s : Core P) (links : List Word) : Prop where
  ras : s.ras.Holds (s.linked links)
  predicted : s.f.fxValid = true → Ras.fIsRet P s.f.fxInstr = true →
    ∀ t, links.head? = some t → s.f.fxPredTaken = true ∧ s.f.fxPredTarget = t

namespace Links

theorem reset (s : Core P) (i : CoreIn) : (s.reset i).Links [] := by
  constructor
  · exact ⟨RingStack.Holds.nil _ _, rfl⟩
  · intro hv
    exact absurd hv Bool.false_ne_true

/-- **One clock** without the debugger. -/
theorem step (h : s.Links links) (hfreeze : s.dbgFreeze i = false)
    (hresume : s.dbgResumeNow i = false) :
    (s.step i).Links (if (s.xIn i).leaves then s.linked links else links) := by
  -- X is empty behind the clock
  have hempty : (s.step i).f.fxValid = false → (s.step i).ras = s.ras →
      ((s.xIn i).leaves = false → s.f.fxValid = false) →
      (s.step i).Links (if (s.xIn i).leaves then s.linked links else links) := by
    intro hv hras hidle
    have hlinked : (if (s.xIn i).leaves then s.linked links else links) = s.linked links := by
      cases hl : (s.xIn i).leaves with
      | true => rw [if_pos rfl]
      | false =>
        unfold linked
        rw [hidle hl, if_neg Bool.false_ne_true, if_neg Bool.false_ne_true]
    rw [hlinked]
    constructor
    · rw [hras]
      unfold linked
      rw [hv, if_neg Bool.false_ne_true]
      exact h.ras
    · intro hv'
      exact absurd (hv.symm.trans hv') Bool.false_ne_true
  have hras : (s.step i).ras =
      if !s.exFreeze && (s.redirect i).isNone && !s.dbgFreeze i &&
        !s.f.needStraddle i.imemRdata then
        s.ras.update P (s.f.fetchedInstr i.imemRdata)
          (s.f.pc + (s.f.fetchedLen i.imemRdata).setWidth 32)
      else s.ras := rfl
  have hf : (s.step i).f = s.f.step s.bp.ghist (s.fetchIn i) := rfl
  cases hr : s.redirect i with
  | some target =>
    have hl := XIn.redirect_valid (x := s.xIn i) hr
    refine hempty ?_ ?_ fun hl' => ?_
    · rw [hf, FStage.step_of_redirect (i := s.fetchIn i) hr]
    · rw [hras, hr]
      simp
    · rw [XIn.leaves_iff.mpr hl] at hl'
      cases hl'
  | none =>
    cases hst : s.exFreeze with
    | true =>
      -- nothing moves
      have hstay : (s.step i).f = s.f := by
        rw [hf]
        exact FStage.step_of_stall (i := s.fetchIn i) hr hresume hfreeze hst
      have hkeep : (s.step i).ras = s.ras := by
        rw [hras, hst]
        rfl
      have hl : (s.xIn i).leaves = false := by
        show (s.f.fxValid && !s.exFreeze) = false
        rw [hst]
        exact Bool.and_false _
      rw [hl, if_neg Bool.false_ne_true]
      constructor
      · unfold linked
        rw [hkeep, hstay]
        exact h.ras
      · rw [hstay]
        exact h.predicted
    | false =>
      have hl : (s.xIn i).leaves = s.f.fxValid := by
        show (s.f.fxValid && !s.exFreeze) = _
        rw [hst]
        exact Bool.and_true _
      have hgo : (s.step i).f = if s.f.needStraddle i.imemRdata then
          { s.f with
            stradLo := i.imemRdata.extractLsb 31 16, straddle := true, fxValid := false }
          else s.f.accept s.bp.ghist (s.fetchIn i) := by
        rw [hf]
        unfold FStage.step
        rw [show (s.fetchIn i).redirect = none from hr]
        dsimp only
        rw [show (s.fetchIn i).dbgResumeNow = false from hresume,
          show (s.fetchIn i).dbgFreeze = false from hfreeze,
          show (s.fetchIn i).feStall = false from hst, if_neg Bool.false_ne_true,
          if_neg Bool.false_ne_true, if_neg Bool.false_ne_true]
        rfl
      rw [hst, hr, hfreeze] at hras
      cases hns : s.f.needStraddle i.imemRdata with
      | true =>
        rw [hns] at hgo hras
        refine hempty ?_ hras fun hl' => hl.symm.trans hl'
        rw [hgo]
        rfl
      | false =>
        rw [hns] at hgo hras
        have hras' : (s.step i).ras = s.ras.update P (s.f.fetchedInstr i.imemRdata)
            (s.f.pc + (s.f.fetchedLen i.imemRdata).setWidth 32) := hras
        have hgo' : (s.step i).f = s.f.accept s.bp.ghist (s.fetchIn i) := hgo
        -- the next instruction is accepted
        have hlinked : (if (s.xIn i).leaves then s.linked links else links) = s.linked links := by
          rw [hl]
          unfold linked
          split_ifs <;> rfl
        rw [hlinked]
        constructor
        · rw [hras']
          have hnext : (s.step i).linked (s.linked links) =
              ThreeSippEs.linked P (s.f.fetchedInstr i.imemRdata)
                (s.f.pc + (s.f.fetchedLen i.imemRdata).setWidth 32) (s.linked links) := by
            generalize s.linked links = before
            unfold linked
            rw [hgo']
            rfl
          rw [hnext]
          exact h.ras.update _ _
        · rw [hgo']
          intro _ hret t ht
          obtain ⟨hvalid, htop⟩ := h.ras.top ht
          have hpredict : s.rasPredict i = true := by
            unfold rasPredict
            rw [hvalid, Bool.and_true]
            exact hret
          constructor
          · show (s.rasPredict i || _) = true
            rw [hpredict, Bool.true_or]
          · show (if s.rasPredict i then s.ras.top else _) = t
            rw [hpredict, if_pos rfl, htop]

end Links

end Core

/-! ## Returns that are predicted right -/

/-- A return in X that goes where it was predicted to needs no redirect. -/
theorem XIn.redirect_of_return {P : Params} {x : XIn} (hret : Ras.fIsRet P x.fxInstr = true)
    (htrap : x.exTrap P = false) (htaken : x.fxPredTaken = true) (htarget : x.fxPredTarget = x.jalrT) :
    x.redirect P = none := by
  have hjalr : x.dec.isJalr = true := Ras.isJalr_of_fIsRet hret
  unfold Ras.fIsRet Ras.fIsJalr Ras.fOp at hret
  simp only [Bool.and_eq_true, beq_iff_eq] at hret
  obtain ⟨⟨⟨hbpred, hop⟩, -⟩, -⟩ := hret
  have huret : x.isUret P = false := by
    unfold isUret
    by_contra h
    rw [Bool.not_eq_false, Bool.and_eq_true, beq_iff_eq] at h
    rw [h.2] at hop
    exact absurd hop (by decide)
  have hmret : x.dec.isMret = false := by
    by_contra h
    rw [Bool.not_eq_false] at h
    have hsys := (decode_classes x.fxInstr).sys
    have hjalr' : (decode x.fxInstr).isJalr = true := hjalr
    have hmret' : (decode x.fxInstr).isMret = true := h
    rw [hmret', Bool.or_true] at hsys
    rw [(hsys rfl).2.2.2.2.2.2.2.1] at hjalr'
    cases hjalr'
  have hpred : x.predNext = x.jalrT := by
    unfold predNext
    rw [if_pos htaken, htarget]
  unfold redirect
  rw [htrap, huret, hmret, hjalr, hbpred, hpred]
  simp

/-- Where a return goes, and whether it traps, does not depend on the environment. -/
theorem XIn.jalrT_visible (x : XIn) : x.visible.jalrT = x.jalrT := rfl

theorem Arch.return_env (P : Params) (a : Arch) (e e' : Env) :
    (a.xIn e).jalrT = (a.xIn e').jalrT ∧ (a.xIn e).exTrap P = (a.xIn e').exTrap P := ⟨rfl, rfl⟩

namespace Arch

variable (P : Params) (a : Arch) (links : List Word)

/-- Behind the instruction. -/
def linked : List Word := ThreeSippEs.linked P a.instr (a.pc + a.len.setWidth 32) links

/-- A return to the newest link. -/
def returns : Bool :=
  Ras.fIsRet P a.instr && !(a.xIn a.env).exTrap P && links.head? == some (a.xIn a.env).jalrT

end Arch

section Run

variable {P : Params}

/-- The link addresses of the calls that have not returned before clock `n`. -/
def servedLinks (s₀ : Sys P) (e₀ : ExtIn) (ins : Nat → ExtIn) (n : Nat) : List Word :=
  (seqRun (fun p l => (Arch.serve P p.1 l, p.1.linked P p.2))
    ((s₀.reset never e₀).archBoot, []) (sampled s₀ e₀ ins n)).2

/-- The machine runs beside its links. -/
theorem seqRun_links (a : Arch) (links : List Word) (ls : List IrqLines) :
    (seqRun (fun p l => (Arch.serve P p.1 l, p.1.linked P p.2)) (a, links) ls).1 =
      seqRun (Arch.serve P) a ls := by
  induction ls generalizing a links with
  | nil => rfl
  | cons l ls ih => exact ih (a.serve P l) (a.linked P links)

variable {s₀ : Sys P} {e₀ : ExtIn} {ins : Nat → ExtIn}

theorem servedLinks_succ (n : Nat) :
    servedLinks s₀ e₀ ins (n + 1) =
      if (harvardRun s₀ e₀ ins n).commits then
        (servedBy s₀ e₀ ins n).linked P (servedLinks s₀ e₀ ins n)
      else servedLinks s₀ e₀ ins n := by
  unfold servedLinks servedBy sampled
  rw [labels, seqRun_append]
  cases (harvardRun s₀ e₀ ins n).commits with
  | false =>
    rw [if_neg Bool.false_ne_true, if_neg Bool.false_ne_true]
    rfl
  | true =>
    rw [if_pos rfl, if_pos rfl, ← seqRun_links _ []]
    rfl

/-- The instruction in X is that of the machine. -/
theorem Executing.linked {s : Sys P} {a : Arch} (h : Executing s a) (hc : s.commits = true)
    (links : List Word) :
    s.core.f.fxInstr = a.instr ∧ s.core.linked links = a.linked P links := by
  obtain ⟨b, rfl, -, h⟩ := h
  have hholds := h.harvard.sim.running h.harvard.quiet.mode
  have hv : s.core.f.fxValid = true := (h.harvard.sim.leaves {} hc).valid
  obtain ⟨hinstr, hlen⟩ := hholds.instr hv h.harvard.fetchClean
  have hpc := hholds.pc
  rw [hv, if_pos rfl] at hpc
  refine ⟨hinstr, ?_⟩
  unfold Core.linked Arch.linked
  rw [hv, if_pos rfl, hinstr, hlen, hpc]

/-- **The stack follows the program.** -/
theorem links_run (hdbg : ∀ n, (ins n).dbgHaltreq = false) (n : Nat)
    (hok : ∀ j < n, (harvardRun s₀ e₀ ins j).commits = true →
      Serves P (servedBy s₀ e₀ ins j) (ins j).irq) :
    Executing (harvardRun s₀ e₀ ins n) (servedBy s₀ e₀ ins n) ∧
      (harvardRun s₀ e₀ ins n).core.Links (servedLinks s₀ e₀ ins n) := by
  obtain ⟨h0, hpend⟩ := Executing.reset s₀ e₀
  have hexec : ∀ m ≤ n, Executing (harvardRun s₀ e₀ ins m) (servedBy s₀ e₀ ins m) := fun m hm =>
    ((Executing.refines P).run h0 hpend m fun j hj =>
      ⟨hdbg j, hok j (Nat.lt_of_lt_of_le hj hm)⟩).1
  refine ⟨hexec n (Nat.le_refl n), ?_⟩
  have hlinks : ∀ m ≤ n, (harvardRun s₀ e₀ ins m).core.Links (servedLinks s₀ e₀ ins m) := by
    intro m
    induction m with
    | zero => exact fun _ => Core.Links.reset _ _
    | succ m ih =>
      intro hm
      have hx := hexec m (Nat.le_of_succ_le hm)
      obtain ⟨b, -, -, hb⟩ := hx
      have hstep := (ih (Nat.le_of_succ_le hm)).step
        (i := (harvardRun s₀ e₀ ins m).coreIn (ins m))
        (hb.harvard.quiet.dbgFreeze (hdbg m)) hb.harvard.quiet.dbgResumeNow
      have hl := Sys.commits_eq_leaves (e := ins m) hb.harvard.sim.ebreakm
      rw [servedLinks_succ]
      cases hc : (harvardRun s₀ e₀ ins m).commits with
      | false =>
        have hl' : ((harvardRun s₀ e₀ ins m).core.xIn
            ((harvardRun s₀ e₀ ins m).coreIn (ins m))).leaves = false := hl.symm.trans hc
        rw [hl', if_neg Bool.false_ne_true] at hstep
        rw [if_neg Bool.false_ne_true]
        exact hstep
      | true =>
        have hl' : ((harvardRun s₀ e₀ ins m).core.xIn
            ((harvardRun s₀ e₀ ins m).coreIn (ins m))).leaves = true := hl.symm.trans hc
        rw [hl', if_pos rfl] at hstep
        rw [if_pos rfl, ← ((hexec m (Nat.le_of_succ_le hm)).linked hc _).2]
        exact hstep
  exact hlinks n (Nat.le_refl n)

end Run

/-- **A return to the newest link is predicted right.** In every run without halt requests
in which the program keeps its promises, with any interrupts: when the instruction that
leaves X is a return, and the machine says that it goes behind the newest of the last eight
calls that have not returned, then F has gone there already and there is no redirect. -/
theorem returns_predicted (P : Params) (s₀ : Sys P) (e₀ : ExtIn) (ins : Nat → ExtIn)
    (hdbg : ∀ n, (ins n).dbgHaltreq = false) (n : Nat)
    (hok : ∀ j ≤ n, (harvardRun s₀ e₀ ins j).commits = true →
      Serves P (servedBy s₀ e₀ ins j) (ins j).irq)
    (hc : (harvardRun s₀ e₀ ins n).commits = true)
    (hret : (servedBy s₀ e₀ ins n).returns P (servedLinks s₀ e₀ ins n) = true) :
    (harvardRun s₀ e₀ ins n).core.redirect ((harvardRun s₀ e₀ ins n).coreIn (ins n)) = none := by
  obtain ⟨hexec, hlinks⟩ := links_run hdbg n fun j hj => hok j (Nat.le_of_lt hj)
  have hinstr := (hexec.linked hc []).1
  obtain ⟨b, hb, -, h⟩ := hexec
  have hserving : Serving (harvardRun s₀ e₀ ins n) (ins n) b.arch :=
    ⟨hdbg n, fun hc => hb ▸ hok n (Nat.le_refl n) hc⟩
  have hsees := h.harvard.sim.sees (hserving.undisturbed h).steady hc
  rw [hb] at hsees
  unfold Arch.returns at hret
  simp only [Bool.and_eq_true, Bool.not_eq_true', beq_iff_eq] at hret
  obtain ⟨⟨hfret, htrap⟩, hlink⟩ := hret
  rw [← hinstr] at hfret
  have hv : (harvardRun s₀ e₀ ins n).core.f.fxValid = true := (h.harvard.sim.leaves {} hc).valid
  obtain ⟨htaken, htarget⟩ := hlinks.predicted hv hfret _ hlink
  obtain ⟨hjalrT, hexTrap⟩ := Arch.return_env P (servedBy s₀ e₀ ins n)
    ((harvardRun s₀ e₀ ins n).label (ins n)) (servedBy s₀ e₀ ins n).env
  have htrap' : ((harvardRun s₀ e₀ ins n).xIn (ins n)).exTrap P = false := by
    rw [← XIn.exTrap_visible, hsees, hexTrap]
    exact htrap
  have htarget' : (harvardRun s₀ e₀ ins n).core.f.fxPredTarget =
      ((harvardRun s₀ e₀ ins n).xIn (ins n)).jalrT := by
    rw [← XIn.jalrT_visible, hsees, hjalrT]
    exact htarget
  exact XIn.redirect_of_return (x := (harvardRun s₀ e₀ ins n).xIn (ins n)) hfret htrap' htaken
    htarget'

/-! ## A program -/

/-- `jal x1, 12; jal x0, 0; nop; jalr x0, 0(x1)`: a call of a function that returns. -/
def callsOnce : Sys {} where
  core := Core.powerUp {}
  mem :=
    { imem := .ofWords [0x00C000EF#32, 0x0000006F#32, 0x00000013#32, 0x00008067#32]
      dmem := fun _ => 0#8 }

/-- In clock 3 the return leaves X. -/
theorem returns_predicted_once :
    (servedBy callsOnce {} (fun _ => {}) 3).pc = 12#32 ∧
      servedLinks callsOnce {} (fun _ => {}) 3 = [4#32] ∧
      (harvardRun callsOnce {} (fun _ => {}) 3).core.redirect
        ((harvardRun callsOnce {} (fun _ => {}) 3).coreIn {}) = none :=
  ⟨by decide +kernel, by decide +kernel,
    returns_predicted {} callsOnce {} (fun _ => {}) (fun _ => rfl) 3 (by decide +kernel)
      (by decide +kernel) (by decide +kernel)⟩

end ThreeSippEs
