import ThreeSippEs.Pipeline.Programs
import ThreeSippEs.Traps.Interrupt

/-!
# Programs with interrupts

The sequential machine samples the interrupt lines once for each instruction, and enters
the handler behind it. The core executes this machine: each instruction finds the lines
as they are in the clock in which it leaves X.

- `Arch.serve`: one instruction and the interrupt behind it; `Arch.serve_eq`: these are
  two steps, `Arch.alone` and `Arch.enter`;
- `Serves`: what is promised of an instruction;
- `programs_interrupted`: the core shows the log of the machine.
-/

namespace ThreeSippEs

open Clocked MulDivHazard

variable {P : Params}

namespace Arch

variable (P : Params) (a : Arch) (l : IrqLines)

/-- The lines, and the answer that the M extension owes. -/
def envAt : Env := { a.env with irq := l }

/-- One instruction that samples the lines `l`, and the interrupt behind it. -/
def serve : Arch := a.step P never (a.envAt l)

/-- What it shows. -/
def showsAt : List Event := a.events P (a.envAt l)

/-- There is an interrupt behind the instruction. -/
def interrupted : Bool := (a.xIn (a.envAt l)).takeIrq P

/-- The instruction alone; a read of `mip` sees the lines. -/
def alone : Arch := a.step P never { a.envAt l with masked := true }

/-- The entry of the interrupt, between two instructions. -/
def enter (tval : Word) : Arch :=
  { a with
    pc := a.csr.mtvec
    csr :=
      { a.csr with
        mepc := a.pc
        mcause := 1#1 ++ 0#27 ++ a.csr.irqCause l
        mtval := tval
        mstatus := Mstatus.setMpp
          (Mstatus.setMie (Mstatus.setMpie a.csr.mstatus (Mstatus.mie a.csr.mstatus)) false)
          (if P.secure then a.csr.priv else 0b11#2)
        priv := if P.secure then 0b11#2 else a.csr.priv } }

/-- An access of two beats writes an operand of the M-extension instruction right behind
it, with no interrupt in between. -/
def feedsAt : Bool :=
  (a.xw P (a.envAt l)).twoBeat && (a.xw P (a.envAt l)).writesRd && !a.interrupted P l &&
    (a.serve P l).isMd && !(a.serve P l).straddles &&
    ((a.xw P (a.envAt l)).rd == (a.serve P l).instr.extractLsb 19 15 ||
      (a.xw P (a.envAt l)).rd == (a.serve P l).instr.extractLsb 24 20)

variable {P a l}

/-- A masked interrupt is not taken. -/
theorem takeIrq_masked : (a.xIn { a.envAt l with masked := true }).takeIrq P = false := by
  by_contra h
  rw [Bool.not_eq_false] at h
  have hfreeze := (XIn.takeIrq_iff.mp h).dbgFreeze
  exact Bool.false_ne_true hfreeze.symm

/-- Behind an instruction that can be interrupted the program goes straight on. -/
theorem alone_of_interrupted (hirq : a.interrupted P l = true) :
    (a.alone P l).pc = a.pc + a.len.setWidth 32 ∧
      (a.alone P l).csr = a.csr.uncounted := by
  have ht := XIn.takeIrq_iff.mp hirq
  have hmask := takeIrq_masked (P := P) (a := a) (l := l)
  have htrap : (a.xIn { a.envAt l with masked := true }).exTrap P = false := ht.exTrap
  have huret : (a.xIn { a.envAt l with masked := true }).isUret P = false := ht.uret
  have hmret : (a.xIn { a.envAt l with masked := true }).dec.isMret = false := ht.mret
  have hjalr : (a.xIn { a.envAt l with masked := true }).dec.isJalr = false := ht.jalr
  constructor
  · show (a.xIn { a.envAt l with masked := true }).nextPc P = _
    unfold XIn.nextPc
    rw [htrap, huret, hmret, hmask, hjalr]
    exact XIn.brActualNext_of_plain (x := a.xIn { a.envAt l with masked := true }) ht.jal ht.branch
  · have hset : (a.xIn { a.envAt l with masked := true }).mTrapSet P = false := by
      unfold XIn.mTrapSet
      rw [hmask, htrap]
      rfl
    have hret : (a.xIn { a.envAt l with masked := true }).csrMret P = false := by
      unfold XIn.csrMret
      rw [hmret, Bool.and_false]
      rfl
    have hwe : (a.xIn { a.envAt l with masked := true }).csrWeEff P = false :=
      Interrupt.csrWeEff_of_not_csr ht.csr rfl
    show ((a.xIn { a.envAt l with masked := true }).csrNext P false).uncounted = _
    unfold XIn.csrNext Csr.step XIn.csrIn
    rw [hset, hret, hwe]
    rfl

/-- **An interrupt comes between two instructions**: one instruction has its effect, then
the handler is entered as behind any other. -/
theorem serve_eq (P : Params) (a : Arch) (l : IrqLines) :
    a.serve P l = if a.interrupted P l then
      (a.alone P l).enter P l ((a.xIn (a.envAt l)).exTval P) else a.alone P l := by
  cases hirq : a.interrupted P l with
  | true =>
    rw [if_pos rfl]
    obtain ⟨hpc, hcsr⟩ := alone_of_interrupted hirq
    have ht := XIn.takeIrq_iff.mp hirq
    have htrap : (a.xIn (a.envAt l)).exTrap P = false := ht.exTrap
    have htake : (a.xIn (a.envAt l)).takeIrq P = true := hirq
    refine (Arch.mk.injEq ..).mpr ⟨?_, rfl, ?_, rfl, rfl, rfl, rfl, rfl⟩
    · show (a.xIn (a.envAt l)).nextPc P = (a.alone P l).csr.mtvec
      unfold XIn.nextPc
      rw [htrap, ht.uret, ht.mret, htake, hcsr]
      rfl
    · obtain ⟨hmepc, hmcause⟩ := XIn.trapEntry_of_takeIrq htake false
      show ((a.xIn (a.envAt l)).csrNext P false).uncounted = _
      rw [Interrupt.csrNext_of_takeIrq htake, hcsr, hpc]
      refine (Csr.mk.injEq ..).mpr
        ⟨rfl, rfl, hmepc, hmcause, rfl, rfl, rfl, rfl, rfl, rfl, rfl, rfl, rfl⟩
  | false =>
    rw [if_neg Bool.false_ne_true]
    have hpc : (a.xIn (a.envAt l)).nextPc P =
        (a.xIn { a.envAt l with masked := true }).nextPc P := by
      unfold XIn.nextPc
      rw [show (a.xIn (a.envAt l)).takeIrq P = false from hirq, takeIrq_masked]
      rfl
    have hset : (a.xIn (a.envAt l)).mTrapSet P =
        (a.xIn { a.envAt l with masked := true }).mTrapSet P := by
      unfold XIn.mTrapSet
      rw [show (a.xIn (a.envAt l)).takeIrq P = false from hirq, takeIrq_masked]
      rfl
    refine (Arch.mk.injEq ..).mpr ⟨hpc, rfl, ?_, rfl, rfl, rfl, rfl, rfl⟩
    show ((a.xIn (a.envAt l)).csrNext P false).uncounted =
      ((a.xIn { a.envAt l with masked := true }).csrNext P false).uncounted
    unfold XIn.csrNext XIn.csrIn
    rw [hset, show (a.xIn (a.envAt l)).takeIrq P = false from hirq, takeIrq_masked]
    rfl

end Arch

/-! ## The machine as it is built -/

namespace Built

variable {b : Built} {c : Csr} {l : IrqLines}

/-- What the outside contributes to an instruction that depends on nothing. -/
theorem env_lines (h : b.dependent = false) : b.env { irq := l } = b.arch.envAt l := by
  have hmd : (b.env {}).md = b.arch.env.md := congrArg Env.md (env_of_independent h)
  unfold Arch.envAt
  rw [Env.mk.injEq]
  exact ⟨rfl, rfl, hmd⟩

/-- **One instruction** with the lines `l`, whatever the counters hold. -/
theorem step_lines (h : b.dependent = false) (hc : c.uncounted = b.arch.csr)
    (hctr : b.arch.readsCounter = false) (hf : b.arch.feedsAt P l = false) :
    (b.step P never ({ irq := l }, c)).arch = b.arch.serve P l ∧
      b.events P ({ irq := l }, c) = b.arch.showsAt P l ∧
      (b.step P never ({ irq := l }, c)).dependent = false := by
  have henv := env_lines (l := l) h
  obtain ⟨hstep, hev⟩ := @Arch.step_live P never b.arch c (b.arch.envAt l) hc hctr
  have harch : (b.step P never ({ irq := l }, c)).arch = b.arch.serve P l := by
    show (b.arch.live c).step P never (b.env { irq := l }) = _
    rw [henv]
    exact hstep
  have hshows : b.events P ({ irq := l }, c) = b.arch.showsAt P l := by
    show (b.arch.live c).events P (b.env { irq := l }) = _
    rw [henv]
    exact hev
  refine ⟨harch, hshows, ?_⟩
  have hirq : ((b.arch.live c).xIn (b.arch.envAt l)).takeIrq P = b.arch.interrupted P l := by
    rw [← XIn.takeIrq_visible, Arch.live_visible hc, XIn.takeIrq_visible]
    rfl
  cases hearly : (b.step P never ({ irq := l }, c)).early with
  | none => exact dependent_of_early hearly
  | some p =>
    cases hstr : (b.step P never ({ irq := l }, c)).arch.straddles with
    | true => exact dependent_of_straddles hstr
    | false =>
      cases hmd : (b.step P never ({ irq := l }, c)).arch.isMd with
      | false => exact dependent_of_not_md hmd
      | true =>
        -- what is forwarded first goes to the register of a two-beat access
        have hxw : b.xw P ({ irq := l }, c) = (b.arch.live c).xw P (b.arch.envAt l) := by
          unfold xw
          rw [henv]
        have hwrites : ((b.arch.xw P (b.arch.envAt l)).twoBeat &&
              (b.arch.xw P (b.arch.envAt l)).writesRd && !b.arch.interrupted P l) = true ∧
            p.1 = (b.arch.xw P (b.arch.envAt l)).rd := by
          unfold step at hearly
          dsimp only at hearly
          rw [hxw, henv, hirq] at hearly
          split at hearly
          case isFalse => cases hearly
          case isTrue hcond =>
            rcases Arch.xw_live (P := P) (l := b.arch.envAt l) hc with hlive | ⟨htwo, -⟩
            · rw [hlive] at hcond hearly
              exact ⟨hcond, (congrArg Prod.fst (Option.some.inj hearly)).symm⟩
            · rw [htwo] at hcond
              exact absurd hcond (by simp)
        unfold Arch.feedsAt at hf
        rw [← harch, hmd, hstr, hwrites.1, ← hwrites.2] at hf
        have hne : p.1 ≠ (b.step P never ({ irq := l }, c)).rs1 ∧
            p.1 ≠ (b.step P never ({ irq := l }, c)).rs2 := by
          simpa [rs1, rs2] using hf
        unfold dependent forwarded
        rw [hmd, hstr, hearly, if_neg Bool.false_ne_true, if_neg Bool.false_ne_true,
          Option.bind_some, Option.bind_some, if_neg hne.1, if_neg hne.2]
        rfl

end Built

/-! ## The pipeline -/

/-- What is promised of an instruction that leaves X with the lines `l`: it reads no
counter, feeds no M-extension instruction too late, and no interrupt meets a FENCE.I. -/
structure Serves (P : Params) (a : Arch) (l : IrqLines) : Prop where
  counter : a.readsCounter = false
  feeds : a.feedsAt P l = false
  fencei : ((a.xIn (a.envAt l)).isFencei && a.csr.irqReq l) = false

instance (a : Arch) (l : IrqLines) : Decidable (Serves P a l) :=
  decidable_of_iff (a.readsCounter = false ∧ a.feedsAt P l = false ∧
      ((a.xIn (a.envAt l)).isFencei && a.csr.irqReq l) = false)
    ⟨fun h => ⟨h.1, h.2.1, h.2.2⟩, fun h => ⟨h.counter, h.feeds, h.fencei⟩⟩

/-- The core executes the machine `a`. -/
def Executing (s : Sys P) (a : Arch) : Prop :=
  ∃ b : Built, b.arch = a ∧ b.dependent = false ∧ Follows s b

/-- No halt request, and the promise is kept by what leaves X. -/
structure Serving (s : Sys P) (e : ExtIn) (a : Arch) : Prop where
  dbg : e.dbgHaltreq = false
  serves : s.commits = true → Serves P a e.irq

namespace Serving

variable {s : Sys P} {e : ExtIn} {b : Built}

/-- Interrupts disturb nothing but a FENCE.I. -/
theorem undisturbed (hok : Serving s e b.arch) (h : Follows s b) : s.Undisturbed e b.arch where
  kept _ _ := h.harvard.quiet.dbgFreeze hok.dbg
  unwritten := by
    rw [Core.dbgDo_of_running h.harvard.quiet.mode]
    rfl
  fenced _ := h.harvard.fetchClean
  checked := h.harvard.not_stale
  fencei := by
    by_contra hf
    rw [Bool.not_eq_false] at hf
    unfold XIn.fenceiInterrupted at hf
    simp only [Bool.and_eq_true, Bool.not_eq_true'] at hf
    obtain ⟨⟨⟨⟨⟨hv, hfencei⟩, hfz⟩, hreq⟩, -⟩, -⟩ := hf
    have hc : s.commits = true := by
      rw [Sys.commits_eq_leaves (e := e) h.harvard.sim.ebreakm]
      exact XIn.leaves_iff.mpr ⟨hv, hfz⟩
    have hinstr := h.harvard.sim.fxInstr_eq hc h.harvard.fetchClean
    have hreq' : s.core.csr.irqReq e.irq = true := hreq
    have hcsr : b.arch.csr.irqReq e.irq = s.core.csr.irqReq e.irq := by
      rw [← h.harvard.sim.csr]
      rfl
    have hfencei' : (b.arch.xIn (b.arch.envAt e.irq)).isFencei = true := by
      have hx : (s.core.f.fxInstr.extractLsb 6 0 == 0b0001111#7 &&
          s.core.f.fxInstr.extractLsb 14 12 == 0b001#3) = true := hfencei
      rw [hinstr] at hx
      exact hx
    have hno := (hok.serves hc).fencei
    rw [hfencei', hcsr, hreq'] at hno
    exact absurd hno (by decide)
  counter hc := by
    have hctr := (hok.serves hc).counter
    rw [← hctr]
    show ((decode s.core.f.fxInstr).isCsr &&
      Csr.isCounter (s.core.f.fxInstr.extractLsb 31 20) &&
      s.core.f.fxInstr.extractLsb 11 7 != 0#5) = _
    rw [h.harvard.sim.fxInstr_eq hc h.harvard.fetchClean]
    rfl

theorem orderly (hok : Serving s e b.arch) (h : Follows s b) : Orderly never s e b where
  toSteady := (hok.undisturbed h).steady
  joined _ hfz := absurd ((h.harvard.quiet.dbgFreeze (i := s.coreIn e) hok.dbg).symm.trans hfz)
    Bool.false_ne_true

end Serving

namespace Executing

/-- **The pipeline executes the machine with interrupts.** -/
theorem refines (P : Params) :
    Refines (Sys.step (P := P) never) (fun s _ => s.backend.shown) (fun s _ => s.commits)
      (fun _ e => e.irq) (Arch.serve P) (Arch.showsAt P) Executing
      (fun s => s.backend.pending never) Serving where
  stutter s e a h hok hc := by
    obtain ⟨b, rfl, hdep, h⟩ := h
    obtain ⟨ht, hpend⟩ := (Tracks.refines P never).stutter s e b h.tracks (hok.orderly h) hc
    have hharvard := (h.harvard.stutter (hok.undisturbed h) hok.dbg hc).1
    exact ⟨⟨b, rfl, hdep, ht, hharvard⟩, hpend⟩
  commit s e a h hok hc := by
    obtain ⟨b, rfl, hdep, h⟩ := h
    obtain ⟨ht, hshown, hpend⟩ := (Tracks.refines P never).commit s e b h.tracks (hok.orderly h) hc
    have hharvard := (h.harvard.commit (hok.undisturbed h) hok.dbg hc).1
    have hs := hok.serves hc
    -- nothing holds interrupts off
    have hfreeze : (s.xIn e).dbgFreeze = false :=
      h.harvard.quiet.dbgFreeze (i := s.coreIn e) hok.dbg
    have hlabel : s.label e = b.env { irq := e.irq } := by
      have hl := h.tracks.label_eq (hok.orderly h).toSteady hc
      rw [← hl]
      unfold Built.env
      have hmasked : (s.label e).masked = false := by
        show ((s.xIn e).irqReq && (s.xIn e).dbgFreeze) = false
        rw [hfreeze, Bool.and_false]
      rw [Env.mk.injEq]
      exact ⟨rfl, hmasked, rfl⟩
    have hown : b.env (s.label e) = b.env { irq := e.irq } := by
      rw [h.tracks.label_eq (hok.orderly h).toSteady hc, hlabel]
    have hsame : b.step P never (s.label e, s.core.csr) =
          b.step P never ({ irq := e.irq }, s.core.csr) ∧
        b.events P (s.label e, s.core.csr) = b.events P ({ irq := e.irq }, s.core.csr) := by
      unfold Built.step Built.events Built.xw
      dsimp only
      rw [hown]
      exact ⟨rfl, rfl⟩
    obtain ⟨harch, hshows, hdep'⟩ := Built.step_lines (P := P) (l := e.irq) hdep h.harvard.sim.csr
      hs.counter hs.feeds
    rw [← hsame.1] at harch hdep'
    rw [hsame.2, hshows] at hpend
    refine ⟨⟨_, harch, hdep', ht, ?_⟩, hshown, hpend⟩
    rw [harch]
    rw [hlabel, Built.env_lines hdep] at hharvard
    exact hharvard

theorem reset (s : Sys P) (e : ExtIn) : Executing (s.reset never e) (s.reset never e).archBoot ∧
    (s.reset never e).backend.pending never = [] :=
  ⟨⟨(s.reset never e).builtBoot, rfl, Built.dependent_of_early rfl, (Follows.reset s e).1⟩,
    (Follows.reset s e).2⟩

theorem rank_step {s : Sys P} {e : ExtIn} {a : Arch} (h : Executing s a) (hok : Serving s e a)
    (hc : s.commits = false) : (s.step never e).core.rank < s.core.rank := by
  obtain ⟨b, rfl, -, h⟩ := h
  rw [Sys.commits_eq_leaves (e := e) h.harvard.sim.ebreakm] at hc
  exact h.harvard.quiet.rank_step (i := s.coreIn e) hok.dbg hc

end Executing

section Run

variable (s₀ : Sys P) (e₀ : ExtIn) (ins : Nat → ExtIn) (n : Nat)

/-- The lines that the instructions issued before clock `n` have sampled, in order. -/
def sampled : List IrqLines :=
  labels (Sys.step never) (fun s _ => s.commits) (fun _ e => e.irq) (s₀.reset never e₀) ins n

/-- The machine that has sampled them. -/
def servedBy : Arch := seqRun (Arch.serve P) (s₀.reset never e₀).archBoot (sampled s₀ e₀ ins n)

/-- What it has shown. -/
def servedLog : List Event :=
  seqTrace (Arch.serve P) (Arch.showsAt P) (s₀.reset never e₀).archBoot (sampled s₀ e₀ ins n)

variable {s₀ e₀ ins}

/-- Nothing else is shown. -/
theorem shows_served_le (hdbg : ∀ n, (ins n).dbgHaltreq = false) (n : Nat)
    (hok : ∀ j < n, (harvardRun s₀ e₀ ins j).commits = true →
      Serves P (servedBy s₀ e₀ ins j) (ins j).irq) :
    harvardTrace s₀ e₀ ins n <+: servedLog s₀ e₀ ins n := by
  obtain ⟨h0, hpend⟩ := Executing.reset s₀ e₀
  exact (Executing.refines P).trace_isPrefix h0 hpend n fun j hj => ⟨hdbg j, hok j hj⟩

/-- And all of it is shown, after no more than 44 clocks for each instruction. -/
theorem shows_served (hdbg : ∀ n, (ins n).dbgHaltreq = false) (k : Nat)
    (hok : ∀ j < 44 * (k + 1), (sampled s₀ e₀ ins j).length ≤ k →
      (harvardRun s₀ e₀ ins j).commits = true → Serves P (servedBy s₀ e₀ ins j) (ins j).irq) :
    ∃ n < 44 * (k + 1), (sampled s₀ e₀ ins n).length = k ∧
      harvardTrace s₀ e₀ ins (n + 1) = servedLog s₀ e₀ ins n := by
  obtain ⟨h0, hpend⟩ := Executing.reset s₀ e₀
  obtain ⟨n, hn, hlen, -, htr⟩ := (Executing.refines P).reaches_within h0 hpend
    (fun s => s.core.rank_le) (fun _ _ _ h hok hc => h.rank_step hok hc) k
    fun j hj hlen => ⟨hdbg j, hok j hj hlen⟩
  exact ⟨n, hn, hlen, htr⟩

end Run

/-- **The core executes programs with interrupts.** Without halt requests, and whatever the
interrupt lines do: what the core has shown at any clock is a prefix of the log of the
sequential machine in which each instruction samples the lines of one clock, in the order
of the clocks, and an interrupt comes between two instructions. And `k` instructions are
issued, and all that they show has been shown, within `44 * (k + 1)` clocks. The promises
about the program are those of the machine. -/
theorem programs_interrupted (P : Params) (s₀ : Sys P) (e₀ : ExtIn) (ins : Nat → ExtIn)
    (hdbg : ∀ n, (ins n).dbgHaltreq = false) :
    (∀ n, (∀ j < n, (harvardRun s₀ e₀ ins j).commits = true →
        Serves P (servedBy s₀ e₀ ins j) (ins j).irq) →
      harvardTrace s₀ e₀ ins n <+: servedLog s₀ e₀ ins n) ∧
    (∀ k, (∀ j < 44 * (k + 1), (sampled s₀ e₀ ins j).length ≤ k →
        (harvardRun s₀ e₀ ins j).commits = true →
        Serves P (servedBy s₀ e₀ ins j) (ins j).irq) →
      ∃ n < 44 * (k + 1), (sampled s₀ e₀ ins n).length = k ∧
        harvardTrace s₀ e₀ ins (n + 1) = servedLog s₀ e₀ ins n) := by
  constructor
  · intro n hok
    exact shows_served_le hdbg n hok
  · intro k hok
    exact shows_served hdbg k hok

/-! ## A program -/

/-- `csrrsi x0, mie, 8; csrrsi x0, mstatus, 8; addi x1, x1, 1`, also as the handler -/
def softly : Sys {} where
  core := Core.powerUp {}
  mem := { imem := .ofWords [0x30446073#32, 0x30046073#32, 0x00108093#32], dmem := fun _ => 0#8 }

/-- The software interrupt is pending all along. -/
def softLine (_ : Nat) : ExtIn := { irq := { soft := true } }

theorem programs_interrupted_soft :
    (servedBy softly {} softLine 9).csr.mcause = 0x80000003#32 ∧
      harvardTrace softly {} softLine 9 <+: servedLog softly {} softLine 9 :=
  ⟨by decide +kernel,
    (programs_interrupted {} softly {} softLine fun _ => rfl).1 9 (by decide +kernel)⟩

end ThreeSippEs
