import ThreeSippEs.Pipeline.Built
import ThreeSippEs.Pipeline.Refinement

/-!
# Prediction

The core with and without its predictor, on the same program. Both follow the same
machine, as long as no prediction is stale.

- `Unattended`: what the program and the outside promise, `unattended_trace`: a run
  shows what the machine shows, all of it and nothing else;
- `prediction_invisible`: the two cores show the same.
-/

namespace ThreeSippEs

open Clocked

variable {P : Params} {imemWritable : Word → Bool}

/-- No interrupt, no halt request and no stale prediction; what leaves X has not been
written since the last FENCE.I and reads no counter. -/
structure Unattended (s : Sys P) (e : ExtIn) (b : Built) : Prop where
  irq : e.irq = {}
  dbg : e.dbgHaltreq = false
  clean : b.arch.fetchClean = true
  counter : b.arch.readsCounter = false
  checked : (s.xIn e).stale P = false

namespace Unattended

variable {s : Sys P} {e : ExtIn} {b : Built}

theorem calm (h : Unattended s e b) (ht : Tracks imemWritable s b) (hq : Quiet s.core) :
    Calm imemWritable s e b := by
  have hok := Sys.undisturbed_of_quiet ht.sim hq h.irq h.dbg (fun _ => h.clean) h.checked
    fun _ => h.counter
  refine ⟨⟨hok.steady, fun _ hfz => ?_⟩, h.irq, h.counter⟩
  exact absurd ((hq.dbgFreeze (i := s.coreIn e) h.dbg).symm.trans hfz) Bool.false_ne_true

theorem refines (P : Params) (imemWritable : Word → Bool) :
    Refines (Sys.step (P := P) imemWritable) (fun s _ => s.backend.shown) (fun s _ => s.commits)
      (fun _ _ => ()) (fun b _ => b.next P imemWritable) (fun b _ => b.shows P)
      (fun s b => Tracks imemWritable s b ∧ Quiet s.core)
      (fun s => s.backend.pending imemWritable) Unattended where
  stutter s i b h hok hc := by
    obtain ⟨ht, hpend⟩ := (Tracks.refines_calm P imemWritable).stutter s i b h.1
      (hok.calm h.1 h.2) hc
    exact ⟨⟨ht, h.2.step (i := s.coreIn i) hok.dbg⟩, hpend⟩
  commit s i b h hok hc := by
    obtain ⟨ht, hpend⟩ := (Tracks.refines_calm P imemWritable).commit s i b h.1
      (hok.calm h.1 h.2) hc
    exact ⟨⟨ht, h.2.step (i := s.coreIn i) hok.dbg⟩, hpend⟩

theorem rank_step (h : Unattended s e b) (ht : Tracks imemWritable s b) (hq : Quiet s.core)
    (hc : s.commits = false) : (s.step imemWritable e).core.rank < s.core.rank := by
  rw [Sys.commits_eq_leaves (e := e) ht.sim.ebreakm] at hc
  exact hq.rank_step h.dbg hc

end Unattended

/-! ## Runs -/

/-- What the system has shown before clock `n`. -/
def shownBy (imemWritable : Word → Bool) (s₀ : Sys P) (e₀ : ExtIn) (ins : Nat → ExtIn) (n : Nat) :
    List Event :=
  trace (Sys.step imemWritable) (fun s _ => s.backend.shown) (s₀.reset imemWritable e₀) ins n

section Run

variable {s₀ : Sys P} {e₀ : ExtIn} {ins : Nat → ExtIn}

/-- **An unattended run** shows the trace of the machine. -/
theorem unattended_trace (hirq : ∀ n, (ins n).irq = {}) (hdbg : ∀ n, (ins n).dbgHaltreq = false)
    (hprog : ∀ k,
      ((s₀.reset imemWritable e₀).builtBoot.after P imemWritable k).arch.fetchClean = true ∧
      ((s₀.reset imemWritable e₀).builtBoot.after P imemWritable k).arch.readsCounter = false)
    (hchecked : ∀ n, ((run (Sys.step imemWritable) (s₀.reset imemWritable e₀) ins n).xIn
      (ins n)).stale P = false) :
    (∀ n, ∃ k, shownBy imemWritable s₀ e₀ ins n <+:
      (s₀.reset imemWritable e₀).builtBoot.trace P imemWritable k) ∧
    (∀ k, ∃ n, shownBy imemWritable s₀ e₀ ins n =
      (s₀.reset imemWritable e₀).builtBoot.trace P imemWritable k) := by
  obtain ⟨h0, hpend⟩ := Tracks.reset imemWritable s₀ e₀
  have hquiet : Quiet (s₀.reset imemWritable e₀).core :=
    ⟨⟨Muldiv.Inv.reset s₀.core.md, rfl⟩, rfl, rfl, rfl, rfl, rfl, nofun⟩
  -- the labels are only counted
  have hlabels : ∀ n, labels (Sys.step imemWritable) (fun s _ => s.commits) (fun _ _ => ())
      (s₀.reset imemWritable e₀) ins n = List.replicate (labels (Sys.step imemWritable)
        (fun s _ => s.commits) (fun _ _ => ()) (s₀.reset imemWritable e₀) ins n).length () :=
    fun n => labels_eq_replicate n fun _ _ _ => rfl
  have hok : ∀ n, Unattended (run (Sys.step imemWritable) (s₀.reset imemWritable e₀) ins n) (ins n)
      (seqRun (fun b _ => b.next P imemWritable) (s₀.reset imemWritable e₀).builtBoot
        (labels (Sys.step imemWritable) (fun s _ => s.commits) (fun _ _ => ())
          (s₀.reset imemWritable e₀) ins n)) := by
    intro n
    rw [hlabels]
    exact ⟨hirq n, hdbg n, (hprog _).1, (hprog _).2, hchecked n⟩
  constructor
  · intro n
    have h := (Unattended.refines P imemWritable).trace_isPrefix ⟨h0, hquiet⟩ hpend n
      fun j _ => hok j
    rw [hlabels] at h
    exact ⟨_, h⟩
  · intro k
    obtain ⟨n, hlen, -, htr⟩ := (Unattended.refines P imemWritable).reaches ⟨h0, hquiet⟩ hpend
      (fun s => s.core.rank) hok (fun _ _ _ h hok hc => hok.rank_step h.1 h.2 hc) k
    rw [hlabels, hlen] at htr
    exact ⟨n + 1, htr⟩

end Run

/-- Without the predictor no prediction is stale. -/
theorem XIn.stale_of_unpredicted {x : XIn} (h : x.fxPredTaken = false) : x.stale P = false := by
  unfold stale predNext
  rw [h, if_neg Bool.false_ne_true, bne_self_eq_false, Bool.and_false]

/-- **Prediction is invisible** as long as no prediction is stale: on a program that
runs FENCE.I before what it has written, and reads no counter, the core with the
predictor shows what the core without it shows, whatever its tables held. -/
theorem prediction_invisible (P : Params) (imemWritable : Word → Bool)
    (s₁ : Sys { P with bpred := true }) (e₁ : ExtIn) (ins₁ : Nat → ExtIn)
    (s₀ : Sys { P with bpred := false }) (e₀ : ExtIn) (ins₀ : Nat → ExtIn)
    (hregs : (s₁.reset imemWritable e₁).core.regs = (s₀.reset imemWritable e₀).core.regs)
    (hmem : (s₁.reset imemWritable e₁).mem = (s₀.reset imemWritable e₀).mem)
    (hirq : ∀ n, (ins₁ n).irq = {} ∧ (ins₀ n).irq = {})
    (hdbg : ∀ n, (ins₁ n).dbgHaltreq = false ∧ (ins₀ n).dbgHaltreq = false)
    (hprog : ∀ k, ((s₀.reset imemWritable e₀).builtBoot.after { P with bpred := false }
        imemWritable k).arch.fetchClean = true ∧
      ((s₀.reset imemWritable e₀).builtBoot.after { P with bpred := false }
        imemWritable k).arch.readsCounter = false)
    (hchecked : ∀ n, ((run (Sys.step imemWritable) (s₁.reset imemWritable e₁) ins₁ n).xIn
      (ins₁ n)).stale { P with bpred := true } = false) :
    (∀ n, ∃ m, shownBy imemWritable s₁ e₁ ins₁ n <+: shownBy imemWritable s₀ e₀ ins₀ m) ∧
    (∀ n, ∃ m, shownBy imemWritable s₀ e₀ ins₀ n <+: shownBy imemWritable s₁ e₁ ins₁ m) := by
  have hboot : (s₁.reset imemWritable e₁).builtBoot = (s₀.reset imemWritable e₀).builtBoot := by
    unfold Sys.builtBoot Sys.archBoot
    rw [hregs, hmem]
  -- the machine does not know the predictor
  have hafter : ∀ k, (s₁.reset imemWritable e₁).builtBoot.after { P with bpred := true }
      imemWritable k = (s₀.reset imemWritable e₀).builtBoot.after { P with bpred := false }
      imemWritable k := by
    intro k
    rw [hboot]
    rfl
  have htrace : ∀ k, (s₁.reset imemWritable e₁).builtBoot.trace { P with bpred := true }
      imemWritable k = (s₀.reset imemWritable e₀).builtBoot.trace { P with bpred := false }
      imemWritable k := by
    intro k
    rw [hboot]
    rfl
  obtain ⟨hsafe₁, hlive₁⟩ := unattended_trace (fun n => (hirq n).1) (fun n => (hdbg n).1)
    (fun k => by rw [hafter]; exact hprog k) hchecked
  obtain ⟨hsafe₀, hlive₀⟩ := unattended_trace (fun n => (hirq n).2) (fun n => (hdbg n).2) hprog
    fun n => XIn.stale_of_unpredicted (Sys.unpredicted_run rfl s₀ e₀ ins₀ n)
  constructor
  · intro n
    obtain ⟨k, hk⟩ := hsafe₁ n
    obtain ⟨m, hm⟩ := hlive₀ k
    rw [htrace, ← hm] at hk
    exact ⟨m, hk⟩
  · intro n
    obtain ⟨k, hk⟩ := hsafe₀ n
    obtain ⟨m, hm⟩ := hlive₁ k
    rw [← htrace, ← hm] at hk
    exact ⟨m, hk⟩

/-! ## Two programs -/

/-- Without M instructions the M unit has no say. -/
theorem Built.after_arch {b : Built} (h : ∀ k, (b.arch.after P imemWritable k).isMd = false)
    (k : Nat) : (b.after P imemWritable k).arch = b.arch.after P imemWritable k := by
  induction k with
  | zero => rfl
  | succ k ih =>
    have henv : (b.after P imemWritable k).env {} = {} := by
      unfold Built.env
      rw [ih, h k]
      rfl
    rw [Built.after_succ, Arch.after_succ, ← ih]
    unfold Built.next Built.step
    rw [henv]
    rfl

/-- Nothing in the loop is excluded, with or without the predictor. -/
theorem loop_built (b : Bool) (k : Nat) :
    (((loop b).reset never {}).builtBoot.after { bpred := b } never k).arch.fetchClean = true ∧
      (((loop b).reset never {}).builtBoot.after { bpred := b } never k).arch.readsCounter =
        false := by
  have harch : (((loop b).reset never {}).builtBoot.after { bpred := b } never k).arch =
      loopAt b k := by
    unfold loopAt
    refine Built.after_arch (fun j => ?_) k
    exact (loop_plain b j).1
  rw [harch]
  exact ⟨(loop_plain b k).2.2, (loop_plain b k).2.1⟩

/-- The way back is predicted, and never wrongly. -/
theorem prediction_invisible_loop :
    (∀ n, ∃ m, shownBy never (loop true) {} (fun _ => {}) n <+:
      shownBy never (loop false) {} (fun _ => {}) m) ∧
    (∀ n, ∃ m, shownBy never (loop false) {} (fun _ => {}) n <+:
      shownBy never (loop true) {} (fun _ => {}) m) := by
  refine prediction_invisible {} never (loop true) {} (fun _ => {}) (loop false) {} (fun _ => {})
    rfl rfl (fun _ => ⟨rfl, rfl⟩) (fun _ => ⟨rfl, rfl⟩) (loop_built false) fun n => ?_
  have hprog : ∀ k, (loopAt true k).isMd = false ∧ (loopAt true k).readsCounter = false :=
    fun k => ⟨(loop_plain true k).1, (loop_plain true k).2.1⟩
  obtain ⟨h0, hpend⟩ := Harvard.reset (loop true) {}
  have hok := (@harvard_run {} (loop true) {} (fun _ => {}) (fun _ => rfl) (fun _ => rfl) hprog n).2
  exact ((Harvard.refines {}).run h0 hpend n hok).1.not_stale

/-- Every data write reaches the instruction memory. -/
abbrev everywhere : Word → Bool := fun _ => true

/-- A jump that the program replaces by an ADDI before it comes back to it. -/
def replacesJump (b : Bool) : Sys { bpred := b } where
  core := Core.powerUp _
  mem :=
    { imem := .ofWords
        [0x0080006f#32,   -- jal x0, 8
         0x0000006f#32,   -- jal x0, 0
         0x04002103#32,   -- lw x2, 64(x0)
         0x00202023#32,   -- sw x2, 0(x0)
         0x0000100f#32,   -- fence.i
         0xfedff06f#32]   -- jal x0, -20
      -- addi x1, x0, 1
      dmem := .ofWords (List.replicate 16 0#32 ++ [0x00100093#32]) }

/-- Behind the new ADDI the predictor still goes where the jump went: address 8 is
executed instead of address 4. -/
theorem prediction_visible :
    ¬ ∀ n, ∃ m, shownBy everywhere (replacesJump true) {} (fun _ => {}) n <+:
      shownBy everywhere (replacesJump false) {} (fun _ => {}) m := by
  intro h
  obtain ⟨m, hm⟩ := h 14
  rcases Nat.le_total m 16 with hle | hge
  · exact absurd (hm.trans (trace_le hle)) (by decide +kernel)
  · rcases List.prefix_or_prefix_of_prefix hm (trace_le hge) with hpre | hpre
    · exact absurd hpre (by decide +kernel)
    · exact absurd hpre (by decide +kernel)

end ThreeSippEs
