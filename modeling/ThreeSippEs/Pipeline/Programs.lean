import ThreeSippEs.Pipeline.Prediction

/-!
# Programs with the M extension

`Arch` leaves the answer of the M unit to the outside. Here the sequential machine
multiplies and divides by itself, and the core executes its programs, whatever the
predictor guesses, except where the M unit is known to take an operand too early:
directly behind an access of two beats that writes this operand.

- `Arch.execute`, `Arch.log`: the sequential machine with the M extension;
- `Arch.feeds`: the one pair of instructions that is excluded;
- `Paced`: the machine as it is built, on programs without such a pair;
- `programs_refine`: the core shows the log of the sequential machine.
-/

namespace ThreeSippEs

open Clocked MulDivHazard

variable {P : Params}

namespace Arch

variable (P : Params) (a : Arch)

/-- The next instruction has the answer that the M extension owes it, and no interrupt. -/
def env : Env where
  md := if a.isMd then a.mdValue else 0#32

/-- One instruction, with the instruction memory read-only. -/
def execute : Arch := a.step P never a.env

/-- What it shows. -/
def shows : List Event := a.events P a.env

/-- The state after `k` instructions. -/
def executed (k : Nat) : Arch :=
  seqRun (fun a (_ : Unit) => a.execute P) a (List.replicate k ())

/-- What these instructions show. -/
def log (k : Nat) : List Event :=
  seqTrace (fun a (_ : Unit) => a.execute P) (fun a _ => a.shows P) a (List.replicate k ())

/-- An access of two beats writes a register that the next instruction, of the M
extension and fetched in one beat, multiplies or divides. -/
def feeds : Bool :=
  (a.xw P a.env).twoBeat && (a.xw P a.env).writesRd &&
    (a.execute P).isMd && !(a.execute P).straddles &&
    ((a.xw P a.env).rd == (a.execute P).instr.extractLsb 19 15 ||
      (a.xw P a.env).rd == (a.execute P).instr.extractLsb 24 20)

variable {P a}

theorem executed_succ (k : Nat) : a.executed P (k + 1) = (a.executed P k).execute P := by
  unfold executed
  rw [List.replicate_succ', seqRun_append]
  rfl

theorem log_succ (k : Nat) : a.log P (k + 1) = a.log P k ++ (a.executed P k).shows P := by
  unfold log
  rw [List.replicate_succ', seqTrace_append, seqTrace_singleton]
  rfl

/-- What has been logged is not taken back. -/
theorem log_le {i k : Nat} (h : i ≤ k) : a.log P i <+: a.log P k := by
  induction k, h using Nat.le_induction with
  | base => exact List.prefix_rfl
  | succ k _ ih =>
    rw [log_succ]
    exact ih.trans (List.prefix_append _ _)

end Arch

/-! ## The machine as it is built -/

namespace Built

variable {b : Built}

/-- An operand that nothing forwards is in the register. -/
theorem operand_of_not_forwarded {r : BitVec 5} (h : b.forwarded r = none) :
    b.operand r = Regfile.get b.arch.regs r := by
  unfold operand
  rw [h]
  rfl

/-- An instruction that depends on nothing gets the answer it is owed. -/
theorem env_of_independent (h : b.dependent = false) : b.env {} = b.arch.env := by
  unfold env Arch.env
  cases hmd : b.arch.isMd with
  | false => rw [if_neg Bool.false_ne_true, if_neg Bool.false_ne_true]
  | true =>
    obtain ⟨h1, h2⟩ := forwarded_of_independent hmd h
    rw [if_pos rfl, if_pos rfl, operand_of_not_forwarded h1, operand_of_not_forwarded h2]
    rfl

/-- The instruction behind depends on nothing, unless this one feeds it. -/
theorem independent_next (h : b.dependent = false) (hf : b.arch.feeds P = false) :
    (b.next P never).arch = b.arch.execute P ∧ b.shows P = b.arch.shows P ∧
      (b.next P never).dependent = false := by
  have henv := env_of_independent h
  have harch : (b.next P never).arch = b.arch.execute P := by
    unfold next step Arch.execute
    rw [henv]
    rfl
  have hshows : b.shows P = b.arch.shows P := by
    unfold shows events Arch.shows
    rw [henv]
    rfl
  refine ⟨harch, hshows, ?_⟩
  cases hearly : (b.next P never).early with
  | none => exact dependent_of_early hearly
  | some p =>
    cases hstr : (b.next P never).arch.straddles with
    | true => exact dependent_of_straddles hstr
    | false =>
      cases hmd : (b.next P never).arch.isMd with
      | false => exact dependent_of_not_md hmd
      | true =>
        -- what is forwarded first goes to the register of a two-beat access
        have hxw : b.xw P ({}, b.arch.csr) = b.arch.xw P b.arch.env := by
          unfold xw
          rw [henv]
          rfl
        have hwrites : ((b.arch.xw P b.arch.env).twoBeat &&
            (b.arch.xw P b.arch.env).writesRd) = true ∧ p.1 = (b.arch.xw P b.arch.env).rd := by
          unfold next step at hearly
          dsimp only at hearly
          rw [hxw] at hearly
          split at hearly
          case isFalse => cases hearly
          case isTrue hcond =>
            rw [Bool.and_eq_true] at hcond
            exact ⟨hcond.1, (congrArg Prod.fst (Option.some.inj hearly)).symm⟩
        unfold Arch.feeds at hf
        rw [← harch, hmd, hstr, hwrites.1, ← hwrites.2] at hf
        have hne : p.1 ≠ (b.next P never).rs1 ∧ p.1 ≠ (b.next P never).rs2 := by
          simpa [rs1, rs2] using hf
        unfold dependent forwarded
        rw [hmd, hstr, hearly, if_neg Bool.false_ne_true, if_neg Bool.false_ne_true,
          Option.bind_some, Option.bind_some, if_neg hne.1, if_neg hne.2]
        rfl

/-- **Without such a pair** the machine as it is built is the sequential machine. -/
theorem after_eq (h : b.dependent = false) (k : Nat)
    (hf : ∀ i < k, (b.arch.executed P i).feeds P = false) :
    (b.after P never k).arch = b.arch.executed P k ∧ b.trace P never k = b.arch.log P k ∧
      (b.after P never k).dependent = false := by
  induction k with
  | zero => exact ⟨rfl, rfl, h⟩
  | succ k ih =>
    obtain ⟨harch, htrace, hdep⟩ := ih fun i hi => hf i (Nat.lt_succ_of_lt hi)
    obtain ⟨harch', hshows, hdep'⟩ :=
      independent_next (P := P) hdep (harch ▸ hf k (Nat.lt_succ_self k))
    rw [after_succ, trace_succ, Arch.executed_succ, Arch.log_succ, ← harch, htrace, hshows]
    exact ⟨harch', rfl, hdep'⟩

end Built

/-! ## The pipeline -/

/-- The relation of runs on a read-only instruction memory, with what the M unit is
working on. -/
structure Follows (s : Sys P) (b : Built) : Prop where
  tracks : Tracks never s b
  harvard : Harvard s b.arch

/-- What the environment and the program promise in a clock. -/
structure Alone (_s : Sys P) (e : ExtIn) (b : Built) : Prop where
  irq : e.irq = {}
  dbg : e.dbgHaltreq = false
  counter : b.arch.readsCounter = false

namespace Follows

variable {s : Sys P} {e : ExtIn} {b : Built}

theorem unattended (h : Follows s b) (hok : Alone s e b) : Unattended s e b :=
  ⟨hok.irq, hok.dbg, h.harvard.fetchClean, hok.counter, h.harvard.not_stale⟩

/-- An instruction that leaves X takes the same step in both relations. -/
theorem next_arch (h : Follows s b) (hok : Alone s e b) (hc : s.commits = true) :
    (b.next P never).arch = b.arch.step P never (s.label e) := by
  have hcalm := (h.unattended hok).calm h.tracks h.harvard.quiet
  have henv : b.env {} = s.label e :=
    (Tracks.env_calm hok.irq).symm.trans (h.tracks.label_eq hcalm.toSteady hc)
  unfold Built.next Built.step
  rw [henv]
  rfl

theorem refines (P : Params) :
    Refines (Sys.step (P := P) never) (fun s _ => s.backend.shown) (fun s _ => s.commits)
      (fun _ _ => ()) (fun b _ => b.next P never) (fun b _ => b.shows P) Follows
      (fun s => s.backend.pending never) Alone where
  stutter s e b h hok hc := by
    have hcalm := (h.unattended hok).calm h.tracks h.harvard.quiet
    obtain ⟨ht, hpend⟩ := (Tracks.refines_calm P never).stutter s e b h.tracks hcalm hc
    have hd := h.harvard.undisturbed hok.irq hok.dbg hok.counter
    exact ⟨⟨ht, (h.harvard.stutter hd hok.dbg hc).1⟩, hpend⟩
  commit s e b h hok hc := by
    have hcalm := (h.unattended hok).calm h.tracks h.harvard.quiet
    obtain ⟨ht, hpend⟩ := (Tracks.refines_calm P never).commit s e b h.tracks hcalm hc
    have hd := h.harvard.undisturbed hok.irq hok.dbg hok.counter
    refine ⟨⟨ht, ?_⟩, hpend⟩
    rw [h.next_arch hok hc]
    exact (h.harvard.commit hd hok.dbg hc).1

theorem rank_step (h : Follows s b) (hok : Alone s e b) (hc : s.commits = false) :
    (s.step never e).core.rank < s.core.rank :=
  (h.unattended hok).rank_step h.tracks h.harvard.quiet hc

theorem reset (s : Sys P) (e : ExtIn) :
    Follows (s.reset never e) (s.reset never e).builtBoot ∧
      (s.reset never e).backend.pending never = [] :=
  ⟨⟨(Tracks.reset never s e).1, (Harvard.reset s e).1⟩, (Tracks.reset never s e).2⟩

end Follows

/-- What a program promises of its first `k` instructions: they read no counter, nor does
the one behind them, and there is no pair that is excluded. -/
structure Paced (P : Params) (a : Arch) (k : Nat) : Prop where
  counter : ∀ i ≤ k, (a.executed P i).readsCounter = false
  feeds : ∀ i < k, (a.executed P i).feeds P = false

instance (a : Arch) (k : Nat) : Decidable (Paced P a k) :=
  decidable_of_iff ((∀ i < k + 1, (a.executed P i).readsCounter = false) ∧
      ∀ i < k, (a.executed P i).feeds P = false)
    ⟨fun h => ⟨fun i hi => h.1 i (Nat.lt_succ_of_le hi), h.2⟩,
      fun h => ⟨fun i hi => h.counter i (Nat.le_of_lt_succ hi), h.feeds⟩⟩

section Run

variable {s₀ : Sys P} {e₀ : ExtIn} {ins : Nat → ExtIn} {k : Nat}

/-- The number of instructions that have left X before clock `n`. -/
def issuedCount (s₀ : Sys P) (e₀ : ExtIn) (ins : Nat → ExtIn) (n : Nat) : Nat :=
  (labels (Sys.step never) (fun s _ => s.commits) (fun _ _ => ()) (s₀.reset never e₀) ins n).length

/-- The labels are only counted. -/
theorem labels_count (n : Nat) :
    labels (Sys.step never) (fun s _ => s.commits) (fun _ _ => ()) (s₀.reset never e₀) ins n =
      List.replicate (issuedCount s₀ e₀ ins n) () :=
  labels_eq_replicate n fun _ _ _ => rfl

/-- The machine as it is built executes the program. -/
theorem Paced.built (hprog : Paced P (s₀.reset never e₀).archBoot k) {i : Nat} (hi : i ≤ k) :
    ((s₀.reset never e₀).builtBoot.after P never i).arch =
        (s₀.reset never e₀).archBoot.executed P i ∧
      (s₀.reset never e₀).builtBoot.trace P never i = (s₀.reset never e₀).archBoot.log P i := by
  obtain ⟨harch, htrace, -⟩ := Built.after_eq (P := P) (b := (s₀.reset never e₀).builtBoot)
    (Built.dependent_of_early rfl) i fun j hj => hprog.feeds j (Nat.lt_of_lt_of_le hj hi)
  exact ⟨harch, htrace⟩

/-- So the clocks up to then keep its promises. -/
theorem Paced.alone (hprog : Paced P (s₀.reset never e₀).archBoot k)
    (hirq : ∀ n, (ins n).irq = {}) (hdbg : ∀ n, (ins n).dbgHaltreq = false) (n : Nat)
    (hn : issuedCount s₀ e₀ ins n ≤ k) :
    Alone (harvardRun s₀ e₀ ins n) (ins n)
      (seqRun (fun b _ => b.next P never) (s₀.reset never e₀).builtBoot
        (labels (Sys.step never) (fun s _ => s.commits) (fun _ _ => ())
          (s₀.reset never e₀) ins n)) := by
  rw [labels_count]
  refine ⟨hirq n, hdbg n, ?_⟩
  have harch := (hprog.built hn).1
  unfold Built.after at harch
  rw [harch]
  exact hprog.counter _ hn

/-- Nothing else is shown. -/
theorem Paced.shows_le (hirq : ∀ n, (ins n).irq = {}) (hdbg : ∀ n, (ins n).dbgHaltreq = false)
    (n : Nat) (hprog : Paced P (s₀.reset never e₀).archBoot n) :
    issuedCount s₀ e₀ ins n ≤ n ∧ harvardTrace s₀ e₀ ins n <+:
      (s₀.reset never e₀).archBoot.log P (issuedCount s₀ e₀ ins n) := by
  have hle : ∀ j ≤ n, issuedCount s₀ e₀ ins j ≤ n := fun j hj =>
    Nat.le_trans (labels_length_le_self j) hj
  obtain ⟨h0, hpend⟩ := Follows.reset s₀ e₀
  have h := (Follows.refines P).trace_isPrefix h0 hpend n fun j hj =>
    hprog.alone hirq hdbg j (hle j (Nat.le_of_lt hj))
  rw [labels_count] at h
  have h' : harvardTrace s₀ e₀ ins n <+:
      (s₀.reset never e₀).builtBoot.trace P never (issuedCount s₀ e₀ ins n) := h
  rw [(hprog.built (hle n (Nat.le_refl n))).2] at h'
  exact ⟨hle n (Nat.le_refl n), h'⟩

/-- And all of it is shown, after no more than 44 clocks for each instruction. -/
theorem Paced.shows_log (hprog : Paced P (s₀.reset never e₀).archBoot k)
    (hirq : ∀ n, (ins n).irq = {}) (hdbg : ∀ n, (ins n).dbgHaltreq = false) :
    ∃ n ≤ 44 * (k + 1), harvardTrace s₀ e₀ ins n = (s₀.reset never e₀).archBoot.log P k := by
  obtain ⟨h0, hpend⟩ := Follows.reset s₀ e₀
  obtain ⟨n, hn, hlen, -, htr⟩ := (Follows.refines P).reaches_within h0 hpend
    (fun s => s.core.rank_le) (fun _ _ _ h hok hc => h.rank_step hok hc) k
    fun j _ hj => hprog.alone hirq hdbg j hj
  rw [labels_count, show issuedCount s₀ e₀ ins n = k from hlen] at htr
  exact ⟨n + 1, hn, htr.trans (hprog.built (Nat.le_refl k)).2⟩

end Run

/-- **The core executes programs with the M extension**: without interrupts and halt
requests, whatever the predictor guesses and however long the M unit takes, what the core
has shown at any clock is a prefix of the log of the sequential machine, which multiplies
and divides by itself, and the log of `k` instructions is shown within `44 * (k + 1)`
clocks. -/
theorem programs_refine (P : Params) (s₀ : Sys P) (e₀ : ExtIn) (ins : Nat → ExtIn)
    (hirq : ∀ n, (ins n).irq = {}) (hdbg : ∀ n, (ins n).dbgHaltreq = false) :
    (∀ n, Paced P (s₀.reset never e₀).archBoot n →
      ∃ k ≤ n, harvardTrace s₀ e₀ ins n <+: (s₀.reset never e₀).archBoot.log P k) ∧
    (∀ k, Paced P (s₀.reset never e₀).archBoot k →
      ∃ n ≤ 44 * (k + 1),
        harvardTrace s₀ e₀ ins n = (s₀.reset never e₀).archBoot.log P k) := by
  constructor
  · intro n hprog
    exact ⟨_, hprog.shows_le hirq hdbg n⟩
  · intro k hprog
    exact hprog.shows_log hirq hdbg

/-! ## A program -/

/-- `mul x0, x1, x1; jal x0, -4` -/
def squares : Sys {} where
  core := Core.powerUp {}
  mem := { imem := .ofWords [0x02108033#32, 0xffdff06f#32], dmem := fun _ => 0#8 }

theorem programs_refine_squares :
    (∃ k ≤ 6, harvardTrace squares {} (fun _ => {}) 6 <+:
      (squares.reset never {}).archBoot.log {} k) ∧
    ∃ n ≤ 132, harvardTrace squares {} (fun _ => {}) n =
      (squares.reset never {}).archBoot.log {} 2 :=
  have h := programs_refine {} squares {} (fun _ => {}) (fun _ => rfl) (fun _ => rfl)
  ⟨h.1 6 (by decide +kernel), h.2 2 (by decide +kernel)⟩

end ThreeSippEs
