import ThreeSippEs.Pipeline.Prediction

/-!
# Halt and resume

Halts may come in any clock. What the core shows and where it resumes is compared
with the machine that executes the program one instruction after the other.

- `machineAt`, `history`: the machine after the instructions that have left X, and
  what they show;
- `halted_exact`: in Debug Mode all of them have retired and `dpc` is the next one;
- `uncounted`: without interrupts the schedule of the halts is not in the history;
- `grows`: a core that is let go executes on;
- `halts_transparent`: the law.
-/

namespace ThreeSippEs.HaltResume

open Clocked

variable {P : Params} {imemWritable : Word → Bool}

/-- The labels of the instructions that have left X before clock `n`. -/
abbrev issuedBy (imemWritable : Word → Bool) (s₀ : Sys P) (e₀ : ExtIn) (ins : Nat → ExtIn)
    (n : Nat) : List (Env × Csr) :=
  labels (Sys.step imemWritable) (fun s _ => s.commits) (fun s e => (s.label e, s.core.csr))
    (s₀.reset imemWritable e₀) ins n

/-- The machine after them. -/
abbrev machineAt (imemWritable : Word → Bool) (s₀ : Sys P) (e₀ : ExtIn) (ins : Nat → ExtIn)
    (n : Nat) : Built :=
  seqRun (Built.step P imemWritable) (s₀.reset imemWritable e₀).builtBoot
    (issuedBy imemWritable s₀ e₀ ins n)

/-- What they show. -/
abbrev history (imemWritable : Word → Bool) (s₀ : Sys P) (e₀ : ExtIn) (ins : Nat → ExtIn)
    (n : Nat) : List Event :=
  seqTrace (Built.step P imemWritable) (Built.events P) (s₀.reset imemWritable e₀).builtBoot
    (issuedBy imemWritable s₀ e₀ ins n)

section Run

variable {s₀ : Sys P} {e₀ : ExtIn} {ins : Nat → ExtIn} {n : Nat}

/-! ## One run -/

theorem issuedBy_succ (n : Nat) :
    issuedBy imemWritable s₀ e₀ ins (n + 1) = issuedBy imemWritable s₀ e₀ ins n ++
      if (run (Sys.step imemWritable) (s₀.reset imemWritable e₀) ins n).commits then
        [((run (Sys.step imemWritable) (s₀.reset imemWritable e₀) ins n).label (ins n),
          (run (Sys.step imemWritable) (s₀.reset imemWritable e₀) ins n).core.csr)] else [] := rfl

theorem follows (hok : ∀ k < n,
    Orderly imemWritable (run (Sys.step imemWritable) (s₀.reset imemWritable e₀) ins k) (ins k)
      (machineAt imemWritable s₀ e₀ ins k)) :
    Tracks imemWritable (run (Sys.step imemWritable) (s₀.reset imemWritable e₀) ins n)
        (machineAt imemWritable s₀ e₀ ins n) ∧
      shownBy imemWritable s₀ e₀ ins n ++
        (run (Sys.step imemWritable) (s₀.reset imemWritable e₀) ins n).backend.pending
          imemWritable = history imemWritable s₀ e₀ ins n := by
  obtain ⟨h0, hpend⟩ := Tracks.reset imemWritable s₀ e₀
  exact (Tracks.refines P imemWritable).run h0 hpend n hok

/-- **In Debug Mode** everything that was executed has retired, and `dpc` is the address
of the next instruction. -/
theorem halted_exact (hok : ∀ k < n,
    Orderly imemWritable (run (Sys.step imemWritable) (s₀.reset imemWritable e₀) ins k) (ins k)
      (machineAt imemWritable s₀ e₀ ins k))
    (hm : (run (Sys.step imemWritable) (s₀.reset imemWritable e₀) ins n).core.dbg.dbgMode = true) :
    (run (Sys.step imemWritable) (s₀.reset imemWritable e₀) ins n).core.dbg.dpc =
        (machineAt imemWritable s₀ e₀ ins n).arch.pc ∧
      shownBy imemWritable s₀ e₀ ins n = history imemWritable s₀ e₀ ins n := by
  obtain ⟨ht, htrace⟩ := follows hok
  obtain ⟨hdpc, -, hw⟩ := ht.sim.halted hm
  have hpend := (Backend.drained_empty imemWritable (b := (run (Sys.step imemWritable)
    (s₀.reset imemWritable e₀) ins n).backend) hw).2.1
  rw [hpend, List.append_nil] at htrace
  exact ⟨hdpc, htrace⟩

/-- **Without interrupts** the history is that of the program. -/
theorem uncounted (hok : ∀ k < n,
    Orderly imemWritable (run (Sys.step imemWritable) (s₀.reset imemWritable e₀) ins k) (ins k)
      (machineAt imemWritable s₀ e₀ ins k))
    (hirq : ∀ k < n, (ins k).irq = {})
    (hctr : ∀ k, ((s₀.reset imemWritable e₀).builtBoot.after P imemWritable k).arch.readsCounter =
      false) :
    machineAt imemWritable s₀ e₀ ins n = (s₀.reset imemWritable e₀).builtBoot.after P imemWritable
        (issuedBy imemWritable s₀ e₀ ins n).length ∧
      history imemWritable s₀ e₀ ins n = (s₀.reset imemWritable e₀).builtBoot.trace P imemWritable
        (issuedBy imemWritable s₀ e₀ ins n).length := by
  induction n with
  | zero => exact ⟨rfl, rfl⟩
  | succ n ih =>
    obtain ⟨hmach, hhist⟩ := ih (fun k hk => hok k (by omega)) fun k hk => hirq k (by omega)
    have ht := (follows fun k hk => hok k (Nat.lt_succ_of_lt hk)).1
    cases hc : (run (Sys.step imemWritable) (s₀.reset imemWritable e₀) ins n).commits with
    | false =>
      unfold machineAt history
      rw [issuedBy_succ, hc, if_neg Bool.false_ne_true, List.append_nil]
      exact ⟨hmach, hhist⟩
    | true =>
      have hctr' : (machineAt imemWritable s₀ e₀ ins n).arch.readsCounter = false := by
        rw [hmach]
        exact hctr _
      obtain ⟨hstep, hev⟩ := @Built.step_uncounted P imemWritable _ _ _ ht.sim.csr hctr'
        (Tracks.env_calm (hirq n (Nat.lt_succ_self n)))
      unfold machineAt history
      rw [issuedBy_succ, hc, if_pos rfl, seqRun_append, seqTrace_append, seqTrace_singleton,
        List.length_append, List.length_singleton, Built.after_succ, Built.trace_succ, ← hmach,
        ← hhist]
      exact ⟨hstep, congrArg _ hev⟩

/-! ## Let go -/

/-- The debugger never sets `dcsr.step`, so that the core never steps. -/
theorem unstepped (hok : ∀ k < n,
    Orderly imemWritable (run (Sys.step imemWritable) (s₀.reset imemWritable e₀) ins k) (ins k)
      (machineAt imemWritable s₀ e₀ ins k)) :
    (run (Sys.step imemWritable) (s₀.reset imemWritable e₀) ins n).core.dbg.dcsrStep = false ∧
      (run (Sys.step imemWritable) (s₀.reset imemWritable e₀) ins n).core.dbg.stepActive =
        false := by
  induction n with
  | zero => exact ⟨rfl, rfl⟩
  | succ n ih =>
    obtain ⟨hstep, hact⟩ := ih fun k hk => hok k (Nat.lt_succ_of_lt hk)
    have hw := (hok n (Nat.lt_succ_self n)).unwritten
    rw [run_succ]
    generalize run (Sys.step imemWritable) (s₀.reset imemWritable e₀) ins n = s at hstep hact hw ⊢
    show (s.core.step (s.coreIn (ins n))).dbg.dcsrStep = false ∧
      (s.core.step (s.coreIn (ins n))).dbg.stepActive = false
    cases hm : s.core.dbg.dbgMode with
    | true =>
      rw [Core.dbg_of_halted hm hw]
      unfold Core.dbgResume
      split
      · exact ⟨hstep, hstep⟩
      · exact ⟨hstep, hact⟩
    | false =>
      cases hd : s.core.dbg.haltReq && s.core.pipeDrained with
      | false =>
        rw [Core.dbg_stays hm hd]
        exact ⟨hstep, hact⟩
      | true =>
        rw [Bool.and_eq_true] at hd
        rw [Core.dbg_enters hm hd.1 hd.2]
        exact ⟨hstep, rfl⟩

/-- Running in clock `n` with no halt under way, and none requested afterwards. -/
structure Released (imemWritable : Word → Bool) (s₀ : Sys P) (e₀ : ExtIn) (ins : Nat → ExtIn)
    (n : Nat) : Prop where
  running : (run (Sys.step imemWritable) (s₀.reset imemWritable e₀) ins n).core.dbg.dbgMode = false
  haltReq : (run (Sys.step imemWritable) (s₀.reset imemWritable e₀) ins n).core.dbg.haltReq = false
  none : ∀ k ≥ n, (ins k).dbgHaltreq = false

theorem quiet_of_released (hok : ∀ k,
    Orderly imemWritable (run (Sys.step imemWritable) (s₀.reset imemWritable e₀) ins k) (ins k)
      (machineAt imemWritable s₀ e₀ ins k))
    (hrel : Released imemWritable s₀ e₀ ins n) (d : Nat) :
    Quiet (run (Sys.step imemWritable) (s₀.reset imemWritable e₀) ins (n + d)).core := by
  induction d with
  | zero =>
    have ht := (follows fun k (_ : k < n) => hok k).1
    exact ⟨ht.owned.toHandshake, hrel.running, hrel.haltReq, (unstepped fun k _ => hok k).2,
      ht.sim.ebreakm, ht.sim.captured, ht.owned.owned⟩
  | succ d ih =>
    exact ih.step (i := (run (Sys.step imemWritable) (s₀.reset imemWritable e₀) ins (n + d)).coreIn
      (ins (n + d))) (hrel.none (n + d) (by omega))

/-- **A core that is let go executes on**: there is a clock with an instruction leaving X
and `k` before it, and everything before it has been seen. -/
theorem grows (hok : ∀ k,
    Orderly imemWritable (run (Sys.step imemWritable) (s₀.reset imemWritable e₀) ins k) (ins k)
      (machineAt imemWritable s₀ e₀ ins k))
    (hrel : Released imemWritable s₀ e₀ ins n) (k : Nat) :
    ∃ d, k ≤ (issuedBy imemWritable s₀ e₀ ins (n + d)).length ∧
      (run (Sys.step imemWritable) (s₀.reset imemWritable e₀) ins (n + d)).commits = true := by
  have hrank : ∀ d,
      (run (Sys.step imemWritable) (s₀.reset imemWritable e₀) ins (n + d)).commits = false →
      (run (Sys.step imemWritable) (s₀.reset imemWritable e₀) ins (n + (d + 1))).core.rank <
        (run (Sys.step imemWritable) (s₀.reset imemWritable e₀) ins (n + d)).core.rank := by
    intro d hc
    have ht := (follows fun k (_ : k < n + d) => hok k).1
    rw [Sys.commits_eq_leaves (e := ins (n + d)) ht.sim.ebreakm] at hc
    exact (quiet_of_released hok hrel d).rank_step (hrel.none (n + d) (by omega)) hc
  have hnext := @first_event
    (fun d => (run (Sys.step imemWritable) (s₀.reset imemWritable e₀) ins (n + d)).commits)
    (fun d => (run (Sys.step imemWritable) (s₀.reset imemWritable e₀) ins (n + d)).core.rank) hrank
  have hmono : ∀ d, (issuedBy imemWritable s₀ e₀ ins (n + d)).length ≤
      (issuedBy imemWritable s₀ e₀ ins (n + (d + 1))).length := by
    intro d
    rw [← Nat.add_assoc, issuedBy_succ, List.length_append]
    exact Nat.le_add_right _ _
  induction k with
  | zero =>
    obtain ⟨d, -, hc, -⟩ := hnext 0
    exact ⟨d, Nat.zero_le _, hc⟩
  | succ k ih =>
    obtain ⟨d, hk, hc⟩ := ih
    obtain ⟨d', hle, hc', -⟩ := hnext (d + 1)
    refine ⟨d', ?_, hc'⟩
    have hone : (issuedBy imemWritable s₀ e₀ ins (n + (d + 1))).length =
        (issuedBy imemWritable s₀ e₀ ins (n + d)).length + 1 := by
      rw [← Nat.add_assoc, issuedBy_succ, hc, if_pos rfl, List.length_append, List.length_singleton]
    have hup : (issuedBy imemWritable s₀ e₀ ins (n + (d + 1))).length ≤
        (issuedBy imemWritable s₀ e₀ ins (n + d')).length :=
      Nat.le_induction (Nat.le_refl _) (fun j _ ih => ih.trans (hmono j)) d' hle
    omega

end Run

/-! ## The law -/

/-- A run to compare with, in which no halt is requested: no interrupts, no stale
prediction, and a program that reads no counter and runs FENCE.I before what it has
written. -/
structure WithoutHalts (imemWritable : Word → Bool) (s₀ : Sys P) (e₀ : ExtIn)
    (ins ins' : Nat → ExtIn) : Prop where
  irq : ∀ k, (ins k).irq = {} ∧ (ins' k).irq = {}
  dbg : ∀ k, (ins' k).dbgHaltreq = false
  clean : ∀ k, ((s₀.reset imemWritable e₀).builtBoot.after P imemWritable k).arch.fetchClean = true
  counter : ∀ k,
    ((s₀.reset imemWritable e₀).builtBoot.after P imemWritable k).arch.readsCounter = false
  checked : ∀ k, ((run (Sys.step imemWritable) (s₀.reset imemWritable e₀) ins' k).xIn
    (ins' k)).stale P = false

/-- **Halts are transparent** in a run whose clocks are all orderly. What the core has
shown and what W still holds are the history of the instructions executed in program
order; in Debug Mode all of it has been shown and `dpc` is the next instruction. Without
interrupts that is a part of what the run without halts shows, and all of it once the
core is let go. -/
theorem halts_transparent (P : Params) (imemWritable : Word → Bool) (s₀ : Sys P) (e₀ : ExtIn)
    (ins : Nat → ExtIn) (n : Nat) (hok : ∀ k < n,
      Orderly imemWritable (run (Sys.step imemWritable) (s₀.reset imemWritable e₀) ins k) (ins k)
        (machineAt imemWritable s₀ e₀ ins k)) :
    (shownBy imemWritable s₀ e₀ ins n ++
        (run (Sys.step imemWritable) (s₀.reset imemWritable e₀) ins n).backend.pending
          imemWritable = history imemWritable s₀ e₀ ins n) ∧
      ((run (Sys.step imemWritable) (s₀.reset imemWritable e₀) ins n).core.dbg.dbgMode = true →
        (run (Sys.step imemWritable) (s₀.reset imemWritable e₀) ins n).core.dbg.dpc =
            (machineAt imemWritable s₀ e₀ ins n).arch.pc ∧
          shownBy imemWritable s₀ e₀ ins n = history imemWritable s₀ e₀ ins n) ∧
      ∀ ins', WithoutHalts imemWritable s₀ e₀ ins ins' →
        (∃ m, shownBy imemWritable s₀ e₀ ins n <+: shownBy imemWritable s₀ e₀ ins' m) ∧
        ((∀ k, Orderly imemWritable (run (Sys.step imemWritable) (s₀.reset imemWritable e₀) ins k)
            (ins k) (machineAt imemWritable s₀ e₀ ins k)) →
          Released imemWritable s₀ e₀ ins n →
          ∀ m, ∃ m', shownBy imemWritable s₀ e₀ ins' m <+: shownBy imemWritable s₀ e₀ ins m') := by
  have hfollows := (follows hok).2
  refine ⟨hfollows, fun hm => halted_exact hok hm, fun ins' h => ?_⟩
  obtain ⟨hsafe, hlive⟩ := unattended_trace (fun k => (h.irq k).2) h.dbg
    (fun k => ⟨h.clean k, h.counter k⟩) h.checked
  constructor
  · have hhist := (uncounted hok (fun k _ => (h.irq k).1) h.counter).2
    obtain ⟨m, hm⟩ := hlive (issuedBy imemWritable s₀ e₀ ins n).length
    refine ⟨m, ?_⟩
    rw [hm, ← hhist, ← hfollows]
    exact List.prefix_append _ _
  · intro hall hrel m
    obtain ⟨k, hk⟩ := hsafe m
    obtain ⟨d, hlen, hc⟩ := grows hall hrel k
    -- in the clock of a commit everything before it is shown
    obtain ⟨ht, htrace⟩ := follows fun j (_ : j < n + d) => hall j
    have hshown := (ht.commit (hall (n + d)) hc).2.1
    have hhist := (uncounted (fun j (_ : j < n + d) => hall j) (fun j _ => (h.irq j).1) h.counter).2
    refine ⟨n + d + 1, (hk.trans (Built.trace_le _ hlen)).trans ?_⟩
    rw [← hhist, ← htrace, ← hshown]
    exact List.prefix_rfl

/-- A halt in clock 3, taken back in clock 8. -/
def haltedOnce : Nat → ExtIn
  | 3 => { dbgHaltreq := true }
  | 8 => { dbgResumereq := true }
  | _ => {}

/-- The loop is halted and goes on. -/
theorem halts_transparent_loop :
    (run (Sys.step never) ((loop false).reset never {}) haltedOnce 8).core.dbg.dbgMode = true ∧
      ∃ m, shownBy never (loop false) {} haltedOnce 14 <+:
        shownBy never (loop false) {} (fun _ => {}) m := by
  refine ⟨by decide +kernel, ((halts_transparent { bpred := false } never (loop false) {}
    haltedOnce 14 fun k hk => ?_).2.2 (fun _ => {}) ?_).1⟩
  · have hcases : ∀ k < 14, Orderly never
        (run (Sys.step never) ((loop false).reset never {}) haltedOnce k) (haltedOnce k)
        (machineAt never (loop false) {} haltedOnce k) := by decide +kernel
    exact hcases k hk
  · refine ⟨fun k => ⟨?_, rfl⟩, fun _ => rfl, fun k => ?_, fun k => ?_, fun k =>
      XIn.stale_of_unpredicted (Sys.unpredicted_run rfl (loop false) {} (fun _ => {}) k)⟩
    · unfold haltedOnce
      split <;> rfl
    · exact (loop_built false k).1
    · exact (loop_built false k).2

/-- `mul x2, x1, x1; jal x0, 0` -/
def mulThenSpin : Sys {} where
  core := Core.powerUp _
  mem := { imem := .ofWords [0x02108133#32, 0x0000006f#32], dmem := fun _ => 0#8 }

/-- A halt in the first clock of the MUL in X, taken back in clock 4. -/
def haltedOnMul : Nat → ExtIn
  | 1 => { dbgHaltreq := true }
  | 4 => { dbgResumereq := true }
  | _ => {}

/-- The MUL is lost: Debug Mode is entered behind it, it never retires, and after the
resume the instruction behind it does. -/
theorem mul_lost_in_halt :
    (run (Sys.step never) (mulThenSpin.reset never {}) haltedOnMul 3).core.dbg.dbgMode = true ∧
      (run (Sys.step never) (mulThenSpin.reset never {}) haltedOnMul 3).core.dbg.dpc = 4#32 ∧
      shownBy never mulThenSpin {} haltedOnMul 3 = [] ∧
      ¬ ∀ n, ∃ m, shownBy never mulThenSpin {} haltedOnMul n <+:
        shownBy never mulThenSpin {} (fun _ => {}) m := by
  refine ⟨by decide +kernel, by decide +kernel, by decide +kernel, fun h => ?_⟩
  obtain ⟨m, hm⟩ := h 9
  rcases Nat.le_total m 9 with hle | hge
  · exact absurd (hm.trans (trace_le hle)) (by decide +kernel)
  · rcases List.prefix_or_prefix_of_prefix hm (trace_le hge) with hpre | hpre
    · exact absurd hpre (by decide +kernel)
    · exact absurd hpre (by decide +kernel)

end ThreeSippEs.HaltResume
