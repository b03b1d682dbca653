import ThreeSippEs.Pipeline.Quiet

/-!
# The pipeline refines the sequential machine

With an instruction memory that is never written, no interrupt and no halt
request, a prediction is never stale: a BTB entry is installed for a branch or a
JAL, and the instruction at its address stays what it is. So nothing disturbs
the simulation.

- `Harvard`: the relation of such runs;
- `pipeline_refines`: the core shows the trace of the sequential machine, all of
  it and nothing else.
-/

namespace ThreeSippEs

open Clocked MulDivHazard

variable {P : Params}

/-! ## The predictor knows the program -/

/-- A branch or JAL, what the BTB is trained on. -/
def isDirectJump (instr : Word) : Bool := (decode instr).isBranch || (decode instr).isJal

namespace Bytes

theorem half_congr (m : Bytes) {p q : Word} (h : p.toNat / 2 = q.toNat / 2) :
    m.half p = m.half q := by
  have hsame : ∀ b : BitVec 1, p.extractLsb 31 1 ++ b = q.extractLsb 31 1 ++ b := by
    intro b
    apply BitVec.eq_of_toNat_eq
    rw [half_toNat, half_toNat, h]
  unfold half
  rw [hsame, hsame]

/-- The instruction does not depend on the lowest bit of its address. -/
theorem instrAt_of_half {m : Bytes} {p q : Word} (h : p.toNat / 2 = q.toNat / 2) :
    m.instrAt p = m.instrAt q := by
  have hnext : (p + 2#32).toNat / 2 = (q + 2#32).toNat / 2 := by
    have hp := p.isLt
    have hq := q.isLt
    have h2 : (2#32).toNat = 2 := rfl
    rw [BitVec.toNat_add, BitVec.toNat_add]
    omega
  unfold instrAt compAt
  rw [m.half_congr h, m.half_congr hnext]

end Bytes

namespace Bpred

variable {b : Bpred P} {u : BpUpdate P} {p : Word}

/-- Index and tag of the BTB are the whole halfword address. -/
theorem half_of_tag {q : Word} (hidx : btbIdx (P := P) p = btbIdx q)
    (htag : btbTag (P := P) p = btbTag q) : p.toNat / 2 = q.toNat / 2 := by
  have hbits : ∀ k, 1 ≤ k → p.getLsbD k = q.getLsbD k := by
    intro k hk
    by_cases hlt : k < 32
    · by_cases hi : k - 1 < P.btbBits
      · have h := congrArg (fun v => v.getLsbD (k - 1)) hidx
        unfold btbIdx at h
        simp only [BitVec.getLsbD_extractLsb', hi, decide_true, Bool.true_and] at h
        rwa [Nat.add_sub_cancel' hk] at h
      · have h := congrArg (fun v => v.getLsbD (k - 1 - P.btbBits)) htag
        unfold btbTag at h
        have hw : k - 1 - P.btbBits < 32 - P.btbBits - 1 := by omega
        simp only [BitVec.getLsbD_extractLsb', hw, decide_true, Bool.true_and] at h
        rwa [show P.btbBits + 1 + (k - 1 - P.btbBits) = k by omega] at h
    · rw [BitVec.getLsbD_of_ge _ _ (by omega), BitVec.getLsbD_of_ge _ _ (by omega)]
  apply Nat.eq_of_testBit_eq
  intro k
  have h := hbits (k + 1) (by omega)
  unfold BitVec.getLsbD at h
  rw [Nat.testBit_div_two, Nat.testBit_div_two]
  exact h

/-- A hit was there before, or has just been installed. -/
theorem btbHit_step (h : (b.step u).btbHit p = true) :
    b.btbHit p = true ∨ (u.en = true ∧ p.toNat / 2 = u.pc.toNat / 2) := by
  unfold step at h
  split at h
  case isFalse => exact Or.inl h
  case isTrue hen =>
    rw [Bool.and_eq_true] at hen
    have htrain : (b.trainBht u).btb = b.btb := by
      unfold trainBht
      split <;> rfl
    unfold install at h
    split at h
    case isFalse =>
      left
      unfold btbHit at h ⊢
      rw [htrain] at h
      exact h
    case isTrue =>
      by_cases hidx : btbIdx (P := P) p = btbIdx u.pc
      · right
        refine ⟨hen.2, half_of_tag hidx ?_⟩
        unfold btbHit at h
        dsimp only at h
        rw [if_pos hidx] at h
        simp only [Bool.and_eq_true, beq_iff_eq] at h
        exact h.2.symm
      · left
        unfold btbHit at h ⊢
        dsimp only at h
        rw [if_neg hidx, htrain] at h
        exact h

end Bpred

theorem Ras.isJalr_of_fIsRet {instr : Word} (h : Ras.fIsRet P instr = true) :
    (decode instr).isJalr = true := by
  unfold Ras.fIsRet Ras.fIsJalr Ras.fOp at h
  simp only [Bool.and_eq_true, beq_iff_eq] at h
  have hop : Decode.opcode instr = opJalr := h.1.1.2
  unfold decode
  rw [hop]
  rfl

/-! ## Runs on an instruction memory that is never written -/

/-- No data write reaches the instruction memory. -/
abbrev never : Word → Bool := fun _ => false

/-- The relation of runs on which nothing is ever disturbed. -/
structure Harvard (s : Sys P) (a : Arch) : Prop where
  sim : s.Sim never a
  quiet : Quiet s.core
  clean : ∀ b, a.dirty b = false
  /-- the BTB is trained on what is in the program -/
  btb : ∀ p, s.core.bp.btbHit p = true → isDirectJump (a.mem.imem.instrAt p) = true
  /-- only jumps and branches are predicted taken -/
  predicted : s.core.f.fxValid = true → s.core.f.fxPredTaken = true →
    isDirectJump s.core.f.fxInstr = true ∨ (decode s.core.f.fxInstr).isJalr = true

namespace Harvard

variable {s : Sys P} {a : Arch} {e : ExtIn}

theorem fetchClean (h : Harvard s a) : a.fetchClean = true := by
  unfold Arch.fetchClean Arch.halfClean
  rw [h.clean, h.clean, h.clean, h.clean]
  simp

theorem not_stale (h : Harvard s a) : (s.xIn e).stale P = false := by
  by_contra hst
  rw [Bool.not_eq_false] at hst
  unfold XIn.stale at hst
  simp only [Bool.and_eq_true, Bool.not_eq_true', bne_iff_ne] at hst
  obtain ⟨⟨⟨⟨⟨hl, -⟩, hbr⟩, hjal⟩, hjalr⟩, hne⟩ := hst
  have htaken : s.core.f.fxPredTaken = true := by
    by_contra ht
    rw [Bool.not_eq_true] at ht
    refine hne ?_
    show (if s.core.f.fxPredTaken then _ else (s.xIn e).seqNx) = _
    rw [ht, if_neg Bool.false_ne_true]
  rcases h.predicted (XIn.leaves_iff.mp hl).1 htaken with hj | hj
  · unfold isDirectJump at hj
    rw [show (decode s.core.f.fxInstr).isBranch = false from hbr,
      show (decode s.core.f.fxInstr).isJal = false from hjal] at hj
    exact Bool.false_ne_true hj
  · exact absurd (show (decode s.core.f.fxInstr).isJalr = false from hjalr) (by simp [hj])

theorem undisturbed (h : Harvard s a) (hirq : e.irq = {}) (hdbg : e.dbgHaltreq = false)
    (hctr : a.readsCounter = false) : s.Undisturbed e a :=
  Sys.undisturbed_of_quiet h.sim h.quiet hirq hdbg (fun _ => h.fetchClean) h.not_stale
    fun _ => hctr

/-- An instruction that is resolved in X is the one at its address. -/
theorem btb_step (h : Harvard s a) (p : Word)
    (hhit : (s.step never e).core.bp.btbHit p = true) :
    isDirectJump (a.mem.imem.instrAt p) = true := by
  rcases Bpred.btbHit_step hhit with hold | ⟨hen, hhalf⟩
  · exact h.btb p hold
  · unfold Core.bpUpdate at hen hhalf
    simp only [Bool.and_eq_true, Bool.not_eq_true'] at hen
    obtain ⟨⟨⟨hv, hfz⟩, -⟩, hjump⟩ := hen
    have hc : s.commits = true := by
      rw [Sys.commits_eq_leaves (e := e) h.sim.ebreakm]
      exact XIn.leaves_iff.mpr ⟨hv, hfz⟩
    have hpc : s.core.f.fxPc = a.pc := by
      have hpc := (h.sim.running h.quiet.mode).pc
      rw [hv, if_pos rfl] at hpc
      exact hpc
    rw [Bytes.instrAt_of_half hhalf, show s.core.f.fxPc = a.pc from hpc]
    show isDirectJump a.instr = true
    rw [← h.sim.fxInstr_eq hc h.fetchClean]
    exact hjump

/-- What F hands over is predicted as the program says. -/
theorem predicted_step (h : Harvard s a) {a' : Arch} (hmem : a'.mem.imem = a.mem.imem)
    (hclean : a'.fetchClean = true) (hrun : (s.step never e).core.f.Holds a')
    (hv : (s.step never e).core.f.fxValid = true)
    (ht : (s.step never e).core.f.fxPredTaken = true) :
    isDirectJump (s.step never e).core.f.fxInstr = true ∨
      (decode (s.step never e).core.f.fxInstr).isJalr = true := by
  have hinstr := (hrun.instr hv hclean).1
  have hpc := hrun.pc
  rw [hv, if_pos rfl] at hpc
  have hc := s.core.f.step_clock s.core.bp.ghist (s.core.fetchIn (s.coreIn e))
  have hf : (s.step never e).core.f =
      s.core.f.step s.core.bp.ghist (s.core.fetchIn (s.coreIn e)) := rfl
  rw [hf] at hv ht hinstr hpc ⊢
  generalize s.core.f.step s.core.bp.ghist (s.core.fetchIn (s.coreIn e)) = f' at hc hv ht hinstr hpc
  cases hc with
  | redirected | resumed | frozen | straddled => exact absurd hv Bool.false_ne_true
  | stalled => exact h.predicted hv ht
  | accepted =>
    have ht' : s.core.predictTakenF (s.coreIn e) = true := ht
    unfold Core.predictTakenF at ht'
    rw [Bool.or_eq_true] at ht'
    rcases ht' with hras | hbtb
    · right
      unfold Core.rasPredict at hras
      rw [Bool.and_eq_true] at hras
      exact Ras.isJalr_of_fIsRet hras.1
    · left
      unfold Bpred.predictTaken at hbtb
      rw [Bool.and_eq_true] at hbtb
      rw [hinstr]
      unfold Arch.instr
      rw [← hpc, hmem]
      exact h.btb _ hbtb.1

theorem touches_never (acc : Access) (b : Word) : acc.touches never b = false := by
  unfold Access.touches never
  simp

/-- No instruction changes the instruction memory. -/
theorem step_imem (a : Arch) (e : Env) : (a.step P never e).mem.imem = a.mem.imem := by
  funext b
  exact Memory.accesses_imem _ (fun acc _ => touches_never acc b) a.mem

theorem step_clean (h : ∀ b, a.dirty b = false) (e : Env) (b : Word) :
    (a.step P never e).dirty b = false := by
  unfold Arch.step
  dsimp only
  split
  · rfl
  · rw [h b, Bool.false_or, List.any_eq_false]
    intro acc _
    simp [touches_never acc b]

theorem fetchClean_of_clean {a : Arch} (h : ∀ b, a.dirty b = false) : a.fetchClean = true := by
  unfold Arch.fetchClean Arch.halfClean
  rw [h, h, h, h]
  simp

/-- A stuttering clock. -/
theorem stutter (h : Harvard s a) (hok : s.Undisturbed e a) (hdbg : e.dbgHaltreq = false)
    (hc : s.commits = false) :
    Harvard (s.step never e) a ∧
    s.backend.pending never = s.backend.shown ++ (s.step never e).backend.pending never := by
  obtain ⟨hsim, hpend⟩ := h.sim.stutter hok.steady hc
  have hquiet := h.quiet.step (i := s.coreIn e) hdbg
  exact ⟨⟨hsim, hquiet, h.clean, h.btb_step,
    h.predicted_step rfl h.fetchClean (hsim.running hquiet.mode)⟩, hpend⟩

/-- An instruction leaves X. -/
theorem commit (h : Harvard s a) (hok : s.Undisturbed e a) (hdbg : e.dbgHaltreq = false)
    (hc : s.commits = true) :
    Harvard (s.step never e) (a.step P never (s.label e)) ∧
    s.backend.shown = s.backend.pending never ∧
    (s.step never e).backend.pending never = a.events P (s.label e) := by
  obtain ⟨hsim, hpend⟩ := h.sim.commit hok hc
  have hquiet := h.quiet.step (i := s.coreIn e) hdbg
  have himem := step_imem (P := P) a (s.label e)
  have hclean := step_clean (P := P) h.clean (s.label e)
  refine ⟨⟨hsim, hquiet, hclean, ?_, ?_⟩, hpend⟩
  · intro p hhit
    rw [himem]
    exact h.btb_step p hhit
  · exact h.predicted_step himem (fetchClean_of_clean hclean) (hsim.running hquiet.mode)

/-- What the environment and the program promise in a clock. -/
structure Ok (P : Params) (_s : Sys P) (e : ExtIn) (a : Arch) : Prop where
  irq : e.irq = {}
  dbg : e.dbgHaltreq = false
  counter : a.readsCounter = false
  md : a.isMd = false

theorem refines (P : Params) :
    Refines (Sys.step (P := P) never) (fun s _ => s.backend.shown) (fun s _ => s.commits)
      (fun s e => s.label e) (Arch.step P never) (Arch.events P) Harvard
      (fun s => s.backend.pending never) (Ok P) where
  stutter _ _ _ h hok hc := h.stutter (h.undisturbed hok.irq hok.dbg hok.counter) hok.dbg hc
  commit _ _ _ h hok hc := h.commit (h.undisturbed hok.irq hok.dbg hok.counter) hok.dbg hc

theorem reset (s : Sys P) (e : ExtIn) :
    Harvard (s.reset never e) (s.reset never e).archBoot ∧
    (s.reset never e).backend.pending never = [] := by
  obtain ⟨hsim, hpend⟩ := Sys.sim_reset never s e
  refine ⟨⟨hsim, ⟨⟨Muldiv.Inv.reset s.core.md, rfl⟩, rfl, rfl, rfl, rfl, rfl, nofun⟩, fun _ => rfl, ?_,
    nofun⟩, hpend⟩
  -- the reset leaves the BTB without valid entries
  intro p hhit
  have hhit' : s.core.bp.reset.btbHit p = true := hhit
  unfold Bpred.reset Bpred.btbHit at hhit'
  split at hhit' <;> simp_all

end Harvard

/-- The run of the system out of reset, with the instruction memory read-only. -/
abbrev harvardRun (s₀ : Sys P) (e₀ : ExtIn) (ins : Nat → ExtIn) (n : Nat) : Sys P :=
  run (Sys.step never) (s₀.reset never e₀) ins n

/-- What it has shown before clock `n`. -/
def harvardTrace (s₀ : Sys P) (e₀ : ExtIn) (ins : Nat → ExtIn) (n : Nat) : List Event :=
  trace (Sys.step never) (fun s _ => s.backend.shown) (s₀.reset never e₀) ins n

section Run

variable {s₀ : Sys P} {e₀ : ExtIn} {ins : Nat → ExtIn}

/-- The labels of the committed instructions are empty, so that they are counted
only, and every clock keeps its promises. -/
theorem harvard_run (hirq : ∀ n, (ins n).irq = {}) (hdbg : ∀ n, (ins n).dbgHaltreq = false)
    (hprog : ∀ k, ((s₀.reset never e₀).archBoot.after P never k).isMd = false ∧
      ((s₀.reset never e₀).archBoot.after P never k).readsCounter = false) (n : Nat) :
    (∃ k, labels (Sys.step never) (fun s _ => s.commits) (fun s e => s.label e)
      (s₀.reset never e₀) ins n = List.replicate k {}) ∧
    ∀ j < n, Harvard.Ok P (harvardRun s₀ e₀ ins j) (ins j)
      (seqRun (Arch.step P never) (s₀.reset never e₀).archBoot
        (labels (Sys.step never) (fun s _ => s.commits) (fun s e => s.label e)
          (s₀.reset never e₀) ins j)) := by
  induction n with
  | zero => exact ⟨⟨0, rfl⟩, fun j hj => absurd hj (Nat.not_lt_zero j)⟩
  | succ n ih =>
    obtain ⟨⟨k, hk⟩, hok⟩ := ih
    obtain ⟨h0, hpend⟩ := Harvard.reset s₀ e₀
    have hRn := ((Harvard.refines P).run h0 hpend n hok).1
    have hokn : Harvard.Ok P (harvardRun s₀ e₀ ins n) (ins n)
        (seqRun (Arch.step P never) (s₀.reset never e₀).archBoot (labels (Sys.step never)
          (fun s _ => s.commits) (fun s e => s.label e) (s₀.reset never e₀) ins n)) := by
      rw [hk]
      exact ⟨hirq n, hdbg n, (hprog k).2, (hprog k).1⟩
    refine ⟨?_, fun j hj => ?_⟩
    · rw [labels]
      cases hc : (run (Sys.step never) (s₀.reset never e₀) ins n).commits with
      | false => exact ⟨k, by rw [hk]; simp⟩
      | true =>
        refine ⟨k + 1, ?_⟩
        rw [if_pos rfl, hk, List.replicate_succ',
          Sys.label_eq hRn.sim (hirq n) hc hRn.fetchClean hokn.md]
    · rcases Nat.lt_succ_iff_lt_or_eq.mp hj with hlt | rfl
      · exact hok j hlt
      · exact hokn

end Run

/-- **The pipeline refines the sequential machine**: whatever the predictor
guesses, what the core has shown at any clock is a prefix of the sequential
trace, and every sequential trace is shown at some clock. -/
theorem pipeline_refines (P : Params) (s₀ : Sys P) (e₀ : ExtIn) (ins : Nat → ExtIn)
    (hirq : ∀ n, (ins n).irq = {}) (hdbg : ∀ n, (ins n).dbgHaltreq = false)
    (hprog : ∀ k, ((s₀.reset never e₀).archBoot.after P never k).isMd = false ∧
      ((s₀.reset never e₀).archBoot.after P never k).readsCounter = false) :
    (∀ n, ∃ k, harvardTrace s₀ e₀ ins n <+: (s₀.reset never e₀).archBoot.trace P never k) ∧
    (∀ k, ∃ n, harvardTrace s₀ e₀ ins n = (s₀.reset never e₀).archBoot.trace P never k) := by
  obtain ⟨h0, hpend⟩ := Harvard.reset s₀ e₀
  constructor
  · intro n
    obtain ⟨⟨k, hk⟩, hok⟩ := harvard_run hirq hdbg hprog n
    have h := (Harvard.refines P).trace_isPrefix h0 hpend n hok
    rw [hk] at h
    exact ⟨k, h⟩
  · intro k
    have hrank : ∀ (t : Sys P) i b, Harvard t b → Harvard.Ok P t i b → t.commits = false →
        (t.step never i).core.rank < t.core.rank := by
      intro t i b ht hok hc
      rw [Sys.commits_eq_leaves (e := i) ht.sim.ebreakm] at hc
      exact ht.quiet.rank_step hok.dbg hc
    obtain ⟨n, hlen, -, htr⟩ := (Harvard.refines P).reaches h0 hpend (fun s => s.core.rank)
      (fun j => (harvard_run hirq hdbg hprog (j + 1)).2 j (Nat.lt_succ_self j)) hrank k
    obtain ⟨⟨k', hk⟩, -⟩ := harvard_run hirq hdbg hprog n
    rw [hk] at htr hlen
    rw [List.length_replicate] at hlen
    subst hlen
    exact ⟨n + 1, htr⟩

/-! ## A loop -/

/-- A load, an instruction that needs its value at once, a store that needs that one at
once, and the way back. -/
def loop (b : Bool) : Sys { bpred := b } where
  core := Core.powerUp _
  mem :=
    { imem := .ofWords
        [0x04002083#32,   -- lw x1, 64(x0)
         0x00008113#32,   -- addi x2, x1, 0
         0x04202023#32,   -- sw x2, 64(x0)
         0xff5ff06f#32]   -- jal x0, -12
      dmem := fun _ => 1#8 }

/-- The sequential machine after `k` instructions of the loop. -/
def loopAt (b : Bool) (k : Nat) : Arch :=
  ((loop b).reset never {}).archBoot.after { bpred := b } never k

/-- What two rounds do beside the registers: they store what the memory holds. -/
theorem loop_rounds : ∀ b, ∀ k < 8, (loopAt b k).keepsFiles { bpred := b } {} = true ∧
    ((loopAt b k).xIn {}).isFencei = false ∧
    ∀ acc ∈ (loopAt b k).accesses { bpred := b } {}, acc.data = 0x01010101#32 := by
  decide +kernel

/-- A store of bytes that are there already. -/
theorem access_same {b : Bool} {acc : Access} (h : acc.data = 0x01010101#32) :
    (loop b).mem.access never acc = (loop b).mem := by
  unfold Memory.access
  cases hw : acc.write with
  | false => rfl
  | true =>
    have hbyte : ∀ k < 4, (0x01010101#32).extractLsb' (8 * k) 8 = 1#8 := by decide
    have hlane : ∀ a : Word, (a.extractLsb 1 0).toNat < 4 := fun a => BitVec.isLt _
    refine (Memory.mk.injEq ..).mpr ⟨rfl, funext fun a => ?_⟩
    rw [h]
    unfold Bytes.writeWord
    split
    · exact hbyte _ (hlane a)
    · rfl

theorem accesses_same {b : Bool} (accs : List Access)
    (h : ∀ acc ∈ accs, acc.data = 0x01010101#32) :
    accs.foldl (Memory.access never) (loop b).mem = (loop b).mem := by
  induction accs with
  | nil => rfl
  | cons acc accs ih =>
    rw [List.foldl_cons, access_same (h acc (List.mem_cons_self ..))]
    exact ih fun acc' hmem => h acc' (List.mem_cons_of_mem _ hmem)

/-- For two rounds the CSR files and the memories stay as they were. -/
theorem loop_still (b : Bool) (k : Nat) (hk : k ≤ 8) :
    (loopAt b k).csr = {} ∧ (loopAt b k).trig = {} ∧ (loopAt b k).mem = (loop b).mem ∧
      (loopAt b k).dirty = fun _ => false := by
  induction k with
  | zero => exact ⟨rfl, rfl, rfl, rfl⟩
  | succ k ih =>
    obtain ⟨hcsr, htrig, hmem, hdirty⟩ := ih (Nat.le_of_succ_le hk)
    obtain ⟨hfiles, hfence, hacc⟩ := loop_rounds b k hk
    have hstep : loopAt b (k + 1) = (loopAt b k).step { bpred := b } never {} := Arch.after_succ ..
    obtain ⟨hcsr', htrig'⟩ := (loopAt b k).step_files { bpred := b } never {} hfiles
    rw [hstep]
    refine ⟨?_, htrig'.trans htrig, ?_, ?_⟩
    · rw [hcsr', hcsr]
      rfl
    · show ((loopAt b k).accesses _ _).foldl (Memory.access never) (loopAt b k).mem = _
      rw [hmem]
      exact accesses_same _ hacc
    · funext a
      show (if ((loopAt b k).xIn {}).isFencei && _ then false else (loopAt b k).dirty a || _) = false
      rw [hfence, Bool.false_and, if_neg Bool.false_ne_true, hdirty, Bool.false_or]
      exact List.any_eq_false.mpr fun acc _ => by simp [Access.touches, never]

/-- The second round leaves everything as it is. -/
theorem loop_returns (b : Bool) : loopAt b 8 = loopAt b 4 := by
  have hrest : ∀ b, (loopAt b 8).pc = (loopAt b 4).pc ∧
      (∀ r, (loopAt b 8).regs r = (loopAt b 4).regs r) ∧
      (loopAt b 8).ucsr = (loopAt b 4).ucsr ∧ (loopAt b 8).resv = (loopAt b 4).resv := by
    decide +kernel
  obtain ⟨hpc, hregs, hucsr, hresv⟩ := hrest b
  obtain ⟨hcsr, htrig, hmem, hdirty⟩ := loop_still b 8 (Nat.le_refl 8)
  obtain ⟨hcsr', htrig', hmem', hdirty'⟩ := loop_still b 4 (by decide)
  exact (Arch.mk.injEq ..).mpr ⟨hpc, funext hregs, hcsr.trans hcsr'.symm, hucsr,
    htrig.trans htrig'.symm, hresv, hmem.trans hmem'.symm, hdirty.trans hdirty'.symm⟩

/-- So the machine is never anywhere else. -/
theorem loop_cases (b : Bool) (k : Nat) : ∃ j < 8, loopAt b k = loopAt b j := by
  induction k with
  | zero => exact ⟨0, by decide, rfl⟩
  | succ k ih =>
    obtain ⟨j, hj, hk⟩ := ih
    have hnext : loopAt b (k + 1) = loopAt b (j + 1) := by
      show Arch.after _ _ _ (k + 1) = Arch.after _ _ _ (j + 1)
      rw [Arch.after_succ, Arch.after_succ]
      exact congrArg (Arch.step _ _ · _) hk
    by_cases h8 : j + 1 < 8
    · exact ⟨j + 1, h8, hnext⟩
    · obtain rfl : j = 7 := by omega
      exact ⟨4, by decide, hnext.trans (loop_returns b)⟩

/-- No instruction of the loop is excluded. -/
theorem loop_plain (b : Bool) (k : Nat) : (loopAt b k).isMd = false ∧
    (loopAt b k).readsCounter = false ∧ (loopAt b k).fetchClean = true := by
  have hall : ∀ b, ∀ j < 8, (loopAt b j).isMd = false ∧ (loopAt b j).readsCounter = false ∧
      (loopAt b j).fetchClean = true := by decide +kernel
  obtain ⟨j, hj, hk⟩ := loop_cases b k
  rw [hk]
  exact hall b j hj

theorem pipeline_refines_loop :
    (∀ n, ∃ k, harvardTrace (loop true) {} (fun _ => {}) n <+:
      ((loop true).reset never {}).archBoot.trace {} never k) ∧
    (∀ k, ∃ n, harvardTrace (loop true) {} (fun _ => {}) n =
      ((loop true).reset never {}).archBoot.trace {} never k) :=
  pipeline_refines {} (loop true) {} (fun _ => {}) (fun _ => rfl) (fun _ => rfl) fun k =>
    ⟨(loop_plain true k).1, (loop_plain true k).2.1⟩

end ThreeSippEs
