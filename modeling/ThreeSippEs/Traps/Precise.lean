import ThreeSippEs.Pipeline.Simulation
import ThreeSippEs.Traps.Delivery

/-!
# Exceptions are precise

An instruction that traps hands an empty payload to W. What it does to the CSR
files is decided file by file, and one of the side effects is not held back: a
URET restores `ustatus` whether it traps or not.

- `XwReg.finish_of_squashed`: the payload of a trapping instruction has no effect;
- `Precise`: what an exception may do, in the core with its memories;
- `traps_precise_iff`: when it does only that.
-/

namespace ThreeSippEs

open Clocked

variable {P : Params} {imemWritable : Word → Bool}

/-- An instruction that writes nothing and accesses nothing only retires. -/
theorem XwReg.finish_of_squashed {r : XwReg} (hwe : r.regWe = false) (hamo : r.isAmo = false)
    (hre : r.memRe = false) (hmem : r.memWe = false) (imemWritable : Word → Bool) (d : Data) :
    r.finish imemWritable d = d ∧ r.events d = [.retire r.pc r.instr none] := by
  constructor
  · simp [finish, accesses, resvNext, hwe, hamo, hre, hmem]
  · simp [events, accesses, writes, hwe, hamo, hre, hmem]

/-- The payload of an instruction that traps. -/
theorem XIn.xwNext_of_exTrap {x : XIn} (h : x.exTrap P = true) :
    (x.xwNext P).regWe = false ∧ (x.xwNext P).isAmo = false ∧ (x.xwNext P).memRe = false ∧
    (x.xwNext P).memWe = false := by
  refine ⟨?_, ?_, ?_, ?_⟩ <;> simp [xwNext, h]

/-- URET changes `ustatus` unless both of its bits are set. -/
theorem Ucsr.uretReturn_eq_iff (u : Ucsr) :
    u.uretReturn = u ↔ u.ustatusUie = true ∧ u.ustatusUpie = true := by
  constructor
  · intro h
    have hpie : u.ustatusUpie = true := (congrArg Ucsr.ustatusUpie h).symm
    have hie : u.ustatusUpie = u.ustatusUie := congrArg Ucsr.ustatusUie h
    exact ⟨hie.symm.trans hpie, hpie⟩
  · rintro ⟨hie, hpie⟩
    obtain ⟨utvec, uepc, ucause, utval, uscratch, medeleg, uie, uip, ustatusUie, ustatusUpie⟩ := u
    subst hie hpie
    rfl

namespace PreciseTraps

/-- The M-mode registers after a trap entry with `pc`, `cause` and `tval`. -/
def enter (P : Params) (c : Csr) (pc : Word) (cause : BitVec 4) (tval : Word) : Csr :=
  { c with
    mepc := pc
    mcause := 0#28 ++ cause
    mtval := tval
    mstatus := Mstatus.setMpp
      (Mstatus.setMie (Mstatus.setMpie c.mstatus (Mstatus.mie c.mstatus)) false)
      (if P.secure then c.priv else 0b11#2)
    priv := if P.secure then 0b11#2 else c.priv }

/-- What the exception of the instruction in X may do. -/
structure Precise (imemWritable : Word → Bool) (s : Sys P) (e : ExtIn) : Prop where
  /-- what W holds is complete after this clock -/
  older : (s.step imemWritable e).backend.data = s.backend.drained imemWritable
  /-- the trapping instruction leaves registers, reservation and memories alone -/
  trapping : (s.step imemWritable e).backend.drained imemWritable = s.backend.drained imemWritable
  /-- and accesses nothing -/
  silent : ∀ acc, .bus acc ∉ (s.step imemWritable e).backend.pending imemWritable
  /-- nothing younger is left in F or X -/
  younger : (s.step imemWritable e).core.f.pc =
      (if (s.xIn e).delegTrap P then s.core.ucsr.utvec else s.core.csr.mtvec) ∧
    (s.step imemWritable e).core.f.fxValid = false ∧
    (s.step imemWritable e).core.f.straddle = false
  /-- the M-mode file: the trap record and the counters -/
  csr : (s.step imemWritable e).core.csr =
    { (if (s.xIn e).delegTrap P then s.core.csr
        else enter P s.core.csr s.core.f.fxPc ((s.xIn e).exCause P) ((s.xIn e).exTval P)) with
      ctr := (s.step imemWritable e).core.csr.ctr }
  /-- the N-extension registers: the trap record -/
  ucsr : (s.step imemWritable e).core.ucsr =
    if (s.xIn e).delegTrap P then
      s.core.ucsr.trapEntry s.core.f.fxPc ((s.xIn e).exCause P) ((s.xIn e).exTval P)
    else s.core.ucsr
  /-- the trigger registers: the hit bits -/
  trig : { (s.step imemWritable e).core.trig with trigHit0 := s.core.trig.trigHit0 } =
    s.core.trig

/-- The only instruction with an effect that a trap does not hold back. -/
def UretKeeps (P : Params) (x : XIn) : Prop :=
  x.isUret P = true → x.delegTrap P = true ∨
    (x.ucsr.ustatusUie = true ∧ x.ucsr.ustatusUpie = true)

section Step

variable {s : Sys P} {e : ExtIn}

/-- W in the clock of an exception and after it. -/
theorem backend_of_exTrap (htrap : (s.xIn e).exTrap P = true) (hfz : s.core.exFreeze = false)
    (hdbg : s.core.dbg.dbgMode = false) :
    (s.step imemWritable e).backend.data = s.backend.drained imemWritable ∧
    (s.step imemWritable e).backend.drained imemWritable = s.backend.drained imemWritable ∧
    ∀ acc, .bus acc ∉ (s.step imemWritable e).backend.pending imemWritable := by
  have hw : (s.core.dbgDo (s.coreIn e) && e.dbgArWrite) = false := by
    unfold Core.dbgDo
    rw [hdbg]
    rfl
  have hb : s.core.w.memBeatStall = false := by
    unfold Core.exFreeze at hfz
    rw [Bool.or_eq_false_iff] at hfz
    exact hfz.2
  have hstep : (s.step imemWritable e).backend = _ := Sys.backend_step hw
  obtain ⟨hdata, -⟩ := Backend.drained_last imemWritable (b := s.backend) hb s.core.xCommit
    ((s.xIn e).xwNext P)
  obtain ⟨hval, hxw, hbeat⟩ := s.core.w.step_of_not_stall hb (s.coreIn e).dmemRdata s.core.xCommit
    ((s.xIn e).xwNext P)
  rw [hstep]
  cases hx : s.core.xCommit with
  | false =>
    -- nothing enters W
    have hempty : (s.backend.step imemWritable s.core.xCommit ((s.xIn e).xwNext P)).w.xwValid =
        false := hval.trans hx
    obtain ⟨hdr, hpe, -⟩ := Backend.drained_empty imemWritable hempty
    rw [← hx, hdr, hpe]
    exact ⟨hdata, hdata, fun acc hacc => absurd hacc (by simp)⟩
  | true =>
    -- an instruction without effect enters W
    obtain ⟨hwe, hamo, hre, hmem⟩ := XIn.xwNext_of_exTrap htrap
    have hxw' : (s.backend.step imemWritable s.core.xCommit ((s.xIn e).xwNext P)).w.xw =
        (s.xIn e).xwNext P := hxw
    obtain ⟨hdr, hpe⟩ := Backend.drained_fresh imemWritable
      (b := s.backend.step imemWritable s.core.xCommit ((s.xIn e).xwNext P)) (hval.trans hx) hbeat
      (by rw [hxw']; exact XIn.xwNext_formed P (s.xIn e))
    obtain ⟨hfin, hev⟩ := XwReg.finish_of_squashed hwe hamo hre hmem imemWritable
      (s.backend.step imemWritable s.core.xCommit ((s.xIn e).xwNext P)).data
    rw [hxw', hfin] at hdr
    rw [hxw', hev] at hpe
    rw [← hx, hdr, hpe]
    exact ⟨hdata, hdata, fun acc hacc => absurd hacc (by simp)⟩

/-- The M-mode file after an exception. -/
theorem csr_of_exTrap (htrap : (s.xIn e).exTrap P = true) (hfz : s.core.exFreeze = false)
    (hdbg : s.core.dbg.dbgMode = false) :
    (s.step imemWritable e).core.csr =
      { (if (s.xIn e).delegTrap P then s.core.csr
          else enter P s.core.csr s.core.f.fxPc ((s.xIn e).exCause P) ((s.xIn e).exTval P)) with
        ctr := (s.step imemWritable e).core.csr.ctr } := by
  cases hd : (s.xIn e).delegTrap P with
  | true =>
    have hcsr : (s.step imemWritable e).core.csr = { s.core.csr with
        ctr := s.core.csr.tick ((s.xIn e).csrIn P s.core.w.retireValid) } :=
      XIn.csrNext_of_deleg (x := s.xIn e) hd hdbg s.core.w.retireValid
    rw [hcsr, if_pos rfl]
  | false =>
    have hcsr : (s.step imemWritable e).core.csr =
        { s.core.csr.trapEntry P.csr ((s.xIn e).csrIn P s.core.w.retireValid) with
          ctr := s.core.csr.tick ((s.xIn e).csrIn P s.core.w.retireValid) } :=
      XIn.csrNext_of_trap (x := s.xIn e) htrap hfz hd s.core.w.retireValid
    obtain ⟨hepc, hcause⟩ := XIn.trapEntry_of_exTrap htrap s.core.w.retireValid
    rw [hcsr, if_neg Bool.false_ne_true]
    unfold enter
    rw [← hcause, show s.core.f.fxPc = _ from hepc.symm]
    rfl

/-- The trigger registers after an exception. -/
theorem trig_of_exTrap (htrap : (s.xIn e).exTrap P = true) (hdbg : s.core.dbg.dbgMode = false) :
    { (s.step imemWritable e).core.trig with trigHit0 := s.core.trig.trigHit0 } =
      s.core.trig := by
  have htrig : (s.step imemWritable e).core.trig =
      if (s.xIn e).trigFire then s.core.trig.setHits (s.xIn e).trigMatch.fireMask
      else s.core.trig := XIn.trigNext_of_exTrap (x := s.xIn e) htrap hdbg
  rw [htrig]
  split <;> rfl

/-- The N-extension registers after an exception: they keep to the trap record
exactly when no URET slips through. -/
theorem ucsr_of_exTrap (htrap : (s.xIn e).exTrap P = true) (hfz : s.core.exFreeze = false)
    (hdbg : s.core.dbg.dbgMode = false) :
    ((s.step imemWritable e).core.ucsr =
      if (s.xIn e).delegTrap P then
        s.core.ucsr.trapEntry s.core.f.fxPc ((s.xIn e).exCause P) ((s.xIn e).exTval P)
      else s.core.ucsr) ↔ UretKeeps P (s.xIn e) := by
  cases hd : (s.xIn e).delegTrap P with
  | true =>
    refine ⟨fun _ _ => Or.inl hd, fun _ => ?_⟩
    rw [if_pos rfl]
    exact XIn.ucsrNext_of_deleg (x := s.xIn e) hd
  | false =>
    have hucsr : (s.step imemWritable e).core.ucsr =
        if (s.xIn e).isUret P && !s.core.exFreeze then s.core.ucsr.uretReturn
        else s.core.ucsr := XIn.ucsrNext_of_trap (x := s.xIn e) htrap hd hdbg
    rw [hucsr, hfz, if_neg Bool.false_ne_true]
    unfold UretKeeps
    cases huret : (s.xIn e).isUret P with
    | false => exact ⟨fun _ h => absurd h Bool.false_ne_true, fun _ => rfl⟩
    | true =>
      show s.core.ucsr.uretReturn = s.core.ucsr ↔
        (true = true → (s.xIn e).delegTrap P = true ∨
          (s.core.ucsr.ustatusUie = true ∧ s.core.ucsr.ustatusUpie = true))
      rw [hd]
      rw [Ucsr.uretReturn_eq_iff]
      constructor
      · exact fun h _ => Or.inr h
      · intro h
        obtain hd' | hset := h rfl
        · exact absurd hd' Bool.false_ne_true
        · exact hset

/-- One exception: it is precise when no URET slips through. -/
theorem precise_iff_uretKeeps (htrap : (s.xIn e).exTrap P = true) (hfz : s.core.exFreeze = false)
    (hdbg : s.core.dbg.dbgMode = false) :
    Precise imemWritable s e ↔ UretKeeps P (s.xIn e) := by
  obtain ⟨holder, htrapping, hsilent⟩ := @backend_of_exTrap P imemWritable s e htrap hfz hdbg
  rw [← @ucsr_of_exTrap P imemWritable s e htrap hfz hdbg]
  constructor
  · exact fun h => h.ucsr
  · exact fun h => ⟨holder, htrapping, hsilent, Delivery.f_step_of_exTrap htrap hfz,
      csr_of_exTrap htrap hfz hdbg, h, trig_of_exTrap htrap hdbg⟩

end Step

/-- **When an exception is precise.** In every reachable state, the exception
that the instruction in X takes leaves everything but its trap record as it is,
unless the instruction is a URET whose exception is not delegated and whose
restoring of `ustatus` shows. -/
theorem traps_precise_iff (s₀ : Sys P) (e₀ : ExtIn) (ins : Nat → ExtIn) (n : Nat)
    (htrap : ((run (Sys.step imemWritable) (s₀.reset imemWritable e₀) ins n).xIn (ins n)).exTrap P =
      true)
    (hfz : (run (Sys.step imemWritable) (s₀.reset imemWritable e₀) ins n).core.exFreeze = false) :
    Precise imemWritable (run (Sys.step imemWritable) (s₀.reset imemWritable e₀) ins n) (ins n) ↔
      UretKeeps P ((run (Sys.step imemWritable) (s₀.reset imemWritable e₀) ins n).xIn (ins n)) :=
  precise_iff_uretKeeps htrap hfz (Sys.running_of_valid s₀ e₀ ins n (XIn.exTrap_valid htrap))

/-- An ECALL right behind a store. -/
def storeThenEcall : Sys {} where
  core := Core.powerUp _
  mem :=
    { imem := .ofWords
        [0x00500093#32,   -- addi x1, x0, 5
         0x04102023#32,   -- sw x1, 64(x0)
         0x00000073#32]   -- ecall
      dmem := fun _ => 0#8 }

/-- The ECALL in X at clock 3 is precise, while the store is in W. -/
theorem traps_precise_iff_ecall :
    (run (Sys.step fun _ => false) (storeThenEcall.reset (fun _ => false) {}) (fun _ => {})
        3).core.w.dmemWe = true ∧
      Precise (fun _ => false)
        (run (Sys.step fun _ => false) (storeThenEcall.reset (fun _ => false) {}) (fun _ => {})
          3) {} := by
  refine ⟨by decide +kernel, ?_⟩
  refine (traps_precise_iff storeThenEcall {} (fun _ => {}) 3 (by decide +kernel)
    (by decide +kernel)).mpr fun huret => ?_
  exact absurd huret (by decide +kernel)

/-- A URET with a breakpoint on it. -/
def breakOnUret : Sys { secure := true } where
  core := Core.powerUp _
  mem :=
    { imem := .ofWords
        [0x04400093#32,   -- addi x1, x0, 0x44
         0x7A109073#32,   -- csrrw x0, tdata1, x1
         0x7A265073#32,   -- csrrwi x0, tdata2, 12
         0x00200073#32]   -- uret
      dmem := fun _ => 0#8 }

/-- The breakpoint is taken at clock 4, before the URET, and UPIE is set. -/
theorem uret_restores_while_trapping :
    ¬ ∀ (s₀ : Sys { secure := true }) (e₀ : ExtIn) (ins : Nat → ExtIn) (n : Nat),
      ((run (Sys.step fun _ => false) (s₀.reset (fun _ => false) e₀) ins n).xIn (ins n)).exTrap
        { secure := true } = true →
      (run (Sys.step fun _ => false) (s₀.reset (fun _ => false) e₀) ins n).core.exFreeze = false →
      Precise (fun _ => false)
        (run (Sys.step fun _ => false) (s₀.reset (fun _ => false) e₀) ins n) (ins n) := by
  intro h
  have h' := (h breakOnUret {} (fun _ => {}) 4 (by decide +kernel) (by decide +kernel)).ucsr
  revert h'
  decide +kernel

end PreciseTraps

end ThreeSippEs
