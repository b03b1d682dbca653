import ThreeSippEs.Pipeline.Quiet

/-!
# The sequential machine as it is built

The M unit takes its operands in the first clock its instruction is in X. Directly
behind an access of two beats that is the first beat, and what W forwards then is
not yet the value it will write. `Built` is the sequential machine with this: it
remembers the register that such an access has just written together with the value
forwarded first, so that an M-extension instruction is a function of the state too.

- `Built.step`, `Built.events`: one instruction;
- `Tracks`: the pipeline and this machine, related;
- `Tracks.refines`: it follows it clock by clock, whatever the debugger and the
  interrupts do, under the conditions of `Orderly`.
-/

namespace ThreeSippEs

open Clocked MulDivHazard

variable {P : Params} {imemWritable : Word → Bool}

/-! ## Accesses of two beats -/

namespace XwReg

variable (r : XwReg)

def twoBeat : Bool := r.crosses || (r.isAmo && r.isAmoRmw)

/-- The word that is on the data port in the first beat. -/
def firstWord (m : Memory) : Word :=
  m.dmem.readWord (if r.isAmo then r.amoAddrAl else r.wordAddr)

/-- What W forwards in it: `ldW0` is still the word of an earlier access. -/
def firstWb (ldW0 : Word) (m : Memory) : Word :=
  if r.isAmo then ldW0
  else if r.memRe then r.wLoad (0#32 ++ r.firstWord m)
  else r.result

/-- It writes a register. -/
def writesRd : Bool := r.regWe && r.rd != 0#5

theorem writesRd_iff : r.writesRd = true ↔ r.regWe = true ∧ r.rd ≠ 0#5 := by
  unfold writesRd
  rw [Bool.and_eq_true, bne_iff_ne]

end XwReg

/-! ## The machine -/

/-- The fetch of the instruction takes two beats. -/
def Arch.straddles (a : Arch) : Bool := a.pc.getLsbD 1 && !a.mem.imem.compAt a.pc

/-- The sequential machine and what W has left behind in the data path. -/
structure Built where
  arch : Arch
  ldW0 : Word
  /-- the register the last instruction wrote in two beats, with what was forwarded
  in the first -/
  early : Option (BitVec 5 × Word)

namespace Built

section Next

variable (b : Built)

/-- The value the M unit finds forwarded for register `r`. A fetch of two beats
comes too late for it. -/
def forwarded (r : BitVec 5) : Option Word :=
  if b.arch.straddles then none
  else b.early.bind fun p => if p.1 = r then some p.2 else none

/-- The operand the M unit takes from register `r`. -/
def operand (r : BitVec 5) : Word := (b.forwarded r).getD (Regfile.get b.arch.regs r)

def rs1 : BitVec 5 := b.arch.instr.extractLsb 19 15
def rs2 : BitVec 5 := b.arch.instr.extractLsb 24 20

/-- The next instruction is of the M extension and takes a forwarded value. -/
def dependent : Bool :=
  b.arch.isMd && ((b.forwarded b.rs1).isSome || (b.forwarded b.rs2).isSome)

/-- What the outside contributes, with the answer of the M unit to these operands. -/
def env (e : Env) : Env :=
  { e with
    md :=
      if b.arch.isMd then
        Mext.value (decode b.arch.instr).mdOp (b.operand b.rs1) (b.operand b.rs2)
      else 0#32 }

end Next

variable (P : Params) (imemWritable : Word → Bool) (b : Built)

/-- What the instruction hands to W, with the counters of `l`. -/
def xw (l : Env × Csr) : XwReg := (b.arch.live l.2).xw P (b.env l.1)

/-- One instruction. Its label holds the interrupt lines and the counters. -/
def step (l : Env × Csr) : Built where
  arch := (b.arch.live l.2).step P imemWritable (b.env l.1)
  ldW0 := if (b.xw P l).twoBeat then (b.xw P l).firstWord b.arch.mem else b.ldW0
  early :=
    if (b.xw P l).twoBeat && (b.xw P l).writesRd &&
        !((b.arch.live l.2).xIn (b.env l.1)).takeIrq P then
      some ((b.xw P l).rd, (b.xw P l).firstWb b.ldW0 b.arch.mem)
    else none

/-- What it shows. -/
def events (l : Env × Csr) : List Event := (b.arch.live l.2).events P (b.env l.1)

/-- One instruction without interrupts. -/
def next : Built := b.step P imemWritable ({}, b.arch.csr)

def shows : List Event := b.events P ({}, b.arch.csr)

/-- The state after `k` instructions without interrupts. -/
def after (k : Nat) : Built :=
  seqRun (fun b (_ : Unit) => b.next P imemWritable) b (List.replicate k ())

/-- What these instructions show. -/
def trace (k : Nat) : List Event :=
  seqTrace (fun b (_ : Unit) => b.next P imemWritable) (fun b _ => b.shows P) b
    (List.replicate k ())

variable {b} {P}

theorem after_succ (k : Nat) :
    b.after P imemWritable (k + 1) = (b.after P imemWritable k).next P imemWritable := by
  unfold after
  rw [List.replicate_succ', seqRun_append]
  rfl

theorem trace_succ (k : Nat) :
    b.trace P imemWritable (k + 1) =
      b.trace P imemWritable k ++ (b.after P imemWritable k).shows P := by
  unfold trace
  rw [List.replicate_succ', seqTrace_append, seqTrace_singleton]
  rfl

theorem trace_le {k k' : Nat} (h : k ≤ k') :
    b.trace P imemWritable k <+: b.trace P imemWritable k' := by
  induction k', h using Nat.le_induction with
  | base => exact List.prefix_rfl
  | succ k' _ ih =>
    rw [trace_succ]
    exact ih.trans (List.prefix_append _ _)

/-- An instruction that depends on no forwarded value takes the registers. -/
theorem forwarded_of_independent (hmd : b.arch.isMd = true) (h : b.dependent = false) :
    b.forwarded b.rs1 = none ∧ b.forwarded b.rs2 = none := by
  unfold dependent at h
  rw [hmd, Bool.true_and, Bool.or_eq_false_iff, Option.isSome_eq_false_iff,
    Option.isSome_eq_false_iff, Option.isNone_iff_eq_none, Option.isNone_iff_eq_none] at h
  exact h

theorem dependent_of_straddles (h : b.arch.straddles = true) : b.dependent = false := by
  unfold dependent forwarded
  rw [h]
  simp

theorem dependent_of_early (h : b.early = none) : b.dependent = false := by
  unfold dependent forwarded
  rw [h]
  simp

theorem dependent_of_not_md (h : b.arch.isMd = false) : b.dependent = false := by
  unfold dependent
  rw [h]
  rfl

end Built

/-! ## Instructions that read no counter -/

/-- A CSR instruction makes no access. -/
theorem XIn.twoBeat_of_isCsr {x : XIn} (h : x.dec.isCsr = true) :
    (x.xwNext P).twoBeat = false := by
  obtain ⟨-, -, -, -, -, hre, hwe, -⟩ := (decode_classes x.fxInstr).csr h
  have hre' : (x.xwNext P).memRe = false := by
    show ((decode x.fxInstr).memRe && _) = false
    rw [hre]
    rfl
  have hwe' : (x.xwNext P).memWe = false := by
    show ((decode x.fxInstr).memWe && _) = false
    rw [hwe]
    rfl
  have hamo : (x.xwNext P).isAmo = false := by
    show (x.amoValid && _) = false
    cases ha : x.amoValid with
    | false => rfl
    | true =>
      rw [dec_of_isAmo (isAmo_of_amoValid ha)] at h
      exact absurd h (by simp [Decode.illegalOpcode])
  unfold XwReg.twoBeat XwReg.crosses
  rw [hre', hwe', hamo]
  rfl

namespace Arch

variable {a : Arch} {c : Csr} {l : Env}

/-- They see the same machine whatever the counters hold. -/
theorem live_visible (h : c.uncounted = a.csr) :
    ((a.live c).xIn l).visible = (a.xIn l).visible := by
  have ha : (a.xIn l).visible = ((a.live c.uncounted).xIn l).visible := by
    rw [h]
    rfl
  rw [ha]
  rfl

theorem finish_live (h : c.uncounted = a.csr) (hctr : a.readsCounter = false)
    (imemWritable : Word → Bool) :
    (((a.live c).xw P l).finish imemWritable a.data = (a.xw P l).finish imemWritable a.data) ∧
      ((a.live c).xw P l).events a.data = (a.xw P l).events a.data := by
  obtain ⟨hfin, hev⟩ := XIn.finish_visible (P := P) (x := (a.live c).xIn l) rfl hctr imemWritable
    a.data
  obtain ⟨hfin', hev'⟩ := XIn.finish_visible (P := P) (x := a.xIn l) rfl hctr imemWritable a.data
  rw [live_visible h] at hfin hev
  exact ⟨hfin.symm.trans hfin', hev.symm.trans hev'⟩

theorem accesses_live (h : c.uncounted = a.csr) (hctr : a.readsCounter = false) :
    (a.live c).accesses P l = a.accesses P l := by
  have hev : (a.live c).events P l = a.events P l := (finish_live h hctr fun _ => false).2
  unfold events at hev
  have hmap := (List.append_inj' hev rfl).1
  exact List.map_injective_iff.mpr (fun _ _ he => Event.bus.inj he) hmap

/-- **They do the same.** -/
theorem step_live (h : c.uncounted = a.csr) (hctr : a.readsCounter = false) :
    (a.live c).step P imemWritable l = a.step P imemWritable l ∧
      (a.live c).events P l = a.events P l := by
  obtain ⟨hfin, hev⟩ := finish_live (P := P) (l := l) h hctr imemWritable
  have hvis := live_visible (l := l) h
  refine ⟨(Arch.mk.injEq ..).mpr ⟨?_, congrArg Data.regs hfin, ?_, ?_, ?_,
    congrArg Data.resv hfin, congrArg Data.mem hfin, ?_⟩, hev⟩
  · show ((a.live c).xIn l).nextPc P = (a.xIn l).nextPc P
    rw [← XIn.nextPc_visible, hvis, XIn.nextPc_visible]
  · show (((a.live c).xIn l).csrNext P false).uncounted = ((a.xIn l).csrNext P false).uncounted
    rw [← XIn.csrNext_visible (x := (a.live c).xIn l) rfl false, hvis]
    exact XIn.csrNext_visible (x := a.xIn l) rfl false false
  · show ((a.live c).xIn l).ucsrNext P = (a.xIn l).ucsrNext P
    rw [← XIn.ucsrNext_visible (x := (a.live c).xIn l) rfl, hvis]
    exact XIn.ucsrNext_visible (x := a.xIn l) rfl
  · show ((a.live c).xIn l).trigNext P = (a.xIn l).trigNext P
    rw [← XIn.trigNext_visible (x := (a.live c).xIn l) rfl, hvis]
    exact XIn.trigNext_visible (x := a.xIn l) rfl
  · have htrap : ((a.live c).xIn l).exTrap P = (a.xIn l).exTrap P := by
      rw [← XIn.exTrap_visible, hvis, XIn.exTrap_visible]
    funext p
    show (if ((a.xIn l).isFencei && !((a.live c).xIn l).exTrap P) then false
      else a.dirty p || ((a.live c).accesses P l).any _) = _
    rw [accesses_live h hctr, htrap]

/-- They hand on the same, or make no access. -/
theorem xw_live (h : c.uncounted = a.csr) :
    (a.live c).xw P l = a.xw P l ∨
      ((a.live c).xw P l).twoBeat = false ∧ (a.xw P l).twoBeat = false := by
  by_cases hcsr : (a.xIn l).dec.isCsr = true
  · exact .inr ⟨XIn.twoBeat_of_isCsr (x := (a.live c).xIn l) hcsr, XIn.twoBeat_of_isCsr hcsr⟩
  · left
    have hxw : ∀ x : XIn, x.dbgMode = false → ¬ x.dec.isCsr = true →
        x.visible.xwNext P = x.xwNext P := by
      intro x hdbg hx
      rw [XIn.xwNext_visible, XIn.xResult_visible hdbg fun hc => hx hc.1]
      rfl
    calc ((a.live c).xIn l).xwNext P
        = ((a.live c).xIn l).visible.xwNext P := (hxw ((a.live c).xIn l) rfl hcsr).symm
      _ = (a.xIn l).visible.xwNext P := by rw [live_visible h]
      _ = (a.xIn l).xwNext P := hxw (a.xIn l) rfl hcsr

end Arch

namespace Built

variable {b : Built} {c : Csr} {l : Env}

/-- **Without interrupts a label means nothing** to an instruction that reads no
counter. -/
theorem step_uncounted (h : c.uncounted = b.arch.csr) (hctr : b.arch.readsCounter = false)
    (hl : b.env l = b.env {}) :
    b.step P imemWritable (l, c) = b.next P imemWritable ∧
      b.events P (l, c) = b.shows P := by
  obtain ⟨hstep, hev⟩ := @Arch.step_live P imemWritable b.arch c (b.env {}) h hctr
  have hirq : ((b.arch.live c).xIn (b.env {})).takeIrq P = (b.arch.xIn (b.env {})).takeIrq P := by
    rw [← XIn.takeIrq_visible, Arch.live_visible h, XIn.takeIrq_visible]
  constructor
  · unfold next step xw
    dsimp only
    rw [hl, hstep]
    refine (Built.mk.injEq ..).mpr ⟨rfl, ?_, ?_⟩
    · rcases Arch.xw_live (P := P) (l := b.env {}) h with hxw | ⟨htwo, htwo'⟩
      · rw [hxw]
        rfl
      · rw [htwo, if_neg Bool.false_ne_true]
        show _ = if (b.arch.xw P (b.env {})).twoBeat then _ else b.ldW0
        rw [htwo']
        rfl
    · rcases Arch.xw_live (P := P) (l := b.env {}) h with hxw | ⟨htwo, htwo'⟩
      · rw [hxw, hirq]
        rfl
      · rw [htwo, Bool.false_and, Bool.false_and, if_neg Bool.false_ne_true]
        show none = if (b.arch.xw P (b.env {})).twoBeat && _ && _ then _ else none
        rw [htwo']
        rfl
  · unfold shows events
    dsimp only
    rw [hl]
    exact hev

end Built

/-! ## An access of two beats that writes a register goes straight on -/

namespace XIn

variable {x : XIn}

/-- Only an interrupt leads away from a load or an AMO that does not trap. -/
theorem takeIrq_of_redirect {target : Word} (hr : x.redirect P = some target)
    (htrap : x.exTrap P = false) (h : x.dec.memRe = true ∨ x.amoValid = true) :
    x.takeIrq P = true := by
  have hplain : x.dec.isMret = false ∧ x.dec.isJalr = false ∧ x.dec.isJal = false ∧
      x.dec.isBranch = false := by
    rcases h with hre | hamo
    · obtain ⟨hjal, hjalr, hbr⟩ := decode_load x.fxInstr hre
      refine ⟨?_, hjalr, hjal, hbr⟩
      by_contra hmret
      rw [Bool.not_eq_false] at hmret
      have hsys := (decode_classes x.fxInstr).sys
        (show ((decode x.fxInstr).isEcall || (decode x.fxInstr).isEbreak ||
          (decode x.fxInstr).isMret) = true by rw [show (decode x.fxInstr).isMret = true from hmret,
            Bool.or_true])
      exact absurd (hre.symm.trans hsys.2.2.1) (by simp)
    · rw [dec_of_isAmo (isAmo_of_amoValid hamo)]
      exact ⟨rfl, rfl, rfl, rfl⟩
  have huret : x.isUret P = false := by
    by_contra hu
    rw [Bool.not_eq_false] at hu
    have hinstr := (fxInstr_of_isUret hu).2
    rcases h with hre | hamo
    · unfold dec at hre
      rw [hinstr] at hre
      exact absurd hre (by decide)
    · have hop := isAmo_of_amoValid hamo
      unfold isAmo at hop
      rw [hinstr] at hop
      exact absurd hop (by simp)
  have hfencei : x.isFencei = false := by
    by_contra hf
    rw [Bool.not_eq_false] at hf
    rcases h with hre | hamo
    · rw [dec_of_isFencei hf] at hre
      exact absurd hre (by simp [Decode.fence])
    · have hop := isAmo_of_amoValid hamo
      unfold isAmo at hop
      unfold isFencei at hf
      simp only [Bool.and_eq_true, beq_iff_eq] at hop hf
      exact absurd (hop.1.symm.trans hf.1) (by decide)
  unfold redirect at hr
  obtain ⟨hmret, hjalr, hjal, hbr⟩ := hplain
  rw [htrap, huret, hmret, hjalr, hjal, hbr, hfencei] at hr
  by_contra hirq
  rw [Bool.not_eq_true] at hirq
  rw [hirq] at hr
  simp at hr

/-- What X hands on for two beats with a register to write is a load or an AMO. -/
theorem load_of_twoBeat (h : ((x.xwNext P).twoBeat && (x.xwNext P).writesRd) = true) :
    x.exTrap P = false ∧ (x.dec.memRe = true ∨ x.amoValid = true) := by
  rw [Bool.and_eq_true] at h
  obtain ⟨htwo, hwrites⟩ := h
  have hwe : ((x.dec.regWe || x.amoValid) && !x.exTrap P) = true := by
    unfold XwReg.writesRd at hwrites
    rw [Bool.and_eq_true] at hwrites
    exact hwrites.1
  rw [Bool.and_eq_true, Bool.not_eq_true'] at hwe
  refine ⟨hwe.2, ?_⟩
  rcases (Bool.or_eq_true ..).mp hwe.1 with hreg | hamo
  · left
    by_contra hre
    rw [Bool.not_eq_true] at hre
    unfold XwReg.twoBeat XwReg.crosses at htwo
    have hre' : (x.xwNext P).memRe = false := by
      show (x.dec.memRe && _) = false
      rw [hre]
      rfl
    have hwe' : (x.xwNext P).memWe = false := by
      show (x.dec.memWe && _) = false
      cases hmem : x.dec.memWe with
      | false => rfl
      | true =>
        exact absurd (hreg.symm.trans ((decode_classes x.fxInstr).store hmem).1) (by simp)
    have hamo : (x.xwNext P).isAmo = false := by
      show (x.amoValid && _) = false
      cases ha : x.amoValid with
      | false => rfl
      | true =>
        rw [dec_of_isAmo (isAmo_of_amoValid ha)] at hreg
        exact absurd hreg (by simp [Decode.illegalOpcode])
    rw [hre', hwe', hamo] at htwo
    simp at htwo
  · exact .inr hamo

end XIn

/-! ## The first beat in W -/

namespace Backend

variable {b : Backend}

/-- A fresh instruction in W. -/
theorem fresh_beat (hv : b.w.xwValid = true) (hb : b.w.beat2 = false) :
    b.w.memBeatStall = b.w.xw.twoBeat := by
  unfold WStage.memBeatStall WStage.memMis WStage.amoRmwB1 WStage.amoHere XwReg.twoBeat
  rw [hv, hb]
  simp

theorem first_rdata (hv : b.w.xwValid = true) (hb : b.w.beat2 = false) :
    b.rdata = b.w.xw.firstWord b.mem := by
  unfold rdata WStage.dmemAddr WStage.amoHere XwReg.firstWord
  rw [hv, hb, Bool.true_and, if_neg Bool.false_ne_true, BitVec.add_zero]

theorem first_wWb (hv : b.w.xwValid = true) (hb : b.w.memBeatStall = true)
    (hf : b.w.xw.Formed) : b.w.wWb b.rdata = b.w.xw.firstWb b.w.ldW0 b.mem := by
  have hbeat := WStage.beat2_of_memBeatStall _ hb
  unfold WStage.wWb WStage.amoHere XwReg.firstWb
  rw [hv, Bool.true_and, ← first_rdata hv hbeat]
  cases hamo : b.w.xw.isAmo with
  | false =>
    unfold WStage.ldComb
    rw [hbeat]
    rfl
  | true =>
    obtain ⟨hre, hwe, hrmw, -⟩ := hf.amo hamo
    have htwo := (fresh_beat hv hbeat).symm.trans hb
    unfold XwReg.twoBeat XwReg.crosses at htwo
    rw [hre, hwe, hamo, hrmw] at htwo
    simp only [Bool.or_self, Bool.false_and, Bool.true_and, Bool.false_or, Bool.and_eq_true,
      Bool.not_eq_true'] at htwo
    unfold WStage.amoWb
    rw [htwo.1, htwo.2]
    rfl

/-- Registers W does not forward keep their value while it works off what it holds. -/
theorem drained_regs_of_not_fwd {r : BitVec 5} (hf : b.w.fwd r = false) :
    Regfile.get (b.drained imemWritable).regs r = Regfile.get b.regs r := by
  have hstep : ∀ b' : Backend, b'.w.fwd r = false →
      Regfile.get (b'.step imemWritable false {}).regs r = Regfile.get b'.regs r := by
    intro b' hf'
    refine Regfile.get_write_of_ne fun hwe heq => ?_
    have hfwd := b'.w.fwd_of_rfWe hwe
    rw [heq] at hfwd
    exact Bool.false_ne_true (hf'.symm.trans hfwd)
  unfold drained
  cases hb : b.w.memBeatStall with
  | false =>
    rw [if_neg Bool.false_ne_true]
    exact hstep b hf
  | true =>
    rw [if_pos rfl]
    obtain ⟨hval, hxw, -⟩ := b.w.step_of_stall hb b.rdata false {}
    have hf' : (b.step imemWritable false {}).w.fwd r = false := by
      show (b.w.step b.rdata false {}).fwd r = false
      unfold WStage.fwd at hf ⊢
      rw [hval, hxw]
      exact hf
    exact (hstep _ hf').trans (hstep b hf)

end Backend

/-! ## The beats of a fetch -/

namespace FStage.Holds

variable {f : FStage P} {a : Arch}

/-- What is in X after one beat does not straddle. -/
theorem straddles_eq_false (h : f.Holds a) (hv : f.fxValid = true) (hclean : a.fetchClean = true)
    (hlen : f.fxPc.getLsbD 1 = true → f.fxLen = 2#3) : a.straddles = false := by
  have hpc := h.pc
  rw [hv, if_pos rfl] at hpc
  rw [hpc] at hlen
  unfold Arch.straddles
  cases hbit : a.pc.getLsbD 1 with
  | false => rfl
  | true =>
    rw [Bool.true_and, Bool.not_eq_false']
    have hlen' := (h.instr hv hclean).2.symm.trans (hlen hbit)
    unfold Arch.len Bytes.lenAt at hlen'
    by_contra hcomp
    rw [Bool.not_eq_true] at hcomp
    rw [hcomp] at hlen'
    exact absurd hlen' (by decide)

/-- What F has fetched one half of does. -/
theorem straddles (h : f.Holds a) (hs : f.straddle = true) (hclean : a.fetchClean = true) :
    a.straddles = true := by
  obtain ⟨hv, hbit, hcomp⟩ := h.straddle hs
  have hpc := h.pc
  rw [hv, if_neg Bool.false_ne_true] at hpc
  rw [hpc] at hbit hcomp
  unfold Arch.fetchClean at hclean
  rw [Bool.and_eq_true] at hclean
  unfold Arch.straddles
  rw [hbit, (hcomp hclean.1).1]
  rfl

end FStage.Holds

/-! ## The relation -/

/-- The pipeline and the machine. -/
structure Tracks (imemWritable : Word → Bool) (s : Sys P) (b : Built) : Prop where
  sim : s.Sim imemWritable b.arch
  owned : Owned s.core
  word : (if s.core.w.memBeatStall then s.backend.rdata else s.core.w.ldW0) = b.ldW0
  /-- in a first beat with an instruction in X, that one is next and sees its register -/
  first : s.core.f.fxValid = true → s.core.w.memBeatStall = true →
    b.early = if s.core.w.xw.writesRd then
      some (s.core.w.xw.rd, s.core.w.wWb s.backend.rdata) else none
  prompt : s.core.f.fxValid = true → s.core.w.memBeatStall = true →
    b.arch.fetchClean = true → b.arch.straddles = false
  /-- an M-extension instruction that has not started yet, and does not find a first
  beat, depends on nothing -/
  late : b.arch.fetchClean = true → s.core.mdInflight = false →
    (s.core.f.fxValid = true → s.core.w.memBeatStall = false) → b.dependent = false
  /-- one that has started has taken its operands -/
  own : s.core.mdInflight = true → b.arch.fetchClean = true →
    s.core.md.opQ = (decode b.arch.instr).mdOp ∧ s.core.md.aQ = b.operand b.rs1 ∧
      s.core.md.bQ = b.operand b.rs2

/-- What a clock must not do for the core to follow the machine. -/
structure Orderly (imemWritable : Word → Bool) (s : Sys P) (e : ExtIn) (b : Built) : Prop
    extends Sys.Steady s e b.arch where
  /-- a halt does not separate an M-extension instruction from the first beat it
  depends on -/
  joined : s.commits = true → s.core.dbgFreeze (s.coreIn e) = true →
    (b.step P imemWritable (s.label e, s.core.csr)).dependent = false

instance (s : Sys P) (e : ExtIn) (b : Built) : Decidable (Orderly imemWritable s e b) :=
  decidable_of_iff
    ((s.core.f.fxValid = true → s.core.exFreeze = true → s.core.dbgFreeze (s.coreIn e) = false) ∧
      (s.core.dbgDo (s.coreIn e) && e.dbgArWrite) = false ∧
      (s.commits = true → b.arch.fetchClean = true) ∧ (s.xIn e).stale P = false ∧
      (s.xIn e).fenceiInterrupted P = false ∧
      (s.commits = true → s.core.dbgFreeze (s.coreIn e) = true →
        (b.step P imemWritable (s.label e, s.core.csr)).dependent = false))
    ⟨fun ⟨h1, h2, h3, h4, h5, h6⟩ => ⟨⟨h1, h2, h3, h4, h5⟩, h6⟩,
      fun h => ⟨h.kept, h.unwritten, h.fenced, h.checked, h.fencei, h.joined⟩⟩

namespace Tracks

variable {s : Sys P} {e : ExtIn} {b : Built}

/-- X is empty in Debug Mode. -/
theorem running (h : Tracks imemWritable s b) (hv : s.core.f.fxValid = true) :
    s.core.dbg.dbgMode = false := by
  by_contra hm
  rw [Bool.not_eq_false] at hm
  exact absurd ((h.sim.halted hm).2.1.symm.trans hv) Bool.false_ne_true

/-- The instruction in X is the one at the PC. -/
theorem fxInstr (h : Tracks imemWritable s b) (hv : s.core.f.fxValid = true)
    (hclean : b.arch.fetchClean = true) : s.core.f.fxInstr = b.arch.instr :=
  ((h.sim.running (h.running hv)).instr hv hclean).1

/-- **An operand in X**, in the first clock of its instruction there. -/
theorem operand_eq (h : Tracks imemWritable s b) (hok : s.Steady e b.arch)
    (hv : s.core.f.fxValid = true) (hclean : b.arch.fetchClean = true) {r : BitVec 5}
    (hlate : s.core.w.memBeatStall = false → b.forwarded r = none) :
    (if s.core.w.fwd r then s.core.w.wWb (s.coreIn e).dmemRdata
      else Regfile.read s.core.regs (s.core.rfWe (s.coreIn e)) (s.core.rfWa (s.coreIn e))
        (s.core.rfWd (s.coreIn e)) r) = b.operand r := by
  have hm := h.running hv
  unfold Built.operand
  cases hb : s.core.w.memBeatStall with
  | false =>
    have hregs : (s.core.step (s.coreIn e)).regs = b.arch.regs :=
      congrArg Data.regs (h.sim.regs_step (e := e) hok.unwritten hb)
    rw [MulDivHazard.operand_eq hm r fun hb' => absurd (hb.symm.trans hb') Bool.false_ne_true,
      hregs, hlate hb]
    rfl
  | true =>
    have hvalid := s.core.w.xwValid_of_memBeatStall hb
    have hearly := h.first hv hb
    unfold Built.forwarded
    rw [h.prompt hv hb hclean, if_neg Bool.false_ne_true, hearly]
    cases hf : s.core.w.fwd r with
    | true =>
      obtain ⟨-, hwe, hne, hrd⟩ := s.core.w.fwd_iff.mp hf
      have hwrites := s.core.w.xw.writesRd_iff.mpr ⟨hwe, hne⟩
      rw [if_pos rfl, if_pos hwrites, Option.bind_some, if_pos hrd]
      rfl
    | false =>
      -- W writes another register, or none
      have hnone : ((if s.core.w.xw.writesRd then
          some (s.core.w.xw.rd, s.core.w.wWb s.backend.rdata) else none).bind
          fun p => if p.1 = r then some p.2 else none) = none := by
        cases hwrites : s.core.w.xw.writesRd with
        | false => rfl
        | true =>
          have hne : s.core.w.xw.rd ≠ r := by
            intro hrd
            obtain ⟨hwe, hne⟩ := s.core.w.xw.writesRd_iff.mp hwrites
            exact Bool.false_ne_true
              (hf.symm.trans (s.core.w.fwd_iff.mpr ⟨hvalid, hwe, hne, hrd⟩))
          rw [if_pos rfl, Option.bind_some, if_neg hne]
      have hregs : Regfile.get b.arch.regs r = Regfile.get s.core.regs r := by
        have hdata := congrArg Data.regs h.sim.data
        rw [show b.arch.regs = (s.backend.drained imemWritable).regs from hdata.symm]
        exact Backend.drained_regs_of_not_fwd hf
      rw [hnone, hregs, ← MulDivHazard.get_step_of_not_fwd (i := s.coreIn e) hm hf,
        ← MulDivHazard.operand_eq hm r fun _ => hf, hf]
      rfl

/-- An operation in flight after a clock: its instruction waited in X in that clock. -/
theorem waits (h : Tracks imemWritable s b) (hok : s.Steady e b.arch)
    (hfl : (s.step imemWritable e).core.mdInflight = true) :
    s.core.mdStall = true ∧ (s.step imemWritable e).core.f = s.core.f :=
  h.owned.waits h.running hok.kept hfl

/-- **What the M unit works on after a clock** is what its instruction asks for. -/
theorem own_step (h : Tracks imemWritable s b) (hok : s.Steady e b.arch)
    (hfl : (s.step imemWritable e).core.mdInflight = true) (hclean : b.arch.fetchClean = true) :
    (s.step imemWritable e).core.md.opQ = (decode b.arch.instr).mdOp ∧
      (s.step imemWritable e).core.md.aQ = b.operand b.rs1 ∧
      (s.step imemWritable e).core.md.bQ = b.operand b.rs2 := by
  obtain ⟨hst, -⟩ := h.waits hok hfl
  obtain ⟨hx, hdone⟩ := mdStall_iff.mp hst
  obtain ⟨hv, hisMd⟩ := mdInX_iff.mp hx
  have hinstr := h.fxInstr hv hclean
  have hm := h.running hv
  cases hflight : s.core.mdInflight with
  | true =>
    -- it goes on
    have hbusy : s.core.md.busy = true := by
      have hfl := h.owned.flight
      rw [hflight, hdone, Bool.or_false] at hfl
      exact hfl.symm
    obtain ⟨hop, ha, hb⟩ := h.own hflight hclean
    obtain ⟨-, hop', ha', hb'⟩ := busy_step hbusy s.core.mdStart (decode s.core.f.fxInstr).mdOp
      (s.core.op1 (s.coreIn e)) (s.core.op2 (s.coreIn e))
    exact ⟨hop'.trans hop, ha'.trans ha, hb'.trans hb⟩
  | false =>
    -- it starts in this clock
    have hstart : s.core.mdStart = true := by
      have hnext : (s.step imemWritable e).core.mdInflight =
          if s.core.md.done then false else s.core.mdInflight || s.core.mdStart := rfl
      rw [hnext, hdone, hflight, if_neg Bool.false_ne_true, Bool.false_or] at hfl
      exact hfl
    have hmd : b.arch.isMd = true := by
      rw [hinstr] at hisMd
      exact hisMd
    have hlate : s.core.w.memBeatStall = false →
        b.forwarded b.rs1 = none ∧ b.forwarded b.rs2 = none := fun hb =>
      Built.forwarded_of_independent hmd (h.late hclean hflight fun _ => hb)
    obtain ⟨hop, ha, hb⟩ := latched_of_start (i := s.coreIn e) hstart
    refine ⟨hop.trans (by rw [hinstr]), ha.trans ?_, hb.trans ?_⟩
    · have hrs1 : s.core.f.fxInstr.extractLsb 19 15 = b.rs1 := by
        unfold Built.rs1
        rw [hinstr]
      rw [← h.operand_eq hok hv hclean fun hb => (hlate hb).1, ← hrs1]
      unfold Core.op1 Core.rdata1 Core.rfRa1
      rw [hm]
      rfl
    · have hrs2 : s.core.f.fxInstr.extractLsb 24 20 = b.rs2 := by
        unfold Built.rs2
        rw [hinstr]
      rw [← h.operand_eq hok hv hclean fun hb => (hlate hb).2, ← hrs2]
      rfl

/-- The word of the last first beat stays until the next. -/
theorem word_stutter (h : Tracks imemWritable s b) (hc : s.commits = false) :
    (s.step imemWritable e).core.w.memBeatStall = false ∧
      (s.step imemWritable e).core.w.ldW0 = b.ldW0 := by
  have hx : s.core.w.memBeatStall = false → s.core.xCommit = false := by
    intro hb
    unfold Sys.commits at hc
    rw [hb] at hc
    simpa using hc
  refine ⟨beat_step hx, ?_⟩
  rw [← h.word]
  show (if s.core.w.memBeatStall then s.backend.rdata else s.core.w.ldW0) = _
  rfl

/-- Without an operation in flight after a stuttering clock there was none, and none
started: an answer would have released its instruction. -/
theorem unstarted (h : Tracks imemWritable s b) (hc : s.commits = false)
    (hfl : (s.step imemWritable e).core.mdInflight = false) :
    s.core.mdInflight = false ∧ s.core.mdStart = false := by
  have hnext : (s.step imemWritable e).core.mdInflight =
      if s.core.md.done then false else s.core.mdInflight || s.core.mdStart := rfl
  cases hd : s.core.md.done with
  | false =>
    rw [hnext, hd, if_neg Bool.false_ne_true, Bool.or_eq_false_iff] at hfl
    exact hfl
  | true =>
    have hflight : s.core.mdInflight = true := by
      rw [h.owned.flight, hd, Bool.or_true]
    obtain ⟨hx, hb⟩ := h.owned.owned hflight
    have hst := Core.exFreeze_eq_false_iff.mpr ⟨Core.mdStall_of_done hd, hb⟩
    rw [Sys.commits_eq_leaves (e := e) h.sim.ebreakm] at hc
    exact absurd (hc.symm.trans (XIn.leaves_iff.mpr ⟨(mdInX_iff.mp hx).1, hst⟩))
      Bool.false_ne_true

/-- An M-extension instruction in X starts when the unit is free. -/
theorem starts (h : Tracks imemWritable s b) (hv : s.core.f.fxValid = true)
    (hclean : b.arch.fetchClean = true) (hmd : b.arch.isMd = true)
    (hfl : s.core.mdInflight = false) : s.core.mdStart = true := by
  have hfree := h.owned.flight
  rw [hfl] at hfree
  have hmd' : (decode s.core.f.fxInstr).isMd = true := by
    rw [h.fxInstr hv hclean]
    exact hmd
  unfold Core.mdStart
  rw [hv, hmd', hfl, (Bool.or_eq_false_iff.mp hfree.symm).1]
  rfl

/-- **A stuttering clock.** -/
theorem stutter (h : Tracks imemWritable s b) (hok : Orderly imemWritable s e b)
    (hc : s.commits = false) :
    Tracks imemWritable (s.step imemWritable e) b ∧
      s.backend.pending imemWritable =
        s.backend.shown ++ (s.step imemWritable e).backend.pending imemWritable := by
  obtain ⟨hsim, hpend⟩ := h.sim.stutter hok.toSteady hc
  obtain ⟨hbeat, hword⟩ := h.word_stutter (e := e) hc
  have howned : Owned (s.step imemWritable e).core := h.owned.step h.running hok.kept
  refine ⟨⟨hsim, howned, ?_, fun _ hb => ?_, fun _ hb => ?_, fun hclean hfl _ => ?_,
    fun hfl hclean => h.own_step hok.toSteady hfl hclean⟩, hpend⟩
  · rw [hbeat, if_neg Bool.false_ne_true]
    exact hword
  · exact absurd (hbeat.symm.trans hb) Bool.false_ne_true
  · exact absurd (hbeat.symm.trans hb) Bool.false_ne_true
  · obtain ⟨hflight, hnostart⟩ := h.unstarted hc hfl
    by_cases hlate : s.core.f.fxValid = true → s.core.w.memBeatStall = false
    · exact h.late hclean hflight hlate
    · -- a first beat: what is in X does not start, so it is not of the M extension
      rw [Classical.not_imp] at hlate
      refine Built.dependent_of_not_md ?_
      by_contra hmd
      rw [Bool.not_eq_false] at hmd
      exact absurd (hnostart.symm.trans (h.starts hlate.1 hclean hmd hflight)) Bool.false_ne_true

/-! ### An instruction leaves X -/

/-- What the outside contributes to it is what the machine makes of it. -/
theorem label_eq (h : Tracks imemWritable s b) (hok : s.Steady e b.arch)
    (hc : s.commits = true) : b.env (s.label e) = s.label e := by
  have hl := h.sim.leaves e hc
  have hclean := hok.fenced hc
  have hinstr := h.fxInstr hl.valid hclean
  have hmd : (s.label e).md = if b.arch.isMd then
      Mext.value (decode b.arch.instr).mdOp (b.operand b.rs1) (b.operand b.rs2) else 0#32 := by
    show (if (decode s.core.f.fxInstr).isMd then s.core.md.result else 0#32) = _
    rw [hinstr]
    show (if b.arch.isMd then s.core.md.result else 0#32) = _
    cases hx : b.arch.isMd with
    | false => rfl
    | true =>
      -- the unit has answered
      have hdone : s.core.md.done = true := by
        have hst := hl.mdStall
        have hisMd : (decode s.core.f.fxInstr).isMd = true := by
          rw [hinstr]
          exact hx
        unfold Core.mdStall at hst
        rw [hl.valid, hisMd] at hst
        simpa using hst
      have hflight : s.core.mdInflight = true := by
        rw [h.owned.flight, hdone, Bool.or_true]
      obtain ⟨hop, ha, hb⟩ := h.own hflight hclean
      rw [if_pos rfl, if_pos rfl, (h.owned.unit.done hdone).2, hop, ha, hb]
  unfold Built.env
  rw [← hmd]

/-- The machine takes an interrupt where the core does. -/
theorem takeIrq_eq (h : Tracks imemWritable s b) (hok : s.Steady e b.arch)
    (hc : s.commits = true) :
    ((b.arch.live s.core.csr).xIn (b.env (s.label e))).takeIrq P = (s.xIn e).takeIrq P := by
  rw [h.label_eq hok hc, ← h.sim.sees_live hok hc, ← XIn.takeIrq_visible, XIn.known_visible,
    XIn.takeIrq_visible]

theorem xw_eq (h : Tracks imemWritable s b) (hok : s.Steady e b.arch) (hc : s.commits = true) :
    b.xw P (s.label e, s.core.csr) = (s.xIn e).xwNext P := by
  unfold Built.xw
  rw [h.label_eq hok hc, h.sim.xw_live hok hc]

/-- It is fresh in W afterwards. -/
theorem fresh (h : Tracks imemWritable s b) (hok : s.Steady e b.arch) (hc : s.commits = true) :
    (s.step imemWritable e).core.w.xwValid = true ∧
      (s.step imemWritable e).core.w.xw = b.xw P (s.label e, s.core.csr) ∧
      (s.step imemWritable e).core.w.beat2 = false ∧
      (s.step imemWritable e).core.w.ldW0 = b.ldW0 ∧
      (s.step imemWritable e).mem = b.arch.mem := by
  have hl := h.sim.leaves e hc
  have hcommit : s.core.xCommit = true := by
    unfold Sys.commits at hc
    rw [Bool.and_eq_true] at hc
    exact hc.1
  obtain ⟨hval, hxw, hbeat⟩ := s.core.w.step_of_not_stall hl.beat (s.coreIn e).dmemRdata
    s.core.xCommit ((s.xIn e).xwNext P)
  refine ⟨hval.trans hcommit, hxw.trans (h.xw_eq hok hc).symm, hbeat, ?_,
    congrArg Data.mem (h.sim.regs_step (e := e) hok.unwritten hl.beat)⟩
  rw [← h.word]
  show (if s.core.w.memBeatStall then _ else s.core.w.ldW0) = _
  rw [hl.beat]
  rfl

/-- The front end in that clock. -/
theorem front (h : Tracks imemWritable s b) (hc : s.commits = true) :
    ((∃ target, (s.xIn e).redirect P = some target) ∧
        (s.step imemWritable e).core.f.fxValid = false) ∨
      (s.core.dbgFreeze (s.coreIn e) = true ∧
        (s.step imemWritable e).core.f.fxValid = false) ∨
      ((s.step imemWritable e).core.f.straddle = true ∧
        (s.step imemWritable e).core.f.fxValid = false) ∨
      ((s.xIn e).redirect P = none ∧ (s.step imemWritable e).core.f.fxValid = true ∧
        ((s.step imemWritable e).core.f.fxPc.getLsbD 1 = true →
          (s.step imemWritable e).core.f.fxLen = 2#3)) := by
  have hl := h.sim.leaves e hc
  have hst := (h.sim.running hl.mode).straddle
  have hcl := s.core.f.step_clock s.core.bp.ghist (s.core.fetchIn (s.coreIn e))
  have hf : (s.step imemWritable e).core.f =
      s.core.f.step s.core.bp.ghist (s.core.fetchIn (s.coreIn e)) := rfl
  rw [hf]
  generalize s.core.f.step s.core.bp.ghist (s.core.fetchIn (s.coreIn e)) = f' at hcl
  cases hcl with
  | redirected target hr => exact .inl ⟨⟨target, hr⟩, rfl⟩
  | resumed _ hres =>
    have hres' : (s.core.dbg.dbgMode && e.dbgResumereq) = true := hres
    rw [hl.mode] at hres'
    exact absurd hres' Bool.false_ne_true
  | frozen _ _ hfz => exact .inr (.inl ⟨hfz, rfl⟩)
  | stalled _ _ _ hst' =>
    exact absurd ((XIn.leaves_iff.mp hl.leaves).2.symm.trans hst') Bool.false_ne_true
  | straddled => exact .inr (.inr (.inl ⟨rfl, rfl⟩))
  | accepted hr _ _ _ hs =>
    refine .inr (.inr (.inr ⟨hr, rfl, fun hbit => ?_⟩))
    have hstr : s.core.f.straddle = false := by
      by_contra hstr
      rw [Bool.not_eq_false] at hstr
      exact absurd ((hst hstr).1.symm.trans hl.valid) Bool.false_ne_true
    have hbit' : s.core.f.pc.getLsbD 1 = true := hbit
    unfold FStage.needStraddle at hs
    rw [hbit', hstr, Bool.and_true, Bool.not_false, Bool.and_true, Bool.not_eq_false'] at hs
    show s.core.f.fetchedLen _ = 2#3
    unfold FStage.fetchedLen
    rw [hstr, hs]
    rfl

/-- Behind an instruction that leads X away nothing is forwarded early. -/
theorem early_of_redirect (h : Tracks imemWritable s b) (hok : s.Steady e b.arch)
    (hc : s.commits = true) {target : Word} (hr : (s.xIn e).redirect P = some target) :
    (b.step P imemWritable (s.label e, s.core.csr)).early = none := by
  unfold Built.step
  dsimp only
  rw [h.xw_eq hok hc, h.takeIrq_eq hok hc]
  cases htwo : ((s.xIn e).xwNext P).twoBeat && ((s.xIn e).xwNext P).writesRd with
  | false => rfl
  | true =>
    obtain ⟨htrap, hload⟩ := XIn.load_of_twoBeat htwo
    rw [XIn.takeIrq_of_redirect hr htrap hload]
    rfl

/-- The instruction that follows directly is not interrupted. -/
theorem takeIrq_of_none (hok : s.Steady e b.arch) (hr : (s.xIn e).redirect P = none) :
    (s.xIn e).takeIrq P = false := by
  by_contra hirq
  rw [Bool.not_eq_false] at hirq
  have hfencei : (s.xIn e).isFencei = false := by
    by_contra hf
    rw [Bool.not_eq_false] at hf
    exact absurd (hok.fencei.symm.trans (XIn.takeIrq_fencei hirq hf)) Bool.false_ne_true
  exact absurd (hr.symm.trans (XIn.redirect_of_takeIrq hirq hfencei)) (by simp)

/-- **An instruction that leaves X** is one step of the machine. -/
theorem commit (h : Tracks imemWritable s b) (hok : Orderly imemWritable s e b)
    (hc : s.commits = true) :
    Tracks imemWritable (s.step imemWritable e)
        (b.step P imemWritable (s.label e, s.core.csr)) ∧
      s.backend.shown = s.backend.pending imemWritable ∧
      (s.step imemWritable e).backend.pending imemWritable =
        b.events P (s.label e, s.core.csr) := by
  have hl := h.sim.leaves e hc
  have hst := hok.toSteady
  have hx := h.sim.executes_live hst hc
  rw [← h.label_eq hst hc] at hx
  obtain ⟨hsim', hpend⟩ := h.sim.commit_of hst hc hx
  have hsim : (s.step imemWritable e).Sim imemWritable
      (b.step P imemWritable (s.label e, s.core.csr)).arch := hsim'
  obtain ⟨hvalid, hxw, hbeat, hword, hmem⟩ := h.fresh hst hc
  have howned : Owned (s.step imemWritable e).core := h.owned.step h.running hst.kept
  have htwo : (s.step imemWritable e).core.w.memBeatStall =
      (b.xw P (s.label e, s.core.csr)).twoBeat := by
    rw [← hxw]
    exact Backend.fresh_beat (b := (s.step imemWritable e).backend) hvalid hbeat
  have hdata : (s.step imemWritable e).backend.rdata =
      (b.xw P (s.label e, s.core.csr)).firstWord b.arch.mem := by
    rw [← hxw, ← hmem]
    exact Backend.first_rdata (b := (s.step imemWritable e).backend) hvalid hbeat
  have hmode : (s.step imemWritable e).core.dbg.dbgMode = false :=
    (h.sim.front_commit hst hc hx).2
  have hfront := @front P imemWritable s e b h hc
  refine ⟨⟨hsim, howned, ?_, fun hv hb => ?_, fun hv _ hclean => ?_, fun hclean _ hlate => ?_,
    fun hfl => ?_⟩, hpend⟩
  · rw [htwo, hword, hdata]
    rfl
  · -- the next instruction is in X, so that X was not led away
    obtain ⟨-, hv'⟩ | ⟨-, hv'⟩ | ⟨-, hv'⟩ | ⟨hr, -⟩ := hfront
    · exact absurd (hv'.symm.trans hv) Bool.false_ne_true
    · exact absurd (hv'.symm.trans hv) Bool.false_ne_true
    · exact absurd (hv'.symm.trans hv) Bool.false_ne_true
    have hwb := Backend.first_wWb (b := (s.step imemWritable e).backend) hvalid hb
      (by
        show (s.step imemWritable e).core.w.xw.Formed
        rw [hxw, h.xw_eq hst hc]
        exact XIn.xwNext_formed P _)
    have hwb' : (s.step imemWritable e).core.w.wWb (s.step imemWritable e).backend.rdata =
        (s.step imemWritable e).core.w.xw.firstWb (s.step imemWritable e).core.w.ldW0
          (s.step imemWritable e).mem := hwb
    rw [hwb', hxw, hword, hmem]
    unfold Built.step
    dsimp only
    rw [h.takeIrq_eq hst hc, takeIrq_of_none hst hr, ← htwo, hb]
    rw [Bool.true_and, Bool.not_false, Bool.and_true]
  · obtain ⟨-, hv'⟩ | ⟨-, hv'⟩ | ⟨-, hv'⟩ | ⟨-, -, hlen⟩ := hfront
    · exact absurd (hv'.symm.trans hv) Bool.false_ne_true
    · exact absurd (hv'.symm.trans hv) Bool.false_ne_true
    · exact absurd (hv'.symm.trans hv) Bool.false_ne_true
    exact (hsim.running hmode).straddles_eq_false hv hclean hlen
  · obtain ⟨⟨target, hr⟩, -⟩ | ⟨hfz, -⟩ | ⟨hstr, -⟩ | ⟨-, hv, -⟩ := hfront
    · exact Built.dependent_of_early (h.early_of_redirect hst hc hr)
    · exact hok.joined hc hfz
    · -- its second half has still to be fetched
      exact Built.dependent_of_straddles ((hsim.running hmode).straddles hstr hclean)
    · refine Built.dependent_of_early ?_
      unfold Built.step
      dsimp only
      rw [← htwo, hlate hv]
      rfl
  · obtain ⟨hwait, -⟩ := h.waits hst hfl
    exact absurd (hl.mdStall.symm.trans hwait) Bool.false_ne_true

/-- **The pipeline refines the machine as it is built**, with halts, interrupts and
counters. -/
theorem refines (P : Params) (imemWritable : Word → Bool) :
    Refines (Sys.step (P := P) imemWritable) (fun s _ => s.backend.shown) (fun s _ => s.commits)
      (fun s e => (s.label e, s.core.csr)) (Built.step P imemWritable) (Built.events P)
      (Tracks imemWritable) (fun s => s.backend.pending imemWritable)
      (Orderly imemWritable) where
  stutter _ _ _ h hok hc := h.stutter hok hc
  commit _ _ _ h hok hc := h.commit hok hc

/-- Without interrupts the labels are empty. -/
theorem env_calm (hirq : e.irq = {}) : b.env (s.label e) = b.env {} := by
  unfold Built.env Sys.label
  rw [Sys.irqReq_eq_false hirq, hirq]
  rfl

end Tracks

/-- An orderly clock without interrupts, in which no counter is read. -/
structure Calm (imemWritable : Word → Bool) (s : Sys P) (e : ExtIn) (b : Built) : Prop
    extends Orderly imemWritable s e b where
  irq : e.irq = {}
  counter : b.arch.readsCounter = false

theorem Tracks.refines_calm (P : Params) (imemWritable : Word → Bool) :
    Refines (Sys.step (P := P) imemWritable) (fun s _ => s.backend.shown) (fun s _ => s.commits)
      (fun _ _ => ()) (fun b _ => b.next P imemWritable) (fun b _ => b.shows P)
      (Tracks imemWritable) (fun s => s.backend.pending imemWritable) (Calm imemWritable) where
  stutter _ _ _ h hok hc := h.stutter hok.toOrderly hc
  commit _ _ b h hok hc := by
    obtain ⟨hnext, hshown, hpend⟩ := h.commit hok.toOrderly hc
    obtain ⟨hstep, hev⟩ := @Built.step_uncounted P imemWritable b _ _ h.sim.csr hok.counter
      (Tracks.env_calm hok.irq)
    rw [hstep] at hnext
    rw [hev] at hpend
    exact ⟨hnext, hshown, hpend⟩

/-- The machine at the reset address. -/
def Sys.builtBoot (s : Sys P) : Built := ⟨s.archBoot, 0#32, none⟩

theorem Tracks.reset (imemWritable : Word → Bool) (s : Sys P) (e : ExtIn) :
    Tracks imemWritable (s.reset imemWritable e) (s.reset imemWritable e).builtBoot ∧
      (s.reset imemWritable e).backend.pending imemWritable = [] := by
  obtain ⟨hsim, hpend⟩ := Sys.sim_reset imemWritable s e
  refine ⟨⟨hsim, ⟨⟨Muldiv.Inv.reset s.core.md, rfl⟩, fun hfl => absurd hfl Bool.false_ne_true⟩, ?_,
    fun hv => absurd hv Bool.false_ne_true, fun hv => absurd hv Bool.false_ne_true,
    fun _ _ _ => Built.dependent_of_early rfl, fun hfl => absurd hfl Bool.false_ne_true⟩, hpend⟩
  have hb : (s.reset imemWritable e).core.w.memBeatStall = false := (w_empty rfl).1
  rw [hb, if_neg Bool.false_ne_true]
  rfl

end ThreeSippEs
