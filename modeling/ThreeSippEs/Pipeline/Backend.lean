import ThreeSippEs.Pipeline.Sequential

/-!
# W and what it writes

W with the register file and the memories is a machine of its own: what it does
in a clock does not depend on the other stages. `Backend.drained` is the state
it leaves behind when it has finished the instruction it holds, after one beat
or two, and `Backend.pending` what it shows meanwhile.

- `drained_fresh`: an instruction that has just entered W leaves behind what the
  sequential machine computes, and shows what that machine shows;
- `drained_beat`, `drained_last`: how a clock changes what is left.
-/

namespace ThreeSippEs

/-! ## What X hands over -/

/-- The instruction classes in the X/W register exclude each other. -/
structure XwReg.Formed (r : XwReg) : Prop where
  amo : r.isAmo = true → r.memRe = false ∧ r.memWe = false ∧
    r.isAmoRmw = (!r.isLr && !r.isSc) ∧ (r.isLr = true → r.isSc = false)
  load : r.memRe = true → r.memWe = false

theorem XIn.xwNext_formed (P : Params) (x : XIn) : (x.xwNext P).Formed := by
  refine ⟨?_, ?_⟩
  · intro h
    have hamo : x.isAmo = true := by
      unfold xwNext at h
      exact isAmo_of_amoValid (Bool.and_eq_true .. ▸ h).1
    have hre : x.dec.memRe = false := by rw [dec_of_isAmo hamo]; rfl
    have hwe : x.dec.memWe = false := by rw [dec_of_isAmo hamo]; rfl
    refine ⟨?_, ?_, ?_, ?_⟩
    · show (x.dec.memRe && _) = false
      rw [hre]
      rfl
    · show (x.dec.memWe && _) = false
      rw [hwe]
      rfl
    · show (x.isAmo && !x.isLr && !x.isSc) = _
      rw [hamo]
      rfl
    · show x.isLr = true → x.isSc = false
      unfold isLr isSc
      rw [hamo]
      simp only [Bool.true_and, beq_iff_eq]
      intro hf
      rw [hf]
      rfl
  · intro h
    have hre : x.dec.memRe = true := by
      unfold xwNext at h
      exact (Bool.and_eq_true .. ▸ h).1
    have hwe : x.dec.memWe = false := ((decode_classes x.fxInstr).load hre).2.2.1
    show (x.dec.memWe && _) = false
    rw [hwe]
    rfl

/-! ## The back end -/

/-- W, the register file and the memories. -/
structure Backend where
  w : WStage
  regs : Regs
  mem : Memory

/-- What W leaves behind. -/
structure Data where
  regs : Regs
  resv : Resv
  mem : Memory

/-- The instruction in the X/W register performed in one go. -/
def XwReg.finish (imemWritable : Word → Bool) (r : XwReg) (d : Data) : Data where
  regs := Regfile.write d.regs r.regWe r.rd (r.value d.resv d.mem)
  resv := r.resvNext d.resv
  mem := (r.accesses d.resv d.mem).foldl (Memory.access imemWritable) d.mem

/-- What it shows. -/
def XwReg.events (r : XwReg) (d : Data) : List Event :=
  (r.accesses d.resv d.mem).map .bus ++ [.retire r.pc r.instr (r.writes d.resv d.mem)]

/-- An instruction without memory access that writes `x0` does not show its
result. -/
theorem XwReg.finish_of_rd_zero {r : XwReg} (hrd : r.rd = 0#5) (hamo : r.isAmo = false)
    (hre : r.memRe = false) (hwe : r.memWe = false) (imemWritable : Word → Bool) (d : Data)
    (v : Word) :
    { r with result := v }.finish imemWritable d = r.finish imemWritable d ∧
    { r with result := v }.events d = r.events d := by
  constructor
  · simp [finish, accesses, resvNext, hrd, hamo, hre, hwe]
  · simp [events, accesses, writes, hrd, hamo, hre, hwe]

namespace Backend

variable (imemWritable : Word → Bool) (b : Backend)

/-- `dmem_rdata` -/
def rdata : Word := b.mem.dmem.readWord b.w.dmemAddr

/-- One clock, in which X hands over `next` if it commits. -/
def step (commit : Bool) (next : XwReg) : Backend where
  w := b.w.step b.rdata commit next
  regs := Regfile.write b.regs b.w.rfWe b.w.xw.rd (b.w.wWb b.rdata)
  mem :=
    if b.w.dmemWe then b.mem.write imemWritable b.w.dmemAddr b.w.dmemBe b.w.dmemWdata else b.mem

/-- The events of this clock, from the data port and the retire port. -/
def shown : List Event :=
  (if b.w.dmemRe then [.bus ⟨b.w.dmemAddr, b.w.dmemBe, false, b.rdata⟩] else []) ++
    (if b.w.dmemWe then [.bus ⟨b.w.dmemAddr, b.w.dmemBe, true, b.w.dmemWdata⟩] else []) ++
    (if b.w.retireValid then
      [.retire b.w.xw.pc b.w.xw.instr (if b.w.rfWe then some (b.w.xw.rd, b.w.wWb b.rdata) else none)]
    else [])

def data : Data where
  regs := b.regs
  resv := if b.w.resvValid then some b.w.resvAddr else none
  mem := b.mem

/-- What is left when W has finished the instruction it holds. -/
def drained : Data :=
  if b.w.memBeatStall then ((b.step imemWritable false {}).step imemWritable false {}).data
  else (b.step imemWritable false {}).data

/-- What W shows until then. -/
def pending : List Event :=
  if b.w.memBeatStall then b.shown ++ (b.step imemWritable false {}).shown else b.shown

variable {imemWritable} {b}

/-- What X does has no influence on what W leaves behind in this clock. -/
theorem data_step (commit : Bool) (next : XwReg) :
    (b.step imemWritable commit next).data = (b.step imemWritable false {}).data := rfl

variable (imemWritable) in
/-- A first beat is followed by the last one. -/
theorem last_of_beat (h : b.w.memBeatStall = true) (commit : Bool) (next : XwReg) :
    b.step imemWritable commit next = b.step imemWritable false {} ∧
    (b.step imemWritable commit next).w.memBeatStall = false := by
  have hw : b.w.step b.rdata commit next = b.w.step b.rdata false {} := by
    unfold WStage.step
    rw [h]
    rfl
  refine ⟨?_, ?_⟩
  · unfold step
    rw [hw]
  · by_contra hb
    rw [Bool.not_eq_false] at hb
    have hbeat := WStage.beat2_of_memBeatStall _ hb
    exact absurd ((b.w.step_of_stall h b.rdata commit next).2.2) (by simpa [step] using hbeat)

/-- A first beat leaves what is left as it is, and shows the first part. -/
theorem drained_beat (h : b.w.memBeatStall = true) (commit : Bool) (next : XwReg) :
    (b.step imemWritable commit next).drained imemWritable = b.drained imemWritable ∧
    b.pending imemWritable =
      b.shown ++ (b.step imemWritable commit next).pending imemWritable := by
  obtain ⟨heq, hlast⟩ := last_of_beat imemWritable h commit next
  unfold drained pending
  rw [hlast, h, if_neg Bool.false_ne_true, if_pos rfl, if_neg Bool.false_ne_true, if_pos rfl, heq]
  exact ⟨rfl, rfl⟩

variable (imemWritable) in
/-- A last beat completes what is left. -/
theorem drained_last (h : b.w.memBeatStall = false) (commit : Bool) (next : XwReg) :
    (b.step imemWritable commit next).data = b.drained imemWritable ∧
    b.pending imemWritable = b.shown := by
  unfold drained pending
  rw [h, if_neg Bool.false_ne_true, if_neg Bool.false_ne_true]
  exact ⟨rfl, rfl⟩

variable (imemWritable) in
/-- An empty W has nothing to do. -/
theorem drained_empty (h : b.w.xwValid = false) :
    b.drained imemWritable = b.data ∧ b.pending imemWritable = [] ∧
    (b.step imemWritable false {}).data = b.data := by
  have hstall : b.w.memBeatStall = false := by
    by_contra hb
    rw [Bool.not_eq_false] at hb
    exact absurd (b.w.xwValid_of_memBeatStall hb) (by simp [h])
  have hstep : (b.step imemWritable false {}).data = b.data := by
    simp [data, step, WStage.rfWe, WStage.dmemWe, WStage.amoDoStore, WStage.amoRmwB2,
      WStage.amoHere, WStage.step, h]
  refine ⟨?_, ?_, hstep⟩
  · rw [← hstep]
    exact (drained_last imemWritable hstall false {}).1.symm
  · rw [(drained_last imemWritable hstall false {}).2]
    simp [shown, WStage.dmemRe, WStage.dmemWe, WStage.amoDoStore, WStage.amoRmwB2,
      WStage.amoDoLoad, WStage.amoRmwB1, WStage.amoHere, WStage.retireValid, h]

/-! ## The ports in one clock -/

section Ports

/-- The accesses of this clock. -/
def beat (b : Backend) : List Access :=
  (if b.w.dmemRe then [⟨b.w.dmemAddr, b.w.dmemBe, false, b.rdata⟩] else []) ++
    if b.w.dmemWe then [⟨b.w.dmemAddr, b.w.dmemBe, true, b.w.dmemWdata⟩] else []

variable (imemWritable) in
/-- The memories follow the accesses. -/
theorem step_mem (commit : Bool) (next : XwReg) :
    (b.step imemWritable commit next).mem = b.beat.foldl (Memory.access imemWritable) b.mem := by
  show (if b.w.dmemWe then _ else _) = _
  unfold beat
  cases b.w.dmemRe <;> cases b.w.dmemWe <;> rfl

variable (imemWritable) in
/-- Every beat makes the change of the reservation. -/
theorem step_resv (hv : b.w.xwValid = true) (commit : Bool) (next : XwReg) :
    (b.step imemWritable commit next).data.resv = b.w.xw.resvNext b.data.resv := by
  show (if (WStage.step ..).resvValid then some (WStage.step ..).resvAddr else none) = _
  unfold WStage.step XwReg.resvNext WStage.amoHere data
  dsimp only
  rw [hv]
  cases b.w.xw.isAmo <;> cases b.w.xw.isLr <;> cases b.w.xw.isSc <;> cases b.w.xw.memWe <;> rfl

theorem resvNext_resvNext (r : XwReg) (resv : Resv) :
    r.resvNext (r.resvNext resv) = r.resvNext resv := by
  unfold XwReg.resvNext
  split_ifs <;> rfl

/-- A first beat shows its accesses. -/
theorem shown_of_stall (h : b.w.memBeatStall = true) : b.shown = b.beat.map .bus := by
  have hret : b.w.retireValid = false := by
    unfold WStage.retireValid
    rw [h]
    exact Bool.and_false _
  unfold shown beat
  rw [hret, if_neg Bool.false_ne_true, List.append_nil]
  cases b.w.dmemRe <;> cases b.w.dmemWe <;> rfl

/-- A last beat shows them, and the instruction retires with what is written back. -/
theorem shown_of_last (hv : b.w.xwValid = true) (h : b.w.memBeatStall = false) :
    b.shown = b.beat.map .bus ++ [.retire b.w.xw.pc b.w.xw.instr
      (if b.w.xw.regWe && b.w.xw.rd != 0#5 then some (b.w.xw.rd, b.w.wWb b.rdata) else none)] := by
  have hret : b.w.retireValid = true := by
    unfold WStage.retireValid
    rw [h, hv]
    rfl
  have hrf : b.w.rfWe = (b.w.xw.regWe && b.w.xw.rd != 0#5) := by
    unfold WStage.rfWe
    rw [h, hv]
    simp
  unfold shown beat
  rw [hret, hrf, if_pos rfl]
  cases b.w.dmemRe <;> cases b.w.dmemWe <;> rfl

variable (imemWritable) in
/-- The registers change in a last beat only. -/
theorem step_regs (hv : b.w.xwValid = true) (commit : Bool) (next : XwReg) :
    (b.step imemWritable commit next).regs =
      if b.w.memBeatStall then b.regs
      else Regfile.write b.regs b.w.xw.regWe b.w.xw.rd (b.w.wWb b.rdata) := by
  show Regfile.write b.regs b.w.rfWe b.w.xw.rd (b.w.wWb b.rdata) = _
  unfold WStage.rfWe
  rw [hv]
  cases b.w.memBeatStall with
  | true => simp
  | false => simp

/-! ### One beat or two -/

/-- An instruction of one beat. -/
theorem fresh_single (hv : b.w.xwValid = true) (hst : b.w.memBeatStall = false)
    (hacc : b.beat = b.w.xw.accesses b.data.resv b.mem)
    (hval : b.w.wWb b.rdata = b.w.xw.value b.data.resv b.mem) :
    b.drained imemWritable = b.w.xw.finish imemWritable b.data ∧
    b.pending imemWritable = b.w.xw.events b.data := by
  have hregs := step_regs imemWritable hv false {}
  have hresv := step_resv imemWritable hv false {}
  have hmem := step_mem imemWritable (b := b) false {}
  rw [hst, if_neg Bool.false_ne_true, hval] at hregs
  rw [hacc] at hmem
  constructor
  · rw [← (drained_last imemWritable hst false {}).1]
    exact (Data.mk.injEq ..).mpr ⟨hregs, hresv, hmem⟩
  · rw [(drained_last imemWritable hst false {}).2, shown_of_last hv hst, hacc, hval]
    rfl

/-- Behind a first beat the instruction is still there, with the word it has read. -/
theorem second_beat {b' : Backend} (hst : b.w.memBeatStall = true)
    (hb' : b.step imemWritable false {} = b') :
    b'.w.xwValid = true ∧ b'.w.xw = b.w.xw ∧ b'.w.beat2 = true ∧ b'.w.ldW0 = b.rdata := by
  have hv := b.w.xwValid_of_memBeatStall hst
  subst hb'
  unfold step WStage.step
  rw [hst]
  exact ⟨hv, rfl, rfl, rfl⟩

/-- An instruction of two beats, `b'` being the second one. -/
theorem fresh_double {b' : Backend} (hb' : b.step imemWritable false {} = b')
    (hst : b.w.memBeatStall = true)
    (hacc : b.beat ++ b'.beat = b.w.xw.accesses b.data.resv b.mem)
    (hval : b'.w.wWb b'.rdata = b.w.xw.value b.data.resv b.mem) :
    b.drained imemWritable = b.w.xw.finish imemWritable b.data ∧
    b.pending imemWritable = b.w.xw.events b.data := by
  have hv := b.w.xwValid_of_memBeatStall hst
  obtain ⟨hv', hxw, -⟩ := second_beat hst hb'
  have hlast : b'.w.memBeatStall = false := hb' ▸ (last_of_beat imemWritable hst false {}).2
  obtain ⟨hdrained, hpending⟩ := @drained_beat imemWritable b hst false {}
  have hregs := step_regs imemWritable hv false {}
  have hregs' := step_regs imemWritable hv' false {}
  have hresv := step_resv imemWritable hv false {}
  have hresv' := step_resv imemWritable hv' false {}
  have hmem := step_mem imemWritable (b := b) false {}
  have hmem' := step_mem imemWritable (b := b') false {}
  rw [hb'] at hdrained hpending hregs hresv hmem
  rw [hst, if_pos rfl] at hregs
  rw [hlast, if_neg Bool.false_ne_true, hxw, hval, hregs] at hregs'
  rw [hxw, hresv, resvNext_resvNext] at hresv'
  rw [hmem, ← List.foldl_append, hacc] at hmem'
  constructor
  · rw [← hdrained, ← (drained_last imemWritable hlast false {}).1]
    exact (Data.mk.injEq ..).mpr ⟨hregs', hresv', hmem'⟩
  · rw [hpending, (drained_last imemWritable hlast false {}).2, shown_of_stall hst,
      shown_of_last hv' hlast, hxw, hval, ← List.append_assoc, ← List.map_append, hacc]
    rfl

/-! ### What the ports carry -/

/-- The ports of an instruction that is not atomic. -/
theorem ports_plain (hv : b.w.xwValid = true) (hamo : b.w.xw.isAmo = false) :
    b.w.dmemRe = b.w.xw.memRe ∧ b.w.dmemWe = b.w.xw.memWe ∧
    b.w.memBeatStall = (b.w.xw.crosses && !b.w.beat2) ∧
    b.w.dmemAddr = b.w.xw.wordAddr + (if b.w.beat2 then 4#32 else 0#32) ∧
    b.w.dmemBe =
      (if b.w.beat2 then b.w.xw.beWin.extractLsb 7 4 else b.w.xw.beWin.extractLsb 3 0) ∧
    b.w.dmemWdata =
      (if b.w.beat2 then b.w.xw.stWin.extractLsb 63 32 else b.w.xw.stWin.extractLsb 31 0) ∧
    ∀ r, b.w.wWb r = if b.w.xw.memRe then b.w.xw.wLoad (b.w.ldComb r) else b.w.xw.result := by
  have hhere : b.w.amoHere = false := by
    unfold WStage.amoHere
    rw [hamo, Bool.and_false]
  have hb1 : b.w.amoRmwB1 = false := by
    unfold WStage.amoRmwB1
    rw [hhere, Bool.false_and, Bool.false_and]
  have hb2 : b.w.amoRmwB2 = false := by
    unfold WStage.amoRmwB2
    rw [hhere, Bool.false_and, Bool.false_and]
  refine ⟨?_, ?_, ?_, ?_, ?_, ?_, fun r => ?_⟩
  · unfold WStage.dmemRe WStage.amoDoLoad
    rw [hv, hhere, Bool.true_and, Bool.false_and, Bool.or_false]
  · unfold WStage.dmemWe WStage.amoDoStore
    rw [hv, hhere, Bool.true_and, Bool.false_and, Bool.or_false]
  · unfold WStage.memBeatStall WStage.memMis
    rw [hv, hb1, Bool.true_and, Bool.or_false]
  · unfold WStage.dmemAddr
    rw [hhere, if_neg Bool.false_ne_true]
  · unfold WStage.dmemBe
    rw [hhere, if_neg Bool.false_ne_true]
  · unfold WStage.dmemWdata
    rw [hb2, hhere, if_neg Bool.false_ne_true, Bool.false_and, if_neg Bool.false_ne_true]
  · unfold WStage.wWb
    rw [hhere, if_neg Bool.false_ne_true]

/-- The ports of an atomic one. -/
theorem ports_amo (hv : b.w.xwValid = true) (hf : b.w.xw.Formed) (hamo : b.w.xw.isAmo = true) :
    b.w.dmemRe = (b.w.xw.isLr || b.w.xw.isAmoRmw && !b.w.beat2) ∧
    b.w.dmemWe = (b.w.xw.isSc && b.w.scOk || b.w.xw.isAmoRmw && b.w.beat2) ∧
    b.w.memBeatStall = (b.w.xw.isAmoRmw && !b.w.beat2) ∧
    b.w.dmemAddr = b.w.xw.amoAddrAl ∧ b.w.dmemBe = 0b1111#4 ∧
    b.w.dmemWdata =
      (if b.w.xw.isAmoRmw && b.w.beat2 then b.w.xw.amoRes b.w.ldW0
       else if b.w.xw.isSc then b.w.xw.amoB
       else if b.w.beat2 then b.w.xw.stWin.extractLsb 63 32 else b.w.xw.stWin.extractLsb 31 0) ∧
    ∀ r, b.w.wWb r = b.w.amoWb r := by
  obtain ⟨hre, hwe, -, -⟩ := hf.amo hamo
  have hhere : b.w.amoHere = true := by
    unfold WStage.amoHere
    rw [hv, hamo]
    rfl
  have hb1 : b.w.amoRmwB1 = (b.w.xw.isAmoRmw && !b.w.beat2) := by
    unfold WStage.amoRmwB1
    rw [hhere, Bool.true_and]
  have hb2 : b.w.amoRmwB2 = (b.w.xw.isAmoRmw && b.w.beat2) := by
    unfold WStage.amoRmwB2
    rw [hhere, Bool.true_and]
  refine ⟨?_, ?_, ?_, ?_, ?_, ?_, fun r => ?_⟩
  · unfold WStage.dmemRe WStage.amoDoLoad
    rw [hre, hhere, hb1, Bool.and_false, Bool.false_or, Bool.true_and]
  · unfold WStage.dmemWe WStage.amoDoStore
    rw [hwe, hhere, hb2, Bool.and_false, Bool.false_or, Bool.true_and]
  · have hcross : b.w.xw.crosses = false := by
      unfold XwReg.crosses
      rw [hre, hwe]
      rfl
    unfold WStage.memBeatStall WStage.memMis
    rw [hcross, hb1, Bool.and_false, Bool.false_and, Bool.false_or]
  · unfold WStage.dmemAddr
    rw [hhere, if_pos rfl]
  · unfold WStage.dmemBe
    rw [hhere, if_pos rfl]
  · unfold WStage.dmemWdata
    rw [hb2, hhere, Bool.true_and]
  · unfold WStage.wWb
    rw [hhere, if_pos rfl]

end Ports

/-! ## A fresh instruction in W, class by class -/

section Fresh

theorem fresh_lr (hv : b.w.xwValid = true) (hf : b.w.xw.Formed) (hamo : b.w.xw.isAmo = true)
    (hlr : b.w.xw.isLr = true) :
    b.drained imemWritable = b.w.xw.finish imemWritable b.data ∧
    b.pending imemWritable = b.w.xw.events b.data := by
  obtain ⟨-, -, hrmw, hsc⟩ := hf.amo hamo
  obtain ⟨hre, hwe, hst, haddr, hbe, -, hwb⟩ := ports_amo hv hf hamo
  rw [hlr, hsc hlr] at hrmw
  rw [hrmw] at hst hre hwe
  rw [hsc hlr] at hwe
  rw [hlr] at hre
  refine fresh_single hv hst ?_ ?_
  · unfold beat rdata XwReg.accesses
    rw [hre, hwe, haddr, hbe, hamo, hlr]
    rfl
  · unfold rdata XwReg.value
    rw [hwb, haddr, hamo, hsc hlr]
    unfold WStage.amoWb
    rw [hlr]
    rfl

theorem fresh_sc (hv : b.w.xwValid = true) (hf : b.w.xw.Formed) (hamo : b.w.xw.isAmo = true)
    (hlr : b.w.xw.isLr = false) (hsc : b.w.xw.isSc = true) :
    b.drained imemWritable = b.w.xw.finish imemWritable b.data ∧
    b.pending imemWritable = b.w.xw.events b.data := by
  obtain ⟨-, -, hrmw, -⟩ := hf.amo hamo
  obtain ⟨hre, hwe, hst, haddr, hbe, hdata, hwb⟩ := ports_amo hv hf hamo
  rw [hlr, hsc] at hrmw
  rw [hrmw] at hst hre hwe hdata
  rw [hlr] at hre
  rw [hsc] at hwe hdata
  -- the SC succeeds where the reservation is the address it stores to
  have hok : b.data.resv = some b.w.xw.amoAddrAl ↔ b.w.scOk = true := by
    unfold data WStage.scOk
    cases b.w.resvValid <;> simp
  refine fresh_single hv hst ?_ ?_
  · unfold beat XwReg.accesses
    rw [hre, hwe, haddr, hbe, hdata, hamo, hlr, hsc]
    simp only [hok]
    cases b.w.scOk <;> rfl
  · unfold XwReg.value
    rw [hwb, hamo, hlr, hsc]
    unfold WStage.amoWb
    rw [hlr, hsc]
    simp only [hok]
    cases b.w.scOk <;> rfl

theorem fresh_rmw (hv : b.w.xwValid = true) (hb : b.w.beat2 = false) (hf : b.w.xw.Formed)
    (hamo : b.w.xw.isAmo = true) (hlr : b.w.xw.isLr = false) (hsc : b.w.xw.isSc = false) :
    b.drained imemWritable = b.w.xw.finish imemWritable b.data ∧
    b.pending imemWritable = b.w.xw.events b.data := by
  obtain ⟨-, -, hrmw, -⟩ := hf.amo hamo
  obtain ⟨hre, hwe, hst, haddr, hbe, -, -⟩ := ports_amo hv hf hamo
  rw [hlr, hsc] at hrmw
  rw [hrmw, hb] at hst hre hwe
  rw [hlr] at hre
  rw [hsc] at hwe
  generalize hb' : b.step imemWritable false {} = b'
  obtain ⟨hv', hxw, hbeat, hld⟩ := second_beat hst hb'
  obtain ⟨hre', hwe', -, haddr', hbe', hdata', hwb'⟩ :=
    ports_amo hv' (hxw ▸ hf) (hxw ▸ hamo)
  rw [hxw, hrmw, hbeat] at hre' hwe' hdata'
  rw [hxw] at haddr'
  rw [hlr] at hre'
  rw [hsc] at hwe'
  rw [hld] at hdata'
  refine fresh_double hb' hst ?_ ?_
  · unfold beat XwReg.accesses
    rw [hre, hwe, hre', hwe', haddr, haddr', hbe, hbe', hdata', hamo, hlr, hsc]
    unfold rdata
    rw [haddr]
    rfl
  · unfold XwReg.value
    rw [hwb', hamo, hlr, hsc]
    unfold WStage.amoWb
    rw [hxw, hlr, hsc, hld]
    unfold rdata
    rw [haddr]
    rfl

/-- A load or store that does not cross a word, or an instruction without access. -/
theorem fresh_aligned (hv : b.w.xwValid = true) (hb : b.w.beat2 = false) (hf : b.w.xw.Formed)
    (hamo : b.w.xw.isAmo = false) (hc : b.w.xw.crosses = false) :
    b.drained imemWritable = b.w.xw.finish imemWritable b.data ∧
    b.pending imemWritable = b.w.xw.events b.data := by
  obtain ⟨hre, hwe, hst, haddr, hbe, hdata, hwb⟩ := ports_plain hv hamo
  rw [hc] at hst
  rw [hb, if_neg Bool.false_ne_true] at haddr hbe hdata
  rw [BitVec.add_zero] at haddr
  have hexcl := hf.load
  refine fresh_single hv hst ?_ ?_
  · unfold beat rdata XwReg.accesses XwReg.words
    rw [hre, hwe, haddr, hbe, hdata, hamo, hc]
    cases hload : b.w.xw.memRe with
    | true =>
      rw [hexcl hload]
      rfl
    | false => cases b.w.xw.memWe <;> rfl
  · unfold rdata XwReg.value
    rw [hwb, haddr, hamo, hc]
    unfold WStage.ldComb
    rw [hb]
    rfl

/-- One that crosses a word. -/
theorem fresh_crossing (hv : b.w.xwValid = true) (hb : b.w.beat2 = false) (hf : b.w.xw.Formed)
    (hamo : b.w.xw.isAmo = false) (hc : b.w.xw.crosses = true) :
    b.drained imemWritable = b.w.xw.finish imemWritable b.data ∧
    b.pending imemWritable = b.w.xw.events b.data := by
  obtain ⟨hre, hwe, hst, haddr, hbe, hdata, -⟩ := ports_plain hv hamo
  rw [hc, hb] at hst
  rw [hb, if_neg Bool.false_ne_true] at haddr hbe hdata
  rw [BitVec.add_zero] at haddr
  generalize hb' : b.step imemWritable false {} = b'
  obtain ⟨hv', hxw, hbeat, hld⟩ := second_beat hst hb'
  obtain ⟨hre', hwe', -, haddr', hbe', hdata', hwb'⟩ := ports_plain hv' (hxw ▸ hamo)
  rw [hbeat, if_pos rfl, hxw] at haddr' hbe' hdata'
  rw [hxw] at hre' hwe'
  have hexcl := hf.load
  cases hload : b.w.xw.memRe with
  | true =>
    -- the first beat of a load writes nothing
    have hmem : b'.mem = b.mem := by
      rw [← hb', step_mem]
      unfold beat
      rw [hre, hwe, hload, hexcl hload]
      rfl
    refine fresh_double hb' hst ?_ ?_
    · unfold beat rdata XwReg.accesses XwReg.words
      rw [hre, hwe, hre', hwe', haddr, haddr', hbe, hbe', hmem, hamo, hc, hload, hexcl hload]
      rfl
    · unfold XwReg.value
      rw [hwb', hxw, hamo, hc, hload]
      unfold WStage.ldComb
      rw [hbeat, hld]
      unfold rdata
      rw [haddr, haddr', hmem]
      rfl
  | false =>
    have hstore : b.w.xw.memWe = true := by
      unfold XwReg.crosses at hc
      rw [hload, Bool.false_or, Bool.and_eq_true] at hc
      exact hc.1
    refine fresh_double hb' hst ?_ ?_
    · unfold beat XwReg.accesses XwReg.words
      rw [hre, hwe, hre', hwe', haddr, haddr', hbe, hbe', hdata, hdata', hamo, hc, hload, hstore]
      rfl
    · unfold XwReg.value
      rw [hwb', hxw, hamo, hload]
      rfl

end Fresh

variable (imemWritable) in
/-- **An instruction that has just entered W** leaves behind, and shows until
then, what it does when it is performed in one go. -/
theorem drained_fresh (hv : b.w.xwValid = true) (hb : b.w.beat2 = false) (hf : b.w.xw.Formed) :
    b.drained imemWritable = b.w.xw.finish imemWritable b.data ∧
    b.pending imemWritable = b.w.xw.events b.data := by
  cases hamo : b.w.xw.isAmo with
  | true =>
    cases hlr : b.w.xw.isLr with
    | true => exact fresh_lr hv hf hamo hlr
    | false =>
      cases hsc : b.w.xw.isSc with
      | true => exact fresh_sc hv hf hamo hlr hsc
      | false => exact fresh_rmw hv hb hf hamo hlr hsc
  | false =>
    cases hc : b.w.xw.crosses with
    | true => exact fresh_crossing hv hb hf hamo hc
    | false => exact fresh_aligned hv hb hf hamo hc

end Backend

/-! ## Instruction bytes -/

/-- An access changes the instruction bytes it touches, and no others. -/
theorem Memory.access_imem {imemWritable : Word → Bool} {acc : Access} {b : Word}
    (h : acc.touches imemWritable b = false) (m : Memory) :
    (m.access imemWritable acc).imem b = m.imem b := by
  unfold Memory.access Memory.write Bytes.writeWord
  unfold Access.touches at h
  cases hw : acc.write with
  | false => rfl
  | true =>
    rw [if_pos rfl]
    dsimp only
    cases hi : imemWritable acc.addr with
    | false => rfl
    | true =>
      rw [if_pos rfl]
      rw [hw, hi] at h
      simp only [Bool.true_and, Bool.and_eq_false_iff, beq_eq_false_iff_ne] at h
      rw [if_neg]
      rintro ⟨hword, hlane⟩
      rcases h with h | h
      · exact h hword
      · exact absurd (hlane.symm.trans h) (by simp)

theorem Memory.accesses_imem {imemWritable : Word → Bool} {b : Word} (l : List Access)
    (h : ∀ acc ∈ l, acc.touches imemWritable b = false) (m : Memory) :
    (l.foldl (Memory.access imemWritable) m).imem b = m.imem b := by
  induction l generalizing m with
  | nil => rfl
  | cons acc l ih =>
    rw [List.foldl_cons, ih (fun acc' hacc => h acc' (List.mem_cons_of_mem _ hacc)),
      Memory.access_imem (h acc List.mem_cons_self)]

/-- Nor does a clock of W change others than those its accesses touch. -/
theorem Backend.step_imem {imemWritable : Word → Bool} {b : Backend} {a : Word}
    (h : ∀ acc, .bus acc ∈ b.shown → acc.touches imemWritable a = false) (commit : Bool)
    (next : XwReg) : (b.step imemWritable commit next).mem.imem a = b.mem.imem a := by
  unfold Backend.step
  dsimp only
  cases hwe : b.w.dmemWe with
  | false => rfl
  | true =>
    rw [if_pos rfl]
    have hacc := h ⟨b.w.dmemAddr, b.w.dmemBe, true, b.w.dmemWdata⟩ ?_
    · exact Memory.access_imem hacc b.mem
    unfold Backend.shown
    simp [hwe]

end ThreeSippEs
