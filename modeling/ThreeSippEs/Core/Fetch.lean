import ThreeSippEs.Common.Rvc

/-!
# F stage: fetch, straddle and prediction (`three_sipp_es_core.sv`)

The fetch registers with their straddle half, the gshare/BTB predictor and the
return address stack. `FetchIn` collects what the stage sees of the others in
one cycle.
-/

namespace ThreeSippEs

/-- A direct-mapped BTB entry (`btb_valid`, `btb_tag`, `btb_tgt`, `btb_isjal`). -/
structure BtbEntry (P : Params) where
  valid : Bool
  tag : BitVec (32 - P.btbBits - 1)
  tgt : Word
  isjal : Bool

/-- The predictor tables and the global history. -/
structure Bpred (P : Params) where
  bht : BitVec P.bhtBits → BitVec 2
  btb : BitVec P.btbBits → BtbEntry P
  ghist : BitVec P.ghrBits

/-- The return address stack (`RAS_N = 8`). -/
structure Ras where
  ras : BitVec 3 → Word
  rasPtr : BitVec 3
  rasCnt : BitVec 4

/-- The fetch registers and the F/X pipeline register. -/
structure FStage (P : Params) where
  pc : Word
  fxPc : Word
  fxInstr : Word
  fxValid : Bool
  /-- bytes of the FX instruction (2 or 4) -/
  fxLen : BitVec 3
  /-- mid 2-beat fetch of a word-straddling 32-bit instruction -/
  straddle : Bool
  /-- low half captured in beat 1 -/
  stradLo : BitVec 16
  fxPredTaken : Bool
  fxPredTarget : Word
  fxGhist : BitVec P.ghrBits

variable {P : Params}

/-! ## Instruction assembly -/

namespace FStage

variable (f : FStage P)

/-- The straddle beat re-reads the next aligned word. -/
def imemAddr : Word :=
  if f.straddle then (f.pc.extractLsb 31 2 ++ 0b00#2) + 4#32 else f.pc

/-- The halfword at PC. -/
def fetchHalf (imemRdata : Word) : BitVec 16 :=
  if f.pc.getLsbD 1 then imemRdata.extractLsb 31 16 else imemRdata.extractLsb 15 0

def cIsComp (imemRdata : Word) : Bool := Rvc.isCompressed (f.fetchHalf imemRdata)

/-- A 32-bit instruction at an odd halfword needs a second fetch beat. -/
def needStraddle (imemRdata : Word) : Bool :=
  !f.cIsComp imemRdata && f.pc.getLsbD 1 && !f.straddle

/-- `c_illegal ? 32'h0 : c_instr32` -/
def cInstr (half : BitVec 16) : Word := (Rvc.instr32 half).getD 0#32

def fetchedInstr (imemRdata : Word) : Word :=
  -- the second beat brings the upper half
  if f.straddle then imemRdata.extractLsb 15 0 ++ f.stradLo
  else if f.cIsComp imemRdata then cInstr (f.fetchHalf imemRdata)
  else imemRdata

def fetchedLen (imemRdata : Word) : BitVec 3 :=
  if f.straddle || !f.cIsComp imemRdata then 4#3 else 2#3

theorem fetchedLen_even (imemRdata : Word) : (f.fetchedLen imemRdata).getLsbD 0 = false := by
  unfold fetchedLen
  split <;> rfl

end FStage

/-! ## Predictor lookup -/

namespace Bpred

variable (b : Bpred P)

def btbIdx (pc : Word) : BitVec P.btbBits := pc.extractLsb' 1 P.btbBits
def btbTag (pc : Word) : BitVec (32 - P.btbBits - 1) := pc.extractLsb' (P.btbBits + 1) _
def bhtIdx (pc : Word) (ghist : BitVec P.ghrBits) : BitVec P.bhtBits :=
  pc.extractLsb' 1 P.bhtBits ^^^ ghist.extractLsb' 0 P.bhtBits

def btbHit (pc : Word) : Bool :=
  P.bpred && (b.btb (btbIdx pc)).valid && (b.btb (btbIdx pc)).tag == btbTag pc

def bhtTaken (pc : Word) : Bool := (b.bht (bhtIdx pc b.ghist)).getLsbD 1

def predictTaken (pc : Word) : Bool :=
  b.btbHit pc && ((b.btb (btbIdx pc)).isjal || b.bhtTaken pc)

def predictTarget (pc : Word) : Word := (b.btb (btbIdx pc)).tgt

end Bpred

/-! ## Return address stack lookup -/

/-- `x1` and `x5` are link registers. -/
def isLink (r : BitVec 5) : Bool := r == 1#5 || r == 5#5

namespace Ras

variable (r : Ras)

def valid : Bool := r.rasCnt != 0#4

def fOp (instr : Word) : BitVec 7 := instr.extractLsb 6 0
def fRd (instr : Word) : BitVec 5 := instr.extractLsb 11 7
def fRs1 (instr : Word) : BitVec 5 := instr.extractLsb 19 15
def fIsJalr (instr : Word) : Bool := fOp instr == 0b1100111#7
def fIsJal (instr : Word) : Bool := fOp instr == 0b1101111#7

/-- `f_is_ret` -/
def fIsRet (P : Params) (instr : Word) : Bool :=
  P.bpred && fIsJalr instr && isLink (fRs1 instr) && !isLink (fRd instr)

/-- `f_is_call` -/
def fIsCall (P : Params) (instr : Word) : Bool :=
  P.bpred && (fIsJal instr || fIsJalr instr) && isLink (fRd instr)

/-- `ras[ras_top_idx]` -/
def top : Word := r.ras (r.rasPtr - 1#3)

/-- Push or pop for an accepted fetch of `instr` with link address `link`. -/
def update (P : Params) (instr link : Word) : Ras :=
  if fIsCall P instr then
    -- a full stack overwrites its oldest entry
    { ras := fun k => if k = r.rasPtr then link else r.ras k
      rasPtr := r.rasPtr + 1#3
      rasCnt := if r.rasCnt ≠ 8#4 then r.rasCnt + 1#4 else r.rasCnt }
  else if fIsRet P instr && r.valid then
    { r with rasPtr := r.rasPtr - 1#3, rasCnt := r.rasCnt - 1#4 }
  else r

end Ras

/-! ## Clock -/

/-- What the fetch stage sees of the others in one cycle. -/
structure FetchIn where
  imemRdata : Word
  /-- `redirect` and `redirect_target` -/
  redirect : Option Word
  dbgResumeNow : Bool
  dpc : Word
  dbgFreeze : Bool
  feStall : Bool
  /-- `predict_taken_f` and `predict_target_f` -/
  predictTakenF : Bool
  predictTargetF : Word

namespace FStage

variable (f : FStage P)

/-- The PC after an accepted fetch. -/
def pcNext (i : FetchIn) : Word :=
  if i.predictTakenF then i.predictTargetF else f.pc + (f.fetchedLen i.imemRdata).setWidth 32

/-- An accepted fetch: a new instruction for X. -/
def accept (ghist : BitVec P.ghrBits) (i : FetchIn) : FStage P :=
  { f with
    fxValid := true
    fxPc := f.pc
    fxInstr := f.fetchedInstr i.imemRdata
    fxLen := f.fetchedLen i.imemRdata
    fxPredTaken := i.predictTakenF
    fxPredTarget := i.predictTargetF
    fxGhist := ghist
    straddle := false
    pc := f.pcNext i }

/-- One clock of the F stage, in the priority of its `always_ff`. -/
def step (ghist : BitVec P.ghrBits) (i : FetchIn) : FStage P :=
  match i.redirect with
  | some target => { f with pc := target, fxValid := false, straddle := false }
  | none =>
    if i.dbgResumeNow then { f with pc := i.dpc, fxValid := false, straddle := false }
    else if i.dbgFreeze then { f with fxValid := false }
    else if i.feStall then f
    -- the first beat keeps its halfword and leaves the PC
    else if f.needStraddle i.imemRdata then
      { f with
        stradLo := i.imemRdata.extractLsb 31 16, straddle := true, fxValid := false }
    else f.accept ghist i

/-- `rst` -/
def reset : FStage P :=
  { f with
    pc := P.resetPc, fxValid := false, straddle := false, stradLo := 0#16, fxLen := 4#3
    fxPredTaken := false, fxPredTarget := 0#32, fxGhist := 0#_ }

end FStage

/-! ## Predictor update (driven from X) -/

/-- `bp_upd_*`: what X reports about a resolved branch or JAL. -/
structure BpUpdate (P : Params) where
  en : Bool
  isBranch : Bool
  taken : Bool
  isjal : Bool
  pc : Word
  target : Word
  ghist : BitVec P.ghrBits

namespace Bpred

variable (b : Bpred P)

/-- A two-bit saturating counter. -/
def train (taken : Bool) (c : BitVec 2) : BitVec 2 :=
  if taken then (if c = 0b11#2 then 0b11#2 else c + 1#2)
  else (if c = 0b00#2 then 0b00#2 else c - 1#2)

/-- Conditional branches train the counter and shift the history. -/
def trainBht (u : BpUpdate P) : Bpred P :=
  if u.isBranch then
    { b with
      bht := fun k => if k = bhtIdx u.pc u.ghist then train u.taken (b.bht k) else b.bht k
      ghist := (b.ghist ++ BitVec.ofBool u.taken).setWidth P.ghrBits }
  else b

/-- A taken branch or JAL installs its target. -/
def install (u : BpUpdate P) : Bpred P :=
  if u.taken then
    { b with
      btb := fun k =>
        if k = btbIdx u.pc then
          { valid := true, tag := btbTag u.pc, tgt := u.target, isjal := u.isjal }
        else b.btb k }
  else b

def step (u : BpUpdate P) : Bpred P :=
  if P.bpred && u.en then (b.trainBht u).install u else b

/-- `rst`: counters weakly not-taken, BTB invalid. Built only when `BPRED`. -/
def reset : Bpred P :=
  if P.bpred then
    { bht := fun _ => 0b01#2
      btb := fun k => { b.btb k with valid := false }
      ghist := 0#_ }
  else b

end Bpred

end ThreeSippEs
