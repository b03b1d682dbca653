import ThreeSippEs.Common.Pkg

/-!
# Multiply/divide unit (`three_sipp_es_muldiv.sv`)

A four-state machine: a product takes one cycle in `S_MUL`; a division takes up
to 32 cycles of shift-subtract in `S_DIV` and one sign fix-up cycle in `S_FIN`.
`done` is a register, raised for the cycle in which `result` is valid.
-/

namespace ThreeSippEs

/-- `state_e` -/
inductive MdState where
  | idle | mul | div | fin
  deriving DecidableEq, Repr

/-- The registers of `three_sipp_es_muldiv`. -/
structure Muldiv where
  state : MdState := .idle
  opQ : MdOp := .mul
  aQ : Word := 0#32
  bQ : Word := 0#32
  /-- current dividend bit (31 .. 0) -/
  bitIdx : BitVec 5 := 0#5
  dividendMag : Word := 0#32
  divisorMag : Word := 0#32
  quotientQ : Word := 0#32
  /-- 33-bit running remainder -/
  remQ : BitVec 33 := 0#33
  negQuot : Bool := false
  negRem : Bool := false
  divByZero : Bool := false
  divOverflow : Bool := false
  dividendRaw : Word := 0#32
  done : Bool := false
  result : Word := 0#32
  deriving DecidableEq

/-- The operations that take the `S_MUL` path. -/
def MdOp.isMul (op : MdOp) : Bool :=
  op == .mul || op == .mulh || op == .mulhsu || op == .mulhu

/-- `MD_DIV` and `MD_REM` work on magnitudes. -/
def MdOp.isSignedDiv (op : MdOp) : Bool := op == .div || op == .rem

namespace Muldiv

/-- The 64-bit product of the explicitly extended operands. -/
def prod (op : MdOp) (a b : Word) : BitVec 64 :=
  match op with
  | .mul | .mulh => a.signExtend 64 * b.signExtend 64
  | .mulhsu => a.signExtend 64 * b.setWidth 64
  | _ => a.setWidth 64 * b.setWidth 64

variable (m : Muldiv)

def busy : Bool := m.state != .idle

def remLo : Word := m.remQ.extractLsb 31 0

/-- `{rem_lo, dividend_mag[bit_idx]}` -/
def remShifted : BitVec 33 := m.remLo ++ BitVec.ofBool (m.dividendMag.getLsbD m.bitIdx.toNat)

/-- The two's complement magnitude the divider works on. -/
def magnitude (op : MdOp) (v : Word) : Word :=
  if op.isSignedDiv && v.msb then ~~~v + 1#32 else v

/-- `S_IDLE` with `start`: latch the operands and select the path. -/
def accept (op : MdOp) (a b : Word) : Muldiv :=
  if op.isMul then { m with opQ := op, aQ := a, bQ := b, state := .mul, done := false }
  else
    { m with
      opQ := op, aQ := a, bQ := b, done := false
      divByZero := b == 0#32
      divOverflow := op.isSignedDiv && a == 0x80000000#32 && b == 0xFFFFFFFF#32
      dividendRaw := a
      -- division works on magnitudes, the signs are put back in `S_FIN`
      dividendMag := magnitude op a
      divisorMag := magnitude op b
      quotientQ := 0#32
      remQ := 0#33
      negQuot := op == .div && (a.msb ^^ b.msb)
      negRem := op == .rem && a.msb
      bitIdx := 31#5
      state := .div }

/-- `S_MUL` -/
def stepMul : Muldiv :=
  { m with
    result := if m.opQ = .mul then (prod m.opQ m.aQ m.bQ).extractLsb 31 0
      else (prod m.opQ m.aQ m.bQ).extractLsb 63 32
    done := true, state := .idle }

/-- The divisor fits into the shifted remainder. -/
def fits : Bool := (0#1 ++ m.divisorMag : BitVec 33).ule m.remShifted

/-- One shift-subtract step of `S_DIV`. -/
def shiftSubtract : Muldiv :=
  { m with
    remQ := if m.fits then m.remShifted - (0#1 ++ m.divisorMag) else m.remShifted
    quotientQ := if m.fits then (m.quotientQ <<< 1) ||| 1#32 else m.quotientQ <<< 1
    state := if m.bitIdx = 0#5 then .fin else m.state
    bitIdx := if m.bitIdx = 0#5 then m.bitIdx else m.bitIdx - 1#5
    done := false }

/-- `S_DIV` -/
def stepDiv : Muldiv :=
  -- the two special cases are answered in the first clock
  if m.divByZero then
    { m with
      result := if m.opQ = .div ∨ m.opQ = .divu then 0xFFFFFFFF#32 else m.dividendRaw
      done := true, state := .idle }
  else if m.divOverflow then
    { m with
      result := if m.opQ = .div then 0x80000000#32 else 0#32
      done := true, state := .idle }
  else m.shiftSubtract

/-- `S_FIN`: the sign fix-up. -/
def stepFin : Muldiv :=
  { m with
    result := match m.opQ with
      | .div => if m.negQuot then ~~~m.quotientQ + 1#32 else m.quotientQ
      | .divu => m.quotientQ
      | .rem => if m.negRem then ~~~m.remLo + 1#32 else m.remLo
      | _ => m.remLo
    done := true, state := .idle }

/-- One clock of the unit. -/
def step (start : Bool) (op : MdOp) (a b : Word) : Muldiv :=
  match m.state with
  | .idle => if start then m.accept op a b else { m with done := false }
  | .mul => m.stepMul
  | .div => m.stepDiv
  | .fin => m.stepFin

/-- `rst` -/
def reset : Muldiv := { m with state := .idle, done := false, result := 0#32 }

end Muldiv

end ThreeSippEs
