import ThreeSippEs.Lib.Clocked

/-!
# AXI4-Lite master bridge (`three_sipp_es_axi_lite.sv`)

One outstanding transaction at a time: a request is captured in `S_IDLE`, driven
on AW and W together or on AR, answered on B or R, and reported for one cycle in
`S_DONE`. AW and W are accepted independently, each recorded by a flag.
-/

namespace ThreeSippEs

/-- `state_e` -/
inductive AxiState where
  /-- wait for a request -/
  | idle
  /-- driving AW and W until both are accepted -/
  | waddr
  /-- waiting for B -/
  | wresp
  /-- driving AR until it is accepted -/
  | raddr
  /-- waiting for R -/
  | rdata
  /-- `rsp_valid` for one cycle -/
  | done
  deriving DecidableEq, Repr

/-- The registers of `three_sipp_es_axi_lite`, with the values of its reset. -/
structure AxiLite (addrW dataW : Nat) where
  state : AxiState := .idle
  addrQ : BitVec addrW := 0#_
  wdataQ : BitVec dataW := 0#_
  rdataQ : BitVec dataW := 0#_
  wstrbQ : BitVec (dataW / 8) := 0#_
  respQ : BitVec 2 := 0b00#2
  /-- per-channel accepted flags for writes -/
  awDone : Bool := false
  wDone : Bool := false
  deriving DecidableEq

/-- The input ports of `three_sipp_es_axi_lite` in one cycle. -/
structure AxiIn (addrW dataW : Nat) where
  reqValid : Bool := false
  reqWrite : Bool := false
  reqAddr : BitVec addrW := 0#_
  reqWdata : BitVec dataW := 0#_
  reqWstrb : BitVec (dataW / 8) := 0#_
  mAxiAwready : Bool := false
  mAxiWready : Bool := false
  mAxiBresp : BitVec 2 := 0b00#2
  mAxiBvalid : Bool := false
  mAxiArready : Bool := false
  mAxiRdata : BitVec dataW := 0#_
  mAxiRresp : BitVec 2 := 0b00#2
  mAxiRvalid : Bool := false
  deriving DecidableEq

namespace AxiLite

variable {addrW dataW : Nat} (s : AxiLite addrW dataW) (i : AxiIn addrW dataW)

/-! ## Outputs -/

def reqReady : Bool := s.state == .idle
def rspValid : Bool := s.state == .done
def rspRdata : BitVec dataW := s.rdataQ
def rspResp : BitVec 2 := s.respQ

def mAxiAwaddr : BitVec addrW := s.addrQ
def mAxiAwvalid : Bool := s.state == .waddr && !s.awDone
def mAxiWdata : BitVec dataW := s.wdataQ
def mAxiWstrb : BitVec (dataW / 8) := s.wstrbQ
def mAxiWvalid : Bool := s.state == .waddr && !s.wDone
def mAxiBready : Bool := s.state == .wresp
def mAxiAraddr : BitVec addrW := s.addrQ
def mAxiArvalid : Bool := s.state == .raddr
def mAxiRready : Bool := s.state == .rdata

/-! ## The clock -/

/-- `S_IDLE`: clear the flags and capture a request. -/
def stepIdle : AxiLite addrW dataW :=
  let s := { s with awDone := false, wDone := false }
  if i.reqValid then
    { s with
      addrQ := i.reqAddr
      wdataQ := i.reqWdata
      wstrbQ := i.reqWstrb
      state := if i.reqWrite then .waddr else .raddr }
  else s

/-- `S_WADDR`: retire AW and W on their handshakes, advance once both are. -/
def stepWaddr : AxiLite addrW dataW :=
  -- the last handshake may be this one
  let aw := s.mAxiAwvalid && i.mAxiAwready
  let w := s.mAxiWvalid && i.mAxiWready
  { s with
    awDone := if aw then true else s.awDone
    wDone := if w then true else s.wDone
    state := if (s.awDone || aw) && (s.wDone || w) then .wresp else s.state }

/-- `S_WRESP` -/
def stepWresp : AxiLite addrW dataW :=
  if i.mAxiBvalid && s.mAxiBready then { s with respQ := i.mAxiBresp, state := .done } else s

/-- `S_RADDR` -/
def stepRaddr : AxiLite addrW dataW :=
  if s.mAxiArvalid && i.mAxiArready then { s with state := .rdata } else s

/-- `S_RDATA` -/
def stepRdata : AxiLite addrW dataW :=
  if i.mAxiRvalid && s.mAxiRready then
    { s with rdataQ := i.mAxiRdata, respQ := i.mAxiRresp, state := .done }
  else s

/-- One clock of the bridge. -/
def step : AxiLite addrW dataW :=
  match s.state with
  | .idle => s.stepIdle i
  | .waddr => s.stepWaddr i
  | .wresp => s.stepWresp i
  | .raddr => s.stepRaddr i
  | .rdata => s.stepRdata i
  | .done => { s with state := .idle }

/-- The state out of reset, whatever the registers held. -/
def reset : AxiLite addrW dataW := {}

/-- The state `n` clocks after a reset. -/
def runFrom (ins : Nat → AxiIn addrW dataW) (n : Nat) : AxiLite addrW dataW :=
  Clocked.run step reset ins n

end AxiLite

end ThreeSippEs
