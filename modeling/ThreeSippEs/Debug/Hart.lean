import ThreeSippEs.Core.Clock
import ThreeSippEs.Debug.Engine

/-!
# The Debug Module and the hart it debugs

The Debug Module and the core side by side, wired as in the SoC: halt and resume
requests and the port of the abstract commands one way, Debug Mode and the answers the
other, and `ndmreset` on the reset of the core. The DMI, the memories and the interrupts
are the inputs.

A request on the port is a level, the answer a pulse one clock after the access. The
module takes the request back when it sees the pulse, and the core may serve again one
clock later, when it has seen that.

- `named`: the register that a command names;
- `Hart.served`: the access that the core makes for the debugger in a clock;
- `step_command`, `step_pending`, `core_access`: both ends of the port in one clock.
-/

namespace ThreeSippEs

open Clocked DebugModule

/-! ## Registers of the debugger -/

/-- What an abstract command may access. -/
inductive DebugReg where
  | csr (a : BitVec 12)
  | gpr (r : BitVec 5)
  deriving DecidableEq

/-- An access to a register. -/
structure RegAccess where
  reg : DebugReg
  write : Bool
  wdata : Word
  deriving DecidableEq

/-- The register that `regno` names: 0x0000-0x0fff a CSR, 0x1000-0x101f a GPR. -/
def named (regno : BitVec 16) : Option DebugReg :=
  if regno.extractLsb 15 12 = 0#4 then some (.csr (regno.extractLsb 11 0))
  else if regno.extractLsb 15 5 = 0x080#11 then some (.gpr (regno.extractLsb 4 0))
  else none

/-- The access that a command asks for. -/
def asked (cmd data0 : Word) : Option RegAccess :=
  (named (cmd.extractLsb 15 0)).map fun reg => ⟨reg, cmd.getLsbD 16, data0⟩

/-- The access that the hart makes for a request on its port. -/
def DebugModule.ArAccess.access (a : ArAccess) : RegAccess where
  reg := if a.csr then .csr a.regno else .gpr (a.regno.extractLsb 4 0)
  write := a.write
  wdata := a.wdata

/-! ## The composed machine -/

structure Hart (P : Params) where
  dm : DebugModule
  core : Core P

/-- What reaches both from the outside in one clock. -/
structure HartIn where
  dmiWePulse : Bool := false
  dmiWeAddr : BitVec 7 := 0#7
  dmiWeData : Word := 0#32
  dmMemRdata : Word := 0#32
  dmMemReady : Bool := false
  irq : IrqLines := {}
  imemRdata : Word := 0#32
  dmemRdata : Word := 0#32

namespace Hart

variable {P : Params} (h : Hart P) (i : HartIn)

/-- The inputs of the core. -/
def coreIn : CoreIn where
  irq := i.irq
  dbgHaltreq := h.dm.dbgHaltreq
  dbgResumereq := h.dm.dbgResumereq
  dbgArValid := h.dm.dbgArValid
  dbgArWrite := h.dm.dbgArWrite
  dbgArCsr := h.dm.dbgArCsr
  dbgArRegno := h.dm.dbgArRegno
  dbgArWdata := h.dm.dbgArWdata
  imemRdata := i.imemRdata
  dmemRdata := i.dmemRdata

/-- The inputs of the Debug Module. -/
def dmIn : DmIn where
  dmiWePulse := i.dmiWePulse
  dmiWeAddr := i.dmiWeAddr
  dmiWeData := i.dmiWeData
  dbgHalted := h.core.dbg.dbgMode
  dbgArRdata := h.core.dbgArRdata (h.coreIn i)
  dbgArDone := h.core.dbg.dbgArDone
  dmMemRdata := i.dmMemRdata
  dmMemReady := i.dmMemReady

/-- One clock. The reset of the core is `rst | ndmreset`. -/
def step : Hart P where
  dm := h.dm.step (h.dmIn i)
  core := if h.dm.ndmreset then h.core.reset (h.coreIn i) else h.core.step (h.coreIn i)

/-- The access made in this clock. -/
def served : Option RegAccess :=
  if h.core.dbgDo (h.coreIn i) then some h.dm.arPort.access else none

/-- A value is written to the command register. -/
def isCommand : Bool := i.dmiWePulse && i.dmiWeAddr == addrCommand

end Hart

/-! ## The port, at the Debug Module -/

namespace DebugModule

variable {s : DebugModule} {i : DmIn}

/-- The engine adds nothing to a DMI write while the port is free. -/
theorem engine_port (d : DebugModule) (hs : s.eng ≠ .arWait) :
    (s.engine i d).absBusy = d.absBusy ∧ (s.engine i d).dbgArValid = d.dbgArValid ∧
    (s.engine i d).arPort = d.arPort ∧ ((s.engine i d).eng = .arWait → d.eng = .arWait) := by
  unfold engine
  cases heng : s.eng with
  | arWait => exact absurd heng hs
  | idle | ar | sbWait => exact ⟨rfl, rfl, rfl, id⟩
  | sbRd | sbWr =>
    dsimp only
    cases i.dmMemReady with
    | false => exact ⟨rfl, rfl, rfl, id⟩
    | true => exact ⟨rfl, rfl, rfl, nofun⟩

/-- A command that is started goes out on the port. -/
theorem step_command (hc : s.startsCommand i = true) (hs : s.eng ≠ .arWait) :
    (s.step i).absBusy = true ∧ (s.step i).dbgArValid = true ∧
    (s.step i).arPort = s.commanded i := by
  obtain ⟨hbusy, hvalid, hport, -⟩ := engine_port (i := i) (s.dmiWrite i) hs
  obtain ⟨-, hdbusy, -, hdport⟩ := dmiWrite_command hc
  refine ⟨hbusy.trans hdbusy, hvalid.trans ?_, hport.trans hdport⟩
  unfold startsCommand at hc
  simp only [Bool.and_eq_true, beq_iff_eq, Bool.not_eq_true'] at hc
  obtain ⟨⟨⟨⟨hp, ha⟩, hb⟩, ht⟩, h17⟩ := hc
  unfold dmiWrite startAccessReg
  dsimp only
  rw [hp, ha, hb, ht, h17]
  rfl

/-- Any other write leaves the port to the engine. -/
theorem dmiWrite_port (hc : s.startsCommand i = false) :
    (s.dmiWrite i).absBusy = s.absBusy ∧ (s.dmiWrite i).dbgArValid = s.dbgArValid ∧
    (s.dmiWrite i).arPort = s.arPort ∧ ((s.dmiWrite i).eng = .arWait → s.eng = .arWait) := by
  refine dmiWrite_arms (p := fun d => d.absBusy = s.absBusy ∧ d.dbgArValid = s.dbgArValid ∧
    d.arPort = s.arPort ∧ (d.eng = .arWait → s.eng = .arWait)) s i
    ⟨rfl, rfl, rfl, id⟩ ⟨rfl, rfl, rfl, id⟩ ?_ ⟨rfl, rfl, rfl, id⟩ ?_ ⟨rfl, rfl, rfl, id⟩ ?_
    fun _ _ => ⟨rfl, rfl, rfl, nofun⟩
  · intro _ _
    unfold writeDmcontrol
    split
    · exact ⟨rfl, rfl, rfl, id⟩
    · exact ⟨rfl, rfl, rfl, id⟩
  · intro hp ha hb
    unfold startsCommand at hc
    rw [hp, ha, hb] at hc
    unfold startAccessReg
    by_cases ht : i.dmiWeData.extractLsb 31 24 = 0#8
    · rw [ht] at hc
      have h17 : i.dmiWeData.getLsbD 17 = false := hc
      rw [if_neg (not_not_intro ht), h17]
      exact ⟨rfl, rfl, rfl, id⟩
    · rw [if_pos ht]
      exact ⟨rfl, rfl, rfl, id⟩
  · intro _ _
    unfold writeSbaddress0
    dsimp only
    split
    · exact ⟨rfl, rfl, rfl, nofun⟩
    · exact ⟨rfl, rfl, rfl, id⟩

/-- The engine withdraws a request that the hart has answered. -/
theorem step_pending (hc : s.startsCommand i = false) :
    (s.step i).absBusy = (s.absBusy && !(s.eng == .arWait && i.dbgArDone)) ∧
    (s.step i).dbgArValid =
      ((s.dbgArValid || s.eng == .arWait) && !(s.eng == .arWait && i.dbgArDone)) ∧
    (s.step i).arPort = s.arPort ∧
    ((s.step i).eng = .arWait → s.eng = .arWait ∧ i.dbgArDone = false) := by
  obtain ⟨hdbusy, hdvalid, hdport, hdeng⟩ := dmiWrite_port hc
  by_cases hs : s.eng = .arWait
  · have hbeq : (s.eng == .arWait) = true := beq_iff_eq.mpr hs
    rw [hbeq, ← hdbusy, ← hdport]
    unfold step engine
    rw [hs]
    dsimp only
    cases i.dbgArDone with
    | true => exact ⟨(Bool.and_false _).symm, (Bool.and_false _).symm, rfl, nofun⟩
    | false =>
      refine ⟨(Bool.and_true _).symm, ?_, rfl, fun _ => ⟨rfl, rfl⟩⟩
      rw [Bool.or_true]
      rfl
  · have hbeq : (s.eng == .arWait) = false := beq_false_of_ne hs
    obtain ⟨hbusy, hvalid, hport, heng⟩ := engine_port (i := i) (s.dmiWrite i) hs
    rw [hbeq, Bool.false_and, Bool.not_false, Bool.and_true, Bool.or_false, Bool.and_true]
    exact ⟨hbusy.trans hdbusy, hvalid.trans hdvalid, hport.trans hdport,
      fun h => absurd (hdeng (heng h)) hs⟩

/-- The engine leaves the error code and what the module asks of the hart besides. -/
theorem engine_frame (d : DebugModule) :
    (s.engine i d).cmderr = d.cmderr ∧ (s.engine i d).ndmresetR = d.ndmresetR ∧
    (s.engine i d).dbgResumereq = d.dbgResumereq := by
  unfold engine
  split
  · split
    · exact ⟨rfl, rfl, rfl⟩
    · exact ⟨rfl, rfl, rfl⟩
  · dsimp only
    split
    · exact ⟨rfl, rfl, rfl⟩
    · exact ⟨rfl, rfl, rfl⟩
  · dsimp only
    split
    · exact ⟨rfl, rfl, rfl⟩
    · exact ⟨rfl, rfl, rfl⟩
  · exact ⟨rfl, rfl, rfl⟩

/-- The hart is not reset unless `dmcontrol` asks for it. -/
theorem step_ndmreset (h0 : s.ndmreset = false)
    (hreq : i.dmiWePulse = true → i.dmiWeAddr = addrDmcontrol → i.dmiWeData.getLsbD 1 = false) :
    (s.step i).ndmreset = false := by
  refine (engine_frame (s.dmiWrite i)).2.1.trans ?_
  refine dmiWrite_arms (p := fun d => d.ndmresetR = false) s i h0 h0 ?_ h0 ?_ h0 ?_ fun _ _ => h0
  · intro hp ha
    unfold writeDmcontrol
    split
    · rfl
    · exact hreq hp ha
  · intro _ _ _
    unfold startAccessReg
    split_ifs
    · exact h0
    · exact h0
    · exact h0
  · intro _ _
    unfold writeSbaddress0
    dsimp only
    split
    · exact h0
    · exact h0

/-- A command whose type is not supported sets `cmderr`, no other command does. -/
theorem cmderr_command (hp : i.dmiWePulse = true) (ha : i.dmiWeAddr = addrCommand) :
    (s.step i).cmderr =
      if s.absBusy = false ∧ i.dmiWeData.extractLsb 31 24 ≠ 0#8 then 2#3 else s.cmderr := by
  refine (engine_frame (s.dmiWrite i)).1.trans ?_
  unfold dmiWrite startAccessReg
  rw [hp, ha]
  dsimp only
  cases s.absBusy with
  | true => rfl
  | false =>
    rw [if_congr (and_iff_right rfl) rfl rfl]
    by_cases ht : i.dmiWeData.extractLsb 31 24 = 0#8
    · rw [if_neg (not_not_intro ht)]
      cases h17 : i.dmiWeData.getLsbD 17 with
      | true => simp [ht, addrCommand, addrData0, addrDmcontrol, addrAbstractcs]
      | false => simp [ht, addrCommand, addrData0, addrDmcontrol, addrAbstractcs]
    · simp [ht, addrCommand, addrData0, addrDmcontrol, addrAbstractcs]

/-- While a command is pending no error arises. -/
theorem cmderr_busy (hb : s.absBusy = true) (h0 : s.cmderr = 0#3) : (s.step i).cmderr = 0#3 := by
  refine (engine_frame (s.dmiWrite i)).1.trans ?_
  refine dmiWrite_arms (p := fun d => d.cmderr = 0#3) s i h0 h0 ?_ rfl ?_ h0 ?_ fun _ _ => h0
  · intro _ _
    unfold writeDmcontrol
    split
    · exact h0
    · exact h0
  · intro _ _ hfree
    rw [hb] at hfree
    exact absurd hfree.symm Bool.false_ne_true
  · intro _ _
    unfold writeSbaddress0
    dsimp only
    split
    · exact h0
    · exact h0

end DebugModule

/-! ## The port, at the core -/

namespace Core

variable {P : Params}

/-- The core answers one clock after the access, and not again until the request has
been withdrawn. -/
theorem step_access (s : Core P) (i : CoreIn) :
    (s.step i).dbg.dbgArDone = s.dbgDo i ∧
    (s.step i).dbg.dbgArBusy = (i.dbgArValid && (s.dbgDo i || s.dbg.dbgArBusy)) := by
  have haccess : (s.dbgAccess i).dbgArDone = s.dbgDo i ∧
      (s.dbgAccess i).dbgArBusy = (i.dbgArValid && (s.dbgDo i || s.dbg.dbgArBusy)) := by
    refine ⟨rfl, ?_⟩
    show (if !i.dbgArValid then false else s.dbgDo i || s.dbg.dbgArBusy) = _
    cases i.dbgArValid with
    | true => rfl
    | false => rfl
  have hhalt : ∀ d : Dbg, (s.dbgHalt i d).dbgArDone = d.dbgArDone ∧
      (s.dbgHalt i d).dbgArBusy = d.dbgArBusy := by
    intro d
    unfold dbgHalt
    split
    · exact ⟨rfl, rfl⟩
    · exact ⟨rfl, rfl⟩
  have henter : ∀ d : Dbg, (s.dbgEnter d).dbgArDone = d.dbgArDone ∧
      (s.dbgEnter d).dbgArBusy = d.dbgArBusy := by
    intro d
    unfold dbgEnter
    split
    · exact ⟨rfl, rfl⟩
    · exact ⟨rfl, rfl⟩
  have hresume : ∀ d : Dbg, (s.dbgResume i d).dbgArDone = d.dbgArDone ∧
      (s.dbgResume i d).dbgArBusy = d.dbgArBusy := by
    intro d
    unfold dbgResume
    split
    · exact ⟨rfl, rfl⟩
    · exact ⟨rfl, rfl⟩
  show (s.dbgResume i (s.dbgEnter (s.dbgHalt i (s.dbgAccess i)))).dbgArDone = _ ∧
    (s.dbgResume i (s.dbgEnter (s.dbgHalt i (s.dbgAccess i)))).dbgArBusy = _
  rw [(hresume _).1, (hresume _).2, (henter _).1, (henter _).2, (hhalt _).1, (hhalt _).2]
  exact haccess

end Core

end ThreeSippEs
