import ThreeSippEs.Core.Hosted
import ThreeSippEs.Debug.Dtm
import ThreeSippEs.Debug.Engine
import ThreeSippEs.Soc.Soc

/-!
# The SoC as a whole (`three_sipp_es_soc.sv`)

The core, the Debug Module behind the JTAG pins, and the memories and devices, with
the wires between them.

- `Chip`: the registers of all three, `Chip.step`: one clock;
- `Passive`: a Debug Module that neither halts nor resets the hart nor writes a memory,
  `harmless`: the DMI writes that keep it so;
- `debugger_invisible`: such a debugger does not exist for the program.
-/

namespace ThreeSippEs

open Clocked

/-- The parameters of `three_sipp_es_soc`. -/
structure ChipParams extends SocParams where
  secure : Bool := false

/-- The values of the source. -/
def ChipParams.source : ChipParams := { SocParams.source with }

/-- The parameters that it gives the core. -/
def ChipParams.core (P : ChipParams) : Params := { secure := P.secure }

/-- The registers. -/
structure Chip (P : ChipParams) where
  core : Core P.core
  dbg : DebugUnit
  soc : Soc

/-- The pins in one clock. -/
structure ChipIn extends Pins where
  rst : Bool := false
  deriving DecidableEq

namespace Chip

variable {P : ChipParams} (c : Chip P) (i : ChipIn)

/-- "TAKS" -/
def idcode : Word := 0x54414B53#32

/-! ## Wires -/

/-- What the memories and devices see. -/
def socIn : SocIn where
  rst := i.rst
  dmemAddr := c.core.w.dmemAddr
  dmemRe := c.core.w.dmemRe
  dmemWe := c.core.w.dmemWe
  dmemBe := c.core.w.dmemBe
  dmemWdata := c.core.w.dmemWdata
  dmMemValid := c.dbg.dm.dmMemValid
  dmMemWrite := c.dbg.dm.dmMemWrite
  dmMemAddr := c.dbg.dm.dmMemAddr
  dmMemWdata := c.dbg.dm.dmMemWdata

/-- What the core sees. -/
def coreIn : CoreIn where
  irq := { timer := c.soc.irqTimer, soft := c.soc.irqSoft, ext := false }
  dbgHaltreq := c.dbg.dm.dbgHaltreq
  dbgResumereq := c.dbg.dm.dbgResumereq
  dbgArValid := c.dbg.dm.dbgArValid
  dbgArWrite := c.dbg.dm.dbgArWrite
  dbgArCsr := c.dbg.dm.dbgArCsr
  dbgArRegno := c.dbg.dm.dbgArRegno
  dbgArWdata := c.dbg.dm.dbgArWdata
  imemRdata := c.soc.imemRdata P.toSocParams c.core.imemAddr
  dmemRdata := c.soc.dmemRdata P.toSocParams (c.socIn i)

/-- What the Debug Module sees. -/
def debugIn : DebugIn where
  toPins := i.toPins
  rst := i.rst
  dbgHalted := c.core.dbg.dbgMode
  dbgArRdata := c.core.dbgArRdata (c.coreIn i)
  dbgArDone := c.core.dbg.dbgArDone
  dmMemRdata := c.soc.dmMemRdata
  dmMemReady := c.soc.dmMemReady

/-- `core_rst` -/
def coreRst : Bool := i.rst || c.dbg.dm.ndmreset

/-- One clock. -/
def step : Chip P where
  core := if c.coreRst i then c.core.reset (c.coreIn i) else c.core.step (c.coreIn i)
  dbg := c.dbg.step idcode (c.debugIn i)
  soc := c.soc.step P.toSocParams (c.socIn i)

/-- The DMI write that the Debug Module takes in this clock. -/
def dmiWrite : Option (BitVec 7 × Word) := c.dbg.applied (c.debugIn i)

end Chip

/-! ## A passive Debug Module -/

namespace DebugModule

/-- A DMI write that asks for no halt and no reset and starts no write to a memory. -/
def harmless (w : BitVec 7 × Word) : Bool :=
  w.1 != addrSbdata0 && (w.1 != addrDmcontrol || (!w.2.getLsbD 31 && !w.2.getLsbD 1))

/-- Nothing of this kind is going on. -/
structure Passive (s : DebugModule) : Prop where
  haltreq : s.haltreqR = false
  ndmreset : s.ndmresetR = false
  reads : s.dmMemValid = true → s.dmMemWrite = false

namespace Passive

variable {s : DebugModule} {i : DmIn}

theorem reset : Passive reset := ⟨rfl, rfl, fun hv => absurd hv Bool.false_ne_true⟩

/-- Only registers of its own change. -/
theorem congr {d : DebugModule} (h : Passive s) (hh : d.haltreqR = s.haltreqR)
    (hn : d.ndmresetR = s.ndmresetR) (hv : d.dmMemValid = s.dmMemValid)
    (hw : d.dmMemWrite = s.dmMemWrite) : Passive d :=
  ⟨hh.trans h.haltreq, hn.trans h.ndmreset, fun hd => hw.trans (h.reads (hv.symm.trans hd))⟩

/-- A harmless DMI write. -/
theorem dmiWrite (h : Passive s)
    (hw : i.dmiWePulse = true → harmless (i.dmiWeAddr, i.dmiWeData) = true) :
    Passive (s.dmiWrite i) := by
  refine dmiWrite_arms (p := Passive) s i (h.congr rfl rfl rfl rfl) (h.congr rfl rfl rfl rfl) ?_
    (h.congr rfl rfl rfl rfl) ?_ (h.congr rfl rfl rfl rfl) ?_ ?_
  · intro hp ha
    have hbits := hw hp
    unfold harmless at hbits
    rw [ha, show (addrDmcontrol != addrSbdata0) = true from rfl, Bool.true_and,
      show (addrDmcontrol != addrDmcontrol) = false from rfl, Bool.false_or, Bool.and_eq_true,
      Bool.not_eq_true', Bool.not_eq_true'] at hbits
    unfold writeDmcontrol
    split
    · exact ⟨rfl, rfl, h.reads⟩
    · exact ⟨hbits.1, hbits.2, h.reads⟩
  · intro _ _ _
    unfold startAccessReg
    split_ifs
    · exact h.congr rfl rfl rfl rfl
    · exact h.congr rfl rfl rfl rfl
    · exact h.congr rfl rfl rfl rfl
  · intro _ _
    unfold writeSbaddress0
    dsimp only
    split
    · exact ⟨h.haltreq, h.ndmreset, fun _ => rfl⟩
    · exact h.congr rfl rfl rfl rfl
  · intro hp ha
    have hbits := hw hp
    unfold harmless at hbits
    rw [ha, show (addrSbdata0 != addrSbdata0) = false from rfl, Bool.false_and] at hbits
    exact absurd hbits Bool.false_ne_true

/-- The engine starts nothing. -/
theorem engine {d : DebugModule} (h : Passive d) : Passive (s.engine i d) := by
  unfold DebugModule.engine
  cases s.eng with
  | idle | ar | sbWait => exact h
  | arWait =>
    dsimp only
    cases i.dbgArDone with
    | false => exact h.congr rfl rfl rfl rfl
    | true => exact h.congr rfl rfl rfl rfl
  | sbRd | sbWr =>
    dsimp only
    cases i.dmMemReady with
    | false => exact ⟨h.haltreq, h.ndmreset, fun hv => absurd hv Bool.false_ne_true⟩
    | true => exact ⟨h.haltreq, h.ndmreset, fun hv => absurd hv Bool.false_ne_true⟩

theorem step (h : Passive s)
    (hw : i.dmiWePulse = true → harmless (i.dmiWeAddr, i.dmiWeData) = true) :
    Passive (s.step i) :=
  (h.dmiWrite hw).engine

/-- It asks for no halt. -/
theorem dbgHaltreq (h : Passive s) : s.dbgHaltreq = false := by
  unfold DebugModule.dbgHaltreq
  rw [h.haltreq, Bool.false_and]

end Passive

end DebugModule

open DebugModule

/-- The unit with its transport. -/
theorem DebugUnit.passive_step {u : DebugUnit} {i : DebugIn} {idcode : Word}
    (h : i.rst = false → u.dm.Passive) (hw : (u.applied i).all harmless = true) :
    (u.step idcode i).dm.Passive := by
  show (if i.rst then reset else u.dm.step (u.dmIn i (u.applied i))).Passive
  cases hrst : i.rst with
  | true =>
    rw [if_pos rfl]
    exact Passive.reset
  | false =>
    rw [if_neg Bool.false_ne_true]
    refine (h hrst).step fun hp => ?_
    have hsome : (u.applied i).isSome = true := hp
    obtain ⟨w, happ⟩ := Option.isSome_iff_exists.mp hsome
    rw [happ] at hw ⊢
    exact hw

/-! ## What the program sees -/

namespace Soc

variable (P : SocParams) (s : Soc) (i : SocIn)

/-- The memories and devices without the port of the Debug Module. -/
def seen : Soc := { s with dmMemRdata := 0#32, dmMemReady := false }

end Soc

/-- Without the access of the Debug Module. -/
def SocIn.data (i : SocIn) : SocIn :=
  { i with dmMemValid := false, dmMemWrite := false, dmMemAddr := 0#32, dmMemWdata := 0#32 }

namespace Soc

variable {P : SocParams} {s : Soc} {i : SocIn}

theorem dataWrite_seen (d : Soc) :
    (s.dataWrite P i d).seen = (s.seen.dataWrite P i.data d.seen).seen := by
  show (s.dataWrite P i d).seen = (s.dataWrite P i d.seen).seen
  unfold dataWrite
  split_ifs <;> rfl

/-- A read on the System Bus leaves everything that the program sees. -/
theorem step_seen (hread : i.dmMemValid = true → i.dmMemWrite = false) :
    (s.step P i).seen = (s.seen.step P i.data).seen := by
  have hdm : ∀ d : Soc, (s.dmAccess P i d).seen = d.seen := by
    intro d
    unfold dmAccess
    cases hv : i.dmMemValid with
    | false => rfl
    | true =>
      rw [if_pos rfl, hread hv, if_neg Bool.false_ne_true]
      rfl
  have htick : (s.tick i).seen = s.seen.tick i.data := by
    show (s.tick i).seen = s.seen.tick i
    unfold tick
    cases i.rst <;> rfl
  have hwrite : (s.dmAccess P i (s.dataWrite P i (s.tick i))).seen =
      (s.seen.dmAccess P i.data (s.seen.dataWrite P i.data (s.seen.tick i.data))).seen := by
    rw [hdm, dataWrite_seen, htick]
    rfl
  have hstep : ∀ (t : Soc) (u : Uart), ({ t with uart := u } : Soc).seen = { t.seen with uart := u } :=
    fun _ _ => rfl
  unfold step
  rw [hstep, hstep, hwrite]
  rfl

end Soc

namespace Chip

variable {P : ChipParams} {c c' : Chip P} {i i' : ChipIn}

/-- Two chips that the program cannot tell apart. -/
structure Alike (c c' : Chip P) : Prop where
  core : c'.core = c.core
  soc : c'.soc.seen = c.soc.seen

/-- The program sees the same inputs. -/
theorem Alike.coreIn (h : Alike c c') (hd : c.dbg.dm.dbgHaltreq = c'.dbg.dm.dbgHaltreq) :
    (c'.coreIn i').unaccessed = (c.coreIn i).unaccessed := by
  obtain ⟨core', dbg', soc'⟩ := c'
  obtain ⟨hcore, hsoc⟩ := h
  dsimp only at hcore hsoc hd
  subst hcore
  have hirq : ∀ s : Soc, s.irqTimer = s.seen.irqTimer ∧ s.irqSoft = s.seen.irqSoft :=
    fun _ => ⟨rfl, rfl⟩
  have himem : ∀ (s : Soc) a, s.imemRdata P.toSocParams a = s.seen.imemRdata P.toSocParams a :=
    fun _ _ => rfl
  have hdmem : ∀ (s : Soc) j, s.dmemRdata P.toSocParams j =
      s.seen.dmemRdata P.toSocParams ⟨false, j.dmemAddr, j.dmemRe, j.dmemWe, j.dmemBe, j.dmemWdata,
        false, false, 0#32, 0#32⟩ :=
    fun _ _ => rfl
  unfold CoreIn.unaccessed Chip.coreIn
  dsimp only
  rw [(hirq soc').1, (hirq soc').2, himem soc', hdmem soc', hsoc, ← hd]
  rfl

/-- **One clock** of two debuggers. -/
theorem Alike.step (h : Alike c c') (hu : Core.Unhalted c.core) (hp : c.dbg.dm.Passive)
    (hp' : c'.dbg.dm.Passive) (hrst : i'.rst = i.rst) : Alike (c.step i) (c'.step i') := by
  have hin : (c'.coreIn i').unaccessed = (c.coreIn i).unaccessed :=
    h.coreIn (hp.dbgHaltreq.trans hp'.dbgHaltreq.symm)
  have hcoreRst : c'.coreRst i' = c.coreRst i := by
    unfold coreRst ndmreset
    rw [hrst, hp.ndmreset, hp'.ndmreset]
  constructor
  · show (if c'.coreRst i' then c'.core.reset (c'.coreIn i') else c'.core.step (c'.coreIn i')) =
      if c.coreRst i then c.core.reset (c.coreIn i) else c.core.step (c.coreIn i)
    rw [hcoreRst, h.core, ← hu.reset_unaccessed, ← hu.step_unaccessed, hin, hu.reset_unaccessed,
      hu.step_unaccessed]
  · show (c'.soc.step P.toSocParams (c'.socIn i')).seen = (c.soc.step P.toSocParams (c.socIn i)).seen
    have hdata : (c'.socIn i').data = (c.socIn i).data := by
      unfold SocIn.data socIn
      rw [h.core, hrst]
    refine (Soc.step_seen hp'.reads).trans (Eq.trans ?_ (Soc.step_seen hp.reads).symm)
    rw [hdata, h.soc]

/-- The hart is not halted. -/
theorem unhalted_step (hu : i.rst = false → Core.Unhalted c.core)
    (hp : i.rst = false → c.dbg.dm.Passive) : Core.Unhalted (c.step i).core := by
  show Core.Unhalted (if c.coreRst i then c.core.reset (c.coreIn i) else c.core.step (c.coreIn i))
  cases hrst : c.coreRst i with
  | true =>
    rw [if_pos rfl]
    exact Core.Unhalted.reset _ _
  | false =>
    have hi : i.rst = false := (Bool.or_eq_false_iff.mp hrst).1
    rw [if_neg Bool.false_ne_true]
    exact (hu hi).step (hp hi).dbgHaltreq

/-- What stays true behind a reset. -/
structure Watched (c : Chip P) : Prop where
  unhalted : Core.Unhalted c.core
  passive : c.dbg.dm.Passive

theorem Watched.reset (hrst : i.rst = true) : Watched (c.step i) := by
  have hno : i.rst ≠ false := by
    rw [hrst]
    exact Bool.true_eq_false_eq_False
  have hrst' : (c.debugIn i).rst = true := hrst
  refine ⟨unhalted_step (fun h => absurd h hno) fun h => absurd h hno,
    DebugUnit.passive_step (fun h => absurd h hno) ?_⟩
  unfold DebugUnit.applied
  rw [hrst', Bool.not_true, Bool.and_false]
  rfl

theorem Watched.step (h : Watched c) (hw : (c.dmiWrite i).all harmless = true) :
    Watched (c.step i) :=
  ⟨unhalted_step (fun _ => h.unhalted) fun _ => h.passive,
    DebugUnit.passive_step (fun _ => h.passive) hw⟩

/-- The JTAG pins reach the transport and nothing else. -/
theorem alike_of_pins (hrst : i'.rst = i.rst) : Alike (c.step i) (c.step i') := by
  have hsoc : c.socIn i' = c.socIn i := by
    unfold socIn
    rw [hrst]
  have hcore : c.coreIn i' = c.coreIn i := by
    unfold coreIn
    rw [hsoc]
  constructor
  · show (if i'.rst || c.dbg.dm.ndmreset then c.core.reset (c.coreIn i')
      else c.core.step (c.coreIn i')) =
      if i.rst || c.dbg.dm.ndmreset then c.core.reset (c.coreIn i) else c.core.step (c.coreIn i)
    rw [hrst, hcore]
  · show (c.soc.step P.toSocParams (c.socIn i')).seen = (c.soc.step P.toSocParams (c.socIn i)).seen
    rw [hsoc]

section Run

variable {ins ins' : Nat → ChipIn}

theorem watched_run (h0 : (ins 0).rst = true) (n : Nat)
    (hw : ∀ k < n + 1, ((run step c ins k).dmiWrite (ins k)).all harmless = true) :
    Watched (run step c ins (n + 1)) := by
  induction n with
  | zero => exact Watched.reset h0
  | succ n ih =>
    rw [run_succ]
    exact (ih fun k hk => hw k (Nat.lt_succ_of_lt hk)).step (hw (n + 1) (Nat.lt_succ_self _))

end Run

/-- **A passive debugger is invisible.** Two chips that start alike, out of one reset, and
see the same reset pin: whatever happens at their JTAG pins, as long as the DMI writes
that come of it ask for no halt and no reset and start no write to a memory, the cores
and all that their programs can see are the same in every clock. -/
theorem debugger_invisible (P : ChipParams) (c : Chip P) (ins ins' : Nat → ChipIn)
    (h0 : (ins 0).rst = true) (hrst : ∀ k, (ins' k).rst = (ins k).rst) (n : Nat)
    (hw : ∀ k < n, ((run step c ins k).dmiWrite (ins k)).all harmless = true)
    (hw' : ∀ k < n, ((run step c ins' k).dmiWrite (ins' k)).all harmless = true) :
    (run step c ins' n).core = (run step c ins n).core ∧
      (run step c ins' n).soc.seen = (run step c ins n).soc.seen := by
  have halike : Alike (run step c ins n) (run step c ins' n) := by
    induction n with
    | zero => exact ⟨rfl, rfl⟩
    | succ n ih =>
      cases n with
      | zero => exact alike_of_pins (hrst 0)
      | succ n =>
        have hlt : ∀ {k}, k < n + 1 → k < n + 1 + 1 := fun hk => Nat.lt_succ_of_lt hk
        have ht := watched_run h0 n fun k hk => hw k (hlt hk)
        have ht' := watched_run ((hrst 0).trans h0) n fun k hk => hw' k (hlt hk)
        exact (ih (fun k hk => hw k (hlt hk)) fun k hk => hw' k (hlt hk)).step ht.unhalted
          ht.passive ht'.passive (hrst (n + 1))
  exact ⟨halike.core, halike.soc⟩

/-! ## A chip -/

/-- It jumps to itself; a DMI write of `sbcs` waits behind the reset. -/
def spins : Chip .source where
  core := Core.powerUp _
  dbg := { dtm := { dmiWePulse := true, dmiWeAddr := addrSbcs, dmiWeData := 0x00100000#32 } }
  soc := ⟨fun _ => 0x0000006F#32, fun _ => 0#32, 0#64, 0#64, false, 0#32, false, Uart.reset 0#16,
    0#32, false⟩

/-- TCK runs, with TMS and TDI low or high. -/
def clocked (tms : Bool) (k : Nat) : ChipIn where
  tck := k % 4 < 2
  tms := tms
  tdi := !tms
  rst := k == 0

theorem debugger_invisible_spins :
    (run step spins (clocked true) 12).core = (run step spins (clocked false) 12).core ∧
      (run step spins (clocked true) 12).soc.seen = (run step spins (clocked false) 12).soc.seen :=
  debugger_invisible .source spins (clocked false) (clocked true) rfl (fun _ => rfl) 12
    (by decide +kernel) (by decide +kernel)

end Chip

end ThreeSippEs
