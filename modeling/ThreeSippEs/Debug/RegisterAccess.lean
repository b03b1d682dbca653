import ThreeSippEs.Debug.Commands

/-!
# Access to the registers of a halted hart

A halted core and the engine of the Debug Module serve every command in the clock after
it, and the answer is in `data0` two clocks later.

- `Handshake`: the accesses, the state and the answers over a whole run;
- `register_access`: a run of commands on a halted hart.
-/

namespace ThreeSippEs

open Clocked DebugModule

/-! ## The port, as the debugger sees it -/

/-- A command is served in turn: it is on the port, and then it is answered. -/
inductive Turn where
  | idle
  | request (acc : RegAccess)
  | answer (acc : RegAccess)

namespace Turn

/-- The next turn, where a command comes on an idle port. -/
def step : Turn → Option RegAccess → Turn
  | idle, none => idle
  | idle, some acc => request acc
  | request acc, _ => answer acc
  | answer _, _ => idle

/-- The access made in a turn. -/
def served : Turn → Option RegAccess
  | request acc => some acc
  | _ => none

/-- Without a command no access follows. -/
theorem served_step_none (t : Turn) : (t.step none).served = none := by
  cases t with
  | idle | request | answer => rfl

end Turn

/-- `dbg_resumereq` is not raised unless `dmcontrol` asks for it. -/
theorem DebugModule.step_resume {s : DebugModule} {i : DmIn}
    (hreq : i.dmiWePulse = true → i.dmiWeAddr = addrDmcontrol → i.dmiWeData.getLsbD 30 = false) :
    (s.step i).dbgResumereq = false := by
  refine (engine_frame (s.dmiWrite i)).2.2.trans ?_
  refine dmiWrite_arms (p := fun d => d.dbgResumereq = false) s i rfl rfl ?_ rfl ?_ rfl ?_
    fun _ _ => rfl
  · intro hp ha
    unfold writeDmcontrol
    rw [hreq hp ha]
    split
    · rfl
    · rfl
  · intro _ _ _
    unfold startAccessReg
    split_ifs
    · rfl
    · rfl
    · rfl
  · intro _ _
    unfold writeSbaddress0
    dsimp only
    split
    · rfl
    · rfl

namespace Hart

variable {P : Params}

/-- The access that a command of this clock asks for. -/
def command (h : Hart P) (i : HartIn) : Option RegAccess :=
  if isCommand i then asked i.dmiWeData h.dm.data0 else none

/-- The debugger gives commands when none is pending, each a transfer with a register, and
asks neither for the bus nor for a resume or a reset. -/
structure Calm (h : Hart P) (i : HartIn) : Prop where
  command : isCommand i = true → h.dm.absBusy = false ∧ i.dmiWeData.extractLsb 31 24 = 0#8 ∧
    i.dmiWeData.getLsbD 17 = true ∧ (asked i.dmiWeData h.dm.data0).isSome = true
  read : h.dm.startsRead (h.dmIn i) = false
  write : startsWrite (h.dmIn i) = false
  reset : i.dmiWePulse = true → i.dmiWeAddr = addrDmcontrol → i.dmiWeData.getLsbD 1 = false
  resume : i.dmiWePulse = true → i.dmiWeAddr = addrDmcontrol → i.dmiWeData.getLsbD 30 = false

/-- The registers of both ends in a turn. -/
inductive Stage (h : Hart P) : Turn → Prop
  | idle (hb : h.dm.absBusy = false) (hv : h.dm.dbgArValid = false) (he : h.dm.eng = .idle) :
      Stage h .idle
  | request (hb : h.dm.absBusy = true) (hv : h.dm.dbgArValid = true) (he : h.dm.eng = .arWait)
      (hbusy : h.core.dbg.dbgArBusy = false) (hdone : h.core.dbg.dbgArDone = false) :
      Stage h (.request h.dm.arPort.access)
  | answer (hb : h.dm.absBusy = true) (hv : h.dm.dbgArValid = true) (he : h.dm.eng = .arWait)
      (hbusy : h.core.dbg.dbgArBusy = true) (hdone : h.core.dbg.dbgArDone = true) :
      Stage h (.answer h.dm.arPort.access)

/-- A halted hart that waits for the debugger. -/
structure Attended (h : Hart P) (t : Turn) : Prop where
  halted : h.core.Halted
  reset : h.dm.ndmreset = false
  resume : h.dm.dbgResumereq = false
  bus : h.dm.dmMemValid = false
  stage : Stage h t

namespace Attended

variable {h : Hart P} {i : HartIn} {t : Turn}

theorem core_step (ha : Attended h t) : (h.step i).core = h.core.step (h.coreIn i) :=
  if_neg (Bool.eq_false_iff.mp ha.reset)

/-- The hart makes the access of the turn. -/
theorem served (ha : Attended h t) : h.served i = t.served := by
  have hdo : h.core.dbgDo (h.coreIn i) = (h.dm.dbgArValid && !h.core.dbg.dbgArBusy) := by
    show (h.core.dbg.dbgMode && h.dm.dbgArValid && !h.core.dbg.dbgArBusy) = _
    rw [ha.halted.dbgMode, Bool.true_and]
  unfold Hart.served
  rw [hdo]
  cases ha.stage with
  | idle hb hv he =>
    rw [hv]
    rfl
  | request hb hv he hbusy hdone =>
    rw [hv, hbusy]
    rfl
  | answer hb hv he hbusy hdone =>
    rw [hv, hbusy]
    rfl

/-- A command comes on an idle port. -/
theorem idle_of_command (ha : Attended h t) (hc : Calm h i) (hcmd : isCommand i = true) :
    t = .idle := by
  have hb := (hc.command hcmd).1
  cases ha.stage with
  | idle => rfl
  | request hb' | answer hb' => exact absurd (hb.symm.trans hb') Bool.false_ne_true

theorem command_none (ha : Attended h t) (hc : Calm h i) (ht : t ≠ .idle) :
    isCommand i = false ∧ h.command i = none := by
  have hno : isCommand i = false := by
    by_contra hcmd
    exact ht (ha.idle_of_command hc (Bool.not_eq_false _ ▸ hcmd))
  refine ⟨hno, ?_⟩
  unfold command
  rw [hno]
  rfl

/-- A command goes out on the idle port. -/
theorem stage_command (ha : Attended h t) (hc : Calm h i)
    (hs : h.dm.startsCommand (h.dmIn i) = true) :
    Stage (h.step i) (t.step (h.command i)) ∧ (h.step i).dm.dmMemValid = false := by
  obtain ⟨hcmd, -, -, -⟩ := startsCommand_iff.mp hs
  obtain rfl : t = .idle := ha.idle_of_command hc hcmd
  obtain ⟨acc, hask⟩ := Option.isSome_iff_exists.mp (hc.command hcmd).2.2.2
  have hcommand : h.command i = some acc := by
    unfold command
    rw [hcmd, if_pos rfl, hask]
  rw [hcommand]
  cases ha.stage with
  | idle hb hv he =>
    have hne : h.dm.eng ≠ .arWait := by
      rw [he]
      exact nofun
    obtain ⟨hbusy, hvalid, hport⟩ := step_command hs hne
    obtain ⟨heng, -, hmem, -⟩ := dmiWrite_command hs
    obtain ⟨-, hdone', hbusy'⟩ := step_core_quiet (i := i) hv
    have hidle : (h.step i).dm = h.dm.dmiWrite (h.dmIn i) := step_idle he
    have hacc : (h.step i).dm.arPort.access = acc :=
      (congrArg ArAccess.access hport).trans (access_commanded hask)
    refine ⟨?_, ?_⟩
    · show Stage (h.step i) (.request acc)
      rw [← hacc]
      exact .request hbusy hvalid ((congrArg eng hidle).trans heng) hbusy' hdone'
    · rw [hidle, hmem]
      exact ha.bus

/-- A request is served in the clock in which it is on the port, and taken back in the
next one. -/
theorem stage_quiet (ha : Attended h t) (hc : Calm h i)
    (hs : h.dm.startsCommand (h.dmIn i) = false) :
    Stage (h.step i) (t.step (h.command i)) ∧ (h.step i).dm.dmMemValid = false := by
  have hstart : h.dm.starts (h.dmIn i) = false := by
    unfold starts
    rw [hs, hc.read, hc.write]
    rfl
  obtain ⟨hdeng, -, hdmem, -, -⟩ := dmiWrite_quiet hstart
  obtain ⟨hbusy, hvalid, hport, -⟩ := step_pending hs
  have hcommand : h.command i = none := by
    unfold command
    refine if_neg fun hcmd => ?_
    obtain ⟨hb, htype, htransfer, -⟩ := hc.command hcmd
    exact Bool.eq_false_iff.mp hs (startsCommand_iff.mpr ⟨hcmd, hb, htype, htransfer⟩)
  rw [hcommand]
  cases ha.stage with
  | idle hb hv he =>
    have hidle : (h.step i).dm = h.dm.dmiWrite (h.dmIn i) := step_idle he
    have hbeq : (h.dm.eng == .arWait) = false := by
      rw [he]
      rfl
    rw [hb, Bool.false_and] at hbusy
    rw [hv, hbeq, Bool.false_or, Bool.false_and] at hvalid
    refine ⟨.idle hbusy hvalid ?_, ?_⟩
    · rw [hidle, hdeng, he]
    · rw [hidle, hdmem]
      exact ha.bus
  | request hb hv he hbusy0 hdone0 =>
    obtain ⟨heng, -, hmem, -⟩ := step_arWait (i := h.dmIn i) he
    have hans : (h.dmIn i).dbgArDone = false := hdone0
    obtain ⟨hdone', hbusy'⟩ := step_core (i := i) ha.reset
    have hdo : h.core.dbgDo (h.coreIn i) = true := by
      show (h.core.dbg.dbgMode && h.dm.dbgArValid && !h.core.dbg.dbgArBusy) = true
      rw [ha.halted.dbgMode, hv, hbusy0]
      rfl
    rw [hdo] at hdone'
    rw [hdo, hv] at hbusy'
    rw [hb, hans, Bool.and_false] at hbusy
    rw [hv, hans, Bool.and_false] at hvalid
    rw [hans, if_neg Bool.false_ne_true, hdeng] at heng
    refine ⟨?_, hmem.trans (hdmem.trans ha.bus)⟩
    show Stage (h.step i) (.answer h.dm.arPort.access)
    have hacc : (h.step i).dm.arPort.access = h.dm.arPort.access := congrArg ArAccess.access hport
    rw [← hacc]
    exact .answer hbusy hvalid (heng.trans he) hbusy' hdone'
  | answer hb hv he hbusy0 hdone0 =>
    -- the engine sees the answer and the port is free
    obtain ⟨heng, -, hmem, -⟩ := step_arWait (i := h.dmIn i) he
    have hans : (h.dmIn i).dbgArDone = true := hdone0
    have hbeq : (h.dm.eng == .arWait) = true := by
      rw [he]
      rfl
    rw [hans, hbeq, Bool.and_true, Bool.not_true, Bool.and_false] at hbusy hvalid
    rw [hans, if_pos rfl] at heng
    exact ⟨.idle hbusy hvalid heng, hmem.trans (hdmem.trans ha.bus)⟩

/-- The ends of the port in the next clock. -/
theorem stage_step (ha : Attended h t) (hc : Calm h i) :
    Stage (h.step i) (t.step (h.command i)) ∧ (h.step i).dm.dmMemValid = false := by
  cases hs : h.dm.startsCommand (h.dmIn i) with
  | true => exact ha.stage_command hc hs
  | false => exact ha.stage_quiet hc hs

/-- **One clock**: the hart stays halted, and the turn goes on. -/
theorem step (ha : Attended h t) (hc : Calm h i) : Attended (h.step i) (t.step (h.command i)) := by
  obtain ⟨hstage, hbus⟩ := ha.stage_step hc
  refine ⟨?_, step_ndmreset ha.reset hc.reset, step_resume hc.resume, hbus, hstage⟩
  rw [ha.core_step]
  exact ha.halted.step ha.resume

/-- Its state is changed by what is served, and by nothing else. -/
theorem step_held (ha : Attended h t) :
    (h.step i).core.held = ((h.served i).elim h.core h.core.access).held := by
  rw [ha.core_step, ha.halted.step_held ha.resume]
  unfold Hart.served
  split
  · rfl
  · rfl

/-- A write leaves what the rule says, the counters included. -/
theorem written {acc : RegAccess} (ha : Attended h (.request acc)) (hw : acc.write = true)
    (irq : IrqLines) :
    (h.step i).core.value irq acc.reg = h.core.legal irq acc.wdata acc.reg := by
  rw [ha.core_step]
  generalize ht : Turn.request acc = t at ha
  cases ha.stage with
  | idle | answer => cases ht
  | request hb hv he hbusy hdone =>
    obtain rfl := Turn.request.inj ht
    have hdo : h.core.dbgDo (h.coreIn i) = true := by
      show (h.core.dbg.dbgMode && h.dm.dbgArValid && !h.core.dbg.dbgArBusy) = true
      rw [ha.halted.dbgMode, hv, hbusy]
      rfl
    exact ha.halted.written hdo hw irq

/-- The answer is in `data0`. -/
theorem answered {acc : RegAccess} (ha : Attended h (.answer acc)) (hr : acc.write = false) :
    (h.step i).dm.data0 = h.core.value i.irq acc.reg := by
  generalize ht : Turn.answer acc = t at ha
  cases ha.stage with
  | idle | request => cases ht
  | answer hb hv he hbusy hdone =>
    obtain rfl := Turn.answer.inj ht
    have hans : (h.dmIn i).dbgArDone = true := hdone
    have hread : h.dm.dbgArWrite = false := hr
    have hdo : h.core.dbgDo (h.coreIn i) = false := by
      unfold Core.dbgDo
      rw [hbusy]
      exact Bool.and_false _
    have hdata : (h.step i).dm.data0 = h.core.dbgArRdata (h.coreIn i) := by
      show (h.dm.engine (h.dmIn i) (h.dm.dmiWrite (h.dmIn i))).data0 = _
      unfold engine
      rw [he]
      dsimp only
      rw [hans, hread]
      rfl
    rw [hdata]
    exact ha.halted.rdata hv hdo

end Attended

/-! ## Runs -/

/-- The commands given in the first `n` clocks. -/
def commands (h : Hart P) (ins : Nat → HartIn) : Nat → List RegAccess :=
  trace step (fun h i => (h.command i).toList) h ins

/-- **What the debugger relies on**, of a hart that is halted. -/
structure Handshake (h : Hart P) (ins : Nat → HartIn) : Prop where
  /-- a command makes its access in the next clock, and no other clock makes one -/
  served : h.served (ins 0) = none ∧
    ∀ n, (run step h ins (n + 1)).served (ins (n + 1)) = (run step h ins n).command (ins n)
  /-- with the engine free, every command has been served, once and in order -/
  once : ∀ n, (run step h ins n).dm.absBusy = false → services h ins n = commands h ins n
  /-- the core holds what the accesses made of it -/
  state : ∀ n, (run step h ins n).core.held = ((services h ins n).foldl Core.access h.core).held
  /-- the M unit finishes what it had begun -/
  muldiv : ∀ n, (run step h ins (n + 1)).core.md =
      (run step h ins n).core.md.step false .mul 0#32 0#32 ∧
    (run step h ins (n + 1)).core.mdInflight =
      (!(run step h ins n).core.md.done && (run step h ins n).core.mdInflight)
  /-- neither end accesses a memory -/
  memory : ∀ n, (run step h ins n).core.w.dmemRe = false ∧ (run step h ins n).core.w.dmemWe = false ∧
    (run step h ins n).dm.dmMemValid = false
  /-- a write leaves what the write rule says -/
  write : ∀ n acc irq, (run step h ins n).command (ins n) = some acc → acc.write = true →
    (run step h ins (n + 2)).core.value irq acc.reg =
      (run step h ins (n + 1)).core.legal irq acc.wdata acc.reg
  /-- and every other register as it was -/
  others : ∀ n acc irq reg, (run step h ins n).command (ins n) = some acc → reg ≠ acc.reg →
    ¬ acc.reg.Shows reg → reg.isCounter = false →
    (run step h ins (n + 2)).core.value irq reg = (run step h ins n).core.value irq reg
  /-- a read puts the value of the register in `data0` -/
  read : ∀ n acc, (run step h ins n).command (ins n) = some acc → acc.write = false →
    (run step h ins (n + 3)).dm.data0 =
      (run step h ins (n + 2)).core.value (ins (n + 2)).irq acc.reg
  /-- a request is answered and taken back -/
  port : ∀ n acc, (run step h ins n).command (ins n) = some acc →
    Stage (run step h ins n) .idle ∧ Stage (run step h ins (n + 1)) (.request acc) ∧
    Stage (run step h ins (n + 2)) (.answer acc) ∧ Stage (run step h ins (n + 3)) .idle ∧
    (run step h ins (n + 3)).core.dbg.dbgArDone = false ∧
    (run step h ins (n + 4)).core.dbg.dbgArBusy = false

/-- What a core holds under an access depends on what it held. -/
theorem held_access_congr {c d : Core P} (hcd : c.held = d.held) (acc : RegAccess) :
    (c.access acc).held = (d.access acc).held := by
  rw [← Core.held_access (c := c), hcd, Core.held_access]

section Run

variable {h : Hart P} {ins : Nat → HartIn}

/-- In every clock the hart is halted, at some turn. -/
theorem attended (h0 : Attended h .idle) (hcalm : ∀ n, Calm (run step h ins n) (ins n)) (n : Nat) :
    ∃ t, Attended (run step h ins n) t := by
  induction n with
  | zero => exact ⟨.idle, h0⟩
  | succ n ih =>
    obtain ⟨t, ha⟩ := ih
    exact ⟨_, ha.step (hcalm n)⟩

/-- A command and the three turns that follow it. -/
theorem turns (h0 : Attended h .idle) (hcalm : ∀ n, Calm (run step h ins n) (ins n)) {n : Nat}
    {acc : RegAccess} (hcmd : (run step h ins n).command (ins n) = some acc) :
    Attended (run step h ins n) .idle ∧ Attended (run step h ins (n + 1)) (.request acc) ∧
    Attended (run step h ins (n + 2)) (.answer acc) ∧ Attended (run step h ins (n + 3)) .idle := by
  obtain ⟨t, ha⟩ := attended h0 hcalm n
  have hidle : t = .idle := by
    by_contra ht
    rw [(ha.command_none (hcalm n) ht).2] at hcmd
    exact Option.some_ne_none _ hcmd.symm
  rw [hidle] at ha
  have h1 := ha.step (hcalm n)
  rw [hcmd] at h1
  have h2 := h1.step (hcalm (n + 1))
  exact ⟨ha, h1, h2, h2.step (hcalm (n + 2))⟩

theorem served_command (h0 : Attended h .idle) (hcalm : ∀ n, Calm (run step h ins n) (ins n))
    (n : Nat) :
    (run step h ins (n + 1)).served (ins (n + 1)) = (run step h ins n).command (ins n) := by
  cases hcmd : (run step h ins n).command (ins n) with
  | some acc => exact (turns h0 hcalm hcmd).2.1.served
  | none =>
    obtain ⟨t, ha⟩ := attended h0 hcalm n
    have hnext := ha.step (hcalm n)
    rw [hcmd] at hnext
    exact hnext.served.trans t.served_step_none

/-- The accesses are the commands, one clock later. -/
theorem services_succ (h0 : Attended h .idle) (hcalm : ∀ n, Calm (run step h ins n) (ins n))
    (n : Nat) : services h ins (n + 1) = commands h ins n := by
  induction n with
  | zero =>
    show [] ++ (h.served (ins 0)).toList = []
    rw [h0.served]
    rfl
  | succ n ih =>
    show services h ins (n + 1) ++ ((run step h ins (n + 1)).served (ins (n + 1))).toList =
      commands h ins n ++ ((run step h ins n).command (ins n)).toList
    rw [ih, served_command h0 hcalm]

theorem services_of_free (h0 : Attended h .idle) (hcalm : ∀ n, Calm (run step h ins n) (ins n))
    (n : Nat) (hb : (run step h ins n).dm.absBusy = false) :
    services h ins n = commands h ins n := by
  cases n with
  | zero => rfl
  | succ n =>
    have hnone : (run step h ins n).command (ins n) = none := by
      by_contra hsome
      obtain ⟨acc, hcmd⟩ := Option.ne_none_iff_exists'.mp hsome
      cases (turns h0 hcalm hcmd).2.1.stage with
      | request hb' => exact Bool.false_ne_true (hb.symm.trans hb')
    rw [services_succ h0 hcalm]
    show _ = commands h ins n ++ ((run step h ins n).command (ins n)).toList
    rw [hnone]
    exact (List.append_nil _).symm

theorem held_run (h0 : Attended h .idle) (hcalm : ∀ n, Calm (run step h ins n) (ins n)) (n : Nat) :
    (run step h ins n).core.held = ((services h ins n).foldl Core.access h.core).held := by
  induction n with
  | zero => rfl
  | succ n ih =>
    obtain ⟨t, ha⟩ := attended h0 hcalm n
    show ((run step h ins n).step (ins n)).core.held =
      ((services h ins n ++ ((run step h ins n).served (ins n)).toList).foldl Core.access
        h.core).held
    rw [ha.step_held, List.foldl_append]
    cases (run step h ins n).served (ins n) with
    | none => exact ih
    | some acc => exact held_access_congr ih acc

/-- **Register access.** Every halted core, with a Debug Module whose engine and ports are
idle: in every run in which the debugger only gives commands for registers, each of them
is served once, in the clock after it, changes the register that it names by its write
rule and nothing else, or puts its value in `data0`. -/
theorem register_access (s₀ : Core P) (i₀ : CoreIn) (ins₀ : Nat → CoreIn) (m : Nat)
    (dm : DebugModule) (ins : Nat → HartIn)
    (hmode : (Core.runFrom s₀ i₀ ins₀ m).dbg.dbgMode = true)
    (heng : dm.eng = .idle ∧ dm.absBusy = false ∧ dm.dbgArValid = false ∧ dm.dmMemValid = false)
    (hstay : dm.ndmreset = false ∧ dm.dbgResumereq = false)
    (hcalm : ∀ n, Calm (run step ⟨dm, Core.runFrom s₀ i₀ ins₀ m⟩ ins n) (ins n)) :
    Handshake ⟨dm, Core.runFrom s₀ i₀ ins₀ m⟩ ins := by
  have h0 : Attended ⟨dm, Core.runFrom s₀ i₀ ins₀ m⟩ .idle :=
    ⟨Core.halted_of_dbgMode s₀ i₀ ins₀ m hmode, hstay.1, hstay.2, heng.2.2.2,
      .idle heng.2.1 heng.2.2.1 heng.1⟩
  generalize (⟨dm, Core.runFrom s₀ i₀ ins₀ m⟩ : Hart P) = h at h0 hcalm
  have hatt := attended h0 hcalm
  refine ⟨⟨h0.served, served_command h0 hcalm⟩, services_of_free h0 hcalm, held_run h0 hcalm,
    fun n => ?_, fun n => ?_, fun n acc irq hcmd hw => ?_, fun n acc irq reg hcmd hne hs hctr => ?_,
    fun n acc hcmd hr => ?_, fun n acc hcmd => ?_⟩
  · obtain ⟨t, ha⟩ := hatt n
    rw [run_succ, ha.core_step]
    exact ha.halted.step_md
  · obtain ⟨t, ha⟩ := hatt n
    refine ⟨?_, ?_, ha.bus⟩
    · by_contra hre
      rw [Bool.not_eq_false] at hre
      exact Bool.false_ne_true (ha.halted.xwValid.symm.trans (WStage.dmemRe_cases _ hre).1)
    · by_contra hwe
      rw [Bool.not_eq_false] at hwe
      exact Bool.false_ne_true (ha.halted.xwValid.symm.trans (WStage.dmemWe_cases _ hwe).1)
  · exact (turns h0 hcalm hcmd).2.1.written hw irq
  · obtain ⟨ha, hreq, -, -⟩ := turns h0 hcalm hcmd
    have hstep := hreq.step_held (i := ins (n + 1))
    have hbefore := ha.step_held (i := ins n)
    rw [hreq.served] at hstep
    rw [ha.served] at hbefore
    have hafter : (run step h ins (n + 2)).core.held =
        ((run step h ins (n + 1)).core.access acc).held := hstep
    have hput : ((run step h ins (n + 1)).core.access acc).value irq reg =
        (run step h ins (n + 1)).core.value irq reg := by
      unfold Core.access
      split
      · exact Core.value_put_ne hne hs
      · rfl
    have hsame : (run step h ins (n + 1)).core.held = (run step h ins n).core.held := hbefore
    rw [← Core.value_held hctr, hafter, Core.value_held hctr, hput, ← Core.value_held hctr, hsame,
      Core.value_held hctr]
  · exact (turns h0 hcalm hcmd).2.2.1.answered hr
  · obtain ⟨ha, hreq, hans, hidle⟩ := turns h0 hcalm hcmd
    refine ⟨ha.stage, hreq.stage, hans.stage, hidle.stage, ?_, ?_⟩
    · have hdone := (step_core (h := run step h ins (n + 2)) (i := ins (n + 2)) hans.reset).1
      refine hdone.trans ?_
      cases hans.stage with
      | answer _ _ _ hbusy =>
        unfold Core.dbgDo
        rw [hbusy]
        exact Bool.and_false _
    · cases hidle.stage with
      | idle _ hv => exact (step_core_quiet (i := ins (n + 3)) hv).2.2

end Run

/-- A halt request, and NOPs. -/
def haltIn : CoreIn := { dbgHaltreq := true, imemRdata := 0x13#32, dmemRdata := 0#32 }

/-- A write of `x8` and a read of it, on the DMI. -/
def errand : Nat → HartIn
  | 0 => { dmiWePulse := true, dmiWeAddr := addrData0, dmiWeData := 0xABCD#32 }
  | 1 => { dmiWePulse := true, dmiWeAddr := addrCommand, dmiWeData := 0x00231008#32 }
  | 4 => { dmiWePulse := true, dmiWeAddr := addrCommand, dmiWeData := 0x00221008#32 }
  | _ => {}

/-- Without a DMI write the debugger is calm. -/
theorem Calm.of_quiet {h : Hart P} {i : HartIn} (hp : i.dmiWePulse = false) : Calm h i := by
  have hcmd : isCommand i = false := by
    unfold isCommand
    rw [hp]
    rfl
  have hread : h.dm.startsRead (h.dmIn i) = false := by
    show (i.dmiWePulse && i.dmiWeAddr == addrSbaddress0 && h.dm.sbreadonaddr) = false
    rw [hp]
    rfl
  have hwrite : startsWrite (h.dmIn i) = false := by
    show (i.dmiWePulse && i.dmiWeAddr == addrSbdata0) = false
    rw [hp]
    rfl
  have hno : ∀ {q : Prop}, i.dmiWePulse = true → q := fun h' =>
    absurd (hp.symm.trans h') Bool.false_ne_true
  exact ⟨fun h' => absurd (hcmd.symm.trans h') Bool.false_ne_true, hread, hwrite,
    fun h' => hno h', fun h' => hno h'⟩

theorem register_access_errand :
    Handshake ⟨{}, Core.runFrom (Core.powerUp {}) haltIn (fun _ => haltIn) 4⟩ errand := by
  refine register_access (Core.powerUp {}) haltIn (fun _ => haltIn) 4 {} errand (by decide +kernel)
    ⟨rfl, rfl, rfl, rfl⟩ ⟨rfl, rfl⟩ fun n => ?_
  match n with
  | 0 | 1 | 4 =>
    exact ⟨by decide +kernel, by decide +kernel, by decide +kernel, by decide +kernel,
      by decide +kernel⟩
  | 2 | 3 | n + 5 => exact .of_quiet rfl

end Hart

end ThreeSippEs
