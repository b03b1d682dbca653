import ThreeSippEs.Debug.Halted

/-!
# The accounting of the abstract commands

A value written to the command register owes the debugger an access, to the register it
names, or an error code. The accesses that the hart makes are compared with those that
are owed, over whole runs of the Debug Module and the core.

- `Accounted`: every access that is owed is made, once and in order, and no other, and
  none while an error is pending; what is made is the change of the register that the
  command names;
- `Phase`: where a command is on its way;
- `command_accounting`: the runs that are accounted for.
-/

namespace ThreeSippEs.Hart

open Clocked DebugModule

variable {P : Params}

/-! ## Accounts -/

/-- What a command of this clock owes: the access it asks for, if it names a register,
unless it leaves an error code. -/
def owes (h : Hart P) (i : HartIn) : List (Option RegAccess) :=
  if isCommand i ∧ (h.step i).dm.cmderr = 0#3 then [asked i.dmiWeData h.dm.data0] else []

/-- The accesses owed in the first `n` clocks. -/
def owed (h : Hart P) (ins : Nat → HartIn) : Nat → List (Option RegAccess) :=
  trace step owes h ins

/-- The accesses made in the first `n` clocks. -/
def services (h : Hart P) (ins : Nat → HartIn) : Nat → List RegAccess :=
  trace step (fun h i => (h.served i).toList) h ins

/-- **What the debugger relies on.** -/
structure Accounted (h : Hart P) (ins : Nat → HartIn) : Prop where
  /-- an access is made because it is owed, in order and once -/
  exact : ∀ n, (services h ins n).map some <+: owed h ins n
  /-- an access that is owed is made -/
  complete : ∀ n, ∃ m, owed h ins n <+: (services h ins m).map some
  /-- none is made while there is an error -/
  clear : ∀ n, ((run step h ins n).served (ins n)).isSome = true →
    (run step h ins n).dm.cmderr = 0#3
  /-- an access does what it says to the registers, and nothing else does anything to those
  of a halted hart, a reset apart -/
  effect : ∀ n, (run step h ins n).core.Halted →
    ((run step h ins n).served (ins n)).isSome = true ∨ (run step h ins n).dm.ndmreset = false →
    (run step h ins (n + 1)).core.registers =
      (((run step h ins n).served (ins n)).elim (run step h ins n).core
        (run step h ins n).core.access).registers
  /-- a register that is written holds what its write rule says, a counter too -/
  written : ∀ n acc irq, (run step h ins n).core.Halted →
    (run step h ins n).served (ins n) = some acc → acc.write = true →
    (run step h ins (n + 1)).core.value irq acc.reg =
      (run step h ins n).core.legal irq acc.wdata acc.reg

/-- A command comes while no other one is pending, and it is either of a type that is not
supported, or a transfer with a register that it names; or it comes while there is an
error, and it is no transfer. The core is not reset under a request that it serves or has
served; it may be under one that waits for Debug Mode. -/
structure Proper (h : Hart P) (i : HartIn) : Prop where
  clear : isCommand i = true → h.dm.cmderr = 0#3 → h.dm.absBusy = false ∧
    (i.dmiWeData.extractLsb 31 24 ≠ 0#8 ∨
      (i.dmiWeData.getLsbD 17 = true ∧ (asked i.dmiWeData h.dm.data0).isSome = true))
  error : isCommand i = true → h.dm.cmderr ≠ 0#3 →
    i.dmiWeData.extractLsb 31 24 ≠ 0#8 ∨ i.dmiWeData.getLsbD 17 = false
  reset : h.dm.ndmreset = true → h.dm.dbgArValid = true →
    h.core.dbg.dbgMode = false ∧ h.core.dbg.dbgArBusy = false

/-! ## One clock -/

/-- Where a command is on its way, with the accesses made and owed so far. -/
inductive Phase (h : Hart P) : List RegAccess → List (Option RegAccess) → Prop
  /-- no request on the port -/
  | quiet (made : List RegAccess) (hb : h.dm.absBusy = false) (hv : h.dm.dbgArValid = false)
      (he : h.dm.eng ≠ .arWait) : Phase h made (made.map some)
  /-- a request that the hart has not answered -/
  | waiting (made : List RegAccess) (hb : h.dm.absBusy = true) (hv : h.dm.dbgArValid = true)
      (hbusy : h.core.dbg.dbgArBusy = false) (hdone : h.core.dbg.dbgArDone = false)
      (herr : h.dm.cmderr = 0#3) : Phase h made (made.map some ++ [some h.dm.arPort.access])
  /-- a request that it has -/
  | answered (made : List RegAccess) (hb : h.dm.absBusy = true) (hv : h.dm.dbgArValid = true)
      (hbusy : h.core.dbg.dbgArBusy = true) (herr : h.dm.cmderr = 0#3) : Phase h made (made.map some)

/-- A request on the port that has not been answered. -/
def Requested (h : Hart P) : Prop := h.dm.absBusy = true ∧ h.core.dbg.dbgArBusy = false

section Clock

variable {h : Hart P} {i : HartIn}

/-- The port asks for what the command asks for. -/
theorem access_commanded {acc : RegAccess} (hask : asked i.dmiWeData h.dm.data0 = some acc) :
    (h.dm.commanded (h.dmIn i)).access = acc := by
  have hpart : ∀ hi lo : Nat, lo ≤ hi → hi < 16 →
      (i.dmiWeData.extractLsb 15 0).extractLsb hi lo = i.dmiWeData.extractLsb hi lo := by
    intro hi lo hlo hhi
    refine BitVec.eq_of_getLsbD_eq fun j hj => ?_
    have h16 : lo + j < 16 := by omega
    simp [h16]
  obtain ⟨reg, hreg, rfl⟩ := Option.map_eq_some_iff.mp hask
  unfold named at hreg
  rw [hpart 15 12 (by omega) (by omega), hpart 11 0 (by omega) (by omega),
    hpart 4 0 (by omega) (by omega)] at hreg
  unfold commanded ArAccess.access
  dsimp only
  by_cases hcsr : i.dmiWeData.extractLsb 15 12 = 0#4
  · rw [if_pos hcsr] at hreg
    have hflag : ((h.dmIn i).dmiWeData.extractLsb 15 12 == 0x0#4) = true := beq_iff_eq.mpr hcsr
    rw [hflag, ← Option.some.inj hreg]
    rfl
  · rw [if_neg hcsr] at hreg
    have hflag : ((h.dmIn i).dmiWeData.extractLsb 15 12 == 0x0#4) = false := beq_false_of_ne hcsr
    have hgpr : ((h.dmIn i).dmiWeData.extractLsb 11 0).extractLsb 4 0 =
        i.dmiWeData.extractLsb 4 0 := by
      refine BitVec.eq_of_getLsbD_eq fun j hj => ?_
      have h12 : j < 12 := by omega
      show ((i.dmiWeData.extractLsb 11 0).extractLsb 4 0).getLsbD j = _
      simp [h12]
    rw [hflag, hgpr]
    split at hreg
    · rw [← Option.some.inj hreg]
      rfl
    · exact absurd hreg (Option.some_ne_none _).symm

theorem startsCommand_iff :
    h.dm.startsCommand (h.dmIn i) = true ↔ isCommand i = true ∧ h.dm.absBusy = false ∧
      i.dmiWeData.extractLsb 31 24 = 0#8 ∧ i.dmiWeData.getLsbD 17 = true := by
  unfold startsCommand isCommand
  simp only [Bool.and_eq_true, beq_iff_eq, Bool.not_eq_true', and_assoc]
  exact Iff.rfl

/-- The error code that a command leaves. -/
theorem cmderr_of_isCommand (hc : isCommand i = true) :
    (h.step i).dm.cmderr =
      if h.dm.absBusy = false ∧ i.dmiWeData.extractLsb 31 24 ≠ 0#8 then 2#3 else h.dm.cmderr := by
  unfold isCommand at hc
  rw [Bool.and_eq_true, beq_iff_eq] at hc
  exact cmderr_command (s := h.dm) (i := h.dmIn i) hc.1 hc.2

theorem owes_of_not (hc : isCommand i = false) : h.owes i = [] := by
  unfold owes
  rw [hc]
  exact if_neg fun h => Bool.false_ne_true h.1

/-- The answer of the core, if it is not in reset. -/
theorem step_core (hr : h.dm.ndmreset = false) :
    (h.step i).core.dbg.dbgArDone = h.core.dbgDo (h.coreIn i) ∧
    (h.step i).core.dbg.dbgArBusy =
      (h.dm.dbgArValid && (h.core.dbgDo (h.coreIn i) || h.core.dbg.dbgArBusy)) := by
  have hstep : (h.step i).core = h.core.step (h.coreIn i) := by
    unfold step
    rw [hr]
    rfl
  rw [hstep]
  exact Core.step_access h.core (h.coreIn i)

/-- With no request on the port it has none to answer. -/
theorem step_core_quiet (hv : h.dm.dbgArValid = false) :
    h.served i = none ∧ (h.step i).core.dbg.dbgArDone = false ∧
      (h.step i).core.dbg.dbgArBusy = false := by
  have hdo : h.core.dbgDo (h.coreIn i) = false := by
    unfold Core.dbgDo
    show (h.core.dbg.dbgMode && h.dm.dbgArValid && !h.core.dbg.dbgArBusy) = false
    rw [hv, Bool.and_false, Bool.false_and]
  refine ⟨?_, ?_⟩
  · unfold served
    rw [hdo]
    rfl
  · cases hr : h.dm.ndmreset with
    | false =>
      obtain ⟨hdone, hbusy⟩ := step_core (i := i) hr
      rw [hdo] at hdone
      rw [hv, Bool.false_and] at hbusy
      exact ⟨hdone, hbusy⟩
    | true =>
      unfold step
      rw [hr]
      exact ⟨rfl, rfl⟩

/-- A command that does not go out leaves an error, where it comes properly. -/
theorem owes_of_not_started (hb : h.dm.absBusy = false) (hp : Proper h i)
    (hs : h.dm.startsCommand (h.dmIn i) = false) : h.owes i = [] := by
  cases hc : isCommand i with
  | false => exact owes_of_not hc
  | true =>
    have herr : (h.step i).dm.cmderr ≠ 0#3 := by
      rw [cmderr_of_isCommand hc]
      by_cases ht : i.dmiWeData.extractLsb 31 24 = 0#8
      · rw [if_neg fun hno => hno.2 ht]
        intro hclear
        rcases (hp.clear hc hclear).2 with hno | ⟨h17, -⟩
        · exact hno ht
        · exact Bool.eq_false_iff.mp hs (startsCommand_iff.mpr ⟨hc, hb, ht, h17⟩)
      · rw [if_pos ⟨hb, ht⟩]
        decide
    exact if_neg fun h => herr h.2

/-- The port is free: a command may go out on it. -/
theorem Phase.of_quiet {made : List RegAccess} (hb : h.dm.absBusy = false)
    (hv : h.dm.dbgArValid = false) (he : h.dm.eng ≠ .arWait) (hp : Proper h i) :
    Phase (h.step i) made (made.map some ++ h.owes i) := by
  obtain ⟨-, hdone', hbusy'⟩ := step_core_quiet (i := i) hv
  cases hs : h.dm.startsCommand (h.dmIn i) with
  | true =>
    obtain ⟨hc, -, ht, h17⟩ := startsCommand_iff.mp hs
    -- a proper transfer does not go out under an error
    have herr : h.dm.cmderr = 0#3 := by
      by_contra hne
      rcases hp.error hc hne with hno | hno
      · exact hno ht
      · exact Bool.false_ne_true (hno.symm.trans h17)
    obtain ⟨acc, hask⟩ : ∃ acc, asked i.dmiWeData h.dm.data0 = some acc := by
      rcases (hp.clear hc herr).2 with hno | ⟨-, hsome⟩
      · exact absurd ht hno
      · exact Option.isSome_iff_exists.mp hsome
    have herr' : (h.step i).dm.cmderr = 0#3 := by
      rw [cmderr_of_isCommand hc, if_neg fun hno => hno.2 ht]
      exact herr
    obtain ⟨hbusy, hvalid, hport⟩ := step_command hs he
    have howes : h.owes i = [some (h.step i).dm.arPort.access] := by
      have hacc : (h.step i).dm.arPort.access = acc :=
        (congrArg ArAccess.access hport).trans (access_commanded hask)
      unfold owes
      rw [if_pos ⟨hc, herr'⟩, hask, hacc]
    rw [howes]
    exact .waiting made hbusy hvalid hbusy' hdone' herr'
  | false =>
    obtain ⟨hbusy, hvalid, -, heng⟩ := step_pending hs
    have hbeq : (h.dm.eng == .arWait) = false := beq_false_of_ne he
    rw [hb, Bool.false_and] at hbusy
    rw [hv, hbeq, Bool.false_or, Bool.false_and] at hvalid
    rw [owes_of_not_started hb hp hs, List.append_nil]
    exact .quiet made hbusy hvalid fun h => he (heng h).1

/-- No command comes while one is pending. -/
theorem owes_of_busy (hb : h.dm.absBusy = true) (herr : h.dm.cmderr = 0#3) (hp : Proper h i) :
    h.owes i = [] := by
  refine owes_of_not ?_
  by_contra hc
  rw [Bool.not_eq_false] at hc
  have hfree := (hp.clear hc herr).1
  rw [hb] at hfree
  exact Bool.false_ne_true hfree.symm

theorem not_started_of_busy (hb : h.dm.absBusy = true) :
    h.dm.startsCommand (h.dmIn i) = false := by
  by_contra hs
  rw [Bool.not_eq_false] at hs
  have hfree := (startsCommand_iff.mp hs).2.1
  rw [hb] at hfree
  exact Bool.false_ne_true hfree.symm

/-- A core that serves a request, or has served it, is not reset. -/
theorem not_reset_of_serving (hv : h.dm.dbgArValid = true)
    (hs : h.core.dbg.dbgMode = true ∨ h.core.dbg.dbgArBusy = true) (hp : Proper h i) :
    h.dm.ndmreset = false := by
  by_contra hr
  rw [Bool.not_eq_false] at hr
  obtain ⟨hmode, hbusy⟩ := hp.reset hr hv
  rcases hs with hm | hb
  · exact Bool.false_ne_true (hmode.symm.trans hm)
  · exact Bool.false_ne_true (hbusy.symm.trans hb)

/-- A core outside Debug Mode answers nothing, reset or not. -/
theorem step_core_running (hm : h.core.dbg.dbgMode = false) (hbusy : h.core.dbg.dbgArBusy = false) :
    (h.step i).core.dbg.dbgArDone = false ∧ (h.step i).core.dbg.dbgArBusy = false := by
  have hdo : h.core.dbgDo (h.coreIn i) = false := by
    unfold Core.dbgDo
    rw [hm, Bool.false_and, Bool.false_and]
  cases hr : h.dm.ndmreset with
  | true =>
    unfold step
    rw [hr]
    exact ⟨rfl, rfl⟩
  | false =>
    obtain ⟨hdone', hbusy'⟩ := step_core (i := i) hr
    rw [hdo] at hdone'
    rw [hdo, hbusy, Bool.or_false, Bool.and_false] at hbusy'
    exact ⟨hdone', hbusy'⟩

/-- A request waits for Debug Mode, where the hart serves it. -/
theorem Phase.of_waiting (made : List RegAccess) (hb : h.dm.absBusy = true)
    (hv : h.dm.dbgArValid = true) (hbusy : h.core.dbg.dbgArBusy = false)
    (hdone : h.core.dbg.dbgArDone = false) (herr : h.dm.cmderr = 0#3) (hp : Proper h i) :
    h.served i = (if h.core.dbg.dbgMode then some h.dm.arPort.access else none) ∧
    (if h.core.dbg.dbgMode then
      Phase (h.step i) (made ++ [h.dm.arPort.access])
        (made.map some ++ [some h.dm.arPort.access])
    else Requested (h.step i) ∧
      Phase (h.step i) made (made.map some ++ [some h.dm.arPort.access])) := by
  have hdo : h.core.dbgDo (h.coreIn i) = h.core.dbg.dbgMode := by
    show (h.core.dbg.dbgMode && h.dm.dbgArValid && !h.core.dbg.dbgArBusy) = h.core.dbg.dbgMode
    rw [hv, hbusy, Bool.and_true, Bool.not_false, Bool.and_true]
  obtain ⟨hab, hvalid, hport, -⟩ := step_pending (not_started_of_busy (h := h) (i := i) hb)
  have hans : (h.dmIn i).dbgArDone = false := hdone
  rw [hb, hans, Bool.and_false] at hab
  rw [hv, hans, Bool.and_false] at hvalid
  have herr' : (h.step i).dm.cmderr = 0#3 := cmderr_busy hb herr
  have hsame : (h.step i).dm.arPort.access = h.dm.arPort.access := congrArg ArAccess.access hport
  refine ⟨?_, ?_⟩
  · unfold served
    rw [hdo]
  · cases hm : h.core.dbg.dbgMode with
    | true =>
      rw [if_pos rfl]
      have hbusy' := (step_core (i := i) (not_reset_of_serving hv (.inl hm) hp)).2
      rw [hdo, hm, hv, Bool.true_or, Bool.true_and] at hbusy'
      have hmap : made.map some ++ [some h.dm.arPort.access] =
          (made ++ [h.dm.arPort.access]).map some := by
        rw [List.map_append]
        rfl
      rw [hmap]
      exact .answered _ hab hvalid hbusy' herr'
    | false =>
      rw [if_neg Bool.false_ne_true]
      obtain ⟨hdone', hbusy'⟩ := step_core_running (i := i) hm hbusy
      rw [← hsame]
      exact ⟨⟨hab, hbusy'⟩, .waiting made hab hvalid hbusy' hdone' herr'⟩

/-- A request has been served: the module takes it back, unless the engine has lost it. -/
theorem Phase.of_answered (made : List RegAccess) (hb : h.dm.absBusy = true)
    (hv : h.dm.dbgArValid = true) (hbusy : h.core.dbg.dbgArBusy = true)
    (herr : h.dm.cmderr = 0#3) (hp : Proper h i) :
    h.served i = none ∧ Phase (h.step i) made (made.map some) := by
  have hdo : h.core.dbgDo (h.coreIn i) = false := by
    unfold Core.dbgDo
    rw [hbusy]
    exact Bool.and_false _
  obtain ⟨-, hbusy'⟩ := step_core (i := i) (not_reset_of_serving hv (.inr hbusy) hp)
  rw [hv, hbusy, Bool.or_true, Bool.true_and] at hbusy'
  obtain ⟨hab, hvalid, -, heng⟩ := step_pending (not_started_of_busy (h := h) (i := i) hb)
  rw [hb, Bool.true_and] at hab
  rw [hv, Bool.true_or, Bool.true_and] at hvalid
  refine ⟨?_, ?_⟩
  · unfold served
    rw [hdo]
    rfl
  · cases hans : (h.dm.eng == .arWait && (h.dmIn i).dbgArDone) with
    | true =>
      rw [hans] at hab hvalid
      refine .quiet made hab hvalid fun h' => ?_
      obtain ⟨-, hno⟩ := heng h'
      rw [hno, Bool.and_false] at hans
      exact Bool.false_ne_true hans
    | false =>
      rw [hans] at hab hvalid
      exact .answered made hab hvalid hbusy' (cmderr_busy hb herr)

/-- **One clock**: the accesses made keep up with those that are owed. -/
theorem Phase.step {made : List RegAccess} {due : List (Option RegAccess)}
    (hph : Phase h made due) (hp : Proper h i) :
    Phase (h.step i) (made ++ (h.served i).toList) (due ++ h.owes i) := by
  cases hph with
  | quiet hb hv he =>
    rw [(step_core_quiet hv).1]
    rw [Option.toList_none, List.append_nil]
    exact .of_quiet hb hv he hp
  | waiting hb hv hbusy hdone herr =>
    obtain ⟨hserved, hnext⟩ := Phase.of_waiting made hb hv hbusy hdone herr hp
    rw [owes_of_busy hb herr hp, List.append_nil, hserved]
    cases hm : h.core.dbg.dbgMode with
    | true =>
      rw [hm, if_pos rfl] at hnext
      exact hnext
    | false =>
      rw [hm, if_neg Bool.false_ne_true] at hnext
      rw [if_neg Bool.false_ne_true, Option.toList_none, List.append_nil]
      exact hnext.2
  | answered hb hv hbusy herr =>
    obtain ⟨hserved, hnext⟩ := Phase.of_answered made hb hv hbusy herr hp
    rw [owes_of_busy hb herr hp, hserved, List.append_nil, Option.toList_none, List.append_nil]
    exact hnext

/-- An access is made on the port, in Debug Mode. -/
theorem dbgDo_of_served {acc : RegAccess} (hs : h.served i = some acc) :
    h.core.dbgDo (h.coreIn i) = true ∧ h.dm.arPort.access = acc := by
  unfold served at hs
  split at hs
  case isTrue hdo => exact ⟨hdo, Option.some.inj hs⟩
  case isFalse => exact absurd hs (Option.some_ne_none acc).symm

/-- The core that serves a request is not in reset. -/
theorem step_of_served (hs : (h.served i).isSome = true ∨ h.dm.ndmreset = false)
    (hp : Proper h i) : (h.step i).core = h.core.step (h.coreIn i) := by
  have hr : h.dm.ndmreset = false := by
    rcases hs with hs | hr
    · obtain ⟨acc, hacc⟩ := Option.isSome_iff_exists.mp hs
      have hdo := (dbgDo_of_served hacc).1
      unfold Core.dbgDo at hdo
      simp only [Bool.and_eq_true] at hdo
      exact not_reset_of_serving hdo.1.2 (.inl hdo.1.1) hp
    · exact hr
  exact if_neg (Bool.eq_false_iff.mp hr)

/-- **The effect of a clock** on the registers of a halted hart. -/
theorem step_effect (hh : h.core.Halted)
    (hs : (h.served i).isSome = true ∨ h.dm.ndmreset = false) (hp : Proper h i) :
    (h.step i).core.registers = ((h.served i).elim h.core h.core.access).registers := by
  rw [step_of_served hs hp, hh.step_registers]
  unfold served
  split
  · rfl
  · rfl

theorem step_written {acc : RegAccess} (hh : h.core.Halted) (hs : h.served i = some acc)
    (hw : acc.write = true) (hp : Proper h i) (irq : IrqLines) :
    (h.step i).core.value irq acc.reg = h.core.legal irq acc.wdata acc.reg := by
  obtain ⟨hdo, rfl⟩ := dbgDo_of_served hs
  rw [step_of_served (.inl (hs ▸ rfl)) hp]
  exact hh.written hdo hw irq

/-- What is made is owed, -/
theorem Phase.due {made : List RegAccess} {due : List (Option RegAccess)}
    (hph : Phase h made due) : made.map some <+: due := by
  cases hph with
  | quiet | answered => exact List.prefix_rfl
  | waiting => exact List.prefix_append _ _

/-- and made without an error. -/
theorem Phase.clear {made : List RegAccess} {due : List (Option RegAccess)}
    (hph : Phase h made due) (hs : (h.served i).isSome = true) : h.dm.cmderr = 0#3 := by
  cases hph with
  | quiet hb hv he =>
    rw [(step_core_quiet hv).1] at hs
    exact absurd hs Bool.false_ne_true
  | waiting hb hv hbusy hdone herr => exact herr
  | answered hb hv hbusy herr => exact herr

/-- It waits for Debug Mode, and then nothing more is owed. -/
theorem Phase.requested {made : List RegAccess} {due : List (Option RegAccess)}
    (hph : Phase h made due) (hr : Requested h) (hp : Proper h i) :
    (h.core.dbg.dbgMode = false → Requested (h.step i)) ∧
    (h.core.dbg.dbgMode = true → due = (made ++ (h.served i).toList).map some) := by
  obtain ⟨hb, hbusy⟩ := hr
  cases hph with
  | quiet hfree =>
    rw [hfree] at hb
    exact absurd hb Bool.false_ne_true
  | answered _ _ hans =>
    rw [hans] at hbusy
    exact absurd hbusy.symm Bool.false_ne_true
  | waiting _ hv _ hdone herr =>
    obtain ⟨hserved, hnext⟩ := Phase.of_waiting made hb hv hbusy hdone herr hp
    refine ⟨fun hm => ?_, fun hm => ?_⟩
    · rw [hm, if_neg Bool.false_ne_true] at hnext
      exact hnext.1
    · rw [hserved, hm, List.map_append]
      rfl

end Clock

/-! ## Runs -/

section Run

variable {h : Hart P} {ins : Nat → HartIn}

/-- Nothing has been asked of the port. -/
structure Free (h : Hart P) : Prop where
  busy : h.dm.absBusy = false
  valid : h.dm.dbgArValid = false
  eng : h.dm.eng ≠ .arWait

theorem phase (h0 : Free h) (n : Nat) (hok : ∀ k < n, Proper (run step h ins k) (ins k)) :
    Phase (run step h ins n) (services h ins n) (owed h ins n) := by
  induction n with
  | zero => exact .quiet [] h0.busy h0.valid h0.eng
  | succ n ih =>
    exact (ih fun k hk => hok k (Nat.lt_succ_of_lt hk)).step (hok n (Nat.lt_succ_self n))

/-- A command that is started goes out on the port. -/
theorem requested_of_started (h0 : Free h) (hok : ∀ k, Proper (run step h ins k) (ins k)) {n : Nat}
    (howes : (run step h ins n).owes (ins n) ≠ []) :
    (run step h ins n).dm.startsCommand ((run step h ins n).dmIn (ins n)) = true ∧
      Requested (run step h ins (n + 1)) := by
  have hph := phase h0 n fun k _ => hok k
  have hp := hok n
  generalize hmade : services h ins n = made at hph
  generalize hdue : owed h ins n = due at hph
  cases hph with
  | waiting hb hv hbusy hdone herr => exact absurd (owes_of_busy hb herr hp) howes
  | answered hb hv hbusy herr => exact absurd (owes_of_busy hb herr hp) howes
  | quiet hb hv he =>
    cases hs : (run step h ins n).dm.startsCommand ((run step h ins n).dmIn (ins n)) with
    | false => exact absurd (owes_of_not_started hb hp hs) howes
    | true => exact ⟨rfl, (step_command hs he).1, (step_core_quiet hv).2.2⟩

/-- **Accounting.** From any state of the hart with a free port, in every run whose commands
come properly and find the hart in Debug Mode at some later clock, each of them makes the
access that it asks for, once and in order, no access is made beside these, and an access
is the change of the register that the command names. -/
theorem command_accounting (h : Hart P) (ins : Nat → HartIn) (h0 : Free h)
    (hok : ∀ n, Proper (run step h ins n) (ins n))
    (hhalt : ∀ n, (run step h ins n).dm.startsCommand ((run step h ins n).dmIn (ins n)) = true →
      ∃ m, n < m ∧ (run step h ins m).core.dbg.dbgMode = true) :
    Accounted h ins := by
  have hphase := fun n => phase h0 n fun k _ => hok k
  refine ⟨fun n => (hphase n).due, fun n => ?_, fun n hs => (hphase n).clear hs,
    fun n hh hs => step_effect hh hs (hok n),
    fun n acc irq hh hs hw => step_written hh hs hw (hok n) irq⟩
  induction n with
  | zero => exact ⟨0, List.prefix_rfl⟩
  | succ n ih =>
    by_cases howes : (run step h ins n).owes (ins n) = []
    · obtain ⟨m, hm⟩ := ih
      have hsame : owed h ins (n + 1) = owed h ins n := by
        show owed h ins n ++ (run step h ins n).owes (ins n) = _
        rw [howes, List.append_nil]
      rw [hsame]
      exact ⟨m, hm⟩
    · -- the request is on the port until Debug Mode, where everything owed is made
      obtain ⟨hstart, hreq⟩ := requested_of_started h0 hok howes
      obtain ⟨m, hnm, hreq', hm⟩ := waits (P := fun k => Requested (run step h ins k))
        (E := fun k => (run step h ins k).core.dbg.dbgMode = true) hreq
        (fun k _ hk hmode => ((hphase k).requested hk (hok k)).1 (Bool.eq_false_iff.mpr hmode))
        (hhalt n hstart)
      have hall := ((hphase m).requested hreq' (hok m)).2 hm
      exact ⟨m + 1, (trace_le hnm).trans (hall ▸ List.prefix_rfl)⟩

/-! ### Two sessions -/

/-- A debugger that halts the hart and then writes the commands `cmds`, clock by clock. -/
def session (cmds : List Word) (n : Nat) : HartIn :=
  if n = 0 then
    { dmiWePulse := true, dmiWeAddr := addrDmcontrol, dmiWeData := 0x80000001#32
      imemRdata := 0x13#32 }
  else if n < 6 then { imemRdata := 0x13#32 }
  else match cmds[n - 6]? with
    | some cmd =>
      { dmiWePulse := true, dmiWeAddr := addrCommand, dmiWeData := cmd, imemRdata := 0x13#32 }
    | none => { imemRdata := 0x13#32 }

/-- The hart out of reset. -/
def fresh : Hart {} :=
  ⟨{}, (Core.powerUp {}).reset ((⟨{}, Core.powerUp {}⟩ : Hart {}).coreIn {})⟩

/-- The commands come from clock 6 on. -/
theorem isCommand_session {cmds : List Word} {n : Nat} (hc : isCommand (session cmds n) = true) :
    6 ≤ n ∧ n < 6 + cmds.length := by
  unfold session at hc
  by_cases h0 : n = 0
  · rw [if_pos h0] at hc
    exact absurd hc (by decide)
  by_cases h6 : n < 6
  · rw [if_neg h0, if_pos h6] at hc
    exact absurd hc (by decide)
  · rw [if_neg h0, if_neg h6] at hc
    refine ⟨Nat.le_of_not_lt h6, ?_⟩
    by_contra hlen
    rw [List.getElem?_eq_none (by omega)] at hc
    exact absurd hc (by decide)

/-- `dmcontrol` is only written to halt the hart. -/
theorem session_dmcontrol {cmds : List Word} {n : Nat}
    (ha : (session cmds n).dmiWeAddr = addrDmcontrol) :
    (session cmds n).dmiWeData.getLsbD 1 = false := by
  unfold session at ha ⊢
  by_cases h0 : n = 0
  · rw [if_pos h0]
    rfl
  by_cases h6 : n < 6
  · rw [if_neg h0, if_pos h6]
    rfl
  · rw [if_neg h0, if_neg h6] at ha ⊢
    cases hcmd : cmds[n - 6]? with
    | none => rfl
    | some cmd =>
      rw [hcmd] at ha
      have hne : addrCommand ≠ addrDmcontrol := by decide
      exact absurd ha hne

theorem session_ndmreset (cmds : List Word) (n : Nat) :
    (run step fresh (session cmds) n).dm.ndmreset = false := by
  induction n with
  | zero => rfl
  | succ n ih => exact step_ndmreset ih fun _ ha => session_dmcontrol ha

/-- A write of `x8`, halted. -/
theorem command_accounting_transfer : Accounted fresh (session [0x00231008#32]) := by
  have hsix : ∀ n, isCommand (session [0x00231008#32] n) = true → n = 6 := by
    intro n hc
    have hn := isCommand_session hc
    rw [List.length_singleton] at hn
    omega
  refine command_accounting fresh (session [0x00231008#32]) ⟨rfl, rfl, nofun⟩ (fun n => ?_)
    fun n hs => ?_
  · refine ⟨fun hc _ => ?_, fun hc herr => ?_, fun hr => ?_⟩
    · rw [hsix n hc]
      decide +kernel
    · rw [hsix n hc] at herr
      exact absurd (by decide +kernel) herr
    · rw [session_ndmreset] at hr
      exact absurd hr Bool.false_ne_true
  · obtain rfl : n = 6 := hsix n (startsCommand_iff.mp hs).1
    exact ⟨7, by omega, by decide +kernel⟩

/-- A transfer that follows a command of an unsupported type is made under its error. -/
theorem access_under_error :
    ¬ Accounted fresh (session [0x01000000#32, 0x00231008#32]) := by
  intro h
  have hserved : ((run step fresh (session [0x01000000#32, 0x00231008#32]) 8).served
      (session [0x01000000#32, 0x00231008#32] 8)).isSome = true := by decide +kernel
  have herr : (run step fresh (session [0x01000000#32, 0x00231008#32]) 8).dm.cmderr ≠ 0#3 := by
    decide +kernel
  exact herr (h.clear 8 hserved)

end Run

end ThreeSippEs.Hart
