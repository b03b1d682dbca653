import ThreeSippEs.Debug.DebugModule
import ThreeSippEs.Lib.Sessions

/-!
# The engine of the Debug Module

One register tells which operation is pending, an abstract command or a System
Bus access. A DMI write that starts an operation while one is pending takes the
register away from it, unless the engine finishes in that very clock and takes
it away from the new one.

- `Complete`: an operation from its start to its completion;
- `Integrity`: the operations of a run, and `abs_busy`, as a debugger relies on
  them;
- `engine_integrity`: runs in which no operation is started over a pending one.
-/

namespace ThreeSippEs.DebugModule

open Clocked

/-! ## Operations -/

/-- An abstract register access: what the ports to the hart carry. -/
structure ArAccess where
  csr : Bool
  write : Bool
  regno : BitVec 12
  wdata : Word
  deriving DecidableEq

/-- A System Bus access, with the data of a write. -/
structure SbAccess where
  addr : Word
  wdata : Option Word
  deriving DecidableEq

inductive Ev where
  /-- a DMI write starts an abstract command -/
  | command (a : ArAccess)
  /-- a DMI write starts a System Bus access -/
  | access (a : SbAccess)
  /-- one clock of `dm_mem_valid` -/
  | strobe (a : SbAccess)
  /-- the hart has served the abstract command -/
  | arDone (a : ArAccess)
  /-- the bus has served the access -/
  | sbDone
  deriving DecidableEq

/-- An operation from its start to its completion. -/
inductive Complete : List Ev → Prop
  | command (a : ArAccess) : Complete [.command a, .arDone a]
  | access (a : SbAccess) : Complete [.access a, .strobe a, .sbDone]

variable (s : DebugModule) (i : DmIn)

/-- The DMI write of this clock starts an abstract command. -/
def startsCommand : Bool :=
  i.dmiWePulse && i.dmiWeAddr == addrCommand && !s.absBusy &&
    i.dmiWeData.extractLsb 31 24 == 0#8 && i.dmiWeData.getLsbD 17

/-- The DMI write of this clock starts a System Bus read. -/
def startsRead : Bool := i.dmiWePulse && i.dmiWeAddr == addrSbaddress0 && s.sbreadonaddr

/-- The DMI write of this clock starts a System Bus write. -/
def startsWrite : Bool := i.dmiWePulse && i.dmiWeAddr == addrSbdata0

def starts : Bool := s.startsCommand i || s.startsRead i || startsWrite i

/-- The access that a command starts. -/
def commanded : ArAccess where
  csr := i.dmiWeData.extractLsb 15 12 == 0x0#4
  write := i.dmiWeData.getLsbD 16
  regno := i.dmiWeData.extractLsb 11 0
  wdata := s.data0

/-- The access on the ports to the hart. -/
def arPort : ArAccess := ⟨s.dbgArCsr, s.dbgArWrite, s.dbgArRegno, s.dbgArWdata⟩

/-- The access on the ports to the bus. -/
def sbPort : SbAccess := ⟨s.dmMemAddr, if s.dmMemWrite then some s.dmMemWdata else none⟩

/-- What happens in one clock: the bus is strobed, the pending operation completes,
an operation is started. -/
def events : List Ev :=
  (if s.dmMemValid then [.strobe s.sbPort] else []) ++
  (if s.eng == .arWait && i.dbgArDone then [.arDone s.arPort] else []) ++
  (if (s.eng == .sbRd || s.eng == .sbWr) && i.dmMemReady then [.sbDone] else []) ++
  (if s.startsCommand i then [.command (s.commanded i)] else []) ++
  (if s.startsRead i then [.access ⟨i.dmiWeData, none⟩] else []) ++
  (if startsWrite i then [.access ⟨s.sbaddress0, some i.dmiWeData⟩] else [])

/-! ## What a state stands for -/

/-- In state `s` the events `cur` of the pending operation have been seen. -/
inductive Open : List Ev → Prop
  | idle (hs : s.eng = .idle) (hb : s.absBusy = false) (hv : s.dmMemValid = false) : Open []
  | command (hs : s.eng = .arWait) (hb : s.absBusy = true) (hv : s.dmMemValid = false) :
      Open [.command s.arPort]
  | access (hs : s.eng = .sbRd ∨ s.eng = .sbWr) (hb : s.absBusy = false)
      (hv : s.dmMemValid = true) : Open [.access s.sbPort]
  | strobed (a : SbAccess) (hs : s.eng = .sbRd ∨ s.eng = .sbWr) (hb : s.absBusy = false)
      (hv : s.dmMemValid = false) : Open [.access a, .strobe a]

/-- No operation is started over a pending one. -/
def Undisturbed : Prop := s.starts i = true → s.eng = .idle

variable {s i}

/-- The pending operation is the beginning of a complete one, and not all of it. -/
theorem Open.begins {cur : List Ev} (h : Open s cur) :
    ∃ t rest, Complete t ∧ t = cur ++ rest ∧ rest ≠ [] := by
  cases h with
  | idle => exact ⟨_, _, .access ⟨0#32, none⟩, (List.nil_append _).symm, List.cons_ne_nil _ _⟩
  | command => exact ⟨_, _, .command _, rfl, List.cons_ne_nil _ _⟩
  | access => exact ⟨_, _, .access _, rfl, List.cons_ne_nil _ _⟩
  | strobed a => exact ⟨_, _, .access a, rfl, List.cons_ne_nil _ _⟩

/-- `abs_busy` says that the engine waits for an abstract command. -/
theorem Open.busy {cur : List Ev} (h : Open s cur) : s.absBusy = (s.eng == .arWait) := by
  cases h with
  | idle hs hb | command hs hb =>
    rw [hb, hs]
    rfl
  | access hs hb | strobed _ hs hb =>
    rw [hb]
    rcases hs with hs | hs <;> rw [hs] <;> rfl

/-! ## One clock -/

/-- A property of what the DMI write leaves is checked register by register. -/
theorem dmiWrite_arms {p : DebugModule → Prop} (s : DebugModule) (i : DmIn)
    (hnone : p { s with dbgResumereq := false })
    (hdata0 : p { s with dbgResumereq := false, data0 := i.dmiWeData })
    (hdmcontrol : i.dmiWePulse = true → i.dmiWeAddr = addrDmcontrol →
      p (({ s with dbgResumereq := false } : DebugModule).writeDmcontrol i.dmiWeData i.dbgHalted))
    (habstractcs : p { s with dbgResumereq := false, cmderr := 0#3 })
    (hcommand : i.dmiWePulse = true → i.dmiWeAddr = addrCommand → s.absBusy = false →
      p (({ s with dbgResumereq := false } : DebugModule).startAccessReg i.dmiWeData))
    (hsbcs : p (({ s with dbgResumereq := false } : DebugModule).writeSbcs i.dmiWeData))
    (hsbaddress0 : i.dmiWePulse = true → i.dmiWeAddr = addrSbaddress0 →
      p (({ s with dbgResumereq := false } : DebugModule).writeSbaddress0 i.dmiWeData))
    (hsbdata0 : i.dmiWePulse = true → i.dmiWeAddr = addrSbdata0 →
      p (({ s with dbgResumereq := false } : DebugModule).writeSbdata0 i.dmiWeData)) :
    p (s.dmiWrite i) := by
  unfold dmiWrite
  refine iteInduction (motive := p) (fun hp => ?_) fun _ => hnone
  refine iteInduction (motive := p) (fun _ => hdata0) fun _ => ?_
  refine iteInduction (motive := p) (fun ha => hdmcontrol hp ha) fun _ => ?_
  refine iteInduction (motive := p) (fun _ => ?_) fun _ => ?_
  · exact iteInduction (motive := p) (fun _ => habstractcs) fun _ => hnone
  refine iteInduction (motive := p) (fun ha => ?_) fun _ => ?_
  · exact iteInduction (motive := p) (fun hb => hcommand hp ha (Bool.not_eq_true' _ ▸ hb))
      fun _ => hnone
  refine iteInduction (motive := p) (fun _ => hsbcs) fun _ => ?_
  refine iteInduction (motive := p) (fun ha => hsbaddress0 hp ha) fun _ => ?_
  exact iteInduction (motive := p) (fun ha => hsbdata0 hp ha) fun _ => hnone

/-- A DMI write that starts nothing leaves what the engine works on. -/
theorem dmiWrite_quiet (h : s.starts i = false) :
    (s.dmiWrite i).eng = s.eng ∧ (s.dmiWrite i).absBusy = s.absBusy ∧
    (s.dmiWrite i).dmMemValid = s.dmMemValid ∧ (s.dmiWrite i).arPort = s.arPort ∧
    (s.dmiWrite i).sbPort = s.sbPort := by
  unfold starts startsCommand startsRead startsWrite at h
  refine dmiWrite_arms (p := fun d => d.eng = s.eng ∧ d.absBusy = s.absBusy ∧
    d.dmMemValid = s.dmMemValid ∧ d.arPort = s.arPort ∧ d.sbPort = s.sbPort) s i
    ⟨rfl, rfl, rfl, rfl, rfl⟩ ⟨rfl, rfl, rfl, rfl, rfl⟩ ?_ ⟨rfl, rfl, rfl, rfl, rfl⟩ ?_
    ⟨rfl, rfl, rfl, rfl, rfl⟩ ?_ ?_
  · intro _ _
    unfold writeDmcontrol
    split <;> exact ⟨rfl, rfl, rfl, rfl, rfl⟩
  · intro hp ha hb
    rw [hp, ha, hb] at h
    unfold startAccessReg
    by_cases ht : i.dmiWeData.extractLsb 31 24 = 0#8
    · rw [ht] at h
      have h17 : i.dmiWeData.getLsbD 17 = false := by
        by_contra h17
        rw [Bool.not_eq_false] at h17
        rw [h17] at h
        simp at h
      rw [if_neg (not_not_intro ht), h17]
      exact ⟨rfl, rfl, rfl, rfl, rfl⟩
    · rw [if_pos ht]
      exact ⟨rfl, rfl, rfl, rfl, rfl⟩
  · intro hp ha
    have hra : s.sbreadonaddr = false := by
      by_contra hra
      rw [Bool.not_eq_false] at hra
      rw [hp, ha, hra] at h
      simp at h
    unfold writeSbaddress0
    dsimp only
    rw [hra]
    exact ⟨rfl, rfl, rfl, rfl, rfl⟩
  · intro hp ha
    rw [hp, ha] at h
    simp at h

theorem dmiWrite_command (h : s.startsCommand i = true) :
    (s.dmiWrite i).eng = .arWait ∧ (s.dmiWrite i).absBusy = true ∧
    (s.dmiWrite i).dmMemValid = s.dmMemValid ∧ (s.dmiWrite i).arPort = s.commanded i := by
  unfold startsCommand at h
  simp only [Bool.and_eq_true, beq_iff_eq, Bool.not_eq_true'] at h
  obtain ⟨⟨⟨⟨hp, ha⟩, hb⟩, ht⟩, h17⟩ := h
  have hwrite : s.dmiWrite i =
      ({ s with dbgResumereq := false } : DebugModule).startAccessReg i.dmiWeData := by
    unfold dmiWrite
    dsimp only
    rw [hp, ha, hb]
    rfl
  rw [hwrite]
  unfold startAccessReg
  rw [if_neg (not_not.mpr ht), if_pos h17]
  exact ⟨rfl, rfl, rfl, rfl⟩

theorem dmiWrite_read (h : s.startsRead i = true) :
    (s.dmiWrite i).eng = .sbRd ∧ (s.dmiWrite i).absBusy = s.absBusy ∧
    (s.dmiWrite i).dmMemValid = true ∧ (s.dmiWrite i).sbPort = ⟨i.dmiWeData, none⟩ := by
  unfold startsRead at h
  simp only [Bool.and_eq_true, beq_iff_eq] at h
  obtain ⟨⟨hp, ha⟩, hra⟩ := h
  unfold dmiWrite writeSbaddress0
  dsimp only
  rw [hp, ha, hra]
  exact ⟨rfl, rfl, rfl, rfl⟩

theorem dmiWrite_write (h : startsWrite i = true) :
    (s.dmiWrite i).eng = .sbWr ∧ (s.dmiWrite i).absBusy = s.absBusy ∧
    (s.dmiWrite i).dmMemValid = true ∧
    (s.dmiWrite i).sbPort = ⟨s.sbaddress0, some i.dmiWeData⟩ := by
  unfold startsWrite at h
  simp only [Bool.and_eq_true, beq_iff_eq] at h
  unfold dmiWrite
  rw [h.1, h.2]
  exact ⟨rfl, rfl, rfl, rfl⟩

/-- The DMI has one address per write. -/
theorem starts_cases (s : DebugModule) (i : DmIn) :
    (s.startsCommand i = false ∧ s.startsRead i = false ∧ startsWrite i = false) ∨
    (s.startsCommand i = true ∧ s.startsRead i = false ∧ startsWrite i = false) ∨
    (s.startsCommand i = false ∧ s.startsRead i = true ∧ startsWrite i = false) ∨
    (s.startsCommand i = false ∧ s.startsRead i = false ∧ startsWrite i = true) := by
  by_cases h3 : i.dmiWeAddr = addrCommand
  · have hr : s.startsRead i = false := by
      unfold startsRead
      rw [h3, show (addrCommand == addrSbaddress0) = false from rfl, Bool.and_false,
        Bool.false_and]
    have hw : startsWrite i = false := by
      unfold startsWrite
      rw [h3, show (addrCommand == addrSbdata0) = false from rfl, Bool.and_false]
    cases hc : s.startsCommand i
    · exact .inl ⟨rfl, hr, hw⟩
    · exact .inr (.inl ⟨rfl, hr, hw⟩)
  · have hc : s.startsCommand i = false := by
      unfold startsCommand
      rw [beq_false_of_ne h3]
      simp
    by_cases h5 : i.dmiWeAddr = addrSbaddress0
    · have hw : startsWrite i = false := by
        unfold startsWrite
        rw [h5, show (addrSbaddress0 == addrSbdata0) = false from rfl, Bool.and_false]
      cases hr : s.startsRead i
      · exact .inl ⟨hc, rfl, hw⟩
      · exact .inr (.inr (.inl ⟨hc, rfl, hw⟩))
    · have hr : s.startsRead i = false := by
        unfold startsRead
        rw [beq_false_of_ne h5]
        simp
      cases hw : startsWrite i
      · exact .inl ⟨hc, hr, rfl⟩
      · exact .inr (.inr (.inr ⟨hc, hr, rfl⟩))

/-- The engine is idle. -/
theorem step_idle (hs : s.eng = .idle) : s.step i = s.dmiWrite i := by
  unfold step engine
  rw [hs]

/-- The engine waits for the hart. -/
theorem step_arWait (hs : s.eng = .arWait) :
    (s.step i).eng = (if i.dbgArDone then .idle else (s.dmiWrite i).eng) ∧
    (s.step i).absBusy = (!i.dbgArDone && (s.dmiWrite i).absBusy) ∧
    (s.step i).dmMemValid = (s.dmiWrite i).dmMemValid ∧
    (s.step i).arPort = (s.dmiWrite i).arPort := by
  unfold step engine
  rw [hs]
  dsimp only
  cases i.dbgArDone <;> exact ⟨rfl, rfl, rfl, rfl⟩

/-- The engine waits for the bus. -/
theorem step_sb (hs : s.eng = .sbRd ∨ s.eng = .sbWr) :
    (s.step i).eng = (if i.dmMemReady then .idle else (s.dmiWrite i).eng) ∧
    (s.step i).absBusy = (s.dmiWrite i).absBusy ∧ (s.step i).dmMemValid = false := by
  unfold step engine
  rcases hs with hs | hs <;> rw [hs] <;> dsimp only <;> cases i.dmMemReady <;>
    exact ⟨rfl, rfl, rfl⟩

/-- With an operation pending and none started, a clock strobes and completes. -/
theorem events_quiet (hq : s.starts i = false) :
    s.events i = (if s.dmMemValid then [.strobe s.sbPort] else []) ++
      (if s.eng == .arWait && i.dbgArDone then [.arDone s.arPort] else []) ++
      (if (s.eng == .sbRd || s.eng == .sbWr) && i.dmMemReady then [.sbDone] else []) := by
  unfold starts at hq
  rw [Bool.or_eq_false_iff, Bool.or_eq_false_iff] at hq
  unfold events
  rw [hq.1.1, hq.1.2, hq.2]
  simp

/-- **One clock** in which no operation is started over a pending one goes on with
the operation, or completes it. -/
theorem serves : Serves step events Complete Open Undisturbed := by
  intro s i cur hopen hok
  have hpending : s.eng ≠ .idle → s.starts i = false := by
    intro hne
    by_contra h
    rw [Bool.not_eq_false] at h
    exact hne (hok h)
  cases hopen with
  | idle hs hb hv =>
    left
    have hstep : s.step i = s.dmiWrite i := by
      unfold step engine
      rw [hs]
    rw [hstep]
    unfold events
    rw [hs, hv]
    rcases starts_cases s i with ⟨hc, hr, hw⟩ | ⟨hc, hr, hw⟩ | ⟨hc, hr, hw⟩ | ⟨hc, hr, hw⟩ <;>
      rw [hc, hr, hw]
    · obtain ⟨heng, hbusy, hvalid, -, -⟩ := dmiWrite_quiet (s := s) (i := i) (by
        unfold starts
        rw [hc, hr, hw]
        rfl)
      exact .idle (heng.trans hs) (hbusy.trans hb) (hvalid.trans hv)
    · obtain ⟨heng, hbusy, hvalid, hport⟩ := dmiWrite_command hc
      rw [← hport]
      exact .command heng hbusy (hvalid.trans hv)
    · obtain ⟨heng, hbusy, hvalid, hport⟩ := dmiWrite_read hr
      rw [← hport]
      exact .access (.inl heng) (hbusy.trans hb) hvalid
    · obtain ⟨heng, hbusy, hvalid, hport⟩ := dmiWrite_write hw
      rw [← hport]
      exact .access (.inr heng) (hbusy.trans hb) hvalid
  | command hs hb hv =>
    have hq := hpending (by rw [hs]; simp)
    obtain ⟨hdeng, hdbusy, hdvalid, hdport, -⟩ := dmiWrite_quiet hq
    obtain ⟨heng, hbusy, hvalid, hport⟩ := step_arWait (i := i) hs
    rw [hdeng, hs] at heng
    rw [hdbusy, hb, Bool.and_true] at hbusy
    rw [hdvalid, hv] at hvalid
    rw [hdport] at hport
    rw [events_quiet hq, hs, hv]
    cases hdone : i.dbgArDone with
    | false =>
      rw [hdone] at heng hbusy
      rw [← hport]
      exact .inl (.command heng hbusy hvalid)
    | true =>
      rw [hdone] at heng hbusy
      exact .inr ⟨_, [], rfl, .command s.arPort, .idle heng hbusy hvalid⟩
  | access hs hb hv =>
    have hq := hpending (by rcases hs with hs | hs <;> rw [hs] <;> simp)
    obtain ⟨hdeng, hdbusy, -⟩ := dmiWrite_quiet hq
    obtain ⟨heng, hbusy, hvalid⟩ := step_sb (i := i) hs
    rw [hdeng] at heng
    rw [hdbusy, hb] at hbusy
    have har : (s.eng == .arWait) = false := by
      rcases hs with hs | hs <;> rw [hs] <;> rfl
    have hsb : (s.eng == .sbRd || s.eng == .sbWr) = true := by
      rcases hs with hs | hs <;> rw [hs] <;> rfl
    rw [events_quiet hq, har, hsb, hv]
    cases hready : i.dmMemReady with
    | false =>
      rw [hready] at heng
      exact .inl (.strobed s.sbPort (hs.imp heng.trans heng.trans) hbusy hvalid)
    | true =>
      rw [hready] at heng
      exact .inr ⟨_, [], rfl, .access s.sbPort, .idle heng hbusy hvalid⟩
  | strobed a hs hb hv =>
    have hq := hpending (by rcases hs with hs | hs <;> rw [hs] <;> simp)
    obtain ⟨hdeng, hdbusy, -⟩ := dmiWrite_quiet hq
    obtain ⟨heng, hbusy, hvalid⟩ := step_sb (i := i) hs
    rw [hdeng] at heng
    rw [hdbusy, hb] at hbusy
    have har : (s.eng == .arWait) = false := by
      rcases hs with hs | hs <;> rw [hs] <;> rfl
    have hsb : (s.eng == .sbRd || s.eng == .sbWr) = true := by
      rcases hs with hs | hs <;> rw [hs] <;> rfl
    rw [events_quiet hq, har, hsb, hv]
    cases hready : i.dmMemReady with
    | false =>
      rw [hready] at heng
      exact .inl (.strobed a (hs.imp heng.trans heng.trans) hbusy hvalid)
    | true =>
      rw [hready] at heng
      exact .inr ⟨_, [], rfl, .access a, .idle heng hbusy hvalid⟩

/-! ## Runs -/

/-- What a debugger relies on at clock `n` of a run. -/
structure Integrity (ins : Nat → DmIn) (n : Nat) : Prop where
  busy : (runFrom ins n).absBusy = ((runFrom ins n).eng == .arWait)
  /-- complete operations, and the beginning of at most one more -/
  operations : ∃ cur, Sessions Complete (trace step events reset ins n) cur ∧
    ∃ t rest, Complete t ∧ t = cur ++ rest ∧ rest ≠ []
  /-- an access that is started is issued -/
  issues : ((runFrom ins n).startsRead (ins n) || startsWrite (ins n)) = true →
    (runFrom ins (n + 1)).dmMemValid = true
  /-- for one clock -/
  strobes : (runFrom ins n).dmMemValid = true → (runFrom ins (n + 1)).dmMemValid = false
  /-- an access is pending until the bus serves it, and no longer -/
  sbEnds : (runFrom ins n).eng = .sbRd ∨ (runFrom ins n).eng = .sbWr →
    (runFrom ins (n + 1)).eng = if (ins n).dmMemReady then .idle else (runFrom ins n).eng
  /-- a command is pending until the hart serves it, and no longer -/
  arEnds : (runFrom ins n).absBusy = true →
    (runFrom ins (n + 1)).absBusy = !(ins n).dbgArDone

section Run

variable {ins : Nat → DmIn} {n : Nat}

theorem runFrom_succ (n : Nat) : runFrom ins (n + 1) = (runFrom ins n).step (ins n) := rfl

/-- The engine is in one of four states. -/
theorem eng_cases (ins : Nat → DmIn) (n : Nat) :
    (runFrom ins n).eng = .idle ∨ (runFrom ins n).eng = .arWait ∨
      (runFrom ins n).eng = .sbRd ∨ (runFrom ins n).eng = .sbWr := by
  induction n with
  | zero => exact .inl rfl
  | succ n ih =>
    have hwrite : ((runFrom ins n).dmiWrite (ins n)).eng = (runFrom ins n).eng ∨
        ((runFrom ins n).dmiWrite (ins n)).eng = .arWait ∨
        ((runFrom ins n).dmiWrite (ins n)).eng = .sbRd ∨
        ((runFrom ins n).dmiWrite (ins n)).eng = .sbWr := by
      rcases starts_cases (runFrom ins n) (ins n) with ⟨hc, hr, hw⟩ | ⟨hc, -⟩ | ⟨-, hr, -⟩ |
        ⟨-, -, hw⟩
      · refine .inl (dmiWrite_quiet ?_).1
        unfold starts
        rw [hc, hr, hw]
        rfl
      · exact .inr (.inl (dmiWrite_command hc).1)
      · exact .inr (.inr (.inl (dmiWrite_read hr).1))
      · exact .inr (.inr (.inr (dmiWrite_write hw).1))
    rw [runFrom_succ]
    rcases ih with hs | hs | hs
    · rw [step_idle hs]
      rw [hs] at hwrite
      exact hwrite
    · rw [(step_arWait hs).1]
      rw [hs] at hwrite
      cases (ins n).dbgArDone
      · exact .inr (hwrite.elim .inl id)
      · exact .inl rfl
    · rw [(step_sb hs).1]
      cases (ins n).dmMemReady
      · rcases hwrite with hkeep | hwrite
        · refine .inr (.inr ?_)
          show (dmiWrite _ _).eng = _ ∨ (dmiWrite _ _).eng = _
          rw [hkeep]
          exact hs
        · exact .inr hwrite
      · exact .inl rfl

/-- While no operation is started over a pending one, the engine keeps its
integrity. -/
theorem integrity (hok : ∀ k ≤ n, Undisturbed (runFrom ins k) (ins k)) : Integrity ins n := by
  have h0 : Open reset [] := .idle rfl rfl rfl
  obtain ⟨cur, hl, hopen⟩ := serves.run h0 n fun k hk => hok k (Nat.le_of_lt hk)
  have hopen : Open (runFrom ins n) cur := hopen
  have hpending : (runFrom ins n).eng ≠ .idle → (runFrom ins n).starts (ins n) = false := by
    intro hne
    by_contra h
    rw [Bool.not_eq_false] at h
    exact hne (hok n (Nat.le_refl n) h)
  have hbus : (runFrom ins n).eng = .sbRd ∨ (runFrom ins n).eng = .sbWr →
      (runFrom ins n).eng ≠ .idle := by
    rintro (h | h) <;> rw [h] <;> simp
  refine ⟨hopen.busy, ⟨cur, hl, hopen.begins⟩, ?_, ?_, ?_, ?_⟩
  · intro hst
    have hs : (runFrom ins n).eng = .idle := by
      refine hok n (Nat.le_refl n) ?_
      unfold starts
      rw [Bool.or_assoc, hst, Bool.or_true]
    rw [runFrom_succ, step_idle hs]
    rw [Bool.or_eq_true] at hst
    rcases hst with hr | hw
    · exact (dmiWrite_read hr).2.2.1
    · exact (dmiWrite_write hw).2.2.1
  · intro hv
    cases hopen with
    | idle _ _ h | command _ _ h | strobed _ _ _ h => exact absurd (hv.symm.trans h) (by simp)
    | access hs _ _ => exact (step_sb hs).2.2
  · intro hs
    rw [runFrom_succ, (step_sb hs).1, (dmiWrite_quiet (hpending (hbus hs))).1]
  · intro hb
    have hs : (runFrom ins n).eng = .arWait := by
      rw [hopen.busy] at hb
      exact beq_iff_eq.mp hb
    have hq := hpending (by rw [hs]; simp)
    rw [runFrom_succ, (step_arWait hs).2.1, (dmiWrite_quiet hq).2.1, hb, Bool.and_true]

/-- Where an operation is started over a pending one, the integrity breaks in that
clock or the next. -/
theorem undisturbed (h : ∀ k, Integrity ins k) : Undisturbed (runFrom ins n) (ins n) := by
  intro hst
  by_contra hne
  have hissue := (h n).issues
  rcases eng_cases ins n with hs | hs | hs
  · exact hne hs
  · -- a command is pending: only an access can have been started
    have hb : (runFrom ins n).absBusy = true := by
      rw [(h n).busy, hs]
      rfl
    rcases starts_cases (runFrom ins n) (ins n) with ⟨hc, hr, hw⟩ | ⟨hc, -⟩ | hacc
    · unfold starts at hst
      rw [hc, hr, hw] at hst
      cases hst
    · unfold startsCommand at hc
      rw [hb] at hc
      simp at hc
    · have hwrite : ((runFrom ins n).startsRead (ins n) || startsWrite (ins n)) = true ∧
          (((runFrom ins n).dmiWrite (ins n)).eng = .sbRd ∨
            ((runFrom ins n).dmiWrite (ins n)).eng = .sbWr) ∧
          ((runFrom ins n).dmiWrite (ins n)).absBusy = true := by
        rcases hacc with ⟨-, hr, -⟩ | ⟨-, -, hw⟩
        · obtain ⟨heng, hbusy, -⟩ := dmiWrite_read hr
          exact ⟨by rw [hr]; rfl, .inl heng, hbusy.trans hb⟩
        · obtain ⟨heng, hbusy, -⟩ := dmiWrite_write hw
          exact ⟨by rw [hw, Bool.or_true], .inr heng, hbusy.trans hb⟩
      obtain ⟨hstart, hweng, hwbusy⟩ := hwrite
      obtain ⟨heng, hbusy, -⟩ := step_arWait (i := ins n) hs
      rw [← runFrom_succ] at heng hbusy
      cases hdone : (ins n).dbgArDone with
      | false =>
        -- the engine turns to the access, and `abs_busy` stays
        rw [hdone] at heng hbusy
        have hbad := (h (n + 1)).busy
        rw [hbusy, heng, hwbusy] at hbad
        rcases hweng with hw | hw <;> rw [hw] at hbad <;> cases hbad
      | true =>
        -- the engine is idle, and nothing takes `dm_mem_valid` back
        rw [hdone] at heng
        have hv := hissue hstart
        have hv' := (h (n + 1)).strobes hv
        rw [runFrom_succ, step_idle heng] at hv'
        rcases starts_cases (runFrom ins (n + 1)) (ins (n + 1)) with
          ⟨hc, hr, hw⟩ | ⟨hc, -⟩ | ⟨-, hr, -⟩ | ⟨-, -, hw⟩
        · have hq : (runFrom ins (n + 1)).starts (ins (n + 1)) = false := by
            unfold starts
            rw [hc, hr, hw]
            rfl
          rw [(dmiWrite_quiet hq).2.2.1, hv] at hv'
          cases hv'
        · rw [(dmiWrite_command hc).2.2.1, hv] at hv'
          cases hv'
        · rw [(dmiWrite_read hr).2.2.1] at hv'
          cases hv'
        · rw [(dmiWrite_write hw).2.2.1] at hv'
          cases hv'
  · -- an access is pending, so `dm_mem_valid` falls: only a command can be started
    obtain ⟨heng, hbusy, hvalid⟩ := step_sb (i := ins n) hs
    rw [← runFrom_succ] at heng hbusy hvalid
    have hacc : ((runFrom ins n).startsRead (ins n) || startsWrite (ins n)) = false := by
      by_contra hacc
      rw [Bool.not_eq_false] at hacc
      exact absurd (hvalid.symm.trans (hissue hacc)) (by simp)
    unfold starts at hst
    rw [Bool.or_assoc, hacc, Bool.or_false] at hst
    obtain ⟨hweng, hwbusy, -⟩ := dmiWrite_command hst
    have hends := (h n).sbEnds hs
    cases hready : (ins n).dmMemReady with
    | false =>
      rw [hready, heng, hready] at hends
      rcases hs with hs | hs <;> rw [hs] at hends <;> exact absurd (hweng.symm.trans hends) (by simp)
    | true =>
      rw [hready] at heng
      have hbad := (h (n + 1)).busy
      rw [hbusy, heng, hwbusy] at hbad
      cases hbad

/-- **When the engine keeps its integrity**: in exactly the runs in which no DMI
write starts an operation over a pending one. -/
theorem engine_integrity_iff (ins : Nat → DmIn) :
    (∀ n, Integrity ins n) ↔ ∀ n, Undisturbed (runFrom ins n) (ins n) :=
  ⟨fun h _ => undisturbed h, fun h _ => integrity fun k _ => h k⟩

end Run

/-- A debugger that starts a GPR read while the hart runs, and writes memory 200
clocks later. -/
def overrun (n : Nat) : DmIn :=
  if n = 0 then { dmiWePulse := true, dmiWeAddr := addrCommand, dmiWeData := 0x00221001#32 }
  else if n = 200 then { dmiWePulse := true, dmiWeAddr := addrSbdata0, dmiWeData := 0x1234#32 }
  else {}

/-- The command is forgotten and `abs_busy` stays. -/
theorem engine_forgets_command : ¬ ∀ (ins : Nat → DmIn) (n : Nat), Integrity ins n := by
  intro h
  have hbusy := (h overrun 201).busy
  revert hbusy
  decide +kernel

end ThreeSippEs.DebugModule
