import ThreeSippEs.Debug.Engine
import ThreeSippEs.Soc.Soc

/-!
# System Bus block transfers

The Debug Module on the memories of the SoC, over a session of a debugger. Writes of
`sbdata0` go to consecutive words. Reads of it do not: `sbreadondata` is kept and
shown, and nothing looks at it.

- `SbSys`: the Debug Module and the memories, clock by clock;
- `ReadSession`, `WriteSession`: what the debugger does in a block transfer;
- `block_transfer_iff`: the transfers move consecutive words exactly when the words
  of the block that is read are all equal.
-/

namespace ThreeSippEs

open Clocked AlignedBlock DebugModule

/-- The Debug Module and the SoC around it. -/
structure SbSys where
  dm : DebugModule
  soc : Soc

/-- The rest of their inputs in one clock. -/
structure SbIn where
  dm : DmIn := {}
  port : SocIn := {}
  deriving DecidableEq

namespace SbSys

variable (P : SocParams) (s : SbSys) (i : SbIn)

/-- The answer of the memories. -/
def dmIn : DmIn :=
  { i.dm with dmMemRdata := s.soc.dmMemRdata, dmMemReady := s.soc.dmMemReady }

/-- The System Bus port. -/
def socIn : SocIn :=
  { i.port with
    dmMemValid := s.dm.dmMemValid
    dmMemWrite := s.dm.dmMemWrite
    dmMemAddr := s.dm.dmMemAddr
    dmMemWdata := s.dm.dmMemWdata }

/-- One clock. -/
def step : SbSys where
  dm := s.dm.step (s.dmIn i)
  soc := s.soc.step P (s.socIn i)

/-- The accesses on the System Bus port. -/
def accesses (s : SbSys) (_ : SbIn) : List SbAccess :=
  if s.dm.dmMemValid then [s.dm.sbPort] else []

/-- No bus access is under way. -/
structure Quiet : Prop where
  eng : s.dm.eng = .idle
  valid : s.dm.dmMemValid = false
  ready : s.soc.dmMemReady = false

/-- The hart leaves the memories alone, and the SoC is not reset. -/
structure Calm (i : SbIn) : Prop where
  rst : i.port.rst = false
  dmemWe : i.port.dmemWe = false

end SbSys

namespace BlockTransfer

open SbSys

/-! ## Sessions -/

section Sessions

variable (P : SocParams) (s : SbSys) (ins : Nat → SbIn)

/-- The system after `n` clocks. -/
def sys (n : Nat) : SbSys := run (SbSys.step P) s ins n

/-- Address `A + 4 * k`. -/
def wordAddr (A : Word) (k : Nat) : Word := A + BitVec.ofNat 32 (4 * k)

/-- A register of the Debug Module as a DMI read shows it. -/
def dmi (a : BitVec 7) (n : Nat) : Word := (sys P s ins n).dm.dmRead (ins n).dm.dbgHalted a

/-- The debugger writes `A` to `sbaddress0` in the first clock, with the three modes
set, and reads `sbdata0` in the clocks `at 0`, `at 1`, .. -/
structure ReadSession (A : Word) (clk : Nat → Nat) (n : Nat) : Prop where
  quiet : SbSys.Quiet s
  sbreadonaddr : (dmi P s ins addrSbcs 0).getLsbD 20 = true
  sbautoincrement : (dmi P s ins addrSbcs 0).getLsbD 16 = true
  sbreadondata : (dmi P s ins addrSbcs 0).getLsbD 15 = true
  start : (ins 0).dm.dmiWePulse = true ∧ (ins 0).dm.dmiWeAddr = addrSbaddress0 ∧
    (ins 0).dm.dmiWeData = A
  only : ∀ k, (ins (k + 1)).dm.dmiWePulse = false
  calm : ∀ k, SbSys.Calm (ins k)
  /-- each read after the previous bus access has completed -/
  after : ∀ k < n, 0 < clk k ∧ SbSys.Quiet (sys P s ins (clk k))
  ordered : ∀ k, k + 1 < n → clk k < clk (k + 1)

/-- The data of the DMI writes before clock `n`. -/
def written (n : Nat) : List Word :=
  (List.range n).filterMap fun k =>
    if (ins k).dm.dmiWePulse then some (ins k).dm.dmiWeData else none

/-- The debugger writes `vs` to `sbdata0` in the first `N` clocks, with
`sbautoincrement` set and `sbaddress0 = A`. -/
structure WriteSession (A : Word) (vs : List Word) (N : Nat) : Prop where
  quiet : SbSys.Quiet s
  sbautoincrement : (dmi P s ins addrSbcs 0).getLsbD 16 = true
  sbaddress0 : dmi P s ins addrSbaddress0 0 = A
  calm : ∀ k < N, SbSys.Calm (ins k)
  /-- each write after the previous bus access has completed -/
  only : ∀ k < N, (ins k).dm.dmiWePulse = true →
    (ins k).dm.dmiWeAddr = addrSbdata0 ∧ SbSys.Quiet (sys P s ins k)
  values : written ins N = vs
  done : SbSys.Quiet (sys P s ins N)

/-- The debugger's view of a read block: the words of the memory from `A` on. -/
def Reads (A : Word) (clk : Nat → Nat) (n : Nat) : Prop :=
  ∀ k < n, dmi P s ins addrSbdata0 (clk k) = s.soc.dmWord P (wordAddr A k)

/-- A word of the memories is at `a`. -/
def mapped (a : Word) : Bool := P.inDram a || P.inImem a

/-- The values of a block are stored from `A` on. -/
structure Stored (A : Word) (vs : List Word) (N : Nat) : Prop where
  /-- one access for each value, in order -/
  bus : trace (SbSys.step P) accesses s ins N =
    (List.range vs.length).map fun k => ⟨wordAddr A k, vs[k]?⟩
  /-- the word holds the last value that goes to it -/
  stored : ∀ k (hk : k < vs.length), mapped P (wordAddr A k) = true →
    (∀ j < vs.length, k < j → wordOf (wordAddr A j) ≠ wordOf (wordAddr A k)) →
    (sys P s ins N).soc.dmWord P (wordAddr A k) = vs[k]
  /-- no other word is touched -/
  others : ∀ a, (∀ k < vs.length, wordOf (wordAddr A k) ≠ wordOf a) →
    (sys P s ins N).soc.dmWord P a = s.soc.dmWord P a
  advanced : dmi P s ins addrSbaddress0 N = wordAddr A vs.length

end Sessions

/-- `sbcs` reports the modes. -/
theorem sbcs_modes (d : DebugModule) (halted : Bool) :
    (d.dmRead halted addrSbcs).getLsbD 20 = d.sbreadonaddr ∧
    (d.dmRead halted addrSbcs).getLsbD 16 = d.sbautoincrement ∧
    (d.dmRead halted addrSbcs).getLsbD 15 = d.sbreadondata := by
  have hbits : ∀ (a b c : Bool) (x y : BitVec 3),
      (1#3 ++ 0#8 ++ BitVec.ofBool a ++ x ++ BitVec.ofBool b ++ BitVec.ofBool c ++ y ++ 32#7 ++
        0b00100#5).getLsbD 20 = a ∧
      (1#3 ++ 0#8 ++ BitVec.ofBool a ++ x ++ BitVec.ofBool b ++ BitVec.ofBool c ++ y ++ 32#7 ++
        0b00100#5).getLsbD 16 = b ∧
      (1#3 ++ 0#8 ++ BitVec.ofBool a ++ x ++ BitVec.ofBool b ++ BitVec.ofBool c ++ y ++ 32#7 ++
        0b00100#5).getLsbD 15 = c := by
    decide +kernel
  exact hbits ..

/-! ## The memories -/

section Memories

variable {P : SocParams} {s : SbSys} {i : SbIn}

/-- Without a data write only the System Bus port and time act. -/
theorem soc_step (h : SbSys.Calm i) :
    (s.step P i).soc =
      { s.soc.dmAccess P (s.socIn i) (s.soc.tick (s.socIn i)) with
        uart := s.soc.uart.step (Soc.uartBus P (s.socIn i)) true } := by
  have hwrite : ∀ d, s.soc.dataWrite P (s.socIn i) d = d := by
    intro d
    unfold Soc.dataWrite
    rw [show (s.socIn i).dmemWe = false from h.dmemWe, if_neg Bool.false_ne_true]
  show s.soc.step P (s.socIn i) = _
  unfold Soc.step
  rw [hwrite, show (s.socIn i).rst = false from h.rst, if_neg Bool.false_ne_true]

/-- A write to DRAM replaces one word. -/
theorem dmWord_dram (d : Soc) {a : Word} (v : Word) (b : Word) (ha : P.inDram a = true) :
    ({ d with dram := Function.update d.dram (P.dramIdx a) v } : Soc).dmWord P b =
      if wordOf a = wordOf b then v else d.dmWord P b := by
  unfold Soc.dmWord
  by_cases hw : wordOf a = wordOf b
  · have hb : P.inDram b = true := (SocParams.inDram_congr hw).symm.trans ha
    rw [if_pos hw, if_pos hb, (SocParams.dramIdx_inj ha hb).mpr hw]
    exact Function.update_self ..
  · rw [if_neg hw]
    cases hb : P.inDram b with
    | false => rfl
    | true =>
      have hne : P.dramIdx b ≠ P.dramIdx a := fun h =>
        hw ((SocParams.dramIdx_inj ha hb).mp h.symm)
      exact Function.update_of_ne hne ..

/-- So does a write to IMEM. -/
theorem dmWord_imem (d : Soc) {a : Word} (v : Word) (b : Word) (hd : P.inDram a = false)
    (ha : P.inImem a = true) :
    ({ d with imem := Function.update d.imem (P.imemIdx a) v } : Soc).dmWord P b =
      if wordOf a = wordOf b then v else d.dmWord P b := by
  unfold Soc.dmWord
  by_cases hw : wordOf a = wordOf b
  · have hdb : P.inDram b = false := (SocParams.inDram_congr hw).symm.trans hd
    have hb : P.inImem b = true := (SocParams.inImem_congr hw).symm.trans ha
    rw [if_pos hw, hdb, if_neg Bool.false_ne_true, if_pos hb, (SocParams.imemIdx_inj ha hb).mpr hw]
    exact Function.update_self ..
  · rw [if_neg hw]
    cases hb : P.inImem b with
    | false => rfl
    | true =>
      have hne : P.imemIdx b ≠ P.imemIdx a := fun h =>
        hw ((SocParams.imemIdx_inj ha hb).mp h.symm)
      dsimp only
      rw [Function.update_of_ne hne]

/-- The port of the Debug Module is the only one that writes. -/
theorem dmWord_step (h : SbSys.Calm i) (b : Word) :
    (s.step P i).soc.dmWord P b =
      if s.dm.dmMemValid = true ∧ s.dm.dmMemWrite = true ∧ mapped P s.dm.dmMemAddr = true ∧
          wordOf s.dm.dmMemAddr = wordOf b then
        s.dm.dmMemWdata
      else s.soc.dmWord P b := by
  have htick : (s.soc.tick (s.socIn i)).dmWord P b = s.soc.dmWord P b := by
    unfold Soc.dmWord
    rw [(Soc.tick_memories _ _).1, (Soc.tick_memories _ _).2]
  rw [soc_step h, ← htick]
  generalize s.soc.tick (s.socIn i) = d
  show (s.soc.dmAccess P (s.socIn i) d).dmWord P b = _
  unfold Soc.dmAccess mapped
  rw [show (s.socIn i).dmMemValid = s.dm.dmMemValid from rfl,
    show (s.socIn i).dmMemWrite = s.dm.dmMemWrite from rfl,
    show (s.socIn i).dmMemAddr = s.dm.dmMemAddr from rfl,
    show (s.socIn i).dmMemWdata = s.dm.dmMemWdata from rfl]
  cases s.dm.dmMemValid with
  | false =>
    rw [if_neg Bool.false_ne_true, if_neg fun h => Bool.false_ne_true h.1]
    rfl
  | true =>
    cases s.dm.dmMemWrite with
    | false =>
      rw [if_pos rfl, if_neg Bool.false_ne_true, if_neg fun h => Bool.false_ne_true h.2.1]
      rfl
    | true =>
      rw [if_pos rfl, if_pos rfl]
      cases hd : P.inDram s.dm.dmMemAddr with
      | true =>
        rw [if_pos rfl]
        refine (dmWord_dram { d with dmMemReady := true } _ b hd).trans (if_congr ?_ rfl rfl)
        exact ⟨fun hw => ⟨rfl, rfl, rfl, hw⟩, fun hw => hw.2.2.2⟩
      | false =>
        rw [if_neg Bool.false_ne_true]
        cases hm : P.inImem s.dm.dmMemAddr with
        | true =>
          rw [if_pos rfl]
          refine (dmWord_imem { d with dmMemReady := true } _ b hd hm).trans (if_congr ?_ rfl rfl)
          exact ⟨fun hw => ⟨rfl, rfl, rfl, hw⟩, fun hw => hw.2.2.2⟩
        | false =>
          rw [if_neg Bool.false_ne_true, if_neg fun h => Bool.false_ne_true h.2.2.1]
          rfl

theorem ready_step (h : SbSys.Calm i) : (s.step P i).soc.dmMemReady = s.dm.dmMemValid := by
  rw [soc_step h]
  show (s.soc.dmAccess P (s.socIn i) _).dmMemReady = _
  unfold Soc.dmAccess
  rw [show (s.socIn i).dmMemValid = s.dm.dmMemValid from rfl]
  cases s.dm.dmMemValid with
  | false => rfl
  | true =>
    rw [if_pos rfl]
    split_ifs <;> rfl

/-- A read is answered in the next clock. -/
theorem rdata_step (h : SbSys.Calm i) (hv : s.dm.dmMemValid = true) (hw : s.dm.dmMemWrite = false) :
    (s.step P i).soc.dmMemRdata = s.soc.dmWord P s.dm.dmMemAddr := by
  rw [soc_step h]
  show (s.soc.dmAccess P (s.socIn i) _).dmMemRdata = _
  unfold Soc.dmAccess
  rw [show (s.socIn i).dmMemValid = true from hv, show (s.socIn i).dmMemWrite = false from hw]
  rfl

end Memories

/-! ## The engine -/

section Engine

variable {P : SocParams} {s : SbSys} {i : SbIn}

/-- Without a DMI write only the engine acts. -/
theorem dm_engine (hp : i.dm.dmiWePulse = false) :
    (s.step P i).dm = s.dm.engine (s.dmIn i) { s.dm with dbgResumereq := false } := by
  have hwrite : s.dm.dmiWrite (s.dmIn i) = { s.dm with dbgResumereq := false } := by
    unfold DebugModule.dmiWrite
    rw [show (s.dmIn i).dmiWePulse = false from hp]
    rfl
  rw [← hwrite]
  rfl

theorem dm_idles (hp : i.dm.dmiWePulse = false) (he : s.dm.eng = .idle) :
    (s.step P i).dm = { s.dm with dbgResumereq := false } := by
  rw [dm_engine hp]
  unfold DebugModule.engine
  rw [he]

/-- It takes back the strobe. -/
theorem dm_waits (hp : i.dm.dmiWePulse = false) (he : s.dm.eng = .sbRd ∨ s.dm.eng = .sbWr)
    (hr : s.soc.dmMemReady = false) :
    (s.step P i).dm = { s.dm with dbgResumereq := false, dmMemValid := false } := by
  have hwaits : ∀ d : DebugModule,
      s.dm.engine (s.dmIn i) d = { d with dmMemValid := false } := by
    intro d
    unfold DebugModule.engine
    rw [show (s.dmIn i).dmMemReady = false from hr]
    rcases he with he | he <;> rw [he] <;> rfl
  rw [dm_engine hp, hwaits]

/-- It advances the address when a write is answered. -/
theorem dm_written (hp : i.dm.dmiWePulse = false) (he : s.dm.eng = .sbWr)
    (hr : s.soc.dmMemReady = true) (hinc : s.dm.sbautoincrement = true) :
    (s.step P i).dm =
      { s.dm with
        dbgResumereq := false
        dmMemValid := false
        sbaddress0 := s.dm.sbaddress0 + 4#32
        eng := .idle } := by
  have hdone : ∀ d : DebugModule, s.dm.engine (s.dmIn i) d =
      { d with dmMemValid := false, sbaddress0 := s.dm.sbaddress0 + 4#32, eng := .idle } := by
    intro d
    unfold DebugModule.engine
    rw [show (s.dmIn i).dmMemReady = true from hr, he, hinc]
    rfl
  rw [dm_engine hp, hdone]

/-- So it does when a read is answered. -/
theorem dm_read (hp : i.dm.dmiWePulse = false) (he : s.dm.eng = .sbRd)
    (hr : s.soc.dmMemReady = true) (hinc : s.dm.sbautoincrement = true) :
    (s.step P i).dm =
      { s.dm with
        dbgResumereq := false
        dmMemValid := false
        sbdata0 := s.soc.dmMemRdata
        sbaddress0 := s.dm.sbaddress0 + 4#32
        eng := .idle } := by
  have hdone : ∀ d : DebugModule, s.dm.engine (s.dmIn i) d =
      { d with
        dmMemValid := false
        sbdata0 := s.soc.dmMemRdata
        sbaddress0 := s.dm.sbaddress0 + 4#32
        eng := .idle } := by
    intro d
    unfold DebugModule.engine
    rw [show (s.dmIn i).dmMemReady = true from hr, he, hinc]
    rfl
  rw [dm_engine hp, hdone]

/-- A DMI write of `sbdata0` starts a write. -/
theorem dm_writes (he : s.dm.eng = .idle) (hp : i.dm.dmiWePulse = true)
    (ha : i.dm.dmiWeAddr = addrSbdata0) :
    (s.step P i).dm =
      ({ s.dm with dbgResumereq := false } : DebugModule).writeSbdata0 i.dm.dmiWeData := by
  show s.dm.step (s.dmIn i) = _
  rw [step_idle he]
  unfold DebugModule.dmiWrite
  rw [show (s.dmIn i).dmiWePulse = true from hp, show (s.dmIn i).dmiWeAddr = addrSbdata0 from ha]
  rfl

/-- A DMI write of `sbaddress0` starts a read. -/
theorem dm_reads (he : s.dm.eng = .idle) (hr : s.dm.sbreadonaddr = true)
    (hp : i.dm.dmiWePulse = true) (ha : i.dm.dmiWeAddr = addrSbaddress0) :
    (s.step P i).dm =
      { s.dm with
        dbgResumereq := false
        sbaddress0 := i.dm.dmiWeData
        dmMemValid := true
        dmMemWrite := false
        dmMemAddr := i.dm.dmiWeData
        eng := .sbRd } := by
  show s.dm.step (s.dmIn i) = _
  rw [step_idle he]
  unfold DebugModule.dmiWrite
  rw [show (s.dmIn i).dmiWePulse = true from hp, show (s.dmIn i).dmiWeAddr = addrSbaddress0 from ha]
  show ({ s.dm with dbgResumereq := false } : DebugModule).writeSbaddress0 i.dm.dmiWeData = _
  unfold DebugModule.writeSbaddress0
  dsimp only
  rw [hr, if_pos rfl]

end Engine

/-! ## Blocks -/

section Blocks

variable (P : SocParams)

/-- A memory after a word write. -/
def storeWord (m : Word → Word) (a v : Word) : Word → Word := fun b =>
  if mapped P a = true ∧ wordOf a = wordOf b then v else m b

/-- A memory after the word writes `as`. -/
def storeAll (m : Word → Word) (as : List SbAccess) : Word → Word :=
  as.foldl (fun m a => storeWord P m a.addr (a.wdata.getD 0#32)) m

/-- The accesses that store `vs` from `A` on. -/
def block (A : Word) (vs : List Word) : List SbAccess :=
  (List.range vs.length).map fun k => ⟨wordAddr A k, vs[k]?⟩

variable {P} {A : Word}

theorem block_append (A : Word) (vs : List Word) (v : Word) :
    block A (vs ++ [v]) = block A vs ++ [⟨wordAddr A vs.length, some v⟩] := by
  unfold block
  rw [List.length_append, List.length_singleton, List.range_succ, List.map_append,
    List.map_singleton, List.getElem?_concat_length]
  congr 1
  refine List.map_congr_left fun k hk => ?_
  rw [List.getElem?_append_left (List.mem_range.mp hk)]

theorem storeAll_append (m : Word → Word) (as : List SbAccess) (a v : Word) :
    storeAll P m (as ++ [⟨a, some v⟩]) = storeWord P (storeAll P m as) a v := by
  unfold storeAll
  rw [List.foldl_append]
  rfl

/-- No other word is touched. -/
theorem storeAll_others (m : Word → Word) (vs : List Word) (b : Word)
    (h : ∀ k < vs.length, wordOf (wordAddr A k) ≠ wordOf b) :
    storeAll P m (block A vs) b = m b := by
  induction vs using List.reverseRecOn with
  | nil => rfl
  | append_singleton vs v ih =>
    rw [List.length_append, List.length_singleton] at h
    rw [block_append, storeAll_append]
    unfold storeWord
    rw [if_neg fun hw => h vs.length (Nat.lt_succ_self _) hw.2]
    exact ih fun k hk => h k (Nat.lt_succ_of_lt hk)

/-- The word holds the last value that goes to it. -/
theorem storeAll_stored (m : Word → Word) (vs : List Word) {k : Nat} (hk : k < vs.length)
    (hm : mapped P (wordAddr A k) = true)
    (hlast : ∀ j < vs.length, k < j → wordOf (wordAddr A j) ≠ wordOf (wordAddr A k)) :
    storeAll P m (block A vs) (wordAddr A k) = vs[k] := by
  induction vs using List.reverseRecOn with
  | nil => exact absurd hk (Nat.not_lt_zero k)
  | append_singleton vs v ih =>
    rw [List.length_append, List.length_singleton] at hk hlast
    rw [block_append, storeAll_append]
    unfold storeWord
    rcases Nat.lt_succ_iff_lt_or_eq.mp hk with hlt | rfl
    · rw [if_neg fun hw => hlast vs.length (Nat.lt_succ_self _) hlt hw.2,
        ih hlt fun j hj => hlast j (Nat.lt_succ_of_lt hj), List.getElem_append_left hlt]
    · rw [if_pos ⟨hm, rfl⟩, List.getElem_concat_length rfl]

theorem wordAddr_succ (A : Word) (k : Nat) : wordAddr A (k + 1) = wordAddr A k + 4#32 := by
  unfold wordAddr
  rw [Nat.mul_succ, BitVec.ofNat_add, ← BitVec.add_assoc]

end Blocks

/-! ## Writing a block -/

section Write

variable (P : SocParams) (m : Word → Word) (A : Word)

/-- Between the accesses: `vs` has been stored. -/
structure Resting (vs : List Word) (s : SbSys) : Prop where
  quiet : SbSys.Quiet s
  inc : s.dm.sbautoincrement = true
  addr : s.dm.sbaddress0 = wordAddr A vs.length
  memory : s.soc.dmWord P = storeAll P m (block A vs)

/-- The bus is strobed with the next value. -/
structure Strobing (vs : List Word) (v : Word) (s : SbSys) : Prop where
  eng : s.dm.eng = .sbWr
  valid : s.dm.dmMemValid = true
  ready : s.soc.dmMemReady = false
  port : s.dm.sbPort = ⟨wordAddr A vs.length, some v⟩
  inc : s.dm.sbautoincrement = true
  addr : s.dm.sbaddress0 = wordAddr A vs.length
  memory : s.soc.dmWord P = storeAll P m (block A vs)

/-- It has been stored, and the engine does not know yet. -/
structure Answered (vs : List Word) (v : Word) (s : SbSys) : Prop where
  eng : s.dm.eng = .sbWr
  valid : s.dm.dmMemValid = false
  ready : s.soc.dmMemReady = true
  inc : s.dm.sbautoincrement = true
  addr : s.dm.sbaddress0 = wordAddr A vs.length
  memory : s.soc.dmWord P = storeAll P m (block A (vs ++ [v]))

/-- The values `vs` have been written to `sbdata0`, and the accesses `out` have been
seen on the bus. -/
inductive Writing (vs : List Word) (out : List SbAccess) (s : SbSys) : Prop where
  | resting (h : Resting P m A vs s) (hout : out = block A vs)
  | strobing (pre : List Word) (v : Word) (hvs : vs = pre ++ [v]) (h : Strobing P m A pre v s)
      (hout : out = block A pre)
  | answered (pre : List Word) (v : Word) (hvs : vs = pre ++ [v]) (h : Answered P m A pre v s)
      (hout : out = block A vs)

variable {P m A} {s : SbSys} {i : SbIn} {vs pre : List Word} {v : Word}

/-- Nothing is stored without a strobe. -/
theorem memory_kept (hc : SbSys.Calm i) (hv : s.dm.dmMemValid = false) :
    (s.step P i).soc.dmWord P = s.soc.dmWord P := by
  funext b
  rw [dmWord_step hc, if_neg fun h => Bool.false_ne_true (hv.symm.trans h.1)]

/-- Between the accesses nothing happens. -/
theorem Resting.stays (h : Resting P m A vs s) (hc : SbSys.Calm i) (hp : i.dm.dmiWePulse = false) :
    Resting P m A vs (s.step P i) := by
  have hdm := dm_idles (P := P) hp h.quiet.eng
  refine ⟨⟨?_, ?_, ?_⟩, ?_, ?_, ?_⟩
  · rw [hdm]
    exact h.quiet.eng
  · rw [hdm]
    exact h.quiet.valid
  · rw [ready_step hc]
    exact h.quiet.valid
  · rw [hdm]
    exact h.inc
  · rw [hdm]
    exact h.addr
  · rw [memory_kept hc h.quiet.valid]
    exact h.memory

/-- A write of `sbdata0` strobes the bus in the next clock. -/
theorem Resting.writes (h : Resting P m A vs s) (hc : SbSys.Calm i) (hp : i.dm.dmiWePulse = true)
    (ha : i.dm.dmiWeAddr = addrSbdata0) :
    Strobing P m A vs i.dm.dmiWeData (s.step P i) := by
  have hdm := dm_writes (P := P) h.quiet.eng hp ha
  refine ⟨?_, ?_, ?_, ?_, ?_, ?_, ?_⟩
  · rw [hdm]
    rfl
  · rw [hdm]
    rfl
  · rw [ready_step hc]
    exact h.quiet.valid
  · rw [hdm, ← h.addr]
    rfl
  · rw [hdm]
    exact h.inc
  · rw [hdm]
    exact h.addr
  · rw [memory_kept hc h.quiet.valid]
    exact h.memory

/-- A strobe stores the value. -/
theorem Strobing.stores (h : Strobing P m A pre v s) (hc : SbSys.Calm i)
    (hp : i.dm.dmiWePulse = false) : Answered P m A pre v (s.step P i) := by
  have hdm := dm_waits (P := P) hp (.inr h.eng) h.ready
  have hport := h.port
  unfold sbPort at hport
  obtain ⟨haddr, hdata⟩ := SbAccess.mk.inj hport
  have hwrite : s.dm.dmMemWrite = true := by
    by_contra hw
    rw [if_neg hw] at hdata
    cases hdata
  rw [if_pos hwrite, Option.some.injEq] at hdata
  refine ⟨?_, ?_, ?_, ?_, ?_, ?_⟩
  · rw [hdm]
    exact h.eng
  · rw [hdm]
  · rw [ready_step hc]
    exact h.valid
  · rw [hdm]
    exact h.inc
  · rw [hdm]
    exact h.addr
  · funext b
    rw [block_append, storeAll_append, dmWord_step hc, haddr, hdata, h.memory]
    unfold storeWord
    exact if_congr ⟨fun hw => hw.2.2, fun hw => ⟨h.valid, hwrite, hw⟩⟩ rfl rfl

/-- The answer advances the address. -/
theorem Answered.rests (h : Answered P m A pre v s) (hc : SbSys.Calm i)
    (hp : i.dm.dmiWePulse = false) : Resting P m A (pre ++ [v]) (s.step P i) := by
  have hdm := dm_written (P := P) hp h.eng h.ready h.inc
  refine ⟨⟨?_, ?_, ?_⟩, ?_, ?_, ?_⟩
  · rw [hdm]
  · rw [hdm]
  · rw [ready_step hc]
    exact h.valid
  · rw [hdm]
    exact h.inc
  · rw [hdm, List.length_append, List.length_singleton, wordAddr_succ, ← h.addr]
  · rw [memory_kept hc h.valid]
    exact h.memory

/-- One clock of a write session. -/
theorem Writing.step {out : List SbAccess} (h : Writing P m A vs out s) (hc : SbSys.Calm i)
    (hp : i.dm.dmiWePulse = true → i.dm.dmiWeAddr = addrSbdata0 ∧ SbSys.Quiet s) :
    Writing P m A (vs ++ if i.dm.dmiWePulse then [i.dm.dmiWeData] else [])
      (out ++ accesses s i) (s.step P i) := by
  unfold accesses
  cases hpulse : i.dm.dmiWePulse with
  | true =>
    -- the debugger writes when the engine is idle, so only `resting` remains
    obtain ⟨ha, hquiet⟩ := hp hpulse
    rw [if_pos rfl, hquiet.valid, if_neg Bool.false_ne_true, List.append_nil]
    cases h with
    | resting h hout => exact .strobing vs _ rfl (h.writes hc hpulse ha) hout
    | strobing pre v _ h => exact absurd (hquiet.eng.symm.trans h.eng) (by decide)
    | answered pre v _ h => exact absurd (hquiet.eng.symm.trans h.eng) (by decide)
  | false =>
    rw [if_neg Bool.false_ne_true, List.append_nil]
    cases h with
    | resting h hout =>
      rw [h.quiet.valid, if_neg Bool.false_ne_true, List.append_nil]
      exact .resting (h.stays hc hpulse) hout
    | strobing pre v hvs h hout =>
      rw [h.valid, if_pos rfl, h.port]
      refine .answered pre v hvs (h.stores hc hpulse) ?_
      rw [hvs, block_append, hout]
    | answered pre v hvs h hout =>
      rw [h.valid, if_neg Bool.false_ne_true, List.append_nil]
      exact .resting (hvs ▸ h.rests hc hpulse) hout

end Write

/-- The clocks of a write session. -/
theorem WriteSession.writing {P : SocParams} {s : SbSys} {ins : Nat → SbIn} {A : Word}
    {vs : List Word} {N : Nat} (h : WriteSession P s ins A vs N) :
    ∀ n ≤ N, Writing P (s.soc.dmWord P) A (written ins n)
      (trace (SbSys.step P) accesses s ins n) (sys P s ins n) := by
  have hinc : s.dm.sbautoincrement = true := by
    rw [← (sbcs_modes s.dm (ins 0).dm.dbgHalted).2.1]
    exact h.sbautoincrement
  intro n
  induction n with
  | zero =>
    intro _
    refine .resting ⟨h.quiet, hinc, ?_, rfl⟩ rfl
    exact h.sbaddress0.trans (BitVec.add_zero A).symm
  | succ n ih =>
    intro hn
    have hstep := (ih (Nat.le_of_succ_le hn)).step (h.calm n hn) (h.only n hn)
    have hwritten : written ins (n + 1) =
        written ins n ++ if (ins n).dm.dmiWePulse then [(ins n).dm.dmiWeData] else [] := by
      unfold written
      rw [List.range_succ, List.filterMap_append]
      cases hp : (ins n).dm.dmiWePulse <;> simp [hp]
    rw [hwritten]
    exact hstep

/-- **Writes**: a write session stores its values, one access for each. -/
theorem WriteSession.stored {P : SocParams} {s : SbSys} {ins : Nat → SbIn} {A : Word}
    {vs : List Word} {N : Nat} (h : WriteSession P s ins A vs N) : Stored P s ins A vs N := by
  have hend := h.writing N (Nat.le_refl N)
  rw [h.values] at hend
  cases hend with
  | strobing pre v _ ht => exact absurd (h.done.eng.symm.trans ht.eng) (by decide)
  | answered pre v _ ht => exact absurd (h.done.eng.symm.trans ht.eng) (by decide)
  | resting ht hout =>
    refine ⟨hout, ?_, ?_, ht.addr⟩
    · intro k hk hm hlast
      rw [ht.memory]
      exact storeAll_stored _ vs hk hm hlast
    · intro a ha
      rw [ht.memory]
      exact storeAll_others _ vs a ha

/-! ## Reading a block -/

section Read

variable {P : SocParams} {s : SbSys} {ins : Nat → SbIn} {A : Word} {clk : Nat → Nat} {n : Nat}

/-- The access that the write of `sbaddress0` starts takes two more clocks. -/
theorem ReadSession.fetches (h : ReadSession P s ins A clk n) :
    (sys P s ins 1).dm.eng = .sbRd ∧ (sys P s ins 2).dm.eng = .sbRd ∧
    (sys P s ins 3).dm.eng = .idle ∧ (sys P s ins 3).dm.sbdata0 = s.soc.dmWord P A := by
  obtain ⟨hp, ha, hA⟩ := h.start
  have hinc : s.dm.sbautoincrement = true := by
    rw [← (sbcs_modes s.dm (ins 0).dm.dbgHalted).2.1]
    exact h.sbautoincrement
  have hra : s.dm.sbreadonaddr = true := by
    rw [← (sbcs_modes s.dm (ins 0).dm.dbgHalted).1]
    exact h.sbreadonaddr
  -- the strobe
  have hdm1 : (sys P s ins 1).dm = _ := dm_reads h.quiet.eng hra hp ha
  have hready1 : (sys P s ins 1).soc.dmMemReady = false :=
    (ready_step (h.calm 0)).trans h.quiet.valid
  have hword1 : (sys P s ins 1).soc.dmWord P = s.soc.dmWord P :=
    memory_kept (h.calm 0) h.quiet.valid
  have heng1 : (sys P s ins 1).dm.eng = .sbRd := by rw [hdm1]
  have hvalid1 : (sys P s ins 1).dm.dmMemValid = true := by rw [hdm1]
  have hwrite1 : (sys P s ins 1).dm.dmMemWrite = false := by rw [hdm1]
  have haddr1 : (sys P s ins 1).dm.dmMemAddr = A := by rw [hdm1, ← hA]
  have hinc1 : (sys P s ins 1).dm.sbautoincrement = true := by
    rw [hdm1]
    exact hinc
  -- the answer
  have hdm2 : (sys P s ins 2).dm = _ := dm_waits (h.only 0) (.inl heng1) hready1
  have hready2 : (sys P s ins 2).soc.dmMemReady = true := (ready_step (h.calm 1)).trans hvalid1
  have hrdata2 : (sys P s ins 2).soc.dmMemRdata = s.soc.dmWord P A := by
    rw [← hword1, ← haddr1]
    exact rdata_step (h.calm 1) hvalid1 hwrite1
  have heng2 : (sys P s ins 2).dm.eng = .sbRd := by
    rw [hdm2]
    exact heng1
  have hinc2 : (sys P s ins 2).dm.sbautoincrement = true := by
    rw [hdm2]
    exact hinc1
  have hdm3 : (sys P s ins 3).dm = _ := dm_read (h.only 1) heng2 hready2 hinc2
  refine ⟨heng1, heng2, ?_, ?_⟩
  · rw [hdm3]
  · rw [hdm3]
    exact hrdata2

/-- Nothing comes after it. -/
theorem ReadSession.stays (h : ReadSession P s ins A clk n) (d : Nat) :
    (sys P s ins (3 + d)).dm.eng = .idle ∧
      (sys P s ins (3 + d)).dm.sbdata0 = s.soc.dmWord P A := by
  induction d with
  | zero => exact ⟨h.fetches.2.2.1, h.fetches.2.2.2⟩
  | succ d ih =>
    have hp : (ins (3 + d)).dm.dmiWePulse = false := by
      rw [show 3 + d = 2 + d + 1 by omega]
      exact h.only (2 + d)
    have hdm : (sys P s ins (3 + d + 1)).dm = _ := dm_idles hp ih.1
    refine ⟨?_, ?_⟩
    · rw [← Nat.add_assoc, hdm]
      exact ih.1
    · rw [← Nat.add_assoc, hdm]
      exact ih.2

/-- **Reads**: every read of a block returns its first word. -/
theorem ReadSession.first (h : ReadSession P s ins A clk n) {k : Nat} (hk : k < n) :
    dmi P s ins addrSbdata0 (clk k) = s.soc.dmWord P A := by
  obtain ⟨h1, h2, -, -⟩ := h.fetches
  obtain ⟨hpos, hquiet⟩ := h.after k hk
  have h3 : 3 ≤ clk k := by
    by_contra hlt
    obtain hc | hc : clk k = 1 ∨ clk k = 2 := by omega
    · rw [hc] at hquiet
      exact absurd (hquiet.eng.symm.trans h1) (by decide)
    · rw [hc] at hquiet
      exact absurd (hquiet.eng.symm.trans h2) (by decide)
  obtain ⟨d, hd⟩ := Nat.exists_eq_add_of_le h3
  rw [hd]
  exact (h.stays d).2

end Read

/-! ## Both -/

/-- **Block transfers**: reads and writes of blocks move consecutive words exactly
when the block that is read repeats one word. -/
theorem block_transfer_iff (P : SocParams) (s s' : SbSys) (ins ins' : Nat → SbIn) (A A' : Word)
    (clk : Nat → Nat) (n : Nat) (vs : List Word) (N : Nat) (hr : ReadSession P s ins A clk n)
    (hw : WriteSession P s' ins' A' vs N) :
    Reads P s ins A clk n ∧ Stored P s' ins' A' vs N ↔
      ∀ k < n, s.soc.dmWord P (wordAddr A k) = s.soc.dmWord P A := by
  constructor
  · intro h k hk
    rw [← h.1 k hk, hr.first hk]
  · intro h
    refine ⟨fun k hk => ?_, hw.stored⟩
    rw [hr.first hk, h k hk]

/-- A Debug Module with the three modes set. -/
def threeModes : DebugModule where
  sbaddress0 := 0x80000000#32
  sbautoincrement := true
  sbreadonaddr := true
  sbreadondata := true

/-- It is at the start of a DRAM. -/
def holding (dram : Nat → Word) : SbSys where
  dm := threeModes
  soc :=
    { imem := fun _ => 0#32
      dram := dram
      mtime := 0#64
      mtimecmp := 0#64
      msip := false
      tohostR := 0#32
      tohostWeR := false
      uart := Uart.reset Soc.baudDivRst
      dmMemRdata := 0#32
      dmMemReady := false }

/-- A DRAM that counts. -/
def counting : SbSys := holding fun k => BitVec.ofNat 32 (k + 1)

/-- A DRAM that holds one word everywhere. -/
def repeating : SbSys := holding fun _ => 5#32

/-- A DMI write. -/
def dmiWriteIn (a : BitVec 7) (v : Word) : SbIn where
  dm := { dmiWePulse := true, dmiWeAddr := a, dmiWeData := v }

/-- The start of a read block. -/
def readTwo : Nat → SbIn
  | 0 => dmiWriteIn addrSbaddress0 0x80000000#32
  | _ + 1 => {}

/-- Two writes of `sbdata0`. -/
def writeTwo : Nat → SbIn
  | 0 => dmiWriteIn addrSbdata0 7#32
  | 3 => dmiWriteIn addrSbdata0 9#32
  | _ => {}

theorem readTwo_quiet (dram : Nat → Word) :
    SbSys.Quiet (sys .source (holding dram) readTwo 3) ∧
      SbSys.Quiet (sys .source (holding dram) readTwo 4) :=
  ⟨⟨rfl, rfl, rfl⟩, rfl, rfl, rfl⟩

/-- The reads do not depend on what the DRAM holds. -/
theorem readTwo_session (dram : Nat → Word) :
    ReadSession .source (holding dram) readTwo 0x80000000#32 (fun k => 3 + k) 2 where
  quiet := ⟨rfl, rfl, rfl⟩
  sbreadonaddr := show threeModes.sbcsVal.getLsbD 20 = true by decide
  sbautoincrement := show threeModes.sbcsVal.getLsbD 16 = true by decide
  sbreadondata := show threeModes.sbcsVal.getLsbD 15 = true by decide
  start := ⟨rfl, rfl, rfl⟩
  only _ := rfl
  calm k := by cases k <;> exact ⟨rfl, rfl⟩
  after
    | 0, _ => ⟨by decide, (readTwo_quiet dram).1⟩
    | 1, _ => ⟨by decide, (readTwo_quiet dram).2⟩
  ordered k _ := Nat.lt_succ_self (3 + k)

theorem writeTwo_quiet : SbSys.Quiet (sys .source counting writeTwo 3) :=
  ⟨by decide +kernel, by decide +kernel, by decide +kernel⟩

theorem writeTwo_session :
    WriteSession .source counting writeTwo 0x80000000#32 [7#32, 9#32] 6 where
  quiet := ⟨rfl, rfl, rfl⟩
  sbautoincrement := by decide +kernel
  sbaddress0 := by decide +kernel
  calm
    | 0, _ | 1, _ | 2, _ | 3, _ | 4, _ | 5, _ => ⟨rfl, rfl⟩
  only
    | 0, _, _ => ⟨rfl, rfl, rfl, rfl⟩
    | 3, _, _ => ⟨rfl, writeTwo_quiet⟩
    | 1, _, hp | 2, _, hp | 4, _, hp | 5, _, hp => absurd hp Bool.false_ne_true
  values := by decide +kernel
  done := ⟨by decide +kernel, by decide +kernel, by decide +kernel⟩

/-- Two reads and two writes: the reads are right where the words are equal. -/
theorem block_transfer_two :
    (Reads .source counting readTwo 0x80000000#32 (fun k => 3 + k) 2 ∧
        Stored .source counting writeTwo 0x80000000#32 [7#32, 9#32] 6 ↔
      ∀ k < 2, counting.soc.dmWord .source (wordAddr 0x80000000#32 k) =
        counting.soc.dmWord .source 0x80000000#32) ∧
    Reads .source repeating readTwo 0x80000000#32 (fun k => 3 + k) 2 ∧
      Stored .source counting writeTwo 0x80000000#32 [7#32, 9#32] 6 := by
  have hcounting := block_transfer_iff .source counting counting readTwo writeTwo 0x80000000#32
    0x80000000#32 (fun k => 3 + k) 2 [7#32, 9#32] 6 (readTwo_session _) writeTwo_session
  have hrepeating := block_transfer_iff .source repeating counting readTwo writeTwo 0x80000000#32
    0x80000000#32 (fun k => 3 + k) 2 [7#32, 9#32] 6 (readTwo_session _) writeTwo_session
  exact ⟨hcounting, hrepeating.mpr (by decide +kernel)⟩

/-- The second read of a block returns the first word again. -/
theorem block_transfer_stuck :
    ¬ ∀ (P : SocParams) (s s' : SbSys) (ins ins' : Nat → SbIn) (A A' : Word) (clk : Nat → Nat)
      (n : Nat) (vs : List Word) (N : Nat), ReadSession P s ins A clk n →
      WriteSession P s' ins' A' vs N → Reads P s ins A clk n ∧ Stored P s' ins' A' vs N := by
  intro h
  have hread := (h .source counting counting readTwo writeTwo 0x80000000#32 0x80000000#32
    (fun k => 3 + k) 2 [7#32, 9#32] 6 (readTwo_session _) writeTwo_session).1 1 (by decide)
  revert hread
  decide +kernel

end BlockTransfer

end ThreeSippEs
