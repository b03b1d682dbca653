import ThreeSippEs.Core.Hosted
import ThreeSippEs.Security.DataIsolation
import ThreeSippEs.Security.DataPrivilege
import ThreeSippEs.Traps.UserFrame

/-!
# Episodes of User mode

An episode is a stretch of clocks in User mode, from the return of M-mode software
to the next entry into M-mode. The checks of the single accesses add up to two laws
about the whole stretch, whatever the program does and whenever it is interrupted:

- `user_integrity`: no byte outside the writable regions changes;
- `user_confidentiality`: the core behaves, clock by clock, as if the bytes outside
  the readable regions had any other values.

The regions are those of the configuration at the start: User mode cannot move
them. `UserClock` is what each clock has to promise, on top of being in User mode.
-/

namespace ThreeSippEs.Episode

open Clocked DataIsolation AlignedBlock

variable {P : Params}

/-! ## Regions -/

/-- The rules of the configuration `c` give a User-mode access `acc` byte `a`. -/
def UserMay (c : Csr) (doR doW : Bool) (a : Word) : Prop :=
  PmpRules.Permits (fun i : Fin 8 => c.pmpcfg (BitVec.ofNat 4 i.val))
    (fun i : Fin 8 => c.pmpaddr (BitVec.ofNat 4 i.val))
    { privM := false, doR := doR, doW := doW } { mmwp := c.mmwp, mml := c.mml } a

/-- User mode may read byte `a`. -/
abbrev Readable (c : Csr) (a : Word) : Prop := UserMay c true false a

/-- User mode may write byte `a`. -/
abbrev Writable (c : Csr) (a : Word) : Prop := UserMay c false true a

instance (c : Csr) (doR doW : Bool) (a : Word) : Decidable (UserMay c doR doW a) :=
  decidable_of_iff _ (PmpRules.fault_eq_false_iff ..)

/-- The configuration of the PMP is the same. -/
structure SameRules (c d : Csr) : Prop where
  cfg : d.pmpcfg = c.pmpcfg
  addr : d.pmpaddr = c.pmpaddr
  sec : d.mseccfg = c.mseccfg

theorem SameRules.userMay {c d : Csr} (h : SameRules c d) {doR doW : Bool} {a : Word} :
    UserMay d doR doW a ↔ UserMay c doR doW a := by
  unfold UserMay Csr.mmwp Csr.mml
  rw [h.cfg, h.addr, h.sec]

/-- The rules do not distinguish the bytes of a word. -/
theorem userMay_word {c : Csr} {doR doW : Bool} {a b : Word} (h : a.toNat / 4 = b.toNat / 4) :
    UserMay c doR doW a ↔ UserMay c doR doW b :=
  PmpRules.permits_word h

/-- No rule lets User mode write what it may not read. -/
def WritesReadable (c : Csr) : Prop :=
  ∀ i : Fin 8, (PmpRules.ruleRights (c.pmpcfg (BitVec.ofNat 4 i.val)) false c.mml).w = true →
    (PmpRules.ruleRights (c.pmpcfg (BitVec.ofNat 4 i.val)) false c.mml).r = true

instance (c : Csr) : Decidable (WritesReadable c) := by
  unfold WritesReadable
  infer_instance

theorem WritesReadable.readable {c : Csr} (h : WritesReadable c) {a : Word} (ha : Writable c a) :
    Readable c a := by
  rcases ha with ⟨i, hcovers, hlow, hallow⟩ | ⟨-, hpriv, -⟩
  · exact Or.inl ⟨i, hcovers, hlow, fun _ => h i (hallow.2.1 rfl),
      fun hw => absurd hw Bool.false_ne_true, fun hx => absurd hx Bool.false_ne_true⟩
  · exact absurd hpriv Bool.false_ne_true

/-! ## What the data port may do -/

/-- What the data port does in this clock is within the regions. -/
structure Port (c : Csr) (w : WStage) : Prop where
  read : w.dmemRe = true → Readable c w.dmemAddr
  write : w.dmemWe = true → ∀ k < 4, w.dmemBe.getLsbD k = true →
    Writable c (w.dmemAddr + BitVec.ofNat 32 k)

/-- Also in its second beat. -/
structure Entitled (c : Csr) (w : WStage) : Prop where
  now : Port c w
  next : w.memBeatStall = true → ∀ rdata commit next, Port c (w.step rdata commit next)

/-- The port is on a word boundary. -/
theorem dmemAddr_mod (w : WStage) : w.dmemAddr.toNat % 4 = 0 := by
  unfold WStage.dmemAddr XwReg.amoAddrAl XwReg.wordAddr
  split
  · exact wordOf_mod _
  · split
    · exact next_wordOf_mod _
    · rw [BitVec.add_zero]
      exact wordOf_mod _

/-- The port enables a lane, in the second beat of an access that has one. -/
theorem enables_lane {w : WStage}
    (hbeat : w.beat2 = true → w.amoHere = false → w.xw.crosses = true) :
    ∃ k < 4, w.dmemBe.getLsbD k = true := by
  unfold WStage.dmemBe
  cases hamo : w.amoHere with
  | true => exact ⟨0, by decide, by rw [if_pos rfl]; decide⟩
  | false =>
    rw [if_neg Bool.false_ne_true]
    have hlo := w.xw.addrLo.isLt
    cases hb : w.beat2 with
    | false =>
      refine ⟨w.xw.addrLo.toNat, hlo, ?_⟩
      rw [if_neg Bool.false_ne_true, BitVec.getLsbD_extractLsb]
      have hlane : w.xw.beWin.getLsbD (0 + w.xw.addrLo.toNat) = true := by
        rw [Nat.zero_add, beWin_iff _ (by omega)]
        refine ⟨Nat.le_refl _, ?_⟩
        unfold accessSize
        split_ifs <;> omega
      rw [hlane, Bool.and_true, decide_eq_true_eq]
      omega
    | true =>
      -- a crossing access ends behind the first word
      refine ⟨0, by decide, ?_⟩
      have hcross := hbeat hb hamo
      rw [if_pos rfl, BitVec.getLsbD_extractLsb]
      have hlane : w.xw.beWin.getLsbD (4 + 0) = true := by
        rw [beWin_iff _ (by omega)]
        unfold XwReg.crosses at hcross
        unfold accessSize
        simp only [Bool.and_eq_true, Bool.or_eq_true, beq_iff_eq, bne_iff_ne, ne_eq] at hcross
        obtain ⟨-, ⟨hwidth, hoff⟩ | ⟨hwidth, hoff⟩⟩ := hcross
        · have hoff' : w.xw.addrLo.toNat ≠ 0 := fun h =>
            hoff (BitVec.eq_of_toNat_eq h)
          rw [hwidth]
          constructor
          · omega
          · rw [if_neg (by decide), if_neg (by decide)]
            omega
        · rw [hwidth, hoff]
          decide
      rw [hlane]
      decide

section Issue

variable {x : XIn} {w : WStage}

/-- The instruction that left X stays within the regions in both of its beats. -/
theorem port_of_issued (hP : P.secure = true) (hv : x.fxValid = true) (hval : w.xwValid = true)
    (hxw : w.xw = x.xwNext P) (hdata : x.csr.dataM P.csr = false)
    (hck : x.lsRe = true ∨ x.lsWe = true → DataChecked P x)
    (hbeat : w.beat2 = true → w.amoHere = false → w.xw.crosses = true) : Port x.csr w := by
  constructor
  · intro hre
    obtain ⟨k, hk, hbe⟩ := enables_lane hbeat
    have hls := (read_strobe hxw hre).2
    obtain ⟨-, hperm⟩ := dmem_bytes_permitted hP hv hval hxw (hck (Or.inl hls)) (Or.inl hre) hk hbe
    have hread : Readable x.csr (w.dmemAddr + BitVec.ofNat 32 k) :=
      PmpRules.Permits.mono hperm hdata.symm (fun _ => hls) (fun h => absurd h Bool.false_ne_true)
        fun h => absurd h Bool.false_ne_true
    exact (userMay_word (lane_div _ (dmemAddr_mod w) hk)).mp hread
  · intro hwe k hk hbe
    have hls := (write_strobe hxw hwe).2
    obtain ⟨-, hperm⟩ := dmem_bytes_permitted hP hv hval hxw (hck (Or.inr hls)) (Or.inr hwe) hk hbe
    exact PmpRules.Permits.mono hperm hdata.symm (fun h => absurd h Bool.false_ne_true)
      (fun _ => hls) fun h => absurd h Bool.false_ne_true

/-- An empty W stage leaves the port idle. -/
theorem entitled_of_empty {c : Csr} (h : w.xwValid = false) : Entitled c w := by
  refine ⟨⟨fun hre => ?_, fun hwe => ?_⟩, fun hst => ?_⟩
  · exact absurd ((w.dmemRe_cases hre).1.symm.trans h) (by simp)
  · exact absurd ((w.dmemWe_cases hwe).1.symm.trans h) (by simp)
  · exact absurd ((w.xwValid_of_memBeatStall hst).symm.trans h) (by simp)

theorem entitled_of_issued (hP : P.secure = true) (hv : x.fxValid = true)
    (hval : w.xwValid = true) (hxw : w.xw = x.xwNext P) (hb : w.beat2 = false)
    (hdata : x.csr.dataM P.csr = false)
    (hck : x.lsRe = true ∨ x.lsWe = true → DataChecked P x) : Entitled x.csr w := by
  refine ⟨port_of_issued hP hv hval hxw hdata hck fun h => absurd (hb.symm.trans h) (by simp), ?_⟩
  intro hst rdata commit next
  obtain ⟨hval', hxw', -⟩ := w.step_of_stall hst rdata commit next
  refine port_of_issued hP hv (hval'.trans hval) (hxw'.trans hxw) hdata hck fun _ hamo => ?_
  -- what stalls without being an AMO crosses words
  rw [hxw']
  unfold WStage.amoHere at hamo
  rw [hval', hxw'] at hamo
  unfold WStage.memBeatStall WStage.memMis WStage.amoRmwB1 WStage.amoHere at hst
  rw [hamo, Bool.false_and, Bool.false_and, Bool.or_false] at hst
  simp only [Bool.and_eq_true] at hst
  exact hst.1.2

end Issue

/-! ## The episode -/

/-- A clock in User mode, outside Debug Mode, whose access is checked as a whole and
whose CSR write no trigger releases. -/
structure UserClock (s : Sys P) (e : ExtIn) : Prop where
  user : s.core.csr.priv = 0b00#2
  running : s.core.dbg.dbgMode = false
  unreleased : UserFrame.writeReleased P (s.core.xIn (s.coreIn e)) = false
  checked : accesses s.core (s.coreIn e) = true → DataChecked P (s.core.xIn (s.coreIn e))

instance (s : Sys P) (e : ExtIn) : Decidable (UserClock s e) :=
  decidable_of_iff (s.core.csr.priv = 0b00#2 ∧ s.core.dbg.dbgMode = false ∧
      UserFrame.writeReleased P (s.core.xIn (s.coreIn e)) = false ∧
      (accesses s.core (s.coreIn e) = true → DataChecked P (s.core.xIn (s.coreIn e))))
    ⟨fun h => ⟨h.1, h.2.1, h.2.2.1, h.2.2.2⟩,
      fun h => ⟨h.user, h.running, h.unreleased, h.checked⟩⟩

/-- The start of an episode: MPRV is clear and W is done with the accesses of
M-mode. -/
structure Enters (s : Sys P) : Prop where
  mprv : Mstatus.mprv s.core.csr.mstatus = false
  unread : s.core.w.dmemRe = false
  unwritten : s.core.w.dmemWe = false
  unstalled : s.core.w.memBeatStall = false

/-- What holds throughout an episode that started with the rules of `c`. -/
structure Confined (c : Csr) (s : Sys P) : Prop where
  rules : SameRules c s.core.csr
  mprv : s.core.csr.priv = 0b00#2 → Mstatus.mprv s.core.csr.mstatus = false
  port : Entitled c s.core.w

theorem Port.congr {c d : Csr} {w : WStage} (h : SameRules c d) (hp : Port d w) : Port c w :=
  ⟨fun hre => h.userMay.mp (hp.read hre),
    fun hwe k hk hbe => h.userMay.mp (hp.write hwe k hk hbe)⟩

theorem Entitled.congr {c d : Csr} {w : WStage} (h : SameRules c d) (hp : Entitled d w) :
    Entitled c w :=
  ⟨hp.now.congr h, fun hst rdata commit next => (hp.next hst rdata commit next).congr h⟩

section Clock

variable {imemWritable : Word → Bool} {c : Csr} {s : Sys P} {e : ExtIn}

theorem Enters.confined (h : Enters s) : Confined s.core.csr s where
  rules := ⟨rfl, rfl, rfl⟩
  mprv := fun _ => h.mprv
  port :=
    { now :=
        { read := fun hre => absurd (h.unread.symm.trans hre) (by simp)
          write := fun hwe => absurd (h.unwritten.symm.trans hwe) (by simp) }
      next := fun hst => absurd (h.unstalled.symm.trans hst) (by simp) }

/-- The data accesses of User mode are checked as such. -/
theorem Confined.dataM (h : Confined c s) (hu : s.core.csr.priv = 0b00#2) :
    s.core.csr.dataM P.csr = false := by
  unfold Csr.dataM
  rw [h.mprv hu, hu, Bool.and_false]
  rfl

/-- **One clock** of an episode. -/
theorem Confined.step (hP : P.secure = true) (h : Confined c s) (hok : UserClock s e) :
    Confined c (s.step imemWritable e) := by
  have hframe := UserFrame.machineFrame hok.unreleased hP hok.user hok.running
  obtain ⟨hcfg, haddr, hsec⟩ := hframe.pmp
  refine ⟨⟨hcfg.trans h.rules.cfg, haddr.trans h.rules.addr, hsec.trans h.rules.sec⟩, ?_, ?_⟩
  · intro hu
    cases hset : (s.core.xIn (s.coreIn e)).mTrapSet P with
    | true =>
      -- a trap leads out of User mode
      have hm : (s.step imemWritable e).core.csr.priv = 0b11#2 := (hframe.trapped hset).2.1
      exact absurd (hm.symm.trans hu) (by decide)
    | false =>
      have hst : (s.step imemWritable e).core.csr.mstatus = s.core.csr.mstatus :=
        (hframe.untrapped hset).1
      rw [hst]
      exact h.mprv hok.user
  · show Entitled c (s.core.w.step (s.coreIn e).dmemRdata s.core.xCommit
      ((s.core.xIn (s.coreIn e)).xwNext P))
    cases hst : s.core.w.memBeatStall with
    | true =>
      refine ⟨h.port.next hst _ _ _, fun hst' => ?_⟩
      have hb := (s.core.w.step_of_stall hst (s.coreIn e).dmemRdata s.core.xCommit
        ((s.core.xIn (s.coreIn e)).xwNext P)).2.2
      exact absurd ((WStage.beat2_of_memBeatStall _ hst').symm.trans hb) (by simp)
    | false =>
      obtain ⟨hval, hxw, hb⟩ := s.core.w.step_of_not_stall hst (s.coreIn e).dmemRdata s.core.xCommit
        ((s.core.xIn (s.coreIn e)).xwNext P)
      cases hc : s.core.xCommit with
      | false =>
        rw [hc] at hval
        exact entitled_of_empty hval
      | true =>
        rw [hc] at hval hxw hb
        obtain ⟨hv, hmd, -⟩ := Core.xCommit_iff.mp hc
        have hfz := Core.exFreeze_eq_false_iff.mpr ⟨hmd, hst⟩
        refine (entitled_of_issued (x := s.core.xIn (s.coreIn e)) hP hv hval hxw hb
          (h.dataM hok.user) fun hls => hok.checked ?_).congr h.rules
        unfold accesses
        rw [hv, hfz]
        simpa using hls

/-- A write changes bytes of its word in its enabled lanes. -/
theorem writeWord_of_not_writable {w : WStage} (hp : Port c w) (hwe : w.dmemWe = true) {b : Word}
    (hb : ¬ Writable c b) (m : Bytes) (v : Word) :
    m.writeWord w.dmemAddr w.dmemBe v b = m b := by
  unfold Bytes.writeWord
  refine if_neg fun ⟨hword, hbe⟩ => hb ?_
  have hk : (b.extractLsb 1 0).toNat < 4 := (b.extractLsb 1 0).isLt
  refine (userMay_word ?_).mp (hp.write hwe _ hk hbe)
  rw [lane_div _ (dmemAddr_mod w) hk]
  have h := congrArg BitVec.toNat hword
  simp only [BitVec.extractLsb, BitVec.extractLsb'_toNat, Nat.shiftRight_eq_div_pow] at h
  have hlt := b.isLt
  have hlt' := w.dmemAddr.isLt
  omega

theorem Confined.unwritten (h : Confined c s) {b : Word} (hb : ¬ Writable c b) :
    (s.step imemWritable e).mem.dmem b = s.mem.dmem b ∧
    (s.step imemWritable e).mem.imem b = s.mem.imem b := by
  unfold Sys.step
  dsimp only
  cases hwe : s.core.w.dmemWe with
  | false => exact ⟨rfl, rfl⟩
  | true =>
    rw [if_pos rfl]
    refine ⟨writeWord_of_not_writable h.port.now hwe hb _ _, ?_⟩
    unfold Memory.write
    dsimp only
    split
    · exact writeWord_of_not_writable h.port.now hwe hb _ _
    · rfl

/-! ## Two memories -/

/-- The same core on memories that agree on the readable bytes. -/
structure Alike (c : Csr) (s s' : Sys P) : Prop where
  core : s'.core = s.core
  imem : s'.mem.imem = s.mem.imem
  dmem : ∀ b, Readable c b → s'.mem.dmem b = s.mem.dmem b

theorem Alike.readWord {s' : Sys P} (h : Alike c s s') {a : Word} (ha : Readable c a) :
    s'.mem.dmem.readWord a = s.mem.dmem.readWord a := by
  have hlane : ∀ k < 4, s'.mem.dmem (wordOf a + BitVec.ofNat 32 k) =
      s.mem.dmem (wordOf a + BitVec.ofNat 32 k) := by
    intro k hk
    refine h.dmem _ ((userMay_word ?_).mpr ha)
    rw [lane_div _ (wordOf_mod a) hk, wordOf_toNat]
    omega
  have h0 := hlane 0 (by decide)
  rw [BitVec.add_zero] at h0
  have h1 : s'.mem.dmem (wordOf a + 1#32) = _ := hlane 1 (by decide)
  have h2 : s'.mem.dmem (wordOf a + 2#32) = _ := hlane 2 (by decide)
  have h3 : s'.mem.dmem (wordOf a + 3#32) = _ := hlane 3 (by decide)
  have hword : (a.extractLsb 31 2 ++ 0b00#2 : Word) = wordOf a := rfl
  unfold Bytes.readWord
  dsimp only
  rw [hword, h0, h1, h2, h3]

/-- What W holds in its first beat is a read, or a store that may be read as well. -/
theorem Confined.stalled (h : Confined c s) (hrw : WritesReadable c)
    (hst : s.core.w.memBeatStall = true) : Readable c s.core.w.dmemAddr := by
  cases hre : s.core.w.dmemRe with
  | true => exact h.port.now.read hre
  | false =>
    have hval := s.core.w.xwValid_of_memBeatStall hst
    have hb := s.core.w.beat2_of_memBeatStall hst
    have hwe : s.core.w.dmemWe = true := by
      unfold WStage.dmemRe WStage.amoDoLoad at hre
      rw [hval, Bool.true_and, Bool.or_eq_false_iff] at hre
      unfold WStage.memBeatStall WStage.memMis XwReg.crosses at hst
      unfold WStage.dmemWe
      have hrmw : s.core.w.amoRmwB1 = false := by
        by_contra hrmw
        rw [Bool.not_eq_false] at hrmw
        have hhere : s.core.w.amoHere = true := by
          unfold WStage.amoRmwB1 at hrmw
          simp only [Bool.and_eq_true] at hrmw
          exact hrmw.1.1
        have h' := hre.2
        rw [hhere, hrmw] at h'
        simp at h'
      rw [hrmw, hre.1, Bool.or_false, Bool.false_or] at hst
      simp only [Bool.and_eq_true] at hst
      rw [hval, hst.1.2.1]
      rfl
    obtain ⟨k, hk, hbe⟩ := enables_lane fun hb' _ => absurd (hb.symm.trans hb') (by simp)
    exact (userMay_word (lane_div _ (dmemAddr_mod _) hk)).mp
      (hrw.readable (h.port.now.write hwe k hk hbe))

/-- **One clock** on both memories. -/
theorem Alike.step {s' : Sys P} (h : Alike c s s') (hc : Confined c s)
    (hrw : WritesReadable c) :
    Alike c (s.step imemWritable e) (s'.step imemWritable e) := by
  have hin : s'.coreIn e =
      { s.coreIn e with dmemRdata := s'.mem.dmem.readWord s.core.w.dmemAddr } := by
    unfold Sys.coreIn Memory.answer
    rw [h.core, h.imem]
  have hcore : s'.core.step (s'.coreIn e) = s.core.step (s.coreIn e) := by
    rw [h.core, hin]
    refine Core.step_of_answers rfl rfl fun hused => ?_
    -- the word may be read
    have hread : Readable c s.core.w.dmemAddr := by
      rcases hused with hre | hst
      · exact hc.port.now.read hre
      · exact hc.stalled hrw hst
    exact h.readWord hread
  refine ⟨hcore, ?_, ?_⟩
  · unfold Sys.step
    dsimp only
    rw [h.core]
    cases s.core.w.dmemWe with
    | false => exact h.imem
    | true =>
      rw [if_pos rfl, if_pos rfl]
      unfold Memory.write
      dsimp only
      rw [h.imem]
  · intro b hb
    unfold Sys.step
    dsimp only
    rw [h.core]
    cases s.core.w.dmemWe with
    | false => exact h.dmem b hb
    | true =>
      rw [if_pos rfl, if_pos rfl]
      unfold Memory.write Bytes.writeWord
      dsimp only
      split
      · rfl
      · exact h.dmem b hb

end Clock

/-! ## Runs -/

section Run

variable {imemWritable : Word → Bool} {s : Sys P} {ins : Nat → ExtIn} {n : Nat}

theorem confined_run (hP : P.secure = true) (hs : Enters s)
    (hok : ∀ k < n, UserClock (run (Sys.step imemWritable) s ins k) (ins k)) :
    Confined s.core.csr (run (Sys.step imemWritable) s ins n) :=
  run_invariant hs.confined (fun _ _ ht hk => ht.step hP hk) n hok

end Run

/-- **Integrity of an episode.** As long as the hart stays in User mode and its clocks keep
their promise, no byte of the memories outside the writable regions changes. -/
theorem user_integrity (hP : P.secure = true) (imemWritable : Word → Bool) (s : Sys P)
    (ins : Nat → ExtIn) (n : Nat) (hs : Enters s)
    (hok : ∀ k < n, UserClock (run (Sys.step imemWritable) s ins k) (ins k)) (b : Word)
    (hb : ¬ Writable s.core.csr b) :
    (run (Sys.step imemWritable) s ins n).mem.dmem b = s.mem.dmem b ∧
    (run (Sys.step imemWritable) s ins n).mem.imem b = s.mem.imem b := by
  induction n with
  | zero => exact ⟨rfl, rfl⟩
  | succ n ih =>
    have hok' := fun k hk => hok k (Nat.lt_succ_of_lt hk)
    obtain ⟨hd, hi⟩ := ih hok'
    obtain ⟨hd', hi'⟩ := (confined_run hP hs hok').unwritten (e := ins n) hb
    exact ⟨hd'.trans hd, hi'.trans hi⟩

/-- M-mode hides the word at 0x100 and returns to the program at address 0. -/
def visitsUser : Memory where
  imem := .ofWords
    [0x20002103#32,   -- lw x2, 0x200(x0)
     0x20202223#32,   -- sw x2, 0x204(x0)
     0x10002103#32,   -- lw x2, 0x100(x0)
     0x04000093#32,   -- addi x1, x0, 0x40
     0x3B009073#32,   -- csrrw x0, pmpaddr0, x1
     0xFFF00093#32,   -- addi x1, x0, -1
     0x3B109073#32,   -- csrrw x0, pmpaddr1, x1
     0x000020B7#32,   -- lui x1, 2
     0xF1008093#32,   -- addi x1, x1, -0xF0
     0x3A009073#32,   -- csrrw x0, pmpcfg0, x1
     0x30200073#32]   -- mret
  dmem := fun _ => 0#8

/-- The clock behind the MRET. -/
def inUser : Sys { secure := true, resetPc := 12#32 } :=
  ⟨visitsUser.bench _ {} 9, visitsUser⟩

theorem enters_inUser : Enters inUser :=
  ⟨by decide +kernel, by decide +kernel, by decide +kernel, by decide +kernel⟩

/-- Its next four clocks, with the entry into M-mode behind them. -/
theorem userClock_inUser :
    ∀ k < 4, UserClock (run (Sys.step fun _ => false) inUser (fun _ => {}) k) {} := by
  decide +kernel

theorem user_integrity_hidden :
    (run (Sys.step fun _ => false) inUser (fun _ => {}) 4).mem.dmem 0x100#32 =
      inUser.mem.dmem 0x100#32 :=
  (user_integrity rfl (fun _ => false) inUser (fun _ => {}) 4 enters_inUser userClock_inUser
    0x100#32 (by decide +kernel)).1

/-- **Confidentiality of an episode.** Where nothing is writable but not readable, and the
clocks keep their promise: two memories that agree on the readable bytes give the same core
in every clock up to the entry into M-mode, with the same accesses at its ports, and still
agree on these bytes. -/
theorem user_confidentiality (hP : P.secure = true) (imemWritable : Word → Bool) (s s' : Sys P)
    (ins : Nat → ExtIn) (n : Nat) (hs : Enters s) (hcore : s'.core = s.core)
    (himem : s'.mem.imem = s.mem.imem)
    (hdmem : ∀ b, Readable s.core.csr b → s'.mem.dmem b = s.mem.dmem b)
    (hrw : WritesReadable s.core.csr)
    (hok : ∀ k < n, UserClock (run (Sys.step imemWritable) s ins k) (ins k)) :
    (run (Sys.step imemWritable) s' ins n).core = (run (Sys.step imemWritable) s ins n).core ∧
    (run (Sys.step imemWritable) s' ins n).mem.imem =
      (run (Sys.step imemWritable) s ins n).mem.imem ∧
    ∀ b, Readable s.core.csr b →
      (run (Sys.step imemWritable) s' ins n).mem.dmem b =
        (run (Sys.step imemWritable) s ins n).mem.dmem b := by
  have halike : Alike s.core.csr (run (Sys.step imemWritable) s ins n)
      (run (Sys.step imemWritable) s' ins n) := by
    induction n with
    | zero => exact ⟨hcore, himem, hdmem⟩
    | succ n ih =>
      have hok' := fun k hk => hok k (Nat.lt_succ_of_lt hk)
      exact (ih hok').step (confined_run hP hs hok') hrw
  exact ⟨halike.core, halike.imem, halike.dmem⟩

/-- The same with something in the hidden word. -/
def inUserOther : Sys { secure := true, resetPc := 12#32 } :=
  ⟨inUser.core, { visitsUser with dmem := fun a => if a.toNat / 4 = 64 then 0xFF#8 else 0#8 }⟩

theorem user_confidentiality_hidden :
    (run (Sys.step fun _ => false) inUserOther (fun _ => {}) 4).core =
      (run (Sys.step fun _ => false) inUser (fun _ => {}) 4).core := by
  refine (user_confidentiality rfl (fun _ => false) inUser inUserOther (fun _ => {}) 4
    enters_inUser rfl rfl (fun b hb => ?_) (by decide +kernel) userClock_inUser).1
  -- the two memories differ in the hidden word only
  have hne : b.toNat / 4 ≠ 64 := by
    intro hword
    have hhidden : Readable inUser.core.csr 0x100#32 := (userMay_word hword).mp hb
    revert hhidden
    decide +kernel
  show (if b.toNat / 4 = 64 then 0xFF#8 else 0#8) = 0#8
  rw [if_neg hne]

end ThreeSippEs.Episode
