import ThreeSippEs.Golden.Agreement
import ThreeSippEs.Pipeline.Programs
import ThreeSippEs.Soc.Soc
import ThreeSippEs.Traps.Interrupt

/-!
# Programs on the golden model

The script runs a program until it stores to `tohost`. On programs that both sides can
run alike, the sequential machine of the core takes the same steps.

- `Plain`: an instruction that both sides run alike;
- `Joined`: the state of the script beside the architectural state, on the memories of
  the SoC;
- `Joined.step`: one instruction, `Joined.run`: a program.
-/

namespace ThreeSippEs

/-- The line of the trace that an event is. -/
def Event.line : Event → Option Golden.Cpu.Retire
  | .bus _ => none
  | .retire pc instr wr => some ⟨pc, instr, wr⟩

namespace Golden

open BaseIsa Clocked DataIsolation Decode LittleEndian Misaligned

/-! ## One base instruction of the core -/

section Core

variable {P : Params} {a : Arch}

/-- The answer of the M unit matters to its instructions only. -/
theorem xResult_env : (a.xIn (env a)).xResult P = (a.xIn a.env).xResult P := by
  cases hmd : a.isMd with
  | true =>
    unfold env Arch.env
    rw [hmd, if_pos rfl]
  | false =>
    have hsel : (decode a.instr).wbSel ≠ .md := fun h =>
      Bool.false_ne_true (hmd.symm.trans ((decode_wbSel a.instr).1 h))
    have hdec : ∀ e, (a.xIn e).dec.wbSel = (decode a.instr).wbSel := fun _ => rfl
    unfold XIn.xResult
    rw [hdec, hdec]
    cases hw : (decode a.instr).wbSel with
    | md => exact absurd hw hsel
    | alu | mem | pc4 | csr => rfl

theorem xw_env : a.xw P (env a) = a.xw P a.env := by
  unfold Arch.xw XIn.xwNext
  rw [xResult_env]
  rfl

theorem execute_env : a.step P never (env a) = a.execute P := by
  unfold Arch.execute Arch.step Arch.accesses
  rw [xw_env]
  rfl

/-- No trigger fires. -/
theorem trigFire_base (hb : Bare P a.csr a.trig) (e : Env) : (a.xIn e).trigFire = false := by
  have hslot : ∀ pc addr re we g, a.trig.slotMatches pc addr re we g = false := by
    intro pc addr re we g
    unfold Trig.slotMatches
    rw [hb.triggers g, Bool.false_and]
  show ((a.xIn e).trigMatch.exec || (a.xIn e).trigMatch.ldst) = false
  unfold XIn.trigMatch
  split
  · refine (Trig.matchAll_fires ..).trans ?_
    show (a.trig.slotMatches .. || a.trig.slotMatches ..) = false
    rw [hslot, hslot]
    rfl
  · rfl

/-- A base instruction leaves the CSRs and the triggers alone. -/
theorem execute_csr (hb : Bare P a.csr a.trig) (hi : Base a.instr) :
    (a.execute P).csr = a.csr.uncounted ∧ (a.execute P).trig = a.trig := by
  have htrap : (a.xIn a.env).exTrap P = false := exTrap_base hb hi
  have hcsr : (a.xIn a.env).dec.isCsr = false := hi.csr
  have hirq : (a.xIn a.env).takeIrq P = false := by
    have hreq : (a.xIn a.env).irqReq = false := Bool.and_false _
    unfold XIn.takeIrq
    rw [hreq]
    simp
  have hset : (a.xIn a.env).mTrapSet P = false := by
    unfold XIn.mTrapSet
    rw [htrap, hirq]
    rfl
  have hret : (a.xIn a.env).csrMret P = false := by
    have hmret : (a.xIn a.env).dec.isMret = false := hi.sys.2.2
    unfold XIn.csrMret
    rw [hmret, Bool.and_false]
    rfl
  have hwe : (a.xIn a.env).csrWeEff P = false := Interrupt.csrWeEff_of_not_csr hcsr rfl
  have hfire : (a.xIn a.env).trigFire = false := trigFire_base hb a.env
  refine a.step_files P never a.env ?_
  unfold Arch.keepsFiles
  rw [hset, hret, hwe, hfire]
  rfl

/-- Nor does it read a counter. -/
theorem readsCounter_base (hi : Base a.instr) : a.readsCounter = false := by
  unfold Arch.readsCounter
  rw [hi.csr]
  rfl

/-- The bus accesses of a base instruction that does not cross a word. -/
theorem accesses_base (hb : Bare P a.csr a.trig) (hi : Base a.instr) {e : Env}
    (halign : (decode a.instr).memRe = true ∨ (decode a.instr).memWe = true →
      (a.xIn e).aluY.toNat % accessSize (decode a.instr).memWidth = 0) :
    (a.xw P e).twoBeat = false ∧
      (a.xw P e).accesses a.resv a.mem =
        if (decode a.instr).memRe then
          [⟨(a.xw P e).wordAddr, (a.xw P e).beWin.extractLsb 3 0, false,
            a.mem.dmem.readWord (a.xw P e).wordAddr⟩]
        else if (decode a.instr).memWe then
          [⟨(a.xw P e).wordAddr, (a.xw P e).beWin.extractLsb 3 0, true,
            (a.xw P e).stWin.extractLsb 31 0⟩]
        else [] := by
  have htrap : (a.xIn e).exTrap P = false := exTrap_base hb hi
  have hamo : (a.xw P e).isAmo = false := by
    show ((a.xIn e).amoValid && !(a.xIn e).exTrap P) = false
    rw [amoValid_base hi, Bool.false_and]
  have hre : (a.xw P e).memRe = (decode a.instr).memRe := by
    show ((a.xIn e).dec.memRe && !(a.xIn e).exTrap P) = _
    rw [htrap, Bool.not_false, Bool.and_true]
    rfl
  have hwe : (a.xw P e).memWe = (decode a.instr).memWe := by
    show ((a.xIn e).dec.memWe && !(a.xIn e).exTrap P) = _
    rw [htrap, Bool.not_false, Bool.and_true]
    rfl
  have hcross : (a.xw P e).crosses = false := by
    cases hmem : (decode a.instr).memRe || (decode a.instr).memWe with
    | false =>
      unfold XwReg.crosses
      rw [hre, hwe, hmem]
      rfl
    | true =>
      have hor : (decode a.instr).memRe = true ∨ (decode a.instr).memWe = true :=
        Bool.or_eq_true .. ▸ hmem
      have hplaced : Placed (a.xw P e) := placed_of_mem hmem htrap
      have hresult : (a.xw P e).result = (a.xIn e).aluY := XIn.xResult_of_mem hor
      have hsize := halign hor
      by_contra hc
      rw [Bool.not_eq_false, hplaced.crosses_iff, hplaced.offset, hresult] at hc
      have hwidth : (a.xw P e).memWidth = (decode a.instr).memWidth := rfl
      rw [hwidth] at hc
      unfold accessSize at hc hsize
      split_ifs at hc hsize <;> omega
  constructor
  · unfold XwReg.twoBeat
    rw [hcross, hamo]
    rfl
  · unfold XwReg.accesses XwReg.words
    rw [hamo, hre, hwe, hcross]
    rfl

end Core

/-! ## Runs of the script -/

namespace Cpu

/-- The state after `k` steps. -/
def steps (c : Cpu) : Nat → Cpu
  | 0 => c
  | k + 1 => (steps c k).step

/-- `main`: what it prints in no more than `max_steps` steps. -/
def main (c : Cpu) : Nat → List Retire
  | 0 => []
  | n + 1 => c.retire :: if c.step.mem.tohost.isSome then [] else main c.step n

variable (c : Cpu)

/-- The first `k` lines. -/
def lines (k : Nat) : List Retire := (List.range k).map fun i => (c.steps i).retire

theorem steps_succ' (k : Nat) : c.steps (k + 1) = c.step.steps k := by
  induction k with
  | zero => rfl
  | succ k ih =>
    show (c.steps (k + 1)).step = _
    rw [ih]
    rfl

/-- It stops behind the first store to `tohost`. -/
theorem main_eq {k n : Nat} (hgo : ∀ i < k, (c.steps (i + 1)).mem.tohost = none)
    (hstop : (c.steps (k + 1)).mem.tohost.isSome = true) (hk : k < n) :
    c.main n = c.lines (k + 1) := by
  induction k generalizing c n with
  | zero =>
    obtain ⟨n, rfl⟩ := Nat.exists_eq_succ_of_ne_zero (Nat.ne_of_gt hk)
    have hstop' : c.step.mem.tohost.isSome = true := hstop
    rw [main, hstop', if_pos rfl]
    rfl
  | succ k ih =>
    obtain ⟨n, rfl⟩ := Nat.exists_eq_succ_of_ne_zero (Nat.ne_of_gt (Nat.zero_lt_of_lt hk))
    have hgo0 : c.step.mem.tohost = none := hgo 0 (Nat.succ_pos k)
    have hrest := ih c.step (n := n) (fun i hi => c.steps_succ' (i + 1) ▸ hgo (i + 1) (by omega))
      (c.steps_succ' (k + 1) ▸ hstop) (by omega)
    rw [main, hgo0, if_neg (by decide), hrest]
    unfold lines
    rw [show List.range (k + 1 + 1) = 0 :: List.map Nat.succ (List.range (k + 1)) from
      List.range_succ_eq_map, List.map_cons, List.map_map]
    refine congrArg (c.retire :: ·) (List.map_congr_left fun i _ => ?_)
    show _ = (c.steps (i + 1)).retire
    rw [c.steps_succ']

/-- The address and the size of a load or store. -/
def addr : Word := c.x (c.ins.extractLsb 19 15) + (decode c.ins).idImm

def size : Nat := accessSize (decode c.ins).memWidth

end Cpu

/-- The data memory that the SoC and the script share: DRAM, and the image. -/
def Shared (c : Cpu) (b : Word) : Prop :=
  SocParams.source.inDram b = true ∨ b.toNat / 4 < c.mem.imem.length

instance (c : Cpu) (b : Word) : Decidable (Shared c b) := inferInstanceAs (Decidable (_ ∨ _))

/-- An instruction that both sides run alike: a legal one from IMEM, with an aligned access
to the memories or a store to `tohost`. -/
structure Plain (c : Cpu) : Prop where
  fetch : c.pc.toNat % 4 = 0 ∧ SocParams.source.inImem c.pc = true
  legal : legal c.ins = true
  aligned : (decode c.ins).memRe = true ∨ (decode c.ins).memWe = true →
    c.addr.toNat % c.size = 0
  load : (decode c.ins).memRe = true → Shared c c.addr
  store : (decode c.ins).memWe = true →
    SocParams.source.inDram c.addr = true ∨ c.addr = SocParams.source.tohostAddr

instance (c : Cpu) : Decidable (Plain c) :=
  decidable_of_iff ((c.pc.toNat % 4 = 0 ∧ SocParams.source.inImem c.pc = true) ∧
      BaseIsa.legal c.ins = true ∧
      ((decode c.ins).memRe = true ∨ (decode c.ins).memWe = true → c.addr.toNat % c.size = 0) ∧
      ((decode c.ins).memRe = true → Shared c c.addr) ∧
      ((decode c.ins).memWe = true →
        SocParams.source.inDram c.addr = true ∨ c.addr = SocParams.source.tohostAddr))
    ⟨fun h => ⟨h.1, h.2.1, h.2.2.1, h.2.2.2.1, h.2.2.2.2⟩,
      fun h => ⟨h.fetch, h.legal, h.aligned, h.load, h.store⟩⟩

/-- A legal instruction is not compressed. -/
theorem low_of_legal {ins : Word} (h : BaseIsa.legal ins = true) : ins.extractLsb 1 0 = 0b11#2 := by
  have hlow : ins.extractLsb 1 0 = (opcode ins).extractLsb 1 0 := by
    unfold opcode
    refine BitVec.eq_of_getLsbD_eq fun i hi => ?_
    have h2 : i < 2 := hi
    simp [h2, show i < 7 by omega]
  rw [hlow]
  cases kind_of_legal h with
  | lui op | auipc op | jal op | jalr op | branch op | load op | store op | opimm op | mext op
  | op op | fence op =>
    rw [op]
    decide

/-- A store never reaches the image. -/
theorem storeAt_imem (m : Mem) (b v : Word) (size : Nat) : (m.storeAt b v size).imem = m.imem := by
  have hstore : ∀ addr val be : Nat, (m.store addr val be).imem = m.imem := by
    intro addr val be
    unfold Mem.store
    split_ifs <;> rfl
  unfold Mem.storeAt
  split <;> exact hstore _ _ _

/-! ## Beside the core -/

section Join

variable {P : Params} {c : Cpu} {a : Arch}

/-- The state of the script and the architectural state, on the memories that the SoC and
the script share. -/
structure Joined (c : Cpu) (a : Arch) : Prop where
  pc : c.pc = a.pc
  regs : ∀ r, Regfile.get a.regs r = c.x r
  imem : ∀ b, SocParams.source.inImem b = true → a.mem.imem b = c.mem.imageByte b
  dmem : ∀ b, Shared c b → a.mem.dmem b = c.mem.byte b
  csr : a.csr = {}
  trig : a.trig = {}
  image : c.mem.imem.length ≤ 8192

/-- The architectural state with the memories of the script. -/
def scripted (c : Cpu) (a : Arch) : Arch :=
  { a with mem := { imem := c.mem.imageByte, dmem := c.mem.byte } }

namespace Joined

theorem coupled (h : Joined c a) : Coupled c (scripted c a) := ⟨h.pc, h.regs, rfl, rfl⟩

theorem bare (h : Joined c a) (P : Params) : Bare P a.csr a.trig := by
  rw [h.csr, h.trig]
  exact Bare.reset P

/-- The halfwords at the pc. -/
theorem half_eq (h : Joined c a) {p : Word} (hp : p.toNat % 2 = 0)
    (hin : SocParams.source.inImem p = true) :
    a.mem.imem.half p = (scripted c a).mem.imem.half p := by
  have hlast := SocParams.inImem_iff.mp hin
  have hbyte : ∀ i : BitVec 1, SocParams.source.inImem (p.extractLsb 31 1 ++ i) = true := by
    intro i
    have hi := i.isLt
    have hval : (p.extractLsb 31 1 ++ i : Word).toNat = p.toNat / 2 * 2 + i.toNat := by
      rw [Bytes.append_toNat, BitVec.extractLsb, BitVec.extractLsb'_toNat, Nat.shiftRight_eq_div_pow]
      have hlt := p.isLt
      omega
    rw [SocParams.inImem_iff, hval]
    have hwords : SocParams.source.imemWords = 8192 := rfl
    omega
  unfold Bytes.half
  rw [h.imem _ (hbyte 1#1), h.imem _ (hbyte 0#1)]
  rfl

/-- Both sides fetch the same instruction, of four bytes. -/
theorem fetch (h : Joined c a) (hp : Plain c) :
    a.mem.imem.compAt a.pc = false ∧ (scripted c a).mem.imem.compAt a.pc = false ∧
      c.ins = a.instr ∧ (scripted c a).instr = a.instr := by
  obtain ⟨hmod, hin⟩ := hp.fetch
  rw [h.pc] at hmod hin
  have hlast := SocParams.inImem_iff.mp hin
  have hwords : SocParams.source.imemWords = 8192 := rfl
  have hnext : (a.pc + 2#32).toNat = a.pc.toNat + 2 := by
    rw [BitVec.toNat_add]
    show (a.pc.toNat + 2) % 2 ^ 32 = _
    omega
  have hlow : a.mem.imem.half a.pc = (scripted c a).mem.imem.half a.pc := h.half_eq (by omega) hin
  have hhigh : a.mem.imem.half (a.pc + 2#32) = (scripted c a).mem.imem.half (a.pc + 2#32) := by
    refine h.half_eq (by rw [hnext]; omega) ?_
    rw [SocParams.inImem_iff, hnext]
    omega
  have hcomp : (scripted c a).mem.imem.compAt a.pc = false := by
    have hstart : (a.pc.extractLsb 31 1 ++ 0#1 : Word) = c.pc := by
      apply BitVec.eq_of_toNat_eq
      rw [Bytes.append_toNat, BitVec.extractLsb, BitVec.extractLsb'_toNat, Nat.shiftRight_eq_div_pow,
        h.pc]
      have hlt := a.pc.isLt
      have hzero : (0#1).toNat = 0 := rfl
      omega
    have hbyte : c.mem.imageByte c.pc = c.ins.extractLsb' 0 8 := by
      unfold Mem.imageByte Cpu.ins
      rw [show 8 * (c.pc.toNat % 4) = 0 by rw [h.pc, hmod]]
    have hlow := low_of_legal hp.legal
    show Rvc.isCompressed (c.mem.imageByte (a.pc.extractLsb 31 1 ++ 1#1) ++
      c.mem.imageByte (a.pc.extractLsb 31 1 ++ 0#1)) = false
    rw [hstart, hbyte]
    have hfirst : ∀ x y : BitVec 8, (x ++ y).extractLsb 1 0 = y.extractLsb 1 0 := by
      intro x y
      refine BitVec.eq_of_getLsbD_eq fun i hi => ?_
      have h8 : 0 + i < 8 := by omega
      simp only [BitVec.extractLsb, BitVec.getLsbD_extractLsb', BitVec.getLsbD_append, if_pos h8]
    have hbits : (c.ins.extractLsb' 0 8).extractLsb 1 0 = c.ins.extractLsb 1 0 := by
      refine BitVec.eq_of_getLsbD_eq fun i hi => ?_
      have h2 : i < 2 := hi
      simp [h2, show i < 8 by omega]
    unfold Rvc.isCompressed
    rw [bne_eq_false_iff_eq]
    exact (hfirst _ _).trans (hbits.trans hlow)
  have hcomp' : a.mem.imem.compAt a.pc = false := by
    unfold Bytes.compAt at hcomp ⊢
    rw [hlow]
    exact hcomp
  have hsame : (scripted c a).instr = a.instr := by
    have hinstr : ∀ m : Bytes, m.compAt a.pc = false →
        m.instrAt a.pc = m.half (a.pc + 2#32) ++ m.half a.pc := by
      intro m hm
      unfold Bytes.instrAt
      rw [if_neg (Bool.eq_false_iff.mp hm)]
    show (scripted c a).mem.imem.instrAt a.pc = a.mem.imem.instrAt a.pc
    rw [hinstr _ hcomp, hinstr _ hcomp', hlow, hhigh]
  have hins : c.ins = (scripted c a).instr :=
    fetch_aligned h.coupled hcomp (show a.pc.toNat % 4 < 2 by omega)
  exact ⟨hcomp', hcomp, hins.trans hsame, hsame⟩

/-- So they execute it with the same operands. -/
theorem xIn_eq (h : Joined c a) (hp : Plain c) (e : Env) : (scripted c a).xIn e = a.xIn e := by
  obtain ⟨hcomp, hcomp', -, hinstr⟩ := h.fetch hp
  have hlen : (scripted c a).len = a.len := by
    show (if (scripted c a).mem.imem.compAt a.pc then 2#3 else 4#3) =
      if a.mem.imem.compAt a.pc then 2#3 else 4#3
    rw [hcomp, hcomp']
  unfold Arch.xIn
  rw [hinstr, hlen]
  rfl

theorem env_eq (h : Joined c a) (hp : Plain c) : env (scripted c a) = env a := by
  obtain ⟨-, -, -, hinstr⟩ := h.fetch hp
  unfold env Arch.mdValue
  rw [hinstr]
  rfl

/-- And both sides have the same address. -/
theorem addr_eq (h : Joined c a) (hp : Plain c)
    (hmem : (decode a.instr).memRe = true ∨ (decode a.instr).memWe = true) :
    (a.xIn (env a)).aluY = c.addr := by
  obtain ⟨-, -, hins, hinstr⟩ := h.fetch hp
  have halu := aluY_address (a := scripted c a) (by rw [hinstr]; exact hmem)
  rw [h.xIn_eq hp, h.env_eq hp] at halu
  rw [halu]
  unfold address Cpu.addr
  rw [hinstr, hins, ← h.regs]
  rfl

/-- The script executes it. -/
theorem executes (h : Joined c a) (hp : Plain c) :
    Executes P c (a.xIn (env a)) (decode a.instr) c.next := by
  obtain ⟨-, hcomp, hins, hinstr⟩ := h.fetch hp
  have hx := Golden.executes (P := P) h.coupled (hins.trans hinstr.symm) hcomp
    (by rw [hinstr, ← hins]; exact kind_of_legal hp.legal)
  rw [h.xIn_eq hp, h.env_eq hp, hinstr] at hx
  exact hx

/-- The bytes of an aligned access lie in one word, so that they are shared as one. -/
theorem shared_byte {b : Word} {size k : Nat} (hs : Shared c b)
    (hsize : size = 1 ∨ size = 2 ∨ size = 4) (halign : b.toNat % size = 0) (hk : k < size) :
    Shared c (b + BitVec.ofNat 32 k) := by
  have hlt := b.isLt
  have hval : (b + BitVec.ofNat 32 k).toNat = b.toNat + k := by
    rw [BitVec.toNat_add, BitVec.toNat_ofNat]
    rcases hsize with rfl | rfl | rfl <;> omega
  have hword : (b.toNat + k) / 4 = b.toNat / 4 := by
    rcases hsize with rfl | rfl | rfl <;> omega
  rcases hs with hin | himage
  · refine Or.inl ?_
    have hsame : AlignedBlock.wordOf (b + BitVec.ofNat 32 k) = AlignedBlock.wordOf b := by
      rw [AlignedBlock.wordOf_eq_iff, hval, hword]
    rw [SocParams.inDram_congr hsame]
    exact hin
  · refine Or.inr ?_
    rw [hval, hword]
    exact himage

/-- **The lines** of the two sides. -/
theorem retires (h : Joined c a) (hp : Plain c) :
    (a.xw P a.env).writes a.resv a.mem = c.retire.write := by
  obtain ⟨-, -, hins, -⟩ := h.fetch hp
  have hx := h.executes (P := P) hp
  have hbase : Base a.instr := by
    rw [← hins]
    exact (kind_of_legal hp.legal).base
  have hrd : c.rd = (a.instr.extractLsb 11 7).toNat := by
    unfold Cpu.rd
    rw [hins, fields_rd]
  have hxrd : (a.xIn (env a)).rd = a.instr.extractLsb 11 7 := rfl
  show _ = Cpu.written c.rd c.next
  rw [← xw_env, step_writes (h.bare P) hbase, hrd, written_eq _ hx.trap hx.wb, hxrd]
  refine if_congr Iff.rfl (congrArg some (Prod.mk_right_inj.mpr ?_)) rfl
  cases hre : (decode a.instr).memRe with
  | false => rfl
  | true =>
    have haddr := h.addr_eq hp (.inl hre)
    have hre' : (decode c.ins).memRe = true := by rw [hins]; exact hre
    have hsize := size_cases a
    have halign : c.addr.toNat % size a = 0 := by
      have halign := hp.aligned (.inl hre')
      unfold Cpu.size at halign
      rw [hins] at halign
      exact halign
    have hround : alignTo c.addr (size a) = c.addr := by
      unfold alignTo
      rw [Nat.div_mul_cancel (Nat.dvd_of_mod_eq_zero halign), BitVec.ofNat_toNat,
        BitVec.setWidth_eq]
    rw [if_pos rfl, if_pos rfl, haddr]
    show loadBytes a.mem.dmem c.addr (size a) _ = loadBytes c.mem.byte (alignTo c.addr (size a)) _ _
    rw [hround]
    unfold loadBytes
    rw [value_congr fun k hk => h.dmem _ (shared_byte (hp.load hre') hsize halign hk)]
    rfl

/-- The registers. -/
theorem step_regs (h : Joined c a) (hp : Plain c) (r : BitVec 5) :
    Regfile.get (a.execute P).regs r = c.step.x r := by
  have hwrite := h.retires (P := P) hp
  show Regfile.get (Regfile.write a.regs (a.xw P a.env).regWe (a.xw P a.env).rd
    ((a.xw P a.env).value a.resv a.mem)) r = c.xNext r
  have hwrite' : Cpu.written c.rd c.next = (a.xw P a.env).writes a.resv a.mem := hwrite.symm
  unfold Cpu.xNext
  rw [hwrite']
  unfold XwReg.writes
  by_cases hwe : ((a.xw P a.env).regWe && (a.xw P a.env).rd != 0#5) = true
  · rw [if_pos hwe]
    rw [Bool.and_eq_true, bne_iff_ne] at hwe
    rw [hwe.1]
    dsimp only
    by_cases hr : r = (a.xw P a.env).rd
    · rw [if_pos hr, hr, Regfile.get_write_same hwe.2]
    · rw [if_neg hr, Regfile.get_write_of_ne fun _ => Ne.symm hr, h.regs]
  · rw [if_neg hwe]
    rw [Bool.and_eq_true, bne_iff_ne, not_and, not_not] at hwe
    have hsame : Regfile.write a.regs (a.xw P a.env).regWe (a.xw P a.env).rd
        ((a.xw P a.env).value a.resv a.mem) = a.regs := by
      cases hreg : (a.xw P a.env).regWe with
      | false => exact Regfile.write_false ..
      | true =>
        rw [hwe hreg]
        exact Regfile.write_zero ..
    rw [hsame, h.regs]

/-- The data memories. -/
theorem step_shared (h : Joined c a) (hp : Plain c) {b : Word} (hs : Shared c b) :
    (a.execute P).mem.dmem b = c.step.mem.byte b := by
  obtain ⟨-, -, hins, -⟩ := h.fetch hp
  have hx := h.executes (P := P) hp
  have hbase : Base a.instr := by
    rw [← hins]
    exact (kind_of_legal hp.legal).base
  have hmem : c.step.mem = c.next.mem := rfl
  rw [← execute_env, step_dmem (h.bare P) hbase, hmem, hx.mem]
  cases hwe : (decode a.instr).memWe with
  | false => exact h.dmem b hs
  | true =>
    have haddr := h.addr_eq hp (.inr hwe)
    have hwe' : (decode c.ins).memWe = true := by rw [hins]; exact hwe
    have hsize := size_cases a
    have halign : c.addr.toNat % size a = 0 := by
      have halign := hp.aligned (.inr hwe')
      unfold Cpu.size at halign
      rw [hins] at halign
      exact halign
    rw [if_pos rfl, if_pos rfl, haddr]
    show storeBytes a.mem.dmem c.addr (a.xIn (env a)).op2 (size a) b =
      (c.mem.storeAt c.addr (a.xIn (env a)).op2 (size a)).byte b
    generalize (a.xIn (env a)).op2 = v
    by_cases hin : Mem.inDram b.toNat = true
    · have hstore := (stores_iff c.mem c.addr v hsize).mpr (.of_aligned c.mem v hsize halign)
      rw [hstore b hin]
      unfold storeBytes
      rw [h.dmem b hs]
    · -- the image is not written, nor is the store near it
      have himage : b.toNat / 4 < c.mem.imem.length := by
        rcases hs with hdram | himage
        · have hrange := SocParams.inDram_iff.mp hdram
          have hbase : SocParams.source.dramBase.toNat = 0x80000000 := rfl
          have hwords : SocParams.source.dramWords = 8192 := rfl
          exact absurd (inDram_iff.mpr (by omega)) hin
        · exact himage
      have hfar : ¬ (b - c.addr).toNat < size a := by
        have himage' := h.image
        have haddr' : 0x20000000 ≤ c.addr.toNat ∧ c.addr.toNat < 0x80008000 := by
          rcases hp.store hwe' with hdram | htohost
          · have hrange := SocParams.inDram_iff.mp hdram
            have hbase : SocParams.source.dramBase.toNat = 0x80000000 := rfl
            have hwords : SocParams.source.dramWords = 8192 := rfl
            omega
          · rw [htohost]
            exact ⟨Nat.le_refl _, by decide⟩
        rw [BitVec.toNat_sub]
        omega
      unfold storeBytes Mem.byte Mem.loadWord
      rw [if_neg hfar, if_neg hin, storeAt_imem, h.dmem b hs]
      unfold Mem.byte Mem.loadWord
      rw [if_neg hin]

/-- **One instruction**, on both sides. -/
theorem step (h : Joined c a) (hp : Plain c) : Joined c.step (a.execute P) := by
  obtain ⟨-, -, hins, -⟩ := h.fetch hp
  have hx := h.executes (P := P) hp
  have hbase : Base a.instr := by
    rw [← hins]
    exact (kind_of_legal hp.legal).base
  have hkept : c.step.mem.imem = c.mem.imem := by
    have hmem : c.step.mem = c.next.mem := rfl
    rw [hmem, hx.mem]
    split
    · exact storeAt_imem ..
    · rfl
  obtain ⟨hcsr, htrig⟩ := execute_csr (h.bare P) hbase
  refine ⟨?_, h.step_regs hp, fun b hb => ?_, fun b hb => ?_, ?_, ?_, ?_⟩
  · rw [← execute_env, step_pc (h.bare P) hbase rfl]
    show (if c.next.trap.isSome then c.csr 0x305#12 else c.next.npc) = _
    rw [hx.trap]
    exact hx.npc
  · have himem : (a.execute P).mem.imem = a.mem.imem := Harvard.step_imem a a.env
    rw [himem, h.imem b hb]
    unfold Mem.imageByte Mem.ifetch
    rw [hkept]
  · refine h.step_shared hp ?_
    unfold Shared at hb ⊢
    rw [← hkept]
    exact hb
  · rw [hcsr, h.csr]
    rfl
  · rw [htrig, h.trig]
  · rw [hkept]
    exact h.image

/-- The access of the instruction, in one beat. -/
theorem accesses (h : Joined c a) (hp : Plain c) :
    (a.xw P a.env).twoBeat = false ∧
      (a.xw P a.env).accesses a.resv a.mem =
        if (decode c.ins).memRe then
          [⟨AlignedBlock.wordOf c.addr, (a.xw P a.env).beWin.extractLsb 3 0, false,
            a.mem.dmem.readWord (AlignedBlock.wordOf c.addr)⟩]
        else if (decode c.ins).memWe then
          [⟨AlignedBlock.wordOf c.addr, (a.xw P a.env).beWin.extractLsb 3 0, true,
            (a.xw P a.env).stWin.extractLsb 31 0⟩]
        else [] := by
  obtain ⟨-, -, hins, -⟩ := h.fetch hp
  have hbase : Base a.instr := by
    rw [← hins]
    exact (kind_of_legal hp.legal).base
  have haddr : (decode a.instr).memRe = true ∨ (decode a.instr).memWe = true →
      (a.xIn a.env).aluY = c.addr := h.addr_eq hp
  have halign : (decode a.instr).memRe = true ∨ (decode a.instr).memWe = true →
      (a.xIn a.env).aluY.toNat % accessSize (decode a.instr).memWidth = 0 := by
    intro hmem
    have halign := hp.aligned (hins ▸ hmem)
    unfold Cpu.size at halign
    rw [hins] at halign
    rw [haddr hmem]
    exact halign
  have hword : (decode a.instr).memRe = true ∨ (decode a.instr).memWe = true →
      (a.xw P a.env).wordAddr = AlignedBlock.wordOf c.addr := by
    intro hmem
    have hresult : (a.xw P a.env).result = (a.xIn a.env).aluY := XIn.xResult_of_mem hmem
    unfold XwReg.wordAddr
    rw [hresult, haddr hmem]
    rfl
  obtain ⟨hbeat, hacc⟩ := accesses_base (e := a.env) (h.bare P) hbase halign
  refine ⟨hbeat, ?_⟩
  rw [hacc, hins]
  cases hre : (decode a.instr).memRe with
  | true =>
    rw [if_pos rfl, if_pos rfl, hword (.inl hre)]
  | false =>
    rw [if_neg Bool.false_ne_true, if_neg Bool.false_ne_true]
    cases hwe : (decode a.instr).memWe with
    | true => rw [if_pos rfl, if_pos rfl, hword (.inr hwe)]
    | false => rfl

/-- Its line. -/
theorem shows_line (h : Joined c a) (hp : Plain c) :
    (a.shows P).filterMap Event.line = [c.retire] := by
  obtain ⟨-, -, hins, -⟩ := h.fetch hp
  have hbus : ∀ l : List Access, (l.map Event.bus).filterMap Event.line = [] := by
    intro l
    induction l with
    | nil => rfl
    | cons acc l ih => exact ih
  unfold Arch.shows Arch.events
  rw [List.filterMap_append, hbus, h.retires hp]
  show [(⟨a.pc, a.instr, c.retire.write⟩ : Cpu.Retire)] = [c.retire]
  rw [← hins, ← h.pc]
  rfl

/-- What it shows of the bus. -/
theorem shows_bus (h : Joined c a) (hp : Plain c) {acc : Access} (hacc : .bus acc ∈ a.shows P) :
    acc.addr = AlignedBlock.wordOf c.addr ∧
      (acc.write = false → (decode c.ins).memRe = true) ∧
      (acc.write = true → (decode c.ins).memWe = true ∧
        (c.addr.toNat % 4 = 0 → acc.be = 0b1111#4 ∨ acc.be.getLsbD 3 = false)) := by
  obtain ⟨-, -, hins, -⟩ := h.fetch hp
  unfold Arch.shows Arch.events Arch.accesses at hacc
  rw [List.mem_append, List.mem_map, (h.accesses hp).2] at hacc
  rcases hacc with ⟨acc', hin, hbus⟩ | hretire
  · obtain rfl := Event.bus.inj hbus
    split_ifs at hin with hre hwe
    · obtain rfl := List.mem_singleton.mp hin
      exact ⟨rfl, fun _ => hre, fun hw => absurd hw Bool.false_ne_true⟩
    · obtain rfl := List.mem_singleton.mp hin
      refine ⟨rfl, fun hw => absurd hw.symm Bool.false_ne_true, fun _ => ⟨hwe, fun hmod => ?_⟩⟩
      -- the lanes of a store to the start of a word
      have haddr : (a.xIn a.env).aluY = c.addr := h.addr_eq hp (.inr (hins ▸ hwe))
      have hlo : (a.xw P a.env).addrLo.toNat = 0 := by
        show ((a.xIn a.env).aluY.extractLsb 1 0).toNat = 0
        rw [haddr, BitVec.extractLsb, BitVec.extractLsb'_toNat, Nat.shiftRight_zero]
        exact hmod
      show (a.xw P a.env).beWin.extractLsb 3 0 = _ ∨
        ((a.xw P a.env).beWin.extractLsb 3 0).getLsbD 3 = false
      unfold XwReg.beWin
      rw [hlo]
      generalize (a.xw P a.env).memWidth = width
      revert width
      decide
    · cases hin
  · cases List.mem_singleton.mp hretire

/-- A store shows its access and then its line. -/
theorem shows_store (h : Joined c a) (hp : Plain c) (hwe : (decode c.ins).memWe = true) :
    ∃ acc wr, a.shows P = [.bus acc, .retire a.pc a.instr wr] ∧ acc.write = true ∧
      acc.addr = AlignedBlock.wordOf c.addr := by
  have hre : (decode c.ins).memRe = false := ((decode_classes c.ins).store hwe).2.2.1
  refine ⟨⟨AlignedBlock.wordOf c.addr, (a.xw P a.env).beWin.extractLsb 3 0, true,
    (a.xw P a.env).stWin.extractLsb 31 0⟩, (a.xw P a.env).writes a.resv a.mem, ?_, rfl, rfl⟩
  unfold Arch.shows Arch.events Arch.accesses
  rw [(h.accesses hp).2, hre, hwe, if_neg Bool.false_ne_true, if_pos rfl]
  rfl

/-- **A program**, on both sides: the same states and the same lines. -/
theorem run (h : Joined c a) (k : Nat) (hp : ∀ i < k, Plain (c.steps i)) :
    Joined (c.steps k) (a.executed P k) ∧ (a.log P k).filterMap Event.line = c.lines k := by
  induction k with
  | zero => exact ⟨h, rfl⟩
  | succ k ih =>
    obtain ⟨hk, hlines⟩ := ih fun i hi => hp i (Nat.lt_succ_of_lt hi)
    have hplain := hp k (Nat.lt_succ_self k)
    rw [Arch.executed_succ, Arch.log_succ, List.filterMap_append, hlines, hk.shows_line hplain]
    refine ⟨hk.step hplain, ?_⟩
    unfold Cpu.lines
    rw [List.range_succ, List.map_append]
    rfl

/-- It keeps the promises of the pipeline. -/
theorem paced (h : Joined c a) (k : Nat) (hp : ∀ i ≤ k, Plain (c.steps i)) : Paced P a k := by
  have hrun : ∀ i ≤ k, Joined (c.steps i) (a.executed P i) := fun i hi =>
    (h.run i fun j hj => hp j (by omega)).1
  constructor
  · intro i hi
    obtain ⟨-, -, hins, -⟩ := (hrun i hi).fetch (hp i hi)
    refine readsCounter_base ?_
    rw [← hins]
    exact (kind_of_legal (hp i hi).legal).base
  · intro i hi
    unfold Arch.feeds
    rw [((hrun i (Nat.le_of_lt hi)).accesses (hp i (Nat.le_of_lt hi))).1]
    rfl

end Joined

end Join

end Golden

end ThreeSippEs
