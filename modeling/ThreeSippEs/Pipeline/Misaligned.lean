import ThreeSippEs.Lib.LittleEndian
import ThreeSippEs.Pipeline.RvfiTrace

/-!
# Misaligned accesses

A load or store may start at any byte. X replicates the store data over the
lanes; W recovers them, places the access in a window of eight bytes and issues
the first word of the window, and the second one when the access runs into it.

- `loadBytes`, `storeBytes`: the access byte by byte, at addresses that wrap;
- `wLoad_bytes`, `stored_bytes`: the window computes them;
- `access_bytes`: one or two clocks of W do, for every load and store.
-/

namespace ThreeSippEs.Misaligned

open Clocked AlignedBlock LittleEndian DataIsolation RvfiTrace

/-! ## Byte by byte -/

/-- The value of the `size` bytes at `a`, extended to a register. -/
def loadBytes (m : Bytes) (a : Word) (size : Nat) (zeroExtend : Bool) : Word :=
  let v := BitVec.ofNat (8 * size) (value (fun k => m (a + BitVec.ofNat 32 k)) size)
  if zeroExtend then v.setWidth 32 else v.signExtend 32

/-- The bytes at `a`, `a + 1`, … replaced by the `size` low bytes of `v`. -/
def storeBytes (m : Bytes) (a v : Word) (size : Nat) : Bytes := fun b =>
  if (b - a).toNat < size then v.extractLsb' (8 * (b - a).toNat) 8 else m b

/-- The words an access touches: a second one when it crosses the end of the first. -/
def wordsOf (a : Word) (size : Nat) : List Word :=
  wordOf a :: if 4 < a.toNat % 4 + size then [wordOf a + 4#32] else []

/-! ## The window of a load -/

theorem byte_readWord (m : Bytes) (a : Word) {k : Nat} (hk : k < 4) :
    (m.readWord a).extractLsb' (8 * k) 8 = m (wordOf a + BitVec.ofNat 32 k) := by
  have hquad := LittleEndian.byte_quad (fun k => m (wordOf a + BitVec.ofNat 32 k)) hk
  rw [show BitVec.ofNat 32 0 = 0#32 by rfl, BitVec.add_zero] at hquad
  exact hquad

/-- The second word continues the first. -/
theorem byte_nextWord (m : Bytes) (a : Word) {k : Nat} (hk : k < 4) :
    (m.readWord (wordOf a + 4#32)).extractLsb' (8 * k) 8 =
      m (wordOf a + BitVec.ofNat 32 (k + 4)) := by
  rw [byte_readWord m _ hk, Bytes.wordOf_next, BitVec.add_assoc, Nat.add_comm k 4, BitVec.ofNat_add]

/-- The bytes of the window, as far as the access reaches. -/
theorem byte_comb (m : Bytes) (a : Word) {cross : Bool} {n : Nat} (hn : n ≤ 8)
    (hcross : 4 < n → cross = true) {k : Nat} (hk : k < n) :
    ((if cross then m.readWord (wordOf a + 4#32) else 0#32) ++ m.readWord a).extractLsb'
      (8 * k) 8 = m (wordOf a + BitVec.ofNat 32 k) := by
  refine LittleEndian.byte_pair (fun k => m (wordOf a + BitVec.ofNat 32 k)) hn
    (fun k hk => byte_readWord m a hk) (fun k hk hkn => ?_) hk
  rw [if_pos (hcross (by omega))]
  exact byte_nextWord m a hk

/-- Extending the low bytes of the shifted window. -/
theorem wLoad_eq (r : XwReg) (comb : BitVec 64) {byte : Nat → BitVec 8}
    (h : ∀ k < accessSize r.memWidth, comb.extractLsb' (r.bitOff + 8 * k) 8 = byte k) :
    r.wLoad comb =
      let v := BitVec.ofNat (8 * accessSize r.memWidth) (value byte (accessSize r.memWidth))
      if r.memUnsigned then v.setWidth 32 else v.signExtend 32 := by
  have hlow := ushiftRight_extractLsb' comb h
  unfold XwReg.wLoad accessSize at *
  by_cases h0 : r.memWidth = 0#2
  · rw [if_pos h0] at hlow ⊢
    rw [if_pos h0, ← hlow]
    rfl
  rw [if_neg h0] at hlow ⊢
  by_cases h1 : r.memWidth = 1#2
  · rw [if_pos h1] at hlow ⊢
    rw [if_neg h0, if_pos h1, ← hlow]
    rfl
  · -- a word needs no extension
    rw [if_neg h1] at hlow ⊢
    rw [if_neg h0, if_neg h1, ← hlow]
    split
    · exact (BitVec.setWidth_eq _).symm
    · exact (BitVec.signExtend_eq _).symm

/-! ## The window of a store -/

/-- A word write, by the distance of a byte from the word. -/
theorem writeWord_apply (m : Bytes) {w : Word} (hw : w.toNat % 4 = 0) (be : BitVec 4) (v b : Word) :
    m.writeWord w be v b =
      if (b - w).toNat < 4 ∧ be.getLsbD (b - w).toNat = true then
        v.extractLsb' (8 * (b - w).toNat) 8
      else m b := by
  have hb := b.isLt
  have hwlt := w.isLt
  have hsame : b.extractLsb 31 2 = w.extractLsb 31 2 ↔ (b - w).toNat < 4 := by
    rw [← BitVec.toNat_inj]
    simp only [BitVec.extractLsb, BitVec.extractLsb'_toNat, Nat.shiftRight_eq_div_pow,
      BitVec.toNat_sub]
    omega
  have hlane : (b - w).toNat < 4 → (b.extractLsb 1 0).toNat = (b - w).toNat := by
    intro h
    rw [BitVec.toNat_sub] at h ⊢
    simp only [BitVec.extractLsb, BitVec.extractLsb'_toNat, Nat.shiftRight_zero]
    omega
  unfold Bytes.writeWord
  by_cases h4 : (b - w).toNat < 4
  · rw [hlane h4, if_congr (and_congr_left fun _ => hsame) rfl rfl]
  · rw [if_neg fun h => h4 (hsame.mp h.1), if_neg fun h => h4 h.1]

/-- Byte `t` of the window is a byte of the operand. -/
theorem byte_stWin {r : XwReg} {v : Word}
    (hv : ∀ j < accessSize r.memWidth, r.storeData.extractLsb' (8 * j) 8 = v.extractLsb' (8 * j) 8)
    {t : Nat} (hlo : r.addrLo.toNat ≤ t) (hhi : t < r.addrLo.toNat + accessSize r.memWidth) :
    r.stWin.extractLsb' (8 * t) 8 = v.extractLsb' (8 * (t - r.addrLo.toNat)) 8 := by
  rw [← hv _ (by omega), ← byte_stRaw r (by omega)]
  unfold XwReg.stWin XwReg.bitOff
  have hsize : accessSize r.memWidth ≤ 4 := by
    unfold accessSize
    split_ifs <;> omega
  refine BitVec.eq_of_getLsbD_eq fun j hj => ?_
  have hidx : 8 * t + j - 8 * r.addrLo.toNat = 8 * (t - r.addrLo.toNat) + j := by omega
  rw [BitVec.getLsbD_extractLsb', BitVec.getLsbD_shiftLeft, BitVec.getLsbD_setWidth,
    BitVec.getLsbD_extractLsb', hidx]
  have hlt := r.addrLo.isLt
  have h64 : 8 * t + j < 64 := by omega
  have hge : ¬ 8 * t + j < 8 * r.addrLo.toNat := by omega
  have hin : 8 * (t - r.addrLo.toNat) + j < 64 := by omega
  simp [h64, hge, hin]

/-! ## The access in the X/W register -/

/-- A load or store whose byte offset is that of its address. -/
structure Placed (r : XwReg) : Prop where
  mem : (r.memRe || r.memWe) = true
  width : r.memWidth ≠ 3#2
  addrLo : r.addrLo = r.result.extractLsb 1 0

namespace Placed

variable {r : XwReg}

theorem offset (h : Placed r) : r.addrLo.toNat = r.result.toNat % 4 := by
  rw [h.addrLo, BitVec.extractLsb, BitVec.extractLsb'_toNat, Nat.shiftRight_zero]

theorem size_pos (r : XwReg) : 0 < accessSize r.memWidth ∧ accessSize r.memWidth ≤ 4 := by
  unfold accessSize
  split_ifs <;> omega

/-- A second beat is needed exactly when the access runs over the end of its word. -/
theorem crosses_iff (h : Placed r) :
    r.crosses = true ↔ 4 < r.addrLo.toNat + accessSize r.memWidth := by
  have table : ∀ width lo : BitVec 2, width ≠ 3#2 →
      (((width == 2#2 && lo != 0b00#2) || (width == 1#2 && lo == 0b11#2)) = true ↔
        4 < lo.toNat + accessSize width) := by decide
  unfold XwReg.crosses
  rw [h.mem, Bool.true_and]
  exact table _ _ h.width

/-- The start of the access, counted from its word. -/
theorem addr_eq (h : Placed r) : r.wordAddr + BitVec.ofNat 32 r.addrLo.toNat = r.result := by
  have hlo := wordOf_add_lo r.result
  rw [BitVec.ofNat_toNat, h.addrLo]
  exact hlo

/-- **Loads.** The assembled window holds the bytes at the address. -/
theorem load (h : Placed r) (m : Bytes) :
    r.wLoad ((if r.crosses then m.readWord (r.wordAddr + 4#32) else 0#32) ++
      m.readWord r.wordAddr) =
      loadBytes m r.result (accessSize r.memWidth) r.memUnsigned := by
  have hlt := r.addrLo.isLt
  have hsize := size_pos r
  have hword : m.readWord r.wordAddr = m.readWord r.result :=
    m.readWord_congr (Bytes.wordOf_wordOf r.result)
  rw [hword]
  refine wLoad_eq r _ (fun k hk => ?_)
  have hbyte := byte_comb m r.result (by omega) (fun h4 => h.crosses_iff.mpr h4)
    (Nat.add_lt_add_left hk r.addrLo.toNat)
  rw [Nat.mul_add] at hbyte
  refine hbyte.trans (congrArg m ?_)
  rw [BitVec.ofNat_add, ← BitVec.add_assoc]
  exact congrArg (· + BitVec.ofNat 32 k) h.addr_eq

/-- The word of an access starts at a multiple of four. -/
theorem word_mod (r : XwReg) : r.wordAddr.toNat % 4 = 0 := wordOf_mod r.result

/-- Byte `b` belongs to the access by its position in the window. -/
theorem position (h : Placed r) (b : Word) :
    ((b - r.result).toNat < accessSize r.memWidth ↔
      r.addrLo.toNat ≤ (b - r.wordAddr).toNat ∧
        (b - r.wordAddr).toNat < r.addrLo.toNat + accessSize r.memWidth) ∧
    (r.addrLo.toNat ≤ (b - r.wordAddr).toNat →
      (b - r.result).toNat = (b - r.wordAddr).toNat - r.addrLo.toNat) := by
  have hlo := r.addrLo.isLt
  have hsize := size_pos r
  have ht := (b - r.wordAddr).isLt
  have hpos : b - r.result = b - r.wordAddr - BitVec.ofNat 32 r.addrLo.toNat := by
    rw [← h.addr_eq, ← BitVec.sub_sub]
  rw [hpos]
  generalize b - r.wordAddr = t at ht ⊢
  rw [BitVec.toNat_sub, BitVec.toNat_ofNat]
  omega

/-- The first word holds the lanes below four. -/
theorem firstWord (m : Bytes) {v : Word}
    (hv : ∀ j < accessSize r.memWidth, r.storeData.extractLsb' (8 * j) 8 = v.extractLsb' (8 * j) 8)
    (b : Word) :
    m.writeWord r.wordAddr (r.beWin.extractLsb 3 0) (r.stWin.extractLsb 31 0) b =
      if (b - r.wordAddr).toNat < 4 ∧ r.addrLo.toNat ≤ (b - r.wordAddr).toNat ∧
          (b - r.wordAddr).toNat < r.addrLo.toNat + accessSize r.memWidth then
        v.extractLsb' (8 * ((b - r.wordAddr).toNat - r.addrLo.toNat)) 8
      else m b := by
  rw [writeWord_apply m (word_mod r)]
  generalize (b - r.wordAddr).toNat = t
  by_cases h4 : t < 4
  · have hbe : (r.beWin.extractLsb 3 0).getLsbD t = r.beWin.getLsbD t := by
      rw [BitVec.getLsbD_extractLsb, Nat.zero_add]
      simp
      omega
    rw [hbe, if_congr (and_congr_right fun _ => beWin_iff r (by omega)) rfl rfl]
    refine ite_congr rfl (fun ht => ?_) fun _ => rfl
    rw [← byte_stWin hv ht.2.1 ht.2.2]
    have hpart := byte_part r.stWin (show 0 + 8 * t + 7 ≤ 31 by omega)
    rw [Nat.zero_add] at hpart
    exact hpart
  · rw [if_neg fun h => h4 h.1, if_neg fun h => h4 h.1]

/-- The second word holds those from four on. -/
theorem secondWord (m : Bytes) {v : Word}
    (hv : ∀ j < accessSize r.memWidth, r.storeData.extractLsb' (8 * j) 8 = v.extractLsb' (8 * j) 8)
    (b : Word) :
    m.writeWord (r.wordAddr + 4#32) (r.beWin.extractLsb 7 4) (r.stWin.extractLsb 63 32) b =
      if 4 ≤ (b - r.wordAddr).toNat ∧ r.addrLo.toNat ≤ (b - r.wordAddr).toNat ∧
          (b - r.wordAddr).toNat < r.addrLo.toNat + accessSize r.memWidth then
        v.extractLsb' (8 * ((b - r.wordAddr).toNat - r.addrLo.toNat)) 8
      else m b := by
  have hlo := r.addrLo.isLt
  have hsize := size_pos r
  have ht := (b - r.wordAddr).isLt
  have hmod : (r.wordAddr + 4#32).toNat % 4 = 0 := next_wordOf_mod r.result
  rw [writeWord_apply m hmod, ← BitVec.sub_sub, BitVec.toNat_sub]
  generalize (b - r.wordAddr).toNat = t at ht ⊢
  have h4 : (4#32).toNat = 4 := rfl
  by_cases hge : 4 ≤ t
  · have hsub : (2 ^ 32 - (4#32).toNat + t) % 2 ^ 32 = t - 4 := by
      rw [h4]
      omega
    rw [hsub]
    by_cases h8 : t < 8
    · have hbe : (r.beWin.extractLsb 7 4).getLsbD (t - 4) = r.beWin.getLsbD t := by
        rw [BitVec.getLsbD_extractLsb, Nat.add_sub_cancel' hge]
        simp
        omega
      have hlt : t - 4 < 4 ↔ 4 ≤ t := by omega
      rw [hbe, if_congr (and_congr hlt (beWin_iff r h8)) rfl rfl]
      refine ite_congr rfl (fun ht => ?_) fun _ => rfl
      rw [← byte_stWin hv ht.2.1 ht.2.2, byte_part _ (by omega)]
      congr 1
      omega
    · -- behind the window
      rw [if_neg fun h => absurd h.1 (by omega), if_neg fun h => absurd h.2.2 (by omega)]
  · have hsub : ¬ (2 ^ 32 - (4#32).toNat + t) % 2 ^ 32 < 4 := by
      rw [h4]
      omega
    rw [if_neg fun h => hsub h.1, if_neg fun h => hge h.1]

/-- **Stores.** The enabled lanes of the window are the bytes at the address. -/
theorem store (h : Placed r) {v : Word}
    (hv : ∀ j < accessSize r.memWidth, r.storeData.extractLsb' (8 * j) 8 = v.extractLsb' (8 * j) 8)
    (m : Bytes) :
    (let m' := m.writeWord r.wordAddr (r.beWin.extractLsb 3 0) (r.stWin.extractLsb 31 0)
     if r.crosses then
       m'.writeWord (r.wordAddr + 4#32) (r.beWin.extractLsb 7 4) (r.stWin.extractLsb 63 32)
     else m') = storeBytes m r.result v (accessSize r.memWidth) := by
  funext b
  obtain ⟨hmem, hdist⟩ := h.position b
  have hfirst := firstWord m hv b
  have hsecond := secondWord
    (m.writeWord r.wordAddr (r.beWin.extractLsb 3 0) (r.stWin.extractLsb 31 0)) hv b
  unfold storeBytes
  by_cases hin : (b - r.result).toNat < accessSize r.memWidth
  · obtain ⟨hlo, hhi⟩ := hmem.mp hin
    rw [if_pos hin, hdist hlo]
    by_cases h4 : (b - r.wordAddr).toNat < 4
    · -- the byte is in the first word, and the second write passes it by
      rw [if_pos ⟨h4, hlo, hhi⟩] at hfirst
      rw [if_neg fun h => absurd h.1 (by omega)] at hsecond
      split
      · exact hsecond.trans hfirst
      · exact hfirst
    · have hcross : r.crosses = true := h.crosses_iff.mpr (by omega)
      rw [if_pos ⟨by omega, hlo, hhi⟩] at hsecond
      rw [if_pos hcross]
      exact hsecond
  · rw [if_neg hin]
    rw [if_neg fun h => hin (hmem.mpr h.2)] at hfirst hsecond
    split
    · exact hsecond.trans hfirst
    · exact hfirst

end Placed

/-! ## One access -/

section Access

variable {P : Params} {x : XIn}

/-- X hands over a placed access. -/
theorem placed_of_mem (hmem : (x.dec.memRe || x.dec.memWe) = true)
    (htrap : x.exTrap P = false) : Placed (x.xwNext P) := by
  have hresult : (x.xwNext P).result = x.aluY := XIn.xResult_of_mem (Bool.or_eq_true .. ▸ hmem)
  refine ⟨?_, decode_memWidth x.fxInstr, ?_⟩
  · show ((x.dec.memRe && !x.exTrap P) || (x.dec.memWe && !x.exTrap P)) = true
    rw [htrap, Bool.not_false, Bool.and_true, Bool.and_true]
    exact hmem
  · rw [hresult]
    rfl

/-- Its store data hold the bytes of the operand. -/
theorem storeData_bytes {j : Nat} (hj : j < accessSize x.dec.memWidth) :
    x.xStore.extractLsb' (8 * j) 8 = x.op2.extractLsb' (8 * j) 8 := by
  have hsize : accessSize x.dec.memWidth ≤ 4 := by
    unfold accessSize
    split_ifs <;> omega
  rw [byte_xStore x (by omega), Nat.mod_eq_of_lt hj]

/-! ### What it shows and leaves behind -/

/-- The words and directions of the bus accesses among `l`. -/
def beats (l : List Event) : List (Word × Bool) :=
  l.filterMap fun
    | .bus acc => some (acc.addr, acc.write)
    | .retire _ _ _ => none

/-- The instructions retired among `l`, with the register each one writes. -/
def retired (l : List Event) : List (Word × Word × Option (BitVec 5 × Word)) :=
  l.filterMap fun
    | .bus _ => none
    | .retire pc instr wr => some (pc, instr, wr)

theorem beats_append_retire (l : List Access) (pc instr : Word) (wr : Option (BitVec 5 × Word)) :
    beats (l.map .bus ++ [.retire pc instr wr]) = l.map fun acc => (acc.addr, acc.write) := by
  simp [beats, List.filterMap_append, List.filterMap_map]

theorem retired_append_retire (l : List Access) (pc instr : Word)
    (wr : Option (BitVec 5 × Word)) :
    retired (l.map .bus ++ [.retire pc instr wr]) = [(pc, instr, wr)] := by
  simp [retired, List.filterMap_append, List.filterMap_map]

/-- The words of the access. -/
theorem words_fst {r : XwReg} (h : Placed r) :
    r.words.map (·.1) = wordsOf r.result (accessSize r.memWidth) := by
  unfold XwReg.words wordsOf
  rw [← h.offset, if_congr h.crosses_iff.symm rfl rfl]
  split
  · rfl
  · rfl

/-- **A load performed in one go.** -/
theorem load_finish {r : XwReg} (h : Placed r) (hamo : r.isAmo = false) (hre : r.memRe = true)
    (imemWritable : Word → Bool) (d : Data) :
    (r.finish imemWritable d).mem = d.mem ∧
    beats (r.events d) = (wordsOf r.result (accessSize r.memWidth)).map (·, false) ∧
    retired (r.events d) = [(r.pc, r.instr, if r.regWe && r.rd != 0#5 then
      some (r.rd, loadBytes d.mem.dmem r.result (accessSize r.memWidth) r.memUnsigned)
      else none)] := by
  have hacc : r.accesses d.resv d.mem =
      r.words.map fun w => ⟨w.1, w.2.1, false, d.mem.dmem.readWord w.1⟩ := by
    unfold XwReg.accesses
    rw [hamo, hre]
    rfl
  have hval : r.value d.resv d.mem =
      loadBytes d.mem.dmem r.result (accessSize r.memWidth) r.memUnsigned := by
    unfold XwReg.value
    rw [hamo, hre, if_neg Bool.false_ne_true, if_pos rfl]
    exact h.load d.mem.dmem
  refine ⟨?_, ?_, ?_⟩
  · unfold XwReg.finish
    dsimp only
    rw [hacc, List.foldl_map]
    exact List.foldl_fixed' (fun _ => rfl) r.words
  · unfold XwReg.events
    rw [beats_append_retire, hacc, ← words_fst h, List.map_map, List.map_map]
    rfl
  · unfold XwReg.events XwReg.writes
    rw [retired_append_retire, hval]

/-- **A store performed in one go.** -/
theorem store_finish {r : XwReg} (h : Placed r) (hamo : r.isAmo = false) (hre : r.memRe = false)
    {v : Word}
    (hv : ∀ j < accessSize r.memWidth, r.storeData.extractLsb' (8 * j) 8 = v.extractLsb' (8 * j) 8)
    (imemWritable : Word → Bool) (d : Data) :
    (r.finish imemWritable d).mem.dmem = storeBytes d.mem.dmem r.result v (accessSize r.memWidth) ∧
    beats (r.events d) = (wordsOf r.result (accessSize r.memWidth)).map (·, true) := by
  have hwe : r.memWe = true := by
    have hmem := h.mem
    rw [hre, Bool.false_or] at hmem
    exact hmem
  have hacc : r.accesses d.resv d.mem = r.words.map fun w => ⟨w.1, w.2.1, true, w.2.2⟩ := by
    unfold XwReg.accesses
    rw [hamo, hre, hwe]
    rfl
  refine ⟨?_, ?_⟩
  · rw [← h.store hv d.mem.dmem]
    unfold XwReg.finish
    dsimp only
    rw [hacc]
    unfold XwReg.words
    split
    · rfl
    · rfl
  · unfold XwReg.events
    rw [beats_append_retire, hacc, ← words_fst h, List.map_map, List.map_map]
    rfl

end Access

/-! ## Runs -/

section Run

variable {P : Params} {imemWritable : Word → Bool} {s : Sys P}

theorem shown_congr {b b' : Backend} (hw : b.w = b'.w) (hm : b.mem = b'.mem) :
    b.shown = b'.shown := by
  unfold Backend.shown Backend.rdata
  rw [hw, hm]

/-- What a clock shows and writes depends on W and the memories only. -/
theorem mem_congr {b b' : Backend} (hw : b.w = b'.w) (hm : b.mem = b'.mem) (commit commit' : Bool)
    (next next' : XwReg) :
    (b.step imemWritable commit next).mem = (b'.step imemWritable commit' next').mem := by
  unfold Backend.step
  dsimp only
  rw [hw, hm]

variable (imemWritable) in
/-- **An instruction fresh in W**, in as many clocks as it needs, shows and
leaves in the memories what it does when it is performed in one go. -/
theorem fresh_run (hv : s.core.w.xwValid = true) (hb : s.core.w.beat2 = false)
    (hf : s.core.w.xw.Formed) (hamo : s.core.w.xw.isAmo = false) (ins : Nat → ExtIn) :
    ((List.range s.core.w.xw.words.length).flatMap fun k =>
      (run (Sys.step imemWritable) s ins k).backend.shown) =
      s.core.w.xw.events s.backend.data ∧
    (run (Sys.step imemWritable) s ins s.core.w.xw.words.length).mem =
      (s.core.w.xw.finish imemWritable s.backend.data).mem := by
  obtain ⟨hdr, hpe⟩ := Backend.drained_fresh imemWritable (b := s.backend) hv hb hf
  have hbeat : s.backend.w.memBeatStall = s.core.w.xw.crosses := by
    show s.core.w.memBeatStall = _
    unfold WStage.memBeatStall WStage.memMis WStage.amoRmwB1 WStage.amoHere
    rw [hv, hb, hamo]
    simp
  have hevents : s.core.w.xw.events s.backend.data = s.backend.pending imemWritable := hpe.symm
  have hfinish : s.core.w.xw.finish imemWritable s.backend.data =
      s.backend.drained imemWritable := hdr.symm
  rw [hevents, hfinish]
  unfold Backend.drained Backend.pending XwReg.words
  rw [hbeat]
  cases hc : s.core.w.xw.crosses with
  | false =>
    rw [if_neg Bool.false_ne_true, if_neg Bool.false_ne_true, if_neg Bool.false_ne_true]
    exact ⟨List.append_nil _, rfl⟩
  | true =>
    rw [if_pos rfl, if_pos rfl, if_pos rfl]
    -- in the first beat X waits, and W takes nothing from it
    obtain ⟨hnext, -⟩ := Backend.last_of_beat imemWritable (hbeat.trans hc)
      s.core.xCommit ((s.xIn (ins 0)).xwNext P)
    have hstep := congrArg Backend.w hnext
    have hw : (s.step imemWritable (ins 0)).backend.w =
        (s.backend.step imemWritable false {}).w := hstep
    refine ⟨?_, mem_congr hw rfl false false {} {}⟩
    show s.backend.shown ++ ((s.step imemWritable (ins 0)).backend.shown ++ []) = _
    rw [List.append_nil, shown_congr hw rfl]

/-- **Misaligned accesses are byte-wise accesses.** A load or store leaves X
without an exception. For every width, extension, address, operand and memory it
then occupies W for one clock, or for two exactly when it crosses the end of a
word, each with one access to one word; a load retires with the bytes at its
address and changes no memory, a store changes exactly those bytes. -/
theorem access_bytes (s : Sys P) (ins : Nat → ExtIn) (hcommit : s.commits = true)
    (hmem : ((s.xIn (ins 0)).dec.memRe || (s.xIn (ins 0)).dec.memWe) = true)
    (htrap : (s.xIn (ins 0)).exTrap P = false) :
    let x := s.xIn (ins 0)
    let size := accessSize x.dec.memWidth
    let n := (wordsOf x.aluY size).length
    let sys k := run (Sys.step imemWritable) s ins (1 + k)
    let shown := (List.range n).flatMap fun k => (sys k).backend.shown
    beats shown = (wordsOf x.aluY size).map (·, x.dec.memWe) ∧
    (x.dec.memRe = true → (sys n).mem = (sys 0).mem ∧
      retired shown = [(x.fxPc, x.fxInstr, if x.rd = 0#5 then none else
        some (x.rd, loadBytes (sys 0).mem.dmem x.aluY size x.dec.memUnsigned))]) ∧
    (x.dec.memWe = true →
      (sys n).mem.dmem = storeBytes (sys 0).mem.dmem x.aluY x.op2 size ∧
      retired shown = [(x.fxPc, x.fxInstr, none)]) := by
  intro x size n sys shown
  have hsys : ∀ k, sys k = run (Sys.step imemWritable) (s.step imemWritable (ins 0))
      (fun j => ins (1 + j)) k := fun k => run_add (Sys.step imemWritable) s ins 1 k
  obtain ⟨hc, hb⟩ : s.core.xCommit = true ∧ s.core.w.memBeatStall = false := by
    unfold Sys.commits at hcommit
    simpa using hcommit
  -- the access enters W
  obtain ⟨hval, hxw, hbeat⟩ := s.core.w.step_of_not_stall hb (s.coreIn (ins 0)).dmemRdata
    s.core.xCommit (x.xwNext P)
  have hplaced : Placed (x.xwNext P) := placed_of_mem hmem htrap
  have hresult : (x.xwNext P).result = x.aluY := XIn.xResult_of_mem (Bool.or_eq_true .. ▸ hmem)
  have hamo : (x.xwNext P).isAmo = false := by
    show (x.amoValid && !x.exTrap P) = false
    rw [XIn.amoValid_eq_false (Bool.or_eq_true .. ▸ hmem), Bool.false_and]
  have hw : (s.step imemWritable (ins 0)).core.w.xw = x.xwNext P := hxw
  have hlen : n = (x.xwNext P).words.length := by
    rw [← List.length_map (·.1), words_fst hplaced, hresult]
    rfl
  obtain ⟨hshown, hleft⟩ := fresh_run imemWritable (s := s.step imemWritable (ins 0))
    (hval.trans hc) hbeat (hw ▸ XIn.xwNext_formed P x) (hw ▸ hamo) (fun j => ins (1 + j))
  rw [hw, ← hlen] at hshown hleft
  have hseen : shown = (x.xwNext P).events (s.step imemWritable (ins 0)).backend.data := by
    rw [← hshown]
    exact List.flatMap_congr fun k _ => congrArg (fun t => (Sys.backend t).shown) (hsys k)
  rw [hseen, hsys n, hleft, hsys 0]
  have hre : (x.xwNext P).memRe = x.dec.memRe := by
    show (x.dec.memRe && !x.exTrap P) = _
    rw [htrap, Bool.not_false, Bool.and_true]
  have hregWe : (x.xwNext P).regWe = x.dec.regWe := by
    show ((x.dec.regWe || x.amoValid) && !x.exTrap P) = _
    rw [htrap, XIn.amoValid_eq_false (Bool.or_eq_true .. ▸ hmem), Bool.or_false, Bool.not_false,
      Bool.and_true]
  cases hload : x.dec.memRe with
  | true =>
    have hwe : x.dec.regWe = true := ((decode_classes x.fxInstr).load hload).1
    have hnot : x.dec.memWe = false := ((decode_classes x.fxInstr).load hload).2.2.1
    obtain ⟨hkept, hbeats, hret⟩ := load_finish hplaced hamo (hre.trans hload) imemWritable
      (s.step imemWritable (ins 0)).backend.data
    rw [hresult] at hbeats hret
    rw [hnot]
    refine ⟨hbeats, fun _ => ⟨hkept, ?_⟩, fun h => absurd h Bool.false_ne_true⟩
    rw [hret, hregWe, hwe, Bool.true_and, if_congr bne_iff_ne rfl rfl]
    exact congrArg (fun wr => [(x.fxPc, x.fxInstr, wr)]) (ite_not ..)
  | false =>
    have hstore : x.dec.memWe = true := by
      rw [hload, Bool.false_or] at hmem
      exact hmem
    have hwe : x.dec.regWe = false := ((decode_classes x.fxInstr).store hstore).1
    obtain ⟨hdmem, hbeats⟩ := store_finish hplaced hamo (hre.trans hload)
      (fun j hj => storeData_bytes hj) imemWritable (s.step imemWritable (ins 0)).backend.data
    rw [hresult] at hdmem hbeats
    rw [hstore]
    refine ⟨hbeats, fun h => absurd h Bool.false_ne_true, fun _ => ⟨hdmem, ?_⟩⟩
    unfold XwReg.events XwReg.writes
    rw [retired_append_retire, hregWe, hwe]
    rfl

/-- An instruction in X, with the same word in all registers. -/
def wrapping (instr : Word) : Sys {} where
  core :=
    { Core.powerUp {} with
      f := { (Core.powerUp {}).f with fxValid := true, fxInstr := instr }
      regs := fun _ => 0x44332211#32 }
  mem := { imem := fun _ => 0#8, dmem := fun a => a.extractLsb' 0 8 }

/-- `lw x1, -2(x0)` and `sw x1, -2(x0)`: the second word is the first of the memory. -/
theorem access_bytes_wrapping :
    (let sys k := run (Sys.step fun _ => false) (wrapping 0xFFE02083#32) (fun _ => {}) (1 + k)
     let shown := (List.range 2).flatMap fun k => (sys k).backend.shown
     beats shown = [(0xFFFFFFFC#32, false), (0#32, false)] ∧ (sys 2).mem = (sys 0).mem ∧
       retired shown = [(0#32, 0xFFE02083#32, some (1#5, 0x0100FFFE#32))]) ∧
    (let sys k := run (Sys.step fun _ => false) (wrapping 0xFE102F23#32) (fun _ => {}) (1 + k)
     let shown := (List.range 2).flatMap fun k => (sys k).backend.shown
     beats shown = [(0xFFFFFFFC#32, true), (0#32, true)] ∧
       (sys 2).mem.dmem = storeBytes (sys 0).mem.dmem 0xFFFFFFFE#32 0x44332211#32 4 ∧
       retired shown = [(0#32, 0xFE102F23#32, none)]) :=
  ⟨⟨(access_bytes (wrapping 0xFFE02083#32) (fun _ => {}) rfl rfl rfl).1,
      (access_bytes (wrapping 0xFFE02083#32) (fun _ => {}) rfl rfl rfl).2.1 rfl⟩,
    (access_bytes (wrapping 0xFE102F23#32) (fun _ => {}) rfl rfl rfl).1,
    (access_bytes (wrapping 0xFE102F23#32) (fun _ => {}) rfl rfl rfl).2.2 rfl⟩

end Run

end ThreeSippEs.Misaligned
