import ThreeSippEs.Golden.Operands

/-!
# The memory of the golden model, byte by byte

The script keeps words. A load takes its value out of one of them and a store changes
lanes of one, so that both see the address rounded down: halfwords to an even lane, words
to a multiple of four.

- `load_eq`: the bytes a load reads;
- `byte_storeAt_narrow`, `byte_storeAt_word`: the bytes a store leaves;
- `stores_iff`: when these are the bytes at the address.
-/

namespace ThreeSippEs.Golden

open Decode DataIsolation LittleEndian Misaligned

/-! ## Bytes -/

namespace Mem

variable (m : Mem)

/-- A byte of the data memory. -/
def byte (b : Word) : BitVec 8 := (m.loadWord b.toNat).extractLsb' (8 * (b.toNat % 4)) 8

/-- A byte of the instruction memory. -/
def imageByte (b : Word) : BitVec 8 := (m.ifetch b.toNat).extractLsb' (8 * (b.toNat % 4)) 8

end Mem

theorem inDram_iff {addr : Nat} :
    Mem.inDram addr = true ↔ 0x80000000 ≤ addr ∧ addr < 0x90000000 := by
  unfold Mem.inDram
  rw [Bool.and_eq_true, decide_eq_true_eq, decide_eq_true_eq]
  exact Iff.rfl

/-- Both bounds are word boundaries. -/
theorem inDram_congr {u v : Nat} (h : u / 4 = v / 4) : Mem.inDram u = Mem.inDram v := by
  rw [Bool.eq_iff_iff, inDram_iff, inDram_iff]
  omega

theorem loadWord_congr (m : Mem) {u v : Nat} (h : u / 4 = v / 4) : m.loadWord u = m.loadWord v := by
  unfold Mem.loadWord
  rw [inDram_congr h]
  split
  · rename_i hin
    have hv := inDram_iff.mp hin
    have hu := inDram_iff.mp ((inDram_congr h).trans hin)
    have hidx : (u - dramBase) >>> 2 = (v - dramBase) >>> 2 := by
      rw [Nat.shiftRight_eq_div_pow, Nat.shiftRight_eq_div_pow]
      unfold dramBase
      omega
    rw [hidx]
  · have hidx : u >>> 2 = v >>> 2 := by
      rw [Nat.shiftRight_eq_div_pow, Nat.shiftRight_eq_div_pow]
      exact h
    rw [hidx]

/-- The address rounded down to a multiple of the size. -/
def alignTo (a : Word) (size : Nat) : Word := BitVec.ofNat 32 (a.toNat / size * size)

/-! ## Loads -/

/-- The bytes from the rounded address on are lanes of the word at the address. -/
theorem byte_align (m : Mem) (a : Word) {size : Nat} (hsize : size = 1 ∨ size = 2 ∨ size = 4)
    {k : Nat} (hk : k < size) :
    m.byte (alignTo a size + BitVec.ofNat 32 k) =
      (m.loadWord a.toNat).extractLsb' (8 * (a.toNat % 4 / size * size) + 8 * k) 8 := by
  have hlt := a.isLt
  have haddr : (alignTo a size + BitVec.ofNat 32 k).toNat = a.toNat / size * size + k := by
    unfold alignTo
    rw [← BitVec.ofNat_add, BitVec.toNat_ofNat]
    rcases hsize with rfl | rfl | rfl <;> omega
  have hword : (a.toNat / size * size + k) / 4 = a.toNat / 4 := by
    rcases hsize with rfl | rfl | rfl <;> omega
  have hlane : 8 * ((a.toNat / size * size + k) % 4) =
      8 * (a.toNat % 4 / size * size) + 8 * k := by
    rcases hsize with rfl | rfl | rfl <;> omega
  unfold Mem.byte
  rw [haddr, loadWord_congr m hword, hlane]

/-- The access as a part of that word. -/
theorem loadBytes_align (m : Mem) (a : Word) {size : Nat} (hsize : size = 1 ∨ size = 2 ∨ size = 4)
    (zeroExtend : Bool) :
    loadBytes m.byte (alignTo a size) size zeroExtend =
      let v := (m.loadWord a.toNat).extractLsb' (8 * (a.toNat % 4 / size * size)) (8 * size)
      if zeroExtend then v.setWidth 32 else v.signExtend 32 := by
  have hvalue : BitVec.ofNat (8 * size)
      (value (fun k => m.byte (alignTo a size + BitVec.ofNat 32 k)) size) =
      (m.loadWord a.toNat).extractLsb' (8 * (a.toNat % 4 / size * size)) (8 * size) := by
    rw [value_congr fun k hk => byte_align m a hsize hk, ← toNat_extractLsb', BitVec.ofNat_toNat,
      BitVec.setWidth_eq]
  unfold loadBytes
  rw [hvalue]

/-- Accesses read the same value where they read the same bytes. -/
theorem loadBytes_inj {m : Bytes} {a b : Word} {size : Nat} (hsize : size ≤ 4) {zeroExtend : Bool} :
    loadBytes m a size zeroExtend = loadBytes m b size zeroExtend ↔
      ∀ k < size, m (a + BitVec.ofNat 32 k) = m (b + BitVec.ofNat 32 k) := by
  constructor
  · intro h
    have hext : ∀ u v : BitVec (8 * size), (if zeroExtend then u.setWidth 32 else u.signExtend 32) =
        (if zeroExtend then v.setWidth 32 else v.signExtend 32) → u = v := by
      intro u v huv
      refine BitVec.eq_of_getLsbD_eq fun i hi => ?_
      have hbit := congrArg (BitVec.getLsbD · i) huv
      have h32 : i < 32 := by omega
      cases zeroExtend with
      | true =>
        simp only [if_true, BitVec.getLsbD_setWidth, h32, decide_true, Bool.true_and] at hbit
        exact hbit
      | false =>
        simp only [Bool.false_eq_true, if_false, BitVec.getLsbD_signExtend, h32, hi, if_true,
          decide_true, Bool.true_and] at hbit
        exact hbit
    have hvalue := congrArg BitVec.toNat (hext _ _ h)
    have h256 : 256 ^ size = 2 ^ (8 * size) := by rw [show 256 = 2 ^ 8 by rfl, ← pow_mul]
    rw [BitVec.toNat_ofNat, BitVec.toNat_ofNat, ← h256, Nat.mod_eq_of_lt (value_lt ..),
      Nat.mod_eq_of_lt (value_lt ..)] at hvalue
    exact value_inj hvalue
  · intro h
    unfold loadBytes
    rw [value_congr h]

/-- The script extends with the sign or without. -/
theorem u32_sext {n : Nat} (h : 0 < n) (x : BitVec n) : u32 (sext x.toNat n) = x.signExtend 32 := by
  rw [sext_field h]
  rfl

theorem u32_zext {n : Nat} (x : BitVec n) : u32 x.toNat = x.setWidth 32 := by
  rw [u32_natCast, BitVec.ofNat_toNat]

/-- **Loads.** The value the script writes back. -/
theorem load_eq {c : Cpu} {f : Fields} {f3 : BitVec 3} {a : Word} {width : BitVec 2}
    {zeroExtend : Bool} (h3 : f.f3 = f3.toNat) (ha : u32 (c.a f + f.immI) = a)
    (hop : loadOp f3 = some (width, zeroExtend)) :
    c.load f = { c.out with wb := some (loadBytes c.mem.byte (alignTo a (accessSize width))
      (accessSize width) zeroExtend) } := by
  have hoff : a.toNat &&& 3 = a.toNat % 4 := Nat.and_two_pow_sub_one_eq_mod _ 2
  have hhalf : 16 * ((a.toNat % 4) >>> 1) = 8 * (a.toNat % 4 / 2 * 2) := by
    rw [Nat.shiftRight_eq_div_pow]
    omega
  have hlane : a.toNat % 4 / 1 * 1 = a.toNat % 4 := by omega
  have hbyte := @loadBytes_align c.mem a 1 (.inl rfl)
  have hhalfword := @loadBytes_align c.mem a 2 (.inr (.inl rfl))
  have hword := @loadBytes_align c.mem a 4 (.inr (.inr rfl))
  rw [hlane] at hbyte
  unfold Cpu.load
  rw [h3, ha]
  dsimp only
  rw [hoff, hhalf]
  generalize c.mem.loadWord a.toNat = w at *
  rcases f3_cases f3 with rfl | rfl | rfl | rfl | rfl | rfl | rfl | rfl
  · obtain ⟨rfl, rfl⟩ := Prod.mk.inj (Option.some.inj hop)
    show { c.out with wb := some (u32 (sext ((w.toNat >>> (8 * (a.toNat % 4))) &&& 0xFF : Nat) 8)) }
      = { c.out with wb := some (loadBytes c.mem.byte (alignTo a 1) 1 false) }
    rw [field w _ 8 0xFF rfl, u32_sext (by omega), hbyte]
    rfl
  · obtain ⟨rfl, rfl⟩ := Prod.mk.inj (Option.some.inj hop)
    show { c.out with
        wb := some (u32 (sext ((w.toNat >>> (8 * (a.toNat % 4 / 2 * 2))) &&& 0xFFFF : Nat) 16)) }
      = { c.out with wb := some (loadBytes c.mem.byte (alignTo a 2) 2 false) }
    rw [field w _ 16 0xFFFF rfl, u32_sext (by omega), hhalfword]
    rfl
  · obtain ⟨rfl, rfl⟩ := Prod.mk.inj (Option.some.inj hop)
    show { c.out with wb := some (u32 w.toNat) }
      = { c.out with wb := some (loadBytes c.mem.byte (alignTo a 4) 4 false) }
    have hfull : w.extractLsb' (8 * (a.toNat % 4 / 4 * 4)) (8 * 4) = w := by
      rw [show a.toNat % 4 / 4 * 4 = 0 by omega]
      exact BitVec.extractLsb'_eq_self
    rw [u32_toNat, hword, hfull]
    exact congrArg (fun v => { c.out with wb := some v }) (BitVec.signExtend_eq w).symm
  · exact absurd hop (Option.some_ne_none _).symm
  · obtain ⟨rfl, rfl⟩ := Prod.mk.inj (Option.some.inj hop)
    show { c.out with wb := some (u32 ((w.toNat >>> (8 * (a.toNat % 4))) &&& 0xFF : Nat)) }
      = { c.out with wb := some (loadBytes c.mem.byte (alignTo a 1) 1 true) }
    rw [field w _ 8 0xFF rfl, u32_zext, hbyte]
    rfl
  · obtain ⟨rfl, rfl⟩ := Prod.mk.inj (Option.some.inj hop)
    show { c.out with
        wb := some (u32 ((w.toNat >>> (8 * (a.toNat % 4 / 2 * 2))) &&& 0xFFFF : Nat)) }
      = { c.out with wb := some (loadBytes c.mem.byte (alignTo a 2) 2 true) }
    rw [field w _ 16 0xFFFF rfl, u32_zext, hhalfword]
    rfl
  · exact absurd hop (Option.some_ne_none _).symm
  · exact absurd hop (Option.some_ne_none _).symm

/-! ## Stores -/

/-- The lanes of the new word. -/
theorem byte_lanes (cur : Word) (val be : Nat) {k : Nat} (hk : k < 4) :
    (u32 (Mem.lanes cur.toNat val be)).extractLsb' (8 * k) 8 =
      if be.testBit k then BitVec.ofNat 8 (val >>> (8 * k)) else cur.extractLsb' (8 * k) 8 := by
  have hbit : (be >>> k) &&& 1 = 1 ↔ be.testBit k = true := by
    rw [Nat.testBit_eq_decide_div_mod_eq, decide_eq_true_eq, Nat.shiftRight_eq_div_pow]
    exact Eq.congr_left (Nat.and_two_pow_sub_one_eq_mod _ 1)
  have hlane : ∀ b, (if (be >>> b) &&& 1 = 1 then (val >>> (8 * b)) &&& 0xFF
      else (cur.toNat >>> (8 * b)) &&& 0xFF) < 2 ^ 8 := by
    intro b
    split
    · exact Nat.lt_succ_of_le Nat.and_le_right
    · exact Nat.lt_succ_of_le Nat.and_le_right
  refine BitVec.eq_of_getLsbD_eq fun j hj => ?_
  have h32 : 8 * k + j < 32 := by omega
  have hmask : (0xFF).testBit j = true := by
    rw [show 0xFF = 2 ^ 8 - 1 by rfl, Nat.testBit_two_pow_sub_one, decide_eq_true hj]
  rw [u32_natCast, BitVec.getLsbD_extractLsb', BitVec.getLsbD_ofNat, decide_eq_true hj,
    decide_eq_true h32, Bool.true_and, Bool.true_and]
  refine (testBit_foldl_or hlane 4 hj).trans ?_
  rw [decide_eq_true hk, Bool.true_and, if_congr hbit rfl rfl]
  split
  · rw [Nat.testBit_and, hmask, Bool.and_true, BitVec.getLsbD_ofNat, decide_eq_true hj,
      Bool.true_and]
  · rw [Nat.testBit_and, hmask, Bool.and_true, Nat.testBit_shiftRight, BitVec.testBit_toNat,
      BitVec.getLsbD_extractLsb', decide_eq_true hj, Bool.true_and]

/-- A store changes the enabled lanes of the word at its address. -/
theorem byte_store (m : Mem) (addr val be : Nat) {b : Word} (hb : Mem.inDram b.toNat = true) :
    (m.store addr val be).byte b =
      if b.toNat / 4 = addr / 4 ∧ be.testBit (b.toNat % 4) = true then
        BitVec.ofNat 8 (val >>> (8 * (b.toNat % 4)))
      else m.byte b := by
  have hload : ∀ m' : Mem, m'.byte b =
      (m'.dram ((b.toNat - dramBase) >>> 2)).extractLsb' (8 * (b.toNat % 4)) 8 := by
    intro m'
    unfold Mem.byte Mem.loadWord
    rw [if_pos hb]
  have hrange := inDram_iff.mp hb
  unfold Mem.store
  by_cases htohost : addr = tohostAddr
  · rw [if_pos htohost, if_neg]
    · rfl
    · rintro ⟨hword, -⟩
      rw [htohost] at hword
      unfold tohostAddr at hword
      omega
  rw [if_neg htohost]
  by_cases hin : Mem.inDram addr = true
  · have haddr := inDram_iff.mp hin
    have hidx : (b.toNat - dramBase) >>> 2 = (addr - dramBase) >>> 2 ↔ b.toNat / 4 = addr / 4 := by
      rw [Nat.shiftRight_eq_div_pow, Nat.shiftRight_eq_div_pow]
      unfold dramBase
      omega
    rw [if_pos hin, hload, hload]
    dsimp only
    by_cases hword : b.toNat / 4 = addr / 4
    · rw [if_pos (hidx.mpr hword), byte_lanes _ _ _ (Nat.mod_lt _ (by omega)), ← hidx.mpr hword]
      exact if_congr (and_iff_right hword).symm rfl rfl
    · rw [if_neg fun h => hword (hidx.mp h), if_neg fun h => hword h.1]
  · rw [if_neg hin, if_neg]
    rintro ⟨hword, -⟩
    exact hin (inDram_congr hword ▸ hb)

/-- The three arms of the stores: a word is not shifted. -/
def Mem.storeAt (m : Mem) (a v : Word) (size : Nat) : Mem :=
  if size = 4 then m.store a.toNat v.toNat 0b1111
  else m.store a.toNat ((v.toNat &&& (2 ^ (8 * size) - 1)) <<< (8 * (a.toNat % 4)))
    ((2 ^ size - 1) <<< (a.toNat % 4))

/-- **Stores.** What the script hands to the memory. -/
theorem store_eq {c : Cpu} {f : Fields} {f3 : BitVec 3} {a v : Word} {width : BitVec 2}
    (h3 : f.f3 = f3.toNat) (ha : u32 (c.a f + f.immS) = a) (hv : c.b f = v.toNat)
    (hop : storeOp f3 = some width) :
    c.store f = { c.out with mem := c.mem.storeAt a v (accessSize width) } := by
  have hoff : a.toNat &&& 3 = a.toNat % 4 := Nat.and_two_pow_sub_one_eq_mod _ 2
  unfold Cpu.store
  rw [h3, ha, hv]
  dsimp only
  rw [hoff]
  rcases f3_cases f3 with rfl | rfl | rfl | rfl | rfl | rfl | rfl | rfl
  · obtain rfl := Option.some.inj hop
    rfl
  · obtain rfl := Option.some.inj hop
    rfl
  · obtain rfl := Option.some.inj hop
    rfl
  all_goals exact absurd hop (Option.some_ne_none _).symm

/-- Bytes and halfwords: those at the address, as far as they lie in its word. -/
theorem byte_storeAt_narrow (m : Mem) (a v : Word) {size : Nat} (hsize : size = 1 ∨ size = 2)
    {b : Word} (hb : Mem.inDram b.toNat = true) :
    (m.storeAt a v size).byte b =
      if b.toNat / 4 = a.toNat / 4 ∧ a.toNat ≤ b.toNat ∧ b.toNat < a.toNat + size then
        v.extractLsb' (8 * (b.toNat - a.toNat)) 8
      else m.byte b := by
  have hbe : ((2 ^ size - 1) <<< (a.toNat % 4)).testBit (b.toNat % 4) = true ↔
      a.toNat % 4 ≤ b.toNat % 4 ∧ b.toNat % 4 - a.toNat % 4 < size := by
    rw [Nat.testBit_shiftLeft, Nat.testBit_two_pow_sub_one, Bool.and_eq_true, decide_eq_true_eq,
      decide_eq_true_eq]
  have hin : (b.toNat / 4 = a.toNat / 4 ∧ a.toNat % 4 ≤ b.toNat % 4 ∧
      b.toNat % 4 - a.toNat % 4 < size) ↔
      b.toNat / 4 = a.toNat / 4 ∧ a.toNat ≤ b.toNat ∧ b.toNat < a.toNat + size := by
    omega
  unfold Mem.storeAt
  rw [if_neg (by omega), byte_store m _ _ _ hb, if_congr ((and_congr_right fun _ => hbe).trans hin)
    rfl rfl]
  refine ite_congr rfl (fun h => ?_) fun _ => rfl
  refine BitVec.eq_of_getLsbD_eq fun j hj => ?_
  have hlane : 8 * (b.toNat % 4) + j - 8 * (a.toNat % 4) = 8 * (b.toNat - a.toNat) + j := by omega
  have hge : 8 * (a.toNat % 4) ≤ 8 * (b.toNat % 4) + j := by omega
  have hlow : 8 * (b.toNat - a.toNat) + j < 8 * size := by omega
  rw [BitVec.getLsbD_ofNat, BitVec.getLsbD_extractLsb', Nat.testBit_shiftRight,
    Nat.testBit_shiftLeft, hlane, Nat.testBit_and, Nat.testBit_two_pow_sub_one,
    decide_eq_true hlow, decide_eq_true hge, BitVec.testBit_toNat, Bool.and_true, Bool.true_and]

/-- Words: those of its word. -/
theorem byte_storeAt_word (m : Mem) (a v : Word) {b : Word} (hb : Mem.inDram b.toNat = true) :
    (m.storeAt a v 4).byte b =
      if b.toNat / 4 = a.toNat / 4 then v.extractLsb' (8 * (b.toNat % 4)) 8 else m.byte b := by
  have hbe : ∀ k < 4, (0b1111).testBit k = true := by decide
  unfold Mem.storeAt
  rw [if_pos rfl, byte_store m _ _ _ hb, if_congr (and_iff_left (hbe _ (Nat.mod_lt _ (by omega))))
    rfl rfl]
  refine ite_congr rfl (fun _ => ?_) fun _ => rfl
  refine BitVec.eq_of_getLsbD_eq fun j hj => ?_
  rw [BitVec.getLsbD_ofNat, BitVec.getLsbD_extractLsb', Nat.testBit_shiftRight,
    BitVec.testBit_toNat]

/-! ### Against the bytes at the address -/

/-- The lanes of a store that the script loses or moves hold the right bytes anyway. -/
structure Stores (m : Mem) (a v : Word) (size : Nat) : Prop where
  /-- behind the word of the address nothing is written -/
  spill : ∀ j < size, 4 ≤ a.toNat % 4 + j → Mem.inDram (a.toNat + j) = true →
    m.byte (a + BitVec.ofNat 32 j) = v.extractLsb' (8 * j) 8
  /-- a word is written from the start of that word on: its first bytes go below the address -/
  below : size = 4 → Mem.inDram a.toNat = true → ∀ k < a.toNat % 4,
    m.byte (alignTo a 4 + BitVec.ofNat 32 k) = v.extractLsb' (8 * k) 8
  /-- and the others to places that belong to earlier ones -/
  moved : size = 4 → Mem.inDram a.toNat = true → ∀ k < 4, a.toNat % 4 ≤ k →
    v.extractLsb' (8 * k) 8 = v.extractLsb' (8 * (k - a.toNat % 4)) 8

/-- A store to a multiple of its size loses and moves nothing. -/
theorem Stores.of_aligned (m : Mem) {a : Word} (v : Word) {size : Nat}
    (hsize : size = 1 ∨ size = 2 ∨ size = 4) (h : a.toNat % size = 0) : Stores m a v size := by
  refine ⟨fun j hj hfar => ?_, fun h4 _ k hk => ?_, fun h4 _ k _ _ => ?_⟩
  · rcases hsize with rfl | rfl | rfl <;> omega
  · subst h4
    omega
  · subst h4
    rw [h, Nat.sub_zero]

/-- The bytes at the address do not wrap into the DRAM. -/
theorem storeBytes_dram (m : Bytes) (a v : Word) {size : Nat} (hsize : size ≤ 4) {b : Word}
    (hb : Mem.inDram b.toNat = true) :
    storeBytes m a v size b =
      if a.toNat ≤ b.toNat ∧ b.toNat < a.toNat + size then v.extractLsb' (8 * (b.toNat - a.toNat)) 8
      else m b := by
  have hrange := inDram_iff.mp hb
  have ha := a.isLt
  have hsub : (b - a).toNat < size ↔ a.toNat ≤ b.toNat ∧ b.toNat < a.toNat + size := by
    rw [BitVec.toNat_sub]
    omega
  unfold storeBytes
  rw [if_congr hsub rfl rfl]
  refine ite_congr rfl (fun h => ?_) fun _ => rfl
  have hdist : (b - a).toNat = b.toNat - a.toNat := by
    rw [BitVec.toNat_sub]
    omega
  rw [hdist]

theorem alignTo_add_toNat (a : Word) {k : Nat} (hk : k < 4) :
    (alignTo a 4 + BitVec.ofNat 32 k).toNat = a.toNat / 4 * 4 + k := by
  have ha := a.isLt
  unfold alignTo
  rw [← BitVec.ofNat_add, BitVec.toNat_ofNat]
  omega

/-- Bytes that agree everywhere agree on the lanes in question. -/
theorem Stores.of_bytes {m : Mem} {a v : Word} {size : Nat}
    (hsize : size = 1 ∨ size = 2 ∨ size = 4)
    (h : ∀ b : Word, Mem.inDram b.toNat = true →
      (m.storeAt a v size).byte b = storeBytes m.byte a v size b) : Stores m a v size := by
  have ha := a.isLt
  have hle : size ≤ 4 := by omega
  have hnarrow : size ≠ 4 → size = 1 ∨ size = 2 := by omega
  refine ⟨fun j hj hfar hin => ?_, fun h4 hin k hk => ?_, fun h4 hin k hk hge => ?_⟩
  · have hrange := inDram_iff.mp hin
    have hnat : (a + BitVec.ofNat 32 j).toNat = a.toNat + j := by
      rw [BitVec.toNat_add, BitVec.toNat_ofNat]
      omega
    have hb : Mem.inDram (a + BitVec.ofNat 32 j).toNat = true := by
      rw [hnat]
      exact hin
    have heq := h _ hb
    rw [storeBytes_dram _ _ _ hle hb, hnat, if_pos (by omega), Nat.add_sub_cancel_left] at heq
    rw [← heq]
    by_cases h4 : size = 4
    · subst h4
      rw [byte_storeAt_word m a v hb, if_neg (by omega)]
    · rw [byte_storeAt_narrow m a v (hnarrow h4) hb, if_neg (by omega)]
  · subst h4
    have hnat := alignTo_add_toNat a (k := k) (by omega)
    have hb : Mem.inDram (alignTo a 4 + BitVec.ofNat 32 k).toNat = true := by
      rw [hnat, inDram_congr (v := a.toNat) (by omega)]
      exact hin
    have heq := h _ hb
    have hmod : (a.toNat / 4 * 4 + k) % 4 = k := by omega
    rw [storeBytes_dram _ _ _ hle hb, byte_storeAt_word m a v hb, hnat, if_pos (by omega),
      if_neg (by omega), hmod] at heq
    exact heq.symm
  · subst h4
    have hnat := alignTo_add_toNat a hk
    have hb : Mem.inDram (alignTo a 4 + BitVec.ofNat 32 k).toNat = true := by
      rw [hnat, inDram_congr (v := a.toNat) (by omega)]
      exact hin
    have heq := h _ hb
    have hmod : (a.toNat / 4 * 4 + k) % 4 = k := by omega
    have hdist : a.toNat / 4 * 4 + k - a.toNat = k - a.toNat % 4 := by omega
    rw [storeBytes_dram _ _ _ hle hb, byte_storeAt_word m a v hb, hnat, if_pos (by omega),
      if_pos (by omega), hmod, hdist] at heq
    exact heq

/-- Lane by lane: those behind the word, below the address, and the others. -/
theorem Stores.bytes {m : Mem} {a v : Word} {size : Nat}
    (hsize : size = 1 ∨ size = 2 ∨ size = 4) (hs : Stores m a v size) {b : Word}
    (hb : Mem.inDram b.toNat = true) :
    (m.storeAt a v size).byte b = storeBytes m.byte a v size b := by
  have ha := a.isLt
  have hle : size ≤ 4 := by omega
  have hnarrow : size ≠ 4 → size = 1 ∨ size = 2 := by omega
  have hrange := inDram_iff.mp hb
  -- a byte of the access outside its word
  have hspill : a.toNat ≤ b.toNat → b.toNat < a.toNat + size → b.toNat / 4 ≠ a.toNat / 4 →
      m.byte b = v.extractLsb' (8 * (b.toNat - a.toNat)) 8 := by
    intro hlo hhi hword
    have hnat : a + BitVec.ofNat 32 (b.toNat - a.toNat) = b := by
      apply BitVec.eq_of_toNat_eq
      rw [BitVec.toNat_add, BitVec.toNat_ofNat]
      omega
    have hin : Mem.inDram (a.toNat + (b.toNat - a.toNat)) = true := by
      rw [Nat.add_sub_cancel' hlo]
      exact hb
    have hbyte := hs.spill (b.toNat - a.toNat) (by omega) (by omega) hin
    rw [hnat] at hbyte
    exact hbyte
  rw [storeBytes_dram _ _ _ hle hb]
  by_cases h4 : size = 4
  · subst h4
    rw [byte_storeAt_word m a v hb]
    by_cases hword : b.toNat / 4 = a.toNat / 4
    · have hin : Mem.inDram a.toNat = true := (inDram_congr hword).symm.trans hb
      rw [if_pos hword]
      by_cases hlo : a.toNat ≤ b.toNat
      · have hdist : b.toNat % 4 - a.toNat % 4 = b.toNat - a.toNat := by omega
        have hmoved := hs.moved rfl hin (b.toNat % 4) (by omega) (by omega)
        rw [if_pos (by omega), hmoved, hdist]
      · have hnat : alignTo a 4 + BitVec.ofNat 32 (b.toNat % 4) = b := by
          apply BitVec.eq_of_toNat_eq
          rw [alignTo_add_toNat a (by omega)]
          omega
        have hbelow := hs.below rfl hin (b.toNat % 4) (by omega)
        rw [hnat] at hbelow
        rw [if_neg (by omega), hbelow]
    · rw [if_neg hword]
      by_cases hin : a.toNat ≤ b.toNat ∧ b.toNat < a.toNat + 4
      · rw [if_pos hin]
        exact hspill hin.1 hin.2 hword
      · rw [if_neg hin]
  · rw [byte_storeAt_narrow m a v (hnarrow h4) hb]
    by_cases hin : a.toNat ≤ b.toNat ∧ b.toNat < a.toNat + size
    · by_cases hword : b.toNat / 4 = a.toNat / 4
      · rw [if_pos ⟨hword, hin⟩, if_pos hin]
      · rw [if_neg fun h => hword h.1, if_pos hin]
        exact hspill hin.1 hin.2 hword
    · rw [if_neg fun h => hin h.2, if_neg hin]

/-- **Stores.** The script leaves the bytes of the store in the DRAM exactly then. -/
theorem stores_iff (m : Mem) (a v : Word) {size : Nat} (hsize : size = 1 ∨ size = 2 ∨ size = 4) :
    (∀ b : Word, Mem.inDram b.toNat = true →
      (m.storeAt a v size).byte b = storeBytes m.byte a v size b) ↔ Stores m a v size :=
  ⟨Stores.of_bytes hsize, fun hs _ hb => hs.bytes hsize hb⟩

end ThreeSippEs.Golden
