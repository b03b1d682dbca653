import ThreeSippEs.Common.Pkg

/-!
# PMP checker (`three_sipp_es_pmp.sv`)

The combinational access check for one memory reference, for any number of
regions `n` (`NPMP`). The flat vectors `cfg` and `addrreg` are indexed by
region.
-/

namespace ThreeSippEs.Pmp

/-- An access, as the checker sees it. -/
structure Access where
  /-- `priv_m`: 1 = M-mode, 0 = U-mode -/
  privM : Bool
  /-- `do_r`, `do_w`, `do_x` -/
  doR : Bool := false
  doW : Bool := false
  doX : Bool := false
  deriving DecidableEq

/-- `mseccfg.MMWP` and `mseccfg.MML`. -/
structure Mode where
  mmwp : Bool
  mml : Bool
  deriving DecidableEq

/-- Smepmp truth table with MML=1: `{L,R,W,X}` to `{M r,w,x, U r,w,x}`. -/
def mmlPerm (lrwx : BitVec 4) : BitVec 6 :=
  match lrwx.toNat with
  | 0b0000 => 0b000000#6
  | 0b0001 => 0b000001#6
  | 0b0010 => 0b110100#6
  | 0b0011 => 0b110110#6
  | 0b0100 => 0b000100#6
  | 0b0101 => 0b000101#6
  | 0b0110 => 0b000110#6
  | 0b0111 => 0b000111#6
  | 0b1000 => 0b000000#6
  | 0b1001 => 0b001000#6
  | 0b1010 => 0b001001#6
  | 0b1011 => 0b101001#6
  | 0b1100 => 0b100000#6
  | 0b1101 => 0b101000#6
  | 0b1110 => 0b110000#6
  | _ => 0b100100#6

/-- `A = c[4:3]` -/
def cfgA (c : BitVec 8) : BitVec 2 := c.extractLsb 4 3
def cfgL (c : BitVec 8) : Bool := c.getLsbD 7
def cfgX (c : BitVec 8) : Bool := c.getLsbD 2
def cfgW (c : BitVec 8) : Bool := c.getLsbD 1
def cfgR (c : BitVec 8) : Bool := c.getLsbD 0

/-- The NAPOT size mask `pa ^ (pa + 1)`. -/
def napotMask (pa : Word) : Word := pa ^^^ (pa + 1#32)

/-- `match[i]`, for the address in 4-byte units. -/
def regionMatch (c : BitVec 8) (pa paPrev aw : Word) : Bool :=
  -- OFF, TOR, NA4, NAPOT
  if cfgA c = 0#2 then false
  else if cfgA c = 1#2 then paPrev.ule aw && aw.ult pa
  else if cfgA c = 2#2 then aw == pa
  else (aw &&& ~~~napotMask pa) == (pa &&& ~~~napotMask pa)

/-- `allow[i]`: every requested access type must be permitted. -/
def regionAllow (c : BitVec 8) (acc : Access) (mode : Mode) : Bool :=
  let perm := (!acc.doX || cfgX c) && (!acc.doR || cfgR c) && (!acc.doW || cfgW c)
  let mp := mmlPerm (BitVec.ofBool (cfgL c) ++ BitVec.ofBool (cfgR c) ++
    BitVec.ofBool (cfgW c) ++ BitVec.ofBool (cfgX c))
  let rwx : BitVec 3 := if acc.privM then mp.extractLsb 5 3 else mp.extractLsb 2 0
  if mode.mml then
    (!acc.doR || rwx.getLsbD 2) && (!acc.doW || rwx.getLsbD 1) && (!acc.doX || rwx.getLsbD 0)
  -- without MML an unlocked rule does not bind M-mode
  else if acc.privM && !cfgL c then true
  else perm

variable {n : Nat}

/-- `pa_prev`: the preceding address register, or 0 below region 0. -/
def paPrev (addrreg : Fin n → Word) (i : Fin n) : Word :=
  if i.val = 0 then 0#32 else addrreg ⟨i.val - 1, by omega⟩

/-- `aw`: the address in 4-byte units. -/
def aw (addr : Word) : Word := (addr.extractLsb 31 2).setWidth 32

/-- The reverse scan: region 0 is written last, so the lowest match wins. The
pair is `(matched, sel_allow)`. -/
def scan (hit allow : Fin n → Bool) : Bool × Bool :=
  (List.finRange n).foldr (fun i acc => if hit i then (true, allow i) else acc) (false, false)

/-- `three_sipp_es_pmp`: the output `fault`. -/
def fault (cfg : Fin n → BitVec 8) (addrreg : Fin n → Word) (addr : Word)
    (acc : Access) (mode : Mode) : Bool :=
  let r := scan (fun i => regionMatch (cfg i) (addrreg i) (paPrev addrreg i) (aw addr))
    (fun i => regionAllow (cfg i) acc mode)
  -- no rule matches: U-mode is denied, M-mode where MMWP or MML says so
  if r.1 then !r.2 else !acc.privM || mode.mmwp || (mode.mml && acc.doX)

end ThreeSippEs.Pmp
