import ThreeSippEs.Common.CounterWrites
import ThreeSippEs.Debug.Hart
import ThreeSippEs.Pipeline.XView

/-!
# The registers of the hart, as the debugger sees them

What a register reads as, what a write of `v` leaves in it, and the write itself, for the
GPRs and for the CSRs of the four files: `dcsr`, `dpc` and `dscratch0`, the triggers, the
user traps and the machine-mode file.

- `Core.value`, `Core.put`, `Core.legal`: the read, the write and the write rule;
- `Csr.legal`: the rules of the CSR file, register by register;
- `value_put`: a write leaves what the rule says;
- `value_put_ne`: and every other register as it was, the slots behind `tselect` apart.
-/

namespace ThreeSippEs

/-! ## Machine-mode CSRs -/

namespace Csr

variable {P : CsrParams} {c d : Csr} {irq : IrqLines} {a b : BitVec 12} {v : Word}

/-- Both files hold the same in the register at `a`. -/
structure Agree (c d : Csr) (a : BitVec 12) : Prop where
  pmpaddr : isPmpaddr a = true →
    d.pmpaddr (a.extractLsb 3 0) = c.pmpaddr (a.extractLsb 3 0) := by intros; rfl
  pmpcfg : isPmpcfg a = true →
    ∀ jb, d.pmpcfg (cfgIndex a jb) = c.pmpcfg (cfgIndex a jb) := by intros; rfl
  mseccfg : a = csrMseccfg → d.mseccfg = c.mseccfg := by intros; rfl
  mstatus : a = csrMstatus → d.mstatus = c.mstatus := by intros; rfl
  mie : a = csrMie → d.mie = c.mie := by intros; rfl
  mtvec : a = csrMtvec → d.mtvec = c.mtvec := by intros; rfl
  mscratch : a = csrMscratch → d.mscratch = c.mscratch := by intros; rfl
  mepc : a = csrMepc → d.mepc = c.mepc := by intros; rfl
  mcause : a = csrMcause → d.mcause = c.mcause := by intros; rfl
  mtval : a = csrMtval → d.mtval = c.mtval := by intros; rfl
  mhpmevent : ∀ k, group4 csrMhpmevent3 a = some k →
    d.mhpmevent k = c.mhpmevent k := by intros; rfl
  ctr : d.ctr = c.ctr := by rfl

/-- A read depends on the register that it reads. -/
theorem Agree.rdata (h : Agree c d a) : d.rdata P irq a = c.rdata P irq a := by
  have hread : d.readCounter a = c.readCounter a := by
    unfold readCounter
    rw [h.ctr]
  unfold Csr.rdata
  rw [hread]
  refine ite_congr rfl (fun hp => h.pmpaddr hp.2) fun _ => ite_congr rfl (fun hp => ?_) fun _ =>
    ite_congr rfl (fun hp => ?_) fun _ => ite_congr rfl h.mstatus fun _ =>
    ite_congr rfl (fun _ => rfl) fun _ => ite_congr rfl h.mie fun _ => ite_congr rfl h.mtvec fun _ =>
    ite_congr rfl h.mscratch fun _ => ite_congr rfl h.mepc fun _ => ite_congr rfl h.mcause fun _ =>
    ite_congr rfl h.mtval fun _ => ite_congr rfl (fun _ => rfl) fun _ =>
    ite_congr rfl (fun _ => rfl) fun _ => ?_
  · have hcfg := h.pmpcfg hp.2
    rw [hcfg, hcfg, hcfg, hcfg]
  · rw [h.mseccfg hp.2]
  · cases c.readCounter a with
    | some w => rfl
    | none =>
      cases hk : group4 csrMhpmevent3 a with
      | none => rfl
      | some k =>
        dsimp only
        rw [h.mhpmevent k hk]

/-- The positions in a group tell its addresses apart. -/
theorem group4_inj {base : BitVec 12} {k : Fin 4} (ha : group4 base a = some k)
    (hb : group4 base b = some k) : a = b := by
  have haddr : ∀ x : BitVec 12, group4 base x = some k → x = base + BitVec.ofNat 12 k.val := by
    intro x hx
    unfold group4 at hx
    split_ifs at hx with h0 h1 h2 h3
    · obtain rfl := Option.some.inj hx
      rw [h0]
      exact (BitVec.add_zero base).symm
    · obtain rfl := Option.some.inj hx
      exact h1
    · obtain rfl := Option.some.inj hx
      exact h2
    · obtain rfl := Option.some.inj hx
      exact h3
  rw [haddr a ha, haddr b hb]

/-- Two addresses that share their upper bits differ in the lower ones. -/
theorem extractLsb_ne (n : Nat) (hn : 0 < n) (hn' : n < 12) (hne : a ≠ b)
    (hhi : a.extractLsb 11 n = b.extractLsb 11 n) :
    a.extractLsb (n - 1) 0 ≠ b.extractLsb (n - 1) 0 := by
  intro hlo
  refine hne (BitVec.eq_of_getLsbD_eq fun j hj => ?_)
  by_cases hjn : j < n
  · have h := congrArg (fun x => BitVec.getLsbD x j) hlo
    simp only [BitVec.getLsbD_extractLsb] at h
    simpa [show j ≤ n - 1 by omega] using h
  · have h := congrArg (fun x => BitVec.getLsbD x (j - n)) hhi
    simp only [BitVec.getLsbD_extractLsb] at h
    have hle : j - n ≤ 11 - n := by omega
    have hadd : n + (j - n) = j := by omega
    simpa [hle, hadd] using h

/-- The register and the byte of a configuration. -/
theorem cfgIndex_split (a : BitVec 12) (jb : BitVec 2) :
    (cfgIndex a jb).extractLsb 3 2 = a.extractLsb 1 0 ∧ (cfgIndex a jb).extractLsb 1 0 = jb := by
  unfold cfgIndex
  generalize a.extractLsb 1 0 = x
  revert x jb
  decide

/-- A property of what a write leaves is checked register by register. -/
theorem write_arms {p : Csr → Prop}
    (hpmpaddr : isPmpaddr a = true →
      p { c with pmpaddr := c.writePmpaddr (a.extractLsb 3 0) v })
    (hpmpcfg : isPmpcfg a = true → p { c with pmpcfg := c.writePmpcfg a v })
    (hmseccfg : a = csrMseccfg → p { c with mseccfg := c.writeMseccfg P v })
    (hmstatus : a = csrMstatus → p { c with mstatus := writeMstatus P v })
    (hmie : a = csrMie → p { c with mie := v })
    (hmtvec : a = csrMtvec → p { c with mtvec := v.extractLsb 31 2 ++ 0b00#2 })
    (hmscratch : a = csrMscratch → p { c with mscratch := v })
    (hmepc : a = csrMepc → p { c with mepc := v })
    (hmcause : a = csrMcause → p { c with mcause := v })
    (hmtval : a = csrMtval → p { c with mtval := v })
    (hmhpmevent : ∀ k, group4 csrMhpmevent3 a = some k →
      p { c with mhpmevent := fun j => if j = k then v.extractLsb 5 0 else c.mhpmevent j })
    (hnone : p c) : p (c.write P a v) := by
  have ite : ∀ {q : Prop} [Decidable q] {d d' : Csr}, (q → p d) → p d' → p (if q then d else d') :=
    fun hd hd' => iteInduction (motive := p) hd fun _ => hd'
  unfold write
  refine ite (fun h => hpmpaddr h.2) (ite (fun h => hpmpcfg h.2) (ite (fun h => hmseccfg h.2)
    (ite hmstatus (ite hmie (ite hmtvec (ite hmscratch (ite hmepc (ite hmcause (ite hmtval ?_)))))))))
  cases hk : group4 csrMhpmevent3 a with
  | none => exact hnone
  | some k => exact hmhpmevent k hk

/-- **Frame**: a write leaves every other register. -/
theorem rdata_write_ne (hne : b ≠ a) : (c.write P a v).rdata P irq b = c.rdata P irq b := by
  have hother : ∀ {x : BitVec 12} {q : Prop}, a = x → b = x → q := fun ha hb =>
    absurd (hb.trans ha.symm) hne
  have hagree : Agree c (c.write P a v) b := by
    refine write_arms (p := fun d => Agree c d b) (fun ha => ?_) (fun ha => ?_)
      (fun ha => { mseccfg := hother ha }) (fun ha => { mstatus := hother ha })
      (fun ha => { mie := hother ha }) (fun ha => { mtvec := hother ha })
      (fun ha => { mscratch := hother ha }) (fun ha => { mepc := hother ha })
      (fun ha => { mcause := hother ha }) (fun ha => { mtval := hother ha }) (fun k ha => ?_) {}
    · refine { pmpaddr := fun hb => if_neg fun hk => ?_ }
      exact extractLsb_ne 4 (by omega) (by omega) hne
        ((beq_iff_eq.mp hb).trans (beq_iff_eq.mp ha).symm) hk.1
    · refine { pmpcfg := fun hb jb => if_neg fun hk => ?_ }
      exact extractLsb_ne 2 (by omega) (by omega) hne
        ((beq_iff_eq.mp hb).trans (beq_iff_eq.mp ha).symm) ((cfgIndex_split b jb).1.symm.trans hk.1)
    · refine { mhpmevent := fun j hb => if_neg ?_ }
      rintro rfl
      exact hne (group4_inj hb ha)
  exact hagree.rdata

/-- The codes `L R W X` that Machine Mode Lockdown lets no write create: an executable rule
for M-mode alone, and a locked rule for shared code. -/
def lockdownCodes : List (BitVec 4) := [0b1001#4, 0b1010#4, 0b1011#4, 0b1101#4]

/-- The code `L R W X` of a configuration byte. -/
def lrwx (b : BitVec 8) : BitVec 4 :=
  BitVec.ofBool (b.getLsbD 7) ++ BitVec.ofBool (b.getLsbD 0) ++ BitVec.ofBool (b.getLsbD 1) ++
    BitVec.ofBool (b.getLsbD 2)

/-- What byte `jb` of a `pmpcfg` register becomes. Rule-locking bypass, bit 2 of `mseccfg`,
lets every value through; without it a locked byte stays, and under lockdown, bit 0 of
`mseccfg`, so does one that would get a forbidden code. -/
def legalCfg (c : Csr) (a : BitVec 12) (v : Word) (jb : BitVec 2) : BitVec 8 :=
  let old := c.pmpcfg (a.extractLsb 1 0 ++ jb)
  let new := v.extractLsb' (8 * jb.toNat) 8
  if c.mseccfg.getLsbD 2 then new
  else if old.getLsbD 7 then old
  else if c.mseccfg.getLsbD 0 ∧ lrwx new ∈ lockdownCodes then old
  else new

/-- A `pmpaddr` register keeps its value under a lock that is not bypassed. -/
def legalAddr (c : Csr) (k : BitVec 4) (v : Word) : Word :=
  if (c.pmpcfg k).getLsbD 7 ∧ c.mseccfg.getLsbD 2 = false then c.pmpaddr k else v

/-- `mseccfg`: MML and MMWP stay set, and RLB follows the value unless it is clear and some
rule is locked. -/
def legalMseccfg (P : CsrParams) (c : Csr) (v : Word) : Word :=
  0#29 ++
    BitVec.ofBool
      (if c.mseccfg.getLsbD 2 ∨ ∀ k < P.pmpRegions, (c.pmpcfg (BitVec.ofNat 4 k)).getLsbD 7 = false
        then v.getLsbD 2 else false) ++
    BitVec.ofBool (c.mseccfg.getLsbD 1 || v.getLsbD 1) ++
    BitVec.ofBool (c.mseccfg.getLsbD 0 || v.getLsbD 0)

/-- `mstatus`: MPP is M, or U where there is a User mode and the value does not ask for M. -/
def legalMstatus (P : CsrParams) (v : Word) : Word :=
  v.extractLsb 31 13 ++
    (if P.uMode ∧ v.extractLsb 12 11 ≠ 0b11#2 then 0b00#2 else 0b11#2) ++ v.extractLsb 10 0

/-- The write rules: what a write of `v` leaves in the register at `a`. An address that is
read-only or not implemented reads as before. -/
def legal (P : CsrParams) (c : Csr) (irq : IrqLines) (a : BitVec 12) (v : Word) : Word :=
  if 0 < P.pmpRegions ∧ isPmpaddr a then
    c.legalAddr (a.extractLsb 3 0) v
  else if 0 < P.pmpRegions ∧ isPmpcfg a then
    c.legalCfg a v 3#2 ++ c.legalCfg a v 2#2 ++ c.legalCfg a v 1#2 ++ c.legalCfg a v 0#2
  else if 0 < P.pmpRegions ∧ a = csrMseccfg then c.legalMseccfg P v
  else if a = csrMstatus then legalMstatus P v
  else if a = csrMie then v
  else if a = csrMtvec then v.extractLsb 31 2 ++ 0b00#2
  else if a = csrMscratch then v
  else if a = csrMepc then v
  else if a = csrMcause then v
  else if a = csrMtval then v
  else if isCounter a then v
  else match group4 csrMhpmevent3 a with
    | some _ => (v.extractLsb 5 0).setWidth 32
    | none => c.rdata P irq a

/-- A half of a counter takes the value. -/
theorem legal_counter (h : isCounter a = true) : c.legal P irq a v = v := by
  obtain ⟨hpa, hpc, h0, h1, h2, h3, h4, h5, h6, h7, -⟩ :=
    counter_address a (List.contains_iff_mem.mp h)
  have hno : ∀ {q : Prop} {b : Bool}, b = false → ¬ (q ∧ b = true) := by
    rintro q b rfl hq
    exact Bool.false_ne_true hq.2
  unfold legal
  rw [if_neg (hno hpa), if_neg (hno hpc), if_neg fun hs => h0 hs.2, if_neg h1, if_neg h2, if_neg h3,
    if_neg h4, if_neg h5, if_neg h6, if_neg h7, if_pos h]

/-- A selector reads as it is held. -/
theorem rdata_event (d : Csr) {k : Fin 4} (hk : group4 csrMhpmevent3 a = some k) :
    d.rdata P irq a = (d.mhpmevent k).setWidth 32 := by
  have hpos : ∀ j : Fin 4, group4 csrMhpmevent3 (csrMhpmevent3 + BitVec.ofNat 12 j.val) = some j := by
    decide
  rw [group4_inj hk (hpos k)]
  fin_cases k
  · exact (rdata_regions d (by decide) (by decide) (by decide)).trans rfl
  · exact (rdata_regions d (by decide) (by decide) (by decide)).trans rfl
  · exact (rdata_regions d (by decide) (by decide) (by decide)).trans rfl
  · exact (rdata_regions d (by decide) (by decide) (by decide)).trans rfl

/-- A byte that MML blocks has a forbidden code. -/
theorem mmlBlocked_iff (b : BitVec 8) : mmlBlocked b = true ↔ lrwx b ∈ lockdownCodes := by
  unfold mmlBlocked lrwx
  generalize b.getLsbD 7 = l, b.getLsbD 0 = r, b.getLsbD 1 = w, b.getLsbD 2 = x
  revert l r w x
  decide

/-- The guards of a byte lane keep the rule. -/
theorem legalCfg_eq (c : Csr) (a : BitVec 12) (v : Word) (jb : BitVec 2) :
    c.legalCfg a v jb =
      if c.cfgLaneOk a v jb then v.extractLsb' (8 * jb.toNat) 8 else c.pmpcfg (cfgIndex a jb) := by
  have hblocked := mmlBlocked_iff (v.extractLsb' (8 * jb.toNat) 8)
  unfold legalCfg cfgLaneOk rlb mml locked cfgIndex
  dsimp only
  by_cases hcode : lrwx (v.extractLsb' (8 * jb.toNat) 8) ∈ lockdownCodes
  · rw [hblocked.mpr hcode]
    cases c.mseccfg.getLsbD 2 <;> cases (c.pmpcfg (a.extractLsb 1 0 ++ jb)).getLsbD 7 <;>
      cases c.mseccfg.getLsbD 0 <;> simp [hcode]
  · rw [Bool.eq_false_iff.mpr fun hb => hcode (hblocked.mp hb)]
    cases c.mseccfg.getLsbD 2 <;> cases (c.pmpcfg (a.extractLsb 1 0 ++ jb)).getLsbD 7 <;>
      cases c.mseccfg.getLsbD 0 <;> simp [hcode]

/-- So does the guard of an address register. -/
theorem legalAddr_eq (c : Csr) (k : BitVec 4) (v : Word) :
    c.legalAddr k v = c.writePmpaddr k v k := by
  unfold legalAddr writePmpaddr rlb locked
  cases (c.pmpcfg k).getLsbD 7 <;> cases c.mseccfg.getLsbD 2 <;> simp

/-- Some rule is locked. -/
theorem anyLocked_eq_false_iff : c.anyLocked P = false ↔
    ∀ k < P.pmpRegions, (c.pmpcfg (BitVec.ofNat 4 k)).getLsbD 7 = false := by
  unfold anyLocked
  rw [List.any_eq_false]
  constructor
  · intro h k hk
    exact Bool.eq_false_iff.mpr (h k (List.mem_range.mpr hk))
  · intro h k hk
    exact Bool.eq_false_iff.mp (h k (List.mem_range.mp hk))

/-- One bit of a word. -/
theorem extractLsb_bit {w : Nat} (x : BitVec w) (k : Nat) :
    x.extractLsb k k = (BitVec.ofBool (x.getLsbD k)).cast (by omega) := by
  refine BitVec.eq_of_getLsbD_eq fun j hj => ?_
  obtain rfl : j = 0 := by omega
  simp

/-- RLB stays clear under a locked rule. -/
theorem rlbNext_eq (c : Csr) (v : Word) :
    (if c.mseccfg.getLsbD 2 ∨
        ∀ k < P.pmpRegions, (c.pmpcfg (BitVec.ofNat 4 k)).getLsbD 7 = false
      then v.getLsbD 2 else false) =
      if c.rlb || !c.anyLocked P then v.getLsbD 2 else c.mseccfg.getLsbD 2 := by
  unfold rlb
  cases hbit : c.mseccfg.getLsbD 2 with
  | true => simp
  | false =>
    cases hany : c.anyLocked P with
    | true =>
      rw [if_neg, if_neg (by decide)]
      rintro (h | h)
      · exact Bool.false_ne_true h
      · exact Bool.false_ne_true ((anyLocked_eq_false_iff.mpr h).symm.trans hany)
    | false => rw [if_pos (.inr (anyLocked_eq_false_iff.mp hany)), if_pos (by decide)]

/-- `mseccfg` is written by its rule. -/
theorem legalMseccfg_eq (c : Csr) (v : Word) :
    c.legalMseccfg P v = (c.writeMseccfg P v).setWidth 32 := by
  have hword : ∀ r m l : Bool, 0#29 ++ BitVec.ofBool r ++ BitVec.ofBool m ++ BitVec.ofBool l =
      (BitVec.ofBool r ++ BitVec.ofBool m ++ BitVec.ofBool l).setWidth 32 := by decide
  have hrlb : (if c.rlb || !c.anyLocked P then v.extractLsb 2 2 else c.mseccfg.extractLsb 2 2) =
      BitVec.ofBool (if c.rlb || !c.anyLocked P then v.getLsbD 2 else c.mseccfg.getLsbD 2) := by
    split
    · exact extractLsb_bit v 2
    · exact extractLsb_bit c.mseccfg 2
  unfold legalMseccfg writeMseccfg
  rw [rlbNext_eq, hrlb, hword, extractLsb_bit, extractLsb_bit, extractLsb_bit, extractLsb_bit,
    BitVec.cast_eq, BitVec.cast_eq, BitVec.cast_eq, BitVec.cast_eq, BitVec.ofBool_or_ofBool,
    BitVec.ofBool_or_ofBool]

/-- So is `mstatus`. -/
theorem legalMstatus_eq (P : CsrParams) (v : Word) : legalMstatus P v = writeMstatus P v := by
  have hsame : v.extractLsb 12 11 = 0b11#2 → Mstatus.setMpp v 0b11#2 = v := by
    intro h
    unfold Mstatus.setMpp
    rw [← h]
    refine BitVec.eq_of_getLsbD_eq fun j hj => ?_
    simp only [BitVec.getLsbD_append, BitVec.getLsbD_extractLsb]
    grind
  unfold legalMstatus writeMstatus Mstatus.mpp
  cases P.uMode with
  | false => rfl
  | true =>
    by_cases h : v.extractLsb 12 11 = 0b11#2
    · rw [if_neg fun hc => hc.2 h, if_neg (by decide), if_neg (not_not_intro h)]
      exact hsame h
    · rw [if_pos ⟨rfl, h⟩, if_neg (by decide), if_pos h]
      rfl

/-- **A write leaves what the rule says.** -/
theorem rdata_write (h : isCounter a = false) :
    (c.write P a v).rdata P irq a = c.legal P irq a v := by
  have ite : ∀ {q : Prop} [Decidable q] {d d' : Csr} {x y : Word}, (q → d.rdata P irq a = x) →
      (¬ q → d'.rdata P irq a = y) → (if q then d else d').rdata P irq a = if q then x else y := by
    intro q _ d d' x y hd hd'
    split
    case isTrue hq => exact hd hq
    case isFalse hq => exact hd' hq
  have named : ∀ (d : Csr) {x : BitVec 12}, isPmpaddr x = false → isPmpcfg x = false →
      x ≠ csrMseccfg → a = x → d.rdata P irq a = d.rdata { P with pmpRegions := 0 } irq x := by
    rintro d x hpa hpc hsec rfl
    exact rdata_regions d hpa hpc hsec
  unfold write legal
  rw [h]
  refine ite (fun hp => ?_) fun hpa => ite (fun hp => ?_) fun hpc => ite (fun hp => ?_) fun hsec =>
    ite (fun ha => ?_) fun _ => ite (fun ha => ?_) fun _ => ite (fun ha => ?_) fun _ =>
    ite (fun ha => ?_) fun _ => ite (fun ha => ?_) fun _ => ite (fun ha => ?_) fun _ =>
    ite (fun ha => ?_) fun _ => ?_
  · unfold rdata
    rw [if_pos hp, legalAddr_eq]
  · have hlane : ∀ jb, c.writePmpcfg a v (cfgIndex a jb) = c.legalCfg a v jb := by
      intro jb
      obtain ⟨hreg, hbyte⟩ := cfgIndex_split a jb
      rw [legalCfg_eq]
      unfold writePmpcfg
      rw [hbyte]
      exact if_congr (and_iff_right hreg) rfl rfl
    unfold rdata
    rw [if_neg hpa, if_pos hp]
    dsimp only
    rw [hlane, hlane, hlane, hlane]
  · unfold rdata
    rw [if_neg hpa, if_neg hpc, if_pos hp, legalMseccfg_eq]
  · exact (named _ (by decide) (by decide) (by decide) ha).trans (legalMstatus_eq P v).symm
  · exact (named _ (by decide) (by decide) (by decide) ha).trans rfl
  · exact (named _ (by decide) (by decide) (by decide) ha).trans rfl
  · exact (named _ (by decide) (by decide) (by decide) ha).trans rfl
  · exact (named _ (by decide) (by decide) (by decide) ha).trans rfl
  · exact (named _ (by decide) (by decide) (by decide) ha).trans rfl
  · exact (named _ (by decide) (by decide) (by decide) ha).trans rfl
  · rw [if_neg Bool.false_ne_true]
    cases hk : group4 csrMhpmevent3 a with
    | none => rfl
    | some k =>
      refine (rdata_event _ hk).trans ?_
      dsimp only
      rw [if_pos rfl]

/-! ### Counters -/

/-- A counter address is the address of a half. -/
theorem half_of_isCounter (h : isCounter a = true) :
    ∃ (r : Counter) (half : Half), a = r.address half := by
  have hlist : ∀ x ∈ counterAddrs, ∃ (r : Counter) (half : Half), x = r.address half := by
    unfold counterAddrs
    refine List.forall_mem_cons.mpr ⟨⟨.mcycle, .low, rfl⟩, ?_⟩
    refine List.forall_mem_cons.mpr ⟨⟨.mcycle, .high, rfl⟩, ?_⟩
    refine List.forall_mem_cons.mpr ⟨⟨.minstret, .low, rfl⟩, ?_⟩
    refine List.forall_mem_cons.mpr ⟨⟨.minstret, .high, rfl⟩, ?_⟩
    refine List.forall_mem_cons.mpr ⟨⟨.hpm 0, .low, rfl⟩, ?_⟩
    refine List.forall_mem_cons.mpr ⟨⟨.hpm 1, .low, rfl⟩, ?_⟩
    refine List.forall_mem_cons.mpr ⟨⟨.hpm 2, .low, rfl⟩, ?_⟩
    refine List.forall_mem_cons.mpr ⟨⟨.hpm 3, .low, rfl⟩, ?_⟩
    refine List.forall_mem_cons.mpr ⟨⟨.hpm 0, .high, rfl⟩, ?_⟩
    refine List.forall_mem_cons.mpr ⟨⟨.hpm 1, .high, rfl⟩, ?_⟩
    refine List.forall_mem_cons.mpr ⟨⟨.hpm 2, .high, rfl⟩, ?_⟩
    refine List.forall_mem_cons.mpr ⟨⟨.hpm 3, .high, rfl⟩, ?_⟩
    exact List.forall_mem_nil _
  exact hlist a (List.contains_iff_mem.mp h)

/-- A write to a half of a counter leaves the value there. -/
theorem rdata_writeCounter (d : Csr) (i : CsrIn) (h : isCounter i.addr = true)
    (hctr : d.ctr = c.writeCounter i) : d.rdata P irq i.addr = i.wdata := by
  obtain ⟨r, half, haddr⟩ := half_of_isCounter h
  have hread : d.readCounter i.addr = some i.wdata := by
    rw [haddr, readCounter_address, hctr, writeCounter_eq c i haddr, Counters.get_set, if_pos rfl,
      Half.get_put]
  rw [rdata_counter d h, hread]
  rfl

end Csr

/-! ## User traps -/

namespace Ucsr

variable {u : Ucsr} {a b : BitVec 12} {v : Word}

/-- The write rules: `ustatus` has two bits. -/
def legal (a : BitVec 12) (v : Word) : Word :=
  if a = addrUstatus then
    0#27 ++ BitVec.ofBool (v.getLsbD 4) ++ 0#3 ++ BitVec.ofBool (v.getLsbD 0)
  else v

theorem isAddr_cases (h : isAddr a = true) :
    a = addrUstatus ∨ a = addrUie ∨ a = addrUtvec ∨ a = addrUscratch ∨ a = addrUepc ∨
    a = addrUcause ∨ a = addrUtval ∨ a = addrUip ∨ a = addrMedeleg := by
  unfold isAddr at h
  simpa only [Bool.or_eq_true, beq_iff_eq, or_assoc] using h

theorem rdata_write (h : isAddr a = true) : (u.write a v).rdata a = legal a v := by
  rcases isAddr_cases h with rfl | rfl | rfl | rfl | rfl | rfl | rfl | rfl | rfl <;> rfl

theorem rdata_write_ne (h : isAddr a = true) (hne : b ≠ a) :
    (u.write a v).rdata b = u.rdata b := by
  rcases isAddr_cases h with rfl | rfl | rfl | rfl | rfl | rfl | rfl | rfl | rfl <;>
    unfold rdata <;> simp only [if_neg hne] <;> rfl

end Ucsr

/-! ## Triggers -/

namespace Trig

variable {t : Trig} {a b : BitVec 12} {v : Word}

/-- The write rules: an index out of range is ignored, the type is fixed. -/
def legal (t : Trig) (a : BitVec 12) (v : Word) : Word :=
  if a = addrTselect then if v.ult 2#32 then v else t.tselect.setWidth 32
  else if a = addrTdata1 then ttypeMc6 ++ v.extractLsb 27 0
  else if a = addrTdata2 then v
  else t.rdata a

theorem isAddr_cases (h : isAddr a = true) :
    a = addrTselect ∨ a = addrTdata1 ∨ a = addrTdata2 ∨ a = addrTinfo := by
  unfold isAddr at h
  simpa only [Bool.or_eq_true, beq_iff_eq, or_assoc] using h

/-- An index in range is its last bit. -/
theorem tselect_of_ult (h : v.ult 2#32 = true) : (v.extractLsb 0 0).setWidth 32 = v := by
  have hlt : v.toNat < 2 := by
    simpa [BitVec.ult] using h
  refine BitVec.eq_of_toNat_eq ?_
  simp
  omega

/-- The hit bit is in its place. -/
theorem hit_split (x : Word) :
    x.extractLsb 31 22 ++ BitVec.ofBool (x.getLsbD 21) ++ x.extractLsb 20 0 = x := by
  refine BitVec.eq_of_getLsbD_eq fun j hj => ?_
  simp only [BitVec.getLsbD_append, BitVec.getLsbD_extractLsb, BitVec.getLsbD_ofBool]
  grind

theorem write_tdata1 (t : Trig) (v : Word) :
    t.write addrTdata1 v =
      { t with
        tdata1Cfg := fun g => if g = t.tselect then ttypeMc6 ++ v.extractLsb 27 0 else t.tdata1Cfg g
        trigHit0 := fun g => if g = t.tselect then v.getLsbD 21 else t.trigHit0 g } := rfl

theorem write_tdata2 (t : Trig) (v : Word) :
    t.write addrTdata2 v = { t with tdata2 := fun g => if g = t.tselect then v else t.tdata2 g } :=
  rfl

theorem write_tinfo (t : Trig) (v : Word) : t.write addrTinfo v = t := rfl

theorem rdata_write (h : isAddr a = true) : (t.write a v).rdata a = t.legal a v := by
  rcases isAddr_cases h with rfl | rfl | rfl | rfl
  · unfold write legal
    rw [if_pos rfl, if_pos rfl]
    cases hv : v.ult 2#32 with
    | true => exact tselect_of_ult hv
    | false => rfl
  · have hbit : (ttypeMc6 ++ v.extractLsb 27 0 : Word).getLsbD 21 = v.getLsbD 21 := by
      rw [BitVec.getLsbD_append, if_pos (by omega), BitVec.getLsbD_extractLsb]
      simp
    rw [write_tdata1]
    show tdata1 _ t.tselect = ttypeMc6 ++ v.extractLsb 27 0
    unfold tdata1
    dsimp only
    rw [if_pos rfl, if_pos rfl, ← hbit]
    exact hit_split _
  · rw [write_tdata2]
    show (if t.tselect = t.tselect then v else t.tdata2 t.tselect) = v
    rw [if_pos rfl]
  · rw [write_tinfo]
    unfold legal
    rw [if_neg (by decide), if_neg (by decide), if_neg (by decide)]

/-- A write leaves the other registers; a new index shows another slot. -/
theorem rdata_write_ne (h : isAddr a = true) (hne : b ≠ a)
    (hslot : a = addrTselect → b ≠ addrTdata1 ∧ b ≠ addrTdata2) :
    (t.write a v).rdata b = t.rdata b := by
  rcases isAddr_cases h with rfl | rfl | rfl | rfl
  · obtain ⟨h1, h2⟩ := hslot rfl
    unfold rdata
    rw [if_neg hne, if_neg hne, if_neg h1, if_neg h1, if_neg h2, if_neg h2]
  · rw [write_tdata1]
    unfold rdata
    rw [if_neg hne, if_neg hne]
  · rw [write_tdata2]
    unfold rdata
    rw [if_neg hne, if_neg hne]
    rfl
  · rfl

end Trig

/-! ## The registers of the hart -/

/-- `dbg_csr_local`: the registers of the debug controller. -/
def Dbg.isLocal (a : BitVec 12) : Bool := a == 0x7b0#12 || a == 0x7b1#12 || a == 0x7b2#12

theorem Dbg.isLocal_iff {a : BitVec 12} :
    isLocal a = true ↔ a = 0x7b0#12 ∨ a = 0x7b1#12 ∨ a = 0x7b2#12 := by
  unfold isLocal
  rw [Bool.or_eq_true, Bool.or_eq_true, beq_iff_eq, beq_iff_eq, beq_iff_eq, or_assoc]

theorem Dbg.isLocal_counter {a : BitVec 12} (h : Csr.isCounter a = true) : isLocal a = false := by
  have hall : ∀ x ∈ Csr.counterAddrs, isLocal x = false := by
    unfold Csr.counterAddrs
    iterate 12 refine List.forall_mem_cons.mpr ⟨by decide, ?_⟩
    exact List.forall_mem_nil _
  exact hall a (List.contains_iff_mem.mp h)

def DebugReg.isCounter : DebugReg → Bool
  | .csr a => Csr.isCounter a
  | .gpr _ => false

/-- The slots behind `tselect` are shown in another register. -/
def DebugReg.Shows (reg reg' : DebugReg) : Prop :=
  reg = .csr Trig.addrTselect ∧ (reg' = .csr Trig.addrTdata1 ∨ reg' = .csr Trig.addrTdata2)

namespace Core

variable {P : Params} (c : Core P) (irq : IrqLines) (v : Word)

/-- What a register reads as. -/
def value : DebugReg → Word
  | .gpr r => Regfile.get c.regs r
  | .csr a =>
    if a = 0x7b0#12 then c.dcsrVal
    else if a = 0x7b1#12 then c.dbg.dpc
    else if a = 0x7b2#12 then c.dbg.dscratch0
    else if Trig.isAddr a then c.trig.rdata a
    else if P.secure && Ucsr.isAddr a then c.ucsr.rdata a
    else c.csr.rdata P.csr irq a

/-- A write of `v`, the counters apart. -/
def put : DebugReg → Core P
  | .gpr r => { c with regs := Regfile.write c.regs true r v }
  | .csr a =>
    if Dbg.isLocal a then { c with dbg := c.dbg.writeLocal a v }
    else if Trig.isAddr a then { c with trig := c.trig.write a v }
    else if P.secure && Ucsr.isAddr a then { c with ucsr := c.ucsr.write a v }
    else { c with csr := c.csr.write P.csr a v }

/-- The write rules: `x0` is zero, and `dcsr` has two bits that can be written. -/
def legal : DebugReg → Word
  | .gpr r => if r = 0#5 then 0#32 else v
  | .csr a =>
    if a = 0x7b0#12 then
      4#4 ++ 0#12 ++ BitVec.ofBool (v.getLsbD 15) ++ 0#6 ++ c.dbg.dcsrCause ++ 0#3 ++
        BitVec.ofBool (v.getLsbD 2) ++ 0b11#2
    else if a = 0x7b1#12 then v
    else if a = 0x7b2#12 then v
    else if Trig.isAddr a then c.trig.legal a v
    else if P.secure && Ucsr.isAddr a then Ucsr.legal a v
    else c.csr.legal P.csr irq a v

/-- An access: a read leaves everything. -/
def access (acc : RegAccess) : Core P := if acc.write then c.put acc.wdata acc.reg else c

variable {c irq v}

section Files

variable {a b : BitVec 12}

/-- What a CSR reads as depends on its own file. -/
theorem value_congr {d : Core P} (hdcsr : b = 0x7b0#12 → d.dcsrVal = c.dcsrVal)
    (hdpc : b = 0x7b1#12 → d.dbg.dpc = c.dbg.dpc)
    (hdscratch0 : b = 0x7b2#12 → d.dbg.dscratch0 = c.dbg.dscratch0)
    (htrig : d.trig.rdata b = c.trig.rdata b) (hucsr : d.ucsr.rdata b = c.ucsr.rdata b)
    (hcsr : d.csr.rdata P.csr irq b = c.csr.rdata P.csr irq b) :
    d.value irq (.csr b) = c.value irq (.csr b) :=
  ite_congr rfl hdcsr fun _ => ite_congr rfl hdpc fun _ => ite_congr rfl hdscratch0 fun _ =>
    ite_congr rfl (fun _ => htrig) fun _ => ite_congr rfl (fun _ => hucsr) fun _ => hcsr

/-- The write, the value and the rule are those of one file. -/
inductive File (c : Core P) (irq : IrqLines) (v : Word) (a : BitVec 12) : Prop
  | dcsr (ha : a = 0x7b0#12)
      (hput : c.put v (.csr a) =
        { c with dbg := { c.dbg with dcsrEbreakm := v.getLsbD 15, dcsrStep := v.getLsbD 2 } })
      (hvalue : ∀ d : Core P, d.value irq (.csr a) = d.dcsrVal)
      (hlegal : c.legal irq v (.csr a) =
        4#4 ++ 0#12 ++ BitVec.ofBool (v.getLsbD 15) ++ 0#6 ++ c.dbg.dcsrCause ++ 0#3 ++
          BitVec.ofBool (v.getLsbD 2) ++ 0b11#2)
  | dpc (ha : a = 0x7b1#12) (hput : c.put v (.csr a) = { c with dbg := { c.dbg with dpc := v } })
      (hvalue : ∀ d : Core P, d.value irq (.csr a) = d.dbg.dpc)
      (hlegal : c.legal irq v (.csr a) = v)
  | dscratch0 (ha : a = 0x7b2#12)
      (hput : c.put v (.csr a) = { c with dbg := { c.dbg with dscratch0 := v } })
      (hvalue : ∀ d : Core P, d.value irq (.csr a) = d.dbg.dscratch0)
      (hlegal : c.legal irq v (.csr a) = v)
  | trig (ht : Trig.isAddr a = true) (hput : c.put v (.csr a) = { c with trig := c.trig.write a v })
      (hvalue : ∀ d : Core P, d.value irq (.csr a) = d.trig.rdata a)
      (hlegal : c.legal irq v (.csr a) = c.trig.legal a v)
  | ucsr (hu : Ucsr.isAddr a = true) (hput : c.put v (.csr a) = { c with ucsr := c.ucsr.write a v })
      (hvalue : ∀ d : Core P, d.value irq (.csr a) = d.ucsr.rdata a)
      (hlegal : c.legal irq v (.csr a) = Ucsr.legal a v)
  | csr (hput : c.put v (.csr a) = { c with csr := c.csr.write P.csr a v })
      (hvalue : ∀ d : Core P, d.value irq (.csr a) = d.csr.rdata P.csr irq a)
      (hlegal : c.legal irq v (.csr a) = c.csr.legal P.csr irq a v)

theorem file (c : Core P) (irq : IrqLines) (v : Word) (a : BitVec 12) : c.File irq v a := by
  cases hl : Dbg.isLocal a with
  | true =>
    have hput : c.put v (.csr a) = { c with dbg := c.dbg.writeLocal a v } := if_pos hl
    rcases Dbg.isLocal_iff.mp hl with ha | ha | ha
    · refine .dcsr ha (hput.trans ?_) (fun d => if_pos ha) (if_pos ha)
      rw [ha]
      rfl
    · have h0 : a ≠ 0x7b0#12 := fun h => absurd (ha.symm.trans h) (by decide)
      refine .dpc ha (hput.trans ?_) (fun d => (if_neg h0).trans (if_pos ha))
        ((if_neg h0).trans (if_pos ha))
      rw [ha]
      rfl
    · have h0 : a ≠ 0x7b0#12 := fun h => absurd (ha.symm.trans h) (by decide)
      have h1 : a ≠ 0x7b1#12 := fun h => absurd (ha.symm.trans h) (by decide)
      refine .dscratch0 ha (hput.trans ?_)
        (fun d => (if_neg h0).trans ((if_neg h1).trans (if_pos ha)))
        ((if_neg h0).trans ((if_neg h1).trans (if_pos ha)))
      rw [ha]
      rfl
  | false =>
    -- the triggers come first, then the N extension, then the CSR file
    have hno := mt Dbg.isLocal_iff.mpr (Bool.eq_false_iff.mp hl)
    rw [not_or, not_or] at hno
    obtain ⟨h0, h1, h2⟩ := hno
    have hput : c.put v (.csr a) =
        if Trig.isAddr a then { c with trig := c.trig.write a v }
        else if P.secure && Ucsr.isAddr a then { c with ucsr := c.ucsr.write a v }
        else { c with csr := c.csr.write P.csr a v } := if_neg (Bool.eq_false_iff.mp hl)
    have hvalue : ∀ d : Core P, d.value irq (.csr a) =
        if Trig.isAddr a then d.trig.rdata a
        else if P.secure && Ucsr.isAddr a then d.ucsr.rdata a
        else d.csr.rdata P.csr irq a :=
      fun d => (if_neg h0).trans ((if_neg h1).trans (if_neg h2))
    have hlegal : c.legal irq v (.csr a) =
        if Trig.isAddr a then c.trig.legal a v
        else if P.secure && Ucsr.isAddr a then Ucsr.legal a v
        else c.csr.legal P.csr irq a v := (if_neg h0).trans ((if_neg h1).trans (if_neg h2))
    by_cases ht : Trig.isAddr a = true
    · exact .trig ht (hput.trans (if_pos ht)) (fun d => (hvalue d).trans (if_pos ht))
        (hlegal.trans (if_pos ht))
    replace hput := hput.trans (if_neg ht)
    replace hvalue := fun d => (hvalue d).trans (if_neg ht)
    replace hlegal := hlegal.trans (if_neg ht)
    by_cases hu : (P.secure && Ucsr.isAddr a) = true
    · exact .ucsr (Bool.and_eq_true_iff.mp hu).2 (hput.trans (if_pos hu))
        (fun d => (hvalue d).trans (if_pos hu)) (hlegal.trans (if_pos hu))
    · exact .csr (hput.trans (if_neg hu)) (fun d => (hvalue d).trans (if_neg hu))
        (hlegal.trans (if_neg hu))

end Files

/-- **A write leaves what the rule says.** -/
theorem value_put {reg : DebugReg} (h : reg.isCounter = false) :
    (c.put v reg).value irq reg = c.legal irq v reg := by
  cases reg with
  | gpr r =>
    show Regfile.get (Regfile.write c.regs true r v) r = if r = 0#5 then 0#32 else v
    by_cases hr : r = 0#5
    · rw [if_pos hr, hr]
      rfl
    · rw [if_neg hr]
      exact Regfile.get_write_same hr
  | csr a =>
    cases c.file irq v a with
    | dcsr ha hput hvalue hlegal =>
      rw [hput, hvalue, hlegal]
      rfl
    | dpc ha hput hvalue hlegal | dscratch0 ha hput hvalue hlegal => rw [hput, hvalue, hlegal]
    | trig ht hput hvalue hlegal =>
      rw [hput, hvalue, hlegal]
      exact Trig.rdata_write ht
    | ucsr hu hput hvalue hlegal =>
      rw [hput, hvalue, hlegal]
      exact Ucsr.rdata_write hu
    | csr hput hvalue hlegal =>
      rw [hput, hvalue, hlegal]
      exact Csr.rdata_write h

/-- **Frame**: a write leaves every other register. -/
theorem value_put_ne {reg reg' : DebugReg} (hne : reg' ≠ reg) (hs : ¬ reg.Shows reg') :
    (c.put v reg).value irq reg' = c.value irq reg' := by
  cases reg with
  | gpr r =>
    cases reg' with
    | csr a => rfl
    | gpr r' => exact Regfile.get_write_of_ne fun _ h => hne (congrArg DebugReg.gpr h.symm)
  | csr a =>
    cases reg' with
    | gpr r' =>
      cases c.file irq v a with
      | dcsr _ hput | dpc _ hput | dscratch0 _ hput | trig _ hput | ucsr _ hput | csr hput =>
        rw [hput]
        rfl
    | csr b =>
      have hab : b ≠ a := fun h => hne (congrArg DebugReg.csr h)
      have hother : ∀ {x : BitVec 12} {q : Prop}, a = x → b = x → q := fun ha hb =>
        absurd (hb.trans ha.symm) hab
      cases c.file irq v a with
      | dcsr ha hput =>
        rw [hput]
        exact value_congr (hother ha) (fun _ => rfl) (fun _ => rfl) rfl rfl rfl
      | dpc ha hput =>
        rw [hput]
        exact value_congr (fun _ => rfl) (hother ha) (fun _ => rfl) rfl rfl rfl
      | dscratch0 ha hput =>
        rw [hput]
        exact value_congr (fun _ => rfl) (fun _ => rfl) (hother ha) rfl rfl rfl
      | trig ht hput =>
        rw [hput]
        refine value_congr (fun _ => rfl) (fun _ => rfl) (fun _ => rfl) ?_ rfl rfl
        refine Trig.rdata_write_ne ht hab fun ha => not_or.mp fun hb => hs ⟨congrArg _ ha, ?_⟩
        exact hb.imp (congrArg DebugReg.csr) (congrArg DebugReg.csr)
      | ucsr hu hput =>
        rw [hput]
        exact value_congr (fun _ => rfl) (fun _ => rfl) (fun _ => rfl) rfl
          (Ucsr.rdata_write_ne hu hab) rfl
      | csr hput =>
        rw [hput]
        exact value_congr (fun _ => rfl) (fun _ => rfl) (fun _ => rfl) rfl rfl
          (Csr.rdata_write_ne hab)

/-! ### What a halted core holds -/

/-- Everything but the counters, the M unit, the payload of the empty W stage and the
handshake of the port. -/
def held (c : Core P) : Core P :=
  { c with
    md := {}
    mdInflight := false
    csr := c.csr.uncounted
    w := { c.w with xw := {} }
    dbg := { c.dbg with dbgArBusy := false, dbgArDone := false } }

theorem value_held {reg : DebugReg} (h : reg.isCounter = false) :
    c.held.value irq reg = c.value irq reg := by
  cases reg with
  | gpr r => rfl
  | csr a =>
    exact value_congr (fun _ => rfl) (fun _ => rfl) (fun _ => rfl) rfl rfl
      (Csr.rdata_uncounted h irq)

/-- A write looks at nothing else. -/
theorem held_put (reg : DebugReg) : (c.held.put v reg).held = (c.put v reg).held := by
  cases reg with
  | gpr r => rfl
  | csr a =>
    have ite : ∀ {q : Prop} [Decidable q] {d d' e e' : Core P}, d.held = d'.held →
        e.held = e'.held → (if q then d else e).held = (if q then d' else e').held := by
      intro q _ d d' e e' hd he
      split
      · exact hd
      · exact he
    refine ite ?_ (ite rfl (ite rfl ?_))
    · have hport : { (c.held.dbg.writeLocal a v) with dbgArBusy := false, dbgArDone := false } =
          { (c.dbg.writeLocal a v) with dbgArBusy := false, dbgArDone := false } := by
        unfold Dbg.writeLocal
        split_ifs
        · rfl
        · rfl
        · rfl
        · rfl
      exact congrArg (fun d => { c.held with dbg := d }) hport
    · exact congrArg (fun d => { c.held with csr := d }) (Csr.write_uncounted a v)

theorem held_access (acc : RegAccess) : (c.held.access acc).held = (c.access acc).held := by
  unfold access
  split
  · exact held_put acc.reg
  · rfl

end Core

end ThreeSippEs
