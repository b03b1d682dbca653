import ThreeSippEs.Core.System
import ThreeSippEs.Lib.Sessions
import ThreeSippEs.Pipeline.Backend

/-!
# LR/SC

The reservation is set by an LR and cleared by an SC or a plain store, each in the
clock it spends in W. The store of an AMO does not clear it.

- `reserved_iff`: what the reservation registers remember;
- `Law`: LR/SC as software relies on it, with the content of the word;
- `lr_sc_iff`: when an SC follows it.
-/

namespace ThreeSippEs

namespace WStage

variable (w : WStage)

/-- An LR to the word `A` is in W. -/
def lrTo (A : Word) : Prop := (w.amoHere && w.xw.isLr) = true ∧ w.xw.amoAddrAl = A

/-- An LR or an SC is in W. -/
def lrOrSc : Prop := w.amoHere = true ∧ (w.xw.isLr = true ∨ w.xw.isSc = true)

/-- A plain store, aligned or not, is in W. -/
def stores : Prop := w.xwValid = true ∧ w.xw.memWe = true

instance (A : Word) : Decidable (w.lrTo A) := by
  unfold lrTo
  infer_instance

instance : Decidable w.lrOrSc := by
  unfold lrOrSc
  infer_instance

instance : Decidable w.stores := by
  unfold stores
  infer_instance

variable {w}

/-- One clock of the reservation. -/
theorem resv_step (rdata : Word) (commit : Bool) (next : XwReg) (A : Word) :
    (w.step rdata commit next).resvValid = true ∧ (w.step rdata commit next).resvAddr = A ↔
      w.lrTo A ∨ ((w.resvValid = true ∧ w.resvAddr = A) ∧ ¬ (w.lrOrSc ∨ w.stores)) := by
  unfold lrTo lrOrSc stores step
  dsimp only
  cases hamo : w.amoHere <;> cases hlr : w.xw.isLr <;> cases hsc : w.xw.isSc <;>
    cases hv : w.xwValid <;> cases hwe : w.xw.memWe <;> simp

/-- What the data port writes for, other than an SC. -/
theorem dmemWe_iff (hn : ¬ w.lrOrSc) :
    w.dmemWe = true ↔ w.stores ∨ w.amoRmwB2 = true := by
  unfold lrOrSc at hn
  unfold dmemWe amoDoStore stores amoRmwB2
  cases hamo : w.amoHere with
  | false => simp
  | true =>
    have hsc : w.xw.isSc = false := by
      by_contra hsc
      rw [Bool.not_eq_false] at hsc
      exact hn ⟨hamo, .inr hsc⟩
    simp [hsc]

/-- An SC in W: its result and its write depend on the reservation only. -/
theorem sc_in_w (hf : w.xw.Formed) (hamo : w.amoHere = true) (hsc : w.xw.isSc = true)
    (rdata : Word) :
    w.wWb rdata = (if w.scOk then 0#32 else 1#32) ∧ w.dmemWe = w.scOk ∧
    w.dmemAddr = w.xw.amoAddrAl ∧ w.dmemBe = 0b1111#4 ∧ w.dmemWdata = w.xw.amoB := by
  have hisamo : w.xw.isAmo = true := by
    unfold amoHere at hamo
    exact (Bool.and_eq_true .. ▸ hamo).2
  obtain ⟨-, hwe, hrmw, hlrsc⟩ := hf.amo hisamo
  have hlr : w.xw.isLr = false := by
    by_contra hlr
    rw [Bool.not_eq_false] at hlr
    exact absurd (hlrsc hlr) (by simp [hsc])
  rw [hlr, hsc] at hrmw
  refine ⟨?_, ?_, ?_, ?_, ?_⟩
  · unfold wWb amoWb
    rw [hamo, hlr, hsc]
    rfl
  · unfold dmemWe amoDoStore amoRmwB2
    rw [hamo, hsc, hwe, hrmw]
    simp
  · unfold dmemAddr
    rw [hamo]
    rfl
  · unfold dmemBe
    rw [hamo]
    rfl
  · unfold dmemWdata amoRmwB2
    rw [hamo, hsc, hrmw]
    simp

/-- An LR in W reads the word and writes nothing. -/
theorem lr_in_w (hf : w.xw.Formed) {A : Word} (h : w.lrTo A) (rdata : Word) :
    w.wWb rdata = rdata ∧ w.dmemAddr = A ∧ w.dmemWe = false := by
  obtain ⟨hlr, haddr⟩ := h
  rw [Bool.and_eq_true] at hlr
  obtain ⟨hamo, hlr⟩ := hlr
  have hisamo : w.xw.isAmo = true := by
    unfold amoHere at hamo
    exact (Bool.and_eq_true .. ▸ hamo).2
  obtain ⟨-, hwe, hrmw, hlrsc⟩ := hf.amo hisamo
  have hsc := hlrsc hlr
  rw [hlr] at hrmw
  refine ⟨?_, ?_, ?_⟩
  · unfold wWb amoWb
    rw [hamo, hlr]
    rfl
  · unfold dmemAddr
    rw [hamo]
    exact haddr
  · unfold dmemWe amoDoStore amoRmwB2
    rw [hwe, hsc, hrmw]
    simp

end WStage

namespace Reservation

open Clocked

variable {P : Params} (s₀ : Core P) (i₀ : CoreIn) (ins : Nat → CoreIn)

/-- W at clock `n`. -/
abbrev wAt (n : Nat) : WStage := (Core.runFrom s₀ i₀ ins n).w

/-- The last LR/SC before clock `n` is an LR to `A`, and no write of the data port
came after it. -/
def Held (A : Word) (n : Nat) : Prop :=
  Since (fun k => (wAt s₀ i₀ ins k).lrTo A)
    (fun k => (wAt s₀ i₀ ins k).lrOrSc ∨ (wAt s₀ i₀ ins k).dmemWe = true) n

/-- The same, but for the writes that come from an AMO. -/
def Remembered (A : Word) (n : Nat) : Prop :=
  Since (fun k => (wAt s₀ i₀ ins k).lrTo A)
    (fun k => (wAt s₀ i₀ ins k).lrOrSc ∨ (wAt s₀ i₀ ins k).stores) n

/-- A memory that only the data port writes, and that answers it. -/
def Follows (mem : Nat → Bytes) : Prop :=
  ∀ k, (ins k).dmemRdata = (mem k).readWord (wAt s₀ i₀ ins k).dmemAddr ∧
    mem (k + 1) =
      if (wAt s₀ i₀ ins k).dmemWe then
        (mem k).writeWord (wAt s₀ i₀ ins k).dmemAddr (wAt s₀ i₀ ins k).dmemBe
          (wAt s₀ i₀ ins k).dmemWdata
      else mem k

/-- LR/SC as software relies on it, for the SC in W at clock `n`. `xw.amoB` is its
rs2. -/
structure Law (n : Nat) : Prop where
  ok : Held s₀ i₀ ins (wAt s₀ i₀ ins n).xw.amoAddrAl n →
    (wAt s₀ i₀ ins n).wWb (ins n).dmemRdata = 0#32 ∧ (wAt s₀ i₀ ins n).dmemWe = true ∧
    (wAt s₀ i₀ ins n).dmemAddr = (wAt s₀ i₀ ins n).xw.amoAddrAl ∧
    (wAt s₀ i₀ ins n).dmemBe = 0b1111#4 ∧
    (wAt s₀ i₀ ins n).dmemWdata = (wAt s₀ i₀ ins n).xw.amoB
  fail : ¬ Held s₀ i₀ ins (wAt s₀ i₀ ins n).xw.amoAddrAl n →
    (wAt s₀ i₀ ins n).wWb (ins n).dmemRdata = 1#32 ∧ (wAt s₀ i₀ ins n).dmemWe = false
  /-- an SC that writes finds what its LR read -/
  content : ∀ mem, Follows s₀ i₀ ins mem → (wAt s₀ i₀ ins n).dmemWe = true →
    ∃ m < n, (wAt s₀ i₀ ins m).lrTo (wAt s₀ i₀ ins n).xw.amoAddrAl ∧
      (∀ k < n, m < k → ¬ (wAt s₀ i₀ ins k).lrOrSc) ∧
      (wAt s₀ i₀ ins m).wWb (ins m).dmemRdata =
        (mem n).readWord (wAt s₀ i₀ ins n).xw.amoAddrAl

/-- No AMO writes between the SC at clock `n` and an LR to its word, unless a plain
store or another LR/SC lies between them. -/
def NoAmoBetween (n : Nat) : Prop :=
  ∀ m < n, (wAt s₀ i₀ ins m).lrTo (wAt s₀ i₀ ins n).xw.amoAddrAl →
    (∀ k < n, m < k → ¬ ((wAt s₀ i₀ ins k).lrOrSc ∨ (wAt s₀ i₀ ins k).stores)) →
    ∀ k < n, m < k → (wAt s₀ i₀ ins k).amoRmwB2 = false

variable {s₀ i₀ ins} {n : Nat}

/-- What is in W came from X. -/
theorem formed (hv : (wAt s₀ i₀ ins n).xwValid = true) : (wAt s₀ i₀ ins n).xw.Formed := by
  obtain ⟨m, h⟩ := Core.issued s₀ i₀ ins n hv
  rw [h.xw]
  exact XIn.xwNext_formed P _

theorem formed_of_amoHere (h : (wAt s₀ i₀ ins n).amoHere = true) :
    (wAt s₀ i₀ ins n).xw.Formed := by
  unfold WStage.amoHere at h
  exact formed (Bool.and_eq_true .. ▸ h).1

/-- **The reservation registers** remember the last LR, if no SC and no plain store
came after it. -/
theorem reserved_iff (A : Word) (n : Nat) :
    (wAt s₀ i₀ ins n).resvValid = true ∧ (wAt s₀ i₀ ins n).resvAddr = A ↔
      Remembered s₀ i₀ ins A n := by
  induction n with
  | zero =>
    constructor
    · rintro ⟨h, -⟩
      exact absurd h Bool.false_ne_true
    · exact fun h => absurd h Since.zero
  | succ n ih =>
    have hstep : wAt s₀ i₀ ins (n + 1) =
        (wAt s₀ i₀ ins n).step (ins n).dmemRdata (Core.runFrom s₀ i₀ ins n).xCommit
          (((Core.runFrom s₀ i₀ ins n).xIn (ins n)).xwNext P) := rfl
    rw [hstep, WStage.resv_step, ih]
    unfold Remembered
    rw [Since.succ]

/-- The SC in W succeeds when the reservation is remembered for its word. -/
theorem scOk_iff : (wAt s₀ i₀ ins n).scOk = true ↔
    Remembered s₀ i₀ ins (wAt s₀ i₀ ins n).xw.amoAddrAl n := by
  rw [← reserved_iff]
  unfold WStage.scOk
  rw [Bool.and_eq_true, beq_iff_eq]

/-- A clock that clears the reservation is one with an LR/SC or a write. -/
theorem clears_of_stores {k : Nat}
    (h : (wAt s₀ i₀ ins k).lrOrSc ∨ (wAt s₀ i₀ ins k).stores) :
    (wAt s₀ i₀ ins k).lrOrSc ∨ (wAt s₀ i₀ ins k).dmemWe = true := by
  rcases h with h | h
  · exact .inl h
  · refine .inr ?_
    unfold WStage.dmemWe
    rw [h.1, h.2]
    rfl

theorem remembered_of_held {A : Word} (h : Held s₀ i₀ ins A n) : Remembered s₀ i₀ ins A n :=
  h.mono fun _ _ => clears_of_stores

/-- Without an AMO between, what is remembered is held. -/
theorem held_of_remembered (hno : NoAmoBetween s₀ i₀ ins n)
    (h : Remembered s₀ i₀ ins (wAt s₀ i₀ ins n).xw.amoAddrAl n) :
    Held s₀ i₀ ins (wAt s₀ i₀ ins n).xw.amoAddrAl n := by
  obtain ⟨m, hm, hlr, hclear⟩ := h
  refine ⟨m, hm, hlr, fun k hk hmk => ?_⟩
  have hamo := hno m hm hlr hclear k hk hmk
  have hnot := hclear k hk hmk
  rintro (hk' | hwe)
  · exact hnot (.inl hk')
  · rcases (WStage.dmemWe_iff fun h => hnot (.inl h)).mp hwe with hst | hb2
    · exact hnot (.inr hst)
    · exact absurd (hamo.symm.trans hb2) (by simp)

/-- Where nothing is written the memory stays. -/
theorem mem_kept {mem : Nat → Bytes} (hf : Follows s₀ i₀ ins mem) {m : Nat} :
    ∀ d, (∀ k, m ≤ k → k < m + d → (wAt s₀ i₀ ins k).dmemWe = false) → mem (m + d) = mem m := by
  intro d
  induction d with
  | zero => exact fun _ => rfl
  | succ d ih =>
    intro hno
    have hlast := hno (m + d) (Nat.le_add_right m d) (by omega)
    rw [← Nat.add_assoc, (hf (m + d)).2, hlast, if_neg Bool.false_ne_true]
    exact ih fun k hk hkd => hno k hk (by omega)

/-- **When LR/SC keeps its law**: an SC does exactly if no AMO has written since the
LR that its reservation stems from. -/
theorem lr_sc_iff (s₀ : Core P) (i₀ : CoreIn) (ins : Nat → CoreIn) (n : Nat)
    (hamo : (wAt s₀ i₀ ins n).amoHere = true) (hsc : (wAt s₀ i₀ ins n).xw.isSc = true) :
    Law s₀ i₀ ins n ↔ NoAmoBetween s₀ i₀ ins n := by
  obtain ⟨hwb, hwe, haddr, hbe, hwdata⟩ :=
    WStage.sc_in_w (formed_of_amoHere hamo) hamo hsc (ins n).dmemRdata
  constructor
  · intro hlaw m hm hlr hclear k hk hmk
    by_contra hb2
    rw [Bool.not_eq_false] at hb2
    -- the reservation is remembered, so the SC succeeds
    have hok : (wAt s₀ i₀ ins n).scOk = true := scOk_iff.mpr ⟨m, hm, hlr, hclear⟩
    have hheld : ¬ Held s₀ i₀ ins (wAt s₀ i₀ ins n).xw.amoAddrAl n := by
      rintro ⟨m', hm', hlr', hclear'⟩
      have hlast : ∀ {a b : Nat}, b < n → a < b →
          (∀ k < n, a < k → ¬ (wAt s₀ i₀ ins k).lrOrSc) →
          ¬ (wAt s₀ i₀ ins b).lrTo (wAt s₀ i₀ ins n).xw.amoAddrAl := by
        intro a b hb hab hno h
        have hb' := Bool.and_eq_true .. ▸ h.1
        exact hno b hb hab ⟨hb'.1, .inl hb'.2⟩
      rcases lt_trichotomy m m' with hlt | rfl | hgt
      · exact hlast hm' hlt (fun k hk hmk h => hclear k hk hmk (.inl h)) hlr'
      · refine hclear' k hk hmk (.inr ((WStage.dmemWe_iff ?_).mpr (.inr hb2)))
        exact fun h => hclear k hk hmk (.inl h)
      · exact hlast hm hgt (fun k hk hmk h => hclear' k hk hmk (.inl h)) hlr
    have hfail := (hlaw.fail hheld).2
    rw [hwe, hok] at hfail
    cases hfail
  · intro hno
    have hiff : Held s₀ i₀ ins (wAt s₀ i₀ ins n).xw.amoAddrAl n ↔
        (wAt s₀ i₀ ins n).scOk = true :=
      ⟨fun h => scOk_iff.mpr (remembered_of_held h),
        fun h => held_of_remembered hno (scOk_iff.mp h)⟩
    refine ⟨fun h => ?_, fun h => ?_, fun mem hmem hw => ?_⟩
    · have hok := hiff.mp h
      rw [hwb, hwe, hok, if_pos rfl]
      exact ⟨rfl, rfl, haddr, hbe, hwdata⟩
    · have hok : (wAt s₀ i₀ ins n).scOk = false := by
        rw [← Bool.not_eq_true]
        exact fun hok => h (hiff.mpr hok)
      rw [hwb, hwe, hok, if_neg Bool.false_ne_true]
      exact ⟨rfl, rfl⟩
    · obtain ⟨m, hm, hlr, hclear⟩ := hiff.mpr (hwe.symm.trans hw)
      have hamo' := (Bool.and_eq_true .. ▸ hlr.1).1
      obtain ⟨hread, hport, hlrwe⟩ :=
        WStage.lr_in_w (formed_of_amoHere hamo') hlr (ins m).dmemRdata
      have hkept : mem n = mem m := by
        obtain ⟨d, rfl⟩ := Nat.exists_eq_add_of_lt hm
        refine mem_kept hmem (d + 1) fun k hk hkd => ?_
        rcases Nat.eq_or_lt_of_le hk with rfl | hlt
        · exact hlrwe
        · rw [← Bool.not_eq_true]
          exact fun hk' => hclear k (by omega) hlt (.inr hk')
      refine ⟨m, hm, hlr, fun k hk hmk h => hclear k hk hmk (.inl h), ?_⟩
      rw [hread, (hmem m).1, hport, hkept]

/-- An LR and an SC with the result of the LR. -/
def copyBack : Memory where
  imem := .ofWords
    [0x04000093#32,   -- addi x1, x0, 64
     0x1000A12F#32,   -- lr.w x2, (x1)
     0x1820A22F#32]   -- sc.w x4, x2, (x1)
  dmem := fun _ => 0#8

/-- The SC is in W at clock 4. -/
theorem lr_sc_copyBack :
    Law (Core.powerUp {}) (copyBack.resetIn {} {}) (copyBack.inputs {} {}) 4 := by
  refine (lr_sc_iff (Core.powerUp {}) (copyBack.resetIn {} {}) (copyBack.inputs {} {}) 4 ?_ ?_).mpr
    ?_
  · rw [wAt, Memory.runFrom_inputs]
    decide +kernel
  · rw [wAt, Memory.runFrom_inputs]
    decide +kernel
  · have hno : ∀ k < 4, (copyBack.bench {} {} k).w.amoRmwB2 = false := by decide +kernel
    intro m _ _ _ k hk _
    rw [wAt, Memory.runFrom_inputs]
    exact hno k hk

/-- The same with an AMO in between. -/
def lostUpdate : Memory where
  imem := .ofWords
    [0x04000093#32,   -- addi x1, x0, 64
     0x1000A12F#32,   -- lr.w x2, (x1)
     0x0010A1AF#32,   -- amoadd.w x3, x1, (x1)
     0x1820A22F#32]   -- sc.w x4, x2, (x1)
  dmem := fun _ => 0#8

/-- At clock 6 the SC overwrites what the AMO wrote. -/
theorem sc_overwrites_amo :
    ¬ ∀ (s₀ : Core {}) (i₀ : CoreIn) (ins : Nat → CoreIn) (n : Nat),
      (wAt s₀ i₀ ins n).amoHere = true → (wAt s₀ i₀ ins n).xw.isSc = true → Law s₀ i₀ ins n := by
  intro h
  have h' := h (Core.powerUp _) (lostUpdate.resetIn {} {}) (lostUpdate.inputs {} {}) 6
  simp only [wAt, Memory.runFrom_inputs] at h'
  have hheld : ¬ Held (Core.powerUp {}) (lostUpdate.resetIn {} {}) (lostUpdate.inputs {} {})
      (lostUpdate.bench {} {} 6).w.xw.amoAddrAl 6 := by
    unfold Held
    simp only [wAt, Memory.runFrom_inputs]
    decide +kernel
  have hfail := (h' (by decide +kernel) (by decide +kernel)).fail
  simp only [wAt, Memory.runFrom_inputs] at hfail
  have hwe := (hfail hheld).2
  revert hwe
  decide +kernel

end Reservation

end ThreeSippEs
