import ThreeSippEs.Uart.Uart

/-!
# UART loopback

`serial_tx` is wired to `serial_rx` and the divisor is held. Time is counted from
the store of a byte: the transmitter changes the line every `D` clocks, the receiver
finds the start bit two clocks after it and looks at the line again after a
preload, then every `D` clocks.

- `Sending`, `Hearing`: the two sides at a given age of a byte, for any preload;
- `Flight`: the bytes on their way, at most two;
- `latency`: each of them arrives, `10 * D + D / 2 + 4` clocks after its store;
- `loopback_iff`: the divisors for which the preload fits into 16 bits.
-/

namespace ThreeSippEs.Loopback

open Clocked ShiftRegister

/-! ## The loop -/

/-- One clock of the UART with its own line. -/
def step (s : Uart) (i : UartBus) : Uart := s.step i s.tx.serialTx

/-- The byte that is stored in this clock, with `tx_busy` 0. -/
def loads (s : Uart) (i : UartBus) : List (BitVec 8) := if s.tx.txLoad i then [i.wdata] else []

/-- What a read of the data register gives in a clock with `rx_irq`. -/
def shows (s : Uart) : List (BitVec 8) := if s.rx.rxIrq then [s.rdata { addr := 4#4 }] else []

def sent (s : Uart) (ins : Nat → UartBus) (n : Nat) : List (BitVec 8) := trace step loads s ins n

def received (s : Uart) (ins : Nat → UartBus) (n : Nat) : List (BitVec 8) :=
  trace step (fun s _ => shows s) s ins n

/-- The receiver takes a data bit in this clock. -/
def samples (r : UartRx) : Bool := r.rxBusyQ && r.rxBaudCnt == 0#16 && r.rxBitCount != 0#4

/-- What the user of the line relies on. -/
structure Delivers (s : Uart) (ins : Nat → UartBus) : Prop where
  /-- nothing else is received, and in order -/
  order (n : Nat) : received s ins n <+: sent s ins n
  /-- every byte is received, once -/
  all (n : Nat) : ∃ m, received s ins m = sent s ins n
  /-- when the receiver took a bit from the line, two clocks before it looks at it, the
  transmitter was driving that bit: the counters count the same bits -/
  inside (n : Nat) : samples (run step s ins (n + 2)).rx = true →
    (run step s ins n).tx.txBusyQ = true ∧
      (run step s ins n).tx.txBitCount = (run step s ins (n + 2)).rx.rxBitCount

/-- Both sides are idle. -/
structure Idle (s : Uart) : Prop where
  tx : s.tx.txBusyQ = false
  line : s.tx.serialTx = true
  sync : s.rx.rxSync = 0b11#2
  rx : s.rx.rxBusyQ = false
  irq : s.rx.rxIrq = false

theorem Idle.reset (d : BitVec 16) : Idle (.reset d) := ⟨rfl, rfl, rfl, rfl, rfl⟩

/-! ## The line -/

/-- Start, data, stop, the lowest bit first. -/
def frame (b : BitVec 8) : BitVec 10 := 1#1 ++ b ++ 0#1

/-- The line after `j` bits of a byte. -/
def level (b : BitVec 8) (j : Nat) : Bool :=
  if j = 0 then true else if j ≤ 10 then (frame b).getLsbD (j - 1) else true

theorem level_start (b : BitVec 8) : level b 1 = false := by
  show (1#1 ++ b ++ 0#1 : BitVec 10).getLsbD 0 = false
  rw [BitVec.getLsbD_append]
  rfl

theorem level_data (b : BitVec 8) {j : Nat} (hj : j < 8) : level b (j + 2) = b.getLsbD j := by
  simp only [level, frame, BitVec.getLsbD_append]
  rw [if_neg (by omega), if_pos (by omega), if_neg (by omega), if_pos (by omega)]
  rfl

theorem level_stop (b : BitVec 8) {j : Nat} (hj : 10 ≤ j) : level b j = true := by
  unfold level
  rw [if_neg (by omega)]
  split
  · have hten : j = 10 := by omega
    subst hten
    show (1#1 ++ b ++ 0#1 : BitVec 10).getLsbD 9 = true
    rw [BitVec.getLsbD_append, if_neg (by decide), BitVec.getLsbD_append, if_neg (by decide)]
    rfl
  · rfl

/-- The line `a` clocks after the store of `b`. -/
def wave (D : Nat) (b : BitVec 8) (a : Nat) : Bool := level b (a / D)

section Wave

variable {D a : Nat} (b : BitVec 8)

theorem wave_before (h : a < D) : wave D b a = true := by
  rw [wave, Nat.div_eq_of_lt h]
  rfl

theorem wave_after (hD : 0 < D) (h : 10 * D ≤ a) : wave D b a = true := by
  rw [wave, level_stop]
  exact (Nat.le_div_iff_mul_le hD).mpr h

theorem wave_bit {j c : Nat} (hc : c < D) (ha : a + c + 1 = (j + 1) * D) :
    wave D b a = level b j := by
  have hsucc : (j + 1) * D = j * D + D := Nat.succ_mul j D
  rw [wave, Nat.div_eq_of_lt_le (k := j) (by omega) (by omega)]

end Wave

/-! ## The transmitter -/

/-- The transmitter `a` clocks after the store of `b`. -/
inductive Sending (D : Nat) (t : UartTx) (b : BitVec 8) (a : Nat) : Prop
  /-- `j` bits are out, the next one follows in `c` clocks -/
  | bit (j c : Nat) (hj : j < 10) (busy : t.txBusyQ = true) (count : t.txBitCount.toNat = 10 - j)
      (baud : t.txBaudCnt.toNat = c) (hc : c < D) (time : a + c + 1 = (j + 1) * D)
      (shift : t.txShift = shiftAll (frame b) (List.replicate j true))
      (line : t.serialTx = level b j)
  | done (after : 10 * D ≤ a) (idle : t.txBusyQ = false) (line : t.serialTx = true)

section Tx

variable {D a : Nat} {t : UartTx} {b : BitVec 8} {i : UartBus} {baudDiv : BitVec 16}

theorem Sending.wave (hD : 0 < D) (h : Sending D t b a) : t.serialTx = wave D b a := by
  cases h with
  | bit j c hj busy count baud hc time shift line => rw [line, wave_bit b hc time]
  | done after idle line => rw [line, wave_after b hD after]

theorem Sending.busy_iff (h : Sending D t b a) : t.txBusyQ = true ↔ a < 10 * D := by
  cases h with
  | bit j c hj busy count baud hc time shift line =>
    have hle : (j + 1) * D ≤ 10 * D := Nat.mul_le_mul_right D hj
    exact ⟨fun _ => by omega, fun _ => busy⟩
  | done after idle line =>
    refine ⟨fun hb => ?_, by omega⟩
    rw [idle] at hb
    exact absurd hb (by decide)

theorem toNat_pred {w : Nat} {v : BitVec w} (h : 0 < v.toNat) : (v - 1#w).toNat = v.toNat - 1 := by
  have hlt := v.isLt
  have hw : 0 < w := by
    rcases Nat.eq_zero_or_pos w with rfl | hw
    · simp at hlt; omega
    · exact hw
  have hone : (1#w).toNat = 1 := by simp; omega
  rw [BitVec.toNat_sub_of_le, hone]
  rw [BitVec.le_def, hone]
  exact h

/-- A store starts a byte. -/
theorem Sending.load (hD : baudDiv.toNat = D) (hpos : 0 < D) (hl : t.txLoad i = true)
    (hline : t.serialTx = true) : Sending D (t.step baudDiv i) i.wdata 0 := by
  rw [UartTx.step_load baudDiv hl]
  have hbaud : (baudDiv - 1#16).toNat = D - 1 := by rw [toNat_pred (by omega), hD]
  exact .bit 0 (D - 1) (by decide) rfl rfl hbaud (by omega) (by omega) rfl hline

/-- A clock without a store. -/
theorem Sending.step (hD : baudDiv.toNat = D) (hpos : 0 < D) (hl : t.txLoad i = false)
    (h : Sending D t b a) : Sending D (t.step baudDiv i) b (a + 1) := by
  cases h with
  | bit j c hj busy count baud hc time shift line =>
    by_cases h0 : t.txBaudCnt = 0#16
    · have hzero : c = 0 := by rw [← baud, h0]; rfl
      subst hzero
      have hout : t.txShift.getLsbD 0 = level b (j + 1) := by
        rw [shift, lsb_shiftAll _ (by simpa using hj), List.length_replicate]
        unfold level
        rw [if_neg (by omega), if_pos (by omega)]
        rfl
      have hcount : (t.txBitCount - 1#4).toNat = 10 - (j + 1) := by
        rw [toNat_pred (by omega), count]
        omega
      rw [UartTx.step_shift baudDiv hl busy h0]
      have htime : a + 1 = (j + 1) * D := by omega
      by_cases hlast : j = 9
      · -- the stop bit is the last one
        subst hlast
        have hone : t.txBitCount = 1#4 := BitVec.eq_of_toNat_eq (by rw [count]; rfl)
        refine .done (by omega) ?_ ?_
        · show (t.txBitCount != 1#4) = false
          rw [hone]
          rfl
        · show t.txShift.getLsbD 0 = true
          rw [hout, level_stop b (by decide)]
      · refine .bit (j + 1) (D - 1) (by omega) ?_ hcount ?_ (by omega) ?_ ?_ hout
        · have hne : t.txBitCount ≠ 1#4 := by
            intro hone
            rw [hone] at count
            have : (1#4).toNat = 1 := rfl
            omega
          exact bne_iff_ne.mpr hne
        · show (baudDiv - 1#16).toNat = D - 1
          rw [toNat_pred (by omega), hD]
        · rw [Nat.succ_mul (j + 1) D]
          omega
        · show shiftIn t.txShift true = _
          rw [shift, ← shiftAll_append, List.replicate_succ']
    · have hne : t.txBaudCnt.toNat ≠ 0 := fun hz => h0 (BitVec.eq_of_toNat_eq hz)
      rw [UartTx.step_count baudDiv hl busy h0]
      refine .bit j (c - 1) hj busy count ?_ (by omega) (by omega) shift line
      show (t.txBaudCnt - 1#16).toNat = c - 1
      rw [toNat_pred (by omega), baud]
  | done after idle line =>
    rw [UartTx.step_idle baudDiv hl idle]
    exact .done (by omega) idle line

end Tx

/-! ## The receiver -/

/-- The first `k` bits that a receiver takes which looks at the line `o` clocks after
the clock in which it has found the start bit. -/
def heard (D o : Nat) (b : BitVec 8) (k : Nat) : List Bool :=
  (List.range k).map fun j => wave D b (D + o + j * D)

theorem heard_succ (D o : Nat) (b : BitVec 8) (k : Nat) :
    heard D o b (k + 1) = heard D o b k ++ [wave D b (D + o + k * D)] := by
  rw [heard, List.range_succ, List.map_append]
  rfl

/-- The age of a byte at which it has been received. -/
def arrival (D o : Nat) : Nat := D + 3 + o + 8 * D

/-- The receiver `a` clocks after the store of `b`. -/
inductive Hearing (D o : Nat) (r : UartRx) (b : BitVec 8) (a : Nat) : Prop
  | waiting (before : a < D + 3) (idle : r.rxBusyQ = false)
  /-- `k` bits are in, it looks at the line again in `c` clocks -/
  | bit (k c : Nat) (r₀ : BitVec 8) (hk : k ≤ 8) (busy : r.rxBusyQ = true)
      (count : r.rxBitCount.toNat = 8 - k) (baud : r.rxBaudCnt.toNat = c)
      (time : a + c + 1 = D + 3 + o + k * D) (shift : r.rxShift = shiftAll r₀ (heard D o b k))

section Rx

variable {D o a : Nat} {r : UartRx} {b : BitVec 8} {i : UartBus} {serialRx : Bool}
  {baudDiv : BitVec 16}

theorem pair_get (a b : Bool) :
    (BitVec.ofBool a ++ BitVec.ofBool b : BitVec 2).getLsbD 1 = a ∧
      (BitVec.ofBool a ++ BitVec.ofBool b : BitVec 2).getLsbD 0 = b := by
  revert a b
  decide

theorem step_idle (hidle : r.rxBusyQ = false) (hline : r.rxSync.getLsbD 1 = true) :
    (r.step baudDiv i serialRx).rxBusyQ = false ∧ (r.step baudDiv i serialRx).rxIrq = false := by
  rw [UartRx.step, UartRx.receive_idle baudDiv i hidle hline]
  exact ⟨hidle, rfl⟩

/-- The clock in which the start bit is found. -/
theorem Hearing.start (hline : r.rxSync.getLsbD 1 = false) (hidle : r.rxBusyQ = false)
    (ho : (UartRx.preload baudDiv).toNat + 1 = o) (ha : a = D + 2) :
    Hearing D o (r.step baudDiv i serialRx) b (a + 1) ∧
      (r.step baudDiv i serialRx).rxIrq = false := by
  rw [UartRx.step, UartRx.receive_start baudDiv i hidle hline]
  exact ⟨.bit 0 (UartRx.preload baudDiv).toNat r.rxShift (by decide) rfl rfl rfl (by omega) rfl,
    rfl⟩

/-- A clock in which it takes a data bit. -/
theorem Hearing.sample {k : Nat} {r₀ : BitVec 8} (hD : baudDiv.toNat = D) (hpos : 0 < D)
    (hline : r.rxSync.getLsbD 1 = wave D b (D + o + k * D)) (hk : k < 8)
    (busy : r.rxBusyQ = true) (count : r.rxBitCount.toNat = 8 - k) (baud : r.rxBaudCnt = 0#16)
    (time : a + 1 = D + 3 + o + k * D) (shift : r.rxShift = shiftAll r₀ (heard D o b k)) :
    Hearing D o (r.step baudDiv i serialRx) b (a + 1) ∧
      (r.step baudDiv i serialRx).rxIrq = false := by
  have hcount : r.rxBitCount ≠ 0#4 := by
    intro hz
    rw [hz] at count
    have hz' : (0#4).toNat = 0 := rfl
    omega
  rw [UartRx.step, UartRx.receive_sample baudDiv i busy baud hcount]
  refine ⟨.bit (k + 1) (D - 1) r₀ hk busy ?_ ?_ ?_ ?_, rfl⟩
  · show (r.rxBitCount - 1#4).toNat = _
    rw [toNat_pred (by omega), count]
    omega
  · show (baudDiv - 1#16).toNat = _
    rw [toNat_pred (by omega), hD]
  · rw [Nat.succ_mul k D]
    omega
  · show shiftIn r.rxShift (r.rxSync.getLsbD 1) = _
    rw [heard_succ, shiftAll_append, ← shift, hline]

/-- A clock before the byte has arrived, with the line of two clocks ago in the
synchroniser. -/
theorem Hearing.step (hD : baudDiv.toNat = D) (hpos : 0 < D)
    (ho : (UartRx.preload baudDiv).toNat + 1 = o) (hline : r.rxSync.getLsbD 1 = wave D b (a - 2))
    (hlt : a + 1 < arrival D o) (h : Hearing D o r b a) :
    Hearing D o (r.step baudDiv i serialRx) b (a + 1) ∧
      (r.step baudDiv i serialRx).rxIrq = false := by
  cases h with
  | waiting before idle =>
    by_cases hlast : a = D + 2
    · have hstart : r.rxSync.getLsbD 1 = false := by
        rw [hline, hlast, Nat.add_sub_cancel, wave, Nat.div_self hpos]
        exact level_start b
      exact Hearing.start hstart idle ho hlast
    · obtain ⟨hidle, hirq⟩ := @step_idle r i serialRx baudDiv idle
        (by rw [hline, wave_before b (by omega)])
      exact ⟨.waiting (by omega) hidle, hirq⟩
  | bit k c r₀ hk busy count baud time shift =>
    by_cases h0 : r.rxBaudCnt = 0#16
    · have hzero : c = 0 := by rw [← baud, h0]; rfl
      subst hzero
      -- with all bits in, the byte arrives
      have hk8 : k < 8 := by
        rcases Nat.lt_or_eq_of_le hk with hlt8 | rfl
        · exact hlt8
        · unfold arrival at hlt
          omega
      refine Hearing.sample hD hpos ?_ hk8 busy count h0 time shift
      rw [hline, show a - 2 = D + o + k * D by omega]
    · have hne : r.rxBaudCnt.toNat ≠ 0 := fun hz => h0 (BitVec.eq_of_toNat_eq hz)
      rw [UartRx.step, UartRx.receive_count baudDiv i busy h0]
      refine ⟨.bit k (c - 1) r₀ hk busy count ?_ (by omega) shift, rfl⟩
      show (r.rxBaudCnt - 1#16).toNat = _
      rw [toNat_pred (by omega), baud]

/-- The clock in which it arrives. -/
theorem Hearing.finish (hpos : 0 < D) (hlast : a + 1 = arrival D o) (h : Hearing D o r b a) :
    (r.step baudDiv i serialRx).rxBusyQ = false ∧ (r.step baudDiv i serialRx).rxIrq = true ∧
      (r.step baudDiv i serialRx).rxDataQ = word 8 (heard D o b 8) := by
  unfold arrival at hlast
  cases h with
  | waiting before idle => omega
  | bit k c r₀ hk busy count baud time shift =>
    have hk8 : k = 8 := by
      by_contra hne
      have hle : (k + 1) * D ≤ 8 * D := Nat.mul_le_mul_right D (by omega)
      rw [Nat.succ_mul k D] at hle
      omega
    subst hk8
    have hzero : r.rxBaudCnt = 0#16 := BitVec.eq_of_toNat_eq (by rw [baud]; simp; omega)
    have hcount : r.rxBitCount = 0#4 := BitVec.eq_of_toNat_eq count
    rw [UartRx.step, UartRx.receive_stop baudDiv i busy hzero hcount]
    refine ⟨rfl, rfl, ?_⟩
    show r.rxShift = _
    rw [← shiftAll_full (by decide) r₀ (by simp [heard]), ← shift]

end Rx

/-! ## Bytes on their way -/

/-- A byte, and the number of clocks since its store. -/
structure Frame where
  byte : BitVec 8
  age : Nat
  deriving DecidableEq

def Frame.older (f : Frame) : Frame := { f with age := f.age + 1 }

/-- The divisors up to the first preload that does not fit: a bit and a half. -/
def delay (D : Nat) : Nat := D + D / 2

/-- The age at which a byte has arrived. -/
abbrev term (D : Nat) : Nat := arrival D (delay D)

/-- The bytes one clock later: they age, the oldest may arrive, one may be stored. -/
def next (D : Nat) (g : List Frame) (load : List (BitVec 8)) : List Frame :=
  (g.map Frame.older).filter (·.age < term D) ++ load.map fun b => ⟨b, 0⟩

/-- The line `k` clocks ago: all but one of the bytes leave it high. -/
def lineAt (D : Nat) (g : List Frame) (k : Nat) : Bool :=
  g.all fun f => wave D f.byte (f.age - k)

/-- The two sides, for the bytes on their way. -/
inductive Sides (D : Nat) (s : Uart) : List Frame → Prop
  | none (tx : s.tx.txBusyQ = false) (line : s.tx.serialTx = true) (rx : s.rx.rxBusyQ = false) :
      Sides D s []
  | one (f : Frame) (young : f.age < term D) (tx : Sending D s.tx f.byte f.age)
      (rx : Hearing D (delay D) s.rx f.byte f.age) : Sides D s [f]
  /-- the next byte is stored while the receiver waits for the stop bit -/
  | two (f₀ f : Frame) (young : f₀.age < term D) (apart : f.age + 10 * D < f₀.age)
      (tx : Sending D s.tx f.byte f.age) (rx : Hearing D (delay D) s.rx f₀.byte f₀.age) :
      Sides D s [f₀, f]

/-- The device while the bytes `g` are on their way. -/
structure Flight (D : Nat) (s : Uart) (g : List Frame) : Prop where
  baud : s.baudDiv.toNat = D
  sync : s.rx.rxSync = BitVec.ofBool (lineAt D g 2) ++ BitVec.ofBool (lineAt D g 1)
  sides : Sides D s g

section Flight

variable {D : Nat} {s : Uart} {g : List Frame} {i : UartBus}

theorem term_eq (D : Nat) : term D = 10 * D + D / 2 + 3 := by
  unfold term arrival delay
  omega

theorem next_nil (load : List (BitVec 8)) : next D [] load = load.map fun b => ⟨b, 0⟩ := rfl

theorem next_young {f : Frame} (h : f.age + 1 < term D) (load : List (BitVec 8)) :
    next D (f :: g) load = f.older :: next D g load := by
  unfold next
  rw [List.map_cons, List.filter_cons_of_pos (by exact decide_eq_true h)]
  rfl

theorem next_old {f : Frame} (h : ¬ f.age + 1 < term D) (load : List (BitVec 8)) :
    next D (f :: g) load = next D g load := by
  unfold next
  rw [List.map_cons, List.filter_cons_of_neg (by exact fun hy => h (of_decide_eq_true hy))]

theorem lineAt_cons (f : Frame) (k : Nat) :
    lineAt D (f :: g) k = (wave D f.byte (f.age - k) && lineAt D g k) := rfl

/-- One clock moves the line by one. -/
theorem lineAt_next (hpos : 0 < D) {k : Nat} (hk : k ≤ 1) (load : List (BitVec 8))
    (hyoung : ∀ f ∈ g, f.age < term D) :
    lineAt D (next D g load) (k + 1) = lineAt D g k := by
  induction g with
  | nil =>
    rw [next_nil, lineAt, List.all_map]
    refine List.all_eq_true.mpr fun b _ => ?_
    exact wave_before b (by simpa using hpos)
  | cons f g ih =>
    have ih := ih fun f hf => hyoung f (List.mem_cons_of_mem _ hf)
    by_cases hin : f.age + 1 < term D
    · rw [next_young hin, lineAt_cons, lineAt_cons, ih]
      show (wave D f.byte (f.age + 1 - (k + 1)) && _) = _
      rw [Nat.add_sub_add_right]
    · rw [next_old hin, lineAt_cons, ih]
      rw [term_eq] at hin
      rw [wave_after f.byte hpos (by omega), Bool.true_and]

theorem Sides.young (h : Sides D s g) : ∀ f ∈ g, f.age < term D := by
  intro f hf
  cases h with
  | none => exact absurd hf List.not_mem_nil
  | one f₁ hyoung =>
    rw [List.mem_singleton.mp hf]
    exact hyoung
  | two f₀ f₁ hyoung hapart =>
    rcases List.mem_cons.mp hf with rfl | hf
    · exact hyoung
    · rw [List.mem_singleton.mp hf]
      omega

/-- What is on the line now. -/
theorem Sides.line (hpos : 0 < D) (h : Sides D s g) : s.tx.serialTx = lineAt D g 0 := by
  cases h with
  | none tx line rx => exact line
  | one f hyoung tx rx =>
    rw [tx.wave hpos]
    exact (Bool.and_true _).symm
  | two f₀ f hyoung hapart tx rx =>
    rw [tx.wave hpos]
    show _ = (wave D f₀.byte (f₀.age - 0) && (wave D f.byte (f.age - 0) && true))
    rw [wave_after f₀.byte hpos (by omega), Bool.true_and, Bool.and_true]
    rfl

/-- With a preload of a bit and a half the receiver takes the data bits. -/
theorem heard_all (hpos : 0 < D) (b : BitVec 8) : word 8 (heard D (delay D) b 8) = b := by
  refine BitVec.eq_of_getLsbD_eq fun j hj => ?_
  have hget := getElem?_bits (word 8 (heard D (delay D) b 8)) hj
  rw [bits_word (by simp [heard])] at hget
  have hbit : (heard D (delay D) b 8)[j]? = some (b.getLsbD j) := by
    have hmul : (j + 2 + 1) * D = j * D + 3 * D := by ring
    unfold heard delay
    rw [List.getElem?_map, List.getElem?_range hj, Option.map_some, ← level_data b hj,
      wave_bit b (j := j + 2) (c := D - 1 - D / 2) (by omega) (by omega)]
  rw [hbit] at hget
  exact (Option.some_inj.mp hget).symm

/-- Only an idle transmitter takes a byte. -/
theorem load_idle (h : s.tx.txLoad i = true) : s.tx.txBusyQ = false := by
  unfold UartTx.txLoad at h
  rw [Bool.and_eq_true, Bool.not_eq_true'] at h
  exact h.2

theorem Sending.idle (hpos : 0 < D) {t : UartTx} {b : BitVec 8} {a : Nat} (ha : 10 * D ≤ a)
    (h : Sending D t b a) : t.txBusyQ = false ∧ t.serialTx = true := by
  refine ⟨?_, (h.wave hpos).trans (wave_after b hpos ha)⟩
  by_contra hb
  have hlt := h.busy_iff.mp (Bool.not_eq_false _ ▸ hb)
  omega

theorem shows_none (h : s.rx.rxIrq = false) : shows s = [] := by
  unfold shows
  rw [h]
  rfl

theorem shows_one {b : BitVec 8} (h : s.rx.rxIrq = true) (hb : s.rx.rxDataQ = b) :
    shows s = [b] := by
  unfold shows
  rw [h, if_pos rfl, ← hb]
  rfl

/-- **One clock** of the sides: no byte is lost and none is made. -/
theorem Sides.step (hD : s.baudDiv.toNat = D) (hpos : 0 < D)
    (ho : (UartRx.preload s.baudDiv).toNat + 1 = delay D)
    (hline : s.rx.rxSync.getLsbD 1 = lineAt D g 2) (h : Sides D s g) :
    Sides D (step s i) (next D g (loads s i)) ∧
      g.map Frame.byte ++ loads s i =
        shows (step s i) ++ (next D g (loads s i)).map Frame.byte := by
  have hterm := term_eq D
  unfold loads
  cases h with
  | none tx line rx =>
    obtain ⟨hrx, hirq⟩ := @step_idle s.rx i s.tx.serialTx s.baudDiv rx hline
    rw [shows_none hirq, next_nil]
    cases hl : s.tx.txLoad i with
    | false =>
      have hdone : Sending D s.tx 0#8 (10 * D) := .done (Nat.le_refl _) tx line
      obtain ⟨htx, htl⟩ := (hdone.step hD hpos hl).idle hpos (Nat.le_succ _)
      exact ⟨.none htx htl hrx, rfl⟩
    | true =>
      exact ⟨.one ⟨i.wdata, 0⟩ (by show 0 < term D; omega) (Sending.load hD hpos hl line)
        (.waiting (by show 0 < D + 3; omega) hrx), rfl⟩
  | one f young tx rx =>
    have hwave : s.rx.rxSync.getLsbD 1 = wave D f.byte (f.age - 2) := by
      rw [hline, lineAt_cons]
      exact Bool.and_true _
    -- a store finds the transmitter idle, so the byte before it is out
    have hidle : s.tx.txLoad i = true → 10 * D ≤ f.age := by
      intro hl
      have hbusy := load_idle hl
      by_contra hlt
      rw [tx.busy_iff.mpr (by omega)] at hbusy
      exact absurd hbusy (by decide)
    by_cases hin : f.age + 1 < term D
    · obtain ⟨hrx, hirq⟩ := @Hearing.step _ _ _ _ _ i s.tx.serialTx _ hD hpos ho hwave hin rx
      rw [shows_none hirq, next_young hin, next_nil]
      cases hl : s.tx.txLoad i with
      | false => exact ⟨.one f.older hin (tx.step hD hpos hl) hrx, rfl⟩
      | true =>
        have hage := hidle hl
        exact ⟨.two f.older ⟨i.wdata, 0⟩ hin (by show 0 + 10 * D < f.age + 1; omega)
          (Sending.load hD hpos hl (tx.idle hpos hage).2) hrx, rfl⟩
    · have hlast : f.age + 1 = term D := by omega
      obtain ⟨hrx, hirq, hdata⟩ := @Hearing.finish _ _ _ _ _ i s.tx.serialTx s.baudDiv hpos
        hlast rx
      rw [heard_all hpos] at hdata
      rw [shows_one hirq hdata, next_old hin, next_nil]
      cases hl : s.tx.txLoad i with
      | false =>
        obtain ⟨htx, htl⟩ := (tx.step hD hpos hl).idle hpos (by omega)
        exact ⟨.none htx htl hrx, rfl⟩
      | true =>
        exact ⟨.one ⟨i.wdata, 0⟩ (by show 0 < term D; omega)
          (Sending.load hD hpos hl (tx.idle hpos (by omega)).2)
          (.waiting (by show 0 < D + 3; omega) hrx), rfl⟩
  | two f₀ f young apart tx rx =>
    have hwave : s.rx.rxSync.getLsbD 1 = wave D f₀.byte (f₀.age - 2) := by
      rw [hline, lineAt_cons, lineAt_cons, wave_before f.byte (by omega)]
      exact Bool.and_true _
    -- the younger byte keeps the transmitter busy
    have hl : s.tx.txLoad i = false := by
      by_contra hl
      have hbusy := load_idle (Bool.not_eq_false _ ▸ hl)
      rw [tx.busy_iff.mpr (by omega)] at hbusy
      exact absurd hbusy (by decide)
    rw [hl, if_neg Bool.false_ne_true, List.append_nil]
    by_cases hin : f₀.age + 1 < term D
    · obtain ⟨hrx, hirq⟩ := @Hearing.step _ _ _ _ _ i s.tx.serialTx _ hD hpos ho hwave hin rx
      rw [shows_none hirq, next_young hin, next_young (by omega), next_nil]
      exact ⟨.two f₀.older f.older hin (by show f.age + 1 + 10 * D < f₀.age + 1; omega)
        (tx.step hD hpos hl) hrx, rfl⟩
    · have hlast : f₀.age + 1 = term D := by omega
      obtain ⟨hrx, hirq, hdata⟩ := @Hearing.finish _ _ _ _ _ i s.tx.serialTx s.baudDiv hpos
        hlast rx
      rw [heard_all hpos] at hdata
      rw [shows_one hirq hdata, next_old hin, next_young (by omega), next_nil]
      exact ⟨.one f.older (by show f.age + 1 < term D; omega) (tx.step hD hpos hl)
        (.waiting (by show f.age + 1 < D + 3; omega) hrx), rfl⟩

/-- **One clock** of the loop. -/
theorem Flight.step (hpos : 0 < D) (ho : (UartRx.preload s.baudDiv).toNat + 1 = delay D)
    (hhold : Uart.writesBaud i = false) (h : Flight D s g) :
    Flight D (step s i) (next D g (loads s i)) ∧
      g.map Frame.byte ++ loads s i =
        shows (step s i) ++ (next D g (loads s i)).map Frame.byte := by
  have hyoung := h.sides.young
  obtain ⟨hsides, hbytes⟩ := h.sides.step (i := i) h.baud hpos ho (by rw [h.sync, (pair_get _ _).1])
  refine ⟨⟨?_, ?_, hsides⟩, hbytes⟩
  · show (if Uart.writesBaud i then _ else s.baudDiv).toNat = D
    rw [hhold]
    exact h.baud
  · rw [lineAt_next hpos (by decide) _ hyoung, lineAt_next hpos (by decide) _ hyoung,
      ← h.sides.line hpos]
    have hsync : (Loopback.step s i).rx.rxSync =
      BitVec.ofBool (s.rx.rxSync.getLsbD 0) ++ BitVec.ofBool s.tx.serialTx := rfl
    rw [hsync, h.sync, (pair_get _ _).2]

end Flight

/-! ## Runs -/

theorem toNat_preload (d : BitVec 16) :
    (UartRx.preload d).toNat = (d.toNat + d.toNat / 2 + 65535) % 65536 := by
  have hhalf : (0#1 ++ d.extractLsb 15 1 : BitVec 16).toNat = d.toNat / 2 := by
    rw [BitVec.toNat_append, BitVec.extractLsb_toNat]
    have hlt := d.isLt
    simp [Nat.shiftRight_eq_div_pow]
    omega
  unfold UartRx.preload
  rw [BitVec.toNat_sub, BitVec.toNat_add, hhalf]
  have hone : (1#16).toNat = 1 := rfl
  rw [hone]
  omega

/-- The preload is a bit and a half when that fits. -/
theorem preload_fits {d : BitVec 16} {D : Nat} (hD : d.toNat = D) (hpos : 0 < D)
    (hfit : delay D ≤ 65536) : (UartRx.preload d).toNat + 1 = delay D := by
  unfold delay at *
  rw [toNat_preload, hD]
  omega

section Run

variable {D : Nat} {s : Uart} {ins : Nat → UartBus}

/-- The bytes on their way in clock `n`. -/
def flight (D : Nat) (s : Uart) (ins : Nat → UartBus) : Nat → List Frame
  | 0 => []
  | n + 1 => next D (flight D s ins n) (loads (run step s ins n) (ins n))

theorem sent_succ (n : Nat) :
    sent s ins (n + 1) = sent s ins n ++ loads (run step s ins n) (ins n) := rfl

theorem received_succ (n : Nat) :
    received s ins (n + 1) = received s ins n ++ shows (run step s ins n) := rfl

section Held

variable (hidle : Idle s) (hD : s.baudDiv.toNat = D) (hpos : 0 < D) (hfit : delay D ≤ 65536)
  (hhold : ∀ n, Uart.writesBaud (ins n) = false)

include hidle hD hpos hfit hhold

/-- **Runs**: the device follows the bytes, and those that are not on their way have
been received. -/
theorem run_flight (n : Nat) :
    Flight D (run step s ins n) (flight D s ins n) ∧
      received s ins (n + 1) ++ (flight D s ins n).map Frame.byte = sent s ins n := by
  induction n with
  | zero =>
    refine ⟨⟨hD, ?_, .none hidle.tx hidle.line hidle.rx⟩, ?_⟩
    · have hhigh : ∀ k, lineAt D (flight D s ins 0) k = true := fun _ => rfl
      rw [run_zero, hidle.sync, hhigh, hhigh]
      rfl
    rw [received_succ]
    show [] ++ shows s ++ [] = []
    rw [shows_none hidle.irq]
    rfl
  | succ n ih =>
    obtain ⟨hflight, hbytes⟩ := ih
    obtain ⟨hnext, hmoved⟩ := hflight.step hpos (preload_fits hflight.baud hpos hfit) (hhold n)
    refine ⟨hnext, ?_⟩
    calc received s ins (n + 2) ++ (flight D s ins (n + 1)).map Frame.byte
        = received s ins (n + 1) ++ (shows (run step s ins (n + 1)) ++
            (flight D s ins (n + 1)).map Frame.byte) := by
          rw [received_succ (n + 1), List.append_assoc]
      _ = received s ins (n + 1) ++ ((flight D s ins n).map Frame.byte ++
            loads (run step s ins n) (ins n)) := congrArg _ hmoved.symm
      _ = sent s ins (n + 1) := by rw [← List.append_assoc, hbytes, sent_succ]

omit hidle hD hpos hfit hhold in
/-- The youngest bytes on their way are the latest ones. -/
theorem sent_add (n : Nat) {k : Nat} (hk : k ≤ term D) :
    sent s ins (n + k) =
      sent s ins n ++ ((flight D s ins (n + k)).filter (·.age < k)).map Frame.byte := by
  induction k with
  | zero => simp
  | succ k ih =>
    have hnext : ((flight D s ins (n + (k + 1))).filter (·.age < k + 1)).map Frame.byte =
        ((flight D s ins (n + k)).filter (·.age < k)).map Frame.byte ++
          loads (run step s ins (n + k)) (ins (n + k)) := by
      show ((next D _ _).filter _).map Frame.byte = _
      generalize flight D s ins (n + k) = g
      generalize loads (run step s ins (n + k)) (ins (n + k)) = load
      have hload : ((load.map fun b => (⟨b, 0⟩ : Frame)).filter (·.age < k + 1)).map Frame.byte =
          load := by
        rw [List.filter_eq_self.mpr (by simp), List.map_map]
        exact List.map_id _
      unfold next
      rw [List.filter_append, List.map_append, hload, List.filter_filter]
      congr 1
      induction g with
      | nil => rfl
      | cons f g ihg =>
        rw [List.map_cons]
        by_cases hlt : f.age < k
        · have hin : (decide (f.age + 1 < k + 1) && decide (f.age + 1 < term D)) = true := by
            rw [decide_eq_true (by omega), decide_eq_true (by omega)]
            rfl
          rw [List.filter_cons_of_pos (by exact hin), List.map_cons, ihg,
            List.filter_cons_of_pos (by exact decide_eq_true hlt)]
          rfl
        · have hout : ¬ (decide (f.age + 1 < k + 1) && decide (f.age + 1 < term D)) = true := by
            rw [decide_eq_false (by omega)]
            exact Bool.false_ne_true
          rw [List.filter_cons_of_neg (by exact hout), ihg,
            List.filter_cons_of_neg (by exact fun h => hlt (of_decide_eq_true h))]
    rw [hnext, ← Nat.add_assoc, sent_succ, ih (Nat.le_of_succ_le hk), List.append_assoc]

/-- **Latency**: a byte arrives a fixed number of clocks after its store. -/
theorem latency (n : Nat) : received s ins (n + (10 * D + D / 2 + 4)) = sent s ins n := by
  obtain ⟨hflight, hbytes⟩ := run_flight hidle hD hpos hfit hhold (n + term D)
  have hall : (flight D s ins (n + term D)).filter (·.age < term D) =
      flight D s ins (n + term D) :=
    List.filter_eq_self.mpr fun f hf => decide_eq_true (hflight.sides.young f hf)
  rw [sent_add n (Nat.le_refl _), hall] at hbytes
  have hcancel := List.append_cancel_right hbytes
  rwa [Nat.add_assoc, term_eq] at hcancel

omit hidle hD hpos hfit hhold in
/-- A byte that is not new was on its way in the clock before. -/
theorem mem_next {g : List Frame} {load : List (BitVec 8)} {f : Frame} (h : f ∈ next D g load)
    (hage : 0 < f.age) : ∃ f' ∈ g, f'.byte = f.byte ∧ f'.age + 1 = f.age := by
  unfold next at h
  rcases List.mem_append.mp h with h | h
  · obtain ⟨f', hf', rfl⟩ := List.mem_map.mp (List.mem_filter.mp h).1
    exact ⟨f', hf', rfl, rfl⟩
  · obtain ⟨b, -, rfl⟩ := List.mem_map.mp h
    exact absurd hage (Nat.lt_irrefl 0)

omit hidle hD hpos hfit hhold in
/-- The transmitter works on the byte that is not yet out. -/
theorem Sides.sending {g : List Frame} (h : Sides D s g) {f : Frame} (hf : f ∈ g)
    (hage : f.age < 10 * D) : Sending D s.tx f.byte f.age := by
  cases h with
  | none => exact absurd hf List.not_mem_nil
  | one f₁ young tx rx =>
    rw [List.mem_singleton.mp hf]
    exact tx
  | two f₀ f₁ young apart tx rx =>
    rcases List.mem_cons.mp hf with rfl | hf
    · omega
    · rw [List.mem_singleton.mp hf]
      exact tx

omit hidle hD hpos hfit hhold in
/-- When the receiver takes a bit, a byte is on its way whose age says which. -/
theorem Sides.sampled {g : List Frame} (h : Sides D s g) (hs : samples s.rx = true) :
    ∃ f ∈ g, ∃ k < 8, f.age + 1 = D + 3 + delay D + k * D ∧ s.rx.rxBitCount.toNat = 8 - k := by
  have hhear : ∀ f : Frame, Hearing D (delay D) s.rx f.byte f.age →
      ∃ k < 8, f.age + 1 = D + 3 + delay D + k * D ∧ s.rx.rxBitCount.toNat = 8 - k := by
    intro f hf
    unfold samples at hs
    rw [Bool.and_eq_true, Bool.and_eq_true, beq_iff_eq, bne_iff_ne] at hs
    obtain ⟨⟨hbusy, hzero⟩, hcount⟩ := hs
    cases hf with
    | waiting before idle => rw [idle] at hbusy; exact absurd hbusy (by decide)
    | bit k c r₀ hk busy count baud time shift =>
      have hc : c = 0 := by rw [← baud, hzero]; rfl
      refine ⟨k, ?_, by omega, count⟩
      by_contra hge
      exact hcount (BitVec.eq_of_toNat_eq (by rw [count]; simp; omega))
  cases h with
  | none tx line rx =>
    unfold samples at hs
    rw [rx] at hs
    exact absurd hs Bool.false_ne_true
  | one f young tx rx => exact ⟨f, List.mem_cons_self, hhear f rx⟩
  | two f₀ f young apart tx rx => exact ⟨f₀, List.mem_cons_self, hhear f₀ rx⟩

/-- **Divisors that fit**: the loop delivers. -/
theorem delivers : Delivers s ins := by
  have hlat := latency hidle hD hpos hfit hhold
  refine ⟨fun n => ?order, fun n => ⟨_, hlat n⟩, fun n hs => ?inside⟩
  case order =>
    rcases Nat.le_total (10 * D + D / 2 + 4) n with hle | hle
    · obtain ⟨m, rfl⟩ := Nat.exists_eq_add_of_le' hle
      rw [hlat m]
      exact trace_le (Nat.le_add_right _ _)
    · have hnil : received s ins (10 * D + D / 2 + 4) = [] := by
        have hzero := hlat 0
        rwa [Nat.zero_add] at hzero
      have hpre : received s ins n <+: received s ins (10 * D + D / 2 + 4) := trace_le hle
      rw [hnil, List.prefix_nil] at hpre
      rw [hpre]
      exact List.nil_prefix
  case inside =>
    have hflight := fun m => (run_flight hidle hD hpos hfit hhold m).1
    obtain ⟨f, hf, k, hk, hage, hcount⟩ := (hflight (n + 2)).sides.sampled hs
    -- the same byte, two clocks before
    obtain ⟨f₁, hf₁, hb₁, ha₁⟩ := mem_next hf (by omega)
    obtain ⟨f₂, hf₂, hb₂, ha₂⟩ := mem_next hf₁ (by omega)
    have hdelay : delay D = D + D / 2 := rfl
    have hkD : (k + 2) * D = k * D + 2 * D := Nat.add_mul k 2 D
    have hkD' : (k + 2 + 1) * D = k * D + 3 * D := Nat.add_mul k 3 D
    have hk8 : (k + 1) * D ≤ 8 * D := Nat.mul_le_mul_right D hk
    rw [Nat.succ_mul k D] at hk8
    have hout : f₂.age < 10 * D := by omega
    cases (hflight n).sides.sending hf₂ hout with
    | done after idle line => omega
    | bit j c hj busy count baud hc time shift line =>
      refine ⟨busy, BitVec.eq_of_toNat_eq ?_⟩
      have hj' : f₂.age / D = j := by
        have hsucc : (j + 1) * D = j * D + D := Nat.succ_mul j D
        exact Nat.div_eq_of_lt_le (k := j) (by omega) (by omega)
      have hk' : f₂.age / D = k + 2 := Nat.div_eq_of_lt_le (by omega) (by omega)
      rw [count, hcount]
      omega

end Held

end Run

/-! ## Divisors that do not fit -/

section Alone

variable {D o : Nat} {s : Uart} {b : BitVec 8} {a : Nat} {i : UartBus}

/-- One byte, for any preload, up to its arrival. -/
structure Alone (D o : Nat) (s : Uart) (b : BitVec 8) (a : Nat) : Prop where
  baud : s.baudDiv.toNat = D
  preload : (UartRx.preload s.baudDiv).toNat + 1 = o
  sync : s.rx.rxSync = BitVec.ofBool (wave D b (a - 2)) ++ BitVec.ofBool (wave D b (a - 1))
  tx : Sending D s.tx b a
  rx : Hearing D o s.rx b a

/-- One clock without a store. -/
theorem Alone.step (hpos : 0 < D) (hw : i.we = false) (hlt : a + 1 < arrival D o)
    (h : Alone D o s b a) :
    Alone D o (Loopback.step s i) b (a + 1) ∧ (Loopback.step s i).rx.rxIrq = false := by
  have hl : s.tx.txLoad i = false := by
    unfold UartTx.txLoad
    rw [hw]
    rfl
  have hbaud : (Loopback.step s i).baudDiv = s.baudDiv := by
    show (if Uart.writesBaud i then _ else s.baudDiv) = _
    unfold Uart.writesBaud
    rw [hw]
    rfl
  have hsync : (Loopback.step s i).rx.rxSync =
      BitVec.ofBool (s.rx.rxSync.getLsbD 0) ++ BitVec.ofBool s.tx.serialTx := rfl
  obtain ⟨hrx, hirq⟩ := @Hearing.step _ _ _ _ _ i s.tx.serialTx _ h.baud hpos h.preload
    (by rw [h.sync, (pair_get _ _).1]) hlt h.rx
  refine ⟨⟨?_, ?_, ?_, h.tx.step h.baud hpos hl, hrx⟩, hirq⟩
  · rw [hbaud]
    exact h.baud
  · rw [hbaud]
    exact h.preload
  · rw [hsync, h.sync, (pair_get _ _).2, h.tx.wave hpos]
    rfl

/-- The store of the byte. -/
theorem Alone.load (hpos : 0 < D) (hidle : Idle s) (hD : s.baudDiv.toNat = D)
    (ho : (UartRx.preload s.baudDiv).toNat + 1 = o) (hl : s.tx.txLoad i = true)
    (hhold : Uart.writesBaud i = false) :
    Alone D o (Loopback.step s i) i.wdata 0 ∧ (Loopback.step s i).rx.rxIrq = false := by
  have hbaud : (Loopback.step s i).baudDiv = s.baudDiv := by
    show (if Uart.writesBaud i then _ else s.baudDiv) = _
    rw [hhold]
    rfl
  have hsync : (Loopback.step s i).rx.rxSync =
      BitVec.ofBool (s.rx.rxSync.getLsbD 0) ++ BitVec.ofBool s.tx.serialTx := rfl
  obtain ⟨hrx, hirq⟩ := @step_idle s.rx i s.tx.serialTx s.baudDiv hidle.rx
    (by rw [hidle.sync]; rfl)
  refine ⟨⟨?_, ?_, ?_, Sending.load hD hpos hl hidle.line, .waiting (by omega) hrx⟩, hirq⟩
  · rw [hbaud]
    exact hD
  · rw [hbaud]
    exact ho
  · rw [hsync, hidle.sync, hidle.line, wave_before i.wdata hpos]
    rfl

/-- All ones, once. -/
def onesOnce (n : Nat) : UartBus := { we := n == 0, wdata := 0xFF#8 }

theorem onesOnce_holds (n : Nat) : Uart.writesBaud (onesOnce n) = false := by
  have hreg : ((onesOnce n).reg == 0b10#2) = false :=
    show ((0#4 : BitVec 4).extractLsb 3 2 == 0b10#2) = false by decide
  unfold Uart.writesBaud
  rw [hreg, Bool.and_false]

theorem onesOnce_load (hidle : Idle s) : s.tx.txLoad (onesOnce 0) = true := by
  unfold UartTx.txLoad
  rw [hidle.tx]
  rfl

/-- The byte is stored, and no other one. -/
theorem onesOnce_sent (hidle : Idle s) (n : Nat) : sent s onesOnce (n + 1) = [0xFF#8] := by
  induction n with
  | zero =>
    show [] ++ loads s (onesOnce 0) = _
    unfold loads
    rw [onesOnce_load hidle]
    rfl
  | succ n ih =>
    have hnone : loads (run Loopback.step s onesOnce (n + 1)) (onesOnce (n + 1)) = [] := rfl
    rw [sent_succ, ih, hnone]
    rfl

/-- It goes its way, and nothing is received before it arrives. -/
theorem onesOnce_alone (hpos : 0 < D) (hidle : Idle s) (hD : s.baudDiv.toNat = D)
    (ho : (UartRx.preload s.baudDiv).toNat + 1 = o) (a : Nat) (hlt : a < arrival D o) :
    Alone D o (run Loopback.step s onesOnce (a + 1)) 0xFF#8 a ∧
      received s onesOnce (a + 2) = [] := by
  induction a with
  | zero =>
    obtain ⟨halone, hirq⟩ := Alone.load hpos hidle hD ho (onesOnce_load hidle) rfl
    refine ⟨halone, ?_⟩
    show [] ++ shows s ++ shows (Loopback.step s (onesOnce 0)) = []
    rw [shows_none hidle.irq, shows_none hirq]
    rfl
  | succ a ih =>
    obtain ⟨halone, hnone⟩ := ih (Nat.lt_of_succ_lt hlt)
    obtain ⟨hnext, hirq⟩ := halone.step (i := onesOnce (a + 1)) hpos rfl hlt
    refine ⟨hnext, ?_⟩
    rw [received_succ, hnone]
    exact shows_none hirq

/-- When the preload has lost its top bit the receiver takes the start bit for the first
data bit. -/
theorem garbles (hidle : Idle s) (hD : s.baudDiv.toNat = D) (hbig : 65536 < delay D) :
    ¬ Delivers s onesOnce := by
  have hlt := s.baudDiv.isLt
  have hdelay : delay D = D + D / 2 := rfl
  have hpos : 0 < D := by omega
  obtain ⟨o, ho⟩ : ∃ o, (UartRx.preload s.baudDiv).toNat + 1 = o := ⟨_, rfl⟩
  have hoD : o < D := by
    rw [toNat_preload, hD] at ho
    omega
  have hterm : 0 < arrival D o := by unfold arrival; omega
  obtain ⟨halone, hnone⟩ := onesOnce_alone hpos hidle hD ho (arrival D o - 1) (by omega)
  rw [show arrival D o - 1 + 1 = arrival D o by omega] at halone
  rw [show arrival D o - 1 + 2 = arrival D o + 1 by omega] at hnone
  obtain ⟨-, hirq, hdata⟩ := @Hearing.finish _ _ _ _ _ (onesOnce (arrival D o))
    (run Loopback.step s onesOnce (arrival D o)).tx.serialTx
    (run Loopback.step s onesOnce (arrival D o)).baudDiv hpos (by omega) halone.rx
  have hgot : received s onesOnce (arrival D o + 2) = [word 8 (heard D o 0xFF#8 8)] := by
    rw [received_succ, hnone]
    exact shows_one hirq hdata
  intro h
  have hpre := h.order (arrival D o + 2)
  rw [hgot, onesOnce_sent hidle, List.cons_prefix_cons] at hpre
  -- the lowest bit
  have hlow : (heard D o 0xFF#8 8)[0]? = some false := by
    unfold heard
    rw [List.getElem?_map, List.getElem?_range (by decide), Option.map_some, wave,
      Nat.div_eq_of_lt_le (k := 1) (by omega) (by omega), level_start]
  have hget := getElem?_bits (word 8 (heard D o 0xFF#8 8)) (i := 0) (by decide)
  rw [bits_word (by simp [heard]), hlow, hpre.1] at hget
  exact absurd hget (by decide)

end Alone

/-- **The loopback** delivers for the divisors up to 43691, and for no other. -/
theorem loopback_iff (D : Nat) (hpos : 1 ≤ D) (hle : D ≤ 65535) :
    (∀ (s : Uart) (ins : Nat → UartBus), Idle s → s.baudDiv.toNat = D →
      (∀ n, Uart.writesBaud (ins n) = false) → Delivers s ins) ↔ D ≤ 43691 := by
  have hdelay : delay D = D + D / 2 := rfl
  constructor
  · intro h
    by_contra hbig
    have hD : (Uart.reset (BitVec.ofNat 16 D)).baudDiv.toNat = D := by
      show (BitVec.ofNat 16 D).toNat = D
      rw [BitVec.toNat_ofNat]
      omega
    exact garbles (.reset _) hD (by omega) (h _ onesOnce (.reset _) hD onesOnce_holds)
  · intro hfit s ins hidle hD hhold
    exact delivers hidle hD hpos (by omega) hhold

/-- The divisor of the default parameters. -/
theorem loopback_iff_default : Delivers (Uart.reset 434#16) onesOnce :=
  (loopback_iff 434 (by decide) (by decide)).mpr (by decide) _ _ (.reset _) rfl
    onesOnce_holds

/-- A divisor of the register for which a byte is received as another one. -/
theorem loopback_garbles_43692 :
    ¬ ∀ D, 1 ≤ D → D ≤ 65535 → ∀ (s : Uart) (ins : Nat → UartBus), Idle s →
      s.baudDiv.toNat = D → (∀ n, Uart.writesBaud (ins n) = false) → Delivers s ins := by
  intro h
  exact garbles (.reset 43692#16) rfl (by decide)
    (h 43692 (by decide) (by decide) _ onesOnce (.reset _) rfl onesOnce_holds)

end ThreeSippEs.Loopback
