import ThreeSippEs.Bus.AxiLite
import ThreeSippEs.Lib.Sessions

/-!
# The AXI4-Lite protocol, as the bridge follows it

The handshakes of a run, request and response included, are a sequence of
complete transactions and the beginning of at most one more, whatever the slave
does and whenever it does it.

- `Complete`: what a write and a read look like from the outside;
- `Open`: the part of a transaction that each state stands for;
- `Protocol`: VALIDs that hold, the trace, and the answer of every request that a
  slave serves;
- `axi_protocol`: every run out of reset follows it.
-/

namespace ThreeSippEs.AxiLite

open Clocked

variable {addrW dataW : Nat}

/-! ## Transactions -/

/-- A request at the upstream port. -/
structure Req (addrW dataW : Nat) where
  write : Bool
  addr : BitVec addrW
  wdata : BitVec dataW
  wstrb : BitVec (dataW / 8)

/-- The handshakes, each with what it carries. -/
inductive Ev (addrW dataW : Nat) where
  | accept (r : Req addrW dataW)
  | aw (addr : BitVec addrW)
  | w (data : BitVec dataW) (strb : BitVec (dataW / 8))
  | b (resp : BitVec 2)
  | ar (addr : BitVec addrW)
  | r (data : BitVec dataW) (resp : BitVec 2)
  /-- one clock of `rsp_valid` -/
  | rsp (data : BitVec dataW) (resp : BitVec 2)

/-- The request offered in one clock. -/
def reqOf (i : AxiIn addrW dataW) : Req addrW dataW where
  write := i.reqWrite
  addr := i.reqAddr
  wdata := i.reqWdata
  wstrb := i.reqWstrb

/-- The handshakes of one clock. -/
def events (s : AxiLite addrW dataW) (i : AxiIn addrW dataW) : List (Ev addrW dataW) :=
  (if i.reqValid && s.reqReady then [.accept (reqOf i)] else []) ++
  (if s.mAxiAwvalid && i.mAxiAwready then [.aw s.mAxiAwaddr] else []) ++
  (if s.mAxiWvalid && i.mAxiWready then [.w s.mAxiWdata s.mAxiWstrb] else []) ++
  (if i.mAxiBvalid && s.mAxiBready then [.b i.mAxiBresp] else []) ++
  (if s.mAxiArvalid && i.mAxiArready then [.ar s.mAxiAraddr] else []) ++
  (if i.mAxiRvalid && s.mAxiRready then [.r i.mAxiRdata i.mAxiRresp] else []) ++
  (if s.rspValid then [.rsp s.rspRdata s.rspResp] else [])

/-- AW and W of a write, in either order. -/
def Addressed (r : Req addrW dataW) (l : List (Ev addrW dataW)) : Prop :=
  l = [.aw r.addr, .w r.wdata r.wstrb] ∨ l = [.w r.wdata r.wstrb, .aw r.addr]

/-- A transaction from its request to its response. -/
inductive Complete : List (Ev addrW dataW) → Prop
  | write (r : Req addrW dataW) (l) (d : BitVec dataW) (resp : BitVec 2) (hw : r.write = true)
      (hl : Addressed r l) : Complete (.accept r :: (l ++ [.b resp, .rsp d resp]))
  | read (r : Req addrW dataW) (d : BitVec dataW) (resp : BitVec 2) (hr : r.write = false) :
      Complete [.accept r, .ar r.addr, .r d resp, .rsp d resp]

/-! ## What a state stands for -/

/-- The captured request. -/
def Holds (s : AxiLite addrW dataW) (r : Req addrW dataW) : Prop :=
  s.addrQ = r.addr ∧ s.wdataQ = r.wdata ∧ s.wstrbQ = r.wstrb

/-- In state `s` the handshakes `cur` of the transaction under way have been
seen. -/
inductive Open (s : AxiLite addrW dataW) : List (Ev addrW dataW) → Prop
  | idle (hs : s.state = .idle) : Open s []
  | waddr (r) (hs : s.state = .waddr) (hw : r.write = true) (hr : Holds s r)
      (ha : s.awDone = false) (hd : s.wDone = false) : Open s [.accept r]
  | awFirst (r) (hs : s.state = .waddr) (hw : r.write = true) (hr : Holds s r)
      (ha : s.awDone = true) (hd : s.wDone = false) : Open s [.accept r, .aw r.addr]
  | wFirst (r) (hs : s.state = .waddr) (hw : r.write = true) (hr : Holds s r)
      (ha : s.awDone = false) (hd : s.wDone = true) : Open s [.accept r, .w r.wdata r.wstrb]
  | wresp (r l) (hs : s.state = .wresp) (hw : r.write = true) (hl : Addressed r l) :
      Open s (.accept r :: l)
  | wdone (r l resp) (hs : s.state = .done) (hw : r.write = true) (hl : Addressed r l)
      (hq : s.respQ = resp) : Open s (.accept r :: (l ++ [.b resp]))
  | raddr (r) (hs : s.state = .raddr) (hw : r.write = false) (hr : Holds s r) : Open s [.accept r]
  | rdata (r) (hs : s.state = .rdata) (hw : r.write = false) : Open s [.accept r, .ar r.addr]
  | rdone (r d resp) (hs : s.state = .done) (hw : r.write = false) (hd : s.rdataQ = d)
      (hq : s.respQ = resp) : Open s [.accept r, .ar r.addr, .r d resp]

/-- The transaction under way is the beginning of a complete one, and not all of
it. -/
theorem Open.begins {s : AxiLite addrW dataW} {cur : List (Ev addrW dataW)} (h : Open s cur) :
    ∃ t rest, Complete t ∧ t = cur ++ rest ∧ rest ≠ [] := by
  let r₀ : Req addrW dataW := ⟨false, 0#_, 0#_, 0#_⟩
  cases h with
  | idle _ => exact ⟨_, _, .read r₀ 0#_ 0#2 rfl, (List.nil_append _).symm, List.cons_ne_nil _ _⟩
  | waddr r _ hw _ _ _ | awFirst r _ hw _ _ _ =>
    exact ⟨_, _, .write r _ 0#_ 0#2 hw (.inl rfl), rfl, List.cons_ne_nil _ _⟩
  | wFirst r _ hw _ _ _ =>
    exact ⟨_, _, .write r _ 0#_ 0#2 hw (.inr rfl), rfl, List.cons_ne_nil _ _⟩
  | wresp r l _ hw hl => exact ⟨_, _, .write r l 0#_ 0#2 hw hl, rfl, List.cons_ne_nil _ _⟩
  | wdone r l resp _ hw hl _ =>
    exact ⟨_, [.rsp 0#_ resp], .write r l 0#_ resp hw hl, by simp, List.cons_ne_nil _ _⟩
  | raddr r _ hw _ | rdata r _ hw =>
    exact ⟨_, _, .read r 0#_ 0#2 hw, rfl, List.cons_ne_nil _ _⟩
  | rdone r d resp _ hw _ _ => exact ⟨_, _, .read r d resp hw, rfl, List.cons_ne_nil _ _⟩

/-! ## One clock -/

section Step

variable {s : AxiLite addrW dataW} {i : AxiIn addrW dataW}

theorem events_idle (hs : s.state = .idle) :
    s.events i = if i.reqValid then [.accept (reqOf i)] else [] := by
  simp [events, reqReady, mAxiAwvalid, mAxiWvalid, mAxiBready, mAxiArvalid, mAxiRready, rspValid,
    hs]

theorem events_waddr (hs : s.state = .waddr) :
    s.events i = (if !s.awDone && i.mAxiAwready then [.aw s.addrQ] else []) ++
      if !s.wDone && i.mAxiWready then [.w s.wdataQ s.wstrbQ] else [] := by
  simp [events, reqReady, mAxiAwvalid, mAxiWvalid, mAxiBready, mAxiArvalid, mAxiRready, rspValid,
    mAxiAwaddr, mAxiWdata, mAxiWstrb, hs]

theorem events_wresp (hs : s.state = .wresp) :
    s.events i = if i.mAxiBvalid then [.b i.mAxiBresp] else [] := by
  simp [events, reqReady, mAxiAwvalid, mAxiWvalid, mAxiBready, mAxiArvalid, mAxiRready, rspValid,
    hs]

theorem events_raddr (hs : s.state = .raddr) :
    s.events i = if i.mAxiArready then [.ar s.addrQ] else [] := by
  simp [events, reqReady, mAxiAwvalid, mAxiWvalid, mAxiBready, mAxiArvalid, mAxiRready, rspValid,
    mAxiAraddr, hs]

theorem events_rdata (hs : s.state = .rdata) :
    s.events i = if i.mAxiRvalid then [.r i.mAxiRdata i.mAxiRresp] else [] := by
  simp [events, reqReady, mAxiAwvalid, mAxiWvalid, mAxiBready, mAxiArvalid, mAxiRready, rspValid,
    hs]

theorem events_done (hs : s.state = .done) : s.events i = [.rsp s.rdataQ s.respQ] := by
  simp [events, reqReady, mAxiAwvalid, mAxiWvalid, mAxiBready, mAxiArvalid, mAxiRready, rspValid,
    rspRdata, rspResp, hs]

theorem step_of_idle (hs : s.state = .idle) : s.step i = s.stepIdle i := by
  unfold step
  rw [hs]

theorem step_of_waddr (hs : s.state = .waddr) : s.step i = s.stepWaddr i := by
  unfold step
  rw [hs]

theorem step_of_wresp (hs : s.state = .wresp) : s.step i = s.stepWresp i := by
  unfold step
  rw [hs]

theorem step_of_raddr (hs : s.state = .raddr) : s.step i = s.stepRaddr i := by
  unfold step
  rw [hs]

theorem step_of_rdata (hs : s.state = .rdata) : s.step i = s.stepRdata i := by
  unfold step
  rw [hs]

theorem step_of_done (hs : s.state = .done) : s.step i = { s with state := .idle } := by
  unfold step
  rw [hs]

theorem step_waddr (hs : s.state = .waddr) :
    (s.step i).addrQ = s.addrQ ∧ (s.step i).wdataQ = s.wdataQ ∧ (s.step i).wstrbQ = s.wstrbQ ∧
    (s.step i).awDone = (s.awDone || i.mAxiAwready) ∧
    (s.step i).wDone = (s.wDone || i.mAxiWready) ∧
    (s.step i).state =
      if (s.awDone || i.mAxiAwready) && (s.wDone || i.mAxiWready) then .wresp else .waddr := by
  rw [step_of_waddr hs]
  unfold stepWaddr mAxiAwvalid mAxiWvalid
  rw [hs]
  cases s.awDone <;> cases s.wDone <;> cases i.mAxiAwready <;> cases i.mAxiWready <;>
    exact ⟨rfl, rfl, rfl, rfl, rfl, rfl⟩

/-- The captured request stays until the write is addressed. -/
theorem Holds.step_waddr {r : Req addrW dataW} (h : Holds s r) (hs : s.state = .waddr) :
    Holds (s.step i) r := by
  obtain ⟨haddr, hdata, hstrb, -, -, -⟩ := AxiLite.step_waddr (i := i) hs
  unfold Holds
  rw [haddr, hdata, hstrb]
  exact h

/-- In `S_WADDR` the transaction goes on, whichever handshakes are still to come
and whichever come now. -/
theorem open_waddr (hs : s.state = .waddr) {cur : List (Ev addrW dataW)} (hopen : Open s cur) :
    Open (s.step i) (cur ++ s.events i) := by
  obtain ⟨-, -, -, haw, hwd, hst⟩ := step_waddr (i := i) hs
  have hkeep : ∀ r, Holds s r → Holds (s.step i) r := fun r hr => hr.step_waddr hs
  rw [events_waddr hs]
  -- one case for each combination of the handshakes that are still to come
  cases hopen with
  | waddr r _ hw hr ha hd =>
    rw [ha, Bool.false_or] at haw hst
    rw [hd, Bool.false_or] at hwd hst
    rw [ha, hd, hr.1, hr.2.1, hr.2.2]
    cases hra : i.mAxiAwready <;> cases hrw : i.mAxiWready <;> rw [hra, hrw] at hst <;>
      rw [hra] at haw <;> rw [hrw] at hwd
    · exact .waddr r hst hw (hkeep r hr) haw hwd
    · exact .wFirst r hst hw (hkeep r hr) haw hwd
    · exact .awFirst r hst hw (hkeep r hr) haw hwd
    · exact .wresp r _ hst hw (.inl rfl)
  | awFirst r _ hw hr ha hd =>
    rw [ha, Bool.true_or] at haw hst
    rw [hd, Bool.false_or] at hwd hst
    rw [ha, hd, hr.2.1, hr.2.2]
    cases hrw : i.mAxiWready <;> rw [hrw] at hst hwd
    · exact .awFirst r hst hw (hkeep r hr) haw hwd
    · exact .wresp r _ hst hw (.inl rfl)
  | wFirst r _ hw hr ha hd =>
    rw [ha, Bool.false_or] at haw hst
    rw [hd, Bool.true_or] at hwd hst
    rw [ha, hd, hr.1]
    cases hra : i.mAxiAwready <;> rw [hra] at hst haw
    · exact .wFirst r hst hw (hkeep r hr) haw hwd
    · exact .wresp r _ hst hw (.inr rfl)
  | idle h | wresp _ _ h | wdone _ _ _ h | raddr _ h | rdata _ h | rdone _ _ _ h =>
    rw [hs] at h
    cases h

/-- **One clock** of the bridge goes on with the transaction under way, or
responds and is idle. -/
theorem serves : Serves step events (Complete : List (Ev addrW dataW) → Prop) Open
    fun _ _ => True := by
  intro s i cur hopen _
  cases hopen with
  | idle hs =>
    left
    rw [step_of_idle hs, events_idle hs, List.nil_append]
    unfold stepIdle
    by_cases hv : i.reqValid = true
    · rw [if_pos hv, if_pos hv]
      by_cases hw : i.reqWrite = true
      · exact .waddr _ (if_pos hw) hw ⟨rfl, rfl, rfl⟩ rfl rfl
      · exact .raddr _ (if_neg hw) (Bool.not_eq_true _ ▸ hw) ⟨rfl, rfl, rfl⟩
    · rw [if_neg hv, if_neg hv]
      exact .idle hs
  | waddr r hs hw hr ha hd => exact .inl (open_waddr hs (.waddr r hs hw hr ha hd))
  | awFirst r hs hw hr ha hd => exact .inl (open_waddr hs (.awFirst r hs hw hr ha hd))
  | wFirst r hs hw hr ha hd => exact .inl (open_waddr hs (.wFirst r hs hw hr ha hd))
  | wresp r l hs hw hl =>
    left
    rw [step_of_wresp hs, events_wresp hs]
    unfold stepWresp mAxiBready
    rw [hs]
    by_cases hb : i.mAxiBvalid = true
    · rw [hb]
      exact .wdone r l _ rfl hw hl rfl
    · rw [Bool.not_eq_true] at hb
      rw [hb, if_neg Bool.false_ne_true, List.append_nil]
      exact .wresp r l hs hw hl
  | wdone r l resp hs hw hl hq =>
    right
    refine ⟨_, [], ?_, .write r l s.rdataQ resp hw hl, ?_⟩
    · rw [events_done hs, hq]
      simp
    · rw [step_of_done hs]
      exact .idle rfl
  | raddr r hs hw hr =>
    left
    rw [step_of_raddr hs, events_raddr hs, hr.1]
    unfold stepRaddr mAxiArvalid
    rw [hs]
    by_cases ha : i.mAxiArready = true
    · rw [ha]
      exact .rdata r rfl hw
    · rw [Bool.not_eq_true] at ha
      rw [ha]
      exact .raddr r hs hw hr
  | rdata r hs hw =>
    left
    rw [step_of_rdata hs, events_rdata hs]
    unfold stepRdata mAxiRready
    rw [hs]
    by_cases hv : i.mAxiRvalid = true
    · rw [hv]
      exact .rdone r _ _ rfl hw rfl rfl
    · rw [Bool.not_eq_true] at hv
      rw [hv]
      exact .rdata r hs hw
  | rdone r d resp hs hw hd hq =>
    right
    refine ⟨_, [], ?_, .read r d resp hw, ?_⟩
    · rw [events_done hs, hd, hq]
      rfl
    · rw [step_of_done hs]
      exact .idle rfl

/-- A VALID that is not met stays, with what it carries. -/
theorem aw_stays (h : s.mAxiAwvalid = true) (hr : i.mAxiAwready = false) :
    (s.step i).mAxiAwvalid = true ∧ (s.step i).mAxiAwaddr = s.mAxiAwaddr := by
  unfold mAxiAwvalid at h
  rw [Bool.and_eq_true, beq_iff_eq, Bool.not_eq_true'] at h
  obtain ⟨haddr, -, -, haw, -, hst⟩ := step_waddr (i := i) h.1
  rw [h.2, hr] at haw hst
  refine ⟨?_, haddr⟩
  unfold mAxiAwvalid
  rw [hst, haw]
  rfl

theorem w_stays (h : s.mAxiWvalid = true) (hr : i.mAxiWready = false) :
    (s.step i).mAxiWvalid = true ∧ (s.step i).mAxiWdata = s.mAxiWdata ∧
    (s.step i).mAxiWstrb = s.mAxiWstrb := by
  unfold mAxiWvalid at h
  rw [Bool.and_eq_true, beq_iff_eq, Bool.not_eq_true'] at h
  obtain ⟨-, hdata, hstrb, -, hwd, hst⟩ := step_waddr (i := i) h.1
  rw [h.2, hr] at hwd hst
  refine ⟨?_, hdata, hstrb⟩
  unfold mAxiWvalid
  rw [hst, hwd, Bool.or_self, Bool.and_false]
  rfl

theorem ar_stays (h : s.mAxiArvalid = true) (hr : i.mAxiArready = false) :
    (s.step i).mAxiArvalid = true ∧ (s.step i).mAxiAraddr = s.mAxiAraddr := by
  have hs : s.state = .raddr := beq_iff_eq.mp h
  have hstay : s.step i = s := by
    rw [step_of_raddr hs]
    unfold stepRaddr
    rw [hr, Bool.and_false]
    rfl
  rw [hstay]
  exact ⟨h, rfl⟩

end Step

/-! ## Runs -/

section Run

variable (ins : Nat → AxiIn addrW dataW)

/-- Every VALID is met by a READY, and every response that is awaited comes. -/
structure Answers : Prop where
  aw : ∀ n, (runFrom ins n).mAxiAwvalid = true → ∃ m, n ≤ m ∧ (ins m).mAxiAwready = true
  w : ∀ n, (runFrom ins n).mAxiWvalid = true → ∃ m, n ≤ m ∧ (ins m).mAxiWready = true
  b : ∀ n, (runFrom ins n).mAxiBready = true → ∃ m, n ≤ m ∧ (ins m).mAxiBvalid = true
  ar : ∀ n, (runFrom ins n).mAxiArvalid = true → ∃ m, n ≤ m ∧ (ins m).mAxiArready = true
  r : ∀ n, (runFrom ins n).mAxiRready = true → ∃ m, n ≤ m ∧ (ins m).mAxiRvalid = true

/-- What the master owes to the bus and to the core. -/
structure Protocol : Prop where
  aw : ∀ n, (runFrom ins n).mAxiAwvalid = true → (ins n).mAxiAwready = false →
    (runFrom ins (n + 1)).mAxiAwvalid = true ∧
    (runFrom ins (n + 1)).mAxiAwaddr = (runFrom ins n).mAxiAwaddr
  w : ∀ n, (runFrom ins n).mAxiWvalid = true → (ins n).mAxiWready = false →
    (runFrom ins (n + 1)).mAxiWvalid = true ∧
    (runFrom ins (n + 1)).mAxiWdata = (runFrom ins n).mAxiWdata ∧
    (runFrom ins (n + 1)).mAxiWstrb = (runFrom ins n).mAxiWstrb
  ar : ∀ n, (runFrom ins n).mAxiArvalid = true → (ins n).mAxiArready = false →
    (runFrom ins (n + 1)).mAxiArvalid = true ∧
    (runFrom ins (n + 1)).mAxiAraddr = (runFrom ins n).mAxiAraddr
  /-- complete transactions, and the beginning of at most one more -/
  transactions : ∀ n, ∃ cur, Sessions Complete (trace step events reset ins n) cur ∧
    ∃ t rest, Complete t ∧ t = cur ++ rest ∧ rest ≠ []
  /-- a slave that answers gets every transaction to its response -/
  responds : Answers ins → ∀ n, (runFrom ins n).reqReady = false →
    ∃ m, n ≤ m ∧ (runFrom ins m).rspValid = true

variable {ins}

theorem runFrom_succ (n : Nat) : runFrom ins (n + 1) = (runFrom ins n).step (ins n) := rfl

/-- A state that is left for `b` at an event, and the event comes. -/
theorem leaves {a b : AxiState} {event : Nat → Bool} {n : Nat} (hs : (runFrom ins n).state = a)
    (hstep : ∀ k, (runFrom ins k).state = a →
      (runFrom ins (k + 1)).state = if event k then b else a)
    (hcomes : ∃ m, n ≤ m ∧ event m = true) : ∃ m, n ≤ m ∧ (runFrom ins m).state = b := by
  obtain ⟨m, hm, hk, hb⟩ := waits (P := fun k => (runFrom ins k).state = a) hs
    (fun k _ hk hE => by rw [hstep k hk, if_neg hE]) hcomes
  exact ⟨m + 1, Nat.le_succ_of_le hm, by rw [hstep m hk, if_pos hb]⟩

theorem done_of_wresp (ha : Answers ins) {n : Nat} (hs : (runFrom ins n).state = .wresp) :
    ∃ m, n ≤ m ∧ (runFrom ins m).state = .done := by
  refine leaves hs (fun k hk => ?_) (ha.b n (beq_iff_eq.mpr hs))
  rw [runFrom_succ, step, hk]
  show (stepWresp _ _).state = _
  unfold stepWresp mAxiBready
  rw [hk]
  cases (ins k).mAxiBvalid
  · exact hk
  · rfl

theorem done_of_rdata (ha : Answers ins) {n : Nat} (hs : (runFrom ins n).state = .rdata) :
    ∃ m, n ≤ m ∧ (runFrom ins m).state = .done := by
  refine leaves hs (fun k hk => ?_) (ha.r n (beq_iff_eq.mpr hs))
  rw [runFrom_succ, step, hk]
  show (stepRdata _ _).state = _
  unfold stepRdata mAxiRready
  rw [hk]
  cases (ins k).mAxiRvalid
  · exact hk
  · rfl

theorem rdata_of_raddr (ha : Answers ins) {n : Nat} (hs : (runFrom ins n).state = .raddr) :
    ∃ m, n ≤ m ∧ (runFrom ins m).state = .rdata := by
  refine leaves hs (fun k hk => ?_) (ha.ar n (beq_iff_eq.mpr hs))
  rw [runFrom_succ, step, hk]
  show (stepRaddr _ _).state = _
  unfold stepRaddr mAxiArvalid
  rw [hk]
  cases (ins k).mAxiArready
  · exact hk
  · rfl

/-- The AW handshake of a write comes. -/
theorem awDone_of_waddr (ha : Answers ins) {n : Nat} (hs : (runFrom ins n).state = .waddr) :
    ∃ m, n ≤ m ∧ ((runFrom ins m).state = .wresp ∨
      (runFrom ins m).state = .waddr ∧ (runFrom ins m).awDone = true) := by
  by_cases haw : (runFrom ins n).awDone = true
  · exact ⟨n, Nat.le_refl n, .inr ⟨hs, haw⟩⟩
  · rw [Bool.not_eq_true] at haw
    obtain ⟨m, hm, ⟨hk, -⟩, hE⟩ := waits
      (P := fun k => (runFrom ins k).state = .waddr ∧ (runFrom ins k).awDone = false)
      (E := fun k => (ins k).mAxiAwready = true) ⟨hs, haw⟩
      (fun k _ hk hE => by
        obtain ⟨-, -, -, haw', -, hst⟩ := step_waddr (i := ins k) hk.1
        rw [Bool.not_eq_true] at hE
        rw [hk.2, hE] at haw' hst
        exact ⟨hst, haw'⟩)
      (ha.aw n (by unfold mAxiAwvalid; rw [hs, haw]; rfl))
    obtain ⟨-, -, -, haw', -, hst⟩ := step_waddr (i := ins m) hk
    rw [hE, Bool.or_true] at haw' hst
    refine ⟨m + 1, Nat.le_succ_of_le hm, ?_⟩
    rw [runFrom_succ, hst, haw', Bool.true_and]
    split
    · exact .inl rfl
    · exact .inr ⟨rfl, rfl⟩

/-- With AW accepted, the W handshake completes the write. -/
theorem wresp_of_awDone (ha : Answers ins) {n : Nat} (hs : (runFrom ins n).state = .waddr)
    (haw : (runFrom ins n).awDone = true) : ∃ m, n ≤ m ∧ (runFrom ins m).state = .wresp := by
  by_cases hwd : (runFrom ins n).wDone = true
  · obtain ⟨-, -, -, -, -, hst⟩ := step_waddr (i := ins n) hs
    rw [haw, hwd] at hst
    exact ⟨n + 1, Nat.le_succ n, hst⟩
  · rw [Bool.not_eq_true] at hwd
    obtain ⟨m, hm, ⟨hk, hkaw, -⟩, hE⟩ := waits
      (P := fun k => (runFrom ins k).state = .waddr ∧ (runFrom ins k).awDone = true ∧
        (runFrom ins k).wDone = false)
      (E := fun k => (ins k).mAxiWready = true) ⟨hs, haw, hwd⟩
      (fun k _ hk hE => by
        obtain ⟨-, -, -, haw', hwd', hst⟩ := step_waddr (i := ins k) hk.1
        rw [Bool.not_eq_true] at hE
        rw [hk.2.1] at haw' hst
        rw [hk.2.2, hE] at hwd' hst
        exact ⟨hst, haw', hwd'⟩)
      (ha.w n (by unfold mAxiWvalid; rw [hs, hwd]; rfl))
    obtain ⟨-, -, -, -, -, hst⟩ := step_waddr (i := ins m) hk
    rw [hkaw, hE, Bool.or_true] at hst
    exact ⟨m + 1, Nat.le_succ_of_le hm, hst⟩

/-- Every request that a slave serves is responded to. -/
theorem responds (ha : Answers ins) {n : Nat} (hb : (runFrom ins n).reqReady = false) :
    ∃ m, n ≤ m ∧ (runFrom ins m).rspValid = true := by
  have hdone : ∃ m, n ≤ m ∧ (runFrom ins m).state = .done := by
    cases hs : (runFrom ins n).state with
    | idle =>
      unfold reqReady at hb
      rw [hs] at hb
      cases hb
    | waddr =>
      obtain ⟨m, hm, h | ⟨h, haw⟩⟩ := awDone_of_waddr ha hs
      · obtain ⟨m', hm', hd⟩ := done_of_wresp ha h
        exact ⟨m', hm.trans hm', hd⟩
      · obtain ⟨m', hm', hw⟩ := wresp_of_awDone ha h haw
        obtain ⟨m'', hm'', hd⟩ := done_of_wresp ha hw
        exact ⟨m'', hm.trans (hm'.trans hm''), hd⟩
    | wresp => exact done_of_wresp ha hs
    | raddr =>
      obtain ⟨m, hm, h⟩ := rdata_of_raddr ha hs
      obtain ⟨m', hm', hd⟩ := done_of_rdata ha h
      exact ⟨m', hm.trans hm', hd⟩
    | rdata => exact done_of_rdata ha hs
    | done => exact ⟨n, Nat.le_refl n, hs⟩
  obtain ⟨m, hm, hd⟩ := hdone
  exact ⟨m, hm, beq_iff_eq.mpr hd⟩

/-- **The bridge follows the protocol** on every run out of reset, for every
sequence of requests and every behaviour of the slave. -/
theorem axi_protocol (ins : Nat → AxiIn addrW dataW) : Protocol ins where
  aw _ := aw_stays
  w _ := w_stays
  ar _ := ar_stays
  transactions n := by
    have h0 : Open (reset : AxiLite addrW dataW) [] := .idle rfl
    obtain ⟨cur, hl, hopen⟩ := serves.run h0 n fun _ _ => trivial
    exact ⟨cur, hl, hopen.begins⟩
  responds ha _ := responds ha

end Run

end ThreeSippEs.AxiLite
