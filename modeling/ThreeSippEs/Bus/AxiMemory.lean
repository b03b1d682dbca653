import ThreeSippEs.Bus.AxiProtocol
import ThreeSippEs.Soc.Soc

/-!
# The bridge on a memory (`tb_three_sipp_es_axi.sv`)

The AXI4-Lite bridge connected to the slave memory of its testbench, which takes
its time on every channel and answers SLVERR for one word. Seen from the upstream
port the two are a plain memory:

- `SlaveMem`, `Bench`: the slave and the composed machine, channel by channel;
- `Store`: the memory as the requests see it, one after the other;
- `At`: what the two machines hold in each clock of a transaction;
- `axi_memory`: every request is answered, after a fixed number of clocks, with what
  the memory answers after the requests before it.
-/

namespace ThreeSippEs.AxiMemory

open Clocked AxiLite

/-- `ERR_ADDR`: the word that answers SLVERR. -/
def errAddr : Word := 0x00000F00#32

/-- `aw_idx` and `ar_idx` -/
def idx (a : Word) : BitVec 10 := a.extractLsb' 2 10

/-- `aw_is_err` and `ar_is_err` -/
def isErr (a : Word) : Bool := a.extractLsb 31 2 ++ 0b00#2 == errAddr

/-- The response code of an access. -/
def code (err : Bool) : BitVec 2 := if err then 0b10#2 else 0b00#2

/-- The registers of the slave; `waddrL` has no reset. -/
structure SlaveMem where
  mem : BitVec 10 → Word
  awready : Bool := false
  wready : Bool := false
  bvalid : Bool := false
  bresp : BitVec 2 := 0b00#2
  arready : Bool := false
  rvalid : Bool := false
  rresp : BitVec 2 := 0b00#2
  rdata : Word := 0#32
  awSeen : Bool := false
  wSeen : Bool := false
  waddrL : BitVec 10
  waddrErr : Bool := false
  wcnt : Nat := 0
  rcnt : Nat := 0

namespace SlaveMem

variable (s : SlaveMem) (m : AxiLite 32 32)

/-- The word a write goes to, and whether it is the one in error: AW may come with W. -/
def target : BitVec 10 := if s.awSeen then s.waddrL else idx m.mAxiAwaddr

def targetErr : Bool := if s.awSeen then s.waddrErr else isErr m.mAxiAwaddr

/-- One clock of the slave, on what the master drives. -/
def step : SlaveMem where
  mem :=
    if m.mAxiWvalid && s.wready && !s.targetErr m then
      Function.update s.mem (s.target m)
        (mergeLanes m.mAxiWstrb m.mAxiWdata (s.mem (s.target m)))
    else s.mem
  awready := m.mAxiAwvalid && !s.awready && !s.awSeen
  -- one wait state
  wready := m.mAxiWvalid && !s.wready && !s.wSeen && s.wcnt == 1
  wcnt :=
    if m.mAxiWvalid && !s.wready && !s.wSeen then (if s.wcnt = 1 then 0 else s.wcnt + 1)
    else s.wcnt
  -- the B handshake forgets the write, and is the last assignment
  awSeen :=
    if s.bvalid && m.mAxiBready then false
    else if m.mAxiAwvalid && s.awready then true else s.awSeen
  waddrL := if m.mAxiAwvalid && s.awready then idx m.mAxiAwaddr else s.waddrL
  waddrErr :=
    if s.bvalid && m.mAxiBready then false
    else if m.mAxiAwvalid && s.awready then isErr m.mAxiAwaddr else s.waddrErr
  wSeen :=
    if s.bvalid && m.mAxiBready then false
    else if m.mAxiWvalid && s.wready then true else s.wSeen
  bvalid :=
    if s.bvalid && m.mAxiBready then false
    else if s.awSeen && s.wSeen && !s.bvalid then true else s.bvalid
  bresp := if s.awSeen && s.wSeen && !s.bvalid then code s.waddrErr else s.bresp
  arready := m.mAxiArvalid && !s.arready && s.rcnt == 1
  rcnt :=
    if m.mAxiArvalid && !s.arready then (if s.rcnt = 1 then 0 else s.rcnt + 1) else s.rcnt
  rvalid :=
    if s.rvalid && m.mAxiRready then false
    else if m.mAxiArvalid && s.arready then true else s.rvalid
  rresp := if m.mAxiArvalid && s.arready then code (isErr m.mAxiAraddr) else s.rresp
  rdata :=
    if m.mAxiArvalid && s.arready then
      (if isErr m.mAxiAraddr then 0xDEADDEAD#32 else s.mem (idx m.mAxiAraddr))
    else s.rdata

end SlaveMem

/-- What the core side offers in one clock. -/
structure Upstream where
  reqValid : Bool
  req : Req 32 32

/-- The bridge and the slave, wire to wire. -/
structure Bench where
  bridge : AxiLite 32 32
  slave : SlaveMem

namespace Bench

variable (b : Bench) (u : Upstream)

def bridgeIn : AxiIn 32 32 where
  reqValid := u.reqValid
  reqWrite := u.req.write
  reqAddr := u.req.addr
  reqWdata := u.req.wdata
  reqWstrb := u.req.wstrb
  mAxiAwready := b.slave.awready
  mAxiWready := b.slave.wready
  mAxiBresp := b.slave.bresp
  mAxiBvalid := b.slave.bvalid
  mAxiArready := b.slave.arready
  mAxiRdata := b.slave.rdata
  mAxiRresp := b.slave.rresp
  mAxiRvalid := b.slave.rvalid

/-- One clock of both. -/
def step : Bench where
  bridge := b.bridge.step (b.bridgeIn u)
  slave := b.slave.step b.bridge

/-- Out of reset, with a memory that was filled before. -/
def reset (mem : BitVec 10 → Word) (waddrL : BitVec 10) : Bench where
  bridge := AxiLite.reset
  slave := { mem, waddrL }

/-- The request is accepted in this clock. -/
def accepts : Bool := u.reqValid && b.bridge.reqReady

/-- The response of this clock, if there is one. -/
def responses : List (Word × BitVec 2) :=
  if b.bridge.rspValid then [(b.bridge.rspRdata, b.bridge.rspResp)] else []

end Bench

/-! ## The memory behind the bus -/

/-- The memory as the requests see it, with the data of the last read: a write
responds with it. -/
structure Store where
  mem : BitVec 10 → Word
  rdata : Word

namespace Store

/-- What a read returns. -/
def lookup (mem : BitVec 10 → Word) (a : Word) : Word :=
  if isErr a then 0xDEADDEAD#32 else mem (idx a)

/-- What a write leaves. -/
def merge (mem : BitVec 10 → Word) (a : Word) (strb : BitVec 4) (v : Word) : BitVec 10 → Word :=
  if isErr a then mem else Function.update mem (idx a) (mergeLanes strb v (mem (idx a)))

/-- One request. -/
def serve (s : Store) (r : Req 32 32) : Store :=
  if r.write then { s with mem := merge s.mem r.addr r.wstrb r.wdata }
  else { s with rdata := lookup s.mem r.addr }

/-- Its answer. -/
def answer (s : Store) (r : Req 32 32) : Word × BitVec 2 :=
  ((s.serve r).rdata, code (isErr r.addr))

end Store

/-! ## A transaction, clock by clock -/

/-- The control of the two machines. -/
structure Ctl where
  state : AxiState := .idle
  awDone : Bool := false
  wDone : Bool := false
  awready : Bool := false
  wready : Bool := false
  bvalid : Bool := false
  arready : Bool := false
  rvalid : Bool := false
  awSeen : Bool := false
  wSeen : Bool := false
  wcnt : Nat := 0
  rcnt : Nat := 0
  deriving DecidableEq

def Bench.ctl (b : Bench) : Ctl where
  state := b.bridge.state
  awDone := b.bridge.awDone
  wDone := b.bridge.wDone
  awready := b.slave.awready
  wready := b.slave.wready
  bvalid := b.slave.bvalid
  arready := b.slave.arready
  rvalid := b.slave.rvalid
  awSeen := b.slave.awSeen
  wSeen := b.slave.wSeen
  wcnt := b.slave.wcnt
  rcnt := b.slave.rcnt

namespace Ctl

/-- The flags of a write are cleared in the clock behind it. -/
def idle (d : Bool) : Ctl := { awDone := d, wDone := d }

/-- AW and W are offered, -/
def offered : Ctl := { state := .waddr }
/-- AW is about to be taken, -/
def awTaken : Ctl := { state := .waddr, awready := true, wcnt := 1 }
/-- W is about to be taken, -/
def wTaken : Ctl := { state := .waddr, awDone := true, wready := true, awSeen := true }
/-- both have been taken, -/
def written : Ctl := { state := .wresp, awDone := true, wDone := true, awSeen := true, wSeen := true }
/-- B is offered, -/
def answered : Ctl := { written with bvalid := true }
/-- and the response is given. -/
def writeDone : Ctl := { state := .done, awDone := true, wDone := true }

/-- AR is offered, -/
def asked : Ctl := { state := .raddr }
/-- waits, -/
def waited : Ctl := { state := .raddr, rcnt := 1 }
/-- is about to be taken, -/
def arTaken : Ctl := { state := .raddr, arready := true }
/-- R is offered, -/
def read : Ctl := { state := .rdata, rvalid := true }
/-- and the response is given. -/
def readDone : Ctl := { state := .done }

end Ctl

/-- What the two machines hold when `a` is the memory after the request under way. -/
inductive At (b : Bench) (a : Store) : Prop
  | idle (d : Bool) (hc : b.ctl = .idle d) (hm : b.slave.mem = a.mem)
      (hr : b.bridge.rdataQ = a.rdata)
  | offered (hc : b.ctl = .offered) (hr : b.bridge.rdataQ = a.rdata)
      (hm : Store.merge b.slave.mem b.bridge.addrQ b.bridge.wstrbQ b.bridge.wdataQ = a.mem)
  | awTaken (hc : b.ctl = .awTaken) (hr : b.bridge.rdataQ = a.rdata)
      (hm : Store.merge b.slave.mem b.bridge.addrQ b.bridge.wstrbQ b.bridge.wdataQ = a.mem)
  | wTaken (hc : b.ctl = .wTaken) (hr : b.bridge.rdataQ = a.rdata)
      (hm : Store.merge b.slave.mem b.bridge.addrQ b.bridge.wstrbQ b.bridge.wdataQ = a.mem)
      (hl : b.slave.waddrL = idx b.bridge.addrQ) (he : b.slave.waddrErr = isErr b.bridge.addrQ)
  | written (hc : b.ctl = .written) (hr : b.bridge.rdataQ = a.rdata) (hm : b.slave.mem = a.mem)
      (he : b.slave.waddrErr = isErr b.bridge.addrQ)
  | answered (hc : b.ctl = .answered) (hr : b.bridge.rdataQ = a.rdata)
      (hm : b.slave.mem = a.mem) (hb : b.slave.bresp = code (isErr b.bridge.addrQ))
  | writeDone (hc : b.ctl = .writeDone) (hr : b.bridge.rdataQ = a.rdata)
      (hm : b.slave.mem = a.mem)
  | asked (hc : b.ctl = .asked) (hm : b.slave.mem = a.mem)
      (hr : Store.lookup b.slave.mem b.bridge.addrQ = a.rdata)
  | waited (hc : b.ctl = .waited) (hm : b.slave.mem = a.mem)
      (hr : Store.lookup b.slave.mem b.bridge.addrQ = a.rdata)
  | arTaken (hc : b.ctl = .arTaken) (hm : b.slave.mem = a.mem)
      (hr : Store.lookup b.slave.mem b.bridge.addrQ = a.rdata)
  | read (hc : b.ctl = .read) (hm : b.slave.mem = a.mem) (hr : b.slave.rdata = a.rdata)
  | readDone (hc : b.ctl = .readDone) (hm : b.slave.mem = a.mem) (hr : b.bridge.rdataQ = a.rdata)

/-- The response that is still to be given. -/
def pend (b : Bench) : List (Word × BitVec 2) :=
  match b.bridge.state with
  | .idle => []
  | .waddr => [(b.bridge.rdataQ, code (isErr b.bridge.addrQ))]
  | .wresp => [(b.bridge.rdataQ, if b.slave.bvalid then b.slave.bresp else code b.slave.waddrErr)]
  | .raddr => [(Store.lookup b.slave.mem b.bridge.addrQ, code (isErr b.bridge.addrQ))]
  | .rdata => [(b.slave.rdata, b.slave.rresp)]
  | .done => [(b.bridge.rdataQ, b.bridge.respQ)]

section Step

variable {b : Bench} {a : Store} {u : Upstream}

/-- **One clock** without a new request goes on with the transaction. -/
theorem At.stutter (h : At b a) (hno : b.accepts u = false) :
    At (b.step u) a ∧ pend b = b.responses ++ pend (b.step u) := by
  rcases b with ⟨⟨st, addr, wd, rd, ws, resp, awD, wD⟩,
    ⟨mem, awr, wr, bv, br, arr, rv, rr, rdat, aws, wS, wal, wae, wc, rc⟩⟩
  cases h with
  | idle d hc hm hr =>
    cases hc
    obtain ⟨v, r⟩ := u
    have hv : v = false := by
      unfold Bench.accepts at hno
      rwa [show AxiLite.reqReady _ = true from rfl, Bool.and_true] at hno
    subst hv
    exact ⟨.idle false rfl hm hr, rfl⟩
  | offered hc hr hm =>
    cases hc
    exact ⟨.awTaken rfl hr hm, rfl⟩
  | awTaken hc hr hm =>
    cases hc
    exact ⟨.wTaken rfl hr hm rfl rfl, rfl⟩
  | wTaken hc hr hm hl he =>
    cases hc
    have hl' : wal = idx addr := hl
    have he' : wae = isErr addr := he
    subst hl' he'
    refine ⟨.written rfl hr ?_ rfl, rfl⟩
    -- the write happens unless the word is in error
    unfold Store.merge at hm
    cases herr : isErr addr with
    | true =>
      rw [herr] at hm
      exact hm
    | false =>
      rw [herr] at hm
      exact hm
  | written hc hr hm he =>
    cases hc
    exact ⟨.answered rfl hr hm (congrArg code he), rfl⟩
  | answered hc hr hm hb =>
    cases hc
    exact ⟨.writeDone rfl hr hm, rfl⟩
  | writeDone hc hr hm =>
    cases hc
    exact ⟨.idle true rfl hm hr, rfl⟩
  | asked hc hm hr =>
    cases hc
    exact ⟨.waited rfl hm hr, rfl⟩
  | waited hc hm hr =>
    cases hc
    exact ⟨.arTaken rfl hm hr, rfl⟩
  | arTaken hc hm hr =>
    cases hc
    exact ⟨.read rfl hm hr, rfl⟩
  | read hc hm hr =>
    cases hc
    exact ⟨.readDone rfl hm hr, rfl⟩
  | readDone hc hm hr =>
    cases hc
    exact ⟨.idle false rfl hm hr, rfl⟩

/-- **One clock** that accepts a request begins a transaction. -/
theorem At.commit (h : At b a) (hacc : b.accepts u = true) :
    At (b.step u) (a.serve u.req) ∧ b.responses = pend b ∧
      pend (b.step u) = [a.answer u.req] := by
  unfold Bench.accepts at hacc
  rw [Bool.and_eq_true] at hacc
  rcases b with ⟨⟨st, addr, wd, rd, ws, resp, awD, wD⟩,
    ⟨mem, awr, wr, bv, br, arr, rv, rr, rdat, aws, wS, wal, wae, wc, rc⟩⟩
  obtain ⟨v, ⟨w, ad, d, sb⟩⟩ := u
  obtain ⟨amem, ardata⟩ := a
  have hst : st = .idle := beq_iff_eq.mp hacc.2
  have hv : v = true := hacc.1
  subst hst hv
  cases h with
  | idle d' hc hm hr =>
    cases hc
    have hm' : mem = amem := hm
    have hr' : rd = ardata := hr
    subst hm' hr'
    cases w with
    | true => exact ⟨.offered rfl rfl rfl, rfl, rfl⟩
    | false => exact ⟨.asked rfl rfl rfl, rfl, rfl⟩
  | offered hc | awTaken hc | wTaken hc | written hc | answered hc | writeDone hc | asked hc
  | waited hc | arTaken hc | read hc | readDone hc => cases hc

/-- The clocks until the response is given. -/
def left (b : Bench) : Nat :=
  match b.bridge.state with
  | .idle => 0
  | .waddr => if b.bridge.awDone then 3 else if b.slave.awready then 4 else 5
  | .wresp => if b.slave.bvalid then 1 else 2
  | .raddr => if b.slave.arready then 2 else 4 - b.slave.rcnt
  | .rdata => 1
  | .done => 0

/-- The wait for the response counts down. -/
theorem At.countdown (h : At b a) (hidle : b.bridge.reqReady = false)
    (hdone : b.bridge.rspValid = false) :
    left b = left (b.step u) + 1 ∧ (b.step u).bridge.reqReady = false := by
  rcases b with ⟨⟨st, addr, wd, rd, ws, resp, awD, wD⟩,
    ⟨mem, awr, wr, bv, br, arr, rv, rr, rdat, aws, wS, wal, wae, wc, rc⟩⟩
  cases h with
  | idle d hc =>
    cases hc
    cases hidle
  | writeDone hc | readDone hc =>
    cases hc
    cases hdone
  | offered hc | awTaken hc | wTaken hc | written hc | answered hc | asked hc | waited hc
  | arTaken hc | read hc =>
    cases hc
    exact ⟨rfl, rfl⟩

theorem left_of_accepts (h : At b a) (hacc : b.accepts u = true) :
    left (b.step u) = (if u.req.write then 5 else 4) ∧
      (b.step u).bridge.reqReady = false := by
  unfold Bench.accepts at hacc
  rw [Bool.and_eq_true] at hacc
  rcases b with ⟨⟨st, addr, wd, rd, ws, resp, awD, wD⟩,
    ⟨mem, awr, wr, bv, br, arr, rv, rr, rdat, aws, wS, wal, wae, wc, rc⟩⟩
  obtain ⟨v, ⟨w, ad, d, sb⟩⟩ := u
  have hst : st = .idle := beq_iff_eq.mp hacc.2
  have hv : v = true := hacc.1
  subst hst hv
  cases h with
  | idle d' hc =>
    cases hc
    cases w <;> exact ⟨rfl, rfl⟩
  | offered hc | awTaken hc | wTaken hc | written hc | answered hc | writeDone hc | asked hc
  | waited hc | arTaken hc | read hc | readDone hc => cases hc

/-- With nothing left to wait for the response is there. -/
theorem At.responds (h : At b a) (hidle : b.bridge.reqReady = false) (hleft : left b = 0) :
    b.bridge.rspValid = true := by
  rcases b with ⟨⟨st, addr, wd, rd, ws, resp, awD, wD⟩,
    ⟨mem, awr, wr, bv, br, arr, rv, rr, rdat, aws, wS, wal, wae, wc, rc⟩⟩
  cases h with
  | idle d hc =>
    cases hc
    cases hidle
  | writeDone hc | readDone hc =>
    cases hc
    rfl
  | offered hc | awTaken hc | wTaken hc | written hc | answered hc | asked hc | waited hc
  | arTaken hc | read hc =>
    cases hc
    cases hleft

end Step

/-- The bridge on its slave executes the requests one after the other. -/
theorem refines : Refines Bench.step (fun b _ => b.responses) Bench.accepts (fun _ u => u.req)
    Store.serve (fun a r => [a.answer r]) At pend fun _ _ _ => True where
  stutter _ _ _ h _ hno := h.stutter hno
  commit _ _ _ h _ hacc := h.commit hacc

/-! ## Runs -/

section Run

variable (mem : BitVec 10 → Word) (waddrL : BitVec 10) (ups : Nat → Upstream)

/-- The two machines after `n` clocks. -/
def benchRun (n : Nat) : Bench := run Bench.step (Bench.reset mem waddrL) ups n

/-- The requests accepted in the first `n` clocks. -/
def accepted (n : Nat) : List (Req 32 32) :=
  labels Bench.step Bench.accepts (fun _ u => u.req) (Bench.reset mem waddrL) ups n

/-- The memory after these requests. -/
def storeAfter (n : Nat) : Store := seqRun Store.serve ⟨mem, 0#32⟩ (accepted mem waddrL ups n)

theorem at_run (n : Nat) : At (benchRun mem waddrL ups n) (storeAfter mem waddrL ups n) ∧
    trace Bench.step (fun b _ => b.responses) (Bench.reset mem waddrL) ups n ++
      pend (benchRun mem waddrL ups n) =
      seqTrace Store.serve (fun a r => [a.answer r]) ⟨mem, 0#32⟩ (accepted mem waddrL ups n) :=
  refines.run (.idle false rfl rfl rfl) rfl n fun _ _ => trivial

variable {mem waddrL ups}

/-- From an unanswered transaction on, the response comes after the clocks that are
left, and neither a response nor a request before it. -/
theorem answered_in (k n : Nat) (hidle : (benchRun mem waddrL ups n).bridge.reqReady = false)
    (hleft : left (benchRun mem waddrL ups n) = k) :
    (benchRun mem waddrL ups (n + k)).responses = pend (benchRun mem waddrL ups n) ∧
      ∀ j < k, (benchRun mem waddrL ups (n + j)).responses = [] ∧
        (benchRun mem waddrL ups (n + j)).bridge.reqReady = false := by
  induction k generalizing n with
  | zero =>
    have hvalid := (at_run mem waddrL ups n).1.responds hidle hleft
    have hdone : (benchRun mem waddrL ups n).bridge.state = .done := beq_iff_eq.mp hvalid
    refine ⟨?_, fun j hj => absurd hj (Nat.not_lt_zero j)⟩
    rw [Nat.add_zero]
    unfold Bench.responses pend
    rw [if_pos hvalid, hdone]
    rfl
  | succ k ih =>
    have hat := (at_run mem waddrL ups n).1
    have hvalid : (benchRun mem waddrL ups n).bridge.rspValid = false := by
      by_contra hv
      have hdone : (benchRun mem waddrL ups n).bridge.state = .done :=
        beq_iff_eq.mp (Bool.eq_true_of_not_eq_false hv)
      unfold left at hleft
      rw [hdone] at hleft
      cases hleft
    have hquiet : (benchRun mem waddrL ups n).responses = [] := by
      unfold Bench.responses
      rw [hvalid]
      rfl
    have hno : (benchRun mem waddrL ups n).accepts (ups n) = false := by
      unfold Bench.accepts
      rw [hidle, Bool.and_false]
    obtain ⟨hl, hbusy⟩ := hat.countdown (u := ups n) hidle hvalid
    have hpend := (hat.stutter hno).2
    rw [hquiet, List.nil_append] at hpend
    obtain ⟨hresp, hbetween⟩ := ih (n + 1) hbusy (Nat.succ.inj (hl.symm.trans hleft))
    refine ⟨?_, fun j hj => ?_⟩
    · rw [hpend, Nat.add_comm k 1, ← Nat.add_assoc]
      exact hresp
    · cases j with
      | zero => exact ⟨hquiet, hidle⟩
      | succ j =>
        rw [Nat.add_comm j 1, ← Nat.add_assoc]
        exact hbetween j (Nat.lt_of_succ_lt_succ hj)

/-- **The bridge and its slave are a memory.** For every sequence of requests, offered
whenever the core likes: between transactions the array holds what the accepted
requests left and their responses are those of the memory, in order; and a request
accepted in clock `n` is answered six clocks later, a read five, with the answer of the
memory that the requests before it left, and nothing happens in between. -/
theorem axi_memory (mem : BitVec 10 → Word) (waddrL : BitVec 10) (ups : Nat → Upstream)
    (n : Nat) :
    ((benchRun mem waddrL ups n).bridge.reqReady = true →
      (benchRun mem waddrL ups n).slave.mem = (storeAfter mem waddrL ups n).mem ∧
      trace Bench.step (fun b _ => b.responses) (Bench.reset mem waddrL) ups n =
        seqTrace Store.serve (fun a r => [a.answer r]) ⟨mem, 0#32⟩
          (accepted mem waddrL ups n)) ∧
    ((benchRun mem waddrL ups n).accepts (ups n) = true →
      (benchRun mem waddrL ups (n + 1 + if (ups n).req.write then 5 else 4)).responses =
        [(storeAfter mem waddrL ups n).answer (ups n).req] ∧
      ∀ j < if (ups n).req.write then 5 else 4,
        (benchRun mem waddrL ups (n + 1 + j)).responses = [] ∧
        (benchRun mem waddrL ups (n + 1 + j)).bridge.reqReady = false) := by
  obtain ⟨hat, htrace⟩ := at_run mem waddrL ups n
  constructor
  · intro hready
    have hidle : (benchRun mem waddrL ups n).bridge.state = .idle := beq_iff_eq.mp hready
    constructor
    · cases hat with
      | idle d hc hm hr => exact hm
      | offered hc | awTaken hc | wTaken hc | written hc | answered hc | writeDone hc | asked hc
      | waited hc | arTaken hc | read hc | readDone hc =>
        have hst := (congrArg Ctl.state hc).symm.trans hidle
        cases hst
    · unfold pend at htrace
      rw [hidle, List.append_nil] at htrace
      exact htrace
  · intro hacc
    obtain ⟨hleft, hbusy⟩ := left_of_accepts hat hacc
    obtain ⟨hresp, hbetween⟩ := answered_in _ (n + 1) hbusy hleft
    exact ⟨hresp.trans (hat.commit hacc).2.2, hbetween⟩

end Run

end ThreeSippEs.AxiMemory
