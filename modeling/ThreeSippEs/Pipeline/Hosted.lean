import ThreeSippEs.Core.Hosted
import ThreeSippEs.Pipeline.Programs

/-!
# Programs on a host

A host is a machine around the core: an SoC with its devices, memories and debug
logic. When the host follows the core with two plain memories as long as its program
behaves, it executes the programs of the sequential machine.

- `Core.shown`: what the ports of the core show, whatever is behind them;
- `Hosts`: one clock of a host beside one of `Sys`;
- `Hosts.run`, `Hosts.programs`: its runs.
-/

namespace ThreeSippEs

open Clocked

variable {P : Params}

namespace Core

variable (c : Core P) (rdata : Word)

/-- The events of one clock, from the data port and the retire port. -/
def shown : List Event :=
  (if c.w.dmemRe then [.bus ⟨c.w.dmemAddr, c.w.dmemBe, false, rdata⟩] else []) ++
    (if c.w.dmemWe then [.bus ⟨c.w.dmemAddr, c.w.dmemBe, true, c.w.dmemWdata⟩] else []) ++
    (if c.w.retireValid then
      [.retire c.w.xw.pc c.w.xw.instr (if c.w.rfWe then some (c.w.xw.rd, c.w.wWb rdata) else none)]
    else [])

variable {c}

/-- A word that nothing asked for is not shown. -/
theorem shown_of_answers {r r' : Word} (h : c.w.dmemRe = true → r' = r) :
    c.shown r' = c.shown r := by
  cases hre : c.w.dmemRe with
  | true => rw [h hre]
  | false =>
    have hwritten : (if c.w.rfWe then some (c.w.xw.rd, c.w.wWb r') else none) =
        if c.w.rfWe then some (c.w.xw.rd, c.w.wWb r) else none := by
      by_cases hwe : c.w.rfWe = true
      · rw [wWb_of_unread hre (c.w.fwd_iff.mp (c.w.fwd_of_rfWe hwe)).1 r r']
      · rw [if_neg hwe, if_neg hwe]
    unfold shown
    rw [hre, if_neg Bool.false_ne_true, if_neg Bool.false_ne_true, hwritten]

end Core

/-- The system shows what its core shows. -/
theorem Sys.shown_eq (s : Sys P) :
    s.backend.shown = s.core.shown (s.mem.dmem.readWord s.core.w.dmemAddr) := rfl

section Host

variable {H I : Type*}

/-- In a clock that is `Ok` the host does what the system does with the lines `ext`, and
shows the same. -/
structure Hosts (step : H → I → H) (shown : H → List Event) (ext : H → ExtIn)
    (R : H → Sys P → Prop) (Ok : H → I → Sys P → Prop) : Prop where
  clock : ∀ h i t, R h t → Ok h i t → R (step h i) (t.step never (ext h))
  shown : ∀ h i t, R h t → Ok h i t → shown h = t.backend.shown

namespace Hosts

variable {step : H → I → H} {shown : H → List Event} {ext : H → ExtIn} {R : H → Sys P → Prop}
  {Ok : H → I → Sys P → Prop}

/-- **Runs** of a host are runs of the system. -/
theorem run (hh : Hosts step shown ext R Ok) {h : H} {t : Sys P} (hR : R h t) (ins : Nat → I)
    (n : Nat)
    (hok : ∀ k < n, Ok (run step h ins k) (ins k)
      (run (Sys.step never) t (fun k => ext (run step h ins k)) k)) :
    R (Clocked.run step h ins n)
        (Clocked.run (Sys.step never) t (fun k => ext (Clocked.run step h ins k)) n) ∧
      trace step (fun h _ => shown h) h ins n =
        trace (Sys.step never) (fun t _ => t.backend.shown) t
          (fun k => ext (Clocked.run step h ins k)) n := by
  induction n with
  | zero => exact ⟨hR, rfl⟩
  | succ n ih =>
    obtain ⟨hRn, htrace⟩ := ih fun k hk => hok k (Nat.lt_succ_of_lt hk)
    have hokn := hok n (Nat.lt_succ_self n)
    refine ⟨hh.clock _ _ _ hRn hokn, ?_⟩
    rw [trace, trace, htrace, hh.shown _ _ _ hRn hokn]

/-- **Programs** without interrupts: as long as the clocks are `Ok` the host shows the log
of the sequential machine, and that of `k` instructions within `44 * (k + 1)` clocks. -/
theorem programs (hh : Hosts step shown (fun _ => {}) R Ok) {h : H} {s₀ : Sys P} (hR : R h (s₀.reset never {}))
    (ins : Nat → I) :
    (∀ n, Paced P (s₀.reset never {}).archBoot n →
      (∀ k < n, Ok (Clocked.run step h ins k) (ins k) (harvardRun s₀ {} (fun _ => {}) k)) →
      ∃ k ≤ n, trace step (fun h _ => shown h) h ins n <+: (s₀.reset never {}).archBoot.log P k) ∧
    (∀ k, Paced P (s₀.reset never {}).archBoot k →
      (∀ j < 44 * (k + 1),
        Ok (Clocked.run step h ins j) (ins j) (harvardRun s₀ {} (fun _ => {}) j)) →
      ∃ n ≤ 44 * (k + 1),
        trace step (fun h _ => shown h) h ins n = (s₀.reset never {}).archBoot.log P k) := by
  constructor
  · intro n hprog hok
    refine ⟨issuedCount s₀ {} (fun _ => {}) n, ?_⟩
    rw [(hh.run hR ins n hok).2]
    exact Paced.shows_le (fun _ => rfl) (fun _ => rfl) n hprog
  · intro k hprog hok
    obtain ⟨n, hn, hlog⟩ := @Paced.shows_log P s₀ {} (fun _ => {}) k hprog (fun _ => rfl)
      (fun _ => rfl)
    exact ⟨n, hn, (hh.run hR ins n fun j hj => hok j (Nat.lt_of_lt_of_le hj hn)).2.trans hlog⟩

end Hosts

end Host

end ThreeSippEs
