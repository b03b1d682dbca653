import ThreeSippEs.Lib.Clocked

/-!
# Sessions in the trace of a synchronous machine

A machine that serves one request after another shows a trace made of complete
sessions and of the beginning of the one under way.

- `Sessions`: the decomposition of a trace;
- `Serves`: what one clock has to do for it, with the session under way as part
  of the invariant, and `Serves.run`, which lifts it to runs;
- `waits`: what is kept until an event that comes meets that event;
- `Since`: an event with no other one after it, as a register remembers it (`flag_iff`).
-/

namespace ThreeSippEs.Clocked

variable {S I O : Type*}

/-- `l` is a sequence of complete sessions followed by `cur`. -/
def Sessions (Complete : List O → Prop) (l cur : List O) : Prop :=
  ∃ ts : List (List O), (∀ t ∈ ts, Complete t) ∧ l = ts.flatten ++ cur

namespace Sessions

variable {Complete : List O → Prop} {l cur : List O}

theorem nil : Sessions Complete [] [] := ⟨[], by simp, rfl⟩

/-- Further events belong to the session under way. -/
theorem extend (h : Sessions Complete l cur) (es : List O) :
    Sessions Complete (l ++ es) (cur ++ es) := by
  obtain ⟨ts, hts, rfl⟩ := h
  exact ⟨ts, hts, List.append_assoc ..⟩

/-- A session that is complete leaves the rest to the next one. -/
theorem close {t : List O} (h : Sessions Complete l (t ++ cur)) (ht : Complete t) :
    Sessions Complete l cur := by
  obtain ⟨ts, hts, rfl⟩ := h
  refine ⟨ts ++ [t], ?_, by simp⟩
  intro u hu
  rcases List.mem_append.mp hu with hu | hu
  · exact hts u hu
  · rw [List.mem_singleton.mp hu]
    exact ht

end Sessions

/-- In every clock that meets `Ok` the machine goes on with the session under
way, or completes it and begins another. `Open s cur` says that `cur` is what
has been seen of the session under way in state `s`. -/
def Serves (step : S → I → S) (out : S → I → List O) (Complete : List O → Prop)
    (Open : S → List O → Prop) (Ok : S → I → Prop) : Prop :=
  ∀ s i cur, Open s cur → Ok s i →
    Open (step s i) (cur ++ out s i) ∨
      ∃ t cur', cur ++ out s i = t ++ cur' ∧ Complete t ∧ Open (step s i) cur'

/-- **Runs**: the trace of a machine that serves is a sequence of complete
sessions and what has been seen of the one under way. -/
theorem Serves.run {step : S → I → S} {out : S → I → List O} {Complete : List O → Prop}
    {Open : S → List O → Prop} {Ok : S → I → Prop} (h : Serves step out Complete Open Ok)
    {s : S} {ins : Nat → I} (h0 : Open s []) (n : Nat)
    (hok : ∀ k < n, Ok (Clocked.run step s ins k) (ins k)) :
    ∃ cur, Sessions Complete (trace step out s ins n) cur ∧
      Open (Clocked.run step s ins n) cur := by
  induction n with
  | zero => exact ⟨[], .nil, h0⟩
  | succ n ih =>
    obtain ⟨cur, hl, hopen⟩ := ih fun k hk => hok k (Nat.lt_succ_of_lt hk)
    have hext := hl.extend (out (Clocked.run step s ins n) (ins n))
    rcases h _ _ _ hopen (hok n (Nat.lt_succ_self n)) with hnext | ⟨t, cur', heq, ht, hnext⟩
    · exact ⟨_, hext, hnext⟩
    · rw [heq] at hext
      exact ⟨cur', hext.close ht, hnext⟩

/-- What holds until an event, and the event comes: at some clock both. -/
theorem waits {P E : Nat → Prop} {n : Nat} (hn : P n)
    (hstay : ∀ k, n ≤ k → P k → ¬ E k → P (k + 1)) (hE : ∃ m, n ≤ m ∧ E m) :
    ∃ m, n ≤ m ∧ P m ∧ E m := by
  obtain ⟨m, hnm, hm⟩ := hE
  obtain ⟨d, rfl⟩ := Nat.exists_eq_add_of_le hnm
  clear hnm
  induction d generalizing n with
  | zero => exact ⟨n, Nat.le_refl n, hn, hm⟩
  | succ d ih =>
    by_cases hnow : E n
    · exact ⟨n, Nat.le_refl n, hn, hnow⟩
    · have hlater := ih (hstay n (Nat.le_refl n) hn hnow)
        (fun k hk => hstay k (Nat.le_of_succ_le hk)) (by rwa [Nat.succ_add_eq_add_succ])
      obtain ⟨m, hm, hPE⟩ := hlater
      exact ⟨m, Nat.le_of_succ_le hm, hPE⟩

/-! ## Since -/

/-- Before clock `n` there was a clock with `p`, and none with `q` after it. -/
def Since (p q : Nat → Prop) (n : Nat) : Prop := ∃ m < n, p m ∧ ∀ k < n, m < k → ¬ q k

namespace Since

variable {p q q' : Nat → Prop} {n : Nat}

instance [DecidablePred p] [DecidablePred q] : Decidable (Since p q n) := by
  unfold Since
  infer_instance

theorem zero : ¬ Since p q 0 := by
  rintro ⟨m, hm, -⟩
  exact absurd hm (Nat.not_lt_zero m)

/-- What a register that `p` sets and `q` clears remembers. -/
theorem succ : Since p q (n + 1) ↔ p n ∨ (Since p q n ∧ ¬ q n) := by
  constructor
  · rintro ⟨m, hm, hp, hq⟩
    rcases Nat.lt_succ_iff_lt_or_eq.mp hm with hlt | rfl
    · exact .inr ⟨⟨m, hlt, hp, fun k hk => hq k (Nat.lt_succ_of_lt hk)⟩,
        hq n (Nat.lt_succ_self n) hlt⟩
    · exact .inl hp
  · rintro (hp | ⟨⟨m, hm, hp, hq⟩, hn⟩)
    · exact ⟨n, Nat.lt_succ_self n, hp, fun k hk hlt => absurd hlt (by omega)⟩
    · refine ⟨m, Nat.lt_succ_of_lt hm, hp, fun k hk hlt => ?_⟩
      rcases Nat.lt_succ_iff_lt_or_eq.mp hk with hkn | rfl
      · exact hq k hkn hlt
      · exact hn

/-- Fewer clearing events keep more. -/
theorem mono (h : Since p q n) (hq : ∀ k < n, q' k → q k) : Since p q' n := by
  obtain ⟨m, hm, hp, hno⟩ := h
  exact ⟨m, hm, hp, fun k hk hlt hk' => hno k hk hlt (hq k hk hk')⟩

variable {c d f : Nat → Bool}

/-- **A flag that is set and cleared**, setting first, remembers what happened last. -/
theorem flag_iff (h0 : f 0 = false) (h : ∀ n, f (n + 1) = (c n || (f n && !d n))) (n : Nat) :
    f n = true ↔ Since (fun k => c k = true) (fun k => d k = true) n := by
  induction n with
  | zero => exact ⟨fun hf => absurd (h0.symm.trans hf) Bool.false_ne_true,
      fun hs => absurd hs zero⟩
  | succ n ih =>
    rw [h, succ, ← ih, Bool.or_eq_true, Bool.and_eq_true, Bool.not_eq_true', Bool.not_eq_true]

/-- Then it was not cleared after it was last set. -/
theorem iff_last : Since (fun k => c k = true) (fun k => d k = true) n ↔
    ∃ k, Last c k n ∧ ∀ j, k < j → j < n → d j = false := by
  constructor
  · intro h
    induction n with
    | zero => exact absurd h zero
    | succ n ih =>
      cases hc : c n with
      | true =>
        have hnone : ∀ j, n < j → ¬ j < n + 1 := by omega
        exact ⟨n, ⟨Nat.lt_succ_self n, hc, fun j hnj hjn => absurd hjn (hnone j hnj)⟩,
          fun j hnj hjn => absurd hjn (hnone j hnj)⟩
      | false =>
        obtain hcn | ⟨hs, hd⟩ := succ.mp h
        · exact absurd (hc.symm.trans hcn) Bool.false_ne_true
        · obtain ⟨k, hlast, hno⟩ := ih hs
          -- clock `n` is without an event of either kind
          have hext : ∀ e : Nat → Bool, e n = false → (∀ j, k < j → j < n → e j = false) →
              ∀ j, k < j → j < n + 1 → e j = false := by
            intro e hen hbefore j hkj hjn
            rcases Nat.lt_or_eq_of_le (Nat.le_of_lt_succ hjn) with hlt | rfl
            · exact hbefore j hkj hlt
            · exact hen
          rw [Bool.not_eq_true] at hd
          exact ⟨k, ⟨Nat.lt_succ_of_lt hlast.lt, hlast.event, hext c hc hlast.after⟩,
            hext d hd hno⟩
  · rintro ⟨k, hlast, hno⟩
    refine ⟨k, hlast.lt, hlast.event, fun j hjn hkj hd => ?_⟩
    exact absurd (hd.symm.trans (hno j hkj hjn)) (by simp)

end Since

end ThreeSippEs.Clocked
