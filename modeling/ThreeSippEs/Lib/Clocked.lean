import Mathlib.Tactic

/-!
# Runs of synchronous machines

A synchronous machine is a function `step : S → I → S` from a state and the
inputs of one clock to the next state. This file has what proofs about such
machines share:

- `run`: the state after `n` clocks, with its induction rule `run_invariant`;
- `feedback`: the run of a machine whose inputs are computed from its state;
- `run_ghost`: an auxiliary state beside a machine does not disturb it;
- `Consecutive`: a clock with an event and the next one. `first_event` finds it
  when a rank falls in between, `unchanged` says what stays until then;
- `Last`: the last event before a clock;
- `trace`: the observations of a run, collected clock by clock;
- `Refines`: a machine that executes the steps of a sequential one, each in one
  clock, with stuttering clocks in between and with its observations lagging
  behind by a queue `pend`. `Refines.run` lifts one clock to a whole run and
  `Refines.reaches` says that every sequential step is eventually taken when a
  rank decreases at each stuttering clock, `Refines.reaches_within` how soon.

Conditions on the environment are attached to clocks (`Ok`), so that every
result speaks about the runs all of whose clocks meet them.
-/

namespace ThreeSippEs.Clocked

variable {S I O A : Type*}

/-- The state after `n` clocks from `s`, fed the inputs `ins`. -/
def run (step : S → I → S) (s : S) (ins : Nat → I) : Nat → S
  | 0 => s
  | n + 1 => step (run step s ins n) (ins n)

section Run

variable (step : S → I → S) (s : S) (ins : Nat → I)

@[simp] theorem run_zero : run step s ins 0 = s := rfl

theorem run_succ (n : Nat) :
    run step s ins (n + 1) = step (run step s ins n) (ins n) := rfl

/-- A run can be cut at any clock. -/
theorem run_add (m n : Nat) :
    run step s ins (m + n) = run step (run step s ins m) (fun k => ins (m + k)) n := by
  induction n with
  | zero => rfl
  | succ n ih =>
    show step (run step s ins (m + n)) (ins (m + n)) = _
    rw [ih]
    rfl

end Run

section Invariant

variable {step : S → I → S} {s : S} {ins : Nat → I}

/-- **Invariant rule**: what holds at the start and is preserved by every clock
that meets `Ok` holds after every run whose clocks all meet it. -/
theorem run_invariant {Inv : S → Prop} {Ok : S → I → Prop} (h0 : Inv s)
    (hstep : ∀ t i, Inv t → Ok t i → Inv (step t i)) :
    ∀ n, (∀ k < n, Ok (run step s ins k) (ins k)) → Inv (run step s ins n) := by
  intro n
  induction n with
  | zero => exact fun _ => h0
  | succ n ih =>
    intro hok
    exact hstep _ _ (ih fun k hk => hok k (Nat.lt_succ_of_lt hk)) (hok n (Nat.lt_succ_self n))

/-- The invariant rule when every clock preserves the invariant. -/
theorem run_invariant' {Inv : S → Prop} (h0 : Inv s)
    (hstep : ∀ t i, Inv t → Inv (step t i)) (n : Nat) : Inv (run step s ins n) :=
  run_invariant h0 (fun t i ht (_ : True) => hstep t i ht) n fun _ _ => trivial

end Invariant

/-! ## Closed loops and auxiliary state -/

/-- The state after `n` clocks when the environment `env` answers every state
with the inputs of its clock. -/
def feedback (step : S → I → S) (env : S → I) (s : S) : Nat → S
  | 0 => s
  | n + 1 => step (feedback step env s n) (env (feedback step env s n))

/-- A closed loop is a run on the inputs it produces. -/
theorem run_feedback (step : S → I → S) (env : S → I) (s : S) (n : Nat) :
    run step s (fun k => env (feedback step env s k)) n = feedback step env s n := by
  induction n with
  | zero => rfl
  | succ n ih => rw [run_succ, ih, feedback]

/-- A machine with an auxiliary state that it does not read. -/
def withGhost {G : Type*} (step : S → I → S) (ghost : S → I → G → G) (p : S × G) (i : I) : S × G :=
  (step p.1 i, ghost p.1 i p.2)

theorem run_ghost {G : Type*} (step : S → I → S) (ghost : S → I → G → G) (s : S) (g : G)
    (ins : Nat → I) (n : Nat) :
    (run (withGhost step ghost) (s, g) ins n).1 = run step s ins n := by
  induction n with
  | zero => rfl
  | succ n ih => rw [run_succ, run_succ, ← ih, withGhost]

/-! ## Events -/

/-- There is an event in clock `n`, and the next one is in clock `m`. -/
structure Consecutive (c : Nat → Bool) (n m : Nat) : Prop where
  lt : n < m
  first : c n = true
  second : c m = true
  between : ∀ k, n < k → k < m → c k = false

section Events

variable {c : Nat → Bool}

/-- What changes only in clocks with an event is unchanged up to the next. -/
theorem unchanged {α : Type*} {f : Nat → α} (h : ∀ k, c k = false → f (k + 1) = f k) {a b : Nat}
    (hab : a ≤ b) (hno : ∀ k, a ≤ k → k < b → c k = false) : f b = f a := by
  induction b, hab using Nat.le_induction with
  | base => rfl
  | succ b hab ih =>
    rw [h b (hno b hab (Nat.lt_succ_self b))]
    exact ih fun k hak hkb => hno k hak (Nat.lt_succ_of_lt hkb)

/-- A rank that falls in every clock without an event bounds the wait for the next. -/
theorem first_event {rank : Nat → Nat} (h : ∀ k, c k = false → rank (k + 1) < rank k) (n : Nat) :
    ∃ m, n ≤ m ∧ c m = true ∧ ∀ k, n ≤ k → k < m → c k = false := by
  induction hr : rank n using Nat.strong_induction_on generalizing n with
  | _ r ih =>
    cases hc : c n with
    | true => exact ⟨n, Nat.le_refl n, hc, fun k hnk hkn => absurd hkn (Nat.not_lt.mpr hnk)⟩
    | false =>
      obtain ⟨m, hm, hcm, hno⟩ := ih _ (hr ▸ h n hc) (n + 1) rfl
      refine ⟨m, Nat.le_of_succ_le hm, hcm, fun k hnk hkm => ?_⟩
      rcases Nat.eq_or_lt_of_le hnk with rfl | hlt
      · exact hc
      · exact hno k hlt hkm

/-- The same when the rank is known to fall up to the next event only. -/
theorem first_event_within {rank : Nat → Nat} {b n : Nat} (hb : rank n ≤ b)
    (h : ∀ k, n ≤ k → k ≤ n + b → (∀ j, n ≤ j → j ≤ k → c j = false) →
      rank (k + 1) < rank k) :
    ∃ m, n ≤ m ∧ m ≤ n + b ∧ c m = true ∧ ∀ k, n ≤ k → k < m → c k = false := by
  cases hc : c n with
  | true =>
    exact ⟨n, Nat.le_refl n, Nat.le_add_right n b, hc,
      fun k hnk hkn => absurd hkn (Nat.not_lt.mpr hnk)⟩
  | false =>
    have hfall : rank (n + 1) < rank n :=
      h n (Nat.le_refl n) (Nat.le_add_right n b) fun j hnj hjn => by
        rw [Nat.le_antisymm hjn hnj]
        exact hc
    induction b generalizing n with
    | zero => omega
    | succ b ih =>
      have hno : ∀ k, n ≤ k → k < n + 1 → c k = false := by
        intro k hnk hkn
        rw [Nat.le_antisymm (Nat.le_of_lt_succ hkn) hnk]
        exact hc
      have hlater : ∀ k, n + 1 ≤ k → k ≤ n + 1 + b → (∀ j, n + 1 ≤ j → j ≤ k → c j = false) →
          rank (k + 1) < rank k := by
        intro k hnk hkb hck
        refine h k (by omega) (by omega) fun j hnj hjk => ?_
        rcases Nat.lt_or_ge j (n + 1) with hlt | hge
        · exact hno j hnj hlt
        · exact hck j hge hjk
      cases hc' : c (n + 1) with
      | true => exact ⟨n + 1, Nat.le_succ n, by omega, hc', hno⟩
      | false =>
        obtain ⟨m, hm, hmb, hcm, hnom⟩ := ih (n := n + 1) (by omega) hlater hc'
          (hlater (n + 1) (Nat.le_refl _) (by omega) fun j hnj hjn => by
            rw [Nat.le_antisymm hjn hnj]
            exact hc')
        refine ⟨m, by omega, by omega, hcm, fun k hnk hkm => ?_⟩
        rcases Nat.lt_or_ge k (n + 1) with hlt | hge
        · exact hno k hnk hlt
        · exact hnom k hge hkm

/-- Clock `k` is the last one before `n` with an event. -/
structure Last (c : Nat → Bool) (k n : Nat) : Prop where
  lt : k < n
  event : c k = true
  after : ∀ j, k < j → j < n → c j = false

theorem Last.consecutive {k n : Nat} (h : Last c k n) (hn : c n = true) : Consecutive c k n :=
  ⟨h.lt, h.event, hn, h.after⟩

theorem Consecutive.last {k n : Nat} (h : Consecutive c k n) : Last c k n :=
  ⟨h.lt, h.first, h.between⟩

end Events

/-! ## Observations -/

/-- The observations of the first `n` clocks. -/
def trace (step : S → I → S) (out : S → I → List O) (s : S) (ins : Nat → I) : Nat → List O
  | 0 => []
  | n + 1 => trace step out s ins n ++ out (run step s ins n) (ins n)

/-- What has been shown is not taken back. -/
theorem trace_le {step : S → I → S} {out : S → I → List O} {s : S} {ins : Nat → I} {m n : Nat}
    (h : m ≤ n) : trace step out s ins m <+: trace step out s ins n := by
  induction n, h using Nat.le_induction with
  | base => exact List.prefix_rfl
  | succ n _ ih => exact ih.trans (List.prefix_append _ _)

/-- What has been shown has been shown in some clock. -/
theorem mem_trace {step : S → I → S} {out : S → I → List O} {s : S} {ins : Nat → I} {n : Nat} {o : O} :
    o ∈ trace step out s ins n ↔ ∃ j < n, o ∈ out (run step s ins j) (ins j) := by
  induction n with
  | zero => simp [trace]
  | succ n ih =>
    rw [trace, List.mem_append, ih]
    constructor
    · rintro (⟨j, hj, ho⟩ | ho)
      · exact ⟨j, Nat.lt_succ_of_lt hj, ho⟩
      · exact ⟨n, Nat.lt_succ_self n, ho⟩
    · rintro ⟨j, hj, ho⟩
      rcases Nat.eq_or_lt_of_le (Nat.le_of_lt_succ hj) with rfl | hlt
      · exact Or.inr ho
      · exact Or.inl ⟨j, hlt, ho⟩

/-- The state of a sequential machine after the steps labelled `es`. -/
def seqRun {E : Type*} (astep : A → E → A) (a : A) (es : List E) : A := es.foldl astep a

/-- Its observations in those steps. -/
def seqTrace {E : Type*} (astep : A → E → A) (aout : A → E → List O) (a : A) : List E → List O
  | [] => []
  | e :: es => aout a e ++ seqTrace astep aout (astep a e) es

section Sequential

variable {E : Type*} (astep : A → E → A) (aout : A → E → List O)

@[simp] theorem seqRun_nil (a : A) : seqRun astep a [] = a := rfl

theorem seqRun_append (a : A) (es es' : List E) :
    seqRun astep a (es ++ es') = seqRun astep (seqRun astep a es) es' :=
  List.foldl_append

theorem seqTrace_append (a : A) (es es' : List E) :
    seqTrace astep aout a (es ++ es') =
      seqTrace astep aout a es ++ seqTrace astep aout (seqRun astep a es) es' := by
  induction es generalizing a with
  | nil => rfl
  | cons e es ih =>
    show aout a e ++ seqTrace astep aout (astep a e) (es ++ es') = _
    rw [ih, ← List.append_assoc]
    rfl

theorem seqTrace_singleton (a : A) (e : E) : seqTrace astep aout a [e] = aout a e :=
  List.append_nil _

end Sequential

/-! ## Refinement of a sequential machine -/

/-- The labels of the sequential steps that a clocked machine takes: one for each
clock that `commits`. -/
def labels {E : Type*} (step : S → I → S) (commits : S → I → Bool) (label : S → I → E)
    (s : S) (ins : Nat → I) : Nat → List E
  | 0 => []
  | n + 1 =>
    labels step commits label s ins n ++
      if commits (run step s ins n) (ins n) then [label (run step s ins n) (ins n)] else []

/-- When every committing clock has the same label, only their number matters. -/
theorem labels_eq_replicate {E : Type*} {step : S → I → S} {commits : S → I → Bool}
    {label : S → I → E} {s : S} {ins : Nat → I} {e : E} :
    ∀ n, (∀ j < n, commits (run step s ins j) (ins j) = true →
      label (run step s ins j) (ins j) = e) →
      labels step commits label s ins n =
        List.replicate (labels step commits label s ins n).length e := by
  intro n
  induction n with
  | zero => exact fun _ => rfl
  | succ n ih =>
    intro h
    have ih' := ih fun j hj => h j (Nat.lt_succ_of_lt hj)
    rw [labels]
    cases hc : commits (run step s ins n) (ins n) with
    | false =>
      rw [if_neg Bool.false_ne_true, List.append_nil]
      exact ih'
    | true =>
      rw [if_pos rfl, h n (Nat.lt_succ_self n) hc, List.length_append, List.length_singleton,
        List.replicate_succ', ← ih']

/-- Their number grows, by one in a clock at the most. -/
theorem labels_length_le {E : Type*} {step : S → I → S} {commits : S → I → Bool} {label : S → I → E}
    {s : S} {ins : Nat → I} {m n : Nat} (h : m ≤ n) :
    (labels step commits label s ins m).length ≤ (labels step commits label s ins n).length := by
  induction n, h using Nat.le_induction with
  | base => exact Nat.le_refl _
  | succ n _ ih =>
    rw [labels, List.length_append]
    exact Nat.le_trans ih (Nat.le_add_right _ _)

theorem labels_length_le_self {E : Type*} {step : S → I → S} {commits : S → I → Bool}
    {label : S → I → E} {s : S} {ins : Nat → I} (n : Nat) :
    (labels step commits label s ins n).length ≤ n := by
  induction n with
  | zero => exact Nat.le_refl 0
  | succ n ih =>
    rw [labels, List.length_append]
    split <;> simp <;> omega

/-- A run in which one clock commits has one label. -/
theorem labels_once {E : Type*} {step : S → I → S} {commits : S → I → Bool} {label : S → I → E}
    {s : S} {ins : Nat → I} {c : Nat} (hc : commits (run step s ins c) (ins c) = true) (n : Nat)
    (hno : ∀ k < n, k ≠ c → commits (run step s ins k) (ins k) = false) :
    labels step commits label s ins n =
      if c < n then [label (run step s ins c) (ins c)] else [] := by
  induction n with
  | zero => rfl
  | succ n ih =>
    rw [labels, ih fun k hk => hno k (Nat.lt_succ_of_lt hk)]
    rcases Nat.lt_trichotomy c n with hlt | rfl | hgt
    · rw [hno n (Nat.lt_succ_self n) (Nat.ne_of_gt hlt), if_neg Bool.false_ne_true, if_pos hlt,
        if_pos (Nat.lt_succ_of_lt hlt), List.append_nil]
    · rw [hc, if_neg (Nat.lt_irrefl c), if_pos (Nat.lt_succ_self c)]
      rfl
    · rw [hno n (Nat.lt_succ_self n) (Nat.ne_of_lt hgt), if_neg Bool.false_ne_true,
        if_neg (Nat.not_lt_of_gt hgt), if_neg (Nat.not_lt_of_ge hgt)]
      rfl

/-- The clocked machine `(step, out)` executes the sequential machine
`(astep, aout)` in the clocks that satisfy `Ok`: a clock that commits takes the
sequential step with that clock's label, any other clock stutters. `R` relates
the states and `pend` holds the observations of the steps already taken that the
clocked machine has still to show. -/
structure Refines {E : Type*} (step : S → I → S) (out : S → I → List O)
    (commits : S → I → Bool) (label : S → I → E) (astep : A → E → A)
    (aout : A → E → List O) (R : S → A → Prop) (pend : S → List O)
    (Ok : S → I → A → Prop) : Prop where
  /-- a stuttering clock shows a part of the queue -/
  stutter : ∀ s i a, R s a → Ok s i a → commits s i = false →
    R (step s i) a ∧ pend s = out s i ++ pend (step s i)
  /-- a committing clock shows all of it and queues the observations of its step -/
  commit : ∀ s i a, R s a → Ok s i a → commits s i = true →
    R (step s i) (astep a (label s i)) ∧ out s i = pend s ∧
      pend (step s i) = aout a (label s i)

namespace Refines

variable {E : Type*} {step : S → I → S} {out : S → I → List O} {commits : S → I → Bool}
  {label : S → I → E} {astep : A → E → A} {aout : A → E → List O} {R : S → A → Prop}
  {pend : S → List O} {Ok : S → I → A → Prop} {s : S} {a : A} {ins : Nat → I}

/-- **Runs**: after `n` clocks the machine is related to the sequential machine
that has taken the committed steps, and what it has shown, together with the
queue, is their trace. -/
theorem run (h : Refines step out commits label astep aout R pend Ok) (hR : R s a)
    (hpend : pend s = []) (n : Nat)
    (hok : ∀ j < n, Ok (run step s ins j) (ins j)
      (seqRun astep a (labels step commits label s ins j))) :
    R (Clocked.run step s ins n) (seqRun astep a (labels step commits label s ins n)) ∧
      trace step out s ins n ++ pend (Clocked.run step s ins n) =
        seqTrace astep aout a (labels step commits label s ins n) := by
  induction n with
  | zero => exact ⟨hR, by simpa [trace, labels, seqTrace] using hpend⟩
  | succ n ih =>
    obtain ⟨hRn, htr⟩ := ih fun j hj => hok j (Nat.lt_succ_of_lt hj)
    have hokn := hok n (Nat.lt_succ_self n)
    rw [run_succ, trace, labels, List.append_assoc]
    cases hc : commits (Clocked.run step s ins n) (ins n) with
    | false =>
      obtain ⟨hR', hq⟩ := h.stutter _ _ _ hRn hokn hc
      rw [if_neg Bool.false_ne_true, List.append_nil, ← hq]
      exact ⟨hR', htr⟩
    | true =>
      obtain ⟨hR', hq, hp⟩ := h.commit _ _ _ hRn hokn hc
      rw [if_pos rfl, seqRun_append, seqTrace_append, seqTrace_singleton, hp, hq,
        ← List.append_assoc, htr]
      exact ⟨hR', rfl⟩

/-- What has been shown is a prefix of the sequential trace. -/
theorem trace_isPrefix (h : Refines step out commits label astep aout R pend Ok) (hR : R s a)
    (hpend : pend s = []) (n : Nat)
    (hok : ∀ j < n, Ok (Clocked.run step s ins j) (ins j)
      (seqRun astep a (labels step commits label s ins j))) :
    trace step out s ins n <+: seqTrace astep aout a (labels step commits label s ins n) :=
  ⟨_, (h.run hR hpend n hok).2⟩

/-- When a rank decreases in every stuttering clock, the machine commits again. -/
theorem commits_again (h : Refines step out commits label astep aout R pend Ok)
    (hR : R s a) (hpend : pend s = []) (rank : S → Nat)
    (hok : ∀ j, Ok (Clocked.run step s ins j) (ins j)
      (seqRun astep a (labels step commits label s ins j)))
    (hrank : ∀ t i b, R t b → Ok t i b → commits t i = false → rank (step t i) < rank t)
    (n : Nat) :
    ∃ m, n ≤ m ∧ commits (Clocked.run step s ins m) (ins m) = true ∧
      labels step commits label s ins m = labels step commits label s ins n := by
  obtain ⟨m, hm, hcm, hno⟩ := @first_event
    (fun j => commits (Clocked.run step s ins j) (ins j)) (fun j => rank (Clocked.run step s ins j))
    (fun j hc => hrank _ _ _ (h.run hR hpend j fun k _ => hok k).1 (hok j) hc) n
  refine ⟨m, hm, hcm, unchanged (c := fun j => commits (Clocked.run step s ins j) (ins j))
    (fun j hc => ?_) hm hno⟩
  rw [labels, hc, if_neg Bool.false_ne_true, List.append_nil]

/-- **Progress**: for every `k` there is a clock before which exactly `k` steps
have been taken and at the end of which all of them have been shown. -/
theorem reaches (h : Refines step out commits label astep aout R pend Ok) (hR : R s a)
    (hpend : pend s = []) (rank : S → Nat)
    (hok : ∀ j, Ok (Clocked.run step s ins j) (ins j)
      (seqRun astep a (labels step commits label s ins j)))
    (hrank : ∀ t i b, R t b → Ok t i b → commits t i = false → rank (step t i) < rank t)
    (k : Nat) :
    ∃ n, (labels step commits label s ins n).length = k ∧
      commits (Clocked.run step s ins n) (ins n) = true ∧
      trace step out s ins (n + 1) =
        seqTrace astep aout a (labels step commits label s ins n) := by
  -- at the clock of the next commit the queue is shown
  have hshown : ∀ n, commits (Clocked.run step s ins n) (ins n) = true →
      trace step out s ins (n + 1) =
        seqTrace astep aout a (labels step commits label s ins n) := by
    intro n hc
    obtain ⟨hRn, htr⟩ := h.run hR hpend n fun j _ => hok j
    rw [trace, (h.commit _ _ _ hRn (hok n) hc).2.1, htr]
  induction k with
  | zero =>
    obtain ⟨m, -, hc, hl⟩ := h.commits_again hR hpend rank hok hrank 0
    exact ⟨m, by rw [hl]; rfl, hc, hshown m hc⟩
  | succ k ih =>
    obtain ⟨n, hlen, hcn, -⟩ := ih
    obtain ⟨m, -, hc, hl⟩ := h.commits_again hR hpend rank hok hrank (n + 1)
    refine ⟨m, ?_, hc, hshown m hc⟩
    rw [hl, labels, hcn, if_pos rfl, List.length_append, hlen]
    rfl

/-- **Progress in time**: when the rank has a bound `b`, a step takes no more than `b + 1`
clocks. What has to be `Ok` are the clocks with no more than `k` steps before them. -/
theorem reaches_within (h : Refines step out commits label astep aout R pend Ok) (hR : R s a)
    (hpend : pend s = []) {rank : S → Nat} {b : Nat} (hb : ∀ t, rank t ≤ b)
    (hrank : ∀ t i c, R t c → Ok t i c → commits t i = false → rank (step t i) < rank t) (k : Nat)
    (hok : ∀ j < (b + 1) * (k + 1), (labels step commits label s ins j).length ≤ k →
      Ok (Clocked.run step s ins j) (ins j)
        (seqRun astep a (labels step commits label s ins j))) :
    ∃ n < (b + 1) * (k + 1), (labels step commits label s ins n).length = k ∧
      commits (Clocked.run step s ins n) (ins n) = true ∧
      trace step out s ins (n + 1) =
        seqTrace astep aout a (labels step commits label s ins n) := by
  -- the clocks before one that is `Ok`
  have hrun : ∀ n < (b + 1) * (k + 1), (labels step commits label s ins n).length ≤ k →
      R (Clocked.run step s ins n) (seqRun astep a (labels step commits label s ins n)) ∧
        trace step out s ins n ++ pend (Clocked.run step s ins n) =
          seqTrace astep aout a (labels step commits label s ins n) := by
    intro n hn hlen
    refine h.run hR hpend n fun j hj => hok j (Nat.lt_trans hj hn) (Nat.le_trans ?_ hlen)
    exact labels_length_le (Nat.le_of_lt hj)
  -- the next commit from clock `n` on
  have hnext : ∀ n, n + b < (b + 1) * (k + 1) → (labels step commits label s ins n).length ≤ k →
      ∃ m, n ≤ m ∧ m ≤ n + b ∧ commits (Clocked.run step s ins m) (ins m) = true ∧
        labels step commits label s ins m = labels step commits label s ins n := by
    intro n hn hlen
    have hsame : ∀ m, n ≤ m →
        (∀ j, n ≤ j → j < m → commits (Clocked.run step s ins j) (ins j) = false) →
        labels step commits label s ins m = labels step commits label s ins n := by
      intro m hm hno
      refine unchanged (c := fun j => commits (Clocked.run step s ins j) (ins j))
        (fun j hc => ?_) hm hno
      rw [labels, hc, if_neg Bool.false_ne_true, List.append_nil]
    obtain ⟨m, hm, hmb, hcm, hno⟩ := @first_event_within
      (fun j => commits (Clocked.run step s ins j) (ins j))
      (fun j => rank (Clocked.run step s ins j)) b n (hb _) fun j hnj hjb hno => by
        have hlenj : (labels step commits label s ins j).length ≤ k := by
          rw [hsame j hnj fun i hni hij => hno i hni (Nat.le_of_lt hij)]
          exact hlen
        exact hrank _ _ _ (hrun j (by omega) hlenj).1 (hok j (by omega) hlenj)
          (hno j hnj (Nat.le_refl j))
    exact ⟨m, hm, hmb, hcm, hsame m hm hno⟩
  have hmul : ∀ d, (b + 1) * (d + 1) = (b + 1) * d + (b + 1) := fun d => Nat.mul_succ _ _
  -- by induction on the number of steps
  have hstep : ∀ d ≤ k, ∃ n < (b + 1) * (d + 1),
      (labels step commits label s ins n).length = d ∧
      commits (Clocked.run step s ins n) (ins n) = true := by
    intro d
    induction d with
    | zero =>
      intro _
      obtain ⟨m, -, hmb, hc, hl⟩ := hnext 0 (by rw [hmul]; omega) (Nat.zero_le k)
      exact ⟨m, by omega, by rw [hl]; rfl, hc⟩
    | succ d ih =>
      intro hd
      obtain ⟨n, hn, hlen, hcn⟩ := ih (by omega)
      have hlen' : (labels step commits label s ins (n + 1)).length = d + 1 := by
        rw [labels, hcn, if_pos rfl, List.length_append, hlen]
        rfl
      have hle : (b + 1) * (d + 1 + 1) ≤ (b + 1) * (k + 1) :=
        Nat.mul_le_mul_left _ (Nat.succ_le_succ hd)
      rw [hmul (d + 1)] at hle
      obtain ⟨m, -, hmb, hc, hl⟩ := hnext (n + 1) (by omega) (by omega)
      exact ⟨m, by rw [hmul (d + 1)]; omega, by rw [hl, hlen'], hc⟩
  obtain ⟨n, hn, hlen, hc⟩ := hstep k (Nat.le_refl k)
  obtain ⟨hRn, htr⟩ := hrun n hn (Nat.le_of_eq hlen)
  refine ⟨n, hn, hlen, hc, ?_⟩
  rw [trace, (h.commit _ _ _ hRn (hok n hn (Nat.le_of_eq hlen)) hc).2.1, htr]

end Refines

end ThreeSippEs.Clocked
