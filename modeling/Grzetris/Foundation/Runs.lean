import Mathlib.Data.List.Basic
import Mathlib.Order.Basic
import Mathlib.Data.Nat.Init
import Mathlib.Logic.Function.Iterate
import Mathlib.Logic.Relation

/-!
# Finite runs of a deterministic machine with inputs

A machine reads an input, emits an event and moves to its next state, or is
stuck.  A run is a finite sequence of such steps from an initial state.  The
induction rules below are the only way later proofs go from one step to a
whole run.
-/

namespace Foundation

variable {σ ι ε : Type*}

/-- The first `length + 1` states of an execution, with its inputs and events. -/
structure Run (init : σ → Prop) (step : ι → σ → Option (ε × σ)) where
  length : Nat
  input : Nat → ι
  event : Nat → ε
  state : Nat → σ
  start : init (state 0)
  next : ∀ k < length, step (input k) (state k) = some (event k, state (k + 1))

namespace Run

variable {init : σ → Prop} {step : ι → σ → Option (ε × σ)}

/-- The invariant rule: what holds at the start and survives every step holds
throughout. -/
theorem invariant (run : Run init step) {Inv : σ → Prop}
    (hinit : ∀ s, init s → Inv s)
    (hstep : ∀ i s e s', Inv s → step i s = some (e, s') → Inv s') :
    ∀ k ≤ run.length, Inv (run.state k) := by
  intro k
  induction k with
  | zero => exact fun _ => hinit _ run.start
  | succ k ih =>
      intro hk
      exact hstep _ _ _ _ (ih (by omega)) (run.next k (by omega))

/-- The rule for what holds from some state on: established at `first`, kept
by every later step. -/
theorem invariant_from (run : Run init step) (Inv : σ → Prop) {first : Nat}
    (hfirst : Inv (run.state first))
    (hstep : ∀ k, first ≤ k → k < run.length → Inv (run.state k) →
      Inv (run.state (k + 1))) :
    ∀ k, first ≤ k → k ≤ run.length → Inv (run.state k) := by
  intro k hle
  induction k, hle using Nat.le_induction with
  | base => exact fun _ => hfirst
  | succ k hle ih =>
      exact fun hk => hstep k hle (by omega) (ih (by omega))

/-- The rule for invariants that speak about the past of the run. -/
theorem invariant_index (run : Run init step) {Inv : Nat → Prop}
    (hinit : Inv 0)
    (hstep : ∀ k < run.length, Inv k → Inv (k + 1)) :
    ∀ k ≤ run.length, Inv k := by
  intro k
  induction k with
  | zero => exact fun _ => hinit
  | succ k ih => exact fun hk => hstep k (by omega) (ih (by omega))

theorem monotone (run : Run init step) (measure : σ → Nat)
    (hstep : ∀ i s e s', step i s = some (e, s') → measure s ≤ measure s') :
    ∀ j k, j ≤ k → k ≤ run.length →
      measure (run.state j) ≤ measure (run.state k) := by
  intro j k hle
  induction k, hle using Nat.le_induction with
  | base => exact fun _ => Nat.le_refl _
  | succ k _ ih =>
      intro hk
      exact Nat.le_trans (ih (by omega)) (hstep _ _ _ _ (run.next k (by omega)))

/-- The rule for forward simulations: `R` relates the states of the run to those
of a specification, which can follow every step of the run. -/
theorem simulates (run : Run init step) {τ : Type*} {R : σ → τ → Prop}
    {Follows : ε → τ → τ → Prop} {t : τ} (hinit : R (run.state 0) t)
    (hstep : ∀ k < run.length, ∀ t, R (run.state k) t →
      ∃ t', Follows (run.event k) t t' ∧ R (run.state (k + 1)) t') :
    ∃ ts : Nat → τ, ts 0 = t ∧ (∀ k ≤ run.length, R (run.state k) (ts k)) ∧
      ∀ k < run.length, Follows (run.event k) (ts k) (ts (k + 1)) := by
  classical
  let next : Nat → τ → τ := fun k t =>
    if h : ∃ t', Follows (run.event k) t t' ∧ R (run.state (k + 1)) t' then
      h.choose
    else t
  let ts : Nat → τ := fun k => Nat.rec t next k
  have hnext : ∀ k < run.length, R (run.state k) (ts k) →
      Follows (run.event k) (ts k) (ts (k + 1)) ∧
        R (run.state (k + 1)) (ts (k + 1)) := by
    intro k hk hrelated
    have hexists := hstep k hk (ts k) hrelated
    have hchosen : ts (k + 1) = hexists.choose := dif_pos hexists
    rw [hchosen]
    exact hexists.choose_spec
  have hrelated : ∀ k ≤ run.length, R (run.state k) (ts k) :=
    run.invariant_index hinit fun k hk hk' => (hnext k hk hk').2
  exact ⟨ts, rfl, hrelated, fun k hk =>
    (hnext k hk (hrelated k (Nat.le_of_lt hk))).1⟩

/-- The run that stays where it starts. -/
def rest {s : σ} (hinit : init s) (i : ι) (e : ε) : Run init step where
  length := 0
  input := fun _ => i
  event := fun _ => e
  state := fun _ => s
  start := hinit
  next := fun _ hk => absurd hk (Nat.not_lt_zero _)

/-- A run and one more step. -/
def snoc (run : Run init step) {i : ι} {e : ε} {s : σ}
    (hstep : step i (run.state run.length) = some (e, s)) : Run init step where
  length := run.length + 1
  input := Function.update run.input run.length i
  event := Function.update run.event run.length e
  state := Function.update run.state (run.length + 1) s
  start := by
    rw [Function.update_of_ne (by omega)]
    exact run.start
  next := by
    intro k hk
    rcases Nat.lt_succ_iff_lt_or_eq.mp hk with hlt | rfl
    · rw [Function.update_of_ne (by omega), Function.update_of_ne (by omega),
        Function.update_of_ne (by omega), Function.update_of_ne (by omega)]
      exact run.next k hlt
    · rw [Function.update_self, Function.update_of_ne (by omega),
        Function.update_self, Function.update_self]
      exact hstep

section

variable {run : Run init step} {i : ι} {e : ε} {s : σ}
  (hstep : step i (run.state run.length) = some (e, s))

@[simp] theorem snoc_length : (run.snoc hstep).length = run.length + 1 := rfl

theorem snoc_state {k : Nat} (hk : k ≤ run.length) :
    (run.snoc hstep).state k = run.state k :=
  Function.update_of_ne (by omega) _ _

theorem snoc_last : (run.snoc hstep).state (run.length + 1) = s :=
  Function.update_self _ _ _

theorem snoc_event {k : Nat} (hk : k < run.length) :
    (run.snoc hstep).event k = run.event k :=
  Function.update_of_ne (by omega) _ _

theorem snoc_event_last : (run.snoc hstep).event run.length = e :=
  Function.update_self _ _ _

end

/-- A run goes on to whatever its last state leads to. -/
theorem exists_of_reaches (run : Run init step) {s : σ}
    (hreaches : Relation.ReflTransGen (fun s s' => ∃ i e, step i s = some (e, s'))
      (run.state run.length) s) :
    ∃ run' : Run init step, run'.state run'.length = s := by
  induction hreaches with
  | refl => exact ⟨run, rfl⟩
  | tail _ hnext ih =>
      obtain ⟨run', rfl⟩ := ih
      obtain ⟨i, e, hstep⟩ := hnext
      exact ⟨run'.snoc hstep, run'.snoc_last hstep⟩

end Run

/-- Feed a list of inputs; the events and the states reached, in order. -/
def trace (step : ι → σ → Option (ε × σ)) : List ι → σ → Option (List (ε × σ))
  | [], _ => some []
  | i :: inputs, s => do
      let (e, s') ← step i s
      let rest ← trace step inputs s'
      some ((e, s') :: rest)

private def stateAt (s : σ) (visited : List (ε × σ)) : Nat → σ
  | 0 => s
  | k + 1 => (visited[k]?.map Prod.snd).getD s

private theorem trace_step {step : ι → σ → Option (ε × σ)} {inputs : List ι}
    {s : σ} {visited : List (ε × σ)}
    (htrace : trace step inputs s = some visited) :
    ∀ k e s', visited[k]? = some (e, s') →
      ∃ i, inputs[k]? = some i ∧ step i (stateAt s visited k) = some (e, s') := by
  induction inputs generalizing s visited with
  | nil =>
      intro k e s' hget
      simp only [trace, Option.some.injEq] at htrace
      simp [← htrace] at hget
  | cons i inputs ih =>
      simp only [trace, Option.bind_eq_bind, Option.bind_eq_some_iff,
        Option.some.injEq, Prod.exists] at htrace
      obtain ⟨e₀, s₀, hfirst, rest, hrest, rfl⟩ := htrace
      intro k e s' hget
      cases k with
      | zero =>
          simp only [List.getElem?_cons_zero, Option.some.injEq] at hget
          exact ⟨i, rfl, hget ▸ hfirst⟩
      | succ k =>
          obtain ⟨j, hj, hstep⟩ := ih hrest k e s' (by simpa using hget)
          refine ⟨j, by simpa using hj, ?_⟩
          cases k with
          | zero => exact hstep
          | succ k =>
              obtain ⟨hlt, -⟩ := List.getElem?_eq_some_iff.mp
                (show rest[k + 1]? = some (e, s') by simpa using hget)
              have hpast : rest[k]? = some rest[k] :=
                List.getElem?_eq_getElem (by omega)
              simpa [stateAt, hpast] using hstep

theorem exists_run_of_trace [Inhabited ι] [Inhabited ε] (init : σ → Prop)
    {step : ι → σ → Option (ε × σ)} {inputs : List ι} {s : σ}
    {visited : List (ε × σ)} (hinit : init s)
    (htrace : trace step inputs s = some visited) :
    ∃ run : Run init step, run.length = visited.length ∧ run.state 0 = s ∧
      ∀ k e s', visited[k]? = some (e, s') →
        run.event k = e ∧ run.state (k + 1) = s' := by
  refine ⟨{
    length := visited.length
    input := fun k => inputs[k]?.getD default
    event := fun k => (visited[k]?.map Prod.fst).getD default
    state := stateAt s visited
    start := hinit
    next := ?_ }, rfl, rfl, ?_⟩
  · intro k hk
    have hget : visited[k]? = some visited[k] := List.getElem?_eq_getElem hk
    obtain ⟨i, hi, hstep⟩ := trace_step htrace k visited[k].1 visited[k].2 hget
    simpa [hi, hget, stateAt] using hstep
  · intro k e s' hget
    simp [stateAt, hget]

/-- A check made at every step of a trace. -/
def checks (check : σ → ε → σ → Bool) : σ → List (ε × σ) → Bool
  | _, [] => true
  | s, (e, s') :: visited => check s e s' && checks check s' visited

theorem Run.check_of_checks {init : σ → Prop} {step : ι → σ → Option (ε × σ)}
    (run : Run init step) {check : σ → ε → σ → Bool} {visited : List (ε × σ)}
    (hvisited : ∀ k e s', visited[k]? = some (e, s') →
      run.event k = e ∧ run.state (k + 1) = s')
    (hchecks : checks check (run.state 0) visited = true) :
    ∀ k < visited.length,
      check (run.state k) (run.event k) (run.state (k + 1)) = true := by
  suffices h : ∀ (m : Nat) (rest : List (ε × σ)), visited.drop m = rest →
      checks check (run.state m) rest = true →
      ∀ k, m ≤ k → k < visited.length →
        check (run.state k) (run.event k) (run.state (k + 1)) = true from
    fun k hk => h 0 visited rfl hchecks k (Nat.zero_le _) hk
  intro m rest hrest hcheck k hle hk
  induction rest generalizing m with
  | nil =>
      rw [List.drop_eq_nil_iff] at hrest
      omega
  | cons first rest ih =>
      obtain ⟨e, s'⟩ := first
      have hget : visited[m]? = some (e, s') := by
        rw [← List.head?_drop, hrest]
        rfl
      obtain ⟨hevent, hstate⟩ := hvisited m e s' hget
      simp only [checks, Bool.and_eq_true] at hcheck
      rcases Nat.eq_or_lt_of_le hle with rfl | hlt
      · rw [hevent, hstate]
        exact hcheck.1
      · have hdrop : visited.drop (m + 1) = rest := by
          rw [← List.tail_drop, hrest]
          rfl
        refine ih (m + 1) hdrop ?_ hlt
        rw [hstate]
        exact hcheck.2

/-- The rule for loops that need not end well: what every round keeps holds of
the result. -/
theorem foldlM_keeps {α : Type*} {body : σ → α → Option σ} {I : σ → Prop}
    {items : List α} {s s' : σ}
    (hstep : ∀ s item s', I s → body s item = some s' → I s')
    (hs : I s) (hfold : items.foldlM body s = some s') : I s' := by
  induction items generalizing s with
  | nil =>
      cases hfold
      exact hs
  | cons item items ih =>
      rw [List.foldlM_cons, Option.bind_eq_bind, Option.bind_eq_some_iff]
        at hfold
      obtain ⟨s₁, hfirst, hrest⟩ := hfold
      exact ih (hstep s item s₁ hs hfirst) hrest

/-- The rule for loops in which each round settles its item for good. -/
theorem foldlM_settles {α : Type*} {body : σ → α → Option σ} {I : σ → Prop}
    {P : α → σ → Prop} {items : List α} {s s' : σ}
    (hkeep : ∀ s item s', I s → body s item = some s' → I s')
    (hsettle : ∀ s item s', I s → body s item = some s' → P item s')
    (hsettled : ∀ s item s' other, I s → P other s → body s item = some s' →
      P other s')
    (hs : I s) (hfold : items.foldlM body s = some s') :
    ∀ item ∈ items, P item s' := by
  induction items generalizing s with
  | nil => simp
  | cons item items ih =>
      rw [List.foldlM_cons, Option.bind_eq_bind, Option.bind_eq_some_iff]
        at hfold
      obtain ⟨s₁, hfirst, hrest⟩ := hfold
      have hs₁ := hkeep s item s₁ hs hfirst
      have hlater : I s' ∧ P item s' := foldlM_keeps
        (I := fun t => I t ∧ P item t)
        (fun t other t' ht hstep => ⟨hkeep t other t' ht.1 hstep,
          hsettled t other t' item ht.1 ht.2 hstep⟩)
        ⟨hs₁, hsettle s item s₁ hs hfirst⟩ hrest
      rw [List.forall_mem_cons]
      exact ⟨hlater.2, ih hs₁ hrest⟩

/-- A loop none of whose rounds is stuck. -/
theorem foldlM_eq_foldl {α : Type*} {body : σ → α → Option σ}
    {next : σ → α → σ} {items : List α} {s : σ}
    (hstep : ∀ s, ∀ item ∈ items, body s item = some (next s item)) :
    items.foldlM body s = some (items.foldl next s) := by
  induction items generalizing s with
  | nil => rfl
  | cons item items ih =>
      rw [List.foldlM_cons, hstep s item List.mem_cons_self]
      exact ih fun s other hother => hstep s other (List.mem_cons_of_mem _ hother)

/-- The rule for a loop that counts up from zero: its rounds lead through a
given sequence of states. -/
theorem foldlM_range_of_steps (body : σ → Nat → Option σ) (state : Nat → σ)
    {n : Nat} (hstep : ∀ i < n, body (state i) i = some (state (i + 1))) :
    (List.range n).foldlM body (state 0) = some (state n) := by
  induction n with
  | zero => rfl
  | succ n ih =>
      have hbefore := ih fun i hi => hstep i (by omega)
      have hlast := hstep n (by omega)
      rw [List.range_succ, List.foldlM_append, hbefore]
      simp [hlast]

theorem foldlM_range_of_stuck (body : σ → Nat → Option σ) (state : Nat → σ)
    {k n : Nat} (hstep : ∀ i < k, body (state i) i = some (state (i + 1)))
    (hstuck : body (state k) k = none) (hk : k < n) :
    (List.range n).foldlM body (state 0) = none := by
  induction n with
  | zero => omega
  | succ n ih =>
      rw [List.range_succ, List.foldlM_append]
      rcases Nat.lt_succ_iff_lt_or_eq.mp hk with hlt | rfl
      · rw [ih hlt]
        rfl
      · rw [foldlM_range_of_steps body state hstep]
        simp [hstuck]

/-! ## Iterating to rest -/

/-- Iterating a function that lessens a measure wherever it changes anything. -/
theorem iterate_rests {f : σ → σ} {Inv : σ → Prop} (measure : σ → Nat)
    (hkeeps : ∀ s, Inv s → Inv (f s))
    (hless : ∀ s, Inv s → f s ≠ s → measure (f s) < measure s) {s : σ}
    (hs : Inv s) {n : Nat} (hn : measure s ≤ n) : f (f^[n] s) = f^[n] s := by
  induction n generalizing s with
  | zero =>
      by_contra hne
      have hlt := hless s hs hne
      omega
  | succ n ih =>
      by_cases hfixed : f s = s
      · rw [Function.iterate_fixed hfixed, hfixed]
      · have hlt := hless s hs hfixed
        exact ih (hkeeps s hs) (by omega)

/-- There is one place where the iteration rests. -/
theorem iterate_eq_of_rests {f : σ → σ} {s : σ} {m n : Nat}
    (hm : f (f^[m] s) = f^[m] s) (hn : f (f^[n] s) = f^[n] s) :
    f^[m] s = f^[n] s := by
  rcases Nat.le_total m n with hle | hle
  · obtain ⟨k, rfl⟩ := Nat.exists_eq_add_of_le' hle
    rw [Function.iterate_add_apply, Function.iterate_fixed hm]
  · obtain ⟨k, rfl⟩ := Nat.exists_eq_add_of_le' hle
    rw [Function.iterate_add_apply, Function.iterate_fixed hn]

end Foundation
