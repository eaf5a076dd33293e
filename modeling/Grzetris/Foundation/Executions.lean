import Grzetris.Foundation.Runs

/-!
# Infinite executions

What must happen in an infinite sequence of states: the rules lead from waiting
that comes to an end, by a rank, to a measure that grows beyond every bound.
-/

namespace Foundation

variable {σ ι ε : Type*}

/-- An execution that never gets stuck. -/
structure Execution (init : σ → Prop) (step : ι → σ → Option (ε × σ)) where
  input : Nat → ι
  event : Nat → ε
  state : Nat → σ
  start : init (state 0)
  next : ∀ k, step (input k) (state k) = some (event k, state (k + 1))

/-- The first steps of an execution. -/
def Execution.run {init : σ → Prop} {step : ι → σ → Option (ε × σ)}
    (execution : Execution init step) (length : Nat) : Run init step where
  length := length
  input := execution.input
  event := execution.event
  state := execution.state
  start := execution.start
  next := fun k _ => execution.next k

/-- Inputs that never leave a machine stuck in its invariant drive it for ever. -/
theorem exists_execution {init : σ → Prop} {step : ι → σ → Option (ε × σ)}
    {I : σ → Prop} (input : Nat → ι) {s : σ} (hs : init s) (hinv : I s)
    (hstep : ∀ k s, I s → ∃ e s', step (input k) s = some (e, s') ∧ I s') :
    ∃ execution : Execution init step,
      execution.input = input ∧ execution.state 0 = s := by
  choose event next hnext hkeep using hstep
  let states : Nat → {s : σ // I s} := fun k =>
    Nat.rec ⟨s, hinv⟩ (fun k s => ⟨next k s.1 s.2, hkeep k s.1 s.2⟩) k
  exact ⟨{
    input := input
    event := fun k => event k (states k).1 (states k).2
    state := fun k => (states k).1
    start := hs
    next := fun k => hnext k (states k).1 (states k).2 }, rfl, rfl⟩

/-! ## Leading to -/

def LeadsTo (s : Nat → σ) (P Q : σ → Prop) : Prop :=
  ∀ i, P (s i) → ∃ j, i ≤ j ∧ Q (s j)

variable {s : Nat → σ} {P Q : σ → Prop}

/-- Each step waits or reaches the goal, and waiting comes to an end. -/
theorem leadsTo_of_waits {W : σ → σ → Prop}
    (hstep : ∀ i, P (s i) →
      Q (s (i + 1)) ∨ P (s (i + 1)) ∧ W (s i) (s (i + 1)))
    (hends : ∀ i, ¬ ∀ j, i ≤ j → W (s j) (s (j + 1))) : LeadsTo s P Q := by
  intro i hi
  by_contra hnever
  have hwaits : ∀ j, i ≤ j → P (s j) := by
    intro j hle
    induction j, hle using Nat.le_induction with
    | base => exact hi
    | succ j hle ih =>
        rcases hstep j ih with hgoal | ⟨hnext, -⟩
        · exact absurd ⟨j + 1, by omega, hgoal⟩ hnever
        · exact hnext
  refine hends i fun j hle => ?_
  rcases hstep j (hwaits j hle) with hgoal | ⟨-, hwait⟩
  · exact absurd ⟨j + 1, by omega, hgoal⟩ hnever
  · exact hwait

/-- At every rank the goal or a lower rank is reached. -/
theorem leadsTo_of_rank (rank : σ → Nat)
    (hrank : ∀ n, LeadsTo s (fun t => P t ∧ rank t = n)
      (fun t => Q t ∨ P t ∧ rank t < n)) : LeadsTo s P Q := by
  suffices hall : ∀ n i, P (s i) → rank (s i) = n → ∃ j, i ≤ j ∧ Q (s j) from
    fun i hi => hall _ i hi rfl
  intro n
  induction n using Nat.strong_induction_on with
  | _ n ih =>
      intro i hi hn
      obtain ⟨j, hle, hgoal | ⟨hj, hlower⟩⟩ := hrank n i ⟨hi, hn⟩
      · exact ⟨j, hle, hgoal⟩
      · obtain ⟨k, hle', hgoal⟩ := ih _ hlower j hj rfl
        exact ⟨k, by omega, hgoal⟩

/-- Each step reaches the goal or a lower rank. -/
theorem leadsTo_of_descends (rank : σ → Nat)
    (hstep : ∀ i, P (s i) →
      Q (s (i + 1)) ∨ P (s (i + 1)) ∧ rank (s (i + 1)) < rank (s i)) :
    LeadsTo s P Q := by
  refine leadsTo_of_rank rank fun n => ?_
  rintro i ⟨hi, rfl⟩
  exact ⟨i + 1, by omega, hstep i hi⟩

/-- What is always exceeded later grows beyond every bound. -/
theorem unbounded_of_leadsTo (measure : σ → Nat)
    (hgrows : ∀ n, LeadsTo s (fun t => measure t = n)
      fun t => n < measure t) (bound : Nat) :
    ∃ j, bound ≤ measure (s j) := by
  induction bound with
  | zero => exact ⟨0, Nat.zero_le _⟩
  | succ bound ih =>
      obtain ⟨i, hi⟩ := ih
      obtain ⟨j, -, hj⟩ := hgrows _ i rfl
      exact ⟨j, by omega⟩

end Foundation
