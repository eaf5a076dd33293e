import Mathlib.Data.List.Basic
import Mathlib.Data.List.Count

/-!
# Places in a row and on a ring

`n` places are numbered from zero.  In a row the two ends have one neighbour
each; on a ring the ends are neighbours of each other.  A walk is a list of
moves to a neighbour, and a move without a neighbour stays where it is.
-/

namespace Foundation

inductive Way where
  | on
  | back
  deriving DecidableEq, Repr

namespace Places

variable {circular : Bool} {n i j : Nat}

def neighbour? (circular : Bool) (n i : Nat) : Way → Option Nat
  | .on =>
      if i ≠ n - 1 then some (i + 1)
      else if circular then some 0
      else none
  | .back =>
      if i ≠ 0 then some (i - 1)
      else if circular then some (n - 1)
      else none

def move (circular : Bool) (n i : Nat) (way : Way) : Nat :=
  (neighbour? circular n i way).getD i

def walk (circular : Bool) (n i : Nat) (ways : List Way) : Nat :=
  ways.foldl (move circular n) i

theorem neighbour?_lt {way : Way} (hi : i < n)
    (hneighbour : neighbour? circular n i way = some j) : j < n := by
  cases way <;> grind [neighbour?]

theorem move_of_neighbour {way : Way}
    (hneighbour : neighbour? circular n i way = some j) :
    move circular n i way = j := by
  rw [move, hneighbour, Option.getD_some]

theorem move_of_none {way : Way}
    (hneighbour : neighbour? circular n i way = none) :
    move circular n i way = i := by
  rw [move, hneighbour, Option.getD_none]

theorem move_lt (hi : i < n) (way : Way) : move circular n i way < n := by
  cases hneighbour : neighbour? circular n i way with
  | none =>
      rw [move_of_none hneighbour]
      exact hi
  | some j =>
      rw [move_of_neighbour hneighbour]
      exact neighbour?_lt hi hneighbour

theorem walk_cons (way : Way) (ways : List Way) :
    walk circular n i (way :: ways) =
      walk circular n (move circular n i way) ways := rfl

theorem walk_lt (hi : i < n) (ways : List Way) :
    walk circular n i ways < n := by
  induction ways generalizing i with
  | nil => exact hi
  | cons way ways ih => exact ih (move_lt hi way)

theorem move_on : move circular n i .on =
    if i ≠ n - 1 then i + 1 else if circular then 0 else i := by
  simp only [move, neighbour?]
  split
  · rfl
  · split <;> rfl

theorem move_back : move circular n i .back =
    if i ≠ 0 then i - 1 else if circular then n - 1 else i := by
  simp only [move, neighbour?]
  split
  · rfl
  · split <;> rfl

/-! ## In a row -/

theorem move_row_on (hi : i < n) : move false n i .on = min (i + 1) (n - 1) := by
  rw [move_on, if_neg Bool.false_ne_true]
  split <;> omega

theorem move_row_back (n i : Nat) : move false n i .back = i - 1 := by
  rw [move_back, if_neg Bool.false_ne_true]
  split <;> omega

/-! ## On a ring -/

def shift : Way → Int
  | .on => 1
  | .back => -1

theorem move_ring (hi : i < n) (way : Way) :
    (move true n i way : Int) = (i + shift way) % n := by
  cases way with
  | on =>
      rw [move_on, if_pos rfl, shift]
      split
      · rw [Int.emod_eq_of_lt (by omega) (by omega), Int.natCast_succ]
      · have hlast : (i : Int) + 1 = n := by omega
        rw [hlast, Int.emod_self, Int.natCast_zero]
  | back =>
      rw [move_back, if_pos rfl, shift]
      split
      · rw [Int.emod_eq_of_lt (by omega) (by omega)]
        omega
      · -- One back from place zero is place `n - 1`.
        rw [← Int.add_emod_right, Int.emod_eq_of_lt (by omega) (by omega)]
        omega

theorem walk_ring (hi : i < n) (ways : List Way) :
    (walk true n i ways : Int) =
      (i + ways.count .on - ways.count .back) % n := by
  induction ways generalizing i with
  | nil =>
      have hplace : (i : Int) % n = i := Int.emod_eq_of_lt (by omega) (by omega)
      simp [walk, hplace]
  | cons way ways ih =>
      rw [walk_cons, ih (move_lt hi way), move_ring hi, Int.add_sub_assoc,
        Int.emod_add_emod]
      congr 1
      cases way <;> simp [shift] <;> omega

/-- On a ring, a move on and a move back undo each other. -/
theorem walk_ring_undo (hi : i < n) {first second : Way}
    (hne : first ≠ second) : walk true n i [first, second] = i := by
  have hwalk := walk_ring hi [first, second]
  have hcount : ([first, second].count .on : Int) =
      [first, second].count .back := by
    cases first <;> cases second <;> first | rfl | contradiction
  rw [hcount, Int.add_sub_cancel, Int.emod_eq_of_lt (by omega) (by omega)]
    at hwalk
  exact Int.ofNat_inj.mp hwalk

theorem exists_walk_ring (hi : i < n) (hj : j < n) :
    ∃ k, walk true n i (List.replicate k .on) = j := by
  refine ⟨j + n - i, ?_⟩
  have hwalk := walk_ring hi (List.replicate (j + n - i) .on)
  have hsum : (i : Int) + (j + n - i : Nat) - (0 : Nat) = j + n := by omega
  rw [List.count_replicate_self, List.count_replicate, if_neg (by decide),
    hsum, Int.add_emod_right, Int.emod_eq_of_lt (by omega) (by omega)] at hwalk
  exact Int.ofNat_inj.mp hwalk

end Places

end Foundation
