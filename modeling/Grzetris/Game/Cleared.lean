import Grzetris.Engine.Clearing
import Grzetris.Game.Steps

/-!
# The rows that a run clears

`timeoutAction` does not look at what `clearFilledRows` answers.  Here these
answers are added up along a run.
-/

namespace Grzetris

open Foundation Playfield

/-- What `clearFilledRows` answers when a piece has landed. -/
def numCleared (p : Playfield) : Int :=
  if hasFilledRow p then
    match clearFilledRows p (checkFilledRows p) with
    | some (numCleared, _) => numCleared
    | none => 0
  else 0

/-- The rows that a timeout action clears. -/
def clearedByAction (g : Game) : Int :=
  match movePolyno g.p g.shape ⟨0, 1⟩ with
  | some (false, p, _) => numCleared p
  | _ => 0

/-- The rows that the calls of a step clear. -/
def clearedBy (g : Game) : List Call → Int
  | [.timeoutAction _] => clearedByAction g
  | [.drop, .timeoutAction _] =>
      match dropPolyno g.p g.shape with
      | some (p, shape) => clearedByAction { g with p := p, shape := shape }
      | none => 0
  | _ => 0

variable {env : Env} {engine : Engine} {p p' : Playfield} {g : Game}
  {shape : Polyomino}

/-- The rows cleared before step `k`. -/
def GameRun.cleared (run : GameRun env engine) (k : Nat) : Int :=
  ((List.range k).map fun i =>
    clearedBy (run.state i).game (run.event i)).sum

theorem GameRun.cleared_succ (run : GameRun env engine) (k : Nat) :
    run.cleared (k + 1) =
      run.cleared k + clearedBy (run.state k).game (run.event k) := by
  simp [GameRun.cleared, List.range_succ]

/-- A filled top row is cleared like the others, whatever is left of it. -/
theorem numCleared_eq (hr : p.Rect) (hh : 1 ≤ p.h) :
    numCleared p = p.blocks.countP filledRow := by
  unfold numCleared
  cases hfilled : hasFilledRow p with
  | false =>
      rw [hasFilledRow_eq, List.any_eq_false] at hfilled
      rw [List.countP_eq_zero.mpr hfilled]
      rfl
  | true =>
      obtain ⟨top, rest, hblocks⟩ := hr.exists_top hh
      obtain ⟨freed, hclear, -⟩ := clearFilledRows_rows (filledRow top)
        (rest.map filledRow) hr hblocks (by simp)
      rw [← List.map_cons, ← hblocks, ← checkFilledRows_eq] at hclear
      simp only [if_true, hclear]
      rw [checkFilledRows_eq, count_filledRow]

theorem clearedByAction_of_refused
    (hmove : movePolyno g.p g.shape ⟨0, 1⟩ = some (false, p, shape)) :
    clearedByAction g = numCleared p := by
  simp only [clearedByAction, hmove]

theorem clearedByAction_of_moved
    (hmove : movePolyno g.p g.shape ⟨0, 1⟩ = some (true, p, shape)) :
    clearedByAction g = 0 := by
  simp only [clearedByAction, hmove]

end Grzetris
