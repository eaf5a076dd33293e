import Mathlib.Data.Int.Notation
import Mathlib.Tactic.TypeStar

/-!
# Integer vectors

`mth::vect2D`.  Coordinates are unbounded integers: the program's stay within a
few dozen of the origin, far from the range of `int`.
-/

namespace Grzetris

@[ext] structure Vect2D where
  x : Int
  y : Int
  deriving DecidableEq, Repr

namespace Vect2D

instance : Add Vect2D := ⟨fun lhs rhs => ⟨lhs.x + rhs.x, lhs.y + rhs.y⟩⟩

instance : Sub Vect2D := ⟨fun lhs rhs => ⟨lhs.x - rhs.x, lhs.y - rhs.y⟩⟩

@[simp] theorem add_x (lhs rhs : Vect2D) : (lhs + rhs).x = lhs.x + rhs.x := rfl

@[simp] theorem add_y (lhs rhs : Vect2D) : (lhs + rhs).y = lhs.y + rhs.y := rfl

@[simp] theorem sub_x (lhs rhs : Vect2D) : (lhs - rhs).x = lhs.x - rhs.x := rfl

@[simp] theorem sub_y (lhs rhs : Vect2D) : (lhs - rhs).y = lhs.y - rhs.y := rfl

theorem add_comm (lhs rhs : Vect2D) : lhs + rhs = rhs + lhs := by
  ext <;> simp [Int.add_comm]

theorem add_right_cancel {a b c : Vect2D} (h : a + c = b + c) : a = b := by
  have hx := congrArg Vect2D.x h
  have hy := congrArg Vect2D.y h
  simp only [add_x, add_y] at hx hy
  ext <;> omega

end Vect2D

end Grzetris
