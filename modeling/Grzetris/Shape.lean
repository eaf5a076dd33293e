import Grzetris.Maths
import Mathlib.Data.List.Nodup

/-!
# Polyominoes

The functions of `shape.cpp`.  A polyomino owns its blocks, so the vector of
block pointers is a list of block values, and `copyPolyomino` is a copy of that
list.
-/

namespace Grzetris

inductive Colour where
  | none | red | yellow | orange | green | cyan | blue | magenta | white
  deriving DecidableEq, Repr

structure Block where
  pos : Vect2D
  c : Colour
  deriving DecidableEq, Repr

structure Polyomino where
  pos : Vect2D
  pivot : Vect2D
  h : Int
  w : Int
  blocks : List Block
  deriving DecidableEq, Repr

inductive RotationDirection where
  | anticlockwise | clockwise
  deriving DecidableEq, Repr

def initPolyomino (pos : Vect2D) (h w : Int) : Polyomino :=
  { pos := pos, h := h, w := w, pivot := ⟨w.tdiv 2, h.tdiv 2⟩, blocks := [] }

def copyPolyomino (src : Polyomino) : Polyomino :=
  { src with blocks := src.blocks.map fun b => { pos := b.pos, c := b.c } }

/-- Neither the direction nor the amount is read: every call is one turn. -/
def rotatePolyomino (p : Polyomino) (_direction : RotationDirection)
    (_amount : Int) : Polyomino :=
  let pivot := p.pivot
  -- Flip each block diagonally, bottom left corner.
  let blocks := p.blocks.map fun b =>
    { b with pos := ⟨b.pos.y - p.h, b.pos.x + p.h⟩ }
  let pivotTracker : Vect2D := ⟨pivot.y - p.h, pivot.x + p.h⟩
  -- Flip each block horizontally, right side.
  let blocks := blocks.map fun b =>
    { b with pos := ⟨b.pos.x * -1 - 1, b.pos.y⟩ }
  let pivotTracker : Vect2D :=
    if p.w.tmod 2 ≠ 0 then ⟨pivotTracker.x * -1 - 1, pivotTracker.y⟩
    else ⟨pivotTracker.x + p.w, pivotTracker.y⟩
  { p with
    h := p.w
    w := p.h
    blocks := blocks.map fun b =>
      { b with pos := ⟨b.pos.x - (pivotTracker.x - pivot.x),
                       b.pos.y - (pivotTracker.y - pivot.y)⟩ } }

@[simp] theorem copyPolyomino_eq (src : Polyomino) : copyPolyomino src = src := by
  simp [copyPolyomino]

/-! ## One turn -/

namespace Polyomino

def rotated (shape : Polyomino) : Polyomino :=
  rotatePolyomino shape .clockwise 1

/-- Where one turn takes a block of `p`. -/
def turn (p : Polyomino) (pos : Vect2D) : Vect2D :=
  if p.w.tmod 2 ≠ 0 then
    ⟨p.pivot.x + p.pivot.y - pos.y, pos.x - p.pivot.x + p.pivot.y⟩
  else
    ⟨2 * p.h - p.w - 1 - pos.y - p.pivot.y + p.pivot.x,
      pos.x - p.pivot.x + p.pivot.y⟩

theorem turn_injective (p : Polyomino) : Function.Injective p.turn := by
  intro first second heq
  unfold turn at heq
  split at heq <;>
  · have hx := congrArg Vect2D.x heq
    have hy := congrArg Vect2D.y heq
    simp only at hx hy
    ext <;> omega

end Polyomino

section Turn

variable (p : Polyomino) (direction : RotationDirection) (amount : Int)

theorem rotatePolyomino_blocks :
    (rotatePolyomino p direction amount).blocks =
      p.blocks.map fun b => { b with pos := p.turn b.pos } := by
  simp only [rotatePolyomino, List.map_map]
  refine List.map_congr_left fun b _ => ?_
  simp only [Function.comp, Polyomino.turn]
  split <;> simp only [Block.mk.injEq, Vect2D.mk.injEq, and_true] <;> omega

@[simp] theorem rotatePolyomino_pos :
    (rotatePolyomino p direction amount).pos = p.pos := rfl

@[simp] theorem rotatePolyomino_pivot :
    (rotatePolyomino p direction amount).pivot = p.pivot := rfl

@[simp] theorem rotatePolyomino_h :
    (rotatePolyomino p direction amount).h = p.w := rfl

@[simp] theorem rotatePolyomino_w :
    (rotatePolyomino p direction amount).w = p.h := rfl

end Turn

/-! ## Square boxes -/

namespace Polyomino

/-- The blocks lie in an `n` by `n` box whose pivot `initPolyomino` set. -/
structure Boxed (p : Polyomino) (n : Int) : Prop where
  h_eq : p.h = n
  w_eq : p.w = n
  pivot_eq : p.pivot = ⟨n.tdiv 2, n.tdiv 2⟩
  inside : ∀ b ∈ p.blocks,
    0 ≤ b.pos.x ∧ b.pos.x < n ∧ 0 ≤ b.pos.y ∧ b.pos.y < n

theorem Boxed.turn_eq {p : Polyomino} {n : Int} (hbox : p.Boxed n)
    (hn : 0 ≤ n) (pos : Vect2D) : p.turn pos = ⟨n - 1 - pos.y, pos.x⟩ := by
  unfold turn
  rw [hbox.h_eq, hbox.w_eq, hbox.pivot_eq, Int.tdiv_eq_ediv_of_nonneg hn,
    Int.tmod_eq_emod_of_nonneg hn]
  split <;> simp only [Vect2D.mk.injEq] <;> omega

/-- What every tetromino is, in any orientation and at any position: four
blocks of one colour on distinct cells of a box no wider than four. -/
structure IsTetromino (p : Polyomino) (n : Int) (c : Colour) : Prop
    extends p.Boxed n where
  size_nonneg : 0 ≤ n
  size_le : n ≤ 4
  four : p.blocks.length = 4
  distinct : (p.blocks.map Block.pos).Nodup
  colour : ∀ b ∈ p.blocks, b.c = c

theorem IsTetromino.rotate {p : Polyomino} {n : Int} {c : Colour}
    (hp : p.IsTetromino n c) (direction : RotationDirection) (amount : Int) :
    (rotatePolyomino p direction amount).IsTetromino n c where
  h_eq := hp.w_eq
  w_eq := hp.h_eq
  pivot_eq := hp.pivot_eq
  inside := by
    rw [rotatePolyomino_blocks]
    intro turned hturned
    obtain ⟨b, hb, rfl⟩ := List.mem_map.mp hturned
    have hinside := hp.inside b hb
    simp only [hp.turn_eq hp.size_nonneg]
    omega
  size_nonneg := hp.size_nonneg
  size_le := hp.size_le
  four := by rw [rotatePolyomino_blocks, List.length_map, hp.four]
  distinct := by
    rw [rotatePolyomino_blocks, List.map_map]
    have hcomp : Block.pos ∘ (fun b => { b with pos := p.turn b.pos }) =
        p.turn ∘ Block.pos := rfl
    rw [hcomp, ← List.map_map]
    exact hp.distinct.map p.turn_injective
  colour := by
    rw [rotatePolyomino_blocks]
    intro turned hturned
    obtain ⟨b, hb, rfl⟩ := List.mem_map.mp hturned
    exact hp.colour b hb

theorem IsTetromino.setPos {p : Polyomino} {n : Int} {c : Colour}
    (hp : p.IsTetromino n c) (position : Vect2D) :
    ({ p with pos := position } : Polyomino).IsTetromino n c :=
  { hp with }

theorem IsTetromino.ne_nil {p : Polyomino} {n : Int} {c : Colour}
    (hp : p.IsTetromino n c) : p.blocks ≠ [] := by
  intro hnil
  simpa [hnil] using hp.four

end Polyomino

end Grzetris
