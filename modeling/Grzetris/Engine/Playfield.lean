import Grzetris.Foundation.Canvas
import Grzetris.Foundation.Rows
import Grzetris.Shape

/-!
# The playfield and the moves of a piece

The functions of `engine.cpp` that read and write `p->blocks`.  The vectors are
indexed unchecked in the source, so every function here is partial: `none` is a
subscript outside the vector it indexes, after which the program has no
behaviour.  A cell holds the block it points to together with the address `new`
returned for it, so that a block that was deleted and drawn again is not
mistaken for the block that was there before.
-/

namespace Grzetris

open Foundation

structure BlockRef where
  addr : Nat
  block : Block
  deriving DecidableEq, Repr

/-- The next address `new` returns, and the addresses deleted so far. -/
structure Heap where
  next : Nat
  freed : List Nat
  deriving DecidableEq, Repr

structure Playfield where
  h : Int
  w : Int
  blocks : Rows (Option BlockRef)
  heap : Heap
  deriving DecidableEq, Repr

namespace Playfield

/-- `p->blocks[pos.y][pos.x]` -/
def cell? (p : Playfield) (pos : Vect2D) : Option (Option BlockRef) :=
  p.blocks.get? pos.y pos.x

/-- `p->blocks[pos.y][pos.x] = content` -/
def setCell? (p : Playfield) (pos : Vect2D) (content : Option BlockRef) :
    Option Playfield := do
  let blocks ← p.blocks.set? pos.y pos.x content
  some { p with blocks := blocks }

/-- `delete block` -/
def free (p : Playfield) (block : BlockRef) : Playfield :=
  { p with heap := { p.heap with freed := block.addr :: p.heap.freed } }

/-- `new shp::block`: the caller stores `p.heap.next`. -/
def alloc (p : Playfield) : Playfield :=
  { p with heap := { p.heap with next := p.heap.next + 1 } }

/-- The bounds test that `polynoMoveCheck` makes twice. -/
def OutOfBounds (p : Playfield) (pos : Vect2D) : Prop :=
  pos.y ≥ p.h ∨ pos.x ≥ p.w ∨ pos.y < 0 ∨ pos.x < 0

instance (p : Playfield) (pos : Vect2D) : Decidable (p.OutOfBounds pos) :=
  inferInstanceAs (Decidable (_ ∨ _ ∨ _ ∨ _))

end Playfield

/-- The cells the blocks of a shape cover when it stands at `position`. -/
def Polyomino.cellsAt (shape : Polyomino) (position : Vect2D) : List Vect2D :=
  shape.blocks.map fun block => block.pos + position

def Polyomino.cells (shape : Polyomino) : List Vect2D := shape.cellsAt shape.pos

/--
The vector starts with as many value-initialised vectors as the shape has
blocks; the shape's own cells are appended behind them.
-/
def ignoredBlocks (p : Playfield) (shape : Polyomino) (position : Vect2D)
    (ignoreCurrentPos : Bool) : List Vect2D :=
  List.replicate shape.blocks.length ⟨0, 0⟩ ++
    if ignoreCurrentPos = true ∧ shape.pos.x ≠ -32 ∧ shape.pos.y ≠ -32 then
      -- Don't ignore a block if it falls out of bounds.
      (shape.blocks.filter fun block =>
          ¬ p.OutOfBounds (block.pos + position)).map fun block =>
        block.pos + shape.pos
    else []

/-- The second loop of `polynoMoveCheck`. -/
def checkBlocks (p : Playfield) (position : Vect2D) (ignored : List Vect2D) :
    List Block → Option Bool
  | [] => some true
  | block :: blocks =>
      let newPos := block.pos + position
      if newPos ∈ ignored then
        checkBlocks p position ignored blocks
      else if p.OutOfBounds newPos then
        some false
      else
        match p.cell? newPos with
        | none => none
        | some (some _) => some false
        | some none => checkBlocks p position ignored blocks

def polynoMoveCheck (p : Playfield) (shape : Polyomino) (position : Vect2D)
    (ignoreCurrentPos : Bool) : Option Bool :=
  checkBlocks p position (ignoredBlocks p shape position ignoreCurrentPos)
    shape.blocks

def deleteBlock (p : Playfield) (pos : Vect2D) : Option Playfield := do
  match ← p.cell? pos with
  | none => some p
  | some block => (p.free block).setCell? pos none

def deletePolynoBlocks (p : Playfield) (shape : Polyomino) : Option Playfield :=
  shape.blocks.foldlM (fun p block =>
    if shape.pos.x ≠ -32 ∨ shape.pos.y ≠ -32 then
      deleteBlock p (shape.pos + block.pos)
    else some p) p

def blot (position : Vect2D) (p : Playfield) (block : Block) :
    Option Playfield := do
  let blockPosAbsolute := block.pos + position
  let p ← match ← p.cell? blockPosAbsolute with
    | none => some p
    | some _ => deleteBlock p blockPosAbsolute
  p.alloc.setCell? blockPosAbsolute (some ⟨p.heap.next, block⟩)

def setPolynoPos (p : Playfield) (shape : Polyomino) (position : Vect2D) :
    Option (Playfield × Polyomino) := do
  let p ← deletePolynoBlocks p shape
  let p ← shape.blocks.foldlM (blot position) p
  some (p, { shape with pos := position })

def movePolyno (p : Playfield) (shape : Polyomino) (displacement : Vect2D) :
    Option (Bool × Playfield × Polyomino) := do
  if ← polynoMoveCheck p shape (displacement + shape.pos) true then
    let (p, shape) ← setPolynoPos p shape (displacement + shape.pos)
    some (true, p, shape)
  else
    some (false, p, shape)

/-- At most `fuel` rounds of the loop of `dropPolyno`. -/
def dropLoop : Nat → Playfield → Polyomino → Option (Playfield × Polyomino)
  | 0, _, _ => none
  | fuel + 1, p, shape => do
      let (moved, p, shape) ← movePolyno p shape ⟨0, 1⟩
      if moved then dropLoop fuel p shape else some (p, shape)

/-- Rounds that the loop cannot use up: every round but the last lowers each
block by a row, and none falls below the playfield. -/
def dropFuel (p : Playfield) (shape : Polyomino) : Nat :=
  match shape.blocks with
  | [] => 0
  | block :: _ => (max p.h 1 - (block.pos.y + shape.pos.y)).toNat + 1

def dropPolyno (p : Playfield) (shape : Polyomino) :
    Option (Playfield × Polyomino) :=
  dropLoop (dropFuel p shape) p shape

def rotate (p : Playfield) (shape : Polyomino) :
    Option (Int × Playfield × Polyomino) := do
  let rotatedShape := rotatePolyomino (copyPolyomino shape) .clockwise 1
  let p ← deletePolynoBlocks p shape
  if ← polynoMoveCheck p rotatedShape rotatedShape.pos false then
    let (p, rotatedShape) ← setPolynoPos p rotatedShape rotatedShape.pos
    some (0, p, rotatedShape)
  else
    let (p, shape) ← setPolynoPos p shape shape.pos
    some (1, p, shape)

end Grzetris
