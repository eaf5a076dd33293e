import Grzetris.Game.Action

/-!
# The two copies of the piece agree

The current piece is stored twice, as a polyomino with a position and as blocks
in the grid.  In every state that the operations of the loop reach without
leaving the vectors, either the piece is off the grid, or each of its blocks is
drawn where the polyomino says it is.
-/

namespace Grzetris

open Foundation Playfield

inductive Reachable (rolls : Rolls) : Game → Prop where
  | start {engine : Engine} {g : Game} :
      startGame rolls engine = some g → Reachable rolls g
  | move {g : Game} {displacement : Vect2D} {moved : Bool} {p : Playfield}
      {shape : Polyomino} : Reachable rolls g →
      movePolyno g.p g.shape displacement = some (moved, p, shape) →
      Reachable rolls { g with p := p, shape := shape }
  | rotate {g : Game} {result : Int} {p : Playfield} {shape : Polyomino} :
      Reachable rolls g → rotate g.p g.shape = some (result, p, shape) →
      Reachable rolls { g with p := p, shape := shape }
  | drop {g : Game} {p : Playfield} {shape : Polyomino} :
      Reachable rolls g → dropPolyno g.p g.shape = some (p, shape) →
      Reachable rolls { g with p := p, shape := shape }
  | timeout {g g' : Game} {result : Int} : Reachable rolls g →
      timeoutAction rolls g = some (result, g') → Reachable rolls g'

def Playfield.Holds (p : Playfield) (q : Vect2D) (c : Colour) : Prop :=
  0 ≤ q.y ∧ q.y < p.h ∧ 0 ≤ q.x ∧ q.x < p.w ∧
    ∃ ref : BlockRef, p.cell? q = some (some ref) ∧ ref.block.c = c

/-- The piece is off the grid at the sentinel, or it stands away from the
sentinel on distinct cells that hold its colour. -/
def PieceAgrees (p : Playfield) (shape : Polyomino) : Prop :=
  shape.pos = ⟨-32, -32⟩ ∨
    shape.pos.x ≠ -32 ∧ shape.pos.y ≠ -32 ∧ shape.cells.Nodup ∧
      ∃ c, ∀ b ∈ shape.blocks, b.c = c ∧ p.Holds (b.pos + shape.pos) c

/-! ## The invariant -/

structure RunInv (g : Game) : Prop extends GameInv g where
  h_eq : g.p.h = 20
  w_eq : g.p.w = 10

variable {rolls : Rolls} {g g' : Game}

theorem RunInv.start {engine : Engine}
    (hstart : startGame rolls engine = some g) : RunInv g := by
  obtain ⟨g₁, hstart₁, hinv, -, hh, hw⟩ := startGame_spec rolls engine
  rw [hstart₁, Option.some_inj] at hstart
  subst hstart
  exact ⟨hinv, hh, hw⟩

theorem RunInv.ofBoard {p : Playfield} {shape : Polyomino} (hinv : RunInv g)
    (hboard : PieceBoard p shape) (hh : p.h = g.p.h) (hw : p.w = g.p.w) :
    RunInv { g with p := p, shape := shape } :=
  ⟨⟨hboard, hinv.next, hinv.loaded⟩, hh.trans hinv.h_eq, hw.trans hinv.w_eq⟩

theorem RunInv.move {displacement : Vect2D} {moved : Bool} {p : Playfield}
    {shape : Polyomino} (hinv : RunInv g)
    (hmove : movePolyno g.p g.shape displacement = some (moved, p, shape)) :
    RunInv { g with p := p, shape := shape } := by
  obtain ⟨moved₁, p₁, shape₁, hmove₁, hboard, hh, hw, -⟩ :=
    hinv.board.move displacement
  rw [hmove₁] at hmove
  cases hmove
  exact hinv.ofBoard hboard hh hw

theorem RunInv.drop {p : Playfield} {shape : Polyomino} (hinv : RunInv g)
    (hdrop : dropPolyno g.p g.shape = some (p, shape)) :
    RunInv { g with p := p, shape := shape } := by
  obtain ⟨p₁, shape₁, hdrop₁, hboard, hh, hw⟩ := hinv.board.drop
  rw [hdrop₁] at hdrop
  cases hdrop
  exact hinv.ofBoard hboard hh hw

theorem RunInv.rotate {result : Int} {p : Playfield} {shape : Polyomino}
    (hinv : RunInv g)
    (hrotate : rotate g.p g.shape = some (result, p, shape)) :
    RunInv { g with p := p, shape := shape } := by
  obtain ⟨result₁, p₁, shape₁, hrotate₁, hboard, -, hh, hw⟩ :=
    hinv.board.rotate (hinv.board.placed_of_rotate hrotate)
  rw [hrotate₁] at hrotate
  cases hrotate
  exact hinv.ofBoard hboard hh hw

theorem RunInv.timeoutAction {result : Int} (hinv : RunInv g)
    (hact : timeoutAction rolls g = some (result, g')) : RunInv g' := by
  obtain ⟨result₁, g₁, hact₁, hinv₁, hh, hw, -⟩ :=
    timeoutAction_spec rolls hinv.toGameInv
  rw [hact₁] at hact
  cases hact
  exact ⟨hinv₁, hh.trans hinv.h_eq, hw.trans hinv.w_eq⟩

theorem Reachable.runInv (hreach : Reachable rolls g) : RunInv g := by
  induction hreach with
  | start hstart => exact RunInv.start hstart
  | move _ hmove ih => exact ih.move hmove
  | rotate _ hrotate ih => exact ih.rotate hrotate
  | drop _ hdrop ih => exact ih.drop hdrop
  | timeout _ hact ih => exact ih.timeoutAction hact

/-! ## The representation -/

theorem PieceBoard.agrees {p : Playfield} {shape : Polyomino}
    (hboard : PieceBoard p shape) : PieceAgrees p shape := by
  rcases hboard.place with hunplaced | hplaced
  · exact .inl hunplaced
  · obtain ⟨n, c, htetro⟩ := hboard.tetromino
    refine .inr ⟨hplaced.x_ne, hplaced.y_ne, hplaced.distinct, c, ?_⟩
    intro b hb
    have hin := hplaced.inBounds _ (List.mem_map_of_mem hb)
    obtain ⟨ref, hlook, hcolour⟩ := hplaced.drawn b hb
    refine ⟨htetro.colour b hb, hin.1, hin.2.1, hin.2.2.1, hin.2.2.2, ref, ?_,
      hcolour.trans (htetro.colour b hb)⟩
    rw [hboard.rect.cell?_eq hin, hlook]

/-- In every reachable state the grid is full, the two copies of the piece
agree, and so do the two tests of the sentinel. -/
theorem reachable_piece_agrees (hreach : Reachable rolls g) :
    (g.p.blocks.length : Int) = g.p.h ∧
      (∀ row ∈ g.p.blocks, (row.length : Int) = g.p.w) ∧
      PieceAgrees g.p g.shape ∧
      ((g.shape.pos.x ≠ -32 ∧ g.shape.pos.y ≠ -32) ↔
        (g.shape.pos.x ≠ -32 ∨ g.shape.pos.y ≠ -32)) := by
  have hboard := hreach.runInv.board
  refine ⟨hboard.rect.height, hboard.rect.width, hboard.agrees, ?_⟩
  rcases hboard.place with hunplaced | hplaced
  · rw [hunplaced]
    decide
  · simp [hplaced.x_ne, hplaced.y_ne]

theorem reachable_piece_agrees_fresh :
    ∃ g result g', startGame (fun _ _ => 0) Engine.fresh = some g ∧
      Grzetris.timeoutAction (fun _ _ => 0) g = some (result, g') ∧
      (g'.p.blocks.length : Int) = g'.p.h ∧
      (∀ row ∈ g'.p.blocks, (row.length : Int) = g'.p.w) ∧
      PieceAgrees g'.p g'.shape ∧
      ((g'.shape.pos.x ≠ -32 ∧ g'.shape.pos.y ≠ -32) ↔
        (g'.shape.pos.x ≠ -32 ∨ g'.shape.pos.y ≠ -32)) := by
  obtain ⟨g, hstart, hinv, -⟩ := startGame_spec (fun _ _ => 0) Engine.fresh
  obtain ⟨result, g', hact, -⟩ := timeoutAction_spec (fun _ _ => 0) hinv
  exact ⟨g, result, g', hstart, hact,
    reachable_piece_agrees ((Reachable.start hstart).timeout hact)⟩

end Grzetris
