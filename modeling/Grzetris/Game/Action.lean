import Grzetris.Engine.Lines
import Grzetris.Engine.Moves
import Grzetris.Engine.Tetrominoes

/-!
# The game and its timeout action

The objects that `game::run` works on, the start of the game, and
`timeoutAction`, which moves the piece down or locks it and spawns the next one.
-/

namespace Grzetris

open Foundation Playfield

structure Game where
  p : Playfield
  shape : Polyomino
  nextShape : Polyomino
  engine : Engine

def clearLines (p : Playfield) : Option Playfield :=
  if hasFilledRow p then do
    let filledRows := checkFilledRows p
    let (_, p) ← clearFilledRows p filledRows
    some p
  else some p

/-- The second half of `timeoutAction`: the piece has landed.  Its polyomino is
deleted, its blocks stay in the grid. -/
def spawn (rolls : Rolls) (g : Game) : Option (Int × Game) := do
  let p ← clearLines g.p
  let shape := g.nextShape
  let (nextShape, engine) ← drawTetro rolls g.engine
  -- We can't place the shape, game over!
  if ← polynoMoveCheck p shape ⟨0, 0⟩ true then
    let (p, shape) ← setPolynoPos p shape ⟨0, 0⟩
    some (0, { p := p, shape := shape, nextShape := nextShape, engine := engine })
  else
    some (1, { p := p, shape := shape, nextShape := nextShape, engine := engine })

def timeoutAction (rolls : Rolls) (g : Game) : Option (Int × Game) := do
  let (moved, p, shape) ← movePolyno g.p g.shape ⟨0, 1⟩
  if moved then
    some (0, { g with p := p, shape := shape })
  else
    spawn rolls { g with p := p }

/-- `game::run` up to the loop: a new playfield, two pieces, the first of them
launched. -/
def startGame (rolls : Rolls) (engine : Engine) : Option Game := do
  let engine := engine.init
  let (p, engine) := initPlayfield engine 20 10
  let (shape, engine) ← drawTetro rolls engine
  let (nextShape, engine) ← drawTetro rolls engine
  let (p, shape) ← setPolynoPos p shape ⟨0, 0⟩
  some { p := p, shape := shape, nextShape := nextShape, engine := engine }

/-! ## What the timeout action does -/

variable {p : Playfield} {g : Game}

theorem clearLines_spec (hr : p.Rect) :
    ∃ p' picture, clearLines p = some p' ∧ p.Becomes p' picture ∧
      p'.heap.next = p.heap.next := by
  unfold clearLines
  cases hasFilledRow p with
  | false => exact ⟨p, p.look, rfl, hr.becomes_self, rfl⟩
  | true =>
      obtain ⟨n, p', picture, hclear, hbecomes, hnext⟩ :=
        clearFilledRows_spec (checkFilledRows p) hr
          (by rw [checkFilledRows_length]; exact hr.height)
      exact ⟨p', picture, by simp [hclear], hbecomes, hnext⟩

/-- The invariant of the game: the board, and a next piece that still has the
position its template gave it. -/
structure GameInv (g : Game) : Prop where
  board : PieceBoard g.p g.shape
  next : ∃ shape, g.nextShape = template shape
  loaded : g.engine.Loaded

/-- A spawn draws one piece and either places the next one or, when it does not
fit, leaves it off the grid. -/
theorem spawn_spec (rolls : Rolls) (hinv : GameInv g) :
    ∃ result g', spawn rolls g = some (result, g') ∧ GameInv g' ∧
      g'.p.h = g.p.h ∧ g'.p.w = g.p.w ∧ g'.engine.drawn = g.engine.drawn + 1 ∧
      (result = 1 ∧ g'.shape.Unplaced ∨ result = 0 ∧ Placed g'.p g'.shape) := by
  obtain ⟨shape, hnext⟩ := hinv.next
  obtain ⟨n, c, htetro⟩ := template_isTetromino shape
  obtain ⟨p₁, picture, hclear, hfirst, -⟩ := clearLines_spec hinv.board.rect
  obtain ⟨other, bag, engine, hdraw, -, -, hdrawn, hsame⟩ :=
    drawTetro_spec rolls hinv.loaded
  have hunplaced : (template shape).Unplaced := template_pos shape
  have hboard : PieceBoard p₁ (template shape) :=
    hinv.board.of_becomes hfirst (.inl hunplaced) htetro
  have hloaded := hinv.loaded.of_same hsame
  by_cases hfits : Fits p₁ (template shape) ⟨0, 0⟩ true
  · obtain ⟨p₂, hset, hsecond, -⟩ := setPolynoPos_spec (template shape) ⟨0, 0⟩
      hboard.rect hboard.oldCells_inBounds (fun q hq => (hfits q hq).1)
    have hplaced : Placed p₂ { template shape with pos := ⟨0, 0⟩ } :=
      Placed.of_becomes (by decide) (by decide) (fun q hq => (hfits q hq).1)
        htetro.distinct hsecond
    refine ⟨0, ⟨p₂, _, template other, engine⟩, ?_,
      ⟨hboard.of_becomes hsecond (.inr hplaced) (htetro.setPos _),
        ⟨other, rfl⟩, hloaded⟩,
      hsecond.h_eq.trans hfirst.h_eq, hsecond.w_eq.trans hfirst.w_eq, hdrawn,
      .inr ⟨rfl, hplaced⟩⟩
    simp [spawn, hclear, hnext, hdraw, hboard.polynoMoveCheck_eq, hfits, hset]
  · refine ⟨1, ⟨p₁, template shape, template other, engine⟩, ?_,
      ⟨hboard, ⟨other, rfl⟩, hloaded⟩, hfirst.h_eq, hfirst.w_eq, hdrawn,
      .inl ⟨rfl, hunplaced⟩⟩
    simp [spawn, hclear, hnext, hdraw, hboard.polynoMoveCheck_eq, hfits]

theorem spawn_refuses_iff {rolls : Rolls} (hinv : GameInv g)
    (hclear : clearLines g.p = some p) :
    (∃ g', spawn rolls g = some (1, g')) ↔
      ¬ Fits p g.nextShape ⟨0, 0⟩ true := by
  obtain ⟨shape, hnext⟩ := hinv.next
  obtain ⟨p₁, picture, hclear₁, hbecomes, -⟩ := clearLines_spec hinv.board.rect
  obtain rfl := Option.some_inj.mp (hclear.symm.trans hclear₁)
  obtain ⟨other, bag, engine, hdraw, -⟩ := drawTetro_spec rolls hinv.loaded
  obtain ⟨n, c, htetro⟩ := template_isTetromino shape
  have hboard : PieceBoard p (template shape) :=
    hinv.board.of_becomes hbecomes (.inl (template_pos shape)) htetro
  by_cases hfits : Fits p (template shape) ⟨0, 0⟩ true
  · simp [spawn, hclear, hnext, hdraw, hboard.polynoMoveCheck_eq, hfits,
      Option.bind_eq_some_iff]
  · simp [spawn, hclear, hnext, hdraw, hboard.polynoMoveCheck_eq, hfits]

theorem timeoutAction_cases (rolls : Rolls) (hinv : GameInv g) :
    (∃ p' shape', movePolyno g.p g.shape ⟨0, 1⟩ = some (true, p', shape') ∧
      timeoutAction rolls g =
        some (0, { g with p := p', shape := shape' })) ∨
    (movePolyno g.p g.shape ⟨0, 1⟩ = some (false, g.p, g.shape) ∧
      timeoutAction rolls g = spawn rolls g) := by
  rcases movePolyno_cases hinv.board.toBoard ⟨0, 1⟩ with
    ⟨-, hrefused⟩ | ⟨-, p', hmove, -, -⟩
  · exact .inr ⟨hrefused, by simp [timeoutAction, hrefused]⟩
  · exact .inl ⟨p', _, hmove, by simp [timeoutAction, hmove]⟩

theorem timeoutAction_spec (rolls : Rolls) (hinv : GameInv g) :
    ∃ result g', timeoutAction rolls g = some (result, g') ∧ GameInv g' ∧
      g'.p.h = g.p.h ∧ g'.p.w = g.p.w ∧
      (result = 1 ∧ g'.shape.Unplaced ∨ result = 0 ∧ Placed g'.p g'.shape) := by
  rcases timeoutAction_cases rolls hinv with
    ⟨p', shape', hmove, hact⟩ | ⟨-, hact⟩
  · obtain ⟨moved, p₁, shape₁, hmove', hboard, hh, hw, hplaced⟩ :=
      hinv.board.move ⟨0, 1⟩
    rw [hmove'] at hmove
    simp only [Option.some.injEq, Prod.mk.injEq] at hmove
    obtain ⟨rfl, rfl, rfl⟩ := hmove
    exact ⟨0, _, hact, ⟨hboard, hinv.next, hinv.loaded⟩, hh, hw,
      .inr ⟨rfl, hplaced rfl⟩⟩
  · obtain ⟨result, g', hspawn, hinv', hh, hw, -, hplace⟩ :=
      spawn_spec rolls hinv
    exact ⟨result, g', hact.trans hspawn, hinv', hh, hw, hplace⟩

private theorem template_inBounds (shape : TetroShapes) (hh : p.h = 20)
    (hw : p.w = 10) : ∀ q ∈ (template shape).cellsAt ⟨0, 0⟩, p.InBounds q := by
  obtain ⟨n, c, htetro⟩ := template_isTetromino shape
  intro q hq
  obtain ⟨b, hb, rfl⟩ := List.mem_map.mp hq
  have hbox := htetro.inside b hb
  have hsize := htetro.size_le
  rw [inBounds_iff, hh, hw]
  simp only [Vect2D.add_x, Vect2D.add_y]
  omega

theorem startGame_spec (rolls : Rolls) (engine : Engine) :
    ∃ g, startGame rolls engine = some g ∧ GameInv g ∧ Placed g.p g.shape ∧
      g.p.h = 20 ∧ g.p.w = 10 := by
  have hrect : (initPlayfield engine.init 20 10).1.Rect :=
    Rows.isRect_replicate 20 10 none
  have hloaded : (initPlayfield engine.init 20 10).2.Loaded :=
    loadTetros_loaded engine
  obtain ⟨first, bag₁, e₁, hdraw₁, -, -, -, hsame₁⟩ :=
    drawTetro_spec rolls hloaded
  obtain ⟨second, bag₂, e₂, hdraw₂, -, -, -, hsame₂⟩ :=
    drawTetro_spec rolls (hloaded.of_same hsame₁)
  have hunplaced : (template first).Unplaced := template_pos first
  obtain ⟨n, c, htetro⟩ := template_isTetromino first
  have hcells := template_inBounds (p := (initPlayfield engine.init 20 10).1)
    first rfl rfl
  obtain ⟨p', hset, hbecomes, -⟩ := setPolynoPos_spec (template first) ⟨0, 0⟩
    hrect (by simp [hunplaced.oldCells_eq]) hcells
  have hplaced : Placed p' { template first with pos := ⟨0, 0⟩ } :=
    Placed.of_becomes (by decide) (by decide) hcells htetro.distinct hbecomes
  refine ⟨⟨p', _, template second, e₂⟩, ?_, ⟨⟨⟨hbecomes.rect, ?_, ?_,
    .inr hplaced⟩, n, c, htetro.setPos _⟩, ⟨second, rfl⟩,
    (hloaded.of_same hsame₁).of_same hsame₂⟩, hplaced, hbecomes.h_eq,
    hbecomes.w_eq⟩
  · simp [startGame, hdraw₁, hdraw₂, hset]
  · rw [hbecomes.h_eq]
    exact (by decide : (1 : Int) ≤ 20)
  · rw [hbecomes.w_eq]
    exact (by decide : (1 : Int) ≤ 10)

end Grzetris
