import Grzetris.Engine.Placement

/-!
# Moving, rotating and dropping a piece

`Board` is the relation between the two copies of the current piece, the one in
the grid and the one in the polyomino.  Each operation is described by what it
answers and by the picture it leaves.
-/

namespace Grzetris

open Foundation Playfield

variable {p p' : Playfield} {shape shape' : Polyomino}

/-! ## The piece on the grid -/

/-- The shape stands on the grid, away from the sentinel, and every one of its
cells shows a block of its colour. -/
structure Placed (p : Playfield) (shape : Polyomino) : Prop where
  x_ne : shape.pos.x ≠ -32
  y_ne : shape.pos.y ≠ -32
  inBounds : ∀ q ∈ shape.cells, p.InBounds q
  distinct : shape.cells.Nodup
  drawn : ∀ b ∈ shape.blocks, ∃ ref, p.look (b.pos + shape.pos) = some ref ∧
    ref.block.c = b.c

/-- The position that `loadTetros` gives every template. -/
def Polyomino.Unplaced (shape : Polyomino) : Prop := shape.pos = ⟨-32, -32⟩

instance (shape : Polyomino) : Decidable shape.Unplaced :=
  inferInstanceAs (Decidable (_ = _))

structure Board (p : Playfield) (shape : Polyomino) : Prop where
  rect : p.Rect
  height : 1 ≤ p.h
  width : 1 ≤ p.w
  place : shape.Unplaced ∨ Placed p shape

theorem Placed.onGrid (hplaced : Placed p shape) : shape.OnGrid :=
  ⟨hplaced.x_ne, hplaced.y_ne⟩

theorem Polyomino.Unplaced.not_onGrid (hshape : shape.Unplaced) :
    ¬ shape.OnGrid := by
  rintro ⟨hx, -⟩
  exact hx (congrArg Vect2D.x hshape)

theorem Polyomino.OnGrid.oldCells_eq (hshape : shape.OnGrid) :
    shape.oldCells = shape.cells :=
  if_pos (.inl hshape.1)

theorem Polyomino.Unplaced.oldCells_eq (hshape : shape.Unplaced) :
    shape.oldCells = [] := by
  refine if_neg ?_
  rw [hshape]
  decide

theorem Board.oldCells_inBounds (hboard : Board p shape) :
    ∀ q ∈ shape.oldCells, p.InBounds q := by
  rcases hboard.place with hunplaced | hplaced
  · simp [hunplaced.oldCells_eq]
  · rw [hplaced.onGrid.oldCells_eq]
    exact hplaced.inBounds

theorem Board.cells_inBounds (hboard : Board p shape) (hgrid : shape.OnGrid) :
    ∀ q ∈ shape.cells, p.InBounds q := by
  rcases hboard.place with hunplaced | hplaced
  · exact absurd hgrid hunplaced.not_onGrid
  · exact hplaced.inBounds

theorem Board.polynoMoveCheck_eq (hboard : Board p shape) (position : Vect2D)
    (ignoreCurrentPos : Bool) :
    polynoMoveCheck p shape position ignoreCurrentPos =
      some (decide (Fits p shape position ignoreCurrentPos)) :=
  Grzetris.polynoMoveCheck_eq shape position ignoreCurrentPos hboard.rect
    hboard.height hboard.width fun _ => hboard.cells_inBounds

theorem Placed.of_becomes {position : Vect2D} {next : Nat}
    {background : Picture Vect2D BlockRef} (hx : position.x ≠ -32)
    (hy : position.y ≠ -32)
    (hnew : ∀ q ∈ shape.cellsAt position, p.InBounds q)
    (hdistinct : (shape.blocks.map Block.pos).Nodup)
    (hbecomes : p.Becomes p'
      (background.paint (strokes position next shape.blocks))) :
    Placed p' { shape with pos := position } where
  x_ne := hx
  y_ne := hy
  inBounds := fun q hq => hbecomes.inBounds_iff.mpr (hnew q hq)
  distinct := by
    have hcomp : (fun b : Block => b.pos + position) =
        (fun q : Vect2D => q + position) ∘ Block.pos := rfl
    unfold Polyomino.cells Polyomino.cellsAt
    rw [hcomp, ← List.map_map]
    exact hdistinct.map fun _ _ => Vect2D.add_right_cancel
  drawn := hbecomes.drawn hdistinct

theorem Placed.blocks_distinct (hplaced : Placed p shape) :
    (shape.blocks.map Block.pos).Nodup := by
  have hcells := hplaced.distinct
  unfold Polyomino.cells Polyomino.cellsAt at hcells
  have hcomp : (fun b : Block => b.pos + shape.pos) =
      (fun q : Vect2D => q + shape.pos) ∘ Block.pos := rfl
  rw [hcomp, ← List.map_map] at hcells
  exact hcells.of_map _

/-! ## Moving -/

theorem movePolyno_refused (hboard : Board p shape) {displacement : Vect2D}
    (hfits : ¬ Fits p shape (displacement + shape.pos) true) :
    movePolyno p shape displacement = some (false, p, shape) := by
  simp [movePolyno, hboard.polynoMoveCheck_eq, hfits]

theorem movePolyno_accepted (hboard : Board p shape) {displacement : Vect2D}
    (hfits : Fits p shape (displacement + shape.pos) true) :
    ∃ p', movePolyno p shape displacement =
        some (true, p', { shape with pos := displacement + shape.pos }) ∧
      p.Becomes p' (placedPicture p shape (displacement + shape.pos)) ∧
      p'.heap.next = p.heap.next + shape.blocks.length := by
  obtain ⟨p', hset, hbecomes, hnext⟩ := setPolynoPos_spec shape
    (displacement + shape.pos) hboard.rect hboard.oldCells_inBounds
    (fun q hq => (hfits q hq).1)
  refine ⟨p', ?_, hbecomes, hnext⟩
  simp [movePolyno, hboard.polynoMoveCheck_eq, hfits, hset]

theorem movePolyno_cases (hboard : Board p shape) (displacement : Vect2D) :
    (¬ Fits p shape (displacement + shape.pos) true ∧
      movePolyno p shape displacement = some (false, p, shape)) ∨
    (Fits p shape (displacement + shape.pos) true ∧
      ∃ p', movePolyno p shape displacement =
          some (true, p', { shape with pos := displacement + shape.pos }) ∧
        p.Becomes p' (placedPicture p shape (displacement + shape.pos)) ∧
        p'.heap.next = p.heap.next + shape.blocks.length) := by
  by_cases hfits : Fits p shape (displacement + shape.pos) true
  · exact .inr ⟨hfits, movePolyno_accepted hboard hfits⟩
  · exact .inl ⟨hfits, movePolyno_refused hboard hfits⟩

theorem movePolyno_answers_iff (hboard : Board p shape)
    (displacement : Vect2D) (moved : Bool) :
    (∃ p' shape', movePolyno p shape displacement =
        some (moved, p', shape')) ↔
      (moved = true ↔ Fits p shape (displacement + shape.pos) true) := by
  rcases movePolyno_cases hboard displacement with
    ⟨hfits, hrefused⟩ | ⟨hfits, p', haccepted, -⟩
  · cases moved <;> simp [hrefused, hfits]
  · cases moved <;> simp [haccepted, hfits]

/-- Without any assumption: a move that answers false did nothing. -/
theorem movePolyno_eq_false {displacement : Vect2D}
    (hmove : movePolyno p shape displacement = some (false, p', shape')) :
    p' = p ∧ shape' = shape := by
  simp only [movePolyno, Option.bind_eq_bind, Option.bind_eq_some_iff] at hmove
  rcases hmove with ⟨fits, -, hmove⟩
  cases fits with
  | true => simp [Option.bind_eq_some_iff] at hmove
  | false =>
      simp only [Bool.false_eq_true, if_false, Option.some.injEq,
        Prod.mk.injEq, true_and] at hmove
      exact ⟨hmove.1.symm, hmove.2.symm⟩

theorem movePolyno_eq_true {displacement : Vect2D}
    (hmove : movePolyno p shape displacement = some (true, p', shape')) :
    shape' = { shape with pos := displacement + shape.pos } := by
  simp only [movePolyno, setPolynoPos, Option.bind_eq_bind,
    Option.bind_eq_some_iff] at hmove
  rcases hmove with ⟨fits, -, hmove⟩
  cases fits with
  | true =>
      simp only [if_true, Option.bind_eq_some_iff, Option.some.injEq,
        Prod.mk.injEq, Prod.exists] at hmove
      rcases hmove with ⟨_, _, ⟨_, _, _, _, rfl, rfl⟩, _, _, rfl⟩
      rfl
  | false => simp at hmove

/-! ## Dropping -/

/--
The loop rule for `dropPolyno`: an invariant that implies `Board` and survives
every accepted step downwards holds when the loop ends, which it does, and then
the piece cannot move down.
-/
theorem dropLoop_rule (Inv : Playfield → Polyomino → Prop)
    (hboard : ∀ p shape, Inv p shape → Board p shape)
    (hstep : ∀ p shape p' shape', Inv p shape →
      movePolyno p shape ⟨0, 1⟩ = some (true, p', shape') → Inv p' shape')
    {b : Block} {bs : List Block} (fuel : Nat)
    (hblocks : shape.blocks = b :: bs) (hinv : Inv p shape)
    (hfuel : (max p.h 1 - (b.pos.y + shape.pos.y)).toNat < fuel) :
    ∃ p' shape', dropLoop fuel p shape = some (p', shape') ∧ Inv p' shape' ∧
      movePolyno p' shape' ⟨0, 1⟩ = some (false, p', shape') := by
  induction fuel generalizing p shape with
  | zero => omega
  | succ fuel ih =>
      rcases movePolyno_cases (hboard p shape hinv) ⟨0, 1⟩ with
        ⟨-, hrefused⟩ | ⟨hfits, p₁, hmove, hbecomes, -⟩
      · exact ⟨p, shape, by simp [dropLoop, hrefused], hinv, hrefused⟩
      · -- The first block is still above the floor after the step.
        have hmem : b.pos + (⟨0, 1⟩ + shape.pos) ∈
            shape.cellsAt (⟨0, 1⟩ + shape.pos) :=
          List.mem_map.mpr ⟨b, by simp [hblocks], rfl⟩
        have hfloor := (inBounds_iff.mp (hfits _ hmem).1).2.1
        simp only [Vect2D.add_y] at hfloor
        obtain ⟨p₂, shape₂, hloop, hinv₂, hend⟩ :=
          @ih p₁ { shape with pos := ⟨0, 1⟩ + shape.pos } hblocks
            (hstep _ _ _ _ hinv hmove)
            (by simp only [hbecomes.h_eq, Vect2D.add_y]; omega)
        exact ⟨p₂, shape₂, by simp [dropLoop, hmove, hloop], hinv₂, hend⟩

theorem dropPolyno_rule (Inv : Playfield → Polyomino → Prop)
    (hboard : ∀ p shape, Inv p shape → Board p shape)
    (hstep : ∀ p shape p' shape', Inv p shape →
      movePolyno p shape ⟨0, 1⟩ = some (true, p', shape') → Inv p' shape')
    (hne : shape.blocks ≠ []) (hinv : Inv p shape) :
    ∃ p' shape', dropPolyno p shape = some (p', shape') ∧ Inv p' shape' ∧
      movePolyno p' shape' ⟨0, 1⟩ = some (false, p', shape') := by
  obtain ⟨b, bs, hblocks⟩ := List.exists_cons_of_ne_nil hne
  refine dropLoop_rule Inv hboard hstep _ hblocks hinv ?_
  simp [dropFuel, hblocks]

/-! ## Rotating -/

/-- The turned piece fits once its own blocks are off the grid. -/
def RotationFits (p : Playfield) (shape : Polyomino) : Prop :=
  ∀ q ∈ shape.rotated.cellsAt shape.pos, p.InBounds q ∧
    (q = ⟨0, 0⟩ ∨ p.look q = none ∨ q ∈ shape.cells)

instance (p : Playfield) (shape : Polyomino) :
    Decidable (RotationFits p shape) :=
  inferInstanceAs (Decidable (∀ q ∈ shape.rotated.cellsAt shape.pos, _))

def rotatedPicture (p : Playfield) (shape final : Polyomino) :
    Picture Vect2D BlockRef :=
  (p.look.erase shape.cells).paint
    (strokes shape.pos p.heap.next final.blocks)

private theorem rotation_check (hboard : Board p shape)
    (herased : p.Becomes p' (p.look.erase shape.cells)) :
    polynoMoveCheck p' shape.rotated shape.pos false =
      some (decide (RotationFits p shape)) := by
  have hfits : Fits p' shape.rotated shape.pos false ↔
      RotationFits p shape := by
    refine forall₂_congr fun q _ => ?_
    rw [herased.inBounds_iff, herased.look_eq]
    by_cases hcell : q ∈ shape.cells
    · simp [hcell, Picture.erase_of_mem]
    · simp [hcell, Picture.erase_of_notMem]
  rw [polynoMoveCheck_eq shape.rotated shape.pos false herased.rect
    (by rw [herased.h_eq]; exact hboard.height)
    (by rw [herased.w_eq]; exact hboard.width) (by simp),
    Option.some_inj, decide_eq_decide]
  exact hfits

/-- Painting a shape where it stands does not depend on its own old cells. -/
private theorem repaint_spec (final : Polyomino) (hgrid : shape.OnGrid)
    (herased : p.Becomes p' (p.look.erase shape.cells))
    (hnext : p'.heap.next = p.heap.next) (hpos : final.pos = shape.pos)
    (hcells : ∀ q ∈ final.cells, p.InBounds q) :
    ∃ p₂, setPolynoPos p' final final.pos = some (p₂, final) ∧
      p.Becomes p₂ (rotatedPicture p shape final) ∧
      p₂.heap.next = p.heap.next + final.blocks.length := by
  have holdCells : final.oldCells = final.cells :=
    Polyomino.OnGrid.oldCells_eq (by unfold Polyomino.OnGrid; rwa [hpos])
  have hcells' : ∀ q ∈ final.cells, p'.InBounds q :=
    fun q hq => herased.inBounds_iff.mpr (hcells q hq)
  rcases setPolynoPos_spec final final.pos herased.rect (by rwa [holdCells])
    hcells' with ⟨p₂, hset, hpainted, hnext₂⟩
  refine ⟨p₂, hset, herased.trans
    ⟨hpainted.rect, hpainted.h_eq, hpainted.w_eq, ?_⟩, by rw [hnext₂, hnext]⟩
  rw [hpainted.look_eq, placedPicture, holdCells, Picture.paint_erase
    (by rw [strokes_points]; exact fun q hq => hq), herased.look_eq, hnext,
    rotatedPicture, hpos]

theorem rotate_cases (hboard : Board p shape) (hgrid : shape.OnGrid) :
    (¬ RotationFits p shape ∧
      ∃ p', rotate p shape = some (1, p', shape) ∧
        p.Becomes p' (rotatedPicture p shape shape) ∧
        p'.heap.next = p.heap.next + shape.blocks.length) ∨
    (RotationFits p shape ∧
      ∃ p', rotate p shape = some (0, p', shape.rotated) ∧
        p.Becomes p' (rotatedPicture p shape shape.rotated) ∧
        p'.heap.next = p.heap.next + shape.blocks.length) := by
  rcases deletePolynoBlocks_spec hboard.rect hboard.oldCells_inBounds with
    ⟨p₁, hdelete, herased, hnext₁⟩
  rw [hgrid.oldCells_eq] at herased
  have hrotate : rotate p shape =
      (polynoMoveCheck p₁ shape.rotated shape.pos false).bind fun fits =>
        if fits then
          (setPolynoPos p₁ shape.rotated shape.rotated.pos).bind fun r =>
            some (0, r)
        else (setPolynoPos p₁ shape shape.pos).bind fun r => some (1, r) := by
    simp only [rotate, copyPolyomino_eq, hdelete, Option.bind_eq_bind,
      Option.bind_some]
    rfl
  rw [hrotate, rotation_check hboard herased, Option.bind_some]
  by_cases hrotation : RotationFits p shape
  · rcases repaint_spec shape.rotated hgrid herased hnext₁ rfl
      (fun q hq => (hrotation q hq).1) with ⟨p₂, hset, hbecomes, hnext⟩
    refine .inr ⟨hrotation, p₂, ?_, hbecomes, ?_⟩
    · simp [hrotation, hset]
    · rw [hnext, Polyomino.rotated, rotatePolyomino_blocks, List.length_map]
  · rcases repaint_spec shape hgrid herased hnext₁ rfl
      (hboard.cells_inBounds hgrid) with ⟨p₂, hset, hbecomes, hnext⟩
    refine .inl ⟨hrotation, p₂, ?_, hbecomes, hnext⟩
    simp [hrotation, hset]

theorem rotate_answers_iff (hboard : Board p shape) (hgrid : shape.OnGrid)
    (result : Int) :
    (∃ p' shape', rotate p shape = some (result, p', shape')) ↔
      result = 0 ∧ RotationFits p shape ∨
        result = 1 ∧ ¬ RotationFits p shape := by
  rcases rotate_cases hboard hgrid with
    ⟨hfits, p', hrefused, -⟩ | ⟨hfits, p', haccepted, -⟩
  · simp [hrefused, hfits, eq_comm]
  · simp [haccepted, hfits, eq_comm]

theorem rotate_ne_zero {result : Int}
    (hrotate : rotate p shape = some (result, p', shape')) (hne : result ≠ 0) :
    shape' = shape := by
  simp only [rotate, setPolynoPos, Option.bind_eq_bind,
    Option.bind_eq_some_iff] at hrotate
  rcases hrotate with ⟨p₁, -, fits, -, hrotate⟩
  cases fits with
  | true =>
      simp only [if_true, Option.bind_eq_some_iff, Option.some.injEq,
        Prod.mk.injEq, Prod.exists] at hrotate
      rcases hrotate with ⟨_, _, _, rfl, _⟩
      contradiction
  | false =>
      simp only [Bool.false_eq_true, if_false, Option.bind_eq_some_iff,
        Option.some.injEq, Prod.mk.injEq, Prod.exists] at hrotate
      rcases hrotate with ⟨_, _, ⟨_, _, _, _, rfl, rfl⟩, _, _, rfl⟩
      rfl

/-! ## Tetrominoes -/

/-- A board whose current piece is one of the seven tetrominoes, turned any
number of times. -/
structure PieceBoard (p : Playfield) (shape : Polyomino) : Prop
    extends Board p shape where
  tetromino : ∃ n c, shape.IsTetromino n c

theorem Polyomino.IsTetromino.pos_ne {n : Int} {c : Colour}
    {position : Vect2D} (htetro : shape.IsTetromino n c)
    (hnew : ∀ q ∈ shape.cellsAt position, p.InBounds q) :
    position.x ≠ -32 ∧ position.y ≠ -32 := by
  obtain ⟨b, hb⟩ := List.exists_mem_of_ne_nil _ htetro.ne_nil
  have hin := hnew _ (List.mem_map_of_mem hb)
  have hbox := htetro.inside b hb
  have hsize := htetro.size_le
  rw [inBounds_iff] at hin
  simp only [Vect2D.add_x, Vect2D.add_y] at hin
  omega

theorem Polyomino.IsTetromino.not_inBounds {n : Int} {c : Colour}
    (htetro : shape.IsTetromino n c) {position : Vect2D}
    (hfar : position.x < -3) {b : Block} (hb : b ∈ shape.blocks) :
    ¬ p.InBounds (b.pos + position) := by
  have hbox := htetro.inside b hb
  have hsize := htetro.size_le
  rw [inBounds_iff]
  simp only [Vect2D.add_x]
  omega

theorem Polyomino.IsTetromino.not_fits {n : Int} {c : Colour}
    (htetro : shape.IsTetromino n c) {position : Vect2D}
    (hfar : position.x < -3) (ignoreCurrentPos : Bool) :
    ¬ Fits p shape position ignoreCurrentPos := by
  obtain ⟨b, hb⟩ := List.exists_mem_of_ne_nil _ htetro.ne_nil
  intro hfits
  exact htetro.not_inBounds hfar hb (hfits _ (List.mem_map_of_mem hb)).1

/-- A rotation of a piece that is not on the grid writes outside it: the check
refuses the turned piece, and the old one is painted at the sentinel. -/
theorem rotate_unplaced (hboard : PieceBoard p shape)
    (hshape : shape.Unplaced) : rotate p shape = none := by
  obtain ⟨n, c, htetro⟩ := hboard.tetromino
  obtain ⟨b, bs, hblocks⟩ := List.exists_cons_of_ne_nil htetro.ne_nil
  have hfar : shape.pos.x < -3 := by
    rw [hshape]
    decide
  obtain ⟨p₁, hdelete, hfirst, -⟩ :=
    deletePolynoBlocks_spec hboard.rect hboard.oldCells_inBounds
  have hcheck := polynoMoveCheck_eq shape.rotated shape.pos false hfirst.rect
    (by rw [hfirst.h_eq]; exact hboard.height)
    (by rw [hfirst.w_eq]; exact hboard.width) (by simp)
  have hrefused : ¬ Fits p₁ shape.rotated shape.pos false :=
    (htetro.rotate .clockwise 1).not_fits hfar false
  have hpaint : setPolynoPos p₁ shape shape.pos = none :=
    setPolynoPos_eq_none hfirst.rect hblocks hshape.oldCells_eq
      (htetro.not_inBounds hfar (by simp [hblocks]))
  simp only [rotate, copyPolyomino_eq, hdelete, Option.bind_eq_bind,
    Option.bind_some]
  show (polynoMoveCheck p₁ shape.rotated shape.pos false).bind _ = _
  rw [hcheck, Option.bind_some, if_neg (by simpa using hrefused), hpaint]
  rfl

theorem PieceBoard.of_becomes {picture : Picture Vect2D BlockRef}
    {n : Int} {c : Colour} (hboard : PieceBoard p shape)
    (hbecomes : p.Becomes p' picture)
    (hplace : shape'.Unplaced ∨ Placed p' shape')
    (htetro : shape'.IsTetromino n c) : PieceBoard p' shape' where
  rect := hbecomes.rect
  height := by
    rw [hbecomes.h_eq]
    exact hboard.height
  width := by
    rw [hbecomes.w_eq]
    exact hboard.width
  place := hplace
  tetromino := ⟨n, c, htetro⟩

theorem PieceBoard.placed_of_rotate {result : Int}
    (hboard : PieceBoard p shape)
    (hrotate : Grzetris.rotate p shape = some (result, p', shape')) :
    Placed p shape := by
  rcases hboard.place with hunplaced | hplaced
  · rw [rotate_unplaced hboard hunplaced] at hrotate
    contradiction
  · exact hplaced

theorem PieceBoard.move (hboard : PieceBoard p shape) (displacement : Vect2D) :
    ∃ moved p' shape', movePolyno p shape displacement =
        some (moved, p', shape') ∧ PieceBoard p' shape' ∧ p'.h = p.h ∧
      p'.w = p.w ∧ (moved = true → Placed p' shape') := by
  obtain ⟨n, c, htetro⟩ := hboard.tetromino
  rcases movePolyno_cases hboard.toBoard displacement with
    ⟨-, hrefused⟩ | ⟨hfits, p', hmove, hbecomes, -⟩
  · exact ⟨false, p, shape, hrefused, hboard, rfl, rfl, by simp⟩
  · have hnew : ∀ q ∈ shape.cellsAt (displacement + shape.pos), p.InBounds q :=
      fun q hq => (hfits q hq).1
    have hplaced := Placed.of_becomes (htetro.pos_ne hnew).1
      (htetro.pos_ne hnew).2 hnew htetro.distinct hbecomes
    exact ⟨true, p', _, hmove,
      hboard.of_becomes hbecomes (.inr hplaced) (htetro.setPos _),
      hbecomes.h_eq, hbecomes.w_eq, fun _ => hplaced⟩

theorem PieceBoard.drop (hboard : PieceBoard p shape) :
    ∃ p' shape', dropPolyno p shape = some (p', shape') ∧
      PieceBoard p' shape' ∧ p'.h = p.h ∧ p'.w = p.w := by
  obtain ⟨n, c, htetro⟩ := hboard.tetromino
  obtain ⟨p', shape', hdrop, hinv, -⟩ := dropPolyno_rule
    (fun p' shape' => PieceBoard p' shape' ∧ p'.h = p.h ∧ p'.w = p.w)
    (fun _ _ hinv => hinv.1.toBoard)
    (fun p₁ shape₁ p₂ shape₂ hinv hmove => by
      obtain ⟨moved, p₃, shape₃, hmove', hboard', hh, hw, -⟩ :=
        hinv.1.move ⟨0, 1⟩
      rw [hmove'] at hmove
      simp only [Option.some.injEq, Prod.mk.injEq] at hmove
      obtain ⟨-, rfl, rfl⟩ := hmove
      exact ⟨hboard', hh.trans hinv.2.1, hw.trans hinv.2.2⟩)
    htetro.ne_nil ⟨hboard, rfl, rfl⟩
  exact ⟨p', shape', hdrop, hinv⟩

theorem PieceBoard.rotate (hboard : PieceBoard p shape)
    (hplaced : Placed p shape) :
    ∃ result p' shape', Grzetris.rotate p shape = some (result, p', shape') ∧
      PieceBoard p' shape' ∧ Placed p' shape' ∧ p'.h = p.h ∧ p'.w = p.w := by
  obtain ⟨n, c, htetro⟩ := hboard.tetromino
  -- Whichever of the two polyominoes is painted stands on the board.
  have hkeep : ∀ (final : Polyomino) (p' : Playfield), final.pos = shape.pos →
      final.IsTetromino n c → (∀ q ∈ final.cells, p.InBounds q) →
      p.Becomes p' (rotatedPicture p shape final) →
      PieceBoard p' final ∧ Placed p' final ∧ p'.h = p.h ∧ p'.w = p.w := by
    intro final p' hpos hfinal hcells hbecomes
    rw [rotatedPicture, ← hpos] at hbecomes
    have hplaced' : Placed p' final := Placed.of_becomes
      (hfinal.pos_ne hcells).1 (hfinal.pos_ne hcells).2 hcells
      hfinal.distinct hbecomes
    exact ⟨hboard.of_becomes hbecomes (.inr hplaced') hfinal, hplaced',
      hbecomes.h_eq, hbecomes.w_eq⟩
  rcases rotate_cases hboard.toBoard hplaced.onGrid with
    ⟨-, p', hrotate, hbecomes, -⟩ | ⟨hfits, p', hrotate, hbecomes, -⟩
  · exact ⟨1, p', shape, hrotate,
      hkeep shape p' rfl htetro hplaced.inBounds hbecomes⟩
  · exact ⟨0, p', shape.rotated, hrotate,
      hkeep shape.rotated p' rfl (htetro.rotate .clockwise 1)
        (fun q hq => (hfits q hq).1) hbecomes⟩

end Grzetris
