import Grzetris.Engine.Moves

/-!
# What a move and a rotation leave alone

The pieces here are any polyominoes, not only tetrominoes, and displacements
are arbitrary.
-/

namespace Grzetris

open Foundation Playfield

variable {p p' : Playfield} {shape : Polyomino} {pos position : Vect2D}

theorem placedPicture_of_mem_old (hold : pos ∈ shape.oldCells)
    (hnew : pos ∉ shape.cellsAt position) :
    placedPicture p shape position pos = none := by
  rw [placedPicture, paint_strokes_of_notMem _ _ hnew,
    Picture.erase_of_mem hold]

theorem Placed.board (hplaced : Placed p shape) (hr : p.Rect)
    (hne : shape.blocks ≠ []) : Board p shape := by
  obtain ⟨b, hb⟩ := List.exists_mem_of_ne_nil _ hne
  have hin := inBounds_iff.mp (hplaced.inBounds _ (List.mem_map_of_mem hb))
  exact ⟨hr, by omega, by omega, .inr hplaced⟩

/-! ## Moving -/

theorem movePolyno_of_nil (hnil : shape.blocks = []) (displacement : Vect2D) :
    movePolyno p shape displacement =
      some (true, p, { shape with pos := displacement + shape.pos }) := by
  simp [movePolyno, polynoMoveCheck, checkBlocks, setPolynoPos,
    deletePolynoBlocks, hnil]

/-- What an accepted move has done to the grid, in which `shape` stood before
and `shape'` stands now. -/
structure MovedTo (p p' : Playfield) (shape shape' : Polyomino) : Prop where
  rect : p'.Rect
  h_eq : p'.h = p.h
  w_eq : p'.w = p.w
  inBounds : ∀ q ∈ shape'.cells, p'.InBounds q
  drawn : ∀ b ∈ shape'.blocks, ∃ ref,
    p'.look (b.pos + shape'.pos) = some ref ∧ ref.block.c = b.c
  vacated : ∀ q ∈ shape.cells, q ∉ shape'.cells → p'.look q = none
  kept : ∀ q, q ∉ shape.cells → q ∉ shape'.cells → p'.look q = p.look q

theorem MovedTo.of_nil {shape' : Polyomino} (hr : p.Rect)
    (hnil : shape.blocks = []) (hblocks : shape'.blocks = shape.blocks) :
    MovedTo p p shape shape' where
  rect := hr
  h_eq := rfl
  w_eq := rfl
  inBounds := by simp [Polyomino.cells, Polyomino.cellsAt, hblocks, hnil]
  drawn := by simp [hblocks, hnil]
  vacated := by simp [Polyomino.cells, Polyomino.cellsAt, hnil]
  kept := fun _ _ _ => rfl

theorem MovedTo.of_placed (hplaced : Placed p shape)
    (hnew : ∀ q ∈ shape.cellsAt position, p.InBounds q)
    (hbecomes : p.Becomes p' (placedPicture p shape position)) :
    MovedTo p p' shape { shape with pos := position } where
  rect := hbecomes.rect
  h_eq := hbecomes.h_eq
  w_eq := hbecomes.w_eq
  inBounds := fun q hq => hbecomes.inBounds_iff.mpr (hnew q hq)
  drawn := hbecomes.drawn hplaced.blocks_distinct
  vacated := by
    intro q hold hnew
    rw [hbecomes.look_eq]
    rw [← hplaced.onGrid.oldCells_eq] at hold
    exact placedPicture_of_mem_old hold hnew
  kept := by
    intro q hold hnew
    rw [← hplaced.onGrid.oldCells_eq] at hold
    exact hbecomes.look_kept hold hnew

theorem movePolyno_allOrNothing (hr : p.Rect) (hplaced : Placed p shape)
    (displacement : Vect2D) :
    ∃ moved p' shape', movePolyno p shape displacement =
        some (moved, p', shape') ∧
      (moved = false → p' = p ∧ shape' = shape) ∧
      (moved = true →
        shape' = { shape with pos := displacement + shape.pos } ∧
        MovedTo p p' shape shape') := by
  by_cases hnil : shape.blocks = []
  · exact ⟨true, p, _, movePolyno_of_nil hnil displacement, by simp,
      fun _ => ⟨rfl, .of_nil hr hnil rfl⟩⟩
  rcases movePolyno_cases (hplaced.board hr hnil) displacement with
    ⟨-, hrefused⟩ | ⟨hfits, p₁, haccepted, hbecomes, -⟩
  · exact ⟨false, p, shape, hrefused, fun _ => ⟨rfl, rfl⟩, by simp⟩
  · exact ⟨true, p₁, _, haccepted, by simp, fun _ =>
      ⟨rfl, .of_placed hplaced (fun q hq => (hfits q hq).1) hbecomes⟩⟩

/-- A row of three columns with a domino at its left end. -/
def dominoField : Playfield where
  h := 1
  w := 3
  blocks := [[some ⟨0, ⟨⟨0, 0⟩, .red⟩⟩, some ⟨1, ⟨⟨1, 0⟩, .blue⟩⟩, none]]
  heap := { next := 2, freed := [] }

def domino : Polyomino where
  pos := ⟨0, 0⟩
  pivot := ⟨1, 0⟩
  h := 1
  w := 2
  blocks := [⟨⟨0, 0⟩, .red⟩, ⟨⟨1, 0⟩, .blue⟩]

theorem dominoField_rect : dominoField.Rect :=
  ⟨rfl, by decide⟩

theorem domino_placed : Placed dominoField domino where
  x_ne := by decide
  y_ne := by decide
  inBounds := by decide
  distinct := by decide
  drawn := by
    intro b hb
    simp only [domino, List.mem_cons, List.not_mem_nil, or_false] at hb
    rcases hb with rfl | rfl <;> exact ⟨_, rfl, rfl⟩

theorem movePolyno_allOrNothing_domino :
    ∃ p' shape', movePolyno dominoField domino ⟨1, 0⟩ =
        some (true, p', shape') ∧
      shape'.pos = ⟨1, 0⟩ ∧ MovedTo dominoField p' domino shape' := by
  obtain ⟨moved, p', shape', hmove, -, htrue⟩ :=
    movePolyno_allOrNothing dominoField_rect domino_placed ⟨1, 0⟩
  have hmoved : (movePolyno dominoField domino ⟨1, 0⟩).map Prod.fst =
      some true := by decide
  rw [hmove, Option.map_some, Option.some_inj] at hmoved
  obtain ⟨hshape, hto⟩ := htrue hmoved
  exact ⟨p', shape', by rw [hmove, ← hmoved], by rw [hshape]; rfl, hto⟩

/-! ## Rotating -/

theorem rotate_of_nil (hnil : shape.blocks = []) :
    rotate p shape = some (0, p, shape.rotated) := by
  have hblocks : shape.rotated.blocks = [] := by
    rw [Polyomino.rotated, rotatePolyomino_blocks, hnil, List.map_nil]
  have hself : { shape.rotated with blocks := [] } = shape.rotated := by
    rw [← hblocks]
  unfold rotate
  rw [copyPolyomino_eq, ← Polyomino.rotated]
  simp [polynoMoveCheck, checkBlocks, setPolynoPos, deletePolynoBlocks, hnil,
    hblocks, hself]

/-- What a refused rotation has done to the grid: the piece was erased and
drawn again in new blocks of the same colours. -/
structure Redrawn (p p' : Playfield) : Prop where
  rect : p'.Rect
  h_eq : p'.h = p.h
  w_eq : p'.w = p.w
  colours : ∀ q, (p'.look q).map (fun ref => ref.block.c) =
    (p.look q).map fun ref => ref.block.c

/-- What an accepted rotation has done. -/
structure TurnedTo (p p' : Playfield) (shape shape' : Polyomino) : Prop where
  rect : p'.Rect
  h_eq : p'.h = p.h
  w_eq : p'.w = p.w
  pos_eq : shape'.pos = shape.pos
  count_eq : shape'.blocks.length = shape.blocks.length
  colours_eq : shape'.blocks.map Block.c = shape.blocks.map Block.c
  inBounds : ∀ q ∈ shape'.cells, p'.InBounds q
  kept : ∀ q, q ∉ shape.cells → q ∉ shape'.cells → p'.look q = p.look q

theorem Polyomino.rotated_colours (shape : Polyomino) :
    shape.rotated.blocks.map Block.c = shape.blocks.map Block.c := by
  rw [Polyomino.rotated, rotatePolyomino_blocks, List.map_map]
  rfl

theorem TurnedTo.of_rotated (hr : p'.Rect) (hh : p'.h = p.h) (hw : p'.w = p.w)
    (hin : ∀ q ∈ shape.rotated.cells, p'.InBounds q)
    (hkept : ∀ q, q ∉ shape.cells → q ∉ shape.rotated.cells →
      p'.look q = p.look q) :
    TurnedTo p p' shape shape.rotated where
  rect := hr
  h_eq := hh
  w_eq := hw
  pos_eq := rfl
  count_eq := by
    rw [Polyomino.rotated, rotatePolyomino_blocks, List.length_map]
  colours_eq := shape.rotated_colours
  inBounds := hin
  kept := hkept

theorem Redrawn.of_placed (hplaced : Placed p shape)
    (hbecomes : p.Becomes p' (rotatedPicture p shape shape)) :
    Redrawn p p' where
  rect := hbecomes.rect
  h_eq := hbecomes.h_eq
  w_eq := hbecomes.w_eq
  colours := by
    intro q
    by_cases hcell : q ∈ shape.cells
    · have hplaced' : Placed p' shape := Placed.of_becomes hplaced.x_ne
        hplaced.y_ne hplaced.inBounds hplaced.blocks_distinct hbecomes
      obtain ⟨b, hb, rfl⟩ := List.mem_map.mp hcell
      obtain ⟨before, hbefore, hc⟩ := hplaced.drawn b hb
      obtain ⟨after, hafter, hc'⟩ := hplaced'.drawn b hb
      rw [hbefore, hafter, Option.map_some, Option.map_some, hc, hc']
    · rw [hbecomes.look_kept hcell hcell]

theorem rotate_refused_redraws (hr : p.Rect) (hplaced : Placed p shape) :
    ∃ result p' shape', rotate p shape = some (result, p', shape') ∧
      (result = 0 ∨ result = 1) ∧
      (result = 1 → Redrawn p p' ∧ shape' = shape) ∧
      (result = 0 → TurnedTo p p' shape shape') := by
  by_cases hnil : shape.blocks = []
  · have hcells : shape.rotated.cells = [] := by
      simp [Polyomino.cells, Polyomino.cellsAt, Polyomino.rotated,
        rotatePolyomino_blocks, hnil]
    exact ⟨0, p, shape.rotated, rotate_of_nil hnil, .inl rfl, by simp,
      fun _ => .of_rotated hr rfl rfl (by simp [hcells]) fun _ _ _ => rfl⟩
  rcases rotate_cases (hplaced.board hr hnil) hplaced.onGrid with
    ⟨-, p', hrotate, hbecomes, -⟩ | ⟨hfits, p', hrotate, hbecomes, -⟩
  · exact ⟨1, p', shape, hrotate, .inr rfl,
      fun _ => ⟨.of_placed hplaced hbecomes, rfl⟩, by simp⟩
  · refine ⟨0, p', shape.rotated, hrotate, .inl rfl, by simp, fun _ => ?_⟩
    refine .of_rotated hbecomes.rect hbecomes.h_eq hbecomes.w_eq
      (fun q hq => hbecomes.inBounds_iff.mpr (hfits q hq).1)
      fun q hold hnew => hbecomes.look_kept hold hnew

theorem rotate_refused_redraws_domino :
    ∃ p', rotate dominoField domino = some (1, p', domino) ∧
      Redrawn dominoField p' := by
  obtain ⟨result, p', shape', hrotate, -, hone, -⟩ :=
    rotate_refused_redraws dominoField_rect domino_placed
  have hresult : (rotate dominoField domino).map Prod.fst = some 1 := by
    decide
  rw [hrotate, Option.map_some, Option.some_inj] at hresult
  obtain ⟨hredrawn, hshape⟩ := hone hresult
  exact ⟨p', by rw [hrotate, ← hresult, hshape], hredrawn⟩

end Grzetris
