import Grzetris.Engine.Clearing
import Grzetris.Engine.Fairness
import Grzetris.Game.Representation
import Grzetris.Tetris.Rules

/-!
# The engine plays by the rules

`Shows` relates a game of the program to a game of `Tetris`: the playfield is the
grid that the player should see.  Each operation of the engine answers what the
rules answer and leaves the two related, as long as no block is locked in the
corner cell and, when a piece lands, the top row is not full.
-/

namespace Grzetris

open Foundation Playfield

variable {p p' : Playfield} {q : Vect2D} {piece : Piece}

/-! ## Pieces and polyominoes -/

def Piece.polyomino (piece : Piece) : Polyomino where
  pos := piece.pos
  pivot := ⟨piece.tetromino.size.tdiv 2, piece.tetromino.size.tdiv 2⟩
  h := piece.tetromino.size
  w := piece.tetromino.size
  blocks := piece.tetromino.cells.map fun q => ⟨q, piece.tetromino.colour⟩

theorem template_eq (shape : TetroShapes) :
    template shape = (⟨tetromino shape, ⟨-32, -32⟩⟩ : Piece).polyomino := by
  cases shape <;> rfl

theorem Piece.boxed (piece : Piece) :
    piece.polyomino.Boxed piece.tetromino.size where
  h_eq := rfl
  w_eq := rfl
  pivot_eq := rfl
  inside := by
    intro b hb
    obtain ⟨q, hq, rfl⟩ := List.mem_map.mp hb
    exact piece.tetromino.inside q hq

theorem Piece.size_nonneg (piece : Piece) : 0 ≤ piece.tetromino.size := by
  have hne : piece.tetromino.cells ≠ [] := by
    intro hnil
    simpa [hnil] using piece.tetromino.four
  obtain ⟨q, hq⟩ := List.exists_mem_of_ne_nil _ hne
  have hinside := piece.tetromino.inside q hq
  omega

theorem Piece.polyomino_turned (piece : Piece) :
    piece.turned.polyomino = piece.polyomino.rotated := by
  have hblocks : piece.turned.polyomino.blocks =
      piece.polyomino.rotated.blocks := by
    rw [Polyomino.rotated, rotatePolyomino_blocks]
    simp only [Piece.polyomino, Piece.turned, Tetromino.turned, List.map_map]
    apply List.map_congr_left
    intro q _
    have hturn := piece.boxed.turn_eq piece.size_nonneg q
    exact congrArg (fun pos => (⟨pos, piece.tetromino.colour⟩ : Block))
      hturn.symm
  exact congrArg
    (fun blocks => { piece.turned.polyomino with blocks := blocks }) hblocks

theorem Piece.polyomino_distinct (piece : Piece) :
    (piece.polyomino.blocks.map Block.pos).Nodup := by
  have hblocks : piece.polyomino.blocks.map Block.pos =
      piece.tetromino.cells := by
    simp [Piece.polyomino, Function.comp_def]
  rw [hblocks]
  exact piece.tetromino.distinct

theorem Piece.polyomino_colour (piece : Piece) {b : Block}
    (hb : b ∈ piece.polyomino.blocks) : b.c = piece.tetromino.colour := by
  obtain ⟨q, -, rfl⟩ := List.mem_map.mp hb
  rfl

theorem mem_cells : (q.y, q.x) ∈ piece.cells ↔
    q ∈ piece.polyomino.cellsAt piece.pos := by
  constructor
  · intro hmem
    obtain ⟨cell, hcell, heq⟩ := List.mem_map.mp hmem
    have hy := congrArg Prod.fst heq
    have hx := congrArg Prod.snd heq
    simp only at hy hx
    refine List.mem_map.mpr
      ⟨⟨cell, piece.tetromino.colour⟩, List.mem_map_of_mem hcell, ?_⟩
    exact Vect2D.ext hx hy
  · intro hmem
    obtain ⟨b, hb, rfl⟩ := List.mem_map.mp hmem
    obtain ⟨cell, hcell, rfl⟩ := List.mem_map.mp hb
    exact List.mem_map.mpr ⟨cell, hcell, rfl⟩

/-! ## Colours -/

/-- What the player sees of a block. -/
def BlockRef.colour (ref : BlockRef) : Colour := ref.block.c

def Playfield.colours (p : Playfield) : Rows (Option Colour) :=
  p.blocks.map (List.map (Option.map BlockRef.colour))

theorem colours_isRect (hr : p.Rect) : p.colours.IsRect p.h p.w := hr.map _

theorem get?_colours (p : Playfield) (y x : Int) :
    p.colours.get? y x =
      (p.blocks.get? y x).map (Option.map BlockRef.colour) :=
  Rows.get?_map _ y x

theorem look_colours (p : Playfield) (q : Vect2D) :
    (p.colours.get? q.y q.x).join = (p.look q).map BlockRef.colour := by
  rw [get?_colours, look, cell?]
  cases p.blocks.get? q.y q.x <;> rfl

/-- A well of the size of the playfield. -/
structure Sized (w : Well Colour) (p : Playfield) : Prop where
  height : w.height = p.h
  width : w.width = p.w

theorem Sized.of_becomes {w : Well Colour} {picture : Picture Vect2D BlockRef}
    (hsized : Sized w p) (hbecomes : p.Becomes p' picture) : Sized w p' where
  height := hsized.height.trans hbecomes.h_eq.symm
  width := hsized.width.trans hbecomes.w_eq.symm

theorem Sized.within {w : Well Colour} (hsized : Sized w p) :
    Rows.Within w.height w.width q.y q.x ↔ p.InBounds q := by
  rw [hsized.height, hsized.width]
  rfl

theorem rows_eq_colours {w : Well Colour} (hsized : Sized w p) (hr : p.Rect)
    (hlook : ∀ q : Vect2D,
      w.look q.y q.x = (p.look q).map BlockRef.colour) :
    w.rows = p.colours := by
  apply Well.rows_ext
  · rw [hsized.height, hsized.width]
    exact colours_isRect hr
  · intro y x
    have hcell := hlook ⟨x, y⟩
    rw [← look_colours] at hcell
    exact hcell

theorem look_of_rows {w : Well Colour} (hrows : w.rows = p.colours)
    (q : Vect2D) : w.look q.y q.x = (p.look q).map BlockRef.colour := by
  rw [Well.look, hrows, look_colours]

/-- Painting a piece over a picture of the stack shows the stack with the piece
filled in. -/
theorem fill_eq_colours {stack : Well Colour} {next : Nat}
    {background : Picture Vect2D BlockRef} (hsized : Sized stack p)
    (hstack : ∀ q : Vect2D,
      stack.look q.y q.x = (background q).map BlockRef.colour)
    (hfits : piece.Fits stack)
    (hbecomes : p.Becomes p' (background.paint
      (strokes piece.pos next piece.polyomino.blocks))) :
    (stack.fill piece.tetromino.colour piece.cells).rows = p'.colours := by
  have hsized' := hsized.of_becomes hbecomes
  apply rows_eq_colours ⟨by simpa using hsized'.height,
    by simpa using hsized'.width⟩ hbecomes.rect
  intro q
  rw [Well.look_fill (fun cell hcell =>
    (Well.free_iff.mp (hfits cell hcell)).1), hbecomes.look_eq]
  by_cases hmem : (q.y, q.x) ∈ piece.cells
  · obtain ⟨ref, hpaint, hblock, -⟩ := paint_strokes_of_mem background next
      (mem_cells.mp hmem)
    rw [if_pos hmem, hpaint, Option.map_some]
    exact congrArg some (piece.polyomino_colour hblock).symm
  · rw [if_neg hmem, hstack, paint_strokes_of_notMem background next
      (fun hcell => hmem (mem_cells.mpr hcell))]

/-! ## The relation -/

def PieceShown (g : Game) : Option Piece → Prop
  | none => g.shape.Unplaced
  | some piece => g.shape = piece.polyomino ∧ Placed g.p g.shape

/-- `before` counts the pieces that earlier games drew. -/
structure Shows (rolls : Rolls) (sequence : Nat → TetroShapes) (before : Nat)
    (g : Game) (t : Tetris) : Prop where
  inv : RunInv g
  sound : t.Sound
  sized : Sized t.stack g.p
  grid : t.grid.rows = g.p.colours
  piece : PieceShown g t.piece
  corner : t.stack.look 0 0 = none
  next : g.nextShape = template (sequence t.spawned)
  supply : Supplies rolls g.engine fun k => sequence (t.spawned + 1 + k)
  drawn : g.engine.drawn = before + t.spawned + 1

variable {rolls : Rolls} {sequence : Nat → TetroShapes} {before : Nat}
  {g g' : Game} {t : Tetris} {shape' : Polyomino}

/-- The stack is what is left of the grid when the piece is erased. -/
theorem Shows.stack_look (hshows : Shows rolls sequence before g t) (q : Vect2D) :
    t.stack.look q.y q.x =
      ((g.p.look.erase g.shape.oldCells) q).map BlockRef.colour := by
  have hgrid := look_of_rows hshows.grid q
  have hpiece := hshows.piece
  unfold Tetris.grid at hgrid
  cases hnone : t.piece with
  | none =>
      rw [hnone] at hgrid hpiece
      rw [hpiece.oldCells_eq, Picture.erase_nil]
      exact hgrid
  | some piece =>
      rw [hnone] at hgrid hpiece
      obtain ⟨hshape, hplaced⟩ := hpiece
      have hfits := hshows.sound.fits piece hnone
      rw [hplaced.onGrid.oldCells_eq, hshape]
      by_cases hmem : (q.y, q.x) ∈ piece.cells
      · have hfree := (Well.free_iff.mp (hfits _ hmem)).2
        have hcell : q ∈ piece.polyomino.cells := mem_cells.mp hmem
        rw [Picture.erase_of_mem hcell]
        exact hfree
      · have hcell : q ∉ piece.polyomino.cells :=
          fun hcell => hmem (mem_cells.mpr hcell)
        rw [Picture.erase_of_notMem hcell, ← hgrid,
          Well.look_fill fun cell hcell =>
            (Well.free_iff.mp (hfits cell hcell)).1, if_neg hmem]

theorem Shows.free_iff (hshows : Shows rolls sequence before g t) :
    t.stack.Free (q.y, q.x) ↔ g.p.InBounds q ∧
      (g.p.look q = none ∨ q ∈ g.shape.oldCells) := by
  rw [Well.free_iff, hshows.sized.within, hshows.stack_look,
    Option.map_eq_none_iff]
  by_cases hmem : q ∈ g.shape.oldCells
  · simp [Picture.erase_of_mem hmem, hmem]
  · simp [Picture.erase_of_notMem hmem, hmem]

theorem fits_iff_cells {stack : Well Colour} : piece.Fits stack ↔
    ∀ q ∈ piece.polyomino.cellsAt piece.pos, stack.Free (q.y, q.x) := by
  constructor
  · intro hfits q hq
    exact hfits _ (mem_cells.mpr hq)
  · rintro hfree ⟨y, x⟩ hcell
    exact hfree ⟨x, y⟩ (mem_cells.mp hcell)

/-- Where no block is locked in the corner, the collision check is the rule. -/
theorem Shows.fits_iff (hshows : Shows rolls sequence before g t) (other : Piece) :
    other.Fits t.stack ↔
      ∀ q ∈ other.polyomino.cellsAt other.pos, g.p.InBounds q ∧
        (q = ⟨0, 0⟩ ∨ g.p.look q = none ∨ q ∈ g.shape.oldCells) := by
  rw [fits_iff_cells]
  apply forall₂_congr
  intro q _
  rw [hshows.free_iff]
  constructor
  · rintro ⟨hin, hvacant⟩
    exact ⟨hin, .inr hvacant⟩
  · rintro ⟨hin, rfl | hvacant⟩
    · have hfree : t.stack.Free (0, 0) :=
        Well.free_iff.mpr
          ⟨hshows.sized.within (q := ⟨0, 0⟩).mpr hin, hshows.corner⟩
      exact hshows.free_iff.mp hfree
    · exact ⟨hin, hvacant⟩

/-! ## Moving and turning -/

/-- The old piece was erased and another one painted where it fits. -/
theorem Shows.repainted (hshows : Shows rolls sequence before g t) {other : Piece}
    (next : Nat) (hfits : other.Fits t.stack)
    (hbecomes : g.p.Becomes p' ((g.p.look.erase g.shape.oldCells).paint
      (strokes other.pos next other.polyomino.blocks)))
    (hinv : RunInv { g with p := p', shape := other.polyomino }) :
    Shows rolls sequence before { g with p := p', shape := other.polyomino }
      { t with piece := some other } where
  inv := hinv
  sound := by
    refine ⟨hshows.sound.width, ?_, hshows.sound.cleared,
      hshows.sound.counted⟩
    intro new hnew
    rw [← Option.some_inj.mp hnew]
    exact hfits
  sized := hshows.sized.of_becomes hbecomes
  grid := fill_eq_colours hshows.sized hshows.stack_look hfits hbecomes
  piece := by
    have hin : ∀ q ∈ other.polyomino.cellsAt other.pos, g.p.InBounds q :=
      fun q hq => (hshows.free_iff.mp (fits_iff_cells.mp hfits q hq)).1
    obtain ⟨n, c, htetro⟩ := hinv.board.tetromino
    obtain ⟨hx, hy⟩ := htetro.pos_ne hin
    exact ⟨rfl, Placed.of_becomes hx hy hin other.polyomino_distinct hbecomes⟩
  corner := hshows.corner
  next := hshows.next
  supply := hshows.supply
  drawn := hshows.drawn

theorem Tetris.attempt_of_none {change : Piece → Piece}
    (hnone : t.piece = none) : t.attempt change = (false, t) := by
  simp [Tetris.attempt, hnone]

theorem Tetris.attempt_of_fits {change : Piece → Piece}
    (hpiece : t.piece = some piece) (hfits : (change piece).Fits t.stack) :
    t.attempt change = (true, { t with piece := some (change piece) }) := by
  simp [Tetris.attempt, hpiece, hfits]

theorem Tetris.attempt_of_not_fits {change : Piece → Piece}
    (hpiece : t.piece = some piece) (hfits : ¬ (change piece).Fits t.stack) :
    t.attempt change = (false, t) := by
  simp [Tetris.attempt, hpiece, hfits]

theorem Shows.unplaced (hshows : Shows rolls sequence before g t)
    (hnone : t.piece = none) : g.shape.Unplaced := by
  have hpiece := hshows.piece
  rwa [hnone] at hpiece

theorem Shows.placed (hshows : Shows rolls sequence before g t)
    (hpiece : t.piece = some piece) :
    g.shape = piece.polyomino ∧ Placed g.p g.shape := by
  have hshown := hshows.piece
  rwa [hpiece] at hshown

theorem Shows.shifted_fits_iff (hshows : Shows rolls sequence before g t)
    (hpiece : t.piece = some piece)
    (displacement : Vect2D) :
    (piece.shifted displacement).Fits t.stack ↔
      Fits g.p g.shape (displacement + g.shape.pos) true := by
  obtain ⟨hshape, hplaced⟩ := hshows.placed hpiece
  have hcells : (piece.shifted displacement).polyomino.cellsAt
      (piece.shifted displacement).pos =
        g.shape.cellsAt (displacement + g.shape.pos) := by
    rw [hshape]
    rfl
  rw [hshows.fits_iff, hcells, hplaced.onGrid.oldCells_eq]
  apply forall₂_congr
  intro q _
  simp [hplaced.onGrid]

theorem Shows.turned_fits_iff (hshows : Shows rolls sequence before g t)
    (hpiece : t.piece = some piece) :
    piece.turned.Fits t.stack ↔ RotationFits g.p g.shape := by
  obtain ⟨hshape, hplaced⟩ := hshows.placed hpiece
  have hcells : piece.turned.polyomino.cellsAt piece.turned.pos =
      g.shape.rotated.cellsAt g.shape.pos := by
    rw [Piece.polyomino_turned, hshape]
    rfl
  rw [hshows.fits_iff, hcells, hplaced.onGrid.oldCells_eq]
  rfl

/-- The displacement must be too short to take a piece from the sentinel to the
grid. -/
theorem Shows.shift (hshows : Shows rolls sequence before g t)
    {displacement : Vect2D}
    (hnear : displacement.x < 29) {moved : Bool}
    (hmove : movePolyno g.p g.shape displacement =
      some (moved, p', shape')) :
    ∃ t', t.shift displacement = (moved, t') ∧
      Shows rolls sequence before { g with p := p', shape := shape' } t' := by
  have hinv := hshows.inv.move hmove
  cases hpiece : t.piece with
  | none =>
      have hunplaced := hshows.unplaced hpiece
      obtain ⟨n, c, htetro⟩ := hshows.inv.board.tetromino
      have hfar : (displacement + g.shape.pos).x < -3 := by
        rw [hunplaced]
        simp only [Vect2D.add_x]
        omega
      rw [movePolyno_refused hshows.inv.board.toBoard
        (htetro.not_fits hfar true)] at hmove
      cases hmove
      exact ⟨t, Tetris.attempt_of_none hpiece, hshows⟩
  | some piece =>
      have hfits := hshows.shifted_fits_iff hpiece displacement
      rcases movePolyno_cases hshows.inv.board.toBoard displacement with
        ⟨hrefused, heq⟩ | ⟨haccepted, p₁, heq, hbecomes, -⟩
      · rw [heq] at hmove
        cases hmove
        exact ⟨t, Tetris.attempt_of_not_fits hpiece (mt hfits.mp hrefused),
          hshows⟩
      · rw [heq] at hmove
        cases hmove
        have hfits' := hfits.mpr haccepted
        obtain ⟨hshape, -⟩ := hshows.placed hpiece
        have hmoved : ({ g.shape with pos := displacement + g.shape.pos } :
            Polyomino) = (piece.shifted displacement).polyomino := by
          rw [hshape]
          rfl
        refine ⟨_, Tetris.attempt_of_fits hpiece hfits', ?_⟩
        rw [hmoved] at hinv ⊢
        refine hshows.repainted g.p.heap.next hfits' ?_ hinv
        rw [placedPicture, hshape] at hbecomes
        rw [hshape]
        exact hbecomes

theorem Shows.turn (hshows : Shows rolls sequence before g t)
    {result : Int}
    (hrotate : rotate g.p g.shape = some (result, p', shape')) :
    ∃ t', t.turn = (result == 0, t') ∧
      Shows rolls sequence before { g with p := p', shape := shape' } t' := by
  have hinv := hshows.inv.rotate hrotate
  cases hpiece : t.piece with
  | none =>
      rw [rotate_unplaced hshows.inv.board (hshows.unplaced hpiece)] at hrotate
      contradiction
  | some piece =>
      have hfits := hshows.turned_fits_iff hpiece
      obtain ⟨hshape, hplaced⟩ := hshows.placed hpiece
      have hold := hplaced.onGrid.oldCells_eq
      rcases rotate_cases hshows.inv.board.toBoard hplaced.onGrid with
        ⟨hrefused, p₁, heq, hbecomes, -⟩ | ⟨haccepted, p₁, heq, hbecomes, -⟩
      · rw [heq] at hrotate
        cases hrotate
        refine ⟨t, Tetris.attempt_of_not_fits hpiece (mt hfits.mp hrefused),
          ?_⟩
        -- The refused piece is painted again where it stood.
        have hsame : { t with piece := some piece } = t := by rw [← hpiece]
        rw [← hsame]
        rw [hshape] at hinv ⊢
        refine hshows.repainted g.p.heap.next
          (hshows.sound.fits piece hpiece) ?_ hinv
        rw [rotatedPicture, ← hold, hshape] at hbecomes
        rw [hshape]
        exact hbecomes
      · rw [heq] at hrotate
        cases hrotate
        have hfits' := hfits.mpr haccepted
        refine ⟨_, Tetris.attempt_of_fits hpiece hfits', ?_⟩
        rw [hshape, ← Piece.polyomino_turned] at hinv ⊢
        refine hshows.repainted g.p.heap.next hfits' ?_ hinv
        rw [rotatedPicture, ← hold, hshape, ← Piece.polyomino_turned]
          at hbecomes
        rw [hshape]
        exact hbecomes

/-! ## Dropping -/

theorem Shows.fallen (hshows : Shows rolls sequence before g t)
    {moved : Bool}
    (hmove : movePolyno g.p g.shape ⟨0, 1⟩ = some (moved, p', shape')) :
    t.shift ⟨0, 1⟩ = (moved, t.fallen) ∧
      Shows rolls sequence before { g with p := p', shape := shape' } t.fallen := by
  obtain ⟨t', hshift, hshows'⟩ := hshows.shift (by decide) hmove
  have hfallen : t.fallen = t' := congrArg Prod.snd hshift
  rw [hfallen]
  exact ⟨hshift, hshows'⟩

/-- Some number of rows down, where the piece comes to rest: the rules count as
many rows as the stack has, the program until a row is refused. -/
theorem Shows.drop (hshows : Shows rolls sequence before g t)
    (hdrop : dropPolyno g.p g.shape = some (p', shape')) :
    Shows rolls sequence before { g with p := p', shape := shape' } t.drop := by
  obtain ⟨n, c, htetro⟩ := hshows.inv.board.tetromino
  obtain ⟨p₁, shape₁, hdrop₁, ⟨k, hshows'⟩, hrests⟩ := dropPolyno_rule
    (fun p shape => ∃ n, Shows rolls sequence before
      { g with p := p, shape := shape } (Tetris.fallen^[n] t))
    (fun p shape hinv => by
      obtain ⟨n, hshown⟩ := hinv
      exact hshown.inv.board.toBoard)
    (fun p shape p₁ shape₁ hinv hmove => by
      obtain ⟨n, hshown⟩ := hinv
      refine ⟨n + 1, ?_⟩
      rw [Function.iterate_succ_apply']
      exact (hshown.fallen hmove).2)
    htetro.ne_nil ⟨0, hshows⟩
  rw [hdrop] at hdrop₁
  cases hdrop₁
  have hrests' : (Tetris.fallen^[k] t).fallen = Tetris.fallen^[k] t := by
    have hshift := (hshows'.fallen hrests).1
    rcases Tetris.attempt_cases (Tetris.fallen^[k] t)
      (Piece.shifted ⟨0, 1⟩) with heq | ⟨piece, -, -, heq⟩
    · exact congrArg Prod.snd heq
    · have hmoved := congrArg Prod.fst (hshift.symm.trans heq)
      contradiction
  have hsame : t.drop = Tetris.fallen^[k] t :=
    iterate_eq_of_rests (Tetris.drop_rests hshows.sound) hrests'
  rw [hsame]
  exact hshows'

/-! ## Landing -/

/-- Some cell of the top row is empty. -/
def TopOpen (p : Playfield) : Prop :=
  ∃ x, p.InBounds ⟨x, 0⟩ ∧ p.look ⟨x, 0⟩ = none

theorem filter_eq_self_of_none {rows : Rows (Option BlockRef)}
    (hnone : rows.any filledRow = false) :
    rows.countP filledRow = 0 ∧
      (rows.filter fun row => filledRow row = false) = rows := by
  have hrows : ∀ row ∈ rows, filledRow row = false := by
    simpa using hnone
  constructor
  · rw [List.countP_eq_zero]
    intro row hrow
    simp [hrows row hrow]
  · rw [List.filter_eq_self]
    intro row hrow
    simp [hrows row hrow]

theorem clearLines_rows (hr : p.Rect) (hh : 1 ≤ p.h) (htop : TopOpen p) :
    ∃ p₁, clearLines p = some p₁ ∧
      p₁.blocks = List.replicate (p.blocks.countP filledRow)
          (emptyRow p.w.toNat) ++
        p.blocks.filter fun row => filledRow row = false := by
  unfold clearLines
  cases hfilled : hasFilledRow p with
  | false =>
      rw [hasFilledRow_eq] at hfilled
      obtain ⟨hcount, hfilter⟩ := filter_eq_self_of_none hfilled
      exact ⟨p, rfl, by rw [hcount, hfilter]; rfl⟩
  | true =>
      obtain ⟨top, rest, hblocks⟩ := hr.exists_top hh
      have htop' : filledRow top = false := (filledRow_top_iff hr hblocks).mpr htop
      obtain ⟨freed, hclear, -⟩ := clearFilledRows_rows (filledRow top)
        (rest.map filledRow) hr hblocks (by rw [List.length_map])
      have hflags : checkFilledRows p =
          filledRow top :: rest.map filledRow := by
        rw [checkFilledRows_eq, hblocks, List.map_cons]
      refine ⟨_, by simp only [if_true, hflags, hclear]; rfl, ?_⟩
      simp [withRows, hblocks, htop', Rows.withFlag_map, count_filledRow]

theorem fullRow_map (row : Row) :
    Well.fullRow (row.map (Option.map BlockRef.colour)) = filledRow row := by
  simp [Well.fullRow, filledRow, Function.comp_def]

theorem fullRows_eq_countP {w : Well Colour} (hrows : w.rows = p.colours) :
    w.fullRows = p.blocks.countP filledRow := by
  rw [Well.fullRows, hrows, colours, List.countP_map]
  congr 1
  funext row
  exact fullRow_map row

/-- Clearing the filled rows of the playfield clears the full rows of what it
shows. -/
theorem clear_rows_eq_colours {w : Well Colour} {p₁ : Playfield}
    (hsized : Sized w p) (hrows : w.rows = p.colours)
    (hblocks : p₁.blocks = List.replicate (p.blocks.countP filledRow)
        (emptyRow p.w.toNat) ++
      p.blocks.filter fun row => filledRow row = false) :
    w.clear.rows = p₁.colours := by
  have hcount := fullRows_eq_countP hrows
  have hkept : w.keptRows =
      (p.blocks.filter fun row => filledRow row = false).map
        (List.map (Option.map BlockRef.colour)) := by
    rw [Well.keptRows, hrows, colours, List.filter_map]
    congr 2
    funext row
    simp [fullRow_map]
  change w.clearedRows = p₁.colours
  rw [Well.clearedRows, hcount, hkept, colours, hblocks, List.map_append,
    List.map_replicate, Well.blankRow, emptyRow, List.map_replicate,
    hsized.width]
  rfl

theorem Shows.look_corner (hshows : Shows rolls sequence before g t)
    (hcorner : ⟨0, 0⟩ ∉ g.shape.oldCells) : g.p.look ⟨0, 0⟩ = none := by
  have hstack := hshows.stack_look ⟨0, 0⟩
  rw [Picture.erase_of_notMem hcorner] at hstack
  exact Option.map_eq_none_iff.mp (hstack.symm.trans hshows.corner)

/-- The first half of a spawn, which is all that happens when the next piece
does not fit. -/
theorem Shows.land (hshows : Shows rolls sequence before g t)
    (hcorner : ⟨0, 0⟩ ∉ g.shape.oldCells) :
    ∃ p₁ e, clearLines g.p = some p₁ ∧
      drawTetro rolls g.engine =
        some (template (sequence (t.spawned + 1)), e) ∧
      Shows rolls sequence before
        ⟨p₁, g.nextShape, template (sequence (t.spawned + 1)), e⟩
        { t.land with spawned := t.spawned + 1 } := by
  have hinv := hshows.inv
  have hempty := hshows.look_corner hcorner
  have htop : TopOpen g.p :=
    ⟨0, by rw [inBounds_iff, hinv.h_eq, hinv.w_eq]; decide, hempty⟩
  obtain ⟨p₁, hclear, hblocks⟩ :=
    clearLines_rows hinv.board.rect hinv.board.height htop
  obtain ⟨p₂, picture, hclear', hbecomes, -⟩ := clearLines_spec hinv.board.rect
  obtain rfl : p₁ = p₂ := Option.some_inj.mp (hclear.symm.trans hclear')
  obtain ⟨e, hdraw, hsupply⟩ := hshows.supply.draw
  obtain ⟨n, c, htetro⟩ := template_isTetromino (sequence t.spawned)
  have hunplaced : g.nextShape.Unplaced := by
    rw [hshows.next]
    exact template_pos _
  have hgrid : Sized t.grid g.p := by
    refine ⟨?_, by rw [Tetris.grid_width]; exact hshows.sized.width⟩
    rw [Tetris.grid_height]
    exact hshows.sized.height
  refine ⟨p₁, e, hclear, hdraw, ?_⟩
  exact
    { inv :=
        { board := hinv.board.of_becomes hbecomes (.inl hunplaced)
            (by rw [hshows.next]; exact htetro)
          next := ⟨_, rfl⟩
          loaded := (hinv.loaded.draw hdraw).1
          h_eq := hbecomes.h_eq.trans hinv.h_eq
          w_eq := hbecomes.w_eq.trans hinv.w_eq }
      sound := hshows.sound.land.respawned _
      sized := ⟨hgrid.height.trans hbecomes.h_eq.symm,
        hgrid.width.trans hbecomes.w_eq.symm⟩
      grid := clear_rows_eq_colours hgrid hshows.grid hblocks
      piece := hunplaced
      corner := by
        apply Well.look_clear_top
        have hlook := look_of_rows hshows.grid ⟨0, 0⟩
        rw [hempty] at hlook
        exact hlook
      next := rfl
      supply := by
        have hshift : (fun k => sequence (t.spawned + 1 + (k + 1))) =
            fun k => sequence (t.spawned + 1 + 1 + k) := by
          funext k
          congr 1
          omega
        rw [← hshift]
        exact hsupply
      drawn := by
        have hdrawn := hshows.drawn
        have hnext := (hinv.loaded.draw hdraw).2
        simp only
        omega }

theorem RunInv.spawn {result : Int} (hinv : RunInv g)
    (hspawn : spawn rolls g = some (result, g')) : RunInv g' := by
  obtain ⟨result₁, g₁, hspawn₁, hinv₁, hh, hw, -⟩ :=
    spawn_spec rolls hinv.toGameInv
  rw [hspawn₁] at hspawn
  cases hspawn
  exact ⟨hinv₁, hh.trans hinv.h_eq, hw.trans hinv.w_eq⟩

theorem launched_polyomino (shape : TetroShapes) :
    (launched shape).polyomino = { template shape with pos := ⟨0, 0⟩ } := by
  rw [template_eq]
  rfl

theorem Shows.launched_fits_iff (hshows : Shows rolls sequence before g t)
    {shape : TetroShapes} (hshape : g.shape = template shape) :
    (launched shape).Fits t.stack ↔ Fits g.p g.shape ⟨0, 0⟩ true := by
  have hunplaced : g.shape.Unplaced := by
    rw [hshape]
    exact template_pos shape
  have hcells : (launched shape).polyomino.cellsAt (launched shape).pos =
      g.shape.cellsAt ⟨0, 0⟩ := by
    rw [launched_polyomino, hshape]
    rfl
  rw [hshows.fits_iff, hcells, hunplaced.oldCells_eq]
  apply forall₂_congr
  intro q _
  simp [hunplaced.not_onGrid]

theorem Shows.launch (hshows : Shows rolls sequence before g t) {shape : TetroShapes}
    (hshape : g.shape = template shape)
    (hfits : Fits g.p g.shape ⟨0, 0⟩ true) :
    ∃ p', setPolynoPos g.p g.shape ⟨0, 0⟩ =
        some (p', (launched shape).polyomino) ∧
      (RunInv { g with p := p', shape := (launched shape).polyomino } →
        Shows rolls sequence before
          { g with p := p', shape := (launched shape).polyomino }
          { t with piece := some (launched shape) }) := by
  have hboard := hshows.inv.board.toBoard
  obtain ⟨p', hset, hbecomes, -⟩ := setPolynoPos_spec g.shape ⟨0, 0⟩
    hboard.rect hboard.oldCells_inBounds fun q hq => (hfits q hq).1
  have hblocks : g.shape.blocks = (launched shape).polyomino.blocks := by
    rw [launched_polyomino, hshape]
  rw [placedPicture, hblocks] at hbecomes
  refine ⟨p', ?_, fun hinv => hshows.repainted _
    ((hshows.launched_fits_iff hshape).mpr hfits) hbecomes hinv⟩
  rw [hset, launched_polyomino, hshape]

/-- The answer of the check for the new piece, and the state it leaves. -/
theorem Shows.spawn (hshows : Shows rolls sequence before g t)
    (hcorner : ⟨0, 0⟩ ∉ g.shape.oldCells) {result : Int}
    (hspawn : Grzetris.spawn rolls g = some (result, g')) :
    ∃ t', t.land.spawn sequence = (result == 1, t') ∧
      Shows rolls sequence before g' t' := by
  have hinv := hshows.inv.spawn hspawn
  obtain ⟨p₁, e, hclear, hdraw, hlanded⟩ := hshows.land hcorner
  have hboard : Board p₁ g.nextShape := hlanded.inv.board.toBoard
  have hfits := hlanded.launched_fits_iff hshows.next
  by_cases haccepted : Fits p₁ g.nextShape ⟨0, 0⟩ true
  · obtain ⟨p₂, hset, hlaunched⟩ := hlanded.launch hshows.next haccepted
    simp only [Grzetris.spawn, hclear, hdraw, hboard.polynoMoveCheck_eq,
      haccepted, hset, Option.bind_eq_bind, Option.bind_some, decide_true,
      if_true] at hspawn
    cases hspawn
    exact ⟨_, Tetris.spawn_of_fits (hfits.mpr haccepted), hlaunched hinv⟩
  · simp only [Grzetris.spawn, hclear, hdraw, hboard.polynoMoveCheck_eq,
      haccepted, Option.bind_eq_bind, Option.bind_some, decide_false]
      at hspawn
    cases hspawn
    exact ⟨_, Tetris.spawn_of_not_fits (mt hfits.mp haccepted), hlanded⟩

theorem Shows.tick (hshows : Shows rolls sequence before g t)
    (hcorner : movePolyno g.p g.shape ⟨0, 1⟩ = some (false, g.p, g.shape) →
      ⟨0, 0⟩ ∉ g.shape.oldCells)
    {result : Int} (hact : timeoutAction rolls g = some (result, g')) :
    ∃ t', t.tick sequence = (result == 1, t') ∧
      Shows rolls sequence before g' t' := by
  rcases timeoutAction_cases rolls hshows.inv.toGameInv with
    ⟨p', shape', hmove, heq⟩ | ⟨hmove, heq⟩
  · rw [heq] at hact
    cases hact
    obtain ⟨hshift, hshows'⟩ := hshows.fallen hmove
    exact ⟨t.fallen, by simp [Tetris.tick, hshift], hshows'⟩
  · obtain ⟨hshift, -⟩ := hshows.fallen hmove
    obtain ⟨t', hspawn, hshows'⟩ := hshows.spawn
      (hcorner hmove) (heq.symm.trans hact)
    exact ⟨t', by simp [Tetris.tick, hshift, hspawn], hshows'⟩

/-! ## The start of a game -/

theorem Shows.empty {e : Engine} (hloaded : e.Loaded)
    (hdrawn : e.drawn = before + 2)
    (hsupply : Supplies rolls e fun k => sequence (k + 2)) :
    Shows rolls sequence before
      ⟨(initPlayfield e 20 10).1, template (sequence 0), template (sequence 1),
        e⟩
      { Tetris.start sequence 20 10 with piece := none } where
  inv :=
    { board :=
        { rect := Rows.isRect_replicate 20 10 none
          height := (by decide : (1 : Int) ≤ 20)
          width := (by decide : (1 : Int) ≤ 10)
          place := .inl (template_pos _)
          tetromino := template_isTetromino _ }
      next := ⟨_, rfl⟩
      loaded := hloaded
      h_eq := rfl
      w_eq := rfl }
  sound :=
    { width := (by decide : (1 : Int) ≤ 10)
      fits := by
        intro piece hpiece
        contradiction
      cleared := Well.fullRows_empty 20 (by decide)
      counted := by
        have hcount : (Well.empty 20 10 : Well Colour).count = 0 :=
          Well.count_empty 20 10
        simp only [Tetris.start, hcount]
        rfl }
  sized := ⟨rfl, rfl⟩
  grid := by
    simp [Tetris.grid, Tetris.start, Well.empty, Playfield.colours,
      initPlayfield, Rows.replicate]
  piece := template_pos _
  corner := Well.look_empty _ _ _ _
  next := rfl
  supply := by
    have hshift : (fun k => sequence (1 + 1 + k)) = fun k => sequence (k + 2) := by
      funext k
      congr 1
      omega
    exact hshift ▸ hsupply
  drawn := hdrawn

theorem launched_fits_empty (shape : TetroShapes) :
    (launched shape).Fits (Well.empty 20 10) := by
  cases shape <;> decide

/-- The two draws and the launch in a new playfield. -/
theorem Shows.start {engine : Engine}
    (hstart : startGame rolls engine = some g) :
    ∃ sequence, Supplies rolls (initPlayfield engine.init 20 10).2 sequence ∧
      Shows rolls sequence engine.drawn g (Tetris.start sequence 20 10) := by
  have hinv := RunInv.start hstart
  have hloaded : (initPlayfield engine.init 20 10).2.Loaded :=
    loadTetros_loaded engine
  obtain ⟨sequence, hsupply⟩ := exists_supply rolls hloaded
  obtain ⟨e₁, hfirst, hsupply₁⟩ := hsupply.draw
  obtain ⟨e₂, hsecond, hsupply₂⟩ := hsupply₁.draw
  obtain ⟨hloaded₁, hdrawn₁⟩ := hloaded.draw hfirst
  obtain ⟨hloaded₂, hdrawn₂⟩ := hloaded₁.draw hsecond
  have hdrawn : e₂.drawn = engine.drawn + 2 := by
    rw [hdrawn₂, hdrawn₁]
    rfl
  have hempty := Shows.empty hloaded₂ hdrawn hsupply₂
  have hfits := (hempty.launched_fits_iff rfl).mp
    (launched_fits_empty (sequence 0))
  obtain ⟨p', hset, hlaunched⟩ := hempty.launch rfl hfits
  have heq : startGame rolls engine = some
      ⟨p', (launched (sequence 0)).polyomino, template (sequence 1), e₂⟩ := by
    have hset' : setPolynoPos (initPlayfield engine.init 20 10).1
        (template (sequence 0)) ⟨0, 0⟩ =
          some (p', (launched (sequence 0)).polyomino) := hset
    simp [startGame, hfirst, hsecond, hset']
  rw [heq] at hstart
  cases hstart
  exact ⟨sequence, hsupply, hlaunched hinv⟩

end Grzetris
