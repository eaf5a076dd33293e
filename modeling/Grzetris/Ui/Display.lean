import Grzetris.Engine.Placement
import Grzetris.Engine.Tetrominoes
import Grzetris.Foundation.Runs
import Grzetris.Ui.Texts

/-!
# What a drawing shows

The windows read back.  The playfield shows its picture, magnified by two lines
and four columns; the window of the next shape shows that shape; the controls
show for each bind the first key that has it; and the menu shows its nodes.
-/

namespace Grzetris

open Foundation Playfield

variable {ω : Type} {C : Curses ω} {screen : Screen ω}

/-! ## The playfield -/

def fieldTiles : Tiling where
  top := 1
  left := 1
  rows := 2
  cols := 4
  rows_pos := by decide
  cols_pos := by decide

/-- A block as it is drawn. -/
def Curses.shade (C : Curses ω) (c : Colour) : Char × Attribute :=
  ('X', C.colour c)

/-- The blocks of the playfield, each at its row and column. -/
def Curses.shades (C : Curses ω) (p : Playfield) :
    Picture Cell (Char × Attribute) :=
  fun cell => (p.look ⟨cell.2, cell.1⟩).map fun ref => C.shade ref.block.c

structure ShowsPlayfield (C : Curses ω) (p : Playfield) (win : ω) : Prop where
  size : C.size win = (2 * p.h + 2, 2 * (2 * p.w) + 2)
  shows : ∀ cell, Inside (C.size win) cell →
    C.look win cell = fieldTiles.magnify (C.shades p) cell

/-- The strokes of the two loops of `drawPlayfield`. -/
def fieldStrokes (C : Curses ω) (p : Playfield) :
    List (Cell × (Char × Attribute)) :=
  (List.range p.h.toNat).flatMap fun (y : Nat) =>
    (List.range p.w.toNat).filterMap fun (x : Nat) =>
      (p.look ⟨x, y⟩).map fun ref =>
        (((y : Int), (x : Int)), C.shade ref.block.c)

theorem drawBlock_some (win : ω) (y x : Nat) (ref : BlockRef) :
    drawBlock C win y x (some ref) =
      C.fill fieldTiles win ((y, x), C.shade ref.block.c) := by
  have hcorner : fieldTiles.corner ((y : Int), (x : Int)) =
      (2 * (y : Int) + 1, (x : Int) * 4 + 1) := by
    simp only [Tiling.corner, fieldTiles, Prod.mk.injEq]
    omega
  have hrows : List.range fieldTiles.rows = [0, 1] := rfl
  simp only [drawBlock, Windows.fill, hrows, List.foldl_cons, List.foldl_nil,
    Windows.fillRow, hcorner, Nat.cast_zero, Nat.cast_one, Int.add_zero]
  rfl

theorem foldl_drawBlock (p : Playfield) (win : ω) :
    ((List.range p.h.toNat).foldl (fun win y =>
      (List.range p.w.toNat).foldl (fun win x =>
        drawBlock C win y x (p.look ⟨x, y⟩)) win) win) =
      (fieldStrokes C p).foldl (C.fill fieldTiles) win := by
  rw [fieldStrokes, List.foldl_flatMap]
  congr 1
  funext win y
  rw [List.foldl_filterMap]
  congr 1
  funext win x
  cases p.look ⟨x, y⟩ with
  | none => rfl
  | some ref => exact drawBlock_some win y x ref

theorem fieldStrokes_lists {p : Playfield} (hr : p.Rect) :
    (C.shades p).Lists (fieldStrokes C p) := by
  rintro ⟨⟨y, x⟩, value⟩
  simp only [fieldStrokes, List.mem_flatMap, List.mem_range,
    List.mem_filterMap, Option.map_eq_some_iff, Prod.mk.injEq, Curses.shades]
  constructor
  · rintro ⟨y, _, x, _, ref, hlook, ⟨rfl, rfl⟩, rfl⟩
    exact ⟨ref, hlook, rfl⟩
  · rintro ⟨ref, hlook, rfl⟩
    have hin := Playfield.inBounds_iff.mp (hr.inBounds_of_look hlook)
    simp only at hin
    have hy : ((y.toNat : Nat) : Int) = y := Int.toNat_of_nonneg hin.1
    have hx : ((x.toNat : Nat) : Int) = x := Int.toNat_of_nonneg hin.2.2.1
    refine ⟨y.toNat, by omega, x.toNat, by omega, ref, ?_, ⟨hy, hx⟩, rfl⟩
    rw [hy, hx]
    exact hlook

theorem foldlM_drawBlock {p : Playfield} (hr : p.Rect) (win : ω) :
    (List.range p.h.toNat).foldlM (fun win (y : Nat) =>
      (List.range p.w.toNat).foldlM (fun win (x : Nat) => do
        let currentBlock ← p.cell? ⟨x, y⟩
        some (drawBlock C win y x currentBlock)) win) win =
      some ((fieldStrokes C p).foldl (C.fill fieldTiles) win) := by
  rw [← foldl_drawBlock]
  apply foldlM_eq_foldl
  intro win y hy
  apply foldlM_eq_foldl
  intro win x hx
  rw [List.mem_range] at hy hx
  have hin : p.InBounds ⟨x, y⟩ :=
    Playfield.inBounds_iff.mpr ⟨by simp, by simp; omega, by simp, by simp; omega⟩
  rw [hr.cell?_eq hin]
  rfl

section

variable [C.Lawful]

open Windows Windows.Lawful

theorem drawPlayfield_spec {p : Playfield} (hr : p.Rect) (hheight : p.h = 20)
    (hwidth : p.w = 10) (hstands : screen.Stands C) :
    ∃ win, drawPlayfield C p screen = some (screen.refresh C .playfield win) ∧
      C.Stands .playfield win ∧
      (C.valid win = true → ShowsPlayfield C p win) := by
  generalize hframed : C.border playfieldFrame (C.erase (C.move
    (C.lines.tdiv 2 - (p.h + 1), C.cols.tdiv 2 - (2 * p.w + 1))
    (C.window screen .playfield (2 * p.h + 2, 2 * (2 * p.w) + 2)
      (C.lines.tdiv 2 - (p.h + 1), C.cols.tdiv 2 - (2 * p.w + 1))))) = framed
  obtain ⟨hstand, hblank⟩ := hstands.framed .playfield playfieldFrame
    (by rw [hheight, hwidth]; rfl) (by rw [hheight, hwidth]; rfl) hframed
  have hplace : C.SamePlace framed
      ((fieldStrokes C p).foldl (C.fill fieldTiles) framed) :=
    samePlace_foldl_fill
  have hstand' := hstand.of_samePlace hplace
  refine ⟨_, ?_, hstand', fun hvalid => ?_⟩
  · rw [drawPlayfield, hframed, foldlM_drawBlock hr]
    rfl
  have hsize' := hstand'.size hvalid
  have hsize : C.size framed = (42, 42) := hplace.size.symm.trans hsize'
  have hfits : ∀ stroke ∈ fieldStrokes C p,
      fieldTiles.Fits (C.size framed) stroke.1 := by
    intro stroke hstroke
    have hshade := (fieldStrokes_lists hr stroke).mp hstroke
    obtain ⟨ref, hlook, -⟩ := Option.map_eq_some_iff.mp hshade
    have hin := Playfield.inBounds_iff.mp (hr.inBounds_of_look hlook)
    simp only [Tiling.Fits, Tiling.corner, fieldTiles, hsize] at hin ⊢
    omega
  refine ⟨by rw [hsize', hheight, hwidth]; rfl, fun cell hinside => ?_⟩
  rw [hsize'] at hinside
  rw [look_foldl_fill hfits, (fieldStrokes_lists hr).blank_paint_eq,
    Picture.onto, hblank (hplace.valid ▸ hvalid) cell hinside, Option.or_none]

end

/-! ## The next shape -/

def previewTiles (shape : Polyomino) : Tiling where
  top := 4
  left := 7 - shape.w
  rows := 1
  cols := 2
  rows_pos := by decide
  cols_pos := by decide

/-- The blocks of a shape, each at its row and column. -/
def Curses.preview (C : Curses ω) (shape : Polyomino) :
    Picture Cell (Char × Attribute) :=
  fun cell =>
    (shape.blocks.find? fun block => block.pos = ⟨cell.2, cell.1⟩).map
      fun block => C.shade block.c

structure ShowsNext (C : Curses ω) (shape : Polyomino) (win : ω) : Prop where
  size : C.size win = (8, 14)
  shows : ∀ cell, Inside (C.size win) cell →
    C.look win cell =
      ((previewTiles shape).magnify (C.preview shape)).onto
        (label .normal (2, 5) "NEXT".toList) cell

def previewStroke (C : Curses ω) (block : Block) : Cell × (Char × Attribute) :=
  ((block.pos.y, block.pos.x), C.shade block.c)

theorem previewStroke_lists {shape : Polyomino}
    (hdistinct : (shape.blocks.map Block.pos).Nodup) :
    (C.preview shape).Lists (shape.blocks.map (previewStroke C)) := by
  rintro ⟨⟨y, x⟩, value⟩
  simp only [List.mem_map, previewStroke, Prod.mk.injEq, Curses.preview,
    Option.map_eq_some_iff]
  constructor
  · rintro ⟨block, hblock, ⟨rfl, rfl⟩, rfl⟩
    cases hfind : shape.blocks.find? fun other => other.pos = block.pos with
    | none =>
        have hnone := List.find?_eq_none.mp hfind block hblock
        simp at hnone
    | some found =>
        have hmem := List.mem_of_find?_eq_some hfind
        have hpos : found.pos = block.pos := by
          simpa using List.find?_some hfind
        obtain rfl := List.inj_on_of_nodup_map hdistinct hmem hblock hpos
        exact ⟨found, rfl, rfl⟩
  · rintro ⟨block, hfind, rfl⟩
    have hpos : block.pos = ⟨x, y⟩ := by simpa using List.find?_some hfind
    exact ⟨block, List.mem_of_find?_eq_some hfind, by simp [hpos], rfl⟩

theorem write_eq_fill (shape : Polyomino) (win : ω) (block : Block) :
    C.write (C.colour block.c)
      ((8 : Int).tdiv 2 + block.pos.y,
        (14 : Int).tdiv 2 - shape.w + 2 * block.pos.x) "XX".toList win =
      C.fill (previewTiles shape) win (previewStroke C block) := by
  have hcorner : (previewTiles shape).corner (block.pos.y, block.pos.x) =
      ((8 : Int).tdiv 2 + block.pos.y,
        (14 : Int).tdiv 2 - shape.w + 2 * block.pos.x) := by
    have height : (8 : Int).tdiv 2 = 4 := rfl
    have width : (14 : Int).tdiv 2 = 7 := rfl
    simp only [Tiling.corner, previewTiles, height, width, Prod.mk.injEq]
    omega
  have hrows : List.range (previewTiles shape).rows = [0] := rfl
  rw [Windows.fill, hrows]
  simp only [List.foldl_cons, List.foldl_nil, Windows.fillRow, previewStroke,
    hcorner, Nat.cast_zero, Int.add_zero]
  rfl

theorem template_fits (shape : TetroShapes) (block : Block)
    (hblock : block ∈ (template shape).blocks) :
    (previewTiles (template shape)).Fits (8, 14)
      (block.pos.y, block.pos.x) := by
  have hplaces : ∀ shape, ∀ b ∈ (template shape).blocks,
      0 ≤ b.pos.y ∧ b.pos.y ≤ 1 ∧ 0 ≤ b.pos.x ∧
        b.pos.x < (template shape).w ∧ (template shape).w ≤ 4 := by
    intro shape
    cases shape <;> decide
  have hplace := hplaces shape block hblock
  simp only [Tiling.Fits, Tiling.corner, previewTiles]
  omega

section

variable [C.Lawful]

open Windows Windows.Lawful

/-- The next shape is put beside the playfield that has been drawn. -/
theorem nextOrigin_eq {fieldWin : ω} (hfield : C.Stands .playfield fieldWin) :
    ((C.origin fieldWin).1, (C.size fieldWin).2 + (C.origin fieldWin).2) =
      WindowTypes.nextShape.origin C := by
  by_cases hholds : C.HoldsField
  · have hvalid := hfield.valid_iff.mpr hholds
    rw [hfield.origin hvalid, hfield.size hvalid]
    simp only [WindowTypes.origin, if_pos hholds]
    rfl
  · have hnull : C.valid fieldWin = false := by
      rwa [← Bool.not_eq_true, hfield.valid_iff]
    rw [origin_null _ hnull, size_null _ hnull]
    simp only [WindowTypes.origin, if_neg hholds]
    rfl

theorem drawNextShape_spec (shape : TetroShapes) (hstands : screen.Stands C)
    {fieldWin : ω} (hfield : screen.windows .playfield = some fieldWin) :
    ∃ win, drawNextShape C (template shape) screen =
        screen.refresh C .nextShape win ∧ C.Stands .nextShape win ∧
      (C.valid win = true → ShowsNext C (template shape) win) := by
  obtain ⟨n, c, htetro⟩ := template_isTetromino shape
  have horigin := nextOrigin_eq (hstands _ _ hfield)
  generalize hframed : C.border .plain (C.erase (C.move
    ((C.origin fieldWin).1, (C.size fieldWin).2 + (C.origin fieldWin).2)
    (C.window screen .nextShape (8, 14)
      ((C.origin fieldWin).1, (C.size fieldWin).2 + (C.origin fieldWin).2)))) =
    framed
  obtain ⟨hstand, hblank⟩ :=
    hstands.framed .nextShape .plain rfl horigin.symm hframed
  generalize htitle :
    C.write .normal (2, centre 14 4) "NEXT".toList framed = title
  have hplace₁ : C.SamePlace framed title := htitle ▸ samePlace_write
  have hplace₂ : C.SamePlace title (((template shape).blocks.map
      (previewStroke C)).foldl (C.fill (previewTiles (template shape))) title) :=
    samePlace_foldl_fill
  have hplace := hplace₁.trans hplace₂
  have hstand' := hstand.of_samePlace hplace
  refine ⟨_, ?_, hstand', fun hvalid => ?_⟩
  · rw [drawNextShape, hfield, List.foldl_map]
    simp only [hframed, htitle, write_eq_fill]
  have hsize'' := hstand'.size hvalid
  have hsize : C.size framed = (8, 14) := hplace.size.symm.trans hsize''
  have hsize' : C.size title = (8, 14) := hplace₁.size.trans hsize
  have hfits : ∀ stroke ∈ (template shape).blocks.map (previewStroke C),
      (previewTiles (template shape)).Fits (C.size title) stroke.1 := by
    intro stroke hstroke
    obtain ⟨block, hblock, rfl⟩ := List.mem_map.mp hstroke
    rw [hsize']
    exact template_fits shape block hblock
  have hwrite := look_write (W := C.toWindows) .normal (2, centre 14 4)
    "NEXT".toList framed (by rw [hsize]; decide)
  rw [htitle] at hwrite
  refine ⟨hsize'', fun cell hinside => ?_⟩
  rw [hsize''] at hinside
  rw [look_foldl_fill hfits, (previewStroke_lists htetro.distinct).blank_paint_eq,
    hwrite, Picture.onto, Picture.onto, Picture.onto,
    hblank (hplace.valid ▸ hvalid) cell hinside, Option.or_none]
  rfl

/-! ## The whole screen -/

/-- The windows of a game lie on the terminal side by side and show it. -/
structure ShowsGame (C : Curses ω) (input : Input) (p : Playfield)
    (shape : Polyomino) (screen : Screen ω) : Prop where
  windows : ∃ fieldWin nextWin controlsWin,
    screen.terminal = [fieldWin, nextWin, controlsWin] ∧
      (∀ win ∈ screen.terminal, C.Covers (C.origin win) (C.size win)) ∧
      (C.origin controlsWin).2 + (C.size controlsWin).2 ≤
        (C.origin fieldWin).2 ∧
      (C.origin fieldWin).2 + (C.size fieldWin).2 ≤ (C.origin nextWin).2 ∧
      ShowsPlayfield C p fieldWin ∧ ShowsNext C shape nextWin ∧
      ShowsControls C input controlsWin

theorem drawGame_spec {input : Input} {bindings : Code → Option Bind}
    {p : Playfield} (hr : p.Rect) (hheight : p.h = 20) (hwidth : p.w = 10)
    (shape : TetroShapes) (hstands : screen.Stands C)
    (hmap : input.currentMap ≠ .none)
    (hbindings : input.bindings input.currentMap = some bindings) :
    ∃ screen', drawGame C input p (template shape) screen = some screen' ∧
      screen'.Stands C ∧
      (ShowsGame C input p (template shape) screen' ↔ C.HoldsGame) := by
  have hclear : screen.clear.Stands C := hstands
  obtain ⟨fieldWin, hdraw₁, hstand₁, hfield⟩ :=
    drawPlayfield_spec hr hheight hwidth hclear
  have hstands₁ := hclear.refresh hstand₁
  obtain ⟨nextWin, hdraw₂, hstand₂, hnext⟩ :=
    drawNextShape_spec shape hstands₁ Screen.windows_refresh
  have hstands₂ := hstands₁.refresh hstand₂
  obtain ⟨controlsWin, hdraw₃, hstand₃, hcontrols⟩ :=
    drawControls_spec hmap hbindings hstands₂
      ((Screen.windows_refresh_of_ne (by decide)).trans Screen.windows_refresh)
  have hvalid := hstand₃.controls_valid_iff
  refine ⟨_, ?_, hstands₂.refresh hstand₃, ?_⟩
  · rw [drawGame, hdraw₁, Option.bind_eq_bind, Option.bind_some, hdraw₂, hdraw₃]
  constructor
  · -- Without the controls there are two windows at most.
    rintro ⟨_, _, _, hterminal, -⟩
    by_contra hsmall
    have hnull := mt hvalid.mp hsmall
    have hcount := congrArg List.length hterminal
    simp only [Screen.refresh, Screen.clear, Curses.shown, if_neg hnull,
      List.length_append, List.length_nil, List.length_cons] at hcount
    split_ifs at hcount <;> simp at hcount
  · intro hroom
    obtain ⟨hline, hcol⟩ := id hroom
    obtain ⟨horigin₁, horigin₂, horigin₃⟩ := hroom.origins
    have hvalid₁ := hstand₁.valid.mpr (by rw [horigin₁]; simp only; omega)
    have hvalid₂ := hstand₂.valid.mpr (by rw [horigin₂]; simp only; omega)
    have hvalid₃ := hvalid.mpr hroom
    rw [← hstand₁.origin hvalid₁] at horigin₁
    rw [← hstand₂.origin hvalid₂] at horigin₂
    rw [← hstand₃.origin hvalid₃] at horigin₃
    have hsize₁ : C.size fieldWin = (42, 42) := hstand₁.size hvalid₁
    have hsize₂ : C.size nextWin = (8, 14) := hstand₂.size hvalid₂
    have hsize₃ : C.size controlsWin = (15, 20) := hstand₃.size hvalid₃
    have hterminal : (((screen.clear.refresh C .playfield fieldWin).refresh C
        .nextShape nextWin).refresh C .controls controlsWin).terminal =
          [fieldWin, nextWin, controlsWin] := by
      simp only [Screen.refresh, Screen.clear, Curses.shown, hvalid₁, hvalid₂,
        hvalid₃, if_true]
      rfl
    refine ⟨fieldWin, nextWin, controlsWin, hterminal, ?_, ?_, ?_,
      hfield hvalid₁, hnext hvalid₂, hcontrols hvalid₃⟩
    · rw [hterminal]
      simp only [List.forall_mem_cons, Windows.Covers, horigin₁, horigin₂,
        horigin₃, hsize₁, hsize₂, hsize₃]
      refine ⟨by omega, by omega, by omega, by simp⟩
    · rw [horigin₃, hsize₃, horigin₁]
      simp only
      omega
    · rw [horigin₁, hsize₁, horigin₂]
      simp only
      omega

end

end Grzetris
