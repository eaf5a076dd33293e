import Grzetris.Engine.Playfield

/-!
# What the moves do to the picture

`Playfield.look` is the picture the grid shows.  On a rectangular grid each
operation of `Engine.Playfield` is determined by what it erases and what it
paints; the theorems below say so once, and later files use only them.
-/

namespace Grzetris

open Foundation

variable {p p' p'' : Playfield} {shape : Polyomino} {pos position : Vect2D}

/-! ## Reading and writing one cell -/

namespace Playfield

def Rect (p : Playfield) : Prop := p.blocks.IsRect p.h p.w

def InBounds (p : Playfield) (pos : Vect2D) : Prop :=
  Rows.Within p.h p.w pos.y pos.x

instance (p : Playfield) (pos : Vect2D) : Decidable (p.InBounds pos) :=
  inferInstanceAs (Decidable (Rows.Within _ _ _ _))

/-- The block drawn at a cell; nothing is drawn outside the grid. -/
def look (p : Playfield) : Picture Vect2D BlockRef :=
  fun pos => (p.cell? pos).join

/-- `p'` is a rectangle of the size of `p` that shows `picture`. -/
structure Becomes (p p' : Playfield) (picture : Picture Vect2D BlockRef) :
    Prop where
  rect : p'.Rect
  h_eq : p'.h = p.h
  w_eq : p'.w = p.w
  look_eq : p'.look = picture

theorem inBounds_iff : p.InBounds pos ↔
    0 ≤ pos.y ∧ pos.y < p.h ∧ 0 ≤ pos.x ∧ pos.x < p.w := Iff.rfl

theorem outOfBounds_iff : p.OutOfBounds pos ↔ ¬ p.InBounds pos := by
  unfold OutOfBounds
  rw [inBounds_iff]
  omega

theorem Becomes.inBounds_iff {picture : Picture Vect2D BlockRef}
    (hb : p.Becomes p' picture) : p'.InBounds pos ↔ p.InBounds pos := by
  rw [Playfield.inBounds_iff, Playfield.inBounds_iff, hb.h_eq, hb.w_eq]

theorem Becomes.trans {first second : Picture Vect2D BlockRef}
    (hfirst : p.Becomes p' first) (hsecond : p'.Becomes p'' second) :
    p.Becomes p'' second where
  rect := hsecond.rect
  h_eq := hsecond.h_eq.trans hfirst.h_eq
  w_eq := hsecond.w_eq.trans hfirst.w_eq
  look_eq := hsecond.look_eq

theorem Rect.becomes_self (hr : p.Rect) : p.Becomes p p.look :=
  ⟨hr, rfl, rfl, rfl⟩

theorem Rect.cell?_eq (hr : p.Rect) (hin : p.InBounds pos) :
    p.cell? pos = some (p.look pos) := by
  obtain ⟨content, hcontent⟩ := Rows.IsRect.exists_get? hr hin
  simp only [look, cell?, hcontent, Option.join_some]

theorem Rect.cell?_eq_none (hr : p.Rect) (hout : ¬ p.InBounds pos) :
    p.cell? pos = none :=
  Rows.IsRect.get?_eq_none hr hout

theorem Rect.look_eq_none (hr : p.Rect) (hout : ¬ p.InBounds pos) :
    p.look pos = none := by
  simp only [look, hr.cell?_eq_none hout, Option.join_none]

theorem Rect.inBounds_of_look {ref : BlockRef} (hr : p.Rect)
    (hlook : p.look pos = some ref) : p.InBounds pos := by
  by_contra hout
  simp [hr.look_eq_none hout] at hlook

theorem Rect.setCell?_spec (hr : p.Rect) (hin : p.InBounds pos)
    (content : Option BlockRef) :
    ∃ p', p.setCell? pos content = some p' ∧
      p.Becomes p' (Function.update p.look pos content) ∧ p'.heap = p.heap := by
  obtain ⟨blocks, hblocks⟩ := Rows.IsRect.exists_set? hr hin content
  refine ⟨{ p with blocks := blocks }, by simp [setCell?, hblocks], ?_, rfl⟩
  refine ⟨Rows.IsRect.set? hr hblocks, rfl, rfl, ?_⟩
  funext other
  simp only [look, cell?, Rows.get?_set? hblocks]
  by_cases heq : other = pos
  · subst heq
    simp
  · have hne : ¬ (other.y = pos.y ∧ other.x = pos.x) := by
      rintro ⟨hy, hx⟩
      exact heq (Vect2D.ext hx hy)
    simp [hne, heq, look, cell?]

@[simp] theorem alloc_look (p : Playfield) : p.alloc.look = p.look := rfl

end Playfield

open Playfield

/-! ## Erasing -/

theorem deleteBlock_spec (hr : p.Rect) (hin : p.InBounds pos) :
    ∃ p', deleteBlock p pos = some p' ∧ p.Becomes p' (p.look.erase [pos]) ∧
      p'.heap.next = p.heap.next := by
  cases hlook : p.look pos with
  | none =>
      refine ⟨p, by simp [deleteBlock, hr.cell?_eq hin, hlook], ?_, rfl⟩
      rw [Picture.erase_eq_self (by simpa using hlook)]
      exact hr.becomes_self
  | some block =>
      have hr' : (p.free block).Rect := hr
      obtain ⟨p', hset, hbecomes, hheap⟩ :=
        hr'.setCell?_spec (p := p.free block) hin none
      refine ⟨p', by simp [deleteBlock, hr.cell?_eq hin, hlook, hset], ?_,
        by rw [hheap]; rfl⟩
      rw [Picture.erase_cons, Picture.erase_nil]
      exact ⟨hbecomes.rect, hbecomes.h_eq, hbecomes.w_eq, hbecomes.look_eq⟩

def Polyomino.oldCells (shape : Polyomino) : List Vect2D :=
  if shape.pos.x ≠ -32 ∨ shape.pos.y ≠ -32 then shape.cells else []

/-- A loop whose steps erase one cell each erases all of them. -/
theorem eraseAll_spec {ι : Type*} {step : Playfield → ι → Option Playfield}
    (point : ι → Vect2D)
    (hstep : ∀ (p : Playfield) (item : ι), p.Rect → p.InBounds (point item) →
      ∃ p', step p item = some p' ∧
        p.Becomes p' (p.look.erase [point item]) ∧ p'.heap.next = p.heap.next)
    (items : List ι) (hr : p.Rect)
    (hin : ∀ item ∈ items, p.InBounds (point item)) :
    ∃ p', items.foldlM step p = some p' ∧
      p.Becomes p' (p.look.erase (items.map point)) ∧
      p'.heap.next = p.heap.next := by
  induction items generalizing p with
  | nil => exact ⟨p, rfl, by simpa using hr.becomes_self, rfl⟩
  | cons item items ih =>
      rcases hstep p item hr (hin item (by simp)) with
        ⟨p₁, hitem, hfirst, hnext⟩
      rcases ih hfirst.rect (fun other hmem => hfirst.inBounds_iff.mpr
        (hin other (List.mem_cons_of_mem _ hmem))) with
        ⟨p₂, hfold, hsecond, hnext'⟩
      refine ⟨p₂, by simp [hitem, hfold], ?_, hnext'.trans hnext⟩
      rw [hfirst.look_eq, Picture.erase_cons _ _ [], Picture.erase_nil] at hsecond
      rw [List.map_cons, Picture.erase_cons]
      exact hfirst.trans hsecond

private theorem deletePolynoBlocks_of_sentinel
    (hshape : ¬ (shape.pos.x ≠ -32 ∨ shape.pos.y ≠ -32)) :
    deletePolynoBlocks p shape = some p := by
  simp only [deletePolynoBlocks, if_neg hshape]
  induction shape.blocks with
  | nil => rfl
  | cons block blocks ih => simpa using ih

theorem deletePolynoBlocks_spec (hr : p.Rect)
    (hin : ∀ q ∈ shape.oldCells, p.InBounds q) :
    ∃ p', deletePolynoBlocks p shape = some p' ∧
      p.Becomes p' (p.look.erase shape.oldCells) ∧
      p'.heap.next = p.heap.next := by
  unfold Polyomino.oldCells at hin ⊢
  by_cases hplaced : shape.pos.x ≠ -32 ∨ shape.pos.y ≠ -32
  · have hcells : shape.cells =
        shape.blocks.map fun block => shape.pos + block.pos :=
      List.map_congr_left fun block _ => Vect2D.add_comm _ _
    simp only [deletePolynoBlocks, if_pos hplaced, hcells] at hin ⊢
    exact eraseAll_spec (fun block : Block => shape.pos + block.pos)
      (fun _ _ hr hin => deleteBlock_spec hr hin) shape.blocks hr
      (fun block hmem => hin _ (List.mem_map_of_mem hmem))
  · rw [if_neg hplaced, Picture.erase_nil]
    exact ⟨p, deletePolynoBlocks_of_sentinel hplaced, hr.becomes_self, rfl⟩

/-! ## Painting -/

def strokes (position : Vect2D) : Nat → List Block → List (Vect2D × BlockRef)
  | _, [] => []
  | next, block :: blocks =>
      (block.pos + position, ⟨next, block⟩) :: strokes position (next + 1) blocks

@[simp] theorem strokes_points (position : Vect2D) (next : Nat)
    (blocks : List Block) :
    (strokes position next blocks).map Prod.fst =
      blocks.map fun block => block.pos + position := by
  induction blocks generalizing next with
  | nil => rfl
  | cons block blocks ih => simp [strokes, ih]

theorem mem_strokes {next : Nat} {blocks : List Block} {point : Vect2D}
    {ref : BlockRef} (hmem : (point, ref) ∈ strokes position next blocks) :
    ref.block ∈ blocks ∧ point = ref.block.pos + position ∧ next ≤ ref.addr ∧
      ref.addr < next + blocks.length := by
  induction blocks generalizing next with
  | nil => simp [strokes] at hmem
  | cons block blocks ih =>
      simp only [strokes, List.mem_cons, Prod.mk.injEq] at hmem
      rcases hmem with ⟨rfl, rfl⟩ | hmem
      · simp
      · obtain ⟨hblock, hpoint, hle, hlt⟩ := ih hmem
        refine ⟨List.mem_cons_of_mem _ hblock, hpoint, by omega, ?_⟩
        simp only [List.length_cons]
        omega

private theorem blot_clears (hr : p.Rect) (block : Block)
    (hin : p.InBounds (block.pos + position)) :
    ∃ p₁, blot position p block =
        p₁.alloc.setCell? (block.pos + position)
          (some ⟨p₁.heap.next, block⟩) ∧
      p.Becomes p₁ (p.look.erase [block.pos + position]) ∧
      p₁.heap.next = p.heap.next := by
  cases hlook : p.look (block.pos + position) with
  | none =>
      refine ⟨p, ?_, ?_, rfl⟩
      · simp [blot, hr.cell?_eq hin, hlook]
      · rw [Picture.erase_eq_self (by simpa using hlook)]
        exact hr.becomes_self
  | some ref =>
      rcases deleteBlock_spec hr hin with ⟨p₁, hdelete, hspec⟩
      refine ⟨p₁, ?_, hspec⟩
      simp [blot, hr.cell?_eq hin, hlook, hdelete]

private theorem blot_spec (hr : p.Rect) (block : Block)
    (hin : p.InBounds (block.pos + position)) :
    ∃ p', blot position p block = some p' ∧
      p.Becomes p' (Function.update p.look (block.pos + position)
        (some ⟨p.heap.next, block⟩)) ∧
      p'.heap.next = p.heap.next + 1 := by
  rcases blot_clears hr block hin with ⟨p₁, hblot, hfirst, hnext⟩
  have hr₁ : p₁.alloc.Rect := hfirst.rect
  rcases hr₁.setCell?_spec (p := p₁.alloc) (hfirst.inBounds_iff.mpr hin)
    (some ⟨p₁.heap.next, block⟩) with ⟨p₂, hset, hsecond, hheap⟩
  refine ⟨p₂, by rw [hblot, hset], ⟨hsecond.rect,
    hsecond.h_eq.trans hfirst.h_eq, hsecond.w_eq.trans hfirst.w_eq, ?_⟩, ?_⟩
  · -- What is painted over the cleared cell hides that it was cleared.
    rw [hsecond.look_eq, alloc_look, hfirst.look_eq, Picture.erase_cons,
      Picture.erase_nil, Function.update_idem, hnext]
  · rw [hheap, ← hnext]
    rfl

private theorem blots_spec (position : Vect2D) (blocks : List Block) (hr : p.Rect)
    (hin : ∀ block ∈ blocks, p.InBounds (block.pos + position)) :
    ∃ p', blocks.foldlM (blot position) p = some p' ∧
      p.Becomes p' (p.look.paint (strokes position p.heap.next blocks)) ∧
      p'.heap.next = p.heap.next + blocks.length := by
  induction blocks generalizing p with
  | nil => exact ⟨p, rfl, hr.becomes_self, rfl⟩
  | cons block blocks ih =>
      obtain ⟨p₁, hblot, hfirst, hnext⟩ :=
        blot_spec hr block (hin block (by simp))
      obtain ⟨p₂, hfold, hsecond, hnext'⟩ := ih hfirst.rect
        (fun other hmem => hfirst.inBounds_iff.mpr
          (hin other (List.mem_cons_of_mem _ hmem)))
      refine ⟨p₂, by simp [hblot, hfold], ?_, ?_⟩
      · rw [hfirst.look_eq, hnext] at hsecond
        exact hfirst.trans hsecond
      · rw [hnext', hnext, List.length_cons]
        omega

def placedPicture (p : Playfield) (shape : Polyomino) (position : Vect2D) :
    Picture Vect2D BlockRef :=
  (p.look.erase shape.oldCells).paint
    (strokes position p.heap.next shape.blocks)

theorem setPolynoPos_spec (shape : Polyomino) (position : Vect2D) (hr : p.Rect)
    (hold : ∀ q ∈ shape.oldCells, p.InBounds q)
    (hnew : ∀ q ∈ shape.cellsAt position, p.InBounds q) :
    ∃ p', setPolynoPos p shape position =
        some (p', { shape with pos := position }) ∧
      p.Becomes p' (placedPicture p shape position) ∧
      p'.heap.next = p.heap.next + shape.blocks.length := by
  obtain ⟨p₁, hdelete, hfirst, hnext⟩ := deletePolynoBlocks_spec hr hold
  obtain ⟨p₂, hpaint, hsecond, hnext'⟩ :=
    blots_spec position shape.blocks hfirst.rect
      (fun block hmem => hfirst.inBounds_iff.mpr
        (hnew _ (List.mem_map_of_mem hmem)))
  rw [hfirst.look_eq, hnext] at hsecond
  exact ⟨p₂, by simp [setPolynoPos, hdelete, hpaint], hfirst.trans hsecond,
    by rw [hnext', hnext]⟩

/-- A piece that is not on the grid and is put outside it is the one way
`setPolynoPos` leaves the vectors. -/
theorem setPolynoPos_eq_none {block : Block} {blocks : List Block}
    (hr : p.Rect) (hblocks : shape.blocks = block :: blocks)
    (hold : shape.oldCells = [])
    (hout : ¬ p.InBounds (block.pos + position)) :
    setPolynoPos p shape position = none := by
  have hblot : blot position p block = none := by
    simp [blot, hr.cell?_eq_none hout]
  have hshape : ¬ (shape.pos.x ≠ -32 ∨ shape.pos.y ≠ -32) := by
    intro hplaced
    simp [Polyomino.oldCells, hplaced, Polyomino.cells, Polyomino.cellsAt,
      hblocks] at hold
  simp [setPolynoPos, deletePolynoBlocks_of_sentinel hshape, hblocks, hblot]

theorem paint_strokes_of_mem (background : Picture Vect2D BlockRef) (next : Nat)
    (hnew : pos ∈ shape.cellsAt position) :
    ∃ ref : BlockRef,
      background.paint (strokes position next shape.blocks) pos = some ref ∧
        ref.block ∈ shape.blocks ∧ pos = ref.block.pos + position ∧
        next ≤ ref.addr ∧ ref.addr < next + shape.blocks.length := by
  obtain ⟨ref, hmem, hpaint⟩ := Picture.paint_of_mem background
    (strokes position next shape.blocks) (by rwa [strokes_points])
  exact ⟨ref, hpaint, mem_strokes hmem⟩

theorem paint_strokes_of_notMem (background : Picture Vect2D BlockRef)
    (next : Nat) (hnew : pos ∉ shape.cellsAt position) :
    background.paint (strokes position next shape.blocks) pos =
      background pos :=
  Picture.paint_of_notMem _ _ (by rwa [strokes_points])

/-- A shape without overlapping blocks is painted in its own colours. -/
theorem Playfield.Becomes.drawn {next : Nat}
    {background : Picture Vect2D BlockRef}
    (hbecomes : p.Becomes p'
      (background.paint (strokes position next shape.blocks)))
    (hdistinct : (shape.blocks.map Block.pos).Nodup) :
    ∀ b ∈ shape.blocks, ∃ ref, p'.look (b.pos + position) = some ref ∧
      ref.block.c = b.c := by
  intro b hb
  have hmem : b.pos + position ∈ shape.cellsAt position :=
    List.mem_map_of_mem hb
  obtain ⟨ref, hlook, hblock, hpos, -, -⟩ :=
    paint_strokes_of_mem background next hmem
  refine ⟨ref, by rw [hbecomes.look_eq]; exact hlook, ?_⟩
  have heq : ref.block = b := List.inj_on_of_nodup_map hdistinct hblock hb
    (Vect2D.add_right_cancel hpos.symm)
  rw [heq]

/-- What is neither erased nor painted over shows as before. -/
theorem Playfield.Becomes.look_kept {next : Nat} {points : List Vect2D}
    (hbecomes : p.Becomes p' ((p.look.erase points).paint
      (strokes position next shape.blocks)))
    (hold : pos ∉ points) (hnew : pos ∉ shape.cellsAt position) :
    p'.look pos = p.look pos := by
  rw [hbecomes.look_eq, paint_strokes_of_notMem _ _ hnew,
    Picture.erase_of_notMem hold]

/-! ## The collision check -/

theorem checkBlocks_eq (hr : p.Rect) (ignored : List Vect2D)
    (blocks : List Block) :
    checkBlocks p position ignored blocks =
      some (decide (∀ block ∈ blocks, block.pos + position ∈ ignored ∨
        p.InBounds (block.pos + position) ∧
          p.look (block.pos + position) = none)) := by
  induction blocks with
  | nil => simp [checkBlocks]
  | cons block blocks ih =>
      simp only [checkBlocks, List.forall_mem_cons]
      by_cases hignored : block.pos + position ∈ ignored
      · simp [hignored, ih]
      · rw [if_neg hignored]
        by_cases hin : p.InBounds (block.pos + position)
        · rw [if_neg (by simpa [outOfBounds_iff] using hin), hr.cell?_eq hin]
          cases hlook : p.look (block.pos + position) with
          | none => simp [hignored, hin, ih]
          | some ref => simp [hignored]
        · rw [if_pos (outOfBounds_iff.mpr hin)]
          simp [hignored, hin]

def Polyomino.OnGrid (shape : Polyomino) : Prop :=
  shape.pos.x ≠ -32 ∧ shape.pos.y ≠ -32

instance (shape : Polyomino) : Decidable shape.OnGrid :=
  inferInstanceAs (Decidable (_ ∧ _))

/-- What the collision check really tests: the corner cell always passes. -/
def Fits (p : Playfield) (shape : Polyomino) (position : Vect2D)
    (ignoreCurrentPos : Bool) : Prop :=
  ∀ q ∈ shape.cellsAt position, p.InBounds q ∧
    (q = ⟨0, 0⟩ ∨ p.look q = none ∨
      ignoreCurrentPos = true ∧ shape.OnGrid ∧ q ∈ shape.cells)

instance (p : Playfield) (shape : Polyomino) (position : Vect2D)
    (ignoreCurrentPos : Bool) :
    Decidable (Fits p shape position ignoreCurrentPos) :=
  inferInstanceAs (Decidable (∀ q ∈ shape.cellsAt position, _))

private theorem ignoredBlocks_inBounds {ignoreCurrentPos : Bool}
    (hh : 1 ≤ p.h) (hw : 1 ≤ p.w)
    (hcells : ignoreCurrentPos = true → shape.OnGrid →
      ∀ q ∈ shape.cells, p.InBounds q)
    (hmem : pos ∈ ignoredBlocks p shape position ignoreCurrentPos) :
    p.InBounds pos ∧ (pos = ⟨0, 0⟩ ∨
      ignoreCurrentPos = true ∧ shape.OnGrid ∧ pos ∈ shape.cells) := by
  rw [ignoredBlocks, List.mem_append] at hmem
  rcases hmem with hzero | hcell
  · obtain ⟨-, rfl⟩ := List.mem_replicate.mp hzero
    exact ⟨by rw [inBounds_iff]; simp only; omega, .inl rfl⟩
  · split at hcell
    · rename_i hflag
      obtain ⟨block, hblock, rfl⟩ := List.mem_map.mp hcell
      have hcell : block.pos + shape.pos ∈ shape.cells :=
        List.mem_map_of_mem (List.mem_of_mem_filter hblock)
      exact ⟨hcells hflag.1 hflag.2 _ hcell, .inr ⟨hflag.1, hflag.2, hcell⟩⟩
    · simp at hcell

private theorem mem_ignoredBlocks {ignoreCurrentPos : Bool}
    (hnew : ∀ q ∈ shape.cellsAt position, p.InBounds q)
    (hne : shape.blocks ≠ [])
    (hmem : pos = ⟨0, 0⟩ ∨
      ignoreCurrentPos = true ∧ shape.OnGrid ∧ pos ∈ shape.cells) :
    pos ∈ ignoredBlocks p shape position ignoreCurrentPos := by
  rw [ignoredBlocks, List.mem_append]
  rcases hmem with rfl | ⟨hflag, hplaced, hcell⟩
  · exact .inl (List.mem_replicate.mpr ⟨by simpa using hne, rfl⟩)
  · right
    rw [if_pos ⟨hflag, hplaced⟩]
    obtain ⟨block, hblock, rfl⟩ := List.mem_map.mp hcell
    refine List.mem_map.mpr ⟨block, List.mem_filter.mpr ⟨hblock, ?_⟩, rfl⟩
    have hin := hnew _ (List.mem_map_of_mem hblock)
    simpa [outOfBounds_iff] using hin

theorem polynoMoveCheck_eq (shape : Polyomino) (position : Vect2D)
    (ignoreCurrentPos : Bool) (hr : p.Rect) (hh : 1 ≤ p.h) (hw : 1 ≤ p.w)
    (hcells : ignoreCurrentPos = true → shape.OnGrid →
      ∀ q ∈ shape.cells, p.InBounds q) :
    polynoMoveCheck p shape position ignoreCurrentPos =
      some (decide (Fits p shape position ignoreCurrentPos)) := by
  rw [polynoMoveCheck, checkBlocks_eq hr, Option.some_inj, decide_eq_decide]
  constructor
  · intro hcheck q hq
    obtain ⟨block, hblock, rfl⟩ := List.mem_map.mp hq
    rcases hcheck block hblock with hignored | ⟨hin, hempty⟩
    · obtain ⟨hin, hwhy⟩ := ignoredBlocks_inBounds hh hw hcells hignored
      exact ⟨hin, hwhy.imp_right .inr⟩
    · exact ⟨hin, .inr (.inl hempty)⟩
  · intro hfits block hblock
    have hnew : ∀ q ∈ shape.cellsAt position, p.InBounds q :=
      fun q hq => (hfits q hq).1
    obtain ⟨hin, hcorner | hempty | hown⟩ :=
      hfits _ (List.mem_map_of_mem hblock)
    · exact .inl (mem_ignoredBlocks hnew (List.ne_nil_of_mem hblock)
        (.inl hcorner))
    · exact .inr ⟨hin, hempty⟩
    · exact .inl (mem_ignoredBlocks hnew (List.ne_nil_of_mem hblock)
        (.inr hown))

end Grzetris
