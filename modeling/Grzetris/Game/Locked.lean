import Grzetris.Foundation.Runs
import Grzetris.Game.Action

/-!
# Locked blocks

The vector of ignored cells of `polynoMoveCheck` starts with one value-initialised
vector for each block of the shape, so the collision test is never made at
(0, 0).  A locked block there is the only one that a move, a rotation or the
placing of a piece can overwrite.
-/

namespace Grzetris

open Foundation Playfield

structure Field where
  p : Playfield
  shape : Polyomino

/-- What happens to a piece between two clearings, the placing of the next piece
as `timeoutAction` does it included. -/
inductive FieldOp where
  | move (displacement : Vect2D)
  | rotate
  | drop
  -- `*shape = *nextShape`
  | next (tetro : TetroShapes)
  -- `polynoMoveCheck(p, *shape, {0,0})` and `setPolynoPos(p, *shape, {0,0})`
  | place
  deriving DecidableEq, Repr

instance : Inhabited FieldOp := ⟨.drop⟩

/-- The placing of a piece by `timeoutAction`, and what it returns. -/
def placeShape (p : Playfield) (shape : Polyomino) :
    Option (Int × Playfield × Polyomino) := do
  if ← polynoMoveCheck p shape ⟨0, 0⟩ true then
    let (p, shape) ← setPolynoPos p shape ⟨0, 0⟩
    some (0, p, shape)
  else
    some (1, p, shape)

def fieldStep : FieldOp → Field → Option (Unit × Field)
  | .move displacement, f => do
      let (_, p, shape) ← movePolyno f.p f.shape displacement
      some ((), ⟨p, shape⟩)
  | .rotate, f => do
      let (_, p, shape) ← rotate f.p f.shape
      some ((), ⟨p, shape⟩)
  | .drop, f => do
      let (p, shape) ← dropPolyno f.p f.shape
      some ((), ⟨p, shape⟩)
  | .next tetro, f => some ((), { f with shape := template tetro })
  | .place, f => do
      let (_, p, shape) ← placeShape f.p f.shape
      some ((), ⟨p, shape⟩)

/-- The second half of `timeoutAction` is a clearing, then `next`, then `place`. -/
theorem spawn_eq (rolls : Rolls) (g : Game) : spawn rolls g = (do
    let p ← clearLines g.p
    let (nextShape, engine) ← drawTetro rolls g.engine
    let (result, p, shape) ← placeShape p g.nextShape
    some (result, { p := p, shape := shape, nextShape := nextShape,
                    engine := engine })) := by
  unfold spawn
  cases clearLines g.p with
  | none => rfl
  | some p =>
      cases hdraw : drawTetro rolls g.engine with
      | none => rfl
      | some drawn =>
          simp only [placeShape, Option.bind_eq_bind, Option.bind_some]
          cases polynoMoveCheck p g.nextShape ⟨0, 0⟩ true with
          | none => rfl
          | some fits =>
              cases fits with
              | false => rfl
              | true =>
                  simp only [Option.bind_some, if_true]
                  cases setPolynoPos p g.nextShape ⟨0, 0⟩ <;> rfl

def Polyomino.toCorner (shape : Polyomino) : Vect2D :=
  ⟨-shape.pos.x, -shape.pos.y⟩

theorem Polyomino.toCorner_add_pos (shape : Polyomino) :
    shape.toCorner + shape.pos = ⟨0, 0⟩ := by
  apply Vect2D.ext
  · exact Int.add_left_neg _
  · exact Int.add_left_neg _

theorem placeShape_eq (p : Playfield) (shape : Polyomino) :
    placeShape p shape = (movePolyno p shape shape.toCorner).map fun r =>
      (if r.1 then 0 else 1, r.2) := by
  simp only [placeShape, movePolyno, shape.toCorner_add_pos,
    Option.bind_eq_bind]
  cases polynoMoveCheck p shape ⟨0, 0⟩ true with
  | none => rfl
  | some fits =>
      cases fits with
      | false => rfl
      | true =>
          simp only [Option.bind_some, if_true]
          cases setPolynoPos p shape ⟨0, 0⟩ <;> rfl

/-! ## Locked blocks -/

/-- The cell holds the block and does not belong to the current piece. -/
def Locked (f : Field) (q : Vect2D) (ref : BlockRef) : Prop :=
  f.p.look q = some ref ∧ q ∉ f.shape.cells

/-- The operation is accepted at a position that covers (0, 0), where a locked
block lies. -/
def Clobbers (op : FieldOp) (f : Field) : Prop :=
  (∃ ref, Locked f ⟨0, 0⟩ ref) ∧
    match op with
    | .move displacement =>
        Fits f.p f.shape (displacement + f.shape.pos) true ∧
          ⟨0, 0⟩ ∈ f.shape.cellsAt (displacement + f.shape.pos)
    | .place => Fits f.p f.shape ⟨0, 0⟩ true ∧ ⟨0, 0⟩ ∈ f.shape.cellsAt ⟨0, 0⟩
    | .rotate => RotationFits f.p f.shape ∧
        ⟨0, 0⟩ ∈ f.shape.rotated.cellsAt f.shape.pos
    | .drop | .next _ => False

/-- The blocks of the grid came from `new`, which never returns their addresses
again. -/
def Allocated (p : Playfield) : Prop :=
  ∀ q ref, p.look q = some ref → ref.addr < p.heap.next

structure FieldInv (f : Field) : Prop where
  board : PieceBoard f.p f.shape
  allocated : Allocated f.p

/-- What an operation does to the blocks that were locked before it. -/
structure Effect (op : FieldOp) (f f' : Field) : Prop where
  inv : FieldInv f'
  keeps : ¬ Clobbers op f → ∀ q ref, Locked f q ref → Locked f' q ref
  loses : Clobbers op f →
    ∀ ref, f.p.look ⟨0, 0⟩ = some ref → f'.p.look ⟨0, 0⟩ ≠ some ref

variable {f f' : Field} {p p' : Playfield} {shape shape' : Polyomino}

/-! ## Painting -/

section Painting

variable {points : List Vect2D} {position : Vect2D}

theorem Allocated.of_paint (halloc : Allocated p)
    (hbecomes : p.Becomes p' ((p.look.erase points).paint
      (strokes position p.heap.next shape.blocks)))
    (hnext : p'.heap.next = p.heap.next + shape.blocks.length) :
    Allocated p' := by
  intro q ref hlook
  rw [hbecomes.look_eq] at hlook
  rw [hnext]
  by_cases hnew : q ∈ shape.cellsAt position
  · rcases paint_strokes_of_mem (p.look.erase points) p.heap.next hnew with
      ⟨ref', hpaint, -, -, -, hlt⟩
    rw [hpaint, Option.some_inj] at hlook
    rw [← hlook]
    exact hlt
  · rw [paint_strokes_of_notMem _ _ hnew] at hlook
    by_cases hold : q ∈ points
    · rw [Picture.erase_of_mem hold] at hlook
      contradiction
    · rw [Picture.erase_of_notMem hold] at hlook
      exact Nat.lt_add_right _ (halloc q ref hlook)

theorem Allocated.look_ne (halloc : Allocated p)
    (hbecomes : p.Becomes p' ((p.look.erase points).paint
      (strokes position p.heap.next shape.blocks)))
    {q : Vect2D} (hnew : q ∈ shape.cellsAt position) {ref : BlockRef}
    (hlook : p.look q = some ref) : p'.look q ≠ some ref := by
  intro hsame
  rw [hbecomes.look_eq] at hsame
  rcases paint_strokes_of_mem (p.look.erase points) p.heap.next hnew with
    ⟨ref', hpaint, -, -, hle, -⟩
  rw [hpaint, Option.some_inj] at hsame
  have hlt := halloc q ref hlook
  rw [← hsame] at hlt
  omega

end Painting

theorem Polyomino.notMem_oldCells {q : Vect2D} (hq : q ∉ shape.cells) :
    q ∉ shape.oldCells := by
  unfold Polyomino.oldCells
  split
  · exact hq
  · exact List.not_mem_nil

/-! ## Each operation -/

/-- The effect of an operation that paints `final` over what it erased of the
current piece. -/
theorem FieldInv.painted {op : FieldOp} {final : Polyomino} {position : Vect2D}
    {points : List Vect2D} (hinv : FieldInv f) (hboard : PieceBoard p shape)
    (hbecomes : f.p.Becomes p ((f.p.look.erase points).paint
      (strokes position f.p.heap.next final.blocks)))
    (hnext : p.heap.next = f.p.heap.next + final.blocks.length)
    (hcells : shape.cells = final.cellsAt position)
    (hpoints : ∀ q ∉ f.shape.cells, q ∉ points)
    (hcovers : ∀ q ref, Locked f q ref → q ∈ final.cellsAt position →
      Clobbers op f)
    (hcorner : Clobbers op f → ⟨0, 0⟩ ∈ final.cellsAt position) :
    Effect op f ⟨p, shape⟩ where
  inv := ⟨hboard, hinv.allocated.of_paint hbecomes hnext⟩
  keeps := by
    intro hnot q ref hlocked
    have hnew : q ∉ final.cellsAt position :=
      fun hmem => hnot (hcovers q ref hlocked hmem)
    constructor
    · rw [hbecomes.look_kept (hpoints q hlocked.2) hnew]
      exact hlocked.1
    · rw [hcells]
      exact hnew
  loses := fun hclobbers _ hlook =>
    hinv.allocated.look_ne hbecomes (hcorner hclobbers) hlook

/-- The collision test lets a piece onto a locked block in the corner only. -/
theorem Locked.eq_corner {q : Vect2D} {ref : BlockRef} {own : Prop}
    (hlocked : Locked f q ref) (hown : own → q ∈ f.shape.cells)
    (hpasses : q = ⟨0, 0⟩ ∨ f.p.look q = none ∨ own) : q = ⟨0, 0⟩ := by
  rcases hpasses with hcorner | hempty | howned
  · exact hcorner
  · rw [hlocked.1] at hempty
    contradiction
  · exact absurd (hown howned) hlocked.2

theorem FieldInv.moved {displacement : Vect2D} {moved : Bool}
    (hinv : FieldInv f)
    (hmove : movePolyno f.p f.shape displacement = some (moved, p, shape)) :
    Effect (.move displacement) f ⟨p, shape⟩ := by
  rcases hinv.board.move displacement with ⟨moved', p', shape', hmove', hboard, -⟩
  rw [hmove'] at hmove
  cases hmove
  rcases movePolyno_cases hinv.board.toBoard displacement with
    ⟨hfits, hrefused⟩ | ⟨hfits, p₁, haccepted, hbecomes, hnext⟩
  · rw [hrefused] at hmove'
    cases hmove'
    exact ⟨⟨hboard, hinv.allocated⟩, fun _ _ _ hlocked => hlocked,
      fun hclobbers => absurd hclobbers.2.1 hfits⟩
  · rw [haccepted] at hmove'
    cases hmove'
    refine hinv.painted hboard hbecomes hnext rfl
      (fun q hcell => Polyomino.notMem_oldCells hcell) ?_
      (fun hclobbers => hclobbers.2.2)
    intro q ref hlocked hmem
    have hcorner := hlocked.eq_corner (fun hown => hown.2.2) (hfits q hmem).2
    subst hcorner
    exact ⟨⟨ref, hlocked⟩, hfits, hmem⟩

theorem FieldInv.rotated {result : Int} (hinv : FieldInv f)
    (hrotate : rotate f.p f.shape = some (result, p, shape)) :
    Effect .rotate f ⟨p, shape⟩ := by
  have hplaced := hinv.board.placed_of_rotate hrotate
  rcases hinv.board.rotate hplaced with ⟨result', p', shape', hrotate', hboard, -⟩
  rw [hrotate'] at hrotate
  cases hrotate
  rcases rotate_cases hinv.board.toBoard hplaced.onGrid with
    ⟨hfits, p₁, hcase, hbecomes, hnext⟩ | ⟨hfits, p₁, hcase, hbecomes, hnext⟩
  · rw [hcase] at hrotate'
    cases hrotate'
    refine hinv.painted hboard hbecomes hnext rfl (fun _ hcell => hcell) ?_
      (fun hclobbers => absurd hclobbers.2.1 hfits)
    exact fun q ref hlocked hmem => absurd hmem hlocked.2
  · rw [hcase] at hrotate'
    cases hrotate'
    have hcount : f.shape.rotated.blocks.length = f.shape.blocks.length := by
      rw [Polyomino.rotated, rotatePolyomino_blocks, List.length_map]
    rw [← hcount] at hnext
    refine hinv.painted hboard hbecomes hnext rfl (fun _ hcell => hcell) ?_
      (fun hclobbers => hclobbers.2.2)
    intro q ref hlocked hmem
    have hcorner := hlocked.eq_corner id (hfits q hmem).2
    subst hcorner
    exact ⟨⟨ref, hlocked⟩, hfits, hmem⟩

theorem FieldInv.not_clobbers_down (hinv : FieldInv f) :
    ¬ Clobbers (.move ⟨0, 1⟩) f := by
  rintro ⟨-, hfits, hmem⟩
  rcases List.mem_map.mp hmem with ⟨b, hb, hcorner⟩
  rcases hinv.board.place with hunplaced | hplaced
  · rcases hinv.board.tetromino with ⟨n, c, htetro⟩
    refine htetro.not_fits ?_ true hfits
    rw [hunplaced]
    decide
  · have hrow := (hplaced.inBounds _ (List.mem_map_of_mem hb)).1
    have hy := congrArg Vect2D.y hcorner
    simp only [Vect2D.add_y] at hrow hy
    omega

theorem FieldInv.dropped (hinv : FieldInv f)
    (hdrop : dropPolyno f.p f.shape = some (p, shape)) :
    Effect .drop f ⟨p, shape⟩ := by
  rcases hinv.board.tetromino with ⟨n, c, htetro⟩
  rcases dropPolyno_rule
    (fun p shape => FieldInv ⟨p, shape⟩ ∧
      ∀ q ref, Locked f q ref → Locked ⟨p, shape⟩ q ref)
    (fun _ _ h => h.1.board.toBoard)
    (fun p₁ shape₁ p₂ shape₂ h hmove => by
      have heffect := h.1.moved hmove
      exact ⟨heffect.inv, fun q ref hlocked =>
        heffect.keeps h.1.not_clobbers_down q ref (h.2 q ref hlocked)⟩)
    htetro.ne_nil ⟨hinv, fun _ _ hlocked => hlocked⟩ with
    ⟨p', shape', hdrop', hkept, -⟩
  rw [hdrop'] at hdrop
  cases hdrop
  exact ⟨hkept.1, fun _ => hkept.2, fun hclobbers => hclobbers.2.elim⟩

theorem FieldInv.step {op : FieldOp} {u : Unit} (hinv : FieldInv f)
    (hstep : fieldStep op f = some (u, f')) : Effect op f f' := by
  cases op with
  | move displacement =>
      simp only [fieldStep, Option.bind_eq_bind, Option.bind_eq_some_iff,
        Option.some.injEq, Prod.mk.injEq, Prod.exists] at hstep
      rcases hstep with ⟨moved, p, shape, hmove, -, rfl⟩
      exact hinv.moved hmove
  | rotate =>
      simp only [fieldStep, Option.bind_eq_bind, Option.bind_eq_some_iff,
        Option.some.injEq, Prod.mk.injEq, Prod.exists] at hstep
      rcases hstep with ⟨result, p, shape, hrotate, -, rfl⟩
      exact hinv.rotated hrotate
  | drop =>
      simp only [fieldStep, Option.bind_eq_bind, Option.bind_eq_some_iff,
        Option.some.injEq, Prod.mk.injEq, Prod.exists] at hstep
      rcases hstep with ⟨p, shape, hdrop, -, rfl⟩
      exact hinv.dropped hdrop
  | next tetro =>
      simp only [fieldStep, Option.some.injEq, Prod.mk.injEq] at hstep
      rcases hstep with ⟨-, rfl⟩
      rcases template_isTetromino tetro with ⟨n, c, htetro⟩
      have hrect := hinv.board.rect
      refine ⟨⟨⟨⟨hrect, hinv.board.height, hinv.board.width,
        .inl (template_pos tetro)⟩, n, c, htetro⟩, hinv.allocated⟩, ?_,
        fun hclobbers => hclobbers.2.elim⟩
      rintro - q ref ⟨hlook, -⟩
      refine ⟨hlook, ?_⟩
      intro hmem
      rcases List.mem_map.mp hmem with ⟨b, hb, rfl⟩
      refine htetro.not_inBounds ?_ hb (hrect.inBounds_of_look hlook)
      rw [template_pos]
      decide
  | place =>
      simp only [fieldStep, placeShape_eq, Option.bind_eq_bind,
        Option.bind_eq_some_iff, Option.map_eq_some_iff, Option.some.injEq,
        Prod.mk.injEq, Prod.exists] at hstep
      rcases hstep with ⟨_, _, _, ⟨moved, p, shape, hmove, -, rfl, rfl⟩, -, rfl⟩
      have heffect := hinv.moved hmove
      have hiff : Clobbers .place f ↔ Clobbers (.move f.shape.toCorner) f := by
        simp only [Clobbers, Polyomino.toCorner_add_pos]
      exact ⟨heffect.inv, fun hnot => heffect.keeps (hiff.not.mp hnot),
        fun hclobbers => heffect.loses (hiff.mp hclobbers)⟩

/-! ## Sequences -/

abbrev FieldRun := Run FieldInv fieldStep

theorem fieldRun_inv (run : FieldRun) :
    ∀ k ≤ run.length, FieldInv (run.state k) :=
  run.invariant (fun _ hinv => hinv)
    (fun _ _ _ _ hinv hstep => (hinv.step hstep).inv)

/-- Whatever is locked at some point of the sequence is there ever after. -/
def Immutable (run : FieldRun) : Prop :=
  ∀ i j, i ≤ j → j ≤ run.length → ∀ q ref, Locked (run.state i) q ref →
    (run.state j).p.look q = some ref

/-- Locked blocks are immutable in exactly the sequences that never put a piece
on a locked block in the corner. -/
theorem immutable_iff (run : FieldRun) :
    Immutable run ↔
      ∀ k < run.length, ¬ Clobbers (run.input k) (run.state k) := by
  constructor
  · intro himmutable k hk hclobbers
    have hclobbers' := hclobbers
    rcases hclobbers' with ⟨⟨ref, hlocked⟩, -⟩
    have heffect := (fieldRun_inv run k (by omega)).step (run.next k hk)
    exact heffect.loses hclobbers ref hlocked.1
      (himmutable k (k + 1) (by omega) hk _ ref hlocked)
  · intro hnone i j hij hj q ref hlocked
    have hkept := run.invariant_from (fun f => Locked f q ref) hlocked
      (fun k _ hk hlocked => ((fieldRun_inv run k (by omega)).step
        (run.next k hk)).keeps (hnone k hk) q ref hlocked)
    exact (hkept j hij hj).1

def newField (tetro : TetroShapes) : Field :=
  ⟨(initPlayfield Engine.fresh.init 20 10).1, template tetro⟩

theorem newField_inv (tetro : TetroShapes) : FieldInv (newField tetro) := by
  constructor
  · have hrect : (newField tetro).p.Rect := Rows.isRect_replicate 20 10 none
    exact ⟨⟨hrect, (by decide : (1 : Int) ≤ 20), (by decide : (1 : Int) ≤ 10),
      .inl (template_pos tetro)⟩,
      template_isTetromino tetro⟩
  · intro q ref hlook
    have hcell := hlook
    rw [look, Option.join_eq_some_iff] at hcell
    have hempty := Rows.get?_replicate hcell
    contradiction

/-- An I that stands in the first column is locked, and the Z that is placed next
takes its topmost cell. -/
theorem immutable_fails : ¬ ∀ run : FieldRun, Immutable run := by
  intro himmutable
  have htrace : (trace fieldStep
      [.place, .rotate, .move ⟨-2, 0⟩, .next .z, .place] (newField .i)).bind
        (fun visited => visited[3]?.bind fun before =>
          visited[4]?.map fun after => (visited.length,
            before.2.p.look ⟨0, 0⟩, decide (⟨0, 0⟩ ∈ before.2.shape.cells),
            after.2.p.look ⟨0, 0⟩)) =
      some (5, some ⟨8, ⟨2, 0⟩, .cyan⟩, false, some ⟨12, ⟨0, 0⟩, .red⟩) := by
    decide +kernel
  simp only [Option.bind_eq_some_iff, Option.map_eq_some_iff, Prod.mk.injEq,
    Prod.exists, decide_eq_false_iff_not] at htrace
  rcases htrace with ⟨visited, hvisited, _, before, hbefore, _, after, hafter,
    hlength, hlook, hcell, hlook'⟩
  rcases exists_run_of_trace FieldInv (newField_inv .i) hvisited with
    ⟨run, hrun, -, hstate⟩
  have hkept := himmutable run 4 5 (by omega) (by omega) ⟨0, 0⟩
  rw [(hstate 3 _ _ hbefore).2, (hstate 4 _ _ hafter).2] at hkept
  rw [hkept _ ⟨hlook, hcell⟩] at hlook'
  contradiction

end Grzetris
