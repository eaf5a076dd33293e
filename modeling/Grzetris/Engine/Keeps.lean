import Grzetris.Engine.Lines
import Grzetris.Engine.Tetrominoes
import Grzetris.Foundation.Runs

/-!
# What the engine keeps

The engine changes a playfield in three ways: it deletes the block of a cell, it
draws a block into a cell, and it copies a row down.  What these keep is kept by
every operation.
-/

namespace Grzetris

open Foundation Playfield

/-- `I` is kept by the three changes; the blocks that are drawn have colours in
`P`. -/
structure EngineKeeps (P : Colour → Prop) (I : Playfield → Prop) : Prop where
  delete : ∀ {p p' : Playfield} {pos : Vect2D}, I p →
    deleteBlock p pos = some p' → I p'
  blot : ∀ {p p' : Playfield} {position : Vect2D} {block : Block}, I p →
    P block.c → blot position p block = some p' → I p'
  shift : ∀ {p p' : Playfield} {y : Nat}, I p → shiftRow p y = some p' → I p'

/-- The blocks of the shape have colours in `P`. -/
def Polyomino.Coloured (P : Colour → Prop) (shape : Polyomino) : Prop :=
  ∀ b ∈ shape.blocks, P b.c

variable {P : Colour → Prop} {I : Playfield → Prop} {p p' : Playfield}
  {shape shape' : Polyomino} {position : Vect2D}

theorem Polyomino.Coloured.rotate (hshape : shape.Coloured P)
    (direction : RotationDirection) (amount : Int) :
    (rotatePolyomino (copyPolyomino shape) direction amount).Coloured P := by
  intro b hb
  simp only [rotatePolyomino, copyPolyomino, List.map_map, List.mem_map,
    Function.comp_apply] at hb
  obtain ⟨b₀, hb₀, rfl⟩ := hb
  exact hshape b₀ hb₀

namespace EngineKeeps

variable (h : EngineKeeps P I)
include h

/-! ## Pieces -/

theorem deletePolynoBlocks (hp : I p)
    (hdelete : deletePolynoBlocks p shape = some p') : I p' := by
  refine foldlM_keeps (fun p₁ block p₂ hp₁ hstep => ?_) hp hdelete
  split at hstep
  · exact h.delete hp₁ hstep
  · cases hstep
    exact hp₁

theorem blots (hp : I p) {blocks : List Block}
    (hblocks : ∀ b ∈ blocks, P b.c)
    (hpaint : blocks.foldlM (Grzetris.blot position) p = some p') : I p' := by
  induction blocks generalizing p with
  | nil =>
      cases hpaint
      exact hp
  | cons block blocks ih =>
      rw [List.foldlM_cons, Option.bind_eq_bind, Option.bind_eq_some_iff]
        at hpaint
      obtain ⟨p₁, hblot, hrest⟩ := hpaint
      exact ih (h.blot hp (hblocks block List.mem_cons_self) hblot)
        (fun b hb => hblocks b (List.mem_cons_of_mem _ hb)) hrest

theorem setPolynoPos (hp : I p) (hshape : shape.Coloured P)
    (hset : setPolynoPos p shape position = some (p', shape')) :
    I p' ∧ shape'.Coloured P := by
  simp only [Grzetris.setPolynoPos, Option.bind_eq_bind,
    Option.bind_eq_some_iff, Option.some.injEq, Prod.mk.injEq] at hset
  obtain ⟨p₁, hdelete, p₂, hpaint, rfl, rfl⟩ := hset
  exact ⟨h.blots (h.deletePolynoBlocks hp hdelete) hshape hpaint, hshape⟩

theorem move (hp : I p) (hshape : shape.Coloured P) {displacement : Vect2D}
    {moved : Bool}
    (hmove : movePolyno p shape displacement = some (moved, p', shape')) :
    I p' ∧ shape'.Coloured P := by
  simp only [movePolyno, Option.bind_eq_bind, Option.bind_eq_some_iff]
    at hmove
  obtain ⟨fits, -, hmove⟩ := hmove
  cases fits with
  | false =>
      cases hmove
      exact ⟨hp, hshape⟩
  | true =>
      simp only [if_true, Option.bind_eq_some_iff, Option.some.injEq,
        Prod.mk.injEq, Prod.exists] at hmove
      obtain ⟨p₁, shape₁, hset, -, rfl, rfl⟩ := hmove
      exact h.setPolynoPos hp hshape hset

theorem dropLoop (hp : I p) (hshape : shape.Coloured P) {fuel : Nat}
    (hdrop : dropLoop fuel p shape = some (p', shape')) :
    I p' ∧ shape'.Coloured P := by
  induction fuel generalizing p shape with
  | zero => contradiction
  | succ fuel ih =>
      simp only [Grzetris.dropLoop, Option.bind_eq_bind,
        Option.bind_eq_some_iff, Prod.exists] at hdrop
      obtain ⟨moved, p₁, shape₁, hmove, hrest⟩ := hdrop
      obtain ⟨hp₁, hshape₁⟩ := h.move hp hshape hmove
      cases moved with
      | false =>
          cases hrest
          exact ⟨hp₁, hshape₁⟩
      | true => exact ih hp₁ hshape₁ hrest

theorem rotate (hp : I p) (hshape : shape.Coloured P) {result : Int}
    (hrotate : rotate p shape = some (result, p', shape')) :
    I p' ∧ shape'.Coloured P := by
  simp only [Grzetris.rotate, Option.bind_eq_bind, Option.bind_eq_some_iff]
    at hrotate
  obtain ⟨p₁, hdelete, fits, -, hrotate⟩ := hrotate
  have hp₁ := h.deletePolynoBlocks hp hdelete
  cases fits with
  | false =>
      simp only [Bool.false_eq_true, if_false, Option.bind_eq_some_iff,
        Option.some.injEq, Prod.mk.injEq, Prod.exists] at hrotate
      obtain ⟨p₂, shape₂, hset, -, rfl, rfl⟩ := hrotate
      exact h.setPolynoPos hp₁ hshape hset
  | true =>
      simp only [if_true, Option.bind_eq_some_iff, Option.some.injEq,
        Prod.mk.injEq, Prod.exists] at hrotate
      obtain ⟨p₂, shape₂, hset, -, rfl, rfl⟩ := hrotate
      exact h.setPolynoPos hp₁ (hshape.rotate _ _) hset

/-! ## Rows -/

theorem clearRow (hp : I p) {index : Nat}
    (hclear : clearRow p index = some p') : I p' := by
  induction index generalizing p with
  | zero =>
      cases hclear
      exact hp
  | succ y ih =>
      simp only [Grzetris.clearRow, Option.bind_eq_bind,
        Option.bind_eq_some_iff] at hclear
      obtain ⟨p₁, hshift, hrest⟩ := hclear
      exact ih (h.shift hp hshift) hrest

theorem clearFilledRows (hp : I p) {rows : List Bool} {numCleared : Int}
    (hclear : clearFilledRows p rows = some (numCleared, p')) : I p' := by
  refine foldlM_keeps (I := fun state : Int × Playfield => I state.2)
    (fun state i state' hstate hstep => ?_) hp hclear
  simp only [Option.bind_eq_bind, Option.bind_eq_some_iff] at hstep
  obtain ⟨flag, -, hstep⟩ := hstep
  cases flag with
  | false =>
      cases hstep
      exact hstate
  | true =>
      simp only [if_true, Option.bind_eq_some_iff, Option.some.injEq] at hstep
      obtain ⟨p₁, hrow, rfl⟩ := hstep
      exact h.clearRow hstate hrow

end EngineKeeps

/-! ## Colours -/

def Playfield.Coloured (P : Colour → Prop) (p : Playfield) : Prop :=
  ∀ pos ref, p.look pos = some ref → P ref.block.c

theorem Playfield.Coloured.setCell? (hp : p.Coloured P) {pos : Vect2D}
    {content : Option BlockRef}
    (hcontent : ∀ ref, content = some ref → P ref.block.c)
    (hset : p.setCell? pos content = some p') : p'.Coloured P := by
  simp only [Playfield.setCell?, Option.bind_eq_bind, Option.bind_eq_some_iff,
    Option.some.injEq] at hset
  obtain ⟨blocks, hset, rfl⟩ := hset
  intro q ref hlook
  rw [look, cell?, Rows.get?_set? hset] at hlook
  split_ifs at hlook with hq
  · exact hcontent ref hlook
  · exact hp q ref hlook

theorem Playfield.Coloured.deleteBlock (hp : p.Coloured P) {pos : Vect2D}
    (hdelete : deleteBlock p pos = some p') : p'.Coloured P := by
  simp only [Grzetris.deleteBlock, Option.bind_eq_bind,
    Option.bind_eq_some_iff] at hdelete
  obtain ⟨content, -, hdelete⟩ := hdelete
  cases content with
  | none =>
      cases hdelete
      exact hp
  | some ref =>
      have hfree : (p.free ref).Coloured P := hp
      exact hfree.setCell? (by simp) hdelete

theorem Playfield.Coloured.blot (hp : p.Coloured P) {block : Block}
    (hblock : P block.c) (hblot : blot position p block = some p') :
    p'.Coloured P := by
  simp only [Grzetris.blot, Option.bind_eq_bind, Option.bind_eq_some_iff]
    at hblot
  obtain ⟨content, -, hrest⟩ := hblot
  cases content with
  | none =>
      have halloc : p.alloc.Coloured P := hp
      exact halloc.setCell? (by simp [hblock]) hrest
  | some ref =>
      obtain ⟨p₁, hfirst, hset⟩ := Option.bind_eq_some_iff.mp hrest
      have hp₁ := hp.deleteBlock hfirst
      have halloc : p₁.alloc.Coloured P := hp₁
      exact halloc.setCell? (by simp [hblock]) hset

theorem Playfield.Coloured.shiftRow (hp : p.Coloured P) {y : Nat}
    (hshift : shiftRow p y = some p') : p'.Coloured P := by
  simp only [Grzetris.shiftRow, Option.bind_eq_bind, Option.bind_eq_some_iff]
    at hshift
  obtain ⟨p₁, hdelete, blocks, hcopy, hblank⟩ := hshift
  have hp₁ : p₁.Coloured P :=
    foldlM_keeps (fun _ _ _ hq hstep => hq.deleteBlock hstep) hp hdelete
  have hcopied : ({ p₁ with blocks := blocks } : Playfield).Coloured P := by
    intro pos ref hlook
    rw [look, cell?, Rows.get?_copyRow? hcopy] at hlook
    split_ifs at hlook with hrow
    · exact hp₁ ⟨pos.x, y⟩ ref hlook
    · exact hp₁ pos ref hlook
  exact foldlM_keeps (fun _ _ _ hq hstep => hq.setCell? (by simp) hstep)
    hcopied hblank

end Grzetris
