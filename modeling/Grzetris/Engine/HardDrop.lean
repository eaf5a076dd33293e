import Grzetris.Engine.Collision
import Grzetris.Engine.Frames
import Mathlib.Order.Bounds.Defs

/-!
# How far a piece drops

`Fallen` relates the grid a drop started from to the grid some rows later; its
step lemma carries it through the loop of `dropPolyno`.
-/

namespace Grzetris

open Foundation Playfield

variable {p p' p₁ p₂ : Playfield} {shape shape' shape₁ : Polyomino}

/-- Where the shape stands after falling `j` rows. -/
def Polyomino.below (shape : Polyomino) (j : Nat) : Vect2D :=
  ⟨0, j⟩ + shape.pos

@[simp] theorem Polyomino.below_zero (shape : Polyomino) :
    shape.below 0 = shape.pos := by
  ext <;> simp [Polyomino.below]

theorem Polyomino.below_succ (shape : Polyomino) (j : Nat) :
    shape.below (j + 1) = ⟨0, 1⟩ + shape.below j := by
  ext
  · simp [Polyomino.below]
  · simp only [Polyomino.below, Vect2D.add_y]
    omega

/-- Nothing but the piece itself stands in the way `j` rows below it. -/
def RoomBelow (p : Playfield) (shape : Polyomino) (j : Nat) : Prop :=
  HasRoom p shape (shape.below j) true

/-- `j` accepted steps downwards. -/
def falls : Nat → Playfield → Polyomino → Option (Playfield × Polyomino)
  | 0, p, shape => some (p, shape)
  | j + 1, p, shape => do
      let (moved, p, shape) ← movePolyno p shape ⟨0, 1⟩
      if moved then falls j p shape else none

theorem falls_zero :
    falls 0 p shape = some (p', shape') ↔ p = p' ∧ shape = shape' := by
  simp [falls]

theorem falls_succ {j : Nat} : falls (j + 1) p shape = some (p', shape') ↔
    ∃ p₁ shape₁, movePolyno p shape ⟨0, 1⟩ = some (true, p₁, shape₁) ∧
      falls j p₁ shape₁ = some (p', shape') := by
  simp only [falls, Option.bind_eq_bind, Option.bind_eq_some_iff, Prod.exists]
  constructor
  · rintro ⟨moved, p₁, shape₁, hmove, hrest⟩
    cases moved with
    | false => simp at hrest
    | true => exact ⟨p₁, shape₁, hmove, hrest⟩
  · rintro ⟨p₁, shape₁, hmove, hrest⟩
    exact ⟨true, p₁, shape₁, hmove, hrest⟩

theorem falls_snoc {j : Nat} (hfalls : falls j p shape = some (p₁, shape₁))
    (hmove : movePolyno p₁ shape₁ ⟨0, 1⟩ = some (true, p', shape')) :
    falls (j + 1) p shape = some (p', shape') := by
  induction j generalizing p shape with
  | zero =>
      obtain ⟨rfl, rfl⟩ := falls_zero.mp hfalls
      exact falls_succ.mpr ⟨p', shape', hmove, rfl⟩
  | succ j ih =>
      obtain ⟨p₀, shape₀, hfirst, hrest⟩ := falls_succ.mp hfalls
      exact falls_succ.mpr ⟨p₀, shape₀, hfirst, ih hrest⟩

/-- The grid after a fall of `j` rows from `p`. -/
structure Fallen (p : Playfield) (shape : Polyomino) (j : Nat)
    (p₁ : Playfield) (shape₁ : Polyomino) : Prop where
  board : Board p₁ shape₁
  placed : Placed p₁ shape₁
  above : -32 < shape₁.pos.y
  shape_eq : shape₁ = { shape with pos := shape.below j }
  moved : MovedTo p p₁ shape shape₁
  room : ∀ i ≤ j, RoomBelow p shape i
  falls : falls j p shape = some (p₁, shape₁)

theorem Fallen.start (hr : p.Rect) (hplaced : Placed p shape)
    (habove : -32 < shape.pos.y) (hne : shape.blocks ≠ []) :
    Fallen p shape 0 p shape where
  board := hplaced.board hr hne
  placed := hplaced
  above := habove
  shape_eq := by rw [Polyomino.below_zero]
  moved :=
    { rect := hr, h_eq := rfl, w_eq := rfl, inBounds := hplaced.inBounds
      drawn := hplaced.drawn
      vacated := fun _ hold hnew => absurd hold hnew
      kept := fun _ _ _ => rfl }
  room := by
    intro i hi b hb
    have hzero : i = 0 := by omega
    subst hzero
    have hcell : b.pos + shape.pos ∈ shape.cells := List.mem_map_of_mem hb
    rw [Polyomino.below_zero]
    exact ⟨hplaced.inBounds _ hcell, .inr ⟨rfl, hplaced.onGrid, hcell⟩⟩
  falls := rfl

/-- A cell that the fallen piece covers was empty or its own before. -/
theorem Fallen.was_vacant {j : Nat} (hfallen : Fallen p shape j p₁ shape₁)
    {q : Vect2D} (hq : q ∈ shape₁.cells) (hold : q ∉ shape.cells) :
    p.look q = none := by
  have hshape := hfallen.shape_eq
  subst hshape
  obtain ⟨b, hb, rfl⟩ := List.mem_map.mp hq
  rcases (hfallen.room j (Nat.le_refl j) b hb).2 with hvacant | ⟨-, -, hown⟩
  · exact hvacant
  · exact absurd hown hold

/-- Whether there is room somewhere is the same question before and after the
fall. -/
theorem Fallen.vacant_iff {j : Nat} (hfallen : Fallen p shape j p₁ shape₁)
    (hgrid : shape.OnGrid) (q : Vect2D) :
    Vacant p₁ shape₁ true q ↔ Vacant p shape true q := by
  have hgrid₁ := hfallen.placed.onGrid
  simp only [Vacant, hgrid, hgrid₁, true_and]
  by_cases hold : q ∈ shape.cells <;> by_cases hnew : q ∈ shape₁.cells
  · simp [hold, hnew]
  · simp [hold, hnew, hfallen.moved.vacated q hold hnew]
  · simp [hold, hnew, hfallen.was_vacant hnew hold]
  · simp [hold, hnew, hfallen.moved.kept q hold hnew]

/-- A step downwards never reaches the corner cell, so there the check is
exact. -/
theorem Placed.below_ne_corner (hplaced : Placed p shape) {b : Block}
    (hb : b ∈ shape.blocks) : b.pos + (⟨0, 1⟩ + shape.pos) ≠ ⟨0, 0⟩ := by
  have hin := hplaced.inBounds _ (List.mem_map_of_mem hb)
  rw [inBounds_iff] at hin
  intro hcorner
  have hy := congrArg Vect2D.y hcorner
  simp only [Vect2D.add_y] at hin hy
  omega

theorem Fallen.fits_iff {j : Nat} (hfallen : Fallen p shape j p₁ shape₁)
    (hgrid : shape.OnGrid) :
    Fits p₁ shape₁ (⟨0, 1⟩ + shape₁.pos) true ↔ RoomBelow p shape (j + 1) := by
  rw [fits_iff_hasRoom fun b hb => hfallen.placed.below_ne_corner hb]
  have hpos : ⟨0, 1⟩ + shape₁.pos = shape.below (j + 1) := by
    rw [hfallen.shape_eq, Polyomino.below_succ]
  have hblocks : shape₁.blocks = shape.blocks := by rw [hfallen.shape_eq]
  unfold RoomBelow HasRoom
  rw [hpos, hblocks]
  refine forall₂_congr fun b _ => ?_
  rw [hfallen.vacant_iff hgrid, inBounds_iff, inBounds_iff,
    hfallen.moved.h_eq, hfallen.moved.w_eq]

theorem MovedTo.trans (hfirst : MovedTo p p₁ shape shape₁)
    (hsecond : MovedTo p₁ p₂ shape₁ shape')
    (hvacant : ∀ q ∈ shape₁.cells, q ∉ shape.cells → p.look q = none) :
    MovedTo p p₂ shape shape' where
  rect := hsecond.rect
  h_eq := hsecond.h_eq.trans hfirst.h_eq
  w_eq := hsecond.w_eq.trans hfirst.w_eq
  inBounds := hsecond.inBounds
  drawn := hsecond.drawn
  vacated := by
    intro q hold hnew
    by_cases hmid : q ∈ shape₁.cells
    · exact hsecond.vacated q hmid hnew
    · rw [hsecond.kept q hmid hnew, hfirst.vacated q hold hmid]
  kept := by
    intro q hold hnew
    by_cases hmid : q ∈ shape₁.cells
    · rw [hsecond.vacated q hmid hnew, hvacant q hmid hold]
    · rw [hsecond.kept q hmid hnew, hfirst.kept q hold hmid]

theorem Fallen.step {j : Nat} (hfallen : Fallen p shape j p₁ shape₁)
    (hgrid : shape.OnGrid)
    (hmove : movePolyno p₁ shape₁ ⟨0, 1⟩ = some (true, p', shape')) :
    Fallen p shape (j + 1) p' shape' := by
  have hfalls := falls_snoc hfallen.falls hmove
  rcases movePolyno_cases hfallen.board ⟨0, 1⟩ with
    ⟨-, hrefused⟩ | ⟨hfits, p₂, haccepted, hbecomes, -⟩
  · simp [hrefused] at hmove
  · rw [haccepted] at hmove
    simp only [Option.some.injEq, Prod.mk.injEq, true_and] at hmove
    obtain ⟨rfl, rfl⟩ := hmove
    have hnew : ∀ q ∈ shape₁.cellsAt (⟨0, 1⟩ + shape₁.pos), p₁.InBounds q :=
      fun q hq => (hfits q hq).1
    have habove : -32 < (⟨0, 1⟩ + shape₁.pos : Vect2D).y := by
      have := hfallen.above
      simp only [Vect2D.add_y]
      omega
    have hplaced : Placed p₂ { shape₁ with pos := ⟨0, 1⟩ + shape₁.pos } :=
      Placed.of_becomes (by simpa using hfallen.placed.x_ne) (by omega) hnew
        hfallen.placed.blocks_distinct hbecomes
    exact
      { board := ⟨hbecomes.rect, by rw [hbecomes.h_eq]; exact hfallen.board.height,
          by rw [hbecomes.w_eq]; exact hfallen.board.width, .inr hplaced⟩
        placed := hplaced
        above := habove
        shape_eq := by rw [Polyomino.below_succ, hfallen.shape_eq]
        moved := hfallen.moved.trans
          (.of_placed hfallen.placed hnew hbecomes) fun q => hfallen.was_vacant
        room := by
          intro i hi
          rcases Nat.lt_or_eq_of_le hi with hlt | rfl
          · exact hfallen.room i (by omega)
          · exact (hfallen.fits_iff hgrid).mp hfits
        falls := hfalls }

theorem dropPolyno_falls (hr : p.Rect) (hplaced : Placed p shape)
    (habove : -32 < shape.pos.y) (hne : shape.blocks ≠ []) :
    ∃ k p' shape', dropPolyno p shape = some (p', shape') ∧
      Fallen p shape k p' shape' ∧
      movePolyno p' shape' ⟨0, 1⟩ = some (false, p', shape') ∧
      IsGreatest {m : Nat | ∀ j ≤ m, RoomBelow p shape j} k := by
  obtain ⟨p', shape', hdrop, ⟨k, hfallen⟩, hend⟩ := dropPolyno_rule
    (fun p₁ shape₁ => ∃ j, Fallen p shape j p₁ shape₁)
    (fun _ _ ⟨_, h⟩ => h.board)
    (fun _ _ _ _ ⟨j, h⟩ hmove => ⟨j + 1, h.step hplaced.onGrid hmove⟩) hne
    ⟨0, .start hr hplaced habove hne⟩
  refine ⟨k, p', shape', hdrop, hfallen, hend, hfallen.room, ?_⟩
  intro m hm
  by_contra hlt
  have hroom := hm (k + 1) (by omega)
  have hfits := (hfallen.fits_iff hplaced.onGrid).mpr hroom
  obtain ⟨p₂, haccepted, -⟩ := movePolyno_accepted hfallen.board hfits
  rw [haccepted] at hend
  simp at hend

end Grzetris
