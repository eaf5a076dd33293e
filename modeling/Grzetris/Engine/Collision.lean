import Grzetris.Engine.Moves

/-!
# How exact the collision check is

`Fits` is what `polynoMoveCheck` tests and `HasRoom` what it is there to test.
They differ in the corner cell, which the value-initialised entries of
`ignoredBlocks` exempt from the occupancy test.
-/

namespace Grzetris

open Foundation Playfield

variable {p : Playfield} {shape : Polyomino}

/-- Nothing but the shape itself, where its own cells are excused, stands in
the way at a cell. -/
def Vacant (p : Playfield) (shape : Polyomino) (ignoreCurrentPos : Bool)
    (q : Vect2D) : Prop :=
  p.look q = none ∨
    ignoreCurrentPos = true ∧ shape.OnGrid ∧ q ∈ shape.cells

instance (p : Playfield) (shape : Polyomino) (ignoreCurrentPos : Bool)
    (q : Vect2D) : Decidable (Vacant p shape ignoreCurrentPos q) :=
  inferInstanceAs (Decidable (_ ∨ _))

def HasRoom (p : Playfield) (shape : Polyomino) (position : Vect2D)
    (ignoreCurrentPos : Bool) : Prop :=
  ∀ b ∈ shape.blocks, p.InBounds (b.pos + position) ∧
    Vacant p shape ignoreCurrentPos (b.pos + position)

instance (p : Playfield) (shape : Polyomino) (position : Vect2D)
    (ignoreCurrentPos : Bool) :
    Decidable (HasRoom p shape position ignoreCurrentPos) :=
  inferInstanceAs (Decidable (∀ b ∈ shape.blocks, _ ∧ _))

/-- The corner cell is the only one of the target cells that is taken. -/
def OnlyCornerTaken (p : Playfield) (shape : Polyomino) (position : Vect2D)
    (ignoreCurrentPos : Bool) : Prop :=
  (∃ b ∈ shape.blocks, b.pos + position = ⟨0, 0⟩) ∧
    ¬ Vacant p shape ignoreCurrentPos ⟨0, 0⟩ ∧
    ∀ b ∈ shape.blocks, b.pos + position ≠ ⟨0, 0⟩ →
      p.InBounds (b.pos + position) ∧
        Vacant p shape ignoreCurrentPos (b.pos + position)

instance (p : Playfield) (shape : Polyomino) (position : Vect2D)
    (ignoreCurrentPos : Bool) :
    Decidable (OnlyCornerTaken p shape position ignoreCurrentPos) :=
  inferInstanceAs (Decidable (_ ∧ _ ∧ _))

section

variable {position : Vect2D} {ignoreCurrentPos : Bool}

theorem fits_iff : Fits p shape position ignoreCurrentPos ↔
    ∀ b ∈ shape.blocks, p.InBounds (b.pos + position) ∧
      (b.pos + position = ⟨0, 0⟩ ∨
        Vacant p shape ignoreCurrentPos (b.pos + position)) := by
  simp only [Fits, Polyomino.cellsAt, List.forall_mem_map, Vacant]

theorem HasRoom.fits (hroom : HasRoom p shape position ignoreCurrentPos) :
    Fits p shape position ignoreCurrentPos :=
  fits_iff.mpr fun b hb => ⟨(hroom b hb).1, .inr (hroom b hb).2⟩

/-- Away from the corner the check is exact. -/
theorem fits_iff_hasRoom
    (hcorner : ∀ b ∈ shape.blocks, b.pos + position ≠ ⟨0, 0⟩) :
    Fits p shape position ignoreCurrentPos ↔
      HasRoom p shape position ignoreCurrentPos := by
  refine ⟨fun hfits b hb => ?_, HasRoom.fits⟩
  obtain ⟨hin, hvacant⟩ := fits_iff.mp hfits b hb
  exact ⟨hin, hvacant.resolve_left (hcorner b hb)⟩

theorem fits_of_onlyCornerTaken (hh : 1 ≤ p.h) (hw : 1 ≤ p.w)
    (htaken : OnlyCornerTaken p shape position ignoreCurrentPos) :
    Fits p shape position ignoreCurrentPos := by
  refine fits_iff.mpr fun b hb => ?_
  by_cases hcorner : b.pos + position = ⟨0, 0⟩
  · refine ⟨?_, .inl hcorner⟩
    rw [hcorner, inBounds_iff]
    simp only
    omega
  · obtain ⟨hin, hvacant⟩ := htaken.2.2 b hb hcorner
    exact ⟨hin, .inr hvacant⟩

theorem fits_iff_hasRoom_iff (hh : 1 ≤ p.h) (hw : 1 ≤ p.w) :
    (Fits p shape position ignoreCurrentPos ↔
        HasRoom p shape position ignoreCurrentPos) ↔
      ¬ OnlyCornerTaken p shape position ignoreCurrentPos := by
  constructor
  · intro hexact htaken
    have hroom := hexact.mp (fits_of_onlyCornerTaken hh hw htaken)
    obtain ⟨⟨b, hb, hcorner⟩, hvacant, -⟩ := htaken
    apply hvacant
    rw [← hcorner]
    exact (hroom b hb).2
  · intro htaken
    refine ⟨fun hfits => ?_, HasRoom.fits⟩
    have hothers : ∀ b ∈ shape.blocks, b.pos + position ≠ ⟨0, 0⟩ →
        p.InBounds (b.pos + position) ∧
          Vacant p shape ignoreCurrentPos (b.pos + position) := by
      intro b hb hne
      obtain ⟨hin, hvacant⟩ := fits_iff.mp hfits b hb
      exact ⟨hin, hvacant.resolve_left hne⟩
    intro b hb
    by_cases hcorner : b.pos + position = ⟨0, 0⟩
    · refine ⟨(fits_iff.mp hfits b hb).1, ?_⟩
      by_contra hvacant
      rw [hcorner] at hvacant
      exact htaken ⟨⟨b, hb, hcorner⟩, hvacant, hothers⟩
    · exact hothers b hb hcorner

end

/-- The shape is at the sentinel or inside the grid. -/
def Polyomino.Stands (p : Playfield) (shape : Polyomino) : Prop :=
  shape.Unplaced ∨ -32 < shape.pos.x ∧ -32 < shape.pos.y ∧
    ∀ q ∈ shape.cells, p.InBounds q

instance (p : Playfield) (shape : Polyomino) : Decidable (shape.Stands p) :=
  inferInstanceAs (Decidable (_ ∨ _ ∧ _ ∧ _))

theorem polynoMoveCheck_exact_iff (hr : p.Rect) (hh : 1 ≤ p.h) (hw : 1 ≤ p.w)
    (hstands : shape.Stands p) (position : Vect2D) (ignoreCurrentPos : Bool) :
    ∃ answer, polynoMoveCheck p shape position ignoreCurrentPos =
        some answer ∧
      ((answer = true ↔ HasRoom p shape position ignoreCurrentPos) ↔
        ¬ OnlyCornerTaken p shape position ignoreCurrentPos) := by
  have hcells : shape.OnGrid → ∀ q ∈ shape.cells, p.InBounds q := by
    intro hgrid
    rcases hstands with hunplaced | ⟨-, -, hin⟩
    · exact absurd hgrid hunplaced.not_onGrid
    · exact hin
  refine ⟨_, polynoMoveCheck_eq shape position ignoreCurrentPos hr hh hw
    (fun _ => hcells), ?_⟩
  rw [decide_eq_true_iff]
  exact fits_iff_hasRoom_iff hh hw

/-- A block locked in the corner, and an O at the sentinel. -/
def cornerField : Playfield where
  h := 2
  w := 2
  blocks := [[some ⟨0, ⟨⟨0, 0⟩, .red⟩⟩, none], [none, none]]
  heap := { next := 1, freed := [] }

def squareShape : Polyomino :=
  { initPolyomino ⟨-32, -32⟩ 2 2 with
    blocks := [⟨⟨0, 0⟩, .yellow⟩, ⟨⟨1, 0⟩, .yellow⟩, ⟨⟨0, 1⟩, .yellow⟩,
      ⟨⟨1, 1⟩, .yellow⟩] }

theorem polynoMoveCheck_exact_iff_corner :
    ∃ answer, polynoMoveCheck cornerField squareShape ⟨0, 0⟩ true =
        some answer ∧
      ¬ (answer = true ↔ HasRoom cornerField squareShape ⟨0, 0⟩ true) := by
  have hr : cornerField.Rect := ⟨rfl, by decide⟩
  have hstands : squareShape.Stands cornerField := by decide
  obtain ⟨answer, hcheck, hexact⟩ := polynoMoveCheck_exact_iff hr (by decide)
    (by decide) hstands ⟨0, 0⟩ true
  exact ⟨answer, hcheck, fun h => hexact.mp h (by decide)⟩

theorem polynoMoveCheck_inexact :
    polynoMoveCheck cornerField squareShape ⟨0, 0⟩ true = some true ∧
      ¬ HasRoom cornerField squareShape ⟨0, 0⟩ true := by
  decide

end Grzetris
