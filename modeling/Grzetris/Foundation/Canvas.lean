import Mathlib.Data.List.Basic
import Mathlib.Logic.Function.Basic

/-!
# Pictures

A picture says which value, if any, is drawn at each point.  Erasing a list of
points and painting a list of point-value pairs are the two changes a picture
can undergo; painting proceeds from left to right, so a later pair covers an
earlier one at the same point.
-/

namespace Foundation

abbrev Picture (κ α : Type*) := κ → Option α

namespace Picture

variable {κ α : Type*} [DecidableEq κ]

def erase (picture : Picture κ α) (points : List κ) : Picture κ α :=
  fun point => if point ∈ points then none else picture point

def paint : Picture κ α → List (κ × α) → Picture κ α
  | picture, [] => picture
  | picture, (point, value) :: strokes =>
      paint (Function.update picture point (some value)) strokes

theorem erase_of_mem {picture : Picture κ α} {points : List κ} {point : κ}
    (hmem : point ∈ points) : picture.erase points point = none := by
  simp [erase, hmem]

theorem erase_of_notMem {picture : Picture κ α} {points : List κ} {point : κ}
    (hmem : point ∉ points) : picture.erase points point = picture point := by
  simp [erase, hmem]

@[simp] theorem erase_nil (picture : Picture κ α) : picture.erase [] = picture := by
  funext point
  simp [erase]

theorem erase_cons (picture : Picture κ α) (point : κ) (points : List κ) :
    picture.erase (point :: points) =
      erase (Function.update picture point none) points := by
  funext other
  by_cases hmem : other ∈ points
  · simp [erase, hmem]
  · by_cases heq : other = point <;> simp [erase, hmem, heq]

theorem erase_eq_self {picture : Picture κ α} {points : List κ}
    (hblank : ∀ point ∈ points, picture point = none) :
    picture.erase points = picture := by
  funext point
  by_cases hmem : point ∈ points
  · rw [erase_of_mem hmem, hblank point hmem]
  · exact erase_of_notMem hmem

theorem paint_of_notMem (picture : Picture κ α) (strokes : List (κ × α))
    {point : κ} (hmem : point ∉ strokes.map Prod.fst) :
    picture.paint strokes point = picture point := by
  induction strokes generalizing picture with
  | nil => rfl
  | cons stroke strokes ih =>
      simp only [List.map_cons, List.mem_cons, not_or] at hmem
      rw [paint, ih _ hmem.2, Function.update_of_ne hmem.1]

theorem paint_of_mem (picture : Picture κ α) (strokes : List (κ × α))
    {point : κ} (hmem : point ∈ strokes.map Prod.fst) :
    ∃ value, (point, value) ∈ strokes ∧
      picture.paint strokes point = some value := by
  induction strokes generalizing picture with
  | nil => simp at hmem
  | cons stroke strokes ih =>
      by_cases hlater : point ∈ strokes.map Prod.fst
      · obtain ⟨value, hvalue, hpaint⟩ :=
          ih (Function.update picture stroke.1 (some stroke.2)) hlater
        exact ⟨value, List.mem_cons_of_mem _ hvalue, hpaint⟩
      · have heq : point = stroke.1 := by
          simpa [hlater] using hmem
        subst heq
        refine ⟨stroke.2, by simp, ?_⟩
        rw [paint, paint_of_notMem _ _ hlater, Function.update_self]

theorem paint_congr {first second : Picture κ α} {strokes : List (κ × α)}
    (hagree : ∀ point ∉ strokes.map Prod.fst, first point = second point) :
    first.paint strokes = second.paint strokes := by
  induction strokes generalizing first second with
  | nil => exact funext fun point => hagree point (by simp)
  | cons stroke strokes ih =>
      refine ih fun point hmem => ?_
      by_cases heq : point = stroke.1
      · rw [heq, Function.update_self, Function.update_self]
      · rw [Function.update_of_ne heq, Function.update_of_ne heq]
        exact hagree point (by simp [heq, hmem])

theorem paint_erase {picture : Picture κ α} {strokes : List (κ × α)}
    {points : List κ} (hsub : ∀ point ∈ points, point ∈ strokes.map Prod.fst) :
    (picture.erase points).paint strokes = picture.paint strokes :=
  paint_congr fun point hmem =>
    erase_of_notMem fun hpoint => hmem (hsub point hpoint)

end Picture

end Foundation
