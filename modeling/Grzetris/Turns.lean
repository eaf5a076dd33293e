import Grzetris.Shape
import Mathlib.Dynamics.PeriodicPts.Defs
import Mathlib.Tactic.IntervalCases

/-!
# Repeated rotation

What calls of `rotatePolyomino` do to a polyomino one after another: first for
any box and pivot, then for the square boxes that every tetromino has.
-/

namespace Grzetris

open Polyomino

/-! ## Four turns -/

theorem Polyomino.turn_sub (p : Polyomino) (u v : Vect2D) :
    p.turn v - p.turn u = ⟨-(v - u).y, (v - u).x⟩ := by
  unfold turn
  split <;>
  · ext <;> simp only [Vect2D.sub_x, Vect2D.sub_y] <;> omega

/-- Two turns are a point reflection, whose centre does not depend on the
block: the second turn runs in the box with the sides exchanged. -/
private theorem turn_turn (p : Polyomino) (u v : Vect2D) :
    p.rotated.turn (p.turn v) - p.rotated.turn (p.turn u) =
      ⟨-(v - u).x, -(v - u).y⟩ := by
  rw [turn_sub, turn_sub]

private theorem turn_congr {p q : Polyomino} (hh : p.h = q.h) (hw : p.w = q.w)
    (hpivot : p.pivot = q.pivot) : p.turn = q.turn := by
  funext v
  simp only [turn, hh, hw, hpivot]

private theorem four_turns (p : Polyomino) (v : Vect2D) :
    p.rotated.turn (p.turn (p.rotated.turn (p.turn v))) = v := by
  have hreflect := turn_turn p v (p.rotated.turn (p.turn v))
  have hx := congrArg Vect2D.x hreflect
  have hy := congrArg Vect2D.y hreflect
  simp only [Vect2D.sub_x, Vect2D.sub_y] at hx hy
  ext <;> omega

theorem Polyomino.rotated_four (p : Polyomino) : rotated^[4] p = p := by
  have hpos : ∀ q : Polyomino, q.rotated.blocks =
      q.blocks.map fun b => { b with pos := q.turn b.pos } :=
    fun q => rotatePolyomino_blocks q _ _
  have hfirst : p.rotated.rotated.turn = p.turn := turn_congr rfl rfl rfl
  have hsecond : p.rotated.rotated.rotated.turn = p.rotated.turn :=
    turn_congr rfl rfl rfl
  have hblocks : p.rotated.rotated.rotated.rotated.blocks = p.blocks := by
    simp only [hpos, hsecond, hfirst, List.map_map]
    conv_rhs => rw [← List.map_id p.blocks]
    refine List.map_congr_left fun b _ => ?_
    simp only [Function.comp, four_turns, id]
  simp only [Function.iterate_succ_apply, Function.iterate_zero_apply]
  cases p
  simp only [rotated, rotatePolyomino, Polyomino.mk.injEq, true_and] at hblocks ⊢
  exact hblocks

/-! ## Square boxes -/

/-- What `initPolyomino` makes of a square box, once it has its blocks. -/
def squarePolyomino (pos : Vect2D) (n : Int) (blocks : List Block) : Polyomino :=
  { initPolyomino pos n n with blocks := blocks }

def InSquare (n : Int) (v : Vect2D) : Prop :=
  0 ≤ v.x ∧ v.x < n ∧ 0 ≤ v.y ∧ v.y < n

instance (n : Int) (v : Vect2D) : Decidable (InSquare n v) :=
  inferInstanceAs (Decidable (_ ∧ _ ∧ _ ∧ _))

theorem squarePolyomino_boxed (pos : Vect2D) {n : Int} {blocks : List Block}
    (hinside : ∀ b ∈ blocks, InSquare n b.pos) :
    (squarePolyomino pos n blocks).Boxed n :=
  ⟨rfl, rfl, rfl, hinside⟩

theorem Polyomino.Boxed.rotated_blocks {p : Polyomino} {n : Int}
    (hbox : p.Boxed n) :
    p.rotated.blocks =
      p.blocks.map fun b => { b with pos := ⟨n - 1 - b.pos.y, b.pos.x⟩ } := by
  rw [rotated, rotatePolyomino_blocks]
  refine List.map_congr_left fun b hb => ?_
  have hinside := hbox.inside b hb
  rw [hbox.turn_eq (by omega)]

theorem Polyomino.Boxed.rotated {p : Polyomino} {n : Int} (hbox : p.Boxed n) :
    p.rotated.Boxed n where
  h_eq := hbox.w_eq
  w_eq := hbox.h_eq
  pivot_eq := hbox.pivot_eq
  inside := by
    rw [hbox.rotated_blocks]
    intro turned hturned
    obtain ⟨b, hb, rfl⟩ := List.mem_map.mp hturned
    have hinside := hbox.inside b hb
    simp only
    omega

theorem Polyomino.Boxed.iterate {p : Polyomino} {n : Int} (hbox : p.Boxed n)
    (k : Nat) : (Polyomino.rotated^[k] p).Boxed n := by
  induction k with
  | zero => exact hbox
  | succ k ih =>
      rw [Function.iterate_succ_apply']
      exact ih.rotated

theorem iterate_rotated_blocks (p : Polyomino) (k : Nat) :
    ∃ f : Vect2D → Vect2D, Function.Injective f ∧
      (Polyomino.rotated^[k] p).blocks =
        p.blocks.map fun b => { b with pos := f b.pos } := by
  induction k with
  | zero => exact ⟨id, Function.injective_id, by simp⟩
  | succ k ih =>
      obtain ⟨f, hf, hblocks⟩ := ih
      refine ⟨(Polyomino.rotated^[k] p).turn ∘ f,
        (turn_injective _).comp hf, ?_⟩
      rw [Function.iterate_succ_apply', Polyomino.rotated,
        rotatePolyomino_blocks, hblocks, List.map_map]
      rfl

theorem iterate_rotated_distinct {p : Polyomino} {k i j : Nat} {b c : Block}
    (hb : p.blocks[i]? = some b) (hc : p.blocks[j]? = some c)
    (hne : b.pos ≠ c.pos) :
    ((Polyomino.rotated^[k] p).blocks[i]?).map Block.pos ≠
      ((Polyomino.rotated^[k] p).blocks[j]?).map Block.pos := by
  obtain ⟨f, hf, hblocks⟩ := iterate_rotated_blocks p k
  rw [hblocks, List.getElem?_map, List.getElem?_map, hb, hc]
  simpa using fun heq => hne (hf heq)

/-- One call is a rigid quarter turn and four calls are none, for every box,
pivot and block list; in a square box each further call turns about the centre
of the box, so the blocks stay inside it and apart. -/
theorem rotatePolyomino_rigid :
    (∀ p : Polyomino,
      (∀ (i j : Nat) (b c : Block), p.blocks[i]? = some b →
        p.blocks[j]? = some c → ∃ b' c' : Block,
          (rotatePolyomino p .clockwise 1).blocks[i]? = some b' ∧
          (rotatePolyomino p .clockwise 1).blocks[j]? = some c' ∧
          c'.pos - b'.pos = ⟨-(c.pos - b.pos).y, (c.pos - b.pos).x⟩) ∧
      (rotatePolyomino · .clockwise 1)^[4] p = p) ∧
    ∀ (pos : Vect2D) (n : Int) (blocks : List Block),
      (∀ b ∈ blocks, InSquare n b.pos) → ∀ k : Nat,
        let turned := (rotatePolyomino · .clockwise 1)^[k]
          (squarePolyomino pos n blocks)
        (rotatePolyomino turned .clockwise 1).blocks =
          turned.blocks.map (fun b =>
            { b with pos := ⟨n - 1 - b.pos.y, b.pos.x⟩ }) ∧
        (∀ b ∈ turned.blocks, InSquare n b.pos) ∧
        ∀ (i j : Nat) (b c : Block), blocks[i]? = some b →
          blocks[j]? = some c → b.pos ≠ c.pos →
          (turned.blocks[i]?).map Block.pos ≠
            (turned.blocks[j]?).map Block.pos := by
  refine ⟨fun p => ⟨fun i j b c hb hc => ?_, p.rotated_four⟩,
    fun pos n blocks hinside k => ?_⟩
  · refine ⟨{ b with pos := p.turn b.pos }, { c with pos := p.turn c.pos },
      ?_, ?_, p.turn_sub b.pos c.pos⟩
    · simp [rotatePolyomino_blocks, hb]
    · simp [rotatePolyomino_blocks, hc]
  · have hbox := (squarePolyomino_boxed pos hinside).iterate k
    exact ⟨hbox.rotated_blocks, hbox.inside,
      fun i j b c hb hc hne => iterate_rotated_distinct hb hc hne⟩

/-! ## Direction and amount -/

/-- A quarter turn of the `n` by `n` box, on a screen whose `y` grows
downwards. -/
def boxTurn (n : Int) : RotationDirection → Vect2D → Vect2D
  | .clockwise, v => ⟨n - 1 - v.y, v.x⟩
  | .anticlockwise, v => ⟨v.y, n - 1 - v.x⟩

/-- `amount` successive quarter turns of a polyomino in its square box. -/
def Polyomino.turned (p : Polyomino) (direction : RotationDirection)
    (amount : Nat) : Polyomino :=
  { p with
    blocks := p.blocks.map fun b =>
      { b with pos := (boxTurn p.h direction)^[amount] b.pos } }

/-- Every block is on the cell in the middle of the box. -/
def Centred (n : Int) (blocks : List Block) : Prop :=
  ∀ b ∈ blocks, 2 * b.pos.x = n - 1 ∧ 2 * b.pos.y = n - 1

instance (n : Int) (blocks : List Block) : Decidable (Centred n blocks) :=
  inferInstanceAs (Decidable (∀ b ∈ blocks, _ ∧ _))

theorem boxTurn_four (n : Int) (direction : RotationDirection) (v : Vect2D) :
    Function.IsPeriodicPt (boxTurn n direction) 4 v := by
  cases direction <;>
  · simp only [Function.IsPeriodicPt, Function.IsFixedPt,
      Function.iterate_succ_apply, Function.iterate_zero_apply, boxTurn]
    ext <;> simp only <;> omega

/-- One clockwise quarter turn equals `amount` turns in a direction just when
these are one clockwise turn up to full turns, or the point does not move. -/
theorem boxTurn_eq_iterate_iff (n : Int) (direction : RotationDirection)
    (amount : Nat) (v : Vect2D) :
    boxTurn n .clockwise v = (boxTurn n direction)^[amount] v ↔
      (direction = .clockwise ∧ amount % 4 = 1 ∨
        direction = .anticlockwise ∧ amount % 4 = 3) ∨
      2 * v.x = n - 1 ∧ 2 * v.y = n - 1 := by
  rw [← (boxTurn_four n direction v).iterate_mod_apply amount]
  have hlt : amount % 4 < 4 := Nat.mod_lt _ (by decide)
  generalize amount % 4 = r at hlt
  cases direction <;> interval_cases r <;>
    simp only [Function.iterate_succ_apply, Function.iterate_zero_apply,
      boxTurn, Vect2D.ext_iff, reduceCtorEq, Nat.reduceEqDiff, and_true,
      and_false, true_and, or_false, or_true, false_or, true_or,
      iff_true] <;> omega

section Honours

variable (pos : Vect2D) (n : Nat) (blocks : List Block)

theorem squarePolyomino_turn (v : Vect2D) :
    (squarePolyomino pos n blocks).turn v = boxTurn n .clockwise v := by
  have hbox : (squarePolyomino pos n []).Boxed n :=
    squarePolyomino_boxed pos (by simp)
  exact hbox.turn_eq (by omega) v

theorem rotatePolyomino_square (direction : RotationDirection) (amount : Int) :
    rotatePolyomino (squarePolyomino pos n blocks) direction amount =
      squarePolyomino pos n (blocks.map fun b =>
        { b with pos := boxTurn n .clockwise b.pos }) := by
  have hblocks := rotatePolyomino_blocks (squarePolyomino pos n blocks)
    direction amount
  simp only [squarePolyomino_turn] at hblocks
  rw [Polyomino.mk.injEq]
  exact ⟨rfl, rfl, rfl, rfl, hblocks⟩

theorem squarePolyomino_map_inj (f g : Vect2D → Vect2D) :
    squarePolyomino pos n (blocks.map fun b => { b with pos := f b.pos }) =
        squarePolyomino pos n (blocks.map fun b => { b with pos := g b.pos }) ↔
      ∀ b ∈ blocks, f b.pos = g b.pos := by
  simp [squarePolyomino]

theorem squarePolyomino_eq_map (f : Vect2D → Vect2D) :
    squarePolyomino pos n (blocks.map fun b => { b with pos := f b.pos }) =
        squarePolyomino pos n blocks ↔
      ∀ b ∈ blocks, f b.pos = b.pos := by
  simpa using squarePolyomino_map_inj pos n blocks f id

/-- Each half of the law that the signature of `rotatePolyomino` promises, with
the polyominoes and the arguments for which it holds. -/
theorem rotatePolyomino_honours_iff (direction : RotationDirection)
    (a b : Nat) :
    let p := squarePolyomino pos n blocks
    (rotatePolyomino p direction a = p.turned direction a ↔
      (direction = .clockwise ∧ a % 4 = 1 ∨
        direction = .anticlockwise ∧ a % 4 = 3) ∨ Centred n blocks) ∧
    (rotatePolyomino (rotatePolyomino p .clockwise a) .anticlockwise a = p ↔
      Centred n blocks) ∧
    (rotatePolyomino (rotatePolyomino p direction a) direction b =
        rotatePolyomino p direction (a + b) ↔ Centred n blocks) ∧
    (rotatePolyomino p direction 0 = p ↔ Centred n blocks) := by
  intro p
  have hturned : p.turned direction a = squarePolyomino pos n
      (blocks.map fun b =>
        { b with pos := (boxTurn n direction)^[a] b.pos }) := rfl
  have htwice : ∀ d d' (k l : Int),
      rotatePolyomino (rotatePolyomino p d k) d' l =
        squarePolyomino pos n (blocks.map fun b =>
          { b with
            pos := boxTurn n .clockwise (boxTurn n .clockwise b.pos) }) := by
    intro d d' k l
    simp only [p, rotatePolyomino_square, List.map_map, Function.comp_def]
  refine ⟨?_, ?_, ?_, ?_⟩
  · rw [hturned, rotatePolyomino_square, squarePolyomino_map_inj]
    simp only [boxTurn_eq_iterate_iff, ← forall_or_left, Centred]
  · rw [htwice, squarePolyomino_eq_map pos n blocks
      (fun v => boxTurn n .clockwise (boxTurn n .clockwise v))]
    refine forall₂_congr fun c _ => ?_
    simp only [boxTurn, Vect2D.ext_iff]
    omega
  · rw [htwice, rotatePolyomino_square, squarePolyomino_map_inj pos n blocks
      (fun v => boxTurn n .clockwise (boxTurn n .clockwise v))]
    refine forall₂_congr fun c _ => ?_
    simp only [boxTurn, Vect2D.ext_iff]
    omega
  · rw [rotatePolyomino_square, squarePolyomino_eq_map pos n blocks]
    refine forall₂_congr fun c _ => ?_
    simp only [boxTurn, Vect2D.ext_iff]
    omega

end Honours

theorem rotatePolyomino_ignores :
    let p := squarePolyomino ⟨-32, -32⟩ 3
      [⟨⟨1, 0⟩, .magenta⟩, ⟨⟨0, 1⟩, .magenta⟩, ⟨⟨1, 1⟩, .magenta⟩,
        ⟨⟨2, 1⟩, .magenta⟩]
    rotatePolyomino p .anticlockwise 1 ≠ p.turned .anticlockwise 1 ∧
      rotatePolyomino p .clockwise 2 ≠ p.turned .clockwise 2 ∧
      rotatePolyomino (rotatePolyomino p .clockwise 1) .anticlockwise 1 ≠ p ∧
      rotatePolyomino p .clockwise 0 ≠ p := by
  decide

end Grzetris
