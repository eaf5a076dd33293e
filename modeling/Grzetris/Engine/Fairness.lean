import Grzetris.Engine.Tetrominoes
import Grzetris.Foundation.Deals
import Mathlib.Logic.Function.Iterate
import Mathlib.Tactic.Choose

/-!
# Seven-bag fairness

The bag read from the back is a hand, and a shaken bag is a permutation of the
seven shapes, so the drawn shapes are dealt from reshuffled decks.
-/

namespace Grzetris

open Foundation

def drawTetros (rolls : Rolls) : Nat → Engine → Option (List Polyomino × Engine)
  | 0, e => some ([], e)
  | count + 1, e => do
      let (piece, e) ← drawTetro rolls e
      let (pieces, e) ← drawTetros rolls count e
      some (piece :: pieces, e)

theorem drawTetros_spec (rolls : Rolls) (count : Nat) {e : Engine}
    (hloaded : e.Loaded) :
    ∃ shapes e', drawTetros rolls count e = some (shapes.map template, e') ∧
      shapes.length = count ∧ Dealt allTetros e.tetroBag.reverse shapes ∧
      e'.drawn = e.drawn + count ∧ e.SameExceptBag e' := by
  induction count generalizing e with
  | zero => exact ⟨[], e, rfl, rfl, .nil _, rfl, rfl, rfl, rfl⟩
  | succ count ih =>
      obtain ⟨shape, bag, e₁, hdraw, hbag, hrest, hdrawn, hsame⟩ :=
        drawTetro_spec rolls hloaded
      obtain ⟨shapes, e₂, hdraws, hlength, hdealt, hdrawn', hsame'⟩ :=
        ih (hloaded.of_same hsame)
      rw [hrest] at hdealt
      refine ⟨shape :: shapes, e₂, ?_, by rw [List.length_cons, hlength], ?_,
        by omega, hsame.trans hsame'⟩
      · simp [drawTetros, hdraw, hdraws]
      · have hhand : Dealt allTetros (bag ++ [shape]).reverse
            (shape :: shapes) := by
          rw [List.reverse_append]
          exact .next shape bag.reverse shapes hdealt
        rcases hbag with heq | ⟨hempty, hperm⟩
        · rw [heq]
          exact hhand
        · rw [hempty]
          exact .reshuffle _ _ ((List.reverse_perm _).trans hperm) hhand

theorem drawTetros_succ {rolls : Rolls} {count : Nat} {e e'' : Engine}
    {pieces : List Polyomino} :
    drawTetros rolls (count + 1) e = some (pieces, e'') ↔
      ∃ piece e' rest, drawTetro rolls e = some (piece, e') ∧
        drawTetros rolls count e' = some (rest, e'') ∧
        pieces = piece :: rest := by
  constructor
  · intro hdraws
    simp only [drawTetros, Option.bind_eq_bind, Option.bind_eq_some_iff,
      Option.some.injEq, Prod.mk.injEq, Prod.exists] at hdraws
    obtain ⟨piece, e', hdraw, rest, e₂, hrest, rfl, rfl⟩ := hdraws
    exact ⟨piece, e', rest, hdraw, hrest, rfl⟩
  · rintro ⟨piece, e', rest, hdraw, hrest, rfl⟩
    simp [drawTetros, hdraw, hrest]

theorem drawTetros_snoc {rolls : Rolls} {count : Nat} {e e' e'' : Engine}
    {pieces : List Polyomino} {piece : Polyomino}
    (hdraws : drawTetros rolls count e = some (pieces, e'))
    (hdraw : drawTetro rolls e' = some (piece, e'')) :
    drawTetros rolls (count + 1) e = some (pieces ++ [piece], e'') := by
  induction count generalizing e pieces with
  | zero =>
      cases hdraws
      simp [drawTetros, hdraw]
  | succ count ih =>
      obtain ⟨first, e₁, rest, hfirst, hrest, rfl⟩ := drawTetros_succ.mp hdraws
      exact drawTetros_succ.mpr ⟨first, e₁, rest ++ [piece], hfirst, ih hrest,
        rfl⟩

private theorem gap_le_twelve {shapes : List TetroShapes}
    (hdealt : Dealt allTetros [] shapes) {i j : Nat} (hij : i < j)
    (hj : j < shapes.length)
    (hbetween : ∀ l, i < l → l < j → shapes[l]? ≠ shapes[i]?) :
    j - i - 1 ≤ 12 := by
  by_contra hgap
  have hi : shapes[i]? = some shapes[i] := List.getElem?_eq_getElem (by omega)
  have hseven : allTetros.length = 7 := rfl
  obtain ⟨l, hle, hlt, hget⟩ := hdealt.exists_in_window
    (mem_allTetros shapes[i]) (i + 1) (by rw [hseven]; omega)
  rw [hseven] at hlt
  exact hbetween l (by omega) (by omega) (hget.trans hi.symm)

/--
From an empty bag, whatever the rolls: no subscript and no lookup fails, every
drawn piece is a template, every aligned block of seven draws is a permutation
of the seven templates, and at most twelve pieces separate two consecutive
occurrences of one of them.
-/
theorem drawTetros_fair (rolls : Rolls) (e : Engine) (count : Nat)
    (hempty : e.tetroBag = []) :
    ∃ pieces e', drawTetros rolls count e.init = some (pieces, e') ∧
      pieces.length = count ∧
      (∀ piece ∈ pieces, ∃ shape, piece = template shape) ∧
      (∀ k, 7 * (k + 1) ≤ count →
        ((pieces.drop (7 * k)).take 7).Perm (allTetros.map template)) ∧
      ∀ i j, i < j → j < count → pieces[i]? = pieces[j]? →
        (∀ l, i < l → l < j → pieces[l]? ≠ pieces[i]?) → j - i - 1 ≤ 12 := by
  obtain ⟨shapes, e', hdraws, hlength, hdealt, -, -⟩ :=
    drawTetros_spec rolls count (loadTetros_loaded e)
  have hbag : (loadTetros e).tetroBag.reverse = [] := by
    show e.tetroBag.reverse = []
    rw [hempty, List.reverse_nil]
  rw [hbag] at hdealt
  refine ⟨shapes.map template, e', hdraws, by rw [List.length_map, hlength],
    ?_, ?_, ?_⟩
  · intro piece hpiece
    obtain ⟨shape, -, rfl⟩ := List.mem_map.mp hpiece
    exact ⟨shape, rfl⟩
  · intro k hk
    have hperm := hdealt.block_perm (by decide) (k := k) (by rw [hlength]; exact hk)
    rw [← List.map_drop, ← List.map_take]
    exact hperm.map template
  · intro i j hij hj _ hbetween
    refine gap_le_twelve hdealt hij (by omega) fun l hil hlj heq => ?_
    refine hbetween l hil hlj ?_
    rw [List.getElem?_map, List.getElem?_map, heq]

theorem drawTetros_fair_fresh :
    ∃ pieces e', drawTetros (fun _ _ => 0) 15 Engine.fresh.init =
        some (pieces, e') ∧
      pieces.length = 15 ∧
      (∀ piece ∈ pieces, ∃ shape, piece = template shape) ∧
      (∀ k, 7 * (k + 1) ≤ 15 →
        ((pieces.drop (7 * k)).take 7).Perm (allTetros.map template)) ∧
      ∀ i j, i < j → j < 15 → pieces[i]? = pieces[j]? →
        (∀ l, i < l → l < j → pieces[l]? ≠ pieces[i]?) → j - i - 1 ≤ 12 :=
  drawTetros_fair (fun _ _ => 0) Engine.fresh 15 rfl

/-! ## The sequence of shapes -/

/-- The draws from `e` on give the shapes of the sequence. -/
def Supplies (rolls : Rolls) (e : Engine) (sequence : Nat → TetroShapes) :
    Prop :=
  ∀ count, ∃ e', drawTetros rolls count e =
    some ((List.range count).map fun k => template (sequence k), e')

theorem exists_supply (rolls : Rolls) {e : Engine} (hloaded : e.Loaded) :
    ∃ sequence, Supplies rolls e sequence := by
  have hdraw : ∀ e : {e : Engine // e.Loaded}, ∃ shape,
      ∃ e' : {e : Engine // e.Loaded},
        drawTetro rolls e.1 = some (template shape, e'.1) := by
    intro e
    obtain ⟨shape, bag, e', hdraw, -, -, -, hsame⟩ :=
      drawTetro_spec rolls e.2
    exact ⟨shape, ⟨e', e.2.of_same hsame⟩, hdraw⟩
  choose shapeOf after hdraw using hdraw
  let state : Nat → {e : Engine // e.Loaded} := fun k => after^[k] ⟨e, hloaded⟩
  refine ⟨fun k => shapeOf (state k), fun count => ⟨(state count).1, ?_⟩⟩
  induction count with
  | zero => rfl
  | succ count ih =>
      have hnext : state (count + 1) = after (state count) :=
        Function.iterate_succ_apply' after count _
      rw [hnext, List.range_succ, List.map_append]
      exact drawTetros_snoc ih (hdraw (state count))

theorem Engine.Loaded.draw {rolls : Rolls} {e e' : Engine}
    {piece : Polyomino} (hloaded : e.Loaded)
    (hdraw : drawTetro rolls e = some (piece, e')) :
    e'.Loaded ∧ e'.drawn = e.drawn + 1 := by
  obtain ⟨shape, bag, e₁, hdraw₁, -, -, hdrawn, hsame⟩ :=
    drawTetro_spec rolls hloaded
  rw [hdraw₁] at hdraw
  cases hdraw
  exact ⟨hloaded.of_same hsame, hdrawn⟩

/-- The first draw gives the first shape and leaves the rest of the sequence. -/
theorem Supplies.draw {rolls : Rolls} {e : Engine}
    {sequence : Nat → TetroShapes} (hsupply : Supplies rolls e sequence) :
    ∃ e', drawTetro rolls e = some (template (sequence 0), e') ∧
      Supplies rolls e' fun k => sequence (k + 1) := by
  obtain ⟨e', hfirst⟩ := hsupply 1
  obtain ⟨piece, e₁, rest, hdraw, -, hpieces⟩ := drawTetros_succ.mp hfirst
  obtain rfl : template (sequence 0) = piece :=
    (List.cons.inj hpieces).1
  refine ⟨e₁, hdraw, fun count => ?_⟩
  obtain ⟨e₂, hmore⟩ := hsupply (count + 1)
  obtain ⟨piece, e₁', rest, hdraw', hdraws, hpieces⟩ :=
    drawTetros_succ.mp hmore
  rw [hdraw] at hdraw'
  obtain ⟨rfl, rfl⟩ := Prod.mk.inj (Option.some_inj.mp hdraw')
  rw [List.range_succ_eq_map, List.map_cons, List.map_map] at hpieces
  rw [← (List.cons.inj hpieces).2] at hdraws
  exact ⟨e₂, hdraws⟩

end Grzetris
