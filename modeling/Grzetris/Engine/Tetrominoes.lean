import Grzetris.Engine.Playfield
import Mathlib.Data.List.Perm.Basic

/-!
# The tetrominoes and the bag

The file-level state of `engine.cpp` and the functions that draw from it.  The
random generator is an arbitrary table of rolls: the `k`-th call of a uniform
distribution on `0..n` returns `rolls k n`.
-/

namespace Grzetris

open Foundation

inductive TetroShapes where
  | i | o | t | l | j | s | z
  deriving DecidableEq, Repr

abbrev Rolls := Nat → (n : Nat) → Fin (n + 1)

/-- The globals of `engine.cpp`.  A registered playfield is named by the number
of playfields created before it. -/
structure Engine where
  tetrominoes : TetroShapes → Option Polyomino
  playfields : List Nat
  tetroBag : List TetroShapes
  -- Calls of the generator so far.
  rolled : Nat
  -- Pieces drawn so far.
  drawn : Nat
  -- Playfields created so far.
  created : Nat

def Engine.fresh : Engine where
  tetrominoes := fun _ => none
  playfields := []
  tetroBag := []
  rolled := 0
  drawn := 0
  created := 0

/-! ## Templates -/

def block (x y : Int) (c : Colour) : Block := { pos := ⟨x, y⟩, c := c }

def template : TetroShapes → Polyomino
  | .i => { initPolyomino ⟨-32, -32⟩ 4 4 with
      blocks := [block 0 1 .cyan, block 1 1 .cyan, block 2 1 .cyan,
        block 3 1 .cyan] }
  | .o => { initPolyomino ⟨-32, -32⟩ 2 2 with
      blocks := [block 0 0 .yellow, block 1 0 .yellow, block 0 1 .yellow,
        block 1 1 .yellow] }
  | .t => { initPolyomino ⟨-32, -32⟩ 3 3 with
      blocks := [block 1 0 .magenta, block 0 1 .magenta, block 1 1 .magenta,
        block 2 1 .magenta] }
  | .l => { initPolyomino ⟨-32, -32⟩ 3 3 with
      blocks := [block 2 0 .white, block 0 1 .white, block 1 1 .white,
        block 2 1 .white] }
  | .j => { initPolyomino ⟨-32, -32⟩ 3 3 with
      blocks := [block 0 0 .blue, block 0 1 .blue, block 1 1 .blue,
        block 2 1 .blue] }
  | .s => { initPolyomino ⟨-32, -32⟩ 3 3 with
      blocks := [block 1 0 .green, block 2 0 .green, block 1 1 .green,
        block 0 1 .green] }
  | .z => { initPolyomino ⟨-32, -32⟩ 3 3 with
      blocks := [block 0 0 .red, block 1 0 .red, block 1 1 .red,
        block 2 1 .red] }

/-- The seven keys in the order in which `loadTetros` assigns them and
`shakeTetroBag` lists them. -/
def allTetros : List TetroShapes := [.i, .o, .t, .l, .j, .s, .z]

def loadTetros (e : Engine) : Engine :=
  { e with
    tetrominoes := allTetros.foldl
      (fun tetrominoes shape =>
        Function.update tetrominoes shape (some (template shape)))
      (fun _ => none) }

/-- Reseeding needs no step of its own: the rolls are arbitrary. -/
def Engine.init (e : Engine) : Engine := loadTetros e

/-- `playfields` gets the address of the object of the caller: the copy of the
returned playfield is elided. -/
def initPlayfield (e : Engine) (height width : Int) : Playfield × Engine :=
  ({ h := height
     w := width
     blocks := Rows.replicate height.toNat width.toNat none
     heap := { next := 0, freed := [] } },
   { e with
     playfields := e.playfields ++ [e.created]
     created := e.created + 1 })

/-! ## Drawing -/

/-- The loop of `shakeTetroBag`; seven rounds are all it ever needs. -/
def fillBag (rolls : Rolls) : Nat → List TetroShapes → Engine → Option Engine
  | 0, _, e => if e.tetroBag.length < 7 then none else some e
  | fuel + 1, undrawnTetros, e =>
      if e.tetroBag.length < 7 then do
        let tetroIndex := rolls e.rolled (undrawnTetros.length - 1)
        let tetro ← undrawnTetros[tetroIndex.val]?
        fillBag rolls fuel (undrawnTetros.eraseIdx tetroIndex)
          { e with
            tetroBag := e.tetroBag ++ [tetro]
            rolled := e.rolled + 1 }
      else some e

def shakeTetroBag (rolls : Rolls) (e : Engine) : Option Engine :=
  fillBag rolls 7 allTetros { e with tetroBag := [] }

def drawTetro (rolls : Rolls) (e : Engine) : Option (Polyomino × Engine) := do
  let e ← if e.tetroBag.isEmpty then shakeTetroBag rolls e else some e
  let back ← e.tetroBag.getLast?
  let ret := copyPolyomino (← e.tetrominoes back)
  some (ret, { e with
    tetroBag := e.tetroBag.dropLast
    drawn := e.drawn + 1 })

/-! ## Facts about the templates -/

theorem mem_allTetros (shape : TetroShapes) : shape ∈ allTetros := by
  cases shape <;> decide

def Engine.Loaded (e : Engine) : Prop :=
  ∀ shape, e.tetrominoes shape = some (template shape)

theorem loadTetros_loaded (e : Engine) : (loadTetros e).Loaded := by
  intro shape
  cases shape <;> rfl

theorem template_pos (shape : TetroShapes) :
    (template shape).pos = ⟨-32, -32⟩ := by
  cases shape <;> rfl

theorem template_isTetromino (shape : TetroShapes) :
    ∃ n c, (template shape).IsTetromino n c := by
  cases shape with
  | i => exact ⟨4, .cyan, ⟨rfl, rfl, rfl, by decide⟩, by decide, by decide,
      rfl, by decide, by decide⟩
  | o => exact ⟨2, .yellow, ⟨rfl, rfl, rfl, by decide⟩, by decide, by decide,
      rfl, by decide, by decide⟩
  | t => exact ⟨3, .magenta, ⟨rfl, rfl, rfl, by decide⟩, by decide, by decide,
      rfl, by decide, by decide⟩
  | l => exact ⟨3, .white, ⟨rfl, rfl, rfl, by decide⟩, by decide, by decide,
      rfl, by decide, by decide⟩
  | j => exact ⟨3, .blue, ⟨rfl, rfl, rfl, by decide⟩, by decide, by decide,
      rfl, by decide, by decide⟩
  | s => exact ⟨3, .green, ⟨rfl, rfl, rfl, by decide⟩, by decide, by decide,
      rfl, by decide, by decide⟩
  | z => exact ⟨3, .red, ⟨rfl, rfl, rfl, by decide⟩, by decide, by decide,
      rfl, by decide, by decide⟩

/-! ## One draw -/

structure Engine.SameExceptBag (e e' : Engine) : Prop where
  tetrominoes_eq : e'.tetrominoes = e.tetrominoes
  playfields_eq : e'.playfields = e.playfields
  created_eq : e'.created = e.created

theorem Engine.SameExceptBag.trans {e e' e'' : Engine}
    (hfirst : e.SameExceptBag e') (hsecond : e'.SameExceptBag e'') :
    e.SameExceptBag e'' where
  tetrominoes_eq := hsecond.tetrominoes_eq.trans hfirst.tetrominoes_eq
  playfields_eq := hsecond.playfields_eq.trans hfirst.playfields_eq
  created_eq := hsecond.created_eq.trans hfirst.created_eq

theorem fillBag_full (rolls : Rolls) (fuel : Nat)
    (undrawnTetros : List TetroShapes) {e : Engine}
    (hfull : 7 ≤ e.tetroBag.length) :
    fillBag rolls fuel undrawnTetros e = some e := by
  have hstop : ¬ e.tetroBag.length < 7 := by omega
  cases fuel <;> rw [fillBag, if_neg hstop]

/-- The loop moves the undrawn shapes into the bag, in some order. -/
theorem fillBag_spec (rolls : Rolls) (fuel : Nat)
    (undrawnTetros : List TetroShapes) (e : Engine)
    (hfuel : undrawnTetros.length ≤ fuel)
    (hseven : e.tetroBag.length + undrawnTetros.length = 7) :
    ∃ e' picked, fillBag rolls fuel undrawnTetros e = some e' ∧
      picked.Perm undrawnTetros ∧ e'.tetroBag = e.tetroBag ++ picked ∧
      e'.drawn = e.drawn ∧ e.SameExceptBag e' := by
  induction fuel generalizing undrawnTetros e with
  | zero =>
      have hnil : undrawnTetros = [] := List.length_eq_zero_iff.mp (by omega)
      subst hnil
      have hfull : 7 ≤ e.tetroBag.length := Nat.le_of_eq hseven.symm
      exact ⟨e, [], fillBag_full rolls 0 [] hfull, .refl _, by simp, rfl, rfl,
        rfl, rfl⟩
  | succ fuel ih =>
      by_cases hnil : undrawnTetros = []
      · subst hnil
        have hfull : 7 ≤ e.tetroBag.length := Nat.le_of_eq hseven.symm
        exact ⟨e, [], fillBag_full rolls (fuel + 1) [] hfull, .refl _, by simp,
          rfl, rfl, rfl, rfl⟩
      · have hpos : 0 < undrawnTetros.length := List.length_pos_iff.mpr hnil
        have hroll := (rolls e.rolled (undrawnTetros.length - 1)).isLt
        generalize hindex : rolls e.rolled (undrawnTetros.length - 1) =
          tetroIndex at hroll
        have hlt : tetroIndex.val < undrawnTetros.length := by omega
        have hlength := List.length_eraseIdx_of_lt hlt
        obtain ⟨e', picked, hfill, hperm, hbag, hdrawn, hsame⟩ :=
          ih (undrawnTetros.eraseIdx tetroIndex)
            { e with
              tetroBag := e.tetroBag ++ [undrawnTetros[tetroIndex.val]]
              rolled := e.rolled + 1 }
            (by omega)
            (by simp only [List.length_append, List.length_singleton]; omega)
        refine ⟨e', undrawnTetros[tetroIndex.val] :: picked, ?_, ?_, ?_,
          hdrawn, ⟨hsame.1, hsame.2, hsame.3⟩⟩
        · have hless : e.tetroBag.length < 7 := by omega
          simp only [fillBag, if_pos hless, hindex, Option.bind_eq_bind,
            List.getElem?_eq_getElem hlt, Option.bind_some]
          exact hfill
        · exact (hperm.cons _).trans (List.getElem_cons_eraseIdx_perm hlt)
        · rw [hbag]
          simp

theorem shakeTetroBag_spec (rolls : Rolls) (e : Engine) :
    ∃ e', shakeTetroBag rolls e = some e' ∧ e'.tetroBag.Perm allTetros ∧
      e'.drawn = e.drawn ∧ e.SameExceptBag e' := by
  obtain ⟨e', picked, hfill, hperm, hbag, hdrawn, hsame⟩ :=
    fillBag_spec rolls 7 allTetros { e with tetroBag := [] } (by decide) rfl
  refine ⟨e', hfill, ?_, hdrawn, ⟨hsame.1, hsame.2, hsame.3⟩⟩
  rw [hbag]
  exact hperm

/-- One draw takes the last shape of the bag, which is shaken first when it is
empty. -/
theorem drawTetro_spec (rolls : Rolls) {e : Engine} (hloaded : e.Loaded) :
    ∃ shape bag e', drawTetro rolls e = some (template shape, e') ∧
      (e.tetroBag = bag ++ [shape] ∨
        e.tetroBag = [] ∧ (bag ++ [shape]).Perm allTetros) ∧
      e'.tetroBag = bag ∧ e'.drawn = e.drawn + 1 ∧ e.SameExceptBag e' := by
  by_cases hempty : e.tetroBag = []
  · obtain ⟨e₁, hshake, hperm, hdrawn, hsame⟩ := shakeTetroBag_spec rolls e
    have hne : e₁.tetroBag ≠ [] := by
      intro hnil
      rw [hnil] at hperm
      exact absurd hperm.symm (by decide)
    have hsplit := List.dropLast_append_getLast hne
    refine ⟨e₁.tetroBag.getLast hne, e₁.tetroBag.dropLast,
      { e₁ with tetroBag := e₁.tetroBag.dropLast, drawn := e₁.drawn + 1 }, ?_,
      .inr ⟨hempty, by rwa [hsplit]⟩, rfl, ?_, ?_⟩
    · simp only [drawTetro, hempty, List.isEmpty_nil, if_true, hshake,
        Option.bind_eq_bind, Option.bind_some,
        List.getLast?_eq_some_getLast hne, hsame.tetrominoes_eq,
        hloaded _, copyPolyomino_eq]
    · simp only [hdrawn]
    · exact ⟨hsame.1, hsame.2, hsame.3⟩
  · have hsplit := List.dropLast_append_getLast hempty
    refine ⟨e.tetroBag.getLast hempty, e.tetroBag.dropLast,
      { e with tetroBag := e.tetroBag.dropLast, drawn := e.drawn + 1 }, ?_,
      .inl hsplit.symm, rfl, rfl, rfl, rfl, rfl⟩
    simp only [drawTetro, List.isEmpty_iff, hempty, if_false,
      Option.bind_eq_bind, Option.bind_some,
      List.getLast?_eq_some_getLast hempty, hloaded _, copyPolyomino_eq]

theorem Engine.Loaded.of_same {e e' : Engine} (hloaded : e.Loaded)
    (hsame : e.SameExceptBag e') : e'.Loaded := by
  intro shape
  rw [hsame.tetrominoes_eq]
  exact hloaded shape

end Grzetris
