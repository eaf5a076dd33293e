import Grzetris.Engine.Fairness
import Grzetris.Game.Locked
import Grzetris.Game.Steps

/-!
# One game after another

`init` reloads the templates and `deinit` clears them; the registered playfields
and the bag are reset by neither.  What a session leaves in the globals is
therefore its playfield and the rest of its bag.
-/

namespace Grzetris

open Foundation Playfield

/-! ## The end of a session -/

def deinitBlocks (p : Playfield) : Option Playfield :=
  (List.range p.h.toNat).foldlM (fun p (y : Nat) =>
    (List.range p.w.toNat).foldlM
      (fun p (x : Nat) => deleteBlock p ⟨x, y⟩) p) p

/-- The playfields that exist, by the number under which they are registered. -/
abbrev Memory := Nat → Option Playfield

/-- The first loop of `deinit`: `none` once a registered playfield does not
exist any more. -/
def deinitPlayfields (memory : Memory) (playfields : List Nat) : Option Memory :=
  playfields.foldlM (fun memory p => do
    let blocks ← deinitBlocks (← memory p)
    some (Function.update memory p (some blocks))) memory

/-- `deinit` with its effect on the playfields and on the globals. -/
def deinit (memory : Memory) (e : Engine) : Option Memory × Engine :=
  (deinitPlayfields memory e.playfields,
    { e with tetrominoes := fun _ => none })

/-- A session: the size of its playfield, the number of pieces it draws, and
what its plays leave in the playfield. -/
structure Session where
  height : Int
  width : Int
  draws : Nat
  played : Playfield
  rect : played.Rect

/-- From `init` to `deinit`.  The playfield is a local variable of the game. -/
def playSession (rolls : Rolls) (session : Session) (e : Engine) :
    Option (Option Memory × Engine) := do
  let p := e.init.created
  let (_, e) := initPlayfield e.init session.height session.width
  let (_, e) ← drawTetros rolls session.draws e
  some (deinit (Function.update (fun _ => none) p (some session.played)) e)

/-- What the sessions leave in the globals.  From the second one on `deinit` has
undefined behaviour, whatever is left of the memory; the globals are followed
as if it had ended like the first. -/
def playSessions (rolls : Rolls) : List Session → Engine → Option Engine
  | [], e => some e
  | session :: history, e => do
      let (_, e) ← playSession rolls session e
      playSessions rolls history e

/-- The globals in which the next session starts are as good as new. -/
structure NoLeak (rolls : Rolls) (e : Engine) : Prop where
  tetrominoes : e.init.tetrominoes = Engine.fresh.init.tetrominoes
  playfields : e.init.playfields = Engine.fresh.init.playfields
  tetroBag : e.init.tetroBag = Engine.fresh.init.tetroBag
  -- `deinit` visits no playfield of an earlier session.
  deinit : ∀ session, ∃ memory e',
    playSession rolls session e = some (some memory, e')
  -- The first seven pieces are the seven tetrominoes.
  fair : ∀ height width, ∃ pieces e',
    drawTetros rolls 7 (initPlayfield e.init height width).2 =
      some (pieces, e') ∧ pieces.Perm (allTetros.map template)

/-! ## What a session leaves behind -/

/-- The bag holds what is missing to a multiple of seven draws. -/
structure BagCounts (e : Engine) : Prop where
  short : e.tetroBag.length ≤ 6
  seven : 7 ∣ e.tetroBag.length + e.drawn

theorem BagCounts.empty_iff {e : Engine} (hbag : BagCounts e) :
    e.tetroBag = [] ↔ 7 ∣ e.drawn := by
  have hshort := hbag.short
  have hseven := hbag.seven
  rw [← List.length_eq_zero_iff]
  omega

theorem BagCounts.drawTetro {rolls : Rolls} {e e' : Engine} {piece : Polyomino}
    (hbag : BagCounts e) (hloaded : e.Loaded)
    (hdraw : drawTetro rolls e = some (piece, e')) : BagCounts e' := by
  rcases drawTetro_spec rolls hloaded with
    ⟨shape, bag, e₁, hdraw₁, hcases, hrest, hdrawn, -⟩
  rw [hdraw₁] at hdraw
  cases hdraw
  have hshort := hbag.short
  have hseven := hbag.seven
  rcases hcases with heq | ⟨hempty, hperm⟩
  · have hlength := congrArg List.length heq
    rw [List.length_append, List.length_singleton] at hlength
    constructor
    · rw [hrest]
      omega
    · rw [hrest, hdrawn]
      omega
  · have hlength := hperm.length_eq
    rw [List.length_append, List.length_singleton] at hlength
    have hdeck : allTetros.length = 7 := rfl
    rw [hempty, List.length_nil] at hseven
    constructor
    · rw [hrest]
      omega
    · rw [hrest, hdrawn]
      omega

theorem BagCounts.drawTetros {rolls : Rolls} {count : Nat} {e e' : Engine}
    {pieces : List Polyomino} (hbag : BagCounts e) (hloaded : e.Loaded)
    (hdraws : drawTetros rolls count e = some (pieces, e')) :
    BagCounts e' := by
  induction count generalizing e pieces with
  | zero =>
      cases hdraws
      exact hbag
  | succ count ih =>
      simp only [Grzetris.drawTetros, Option.bind_eq_bind,
        Option.bind_eq_some_iff, Option.some.injEq, Prod.mk.injEq,
        Prod.exists] at hdraws
      rcases hdraws with ⟨piece, e₁, hdraw, rest, e₂, hrest, -, rfl⟩
      rcases drawTetro_spec rolls hloaded with
        ⟨shape, bag, e₃, hdraw', -, -, -, hsame⟩
      have hbag' := hbag.drawTetro hloaded hdraw
      rw [hdraw'] at hdraw
      cases hdraw
      exact ih hbag' (hloaded.of_same hsame) hrest

theorem playSession_spec (rolls : Rolls) (session : Session) {e : Engine}
    (hbag : BagCounts e) :
    ∃ memory e', playSession rolls session e = some (memory, e') ∧
      BagCounts e' ∧ e'.drawn = e.drawn + session.draws ∧
      e'.playfields = e.playfields ++ [e.created] ∧
      e'.created = e.created + 1 ∧
      memory = deinitPlayfields
        (Function.update (fun _ => none) e.created (some session.played))
        (e.playfields ++ [e.created]) := by
  have hloaded : (initPlayfield e.init session.height session.width).2.Loaded :=
    loadTetros_loaded e
  rcases drawTetros_spec rolls session.draws hloaded with
    ⟨shapes, e', hdraws, -, -, hdrawn, hsame⟩
  have hbag' : BagCounts e' := by
    refine BagCounts.drawTetros ?_ hloaded hdraws
    exact ⟨hbag.short, hbag.seven⟩
  refine ⟨_, { e' with tetrominoes := fun _ => none }, ?_,
    ⟨hbag'.short, hbag'.seven⟩, hdrawn, hsame.playfields_eq,
    hsame.created_eq, rfl⟩
  simp only [playSession, hdraws, Option.bind_eq_bind, Option.bind_some,
    deinit, hsame.playfields_eq]
  rfl

theorem playSessions_spec (rolls : Rolls) (history : List Session) {e : Engine}
    (hbag : BagCounts e) :
    ∃ e', playSessions rolls history e = some e' ∧ BagCounts e' ∧
      e'.drawn = e.drawn + (history.map Session.draws).sum ∧
      e'.playfields.length = e.playfields.length + history.length := by
  induction history generalizing e with
  | nil => exact ⟨e, rfl, hbag, rfl, rfl⟩
  | cons session history ih =>
      rcases playSession_spec rolls session hbag with
        ⟨memory, e₁, hplay, hbag₁, hdrawn₁, hplayfields₁, -, -⟩
      rcases ih hbag₁ with ⟨e₂, hrest, hbag₂, hdrawn₂, hlength₂⟩
      refine ⟨e₂, by simp [playSessions, hplay, hrest], hbag₂, ?_, ?_⟩
      · rw [hdrawn₂, hdrawn₁, List.map_cons, List.sum_cons, Nat.add_assoc]
      · rw [hlength₂, hplayfields₁]
        simp only [List.length_append, List.length_cons, List.length_nil]
        omega

/-! ## A fresh process -/

theorem fresh_bagCounts : BagCounts Engine.fresh :=
  ⟨by decide, by decide⟩

theorem deinitBlocks_spec {p : Playfield} (hr : p.Rect) :
    ∃ p', deinitBlocks p = some p' := by
  have hrows : ∀ (rows : List Nat) (p₁ : Playfield), p₁.Rect →
      (∀ y ∈ rows, (y : Int) < p₁.h) →
      ∃ p', rows.foldlM (fun p (y : Nat) => (List.range p.w.toNat).foldlM
        (fun p (x : Nat) => deleteBlock p ⟨x, y⟩) p) p₁ = some p' := by
    intro rows
    induction rows with
    | nil => exact fun p₁ _ _ => ⟨p₁, rfl⟩
    | cons y rows ih =>
        intro p₁ hr₁ hy
        rcases deleteCells_spec hr₁ y (hy y List.mem_cons_self)
          (List.range p₁.w.toNat)
          (fun x hx => by rw [List.mem_range] at hx; omega) with
          ⟨p₂, hrow, hbecomes, -⟩
        rcases ih p₂ hbecomes.rect (fun y' hy' => by
          rw [hbecomes.h_eq]
          exact hy y' (List.mem_cons_of_mem _ hy')) with ⟨p', hrest⟩
        exact ⟨p', by simp only [List.foldlM_cons, hrow, Option.bind_eq_bind,
          Option.bind_some, hrest]⟩
  exact hrows _ p hr fun y hy => by
    rw [List.mem_range] at hy
    omega

theorem fresh_noLeak (rolls : Rolls) : NoLeak rolls Engine.fresh := by
  refine ⟨rfl, rfl, rfl, ?_, ?_⟩
  · intro session
    rcases playSession_spec rolls session fresh_bagCounts with
      ⟨memory, e', hplay, -, -, -, -, hmemory⟩
    rcases deinitBlocks_spec session.rect with ⟨blocks, hblocks⟩
    have hsome : memory = some (Function.update
        (Function.update (fun _ => none) 0 (some session.played)) 0
        (some blocks)) := by
      rw [hmemory]
      simp [deinitPlayfields, Engine.fresh, hblocks]
    rw [hsome] at hplay
    exact ⟨_, e', hplay⟩
  · intro height width
    have hloaded : (initPlayfield Engine.fresh.init height width).2.Loaded :=
      loadTetros_loaded Engine.fresh
    rcases drawTetros_spec rolls 7 hloaded with
      ⟨shapes, e', hdraws, hlength, hdealt, -⟩
    have hempty : (initPlayfield Engine.fresh.init height width).2.tetroBag.reverse
        = [] := rfl
    have hseven : allTetros.length = 7 := rfl
    rw [hempty] at hdealt
    have hperm := hdealt.block_perm (by decide) (k := 0)
      (by rw [hlength, hseven])
    rw [Nat.mul_zero, List.drop_zero, List.take_of_length_le
      (by rw [hlength, hseven])] at hperm
    exact ⟨_, e', hdraws, hperm.map template⟩

/-- Complete sessions leak into the next one: the templates come back, the bag is
empty only after a multiple of seven draws, and the registered playfields
are never the same again. -/
theorem noLeak_iff (rolls : Rolls) (history : List Session) :
    ∃ e, playSessions rolls history Engine.fresh = some e ∧
      (NoLeak rolls e ↔ history = []) ∧
      e.init.tetrominoes = Engine.fresh.init.tetrominoes ∧
      (e.init.tetroBag = Engine.fresh.init.tetroBag ↔
        7 ∣ (history.map Session.draws).sum) := by
  rcases playSessions_spec rolls history fresh_bagCounts with
    ⟨e, hplay, hbag, hdrawn, hlength⟩
  refine ⟨e, hplay, ?_, rfl, ?_⟩
  · constructor
    · intro hnoLeak
      have hplayfields : e.playfields = [] := hnoLeak.playfields
      rw [hplayfields, List.length_nil] at hlength
      exact List.length_eq_zero_iff.mp (by omega)
    · rintro rfl
      cases hplay
      exact fresh_noLeak rolls
  · show e.tetroBag = [] ↔ _
    rw [hbag.empty_iff, hdrawn]
    show 7 ∣ 0 + _ ↔ _
    rw [Nat.zero_add]

def shortSession : Session where
  height := 20
  width := 10
  draws := 2
  played := (initPlayfield Engine.fresh 20 10).1
  rect := Rows.isRect_replicate 20 10 none

theorem leaks :
    ¬ ∀ (rolls : Rolls) (history : List Session) (e : Engine),
      playSessions rolls history Engine.fresh = some e → NoLeak rolls e := by
  intro hnoLeak
  have hplay : (playSessions (fun _ _ => 0) [shortSession] Engine.fresh).map
      (fun e => (e.init.playfields, e.init.tetroBag)) =
      some ([0], [.i, .o, .t, .l, .j]) := by
    decide +kernel
  simp only [Option.map_eq_some_iff, Prod.mk.injEq] at hplay
  rcases hplay with ⟨e, hsessions, hplayfields, -⟩
  rw [(hnoLeak _ _ e hsessions).playfields] at hplayfields
  contradiction

/-! ## The main loop as a session -/

theorem timeoutAction_engine {rolls : Rolls} {g g' : Game} {result : Int}
    (hact : timeoutAction rolls g = some (result, g')) :
    g'.engine = g.engine ∨
      ∃ piece, drawTetro rolls g.engine = some (piece, g'.engine) := by
  simp only [timeoutAction, Option.bind_eq_bind, Option.bind_eq_some_iff,
    Prod.exists] at hact
  rcases hact with ⟨moved, p, shape, -, hact⟩
  cases moved with
  | true =>
      simp only [if_true, Option.some.injEq, Prod.mk.injEq] at hact
      rcases hact with ⟨-, rfl⟩
      exact .inl rfl
  | false =>
      simp only [Bool.false_eq_true, if_false, spawn_eq, Option.bind_eq_bind,
        Option.bind_eq_some_iff, Option.some.injEq, Prod.mk.injEq,
        Prod.exists] at hact
      rcases hact with ⟨_, -, piece, engine, hdraw, _, _, _, -, -, rfl⟩
      exact .inr ⟨piece, hdraw⟩

variable {env : Env} {engine : Engine} {s s' : RunState} {calls : List Call}

theorem Steps.engine_cases {fetched : List Bind} (h : Steps env fetched s calls s') :
    s'.game.engine = s.game.engine ∨
      ∃ piece, drawTetro env.rolls s.game.engine =
        some (piece, s'.game.engine) := by
  cases h with
  | begins _ _ | exits _ _ | inputsDone _ | stays _ => exact .inl rfl
  | handles _ hhandle =>
      cases hhandle with
      | ignored _ | quit | skipped _ _ | left _ _ | right _ _
      | rotate _ _ => exact .inl rfl
      | drop _ hact | down hact =>
          have hcases := timeoutAction_engine hact
          exact hcases
  | locksOut _ hblock =>
      cases hblock with
      | inactive _ => exact .inl rfl
      | waits _ _ _ | leaves _ _ =>
          exact .inl (congrArg Game.engine graced_game)
      | locks _ _ _ _ hact => exact timeoutAction_engine hact
  | timesOut _ hblock =>
      cases hblock with
      | early _ | waits _ _ _ | primes _ _ _ | falls _ _ _ => exact .inl rfl

/-- All that a run of the main loop does to the globals after `init` and
`initPlayfield` is to draw pieces, so a game is a session. -/
theorem run_draws (run : GameRun env engine) :
    ∀ k ≤ run.length, ∃ count pieces,
      drawTetros env.rolls count (initPlayfield engine.init 20 10).2 =
        some (pieces, (run.state k).game.engine) := by
  refine run.invariant_index ?_ ?_
  · have hgame := (startRun_eq run.start).1
    simp only [startGame, Option.bind_eq_bind, Option.bind_eq_some_iff,
      Option.some.injEq, Prod.exists] at hgame
    rcases hgame with
      ⟨first, e₁, hfirst, second, e₂, hsecond, _, _, -, hgame⟩
    have hnone : drawTetros env.rolls 0 (initPlayfield engine.init 20 10).2 =
        some ([], (initPlayfield engine.init 20 10).2) := rfl
    have hone := drawTetros_snoc hnone hfirst
    rw [← hgame]
    exact ⟨2, _, drawTetros_snoc hone hsecond⟩
  · rintro k hk ⟨count, pieces, hdraws⟩
    rcases (run.steps hk).engine_cases with hsame | ⟨piece, hdraw⟩
    · rw [hsame]
      exact ⟨count, pieces, hdraws⟩
    · exact ⟨count + 1, _, drawTetros_snoc hdraws hdraw⟩

theorem GameRun.playfields (run : GameRun env engine) {k : Nat}
    (hk : k ≤ run.length) :
    (run.state k).game.engine.playfields =
        engine.playfields ++ [engine.created] ∧
      (run.state k).game.engine.created = engine.created + 1 := by
  obtain ⟨count, pieces, hdraws⟩ := run_draws run k hk
  obtain ⟨_, _, hdraws', -, -, -, hsame⟩ := drawTetros_spec env.rolls count
    (e := (initPlayfield engine.init 20 10).2) (loadTetros_loaded engine)
  rw [hdraws'] at hdraws
  cases hdraws
  exact ⟨hsame.playfields_eq, hsame.created_eq⟩

end Grzetris
