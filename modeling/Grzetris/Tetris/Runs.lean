import Grzetris.Game.Cleared
import Grzetris.Game.Pace
import Grzetris.Tetris.Refinement

/-!
# Every run plays a game

The calls that the loop makes, with the answers it gets, are the moves of a game
of `Tetris`, as long as no piece lands on the corner cell.
-/

namespace Grzetris

open Foundation Playfield

/-! ## Calls as moves -/

/-- A call and its answer, by the rules. -/
inductive Performs (sequence : Nat → TetroShapes) :
    Call → Tetris → Tetris → Prop
  | move {t t' : Tetris} {displacement : Vect2D} {moved : Bool} :
      t.shift displacement = (moved, t') →
      Performs sequence (.move displacement moved) t t'
  | rotate {t t' : Tetris} {result : Int} : t.turn = (result == 0, t') →
      Performs sequence (.rotate result) t t'
  | drop {t : Tetris} : Performs sequence .drop t t.drop
  | timeoutAction {t t' : Tetris} {result : Int} :
      t.tick sequence = (result == 1, t') →
      Performs sequence (.timeoutAction result) t t'

inductive PerformsAll (sequence : Nat → TetroShapes) :
    List Call → Tetris → Tetris → Prop
  | nil {t : Tetris} : PerformsAll sequence [] t t
  | cons {t t' t'' : Tetris} {call : Call} {calls : List Call} :
      Performs sequence call t t' → PerformsAll sequence calls t' t'' →
      PerformsAll sequence (call :: calls) t t''

theorem PerformsAll.single {sequence : Nat → TetroShapes} {t t' : Tetris}
    {call : Call} (hperforms : Performs sequence call t t') :
    PerformsAll sequence [call] t t' := .cons hperforms .nil

theorem PerformsAll.of_single {sequence : Nat → TetroShapes} {t t' : Tetris}
    {call : Call} (hperforms : PerformsAll sequence [call] t t') :
    Performs sequence call t t' := by
  cases hperforms with
  | cons hfirst hrest =>
      cases hrest
      exact hfirst

/-- A timeout action of this step lands a piece that covers the corner cell.  A
piece that can still fall is gone from the top row when a drop lands it. -/
def LandsOnCorner (s : RunState) (calls : List Call) : Prop :=
  (∃ result, .timeoutAction result ∈ calls) ∧
    canShapeFall s.game = some false ∧ ⟨0, 0⟩ ∈ s.game.shape.cells

variable {env : Env} {s s' : RunState} {calls : List Call}
  {sequence : Nat → TetroShapes} {before : Nat} {t : Tetris} {rolls : Rolls}
  {g g' : Game}
  {p p' : Playfield} {shape shape' : Polyomino}

theorem Polyomino.oldCells_subset {q : Vect2D} (hq : q ∈ shape.oldCells) :
    q ∈ shape.cells := by
  unfold oldCells at hq
  split at hq
  · exact hq
  · contradiction

/-- A piece that has come down by a row has left the top row. -/
theorem corner_notMem_of_step (hboard : PieceBoard p shape)
    (hmove : movePolyno p shape ⟨0, 1⟩ = some (true, p', shape')) :
    ⟨0, 0⟩ ∉ shape'.cells := by
  rw [movePolyno_eq_true hmove]
  intro hmem
  obtain ⟨b, hb, heq⟩ := List.mem_map.mp hmem
  rcases hboard.place with hunplaced | hplaced
  · obtain ⟨n, c, htetro⟩ := hboard.tetromino
    have hfar : ((⟨0, 1⟩ : Vect2D) + shape.pos).x < -3 := by
      rw [hunplaced]
      decide
    rw [movePolyno_refused hboard.toBoard (htetro.not_fits hfar true)] at hmove
    cases hmove
  · have hin := hplaced.inBounds _ (List.mem_map_of_mem hb)
    have hy := congrArg Vect2D.y heq
    rw [inBounds_iff] at hin
    simp only [Vect2D.add_y] at hin hy
    omega

theorem corner_notMem_of_drop (hboard : PieceBoard p shape)
    (hcorner : movePolyno p shape ⟨0, 1⟩ = some (false, p, shape) →
      ⟨0, 0⟩ ∉ shape.cells)
    (hdrop : dropPolyno p shape = some (p', shape')) :
    ⟨0, 0⟩ ∉ shape'.cells := by
  obtain ⟨n, c, htetro⟩ := hboard.tetromino
  obtain ⟨p₁, shape₁, hdrop₁, ⟨-, hlanded⟩, hrests⟩ := dropPolyno_rule
    (fun p₁ shape₁ => PieceBoard p₁ shape₁ ∧
      (p₁ = p ∧ shape₁ = shape ∨ ⟨0, 0⟩ ∉ shape₁.cells))
    (fun _ _ hinv => hinv.1.toBoard)
    (fun p₁ shape₁ p₂ shape₂ hinv hmove => by
      obtain ⟨moved, p₃, shape₃, hmove₃, hboard₃, -⟩ := hinv.1.move ⟨0, 1⟩
      rw [hmove₃] at hmove
      cases hmove
      exact ⟨hboard₃, .inr (corner_notMem_of_step hinv.1 hmove₃)⟩)
    htetro.ne_nil ⟨hboard, .inl ⟨rfl, rfl⟩⟩
  rw [hdrop] at hdrop₁
  cases hdrop₁
  rcases hlanded with ⟨rfl, rfl⟩ | hnot
  · exact hcorner hrests
  · exact hnot

/-! ## Steps -/

theorem Shows.acts (hshows : Shows rolls sequence before g t)
    (hcorner : canShapeFall g = some false → ⟨0, 0⟩ ∉ g.shape.cells)
    {result : Int} (hact : timeoutAction rolls g = some (result, g')) :
    ∃ t', PerformsAll sequence [.timeoutAction result] t t' ∧
      Shows rolls sequence before g' t' := by
  obtain ⟨t', htick, hshows'⟩ := hshows.tick
    (fun hmove hold => hcorner (canShapeFall_of_move hmove)
      (Polyomino.oldCells_subset hold)) hact
  exact ⟨t', .single (.timeoutAction htick), hshows'⟩

theorem not_landsOnCorner {result : Int} (hsafe : ¬ LandsOnCorner s calls)
    (hmem : .timeoutAction result ∈ calls) :
    canShapeFall s.game = some false → ⟨0, 0⟩ ∉ s.game.shape.cells :=
  fun hfall hcell => hsafe ⟨⟨result, hmem⟩, hfall, hcell⟩

theorem Shows.handles {bind : Bind}
    (hshows : Shows env.rolls sequence before s.game t)
    (h : Handles env s bind calls s') (hsafe : ¬ LandsOnCorner s calls) :
    ∃ t', PerformsAll sequence calls t t' ∧
      Shows env.rolls sequence before s'.game t' := by
  cases h with
  | ignored _ => exact ⟨t, .nil, hshows⟩
  | quit => exact ⟨t, .nil, hshows⟩
  | skipped _ _ => exact ⟨t, .nil, hshows⟩
  | left _ hmove =>
      obtain ⟨t', hshift, hshows'⟩ := hshows.shift (by decide) hmove
      exact ⟨t', .single (.move hshift), hshows'⟩
  | right _ hmove =>
      obtain ⟨t', hshift, hshows'⟩ := hshows.shift (by decide) hmove
      exact ⟨t', .single (.move hshift), hshows'⟩
  | rotate _ hrotate =>
      obtain ⟨t', hturn, hshows'⟩ := hshows.turn hrotate
      exact ⟨t', .single (.rotate hturn), hshows'⟩
  | drop hdrop hact =>
      have hsafe' := not_landsOnCorner hsafe (.tail _ (.head _))
      have hdropped := hshows.drop hdrop
      have hnot := corner_notMem_of_drop hshows.inv.board
        (fun hmove => hsafe' (canShapeFall_of_move hmove)) hdrop
      obtain ⟨t', hperforms, hshows'⟩ := hdropped.acts (fun _ => hnot) hact
      exact ⟨t', .cons .drop hperforms, hshows'⟩
  | down hact =>
      exact hshows.acts (not_landsOnCorner hsafe (.head _)) hact

theorem Shows.locksOut (hshows : Shows env.rolls sequence before s.game t)
    (h : LocksOut env s calls s') (hsafe : ¬ LandsOnCorner s calls) :
    ∃ t', PerformsAll sequence calls t t' ∧
      Shows env.rolls sequence before s'.game t' := by
  cases h with
  | inactive _ => exact ⟨t, .nil, hshows⟩
  | waits _ _ _ => exact ⟨t, .nil, by rw [graced_game]; exact hshows⟩
  | leaves _ _ => exact ⟨t, .nil, by
      change Shows _ _ _ (graced env s).game t
      rw [graced_game]
      exact hshows⟩
  | locks _ _ _ _ hact =>
      exact hshows.acts (not_landsOnCorner hsafe (.head _)) hact

theorem Shows.timesOut (hshows : Shows env.rolls sequence before s.game t)
    (h : TimesOut env s calls s') :
    ∃ t', PerformsAll sequence calls t t' ∧
      Shows env.rolls sequence before s'.game t' := by
  cases h with
  | early _ => exact ⟨t, .nil, hshows⟩
  | waits _ _ _ => exact ⟨t, .nil, hshows⟩
  | primes _ _ _ => exact ⟨t, .nil, hshows⟩
  | falls _ _ hmove =>
      obtain ⟨hshift, hshows'⟩ := hshows.fallen hmove
      have htick : t.tick sequence = (false, t.fallen) := by
        simp [Tetris.tick, hshift]
      exact ⟨t.fallen, .single (.timeoutAction htick), hshows'⟩

theorem Shows.steps {fetched : List Bind}
    (hshows : Shows env.rolls sequence before s.game t)
    (h : Steps env fetched s calls s') (hsafe : ¬ LandsOnCorner s calls) :
    ∃ t', PerformsAll sequence calls t t' ∧
      Shows env.rolls sequence before s'.game t' := by
  cases h with
  | begins _ _ => exact ⟨t, .nil, hshows⟩
  | exits _ _ => exact ⟨t, .nil, hshows⟩
  | inputsDone _ => exact ⟨t, .nil, hshows⟩
  | handles _ hhandles =>
      obtain ⟨t', hperforms, hshows'⟩ := hshows.handles hhandles hsafe
      exact ⟨t', hperforms, hshows'⟩
  | locksOut _ hlocks =>
      obtain ⟨t', hperforms, hshows'⟩ := hshows.locksOut hlocks hsafe
      exact ⟨t', hperforms, hshows'⟩
  | timesOut _ htimes =>
      obtain ⟨t', hperforms, hshows'⟩ := hshows.timesOut htimes
      exact ⟨t', hperforms, hshows'⟩
  | stays _ => exact ⟨t, .nil, hshows⟩

/-! ## Runs -/

variable {engine : Engine}

/-- The piece goes to the right and is dropped, the next one is dropped too. -/
def dropScript : List (List Bind) :=
  [[.gameRight, .gameDrop], [], [], [], [], [], [.gameRotate, .gameDrop], [],
    [], []]

/-- A check that a step lands no piece on the corner cell. -/
def cornerSpared (s : RunState) (calls : List Call) (_ : RunState) : Bool :=
  calls = [] || canShapeFall s.game ≠ some false ||
    (⟨0, 0⟩ : Vect2D) ∉ s.game.shape.cells

theorem not_landsOnCorner_of_spared
    (hspared : cornerSpared s calls s' = true) : ¬ LandsOnCorner s calls := by
  rintro ⟨⟨result, hmem⟩, hrests, hcell⟩
  simp only [cornerSpared, Bool.or_eq_true, decide_eq_true_eq] at hspared
  rcases hspared with (hnil | hfalls) | hfree
  · rw [hnil] at hmem
    exact List.not_mem_nil hmem
  · exact hfalls hrests
  · exact hfree hcell

theorem exists_dropRun : ∃ run : GameRun (steadyEnv 1) Engine.fresh,
    run.length = 10 ∧ run.event 8 = [.drop, .timeoutAction 0] ∧
      ∀ k < run.length, ¬ LandsOnCorner (run.state k) (run.event k) := by
  have hvisited : ((startRun (steadyEnv 1) Engine.fresh).bind fun s =>
      (trace (step (steadyEnv 1)) dropScript s).map fun visited =>
        (visited.length, checks cornerSpared s visited,
          visited[8]?.map Prod.fst)) =
      some (10, true, some [.drop, .timeoutAction 0]) := by
    decide +kernel
  simp only [Option.bind_eq_some_iff, Option.map_eq_some_iff, Prod.mk.injEq,
    Prod.exists, exists_and_right, exists_eq_right] at hvisited
  obtain ⟨s, hstart, visited, htrace, hlength, hspared, s₈, h₈⟩ := hvisited
  obtain ⟨run, hrun, hstates, hchecked⟩ :=
    exists_run_of_checks hstart htrace hspared
  exact ⟨run, hrun.trans hlength, (hstates 8 _ _ h₈).1,
    fun k hk => not_landsOnCorner_of_spared (hchecked k hk)⟩

/--
A run that never lands a piece on the corner cell plays a game of Tetris: there
are states of the rules, from the start on, such that every step's calls get the
answers that the rules give, and the playfield always shows what they show.
-/
theorem run_plays (run : GameRun env engine)
    (hsafe : ∀ k < run.length, ¬ LandsOnCorner (run.state k) (run.event k)) :
    ∃ sequence, Supplies env.rolls (initPlayfield engine.init 20 10).2 sequence ∧
      ∃ ts : Nat → Tetris, ts 0 = Tetris.start sequence 20 10 ∧
        (∀ k ≤ run.length,
          Shows env.rolls sequence engine.drawn (run.state k).game (ts k)) ∧
        ∀ k < run.length,
          PerformsAll sequence (run.event k) (ts k) (ts (k + 1)) := by
  obtain ⟨sequence, hsupply, hstart⟩ := Shows.start (startRun_eq run.start).1
  refine ⟨sequence, hsupply, run.simulates
    (R := fun s t => Shows env.rolls sequence engine.drawn s.game t) hstart ?_⟩
  intro k hk t hshows
  exact hshows.steps (run.steps hk) (hsafe k hk)

theorem run_plays_drops : ∃ run : GameRun (steadyEnv 1) Engine.fresh,
    run.length = 10 ∧ run.event 8 = [.drop, .timeoutAction 0] ∧
      ∃ sequence, Supplies (steadyEnv 1).rolls
          (initPlayfield Engine.fresh.init 20 10).2 sequence ∧
        ∃ ts : Nat → Tetris, ts 0 = Tetris.start sequence 20 10 ∧
          (∀ k ≤ run.length, Shows (steadyEnv 1).rolls sequence
            Engine.fresh.drawn (run.state k).game (ts k)) ∧
          ∀ k < run.length,
            PerformsAll sequence (run.event k) (ts k) (ts (k + 1)) := by
  obtain ⟨run, hlength, hevent, hsafe⟩ := exists_dropRun
  exact ⟨run, hlength, hevent, run_plays run hsafe⟩

/-! ## What the player can count on -/

/-- Spawns that found no room. -/
def refusals (calls : List Call) : Nat := calls.count (.timeoutAction 1)

theorem refusals_append (calls calls' : List Call) :
    refusals (calls ++ calls') = refusals calls + refusals calls' :=
  List.count_append

theorem refusals_act (result : Int) :
    refusals [.timeoutAction result] = if result = 1 then 1 else 0 := by
  by_cases hone : result = 1 <;> simp [refusals, hone]

theorem Performs.counts {call : Call} {t t' : Tetris} (hs : t.Sound)
    (h : Performs sequence call t t') :
    t'.Sound ∧ Tetris.Counts (refusals [call]) (timeoutActions [call]) t t' := by
  cases h with
  | move hshift =>
      rw [Tetris.shift] at hshift
      obtain rfl := congrArg Prod.snd hshift
      exact ⟨hs.attempt _, Tetris.attempt_counts t _⟩
  | rotate hturn =>
      obtain rfl := congrArg Prod.snd hturn
      exact ⟨hs.attempt _, Tetris.attempt_counts t _⟩
  | drop => exact ⟨hs.drop, Tetris.fallen_counts t _⟩
  | @timeoutAction _ _ result htick =>
      have hcounts := hs.tick_counts sequence
      have hsound := hs.tick sequence
      rw [htick] at hcounts hsound
      refine ⟨hsound, ?_⟩
      have hrefusals : refusals [.timeoutAction result] =
          (result == 1).toNat := by
        rw [refusals_act]
        by_cases hone : result = 1
        · simp [hone]
        · simp [hone, beq_eq_false_iff_ne.mpr hone]
      rw [hrefusals]
      exact hcounts

theorem PerformsAll.counts {t t' : Tetris} (hs : t.Sound)
    (h : PerformsAll sequence calls t t') :
    Tetris.Counts (refusals calls) (timeoutActions calls) t t' := by
  induction h with
  | nil => exact .refl _
  | @cons t t' t'' call calls hfirst _ ih =>
      obtain ⟨hs', hcounts⟩ := hfirst.counts hs
      have hsplit := hcounts.trans (ih hs')
      have hrefusals : refusals (call :: calls) =
          refusals [call] + refusals calls := refusals_append [call] calls
      have htimeouts : timeoutActions (call :: calls) =
          timeoutActions [call] + timeoutActions calls :=
        timeoutActions_append [call] calls
      rw [hrefusals, htimeouts]
      exact hsplit

/-- Every row has a gap that the current piece may stand in. -/
theorem Shows.exists_gap (hshows : Shows rolls sequence before g t) {y : Int}
    (hy : 0 ≤ y) (hheight : y < 20) :
    ∃ x, g.p.InBounds ⟨x, y⟩ ∧
      (g.p.look ⟨x, y⟩ = none ∨ ⟨x, y⟩ ∈ g.shape.cells) := by
  have hrow : y < t.stack.height := by
    rw [hshows.sized.height, hshows.inv.h_eq]
    exact hheight
  obtain ⟨x, hfree⟩ := Well.exists_free hshows.sound.cleared hy hrow
  obtain ⟨hin, hvacant⟩ := hshows.free_iff (q := ⟨x, y⟩).mp hfree
  exact ⟨x, hin, hvacant.imp_right Polyomino.oldCells_subset⟩

theorem Shows.countBlocks_eq (hshows : Shows rolls sequence before g t) :
    (countBlocks g.p.blocks : Int) + 10 * t.lines = 4 * t.pieces := by
  have hcount : t.grid.count = countBlocks g.p.blocks := by
    rw [Well.count, hshows.grid, colours, countBlocks, ← List.map_flatten,
      List.countP_map]
    congr 1
    funext content
    exact Option.isSome_map
  have hcounted := hshows.sound.counted_grid
  rw [hshows.sized.width, hshows.inv.w_eq] at hcounted
  omega

/-! ## The rows cleared -/

theorem Shows.clearedByAction_eq (hshows : Shows rolls sequence before g t)
    {t' : Tetris} {refused : Bool} (htick : t.tick sequence = (refused, t')) :
    (t'.lines : Int) = t.lines + clearedByAction g := by
  obtain ⟨moved, p, shape, hmove, -⟩ := hshows.inv.board.move ⟨0, 1⟩
  obtain ⟨hshift, -⟩ := hshows.fallen hmove
  rw [Tetris.tick, hshift] at htick
  obtain rfl := congrArg Prod.snd htick
  cases moved with
  | true =>
      rw [clearedByAction_of_moved hmove, Int.add_zero]
      exact congrArg Nat.cast (Tetris.fallen_lines 1 t)
  | false =>
      obtain ⟨rfl, -⟩ := movePolyno_eq_false hmove
      rw [clearedByAction_of_refused hmove,
        numCleared_eq hshows.inv.board.rect hshows.inv.board.height,
        ← fullRows_eq_countP hshows.grid]
      simp [Tetris.spawn_lines, Tetris.land]

theorem Performs.lines_eq {call : Call} (hperforms : Performs sequence call t t')
    (hcall : timeoutActions [call] = 0) (hs : t.Sound) : t'.lines = t.lines := by
  have hcounts := (hperforms.counts hs).2
  have hge := hcounts.lines_ge
  have hle := hcounts.lines_le
  omega

/-- The rules count the rows that the program clears. -/
theorem Shows.clears {t' : Tetris} {fetched : List Bind}
    (hshows : Shows env.rolls sequence before s.game t)
    (h : Steps env fetched s calls s')
    (hperforms : PerformsAll sequence calls t t') :
    (t'.lines : Int) = t.lines + clearedBy s.game calls := by
  have hact : ∀ {result}, PerformsAll sequence [.timeoutAction result] t t' →
      (t'.lines : Int) = t.lines + clearedByAction s.game := by
    intro result hacts
    cases hacts.of_single with
    | timeoutAction htick => exact hshows.clearedByAction_eq htick
  have hnone : PerformsAll sequence [] t t' → (t'.lines : Int) = t.lines := by
    rintro ⟨⟩
    rfl
  cases h with
  | begins _ _ | exits _ _ | inputsDone _ | stays _ =>
      simpa [clearedBy] using hnone hperforms
  | handles _ hhandles =>
      cases hhandles with
      | ignored _ | quit | skipped _ _ =>
          simpa [clearedBy] using hnone hperforms
      | left _ _ | right _ _ | rotate _ _ =>
          have hlines := hperforms.of_single.lines_eq rfl hshows.sound
          simp [clearedBy, hlines]
      | drop hdrop _ =>
          cases hperforms with
          | cons hfirst hrest =>
              cases hfirst
              cases hrest.of_single with
              | timeoutAction htick =>
                  have hlines := (hshows.drop hdrop).clearedByAction_eq htick
                  simp only [clearedBy, hdrop]
                  rw [hlines, Tetris.drop_lines]
      | down _ => exact hact hperforms
  | locksOut _ hlocks =>
      cases hlocks with
      | inactive _ | waits _ _ _ | leaves _ _ =>
          simpa [clearedBy] using hnone hperforms
      | locks _ _ _ _ _ => exact hact hperforms
  | timesOut _ htimes =>
      cases htimes with
      | early _ | waits _ _ _ | primes _ _ _ =>
          simpa [clearedBy] using hnone hperforms
      | falls _ _ _ => exact hact hperforms

/-- A run and a game of the rules that it plays. -/
structure Plays (run : GameRun env engine) (sequence : Nat → TetroShapes)
    (ts : Nat → Tetris) : Prop where
  start : ts 0 = Tetris.start sequence 20 10
  shows : ∀ k ≤ run.length,
    Shows env.rolls sequence engine.drawn (run.state k).game (ts k)
  performs : ∀ k < run.length,
    PerformsAll sequence (run.event k) (ts k) (ts (k + 1))

theorem exists_plays (run : GameRun env engine)
    (hsafe : ∀ k < run.length,
      ¬ LandsOnCorner (run.state k) (run.event k)) :
    ∃ sequence ts, Plays run sequence ts := by
  obtain ⟨sequence, -, hbegin⟩ := Shows.start (startRun_eq run.start).1
  obtain ⟨ts, hstart, hshows, hperforms⟩ := run.simulates
    (R := fun s t => Shows env.rolls sequence engine.drawn s.game t) hbegin
    fun k hk t hshows => hshows.steps (run.steps hk) (hsafe k hk)
  exact ⟨sequence, ts, hstart, hshows, hperforms⟩

variable {run : GameRun env engine} {ts : Nat → Tetris}

theorem Plays.clears (hplays : Plays run sequence ts) {k : Nat}
    (hk : k < run.length) : ((ts (k + 1)).lines : Int) =
      (ts k).lines + clearedBy (run.state k).game (run.event k) :=
  (hplays.shows k (Nat.le_of_lt hk)).clears (run.steps hk)
    (hplays.performs k hk)

theorem Plays.lines_eq (hplays : Plays run sequence ts) :
    ∀ k ≤ run.length, ((ts k).lines : Int) = run.cleared k := by
  intro k hk
  induction k with
  | zero => rw [hplays.start]; rfl
  | succ k ih => rw [hplays.clears hk, run.cleared_succ, ih (Nat.le_of_lt hk)]

theorem Plays.counts (hplays : Plays run sequence ts) {k : Nat}
    (hk : k < run.length) :
    (ts k).Counts (refusals (run.event k)) (timeoutActions (run.event k))
      (ts (k + 1)) :=
  (hplays.performs k hk).counts (hplays.shows k (Nat.le_of_lt hk)).sound

/-- Blocks and pieces along a run. -/
theorem Plays.balance (hplays : Plays run sequence ts) :
    ∀ k ≤ run.length,
      (countBlocks (run.state k).game.p.blocks : Int) + 10 * run.cleared k =
        4 * ((run.state k).game.engine.drawn - engine.drawn - 1 -
          refusals ((List.range k).flatMap run.event)) := by
  have hpieces : ∀ k ≤ run.length, (ts k).pieces +
      refusals ((List.range k).flatMap run.event) = (ts k).spawned := by
    intro k hk
    induction k with
    | zero => rw [hplays.start]; rfl
    | succ k ih =>
        have hstep := (hplays.counts hk).pieces
        have hbefore := ih (Nat.le_of_lt hk)
        rw [List.range_succ, List.flatMap_append, List.flatMap_singleton,
          refusals_append]
        omega
  intro k hk
  have hblocks := (hplays.shows k hk).countBlocks_eq
  have hlines := hplays.lines_eq k hk
  have hdrawn := (hplays.shows k hk).drawn
  have hspawned := hpieces k hk
  omega

/-- A step clears four rows at most. -/
theorem Plays.clearedBy_le (hplays : Plays run sequence ts) {k : Nat}
    (hk : k < run.length) :
    0 ≤ clearedBy (run.state k).game (run.event k) ∧
      clearedBy (run.state k).game (run.event k) ≤ 4 := by
  have hcounts := hplays.counts hk
  have hge := hcounts.lines_ge
  have hle := hcounts.lines_le
  have hlanding := (run.steps hk).timeoutActions_le
  have hclears := hplays.clears hk
  omega

/--
In a run that never lands a piece on the corner cell the blocks on the grid are
the four of each piece that came in, less ten for each row cleared; no step
clears more than four rows, and no row is ever full without the current piece.
-/
theorem run_conserves (run : GameRun env engine)
    (hsafe : ∀ k < run.length,
      ¬ LandsOnCorner (run.state k) (run.event k)) :
    (∀ k < run.length, 0 ≤ clearedBy (run.state k).game (run.event k) ∧
      clearedBy (run.state k).game (run.event k) ≤ 4) ∧
    ∀ k ≤ run.length,
      (countBlocks (run.state k).game.p.blocks : Int) + 10 * run.cleared k =
          4 * ((run.state k).game.engine.drawn - engine.drawn - 1 -
            refusals ((List.range k).flatMap run.event)) ∧
        ∀ y, 0 ≤ y → y < 20 → ∃ x, (run.state k).game.p.InBounds ⟨x, y⟩ ∧
          ((run.state k).game.p.look ⟨x, y⟩ = none ∨
            ⟨x, y⟩ ∈ (run.state k).game.shape.cells) := by
  obtain ⟨sequence, ts, hplays⟩ := exists_plays run hsafe
  refine ⟨fun k hk => hplays.clearedBy_le hk, fun k hk => ?_⟩
  exact ⟨hplays.balance k hk,
    fun y hy hheight => (hplays.shows k hk).exists_gap hy hheight⟩

theorem run_conserves_drops : ∃ run : GameRun (steadyEnv 1) Engine.fresh,
    run.length = 10 ∧ run.event 8 = [.drop, .timeoutAction 0] ∧
      (∀ k < run.length, 0 ≤ clearedBy (run.state k).game (run.event k) ∧
        clearedBy (run.state k).game (run.event k) ≤ 4) ∧
      ∀ k ≤ run.length,
        (countBlocks (run.state k).game.p.blocks : Int) + 10 * run.cleared k =
            4 * ((run.state k).game.engine.drawn - Engine.fresh.drawn - 1 -
              refusals ((List.range k).flatMap run.event)) ∧
          ∀ y, 0 ≤ y → y < 20 → ∃ x, (run.state k).game.p.InBounds ⟨x, y⟩ ∧
            ((run.state k).game.p.look ⟨x, y⟩ = none ∨
              ⟨x, y⟩ ∈ (run.state k).game.shape.cells) := by
  obtain ⟨run, hlength, hevent, hsafe⟩ := exists_dropRun
  exact ⟨run, hlength, hevent, run_conserves run hsafe⟩

end Grzetris
