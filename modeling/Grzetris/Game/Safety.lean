import Grzetris.Game.Steps

/-!
# Index safety

The lockout block drops the result of its timeout action, so a run can go on
with a piece that was never placed.  A rotation of that piece is the one step
of the loop that leaves the vectors.
-/

namespace Grzetris

open Foundation Playfield

variable {s : RunState}

/-- A rotation is about to be attempted while the piece is off the grid. -/
def RotatesUnplaced (s : RunState) : Prop :=
  (∃ queue, s.phase = .input (.gameRotate :: queue)) ∧ s.hasMoved = false ∧
    s.game.shape.Unplaced

/-! ## Every other step succeeds -/

theorem RunInv.exists_canShapeFall {g : Game} (hinv : RunInv g) :
    ∃ canFall, canShapeFall g = some canFall :=
  ⟨_, hinv.board.polynoMoveCheck_eq _ true⟩

theorem RunInv.exists_rotates (hinv : RunInv s.game) (env : Env)
    (hsafe : s.hasMoved = false → ¬ s.game.shape.Unplaced) :
    ∃ calls s', Handles env s .gameRotate calls s' := by
  cases hmoved : s.hasMoved with
  | true => exact ⟨_, _, .skipped (.inr (.inr rfl)) hmoved⟩
  | false =>
      have hplaced := hinv.board.place.resolve_left (hsafe hmoved)
      obtain ⟨result, p, shape, hrotate, -⟩ := hinv.board.rotate hplaced
      exact ⟨_, _, .rotate hmoved hrotate⟩

theorem RunInv.exists_handles (hinv : RunInv s.game) (env : Env) (bind : Bind)
    (hsafe : bind = .gameRotate → s.hasMoved = false →
      ¬ s.game.shape.Unplaced) :
    ∃ calls s', Handles env s bind calls s' := by
  cases bind with
  | gameQuit => exact ⟨_, _, .quit⟩
  | gameLeft =>
      cases hmoved : s.hasMoved with
      | true => exact ⟨_, _, .skipped (.inl rfl) hmoved⟩
      | false =>
          obtain ⟨moved, p, shape, hmove, -⟩ := hinv.board.move ⟨-1, 0⟩
          exact ⟨_, _, .left hmoved hmove⟩
  | gameRight =>
      cases hmoved : s.hasMoved with
      | true => exact ⟨_, _, .skipped (.inr (.inl rfl)) hmoved⟩
      | false =>
          obtain ⟨moved, p, shape, hmove, -⟩ := hinv.board.move ⟨1, 0⟩
          exact ⟨_, _, .right hmoved hmove⟩
  | gameRotate => exact hinv.exists_rotates env (hsafe rfl)
  | gameDrop =>
      obtain ⟨p, shape, hdrop, -⟩ := hinv.board.drop
      obtain ⟨result, game, hact, -⟩ :=
        timeoutAction_spec env.rolls (hinv.drop hdrop).toGameInv
      exact ⟨_, _, .drop hdrop hact⟩
  | gameDown =>
      obtain ⟨result, game, hact, -⟩ :=
        timeoutAction_spec env.rolls hinv.toGameInv
      exact ⟨_, _, .down hact⟩
  | gamePause | gameNoAction | menuNext | menuPrev | menuSelect | none =>
      exact ⟨_, _, .ignored (by simp [Bind.Ignored])⟩

theorem RunInv.exists_locksOut (hinv : RunInv s.game) (env : Env) :
    ∃ calls s', LocksOut env s calls s' := by
  obtain ⟨canFall, hfall⟩ := hinv.exists_canShapeFall
  cases hlockout : s.isLockout with
  | false => exact ⟨_, _, .inactive hlockout⟩
  | true =>
      cases canFall with
      | true => exact ⟨_, _, .leaves hlockout hfall⟩
      | false =>
          by_cases hdelta : lockoutMax ≤ (graced env s).timers.lockout.delta
          · have hmoved := hasMoved_of_graced hdelta
            rw [graced_of_not_moved hmoved] at hdelta
            obtain ⟨result, game, hact, -⟩ :=
              timeoutAction_spec env.rolls hinv.toGameInv
            exact ⟨_, _, .locks hlockout hfall hmoved hdelta hact⟩
          · exact ⟨_, _, .waits hlockout hfall (by omega)⟩

theorem RunInv.exists_timesOut (hinv : RunInv s.game) (env : Env) :
    ∃ calls s', TimesOut env s calls s' := by
  obtain ⟨moved, p, shape, hmove, -⟩ := hinv.board.move ⟨0, 1⟩
  have hfall := canShapeFall_of_move hmove
  by_cases hdelta : timeoutMax ≤ s.timers.timeout.delta
  · cases hlockout : s.isLockout with
    | true => exact ⟨_, _, .waits hdelta hlockout hfall⟩
    | false =>
        cases moved with
        | false => exact ⟨_, _, .primes hdelta hlockout hfall⟩
        | true => exact ⟨_, _, .falls hdelta hlockout hmove⟩
  · exact ⟨_, _, .early (by omega)⟩

theorem RunInv.exists_steps (hinv : RunInv s.game) (env : Env)
    (fetched : List Bind)
    (hsafe : ¬ RotatesUnplaced s) :
    ∃ calls s', Steps env fetched s calls s' := by
  cases hphase : s.phase with
  | head =>
      cases hloop : s.loop with
      | true => exact ⟨_, _, .begins hphase hloop⟩
      | false => exact ⟨_, _, .exits hphase hloop⟩
  | input queue =>
      cases queue with
      | nil => exact ⟨_, _, .inputsDone hphase⟩
      | cons bind queue =>
          obtain ⟨calls, s', hhandle⟩ := hinv.exists_handles env bind (by
            rintro rfl hmoved hunplaced
            exact hsafe ⟨⟨queue, hphase⟩, hmoved, hunplaced⟩)
          exact ⟨_, _, .handles hphase hhandle⟩
  | lockout =>
      obtain ⟨calls, s', hblock⟩ := hinv.exists_locksOut env
      exact ⟨_, _, .locksOut hphase hblock⟩
  | timeout =>
      obtain ⟨calls, s', hblock⟩ := hinv.exists_timesOut env
      exact ⟨_, _, .timesOut hphase hblock⟩
  | exited => exact ⟨_, _, .stays hphase⟩

/-! ## The step that does not -/

theorem RunInv.step_eq_none (hinv : RunInv s.game) (env : Env)
    (fetched : List Bind) (hrotates : RotatesUnplaced s) :
    step env fetched s = none := by
  obtain ⟨⟨queue, hphase⟩, hmoved, hunplaced⟩ := hrotates
  simp [step, hphase, handleBind, tryRotate, hmoved,
    rotate_unplaced hinv.board hunplaced]

theorem exists_startRun (env : Env) (engine : Engine) :
    ∃ s, startRun env engine = some s := by
  rcases startGame_spec env.rolls engine with ⟨g, hstart, -⟩
  simp [startRun, hstart]

/--
Pieces are dropped until one locks out and the next one does not fit; the loop
goes on and fetches a rotation.
-/
def lockoutScript : List (List Bind) :=
  (List.replicate 9 .gameDrop ++ [.gameDown]) ::
    (List.replicate 21 [] ++ [[.gameRotate]])

theorem exists_lockoutRun :
    ∃ run : GameRun (steadyEnv 500000000) Engine.fresh, run.length = 23 ∧
      step (steadyEnv 500000000) [] (run.state 23) = none := by
  have hlast : ((script (steadyEnv 500000000) lockoutScript).bind fun visited =>
      visited[22]?.map fun v =>
        (visited.length, (step (steadyEnv 500000000) [] v.2).isNone)) =
      some (23, true) := by
    decide +kernel
  simp only [Option.bind_eq_some_iff, Option.map_eq_some_iff, Prod.exists,
    Prod.mk.injEq] at hlast
  rcases hlast with ⟨visited, hscript, calls, s, hget, hlength, hnone⟩
  rcases exists_run_of_script hscript with ⟨run, hrun, hvisited⟩
  refine ⟨run, hrun.trans hlength, ?_⟩
  rw [(hvisited 22 calls s hget).2]
  simpa using hnone

/-- The start of a run and every step of it stay inside the vectors, a rotation
of a piece that is off the grid excepted, which does not. -/
theorem outOfRange_iff (env : Env) (engine : Engine) :
    (∃ s, startRun env engine = some s) ∧
      ∀ (run : GameRun env engine) (k : Nat), k ≤ run.length →
        (∀ pos, (∃ content, (run.state k).game.p.cell? pos = some content) ↔
          0 ≤ pos.y ∧ pos.y < (run.state k).game.p.h ∧
            0 ≤ pos.x ∧ pos.x < (run.state k).game.p.w) ∧
        ∀ fetched, step env fetched (run.state k) = none ↔
          RotatesUnplaced (run.state k) := by
  refine ⟨exists_startRun env engine, fun run k hk => ?_⟩
  have hinv := run.runInv k hk
  have hrect := hinv.board.rect
  constructor
  · intro pos
    rw [← inBounds_iff]
    constructor
    · rintro ⟨content, hcell⟩
      by_contra hout
      rw [hrect.cell?_eq_none hout] at hcell
      contradiction
    · intro hin
      exact ⟨_, hrect.cell?_eq hin⟩
  · intro fetched
    constructor
    · intro hnone
      by_contra hsafe
      rcases hinv.exists_steps env fetched hsafe with ⟨calls, s', hstep⟩
      rw [hstep.eq] at hnone
      contradiction
    · exact hinv.step_eq_none env fetched

theorem outOfRange_iff_lockout :
    ∃ run : GameRun (steadyEnv 500000000) Engine.fresh,
      step (steadyEnv 500000000) [] (run.state 23) = none ∧
      (∀ pos, (∃ content, (run.state 23).game.p.cell? pos = some content) ↔
        0 ≤ pos.y ∧ pos.y < (run.state 23).game.p.h ∧
          0 ≤ pos.x ∧ pos.x < (run.state 23).game.p.w) ∧
      ∀ fetched, step (steadyEnv 500000000) fetched (run.state 23) = none ↔
        RotatesUnplaced (run.state 23) := by
  rcases exists_lockoutRun with ⟨run, hlength, hnone⟩
  exact ⟨run, hnone,
    (outOfRange_iff (steadyEnv 500000000) Engine.fresh).2 run 23 (by omega)⟩

theorem outOfRange_reached :
    ¬ ∀ (env : Env) (engine : Engine) (run : GameRun env engine) (k : Nat),
      k ≤ run.length → ∀ fetched, step env fetched (run.state k) ≠ none := by
  intro hsafe
  rcases exists_lockoutRun with ⟨run, hlength, hnone⟩
  exact hsafe _ _ run 23 (by omega) [] hnone

end Grzetris
