import Grzetris.Foundation.Runs
import Grzetris.Game.Action
import Grzetris.Ui.Input
import Mathlib

/-!
# The main loop

`game::run` as a machine.  One iteration updates the timers, handles the fetched
inputs one by one, and passes through the lockout block and the timeout block.
Each step reports the engine calls it makes, with their results.  Drawing on the
screen changes none of this state and is left out.
-/

namespace Grzetris

open Foundation

/-- What a run of the game cannot choose: the readings of the steady clock, in
nanoseconds, and the rolls of the generator. -/
structure Env where
  clock : Nat → Int
  clock_mono : Monotone clock
  rolls : Rolls

/-- A clock that advances by `tick` nanoseconds from reading to reading, and a
generator that always rolls zero. -/
def steadyEnv (tick : Nat) : Env where
  clock := fun reading => tick * reading
  clock_mono := fun _ _ hle =>
    Int.mul_le_mul_of_nonneg_left (Int.ofNat_le.mpr hle) (Int.natCast_nonneg _)
  rolls := fun _ _ => 0

structure Timer where
  -- Nanoseconds.
  post : Int
  -- Milliseconds.
  delta : Int
  deriving DecidableEq, Repr

structure Timers where
  frame : Timer
  lockout : Timer
  timeout : Timer
  deriving DecidableEq, Repr

/-- `steady_clock::time_point::max()` -/
def timePointMax : Int := 2 ^ 63 - 1

/-- `duration_cast<milliseconds>`, which truncates towards zero. -/
def toMilliseconds (nanoseconds : Int) : Int := nanoseconds.tdiv 1000000

def timeoutMax : Int := 400

theorem timeoutMax_pos : 0 < timeoutMax := by decide

def lockoutMax : Int := 500

inductive Phase where
  -- At `while (loop)`.
  | head
  -- In the input loop, with the binds still to be dequeued.
  | input (queue : List Bind)
  -- Before `if (isLockout)`.
  | lockout
  -- Before the test of the timeout timer.
  | timeout
  | exited
  deriving DecidableEq, Repr

structure RunState where
  game : Game
  loop : Bool
  isLockout : Bool
  hasMoved : Bool
  timers : Timers
  -- Clock readings taken so far.
  reads : Nat
  phase : Phase

inductive Call where
  | move (displacement : Vect2D) (moved : Bool)
  | rotate (result : Int)
  | drop
  | timeoutAction (result : Int)
  deriving DecidableEq, Repr

/-! ## Timers -/

def initTimers (env : Env) : Timers :=
  { frame := { post := env.clock 0, delta := 0 }
    lockout := { post := timePointMax, delta := 0 }
    timeout := { post := env.clock 1, delta := toMilliseconds (env.clock 2) } }

def Timer.update (timer : Timer) (pre : Int) : Timer :=
  { timer with delta := toMilliseconds (pre - timer.post) }

def updateTimers (env : Env) (s : RunState) : RunState :=
  let pre := env.clock s.reads
  { s with
    timers :=
      { frame := s.timers.frame.update pre
        lockout := s.timers.lockout.update pre
        timeout := s.timers.timeout.update pre }
    reads := s.reads + 1 }

def resetTimeout (env : Env) (s : RunState) : RunState :=
  { s with
    timers := { s.timers with timeout := { post := env.clock s.reads, delta := 0 } }
    reads := s.reads + 1 }

def resetLockout (env : Env) (s : RunState) : RunState :=
  { s with
    timers := { s.timers with lockout := { post := env.clock s.reads, delta := 0 } }
    reads := s.reads + 1 }

/-! ## Inputs -/

/-- `hasMoved || ngin::movePolyno(&p, shape, displacement)`: the move is not
attempted when the flag is already set. -/
def tryMove (s : RunState) (displacement : Vect2D) :
    Option (List Call × RunState) :=
  if s.hasMoved then some ([], s)
  else do
    let (moved, p, shape) ← movePolyno s.game.p s.game.shape displacement
    some ([.move displacement moved], { s with
      game := { s.game with p := p, shape := shape }
      hasMoved := moved })

/-- `hasMoved || (ngin::rotate(&p, &shape) == 0)` -/
def tryRotate (s : RunState) : Option (List Call × RunState) :=
  if s.hasMoved then some ([], s)
  else do
    let (result, p, shape) ← rotate s.game.p s.game.shape
    some ([.rotate result], { s with
      game := { s.game with p := p, shape := shape }
      hasMoved := result == 0 })

def handleDown (env : Env) (s : RunState) : Option (List Call × RunState) := do
  let (result, game) ← timeoutAction env.rolls s.game
  -- Reset the timeout timer, and forfeit the lockout grace period.
  let s := resetTimeout env
    { s with game := game, loop := result != 1, hasMoved := true }
  some ([.timeoutAction result], { s with isLockout := false })

def handleBind (env : Env) (s : RunState) : Bind → Option (List Call × RunState)
  | .gameQuit => some ([], { s with loop := false })
  | .gameLeft => tryMove s ⟨-1, 0⟩
  | .gameRight => do
      let (calls, s) ← tryMove s ⟨1, 0⟩
      some (calls, { s with hasMoved := true })
  | .gameRotate => tryRotate s
  | .gameDrop => do
      let (p, shape) ← dropPolyno s.game.p s.game.shape
      let (calls, s) ← handleDown env
        { s with game := { s.game with p := p, shape := shape } }
      some (.drop :: calls, s)
  | .gameDown => handleDown env s
  | _ => some ([], s)

/-! ## Timed blocks -/

/-- `polynoMoveCheck(&p, shape, vect2D(0,1) + shape->pos)` -/
def canShapeFall (g : Game) : Option Bool :=
  polynoMoveCheck g.p g.shape (⟨0, 1⟩ + g.shape.pos) true

/-- The end of the grace period.  The result of the timeout action is dropped. -/
def leaveLockout (env : Env) (s : RunState) (canFall : Bool) :
    Option (List Call × RunState) :=
  let s := resetTimeout env
    { s with
      isLockout := false
      timers := { s.timers with
        lockout := { s.timers.lockout with post := timePointMax } } }
  if canFall then some ([], s)
  else do
    let (result, game) ← timeoutAction env.rolls s.game
    some ([.timeoutAction result], { s with game := game })

def lockoutBlock (env : Env) (s : RunState) : Option (List Call × RunState) :=
  if s.isLockout then do
    -- Reset the grace period when the shape is moved.
    let s := if s.hasMoved then resetLockout env s else s
    let canFall ← canShapeFall s.game
    if s.timers.lockout.delta ≥ lockoutMax ∨ canFall = true then
      leaveLockout env s canFall
    else some ([], s)
  else some ([], s)

def fall (env : Env) (s : RunState) : Option (List Call × RunState) :=
  if s.isLockout then some ([], s)
  else do
    let (result, game) ← timeoutAction env.rolls s.game
    some ([.timeoutAction result], { s with game := game, loop := result != 1 })

/-- `timers[TIMER_LOCKOUT].post = now()`; the delta keeps its old value. -/
def primeLockout (env : Env) (s : RunState) : RunState :=
  { s with
    isLockout := true
    timers := { s.timers with
      lockout := { s.timers.lockout with post := env.clock s.reads } }
    reads := s.reads + 1 }

def timeoutBlock (env : Env) (s : RunState) : Option (List Call × RunState) :=
  if s.timers.timeout.delta ≥ timeoutMax then do
    let canFall ← canShapeFall s.game
    let s := if canFall = false ∧ s.isLockout = false then primeLockout env s
      else s
    let (calls, s) ← fall env s
    some (calls, { s with
      timers := { s.timers with
        timeout := { s.timers.timeout with post := env.clock s.reads } }
      reads := s.reads + 1 })
  else some ([], s)

/-! ## The machine -/

def beginIteration (env : Env) (s : RunState) : RunState :=
  { updateTimers env s with hasMoved := false }

/-- One step.  `fetched` is what the input buffer holds after `fetch`, as binds;
it is read at the start of an iteration only. -/
def step (env : Env) (fetched : List Bind) (s : RunState) :
    Option (List Call × RunState) :=
  match s.phase with
  | .head =>
      if s.loop then
        some ([], { beginIteration env s with phase := .input fetched })
      else some ([], { s with phase := .exited })
  | .input [] => some ([], { s with phase := .lockout })
  | .input (bind :: queue) => do
      let (calls, s) ← handleBind env s bind
      some (calls, { s with phase := .input queue })
  | .lockout => do
      let (calls, s) ← lockoutBlock env s
      some (calls, { s with phase := .timeout })
  | .timeout => do
      let (calls, s) ← timeoutBlock env s
      some (calls, { s with phase := .head })
  | .exited => some ([], s)

/-- `game::run` when it first reaches the loop; `engine` is what earlier games
left in the globals. -/
def startRun (env : Env) (engine : Engine) : Option RunState := do
  let game ← startGame env.rolls engine
  some
    { game := game
      loop := true
      isLockout := false
      hasMoved := false
      timers := initTimers env
      reads := 3
      phase := .head }

abbrev GameRun (env : Env) (engine : Engine) :=
  Run (fun s => startRun env engine = some s) (step env)

def script (env : Env) (inputs : List (List Bind)) :
    Option (List (List Call × RunState)) := do
  let s ← startRun env Engine.fresh
  trace (step env) inputs s

theorem exists_run_of_script {env : Env} {inputs : List (List Bind)}
    {visited : List (List Call × RunState)}
    (hscript : script env inputs = some visited) :
    ∃ run : GameRun env Engine.fresh, run.length = visited.length ∧
      ∀ k calls s', visited[k]? = some (calls, s') →
        run.event k = calls ∧ run.state (k + 1) = s' := by
  simp only [script, Option.bind_eq_bind, Option.bind_eq_some_iff] at hscript
  rcases hscript with ⟨s, hstart, htrace⟩
  rcases exists_run_of_trace (fun s => startRun env Engine.fresh = some s)
    hstart htrace with ⟨run, hlength, -, hvisited⟩
  exact ⟨run, hlength, hvisited⟩

theorem exists_run_of_checks {env : Env} {inputs : List (List Bind)}
    {s : RunState} {visited : List (List Call × RunState)}
    {check : RunState → List Call → RunState → Bool}
    (hstart : startRun env Engine.fresh = some s)
    (htrace : trace (step env) inputs s = some visited)
    (hchecks : checks check s visited = true) :
    ∃ run : GameRun env Engine.fresh, run.length = visited.length ∧
      (∀ k calls s', visited[k]? = some (calls, s') →
        run.event k = calls ∧ run.state (k + 1) = s') ∧
      ∀ k < run.length,
        check (run.state k) (run.event k) (run.state (k + 1)) = true := by
  obtain ⟨run, hlength, hzero, hvisited⟩ := exists_run_of_trace
    (fun s => startRun env Engine.fresh = some s) hstart htrace
  rw [← hzero] at hchecks
  refine ⟨run, hlength, hvisited, ?_⟩
  rw [hlength]
  exact run.check_of_checks hvisited hchecks

/-! ## Whole iterations -/

def inputLoop (env : Env) :
    RunState → List Bind → Option (List (Bind × List Call) × RunState)
  | s, [] => some ([], s)
  | s, bind :: queue => do
      let (calls, s) ← handleBind env s bind
      let (log, s) ← inputLoop env s queue
      some ((bind, calls) :: log, s)

/-- One iteration of the loop, without the test of the loop flag. -/
def iteration (env : Env) (s : RunState) (fetched : List Bind) :
    Option (List (Bind × List Call) × RunState) := do
  let (log, s) ← inputLoop env (beginIteration env s) fetched
  let (_, s) ← lockoutBlock env s
  let (_, s) ← timeoutBlock env s
  some (log, s)

end Grzetris
