import Grzetris.Game.Sessions
import Grzetris.Ui.Keyboard
import Grzetris.Ui.Navigation

/-!
# The program

`main` as a machine: the loop of `menu::run`, and inside of it, while the
callback of "Play" has not returned, the loop of `game::run`.  Both loops read
the keyboard into one buffer.  A step that reads it is given what `getch`
returns.
-/

namespace Grzetris

open Foundation

/-- What the callbacks of the main menu change beside the input state. -/
structure World where
  engine : Engine
  -- Clock readings taken by the games that have returned.
  reads : Nat
  -- The game that is being played.
  game : Option RunState

inductive Control where
  -- `menu::run`, at its `while (doRun)` and at its `while (hasInput())`.
  | menu
  | menuInput
  -- `game::run`, at its `while (loop)`, at its `while (hasInput())`, before
  -- `if (isLockout)` and before the test of the timeout timer.
  | game
  | gameInput
  | lockout
  | timeout
  -- `main`, after the `input::deinit` of `ui::deinit`.
  | ended
  deriving DecidableEq, Repr

def Control.inGame : Control → Bool
  | .game | .gameInput | .lockout | .timeout => true
  | _ => false

/-- `control` says where a game is, so the phase that it carries is not read. -/
structure Program extends MenuState Callback World where
  control : Control
  doRun : Bool

/-- What a step reports: what the keyboard returned, or the code that was taken
from the buffer, the map in which it was looked up and the engine calls made. -/
inductive Event where
  | silent
  | fetched (typed : List Int)
  | handled (map : Map) (code : Code) (calls : List Call)
  | timed (calls : List Call)
  | returned
  | dropped (codes : List Code)
  deriving DecidableEq, Repr, Inhabited

/-- The environment of a game that starts after `reads` clock readings. -/
def Env.after (env : Env) (reads : Nat) : Env where
  clock := fun reading => env.clock (reads + reading)
  clock_mono := fun _ _ hle => env.clock_mono (Nat.add_le_add_left hle reads)
  rolls := env.rolls

/-! ## The two loops -/

/-- `game::run` up to its loop. -/
def launch (env : Env) (s : MenuState Callback World) :
    MenuState Callback World :=
  { s with
    input := { s.input with toInput := setCurrentMap s.input.toInput .game }
    rest := { s.rest with
      game := startRun (env.after s.rest.reads) s.rest.engine } }

/-- `setCurrentMap(map::GAME)` and `getNext()`. -/
def nextGameBind (input : BufferedInput) : Bind × BufferedInput :=
  getNext { input with toInput := setCurrentMap input.toInput .game }

def menuFetch (typed : List Int) (s : Program) : Program :=
  { s with input := (fetch typed s.input).2, control := .menuInput }

/-- What `menu::run` does with an answer of `inputDriver`. -/
def answered (ret : Int) (menu : MenuState Callback World) : Program where
  toMenuState := menu
  control :=
    if ret = 1 then .menu
    -- The callback of "Play" has entered the loop of the game.
    else if menu.rest.game.isSome then .game
    else .menuInput
  doRun := ret != 1

def menuHandle (env : Env) (code : Code) (s : Program) :
    Option (Event × Program) := do
  let (ret, menu) ← inputDriver (mainCalls (launch env)) s.toMenuState
  some (.handled .menu code [], answered ret menu)

def Program.setGame (s : Program) (g : RunState) : Program :=
  { s with rest := { s.rest with game := some g } }

def gameFetch (env : Env) (typed : List Int) (s : Program) (g : RunState) :
    Program :=
  { s.setGame (beginIteration env g) with
    input := (fetch typed s.input).2
    control := .gameInput }

def gameHandle (env : Env) (code : Code) (s : Program) (g : RunState) :
    Option (Event × Program) := do
  let (bind, input) := nextGameBind s.input
  let (calls, g) ← handleBind env g bind
  some (.handled .game code calls, { s.setGame g with input := input })

/-- The end of `game::run`: its playfield is a local variable, the last one that
was registered. -/
def gameReturn (s : Program) (g : RunState) : Option Program := do
  let memory := Function.update (fun _ => none) s.rest.engine.created
    (some g.game.p)
  let (memory, engine) := deinit memory g.game.engine
  let _ ← memory
  some { s with
    rest := { engine := engine, reads := s.rest.reads + g.reads, game := none }
    control := .menuInput }

/-! ## The machine -/

/-- A step inside of `game::run`. -/
def gameStep (env : Env) (typed : List Int) (s : Program) (g : RunState) :
    Option (Event × Program) :=
  match s.control with
  | .game =>
      if g.loop then some (.fetched typed, gameFetch env typed s g)
      else do
        let s ← gameReturn s g
        some (.returned, s)
  | .gameInput =>
      match s.input.inputBuffer with
      | [] => some (.silent, { s with control := .lockout })
      | code :: _ => gameHandle env code s g
  | .lockout => do
      let (calls, g) ← lockoutBlock env g
      some (.timed calls, { s.setGame g with control := .timeout })
  | .timeout => do
      let (calls, g) ← timeoutBlock env g
      some (.timed calls, { s.setGame g with control := .game })
  | _ => none

def programStep (env : Env) (typed : List Int) (s : Program) :
    Option (Event × Program) :=
  match s.control with
  | .menu =>
      if s.doRun then some (.fetched typed, menuFetch typed s)
      else
        some (.dropped s.input.inputBuffer,
          { s with input := drain s.input, control := .ended })
  | .menuInput =>
      match s.input.inputBuffer with
      | [] => some (.silent, { s with control := .menu })
      | code :: _ => menuHandle env code s
  | .ended => some (.silent, s)
  | _ => do
      let g ← s.rest.game
      gameStep (env.after s.rest.reads) typed s g

/-- `main` when it first reaches the loop of `menu::run`, with the bindings that
`cfg::init` has loaded. -/
def startProgram (table : Input) (data : Addr) : Option Program := do
  let main ← initMain data
  some
    { input := { toInput := table, inputBuffer := [] }
      m := main
      rest := { engine := Engine.fresh, reads := 0, game := none }
      control := .menu
      doRun := true }

abbrev ProgramRun (env : Env) (table : Input) (data : Addr) :=
  Run (fun s => startProgram table data = some s) (programStep env)

def programScript (env : Env) (table : Input) (data : Addr)
    (inputs : List (List Int)) : Option (List (Event × Program)) := do
  let s ← startProgram table data
  trace (programStep env) inputs s

theorem exists_run_of_programScript {env : Env} {table : Input} {data : Addr}
    {inputs : List (List Int)} {visited : List (Event × Program)}
    (hscript : programScript env table data inputs = some visited) :
    ∃ run : ProgramRun env table data, run.length = visited.length ∧
      ∀ k e s', visited[k]? = some (e, s') →
        run.event k = e ∧ run.state (k + 1) = s' := by
  rw [programScript, Option.bind_eq_bind, Option.bind_eq_some_iff] at hscript
  obtain ⟨s, hstart, htrace⟩ := hscript
  obtain ⟨run, hlength, -, hstates⟩ := exists_run_of_trace
    (fun s => startProgram table data = some s) hstart htrace
  exact ⟨run, hlength, hstates⟩

end Grzetris
