import Grzetris.Program.Keys

/-!
# The games of a program

While the control is inside of `game::run`, the program does what the machine of
`Game.Loop` does, with the waiting codes looked up in the map of the game.  What
is proved of the runs of that machine holds of every game that is played.
-/

namespace Grzetris

open Foundation

variable {env : Env} {typed : List Int} {s s' : Program} {e : Event}
  {data : Addr} {table : Input} {i : Nat} {engine : Engine}

/-! ## The game that a program shows -/

def Program.phase (s : Program) : Phase :=
  match s.control with
  | .gameInput => .input (s.input.inputBuffer.map (bindIn .game s.input.toInput))
  | .lockout => .lockout
  | .timeout => .timeout
  | _ => .head

/-- The game that is played, with the phase that the control stands for. -/
def Program.shown (s : Program) : Option RunState :=
  s.rest.game.map fun g => { g with phase := s.phase }

def Event.calls : Event → List Call
  | .handled _ _ calls => calls
  | .timed calls => calls
  | _ => []

theorem shown_eq {g : RunState} (hgame : s.rest.game = some g) :
    s.shown = some { g with phase := s.phase } := by
  rw [Program.shown, hgame, Option.map_some]

theorem phase_eq (hcontrol : s.control = .game) : s.phase = .head := by
  rw [Program.phase, hcontrol]

/-- The world outside of the game, which a step inside of it keeps. -/
def SameWorld (s s' : Program) : Prop :=
  s'.rest.engine = s.rest.engine ∧ s'.rest.reads = s.rest.reads

theorem Proceeds.shown {g g' : RunState} (h : Proceeds env data typed s e s')
    (hs : ProgramInv table data s) (hg : s.shown = some g)
    (hg' : s'.shown = some g') :
    SameWorld s s' ∧ ∃ fetched, Steps (env.after s.rest.reads) fetched g
      e.calls g' := by
  have hnot : s.control.inGame = true := by
    rw [← hs.playing]
    cases hgame : s.rest.game with
    | none => simp [Program.shown, hgame] at hg
    | some _ => rfl
  cases h with
  | menuFetches hcontrol _ | leaves hcontrol _ | menuDone hcontrol _
  | menuHandles hcontrol _ _ _ _ | stays hcontrol =>
      rw [hcontrol] at hnot
      contradiction
  | returns _ _ _ hreturn =>
      obtain ⟨_, _, rfl⟩ := gameReturn_eq hreturn
      contradiction
  | @gameFetches g₀ hcontrol hgame hloop =>
      rw [shown_eq hgame, phase_eq hcontrol] at hg
      rw [gameFetch, fetch_eq] at hg'
      cases hg
      cases hg'
      exact ⟨⟨rfl, rfl⟩, _, .begins rfl hloop⟩
  | inputsDone hcontrol hgame hempty =>
      rw [shown_eq hgame] at hg
      rw [shown_eq (s := { s with control := .lockout }) hgame] at hg'
      cases hg
      cases hg'
      refine ⟨⟨rfl, rfl⟩, [], .inputsDone ?_⟩
      simp [Program.phase, hcontrol, hempty]
  | @gameHandles g₀ g₁ code rest calls hcontrol hgame hbuffer hhandles =>
      rw [shown_eq hgame] at hg
      cases hg
      have hphase : s.phase =
          .input (bindIn .game s.input.toInput code ::
            rest.map (bindIn .game s.input.toInput)) := by
        simp [Program.phase, hcontrol, hbuffer]
      have hphase' : ({ s.setGame g₁ with
          input := popped .game s.input } : Program).phase =
          .input (rest.map (bindIn .game s.input.toInput)) := by
        simp only [Program.phase, Program.setGame, hcontrol, popped, hbuffer]
        rfl
      rw [shown_eq (s := { s.setGame g₁ with input := popped .game s.input })
        rfl, hphase'] at hg'
      cases hg'
      exact ⟨⟨rfl, rfl⟩, [], @Steps.handles _ _ _ _ _ _
        { g₁ with phase := s.phase } hphase (hhandles.withPhase s.phase)⟩
  | @locksOut g₀ g₁ calls hcontrol hgame hlocks =>
      rw [shown_eq hgame] at hg
      cases hg
      cases hg'
      have hphase : s.phase = .lockout := by rw [Program.phase, hcontrol]
      exact ⟨⟨rfl, rfl⟩, [], @Steps.locksOut _ _ _ _
        { g₁ with phase := s.phase } hphase (hlocks.withPhase s.phase)⟩
  | @timesOut g₀ g₁ calls hcontrol hgame htimes =>
      rw [shown_eq hgame] at hg
      cases hg
      cases hg'
      have hphase : s.phase = .timeout := by rw [Program.phase, hcontrol]
      exact ⟨⟨rfl, rfl⟩, [], @Steps.timesOut _ _ _ _
        { g₁ with phase := s.phase } hphase (htimes.withPhase s.phase)⟩

/-- The step in which the menu starts a game: "Play" is selected, and a code
that is bound to SELECT is handled. -/
def Launches (table : Input) (data : Addr) (s : Program) (e : Event) : Prop :=
  ∃ code, e = .handled .menu code [] ∧
    bindIn .menu table code = .menuSelect ∧ s.m = (mainRing data).selecting 0

theorem Answers.launches {t menu : MenuState Callback World} {bind : Bind}
    {ret : Int} {g : RunState}
    (hanswers : Answers (launch env) data i t bind ret menu)
    (hnone : t.rest.game = none)
    (hg : (answered ret menu).shown = some g) :
    bind = .menuSelect ∧ i = 0 ∧
      startRun (env.after menu.rest.reads) menu.rest.engine = some g := by
  cases hanswers with
  | plays hfirst =>
      obtain ⟨g₀, hstart⟩ :=
        exists_startRun (env.after t.rest.reads) t.rest.engine
      have hphase := (startRun_eq hstart).2.2.2.2.2
      rw [shown_eq (s := answered 0 (launch env t)) hstart, phase_eq] at hg
      · cases hg
        rw [← hphase]
        exact ⟨rfl, hfirst, hstart⟩
      · simp [answered, isSome_launch]
  | _ => simp [Program.shown, answered, hnone] at hg

theorem Proceeds.launches {g : RunState}
    (h : Proceeds env data typed s e s') (hs : ProgramInv table data s)
    (hnot : s.shown = none) (hg : s'.shown = some g) :
    Launches table data s e ∧
      startRun (env.after s'.rest.reads) s'.rest.engine = some g := by
  have hnone : s.rest.game = none := by simpa [Program.shown] using hnot
  have hno_game : ∀ g₀, s.rest.game ≠ some g₀ := by simp [hnone]
  cases h with
  | menuFetches _ _ | leaves _ _ | menuDone _ _ | stays _ =>
      simp [Program.shown, menuFetch, hnone] at hg
  | @menuHandles i code _ _ _ _ _ hm _ hanswers =>
      obtain ⟨hbind, rfl, hstart⟩ := hanswers.launches hnone hg
      rw [bindIn_congr hs.bindings] at hbind
      exact ⟨⟨code, rfl, hbind, hm⟩, hstart⟩
  | gameFetches _ hgame _ | returns _ hgame _ _ | inputsDone _ hgame _
  | gameHandles _ hgame _ _ | locksOut _ hgame _ | timesOut _ hgame _ =>
      exact absurd hgame (hno_game _)

/-! ## A game as a run -/

/-- From `first` to `k`, the run of the program shows a run of the game, and
makes its engine calls. -/
structure Covers (run : ProgramRun env table data) (first k : Nat)
    {env' : Env} (game : GameRun env' engine) : Prop where
  last : first + game.length = k
  states : ∀ j ≤ game.length,
    (run.state (first + j)).shown = some (game.state j)
  events : ∀ j < game.length, (run.event (first + j)).calls = game.event j

theorem Covers.snoc {run : ProgramRun env table data} {first k : Nat}
    {env' : Env} {game : GameRun env' engine} {fetched : List Bind}
    {g : RunState} (hcovers : Covers run first k game)
    (hstep : step env' fetched (game.state game.length) =
      some ((run.event k).calls, g))
    (hg : (run.state (k + 1)).shown = some g) :
    Covers run first (k + 1) (game.snoc hstep) where
  last := by
    rw [Run.snoc_length, ← Nat.add_assoc, hcovers.last]
  states := by
    intro j hj
    rcases Nat.le_succ_iff.mp hj with hle | rfl
    · rw [hcovers.states j hle, Run.snoc_state hstep hle]
    · rw [Run.snoc_last, Nat.add_succ, hcovers.last, hg]
  events := by
    intro j hj
    rcases Nat.lt_succ_iff_lt_or_eq.mp hj with hlt | rfl
    · rw [hcovers.events j hlt, Run.snoc_event hstep hlt]
    · rw [Run.snoc_event_last, hcovers.last]

theorem Covers.rest {run : ProgramRun env table data} {k : Nat} {env' : Env}
    {g : RunState} (hstart : startRun env' engine = some g)
    (hg : (run.state k).shown = some g) :
    Covers run k k (Run.rest hstart [] [] : GameRun env' engine) where
  last := rfl
  states := by
    intro j hj
    obtain rfl : j = 0 := Nat.le_zero.mp hj
    exact hg
  events := fun _ hj => absurd hj (Nat.not_lt_zero _)

/--
In every run of the program, the game that is being played is a run of the
machine of the loop: it began when "Play" was selected from the menu, in the
globals that the games before left behind, and since then each step of the
program was one step of that machine, with the codes in the buffer looked up in
the map of the game.
-/
theorem program_games (run : ProgramRun env table data) :
    ∀ k ≤ run.length, ∀ g, (run.state k).shown = some g →
      ∃ select, Launches table data (run.state select) (run.event select) ∧
        ∃ game : GameRun (env.after (run.state k).rest.reads)
            (run.state k).rest.engine,
          Covers run (select + 1) k game := by
  refine run.invariant_index ?_ ?_
  · intro g hg
    rw [startProgram_eq run.start] at hg
    contradiction
  · intro k hk ih g' hg'
    have hproceeds := run.proceeds hk
    have hinv := run.inv k (Nat.le_of_lt hk)
    cases hg : (run.state k).shown with
    | none =>
        obtain ⟨hlaunches, hstart⟩ := hproceeds.launches hinv hg hg'
        exact ⟨k, hlaunches, Run.rest hstart [] [], .rest hstart hg'⟩
    | some g =>
        obtain ⟨select, hlaunches, game, hcovers⟩ := ih g hg
        obtain ⟨⟨hengine, hreads⟩, fetched, hsteps⟩ :=
          hproceeds.shown hinv hg hg'
        rw [hengine, hreads]
        have hlast : game.state game.length = g := by
          have hshown := hcovers.states game.length (Nat.le_refl _)
          rw [hcovers.last, hg] at hshown
          exact (Option.some.inj hshown).symm
        rw [← hlast] at hsteps
        exact ⟨select, hlaunches, game.snoc hsteps.eq,
          hcovers.snoc hsteps.eq hg'⟩

theorem exists_shown (hs : ProgramInv table data s)
    (hin : s.control.inGame = true) : ∃ g, s.shown = some g := by
  rw [← hs.playing, Option.isSome_iff_exists] at hin
  obtain ⟨g, hgame⟩ := hin
  exact ⟨_, shown_eq hgame⟩

theorem program_games_session :
    ∃ run : ProgramRun (steadyEnv 0) (setDefaultBinds Input.empty) 0,
      ∃ g, (run.state 4).shown = some g ∧
        ∃ select, Launches (setDefaultBinds Input.empty) 0 (run.state select)
            (run.event select) ∧
          ∃ game : GameRun ((steadyEnv 0).after (run.state 4).rest.reads)
              (run.state 4).rest.engine,
            Covers run (select + 1) 4 game := by
  obtain ⟨run, hlength, hcontrol, -, -⟩ := exists_sessionRun
  obtain ⟨g, hg⟩ := exists_shown (run.inv 4 (by omega)) (by rw [hcontrol]; rfl)
  exact ⟨run, g, hg, program_games run 4 (by omega) g hg⟩

end Grzetris
