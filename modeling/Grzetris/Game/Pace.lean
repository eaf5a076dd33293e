import Grzetris.Game.Safety

/-!
# A game keeps moving

Each timeout action lowers the piece by a row or draws the next one, and nothing
ever lifts a piece, so there is a bound on the timeout actions that one piece
can take.
-/

namespace Grzetris

open Foundation Playfield

/-- How many of the calls are timeout actions. -/
def timeoutActions (calls : List Call) : Nat :=
  calls.countP fun call => match call with
    | .timeoutAction _ => true
    | _ => false

/-- The row of the piece; a piece off the grid counts as on its first row. -/
def Game.depth (g : Game) : Nat := g.shape.pos.y.toNat

/-- A piece cannot come down more than a playfield is high. -/
def Game.progress (g : Game) : Nat := 20 * g.engine.drawn + g.depth

/-- No piece is above its first row. -/
structure Paced (g : Game) : Prop extends RunInv g where
  row : g.shape.Unplaced ∨ 0 ≤ g.shape.pos.y

/-- `n` timeout actions brought the game forward. -/
structure Advances (n : Nat) (g g' : Game) : Prop where
  paced : Paced g'
  progress : g.progress + n ≤ g'.progress

variable {g g' : Game} {p : Playfield} {shape : Polyomino} {rolls : Rolls}

theorem Advances.refl (hpaced : Paced g) : Advances 0 g g :=
  ⟨hpaced, Nat.le_refl _⟩

theorem Advances.trans {g'' : Game} {m n : Nat} (hfirst : Advances m g g')
    (hsecond : Advances n g' g'') : Advances (m + n) g g'' := by
  have hprogress := hfirst.progress
  have hprogress' := hsecond.progress
  exact ⟨hsecond.paced, by omega⟩

theorem Paced.depth_le (hpaced : Paced g) : g.depth ≤ 19 := by
  unfold Game.depth
  rcases hpaced.board.place with hunplaced | hplaced
  · rw [hunplaced]
    decide
  · obtain ⟨n, c, htetro⟩ := hpaced.board.tetromino
    obtain ⟨b, hb⟩ := List.exists_mem_of_ne_nil _ htetro.ne_nil
    have hin := hplaced.inBounds _ (List.mem_map_of_mem hb)
    have hinside := htetro.inside b hb
    rw [inBounds_iff, hpaced.h_eq] at hin
    simp only [Vect2D.add_y] at hin
    omega

/-! ## The calls of the engine -/

/-- The new row is all that counts. -/
theorem Paced.advances {n : Nat} (hpaced : Paced g)
    (hinv : RunInv { g with p := p, shape := shape })
    (hrow : shape.pos.y = g.shape.pos.y + n)
    (hlower : n = 0 ∧ shape.pos = g.shape.pos ∨ 0 ≤ g.shape.pos.y) :
    Advances n g { g with p := p, shape := shape } := by
  have hold := hpaced.row
  refine ⟨⟨hinv, ?_⟩, ?_⟩
  · rcases hlower with ⟨-, hpos⟩ | hpos
    · simp only [Polyomino.Unplaced, hpos]
      exact hold
    · exact .inr (by simp only; omega)
  · simp only [Game.progress, Game.depth]
    rcases hlower with ⟨rfl, hpos⟩ | hpos
    · rw [hpos]
      omega
    · omega

theorem Paced.move (hpaced : Paced g) {displacement : Vect2D} {moved : Bool}
    (hmove : movePolyno g.p g.shape displacement = some (moved, p, shape))
    (hnear : displacement.x < 29) {n : Nat} (hn : displacement.y = n) :
    Advances (if moved then n else 0) g { g with p := p, shape := shape } := by
  have hinv := hpaced.toRunInv.move hmove
  cases moved with
  | false =>
      obtain ⟨-, rfl⟩ := movePolyno_eq_false hmove
      exact hpaced.advances hinv (by simp) (.inl ⟨rfl, rfl⟩)
  | true =>
      have hshape := movePolyno_eq_true hmove
      rcases hpaced.row with hunplaced | hrow
      · obtain ⟨m, c, htetro⟩ := hpaced.board.tetromino
        have hfar : (displacement + g.shape.pos).x < -3 := by
          rw [hunplaced]
          simp only [Vect2D.add_x]
          omega
        rw [movePolyno_refused hpaced.board.toBoard
          (htetro.not_fits hfar true)] at hmove
        cases hmove
      · refine hpaced.advances hinv ?_ (.inr hrow)
        rw [hshape]
        simp only [Vect2D.add_y, if_true]
        omega

theorem RunInv.rotate_pos (hinv : RunInv g) {result : Int}
    (hrotate : Grzetris.rotate g.p g.shape = some (result, p, shape)) :
    shape.pos = g.shape.pos := by
  have hplaced := hinv.board.placed_of_rotate hrotate
  rcases rotate_cases hinv.board.toBoard hplaced.onGrid with
    ⟨-, p₁, heq, -⟩ | ⟨-, p₁, heq, -⟩
  · rw [heq] at hrotate
    cases hrotate
    rfl
  · rw [heq] at hrotate
    cases hrotate
    rfl

theorem Paced.rotate (hpaced : Paced g) {result : Int}
    (hrotate : Grzetris.rotate g.p g.shape = some (result, p, shape)) :
    Advances 0 g { g with p := p, shape := shape } := by
  have hpos := hpaced.toRunInv.rotate_pos hrotate
  exact hpaced.advances (hpaced.toRunInv.rotate hrotate) (by rw [hpos]; simp)
    (.inl ⟨rfl, hpos⟩)

theorem Paced.drop (hpaced : Paced g)
    (hdrop : dropPolyno g.p g.shape = some (p, shape)) :
    Advances 0 g { g with p := p, shape := shape } := by
  obtain ⟨n, c, htetro⟩ := hpaced.board.tetromino
  obtain ⟨p₁, shape₁, hdrop₁, hadvances, -⟩ := dropPolyno_rule
    (fun p₁ shape₁ => Advances 0 g { g with p := p₁, shape := shape₁ })
    (fun _ _ hinv => hinv.paced.board.toBoard)
    (fun p₁ shape₁ p₂ shape₂ hinv hmove => by
      have hstep := hinv.paced.move (n := 1) hmove (by decide) rfl
      have hboth := hinv.trans hstep
      exact ⟨hboth.paced, Nat.le_of_add_right_le hboth.progress⟩)
    htetro.ne_nil (.refl hpaced)
  rw [hdrop] at hdrop₁
  cases hdrop₁
  exact hadvances

theorem Paced.spawn (hpaced : Paced g) {result : Int}
    (hspawn : Grzetris.spawn rolls g = some (result, g')) :
    Advances 1 g g' := by
  obtain ⟨result₁, g₁, hspawn₁, hinv, hh, hw, hdrawn, -⟩ :=
    spawn_spec rolls hpaced.toGameInv
  obtain ⟨-, rfl⟩ := Prod.mk.inj
    (Option.some_inj.mp (hspawn₁.symm.trans hspawn))
  have hdepth := hpaced.depth_le
  refine ⟨⟨⟨hinv, hh.trans hpaced.h_eq, hw.trans hpaced.w_eq⟩, ?_⟩, ?_⟩
  · obtain ⟨next, hnext⟩ := hpaced.next
    simp only [Grzetris.spawn, Option.bind_eq_bind, Option.bind_eq_some_iff,
      Prod.exists] at hspawn
    obtain ⟨p₁, -, nextShape, e, -, fits, -, hspawn⟩ := hspawn
    cases fits with
    | false =>
        cases hspawn
        exact .inl (by rw [hnext]; exact template_pos next)
    | true =>
        simp only [if_true, Option.bind_eq_some_iff, Option.some.injEq,
          Prod.mk.injEq, Prod.exists, setPolynoPos, Option.bind_eq_bind]
          at hspawn
        obtain ⟨p₂, shape₂, ⟨q, -, q', -, -, rfl⟩, -, rfl⟩ := hspawn
        exact .inr (Int.le_refl 0)
  · simp only [Game.progress, hdrawn]
    omega

theorem Paced.timeoutAction (hpaced : Paced g) {result : Int}
    (hact : timeoutAction rolls g = some (result, g')) : Advances 1 g g' := by
  rcases timeoutAction_cases rolls hpaced.toGameInv with
    ⟨p', shape', hmove, heq⟩ | ⟨-, heq⟩
  · rw [heq] at hact
    cases hact
    exact hpaced.move (n := 1) hmove (by decide) rfl
  · exact hpaced.spawn (heq.symm.trans hact)

theorem Paced.start {engine : Engine}
    (hstart : startGame rolls engine = some g) : Paced g := by
  refine ⟨RunInv.start hstart, ?_⟩
  simp only [startGame, Option.bind_eq_bind, Option.bind_eq_some_iff,
    Option.some.injEq, Prod.exists, setPolynoPos, Prod.mk.injEq] at hstart
  obtain ⟨first, e₁, -, second, e₂, -, p₁, shape₁, ⟨q, -, q', -, -, rfl⟩, rfl⟩ :=
    hstart
  exact .inr (Int.le_refl 0)

/-! ## Steps and runs -/

variable {env : Env} {s s' : RunState} {calls : List Call} {engine : Engine}

theorem Steps.advances {fetched : List Bind} (hpaced : Paced s.game)
    (h : Steps env fetched s calls s') :
    Advances (timeoutActions calls) s.game s'.game := by
  cases h with
  | begins _ _ | exits _ _ | inputsDone _ | stays _ => exact .refl hpaced
  | handles _ hhandles =>
      cases hhandles with
      | ignored _ | quit | skipped _ _ => exact .refl hpaced
      | @left moved _ _ _ hmove | @right moved _ _ _ hmove =>
          have hadvances := hpaced.move (n := 0) hmove (by decide) rfl
          cases moved <;> exact hadvances
      | rotate _ hrotate => exact hpaced.rotate hrotate
      | drop hdrop hact =>
          have hdropped := hpaced.drop hdrop
          exact hdropped.trans (hdropped.paced.timeoutAction hact)
      | down hact => exact hpaced.timeoutAction hact
  | locksOut _ hlocks =>
      cases hlocks with
      | inactive _ => exact .refl hpaced
      | waits _ _ _ | leaves _ _ =>
          have hgame : Advances 0 s.game (graced env s).game := by
            rw [graced_game]
            exact .refl hpaced
          exact hgame
      | locks _ _ _ _ hact => exact hpaced.timeoutAction hact
  | timesOut _ htimes =>
      cases htimes with
      | early _ | waits _ _ _ | primes _ _ _ => exact .refl hpaced
      | falls _ _ hmove => exact hpaced.move (n := 1) hmove (by decide) rfl

theorem Steps.timeoutActions_le {fetched : List Bind}
    (h : Steps env fetched s calls s') : timeoutActions calls ≤ 1 := by
  cases h with
  | handles _ hhandles => cases hhandles <;> simp [timeoutActions]
  | locksOut _ hlocks => cases hlocks <;> simp [timeoutActions]
  | timesOut _ htimes => cases htimes <;> simp [timeoutActions]
  | _ => simp [timeoutActions]

theorem timeoutActions_append (calls calls' : List Call) :
    timeoutActions (calls ++ calls') =
      timeoutActions calls + timeoutActions calls' := List.countP_append

theorem GameRun.paced (run : GameRun env engine) :
    ∀ k ≤ run.length, Paced (run.state k).game :=
  run.invariant (fun _ hstart => .start (startRun_eq hstart).1)
    (fun _ _ _ _ hpaced hstep => ((Steps.of_eq hstep).advances hpaced).paced)

/-- The calls of the `n` steps from the `m`-th state on. -/
def GameRun.callsFrom (run : GameRun env engine) (m n : Nat) : List Call :=
  (List.range n).flatMap fun i => run.event (m + i)

theorem GameRun.callsFrom_succ (run : GameRun env engine) (m n : Nat) :
    run.callsFrom m (n + 1) = run.callsFrom m n ++ run.event (m + n) := by
  simp [GameRun.callsFrom, List.range_succ]

theorem GameRun.advances (run : GameRun env engine) {m n : Nat}
    (hle : m + n ≤ run.length) :
    Advances (timeoutActions (run.callsFrom m n)) (run.state m).game
      (run.state (m + n)).game := by
  induction n with
  | zero => exact .refl (run.paced m hle)
  | succ n ih =>
      have hbefore := ih (by omega)
      have hstep := (run.steps (k := m + n) (by omega)).advances hbefore.paced
      rw [run.callsFrom_succ, timeoutActions_append]
      exact hbefore.trans hstep

/--
Between any two states of a run, whatever the inputs and the clock, there are at
most twenty timeout actions for each piece drawn, and nineteen more.  So as long
as no piece is drawn there are nineteen at most.
-/
theorem run_paced (run : GameRun env engine) (m n : Nat)
    (hle : m + n ≤ run.length) :
    timeoutActions (run.callsFrom m n) + 20 * (run.state m).game.engine.drawn ≤
      20 * (run.state (m + n)).game.engine.drawn + 19 := by
  have hadvances := run.advances hle
  have hprogress := hadvances.progress
  have hdepth := hadvances.paced.depth_le
  simp only [Game.progress] at hprogress
  omega

theorem run_paced_lockout :
    ∃ run : GameRun (steadyEnv 500000000) Engine.fresh, run.length = 23 ∧
      timeoutActions (run.callsFrom 10 13) +
          20 * (run.state 10).game.engine.drawn ≤
        20 * (run.state 23).game.engine.drawn + 19 := by
  obtain ⟨run, hlength, -⟩ := exists_lockoutRun
  exact ⟨run, hlength, run_paced run 10 13 (Nat.le_of_eq hlength.symm)⟩

end Grzetris
