import Grzetris.Game.Batching

/-!
# Which inputs extend the lock delay

`hasMoved` restarts the lockout timer.  A RIGHT sets it whether or not the
piece has moved.
-/

namespace Grzetris

open Foundation Playfield

variable {env : Env} {s s' t : RunState} {calls : List Call} {bind : Bind}
  {queue : List Bind} {log : List (Bind × List Call)} {g g' : Game}

/-! ## What took effect -/

/-- The engine has moved or turned the piece. -/
def Shifted (calls : List Call) : Prop :=
  (∃ displacement, Call.move displacement true ∈ calls) ∨
    Call.rotate 0 ∈ calls

/-- A processed input really did something. -/
def TookEffect (entry : Bind × List Call) : Prop :=
  entry.1 = .gameDown ∨ entry.1 = .gameDrop ∨ Shifted entry.2

/-- The engine would carry out the input in this state. -/
def Accepts (g : Game) : Bind → Prop
  | .gameLeft => ∃ p shape,
      movePolyno g.p g.shape ⟨-1, 0⟩ = some (true, p, shape)
  | .gameRight => ∃ p shape,
      movePolyno g.p g.shape ⟨1, 0⟩ = some (true, p, shape)
  | .gameRotate => ∃ p shape, rotate g.p g.shape = some (0, p, shape)
  | .gameDown | .gameDrop => True
  | _ => False

/-- A RIGHT of the queue is either carried out itself, or some other input that
is carried out sets `hasMoved` anyway. -/
def RightIsHarmless (g : Game) (queue : List Bind) : Prop :=
  .gameRight ∉ queue ∨ .gameDown ∈ queue ∨ .gameDrop ∈ queue ∨
    Accepts g .gameRight ∨
    ∃ b ∈ queue.takeWhile (· ≠ .gameRight), Accepts g b

/-- `hasMoved` says that an input took effect, and the lockout timer is
restarted only when the piece was moved or turned. -/
structure DelayEarned (env : Env) (log : List (Bind × List Call))
    (t : RunState) : Prop where
  hasMoved_iff : t.hasMoved = true ↔ ∃ entry ∈ log, TookEffect entry
  restarts : t.isLockout = true → graced env t ≠ t →
    ∃ entry ∈ log, Shifted entry.2

theorem not_shifted_nil : ¬ Shifted [] := by
  simp [Shifted]

theorem shifted_move {displacement : Vect2D} {moved : Bool} :
    Shifted [.move displacement moved] ↔ moved = true := by
  simp [Shifted, eq_comm]

theorem shifted_rotate {result : Int} :
    Shifted [.rotate result] ↔ result = 0 := by
  simp [Shifted, eq_comm]

/-! ## Once the flag is set -/

theorem Handles.keeps_hasMoved (h : Handles env s bind calls s')
    (hmoved : s.hasMoved = true) :
    s'.hasMoved = true ∧
      (TookEffect (bind, calls) ↔ bind = .gameDown ∨ bind = .gameDrop) := by
  have hset := (h.hasMoved hmoved).1
  cases h with
  | ignored _ | quit | skipped _ _ =>
      exact ⟨hset, by simp [TookEffect, not_shifted_nil]⟩
  | left hnot _ | right hnot _ | rotate hnot _ =>
      rw [hmoved] at hnot
      contradiction
  | drop _ _ | down _ => exact ⟨hset, by simp [TookEffect]⟩

theorem tookEffect_iff_of_moved
    (hloop : inputLoop env s queue = some (log, t))
    (hmoved : s.hasMoved = true) :
    t.hasMoved = true ∧ ((∃ entry ∈ log, TookEffect entry) ↔
      .gameDown ∈ queue ∨ .gameDrop ∈ queue) := by
  induction queue generalizing s log with
  | nil =>
      rcases inputLoop_nil.mp hloop with ⟨rfl, rfl⟩
      exact ⟨hmoved, by simp⟩
  | cons bind queue ih =>
      rcases inputLoop_cons.mp hloop with ⟨calls, u, log', hhandle, htail, rfl⟩
      obtain ⟨hmoved', heffect⟩ := hhandle.keeps_hasMoved hmoved
      obtain ⟨hset, hrest⟩ := ih htail hmoved'
      refine ⟨hset, ?_⟩
      rw [List.exists_mem_cons_iff, heffect, hrest, List.mem_cons,
        List.mem_cons]
      grind

/-! ## Before the flag is set -/

theorem accepts_iff (hboard : Board g.p g.shape) (hplaced : Placed g.p g.shape) :
    Accepts g bind ↔
      bind = .gameLeft ∧ Fits g.p g.shape (⟨-1, 0⟩ + g.shape.pos) true ∨
      bind = .gameRight ∧ Fits g.p g.shape (⟨1, 0⟩ + g.shape.pos) true ∨
      bind = .gameRotate ∧ RotationFits g.p g.shape ∨
      bind = .gameDown ∨ bind = .gameDrop := by
  cases bind with
  | gameLeft | gameRight => simp [Accepts, movePolyno_answers_iff hboard]
  | gameRotate => simp [Accepts, rotate_answers_iff hboard hplaced.onGrid]
  | _ => simp [Accepts]

theorem SameCells.accepts (hsame : SameCells g g')
    (hboard : Board g.p g.shape) (hplaced : Placed g.p g.shape)
    (hboard' : Board g'.p g'.shape) (hplaced' : Placed g'.p g'.shape) :
    Accepts g' bind ↔ Accepts g bind := by
  rw [accepts_iff hboard hplaced, accepts_iff hboard' hplaced', hsame.shape,
    hsame.fits, hsame.fits, hsame.rotationFits]

/-- An input that did nothing, and after which the engine accepts what it
accepted before. -/
structure Idle (s : RunState) (bind : Bind) (calls : List Call)
    (s' : RunState) : Prop where
  hasMoved : s'.hasMoved = false
  effect : ¬ TookEffect (bind, calls)
  refused : ¬ Accepts s.game bind
  ne_right : bind ≠ .gameRight
  board : PieceBoard s'.game.p s'.game.shape
  accepts : ∀ b, Accepts s'.game b ↔ Accepts s.game b

theorem Idle.of_game {hasMoved loop : Bool}
    (hboard : PieceBoard s.game.p s.game.shape) (hmoved : hasMoved = false)
    (heffect : ¬ TookEffect (bind, calls)) (hrefused : ¬ Accepts s.game bind)
    (hne : bind ≠ .gameRight) :
    Idle s bind calls { s with hasMoved := hasMoved, loop := loop } :=
  ⟨hmoved, heffect, hrefused, hne, hboard, fun _ => Iff.rfl⟩

theorem Handles.idle_of_rotate {result : Int} {p : Playfield}
    {shape : Polyomino} (hboard : PieceBoard s.game.p s.game.shape)
    (hmoved : s.hasMoved = false)
    (hrotate : Grzetris.rotate s.game.p s.game.shape =
      some (result, p, shape)) (hresult : result ≠ 0) :
    Idle s .gameRotate [.rotate result]
      { s with game := { s.game with p := p, shape := shape }
               hasMoved := result == 0 } := by
  have hplaced := hboard.placed_of_rotate hrotate
  have hrefused : ¬ Accepts s.game .gameRotate := by
    rintro ⟨p', shape', hzero⟩
    rw [hrotate] at hzero
    simp only [Option.some.injEq, Prod.mk.injEq] at hzero
    exact hresult hzero.1
  have hrefuses : Refuses s.game .gameRotate := by
    rcases rotate_cases hboard.toBoard hplaced.onGrid with
      ⟨-, p', hone, -⟩ | ⟨-, p', hzero, -⟩
    · exact ⟨p', _, hone⟩
    · exact absurd ⟨p', _, hzero⟩ hrefused
  have hhandle : Handles (steadyEnv 0) s .gameRotate [.rotate result] _ :=
    .rotate hmoved hrotate
  obtain ⟨hmoved', hsame, hboard', hplaced'⟩ :=
    hhandle.refused hmoved hrefuses hboard.toBoard hplaced
  refine ⟨hmoved', ?_, hrefused, by decide, ⟨hboard', ?_⟩, fun b =>
    hsame.accepts hboard.toBoard hplaced hboard' hplaced'⟩
  · simp [TookEffect, shifted_rotate, hresult]
  · rw [hsame.shape]
    exact hboard.tetromino

theorem accepts_of_move {displacement : Vect2D} {moved : Bool} {p : Playfield}
    {shape : Polyomino}
    (hmove : movePolyno g.p g.shape displacement = some (moved, p, shape)) :
    (∃ p' shape', movePolyno g.p g.shape displacement =
      some (true, p', shape')) ↔ moved = true := by
  simp [hmove]

theorem Handles.sets_or_idle (h : Handles env s bind calls s')
    (hboard : PieceBoard s.game.p s.game.shape) (hmoved : s.hasMoved = false) :
    s'.hasMoved = true ∧
        (TookEffect (bind, calls) ↔ Accepts s.game bind) ∧
        (Accepts s.game bind ∨ bind = .gameRight) ∨
      Idle s bind calls s' := by
  cases h with
  | ignored hbind =>
      rcases hbind with ⟨-, hleft, hright, hrotate, hdrop, hdown⟩
      refine .inr (.of_game hboard hmoved ?_ ?_ hright)
      · simp [TookEffect, not_shifted_nil, hdrop, hdown]
      · cases bind <;> first | exact not_false | contradiction
  | quit =>
      exact .inr (.of_game hboard hmoved (by simp [TookEffect, not_shifted_nil])
        not_false (by decide))
  | skipped _ hskip =>
      rw [hmoved] at hskip
      contradiction
  | @left moved p shape _ hmove =>
      cases moved with
      | true =>
          refine .inl ⟨rfl, iff_of_true ?_ ⟨p, shape, hmove⟩,
            .inl ⟨p, shape, hmove⟩⟩
          exact .inr (.inr (shifted_move.mpr rfl))
      | false =>
          rcases movePolyno_eq_false hmove with ⟨rfl, rfl⟩
          refine .inr (.of_game hboard rfl ?_ ?_ (by decide))
          · simp [TookEffect, shifted_move]
          · exact fun haccepts => absurd ((accepts_of_move hmove).mp haccepts)
              (by decide)
  | @right moved p shape _ hmove =>
      refine .inl ⟨rfl, ?_, .inr rfl⟩
      rw [Accepts, accepts_of_move hmove]
      simp [TookEffect, shifted_move]
  | @rotate result p shape _ hrotate =>
      by_cases hresult : result = 0
      · subst hresult
        exact .inl ⟨rfl, iff_of_true (.inr (.inr (shifted_rotate.mpr rfl)))
          ⟨p, shape, hrotate⟩, .inl ⟨p, shape, hrotate⟩⟩
      · exact .inr (Handles.idle_of_rotate hboard hmoved hrotate hresult)
  | drop _ _ =>
      exact .inl ⟨rfl, iff_of_true (.inr (.inl rfl)) trivial, .inl trivial⟩
  | down _ => exact .inl ⟨rfl, iff_of_true (.inl rfl) trivial, .inl trivial⟩

/-- What the queue holds when one of its inputs takes effect. -/
def Deserved (g : Game) (queue : List Bind) : Prop :=
  .gameDown ∈ queue ∨ .gameDrop ∈ queue ∨
    .gameRight ∈ queue ∧ Accepts g .gameRight ∨
    ∃ b ∈ queue.takeWhile (· ≠ .gameRight), Accepts g b

theorem deserved_of_accepts (haccepts : Accepts g bind) :
    Deserved g (bind :: queue) := by
  by_cases hright : bind = .gameRight
  · subst hright
    exact .inr (.inr (.inl ⟨List.mem_cons_self, haccepts⟩))
  · refine .inr (.inr (.inr ⟨bind, ?_, haccepts⟩))
    rw [List.takeWhile_cons_of_pos (by simpa using hright)]
    exact List.mem_cons_self

theorem deserved_cons_right (hrefused : ¬ Accepts g .gameRight) :
    Deserved g (.gameRight :: queue) ↔
      .gameDown ∈ queue ∨ .gameDrop ∈ queue := by
  simp [Deserved, hrefused]

theorem deserved_cons_idle (hrefused : ¬ Accepts g bind)
    (hne : bind ≠ .gameRight) :
    Deserved g (bind :: queue) ↔ Deserved g queue := by
  have hdown : Bind.gameDown ≠ bind := by
    rintro rfl
    exact hrefused trivial
  have hdrop : Bind.gameDrop ≠ bind := by
    rintro rfl
    exact hrefused trivial
  unfold Deserved
  rw [List.takeWhile_cons_of_pos (by simpa using hne)]
  simp [hdown, hdrop, hne.symm, hrefused]

theorem tookEffect_iff (hboard : PieceBoard s.game.p s.game.shape)
    (hmoved : s.hasMoved = false)
    (hloop : inputLoop env s queue = some (log, t)) :
    (t.hasMoved = true ↔
      (∃ entry ∈ log, TookEffect entry) ∨ .gameRight ∈ queue) ∧
    ((∃ entry ∈ log, TookEffect entry) ↔ Deserved s.game queue) := by
  induction queue generalizing s log with
  | nil =>
      rcases inputLoop_nil.mp hloop with ⟨rfl, rfl⟩
      simp [Deserved, hmoved]
  | cons bind queue ih =>
      rcases inputLoop_cons.mp hloop with ⟨calls, u, log', hhandle, htail, rfl⟩
      rcases hhandle.sets_or_idle hboard hmoved with
        ⟨hset, heffect, hwhy⟩ | hidle
      · obtain ⟨hend, hrest⟩ := tookEffect_iff_of_moved htail hset
        rw [List.exists_mem_cons_iff, heffect]
        by_cases haccepts : Accepts s.game bind
        · simp [hend, haccepts, deserved_of_accepts haccepts]
        · obtain rfl := hwhy.resolve_left haccepts
          simp [hend, haccepts, hrest, deserved_cons_right haccepts]
      · obtain ⟨hflag, hrest⟩ := ih hidle.board hidle.hasMoved htail
        have hdeserved : Deserved u.game queue ↔ Deserved s.game queue := by
          simp only [Deserved, hidle.accepts]
        rw [List.exists_mem_cons_iff, hflag, hrest, hdeserved,
          deserved_cons_idle hidle.refused hidle.ne_right]
        simp [hidle.effect, hidle.ne_right.symm]

/-! ## The lockout timer -/

theorem Handles.lockout_kept (h : Handles env s bind calls s')
    (hlockout : s'.isLockout = true) :
    s.isLockout = true ∧ bind ≠ .gameDown ∧ bind ≠ .gameDrop := by
  cases h with
  | ignored hbind => exact ⟨hlockout, hbind.2.2.2.2.2, hbind.2.2.2.2.1⟩
  | quit => exact ⟨hlockout, by decide, by decide⟩
  | skipped hbind _ =>
      rcases hbind with rfl | rfl | rfl <;>
        exact ⟨hlockout, by decide, by decide⟩
  | left _ _ | right _ _ | rotate _ _ =>
      exact ⟨hlockout, by decide, by decide⟩
  | drop _ _ | down _ => simp [landed, resetTimeout] at hlockout

theorem inputLoop_lockout_kept (hloop : inputLoop env s queue = some (log, t))
    (hlockout : t.isLockout = true) :
    s.isLockout = true ∧
      ∀ entry ∈ log, entry.1 ≠ .gameDown ∧ entry.1 ≠ .gameDrop := by
  induction queue generalizing s log with
  | nil =>
      rcases inputLoop_nil.mp hloop with ⟨rfl, rfl⟩
      exact ⟨hlockout, by simp⟩
  | cons bind queue ih =>
      rcases inputLoop_cons.mp hloop with ⟨calls, u, log', hhandle, htail, rfl⟩
      obtain ⟨hu, hrest⟩ := ih htail
      obtain ⟨hs, hbind⟩ := hhandle.lockout_kept hu
      exact ⟨hs, List.forall_mem_cons.mpr ⟨hbind, hrest⟩⟩

private theorem harmless_iff {right down drop accepted earlier : Prop} :
    ((down ∨ drop ∨ right ∧ accepted ∨ earlier) ∨ right ↔
        down ∨ drop ∨ right ∧ accepted ∨ earlier) ↔
      ¬ right ∨ down ∨ drop ∨ accepted ∨ earlier := by
  tauto

/-- The flag and the lockout timer follow what the inputs have really done
exactly when no refused RIGHT is the only input to set the flag. -/
theorem delayEarned_iff (hboard : PieceBoard s.game.p s.game.shape)
    (hloop : inputLoop env (beginIteration env s) queue = some (log, t)) :
    DelayEarned env log t ↔ RightIsHarmless s.game queue := by
  obtain ⟨hflag, heffect⟩ := tookEffect_iff (s := beginIteration env s) hboard
    rfl hloop
  have hsame : (t.hasMoved = true ↔ ∃ entry ∈ log, TookEffect entry) ↔
      RightIsHarmless s.game queue := by
    rw [hflag, heffect]
    exact harmless_iff
  refine ⟨fun hearned => hsame.mp hearned.hasMoved_iff, fun hharmless => ?_⟩
  refine ⟨hsame.mpr hharmless, fun hlockout hgraced => ?_⟩
  have hmoved : t.hasMoved = true := by
    by_contra hnot
    exact hgraced (graced_of_not_moved (by simpa using hnot))
  obtain ⟨entry, hentry, hdid⟩ := (hsame.mpr hharmless).mp hmoved
  obtain ⟨hdown, hdrop⟩ := (inputLoop_lockout_kept hloop hlockout).2 entry hentry
  exact ⟨entry, hentry, (hdid.resolve_left hdown).resolve_left hdrop⟩

/-- The RIGHT that is carried out comes behind a LEFT that is refused. -/
theorem delayEarned_iff_start :
    ∃ s log t, startRun (steadyEnv 0) Engine.fresh = some s ∧
      inputLoop (steadyEnv 0) (beginIteration (steadyEnv 0) s)
        [.gameLeft, .gameRight] = some (log, t) ∧
      (DelayEarned (steadyEnv 0) log t ↔
        RightIsHarmless s.game [.gameLeft, .gameRight]) := by
  have hplays : (playTwice (steadyEnv 0) .gameLeft .gameRight).isSome = true := by
    decide +kernel
  rcases Option.isSome_iff_exists.mp hplays with
    ⟨⟨s, ⟨log, t⟩, s₁, s₂⟩, hplay⟩
  rcases oneByOne_of_playTwice hplay with ⟨hstart, hbatch, -⟩
  rcases startGame_spec (steadyEnv 0).rolls Engine.fresh with
    ⟨g, hgame, hinv, -⟩
  have hsame : g = s.game :=
    Option.some_inj.mp (hgame.symm.trans (startRun_eq hstart).1)
  subst hsame
  exact ⟨s, log, t, hstart, hbatch, delayEarned_iff hinv.board hbatch⟩

def pressRight (env : Env) : Nat → RunState → Option RunState
  | 0, s => some s
  | n + 1, s => do
      let (_, s) ← iteration env s [.gameRight]
      pressRight env n s

/-- The piece has been moved to the right wall, and RIGHT is pressed again. -/
theorem delay_unearned :
    ∃ s s' log t, startRun (steadyEnv 0) Engine.fresh = some s ∧
      pressRight (steadyEnv 0) 7 s = some s' ∧
      inputLoop (steadyEnv 0) (beginIteration (steadyEnv 0) s') [.gameRight] =
        some (log, t) ∧
      t.hasMoved = true ∧ ¬ ∃ entry ∈ log, TookEffect entry := by
  have hpress : (do
      let s ← startRun (steadyEnv 0) Engine.fresh
      let s' ← pressRight (steadyEnv 0) 7 s
      let r ← inputLoop (steadyEnv 0) (beginIteration (steadyEnv 0) s')
        [.gameRight]
      some (r.1, r.2.hasMoved)) =
        some ([(Bind.gameRight, [Call.move ⟨1, 0⟩ false])], true) := by
    decide +kernel
  simp only [Option.bind_eq_bind, Option.bind_eq_some_iff, Option.some.injEq,
    Prod.mk.injEq, Prod.exists] at hpress
  obtain ⟨s, hstart, s', hpressed, log, t, hloop, rfl, hmoved⟩ := hpress
  refine ⟨s, s', _, t, hstart, hpressed, hloop, hmoved, ?_⟩
  simp [TookEffect, shifted_move]

end Grzetris
