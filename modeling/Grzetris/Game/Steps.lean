import Grzetris.Game.Loop
import Grzetris.Game.Representation
import Mathlib.Logic.Relation

/-!
# The steps of the loop, one constructor each

The relational form of the machine.  Each relation has one constructor for each
way through the code it describes, with the tests on that way as its premises;
the `_iff` theorems say that it is the function.
-/

namespace Grzetris

open Foundation Playfield

variable {env : Env} {s s' : RunState} {calls : List Call}

/-! ## Inputs -/

def landed (env : Env) (s : RunState) (result : Int) (game : Game) : RunState :=
  { resetTimeout env { s with game := game, loop := result != 1, hasMoved := true }
    with isLockout := false }

def Bind.Ignored (bind : Bind) : Prop :=
  bind ≠ .gameQuit ∧ bind ≠ .gameLeft ∧ bind ≠ .gameRight ∧
    bind ≠ .gameRotate ∧ bind ≠ .gameDrop ∧ bind ≠ .gameDown

inductive Handles (env : Env) (s : RunState) :
    Bind → List Call → RunState → Prop
  | ignored {bind : Bind} : bind.Ignored → Handles env s bind [] s
  | quit : Handles env s .gameQuit [] { s with loop := false }
  | skipped {bind : Bind} :
      bind = .gameLeft ∨ bind = .gameRight ∨ bind = .gameRotate →
      s.hasMoved = true → Handles env s bind [] s
  | left {moved : Bool} {p : Playfield} {shape : Polyomino} :
      s.hasMoved = false →
      movePolyno s.game.p s.game.shape ⟨-1, 0⟩ = some (moved, p, shape) →
      Handles env s .gameLeft [.move ⟨-1, 0⟩ moved]
        { s with game := { s.game with p := p, shape := shape }
                 hasMoved := moved }
  | right {moved : Bool} {p : Playfield} {shape : Polyomino} :
      s.hasMoved = false →
      movePolyno s.game.p s.game.shape ⟨1, 0⟩ = some (moved, p, shape) →
      Handles env s .gameRight [.move ⟨1, 0⟩ moved]
        { s with game := { s.game with p := p, shape := shape }
                 hasMoved := true }
  | rotate {result : Int} {p : Playfield} {shape : Polyomino} :
      s.hasMoved = false →
      Grzetris.rotate s.game.p s.game.shape = some (result, p, shape) →
      Handles env s .gameRotate [.rotate result]
        { s with game := { s.game with p := p, shape := shape }
                 hasMoved := result == 0 }
  | drop {p : Playfield} {shape : Polyomino} {result : Int} {game : Game} :
      dropPolyno s.game.p s.game.shape = some (p, shape) →
      timeoutAction env.rolls { s.game with p := p, shape := shape } =
        some (result, game) →
      Handles env s .gameDrop [.drop, .timeoutAction result]
        (landed env s result game)
  | down {result : Int} {game : Game} :
      timeoutAction env.rolls s.game = some (result, game) →
      Handles env s .gameDown [.timeoutAction result] (landed env s result game)

theorem Handles.eq {bind : Bind} (h : Handles env s bind calls s') :
    handleBind env s bind = some (calls, s') := by
  cases h with
  | ignored hbind =>
      obtain ⟨hquit, hleft, hright, hrotate, hdrop, hdown⟩ := hbind
      cases bind <;> first | rfl | contradiction
  | quit => rfl
  | skipped hbind hmoved =>
      rcases hbind with rfl | rfl | rfl
      · simp [handleBind, tryMove, hmoved]
      · cases s
        simp_all [handleBind, tryMove]
      · simp [handleBind, tryRotate, hmoved]
  | left hmoved hmove => simp [handleBind, tryMove, hmoved, hmove]
  | right hmoved hmove => simp [handleBind, tryMove, hmoved, hmove]
  | rotate hmoved hrotate => simp [handleBind, tryRotate, hmoved, hrotate]
  | drop hdrop hact =>
      simp [handleBind, handleDown, hdrop, hact, landed, resetTimeout]
  | down hact => simp [handleBind, handleDown, hact, landed]

theorem tryMove_cases {displacement : Vect2D}
    (h : tryMove s displacement = some (calls, s')) :
    s.hasMoved = true ∧ calls = [] ∧ s' = s ∨
      s.hasMoved = false ∧ ∃ moved p shape,
        movePolyno s.game.p s.game.shape displacement = some (moved, p, shape) ∧
        calls = [.move displacement moved] ∧
        s' = { s with game := { s.game with p := p, shape := shape }
                      hasMoved := moved } := by
  cases hmoved : s.hasMoved with
  | true =>
      simp only [tryMove, hmoved, if_true, Option.some.injEq,
        Prod.mk.injEq] at h
      exact .inl ⟨rfl, h.1.symm, h.2.symm⟩
  | false =>
      simp only [tryMove, hmoved, Bool.false_eq_true, if_false,
        Option.bind_eq_bind, Option.bind_eq_some_iff, Option.some.injEq,
        Prod.mk.injEq, Prod.exists] at h
      obtain ⟨moved, p, shape, hmove, hcalls, hs⟩ := h
      exact .inr ⟨rfl, moved, p, shape, hmove, hcalls.symm, hs.symm⟩

theorem Handles.of_eq {bind : Bind}
    (h : handleBind env s bind = some (calls, s')) :
    Handles env s bind calls s' := by
  cases bind with
  | gameQuit =>
      cases h
      exact .quit
  | gameLeft =>
      rcases tryMove_cases h with ⟨hmoved, rfl, rfl⟩ |
        ⟨hmoved, moved, p, shape, hmove, rfl, rfl⟩
      · exact .skipped (.inl rfl) hmoved
      · exact .left hmoved hmove
  | gameRight =>
      simp only [handleBind, Option.bind_eq_bind, Option.bind_eq_some_iff,
        Option.some.injEq, Prod.mk.injEq, Prod.exists] at h
      obtain ⟨calls₁, s₁, htry, rfl, rfl⟩ := h
      rcases tryMove_cases htry with ⟨hmoved, rfl, rfl⟩ |
        ⟨hmoved, moved, p, shape, hmove, rfl, rfl⟩
      · have hsame : { s₁ with hasMoved := true } = s₁ := by
          cases s₁
          simp_all
        rw [hsame]
        exact .skipped (.inr (.inl rfl)) hmoved
      · exact .right hmoved hmove
  | gameRotate =>
      cases hmoved : s.hasMoved with
      | true =>
          simp only [handleBind, tryRotate, hmoved, if_true, Option.some.injEq,
            Prod.mk.injEq] at h
          obtain ⟨rfl, rfl⟩ := h
          exact .skipped (.inr (.inr rfl)) hmoved
      | false =>
          simp only [handleBind, tryRotate, hmoved, Bool.false_eq_true,
            if_false, Option.bind_eq_bind, Option.bind_eq_some_iff,
            Option.some.injEq, Prod.mk.injEq, Prod.exists] at h
          obtain ⟨result, p, shape, hrotate, rfl, rfl⟩ := h
          exact .rotate hmoved hrotate
  | gameDrop =>
      simp only [handleBind, handleDown, Option.bind_eq_bind,
        Option.bind_eq_some_iff, Option.some.injEq, Prod.mk.injEq,
        Prod.exists] at h
      obtain ⟨p, shape, hdrop, calls₁, s₁, ⟨result, game, hact, rfl, rfl⟩,
        rfl, rfl⟩ := h
      exact .drop hdrop hact
  | gameDown =>
      simp only [handleBind, handleDown, Option.bind_eq_bind,
        Option.bind_eq_some_iff, Option.some.injEq, Prod.mk.injEq,
        Prod.exists] at h
      obtain ⟨result, game, hact, rfl, rfl⟩ := h
      exact .down hact
  | gamePause | gameNoAction | menuNext | menuPrev | menuSelect | none =>
      cases h
      exact .ignored (by simp [Bind.Ignored])

theorem handles_iff {bind : Bind} :
    Handles env s bind calls s' ↔ handleBind env s bind = some (calls, s') :=
  ⟨Handles.eq, Handles.of_eq⟩

/-! ## Timed blocks -/

def graced (env : Env) (s : RunState) : RunState :=
  if s.hasMoved then resetLockout env s else s

def unlocked (env : Env) (s : RunState) : RunState :=
  resetTimeout env
    { s with
      isLockout := false
      timers := { s.timers with
        lockout := { s.timers.lockout with post := timePointMax } } }

inductive LocksOut (env : Env) (s : RunState) : List Call → RunState → Prop
  | inactive : s.isLockout = false → LocksOut env s [] s
  | waits : s.isLockout = true → canShapeFall s.game = some false →
      (graced env s).timers.lockout.delta < lockoutMax →
      LocksOut env s [] (graced env s)
  | leaves : s.isLockout = true → canShapeFall s.game = some true →
      LocksOut env s [] (unlocked env (graced env s))
  | locks {result : Int} {game : Game} : s.isLockout = true →
      canShapeFall s.game = some false → s.hasMoved = false →
      lockoutMax ≤ s.timers.lockout.delta →
      timeoutAction env.rolls s.game = some (result, game) →
      LocksOut env s [.timeoutAction result]
        { unlocked env s with game := game }

@[simp] theorem graced_game : (graced env s).game = s.game := by
  unfold graced
  split <;> rfl

@[simp] theorem graced_loop : (graced env s).loop = s.loop := by
  unfold graced
  split <;> rfl

@[simp] theorem graced_isLockout :
    (graced env s).isLockout = s.isLockout := by
  unfold graced
  split <;> rfl

@[simp] theorem graced_timeout :
    (graced env s).timers.timeout = s.timers.timeout := by
  unfold graced
  split <;> rfl

theorem le_graced_reads : s.reads ≤ (graced env s).reads := by
  unfold graced
  split
  · exact Nat.le_succ _
  · exact Nat.le_refl _

theorem lockoutBlock_eq (hlockout : s.isLockout = true) :
    lockoutBlock env s = (canShapeFall s.game).bind fun canFall =>
      if (graced env s).timers.lockout.delta ≥ lockoutMax ∨ canFall = true then
        leaveLockout env (graced env s) canFall
      else some ([], graced env s) := by
  simp only [lockoutBlock, hlockout, if_true, Option.bind_eq_bind]
  show (canShapeFall (graced env s).game).bind _ = _
  rw [graced_game]
  rfl

/-- A piece that was moved in this iteration is not locked: its grace period
has just started. -/
theorem hasMoved_of_graced
    (hdelta : lockoutMax ≤ (graced env s).timers.lockout.delta) :
    s.hasMoved = false := by
  cases hmoved : s.hasMoved with
  | false => rfl
  | true =>
      simp [graced, hmoved, resetLockout, lockoutMax] at hdelta

theorem graced_of_not_moved (hmoved : s.hasMoved = false) :
    graced env s = s := by
  simp [graced, hmoved]

theorem LocksOut.eq (h : LocksOut env s calls s') :
    lockoutBlock env s = some (calls, s') := by
  cases h with
  | inactive hlockout => simp [lockoutBlock, hlockout]
  | waits hlockout hfall hdelta =>
      rw [lockoutBlock_eq hlockout, hfall, Option.bind_some,
        if_neg (by simp; exact hdelta)]
  | leaves hlockout hfall =>
      simp [lockoutBlock_eq hlockout, hfall, leaveLockout, unlocked]
  | locks hlockout hfall hmoved hdelta hact =>
      rw [lockoutBlock_eq hlockout, hfall, Option.bind_some,
        graced_of_not_moved hmoved, if_pos (.inl hdelta)]
      simp [leaveLockout, unlocked, resetTimeout, hact]

theorem LocksOut.of_eq (h : lockoutBlock env s = some (calls, s')) :
    LocksOut env s calls s' := by
  cases hlockout : s.isLockout with
  | false =>
      simp only [lockoutBlock, hlockout, Bool.false_eq_true, if_false,
        Option.some.injEq, Prod.mk.injEq] at h
      obtain ⟨rfl, rfl⟩ := h
      exact .inactive hlockout
  | true =>
      rw [lockoutBlock_eq hlockout, Option.bind_eq_some_iff] at h
      obtain ⟨canFall, hfall, h⟩ := h
      cases canFall with
      | true =>
          simp only [or_true, if_true, leaveLockout, Option.some.injEq,
            Prod.mk.injEq] at h
          obtain ⟨rfl, rfl⟩ := h
          exact .leaves hlockout hfall
      | false =>
          by_cases hdelta : lockoutMax ≤ (graced env s).timers.lockout.delta
          · have hmoved := hasMoved_of_graced hdelta
            rw [if_pos (.inl hdelta)] at h
            rw [graced_of_not_moved hmoved] at h hdelta
            simp only [leaveLockout, Bool.false_eq_true, if_false,
              Option.bind_eq_bind, Option.bind_eq_some_iff, Option.some.injEq,
              Prod.mk.injEq, Prod.exists] at h
            obtain ⟨result, game, hact, rfl, rfl⟩ := h
            exact .locks hlockout hfall hmoved hdelta hact
          · rw [if_neg (by simpa using hdelta)] at h
            simp only [Option.some.injEq, Prod.mk.injEq] at h
            obtain ⟨rfl, rfl⟩ := h
            exact .waits hlockout hfall (by omega)

theorem locksOut_iff :
    LocksOut env s calls s' ↔ lockoutBlock env s = some (calls, s') :=
  ⟨LocksOut.eq, LocksOut.of_eq⟩

/-- The lockout block drops what its timeout action answers. -/
theorem LocksOut.loop (h : LocksOut env s calls s') : s'.loop = s.loop := by
  cases h with
  | inactive _ => rfl
  | waits _ _ _ | leaves _ _ => exact graced_loop
  | locks _ _ _ _ _ => rfl

/-- The last statement of the timeout block: the post becomes now. -/
def rearmed (env : Env) (s : RunState) : RunState :=
  { s with
    timers := { s.timers with
      timeout := { s.timers.timeout with post := env.clock s.reads } }
    reads := s.reads + 1 }

inductive TimesOut (env : Env) (s : RunState) : List Call → RunState → Prop
  | early : s.timers.timeout.delta < timeoutMax → TimesOut env s [] s
  | waits {canFall : Bool} : timeoutMax ≤ s.timers.timeout.delta →
      s.isLockout = true → canShapeFall s.game = some canFall →
      TimesOut env s [] (rearmed env s)
  | primes : timeoutMax ≤ s.timers.timeout.delta → s.isLockout = false →
      canShapeFall s.game = some false →
      TimesOut env s [] (rearmed env (primeLockout env s))
  | falls {p : Playfield} {shape : Polyomino} :
      timeoutMax ≤ s.timers.timeout.delta → s.isLockout = false →
      movePolyno s.game.p s.game.shape ⟨0, 1⟩ = some (true, p, shape) →
      TimesOut env s [.timeoutAction 0] (rearmed env
        { s with game := { s.game with p := p, shape := shape }, loop := true })

/-- The check of the loop and the check inside the timeout action agree. -/
theorem canShapeFall_of_move {g : Game} {moved : Bool} {p : Playfield}
    {shape : Polyomino}
    (hmove : movePolyno g.p g.shape ⟨0, 1⟩ = some (moved, p, shape)) :
    canShapeFall g = some moved := by
  simp only [movePolyno, Option.bind_eq_bind, Option.bind_eq_some_iff] at hmove
  obtain ⟨fits, hcheck, hmove⟩ := hmove
  cases fits with
  | true =>
      simp only [if_true, Option.bind_eq_some_iff, Option.some.injEq,
        Prod.mk.injEq, Prod.exists] at hmove
      obtain ⟨_, _, -, rfl, -⟩ := hmove
      exact hcheck
  | false =>
      simp only [Bool.false_eq_true, if_false, Option.some.injEq,
        Prod.mk.injEq] at hmove
      obtain ⟨rfl, -⟩ := hmove
      exact hcheck

/-- A piece that can fall is moved down by the timeout action, which then
neither locks nor draws. -/
theorem timeoutAction_of_canFall {rolls : Rolls} {g game : Game} {result : Int}
    (hfall : canShapeFall g = some true)
    (hact : timeoutAction rolls g = some (result, game)) :
    result = 0 ∧ ∃ p shape,
      movePolyno g.p g.shape ⟨0, 1⟩ = some (true, p, shape) ∧
      game = { g with p := p, shape := shape } := by
  simp only [timeoutAction, Option.bind_eq_bind, Option.bind_eq_some_iff,
    Prod.exists] at hact
  obtain ⟨moved, p, shape, hmove, hact⟩ := hact
  rw [canShapeFall_of_move hmove, Option.some_inj] at hfall
  subst hfall
  simp only [if_true, Option.some.injEq, Prod.mk.injEq] at hact
  exact ⟨hact.1.symm, p, shape, hmove, hact.2.symm⟩

theorem TimesOut.eq (h : TimesOut env s calls s') :
    timeoutBlock env s = some (calls, s') := by
  cases h with
  | early hdelta => simp [timeoutBlock, hdelta]
  | waits hdelta hlockout hfall =>
      simp [timeoutBlock, hdelta, hlockout, hfall, fall, rearmed]
  | primes hdelta hlockout hfall =>
      simp [timeoutBlock, hdelta, hlockout, hfall, fall, primeLockout, rearmed]
  | falls hdelta hlockout hmove =>
      simp [timeoutBlock, hdelta, hlockout, canShapeFall_of_move hmove, fall,
        timeoutAction, hmove, rearmed]

theorem TimesOut.of_eq (h : timeoutBlock env s = some (calls, s')) :
    TimesOut env s calls s' := by
  by_cases hdelta : timeoutMax ≤ s.timers.timeout.delta
  · simp only [timeoutBlock, ge_iff_le, hdelta, if_true, Option.bind_eq_bind,
      Option.bind_eq_some_iff] at h
    obtain ⟨canFall, hfall, ⟨calls₁, s₁⟩, hblock, h⟩ := h
    simp only [Option.some.injEq, Prod.mk.injEq] at h
    obtain ⟨rfl, rfl⟩ := h
    cases hlockout : s.isLockout with
    | true =>
        simp only [hlockout, Bool.true_eq_false, and_false, if_false, fall,
          if_true, Option.some.injEq, Prod.mk.injEq] at hblock
        obtain ⟨rfl, rfl⟩ := hblock
        exact .waits hdelta hlockout hfall
    | false =>
        cases canFall with
        | false =>
            simp only [hlockout, and_self, if_true, fall, primeLockout,
              Option.some.injEq, Prod.mk.injEq] at hblock
            obtain ⟨rfl, rfl⟩ := hblock
            exact .primes hdelta hlockout hfall
        | true =>
            rw [if_neg (by simp), fall, if_neg (by simp [hlockout])] at hblock
            simp only [Option.bind_eq_bind, Option.bind_eq_some_iff,
              Option.some.injEq, Prod.mk.injEq, Prod.exists] at hblock
            obtain ⟨result, game, hact, rfl, rfl⟩ := hblock
            obtain ⟨rfl, p, shape, hmove, rfl⟩ :=
              timeoutAction_of_canFall hfall hact
            exact .falls hdelta hlockout hmove
  · simp only [timeoutBlock, ge_iff_le, hdelta, if_false, Option.some.injEq,
      Prod.mk.injEq] at h
    obtain ⟨rfl, rfl⟩ := h
    exact .early (by omega)

theorem timesOut_iff :
    TimesOut env s calls s' ↔ timeoutBlock env s = some (calls, s') :=
  ⟨TimesOut.eq, TimesOut.of_eq⟩

/-! ## The machine -/

inductive Steps (env : Env) (fetched : List Bind) (s : RunState) :
    List Call → RunState → Prop
  | begins : s.phase = .head → s.loop = true →
      Steps env fetched s []
        { beginIteration env s with phase := .input fetched }
  | exits : s.phase = .head → s.loop = false →
      Steps env fetched s [] { s with phase := .exited }
  | inputsDone : s.phase = .input [] →
      Steps env fetched s [] { s with phase := .lockout }
  | handles {bind : Bind} {queue : List Bind} {calls : List Call}
      {s' : RunState} : s.phase = .input (bind :: queue) →
      Handles env s bind calls s' →
      Steps env fetched s calls { s' with phase := .input queue }
  | locksOut {calls : List Call} {s' : RunState} : s.phase = .lockout →
      LocksOut env s calls s' →
      Steps env fetched s calls { s' with phase := .timeout }
  | timesOut {calls : List Call} {s' : RunState} : s.phase = .timeout →
      TimesOut env s calls s' →
      Steps env fetched s calls { s' with phase := .head }
  | stays : s.phase = .exited → Steps env fetched s [] s

theorem Steps.of_eq {fetched : List Bind}
    (h : step env fetched s = some (calls, s')) :
    Steps env fetched s calls s' := by
  unfold step at h
  split at h
  case h_1 hphase =>
    cases hloop : s.loop with
    | true =>
        rw [if_pos hloop] at h
        cases h
        exact .begins hphase hloop
    | false =>
        rw [if_neg (by simp [hloop])] at h
        cases h
        exact .exits hphase hloop
  case h_2 hphase =>
    cases h
    exact .inputsDone hphase
  case h_3 bind queue hphase =>
    simp only [Option.bind_eq_bind, Option.bind_eq_some_iff, Option.some.injEq,
      Prod.mk.injEq, Prod.exists] at h
    obtain ⟨calls₁, s₁, hhandle, rfl, rfl⟩ := h
    exact .handles hphase (.of_eq hhandle)
  case h_4 hphase =>
    simp only [Option.bind_eq_bind, Option.bind_eq_some_iff, Option.some.injEq,
      Prod.mk.injEq, Prod.exists] at h
    obtain ⟨calls₁, s₁, hblock, rfl, rfl⟩ := h
    exact .locksOut hphase (.of_eq hblock)
  case h_5 hphase =>
    simp only [Option.bind_eq_bind, Option.bind_eq_some_iff, Option.some.injEq,
      Prod.mk.injEq, Prod.exists] at h
    obtain ⟨calls₁, s₁, hblock, rfl, rfl⟩ := h
    exact .timesOut hphase (.of_eq hblock)
  case h_6 hphase =>
    cases h
    exact .stays hphase

theorem Steps.eq {fetched : List Bind} (h : Steps env fetched s calls s') :
    step env fetched s = some (calls, s') := by
  cases h with
  | begins hphase hloop => simp [step, hphase, hloop]
  | exits hphase hloop => simp [step, hphase, hloop]
  | inputsDone hphase => simp [step, hphase]
  | handles hphase hhandle => simp [step, hphase, hhandle.eq]
  | locksOut hphase hblock => simp [step, hphase, hblock.eq]
  | timesOut hphase hblock => simp [step, hphase, hblock.eq]
  | stays hphase => simp [step, hphase]

/-! What a step is, given the phase. -/

theorem Steps.at_head {fetched : List Bind} (h : Steps env fetched s calls s')
    (hphase : s.phase = .head) (hloop : s.loop = true) :
    s' = { beginIteration env s with phase := .input fetched } := by
  have heq := h.eq
  simp only [step, hphase, hloop, if_true, Option.some.injEq,
    Prod.mk.injEq] at heq
  exact heq.2.symm

theorem Steps.at_input {fetched : List Bind} (h : Steps env fetched s calls s')
    (hphase : s.phase = .input []) : s' = { s with phase := .lockout } := by
  have heq := h.eq
  simp only [step, hphase, Option.some.injEq, Prod.mk.injEq] at heq
  exact heq.2.symm

theorem Steps.at_lockout {fetched : List Bind}
    (h : Steps env fetched s calls s') (hphase : s.phase = .lockout) :
    ∃ u, LocksOut env s calls u ∧ s' = { u with phase := .timeout } := by
  have heq := h.eq
  simp only [step, hphase, Option.bind_eq_bind, Option.bind_eq_some_iff,
    Option.some.injEq, Prod.mk.injEq, Prod.exists] at heq
  obtain ⟨_, u, hblock, rfl, rfl⟩ := heq
  exact ⟨u, .of_eq hblock, rfl⟩

theorem Steps.at_timeout {fetched : List Bind}
    (h : Steps env fetched s calls s') (hphase : s.phase = .timeout) :
    ∃ u, TimesOut env s calls u ∧ s' = { u with phase := .head } := by
  have heq := h.eq
  simp only [step, hphase, Option.bind_eq_bind, Option.bind_eq_some_iff,
    Option.some.injEq, Prod.mk.injEq, Prod.exists] at heq
  obtain ⟨_, u, hblock, rfl, rfl⟩ := heq
  exact ⟨u, .of_eq hblock, rfl⟩

theorem Steps.at_handles {fetched : List Bind} {bind : Bind} {queue : List Bind}
    (h : Steps env fetched s calls s')
    (hphase : s.phase = .input (bind :: queue)) :
    ∃ u, Handles env s bind calls u ∧ s' = { u with phase := .input queue } := by
  have heq := h.eq
  simp only [step, hphase, Option.bind_eq_bind, Option.bind_eq_some_iff,
    Option.some.injEq, Prod.mk.injEq, Prod.exists] at heq
  obtain ⟨_, u, hhandle, rfl, rfl⟩ := heq
  exact ⟨u, .of_eq hhandle, rfl⟩

/-! ## Whole iterations -/

theorem inputLoop_nil {log : List (Bind × List Call)} :
    inputLoop env s [] = some (log, s') ↔ log = [] ∧ s' = s := by
  simp [inputLoop, eq_comm]

theorem inputLoop_cons {bind : Bind} {queue : List Bind}
    {log : List (Bind × List Call)} :
    inputLoop env s (bind :: queue) = some (log, s') ↔
      ∃ calls t log', Handles env s bind calls t ∧
        inputLoop env t queue = some (log', s') ∧
        log = (bind, calls) :: log' := by
  simp only [inputLoop, Option.bind_eq_bind, Option.bind_eq_some_iff,
    Option.some.injEq, Prod.mk.injEq, Prod.exists, handles_iff]
  constructor
  · rintro ⟨calls, t, hhandle, log', s₁, hloop, rfl, rfl⟩
    exact ⟨calls, t, log', hhandle, hloop, rfl⟩
  · rintro ⟨calls, t, log', hhandle, hloop, rfl⟩
    exact ⟨calls, t, hhandle, log', s', hloop, rfl, rfl⟩

theorem inputLoop_append {before after : List Bind}
    {log : List (Bind × List Call)} :
    inputLoop env s (before ++ after) = some (log, s') ↔
      ∃ log₁ t log₂, inputLoop env s before = some (log₁, t) ∧
        inputLoop env t after = some (log₂, s') ∧ log = log₁ ++ log₂ := by
  induction before generalizing s log with
  | nil => simp [inputLoop_nil]
  | cons bind before ih =>
      rw [List.cons_append, inputLoop_cons]
      constructor
      · rintro ⟨calls, t, log', hhandle, hloop, rfl⟩
        rcases ih.mp hloop with ⟨log₁, t', log₂, hbefore, hafter, rfl⟩
        exact ⟨_, t', log₂,
          inputLoop_cons.mpr ⟨calls, t, log₁, hhandle, hbefore, rfl⟩, hafter,
          rfl⟩
      · rintro ⟨log₁, t', log₂, hbefore, hafter, rfl⟩
        rcases inputLoop_cons.mp hbefore with ⟨calls, t, log', hhandle, hloop, rfl⟩
        exact ⟨calls, t, _, hhandle,
          ih.mpr ⟨log', t', log₂, hloop, hafter, rfl⟩, rfl⟩

theorem iteration_iff {fetched : List Bind} {log : List (Bind × List Call)} :
    iteration env s fetched = some (log, s') ↔
      ∃ t calls₁ u calls₂,
        inputLoop env (beginIteration env s) fetched = some (log, t) ∧
        LocksOut env t calls₁ u ∧ TimesOut env u calls₂ s' := by
  simp only [iteration, Option.bind_eq_bind, Option.bind_eq_some_iff,
    Option.some.injEq, Prod.mk.injEq, Prod.exists, locksOut_iff, timesOut_iff]
  constructor
  · rintro ⟨log, t, hloop, calls₁, u, hlockout, calls₂, s', htimeout, rfl, rfl⟩
    exact ⟨t, calls₁, u, calls₂, hloop, hlockout, htimeout⟩
  · rintro ⟨t, calls₁, u, calls₂, hloop, hlockout, htimeout⟩
    exact ⟨log, t, hloop, calls₁, u, hlockout, calls₂, s', htimeout, rfl, rfl⟩

/-! The phase is no business of the handlers. -/

theorem Handles.withPhase {bind : Bind} (phase : Phase)
    (h : Handles env s bind calls s') :
    Handles env { s with phase := phase } bind calls
      { s' with phase := phase } := by
  cases h with
  | ignored hbind => exact .ignored hbind
  | quit => exact .quit
  | skipped hbind hmoved => exact .skipped hbind hmoved
  | left hmoved hmove => exact .left hmoved hmove
  | right hmoved hmove => exact .right hmoved hmove
  | rotate hmoved hrotate => exact .rotate hmoved hrotate
  | drop hdrop hact => exact .drop hdrop hact
  | down hact => exact .down hact

theorem graced_withPhase (phase : Phase) :
    graced env { s with phase := phase } =
      { graced env s with phase := phase } := by
  unfold graced
  split <;> rfl

theorem LocksOut.withPhase (phase : Phase) (h : LocksOut env s calls s') :
    LocksOut env { s with phase := phase } calls
      { s' with phase := phase } := by
  cases h with
  | inactive hlockout => exact .inactive hlockout
  | waits hlockout hfall hdelta =>
      rw [← graced_withPhase]
      refine .waits hlockout hfall ?_
      rw [graced_withPhase]
      exact hdelta
  | leaves hlockout hfall =>
      have hleaves := @LocksOut.leaves env { s with phase := phase } hlockout
        hfall
      rw [graced_withPhase] at hleaves
      exact hleaves
  | locks hlockout hfall hmoved hdelta hact =>
      exact .locks hlockout hfall hmoved hdelta hact

theorem TimesOut.withPhase (phase : Phase) (h : TimesOut env s calls s') :
    TimesOut env { s with phase := phase } calls
      { s' with phase := phase } := by
  cases h with
  | early hdelta => exact .early hdelta
  | waits hdelta hlockout hfall => exact .waits hdelta hlockout hfall
  | primes hdelta hlockout hfall => exact .primes hdelta hlockout hfall
  | falls hdelta hlockout hmove => exact .falls hdelta hlockout hmove

/-- The test of `while (loop)` succeeds. -/
def RunState.Begins (s : RunState) : Prop := s.phase = .head ∧ s.loop = true

instance (s : RunState) : Decidable s.Begins :=
  inferInstanceAs (Decidable (_ ∧ _))

/-- One step of the machine leads to the other state. -/
private def Leads (env : Env) (s s' : RunState) : Prop :=
  ∃ fetched calls, step env fetched s = some (calls, s')

private theorem inputLoop_leads {queue : List Bind}
    {log : List (Bind × List Call)}
    (hloop : inputLoop env s queue = some (log, s')) :
    Relation.ReflTransGen (Leads env) { s with phase := .input queue }
      { s' with phase := .input [] } := by
  induction queue generalizing s log with
  | nil =>
      rcases inputLoop_nil.mp hloop with ⟨-, rfl⟩
      exact .refl
  | cons bind queue ih =>
      rcases inputLoop_cons.mp hloop with ⟨calls, t, log', hhandle, htail, -⟩
      have hrest := ih htail
      have hfirst := @Steps.handles env []
        { s with phase := .input (bind :: queue) } bind queue calls
        { t with phase := .input (bind :: queue) } rfl (hhandle.withPhase _)
      exact .head ⟨[], calls, hfirst.eq⟩ hrest

/-- A whole iteration is a stretch of the machine from loop head to loop head. -/
theorem exists_run_of_iteration {engine : Engine} (run : GameRun env engine)
    {fetched : List Bind} {log : List (Bind × List Call)}
    (hbegins : (run.state run.length).Begins)
    (hiteration : iteration env (run.state run.length) fetched = some (log, s')) :
    ∃ run' : GameRun env engine,
      run'.state run'.length = { s' with phase := .head } := by
  rcases iteration_iff.mp hiteration with
    ⟨t, calls₁, u, calls₂, hinputs, hlockout, htimeout⟩
  have hbegun := @Steps.begins env fetched _ hbegins.1 hbegins.2
  have hdone := @Steps.inputsDone env [] { t with phase := .input [] } rfl
  have hlocks := @Steps.locksOut env [] { t with phase := .lockout } calls₁
    { u with phase := .lockout } rfl (hlockout.withPhase .lockout)
  have htimes := @Steps.timesOut env [] { u with phase := .timeout } calls₂
    { s' with phase := .timeout } rfl (htimeout.withPhase .timeout)
  refine run.exists_of_reaches (.head ⟨fetched, [], hbegun.eq⟩ ?_)
  refine (inputLoop_leads hinputs).trans ?_
  refine .head ⟨[], [], hdone.eq⟩ (.head ⟨[], calls₁, hlocks.eq⟩ ?_)
  exact .single ⟨[], calls₂, htimes.eq⟩

/-! ## The invariant along a run -/

theorem Handles.runInv {bind : Bind} (h : Handles env s bind calls s')
    (hinv : RunInv s.game) : RunInv s'.game := by
  cases h with
  | ignored _ => exact hinv
  | quit => exact hinv
  | skipped _ _ => exact hinv
  | left _ hmove => exact hinv.move hmove
  | right _ hmove => exact hinv.move hmove
  | rotate _ hrotate => exact hinv.rotate hrotate
  | drop hdrop hact => exact (hinv.drop hdrop).timeoutAction hact
  | down hact => exact hinv.timeoutAction hact

theorem LocksOut.runInv (h : LocksOut env s calls s') (hinv : RunInv s.game) :
    RunInv s'.game := by
  cases h with
  | inactive _ => exact hinv
  | waits _ _ _ => simpa using hinv
  | leaves _ _ =>
      show RunInv (graced env s).game
      rwa [graced_game]
  | locks _ _ _ _ hact => exact hinv.timeoutAction hact

theorem TimesOut.runInv (h : TimesOut env s calls s') (hinv : RunInv s.game) :
    RunInv s'.game := by
  cases h with
  | early _ => exact hinv
  | waits _ _ _ => exact hinv
  | primes _ _ _ => exact hinv
  | falls _ _ hmove => exact hinv.move hmove

theorem Steps.runInv {fetched : List Bind} (h : Steps env fetched s calls s')
    (hinv : RunInv s.game) : RunInv s'.game := by
  cases h with
  | begins _ _ => exact hinv
  | exits _ _ => exact hinv
  | inputsDone _ => exact hinv
  | handles _ hhandle => exact hhandle.runInv hinv
  | locksOut _ hblock => exact hblock.runInv hinv
  | timesOut _ hblock => exact hblock.runInv hinv
  | stays _ => exact hinv

variable {engine : Engine}

theorem startRun_eq (hstart : startRun env engine = some s) :
    startGame env.rolls engine = some s.game ∧ s.loop = true ∧
      s.isLockout = false ∧ s.timers = initTimers env ∧ s.reads = 3 ∧
      s.phase = .head := by
  simp only [startRun, Option.bind_eq_bind, Option.bind_eq_some_iff,
    Option.some.injEq] at hstart
  obtain ⟨game, hgame, rfl⟩ := hstart
  exact ⟨hgame, rfl, rfl, rfl, rfl, rfl⟩

theorem GameRun.steps (run : GameRun env engine) {k : Nat}
    (hk : k < run.length) :
    Steps env (run.input k) (run.state k) (run.event k) (run.state (k + 1)) :=
  .of_eq (run.next k hk)

theorem GameRun.runInv (run : GameRun env engine) :
    ∀ k ≤ run.length, RunInv (run.state k).game :=
  run.invariant (fun _ hstart => .start (startRun_eq hstart).1)
    (fun _ _ _ _ hinv hstep => (Steps.of_eq hstep).runInv hinv)

end Grzetris
