import Grzetris.Game.Batching

/-!
# Quitting

`loop` is assigned, never conjoined, so a QUIT counts only if nothing assigns
the flag after it.  Two things do: a DOWN or DROP behind it in the queue, and
the gravity step of the same iteration.  Whether they will can be told from the
game at the start of the iteration and the queue, by playing the queue without
the loop.
-/

namespace Grzetris

open Foundation Playfield

variable {env : Env} {s s' t : RunState} {calls : List Call} {bind : Bind}
  {before after queue : List Bind} {log : List (Bind × List Call)} {g g' : Game}
  {moved : Bool} {rolls : Rolls}

def Bind.Lands (bind : Bind) : Prop := bind = .gameDown ∨ bind = .gameDrop

instance (bind : Bind) : Decidable bind.Lands :=
  inferInstanceAs (Decidable (_ ∨ _))

instance (bind : Bind) : Decidable bind.Steers :=
  inferInstanceAs (Decidable (_ ∨ _ ∨ _))

/-! ## The queue without the loop -/

/-- After this input `hasMoved` is set. -/
def SetsMoved (g : Game) : Bind → Prop
  | .gameLeft => Fits g.p g.shape (⟨-1, 0⟩ + g.shape.pos) true
  | .gameRotate => RotationFits g.p g.shape
  | .gameRight | .gameDown | .gameDrop => True
  | _ => False

instance (g : Game) : (bind : Bind) → Decidable (SetsMoved g bind)
  | .gameLeft => inferInstanceAs (Decidable (Fits _ _ _ _))
  | .gameRotate => inferInstanceAs (Decidable (RotationFits _ _))
  | .gameRight | .gameDown | .gameDrop => .isTrue trivial
  | .gameQuit | .gamePause | .gameNoAction | .menuNext | .menuPrev
  | .menuSelect | .none => .isFalse not_false

/-- What an input makes of `hasMoved` and of the game. -/
def play (rolls : Rolls) (moved : Bool) (g : Game) (bind : Bind) :
    Option (Bool × Game) :=
  if moved = true ∧ bind.Steers then some (moved, g)
  else do
    let g' ← obey rolls g bind
    some (moved || decide (SetsMoved g bind), g')

def playAll (rolls : Rolls) : Bool → Game → List Bind → Option (Bool × Game)
  | moved, g, [] => some (moved, g)
  | moved, g, bind :: queue => do
      let (moved, g) ← play rolls moved g bind
      playAll rolls moved g queue

/-- The piece cannot fall, and the next one does not fit once the filled rows
are cleared. -/
def LastPiece (g : Game) : Prop :=
  ¬ Fits g.p g.shape (⟨0, 1⟩ + g.shape.pos) true ∧
    ∃ p, clearLines g.p = some p ∧ ¬ Fits p g.nextShape ⟨0, 0⟩ true

/-- The input lands the last piece. -/
def Ends (g : Game) : Bind → Prop
  | .gameDown => LastPiece g
  | .gameDrop => ∃ p shape, dropPolyno g.p g.shape = some (p, shape) ∧
      LastPiece { g with p := p, shape := shape }
  | _ => False

/-- No DOWN or DROP follows the QUIT, or the last of them lands the last
piece. -/
def QuitStands (rolls : Rolls) (g : Game) (before after : List Bind) : Prop :=
  ∀ middle bind tail, after = middle ++ bind :: tail → bind.Lands →
    (∀ b ∈ tail, ¬ b.Lands) →
    ∀ moved g', playAll rolls false g (before ++ .gameQuit :: middle) =
        some (moved, g') →
      Ends g' bind

/-- The timeout timer expires in this iteration, nothing in the queue resets it,
and the piece is not in lockout and can fall after the inputs. -/
def GravityActs (env : Env) (s : RunState) (queue : List Bind) : Prop :=
  (∀ b ∈ queue, ¬ b.Lands) ∧ s.isLockout = false ∧
    timeoutMax ≤
      toMilliseconds (env.clock s.reads - s.timers.timeout.post) ∧
    ∀ moved g', playAll env.rolls false s.game queue = some (moved, g') →
      Fits g'.p g'.shape (⟨0, 1⟩ + g'.shape.pos) true

theorem Handles.setsMoved (h : Handles env s bind calls s')
    (hinv : RunInv s.game) (hmoved : s.hasMoved = false) :
    SetsMoved s.game bind ↔ s'.hasMoved = true := by
  cases h with
  | ignored hbind =>
      obtain ⟨-, hleft, hright, hrotate, hdrop, hdown⟩ := hbind
      cases bind <;> first | contradiction | simp [SetsMoved, hmoved]
  | quit => simp [SetsMoved, hmoved]
  | skipped _ hskip =>
      rw [hmoved] at hskip
      contradiction
  | left _ hmove =>
      exact ((movePolyno_answers_iff hinv.board.toBoard _ _).mp
        ⟨_, _, hmove⟩).symm
  | right _ _ | drop _ _ | down _ => exact iff_of_true trivial rfl
  | rotate _ hrotate =>
      have hplaced := hinv.board.placed_of_rotate hrotate
      have hanswer := (rotate_answers_iff hinv.board.toBoard hplaced.onGrid
        _).mp ⟨_, _, hrotate⟩
      rcases hanswer with ⟨rfl, hfits⟩ | ⟨rfl, hfits⟩
      · exact iff_of_true hfits rfl
      · exact iff_of_false hfits Bool.false_ne_true

theorem Handles.skips (h : Handles env s bind calls s')
    (hmoved : s.hasMoved = true) (hsteers : bind.Steers) : s' = s := by
  cases h with
  | ignored _ | skipped _ _ => rfl
  | left hnot _ | right hnot _ | rotate hnot _ =>
      rw [hmoved] at hnot
      contradiction
  | quit | drop _ _ | down _ => simp [Bind.Steers] at hsteers

theorem Handles.plays (h : Handles env s bind calls s')
    (hinv : RunInv s.game) :
    play env.rolls s.hasMoved s.game bind = some (s'.hasMoved, s'.game) := by
  cases hmoved : s.hasMoved with
  | false =>
      have hsets : decide (SetsMoved s.game bind) = s'.hasMoved := by
        rw [Bool.eq_iff_iff, decide_eq_true_iff]
        exact h.setsMoved hinv hmoved
      rw [play, if_neg (by simp), h.obey (h.performed hmoved)]
      simp [hsets]
  | true =>
      obtain ⟨hmoved', hperformed⟩ := h.hasMoved hmoved
      by_cases hsteers : bind.Steers
      · rw [play, if_pos ⟨rfl, hsteers⟩, h.skips hmoved hsteers, hmoved]
      · rw [play, if_neg fun hboth => hsteers hboth.2,
          h.obey (hperformed.mpr hsteers), hmoved']
        simp

theorem inputLoop_plays (hinv : RunInv s.game)
    (hloop : inputLoop env s queue = some (log, t)) :
    playAll env.rolls s.hasMoved s.game queue = some (t.hasMoved, t.game) ∧
      RunInv t.game := by
  induction queue generalizing s log with
  | nil =>
      rcases inputLoop_nil.mp hloop with ⟨-, rfl⟩
      exact ⟨rfl, hinv⟩
  | cons bind queue ih =>
      rcases inputLoop_cons.mp hloop with ⟨calls, u, log', hhandle, htail, -⟩
      obtain ⟨hplays, hinv'⟩ := ih (hhandle.runInv hinv) htail
      refine ⟨?_, hinv'⟩
      rw [playAll, hhandle.plays hinv]
      exact hplays

/-! ## The last piece -/

theorem lastPiece_iff (hinv : GameInv g) (rolls : Rolls) : LastPiece g ↔
    ∃ g', timeoutAction rolls g = some (1, g') := by
  obtain ⟨p, picture, hclear, -⟩ := clearLines_spec hinv.board.rect
  rcases movePolyno_cases hinv.board.toBoard ⟨0, 1⟩ with
    ⟨hrests, hrefused⟩ | ⟨hfits, p', hmove, -⟩
  · have hspawn : timeoutAction rolls g = spawn rolls g := by
      rw [timeoutAction, hrefused]
      rfl
    rw [hspawn, spawn_refuses_iff hinv hclear]
    simp [LastPiece, hrests, hclear]
  · refine iff_of_false (fun hlast => hlast.1 hfits) ?_
    rintro ⟨g', hone⟩
    simp [timeoutAction, hmove] at hone

/-! ## One input -/

theorem Handles.frame (h : Handles env s bind calls s')
    (hbind : ¬ bind.Lands) : s'.isLockout = s.isLockout ∧
      s'.timers = s.timers ∧ (bind ≠ .gameQuit → s'.loop = s.loop) := by
  cases h with
  | ignored _ | skipped _ _ | left _ _ | right _ _ | rotate _ _ =>
      exact ⟨rfl, rfl, fun _ => rfl⟩
  | quit => exact ⟨rfl, rfl, fun hquit => absurd rfl hquit⟩
  | drop _ _ => exact absurd (.inr rfl) hbind
  | down _ => exact absurd (.inl rfl) hbind

theorem Handles.lands (h : Handles env s bind calls s') (hbind : bind.Lands) :
    s'.timers.timeout.delta = 0 ∧
      (RunInv s.game → (s'.loop = false ↔ Ends s.game bind)) := by
  rcases hbind with rfl | rfl
  · cases h with
    | ignored hignored => exact absurd rfl hignored.2.2.2.2.2
    | skipped hbind _ => simp at hbind
    | @down result game hact =>
        refine ⟨rfl, fun hinv => ?_⟩
        show (result != 1) = false ↔ LastPiece s.game
        rw [lastPiece_iff hinv.toGameInv env.rolls, hact]
        simp
  · cases h with
    | ignored hignored => exact absurd rfl hignored.2.2.2.2.1
    | skipped hbind _ => simp at hbind
    | @drop p shape result game hdrop hact =>
        refine ⟨rfl, fun hinv => ?_⟩
        show (result != 1) = false ↔ ∃ p shape, dropPolyno _ _ = _ ∧ _
        have hlast := lastPiece_iff (hinv.drop hdrop).toGameInv env.rolls
        rw [hact] at hlast
        rw [hdrop]
        simp [hlast]

/-! ## The queue -/

theorem inputLoop_frame (hloop : inputLoop env s queue = some (log, s'))
    (hqueue : ∀ b ∈ queue, ¬ b.Lands) : s'.isLockout = s.isLockout ∧
      s'.timers = s.timers ∧ (Bind.gameQuit ∉ queue → s'.loop = s.loop) := by
  induction queue generalizing s log with
  | nil =>
      rcases inputLoop_nil.mp hloop with ⟨-, rfl⟩
      exact ⟨rfl, rfl, fun _ => rfl⟩
  | cons bind queue ih =>
      rcases inputLoop_cons.mp hloop with ⟨calls, t, log', hhandle, htail, -⟩
      rcases hhandle.frame (hqueue _ List.mem_cons_self) with
        ⟨hlockout, htimers, hkeeps⟩
      rcases ih htail fun b hb => hqueue b (List.mem_cons_of_mem _ hb) with
        ⟨hlockout', htimers', hkeeps'⟩
      refine ⟨hlockout'.trans hlockout, htimers'.trans htimers, ?_⟩
      intro hquit
      rw [List.mem_cons, not_or] at hquit
      exact (hkeeps' hquit.2).trans (hkeeps (Ne.symm hquit.1))

theorem exists_last_lands (queue : List Bind) : (∀ b ∈ queue, ¬ b.Lands) ∨
    ∃ middle bind tail, queue = middle ++ bind :: tail ∧ bind.Lands ∧
      ∀ b ∈ tail, ¬ b.Lands := by
  induction queue with
  | nil => exact .inl (by simp)
  | cons first queue ih =>
      rcases ih with hnone | ⟨middle, bind, tail, rfl, hlands, htail⟩
      · by_cases hfirst : first.Lands
        · exact .inr ⟨[], first, queue, rfl, hfirst, hnone⟩
        · refine .inl fun b hb => ?_
          rcases List.mem_cons.mp hb with rfl | hmem
          · exact hfirst
          · exact hnone b hmem
      · exact .inr ⟨first :: middle, bind, tail, rfl, hlands, htail⟩

theorem inputLoop_lands {middle tail : List Bind}
    (hloop : inputLoop env s (middle ++ bind :: tail) = some (log, s'))
    (hlands : bind.Lands) (htail : ∀ b ∈ tail, ¬ b.Lands) :
    s'.timers.timeout.delta = 0 ∧ (RunInv s.game → Bind.gameQuit ∉ tail →
      ∃ moved g', playAll env.rolls s.hasMoved s.game middle =
          some (moved, g') ∧
        (s'.loop = false ↔ Ends g' bind)) := by
  rcases inputLoop_append.mp hloop with ⟨log₁, t, log₂, hmiddle, hrest, -⟩
  rcases inputLoop_cons.mp hrest with ⟨calls, u, log₃, hhandle, hloop', -⟩
  rcases hhandle.lands hlands with ⟨hdelta, hends⟩
  rcases inputLoop_frame hloop' htail with ⟨-, htimers, hkeeps⟩
  refine ⟨by rw [htimers]; exact hdelta, fun hinv hquit => ?_⟩
  obtain ⟨hplays, hinv'⟩ := inputLoop_plays hinv hmiddle
  refine ⟨_, _, hplays, ?_⟩
  rw [hkeeps hquit]
  exact hends hinv'

theorem quitStands_iff (hinv : RunInv s.game)
    (hlast : Bind.gameQuit ∉ after)
    (hloop : inputLoop env (beginIteration env s)
      (before ++ .gameQuit :: after) = some (log, t)) :
    t.loop = false ↔ QuitStands env.rolls s.game before after := by
  have hbehind : ∀ {middle bind tail}, after = middle ++ bind :: tail →
      bind.Lands → (∀ b ∈ tail, ¬ b.Lands) →
      ∃ moved g', playAll env.rolls false s.game
          (before ++ .gameQuit :: middle) = some (moved, g') ∧
        (t.loop = false ↔ Ends g' bind) := by
    rintro middle bind tail rfl hlands htail
    have hsplit : inputLoop env (beginIteration env s)
        ((before ++ .gameQuit :: middle) ++ bind :: tail) = some (log, t) := by
      rw [List.append_assoc, List.cons_append]
      exact hloop
    have hquit : Bind.gameQuit ∉ tail := by
      simp only [List.mem_append, List.mem_cons, not_or] at hlast
      exact hlast.2.2
    exact (inputLoop_lands hsplit hlands htail).2 hinv hquit
  constructor
  · intro hflag middle bind tail hafter hlands htail moved g' hplays
    obtain ⟨moved', g'', hplays', hends⟩ := hbehind hafter hlands htail
    rw [hplays] at hplays'
    cases hplays'
    exact hends.mp hflag
  · intro hstands
    rcases exists_last_lands after with
      hnone | ⟨middle, bind, tail, hafter, hlands, htail⟩
    · rcases inputLoop_append.mp hloop with ⟨log₁, t₁, log₂, -, hrest, -⟩
      rcases inputLoop_cons.mp hrest with ⟨calls, u, log₃, hhandle, hloop', -⟩
      rw [(inputLoop_frame hloop' hnone).2.2 hlast]
      cases hhandle with
      | ignored hignored => exact absurd rfl hignored.1
      | skipped hbind _ => simp at hbind
      | quit => rfl
    · obtain ⟨moved, g', hplays, hends⟩ := hbehind hafter hlands htail
      exact hends.mpr
        (hstands middle bind tail hafter hlands htail moved g' hplays)

/-! ## The timed blocks -/

theorem LocksOut.eq_of_free (h : LocksOut env s calls s')
    (hfree : s.isLockout = false) : s' = s := by
  cases h with
  | inactive _ => rfl
  | waits hlocked _ _ | leaves hlocked _ | locks hlocked _ _ _ _ =>
      rw [hfree] at hlocked
      contradiction

/-- Gravity does not act in the iteration in which the lockout ends. -/
theorem LocksOut.holds_gravity (h : LocksOut env s calls s')
    (hlocked : s.isLockout = true) :
    s'.isLockout = true ∨ s'.timers.timeout.delta < timeoutMax := by
  cases h with
  | inactive hfree =>
      rw [hlocked] at hfree
      contradiction
  | waits _ _ _ => exact .inl (graced_isLockout.trans hlocked)
  | leaves _ _ | locks _ _ _ _ _ => exact .inr timeoutMax_pos

theorem timedBlocks_loop {u : RunState} {calls₁ calls₂ : List Call}
    (hlockout : LocksOut env t calls₁ u) (htimeout : TimesOut env u calls₂ s') :
    s'.loop = false ↔ t.loop = false ∧ ¬ (t.isLockout = false ∧
      timeoutMax ≤ t.timers.timeout.delta ∧
      canShapeFall t.game = some true) := by
  by_cases hfree : t.isLockout = false
  · obtain rfl := hlockout.eq_of_free hfree
    cases htimeout with
    | early hdelta =>
        refine ⟨fun hflag => ⟨hflag, ?_⟩, fun h => h.1⟩
        rintro ⟨-, hdelta', -⟩
        omega
    | waits _ hlocked _ =>
        rw [hfree] at hlocked
        contradiction
    | primes _ _ hfall =>
        refine ⟨fun hflag => ⟨hflag, ?_⟩, fun h => h.1⟩
        rintro ⟨-, -, hfall'⟩
        rw [hfall] at hfall'
        contradiction
    | falls hdelta _ hmove =>
        constructor
        · intro hflag
          contradiction
        · rintro ⟨-, hnot⟩
          exact absurd ⟨hfree, hdelta, canShapeFall_of_move hmove⟩ hnot
  · have hheld := hlockout.holds_gravity (by simpa using hfree)
    have hflag : s'.loop = t.loop := by
      cases htimeout with
      | early _ | waits _ _ _ | primes _ _ _ => exact hlockout.loop
      | falls hdelta hfree' _ =>
          rcases hheld with hlocked | hearly
          · rw [hfree'] at hlocked
            contradiction
          · omega
    simp [hflag, hfree]

/-- The check of the loop, in terms of what it checks. -/
theorem canShapeFall_iff (hinv : RunInv g) : canShapeFall g = some true ↔
    Fits g.p g.shape (⟨0, 1⟩ + g.shape.pos) true := by
  rw [canShapeFall, hinv.board.polynoMoveCheck_eq, Option.some_inj,
    decide_eq_true_iff]

theorem gravityActs_iff (hinv : RunInv s.game)
    (hloop : inputLoop env (beginIteration env s) queue = some (log, t)) :
    (t.isLockout = false ∧ timeoutMax ≤ t.timers.timeout.delta ∧
      canShapeFall t.game = some true) ↔ GravityActs env s queue := by
  obtain ⟨hplays, hinv'⟩ := inputLoop_plays (s := beginIteration env s) hinv
    hloop
  change playAll env.rolls false s.game queue = _ at hplays
  rw [canShapeFall_iff hinv']
  constructor
  · rintro ⟨hfree, hdelta, hfits⟩
    rcases exists_last_lands queue with
      hnone | ⟨middle, bind, tail, rfl, hlands, htail⟩
    · rcases inputLoop_frame hloop hnone with ⟨hlockout, htimers, -⟩
      rw [htimers] at hdelta
      refine ⟨hnone, hlockout.symm.trans hfree, hdelta, ?_⟩
      intro moved g' hplays'
      rw [hplays] at hplays'
      cases hplays'
      exact hfits
    · have hzero := (inputLoop_lands hloop hlands htail).1
      rw [hzero] at hdelta
      exact absurd hdelta (by decide)
  · rintro ⟨hnone, hfree, hdelta, hfits⟩
    rcases inputLoop_frame hloop hnone with ⟨hlockout, htimers, -⟩
    refine ⟨hlockout.trans hfree, ?_, hfits _ _ hplays⟩
    rw [htimers]
    exact hdelta

variable {engine : Engine} {k : Nat}

/-- An iteration whose queue holds a QUIT ends with the loop flag false exactly
when neither a later DOWN or DROP nor gravity sets it again. -/
theorem quit_kept_iff (run : GameRun env engine) (hk : k ≤ run.length)
    (hlast : Bind.gameQuit ∉ after)
    (hiteration : iteration env (run.state k) (before ++ .gameQuit :: after) =
      some (log, s')) :
    s'.loop = false ↔
      QuitStands env.rolls (run.state k).game before after ∧
        ¬ GravityActs env (run.state k) (before ++ .gameQuit :: after) := by
  have hinv := run.runInv k hk
  rcases iteration_iff.mp hiteration with
    ⟨t, calls₁, u, calls₂, hloop, hlockout, htimeout⟩
  rw [timedBlocks_loop hlockout htimeout, quitStands_iff hinv hlast hloop,
    gravityActs_iff hinv hloop]

/-- The second iteration of a game, with a DOWN behind the QUIT. -/
theorem quit_kept_iff_between :
    ∃ (run : GameRun (steadyEnv 0) Engine.fresh) (log : _) (s' : RunState),
      (run.state run.length).Begins ∧
      iteration (steadyEnv 0) (run.state run.length)
        [.gameDown, .gameQuit, .gameDown, .gameLeft] = some (log, s') ∧
      s'.loop = true ∧
      (s'.loop = false ↔
        QuitStands (steadyEnv 0).rolls (run.state run.length).game [.gameDown]
            [.gameDown, .gameLeft] ∧
          ¬ GravityActs (steadyEnv 0) (run.state run.length)
            [.gameDown, .gameQuit, .gameDown, .gameLeft]) := by
  have hplays : ((startRun (steadyEnv 0) Engine.fresh).bind fun s =>
      (iteration (steadyEnv 0) s [.gameDown]).bind fun r =>
        (iteration (steadyEnv 0) { r.2 with phase := .head }
          [.gameDown, .gameQuit, .gameDown, .gameLeft]).map fun r' =>
            (s.phase, s.loop, r.2.loop, r'.2.loop)) =
      some (.head, true, true, true) := by
    decide +kernel
  simp only [Option.bind_eq_some_iff, Option.map_eq_some_iff, Prod.exists,
    Prod.mk.injEq] at hplays
  obtain ⟨s, hstart, log₁, s₁, hfirst, log, s', hsecond, hphase, hloop, hloop₁,
    hflag⟩ := hplays
  obtain ⟨run, hrun⟩ := exists_run_of_iteration (Run.rest hstart [] [])
    ⟨hphase, hloop⟩ hfirst
  have hlast : Bind.gameQuit ∉ [Bind.gameDown, .gameLeft] := by decide
  rw [← hrun] at hsecond
  refine ⟨run, log, s', ?_, hsecond, hflag, ?_⟩
  · rw [hrun]
    exact ⟨rfl, hloop₁⟩
  change iteration (steadyEnv 0) (run.state run.length)
    ([.gameDown] ++ .gameQuit :: [.gameDown, .gameLeft]) = some (log, s')
      at hsecond
  exact quit_kept_iff run (le_refl _) hlast hsecond

theorem quit_lost :
    ¬ ∀ (env : Env) (engine : Engine) (s : RunState) (fetched : List Bind)
      (log : List (Bind × List Call)) (s' : RunState),
      startRun env engine = some s → Bind.gameQuit ∈ fetched →
        iteration env s fetched = some (log, s') → s'.loop = false := by
  intro hkept
  have hplays : ((startRun (steadyEnv 0) Engine.fresh).bind fun s =>
      (iteration (steadyEnv 0) s [.gameQuit, .gameDown]).map
        fun r => r.2.loop) = some true := by
    decide +kernel
  simp only [Option.bind_eq_some_iff, Option.map_eq_some_iff, Prod.exists]
    at hplays
  rcases hplays with ⟨s, hstart, log, s', hiteration, hflag⟩
  rw [hkept _ _ s _ log s' hstart List.mem_cons_self hiteration] at hflag
  contradiction

end Grzetris
