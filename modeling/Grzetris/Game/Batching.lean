import Grzetris.Game.Steps

/-!
# Inputs fetched together and one by one

`obey` is what an input does to the game when nothing comes before it in its
iteration.  Fetched one by one, inputs are always obeyed.  Fetched together,
they are obeyed up to the first one that sets `hasMoved`.
-/

namespace Grzetris

open Foundation Playfield

variable {env : Env} {s s' t : RunState} {calls : List Call} {bind : Bind}
  {queue : List Bind} {log : List (Bind × List Call)} {g g' : Game}

/-- The inputs whose engine call `hasMoved` suppresses. -/
def Bind.Steers (bind : Bind) : Prop :=
  bind = .gameLeft ∨ bind = .gameRight ∨ bind = .gameRotate

def Bind.Plays (bind : Bind) : Prop :=
  bind.Steers ∨ bind = .gameDown ∨ bind = .gameDrop

def Performed : Bind → List Call → Prop
  | .gameLeft, calls => ∃ moved, calls = [.move ⟨-1, 0⟩ moved]
  | .gameRight, calls => ∃ moved, calls = [.move ⟨1, 0⟩ moved]
  | .gameRotate, calls => ∃ result, calls = [.rotate result]
  | _, _ => True

/-- The engine refuses the input, which then leaves `hasMoved` alone. -/
def Refuses (g : Game) : Bind → Prop
  | .gameLeft => ∃ p shape,
      movePolyno g.p g.shape ⟨-1, 0⟩ = some (false, p, shape)
  | .gameRotate => ∃ p shape, rotate g.p g.shape = some (1, p, shape)
  | _ => False

/-- Only LEFTs and ROTATEs that the engine refuses come before a LEFT, RIGHT or
ROTATE of the queue. -/
def Unhindered (g : Game) (queue : List Bind) : Prop :=
  ∀ before bind after, queue = before ++ bind :: after → bind.Steers →
    ∀ b ∈ before, Refuses g b

/-! ## Obeying -/

def obey (rolls : Rolls) (g : Game) : Bind → Option Game
  | .gameLeft => do
      let (_, p, shape) ← movePolyno g.p g.shape ⟨-1, 0⟩
      some { g with p := p, shape := shape }
  | .gameRight => do
      let (_, p, shape) ← movePolyno g.p g.shape ⟨1, 0⟩
      some { g with p := p, shape := shape }
  | .gameRotate => do
      let (_, p, shape) ← rotate g.p g.shape
      some { g with p := p, shape := shape }
  | .gameDown => do
      let (_, g) ← timeoutAction rolls g
      some g
  | .gameDrop => do
      let (p, shape) ← dropPolyno g.p g.shape
      let (_, g) ← timeoutAction rolls { g with p := p, shape := shape }
      some g
  | _ => some g

def obeyAll (rolls : Rolls) : Game → List Bind → Option Game
  | g, [] => some g
  | g, bind :: queue => do
      let g ← obey rolls g bind
      obeyAll rolls g queue

theorem Handles.obey (h : Handles env s bind calls s')
    (hperformed : Performed bind calls) :
    Grzetris.obey env.rolls s.game bind = some s'.game := by
  cases h with
  | ignored hbind =>
      rcases hbind with ⟨-, hleft, hright, hrotate, hdrop, hdown⟩
      cases bind <;> first | rfl | contradiction
  | quit => rfl
  | skipped hbind _ =>
      rcases hbind with rfl | rfl | rfl <;> simp [Performed] at hperformed
  | left _ hmove => simp [Grzetris.obey, hmove]
  | right _ hmove => simp [Grzetris.obey, hmove]
  | rotate _ hrotate => simp [Grzetris.obey, hrotate]
  | drop hdrop hact =>
      simp [Grzetris.obey, hdrop, hact, landed, resetTimeout]
  | down hact => simp [Grzetris.obey, hact, landed, resetTimeout]

theorem Handles.performed (h : Handles env s bind calls s')
    (hmoved : s.hasMoved = false) : Performed bind calls := by
  cases h with
  | ignored hbind =>
      rcases hbind with ⟨-, hleft, hright, hrotate, -, -⟩
      cases bind <;> first | exact trivial | contradiction
  | skipped _ hskip =>
      rw [hmoved] at hskip
      contradiction
  | left _ _ | right _ _ | rotate _ _ => exact ⟨_, rfl⟩
  | quit | drop _ _ | down _ => trivial

theorem inputLoop_obey (hloop : inputLoop env s queue = some (log, s'))
    (hperformed : ∀ entry ∈ log, Performed entry.1 entry.2) :
    obeyAll env.rolls s.game queue = some s'.game := by
  induction queue generalizing s log with
  | nil =>
      rcases inputLoop_nil.mp hloop with ⟨-, rfl⟩
      rfl
  | cons bind queue ih =>
      rcases inputLoop_cons.mp hloop with ⟨calls, t, log', hhandle, htail, rfl⟩
      have hfirst := hhandle.obey (hperformed _ List.mem_cons_self)
      have hrest := ih htail fun entry hmem =>
        hperformed entry (List.mem_cons_of_mem _ hmem)
      simp [obeyAll, hfirst, hrest]

/-! ## One by one -/

/-- Neither the lockout timer nor the timeout timer expires in the iteration. -/
def Quiet (env : Env) (s : RunState) : Prop :=
  (updateTimers env s).timers.lockout.delta < lockoutMax ∧
    (updateTimers env s).timers.timeout.delta < timeoutMax

instance (env : Env) (s : RunState) : Decidable (Quiet env s) :=
  inferInstanceAs (Decidable (_ ∧ _))

/-- Successive iterations without an expired timer that fetch the inputs of the
queue one by one, or nothing. -/
inductive OneByOne (env : Env) : RunState → List Bind → RunState → Prop
  | done (s : RunState) : OneByOne env s [] s
  | idle {s s₁ s₂ : RunState} {queue : List Bind}
      {log : List (Bind × List Call)} : s.loop = true → Quiet env s →
      iteration env s [] = some (log, s₁) → OneByOne env s₁ queue s₂ →
      OneByOne env s queue s₂
  | next {s s₁ s₂ : RunState} {bind : Bind} {queue : List Bind}
      {log : List (Bind × List Call)} : s.loop = true → Quiet env s →
      iteration env s [bind] = some (log, s₁) → OneByOne env s₁ queue s₂ →
      OneByOne env s (bind :: queue) s₂

theorem timedBlocks_quiet {u : RunState} {calls₁ calls₂ : List Call}
    (hlockout : LocksOut env t calls₁ u) (htimeout : TimesOut env u calls₂ s')
    (hlow : t.timers.lockout.delta < lockoutMax)
    (htlow : t.timers.timeout.delta < timeoutMax) : s'.game = t.game := by
  have hu : u.game = t.game ∧ u.timers.timeout.delta < timeoutMax := by
    cases hlockout with
    | inactive _ => exact ⟨rfl, htlow⟩
    | waits _ _ _ =>
        rw [graced_game, graced_timeout]
        exact ⟨rfl, htlow⟩
    | leaves _ _ => exact ⟨graced_game, timeoutMax_pos⟩
    | locks _ _ _ hdelta _ => exact absurd hdelta (not_le.mpr hlow)
  rcases hu with ⟨hgame, hdelta⟩
  cases htimeout with
  | early _ => exact hgame
  | waits hexpired _ _ | primes hexpired _ _ | falls hexpired _ _ =>
      exact absurd hexpired (not_le.mpr hdelta)

theorem Handles.timers_low (h : Handles env s bind calls s')
    (hlow : s.timers.timeout.delta < timeoutMax) :
    s'.timers.lockout.delta = s.timers.lockout.delta ∧
      s'.timers.timeout.delta < timeoutMax := by
  cases h with
  | ignored _ | quit | skipped _ _ | left _ _ | right _ _ | rotate _ _ =>
      exact ⟨rfl, hlow⟩
  | drop _ _ | down _ => exact ⟨rfl, timeoutMax_pos⟩

theorem OneByOne.obeyAll (h : OneByOne env s queue s') :
    Grzetris.obeyAll env.rolls s.game queue = some s'.game := by
  induction h with
  | done s => rfl
  | idle _ hquiet hiteration _ ih =>
      rcases iteration_iff.mp hiteration with
        ⟨t, calls₁, u, calls₂, hloop, hlockout, htimeout⟩
      rcases inputLoop_nil.mp hloop with ⟨-, rfl⟩
      rw [timedBlocks_quiet hlockout htimeout hquiet.1 hquiet.2] at ih
      exact ih
  | @next s s₁ s₂ bind queue log _ hquiet hiteration _ ih =>
      rcases iteration_iff.mp hiteration with
        ⟨t, calls₁, u, calls₂, hloop, hlockout, htimeout⟩
      rcases inputLoop_cons.mp hloop with ⟨calls, t', log', hhandle, hnil, -⟩
      rcases inputLoop_nil.mp hnil with ⟨-, rfl⟩
      have hobey : Grzetris.obey env.rolls s.game bind = some t.game :=
        hhandle.obey (hhandle.performed rfl)
      rcases hhandle.timers_low hquiet.2 with ⟨hlow, htlow⟩
      have hgame := timedBlocks_quiet hlockout htimeout
        (by rw [hlow]; exact hquiet.1) htlow
      rw [hgame] at ih
      simp only [Grzetris.obeyAll, hobey, Option.bind_eq_bind, Option.bind_some]
      exact ih

/-! ## Together -/

theorem Handles.hasMoved (h : Handles env s bind calls s')
    (hmoved : s.hasMoved = true) :
    s'.hasMoved = true ∧ (Performed bind calls ↔ ¬ bind.Steers) := by
  cases h with
  | ignored hbind =>
      rcases hbind with ⟨-, hleft, hright, hrotate, -, -⟩
      refine ⟨hmoved, iff_of_true ?_ (by simp [Bind.Steers, *])⟩
      cases bind <;> first | exact trivial | contradiction
  | quit | drop _ _ | down _ =>
      refine ⟨by first | exact hmoved | rfl, iff_of_true trivial ?_⟩
      simp [Bind.Steers]
  | skipped hbind _ =>
      refine ⟨hmoved, iff_of_false ?_ (not_not.mpr hbind)⟩
      rcases hbind with rfl | rfl | rfl <;> simp [Performed]
  | left hnot _ | right hnot _ | rotate hnot _ =>
      rw [hmoved] at hnot
      contradiction

theorem performed_iff_of_moved
    (hloop : inputLoop env s queue = some (log, s'))
    (hmoved : s.hasMoved = true) :
    (∀ entry ∈ log, Performed entry.1 entry.2) ↔ ∀ b ∈ queue, ¬ b.Steers := by
  induction queue generalizing s log with
  | nil =>
      rcases inputLoop_nil.mp hloop with ⟨rfl, -⟩
      simp
  | cons bind queue ih =>
      rcases inputLoop_cons.mp hloop with ⟨calls, t, log', hhandle, htail, rfl⟩
      rcases hhandle.hasMoved hmoved with ⟨hmoved', hperformed⟩
      rw [List.forall_mem_cons, List.forall_mem_cons, ih htail hmoved',
        hperformed]

theorem unhindered_nil (g : Game) : Unhindered g [] := by
  intro before bind after hqueue
  simp at hqueue

theorem unhindered_cons_of_refuses (hrefuses : Refuses g bind) :
    Unhindered g (bind :: queue) ↔ Unhindered g queue := by
  constructor
  · rintro hall before b after rfl hsteers x hx
    exact hall (bind :: before) b after rfl hsteers x
      (List.mem_cons_of_mem _ hx)
  · intro hall before b after hqueue hsteers x hx
    cases before with
    | nil => simp at hx
    | cons first before =>
        simp only [List.cons_append, List.cons.injEq] at hqueue
        rcases hqueue with ⟨rfl, hqueue⟩
        rcases List.mem_cons.mp hx with rfl | hmem
        · exact hrefuses
        · exact hall before b after hqueue hsteers x hmem

theorem unhindered_cons_of_not_refuses (hrefuses : ¬ Refuses g bind) :
    Unhindered g (bind :: queue) ↔ ∀ b ∈ queue, ¬ b.Steers := by
  constructor
  · intro hall b hb hsteers
    rcases List.append_of_mem hb with ⟨before, after, rfl⟩
    exact hrefuses (hall (bind :: before) b after rfl hsteers bind
      List.mem_cons_self)
  · intro hnone before b after hqueue hsteers
    cases before with
    | nil => simp
    | cons first before =>
        simp only [List.cons_append, List.cons.injEq] at hqueue
        refine absurd hsteers (hnone b ?_)
        simp [hqueue.2]

/-! ## Refused inputs change nothing that matters -/

/-- Two states of one piece on fields with the same cells occupied. -/
structure SameCells (g g' : Game) : Prop where
  shape : g'.shape = g.shape
  h : g'.p.h = g.p.h
  w : g'.p.w = g.p.w
  look : ∀ q, g'.p.look q = none ↔ g.p.look q = none

theorem refuses_iff (hboard : Board g.p g.shape) (hplaced : Placed g.p g.shape) :
    Refuses g bind ↔
      bind = .gameLeft ∧ ¬ Fits g.p g.shape (⟨-1, 0⟩ + g.shape.pos) true ∨
      bind = .gameRotate ∧ ¬ RotationFits g.p g.shape := by
  cases bind with
  | gameLeft => simp [Refuses, movePolyno_answers_iff hboard]
  | gameRotate => simp [Refuses, rotate_answers_iff hboard hplaced.onGrid]
  | _ => simp [Refuses]

theorem SameCells.fits (hsame : SameCells g g') (position : Vect2D)
    (ignoreCurrentPos : Bool) :
    Fits g'.p g.shape position ignoreCurrentPos ↔
      Fits g.p g.shape position ignoreCurrentPos := by
  simp only [Fits, inBounds_iff, hsame.h, hsame.w, hsame.look]

theorem SameCells.rotationFits (hsame : SameCells g g') :
    RotationFits g'.p g.shape ↔ RotationFits g.p g.shape := by
  simp only [RotationFits, inBounds_iff, hsame.h, hsame.w, hsame.look]

theorem SameCells.refuses (hsame : SameCells g g')
    (hboard : Board g.p g.shape) (hplaced : Placed g.p g.shape)
    (hboard' : Board g'.p g'.shape) (hplaced' : Placed g'.p g'.shape) :
    Refuses g' bind ↔ Refuses g bind := by
  rw [refuses_iff hboard hplaced, refuses_iff hboard' hplaced', hsame.shape,
    hsame.fits, hsame.rotationFits]

/-- A refused rotation draws the piece again where it was. -/
theorem rotatedPicture_self_eq_none {p : Playfield} {shape : Polyomino}
    (hplaced : Placed p shape) (q : Vect2D) :
    rotatedPicture p shape shape q = none ↔ p.look q = none := by
  unfold rotatedPicture
  by_cases hcell : q ∈ shape.cells
  · rcases paint_strokes_of_mem (p.look.erase shape.cells) p.heap.next hcell
      with ⟨ref, hpaint, -⟩
    rcases List.mem_map.mp hcell with ⟨b, hb, rfl⟩
    rcases hplaced.drawn b hb with ⟨ref', hlook, -⟩
    simp [hpaint, hlook]
  · rw [paint_strokes_of_notMem _ _ hcell, Picture.erase_of_notMem hcell]

theorem Handles.refused (h : Handles env s bind calls s')
    (hmoved : s.hasMoved = false) (hrefuses : Refuses s.game bind)
    (hboard : Board s.game.p s.game.shape)
    (hplaced : Placed s.game.p s.game.shape) :
    s'.hasMoved = false ∧ SameCells s.game s'.game ∧
      Board s'.game.p s'.game.shape ∧ Placed s'.game.p s'.game.shape := by
  cases h with
  | ignored hbind =>
      rcases hbind with ⟨-, hleft, -, hrotate, -, -⟩
      cases bind <;> first | exact hrefuses.elim | contradiction
  | quit | right _ _ | drop _ _ | down _ => exact hrefuses.elim
  | skipped _ hskip =>
      rw [hmoved] at hskip
      contradiction
  | left _ hmove =>
      rcases hrefuses with ⟨p, shape, hfalse⟩
      rw [hmove] at hfalse
      cases hfalse
      rcases movePolyno_eq_false hmove with ⟨rfl, rfl⟩
      exact ⟨rfl, ⟨rfl, rfl, rfl, fun _ => Iff.rfl⟩, hboard, hplaced⟩
  | rotate _ hrotate =>
      rcases hrefuses with ⟨p, shape, hone⟩
      rw [hrotate] at hone
      cases hone
      rcases rotate_cases hboard hplaced.onGrid with
        ⟨-, p', hrotate', hbecomes, -⟩ | ⟨-, p', hrotate', -⟩
      · rw [hrotate'] at hrotate
        cases hrotate
        have hplaced' := Placed.of_becomes hplaced.x_ne hplaced.y_ne
          hplaced.inBounds hplaced.blocks_distinct hbecomes
        refine ⟨rfl, ⟨rfl, hbecomes.h_eq, hbecomes.w_eq, ?_⟩,
          ⟨hbecomes.rect, ?_, ?_, .inr hplaced'⟩, hplaced'⟩
        · intro q
          have hsame := rotatedPicture_self_eq_none hplaced q
          rw [← hbecomes.look_eq] at hsame
          exact hsame
        · exact hbecomes.h_eq.ge.trans' hboard.height
        · exact hbecomes.w_eq.ge.trans' hboard.width
      · rw [hrotate'] at hrotate
        cases hrotate

theorem Handles.accepted (h : Handles env s bind calls s') (hplays : bind.Plays)
    (hrefuses : ¬ Refuses s.game bind)
    (hboard : Board s.game.p s.game.shape)
    (hplaced : Placed s.game.p s.game.shape) : s'.hasMoved = true := by
  cases h with
  | ignored hbind =>
      rcases hbind with ⟨-, hleft, hright, hrotate, hdrop, hdown⟩
      rcases hplays with (rfl | rfl | rfl) | rfl | rfl <;> contradiction
  | quit => simp [Bind.Plays, Bind.Steers] at hplays
  | skipped _ hskip => exact hskip
  | @left moved p shape _ hmove =>
      cases moved with
      | true => rfl
      | false => exact absurd ⟨p, shape, hmove⟩ hrefuses
  | right _ _ | drop _ _ | down _ => rfl
  | @rotate result p shape _ hrotate =>
      rcases rotate_cases hboard hplaced.onGrid with
        ⟨-, p', hrotate', -⟩ | ⟨-, p', hrotate', -⟩
      · exact absurd ⟨p', _, hrotate'⟩ hrefuses
      · rw [hrotate'] at hrotate
        cases hrotate
        rfl

theorem performed_iff_unhindered (hboard : Board s.game.p s.game.shape)
    (hplaced : Placed s.game.p s.game.shape) (hmoved : s.hasMoved = false)
    (hqueue : ∀ b ∈ queue, b.Plays)
    (hloop : inputLoop env s queue = some (log, s')) :
    (∀ entry ∈ log, Performed entry.1 entry.2) ↔
      Unhindered s.game queue := by
  induction queue generalizing s log with
  | nil =>
      rcases inputLoop_nil.mp hloop with ⟨rfl, -⟩
      simp [unhindered_nil]
  | cons bind queue ih =>
      rcases List.forall_mem_cons.mp hqueue with ⟨hplays, hrest⟩
      rcases inputLoop_cons.mp hloop with ⟨calls, t, log', hhandle, htail, rfl⟩
      rw [List.forall_mem_cons]
      by_cases hrefuses : Refuses s.game bind
      · rcases hhandle.refused hmoved hrefuses hboard hplaced with
          ⟨hmoved', hsame, hboard', hplaced'⟩
        have hunhindered : Unhindered t.game queue ↔
            Unhindered s.game queue := by
          unfold Unhindered
          simp only [hsame.refuses hboard hplaced hboard' hplaced']
        rw [ih hboard' hplaced' hmoved' hrest htail, hunhindered,
          unhindered_cons_of_refuses hrefuses]
        exact and_iff_right (hhandle.performed hmoved)
      · have hmoved' := hhandle.accepted hplays hrefuses hboard hplaced
        rw [performed_iff_of_moved htail hmoved',
          unhindered_cons_of_not_refuses hrefuses]
        exact and_iff_right (hhandle.performed hmoved)

/-- A queue of inputs has the same effect in one iteration as input by input, and
every LEFT, RIGHT and ROTATE in it is performed, exactly when none of them
comes behind an input that the engine accepts. -/
theorem batch_obeyed_iff {env' : Env} {s₁ s₂ : RunState}
    (hrolls : env'.rolls = env.rolls)
    (hboard : Board s.game.p s.game.shape)
    (hplaced : Placed s.game.p s.game.shape)
    (hqueue : ∀ b ∈ queue, b.Plays)
    (hbatch : inputLoop env (beginIteration env s) queue = some (log, s₁))
    (hone : OneByOne env' s queue s₂) :
    (s₁.game = s₂.game ∧ ∀ entry ∈ log, Performed entry.1 entry.2) ↔
      Unhindered s.game queue := by
  have hiff := performed_iff_unhindered (s := beginIteration env s) hboard
    hplaced rfl hqueue hbatch
  constructor
  · exact fun h => hiff.mp h.2
  · intro hunhindered
    have hperformed := hiff.mpr hunhindered
    refine ⟨?_, hperformed⟩
    have htogether := inputLoop_obey hbatch hperformed
    change obeyAll env.rolls s.game queue = some s₁.game at htogether
    have hapart := hone.obeyAll
    rw [hrolls, htogether] at hapart
    exact Option.some_inj.mp hapart

def playTwice (env : Env) (first second : Bind) :
    Option (RunState × (List (Bind × List Call) × RunState) ×
      RunState × RunState) := do
  let s ← startRun env Engine.fresh
  let together ← inputLoop env (beginIteration env s) [first, second]
  let (_, s₁) ← iteration env s [first]
  let (_, s₂) ← iteration env s₁ [second]
  if s.loop ∧ Quiet env s ∧ s₁.loop ∧ Quiet env s₁ then
    some (s, together, s₁, s₂)
  else none

theorem oneByOne_of_playTwice {first second : Bind} {s₁ s₂ : RunState}
    (hplay : playTwice env first second = some (s, (log, t), s₁, s₂)) :
    startRun env Engine.fresh = some s ∧
      inputLoop env (beginIteration env s) [first, second] = some (log, t) ∧
      OneByOne env s [first, second] s₂ := by
  simp only [playTwice, Option.bind_eq_bind, Option.bind_eq_some_iff,
    Prod.exists, Option.ite_none_right_eq_some, Option.some.injEq,
    Prod.mk.injEq] at hplay
  rcases hplay with ⟨s, hstart, log, t, htogether, _, s₁, hfirst, _, s₂, hsecond,
    ⟨hloop, hquiet, hloop₁, hquiet₁⟩, rfl, ⟨rfl, rfl⟩, rfl, rfl⟩
  exact ⟨hstart, htogether, .next hloop hquiet hfirst
    (.next hloop₁ hquiet₁ hsecond (.done _))⟩

/-- The wall refuses the LEFT, so the RIGHT behind it is performed. -/
theorem batch_obeyed_iff_start :
    ∃ s log s₁ s₂, startRun (steadyEnv 0) Engine.fresh = some s ∧
      inputLoop (steadyEnv 0) (beginIteration (steadyEnv 0) s)
        [.gameLeft, .gameRight] = some (log, s₁) ∧
      OneByOne (steadyEnv 0) s [.gameLeft, .gameRight] s₂ ∧
      ((s₁.game = s₂.game ∧ ∀ entry ∈ log, Performed entry.1 entry.2) ↔
        Unhindered s.game [.gameLeft, .gameRight]) := by
  have hplays : (playTwice (steadyEnv 0) .gameLeft .gameRight).isSome = true := by
    decide +kernel
  rcases Option.isSome_iff_exists.mp hplays with
    ⟨⟨s, ⟨log, t⟩, s₁, s₂⟩, hplay⟩
  rcases oneByOne_of_playTwice hplay with ⟨hstart, hbatch, hone⟩
  rcases startGame_spec (steadyEnv 0).rolls Engine.fresh with
    ⟨g, hgame, hinv, hplaced, -⟩
  have hsame : g = s.game :=
    Option.some_inj.mp (hgame.symm.trans (startRun_eq hstart).1)
  subst hsame
  have hqueue : ∀ b ∈ [Bind.gameLeft, .gameRight], b.Plays := by
    simp [Bind.Plays, Bind.Steers]
  exact ⟨s, log, t, s₂, hstart, hbatch, hone,
    batch_obeyed_iff rfl hinv.board.toBoard hplaced hqueue hbatch hone⟩

/-- The second of two RIGHTs in one iteration is skipped. -/
theorem batch_differs :
    ¬ ∀ (env : Env) (engine : Engine) (s s₁ s₂ : RunState) (queue : List Bind)
      (log : List (Bind × List Call)),
      startRun env engine = some s → (∀ b ∈ queue, b.Plays) →
        inputLoop env (beginIteration env s) queue = some (log, s₁) →
        (∀ entry ∈ log, Call.timeoutAction 1 ∉ entry.2) →
        OneByOne env s queue s₂ → s₁.game = s₂.game := by
  intro hsame
  have hplays : (playTwice (steadyEnv 0) .gameRight .gameRight).map
      (fun r => (r.2.1.1, r.2.1.2.game.shape.pos, r.2.2.2.game.shape.pos)) =
      some ([(.gameRight, [.move ⟨1, 0⟩ true]), (.gameRight, [])], ⟨1, 0⟩,
        ⟨2, 0⟩) := by
    decide +kernel
  rw [Option.map_eq_some_iff] at hplays
  rcases hplays with ⟨⟨s, ⟨log, s₁⟩, _, s₂⟩, hplay, hresult⟩
  simp only [Prod.mk.injEq] at hresult
  rcases hresult with ⟨rfl, htogether, hapart⟩
  rcases oneByOne_of_playTwice hplay with ⟨hstart, hbatch, hone⟩
  have hgame := hsame _ _ s s₁ s₂ _ _ hstart
    (by simp [Bind.Plays, Bind.Steers]) hbatch (by simp) hone
  rw [hgame, hapart] at htogether
  contradiction

end Grzetris
