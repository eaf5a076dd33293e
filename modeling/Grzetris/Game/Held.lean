import Grzetris.Game.Quit
import Grzetris.Game.Unattended

/-!
# Keys that are held down

What happens in the long run when one key is in the queue of every iteration.  A
QUIT at its end can be lost to the gravity step and to nothing else; that step
lowers the piece, so the game is left in the end.  A RIGHT, obeyed or not, keeps
a piece from being locked for ever.
-/

namespace Grzetris

open Foundation Playfield

variable {env : Env} {engine : Engine} {s s' : RunState} {calls : List Call}
  {bind : Bind} {fetched : List Bind} {n : Nat}

/-- The timeout timer does not expire in this iteration, or the piece has come
down to its `n`-th row at least. -/
def Lowered (n : Nat) (s : RunState) : Prop :=
  s.timers.timeout.delta < timeoutMax ∨ n ≤ s.game.depth + 1

/-- What holds after `n` iterations have begun with a QUIT at the end of the
queue. -/
def Insisted (n : Nat) (s : RunState) : Prop :=
  match s.phase with
  | .head => s.loop = true → n ≤ s.game.depth
  | .input queue => 0 < n →
      (if queue = [] then s.loop = false
        else queue.getLast? = some .gameQuit) ∧ Lowered n s
  | .lockout | .timeout => 0 < n → s.loop = false ∧ Lowered n s
  | .exited => True

/-! ## A step with a QUIT -/

theorem Advances.depth_le {g : Game} {p : Playfield} {shape : Polyomino}
    (h : Advances n g { g with p := p, shape := shape }) :
    g.depth + n ≤ { g with p := p, shape := shape : Game }.depth := by
  have hprogress := h.progress
  simp only [Game.progress] at hprogress
  omega

theorem Handles.lowered (h : Handles env s bind calls s')
    (hpaced : Paced s.game) (hlowered : Lowered n s) : Lowered n s' := by
  by_cases hlands : bind.Lands
  · left
    rw [(h.lands hlands).1]
    exact timeoutMax_pos
  · have htimers := (h.frame hlands).2.1
    rcases hlowered with hearly | hrow
    · exact .inl (by rwa [htimers])
    · right
      cases h with
      | ignored _ | quit | skipped _ _ => exact hrow
      | left _ hmove | right _ hmove =>
          have hadvances := hpaced.move (n := 0) hmove (by decide) rfl
          have hdepth := hadvances.depth_le
          exact hrow.trans (by simpa using hdepth)
      | rotate _ hrotate =>
          have hdepth := (hpaced.rotate hrotate).depth_le
          exact hrow.trans (by simpa using hdepth)
      | drop _ _ => exact absurd (.inr rfl) hlands
      | down _ => exact absurd (.inl rfl) hlands

theorem Handles.quits (h : Handles env s .gameQuit calls s') :
    s'.loop = false := by
  cases h with
  | ignored hignored => exact absurd rfl hignored.1
  | skipped hbind _ => simp at hbind
  | quit => rfl

theorem LocksOut.lowered (h : LocksOut env s calls s')
    (hlowered : Lowered n s) : Lowered n s' := by
  cases h with
  | inactive _ => exact hlowered
  | waits _ _ _ => rwa [Lowered, graced_timeout, graced_game]
  | leaves _ _ | locks _ _ _ _ _ => exact .inl timeoutMax_pos

/-- Gravity lowers the piece by the row for which the flag is set again. -/
theorem TimesOut.lowered (h : TimesOut env s calls s') (hpaced : Paced s.game)
    (hloop : s.loop = false) (hlowered : Lowered n s)
    (hagain : s'.loop = true) : n ≤ s'.game.depth := by
  cases h with
  | early _ => rw [hloop] at hagain; contradiction
  | waits _ _ _ | primes _ _ _ =>
      have hkept : s.loop = true := hagain
      rw [hloop] at hkept
      contradiction
  | falls hdelta _ hmove =>
      have hadvances := hpaced.move (n := 1) hmove (by decide) rfl
      have hdepth := hadvances.depth_le
      have hrow := hlowered.resolve_left (by omega)
      exact hrow.trans hdepth

theorem Steps.insisted (h : Steps env fetched s calls s') (hpaced : Paced s.game)
    (hquit : s.Begins → fetched.getLast? = some .gameQuit)
    (hinsisted : Insisted n s) :
    Insisted (n + if s.Begins then 1 else 0) s' := by
  have hcount : ∀ {phase}, s.phase = phase → phase ≠ .head →
      n + (if s.Begins then 1 else 0) = n := by
    rintro _ rfl hphase
    rw [if_neg fun hbegins => hphase hbegins.1]
    rfl
  cases h with
  | begins hphase hloop =>
      have hbegins : s.Begins := ⟨hphase, hloop⟩
      simp only [Insisted, hphase] at hinsisted
      rw [if_pos hbegins]
      intro _
      refine ⟨?_, .inr (Nat.succ_le_succ (hinsisted hloop))⟩
      have hlast := hquit hbegins
      split_ifs with hnil
      · rw [hnil] at hlast
        contradiction
      · exact hlast
  | exits _ _ => trivial
  | inputsDone hphase =>
      rw [hcount hphase (by simp)]
      simp only [Insisted, hphase, if_true] at hinsisted
      exact hinsisted
  | @handles bind queue _ _ hphase hhandles =>
      rw [hcount hphase (by simp)]
      simp only [Insisted, hphase] at hinsisted
      intro hpos
      obtain ⟨hlast, hlowered⟩ := hinsisted hpos
      rw [if_neg (by simp)] at hlast
      refine ⟨?_, hhandles.lowered hpaced hlowered⟩
      split_ifs with hnil
      · rw [hnil] at hlast
        cases hlast
        exact hhandles.quits
      · rwa [List.getLast?_cons_of_ne_nil hnil] at hlast
  | locksOut hphase hlocks =>
      rw [hcount hphase (by simp)]
      simp only [Insisted, hphase] at hinsisted
      intro hpos
      obtain ⟨hloop, hlowered⟩ := hinsisted hpos
      exact ⟨hlocks.loop.trans hloop, hlocks.lowered hlowered⟩
  | timesOut hphase htimes =>
      rw [hcount hphase (by simp)]
      simp only [Insisted, hphase] at hinsisted
      intro hagain
      rcases Nat.eq_zero_or_pos n with rfl | hpos
      · exact Nat.zero_le _
      · obtain ⟨hloop, hlowered⟩ := hinsisted hpos
        exact htimes.lowered hpaced hloop hlowered hagain
  | stays hphase =>
      rw [hcount hphase (by simp)]
      exact hinsisted

theorem Steps.leaves (h : Steps env fetched s calls s')
    (hphase : s.phase = .head) (hloop : ¬ s.loop = true) :
    s'.phase = .exited := by
  cases h with
  | begins _ hloop' => exact absurd hloop' hloop
  | exits _ _ => rfl
  | inputsDone hother | handles hother _ | locksOut hother _
  | timesOut hother _ | stays hother =>
      rw [hphase] at hother
      contradiction

/-! ## A QUIT in every iteration -/

/-- The steps that an iteration still has to do, its queue included. -/
def RunState.pending (s : RunState) : Nat :=
  match s.phase with
  | .input queue => queue.length + 3
  | .lockout => 2
  | .timeout => 1
  | .head | .exited => 0

theorem Steps.pending (h : Steps env fetched s calls s')
    (hhead : s.phase ≠ .head) (hexited : s.phase ≠ .exited) :
    s'.pending < s.pending := by
  cases h with
  | begins hphase _ | exits hphase _ => exact absurd hphase hhead
  | stays hphase => exact absurd hphase hexited
  | inputsDone hphase | handles hphase _ | locksOut hphase _
  | timesOut hphase _ =>
      simp [RunState.pending, hphase]

variable (execution : GameExecution env engine)

/-- The iterations that begin in the `k` steps from the `m`-th state on. -/
def iterations (m k : Nat) : Nat :=
  (List.range k).countP fun j => (execution.state (m + j)).Begins

theorem iterations_succ (m k : Nat) : iterations execution m (k + 1) =
    iterations execution m k +
      if (execution.state (m + k)).Begins then 1 else 0 := by
  simp [iterations, List.range_succ, List.countP_append, List.countP_singleton]

variable {execution} {m : Nat}

theorem insisted_of_quits
    (hquits : ∀ k, m ≤ k → (execution.state k).Begins →
      (execution.input k).getLast? = some .gameQuit) (k : Nat) :
    Insisted (iterations execution m k) (execution.state (m + k)) ∧
      iterations execution m k ≤ 20 := by
  induction k with
  | zero =>
      refine ⟨?_, Nat.zero_le _⟩
      rw [Nat.add_zero]
      unfold Insisted
      cases (execution.state m).phase with
      | head => exact fun _ => Nat.zero_le _
      | input _ | lockout | timeout =>
          exact fun hpos => absurd hpos (Nat.lt_irrefl 0)
      | exited => trivial
  | succ k ih =>
      obtain ⟨hinsisted, hcount⟩ := ih
      have hpaced := execution_paced execution (m + k)
      rw [iterations_succ]
      refine ⟨(execution_steps execution (m + k)).insisted hpaced
        (hquits _ (by omega)) hinsisted, ?_⟩
      split_ifs with hbegins
      · have hdepth := hpaced.depth_le
        simp only [Insisted, hbegins.1] at hinsisted
        have hrow := hinsisted hbegins.2
        omega
      · exact hcount

theorem iterations_mono {j k : Nat} (hle : j ≤ k) :
    iterations execution m j ≤ iterations execution m k := by
  induction k, hle using Nat.le_induction with
  | base => exact Nat.le_refl _
  | succ k _ ih =>
      rw [iterations_succ]
      omega

/-- A game that is not left begins one iteration after another. -/
theorem exists_begins
    (hstays : ∀ k, m ≤ k → (execution.state k).phase ≠ .exited) {k : Nat}
    (hk : m ≤ k) : ∃ j, k ≤ j ∧ (execution.state j).Begins := by
  have hheads : LeadsTo execution.state
      (fun t => t.phase ≠ .head ∧ t.phase ≠ .exited)
      fun t => t.phase = .head ∨ t.phase = .exited := by
    refine leadsTo_of_descends RunState.pending ?_
    rintro i ⟨hhead, hexited⟩
    have hpending := (execution_steps execution i).pending hhead hexited
    by_cases hgoal : (execution.state (i + 1)).phase = .head ∨
        (execution.state (i + 1)).phase = .exited
    · exact .inl hgoal
    · exact .inr ⟨not_or.mp hgoal, hpending⟩
  obtain ⟨j, hle, hphase⟩ : ∃ j, k ≤ j ∧
      (execution.state j).phase = .head := by
    by_cases hhead : (execution.state k).phase = .head
    · exact ⟨k, Nat.le_refl _, hhead⟩
    · obtain ⟨j, hle, hgoal⟩ := hheads k ⟨hhead, hstays k hk⟩
      exact ⟨j, hle, hgoal.resolve_right (hstays j (by omega))⟩
  refine ⟨j, hle, hphase, ?_⟩
  by_contra hloop
  have hexits := (execution_steps execution j).leaves hphase hloop
  exact hstays (j + 1) (by omega) hexits

theorem iterations_unbounded
    (hstays : ∀ k, m ≤ k → (execution.state k).phase ≠ .exited) (bound : Nat) :
    ∃ k, bound ≤ iterations execution m k := by
  have hgrows : ∀ n, LeadsTo id (fun k => iterations execution m k = n)
      fun k => n < iterations execution m k := by
    rintro n k rfl
    obtain ⟨j, hle, hbegins⟩ := exists_begins hstays (k := m + k) (by omega)
    obtain ⟨i, rfl⟩ := Nat.exists_eq_add_of_le (Nat.le_trans (by omega) hle : m ≤ j)
    refine ⟨i + 1, by omega, ?_⟩
    have hmono : iterations execution m k ≤ iterations execution m i :=
      iterations_mono (by omega)
    change iterations execution m k < iterations execution m (i + 1)
    rw [iterations_succ, if_pos hbegins]
    omega
  exact unbounded_of_leadsTo _ hgrows bound

/--
Whatever the clock and the generator do: when every queue of inputs ends in a
QUIT from some step on, the game begins at most twenty more iterations and is
left.
-/
theorem insisting_exits
    (hquits : ∀ k, m ≤ k → (execution.state k).Begins →
      (execution.input k).getLast? = some .gameQuit) :
    (∀ k, iterations execution m k ≤ 20) ∧
      ∃ k, m ≤ k ∧ (execution.state k).phase = .exited := by
  have hfew := fun k => (insisted_of_quits hquits k).2
  refine ⟨hfew, ?_⟩
  by_contra hnever
  obtain ⟨k, hmany⟩ := iterations_unbounded
    (fun k hk hexited => hnever ⟨k, hk, hexited⟩) 21
  have hcount := hfew k
  omega

/-- Nothing but this key waits in the queue. -/
def Repeats (bind : Bind) (s : RunState) : Prop :=
  ∀ queue, s.phase = .input queue → ∀ other ∈ queue, other = bind

theorem Steps.repeats (h : Steps env [bind] s calls s')
    (hrepeats : Repeats bind s) : Repeats bind s' := by
  intro queue hqueue other hother
  cases h with
  | begins _ _ =>
      cases hqueue
      exact List.mem_singleton.mp hother
  | handles hphase _ =>
      cases hqueue
      exact hrepeats _ hphase other (List.mem_cons_of_mem _ hother)
  | stays hphase => exact hrepeats queue hqueue other hother
  | exits _ _ | inputsDone _ | locksOut _ _ | timesOut _ _ => cases hqueue

theorem exists_repeating (env : Env) (engine : Engine) (bind : Bind)
    (hbind : bind ≠ .gameRotate) :
    ∃ execution : GameExecution env engine,
      execution.input = (fun _ => [bind]) ∧
        (execution.state 0).phase = .head ∧ (execution.state 0).loop = true := by
  refine exists_gameExecution env engine _ (I := Repeats bind) ?_ ?_ ?_
  · intro s hphase _ queue hqueue
    rw [hphase] at hqueue
    contradiction
  · rintro s hrepeats ⟨⟨queue, hqueue⟩, -⟩
    exact hbind (hrepeats _ hqueue _ List.mem_cons_self).symm
  · exact fun _ _ _ _ hstep hrepeats => hstep.repeats hrepeats

/-- With this clock gravity acts in every iteration. -/
theorem insisting_exits_gravity :
    ∃ execution : GameExecution (steadyEnv 400000000) Engine.fresh,
      execution.input = (fun _ => [.gameQuit]) ∧
        (∀ k, iterations execution 0 k ≤ 20) ∧
        ∃ k, 0 ≤ k ∧ (execution.state k).phase = .exited := by
  obtain ⟨execution, hinput, -, -⟩ :=
    exists_repeating (steadyEnv 400000000) Engine.fresh .gameQuit (by decide)
  refine ⟨execution, hinput, insisting_exits fun k _ _ => ?_⟩
  rw [hinput]
  rfl

/-! ## A RIGHT in every iteration -/

/-- A RIGHT and no input that ends the turn of the piece. -/
def Stalls (queue : List Bind) : Prop :=
  .gameRight ∈ queue ∧ ∀ bind ∈ queue, bind ≠ .gameQuit ∧ ¬ bind.Lands

/-- The piece of `g` is still the falling one, and the lockout block will not
lock it. -/
def Stalled (g : Game) (s : RunState) : Prop :=
  s.game.engine = g.engine ∧ s.game.nextShape = g.nextShape ∧
    s.loop = true ∧
    match s.phase with
    | .head | .timeout => True
    | .input queue => (s.hasMoved = true ∨ .gameRight ∈ queue) ∧
        ∀ bind ∈ queue, bind ≠ .gameQuit ∧ ¬ bind.Lands
    | .lockout => s.hasMoved = true
    | .exited => False

theorem Handles.stalled (h : Handles env s bind calls s')
    (hquit : bind ≠ .gameQuit) (hlands : ¬ bind.Lands) :
    s'.game.engine = s.game.engine ∧ s'.game.nextShape = s.game.nextShape ∧
      s'.loop = s.loop ∧
      (s.hasMoved = true ∨ bind = .gameRight → s'.hasMoved = true) := by
  cases h with
  | ignored hignored =>
      refine ⟨rfl, rfl, rfl, fun hmoved => hmoved.resolve_right ?_⟩
      exact hignored.2.2.1
  | skipped _ hmoved => exact ⟨rfl, rfl, rfl, fun _ => hmoved⟩
  | left hfree _ | rotate hfree _ => exact ⟨rfl, rfl, rfl, by simp [hfree]⟩
  | right _ _ => exact ⟨rfl, rfl, rfl, fun _ => rfl⟩
  | quit => exact absurd rfl hquit
  | drop _ _ => exact absurd (.inr rfl) hlands
  | down _ => exact absurd (.inl rfl) hlands

theorem Steps.stalled {g : Game} (h : Steps env fetched s calls s')
    (hstalls : s.Begins → Stalls fetched) (hstalled : Stalled g s) :
    Stalled g s' := by
  obtain ⟨hengine, hnext, hloop, hphase⟩ := hstalled
  cases h with
  | begins hhead _ =>
      obtain ⟨hright, hall⟩ := hstalls ⟨hhead, hloop⟩
      exact ⟨hengine, hnext, hloop, .inr hright, hall⟩
  | exits _ hexit => rw [hloop] at hexit; contradiction
  | inputsDone hinput =>
      rw [hinput] at hphase
      exact ⟨hengine, hnext, hloop, hphase.1.resolve_right List.not_mem_nil⟩
  | @handles bind queue _ _ hinput hhandles =>
      rw [hinput] at hphase
      obtain ⟨hright, hall⟩ := hphase
      obtain ⟨hquit, hlands⟩ := hall bind List.mem_cons_self
      obtain ⟨hengine', hnext', hloop', hmoved⟩ := hhandles.stalled hquit hlands
      refine ⟨hengine'.trans hengine, hnext'.trans hnext, hloop'.trans hloop, ?_,
        fun other hother => hall other (List.mem_cons_of_mem _ hother)⟩
      rcases hright with hmoved' | hright
      · exact .inl (hmoved (.inl hmoved'))
      · rcases List.mem_cons.mp hright with hfirst | hrest
        · exact .inl (hmoved (.inr hfirst.symm))
        · exact .inr hrest
  | locksOut hlockout hlocks =>
      rw [hlockout] at hphase
      have hloop' := hlocks.loop.trans hloop
      cases hlocks with
      | inactive _ => exact ⟨hengine, hnext, hloop', trivial⟩
      | waits _ _ _ | leaves _ _ =>
          refine ⟨?_, ?_, hloop', trivial⟩
          · exact (congrArg Game.engine graced_game).trans hengine
          · exact (congrArg Game.nextShape graced_game).trans hnext
      | locks _ _ hfree _ _ =>
          have hmoved : s.hasMoved = true := hphase
          rw [hfree] at hmoved
          contradiction
  | timesOut _ htimes =>
      cases htimes with
      | early _ | waits _ _ _ | primes _ _ _ =>
          exact ⟨hengine, hnext, hloop, trivial⟩
      | falls _ _ _ => exact ⟨hengine, hnext, rfl, trivial⟩
  | stays hexited =>
      rw [hexited] at hphase
      exact hphase.elim

/--
While every queue of inputs holds a RIGHT, be it refused by the wall, and no
QUIT, DOWN or DROP, the loop is not left and no piece is locked or drawn, however
long this takes.
-/
theorem stalling_forever (hhead : (execution.state m).phase = .head)
    (hloop : (execution.state m).loop = true)
    (hstalls : ∀ k, m ≤ k → (execution.state k).Begins →
      Stalls (execution.input k)) :
    ∀ k, m ≤ k → (execution.state k).loop = true ∧
      (execution.state k).phase ≠ .exited ∧
      (execution.state k).game.engine = (execution.state m).game.engine ∧
      (execution.state k).game.nextShape =
        (execution.state m).game.nextShape := by
  have hall : ∀ k, m ≤ k →
      Stalled (execution.state m).game (execution.state k) := by
    intro k hle
    induction k, hle using Nat.le_induction with
    | base => exact ⟨rfl, rfl, hloop, by rw [hhead]; trivial⟩
    | succ k hle ih =>
        exact (execution_steps execution k).stalled (hstalls k hle) ih
  intro k hle
  obtain ⟨hengine, hnext, hloop', hphase⟩ := hall k hle
  refine ⟨hloop', fun hexited => ?_, hengine, hnext⟩
  rw [hexited] at hphase
  exact hphase

theorem stalling_forever_right :
    ∃ execution : GameExecution (steadyEnv 400000000) Engine.fresh,
      execution.input = (fun _ => [.gameRight]) ∧
        ∀ k, 0 ≤ k → (execution.state k).loop = true ∧
          (execution.state k).phase ≠ .exited ∧
          (execution.state k).game.engine = (execution.state 0).game.engine ∧
          (execution.state k).game.nextShape =
            (execution.state 0).game.nextShape := by
  obtain ⟨execution, hinput, hphase, hloop⟩ :=
    exists_repeating (steadyEnv 400000000) Engine.fresh .gameRight (by decide)
  refine ⟨execution, hinput, stalling_forever hphase hloop fun k _ _ => ?_⟩
  rw [hinput]
  simp [Stalls, Bind.Lands]

end Grzetris
