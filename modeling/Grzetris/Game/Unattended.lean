import Grzetris.Foundation.Executions
import Grzetris.Game.Pace
import Grzetris.Game.Timing

/-!
# A game that nobody plays

Only inputs end a game.  The answer of the timeout action in the lockout block
is dropped, so a game that is left alone draws one piece after another for ever,
whether there is room for them or not.
-/

namespace Grzetris

open Foundation Playfield

abbrev GameExecution (env : Env) (engine : Engine) :=
  Execution (fun s => startRun env engine = some s) (step env)

variable {env : Env} {engine : Engine} {s s' : RunState} {calls : List Call}

/-! ## What ends a game -/

/-- The bind that is handled in a step. -/
def Handling (s : RunState) (bind : Bind) : Prop :=
  ∃ queue, s.phase = .input (bind :: queue)

/-- A QUIT, or a DOWN or DROP after which the next piece did not fit. -/
def EndsBy (s : RunState) (calls : List Call) : Prop :=
  Handling s .gameQuit ∨
    (Handling s .gameDown ∨ Handling s .gameDrop) ∧
      .timeoutAction 1 ∈ calls

private theorem eq_one_of_bne {result : Int} (hended : (result != 1) = false) :
    result = 1 := by
  simpa using hended

theorem Steps.endsBy {fetched : List Bind} (h : Steps env fetched s calls s')
    (hloop : s.loop = true) (hended : s'.loop = false) : EndsBy s calls := by
  have hnot : ∀ flag : Bool, flag = s.loop → flag ≠ false := by
    rintro flag rfl
    rw [hloop]
    decide
  cases h with
  | begins _ _ | exits _ _ | inputsDone _ | stays _ =>
      exact absurd hended (hnot _ rfl)
  | @handles bind queue _ _ hphase hhandles =>
      cases hhandles with
      | ignored _ | skipped _ _ | left _ _ | right _ _ | rotate _ _ =>
          exact absurd hended (hnot _ rfl)
      | quit => exact .inl ⟨queue, hphase⟩
      | drop _ _ =>
          obtain rfl := eq_one_of_bne hended
          exact .inr ⟨.inr ⟨queue, hphase⟩, .tail _ (.head _)⟩
      | down _ =>
          obtain rfl := eq_one_of_bne hended
          exact .inr ⟨.inl ⟨queue, hphase⟩, .head _⟩
  | locksOut _ hlocks => exact absurd hended (hnot _ hlocks.loop)
  | timesOut _ htimes =>
      cases htimes with
      | early _ | waits _ _ _ | primes _ _ _ =>
          exact absurd hended (hnot _ rfl)
      | falls _ _ _ => contradiction

/-- A run is at its end only because of an input: some step before handled a
QUIT, or a DOWN or a DROP after which the next piece did not fit. -/
theorem run_ended (run : GameRun env engine) :
    ∀ k ≤ run.length, (run.state k).loop = false →
      ∃ j < k, EndsBy (run.state j) (run.event j) := by
  refine run.invariant_index ?_ ?_
  · intro hended
    rw [(startRun_eq run.start).2.1] at hended
    contradiction
  · intro k hk ih hended
    cases hloop : (run.state k).loop with
    | false =>
        obtain ⟨j, hj, hends⟩ := ih hloop
        exact ⟨j, by omega, hends⟩
    | true => exact ⟨k, by omega, (run.steps hk).endsBy hloop hended⟩

theorem run_ended_quit :
    ∃ run : GameRun (steadyEnv 0) Engine.fresh,
      (run.state 2).loop = false ∧
        ∃ j < 2, EndsBy (run.state j) (run.event j) := by
  have hvisited : ((script (steadyEnv 0) [[.gameQuit], []]).bind fun visited =>
      visited[1]?.map fun v => v.2.loop) = some false := by
    decide +kernel
  simp only [Option.bind_eq_some_iff, Option.map_eq_some_iff, Prod.exists]
    at hvisited
  obtain ⟨visited, hscript, calls, s, hget, hended⟩ := hvisited
  obtain ⟨run, hlength, hstates⟩ := exists_run_of_script hscript
  have hlt := (List.getElem?_eq_some_iff.mp hget).1
  have hloop : (run.state 2).loop = false := by
    rw [(hstates 1 calls s hget).2]
    exact hended
  exact ⟨run, hloop, run_ended run 2 (by omega) hloop⟩

/-! ## An iteration without inputs -/

def IdlePhase : Phase → Prop
  | .head | .input [] | .lockout | .timeout => True
  | _ => False

/-- The loop goes on and there is no input left to handle. -/
structure LeftAlone (s : RunState) : Prop where
  loop : s.loop = true
  phase : IdlePhase s.phase

theorem Steps.leftAlone (h : Steps env [] s calls s') (hidle : LeftAlone s) :
    LeftAlone s' := by
  have hphase := hidle.phase
  cases h with
  | begins _ _ => exact ⟨hidle.loop, trivial⟩
  | exits _ hended =>
      rw [hidle.loop] at hended
      contradiction
  | inputsDone _ => exact ⟨hidle.loop, trivial⟩
  | handles hinput _ =>
      rw [hinput] at hphase
      contradiction
  | locksOut _ hlocks => exact ⟨hlocks.loop.trans hidle.loop, trivial⟩
  | timesOut _ htimes =>
      refine ⟨?_, trivial⟩
      cases htimes with
      | early _ | waits _ _ _ | primes _ _ _ => exact hidle.loop
      | falls _ _ _ => rfl
  | stays hexited =>
      rw [hexited] at hphase
      contradiction

/-- The timer that the loop waits for. -/
def RunState.watched (s : RunState) : Timer :=
  if s.isLockout then s.timers.lockout else s.timers.timeout

/-- What an iteration without inputs can do.  Waiting takes another reading of
the clock; the lockout flag turns towards what the piece can do. -/
inductive IdleStep (env : Env) (s s' : RunState) : Prop
  | waits : s'.game = s.game → s'.isLockout = s.isLockout →
      s'.watched.post = s.watched.post →
      toMilliseconds (env.clock s.reads - s.watched.post) < lockoutMax →
      IdleStep env s s'
  | turns : s'.game = s.game → s'.isLockout = !s.isLockout →
      canShapeFall s.game = some s.isLockout → IdleStep env s s'
  | advances : s.game.progress < s'.game.progress → IdleStep env s s'

theorem watched_free (hfree : s.isLockout = false) :
    s.watched = s.timers.timeout := by
  simp [RunState.watched, hfree]

theorem watched_lockout (hlockout : s.isLockout = true) :
    s.watched = s.timers.lockout := by
  simp [RunState.watched, hlockout]

/-- The lockout is left with the timeout timer at zero. -/
private theorem TimesOut.eq_of_unlocked {t u : RunState} {calls : List Call}
    (hzero : t.timers.timeout.delta = 0) (h : TimesOut env t calls u) :
    u = t := by
  have hpos := timeoutMax_pos
  cases h with
  | early _ => rfl
  | waits hdelta _ _ | primes hdelta _ _ | falls hdelta _ _ => omega

/-- The lockout block has run on `t`, which is `s` with the timers updated. -/
theorem IdleStep.of_blocks {t u v : RunState} {calls' : List Call}
    (hpaced : Paced s.game) (hgame : t.game = s.game)
    (hlockout : t.isLockout = s.isLockout) (hmoved : t.hasMoved = false)
    (htimeout : t.timers.timeout =
      s.timers.timeout.update (env.clock s.reads))
    (htimer : t.timers.lockout =
      s.timers.lockout.update (env.clock s.reads))
    (hlocks : LocksOut env t calls u) (htimes : TimesOut env u calls' v) :
    IdleStep env s v := by
  have hpaced' : Paced t.game := hgame ▸ hpaced
  cases hlocks with
  | inactive hfree =>
      have hfree' : s.isLockout = false := hlockout.symm.trans hfree
      cases htimes with
      | early hdelta =>
          refine .waits hgame hlockout ?_ ?_
          · rw [watched_free hfree, watched_free hfree', htimeout]
            rfl
          · rw [watched_free hfree']
            rw [htimeout] at hdelta
            exact Int.lt_trans hdelta (by decide)
      | waits _ hactive _ =>
          rw [hfree] at hactive
          contradiction
      | primes _ _ hfall =>
          rw [hgame] at hfall
          exact .turns hgame (by rw [hfree']; rfl) (by rw [hfree']; exact hfall)
      | falls _ _ hmove =>
          refine .advances ?_
          rw [← hgame]
          exact (hpaced'.move (n := 1) hmove (by decide) rfl).progress
  | waits hactive hfall hdelta =>
      have hactive' : s.isLockout = true := hlockout.symm.trans hactive
      rw [graced_of_not_moved hmoved] at hdelta htimes
      rw [htimer] at hdelta
      have hwaits : ∀ v, v.game = t.game → v.isLockout = true →
          v.timers.lockout.post = t.timers.lockout.post →
          IdleStep env s v := by
        intro v hsame hflag hpost
        refine .waits (hsame.trans hgame) (hflag.trans hactive'.symm) ?_ ?_
        · rw [watched_lockout hflag, watched_lockout hactive', hpost, htimer]
          rfl
        · rw [watched_lockout hactive']
          exact hdelta
      cases htimes with
      | early _ => exact hwaits t rfl hactive rfl
      | waits _ _ _ => exact hwaits (rearmed env t) rfl hactive rfl
      | primes _ hfree _ | falls _ hfree _ =>
          rw [hactive] at hfree
          contradiction
  | leaves hactive hfall =>
      have hactive' : s.isLockout = true := hlockout.symm.trans hactive
      rw [graced_of_not_moved hmoved] at htimes
      obtain rfl := TimesOut.eq_of_unlocked rfl htimes
      rw [hgame] at hfall
      exact .turns hgame (by rw [hactive']; rfl) (by rw [hactive']; exact hfall)
  | locks hactive hfall _ hdelta hact =>
      obtain rfl := TimesOut.eq_of_unlocked rfl htimes
      refine .advances ?_
      rw [← hgame]
      exact (hpaced'.timeoutAction hact).progress

/-- Four steps of the machine make an iteration. -/
theorem IdleStep.of_steps {s₁ s₂ s₃ s₄ : RunState}
    {calls₁ calls₂ calls₃ calls₄ : List Call} (hpaced : Paced s.game)
    (hphase : s.phase = .head) (hloop : s.loop = true)
    (h₁ : Steps env [] s calls₁ s₁) (h₂ : Steps env [] s₁ calls₂ s₂)
    (h₃ : Steps env [] s₂ calls₃ s₃) (h₄ : Steps env [] s₃ calls₄ s₄) :
    IdleStep env s s₄ ∧ s₄.phase = .head ∧ s.reads < s₄.reads := by
  have hlater := Nat.le_trans (Nat.le_trans h₂.reads_le h₃.reads_le)
    h₄.reads_le
  obtain rfl := h₁.at_head hphase hloop
  obtain rfl := h₂.at_input rfl
  obtain ⟨u, hlocks, rfl⟩ := h₃.at_lockout rfl
  obtain ⟨v, htimes, rfl⟩ := h₄.at_timeout rfl
  refine ⟨.of_blocks hpaced ?_ ?_ ?_ ?_ ?_ (hlocks.withPhase .head)
    (htimes.withPhase .head), rfl, hlater⟩ <;> rfl

/-! ## For ever -/

variable (execution : GameExecution env engine)

theorem execution_steps (k : Nat) :
    Steps env (execution.input k) (execution.state k) (execution.event k)
      (execution.state (k + 1)) :=
  .of_eq (execution.next k)

theorem execution_paced (k : Nat) : Paced (execution.state k).game := by
  induction k with
  | zero => exact Paced.start (startRun_eq execution.start).1
  | succ k ih => exact ((execution_steps execution k).advances ih).paced

theorem execution_leftAlone {m : Nat}
    (hidle : ∀ k, m ≤ k → execution.input k = [])
    (hstart : LeftAlone (execution.state m)) :
    ∀ k, m ≤ k → LeftAlone (execution.state k) := by
  intro k hle
  induction k, hle using Nat.le_induction with
  | base => exact hstart
  | succ k hle ih =>
      have hstep := execution_steps execution k
      rw [hidle k hle] at hstep
      exact hstep.leftAlone ih

/-- The states at the head of the loop, from the `m`-th state on. -/
def heads (m : Nat) (i : Nat) : RunState := execution.state (m + 4 * i)

theorem heads_step {m : Nat} (hidle : ∀ k, m ≤ k → execution.input k = [])
    (hphase : (execution.state m).phase = .head)
    (hloop : (execution.state m).loop = true) (i : Nat) :
    IdleStep env (heads execution m i) (heads execution m (i + 1)) ∧
      i ≤ (heads execution m i).reads := by
  have hstart : LeftAlone (execution.state m) := ⟨hloop, by rw [hphase]; trivial⟩
  have hsteps : ∀ k, m ≤ k → Steps env [] (execution.state k)
      (execution.event k) (execution.state (k + 1)) := by
    intro k hle
    have hstep := execution_steps execution k
    rwa [hidle k hle] at hstep
  have hiteration : ∀ j, (heads execution m j).phase = .head →
      IdleStep env (heads execution m j) (heads execution m (j + 1)) ∧
        (heads execution m (j + 1)).phase = .head ∧
        (heads execution m j).reads < (heads execution m (j + 1)).reads := by
    intro j hhead
    exact IdleStep.of_steps (execution_paced execution _) hhead
      (execution_leftAlone execution hidle hstart _ (by omega)).loop
      (hsteps _ (by omega)) (hsteps _ (by omega)) (hsteps _ (by omega))
      (hsteps _ (by omega))
  have hheads : ∀ j, (heads execution m j).phase = .head ∧
      j ≤ (heads execution m j).reads := by
    intro j
    induction j with
    | zero => exact ⟨hphase, Nat.zero_le _⟩
    | succ j ih =>
        obtain ⟨-, hnext, hreads⟩ := hiteration j ih.1
        exact ⟨hnext, by omega⟩
  exact ⟨(hiteration i (hheads i).1).1, (hheads i).2⟩

/-- One before the lockout flag turns, zero after it. -/
def RunState.stage (s : RunState) : Nat :=
  if canShapeFall s.game = some s.isLockout then 1 else 0

/-- The watched timer goes on and has not expired. -/
def Watching (env : Env) (s s' : RunState) : Prop :=
  s'.watched.post = s.watched.post ∧
    toMilliseconds (env.clock s.reads - s.watched.post) < lockoutMax

theorem IdleStep.cases (h : IdleStep env s s') :
    (s'.game.progress = s.game.progress ∧ s'.stage = s.stage ∧
        Watching env s s') ∨
      s'.game.progress = s.game.progress ∧ s'.stage < s.stage ∨
      s.game.progress < s'.game.progress := by
  cases h with
  | waits hgame hflag hpost hdelta =>
      exact .inl ⟨by rw [hgame], by simp only [RunState.stage, hgame, hflag],
        hpost, hdelta⟩
  | turns hgame hflag hfall =>
      refine .inr (.inl ⟨by rw [hgame], ?_⟩)
      simp [RunState.stage, hgame, hflag, hfall]
  | advances hprogress => exact .inr (.inr hprogress)

/-- No clock that goes on stays within half a second of one reading. -/
theorem waits_end {s : Nat → RunState}
    (hclock : ∀ time, ∃ reading, time ≤ env.clock reading)
    (hreads : ∀ i, i ≤ (s i).reads) (i : Nat) :
    ¬ ∀ j, i ≤ j → Watching env (s j) (s (j + 1)) := by
  intro hwaits
  have hpost : ∀ j, i ≤ j → (s j).watched.post = (s i).watched.post := by
    intro j hle
    induction j, hle using Nat.le_induction with
    | base => rfl
    | succ j hle ih => exact (hwaits j hle).1.trans ih
  obtain ⟨reading, hlate⟩ := hclock ((s i).watched.post + 500000000)
  have hdelta := (hwaits (max i reading) (Nat.le_max_left _ _)).2
  rw [hpost _ (Nat.le_max_left _ _)] at hdelta
  have hmono : env.clock reading ≤ env.clock (s (max i reading)).reads :=
    env.clock_mono (Nat.le_trans (Nat.le_max_right _ _) (hreads _))
  have hlong : 500000000 ≤
      env.clock (s (max i reading)).reads - (s i).watched.post := by omega
  rw [toMilliseconds, Int.tdiv_eq_ediv_of_nonneg (by omega)] at hdelta
  simp only [lockoutMax] at hdelta
  omega

theorem leadsTo_progress {s : Nat → RunState}
    (hclock : ∀ time, ∃ reading, time ≤ env.clock reading)
    (hreads : ∀ i, i ≤ (s i).reads)
    (hstep : ∀ i, IdleStep env (s i) (s (i + 1))) (n : Nat) :
    LeadsTo s (fun t => t.game.progress = n) fun t => n < t.game.progress := by
  refine leadsTo_of_rank RunState.stage fun stage => ?_
  refine leadsTo_of_waits (W := Watching env) ?_ (waits_end hclock hreads)
  rintro i ⟨rfl, rfl⟩
  rcases (hstep i).cases with ⟨hsame, hstage, hwait⟩ | ⟨hsame, hstage⟩ | hmore
  · exact .inr ⟨⟨hsame, hstage⟩, hwait⟩
  · exact .inl (.inr ⟨hsame, hstage⟩)
  · exact .inl (.inl hmore)

/-- The executions with given inputs, if these never make the machine leave the
vectors. -/
theorem exists_gameExecution (env : Env) (engine : Engine)
    (input : Nat → List Bind) {I : RunState → Prop}
    (hinit : ∀ s, s.phase = .head → s.loop = true → I s)
    (hsafe : ∀ s, I s → ¬ RotatesUnplaced s)
    (hstep : ∀ k s calls s', Steps env (input k) s calls s' → I s → I s') :
    ∃ execution : GameExecution env engine, execution.input = input ∧
      (execution.state 0).phase = .head ∧ (execution.state 0).loop = true := by
  obtain ⟨s, hstart⟩ := exists_startRun env engine
  obtain ⟨hgame, hloop, -, -, -, hphase⟩ := startRun_eq hstart
  obtain ⟨execution, hinput, hzero⟩ : ∃ execution : GameExecution env engine,
      execution.input = input ∧ execution.state 0 = s := by
    refine exists_execution (I := fun s => RunInv s.game ∧ I s) _ hstart
      ⟨RunInv.start hgame, hinit s hphase hloop⟩ ?_
    rintro k s ⟨hinv, hs⟩
    obtain ⟨calls, s', hnext⟩ := hinv.exists_steps env (input k) (hsafe s hs)
    exact ⟨calls, s', hnext.eq, hnext.runInv hinv, hstep k _ _ _ hnext hs⟩
  exact ⟨execution, hinput, by rw [hzero, hphase], by rw [hzero, hloop]⟩

theorem exists_unattended (env : Env) (engine : Engine) :
    ∃ execution : GameExecution env engine,
      execution.input = (fun _ => []) ∧
        (execution.state 0).phase = .head ∧ (execution.state 0).loop = true := by
  refine exists_gameExecution env engine _ (I := LeftAlone) ?_ ?_ ?_
  · intro s hphase hloop
    exact ⟨hloop, by rw [hphase]; trivial⟩
  · rintro s hidle ⟨⟨queue, hinput⟩, -⟩
    have hnot := hidle.phase
    rw [hinput] at hnot
    exact hnot
  · exact fun _ _ _ _ hstep hidle => hstep.leftAlone hidle

/--
Left alone, a game never ends: the loop is not left, and with a clock that goes
on the pieces drawn grow beyond every bound.
-/
theorem unattended_forever {m : Nat}
    (hphase : (execution.state m).phase = .head)
    (hloop : (execution.state m).loop = true)
    (hidle : ∀ k, m ≤ k → execution.input k = []) :
    (∀ k, m ≤ k → (execution.state k).loop = true ∧
        (execution.state k).phase ≠ .exited) ∧
      ((∀ time, ∃ reading, time ≤ env.clock reading) →
        ∀ pieces, ∃ k, m ≤ k ∧
          pieces ≤ (execution.state k).game.engine.drawn) := by
  constructor
  · intro k hle
    have hstart : LeftAlone (execution.state m) := ⟨hloop, by rw [hphase]; trivial⟩
    have hidle' := execution_leftAlone execution hidle hstart k hle
    refine ⟨hidle'.loop, fun hexited => ?_⟩
    have hnot := hidle'.phase
    rw [hexited] at hnot
    exact hnot
  · intro hclock pieces
    have hheads := heads_step execution hidle hphase hloop
    obtain ⟨i, hi⟩ := unbounded_of_leadsTo
      (fun t : RunState => t.game.progress)
      (leadsTo_progress hclock (fun i => (hheads i).2) fun i => (hheads i).1)
      (20 * pieces + 20)
    refine ⟨m + 4 * i, by omega, ?_⟩
    have hdepth := (execution_paced execution (m + 4 * i)).depth_le
    simp only [heads, Game.progress] at hi
    omega

theorem unattended_forever_steady :
    ∃ execution : GameExecution (steadyEnv 1) Engine.fresh,
      (∀ k, 0 ≤ k → (execution.state k).loop = true ∧
        (execution.state k).phase ≠ .exited) ∧
      ∀ pieces, ∃ k, 0 ≤ k ∧
        pieces ≤ (execution.state k).game.engine.drawn := by
  obtain ⟨execution, hinput, hphase, hloop⟩ :=
    exists_unattended (steadyEnv 1) Engine.fresh
  obtain ⟨hstays, hpieces⟩ := unattended_forever execution hphase hloop
    (m := 0) fun k _ => by rw [hinput]
  refine ⟨execution, hstays, hpieces fun time => ⟨time.toNat, ?_⟩⟩
  simp only [steadyEnv]
  omega

end Grzetris
