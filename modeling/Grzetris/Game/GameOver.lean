import Grzetris.Game.Safety

/-!
# Game over

A timeout action that returns 1 ends the game when it is the last one of its
queue, or when the loop flag was false already.  The invariant after it says,
phase by phase, why nothing else of the iteration reaches the engine.
-/

namespace Grzetris

open Foundation

variable {env : Env} {engine : Engine} {s s' : RunState} {calls : List Call}

def Phase.remaining : Phase → Nat
  | .exited => 0
  | .head => 1
  | .timeout => 2
  | .lockout => 3
  | .input queue => queue.length + 4

/-- After step `k` the engine is not called again, the game stays as it is, the
loop flag stays false, and the loop exits with the iteration. -/
structure Final (run : GameRun env engine) (k : Nat) : Prop where
  silent : ∀ m, k < m → m < run.length → run.event m = []
  frozen : ∀ m, k < m → m ≤ run.length →
    (run.state m).game = (run.state (k + 1)).game
  loop : ∀ m, k < m → m ≤ run.length → (run.state m).loop = false
  exits : ∀ m, k + 1 + (run.state (k + 1)).phase.remaining ≤ m →
    m ≤ run.length → (run.state m).phase = .exited

/-- No failed spawn of the run is lost: the lockout block, which drops the
result, meets one only when the loop flag is false already, and no DOWN or DROP
is left in the queue behind one. -/
structure Heeded (run : GameRun env engine) : Prop where
  lockout : ∀ k < run.length, (run.state k).phase = .lockout →
    (run.state k).loop = true → Call.timeoutAction 1 ∉ run.event k
  queue : ∀ k < run.length, ∀ bind queue,
    (run.state k).phase = .input (bind :: queue) →
    Call.timeoutAction 1 ∈ run.event k →
    Bind.gameDown ∉ queue ∧ Bind.gameDrop ∉ queue

/-! ## After a failed spawn -/

structure TimersIdle (s : RunState) : Prop where
  isLockout : s.isLockout = false
  timeout : s.timers.timeout.delta < timeoutMax

structure QueueIdle (s : RunState) (queue : List Bind) : Prop where
  hasMoved : s.hasMoved = true
  down : Bind.gameDown ∉ queue
  drop : Bind.gameDrop ∉ queue

def Over (s : RunState) : Prop :=
  s.loop = false ∧
    match s.phase with
    | .input queue => TimersIdle s ∧ QueueIdle s queue
    | .lockout | .timeout => TimersIdle s
    | .head | .exited => True

private theorem QueueIdle.handles {bind : Bind} {queue : List Bind}
    (hidle : QueueIdle s (bind :: queue)) (hloop : s.loop = false)
    (h : Handles env s bind calls s') : calls = [] ∧ s' = s := by
  cases h with
  | ignored _ => exact ⟨rfl, rfl⟩
  | quit =>
      rw [← hloop]
      exact ⟨rfl, rfl⟩
  | skipped _ _ => exact ⟨rfl, rfl⟩
  | left hmoved _ | right hmoved _ | rotate hmoved _ =>
      rw [hidle.hasMoved] at hmoved
      contradiction
  | drop _ _ => exact absurd List.mem_cons_self hidle.drop
  | down _ => exact absurd List.mem_cons_self hidle.down

private theorem TimersIdle.locksOut (hidle : TimersIdle s)
    (h : LocksOut env s calls s') : calls = [] ∧ s' = s := by
  cases h with
  | inactive _ => exact ⟨rfl, rfl⟩
  | waits hlockout _ _ | leaves hlockout _ | locks hlockout _ _ _ _ =>
      rw [hidle.isLockout] at hlockout
      contradiction

private theorem TimersIdle.timesOut (hidle : TimersIdle s)
    (h : TimesOut env s calls s') : calls = [] ∧ s' = s := by
  have hdelta := hidle.timeout
  cases h with
  | early _ => exact ⟨rfl, rfl⟩
  | waits htimeout _ _ | primes htimeout _ _ | falls htimeout _ _ => omega

theorem Over.step {fetched : List Bind} (hover : Over s)
    (h : Steps env fetched s calls s') :
    calls = [] ∧ Over s' ∧ s'.game = s.game ∧
      s'.phase.remaining = s.phase.remaining - 1 := by
  rcases hover with ⟨hloop, hidle⟩
  cases h with
  | begins _ hloop' =>
      rw [hloop] at hloop'
      contradiction
  | exits hphase _ =>
      rw [hphase]
      exact ⟨rfl, ⟨hloop, trivial⟩, rfl, rfl⟩
  | inputsDone hphase =>
      rw [hphase] at hidle ⊢
      exact ⟨rfl, ⟨hloop, ⟨hidle.1.isLockout, hidle.1.timeout⟩⟩, rfl, rfl⟩
  | handles hphase hhandle =>
      rw [hphase] at hidle ⊢
      rcases hidle with ⟨htimers, hqueue⟩
      rcases hqueue.handles hloop hhandle with ⟨rfl, rfl⟩
      refine ⟨rfl, ⟨hloop, ⟨htimers.isLockout, htimers.timeout⟩,
        hqueue.hasMoved, ?_, ?_⟩, rfl, ?_⟩
      · exact fun hmem => hqueue.down (List.mem_cons_of_mem _ hmem)
      · exact fun hmem => hqueue.drop (List.mem_cons_of_mem _ hmem)
      · simp [Phase.remaining]
  | locksOut hphase hblock =>
      rw [hphase] at hidle ⊢
      rcases TimersIdle.locksOut hidle hblock with ⟨rfl, rfl⟩
      exact ⟨rfl, ⟨hloop, ⟨hidle.isLockout, hidle.timeout⟩⟩, rfl, rfl⟩
  | timesOut hphase hblock =>
      rw [hphase] at hidle ⊢
      rcases TimersIdle.timesOut hidle hblock with ⟨rfl, rfl⟩
      exact ⟨rfl, ⟨hloop, trivial⟩, rfl, rfl⟩
  | stays hphase =>
      rw [hphase]
      refine ⟨rfl, ⟨hloop, ?_⟩, rfl, rfl⟩
      rw [hphase]
      trivial

private theorem over_landed {game : Game} {queue : List Bind}
    (hdown : Bind.gameDown ∉ queue) (hdrop : Bind.gameDrop ∉ queue) :
    Over { landed env s 1 game with phase := .input queue } :=
  ⟨rfl, ⟨rfl, timeoutMax_pos⟩, rfl, hdown, hdrop⟩

theorem Heeded.over {run : GameRun env engine} (hheeded : Heeded run) {k : Nat}
    (hk : k < run.length) (hfails : Call.timeoutAction 1 ∈ run.event k) :
    Over (run.state (k + 1)) := by
  have hqueue := hheeded.queue k hk
  have hlockout := hheeded.lockout k hk
  have hsteps := run.steps hk
  generalize run.event k = calls at *
  generalize run.state k = s at *
  generalize run.state (k + 1) = s' at *
  cases hsteps with
  | begins _ _ | exits _ _ | inputsDone _ | stays _ => contradiction
  | handles hphase hhandle =>
      rcases hqueue _ _ hphase hfails with ⟨hdown, hdrop⟩
      cases hhandle with
      | ignored _ | quit | skipped _ _ => contradiction
      | left _ _ | right _ _ | rotate _ _ => simp at hfails
      | drop _ hact =>
          simp only [List.mem_cons, reduceCtorEq, Call.timeoutAction.injEq,
            List.not_mem_nil, or_false, false_or] at hfails
          subst hfails
          exact over_landed hdown hdrop
      | down hact =>
          simp only [List.mem_singleton, Call.timeoutAction.injEq] at hfails
          subst hfails
          exact over_landed hdown hdrop
  | locksOut hphase hblock =>
      cases hblock with
      | inactive _ | waits _ _ _ | leaves _ _ => contradiction
      | locks _ _ _ _ _ =>
          cases hloop : s.loop with
          | true => exact absurd hfails (hlockout hphase hloop)
          | false => exact ⟨hloop, rfl, timeoutMax_pos⟩
  | timesOut _ hblock =>
      cases hblock with
      | early _ | waits _ _ _ | primes _ _ _ => contradiction
      | falls _ _ _ => simp at hfails

/-! ## Runs -/

theorem run_over (run : GameRun env engine) {first : Nat}
    (hover : Over (run.state first)) :
    ∀ m, first ≤ m → m ≤ run.length → Over (run.state m) ∧
      (run.state m).game = (run.state first).game ∧
      (run.state m).phase.remaining =
        (run.state first).phase.remaining - (m - first) := by
  intro m hle
  induction m, hle using Nat.le_induction with
  | base => exact fun _ => ⟨hover, rfl, by omega⟩
  | succ m hle ih =>
      intro hm
      rcases ih (by omega) with ⟨hover', hgame, hremaining⟩
      rcases hover'.step (run.steps (by omega)) with
        ⟨-, hnext, hgame', hremaining'⟩
      exact ⟨hnext, hgame'.trans hgame, by omega⟩

theorem Heeded.final {run : GameRun env engine} (hheeded : Heeded run) {k : Nat}
    (hk : k < run.length) (hfails : Call.timeoutAction 1 ∈ run.event k) :
    Final run k := by
  have hover := run_over run (hheeded.over hk hfails)
  constructor
  · intro m hlt hm
    exact ((hover m hlt (by omega)).1.step (run.steps hm)).1
  · exact fun m hlt hm => (hover m hlt hm).2.1
  · exact fun m hlt hm => (hover m hlt hm).1.1
  · intro m hle hm
    have hremaining := (hover m (by omega) hm).2.2
    have hzero : (run.state m).phase.remaining = 0 := by omega
    cases hphase : (run.state m).phase with
    | exited => rfl
    | head | input _ | lockout | timeout =>
        rw [hphase] at hzero
        simp [Phase.remaining] at hzero

/-- The run does not break off with inputs that wait in the queue. -/
def Finishes (run : GameRun env engine) : Prop :=
  ∀ bind queue, (run.state run.length).phase ≠ .input (bind :: queue)

theorem Handles.ne_of_silent {bind : Bind} (h : Handles env s bind [] s') :
    bind ≠ .gameDown ∧ bind ≠ .gameDrop := by
  cases h with
  | ignored hbind => exact ⟨hbind.2.2.2.2.2, hbind.2.2.2.2.1⟩
  | quit => exact ⟨Bind.noConfusion, Bind.noConfusion⟩
  | skipped hbind _ => rcases hbind with rfl | rfl | rfl <;> simp

/-- A queue that is handled without a call holds no DOWN and no DROP. -/
theorem Finishes.not_mem_of_silent {run : GameRun env engine}
    (hfinishes : Finishes run) {queue : List Bind} {m : Nat}
    (hm : m ≤ run.length) (hphase : (run.state m).phase = .input queue)
    (hsilent : ∀ j, m ≤ j → j < run.length → run.event j = []) :
    Bind.gameDown ∉ queue ∧ Bind.gameDrop ∉ queue := by
  induction queue generalizing m with
  | nil => simp
  | cons bind queue ih =>
      have hlt : m < run.length := by
        refine Nat.lt_of_le_of_ne hm ?_
        rintro rfl
        exact hfinishes bind queue hphase
      obtain ⟨t, hhandles, hnext⟩ := (run.steps hlt).at_handles hphase
      rw [hsilent m (le_refl m) hlt] at hhandles
      have hrest := ih hlt (by rw [hnext]) fun j hle => hsilent j (by omega)
      obtain ⟨hdown, hdrop⟩ := hhandles.ne_of_silent
      simp only [List.mem_cons, not_or]
      exact ⟨⟨hdown.symm, hrest.1⟩, hdrop.symm, hrest.2⟩

theorem heeded_of_final {run : GameRun env engine} (hfinishes : Finishes run)
    (hfinal : ∀ k < run.length, Call.timeoutAction 1 ∈ run.event k →
      Final run k) : Heeded run where
  lockout := by
    intro k hk hphase hloop hfails
    have hflag := (hfinal k hk hfails).loop (k + 1) (by omega) hk
    obtain ⟨t, hlocks, hnext⟩ := (run.steps hk).at_lockout hphase
    have hkept : t.loop = (run.state k).loop := hlocks.loop
    rw [hnext] at hflag
    simp only [hkept, hloop, Bool.true_eq_false] at hflag
  queue := by
    intro k hk bind queue hphase hfails
    obtain ⟨t, -, hnext⟩ := (run.steps hk).at_handles hphase
    exact hfinishes.not_mem_of_silent hk (by rw [hnext]) fun j hle hlt =>
      (hfinal k hk hfails).silent j hle hlt

/-- In a run that heeds its failed spawns, each of them is final; and if each of
them is final, a run that does not break off in a queue has heeded them. -/
theorem gameOver_final (run : GameRun env engine) :
    (Heeded run → ∀ k < run.length, Call.timeoutAction 1 ∈ run.event k →
      Final run k) ∧
    (Finishes run → (∀ k < run.length, Call.timeoutAction 1 ∈ run.event k →
      Final run k) → Heeded run) :=
  ⟨fun hheeded _ hk hfails => hheeded.final hk hfails, heeded_of_final⟩

private def dropCalls : List (List Call) :=
  ([] :: List.replicate 9 [.drop, .timeoutAction 0]) ++
    ([.drop, .timeoutAction 1] :: List.replicate 4 [])

/-- Ten pieces dropped on one another, the tenth of which leaves no room. -/
theorem gameOver_final_drops :
    ∃ run : GameRun (steadyEnv 0) Engine.fresh,
      Heeded run ∧ 10 < run.length ∧ Call.timeoutAction 1 ∈ run.event 10 ∧
        Final run 10 := by
  have hevents : ((script (steadyEnv 0)
      (List.replicate 10 .gameDrop :: List.replicate 14 [])).bind fun visited =>
        visited[9]?.map fun v => (visited.map Prod.fst, v.2.phase)) =
      some (dropCalls, .input [.gameDrop]) := by
    decide +kernel
  simp only [Option.bind_eq_some_iff, Option.map_eq_some_iff, Prod.exists,
    Prod.mk.injEq] at hevents
  rcases hevents with ⟨visited, hscript, calls, s, hget, hcalls, hphase⟩
  rcases exists_run_of_script hscript with ⟨run, hlength, hvisited⟩
  have hfifteen : run.length = 15 := by
    have hcount := congrArg List.length hcalls
    rw [List.length_map] at hcount
    exact hlength.trans hcount
  have hevent : ∀ k < run.length, run.event k = dropCalls[k]?.getD [] := by
    intro k hk
    have hvisit : visited[k]? = some visited[k] :=
      List.getElem?_eq_getElem (by omega)
    rw [(hvisited k _ _ hvisit).1, ← hcalls, List.getElem?_map, hvisit]
    rfl
  have honly : ∀ k < 15,
      Call.timeoutAction 1 ∈ dropCalls[k]?.getD [] → k = 10 := by
    decide
  have hlast : ∀ k < run.length, Call.timeoutAction 1 ∈ run.event k →
      (run.state k).phase = .input [.gameDrop] := by
    intro k hk hmem
    rw [hevent k hk] at hmem
    rw [honly k (by omega) hmem, (hvisited 9 _ _ hget).2, hphase]
  have hheeded : Heeded run := by
    constructor
    · intro k hk hlockout _ hmem
      rw [hlast k hk hmem] at hlockout
      cases hlockout
    · intro k hk bind queue hinput hmem
      rw [hlast k hk hmem] at hinput
      cases hinput
      simp
  have hfails : Call.timeoutAction 1 ∈ run.event 10 := by
    rw [hevent 10 (by omega)]
    decide
  exact ⟨run, hheeded, by omega, hfails,
    (gameOver_final run).1 hheeded 10 (by omega) hfails⟩

/-- The queue of the last game goes on with another DROP, which draws a piece. -/
theorem gameOver_not_final :
    ¬ ∀ (env : Env) (engine : Engine) (run : GameRun env engine) (k : Nat),
      k < run.length → Call.timeoutAction 1 ∈ run.event k → Final run k := by
  intro hfinal
  have hdraws : ((script (steadyEnv 0) (List.replicate 11 .gameDrop ::
      List.replicate 11 [])).bind fun visited =>
        visited[10]?.bind fun v => visited[11]?.map fun v' =>
          (v.1, v'.2.game.engine.drawn - v.2.game.engine.drawn)) =
      some ([.drop, .timeoutAction 1], 1) := by
    decide +kernel
  simp only [Option.bind_eq_some_iff, Option.map_eq_some_iff, Prod.exists,
    Prod.mk.injEq] at hdraws
  rcases hdraws with ⟨visited, hscript, calls, s, hget, calls', s', hget',
    rfl, hdrawn⟩
  rcases exists_run_of_script hscript with ⟨run, hlength, hvisited⟩
  have hlt := (List.getElem?_eq_some_iff.mp hget').1
  rcases hvisited 10 _ _ hget with ⟨hevent, hstate⟩
  have hfrozen := (hfinal _ _ run 10 (by omega) (by simp [hevent])).frozen 12
    (by omega) (by omega)
  rw [(hvisited 11 _ _ hget').2, hstate] at hfrozen
  rw [hfrozen, Nat.sub_self] at hdrawn
  exact absurd hdrawn Nat.zero_ne_one

end Grzetris
