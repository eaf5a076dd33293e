import Grzetris.Program.Games

/-!
# Where the program gets stuck

A game registers its playfield, which is gone when the game has returned, and
`deinit` visits every playfield that was ever registered.  So the second game
that returns does what no program may do; the other such step is the rotation of
a piece that is off the grid.
-/

namespace Grzetris

open Foundation Playfield

variable {env : Env} {typed : List Int} {s s' : Program} {e : Event}
  {data : Addr} {table : Input} {n : Nat} {engine : Engine} {g : RunState}

/-! ## The registered playfields -/

theorem startRun_playfields (hstart : startRun env engine = some g) :
    g.game.engine.playfields = engine.playfields ++ [engine.created] ∧
      g.game.engine.created = engine.created + 1 :=
  GameRun.playfields (Run.rest hstart [] []) (Nat.le_refl _)

theorem Steps.playfields {g' : RunState} {fetched : List Bind}
    {calls : List Call} (h : Steps env fetched g calls g')
    (hinv : RunInv g.game) :
    g'.game.engine.playfields = g.game.engine.playfields ∧
      g'.game.engine.created = g.game.engine.created := by
  rcases h.engine_cases with hsame | ⟨piece, hdraw⟩
  · rw [hsame]
    exact ⟨rfl, rfl⟩
  · obtain ⟨_, _, _, hdraw', -, -, -, hsame⟩ :=
      drawTetro_spec env.rolls hinv.loaded
    rw [hdraw'] at hdraw
    cases hdraw
    exact ⟨hsame.playfields_eq, hsame.created_eq⟩

/-- `n` games have returned. -/
structure WorldInv (n : Nat) (s : Program) : Prop where
  playfields : s.rest.engine.playfields = List.range n
  created : s.rest.engine.created = n
  game : ∀ g, s.shown = some g → RunInv g.game ∧
    g.game.engine.playfields = List.range (n + 1) ∧
    g.game.engine.created = n + 1

theorem WorldInv.start (hstart : startProgram table data = some s) :
    WorldInv 0 s := by
  obtain rfl := startProgram_eq hstart
  exact ⟨rfl, rfl, fun _ hg => absurd hg (by simp [Program.shown])⟩

theorem Answers.keepsEngine {t menu : MenuState Callback World} {bind : Bind}
    {ret : Int} {i : Nat}
    (hanswers : Answers (launch env) data i t bind ret menu) :
    menu.rest.engine = t.rest.engine := by
  cases hanswers <;> rfl

theorem Proceeds.keepsEngine (h : Proceeds env data typed s e s')
    (he : e ≠ .returned) : s'.rest.engine = s.rest.engine := by
  cases h with
  | returns _ _ _ _ => exact absurd rfl he
  | menuHandles _ _ _ _ hanswers => exact hanswers.keepsEngine
  | _ => rfl

theorem WorldInv.game_step (hworld : WorldInv n s)
    (hs : ProgramInv table data s) (h : Proceeds env data typed s e s')
    (he : e ≠ .returned) (hg : s'.shown = some g) :
    RunInv g.game ∧ g.game.engine.playfields = List.range (n + 1) ∧
      g.game.engine.created = n + 1 := by
  cases hbefore : s.shown with
  | none =>
      have hstart := (h.launches hs hbefore hg).2
      have hfields := startRun_playfields hstart
      rw [h.keepsEngine he, hworld.playfields, hworld.created,
        ← List.range_succ] at hfields
      exact ⟨.start (startRun_eq hstart).1, hfields⟩
  | some g₀ =>
      obtain ⟨hinv, hplayfields, hcreated⟩ := hworld.game g₀ hbefore
      obtain ⟨-, fetched, hsteps⟩ := h.shown hs hbefore hg
      have hsame := hsteps.playfields hinv
      rw [hplayfields, hcreated] at hsame
      exact ⟨hsteps.runInv hinv, hsame⟩

theorem WorldInv.step (hworld : WorldInv n s) (hs : ProgramInv table data s)
    (h : Proceeds env data typed s e s') :
    WorldInv (n + if e = .returned then 1 else 0) s' := by
  by_cases he : e = .returned
  · rw [if_pos he]
    subst he
    cases h with
    | returns hcontrol hgame _ hreturn =>
        obtain ⟨_, _, rfl⟩ := gameReturn_eq hreturn
        obtain ⟨-, hplayfields, hcreated⟩ := hworld.game _ (shown_eq hgame)
        exact ⟨hplayfields, hcreated,
          fun _ hg => absurd hg (by simp [Program.shown])⟩
  · rw [if_neg he]
    refine ⟨?_, ?_, fun g hg => hworld.game_step hs h he hg⟩
    · rw [h.keepsEngine he, hworld.playfields, Nat.add_zero]
    · rw [h.keepsEngine he, hworld.created, Nat.add_zero]

/-- How many games have returned before step `k`. -/
def ProgramRun.returns (run : ProgramRun env table data) (k : Nat) : Nat :=
  (List.range k).countP fun j => run.event j = .returned

theorem ProgramRun.worldInv (run : ProgramRun env table data) :
    ∀ k ≤ run.length, WorldInv (run.returns k) (run.state k) := by
  refine run.invariant_index (.start run.start) ?_
  intro k hk hworld
  have hstep := hworld.step (run.inv k (Nat.le_of_lt hk)) (run.proceeds hk)
  have hreturns : run.returns (k + 1) =
      run.returns k + if run.event k = .returned then 1 else 0 := by
    simp [ProgramRun.returns, List.range_succ, List.countP_append]
  rwa [hreturns]

theorem ProgramRun.returns_pos {run : ProgramRun env table data} {k : Nat} :
    0 < run.returns k ↔ ∃ j < k, run.event j = .returned := by
  simp [ProgramRun.returns, List.countP_pos_iff]

theorem WorldInv.playing (hworld : WorldInv n s)
    (hgame : s.rest.game = some g) : RunInv g.game ∧
      g.game.engine.playfields = List.range (n + 1) := by
  have hshown := hworld.game _ (shown_eq hgame)
  exact ⟨hshown.1, hshown.2.1⟩

/-! ## The return of a game -/

/-- The first game finds only its own playfield. -/
theorem exists_gameReturn (hworld : WorldInv 0 s)
    (hgame : s.rest.game = some g) : ∃ s', gameReturn s g = some s' := by
  obtain ⟨hinv, hplayfields⟩ := hworld.playing hgame
  obtain ⟨p', hdeinit⟩ := deinitBlocks_spec hinv.board.rect
  simp [gameReturn, deinit, deinitPlayfields, hplayfields, hworld.created,
    hdeinit]

/-- A later one starts with the playfield of the first. -/
theorem gameReturn_eq_none (hworld : WorldInv n s) (hn : 0 < n)
    (hgame : s.rest.game = some g) : gameReturn s g = none := by
  have hplayfields := (hworld.playing hgame).2
  have hother : 0 ≠ n := Nat.ne_of_lt hn
  simp [gameReturn, deinit, deinitPlayfields, hplayfields, hworld.created,
    List.range_succ_eq_map, Function.update_of_ne hother]

/-! ## The other steps -/

/-- The game returns, and it is not the first one. -/
def ReturnsAgain (n : Nat) (g : RunState) : Prop :=
  g.phase = .head ∧ g.loop = false ∧ 0 < n

theorem gameStep_ne_none (hs : ProgramInv table data s)
    (hworld : WorldInv n s) (hgame : s.rest.game = some g)
    (hsafe : ∀ g, s.shown = some g → ¬ RotatesUnplaced g ∧ ¬ ReturnsAgain n g)
    (env : Env) (typed : List Int) :
    gameStep env typed s g ≠ none := by
  obtain ⟨hrotates, hreturns⟩ := hsafe _ (shown_eq hgame)
  have hinv := (hworld.playing hgame).1
  have hplaying := hs.playing
  rw [hgame] at hplaying
  unfold gameStep
  split
  · rename_i hcontrol
    split
    · exact Option.some_ne_none _
    · rename_i hloop
      have hfirst : n = 0 := by
        by_contra hn
        exact hreturns ⟨phase_eq hcontrol, by simpa using hloop,
          Nat.pos_of_ne_zero hn⟩
      subst hfirst
      obtain ⟨s', hreturn⟩ := exists_gameReturn hworld hgame
      simp [hreturn]
  · rename_i hcontrol
    split
    · exact Option.some_ne_none _
    · rename_i code rest hbuffer
      obtain ⟨calls, g', hhandles⟩ := hinv.exists_handles (s := g) env
        (bindIn .game s.input.toInput code) (by
          intro hrotate hmoved hunplaced
          refine hrotates ⟨⟨rest.map (bindIn .game s.input.toInput), ?_⟩,
            hmoved, hunplaced⟩
          simp [Program.phase, hcontrol, hbuffer, hrotate])
      simp [gameHandle, nextGameBind_cons hbuffer, hhandles.eq]
  · obtain ⟨calls, g', hlocks⟩ := hinv.exists_locksOut (s := g) env
    simp [hlocks.eq]
  · obtain ⟨calls, g', htimes⟩ := hinv.exists_timesOut (s := g) env
    simp [htimes.eq]
  · rename_i hmenu hinput hlockout htimeout
    cases hcontrol : s.control <;> simp_all [Control.inGame]

theorem programStep_ne_none (hs : ProgramInv table data s)
    (hworld : WorldInv n s)
    (hsafe : ∀ g, s.shown = some g → ¬ RotatesUnplaced g ∧ ¬ ReturnsAgain n g)
    (env : Env) (typed : List Int) :
    programStep env typed s ≠ none := by
  unfold programStep
  split
  · split <;> exact Option.some_ne_none _
  · split
    · exact Option.some_ne_none _
    · obtain ⟨i, hi, hm⟩ := hs.selected
      obtain ⟨ret, menu, hdriver, -⟩ := inputDriver_answers (launch env) hi hm
      simp [menuHandle, hdriver]
  · exact Option.some_ne_none _
  · rename_i hmenu hinput hended
    have hin : s.control.inGame = true := by
      cases hcontrol : s.control <;> simp_all [Control.inGame]
    rw [← hs.playing, Option.isSome_iff_exists] at hin
    obtain ⟨g, hgame⟩ := hin
    rw [hgame]
    exact gameStep_ne_none hs hworld hgame hsafe _ typed

/-! ## The steps that fail -/

/-- The step that ends a game. -/
theorem Proceeds.ends (h : Proceeds env data typed s e s')
    (hs : ProgramInv table data s) (hg : s.shown = some g)
    (hafter : s'.shown = none) : g.phase = .head ∧ g.loop = false ∧
      ∃ g₀, s.rest.game = some g₀ ∧ gameReturn s g₀ = some s' := by
  have hin : s.control.inGame = true := by
    rw [← hs.playing]
    cases hgame : s.rest.game with
    | none => simp [Program.shown, hgame] at hg
    | some _ => rfl
  cases h with
  | menuFetches hcontrol _ | leaves hcontrol _ | menuDone hcontrol _
  | menuHandles hcontrol _ _ _ _ | stays hcontrol =>
      rw [hcontrol] at hin
      contradiction
  | returns hcontrol hgame hloop hreturn =>
      rw [shown_eq hgame, phase_eq hcontrol] at hg
      cases hg
      exact ⟨rfl, hloop, _, hgame, hreturn⟩
  | gameFetches _ _ _ | gameHandles _ _ _ _ | locksOut _ _ _
  | timesOut _ _ _ =>
      simp [Program.shown, gameFetch, Program.setGame] at hafter
  | inputsDone _ hgame _ => simp [Program.shown, hgame] at hafter

theorem Proceeds.not_rotatesUnplaced (h : Proceeds env data typed s e s')
    (hs : ProgramInv table data s) (hworld : WorldInv n s)
    (hg : s.shown = some g) : ¬ RotatesUnplaced g := by
  intro hrotates
  have hinv := (hworld.game g hg).1
  cases hafter : s'.shown with
  | some g' =>
      obtain ⟨-, fetched, hsteps⟩ := h.shown hs hg hafter
      have hstuck := hinv.step_eq_none (env.after s.rest.reads) fetched hrotates
      rw [hsteps.eq] at hstuck
      contradiction
  | none =>
      obtain ⟨⟨queue, hphase⟩, -, -⟩ := hrotates
      rw [(h.ends hs hg hafter).1] at hphase
      contradiction

theorem phase_ne_exited (hg : s.shown = some g) : g.phase ≠ .exited := by
  obtain ⟨g₀, -, rfl⟩ := Option.map_eq_some_iff.mp hg
  simp only [Program.phase]
  split <;> exact Phase.noConfusion

theorem Proceeds.not_returnsAgain (h : Proceeds env data typed s e s')
    (hs : ProgramInv table data s) (hworld : WorldInv n s)
    (hg : s.shown = some g) : ¬ ReturnsAgain n g := by
  rintro ⟨hphase, hloop, hn⟩
  cases hafter : s'.shown with
  | some g' =>
      -- The machine of the loop would go on to its end, which no place of the
      -- program stands for.
      obtain ⟨-, fetched, hsteps⟩ := h.shown hs hg hafter
      have hends := hsteps.eq
      simp only [Grzetris.step, hphase, hloop, Bool.false_eq_true, if_false,
        Option.some.injEq, Prod.mk.injEq] at hends
      exact phase_ne_exited hafter (by rw [← hends.2])
  | none =>
      obtain ⟨-, -, g₀, hgame, hreturn⟩ := h.ends hs hg hafter
      rw [gameReturn_eq_none hworld hn hgame] at hreturn
      contradiction

/--
In every run of the program, a step fails in two situations only: the next code
rotates a piece that is off the grid, or a game returns for the second time.
-/
theorem program_stuck_iff (run : ProgramRun env table data) :
    ∀ k ≤ run.length, ∀ typed,
      programStep env typed (run.state k) = none ↔
        ∃ g, (run.state k).shown = some g ∧ (RotatesUnplaced g ∨
          g.phase = .head ∧ g.loop = false ∧
            ∃ j < k, run.event j = .returned) := by
  intro k hk typed
  have hs := run.inv k hk
  have hworld := run.worldInv k hk
  constructor
  · intro hstuck
    by_contra hnone
    have hsafe : ∀ g, (run.state k).shown = some g →
        ¬ RotatesUnplaced g ∧ ¬ ReturnsAgain (run.returns k) g := by
      intro g hg
      refine ⟨fun hrotates => hnone ⟨g, hg, .inl hrotates⟩, ?_⟩
      rintro ⟨hphase, hloop, hn⟩
      exact hnone ⟨g, hg, .inr ⟨hphase, hloop, run.returns_pos.mp hn⟩⟩
    exact programStep_ne_none hs hworld hsafe env typed hstuck
  · rintro ⟨g, hg, hfails⟩
    by_contra hsome
    obtain ⟨⟨e, s'⟩, hstep⟩ := Option.ne_none_iff_exists'.mp hsome
    have hproceeds := Proceeds.of_eq hs.selected hstep
    rcases hfails with hrotates | ⟨hphase, hloop, hreturned⟩
    · exact hproceeds.not_rotatesUnplaced hs hworld hg hrotates
    · exact hproceeds.not_returnsAgain hs hworld hg
        ⟨hphase, hloop, run.returns_pos.mpr hreturned⟩

/-- RETURN starts a game that Q ends, and both keys are pressed once more. -/
def againScript : List (List Int) :=
  [['\n'.toNat, 'q'.toNat], [], [], [], [], [], [], [], [],
    ['\n'.toNat, 'q'.toNat], [], [], [], [], [], []]

theorem program_stuck_iff_again :
    ∃ run : ProgramRun (steadyEnv 0) (setDefaultBinds Input.empty) 0,
      programStep (steadyEnv 0) [] (run.state 16) = none ∧
        ∀ typed, programStep (steadyEnv 0) typed (run.state 16) = none ↔
          ∃ g, (run.state 16).shown = some g ∧ (RotatesUnplaced g ∨
            g.phase = .head ∧ g.loop = false ∧
              ∃ j < 16, run.event j = .returned) := by
  have hvisited : ((programScript (steadyEnv 0) (setDefaultBinds Input.empty) 0
      againScript).bind fun visited => visited[15]?.map fun v =>
        (visited.length, (programStep (steadyEnv 0) [] v.2).isNone)) =
      some (16, true) := by
    decide +kernel
  simp only [Option.bind_eq_some_iff, Option.map_eq_some_iff, Prod.mk.injEq,
    Prod.exists, Option.isNone_iff_eq_none] at hvisited
  obtain ⟨visited, hscript, e, s, hget, hlength, hstuck⟩ := hvisited
  obtain ⟨run, hrun, hstates⟩ := exists_run_of_programScript hscript
  refine ⟨run, ?_, program_stuck_iff run 16 (by omega)⟩
  rw [(hstates 15 e s hget).2]
  exact hstuck

end Grzetris
