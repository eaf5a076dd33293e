import Grzetris.Game.Held
import Grzetris.Tetris.Runs

/-!
# Games that go on

When every queue of inputs ends with one that lowers the piece, each iteration
either ends the game or brings it forward by a row or a piece.  The playfield
holds two hundred blocks, so a game that goes on has to clear rows.
-/

namespace Grzetris

open Foundation Playfield

variable {env : Env} {engine : Engine} {s s' : RunState} {calls : List Call}
  {bind : Bind} {fetched : List Bind} {n : Nat} {g g' : Game} {rolls : Rolls}
  {p : Playfield} {shape : Polyomino}

/-- A row counts one, and a piece that found room more than all its rows.  A
piece off the grid has no rows. -/
def Game.standing (g : Game) : Int :=
  21 * g.engine.drawn +
    if 0 ≤ g.shape.pos.y then g.shape.pos.y - 20 else 0

/-! ## The calls of the engine -/

theorem Game.standing_congr (hrow : shape.pos.y = g.shape.pos.y) :
    ({ g with p := p, shape := shape } : Game).standing = g.standing := by
  simp only [Game.standing, hrow]

theorem Paced.standing_le (hpaced : Paced g) :
    g.standing ≤ 21 * g.engine.drawn := by
  have hdepth := hpaced.depth_le
  simp only [Game.depth] at hdepth
  simp only [Game.standing]
  split_ifs <;> omega

theorem Paced.standing_fall (hpaced : Paced g)
    (hmove : movePolyno g.p g.shape ⟨0, 1⟩ = some (true, p, shape)) :
    ({ g with p := p, shape := shape } : Game).standing = g.standing + 1 := by
  have hrow : shape.pos.y = 1 + g.shape.pos.y := by
    rw [movePolyno_eq_true hmove]
    rfl
  have hdepth := (hpaced.move (n := 1) hmove (by decide) rfl).depth_le
  simp only [Game.depth, if_true] at hdepth
  simp only [Game.standing]
  rw [if_pos (by omega), if_pos (by omega)]
  omega

theorem Paced.standing_drop (hpaced : Paced g) {p' : Playfield}
    {shape' : Polyomino} (hdrop : dropPolyno g.p g.shape = some (p', shape')) :
    g.standing ≤ ({ g with p := p', shape := shape' } : Game).standing := by
  obtain ⟨n, c, htetro⟩ := hpaced.board.tetromino
  obtain ⟨p₁, shape₁, hdrop₁, ⟨-, hstanding⟩, -⟩ := dropPolyno_rule
    (fun p₁ shape₁ => Paced { g with p := p₁, shape := shape₁ } ∧
      g.standing ≤ ({ g with p := p₁, shape := shape₁ } : Game).standing)
    (fun _ _ hinv => hinv.1.board.toBoard)
    (fun p₁ shape₁ p₂ shape₂ hinv hmove => by
      have hfall := hinv.1.standing_fall hmove
      have hpaced' := (hinv.1.move (n := 1) hmove (by decide) rfl).paced
      exact ⟨hpaced', hinv.2.trans (by rw [hfall]; omega)⟩)
    htetro.ne_nil ⟨hpaced, le_refl _⟩
  rw [hdrop] at hdrop₁
  cases hdrop₁
  exact hstanding

/-- A timeout action counts, even if it finds no room for the next piece. -/
theorem Paced.standing_act (hpaced : Paced g) {result : Int}
    (hact : Grzetris.timeoutAction rolls g = some (result, g')) :
    g.standing + (if result = 1 then 21 else 1) ≤ g'.standing := by
  rcases timeoutAction_cases rolls hpaced.toGameInv with
    ⟨p', shape', hmove, heq⟩ | ⟨-, heq⟩
  · rw [heq] at hact
    cases hact
    rw [hpaced.standing_fall hmove]
    simp
  · have hspawn := heq.symm.trans hact
    obtain ⟨result₁, g₁, hspawn₁, hinv, -, -, hdrawn, hresult⟩ :=
      spawn_spec rolls hpaced.toGameInv
    obtain ⟨rfl, rfl⟩ := Prod.mk.inj
      (Option.some_inj.mp (hspawn₁.symm.trans hspawn))
    have hpaced' := (hpaced.spawn hspawn).paced
    have hold := hpaced.standing_le
    have hnew : g₁.standing = 21 * (g.engine.drawn + 1) +
        if 0 ≤ g₁.shape.pos.y then g₁.shape.pos.y - 20 else 0 := by
      rw [Game.standing, hdrawn]
      push_cast
      rfl
    rcases hresult with ⟨rfl, hunplaced⟩ | ⟨rfl, hplaced⟩
    · rw [hnew, hunplaced]
      simp
      omega
    · have hrow := hpaced'.row.resolve_left fun hunplaced =>
        hunplaced.not_onGrid hplaced.onGrid
      rw [hnew, if_pos hrow]
      simp
      omega

theorem Game.standing_move {displacement : Vect2D} {moved : Bool}
    (hside : displacement.y = 0)
    (hmove : movePolyno g.p g.shape displacement = some (moved, p, shape)) :
    ({ g with p := p, shape := shape } : Game).standing = g.standing := by
  refine Game.standing_congr ?_
  cases moved with
  | false => rw [(movePolyno_eq_false hmove).2]
  | true =>
      rw [movePolyno_eq_true hmove]
      simp [hside]

/-! ## The steps of the loop -/

theorem Paced.standing_counts (hpaced : Paced g) {result : Int}
    (hact : Grzetris.timeoutAction rolls g = some (result, g')) :
    g.standing + 21 * refusals [.timeoutAction result] ≤ g'.standing := by
  have hstanding := hpaced.standing_act hact
  rw [refusals_act]
  split_ifs at hstanding ⊢ <;> omega

theorem refusals_drop (result : Int) :
    refusals [.drop, .timeoutAction result] =
      if result = 1 then 1 else 0 := by
  by_cases hone : result = 1 <;> simp [refusals, hone]

/-- What an input brings: the last part is for those that lower the piece. -/
structure Gains (lands : Prop) (calls : List Call) (s s' : RunState) : Prop where
  standing : s.game.standing + 21 * refusals calls ≤ s'.game.standing
  more : lands → s'.loop = true →
    s.game.standing + 21 * refusals calls < s'.game.standing

theorem Gains.of_act {result : Int} (hrefusals : refusals calls =
      if result = 1 then 1 else 0)
    (hact : s.game.standing + (if result = 1 then 21 else 1) ≤ g.standing) :
    Gains bind.Lands calls s (landed env s result g) := by
  have hgame : (landed env s result g).game = g := rfl
  have hloop : (landed env s result g).loop = (result != 1) := rfl
  by_cases hone : result = 1
  · rw [if_pos hone] at hrefusals hact
    refine ⟨by rw [hgame, hrefusals]; simpa using hact, fun _ hagain => ?_⟩
    rw [hloop, hone] at hagain
    contradiction
  · rw [if_neg hone] at hrefusals hact
    exact ⟨by rw [hgame, hrefusals]; omega, fun _ _ => by
      rw [hgame, hrefusals]; omega⟩

theorem Gains.of_eq (hstanding : s'.game.standing = s.game.standing)
    (hlands : ¬ bind.Lands) (hrefusals : refusals calls = 0) :
    Gains bind.Lands calls s s' :=
  ⟨by rw [hstanding, hrefusals]; simp, fun hlands' => absurd hlands' hlands⟩

theorem Handles.gains (h : Handles env s bind calls s')
    (hpaced : Paced s.game) : Gains bind.Lands calls s s' := by
  cases h with
  | ignored hignored =>
      refine .of_eq rfl ?_ rfl
      rintro (rfl | rfl)
      · exact hignored.2.2.2.2.2 rfl
      · exact hignored.2.2.2.2.1 rfl
  | quit => exact .of_eq rfl (by decide) rfl
  | skipped hbind _ =>
      refine .of_eq rfl ?_ rfl
      rcases hbind with rfl | rfl | rfl <;> decide
  | left _ hmove | right _ hmove =>
      exact .of_eq (Game.standing_move rfl hmove) (by decide) rfl
  | rotate _ hrotate =>
      have hrow := congrArg Vect2D.y (hpaced.toRunInv.rotate_pos hrotate)
      exact .of_eq (Game.standing_congr hrow) (by decide) rfl
  | @drop p shape result game hdrop hact =>
      have hdropped := (hpaced.drop hdrop).paced
      have hstanding := hpaced.standing_drop hdrop
      refine .of_act (refusals_drop result) ?_
      exact le_trans (by omega) (hdropped.standing_act hact)
  | @down result game hact =>
      exact .of_act (refusals_act result) (hpaced.standing_act hact)

/-- The `n` iterations that have begun have brought `gain`, each at least one; the
one under way does so with its last input, after which the timeout timer does not
expire. -/
def Brought (n : Nat) (gain : Int) (s : RunState) : Prop :=
  match s.phase with
  | .head => s.loop = true → n ≤ gain
  | .input queue => 0 < n →
      if queue = [] then
        s.timers.timeout.delta < timeoutMax ∧ (s.loop = true → n ≤ gain)
      else (∃ bind, queue.getLast? = some bind ∧ bind.Lands) ∧ n ≤ gain + 1
  | .lockout | .timeout => 0 < n →
      s.timers.timeout.delta < timeoutMax ∧ (s.loop = true → n ≤ gain)
  | .exited => True

theorem LocksOut.gains (h : LocksOut env s calls s') (hpaced : Paced s.game) :
    s.game.standing + 21 * refusals calls ≤ s'.game.standing ∧
      s'.loop = s.loop ∧
      (s.timers.timeout.delta < timeoutMax →
        s'.timers.timeout.delta < timeoutMax) := by
  cases h with
  | inactive _ => exact ⟨by simp [refusals], rfl, id⟩
  | waits _ _ _ =>
      refine ⟨by simp [refusals], graced_loop, ?_⟩
      rw [graced_timeout]
      exact id
  | leaves _ _ =>
      refine ⟨?_, graced_loop, fun _ => timeoutMax_pos⟩
      have hgame : (unlocked env (graced env s)).game = s.game := graced_game
      rw [hgame]
      simp [refusals]
  | locks _ _ _ _ hact =>
      exact ⟨hpaced.standing_counts hact, rfl, fun _ => timeoutMax_pos⟩

theorem TimesOut.gains (h : TimesOut env s calls s') (hpaced : Paced s.game) :
    s.game.standing + 21 * refusals calls ≤ s'.game.standing ∧
      (s.timers.timeout.delta < timeoutMax → s'.loop = s.loop) := by
  cases h with
  | early _ => exact ⟨by simp [refusals], fun _ => rfl⟩
  | waits hdelta _ _ | primes hdelta _ _ =>
      exact ⟨by simp [refusals, rearmed, primeLockout], fun _ => rfl⟩
  | falls hdelta _ hmove =>
      refine ⟨?_, fun hearly => absurd hdelta (by omega)⟩
      have hfall := hpaced.standing_fall hmove
      simp only [rearmed, hfall]
      simp [refusals]

theorem Steps.gains (h : Steps env fetched s calls s') (hpaced : Paced s.game) :
    s.game.standing + 21 * refusals calls ≤ s'.game.standing := by
  cases h with
  | begins _ _ | exits _ _ | inputsDone _ | stays _ =>
      exact le_of_eq (by simp [refusals, beginIteration, updateTimers])
  | handles _ hhandles => exact (hhandles.gains hpaced).standing
  | locksOut _ hlocks => exact (hlocks.gains hpaced).1
  | timesOut _ htimes => exact (htimes.gains hpaced).1

/-- What a step brings beyond its refused spawns. -/
def gained (s : RunState) (calls : List Call) (s' : RunState) : Int :=
  s'.game.standing - s.game.standing - 21 * refusals calls

theorem Steps.brought (h : Steps env fetched s calls s') (hpaced : Paced s.game)
    (hlands : s.Begins → ∃ bind, fetched.getLast? = some bind ∧ bind.Lands)
    {gain : Int} (hnonneg : 0 ≤ gain) (hbrought : Brought n gain s) :
    Brought (n + if s.Begins then 1 else 0) (gain + gained s calls s') s' := by
  have hgain : 0 ≤ gained s calls s' := by
    have hstanding := h.gains hpaced
    simp only [gained]
    omega
  have hcount : ∀ {phase}, s.phase = phase → phase ≠ .head →
      n + (if s.Begins then 1 else 0) = n := by
    rintro _ rfl hphase
    rw [if_neg fun hbegins => hphase hbegins.1]
    rfl
  generalize hgained : gained s calls s' = more at hgain ⊢
  cases h with
  | begins hphase hloop =>
      have hbegins : s.Begins := ⟨hphase, hloop⟩
      simp only [Brought, hphase] at hbrought
      -- The iteration is counted here and pays when the last input is handled.
      rw [if_pos hbegins]
      intro _
      obtain ⟨bind, hlast, hbind⟩ := hlands hbegins
      have hne : fetched ≠ [] := by
        rintro rfl
        contradiction
      rw [if_neg hne]
      have hold := hbrought hloop
      exact ⟨⟨bind, hlast, hbind⟩, by push_cast; omega⟩
  | exits _ _ => trivial
  | inputsDone hphase =>
      rw [hcount hphase (by simp)]
      simp only [Brought, hphase, if_true] at hbrought
      intro hpos
      obtain ⟨hdelta, hmore⟩ := hbrought hpos
      exact ⟨hdelta, fun hloop => (hmore hloop).trans (by omega)⟩
  | @handles bind queue calls s' hphase hhandles =>
      rw [hcount hphase (by simp)]
      simp only [Brought, hphase] at hbrought
      intro hpos
      obtain ⟨⟨last, hlast, hbind⟩, hmore⟩ := hbrought hpos
      split_ifs with hnil
      · rw [hnil] at hlast
        cases hlast
        refine ⟨?_, fun hloop => ?_⟩
        · show s'.timers.timeout.delta < timeoutMax
          rw [(hhandles.lands hbind).1]
          exact timeoutMax_pos
        · have hstrict := (hhandles.gains hpaced).more hbind hloop
          simp only [gained] at hgained
          omega
      · rw [List.getLast?_cons_of_ne_nil hnil] at hlast
        exact ⟨⟨last, hlast, hbind⟩, by omega⟩
  | locksOut hphase hlocks =>
      rw [hcount hphase (by simp)]
      simp only [Brought, hphase] at hbrought
      intro hpos
      obtain ⟨hdelta, hmore⟩ := hbrought hpos
      -- Locking leaves the flag alone, whatever its timeout action answers.
      obtain ⟨-, hkept, hearly⟩ := hlocks.gains hpaced
      exact ⟨hearly hdelta, fun hloop =>
        (hmore (hkept.symm.trans hloop)).trans (by omega)⟩
  | timesOut hphase htimes =>
      rw [hcount hphase (by simp)]
      simp only [Brought, hphase] at hbrought
      intro hloop
      rcases Nat.eq_zero_or_pos n with rfl | hpos
      · exact Int.add_nonneg hnonneg hgain
      · obtain ⟨hdelta, hmore⟩ := hbrought hpos
        have hkept := (htimes.gains hpaced).2 hdelta
        exact (hmore (hkept.symm.trans hloop)).trans (by omega)
  | stays hphase =>
      rw [hcount hphase (by simp)]
      simp only [Brought, hphase]

/-! ## Runs -/

variable {run : GameRun env engine} {m : Nat}

/-- The iterations that begin in the `n` steps from the `m`-th state on. -/
def GameRun.iterations (run : GameRun env engine) (m n : Nat) : Nat :=
  (List.range n).countP fun j => (run.state (m + j)).Begins

theorem GameRun.iterations_succ (run : GameRun env engine) (m n : Nat) :
    run.iterations m (n + 1) = run.iterations m n +
      if (run.state (m + n)).Begins then 1 else 0 := by
  simp [GameRun.iterations, List.range_succ, List.countP_append,
    List.countP_singleton]

/-- What the game has brought so far beyond its refused spawns. -/
def GameRun.total (run : GameRun env engine) (k : Nat) : Int :=
  (run.state k).game.standing -
    21 * refusals ((List.range k).flatMap run.event)

theorem GameRun.total_succ (run : GameRun env engine) (k : Nat) :
    run.total (k + 1) = run.total k +
      gained (run.state k) (run.event k) (run.state (k + 1)) := by
  simp only [GameRun.total, gained, List.range_succ, List.flatMap_append,
    List.flatMap_singleton, refusals_append]
  push_cast
  ring

theorem brought_of_lands
    (hlands : ∀ j < n, (run.state (m + j)).Begins →
      ∃ bind, (run.input (m + j)).getLast? = some bind ∧ bind.Lands)
    (hle : m + n ≤ run.length) :
    0 ≤ run.total (m + n) - run.total m ∧
      Brought (run.iterations m n) (run.total (m + n) - run.total m)
        (run.state (m + n)) := by
  induction n with
  | zero =>
      refine ⟨by simp, ?_⟩
      rw [Nat.add_zero, Int.sub_self]
      unfold Brought
      cases (run.state m).phase with
      | head => exact fun _ => le_refl _
      | input _ | lockout | timeout =>
          exact fun hpos => absurd hpos (Nat.lt_irrefl 0)
      | exited => trivial
  | succ n ih =>
      obtain ⟨hnonneg, hbrought⟩ :=
        ih (fun j hj => hlands j (by omega)) (by omega)
      have hstep := run.steps (k := m + n) (by omega)
      have hpaced := run.paced (m + n) (by omega)
      have hstanding := hstep.gains hpaced
      have hsplit : run.total (m + (n + 1)) - run.total m =
          run.total (m + n) - run.total m +
            gained (run.state (m + n)) (run.event (m + n))
              (run.state (m + n + 1)) := by
        rw [← Nat.add_assoc, run.total_succ]
        ring
      rw [hsplit, run.iterations_succ]
      refine ⟨?_, hstep.brought hpaced (hlands n (by omega)) hnonneg hbrought⟩
      simp only [gained]
      omega

theorem RunInv.countBlocks_le (hinv : RunInv g) :
    countBlocks g.p.blocks ≤ 200 := by
  have hheight := hinv.board.rect.height
  have hwidth : ∀ row ∈ g.p.blocks, row.length = 10 := by
    intro row hrow
    have hw := hinv.board.rect.width row hrow
    rw [hinv.w_eq] at hw
    omega
  have hcount := Grzetris.countBlocks_le g.p.blocks hwidth
  rw [hinv.h_eq] at hheight
  omega

theorem Game.le_standing (g : Game) :
    21 * g.engine.drawn - 20 ≤ g.standing := by
  simp only [Game.standing]
  split_ifs <;> omega

/-- The fetched queues of whole iterations, one after the other. -/
def iterationScript (queues : List (List Bind)) : List (List Bind) :=
  queues.flatMap fun queue => queue :: List.replicate (queue.length + 3) []

/-- Four pieces fill the bottom row. -/
def rowQueues : List (List Bind) :=
  [.gameDrop] :: List.replicate 3 [.gameRight, .gameDown] ++
    [[.gameRight, .gameDrop], [.gameRight, .gameDown], [.gameRight, .gameDrop]] ++
      List.replicate 7 [.gameRight, .gameDown] ++
        [[.gameRotate, .gameDown], [.gameRotate, .gameDrop]]

/-- No piece lands on the corner cell, and every queue fetched ends with an input
that lowers the piece. -/
def rowCheck (s : RunState) (calls : List Call) (s' : RunState) : Bool :=
  cornerSpared s calls s' &&
    (¬ s.Begins || match s'.phase with
      | .input queue => queue.getLast?.any fun bind => bind.Lands
      | _ => false)

theorem exists_rowRun : ∃ run : GameRun (steadyEnv 0) Engine.fresh,
    run.length = 95 ∧ (run.state 95).Begins ∧
      clearedBy (run.state 91).game (run.event 91) = 1 ∧
      ∀ k < 95, ¬ LandsOnCorner (run.state k) (run.event k) ∧
        ((run.state k).Begins →
          ∃ bind, (run.input k).getLast? = some bind ∧ bind.Lands) := by
  have hvisited : ((startRun (steadyEnv 0) Engine.fresh).bind fun s =>
      (trace (step (steadyEnv 0)) (iterationScript rowQueues) s).map fun visited =>
        (visited.length, checks rowCheck s visited,
          visited[94]?.map fun v => (v.2.phase, v.2.loop),
          (visited[90]?.bind fun v => visited[91]?.map fun v' =>
            clearedBy v.2.game v'.1))) =
      some (95, true, some (.head, true), some 1) := by
    decide +kernel
  obtain ⟨s, hstart, hmap⟩ := Option.bind_eq_some_iff.mp hvisited
  obtain ⟨visited, htrace, heq⟩ := Option.map_eq_some_iff.mp hmap
  simp only [Prod.mk.injEq, Option.map_eq_some_iff, Option.bind_eq_some_iff,
    Prod.exists] at heq
  obtain ⟨hlength, hchecks, ⟨calls₉, s₉, hlast, hbegins⟩,
    ⟨calls, s', hget, calls', s'', hget', hclears⟩⟩ := heq
  obtain ⟨run, hrun, hvisits, hchecked⟩ :=
    exists_run_of_checks hstart htrace hchecks
  have hninety : run.length = 95 := hrun.trans hlength
  refine ⟨run, hninety, ?_, ?_, fun k hk => ?_⟩
  · rw [(hvisits 94 _ _ hlast).2]
    exact hbegins
  · rw [(hvisits 90 _ _ hget).2, (hvisits 91 _ _ hget').1]
    exact hclears
  have hcheck := hchecked k (by omega)
  simp only [rowCheck, Bool.and_eq_true, Bool.or_eq_true, decide_eq_true_eq]
    at hcheck
  refine ⟨not_landsOnCorner_of_spared hcheck.1, fun hbegins => ?_⟩
  have hnext := (run.steps (k := k) (by omega)).at_head hbegins.1 hbegins.2
  have hlands := hcheck.2.resolve_left (not_not_intro hbegins)
  rw [hnext] at hlands
  simpa only [Option.any_eq_true, decide_eq_true_eq] using hlands

/--
Between two states of a run that never lands a piece on the corner cell, such
that every queue fetched in between ends with a DOWN or a DROP, a row is cleared
at least every 52.5 iterations, after a start of 1070 iterations at most.
-/
theorem surviving_clears (run : GameRun env engine)
    (hsafe : ∀ k < run.length,
      ¬ LandsOnCorner (run.state k) (run.event k))
    {m n : Nat} (hle : m + n ≤ run.length)
    (hlands : ∀ j < n, (run.state (m + j)).Begins →
      ∃ bind, (run.input (m + j)).getLast? = some bind ∧ bind.Lands)
    (hgoes : (run.state (m + n)).Begins) :
    4 * (run.iterations m n : Int) + 210 * run.cleared m ≤
      4280 + 210 * run.cleared (m + n) := by
  obtain ⟨sequence, ts, hplays⟩ := exists_plays run hsafe
  have hbrought := (brought_of_lands hlands hle).2
  simp only [Brought, hgoes.1] at hbrought
  have htotal := hbrought hgoes.2
  have hfirst := (run.state m).game.le_standing
  have hlast := (run.paced (m + n) hle).standing_le
  have hbalance := hplays.balance m (by omega)
  have hbalance' := hplays.balance (m + n) hle
  have hroom := (run.paced (m + n) hle).countBlocks_le
  simp only [GameRun.total] at htotal
  omega

theorem surviving_clears_row : ∃ run : GameRun (steadyEnv 0) Engine.fresh,
    run.length = 95 ∧ (run.state 95).Begins ∧
      clearedBy (run.state 91).game (run.event 91) = 1 ∧
      4 * (run.iterations 0 95 : Int) + 210 * run.cleared 0 ≤
        4280 + 210 * run.cleared (0 + 95) := by
  obtain ⟨run, hlength, hbegins, hclears, hsteps⟩ := exists_rowRun
  refine ⟨run, hlength, hbegins, hclears, surviving_clears run
    (fun k hk => (hsteps k (by omega)).1) (by omega) (fun j hj hhead => ?_)
    (by rwa [Nat.zero_add])⟩
  rw [Nat.zero_add] at hhead ⊢
  exact (hsteps j hj).2 hhead

end Grzetris
