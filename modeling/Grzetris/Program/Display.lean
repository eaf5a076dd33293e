import Grzetris.Game.Keeps
import Grzetris.Program.Processes
import Grzetris.Program.Returns
import Grzetris.Ui.Display

/-!
# What the player sees

The program with its drawing.  Every step that changes the game or the menu is
followed by a drawing before the next key is read, so on a terminal with enough
room the screen is never out of date; and on no terminal a drawing fails.
-/

namespace Grzetris

open Foundation Playfield

variable {ω : Type} {C : Curses ω} {env : Env} {typed : List Int}
  {s s' : Program} {e : Event} {data : Addr} {table : Input}
  {screen : Screen ω} {resized : Bool}

/-! ## The machine -/

section

variable (C : Curses ω)

def Program.drawGame (s : Program) (screen : Screen ω) :
    Option (Screen ω) := do
  let g ← s.rest.game
  Grzetris.drawGame C s.input.toInput g.game.p g.game.nextShape screen

/-- The lockout block has left the lockout state. -/
def leftLockout (g g' : RunState) : Bool := g.isLockout && !g'.isLockout

/-- The timeout block has passed its `if (!isLockout)`. -/
def timedOut (g g' : RunState) : Bool :=
  decide (timeoutMax ≤ g.timers.timeout.delta) && !g'.isLockout

/-- The drawing of a step from `s` to `s'`.  What `hasResized` answers is
`resized`: on a terminal that keeps its size it is true at the first call only,
here it may be true at any. -/
def redraw (resized : Bool) (s : Program) (e : Event) (s' : Program)
    (screen : Screen ω) : Option (Screen ω) :=
  match s.control, e with
  | .menuInput, .handled _ _ _ =>
      if s'.doRun = false then some screen
      -- "Play" draws the game; the menu is drawn when the game has returned.
      else if s'.control.inGame then s'.drawGame C screen
      else rendererMain C s'.m screen
  | .game, .fetched _ => if resized then s'.drawGame C screen else some screen
  | .game, .returned => rendererMain C s'.m screen
  | .gameInput, .handled _ _ _ => s'.drawGame C screen
  | .lockout, _ => do
      let g ← s.rest.game
      let g' ← s'.rest.game
      if leftLockout g g' then s'.drawGame C screen else some screen
  | .timeout, _ => do
      let g ← s.rest.game
      let g' ← s'.rest.game
      if timedOut g g' then s'.drawGame C screen else some screen
  | _, _ => some screen

structure Displayed (ω : Type) extends Program where
  screen : Screen ω

def displayStep (env : Env) (input : List Int × Bool) (d : Displayed ω) :
    Option (Event × Displayed ω) := do
  let (e, s') ← programStep env input.1 d.toProgram
  let screen ← redraw C input.2 d.toProgram e s' d.screen
  some (e, { toProgram := s', screen := screen })

/-- `menu::run` draws the menu before its loop. -/
def startDisplay (table : Input) (data : Addr) : Option (Displayed ω) := do
  let s ← startProgram table data
  let screen ← rendererMain C s.m Screen.initial
  some { toProgram := s, screen := screen }

abbrev DisplayRun (env : Env) (table : Input) (data : Addr) :=
  Run (fun d => startDisplay C table data = some d) (displayStep C env)

end

theorem displayStep_iff {input : List Int × Bool} {d d' : Displayed ω} :
    displayStep C env input d = some (e, d') ↔
      programStep env input.1 d.toProgram = some (e, d'.toProgram) ∧
        redraw C input.2 d.toProgram e d'.toProgram d.screen =
          some d'.screen := by
  simp only [displayStep, Option.bind_eq_bind, Option.bind_eq_some_iff,
    Option.some.injEq, Prod.mk.injEq, Prod.exists]
  constructor
  · rintro ⟨e', s', hstep, screen', hredraw, rfl, rfl⟩
    exact ⟨hstep, hredraw⟩
  · rintro ⟨hstep, hredraw⟩
    exact ⟨e, _, hstep, _, hredraw, rfl, rfl⟩

theorem startDisplay_iff {d : Displayed ω} :
    startDisplay C table data = some d ↔
      startProgram table data = some d.toProgram ∧
        rendererMain C d.m Screen.initial = some d.screen := by
  simp only [startDisplay, Option.bind_eq_bind, Option.bind_eq_some_iff,
    Option.some.injEq]
  constructor
  · rintro ⟨s, hstart, screen', hdraw, rfl⟩
    exact ⟨hstart, hdraw⟩
  · rintro ⟨hstart, hdraw⟩
    exact ⟨_, hstart, _, hdraw, rfl⟩

/-- The run of the program that is displayed. -/
def DisplayRun.program (run : DisplayRun C env table data) :
    ProgramRun env table data where
  length := run.length
  input := fun k => (run.input k).1
  event := run.event
  state := fun k => (run.state k).toProgram
  start := (startDisplay_iff.mp run.start).1
  next := fun k hk => (displayStep_iff.mp (run.next k hk)).1

/-! ## The invariant -/

structure DisplayInv (C : Curses ω) (table : Input) (s : Program)
    (screen : Screen ω) : Prop where
  stands : screen.Stands C
  input : s.control.inGame = true →
    s.input.toInput = setCurrentMap table .game
  game : ∀ g, s.rest.game = some g →
    (ShowsGame C (setCurrentMap table .game) g.game.p g.game.nextShape screen ↔
      C.HoldsGame)
  menu : s.control = .menu ∨ s.control = .menuInput →
    (MenuShown C s.m screen ↔ C.HoldsMenu)

variable [C.Lawful]

theorem RunInv.drawGame {g : RunState} {bindings : Code → Option Bind}
    (hinv : RunInv g.game) (hbindings : table.bindings .game = some bindings)
    (hstands : screen.Stands C) :
    ∃ screen', Grzetris.drawGame C (setCurrentMap table .game) g.game.p
        g.game.nextShape screen = some screen' ∧
      screen'.Stands C ∧
      (ShowsGame C (setCurrentMap table .game) g.game.p g.game.nextShape
        screen' ↔ C.HoldsGame) := by
  obtain ⟨shape, hnext⟩ := hinv.next
  have hmap : (setCurrentMap table .game).currentMap ≠ .none :=
    show Map.game ≠ .none by decide
  rw [hnext]
  exact drawGame_spec hinv.board.rect hinv.h_eq hinv.w_eq shape hstands hmap
    hbindings

/-- A drawing of the game brings the screen up to date, if there is room. -/
theorem DisplayInv.drawGame {bindings : Code → Option Bind} {n : Nat}
    (hbindings : table.bindings .game = some bindings)
    (hs' : ProgramInv table data s') (hworld' : WorldInv n s')
    (hin : s'.control.inGame = true)
    (hinput : s'.input.toInput = setCurrentMap table .game)
    (hstands : screen.Stands C) :
    ∃ screen', s'.drawGame C screen = some screen' ∧
      DisplayInv C table s' screen' := by
  obtain ⟨g, hgame⟩ : ∃ g, s'.rest.game = some g := by
    rw [← Option.isSome_iff_exists, hs'.playing, hin]
  obtain ⟨screen', hdraw, hstands', hshows⟩ :=
    (hworld'.playing hgame).1.drawGame hbindings hstands
  refine ⟨screen', ?_, hstands', fun _ => hinput, ?_, ?_⟩
  · rw [Program.drawGame, hgame, hinput]
    exact hdraw
  · intro g' hgame'
    rw [hgame] at hgame'
    cases hgame'
    exact hshows
  · rintro (hcontrol | hcontrol) <;> rw [hcontrol] at hin <;> contradiction

theorem mainRing_texts (data : Addr) (i : Nat) :
    ((mainRing data).selecting i).nodes.length ≤ 5 ∧
      ∀ n ∈ ((mainRing data).selecting i).nodes, n.text.length ≤ 16 := by
  simp [Menu.selecting, mainRing, linkedMenu, mainMenu, linkedNode, initNode]
  decide

/-- A drawing of the menu does, too. -/
theorem DisplayInv.rendererMain (hs' : ProgramInv table data s')
    (hout : s'.control.inGame = false) (hstands : screen.Stands C) :
    ∃ screen', Grzetris.rendererMain C s'.m screen = some screen' ∧
      DisplayInv C table s' screen' := by
  obtain ⟨i, -, hm⟩ := hs'.selected
  obtain ⟨hnodes, htexts⟩ := mainRing_texts data i
  rw [← hm] at hnodes htexts
  obtain ⟨screen', hdraw, hwindows, hshown⟩ :=
    rendererMain_spec C screen hnodes htexts
  refine ⟨screen', hdraw, ?_, fun hin => ?_, fun g hgame => ?_, fun _ => hshown⟩
  · intro type win hwin
    rw [hwindows] at hwin
    exact hstands type win hwin
  · rw [hout] at hin
    contradiction
  · have hplaying := hs'.playing
    rw [hgame, hout] at hplaying
    contradiction

omit [C.Lawful] in
/-- A step that changes nothing that is seen needs no drawing. -/
theorem DisplayInv.keeps (hd : DisplayInv C table s screen)
    (hin : s'.control.inGame = true → s.control.inGame = true ∧
      s'.input.toInput = s.input.toInput)
    (hgame : ∀ g', s'.rest.game = some g' →
      ∃ g, s.rest.game = some g ∧ g'.game = g.game)
    (hmenu : s'.control = .menu ∨ s'.control = .menuInput →
      (s.control = .menu ∨ s.control = .menuInput) ∧ s'.m = s.m) :
    DisplayInv C table s' screen where
  stands := hd.stands
  input := fun hin' => (hin hin').2.trans (hd.input (hin hin').1)
  game := by
    intro g' hgame'
    obtain ⟨g, hg, hsame⟩ := hgame g' hgame'
    rw [hsame]
    exact hd.game g hg
  menu := by
    intro hcontrol
    rw [(hmenu hcontrol).2]
    exact hd.menu (hmenu hcontrol).1

theorem leftLockout_cases {g g' : RunState} {calls : List Call}
    (h : LocksOut env g calls g') :
    leftLockout g g' = true ∨ leftLockout g g' = false ∧ g'.game = g.game := by
  cases h with
  | inactive hlockout => exact .inr ⟨by simp [leftLockout, hlockout], rfl⟩
  | waits hlockout _ _ =>
      exact .inr ⟨by simp [leftLockout, hlockout], graced_game⟩
  | leaves hlockout _ | locks hlockout _ _ _ _ =>
      exact .inl (by simp [leftLockout, hlockout, unlocked, resetTimeout])

theorem timedOut_cases {g g' : RunState} {calls : List Call}
    (h : TimesOut env g calls g') :
    timedOut g g' = true ∨ timedOut g g' = false ∧ g'.game = g.game := by
  cases h with
  | early hearly => exact .inr ⟨by simp [timedOut]; omega, rfl⟩
  | waits _ hlockout _ =>
      exact .inr ⟨by simp [timedOut, rearmed, hlockout], rfl⟩
  | primes _ _ _ =>
      exact .inr ⟨by simp [timedOut, rearmed, primeLockout], rfl⟩
  | falls htimeout hlockout _ =>
      exact .inl (by simp [timedOut, rearmed, hlockout, htimeout])

/-- A step that finds the screen up to date draws without failing and leaves it
up to date. -/
theorem Proceeds.redraws {bindings : Code → Option Bind} {n' : Nat}
    (hbindings : table.bindings .game = some bindings)
    (h : Proceeds env data typed s e s') (hs : ProgramInv table data s)
    (hworld' : WorldInv n' s') (hd : DisplayInv C table s screen)
    (resized : Bool) :
    ∃ screen', redraw C resized s e s' screen = some screen' ∧
      DisplayInv C table s' screen' := by
  have hs' := h.inv hs
  have hdraws : s'.control.inGame = true →
      s'.input.toInput = setCurrentMap table .game →
      ∃ screen', s'.drawGame C screen = some screen' ∧
        DisplayInv C table s' screen' := fun hin hinput =>
    DisplayInv.drawGame hbindings hs' hworld' hin hinput hd.stands
  have hrenders : s'.control.inGame = false →
      ∃ screen', Grzetris.rendererMain C s'.m screen = some screen' ∧
        DisplayInv C table s' screen' := fun hout =>
    DisplayInv.rendererMain hs' hout hd.stands
  cases h with
  | menuFetches hcontrol _ =>
      refine ⟨screen, by simp [redraw, hcontrol], hd.keeps ?_ ?_ ?_⟩
      · intro hin
        contradiction
      · exact fun g hg => ⟨g, hg, rfl⟩
      · exact fun _ => ⟨.inl hcontrol, rfl⟩
  | leaves hcontrol _ =>
      refine ⟨screen, by simp [redraw, hcontrol], hd.keeps ?_ ?_ ?_⟩
      · intro hin
        contradiction
      · exact fun g hg => ⟨g, hg, rfl⟩
      · rintro (hended | hended) <;> contradiction
  | menuDone hcontrol _ =>
      refine ⟨screen, by simp [redraw, hcontrol], hd.keeps ?_ ?_ ?_⟩
      · intro hin
        contradiction
      · exact fun g hg => ⟨g, hg, rfl⟩
      · exact fun _ => ⟨.inr hcontrol, rfl⟩
  | stays hcontrol =>
      refine ⟨screen, by simp [redraw, hcontrol], hd⟩
  | returns hcontrol _ _ hreturn =>
      obtain ⟨_, _, rfl⟩ := gameReturn_eq hreturn
      obtain ⟨screen', hdraw, hd'⟩ := hrenders rfl
      exact ⟨screen', by simp only [redraw, hcontrol]; exact hdraw, hd'⟩
  | @gameFetches g hcontrol hgame _ =>
      have hin : s.control.inGame = true := by rw [hcontrol]; rfl
      cases resized with
      | true =>
          obtain ⟨screen', hdraw, hd'⟩ := hdraws rfl (by
            rw [gameFetch, fetch_eq]
            exact hd.input hin)
          exact ⟨screen', by simp only [redraw, hcontrol]; exact hdraw, hd'⟩
      | false =>
          refine ⟨screen, by simp [redraw, hcontrol], hd.keeps ?_ ?_ ?_⟩
          · intro _
            refine ⟨hin, ?_⟩
            rw [gameFetch, fetch_eq]
          · intro g' hg'
            cases hg'
            exact ⟨g, hgame, rfl⟩
          · rintro (hmenu | hmenu) <;> contradiction
  | inputsDone hcontrol _ _ =>
      refine ⟨screen, by simp [redraw, hcontrol], hd.keeps ?_ ?_ ?_⟩
      · exact fun _ => ⟨by rw [hcontrol]; rfl, rfl⟩
      · exact fun g hg => ⟨g, hg, rfl⟩
      · rintro (hmenu | hmenu) <;> contradiction
  | @gameHandles g g' code rest calls hcontrol hgame _ _ =>
      have hin : s.control.inGame = true := by rw [hcontrol]; rfl
      obtain ⟨screen', hdraw, hd'⟩ := hdraws hin (by
        have hinput := hd.input hin
        simp only [popped, hinput]
        rfl)
      exact ⟨screen', by simp only [redraw, hcontrol]; exact hdraw, hd'⟩
  | @locksOut g g' calls hcontrol hgame hlocks =>
      have hin : s.control.inGame = true := by rw [hcontrol]; rfl
      obtain ⟨screen', hdraw, hd'⟩ := hdraws rfl (hd.input hin)
      rcases leftLockout_cases hlocks with hleft | ⟨hstays, hsame⟩
      · refine ⟨screen', ?_, hd'⟩
        simp only [redraw, hcontrol, hgame, Program.setGame,
          Option.bind_eq_bind, Option.bind_some, hleft]
        exact hdraw
      · refine ⟨screen, ?_, hd.keeps (fun _ => ⟨hin, rfl⟩) ?_ ?_⟩
        · simp [redraw, hcontrol, hgame, Program.setGame, hstays]
        · intro g'' hg''
          cases hg''
          exact ⟨g, hgame, hsame⟩
        · rintro (hmenu | hmenu) <;> contradiction
  | @timesOut g g' calls hcontrol hgame htimes =>
      have hin : s.control.inGame = true := by rw [hcontrol]; rfl
      obtain ⟨screen', hdraw, hd'⟩ := hdraws rfl (hd.input hin)
      rcases timedOut_cases htimes with hout | ⟨hstays, hsame⟩
      · refine ⟨screen', ?_, hd'⟩
        simp only [redraw, hcontrol, hgame, Program.setGame,
          Option.bind_eq_bind, Option.bind_some, hout]
        exact hdraw
      · refine ⟨screen, ?_, hd.keeps (fun _ => ⟨hin, rfl⟩) ?_ ?_⟩
        · simp [redraw, hcontrol, hgame, Program.setGame, hstays]
        · intro g'' hg''
          cases hg''
          exact ⟨g, hgame, hsame⟩
        · rintro (hmenu | hmenu) <;> contradiction
  | @menuHandles i code rest ret menu hcontrol _ _ _ hanswers =>
      have hnone : s.rest.game = none := by
        rw [← Option.not_isSome_iff_eq_none, hs.playing, hcontrol]
        decide
      have hrender : ret ≠ 1 → menu.rest.game = none →
          ∃ screen', redraw C resized s (.handled .menu code [])
              (answered ret menu) screen = some screen' ∧
            DisplayInv C table (answered ret menu) screen' := by
        intro hret hgame
        have hout : (answered ret menu).control = .menuInput := by
          simp [answered, hret, hgame]
        have hrun : (answered ret menu).doRun = true := by
          simp [answered, hret]
        obtain ⟨screen', hdraw, hd'⟩ := hrenders (by rw [hout]; rfl)
        refine ⟨screen', ?_, hd'⟩
        simp only [redraw, hcontrol, hrun, hout]
        exact hdraw
      generalize bindIn .menu s.input.toInput code = bind at hanswers
      cases hanswers with
      | moves _ | idles _ | ignores _ _ _ => exact hrender (by decide) hnone
      | quits _ =>
          refine ⟨screen, by simp [redraw, hcontrol, answered], hd.keeps ?_ ?_ ?_⟩
          · intro hin
            contradiction
          · exact fun g hg => ⟨g, hg, rfl⟩
          · exact fun _ => ⟨.inr hcontrol, rfl⟩
      | plays _ =>
          have hin : (answered 0 (launch env { s.toMenuState with
              input := popped .menu s.input })).control = .game := by
            simp [answered, isSome_launch]
          obtain ⟨screen', hdraw, hd'⟩ := hdraws (by rw [hin]; rfl) (by
            change Input.mk s.input.bindings .game = Input.mk table.bindings .game
            rw [hs.bindings])
          refine ⟨screen', ?_, hd'⟩
          simp only [redraw, hcontrol, hin]
          exact hdraw

variable (C) in
theorem ProgramInv.displayInv (hstart : startProgram table data = some s) :
    ∃ screen', Grzetris.rendererMain C s.m Screen.initial = some screen' ∧
      DisplayInv C table s screen' := by
  have hs := ProgramInv.start hstart
  obtain rfl := startProgram_eq hstart
  exact DisplayInv.rendererMain hs rfl fun _ _ hwin => by contradiction

theorem DisplayRun.inv {bindings : Code → Option Bind}
    (run : DisplayRun C env table data)
    (hbindings : table.bindings .game = some bindings) :
    ∀ k ≤ run.length,
      DisplayInv C table (run.state k).toProgram (run.state k).screen := by
  refine run.invariant_index ?_ ?_
  · obtain ⟨hstart, hdraw⟩ := startDisplay_iff.mp run.start
    obtain ⟨screen', hdraw', hd⟩ := ProgramInv.displayInv C hstart
    rw [hdraw] at hdraw'
    rwa [Option.some.inj hdraw']
  · intro k hk hd
    obtain ⟨hstep, hredraw⟩ := displayStep_iff.mp (run.next k hk)
    have hs := run.program.inv k (Nat.le_of_lt hk)
    obtain ⟨screen', hredraw', hd'⟩ :=
      (Proceeds.of_eq hs.selected hstep).redraws hbindings hs
        (run.program.worldInv (k + 1) hk) hd (run.input k).2
    have hsame : redraw C (run.input k).2 (run.state k).toProgram (run.event k)
        (run.state (k + 1)).toProgram (run.state k).screen = some screen' :=
      hredraw'
    rw [hredraw] at hsame
    rwa [Option.some.inj hsame]

/-- Every run of the program can be displayed. -/
theorem ProgramRun.displayed (C : Curses ω) [C.Lawful]
    {bindings : Code → Option Bind} (run : ProgramRun env table data)
    (hbindings : table.bindings .game = some bindings)
    (resized : Nat → Bool) :
    ∃ shown : DisplayRun C env table data, shown.program = run := by
  obtain ⟨first, hfirst, hd⟩ := ProgramInv.displayInv C run.start
  let screens : Nat → Screen ω := fun k =>
    Nat.rec first (fun k screen => (redraw C (resized k) (run.state k)
      (run.event k) (run.state (k + 1)) screen).getD screen) k
  have hnext : ∀ k < run.length, DisplayInv C table (run.state k) (screens k) →
      redraw C (resized k) (run.state k) (run.event k) (run.state (k + 1))
          (screens k) = some (screens (k + 1)) ∧
        DisplayInv C table (run.state (k + 1)) (screens (k + 1)) := by
    intro k hk hd
    obtain ⟨screen', hredraw, hd'⟩ := (run.proceeds hk).redraws hbindings
      (run.inv k (Nat.le_of_lt hk)) (run.worldInv (k + 1) hk) hd (resized k)
    have hscreen : screens (k + 1) = screen' := by
      change (redraw C (resized k) (run.state k) (run.event k)
        (run.state (k + 1)) (screens k)).getD (screens k) = screen'
      rw [hredraw, Option.getD_some]
    rw [hscreen]
    exact ⟨hredraw, hd'⟩
  have hinv : ∀ k ≤ run.length,
      DisplayInv C table (run.state k) (screens k) :=
    run.invariant_index hd fun k hk hd => (hnext k hk hd).2
  refine ⟨{
    length := run.length
    input := fun k => (run.input k, resized k)
    event := run.event
    state := fun k => { toProgram := run.state k, screen := screens k }
    start := startDisplay_iff.mpr ⟨run.start, hfirst⟩
    next := fun k hk => displayStep_iff.mpr
      ⟨run.next k hk, (hnext k hk (hinv k (Nat.le_of_lt hk))).1⟩ }, rfl⟩

/-! ## Colours -/

/-- The bindings that `cfg::init` loads have a map for the game. -/
theorem loadConfig_game (reparse : BindJson → BindJson)
    (file : Option Config) : ∃ bindings,
      (loadConfig reparse file Input.empty).2.bindings .game = some bindings := by
  rw [loadConfig, loadBindings]
  cases file.bind Config.bindings with
  | none => exact ⟨_, rfl⟩
  | some _ => exact ⟨_, rfl⟩

/-- A terminal with colours, as high and as wide as the game needs it. -/
def terminal : Curses (Option (Sheet Char Attribute)) where
  toWindows := sheets 42 82 ('#', .normal)
  hasColors := true

instance : terminal.Lawful := sheets_lawful _ (by decide) (by decide)

end Grzetris
