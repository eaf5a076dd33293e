import Grzetris.Program.Display

/-!
# The end of the program

After the loop of the menu `ui::deinit` deletes the windows, and `cfg::deinit`
writes the configuration file.  The windows are those of a game, and the loop
that deletes them does not get past the first one.
-/

namespace Grzetris

open Foundation

variable {ω : Type} {C : Curses ω} {env : Env} {typed : List Int}
  {s s' : Program} {e : Event} {data : Addr} {table : Input}
  {screen screen' : Screen ω} {resized : Bool}

/-- `main` after `input::deinit`: what is in the file when it returns. -/
def finish (reread : Config → Config) (d : Displayed ω) : Option Config := do
  let _ ← deinitWindows WindowTypes.all d.screen.windows
  some (saveConfig reread d.input.toInput)

/-! ## The windows -/

theorem deinitWindows_eq_some_iff {keys : List WindowTypes}
    {windows windows' : WindowTypes → Option ω} :
    deinitWindows keys windows = some windows' ↔
      (∀ key ∈ keys, windows key = none) ∧ windows' = windows := by
  induction keys with
  | nil => simp [deinitWindows, eq_comm]
  | cons key keys ih =>
      rw [deinitWindows]
      cases hwin : windows key with
      | none => simp [ih, hwin]
      | some win => simp [hwin]

theorem WindowTypes.mem_all (type : WindowTypes) : type ∈ WindowTypes.all := by
  cases type <;> decide

/-- A window has been kept. -/
def Screen.Opened (screen : Screen ω) : Prop :=
  ∃ type, screen.windows type ≠ none

theorem saveConfig_congr (reread : Config → Config) {input : Input}
    (hbindings : input.bindings = table.bindings) :
    saveConfig reread input = saveConfig reread table := by
  change reread ⟨some (savedBindings input)⟩ = reread ⟨some (savedBindings table)⟩
  rw [savedBindings_congr hbindings]

theorem finish_of_not_opened {reread : Config → Config} {d : Displayed ω}
    (hclosed : ¬ d.screen.Opened) :
    finish reread d = some (saveConfig reread d.input.toInput) := by
  have hall : ∀ key ∈ WindowTypes.all, d.screen.windows key = none :=
    fun key _ => not_not.mp fun hkey => hclosed ⟨key, hkey⟩
  rw [finish, deinitWindows_eq_some_iff.mpr ⟨hall, rfl⟩]
  rfl

theorem finish_of_opened {reread : Config → Config} {d : Displayed ω}
    (hopened : d.screen.Opened) : finish reread d = none := by
  rw [finish]
  cases hdeinit : deinitWindows WindowTypes.all d.screen.windows with
  | none => rfl
  | some windows =>
      obtain ⟨type, htype⟩ := hopened
      have hnone := (deinitWindows_eq_some_iff.mp hdeinit).1
      exact absurd (hnone type type.mem_all) htype

/-! ## What opens them -/

theorem Screen.refresh_opened (type : WindowTypes) (win : ω) :
    (screen.refresh C type win).Opened :=
  ⟨type, by simp [Screen.refresh]⟩

theorem drawGame_opened {input : Input} {p : Playfield} {shape : Polyomino}
    (hdraw : drawGame C input p shape screen = some screen') :
    screen'.Opened := by
  simp only [drawGame, drawControls, Option.bind_eq_bind,
    Option.bind_eq_some_iff, Option.some.injEq] at hdraw
  obtain ⟨_, -, _, -, rfl⟩ := hdraw
  exact Screen.refresh_opened _ _

theorem rendererMain_windows {κ : Type} {main : Menu κ}
    (hdraw : rendererMain C main screen = some screen') :
    screen'.windows = screen.windows := by
  simp only [rendererMain, Option.bind_eq_bind, Option.bind_eq_some_iff,
    Option.some.injEq] at hdraw
  obtain ⟨_, -, rfl⟩ := hdraw
  rfl

theorem Program.drawGame_opened (hdraw : s.drawGame C screen = some screen') :
    screen'.Opened := by
  simp only [Program.drawGame, Option.bind_eq_bind,
    Option.bind_eq_some_iff] at hdraw
  obtain ⟨g, -, hdraw⟩ := hdraw
  exact Grzetris.drawGame_opened hdraw

/-- Only a drawing of the game touches the windows that are kept. -/
theorem redraw_windows (hredraw : redraw C resized s e s' screen = some screen') :
    screen'.windows = screen.windows ∨
      screen'.Opened ∧
        (s.control.inGame = true ∨ s'.control.inGame = true) := by
  rw [redraw.eq_def] at hredraw
  split at hredraw
  case h_1 hcontrol _ =>
    split_ifs at hredraw with hquit hin
    · exact .inl (by rw [Option.some.inj hredraw])
    · exact .inr ⟨Program.drawGame_opened hredraw, .inr hin⟩
    · exact .inl (rendererMain_windows hredraw)
  case h_2 _ hcontrol =>
    split_ifs at hredraw
    · exact .inr ⟨Program.drawGame_opened hredraw, .inl (by rw [hcontrol]; rfl)⟩
    · exact .inl (by rw [Option.some.inj hredraw])
  case h_3 => exact .inl (rendererMain_windows hredraw)
  case h_4 _ _ _ hcontrol =>
    exact .inr ⟨Program.drawGame_opened hredraw, .inl (by rw [hcontrol]; rfl)⟩
  case h_5 hcontrol =>
    simp only [Option.bind_eq_bind, Option.bind_eq_some_iff] at hredraw
    obtain ⟨g, -, g', -, hredraw⟩ := hredraw
    split_ifs at hredraw
    · exact .inr ⟨Program.drawGame_opened hredraw, .inl (by rw [hcontrol]; rfl)⟩
    · exact .inl (by rw [Option.some.inj hredraw])
  case h_6 hcontrol =>
    simp only [Option.bind_eq_bind, Option.bind_eq_some_iff] at hredraw
    obtain ⟨g, -, g', -, hredraw⟩ := hredraw
    split_ifs at hredraw
    · exact .inr ⟨Program.drawGame_opened hredraw, .inl (by rw [hcontrol]; rfl)⟩
    · exact .inl (by rw [Option.some.inj hredraw])
  case h_7 => exact .inl (by rw [Option.some.inj hredraw])

/-- The step that starts a game draws it. -/
theorem Proceeds.launch_opened (h : Proceeds env data typed s e s')
    (hs : ProgramInv table data s) (hout : s.control.inGame = false)
    (hin : s'.control.inGame = true)
    (hredraw : redraw C resized s e s' screen = some screen') :
    screen'.Opened := by
  have hrun : s'.doRun = true := by
    refine (h.inv hs).doRun ?_ ?_ <;> rintro hcontrol <;>
      simp [hcontrol, Control.inGame] at hin
  cases h with
  | menuHandles hcontrol _ _ _ _ =>
      simp only [redraw, hcontrol, hrun, hin] at hredraw
      exact Program.drawGame_opened hredraw
  | menuFetches _ _ | leaves _ _ | menuDone _ _ => contradiction
  | stays hcontrol => rw [hout] at hin; contradiction
  | gameFetches hcontrol _ _ | returns hcontrol _ _ _
  | inputsDone hcontrol _ _ | gameHandles hcontrol _ _ _
  | locksOut hcontrol _ _ | timesOut hcontrol _ _ =>
      rw [hcontrol] at hout
      contradiction

/-! ## Every run -/

/-- Windows are kept from the first game on. -/
theorem DisplayRun.opened_iff (run : DisplayRun C env table data) :
    ∀ k ≤ run.length, (run.state k).screen.Opened ↔
      ∃ j ≤ k, (run.state j).control.inGame = true := by
  refine run.invariant_index ?_ ?_
  · obtain ⟨hstart, hdraw⟩ := startDisplay_iff.mp run.start
    have hclosed : ¬ (run.state 0).screen.Opened := by
      rintro ⟨type, htype⟩
      rw [rendererMain_windows hdraw] at htype
      exact htype rfl
    have hmenu : (run.state 0).control = .menu :=
      congrArg Program.control (startProgram_eq hstart)
    simp [hclosed, hmenu, Control.inGame]
  · intro k hk hopened
    obtain ⟨hstep, hredraw⟩ := displayStep_iff.mp (run.next k hk)
    have hs := run.program.inv k (Nat.le_of_lt hk)
    have hproceeds := Proceeds.of_eq hs.selected hstep
    have hsplit : (∃ j ≤ k + 1, (run.state j).control.inGame = true) ↔
        (run.state k).screen.Opened ∨
          (run.state (k + 1)).control.inGame = true := by
      rw [hopened]
      constructor
      · rintro ⟨j, hj, hin⟩
        rcases Nat.lt_or_eq_of_le hj with hlt | rfl
        · exact .inl ⟨j, by omega, hin⟩
        · exact .inr hin
      · rintro (⟨j, hj, hin⟩ | hin)
        · exact ⟨j, by omega, hin⟩
        · exact ⟨k + 1, le_rfl, hin⟩
    rw [hsplit]
    have hplayed : (run.state k).control.inGame = true →
        (run.state k).screen.Opened := fun hin => hopened.mpr ⟨k, le_rfl, hin⟩
    have hwindows := redraw_windows hredraw
    constructor
    · rintro hopen
      rcases hwindows with hsame | ⟨-, hin | hin⟩
      · exact .inl (by rwa [Screen.Opened, hsame] at hopen)
      · exact .inl (hplayed hin)
      · exact .inr hin
    · intro hor
      by_cases hopen : (run.state k).screen.Opened
      · rcases hwindows with hsame | ⟨hopen', -⟩
        · rwa [Screen.Opened, hsame]
        · exact hopen'
      · have hin := hor.resolve_left hopen
        have hout : (run.state k).control.inGame = false := by
          by_contra hnot
          exact hopen (hplayed (by simpa using hnot))
        exact hproceeds.launch_opened hs hout hin hredraw

/--
When the loop of the menu has ended, the program gets to its end, leaving the
bindings it has loaded in the file, exactly if no game was played: the loop of
`ui::deinit` erases the element on which it stands, so that after a game it is
undefined how it goes on, and `cfg::deinit` is not reached.
-/
theorem program_finishes_iff (reread : Config → Config)
    (run : DisplayRun C env table data) :
    ∀ k ≤ run.length, (run.state k).control = .ended →
      (finish reread (run.state k) = some (saveConfig reread table) ↔
        ∀ j ≤ k, (run.state j).rest.game = none) ∧
      (finish reread (run.state k) = none ↔
        ∃ j ≤ k, (run.state j).rest.game ≠ none) := by
  intro k hk _
  have hplayed : (run.state k).screen.Opened ↔
      ∃ j ≤ k, (run.state j).rest.game ≠ none := by
    rw [run.opened_iff k hk]
    refine exists_congr fun j => and_congr_right fun hj => ?_
    have hplaying : (run.state j).rest.game.isSome =
        (run.state j).control.inGame :=
      (run.program.inv j (hj.trans hk)).playing
    rw [← hplaying, Option.isSome_iff_ne_none]
  have hnone : (∀ j ≤ k, (run.state j).rest.game = none) ↔
      ¬ (run.state k).screen.Opened := by
    rw [hplayed]
    push Not
    rfl
  rw [hnone, ← hplayed]
  by_cases hopened : (run.state k).screen.Opened
  · simp [finish_of_opened hopened, hopened]
  · have hbindings := (run.program.inv k hk).bindings
    have hsaved : saveConfig reread (run.state k).input.toInput =
        saveConfig reread table := saveConfig_congr reread hbindings
    rw [finish_of_not_opened hopened, hsaved]
    simp [hopened]

theorem program_finishes_iff_session :
    ∃ run : DisplayRun terminal (steadyEnv 0)
        (loadConfig id none Input.empty).2 0,
      (run.state 13).control = .ended ∧ run.event 7 = .returned ∧
        (finish id (run.state 13) =
            some (saveConfig id (loadConfig id none Input.empty).2) ↔
          ∀ j ≤ 13, (run.state j).rest.game = none) ∧
        (finish id (run.state 13) = none ↔
          ∃ j ≤ 13, (run.state j).rest.game ≠ none) := by
  obtain ⟨session, hlength, -, hreturned, hended⟩ := exists_sessionRun
  obtain ⟨bindings, hbindings⟩ := loadConfig_game id none
  obtain ⟨run, rfl⟩ := session.displayed terminal hbindings fun _ => false
  have hlong : run.length = 13 := hlength
  exact ⟨run, hended, hreturned,
    program_finishes_iff id run 13 (by omega) hended⟩

end Grzetris
