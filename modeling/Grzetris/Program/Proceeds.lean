import Grzetris.Game.Safety
import Grzetris.Program.Machine

/-!
# What a step of the program can do

One inversion lemma for the main menu and one for the machine, from which every
invariant of the program is read off.
-/

namespace Grzetris

open Foundation

variable {env : Env} {typed : List Int} {s s' : Program} {e : Event}
  {data : Addr} {i : Nat}

/-! ## The main menu -/

def mainRing (data : Addr) : Menu Callback := linkedMenu true (mainMenu data)

section

variable {σ : Type} (game : MenuState Callback σ → MenuState Callback σ)
  {t : MenuState Callback σ}

/-- The answer of the main menu to a bind when node `i` is selected. -/
inductive Answers (data : Addr) (i : Nat) (t : MenuState Callback σ) :
    Bind → Int → MenuState Callback σ → Prop
  | moves (way : Way) : Answers data i t (bindOf way) 0
      { t with m := (mainRing data).selecting (Places.move true 4 i way) }
  | plays : i = 0 → Answers data i t .menuSelect 0 (game t)
  | idles : i = 1 ∨ i = 2 → Answers data i t .menuSelect 0 t
  | quits : i = 3 → Answers data i t .menuSelect 1 t
  | ignores {bind : Bind} : bind ≠ .menuNext → bind ≠ .menuPrev →
      bind ≠ .menuSelect → Answers data i t bind (-1) t

theorem focus_mainMenu {n : Node Callback} (hn : n ∈ (mainMenu data).nodes) :
    n.onFocus = .doNothing ∧ n.onFocusLost = .doNothing := by
  simp only [mainMenu, initNode, List.mem_cons, List.not_mem_nil, or_false]
    at hn
  rcases hn with rfl | rfl | rfl | rfl <;> exact ⟨rfl, rfl⟩

theorem followLink_mainRing (hi : i < (mainMenu data).nodes.length)
    (hm : t.m = (mainRing data).selecting i) (way : Way) :
    followLink (mainCalls game) (linkOf way) t = some (.sigCont,
      { t with m := (mainRing data).selecting (Places.move true 4 i way) }) := by
  have hselected := selected_node hi hm
  have hlink := linkOf_linkedNode true (mainMenu data) i way
    (mainMenu data).nodes[i]
  have hlost := (focus_mainMenu (List.getElem_mem hi)).2
  cases hneighbour :
      Places.neighbour? true (mainMenu data).nodes.length i way with
  | none => cases way <;> grind [Places.neighbour?]
  | some j =>
      have hj : j < (mainMenu data).nodes.length :=
        Places.neighbour?_lt hi hneighbour
      have hfocus := (focus_mainMenu (List.getElem_mem hj)).1
      have hmove : Places.move true 4 i way = j :=
        Places.move_of_neighbour hneighbour
      rw [hneighbour, Option.map_some] at hlink
      have hmoved : (t.select (some ((mainMenu data).data + j))).m =
          (linkedMenu true (mainMenu data)).selecting j := by
        rw [MenuState.select, hm]
        rfl
      have hquiet : (mainCalls game (linkedNode true (mainMenu data) i
          (mainMenu data).nodes[i]).onFocusLost t).2 = t := by
        simp only [linkedNode, hlost, mainCalls]
      rw [followLink_of_link hselected hlink hquiet hselected
        (selected_node hj hmoved), hmove]
      simp only [linkedNode, hfocus, mainCalls, MenuState.select, hm]
      rfl

theorem handleMenuBind_answers (hi : i < (mainMenu data).nodes.length)
    (hm : t.m = (mainRing data).selecting i) (bind : Bind) :
    ∃ sig t', handleMenuBind (mainCalls game) t bind = some (sig, t') ∧
      Answers game data i t bind sig.result t' := by
  have hselected := selected_node hi hm
  cases bind with
  | menuNext => exact ⟨_, _, followLink_mainRing game hi hm .on, .moves .on⟩
  | menuPrev => exact ⟨_, _, followLink_mainRing game hi hm .back, .moves .back⟩
  | menuSelect =>
      simp only [handleMenuBind, hselected, Option.bind_eq_bind,
        Option.bind_some]
      obtain rfl | hmiddle | rfl : i = 0 ∨ (i = 1 ∨ i = 2) ∨ i = 3 := by
        simp only [mainMenu, List.length_cons, List.length_nil] at hi
        omega
      · exact ⟨_, _, rfl, .plays rfl⟩
      · refine ⟨.sigCont, t, ?_, .idles hmiddle⟩
        obtain rfl | rfl := hmiddle <;> rfl
      · exact ⟨_, _, rfl, .quits rfl⟩
  | _ => exact ⟨_, _, rfl, .ignores (by decide) (by decide) (by decide)⟩

theorem inputDriver_answers (hi : i < (mainMenu data).nodes.length)
    (hm : t.m = (mainRing data).selecting i) :
    ∃ ret t', inputDriver (mainCalls game) t = some (ret, t') ∧
      Answers game data i { t with input := (nextMenuBind t.input).2 }
        (nextMenuBind t.input).1 ret t' := by
  obtain ⟨sig, t', hhandle, hanswers⟩ := handleMenuBind_answers
    game
    (t := { t with input := (nextMenuBind t.input).2 }) hi hm
    (nextMenuBind t.input).1
  exact ⟨sig.result, t', by simp [inputDriver, hhandle], hanswers⟩

end

/-! ## The machine -/

/-- The input state after the first code was looked up in `map`. -/
def popped (map : Map) (input : BufferedInput) : BufferedInput where
  toInput := setCurrentMap input.toInput map
  inputBuffer := input.inputBuffer.tail

def bindIn (map : Map) (table : Input) (code : Code) : Bind :=
  getBind (setCurrentMap table map) code

theorem bindIn_congr {first second : Input}
    (hbindings : first.bindings = second.bindings) (map : Map) (code : Code) :
    bindIn map first code = bindIn map second code := by
  simp only [bindIn, getBind, setCurrentMap, hbindings]
  rfl

inductive Proceeds (env : Env) (data : Addr) (typed : List Int) (s : Program) :
    Event → Program → Prop
  | menuFetches : s.control = .menu → s.doRun = true →
      Proceeds env data typed s (.fetched typed) (menuFetch typed s)
  | leaves : s.control = .menu → s.doRun = false →
      Proceeds env data typed s (.dropped s.input.inputBuffer)
        { s with input := drain s.input, control := .ended }
  | menuDone : s.control = .menuInput → s.input.inputBuffer = [] →
      Proceeds env data typed s .silent { s with control := .menu }
  | menuHandles {i : Nat} {code : Code} {rest : List Code} {ret : Int}
      {menu : MenuState Callback World} : s.control = .menuInput →
      s.input.inputBuffer = code :: rest →
      s.m = (mainRing data).selecting i → i < 4 →
      Answers (launch env) data i
        { s.toMenuState with input := popped .menu s.input }
        (bindIn .menu s.input.toInput code) ret menu →
      Proceeds env data typed s (.handled .menu code []) (answered ret menu)
  | gameFetches {g : RunState} : s.control = .game → s.rest.game = some g →
      g.loop = true →
      Proceeds env data typed s (.fetched typed)
        (gameFetch (env.after s.rest.reads) typed s g)
  | returns {g : RunState} {s' : Program} : s.control = .game →
      s.rest.game = some g → g.loop = false → gameReturn s g = some s' →
      Proceeds env data typed s .returned s'
  | inputsDone {g : RunState} : s.control = .gameInput →
      s.rest.game = some g → s.input.inputBuffer = [] →
      Proceeds env data typed s .silent { s with control := .lockout }
  | gameHandles {g g' : RunState} {code : Code} {rest : List Code}
      {calls : List Call} : s.control = .gameInput → s.rest.game = some g →
      s.input.inputBuffer = code :: rest →
      Handles (env.after s.rest.reads) g (bindIn .game s.input.toInput code)
        calls g' →
      Proceeds env data typed s (.handled .game code calls)
        { s.setGame g' with input := popped .game s.input }
  | locksOut {g g' : RunState} {calls : List Call} : s.control = .lockout →
      s.rest.game = some g → LocksOut (env.after s.rest.reads) g calls g' →
      Proceeds env data typed s (.timed calls)
        { s.setGame g' with control := .timeout }
  | timesOut {g g' : RunState} {calls : List Call} : s.control = .timeout →
      s.rest.game = some g → TimesOut (env.after s.rest.reads) g calls g' →
      Proceeds env data typed s (.timed calls)
        { s.setGame g' with control := .game }
  | stays : s.control = .ended → Proceeds env data typed s .silent s

theorem nextMenuBind_cons {input : BufferedInput} {code : Code}
    {rest : List Code} (hbuffer : input.inputBuffer = code :: rest) :
    nextMenuBind input =
      (bindIn .menu input.toInput code, popped .menu input) := by
  simp [nextMenuBind, getNext, hbuffer, bindIn, popped]

theorem nextGameBind_cons {input : BufferedInput} {code : Code}
    {rest : List Code} (hbuffer : input.inputBuffer = code :: rest) :
    nextGameBind input =
      (bindIn .game input.toInput code, popped .game input) := by
  simp [nextGameBind, getNext, hbuffer, bindIn, popped]

theorem Proceeds.of_menuHandle {code : Code} {rest : List Code}
    (hcontrol : s.control = .menuInput)
    (hbuffer : s.input.inputBuffer = code :: rest)
    (hm : s.m = (mainRing data).selecting i) (hi : i < 4)
    (h : menuHandle env code s = some (e, s')) :
    Proceeds env data typed s e s' := by
  obtain ⟨ret, menu, hdriver, hanswers⟩ :=
    inputDriver_answers (launch env) hi hm
  rw [nextMenuBind_cons hbuffer] at hanswers
  simp only [menuHandle, hdriver, Option.bind_eq_bind, Option.bind_some,
    Option.some.injEq, Prod.mk.injEq] at h
  obtain ⟨rfl, rfl⟩ := h
  exact .menuHandles hcontrol hbuffer hm hi hanswers

theorem Proceeds.of_gameStep {g : RunState} (hgame : s.rest.game = some g)
    (h : gameStep (env.after s.rest.reads) typed s g = some (e, s')) :
    Proceeds env data typed s e s' := by
  unfold gameStep at h
  split at h
  · rename_i hcontrol
    split at h
    · rename_i hloop
      cases h
      exact .gameFetches hcontrol hgame hloop
    · rename_i hloop
      simp only [Option.bind_eq_bind, Option.bind_eq_some_iff,
        Option.some.injEq, Prod.mk.injEq] at h
      obtain ⟨s', hreturn, rfl, rfl⟩ := h
      exact .returns hcontrol hgame (by simpa using hloop) hreturn
  · rename_i hcontrol
    split at h
    · rename_i hbuffer
      cases h
      exact .inputsDone hcontrol hgame hbuffer
    · rename_i code rest hbuffer
      simp only [gameHandle, nextGameBind_cons hbuffer, Option.bind_eq_bind,
        Option.bind_eq_some_iff, Option.some.injEq, Prod.mk.injEq,
        Prod.exists] at h
      obtain ⟨calls, g', hhandle, rfl, rfl⟩ := h
      exact .gameHandles hcontrol hgame hbuffer (.of_eq hhandle)
  · rename_i hcontrol
    simp only [Option.bind_eq_bind, Option.bind_eq_some_iff,
      Option.some.injEq, Prod.mk.injEq, Prod.exists] at h
    obtain ⟨calls, g', hlockout, rfl, rfl⟩ := h
    exact .locksOut hcontrol hgame (.of_eq hlockout)
  · rename_i hcontrol
    simp only [Option.bind_eq_bind, Option.bind_eq_some_iff,
      Option.some.injEq, Prod.mk.injEq, Prod.exists] at h
    obtain ⟨calls, g', htimeout, rfl, rfl⟩ := h
    exact .timesOut hcontrol hgame (.of_eq htimeout)
  · contradiction

theorem Proceeds.of_eq (hm : ∃ i < 4, s.m = (mainRing data).selecting i)
    (h : programStep env typed s = some (e, s')) :
    Proceeds env data typed s e s' := by
  unfold programStep at h
  split at h
  · rename_i hcontrol
    split at h
    · rename_i hrun
      cases h
      exact .menuFetches hcontrol hrun
    · rename_i hrun
      cases h
      exact .leaves hcontrol (by simpa using hrun)
  · rename_i hcontrol
    split at h
    · rename_i hbuffer
      cases h
      exact .menuDone hcontrol hbuffer
    · rename_i code rest hbuffer
      obtain ⟨i, hi, hm⟩ := hm
      exact .of_menuHandle hcontrol hbuffer hm hi h
  · rename_i hcontrol
    cases h
    exact .stays hcontrol
  · obtain ⟨g, hgame, hstep⟩ := Option.bind_eq_some_iff.mp h
    exact .of_gameStep hgame hstep

/-! ## The invariant -/

/-- Nothing changes the bindings, a node of the main menu is selected, and there
is a game exactly while the control is inside of `game::run`. -/
structure ProgramInv (table : Input) (data : Addr) (s : Program) : Prop where
  bindings : s.input.bindings = table.bindings
  selected : ∃ i < 4, s.m = (mainRing data).selecting i
  playing : s.rest.game.isSome = s.control.inGame
  doRun : s.control ≠ .menu → s.control ≠ .ended → s.doRun = true

variable {table : Input}

theorem startProgram_eq (hstart : startProgram table data = some s) :
    s =
      { input := { toInput := table, inputBuffer := [] }
        m := (mainRing data).selecting 0
        rest := { engine := Engine.fresh, reads := 0, game := none }
        control := .menu
        doRun := true } := by
  rw [startProgram, initMain_eq] at hstart
  cases hstart
  rfl

theorem ProgramInv.start (hstart : startProgram table data = some s) :
    ProgramInv table data s := by
  obtain rfl := startProgram_eq hstart
  exact ⟨rfl, ⟨0, by decide, rfl⟩, rfl, fun _ _ => rfl⟩

theorem isSome_launch (env : Env) (t : MenuState Callback World) :
    (launch env t).rest.game.isSome = true := by
  obtain ⟨g, hg⟩ := exists_startRun (env.after t.rest.reads) t.rest.engine
  simp [launch, hg]

theorem Answers.inv {t menu : MenuState Callback World} {bind : Bind}
    {ret : Int} (hanswers : Answers (launch env) data i t bind ret menu)
    (hbindings : t.input.bindings = table.bindings) (hi : i < 4)
    (hm : t.m = (mainRing data).selecting i) (hgame : t.rest.game = none) :
    ProgramInv table data (answered ret menu) := by
  cases hanswers with
  | moves way =>
      refine ⟨hbindings, ⟨_, Places.move_lt hi way, rfl⟩, ?_, fun _ _ => rfl⟩
      simp [answered, hgame, Control.inGame]
  | plays _ =>
      refine ⟨hbindings, ⟨i, hi, hm⟩, ?_, fun _ _ => rfl⟩
      simp [answered, isSome_launch, Control.inGame]
  | idles _ =>
      refine ⟨hbindings, ⟨i, hi, hm⟩, ?_, fun _ _ => rfl⟩
      simp [answered, hgame, Control.inGame]
  | quits _ =>
      refine ⟨hbindings, ⟨i, hi, hm⟩, ?_, fun hmenu _ => absurd rfl hmenu⟩
      simp [answered, hgame, Control.inGame]
  | ignores _ _ _ =>
      refine ⟨hbindings, ⟨i, hi, hm⟩, ?_, fun _ _ => rfl⟩
      simp [answered, hgame, Control.inGame]

theorem gameReturn_eq {g : RunState} (hreturn : gameReturn s g = some s') :
    ∃ memory, deinitPlayfields (Function.update (fun _ => none)
        s.rest.engine.created (some g.game.p)) g.game.engine.playfields =
          some memory ∧
      s' = { s with
        rest :=
          { engine := { g.game.engine with tetrominoes := fun _ => none }
            reads := s.rest.reads + g.reads
            game := none }
        control := .menuInput } := by
  simp only [gameReturn, deinit, Option.bind_eq_bind, Option.bind_eq_some_iff,
    Option.some.injEq] at hreturn
  obtain ⟨memory, hmemory, rfl⟩ := hreturn
  exact ⟨memory, hmemory, rfl⟩

theorem Proceeds.inv (h : Proceeds env data typed s e s')
    (hs : ProgramInv table data s) : ProgramInv table data s' := by
  have hnone : s.control.inGame = false → s.rest.game = none := by
    intro houtside
    rw [← Option.not_isSome_iff_eq_none, hs.playing, houtside]
    decide
  have hrun : s.control.inGame = true → s.doRun = true := by
    intro hin
    apply hs.doRun <;> intro hcontrol <;> simp [hcontrol, Control.inGame] at hin
  cases h with
  | menuFetches hcontrol hgoes =>
      have hgame := hnone (by rw [hcontrol]; rfl)
      rw [menuFetch, fetch_eq]
      exact ⟨hs.bindings, hs.selected, by rw [hgame]; rfl, fun _ _ => hgoes⟩
  | leaves hcontrol hrun =>
      have hgame := hnone (by rw [hcontrol]; rfl)
      rw [drain_eq]
      exact ⟨hs.bindings, hs.selected, by rw [hgame]; rfl,
        fun _ hended => absurd rfl hended⟩
  | menuDone hcontrol _ =>
      have hgame := hnone (by rw [hcontrol]; rfl)
      exact ⟨hs.bindings, hs.selected, by rw [hgame]; rfl,
        fun hmenu _ => absurd rfl hmenu⟩
  | menuHandles hcontrol _ hm hi hanswers =>
      have hgame := hnone (by rw [hcontrol]; rfl)
      exact hanswers.inv hs.bindings hi hm hgame
  | gameFetches hcontrol _ _ =>
      rw [gameFetch, fetch_eq]
      exact ⟨hs.bindings, hs.selected, rfl,
        fun _ _ => hrun (by rw [hcontrol]; rfl)⟩
  | returns hcontrol _ _ hreturn =>
      obtain ⟨_, _, rfl⟩ := gameReturn_eq hreturn
      exact ⟨hs.bindings, hs.selected, rfl,
        fun _ _ => hrun (by rw [hcontrol]; rfl)⟩
  | inputsDone hcontrol hgame _ =>
      exact ⟨hs.bindings, hs.selected, by rw [hgame]; rfl,
        fun _ _ => hrun (by rw [hcontrol]; rfl)⟩
  | gameHandles hcontrol _ _ _ =>
      have hin : s.control.inGame = true := by rw [hcontrol]; rfl
      exact ⟨hs.bindings, hs.selected, hin.symm, fun _ _ => hrun hin⟩
  | locksOut hcontrol _ _ =>
      exact ⟨hs.bindings, hs.selected, rfl,
        fun _ _ => hrun (by rw [hcontrol]; rfl)⟩
  | timesOut hcontrol _ _ =>
      exact ⟨hs.bindings, hs.selected, rfl,
        fun _ _ => hrun (by rw [hcontrol]; rfl)⟩
  | stays _ => exact hs

theorem ProgramRun.inv (run : ProgramRun env table data) :
    ∀ k ≤ run.length, ProgramInv table data (run.state k) :=
  run.invariant (fun _ hstart => ProgramInv.start hstart)
    fun _ _ _ _ hs hstep => (Proceeds.of_eq hs.selected hstep).inv hs

theorem ProgramRun.proceeds (run : ProgramRun env table data) {k : Nat}
    (hk : k < run.length) :
    Proceeds env data (run.input k) (run.state k) (run.event k)
      (run.state (k + 1)) :=
  .of_eq (run.inv k (Nat.le_of_lt hk)).selected (run.next k hk)

end Grzetris
