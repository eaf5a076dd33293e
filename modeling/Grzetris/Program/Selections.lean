import Grzetris.Program.Games

/-!
# What the menu does for the program

Of all that happens in a run, only the keys that the menu handles move its
selection, start a game or end the program.
-/

namespace Grzetris

open Foundation

variable {env : Env} {typed : List Int} {s s' : Program} {e : Event}
  {data : Addr} {table : Input} {i j : Nat}

/-- The bind of the code that the menu handles in a step. -/
def Event.menuBinds (table : Input) : Event → List Bind
  | .handled .menu code _ => [bindIn .menu table code]
  | _ => []

/-- "Quit" is selected, and a code that is bound to SELECT is handled. -/
def Quits (table : Input) (data : Addr) (s : Program) (e : Event) : Prop :=
  ∃ code, e = .handled .menu code [] ∧
    bindIn .menu table code = .menuSelect ∧ s.m = (mainRing data).selecting 3

theorem selecting_inj
    (hsame : (mainRing data).selecting i = (mainRing data).selecting j) :
    i = j := by
  have hpointer := congrArg Menu.selected hsame
  simpa [Menu.selecting] using hpointer

theorem bindOf_ne_select (way : Way) : bindOf way ≠ .menuSelect := by
  cases way <;> decide

/-! ## The selection -/

theorem Answers.selection {t menu : MenuState Callback World} {bind : Bind}
    {ret : Int} (hanswers : Answers (launch env) data i t bind ret menu)
    (hm : t.m = (mainRing data).selecting i) (hi : i < 4) :
    ∃ j < 4, menu.m = (mainRing data).selecting j ∧
      (j : Int) = (i + [bind].count .menuNext - [bind].count .menuPrev) % 4 := by
  have hsame : (i : Int) = i % 4 := by omega
  cases hanswers with
  | moves way =>
      refine ⟨_, Places.move_lt hi way, rfl, ?_⟩
      rw [Places.move_ring hi]
      cases way <;> simp [bindOf, Places.shift, Int.sub_eq_add_neg]
  | plays _ => exact ⟨i, hi, hm, by simpa using hsame⟩
  | idles _ => exact ⟨i, hi, hm, by simpa using hsame⟩
  | quits _ => exact ⟨i, hi, hm, by simpa using hsame⟩
  | ignores hnext hprev _ =>
      exact ⟨i, hi, hm, by simpa [hnext, hprev] using hsame⟩

theorem Proceeds.selection (h : Proceeds env data typed s e s')
    (hs : ProgramInv table data s) (hm : s.m = (mainRing data).selecting i)
    (hi : i < 4) :
    ∃ j < 4, s'.m = (mainRing data).selecting j ∧
      (j : Int) = (i + (e.menuBinds table).count .menuNext -
        (e.menuBinds table).count .menuPrev) % 4 := by
  have hsame : (i : Int) = (i + (0 : Nat) - (0 : Nat)) % 4 := by omega
  cases h with
  | menuHandles _ _ hm' _ hanswers =>
      obtain rfl := selecting_inj (hm'.symm.trans hm)
      rw [bindIn_congr hs.bindings] at hanswers
      exact hanswers.selection hm hi
  | returns _ _ _ hreturn =>
      obtain ⟨_, _, rfl⟩ := gameReturn_eq hreturn
      exact ⟨i, hi, hm, hsame⟩
  | _ => exact ⟨i, hi, hm, hsame⟩

/-! ## The end of the program -/

theorem Answers.doRun {t menu : MenuState Callback World} {bind : Bind}
    {ret : Int} (hanswers : Answers (launch env) data i t bind ret menu) :
    (answered ret menu).doRun = false ↔ bind = .menuSelect ∧ i = 3 := by
  cases hanswers with
  | moves way => simp [answered, bindOf_ne_select]
  | plays hfirst => simp [answered, hfirst]
  | idles hmiddle =>
      simp only [answered, true_and]
      constructor
      · intro hflag
        contradiction
      · omega
  | quits hlast => simp [answered, hlast]
  | ignores _ _ hselect => simp [answered, hselect]

theorem Proceeds.doRun (h : Proceeds env data typed s e s')
    (hs : ProgramInv table data s) :
    s'.doRun = false ↔ s.doRun = false ∨ Quits table data s e := by
  cases h with
  | @menuHandles i code _ _ _ hcontrol _ hm _ hanswers =>
      have hrun : s.doRun = true := by
        apply hs.doRun <;> rw [hcontrol] <;> decide
      rw [bindIn_congr hs.bindings] at hanswers
      rw [hanswers.doRun, hrun]
      constructor
      · rintro ⟨hselect, rfl⟩
        exact .inr ⟨code, rfl, hselect, hm⟩
      · rintro (hflag | ⟨_, hcode, hselect, hm'⟩)
        · contradiction
        · cases hcode
          exact ⟨hselect, selecting_inj (hm.symm.trans hm')⟩
  | returns _ _ _ hreturn =>
      obtain ⟨_, _, rfl⟩ := gameReturn_eq hreturn
      simp [Quits]
  | _ => simp [Quits, menuFetch, gameFetch, Program.setGame]

/-! ## The start of a game -/

theorem Answers.starts {t menu : MenuState Callback World} {bind : Bind}
    {ret : Int} (hanswers : Answers (launch env) data i t bind ret menu)
    (hnone : t.rest.game = none) :
    menu.rest.game.isSome ↔ bind = .menuSelect ∧ i = 0 := by
  cases hanswers with
  | moves way => simp [hnone, bindOf_ne_select]
  | plays hfirst => simp [isSome_launch, hfirst]
  | idles hmiddle =>
      simp only [hnone, Option.isSome_none, Bool.false_eq_true, true_and,
        false_iff]
      omega
  | quits hlast => simp [hnone, hlast]
  | ignores _ _ hselect => simp [hnone, hselect]

theorem Proceeds.starts (h : Proceeds env data typed s e s')
    (hs : ProgramInv table data s) :
    s.rest.game = none ∧ s'.rest.game.isSome ↔ Launches table data s e := by
  cases h with
  | @menuHandles i code _ _ _ hcontrol _ hm _ hanswers =>
      have hnone : s.rest.game = none := by
        rw [← Option.not_isSome_iff_eq_none, hs.playing, hcontrol]
        decide
      rw [bindIn_congr hs.bindings] at hanswers
      rw [answered, hanswers.starts hnone]
      constructor
      · rintro ⟨-, hselect, rfl⟩
        exact ⟨code, rfl, hselect, hm⟩
      · rintro ⟨_, hcode, hselect, hm'⟩
        cases hcode
        exact ⟨hnone, hselect, selecting_inj (hm.symm.trans hm')⟩
  | menuFetches _ _ | leaves _ _ | menuDone _ _ | stays _ =>
      simp +contextual [Launches, menuFetch]
  | gameFetches _ hgame _ | returns _ hgame _ _ | inputsDone _ hgame _
  | gameHandles _ hgame _ _ | locksOut _ hgame _ | timesOut _ hgame _ =>
      simp [Launches, hgame]

/-- The binds of the codes that the menu has handled before step `k`. -/
def ProgramRun.menuBinds (run : ProgramRun env table data) (k : Nat) :
    List Bind :=
  (List.range k).flatMap fun j => (run.event j).menuBinds table

/--
In every run of the program, whatever is typed into the games, the selected node
of the main menu is counted by the keys that the menu has handled: NEXT less
PREV, modulo four.  A game starts exactly when SELECT is handled at "Play", and
the loop of the menu ends exactly when SELECT is handled at "Quit".
-/
theorem program_selection (run : ProgramRun env table data) :
    (∀ k ≤ run.length, ∃ i < 4,
      (run.state k).m = (mainRing data).selecting i ∧
      (i : Int) = ((run.menuBinds k).count .menuNext -
        (run.menuBinds k).count .menuPrev) % 4) ∧
    (∀ k < run.length, (run.state k).rest.game = none ∧
        (run.state (k + 1)).rest.game.isSome ↔
      Launches table data (run.state k) (run.event k)) ∧
    ∀ k ≤ run.length, (run.state k).doRun = false ↔
      ∃ j < k, Quits table data (run.state j) (run.event j) := by
  have hstart := startProgram_eq run.start
  refine ⟨?_, ?_, ?_⟩
  · refine run.invariant_index ?_ ?_
    · exact ⟨0, by decide, by rw [hstart], rfl⟩
    · intro k hk
      rintro ⟨i, hi, hm, hcount⟩
      obtain ⟨j, hj, hm', hcount'⟩ := (run.proceeds hk).selection
        (run.inv k (Nat.le_of_lt hk)) hm hi
      refine ⟨j, hj, hm', ?_⟩
      rw [hcount', hcount]
      simp only [ProgramRun.menuBinds, List.range_succ, List.flatMap_append,
        List.flatMap_singleton, List.count_append]
      omega
  · intro k hk
    exact (run.proceeds hk).starts (run.inv k (Nat.le_of_lt hk))
  · refine run.invariant_index ?_ ?_
    · simp [hstart]
    · intro k hk ih
      rw [(run.proceeds hk).doRun (run.inv k (Nat.le_of_lt hk)), ih]
      constructor
      · rintro (⟨j, hj, hquits⟩ | hquits)
        · exact ⟨j, Nat.lt_succ_of_lt hj, hquits⟩
        · exact ⟨k, Nat.lt_succ_self k, hquits⟩
      · rintro ⟨j, hj, hquits⟩
        rcases Nat.lt_succ_iff_lt_or_eq.mp hj with hlt | rfl
        · exact .inl ⟨j, hlt, hquits⟩
        · exact .inr hquits

theorem program_selection_session :
    ∃ run : ProgramRun (steadyEnv 0) (setDefaultBinds Input.empty) 0,
      (∃ i < 4, (run.state 13).m = (mainRing 0).selecting i ∧
        (i : Int) = ((run.menuBinds 13).count .menuNext -
          (run.menuBinds 13).count .menuPrev) % 4) ∧
      ((run.state 13).doRun = false ↔
        ∃ j < 13, Quits (setDefaultBinds Input.empty) 0 (run.state j)
          (run.event j)) := by
  obtain ⟨run, hlength, -, -, -⟩ := exists_sessionRun
  obtain ⟨hselection, -, hquits⟩ := program_selection run
  exact ⟨run, hselection 13 (Nat.le_of_eq hlength.symm),
    hquits 13 (Nat.le_of_eq hlength.symm)⟩

end Grzetris
