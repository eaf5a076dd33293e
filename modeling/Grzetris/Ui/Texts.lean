import Grzetris.Foundation.Runs
import Grzetris.Ui.Screen

/-!
# The texts of a drawing

What can be read in the window of the controls and in the main menu.  A text
stays readable when the texts after it are written below it or beside it.
-/

namespace Grzetris

open Foundation

variable {ω : Type} {C : Curses ω} {screen : Screen ω} {win : ω}
  {input : Input} {bind : Bind} {text : String}

/-! ## Windows that are kept -/

/-- The sizes with which the windows are created. -/
def WindowTypes.size : WindowTypes → Cell
  | .playfield => (42, 42)
  | .nextShape => (8, 14)
  | .statistics => (15, 17)
  | .controls => (15, 20)

/-- The playfield is not wider than the terminal, nor higher. -/
def Curses.HoldsField (C : Curses ω) : Prop := 42 ≤ C.lines ∧ 42 ≤ C.cols

/-- Room for the playfield with the controls at its left. -/
def Curses.HoldsGame (C : Curses ω) : Prop := 42 ≤ C.lines ∧ 82 ≤ C.cols

instance (C : Curses ω) : Decidable C.HoldsField :=
  inferInstanceAs (Decidable (_ ∧ _))

/-- Where the playfield is put. -/
def Curses.fieldOrigin (C : Curses ω) : Cell :=
  (C.lines.tdiv 2 - 21, C.cols.tdiv 2 - 21)

/-- Where the windows are put.  Beside a playfield that is null the functions
that look at it answer `ERR`. -/
def WindowTypes.origin (C : Curses ω) : WindowTypes → Cell
  | .playfield => C.fieldOrigin
  | .nextShape =>
      if C.HoldsField then (C.fieldOrigin.1, 42 + C.fieldOrigin.2) else (-1, -2)
  | .statistics => (2, 10)
  | .controls =>
      if C.HoldsField then (C.fieldOrigin.1, C.fieldOrigin.2 - 20)
      else (-1, -21)

/-- A window that was created for a type, or the null pointer if it could not be
created. -/
structure Curses.Stands (C : Curses ω) (type : WindowTypes) (win : ω) : Prop where
  valid : C.valid win = true ↔ 0 ≤ (type.origin C).1 ∧ 0 ≤ (type.origin C).2
  size : C.valid win = true → C.size win = type.size
  origin : C.valid win = true → C.origin win = type.origin C

def Screen.Stands (C : Curses ω) (screen : Screen ω) : Prop :=
  ∀ type win, screen.windows type = some win → C.Stands type win

theorem Curses.Stands.of_samePlace {type : WindowTypes} {win' : ω}
    (h : C.Stands type win) (hsame : C.SamePlace win win') :
    C.Stands type win' where
  valid := by rw [hsame.valid, h.valid]
  size := fun hvalid => by rw [hsame.size, h.size (hsame.valid ▸ hvalid)]
  origin := fun hvalid => by rw [hsame.origin, h.origin (hsame.valid ▸ hvalid)]

theorem le_half_iff {n k : Int} (hk : 0 < k) : k ≤ n.tdiv 2 ↔ 2 * k ≤ n := by
  have hsign : (2 : Int).sign = 1 := rfl
  rw [Int.tdiv_eq_ediv, hsign]
  split_ifs <;> omega

theorem Curses.Stands.valid_iff (h : C.Stands .playfield win) :
    C.valid win = true ↔ C.HoldsField := by
  have hlines := le_half_iff (n := C.lines) (k := 21) (by decide)
  have hcols := le_half_iff (n := C.cols) (k := 21) (by decide)
  rw [h.valid]
  simp only [WindowTypes.origin, Curses.fieldOrigin, Curses.HoldsField]
  omega

theorem Curses.Stands.controls_valid_iff (h : C.Stands .controls win) :
    C.valid win = true ↔ C.HoldsGame := by
  have hlines := le_half_iff (n := C.lines) (k := 21) (by decide)
  have hcols := le_half_iff (n := C.cols) (k := 41) (by decide)
  rw [h.valid, WindowTypes.origin]
  split_ifs with hholds <;>
    simp only [Curses.fieldOrigin, Curses.HoldsField, Curses.HoldsGame]
      at hholds ⊢ <;> omega

/-- Where there is room the windows stand in a row in the middle. -/
theorem Curses.HoldsGame.origins (hroom : C.HoldsGame) :
    WindowTypes.playfield.origin C = (C.lines / 2 - 21, C.cols / 2 - 21) ∧
      WindowTypes.nextShape.origin C = (C.lines / 2 - 21, C.cols / 2 + 21) ∧
      WindowTypes.controls.origin C = (C.lines / 2 - 21, C.cols / 2 - 41) := by
  obtain ⟨hline, hcol⟩ := hroom
  have hholds : C.HoldsField := ⟨hline, by omega⟩
  have hlines : C.lines.tdiv 2 = C.lines / 2 :=
    Int.tdiv_eq_ediv_of_nonneg (by omega)
  have hcols : C.cols.tdiv 2 = C.cols / 2 :=
    Int.tdiv_eq_ediv_of_nonneg (by omega)
  simp only [WindowTypes.origin, if_pos hholds, Curses.fieldOrigin, hlines,
    hcols, Prod.mk.injEq, true_and]
  omega

theorem Screen.windows_refresh {type : WindowTypes} :
    (screen.refresh C type win).windows type = some win :=
  Function.update_self _ _ _

theorem Screen.windows_refresh_of_ne {type other : WindowTypes}
    (hne : other ≠ type) :
    (screen.refresh C type win).windows other = screen.windows other :=
  Function.update_of_ne hne _ _

theorem Screen.Stands.refresh (hstands : screen.Stands C) {type : WindowTypes}
    (hwin : C.Stands type win) : (screen.refresh C type win).Stands C := by
  intro other win' hother
  simp only [Screen.refresh] at hother
  by_cases htype : other = type
  · rw [htype, Function.update_self] at hother
    rw [← Option.some.inj hother, htype]
    exact hwin
  · rw [Function.update_of_ne htype] at hother
    exact hstands other win' hother

theorem WindowTypes.size_short (type : WindowTypes) :
    0 < type.size.1 ∧ Short type.size.1 ∧ 0 < type.size.2 ∧ Short type.size.2 := by
  cases type <;> decide

section

variable [C.Lawful]

theorem WindowTypes.origin_short (type : WindowTypes) :
    Short (type.origin C).1 ∧ Short (type.origin C).2 := by
  have hlines : Short C.lines := Windows.Lawful.short_lines
  have hcols : Short C.cols := Windows.Lawful.short_cols
  have hsign : (2 : Int).sign = 1 := rfl
  have htdiv : ∀ n : Int, Short n → -2 ^ 14 ≤ n.tdiv 2 ∧ n.tdiv 2 < 2 ^ 14 := by
    intro n hn
    simp only [Short] at hn
    rw [Int.tdiv_eq_ediv, hsign]
    split_ifs <;> omega
  have hhalf := htdiv _ hlines
  have hhalf' := htdiv _ hcols
  cases type <;> simp only [WindowTypes.origin, Curses.fieldOrigin] <;>
    try split_ifs
  all_goals
    simp only [Short]
    omega

/-- Every drawing starts with a window that is blank inside of its frame. -/
theorem Screen.Stands.framed (hstands : screen.Stands C) (type : WindowTypes)
    (frame : Frame Char) {size origin : Cell} (hsize : type.size = size)
    (horigin : type.origin C = origin) {framed : ω}
    (hframed : C.border frame (C.erase
      (C.move origin (C.window screen type size origin))) = framed) :
    C.Stands type framed ∧ (C.valid framed = true →
      ∀ cell, Inside type.size cell → C.look framed cell = none) := by
  subst hsize horigin hframed
  obtain ⟨hline, hlines, hcol, hcols⟩ := type.size_short
  have hshort : Short (type.origin C).1 ∧ Short (type.origin C).2 :=
    type.origin_short
  have hkept : C.Stands type (C.window screen type type.size (type.origin C)) := by
    rw [Curses.window]
    cases hwin : screen.windows type with
    | some win => exact hstands type win hwin
    | none =>
        rw [Option.getD_none]
        exact ⟨Windows.Lawful.valid_create _ _ hline hlines hcol hcols,
          fun hvalid => Windows.Lawful.size_create _ _ hvalid hline hcol,
          fun hvalid => Windows.Lawful.origin_create _ _ hvalid hshort.1 hshort.2⟩
  generalize C.window screen type type.size (type.origin C) = win at hkept
  have hmoved : C.Stands type (C.move (type.origin C) win) := by
    refine ⟨by simpa using hkept.valid, fun hvalid => ?_, fun hvalid => ?_⟩
    · rw [Windows.Lawful.valid_move] at hvalid
      rw [Windows.Lawful.size_move, hkept.size hvalid]
    · rw [Windows.Lawful.valid_move] at hvalid
      have hmove := Windows.Lawful.origin_move (W := C.toWindows)
        (type.origin C) win hvalid
      by_cases hcovers : C.Covers (type.origin C) (C.size win)
      · exact hmove.1 hcovers
      · rw [hmove.2 hcovers, hkept.origin hvalid]
  generalize C.move (type.origin C) win = moved at hmoved
  have hplace : C.SamePlace moved (C.border frame (C.erase moved)) :=
    ⟨by simp, by simp, by simp⟩
  refine ⟨hmoved.of_samePlace hplace, fun hvalid cell hinside => ?_⟩
  rw [hplace.valid] at hvalid
  rw [Windows.Lawful.look_border _ _ _
    (by rwa [Windows.Lawful.size_erase, hmoved.size hvalid]),
    Windows.Lawful.look_erase _ hvalid]
  rfl

end

/-! ## The name of a key -/

/-- What is printed for a bind: the first code that has it. -/
inductive Labels (input : Input) (bind : Bind) : String → Prop
  | unbound : (∀ code, getBind input code ≠ bind) → Labels input bind "(none)"
  | bound {before after : List Code} {code : Code} :
      Code.all = before ++ code :: after → getBind input code = bind →
      (∀ other ∈ before, getBind input other ≠ bind) →
      Labels input bind ("[" ++ codeToFriendlyString code ++ "]")

theorem getBind_eq_iff {bindings : Code → Option Bind} {code : Code}
    (hmap : input.currentMap ≠ .none)
    (hbindings : input.bindings input.currentMap = some bindings)
    (hbind : bind ≠ .none) :
    getBind input code = bind ↔ bindings code = some bind := by
  rw [getBind, if_neg hmap, hbindings]
  cases hcode : bindings code with
  | none => simpa [hcode] using hbind.symm
  | some other => simp [hcode]

theorem getBindChar_labels {bindings : Code → Option Bind}
    (hmap : input.currentMap ≠ .none)
    (hbindings : input.bindings input.currentMap = some bindings)
    (hbind : bind ≠ .none) :
    ∃ text, getBindChar input bind = some text ∧ Labels input bind text := by
  have hreverse : getReverseBind input bind =
      some (Code.all.filter fun code => getBind input code = bind) := by
    simp only [getReverseBind, hbindings, getBind_eq_iff hmap hbindings hbind]
    rfl
  rw [getBindChar, hreverse]
  cases hcodes : Code.all.filter fun code => getBind input code = bind with
  | nil =>
      refine ⟨_, rfl, .unbound fun code hcode => ?_⟩
      have hnone := List.filter_eq_nil_iff.mp hcodes code (Code.mem_all code)
      simp [hcode] at hnone
  | cons code codes =>
      obtain ⟨before, after, hall, hbefore, hcode, -⟩ :=
        List.filter_eq_cons_iff.mp hcodes
      refine ⟨_, rfl, .bound hall (by simpa using hcode) ?_⟩
      intro other hother
      simpa using hbefore other hother

theorem length_codeToFriendlyString (code : Code) :
    (codeToFriendlyString code).length ≤ 6 ∨
      codeToFriendlyString code = "(unknown)" := by
  cases code <;> decide

/-- Eleven characters at most, and eight for every key with a name. -/
theorem Labels.length_le (h : Labels input bind text) :
    text.length ≤ 11 ∧ (text ≠ "[(unknown)]" → text.length ≤ 8) := by
  cases h with
  | unbound _ => decide
  | @bound before after code _ _ _ =>
      rcases length_codeToFriendlyString code with hshort | hunknown
      · simp only [String.length_append]
        have hbracket : "[".length = 1 ∧ "]".length = 1 := by decide
        omega
      · rw [hunknown]
        decide

/-! ## The controls -/

def ShowsText (C : Curses ω) (win : ω) (attr : Attribute) (cell : Cell)
    (text : String) : Prop :=
  (C.look win).Shows (label attr cell text.toList)

/-- A line of the controls: the name of the bind, and at the right margin the
key.  Only a key without a name covers a part of the name of the bind. -/
structure ShowsBind (C : Curses ω) (input : Input) (line : Int) (bind : Bind)
    (win : ω) (text : String) : Prop where
  labels : Labels input bind text
  key : ShowsText C win .normal (line, 17 - text.length) text
  name : text ≠ "[(unknown)]" →
    ShowsText C win .normal (line, 3) (bindToFriendlyString bind)

variable [C.Lawful]

open Windows Windows.Lawful

variable (C win) in
theorem drawBind_spec {line : Int}
    (hline : 0 ≤ line ∧ line + 1 < 15)
    (hname : (bindToFriendlyString bind).length ≤ 6) (hbind : bind ≠ .none)
    (hlabel : getBindChar input bind = some text)
    (hlabels : Labels input bind text) :
    ∃ win', drawBind C input 20 (line, win) bind = some (line + 1, win') ∧
      C.SamePlace win win' ∧
      (C.size win = (15, 20) → ShowsBind C input (line + 1) bind win' text ∧
        ∀ attr cell other, cell.1 ≤ line → ShowsText C win attr cell other →
          ShowsText C win' attr cell other) := by
  obtain ⟨hlong, hshort⟩ := hlabels.length_le
  generalize hnamed : C.write .normal (line + 1, 3)
    (bindToFriendlyString bind).toList win = named
  have hplace : C.SamePlace win named := hnamed ▸ samePlace_write
  have hcolumn : (20 : Int) - text.length - 3 = 17 - text.length := by omega
  refine ⟨C.write .normal (line + 1, 17 - text.length) text.toList named, ?_,
    hplace.trans samePlace_write, fun hsize => ?_⟩
  · simp only [drawBind, if_neg hbind, hlabel, hnamed, Option.bind_eq_bind,
      Option.bind_some, hcolumn]
  have hsize' : C.size named = (15, 20) := hplace.size.trans hsize
  have hfirst : Holds (C.size win) (line + 1, 3)
      (bindToFriendlyString bind).toList.length := by
    simp only [Holds, hsize, String.length_toList]
    omega
  have hsecond : Holds (C.size named) (line + 1, 17 - (text.length : Int))
      text.toList.length := by
    simp only [Holds, hsize', String.length_toList]
    omega
  refine ⟨{ labels := hlabels, key := shows_write hsecond, name := ?_ }, ?_⟩
  · intro hknown
    refine shows_write_beside ?_ hsecond (.inr (.inl ?_))
    · rw [← hnamed]
      exact shows_write hfirst
    · have hkey := hshort hknown
      simp only [String.length_toList]
      omega
  · intro attr cell other habove hshows
    have hline : cell.1 ≠ line + 1 :=
      Int.ne_of_lt (Int.lt_add_one_of_le habove)
    have hkept : ShowsText C named attr cell other := by
      rw [← hnamed]
      exact shows_write_beside hshows hfirst (.inl hline)
    exact shows_write_beside hkept hsecond (.inl hline)

variable (C win) in
/-- The loop over the binds goes down line by line. -/
theorem foldlM_drawBind (binds : List Bind) (line : Int)
    (hlabel : ∀ bind ≠ .none,
      ∃ text, getBindChar input bind = some text ∧ Labels input bind text)
    (hlines : 0 ≤ line ∧ line + binds.length < 15)
    (hnames : ∀ bind ∈ binds, bind ≠ .none →
      (bindToFriendlyString bind).length ≤ 6) :
    ∃ win', binds.foldlM (drawBind C input 20) (line, win) =
        some (line + binds.length, win') ∧ C.SamePlace win win' ∧
      (C.size win = (15, 20) →
        (∀ (i : Nat) bind, binds[i]? = some bind → bind ≠ .none →
          ∃ text, ShowsBind C input (line + 1 + i) bind win' text) ∧
        ∀ attr cell other, cell.1 ≤ line → ShowsText C win attr cell other →
          ShowsText C win' attr cell other) := by
  induction binds generalizing line win with
  | nil =>
      exact ⟨win, by simp, .refl win, fun _ =>
        ⟨by simp, fun _ _ _ _ hshows => hshows⟩⟩
  | cons bind binds ih =>
      simp only [List.length_cons, Nat.cast_add, Nat.cast_one] at hlines ⊢
      have hhere : 0 ≤ line ∧ line + 1 < 15 := by omega
      have hlater : 0 ≤ line + 1 ∧ line + 1 + (binds.length : Int) < 15 := by
        omega
      have hnames' : ∀ other ∈ binds, other ≠ .none →
          (bindToFriendlyString other).length ≤ 6 := fun other hother =>
        hnames other (List.mem_cons_of_mem _ hother)
      have hend : line + 1 + (binds.length : Int) =
          line + (binds.length + 1) := by omega
      have hindex : ∀ i : Nat, line + 1 + 1 + (i : Int) =
          line + 1 + ((i + 1 : Nat) : Int) := by omega
      by_cases hbind : bind = .none
      · obtain ⟨win', hloop, hplace, hshown⟩ :=
          ih win (line + 1) hlater hnames'
        refine ⟨win', ?_, hplace, fun hsize => ⟨?_, ?_⟩⟩
        · rw [List.foldlM_cons, drawBind, if_pos hbind, ← hend]
          exact hloop
        · intro i other hother hne
          cases i with
          | zero => exact absurd (Option.some.inj hother ▸ hbind) hne
          | succ i => exact hindex i ▸ (hshown hsize).1 i other hother hne
        · intro attr cell other habove hshows
          exact (hshown hsize).2 attr cell other (by omega) hshows
      · obtain ⟨text, htext, hlabels⟩ := hlabel bind hbind
        obtain ⟨win₁, hdraw, hplace₁, hline⟩ := drawBind_spec C win hhere
          (hnames bind List.mem_cons_self hbind) hbind htext hlabels
        obtain ⟨win', hloop, hplace, hshown⟩ :=
          ih win₁ (line + 1) hlater hnames'
        refine ⟨win', ?_, hplace₁.trans hplace, fun hsize => ?_⟩
        · rw [List.foldlM_cons, hdraw, ← hend]
          exact hloop
        obtain ⟨hhead, hkept₁⟩ := hline hsize
        obtain ⟨htail, hkept⟩ := hshown (hplace₁.size.trans hsize)
        refine ⟨?_, ?_⟩
        · intro i other hother hne
          cases i with
          | zero =>
              obtain rfl := Option.some.inj hother
              refine ⟨text, hhead.labels, ?_, fun hknown => ?_⟩
              · exact hkept _ _ _ (by simp) (by simpa using hhead.key)
              · exact hkept _ _ _ (by simp) (by simpa using hhead.name hknown)
          | succ i => exact hindex i ▸ htail i other hother hne
        · intro attr cell other habove hshows
          exact hkept attr cell other (by omega)
            (hkept₁ attr cell other habove hshows)

structure ShowsControls (C : Curses ω) (input : Input) (win : ω) : Prop where
  size : C.size win = (15, 20)
  title : ShowsText C win .normal (2, 6) "CONTROLS"
  binds : ∀ (i : Nat) bind, gameBinds[i]? = some bind → bind ≠ .none →
    ∃ text, ShowsBind C input (4 + i) bind win text

/-- The controls are put beside the playfield that has been drawn. -/
theorem controlsOrigin_eq {fieldWin : ω} (hfield : C.Stands .playfield fieldWin) :
    ((C.origin fieldWin).1, (C.origin fieldWin).2 - 20) =
      WindowTypes.controls.origin C := by
  by_cases hholds : C.HoldsField
  · rw [hfield.origin (hfield.valid_iff.mpr hholds)]
    simp only [WindowTypes.origin, if_pos hholds]
  · have hnull : C.valid fieldWin = false := by
      rwa [← Bool.not_eq_true, hfield.valid_iff]
    rw [origin_null _ hnull]
    simp only [WindowTypes.origin, if_neg hholds]
    rfl

theorem drawControls_spec {bindings : Code → Option Bind}
    (hmap : input.currentMap ≠ .none)
    (hbindings : input.bindings input.currentMap = some bindings)
    (hstands : screen.Stands C) {fieldWin : ω}
    (hfield : screen.windows .playfield = some fieldWin) :
    ∃ win, drawControls C input screen = some (screen.refresh C .controls win) ∧
      C.Stands .controls win ∧
      (C.valid win = true → ShowsControls C input win) := by
  have horigin := controlsOrigin_eq (hstands _ _ hfield)
  generalize hframed : C.border .plain (C.erase (C.move
    ((C.origin fieldWin).1, (C.origin fieldWin).2 - 20)
    (C.window screen .controls (15, 20)
      ((C.origin fieldWin).1, (C.origin fieldWin).2 - 20)))) = framed
  obtain ⟨hstand, -⟩ :=
    hstands.framed .controls .plain rfl horigin.symm hframed
  generalize htitle :
    C.write .normal (2, centre 20 8) "CONTROLS".toList framed = title
  have hplace₁ : C.SamePlace framed title := htitle ▸ samePlace_write
  obtain ⟨win, hloop, hplace, hshown⟩ := foldlM_drawBind C title gameBinds 3
    (fun bind hbind => getBindChar_labels hmap hbindings hbind)
    (by decide) (by decide)
  have hstand' := hstand.of_samePlace (hplace₁.trans hplace)
  refine ⟨win, ?_, hstand', fun hvalid => ?_⟩
  · simp only [drawControls, hfield, hframed, htitle]
    change (gameBinds.foldlM (drawBind C input 20) (3, title)).bind _ = _
    rw [hloop]
    rfl
  have hsize : C.size framed = (15, 20) := by
    rw [← (hplace₁.trans hplace).size]
    exact hstand'.size hvalid
  obtain ⟨hbinds, hkept⟩ := hshown (hplace₁.size.trans hsize)
  refine ⟨hstand'.size hvalid, ?_, hbinds⟩
  refine hkept .normal (2, 6) "CONTROLS" (by decide) ?_
  rw [← htitle]
  refine shows_write ?_
  rw [hsize]
  decide

/-! ## The menu -/

structure ShowsMenu {κ : Type} (C : Curses ω) (m : Menu κ) (win : ω) :
    Prop where
  nodes : ∀ (i : Nat) n, m.nodes[i]? = some n →
    ShowsText C win
      (if m.selected = some (m.data + i) then .standout else .normal)
      (2 * i, centre 16 n.text.length) n.text

variable (C win) in
/-- The nodes up to `k` have been written. -/
theorem foldlM_drawNode {κ : Type} {m : Menu κ}
    (hnodes : m.nodes.length ≤ 5)
    (htexts : ∀ n ∈ m.nodes, n.text.length ≤ 16) {k : Nat}
    (hk : k ≤ m.nodes.length) :
    ∃ win', (List.range k).foldlM (drawNode C m 16) win = some win' ∧
      C.SamePlace win win' ∧
      (C.size win = (10, 16) → ∀ i < k, ∀ n, m.nodes[i]? = some n →
        ShowsText C win'
          (if m.selected = some (m.data + i) then .standout else .normal)
          (2 * i, centre 16 n.text.length) n.text) := by
  induction k with
  | zero => exact ⟨win, rfl, .refl win, by simp⟩
  | succ k ih =>
      obtain ⟨win₁, hloop, hplace, hshown⟩ := ih (by omega)
      have hnode : m.nodes[k]? = some m.nodes[k] :=
        List.getElem?_eq_getElem (by omega)
      have htext := htexts m.nodes[k] (List.getElem_mem _)
      generalize m.nodes[k] = n at hnode htext
      have haddr : m.at? k = some (m.data + k) := if_pos (by omega)
      have hcentre : centre 16 n.text.length = (16 - n.text.length) / 2 :=
        Int.tdiv_eq_ediv_of_nonneg (by omega)
      have hloop' : (List.range (k + 1)).foldlM (drawNode C m 16) win =
          some (C.write
            (if m.selected = some (m.data + k) then .standout else .normal)
            (2 * k, centre 16 n.text.length) n.text.toList win₁) := by
        rw [List.range_succ, List.foldlM_append, hloop, Option.bind_eq_bind,
          Option.bind_some, List.foldlM_cons, drawNode, hnode, haddr]
        rfl
      refine ⟨_, hloop', hplace.trans samePlace_write, fun hsize => ?_⟩
      have hholds : Holds (C.size win₁)
          (2 * (k : Int), centre 16 n.text.length) n.text.toList.length := by
        simp only [Holds, hplace.size, hsize, hcentre, String.length_toList]
        omega
      intro i hi other hother
      rcases Nat.lt_succ_iff_lt_or_eq.mp hi with hlt | rfl
      · exact shows_write_beside (hshown hsize i hlt other hother) hholds
          (.inl (by simp only; omega))
      · rw [hnode] at hother
        obtain rfl := Option.some.inj hother
        exact shows_write hholds

/-- Room for the nodes of the menu. -/
def Curses.HoldsMenu (C : Curses ω) : Prop := 10 ≤ C.lines ∧ 16 ≤ C.cols

/-- The menu can be read on the terminal. -/
structure MenuShown {κ : Type} (C : Curses ω) (m : Menu κ)
    (screen : Screen ω) : Prop where
  window : ∃ win, screen.terminal = [win] ∧
    C.Covers (C.origin win) (C.size win) ∧ ShowsMenu C m win

variable (C screen) in
theorem rendererMain_spec {κ : Type} {m : Menu κ}
    (hnodes : m.nodes.length ≤ 5)
    (htexts : ∀ n ∈ m.nodes, n.text.length ≤ 16) :
    ∃ screen', rendererMain C m screen = some screen' ∧
      screen'.windows = screen.windows ∧
      (MenuShown C m screen' ↔ C.HoldsMenu) := by
  generalize hcreated : C.create (10, 16)
    ((3 * centre C.lines 10).tdiv 2, centre C.cols 16) = created
  obtain ⟨win, hloop, hplace, hshown⟩ :=
    foldlM_drawNode C created hnodes htexts (Nat.le_refl _)
  have hvalid : C.valid win = true ↔
      0 ≤ (3 * centre C.lines 10).tdiv 2 ∧ 0 ≤ centre C.cols 16 := by
    rw [hplace.valid, ← hcreated]
    exact valid_create _ _ (by decide) (by decide) (by decide) (by decide)
  have hsize : C.valid win = true → C.size win = (10, 16) := fun hwin => by
    rw [hplace.valid, ← hcreated] at hwin
    rw [hplace.size, ← hcreated]
    exact size_create _ _ hwin (by decide) (by decide)
  refine ⟨{ screen.clear with terminal := C.shown win }, ?_, rfl, ?_⟩
  · rw [rendererMain, hcreated, hloop]
    rfl
  constructor
  · rintro ⟨other, hterminal, ⟨htop, hbottom, hleft, hright⟩, -⟩
    obtain ⟨hwin, rfl⟩ : C.valid win = true ∧ win = other := by
      rw [Curses.shown] at hterminal
      split_ifs at hterminal with hwin
      exact ⟨hwin, List.singleton_inj.mp hterminal⟩
    rw [hsize hwin] at hbottom hright
    exact ⟨by omega, by omega⟩
  · rintro ⟨hlines, hcols⟩
    have hshort : Short C.lines := short_lines
    have hshort' : Short C.cols := short_cols
    have hline : centre C.lines 10 = (C.lines - 10) / 2 :=
      Int.tdiv_eq_ediv_of_nonneg (by omega)
    have hcol : centre C.cols 16 = (C.cols - 16) / 2 :=
      Int.tdiv_eq_ediv_of_nonneg (by omega)
    have hthree : (3 * centre C.lines 10).tdiv 2 = 3 * ((C.lines - 10) / 2) / 2 := by
      rw [hline]
      exact Int.tdiv_eq_ediv_of_nonneg (by omega)
    have hwin : C.valid win = true := hvalid.mpr ⟨by omega, by omega⟩
    have horigin : C.origin win =
        (3 * ((C.lines - 10) / 2) / 2, (C.cols - 16) / 2) := by
      rw [hplace.valid, ← hcreated] at hwin
      rw [hplace.origin, ← hcreated, origin_create _ _ hwin, hthree, hcol]
      · simp only [Short, hthree] at hshort ⊢
        omega
      · simp only [Short, hcol] at hshort' ⊢
        omega
    refine ⟨win, by rw [Curses.shown, if_pos hwin], ?_, ⟨fun i n hnode => ?_⟩⟩
    · simp only [Windows.Covers, horigin, hsize hwin]
      omega
    · refine hshown ?_ i (List.getElem?_eq_some_iff.mp hnode).1 n hnode
      rw [← hplace.size]
      exact hsize hwin

end Grzetris
