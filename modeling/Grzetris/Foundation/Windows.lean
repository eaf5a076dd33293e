import Grzetris.Foundation.Transcript
import Mathlib.Algebra.Order.Ring.Int
import Mathlib.Tactic.SplitIfs

/-!
# Windows of characters

What a program relies on that draws on a terminal: windows are created at a
place, moved, erased, framed and written to line by line.  A window is read as a
picture of its cells, each of which shows a character with an attribute.  A block
that covers many cells is written row by row, so drawing the points of a picture
as such blocks shows the picture magnified.
-/

namespace Foundation

/-! ## Layers -/

namespace Picture

variable {κ α : Type*}

/-- The upper picture, with the lower one seen through it. -/
def onto (upper lower : Picture κ α) : Picture κ α :=
  fun point => (upper point).or (lower point)

/-- Whatever `part` shows, `picture` shows as well. -/
def Shows (picture part : Picture κ α) : Prop :=
  ∀ point value, part point = some value → picture point = some value

theorem onto_assoc (first second third : Picture κ α) :
    (first.onto second).onto third = first.onto (second.onto third) := by
  funext point
  exact Option.or_assoc

theorem shows_onto (upper lower : Picture κ α) :
    (upper.onto lower).Shows upper := by
  intro point value hvalue
  rw [onto, hvalue, Option.some_or]

/-- What the upper layer does not cover stays visible. -/
theorem Shows.onto {upper lower part : Picture κ α} (hshows : lower.Shows part)
    (hclear : ∀ point value, part point = some value → upper point = none) :
    (upper.onto lower).Shows part := by
  intro point value hvalue
  rw [Picture.onto, hclear point value hvalue, Option.none_or]
  exact hshows point value hvalue

variable [DecidableEq κ]

/-- The picture of one point. -/
def dot (point : κ) (value : α) : Picture κ α :=
  Function.update blank point (some value)

theorem update_eq_onto (picture : Picture κ α) (point : κ) (value : α) :
    Function.update picture point (some value) =
      (dot point value).onto picture := by
  funext other
  by_cases heq : other = point
  · rw [onto, dot, heq, Function.update_self, Function.update_self,
      Option.some_or]
  · rw [onto, dot, Function.update_of_ne heq, Function.update_of_ne heq]
    rfl

/-- Painting on a picture is painting on a sheet that is laid on it. -/
theorem paint_eq_onto (picture : Picture κ α) (strokes : List (κ × α)) :
    picture.paint strokes = (blank.paint strokes).onto picture := by
  induction strokes generalizing picture with
  | nil => rfl
  | cons stroke strokes ih =>
      rw [paint, paint, ih, ih (Function.update blank stroke.1 _),
        update_eq_onto picture, onto_assoc]
      rfl

/-- A picture is painted by a list of its points and values. -/
theorem Lists.blank_paint_eq {picture : Picture κ α} {strokes : List (κ × α)}
    (hlists : picture.Lists strokes) : blank.paint strokes = picture := by
  funext point
  cases hpicture : picture point with
  | none =>
      apply paint_of_notMem
      intro hmem
      obtain ⟨stroke, hstroke, rfl⟩ := List.mem_map.mp hmem
      rw [(hlists stroke).mp hstroke] at hpicture
      contradiction
  | some value =>
      refine paint_of_agree _ ((hlists (point, value)).mpr hpicture) ?_
      intro other hother
      exact Option.some.inj (((hlists _).mp hother).symm.trans hpicture)

end Picture

/-! ## Windows -/

/-- A line and a column, counted from zero. -/
abbrev Cell := Int × Int

/-- The characters of a border; the library has a default for each. -/
structure Frame (χ : Type*) where
  left : Option χ
  right : Option χ
  top : Option χ
  bottom : Option χ
  topLeft : Option χ
  topRight : Option χ
  bottomLeft : Option χ
  bottomRight : Option χ

def Frame.plain {χ : Type*} : Frame χ :=
  ⟨none, none, none, none, none, none, none, none⟩

/-- The cells that a border leaves free. -/
def Inside (size cell : Cell) : Prop :=
  0 < cell.1 ∧ cell.1 < size.1 - 1 ∧ 0 < cell.2 ∧ cell.2 < size.2 - 1

instance (size cell : Cell) : Decidable (Inside size cell) :=
  inferInstanceAs (Decidable (_ ∧ _ ∧ _ ∧ _))

/-- A text of this length does not reach the end of the line. -/
def Holds (size cell : Cell) (length : Nat) : Prop :=
  0 ≤ cell.1 ∧ cell.1 < size.1 ∧ 0 ≤ cell.2 ∧ cell.2 + length ≤ size.2

instance (size cell : Cell) (length : Nat) :
    Decidable (Holds size cell length) :=
  inferInstanceAs (Decidable (_ ∧ _ ∧ _ ∧ _))

/-- A text, written with an attribute from a cell on. -/
def label {χ α : Type*} (attr : α) (cell : Cell) (text : List χ) :
    Picture Cell (χ × α) :=
  fun other =>
    if other.1 = cell.1 ∧ cell.2 ≤ other.2 then
      text[(other.2 - cell.2).toNat]?.map fun char => (char, attr)
    else none

/-- A library of windows on a terminal of `lines` lines and `cols` columns.  The
program holds pointers `ω` to windows; one that is not `valid` is null. -/
structure Windows (ω χ α : Type*) where
  lines : Int
  cols : Int
  valid : ω → Bool
  /-- A new window of a size, with its first cell at a place of the terminal. -/
  create : Cell → Cell → ω
  move : Cell → ω → ω
  erase : ω → ω
  border : Frame χ → ω → ω
  write : α → Cell → List χ → ω → ω
  size : ω → Cell
  origin : ω → Cell
  look : ω → Picture Cell (χ × α)

variable {ω χ α : Type*}

/-- A block of cells lies on the terminal. -/
def Windows.Covers (W : Windows ω χ α) (origin size : Cell) : Prop :=
  0 ≤ origin.1 ∧ origin.1 + size.1 ≤ W.lines ∧
    0 ≤ origin.2 ∧ origin.2 + size.2 ≤ W.cols

/-- Numbers of lines and columns are kept in sixteen bits. -/
def Short (n : Int) : Prop := -2 ^ 15 ≤ n ∧ n < 2 ^ 15

instance (n : Int) : Decidable (Short n) := inferInstanceAs (Decidable (_ ∧ _))

/-- What a library of windows keeps to, as long as there is memory. -/
class Windows.Lawful (W : Windows ω χ α) : Prop where
  short_lines : Short W.lines
  short_cols : Short W.cols
  valid_create : ∀ size origin, 0 < size.1 → Short size.1 → 0 < size.2 →
    Short size.2 → (W.valid (W.create size origin) = true ↔
      0 ≤ origin.1 ∧ 0 ≤ origin.2)
  size_create : ∀ size origin, W.valid (W.create size origin) = true →
    0 < size.1 → 0 < size.2 → W.size (W.create size origin) = size
  origin_create : ∀ size origin, W.valid (W.create size origin) = true →
    Short origin.1 → Short origin.2 → W.origin (W.create size origin) = origin
  valid_move : ∀ origin w, W.valid (W.move origin w) = W.valid w
  valid_erase : ∀ w, W.valid (W.erase w) = W.valid w
  valid_border : ∀ frame w, W.valid (W.border frame w) = W.valid w
  valid_write : ∀ attr cell text w,
    W.valid (W.write attr cell text w) = W.valid w
  size_null : ∀ w, W.valid w = false → W.size w = (-1, -1)
  size_move : ∀ origin w, W.size (W.move origin w) = W.size w
  size_erase : ∀ w, W.size (W.erase w) = W.size w
  size_border : ∀ frame w, W.size (W.border frame w) = W.size w
  size_write : ∀ attr cell text w,
    W.size (W.write attr cell text w) = W.size w
  origin_null : ∀ w, W.valid w = false → W.origin w = (-1, -1)
  /-- A window is not moved to where a part of it would be off the terminal. -/
  origin_move : ∀ origin w, W.valid w = true →
    (W.Covers origin (W.size w) → W.origin (W.move origin w) = origin) ∧
      (¬ W.Covers origin (W.size w) → W.origin (W.move origin w) = W.origin w)
  origin_erase : ∀ w, W.origin (W.erase w) = W.origin w
  origin_border : ∀ frame w, W.origin (W.border frame w) = W.origin w
  origin_write : ∀ attr cell text w,
    W.origin (W.write attr cell text w) = W.origin w
  look_erase : ∀ w, W.valid w = true → W.look (W.erase w) = Picture.blank
  look_create : ∀ size origin, W.valid (W.create size origin) = true →
    W.look (W.create size origin) = Picture.blank
  look_border : ∀ frame w cell, Inside (W.size w) cell →
    W.look (W.border frame w) cell = W.look w cell
  look_write : ∀ attr cell text w, Holds (W.size w) cell text.length →
    W.look (W.write attr cell text w) =
      (label attr cell text).onto (W.look w)

attribute [simp] Windows.Lawful.valid_move Windows.Lawful.valid_erase
  Windows.Lawful.valid_border Windows.Lawful.valid_write
  Windows.Lawful.size_move Windows.Lawful.size_erase
  Windows.Lawful.size_border Windows.Lawful.size_write
  Windows.Lawful.origin_erase Windows.Lawful.origin_border
  Windows.Lawful.origin_write

/-! ## Texts -/

theorem label_replicate (attr : α) (cell other : Cell) (char : χ)
    (n : Nat) :
    label attr cell (List.replicate n char) other =
      if other.1 = cell.1 ∧ cell.2 ≤ other.2 ∧ other.2 < cell.2 + n then
        some (char, attr)
      else none := by
  rw [label, List.getElem?_replicate]
  split_ifs <;> first | rfl | omega

theorem label_eq_some {attr : α} {cell other : Cell} {text : List χ}
    {value : χ × α} (hlabel : label attr cell text other = some value) :
    other.1 = cell.1 ∧ cell.2 ≤ other.2 ∧
      other.2 < cell.2 + text.length := by
  rw [label] at hlabel
  split_ifs at hlabel with hline
  obtain ⟨char, hchar, -⟩ := Option.map_eq_some_iff.mp hlabel
  have hlt := (List.getElem?_eq_some_iff.mp hchar).1
  omega

/-- Texts in different lines, or one left of the other, do not touch. -/
theorem label_eq_none {attr : α} {cell other : Cell} {text : List χ}
    (hother : other.1 ≠ cell.1 ∨ other.2 < cell.2 ∨
      cell.2 + text.length ≤ other.2) :
    label attr cell text other = none := by
  cases hlabel : label attr cell text other with
  | none => rfl
  | some value =>
      have hcovered := label_eq_some hlabel
      omega

namespace Windows

open Lawful

variable {W : Windows ω χ α} {w w' w'' : ω}

/-- Neither the place nor the size of a window has changed. -/
structure SamePlace (W : Windows ω χ α) (w w' : ω) : Prop where
  valid : W.valid w' = W.valid w
  size : W.size w' = W.size w
  origin : W.origin w' = W.origin w

theorem SamePlace.refl (w : ω) : W.SamePlace w w := ⟨rfl, rfl, rfl⟩

theorem SamePlace.trans (h : W.SamePlace w w') (h' : W.SamePlace w' w'') :
    W.SamePlace w w'' :=
  ⟨h'.valid.trans h.valid, h'.size.trans h.size, h'.origin.trans h.origin⟩

variable [W.Lawful] {attr other : α} {cell place : Cell}
  {text written : List χ}

theorem samePlace_write : W.SamePlace w (W.write attr cell text w) :=
  ⟨valid_write _ _ _ _, size_write _ _ _ _, origin_write _ _ _ _⟩

theorem shows_write (hholds : Holds (W.size w) cell text.length) :
    (W.look (W.write attr cell text w)).Shows (label attr cell text) := by
  rw [look_write _ _ _ _ hholds]
  exact Picture.shows_onto _ _

/-- A text stays readable when another one is written beside it. -/
theorem shows_write_beside (hshows : (W.look w).Shows (label attr cell text))
    (hholds : Holds (W.size w) place written.length)
    (hbeside : cell.1 ≠ place.1 ∨ cell.2 + text.length ≤ place.2 ∨
      place.2 + written.length ≤ cell.2) :
    (W.look (W.write other place written w)).Shows (label attr cell text) := by
  rw [look_write _ _ _ _ hholds]
  refine hshows.onto fun point value hvalue => ?_
  have hcovered := label_eq_some hvalue
  exact label_eq_none (by omega)

end Windows

/-! ## Tiles -/

/-- A plane cut into tiles of `rows` lines and `cols` columns. -/
structure Tiling where
  top : Int
  left : Int
  rows : Nat
  cols : Nat
  rows_pos : 0 < rows
  cols_pos : 0 < cols

namespace Tiling

variable (t : Tiling)

/-- The first cell of a tile. -/
def corner (tile : Cell) : Cell :=
  (t.top + t.rows * tile.1, t.left + t.cols * tile.2)

def tileOf (cell : Cell) : Cell :=
  ((cell.1 - t.top) / t.rows, (cell.2 - t.left) / t.cols)

def magnify {β : Type*} (picture : Picture Cell β) : Picture Cell β :=
  fun cell => picture (t.tileOf cell)

theorem magnify_onto {β : Type*} (upper lower : Picture Cell β) :
    t.magnify (upper.onto lower) =
      (t.magnify upper).onto (t.magnify lower) := rfl

private theorem div_eq_iff {a q : Int} {n : Nat} (hn : 0 < n) :
    a / n = q ↔ n * q ≤ a ∧ a < n * q + n := by
  have hpos : (0 : Int) < n := by omega
  rw [le_antisymm_iff, Int.le_ediv_iff_mul_le hpos, ← Int.lt_add_one_iff,
    Int.ediv_lt_iff_lt_mul hpos, add_mul, one_mul, mul_comm q]
  exact and_comm

theorem tileOf_eq_iff {cell tile : Cell} : t.tileOf cell = tile ↔
    (t.corner tile).1 ≤ cell.1 ∧ cell.1 < (t.corner tile).1 + t.rows ∧
      (t.corner tile).2 ≤ cell.2 ∧
        cell.2 < (t.corner tile).2 + t.cols := by
  rw [tileOf, Prod.ext_iff, div_eq_iff t.rows_pos, div_eq_iff t.cols_pos]
  simp only [corner]
  omega

/-- The tile lies in the window. -/
def Fits (size tile : Cell) : Prop :=
  0 ≤ (t.corner tile).1 ∧ (t.corner tile).1 + t.rows ≤ size.1 ∧
    0 ≤ (t.corner tile).2 ∧ (t.corner tile).2 + t.cols ≤ size.2

end Tiling

namespace Windows

open Lawful

variable (W : Windows ω χ α) (t : Tiling)

/-- Write one row of a tile, full of one character. -/
def fillRow (stroke : Cell × (χ × α)) (w : ω) (row : Nat) : ω :=
  W.write stroke.2.2
    ((t.corner stroke.1).1 + row, (t.corner stroke.1).2)
    (List.replicate t.cols stroke.2.1) w

def fill (w : ω) (stroke : Cell × (χ × α)) : ω :=
  (List.range t.rows).foldl (W.fillRow t stroke) w

variable {W t} [W.Lawful] {w : ω} {stroke : Cell × (χ × α)}

theorem samePlace_fill : W.SamePlace w (W.fill t w stroke) := by
  rw [fill]
  induction t.rows with
  | zero => exact .refl w
  | succ n ih =>
      rw [List.range_succ, List.foldl_append]
      exact ih.trans samePlace_write

theorem samePlace_foldl_fill {strokes : List (Cell × (χ × α))} :
    W.SamePlace w (strokes.foldl (W.fill t) w) := by
  induction strokes generalizing w with
  | nil => exact .refl w
  | cons stroke strokes ih => exact samePlace_fill.trans ih

private theorem foldl_fillRow (hfits : t.Fits (W.size w) stroke.1) {n : Nat}
    (hn : n ≤ t.rows) :
    W.size ((List.range n).foldl (W.fillRow t stroke) w) = W.size w ∧
      ∀ cell, W.look ((List.range n).foldl (W.fillRow t stroke) w) cell =
        if (t.corner stroke.1).1 ≤ cell.1 ∧
            cell.1 < (t.corner stroke.1).1 + n ∧
            (t.corner stroke.1).2 ≤ cell.2 ∧
            cell.2 < (t.corner stroke.1).2 + t.cols then some stroke.2
        else W.look w cell := by
  induction n with
  | zero =>
      refine ⟨rfl, fun cell => ?_⟩
      rw [if_neg (by omega)]
      rfl
  | succ n ih =>
      obtain ⟨hsize, hlook⟩ := ih (by omega)
      rw [List.range_succ, List.foldl_append, List.foldl_cons, List.foldl_nil]
      refine ⟨by rw [fillRow, size_write, hsize], fun cell => ?_⟩
      have hholds : Holds (W.size w)
          ((t.corner stroke.1).1 + n, (t.corner stroke.1).2) t.cols := by
        obtain ⟨htop, hbottom, hleft, hright⟩ := hfits
        exact ⟨by omega, by omega, hleft, hright⟩
      rw [fillRow, look_write _ _ _ _ (by simpa [hsize] using hholds),
        Picture.onto, label_replicate, hlook]
      split_ifs <;> first | rfl | omega

theorem look_fill (hfits : t.Fits (W.size w) stroke.1) :
    W.look (W.fill t w stroke) =
      (t.magnify (Picture.dot stroke.1 stroke.2)).onto (W.look w) := by
  funext cell
  rw [fill, (foldl_fillRow hfits (Nat.le_refl t.rows)).2 cell, Picture.onto,
    Tiling.magnify]
  by_cases htile : t.tileOf cell = stroke.1
  · rw [if_pos (t.tileOf_eq_iff.mp htile), htile, Picture.dot,
      Function.update_self, Option.some_or]
  · rw [if_neg (fun hin => htile (t.tileOf_eq_iff.mpr hin)),
      Picture.dot, Function.update_of_ne htile]
    rfl

/-- Drawing points of a picture as tiles magnifies the picture. -/
theorem look_foldl_fill {strokes : List (Cell × (χ × α))}
    (hfits : ∀ stroke ∈ strokes, t.Fits (W.size w) stroke.1) :
    W.look (strokes.foldl (W.fill t) w) =
      (t.magnify (Picture.blank.paint strokes)).onto (W.look w) := by
  induction strokes generalizing w with
  | nil => rfl
  | cons stroke strokes ih =>
      have hfirst := hfits stroke List.mem_cons_self
      have hsize : W.size (W.fill t w stroke) = W.size w := samePlace_fill.size
      have hlook := ih fun other hother =>
        hsize ▸ hfits other (List.mem_cons_of_mem _ hother)
      rw [List.foldl_cons, hlook, look_fill hfirst, ← Picture.onto_assoc,
        ← Tiling.magnify_onto, ← Picture.paint_eq_onto]
      rfl

end Windows

/-! ## Windows that are pictures -/

/-- The character of a border at a cell. -/
def Frame.at? (frame : Frame χ) (size cell : Cell) : Option χ :=
  if cell.1 = 0 then
    if cell.2 = 0 then frame.topLeft
    else if cell.2 = size.2 - 1 then frame.topRight
    else frame.top
  else if cell.1 = size.1 - 1 then
    if cell.2 = 0 then frame.bottomLeft
    else if cell.2 = size.2 - 1 then frame.bottomRight
    else frame.bottom
  else if cell.2 = 0 then frame.left
  else frame.right

/-- A window with its place, its size and its cells. -/
structure Sheet (χ α : Type*) where
  size : Cell
  origin : Cell
  cells : Picture Cell (χ × α)

/-- Pointers to sheets; `plain` is drawn where a border has no character of its
own. -/
def sheets (lines cols : Int) (plain : χ × α) :
    Windows (Option (Sheet χ α)) χ α where
  lines := lines
  cols := cols
  valid := Option.isSome
  create := fun size origin =>
    if 0 ≤ origin.1 ∧ 0 ≤ origin.2 then some ⟨size, origin, Picture.blank⟩
    else none
  move := fun origin => Option.map fun sheet =>
    if 0 ≤ origin.1 ∧ origin.1 + sheet.size.1 ≤ lines ∧
        0 ≤ origin.2 ∧ origin.2 + sheet.size.2 ≤ cols then
      { sheet with origin := origin }
    else sheet
  erase := Option.map fun sheet => { sheet with cells := Picture.blank }
  border := fun frame => Option.map fun sheet =>
    { sheet with cells := fun cell =>
        if Inside sheet.size cell then sheet.cells cell
        else some ((frame.at? sheet.size cell).getD plain.1, plain.2) }
  write := fun attr cell text => Option.map fun sheet =>
    { sheet with cells := (label attr cell text).onto sheet.cells }
  size := fun w => w.elim (-1, -1) Sheet.size
  origin := fun w => w.elim (-1, -1) Sheet.origin
  look := fun w => w.elim Picture.blank Sheet.cells

theorem sheets_lawful {lines cols : Int} (plain : χ × α)
    (hlines : Short lines) (hcols : Short cols) :
    (sheets lines cols plain).Lawful where
  short_lines := hlines
  short_cols := hcols
  valid_create := by
    intro size origin _ _ _ _
    by_cases h : 0 ≤ origin.1 ∧ 0 ≤ origin.2 <;> simp [sheets, h]
  size_create := by
    intro size origin hvalid _ _
    by_cases h : 0 ≤ origin.1 ∧ 0 ≤ origin.2 <;> simp_all [sheets]
  origin_create := by
    intro size origin hvalid _ _
    by_cases h : 0 ≤ origin.1 ∧ 0 ≤ origin.2 <;> simp_all [sheets]
  look_create := by
    intro size origin hvalid
    by_cases h : 0 ≤ origin.1 ∧ 0 ≤ origin.2 <;> simp_all [sheets]
  valid_move := fun _ w => by cases w <;> rfl
  valid_erase := fun w => by cases w <;> rfl
  valid_border := fun _ w => by cases w <;> rfl
  valid_write := fun _ _ _ w => by cases w <;> rfl
  size_null := fun w hnull => by
    cases w with
    | none => rfl
    | some _ => contradiction
  size_move := by
    rintro origin (_ | sheet)
    · rfl
    · simp only [sheets, Option.map_some, Option.elim_some]
      split_ifs <;> rfl
  size_erase := fun w => by cases w <;> rfl
  size_border := fun _ w => by cases w <;> rfl
  size_write := fun _ _ _ w => by cases w <;> rfl
  origin_null := fun w hnull => by
    cases w with
    | none => rfl
    | some _ => contradiction
  origin_move := by
    rintro origin (_ | sheet) hvalid
    · contradiction
    · exact ⟨fun hcovers => congrArg Sheet.origin (if_pos hcovers),
        fun hcovers => congrArg Sheet.origin (if_neg hcovers)⟩
  origin_erase := fun w => by cases w <;> rfl
  origin_border := fun _ w => by cases w <;> rfl
  origin_write := fun _ _ _ w => by cases w <;> rfl
  look_erase := by
    rintro (_ | sheet) hvalid
    · contradiction
    · rfl
  look_border := by
    rintro frame (_ | sheet) cell hinside
    · rfl
    · exact if_pos hinside
  look_write := by
    rintro attr cell text (_ | sheet) hholds
    · obtain ⟨hline, hlines, -⟩ := hholds
      have habove : (0 : Int) < -1 := hline.trans_lt hlines
      contradiction
    · rfl

end Foundation
