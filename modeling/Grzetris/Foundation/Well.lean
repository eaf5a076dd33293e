import Grzetris.Foundation.Rows
import Mathlib.Data.List.Count

/-!
# Wells

A well is a rectangle of cells, each of them empty or filled with a value.  A
cell is named by its row and its column, and rows are counted from the top.
Cells are filled, and full rows are cleared: the rows above a cleared row move
down, and empty rows take their place.
-/

namespace Foundation

structure Well (α : Type*) where
  height : Int
  width : Int
  rows : Rows (Option α)
  rect : rows.IsRect height width

namespace Well

variable {α β : Type*} {w : Well α} {y x : Int} {cells : List (Int × Int)}
  {a : α}

def look (w : Well α) (y x : Int) : Option α := (w.rows.get? y x).join

/-- The cell is inside the well and empty. -/
def Free (w : Well α) (cell : Int × Int) : Prop :=
  w.rows.get? cell.1 cell.2 = some none

instance (w : Well α) (cell : Int × Int) : Decidable (w.Free cell) :=
  match hget : w.rows.get? cell.1 cell.2 with
  | some none => .isTrue hget
  | none => .isFalse (by simp [Free, hget])
  | some (some _) => .isFalse (by simp [Free, hget])

def empty (height width : Nat) : Well α where
  height := height
  width := width
  rows := Rows.replicate height width none
  rect := Rows.isRect_replicate height width none

theorem get?_eq (hin : Rows.Within w.height w.width y x) :
    w.rows.get? y x = some (w.look y x) := by
  obtain ⟨content, hget⟩ := w.rect.exists_get? hin
  rw [look, hget, Option.join_some]

theorem look_eq_none (hout : ¬ Rows.Within w.height w.width y x) :
    w.look y x = none := by
  rw [look, w.rect.get?_eq_none hout, Option.join_none]

theorem free_iff {cell : Int × Int} : w.Free cell ↔
    Rows.Within w.height w.width cell.1 cell.2 ∧
      w.look cell.1 cell.2 = none := by
  constructor
  · intro hfree
    refine ⟨w.rect.get?_isSome.mp (by rw [hfree]; rfl), ?_⟩
    rw [look, hfree, Option.join_some]
  · rintro ⟨hin, hlook⟩
    rw [Free, get?_eq hin, hlook]

@[simp] theorem look_empty (height width : Nat) (y x : Int) :
    (empty height width : Well α).look y x = none := by
  rw [look]
  cases hget : (empty height width : Well α).rows.get? y x with
  | none => rfl
  | some content => rw [Rows.get?_replicate hget, Option.join_some]

/-! ## Filling cells -/

def fillCell (w : Well α) (a : α) (cell : Int × Int) : Well α :=
  match hset : w.rows.set? cell.1 cell.2 (some a) with
  | none => w
  | some rows => { w with rows := rows, rect := w.rect.set? hset }

/-- Cells outside the well are not filled. -/
def fill (w : Well α) (a : α) (cells : List (Int × Int)) : Well α :=
  cells.foldl (fun w cell => w.fillCell a cell) w

theorem fillCell_rows {rows : Rows (Option α)} {cell : Int × Int}
    (hset : w.rows.set? cell.1 cell.2 (some a) = some rows) :
    (w.fillCell a cell).rows = rows := by
  unfold fillCell
  split
  · rename_i hnone
    rw [hnone] at hset
    contradiction
  · rename_i rows' hrows
    rw [hrows] at hset
    exact Option.some_inj.mp hset

@[simp] theorem fillCell_height (w : Well α) (a : α) (cell : Int × Int) :
    (w.fillCell a cell).height = w.height := by
  unfold fillCell
  split <;> rfl

@[simp] theorem fillCell_width (w : Well α) (a : α) (cell : Int × Int) :
    (w.fillCell a cell).width = w.width := by
  unfold fillCell
  split <;> rfl

@[simp] theorem fill_height (w : Well α) (a : α) (cells : List (Int × Int)) :
    (w.fill a cells).height = w.height := by
  induction cells generalizing w with
  | nil => rfl
  | cons cell cells ih => exact (ih (w.fillCell a cell)).trans (by simp)

@[simp] theorem fill_width (w : Well α) (a : α) (cells : List (Int × Int)) :
    (w.fill a cells).width = w.width := by
  induction cells generalizing w with
  | nil => rfl
  | cons cell cells ih => exact (ih (w.fillCell a cell)).trans (by simp)

theorem look_fillCell {cell : Int × Int}
    (hin : Rows.Within w.height w.width cell.1 cell.2) (y x : Int) :
    (w.fillCell a cell).look y x =
      if (y, x) = cell then some a else w.look y x := by
  obtain ⟨rows, hset⟩ := w.rect.exists_set? hin (some a)
  rw [look, fillCell_rows hset, Rows.get?_set? hset]
  by_cases heq : (y, x) = cell
  · subst heq
    simp
  · have hne : ¬ (y = cell.1 ∧ x = cell.2) := by
      rintro ⟨rfl, rfl⟩
      exact heq rfl
    rw [if_neg hne, if_neg heq, look]

theorem look_fill
    (hin : ∀ cell ∈ cells, Rows.Within w.height w.width cell.1 cell.2)
    (y x : Int) :
    (w.fill a cells).look y x =
      if (y, x) ∈ cells then some a else w.look y x := by
  induction cells generalizing w with
  | nil => simp [fill]
  | cons cell cells ih =>
      rw [List.forall_mem_cons] at hin
      have htail := ih (w := w.fillCell a cell) (by simpa using hin.2)
      have hhead := look_fillCell (a := a) hin.1 y x
      rw [fill, List.foldl_cons, ← fill, htail, hhead]
      by_cases hcell : (y, x) = cell <;> by_cases hcells : (y, x) ∈ cells <;>
        simp [hcell, hcells]

/-- A well is known by its size and by what its cells show. -/
theorem rows_ext {rows : Rows (Option α)} (hr : rows.IsRect w.height w.width)
    (hlook : ∀ y x, w.look y x = (rows.get? y x).join) : w.rows = rows := by
  apply w.rect.ext hr
  intro y x hin
  obtain ⟨content, hget⟩ := hr.exists_get? hin
  rw [get?_eq hin, hlook, hget, Option.join_some]

/-! ## Counting -/

def count (w : Well α) : Nat := w.rows.flatten.countP Option.isSome

@[simp] theorem count_empty (height width : Nat) :
    (empty height width : Well α).count = 0 := by
  rw [count, List.countP_eq_zero]
  intro content hmem
  obtain ⟨row, hrow, hcontent⟩ := List.mem_flatten.mp hmem
  have hrow' := List.eq_of_mem_replicate hrow
  rw [hrow'] at hcontent
  simp [List.eq_of_mem_replicate hcontent]

theorem free_fillCell {cell : Int × Int} (hcell : w.Free cell)
    (hfree : ∀ other ∈ cells, w.Free other) (hnot : cell ∉ cells) :
    ∀ other ∈ cells, (w.fillCell a cell).Free other := by
  intro other hother
  have hne : (other.1, other.2) ≠ cell := fun heq => hnot (heq ▸ hother)
  rw [free_iff, fillCell_height, fillCell_width,
    look_fillCell (free_iff.mp hcell).1, if_neg hne]
  exact free_iff.mp (hfree other hother)

theorem count_fillCell {cell : Int × Int} (hfree : w.Free cell) :
    (w.fillCell a cell).count = w.count + 1 := by
  obtain ⟨above, left, right, below, hrows, hset⟩ :=
    Rows.exists_split_of_get? hfree
  rw [count, fillCell_rows (hset (some a)), count, hrows]
  simp
  omega

/-- Filling free cells, no two of them the same, adds one for each. -/
theorem count_fill (hfree : ∀ cell ∈ cells, w.Free cell)
    (hdistinct : cells.Nodup) :
    (w.fill a cells).count = w.count + cells.length := by
  induction cells generalizing w with
  | nil => rfl
  | cons cell cells ih =>
      rw [List.forall_mem_cons] at hfree
      rw [List.nodup_cons] at hdistinct
      have htail := ih (w := w.fillCell a cell)
        (free_fillCell hfree.1 hfree.2 hdistinct.1) hdistinct.2
      rw [fill, List.foldl_cons, ← fill, htail, count_fillCell hfree.1,
        List.length_cons]
      omega

/-! ## Clearing rows -/

def fullRow (row : List (Option α)) : Bool := row.all Option.isSome

def blankRow (width : Int) : List (Option α) := List.replicate width.toNat none

def fullRows (w : Well α) : Nat := w.rows.countP fullRow

def keptRows (w : Well α) : Rows (Option α) :=
  w.rows.filter fun row => !fullRow row

def clearedRows (w : Well α) : Rows (Option α) :=
  List.replicate w.fullRows (blankRow w.width) ++ w.keptRows

theorem fullRows_add_keptRows (w : Well α) :
    w.fullRows + w.keptRows.length = w.rows.length := by
  have hsplit := List.length_eq_countP_add_countP fullRow (l := w.rows)
  simp only [Bool.not_eq_true, Bool.decide_eq_false] at hsplit
  rw [fullRows, keptRows, ← List.countP_eq_length_filter]
  exact hsplit.symm

theorem length_blankRow (hrows : w.rows ≠ []) :
    ((blankRow w.width : List (Option α)).length : Int) = w.width := by
  obtain ⟨row, hrow⟩ := List.exists_mem_of_ne_nil _ hrows
  have hwidth := w.rect.width row hrow
  rw [blankRow, List.length_replicate]
  omega

theorem clearedRows_isRect (w : Well α) :
    w.clearedRows.IsRect w.height w.width := by
  constructor
  · have hsplit := w.fullRows_add_keptRows
    have hheight := w.rect.height
    rw [clearedRows, List.length_append, List.length_replicate]
    omega
  · intro row hrow
    rcases List.mem_append.mp hrow with hblank | hkept
    · obtain ⟨hfull, rfl⟩ := List.mem_replicate.mp hblank
      apply length_blankRow
      intro hnil
      simp [fullRows, hnil] at hfull
    · exact w.rect.width row (List.mem_of_mem_filter hkept)

/-- The full rows go, and as many empty ones come in at the top. -/
def clear (w : Well α) : Well α :=
  { w with rows := w.clearedRows, rect := w.clearedRows_isRect }

private theorem countP_of_fullRow {row : List (Option α)}
    (hfull : fullRow row = true) : row.countP Option.isSome = row.length :=
  List.countP_eq_length.mpr (List.all_eq_true.mp hfull)

private theorem count_kept (rows : Rows (Option α)) {width : Int}
    (hwidth : ∀ row ∈ rows, (row.length : Int) = width) :
    ((rows.filter fun row => !fullRow row).flatten.countP Option.isSome : Int) +
        rows.countP fullRow * width = rows.flatten.countP Option.isSome := by
  induction rows with
  | nil => simp
  | cons row rows ih =>
      rw [List.forall_mem_cons] at hwidth
      have htail := ih hwidth.2
      have hrow := hwidth.1
      cases hfull : fullRow row with
      | true =>
          have hcount := countP_of_fullRow hfull
          simp only [List.filter_cons, hfull, Bool.not_true,
            Bool.false_eq_true, if_false, List.countP_cons, if_true,
            List.flatten_cons, List.countP_append, hcount]
          push_cast
          rw [Int.add_mul]
          omega
      | false =>
          simp only [List.filter_cons, hfull, Bool.not_false, if_true,
            List.countP_cons, Bool.false_eq_true, if_false, Nat.add_zero,
            List.flatten_cons, List.countP_append]
          push_cast
          omega

/-- A cleared row takes a full row of values away. -/
theorem count_clear (w : Well α) :
    (w.clear.count : Int) + w.fullRows * w.width = w.count := by
  have hkept := count_kept w.rows w.rect.width
  have hblank : (List.replicate w.fullRows
      (blankRow w.width : List (Option α))).flatten.countP Option.isSome =
        0 := by
    simp [blankRow]
  have hclear : w.clear.count =
      w.keptRows.flatten.countP Option.isSome := by
    change w.clearedRows.flatten.countP Option.isSome = _
    rw [clearedRows, List.flatten_append, List.countP_append, hblank,
      Nat.zero_add]
  rw [hclear]
  exact hkept

theorem fullRow_blankRow {width : Int} (hwidth : 1 ≤ width) :
    fullRow (blankRow width : List (Option α)) = false := by
  have hpos : width.toNat ≠ 0 := by omega
  simp [fullRow, blankRow, hpos]

theorem fullRows_empty (height : Nat) {width : Nat} (hwidth : 1 ≤ width) :
    (empty height width : Well α).fullRows = 0 := by
  rw [fullRows, List.countP_eq_zero]
  intro row hrow
  have hblank : row = blankRow width := List.eq_of_mem_replicate hrow
  simp [hblank, fullRow_blankRow (Int.ofNat_le.mpr hwidth)]

theorem fullRows_clear (hwidth : 1 ≤ w.width) : w.clear.fullRows = 0 := by
  rw [fullRows, List.countP_eq_zero]
  intro row hrow
  rcases List.mem_append.mp hrow with hblank | hkept
  · obtain ⟨-, rfl⟩ := List.mem_replicate.mp hblank
    simp [fullRow_blankRow hwidth]
  · simpa using (List.mem_filter.mp hkept).2

theorem fullRows_fillCell_le {cell : Int × Int} (hfree : w.Free cell) :
    (w.fillCell a cell).fullRows ≤ w.fullRows + 1 := by
  obtain ⟨above, left, right, below, hrows, hset⟩ :=
    Rows.exists_split_of_get? hfree
  rw [fullRows, fillCell_rows (hset (some a)), fullRows, hrows]
  simp only [List.countP_append, List.countP_cons]
  split <;> split <;> omega

/-- A cell completes one row at most. -/
theorem fullRows_fill_le (hfree : ∀ cell ∈ cells, w.Free cell)
    (hdistinct : cells.Nodup) :
    (w.fill a cells).fullRows ≤ w.fullRows + cells.length := by
  induction cells generalizing w with
  | nil => exact Nat.le_refl _
  | cons cell cells ih =>
      rw [List.forall_mem_cons] at hfree
      rw [List.nodup_cons] at hdistinct
      have htail := ih (w := w.fillCell a cell)
        (free_fillCell hfree.1 hfree.2 hdistinct.1) hdistinct.2
      have hcell := fullRows_fillCell_le (a := a) hfree.1
      rw [fill, List.foldl_cons, ← fill, List.length_cons]
      omega

/-- Where no row is full, every row has a free cell. -/
theorem exists_free (hnone : w.fullRows = 0) (hy : 0 ≤ y)
    (hheight : y < w.height) : ∃ x, w.Free (y, x) := by
  have hrows := w.rect.height
  have hlt : y.toNat < w.rows.length := by omega
  have hfull := List.countP_eq_zero.mp hnone _ (List.getElem_mem hlt)
  simp only [fullRow, List.all_eq_true, not_forall, Bool.not_eq_true,
    Option.isSome_eq_false_iff, Option.isNone_iff_eq_none] at hfull
  obtain ⟨content, hmem, rfl⟩ := hfull
  obtain ⟨x, hx, hcell⟩ := List.mem_iff_getElem.mp hmem
  refine ⟨x, ?_⟩
  simp [Free, Rows.get?, hy, List.getElem?_eq_getElem hlt,
    List.getElem?_eq_getElem hx, hcell]

theorem look_top {row : List (Option α)} {rest : Rows (Option α)}
    (hrows : w.rows = row :: rest) (hx : 0 ≤ x) :
    w.look 0 x = row[x.toNat]?.join := by
  simp [look, Rows.get?, hrows, hx]

/-- Nothing comes into an empty cell of the top row. -/
theorem look_clear_top (hempty : w.look 0 x = none) :
    w.clear.look 0 x = none := by
  by_cases hin : Rows.Within w.height w.width 0 x
  · obtain ⟨-, hheight, hx, hwidth⟩ := hin
    have hrows := w.rect.height
    obtain ⟨row, rest, hrow⟩ :=
      List.exists_cons_of_length_pos (l := w.rows) (by omega)
    have hlength := w.rect.width row (by simp [hrow])
    rw [look_top hrow hx, List.getElem?_eq_getElem (by omega),
      Option.join_some] at hempty
    have hopen : fullRow row = false := by
      rw [fullRow, List.all_eq_false]
      exact ⟨_, List.getElem_mem _, by rw [hempty]; simp⟩
    by_cases hfull : w.fullRows = 0
    · have hkept : w.clearedRows = row :: w.rows.tail.filter
          fun row => !fullRow row := by
        rw [clearedRows, hfull, keptRows, hrow]
        simp [hopen]
      rw [look_top (w := w.clear) hkept hx,
        List.getElem?_eq_getElem (by omega), hempty, Option.join_some]
    · obtain ⟨k, hk⟩ := Nat.exists_eq_succ_of_ne_zero hfull
      have hblank : w.clearedRows = blankRow w.width ::
          (List.replicate k (blankRow w.width) ++ w.keptRows) := by
        rw [clearedRows, hk, List.replicate_succ, List.cons_append]
      rw [look_top (w := w.clear) hblank hx, blankRow]
      cases hget : (List.replicate w.width.toNat
          (none : Option α))[x.toNat]? with
      | none => rfl
      | some content =>
          rw [List.eq_of_mem_replicate (List.mem_of_getElem? hget)]
          rfl
  · exact look_eq_none (w := w.clear) hin

end Well

end Foundation
