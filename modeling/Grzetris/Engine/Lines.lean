import Grzetris.Engine.Placement

/-!
# Filled rows

`hasFilledRow`, `checkFilledRows`, `clearFilledRows` and `clearRow`.
-/

namespace Grzetris

open Foundation Playfield

def hasFilledRow (p : Playfield) : Bool :=
  p.blocks.any fun row =>
    let hasNullBlock := row.any fun block => block.isNone
    !hasNullBlock

def checkFilledRows (p : Playfield) : List Bool :=
  p.blocks.map fun row =>
    let isRowFilled := row.all fun block => block.isSome
    isRowFilled

/-- One round of the loop of `clearRow`, for row `y + 1`. -/
def shiftRow (p : Playfield) (y : Nat) : Option Playfield := do
  -- Delete the row about to be replaced.
  let p ← (List.range p.w.toNat).foldlM
    (fun p (x : Nat) => deleteBlock p ⟨x, y + 1⟩) p
  -- Swap the rows: for a moment both hold the same pointers.
  let blocks ← p.blocks.copyRow? (y + 1) y
  let p := { p with blocks := blocks }
  -- Mark the row which got swapped down as empty.
  (List.range p.w.toNat).foldlM
    (fun p (x : Nat) => p.setCell? ⟨x, y⟩ none) p

/-- The loop stops at row 1, so nothing is done for index 0. -/
def clearRow (p : Playfield) : Nat → Option Playfield
  | 0 => some p
  | y + 1 => do
      let p ← shiftRow p y
      clearRow p y

def clearFilledRows (p : Playfield) (rows : List Bool) :
    Option (Int × Playfield) :=
  (List.range p.h.toNat).foldlM
    (fun (numCleared, p) i => do
      if ← rows[i]? then
        let p ← clearRow p i
        some (numCleared + 1, p)
      else
        some (numCleared, p))
    ((0 : Int), p)

/-! ## One round -/

variable {p p' : Playfield}

def rowCells (y : Nat) (columns : List Nat) : List Vect2D :=
  columns.map fun x : Nat => ⟨x, y⟩

private theorem mem_rowCells {w : Int} {y : Nat} {pos : Vect2D} :
    pos ∈ rowCells y (List.range w.toNat) ↔
      pos.y = y ∧ 0 ≤ pos.x ∧ pos.x < w := by
  simp only [rowCells, List.mem_map, List.mem_range]
  constructor
  · rintro ⟨x, hx, rfl⟩
    refine ⟨rfl, ?_, ?_⟩ <;> simp only <;> omega
  · rintro ⟨hy, hx, hw⟩
    exact ⟨pos.x.toNat, by omega, Vect2D.ext (by simp only; omega) hy.symm⟩

private theorem inBounds_of_column {y x : Nat} (hy : (y : Int) < p.h)
    (hx : (x : Int) < p.w) : p.InBounds ⟨x, y⟩ := by
  rw [inBounds_iff]
  simp only
  omega

theorem deleteCells_spec (hr : p.Rect) (y : Nat) (hy : (y : Int) < p.h)
    (columns : List Nat) (hin : ∀ x ∈ columns, (x : Int) < p.w) :
    ∃ p', columns.foldlM (fun p (x : Nat) => deleteBlock p ⟨x, y⟩) p = some p' ∧
      p.Becomes p' (p.look.erase (rowCells y columns)) ∧
      p'.heap.next = p.heap.next :=
  eraseAll_spec (fun x : Nat => ⟨x, y⟩)
    (fun _ _ hr hin => deleteBlock_spec hr hin) columns hr
    (fun x hx => inBounds_of_column hy (hin x hx))

private theorem blankCell_spec {pos : Vect2D} (hr : p.Rect)
    (hin : p.InBounds pos) :
    ∃ p', p.setCell? pos none = some p' ∧ p.Becomes p' (p.look.erase [pos]) ∧
      p'.heap.next = p.heap.next := by
  rcases hr.setCell?_spec hin none with ⟨p', hset, hbecomes, hheap⟩
  refine ⟨p', hset, ?_, congrArg Heap.next hheap⟩
  rw [Picture.erase_cons, Picture.erase_nil]
  exact hbecomes

private theorem blankCells_spec (hr : p.Rect) (y : Nat) (hy : (y : Int) < p.h)
    (columns : List Nat) (hin : ∀ x ∈ columns, (x : Int) < p.w) :
    ∃ p', columns.foldlM (fun p (x : Nat) => p.setCell? ⟨x, y⟩ none) p =
        some p' ∧
      p.Becomes p' (p.look.erase (rowCells y columns)) ∧
      p'.heap.next = p.heap.next :=
  eraseAll_spec (fun x : Nat => ⟨x, y⟩)
    (fun _ _ hr hin => blankCell_spec hr hin) columns hr
    (fun x hx => inBounds_of_column hy (hin x hx))

def shiftedPicture (picture : Picture Vect2D BlockRef) (y : Nat) :
    Picture Vect2D BlockRef :=
  fun pos =>
    if pos.y = y + 1 then picture ⟨pos.x, y⟩
    else if pos.y = y then none
    else picture pos

/-- Row `y + 1` is erased, row `y` is copied to it and then erased itself. -/
private theorem shiftedPicture_eq {picture : Picture Vect2D BlockRef} {y : Nat}
    {w : Int}
    (houtside : ∀ pos : Vect2D, pos.y = y →
      pos ∉ rowCells y (List.range w.toNat) → picture pos = none) :
    Picture.erase
        (fun pos : Vect2D =>
          picture.erase (rowCells (y + 1) (List.range w.toNat))
            (if pos.y = y + 1 then ⟨pos.x, y⟩ else pos))
        (rowCells y (List.range w.toNat)) =
      shiftedPicture picture y := by
  have hkeep : ∀ pos : Vect2D, pos.y ≠ y + 1 →
      picture.erase (rowCells (y + 1) (List.range w.toNat)) pos =
        picture pos := by
    intro pos hne
    apply Picture.erase_of_notMem
    intro hmem
    exact hne (by simpa using (mem_rowCells.mp hmem).1)
  funext pos
  by_cases hrow : pos ∈ rowCells y (List.range w.toNat)
  · have hy := (mem_rowCells.mp hrow).1
    have hne : pos.y ≠ y + 1 := by omega
    rw [Picture.erase_of_mem hrow, shiftedPicture, if_neg hne, if_pos hy]
  · rw [Picture.erase_of_notMem hrow, shiftedPicture]
    by_cases hbelow : pos.y = y + 1
    · rw [if_pos hbelow, if_pos hbelow, hkeep _ (by simp only; omega)]
    · rw [if_neg hbelow, if_neg hbelow, hkeep pos hbelow]
      split
      · -- Row `y` is erased between the walls, and blank outside them.
        rename_i hy
        exact houtside pos hy hrow
      · rfl

theorem shiftRow_spec (hr : p.Rect) {y : Nat} (hy : (y : Int) + 1 < p.h) :
    ∃ p', shiftRow p y = some p' ∧ p.Becomes p' (shiftedPicture p.look y) ∧
      p'.heap.next = p.heap.next := by
  obtain ⟨p₁, hdelete, hfirst, hnext⟩ := deleteCells_spec hr (y + 1)
    (by push_cast; exact hy) (List.range p.w.toNat)
    (fun x hx => by have := List.mem_range.mp hx; omega)
  obtain ⟨blocks, hcopy⟩ := hfirst.rect.exists_copyRow? (y + 1) y
    (by rw [hfirst.h_eq]; push_cast; exact hy)
    (by rw [hfirst.h_eq]; omega)
  have hr₂ : Playfield.Rect { p₁ with blocks := blocks } :=
    hfirst.rect.copyRow? hcopy
  obtain ⟨p₃, hblank, hsecond, hheap⟩ := blankCells_spec hr₂ y
    (by simp only [hfirst.h_eq]; omega) (List.range p₁.w.toNat)
    (fun x hx => by have := List.mem_range.mp hx; simp only; omega)
  have hlook : look { p₁ with blocks := blocks } = fun pos : Vect2D =>
      p₁.look (if pos.y = y + 1 then ⟨pos.x, y⟩ else pos) := by
    funext pos
    simp only [look, cell?, Rows.get?_copyRow? hcopy]
    push_cast
    split <;> rfl
  have houtside : ∀ pos : Vect2D, pos.y = y →
      pos ∉ rowCells y (List.range p.w.toNat) → p.look pos = none := by
    intro pos hposy hrow
    apply hr.look_eq_none
    intro hin
    exact hrow (mem_rowCells.mpr ⟨hposy, (inBounds_iff.mp hin).2.2⟩)
  refine ⟨p₃, ?_, ⟨hsecond.rect, hsecond.h_eq.trans hfirst.h_eq,
    hsecond.w_eq.trans hfirst.w_eq, ?_⟩, hheap.trans hnext⟩
  · simp only [shiftRow]
    push_cast at hdelete
    simp [hdelete, hcopy, hblank]
  · rw [hsecond.look_eq, hlook, hfirst.look_eq, hfirst.w_eq]
    exact shiftedPicture_eq houtside

/-! ## Whole loops -/

def clearedPicture (picture : Picture Vect2D BlockRef) :
    Nat → Picture Vect2D BlockRef
  | 0 => picture
  | y + 1 => clearedPicture (shiftedPicture picture y) y

theorem clearRow_spec {index : Nat} (hr : p.Rect)
    (hindex : index = 0 ∨ (index : Int) < p.h) :
    ∃ p', clearRow p index = some p' ∧
      p.Becomes p' (clearedPicture p.look index) ∧
      p'.heap.next = p.heap.next := by
  induction index generalizing p with
  | zero => exact ⟨p, rfl, hr.becomes_self, rfl⟩
  | succ y ih =>
      have hy : (y : Int) + 1 < p.h := by
        rcases hindex with hzero | hlt
        · omega
        · push_cast at hlt
          exact hlt
      obtain ⟨p₁, hshift, hfirst, hnext⟩ := shiftRow_spec hr hy
      obtain ⟨p₂, hclear, hsecond, hnext'⟩ := ih hfirst.rect
        (.inr (by rw [hfirst.h_eq]; omega))
      rw [hfirst.look_eq] at hsecond
      exact ⟨p₂, by simp [clearRow, hshift, hclear], hfirst.trans hsecond,
        hnext'.trans hnext⟩

private theorem clearRows_spec (rows : List Bool) (hr : p.Rect)
    (hrows : (rows.length : Int) = p.h) (numCleared : Int) (indices : List Nat)
    (hindices : ∀ i ∈ indices, (i : Int) < p.h) :
    ∃ n p' picture, indices.foldlM (fun (numCleared, p) i => do
        if ← rows[i]? then
          let p ← clearRow p i
          some (numCleared + 1, p)
        else
          some (numCleared, p)) (numCleared, p) = some (n, p') ∧
      p.Becomes p' picture ∧ p'.heap.next = p.heap.next := by
  induction indices generalizing p numCleared with
  | nil => exact ⟨numCleared, p, p.look, rfl, hr.becomes_self, rfl⟩
  | cons i indices ih =>
      have hi := hindices i (by simp)
      have hlt : i < rows.length := by omega
      by_cases hflag : rows[i] = true
      · obtain ⟨p₁, hclear, hfirst, hnext⟩ := clearRow_spec hr (.inr hi)
        obtain ⟨n, p₂, picture, hfold, hsecond, hnext'⟩ :=
          ih hfirst.rect (by rw [hfirst.h_eq]; exact hrows) (numCleared + 1)
            (fun j hj => by
              rw [hfirst.h_eq]
              exact hindices j (List.mem_cons_of_mem _ hj))
        refine ⟨n, p₂, picture, ?_, hfirst.trans hsecond, hnext'.trans hnext⟩
        simpa [hlt, hflag, hclear] using hfold
      · obtain ⟨n, p₂, picture, hfold, hsecond, hnext'⟩ :=
          ih hr hrows numCleared
            (fun j hj => hindices j (List.mem_cons_of_mem _ hj))
        refine ⟨n, p₂, picture, ?_, hsecond, hnext'⟩
        simpa [hlt, hflag] using hfold

theorem clearFilledRows_spec (rows : List Bool) (hr : p.Rect)
    (hrows : (rows.length : Int) = p.h) :
    ∃ n p' picture, clearFilledRows p rows = some (n, p') ∧
      p.Becomes p' picture ∧ p'.heap.next = p.heap.next :=
  clearRows_spec rows hr hrows 0 _ fun i hi => by
    have := List.mem_range.mp hi
    omega

@[simp] theorem checkFilledRows_length (p : Playfield) :
    (checkFilledRows p).length = p.blocks.length := by
  simp [checkFilledRows]

end Grzetris
