import Grzetris.Engine.Clearing
import Grzetris.Engine.Keeps
import Grzetris.Foundation.Ledger

/-!
# Every block is accounted for

`new` and `delete` are matched by the grid: each block that was allocated is
either in exactly one cell or it was deleted once.  The three changes that the
engine makes keep this.
-/

namespace Grzetris

open Foundation Playfield

/-- The blocks that the grid points to, cell by cell. -/
def Playfield.pointers (p : Playfield) : List Nat := p.blocks.flatMap rowAddrs

structure Playfield.Accounted (p : Playfield) : Prop where
  rect : p.Rect
  balance : Balances p.pointers p.heap.freed p.heap.next

variable {p p' : Playfield} {pos position : Vect2D} {block : Block}

/-! ## One cell -/

private theorem pointers_split {above below : Rows (Option BlockRef)}
    {left right : Row} (content : Option BlockRef) :
    (above ++ (left ++ content :: right) :: below).flatMap rowAddrs =
      above.flatMap rowAddrs ++ rowAddrs left ++ rowAddrs [content] ++
        (rowAddrs right ++ below.flatMap rowAddrs) := by
  simp only [rowAddrs, List.flatMap_append, List.flatMap_cons,
    List.filterMap_append, List.append_assoc]
  cases content <;> simp

private theorem rowAddrs_none : rowAddrs [none] = [] := rfl

theorem Playfield.Accounted.deleteBlock (hp : p.Accounted)
    (hdelete : deleteBlock p pos = some p') : p'.Accounted := by
  simp only [Grzetris.deleteBlock, Option.bind_eq_bind,
    Option.bind_eq_some_iff] at hdelete
  obtain ⟨content, hcell, hdelete⟩ := hdelete
  cases content with
  | none =>
      cases hdelete
      exact hp
  | some ref =>
      simp only [setCell?, Option.bind_eq_bind, Option.bind_eq_some_iff,
        Option.some.injEq] at hdelete
      obtain ⟨blocks, hset, rfl⟩ := hdelete
      obtain ⟨above, left, right, below, hrows, hsplit⟩ :=
        Rows.exists_split_of_get? hcell
      obtain rfl := Option.some_inj.mp ((hsplit none).symm.trans hset)
      refine ⟨hp.rect.set? hset, ?_⟩
      have hbalance := hp.balance
      rw [pointers, hrows, pointers_split] at hbalance
      rw [pointers, pointers_split, rowAddrs_none, List.append_nil]
      exact hbalance.giveBack

theorem deleteBlock_empties (hdelete : deleteBlock p pos = some p') :
    p'.cell? pos = some none := by
  simp only [deleteBlock, Option.bind_eq_bind, Option.bind_eq_some_iff]
    at hdelete
  obtain ⟨content, hcell, hdelete⟩ := hdelete
  cases content with
  | none =>
      cases hdelete
      exact hcell
  | some ref =>
      simp only [setCell?, Option.bind_eq_bind, Option.bind_eq_some_iff,
        Option.some.injEq] at hdelete
      obtain ⟨blocks, hset, rfl⟩ := hdelete
      simp [cell?, Rows.get?_set? hset]

/-- A new block goes into an empty cell. -/
private theorem accounted_alloc (hp : p.Accounted)
    (hempty : p.cell? pos = some none)
    (hset : p.alloc.setCell? pos (some ⟨p.heap.next, block⟩) = some p') :
    p'.Accounted := by
  simp only [setCell?, Option.bind_eq_bind, Option.bind_eq_some_iff,
    Option.some.injEq] at hset
  obtain ⟨blocks, hset, rfl⟩ := hset
  obtain ⟨above, left, right, below, hrows, hsplit⟩ :=
    Rows.exists_split_of_get? hempty
  obtain rfl := Option.some_inj.mp ((hsplit _).symm.trans hset)
  refine ⟨hp.rect.set? hset, ?_⟩
  have hbalance := hp.balance
  rw [pointers, hrows, pointers_split, rowAddrs_none, List.append_nil]
    at hbalance
  rw [pointers, pointers_split, List.append_assoc]
  exact hbalance.allocate

theorem Playfield.Accounted.blot (hp : p.Accounted)
    (hblot : blot position p block = some p') : p'.Accounted := by
  simp only [Grzetris.blot, Option.bind_eq_bind, Option.bind_eq_some_iff]
    at hblot
  obtain ⟨content, hcell, hrest⟩ := hblot
  cases content with
  | none => exact accounted_alloc hp hcell hrest
  | some ref =>
      obtain ⟨p₁, hfirst, hset⟩ := Option.bind_eq_some_iff.mp hrest
      exact accounted_alloc (hp.deleteBlock hfirst)
        (deleteBlock_empties hfirst) hset

/-! ## Rows -/

private theorem deleteBlock_h (hdelete : deleteBlock p pos = some p') :
    p'.h = p.h := by
  simp only [deleteBlock, Option.bind_eq_bind, Option.bind_eq_some_iff]
    at hdelete
  obtain ⟨content, -, hdelete⟩ := hdelete
  cases content with
  | none =>
      cases hdelete
      rfl
  | some ref =>
      simp only [setCell?, Option.bind_eq_bind, Option.bind_eq_some_iff,
        Option.some.injEq] at hdelete
      obtain ⟨blocks, -, rfl⟩ := hdelete
      rfl

private theorem lt_height_of_shiftRow (hp : p.Accounted) {y : Nat}
    (hshift : shiftRow p y = some p') : y + 1 < p.blocks.length := by
  simp only [shiftRow, Option.bind_eq_bind, Option.bind_eq_some_iff] at hshift
  obtain ⟨p₁, hdelete, blocks, hcopy, -⟩ := hshift
  have hp₁ : p₁.Accounted ∧ p₁.h = p.h :=
    foldlM_keeps (I := fun q : Playfield => q.Accounted ∧ q.h = p.h)
      (fun _ _ _ hq hstep =>
        ⟨hq.1.deleteBlock hstep, (deleteBlock_h hstep).trans hq.2⟩)
      ⟨hp, rfl⟩ hdelete
  have hlt := (Rows.copyRow?_eq_some hcopy).1
  have hheight := hp.rect.height
  have hheight₁ := hp₁.1.rect.height
  omega

/-- The row that is overwritten goes; the one that is copied down is pointed to
once again in the end. -/
theorem Playfield.Accounted.shiftRow (hp : p.Accounted) {y : Nat}
    (hshift : shiftRow p y = some p') : p'.Accounted := by
  have hlt := lt_height_of_shiftRow hp hshift
  have hheight := hp.rect.height
  obtain ⟨p₁, hshift₁, hbecomes, -⟩ := shiftRow_spec hp.rect (y := y)
    (by omega)
  obtain rfl := Option.some_inj.mp (hshift₁.symm.trans hshift)
  have hwidth : ∀ row ∈ p.blocks, row.length = p.w.toNat := by
    intro row hrow
    have := hp.rect.width row hrow
    omega
  have hblocks : p.blocks = p.blocks.take y ++
      p.blocks[y] :: p.blocks[y + 1] :: p.blocks.drop (y + 1 + 1) := by
    rw [List.getElem_cons_drop, List.getElem_cons_drop,
      List.take_append_drop]
  have hmiddle := shiftRow_middle hblocks (hwidth _ (List.getElem_mem _))
    (hwidth _ (List.getElem_mem _))
  have hlength : (p.blocks.take y).length = y := by
    rw [List.length_take]
    omega
  rw [hlength, hshift, Option.some_inj] at hmiddle
  have hbalance := hp.balance
  refine ⟨hbecomes.rect, ?_⟩
  rw [pointers, hblocks] at hbalance
  rw [hmiddle, pointers]
  simp only [withRows, List.flatMap_append, List.flatMap_cons,
    rowAddrs_emptyRow, List.nil_append] at hbalance ⊢
  rw [← List.append_assoc] at hbalance ⊢
  rw [← List.append_assoc] at hbalance
  exact hbalance.giveBack

theorem accounted_keeps :
    EngineKeeps (fun _ => True) Playfield.Accounted where
  delete := fun hp => hp.deleteBlock
  blot := fun hp _ => hp.blot
  shift := fun hp => hp.shiftRow

end Grzetris
