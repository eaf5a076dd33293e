import Grzetris.Engine.Lines
import Grzetris.Foundation.Runs
import Mathlib.Data.Bool.Count
import Mathlib.Data.List.Induction

/-!
# What line clearing leaves

`clearRow` on a grid split at the row it clears, and from it the whole of
`clearFilledRows`: which rows are left, in which order, and which blocks have
been deleted.
-/

namespace Grzetris

open Foundation Playfield

abbrev Row := List (Option BlockRef)

/-- The addresses a row points to. -/
def rowAddrs (row : Row) : List Nat :=
  row.filterMap (Option.map BlockRef.addr)

def emptyRow (w : Nat) : Row := List.replicate w none

@[simp] theorem length_emptyRow (w : Nat) : (emptyRow w).length = w :=
  List.length_replicate

@[simp] theorem rowAddrs_emptyRow (w : Nat) : rowAddrs (emptyRow w) = [] := by
  simp [rowAddrs, emptyRow]

/-- `p` with other rows and other deleted addresses. -/
def Playfield.withRows (p : Playfield) (blocks : Rows (Option BlockRef))
    (freed : List Nat) : Playfield :=
  { p with blocks := blocks, heap := { p.heap with freed := freed } }

@[simp] theorem Playfield.withRows_self (p : Playfield) :
    p.withRows p.blocks p.heap.freed = p := rfl

@[simp] theorem Playfield.withRows_withRows (p : Playfield)
    (blocks blocks' : Rows (Option BlockRef)) (freed freed' : List Nat) :
    (p.withRows blocks freed).withRows blocks' freed' =
      p.withRows blocks' freed' := rfl

variable {p : Playfield} {above below : Rows (Option BlockRef)} {row : Row}
  {w : Nat}

/-! ## One row -/

private theorem deleteBlock_middle
    (hblocks : p.blocks = above ++ row :: below) {x : Nat}
    (hx : x < row.length) :
    deleteBlock p ⟨x, above.length⟩ =
      some (p.withRows (above ++ row.set x none :: below)
        ((rowAddrs [row[x]]).reverse ++ p.heap.freed)) := by
  have hcell : p.cell? ⟨x, above.length⟩ = some row[x] := by
    rw [cell?, hblocks, Rows.get?_middle, List.getElem?_eq_getElem hx]
  cases href : row[x] with
  | none =>
      have hset : row.set x none = row := by
        rw [← href, List.set_getElem_self]
      simp [deleteBlock, hcell, href, hset, ← hblocks, rowAddrs, withRows]
  | some ref =>
      simp [deleteBlock, hcell, href, setCell?, free, hblocks,
        Rows.set?_middle hx, rowAddrs, withRows]

/-- The grid after the first `n` columns of a row have been emptied. -/
private def emptiedTo (p : Playfield) (above below : Rows (Option BlockRef))
    (row : Row) (n : Nat) (freed : List Nat) : Playfield :=
  p.withRows (above ++ (List.replicate n none ++ row.drop n) :: below) freed

private theorem set_emptied {n : Nat} (hn : n < row.length) :
    (List.replicate n none ++ row.drop n).set n none =
      List.replicate (n + 1) none ++ row.drop (n + 1) := by
  rw [List.set_append_right _ _ (by simp), List.length_replicate,
    Nat.sub_self, List.drop_eq_getElem_cons hn, List.set_cons_zero,
    List.replicate_succ', List.append_assoc, List.singleton_append]

private theorem lt_length_emptied {n : Nat} (hn : n < row.length) :
    n < (List.replicate n none ++ row.drop n).length := by
  simp only [List.length_append, List.length_replicate, List.length_drop]
  omega

private theorem getElem_emptied {n : Nat} (hn : n < row.length)
    (hlt : n < (List.replicate n none ++ row.drop n).length) :
    (List.replicate n none ++ row.drop n)[n] = row[n] := by
  rw [List.getElem_append_right (by simp)]
  simp

private theorem deleteBlock_emptiedTo {n : Nat} (hn : n < row.length)
    (freed : List Nat) :
    deleteBlock (emptiedTo p above below row n freed) ⟨n, above.length⟩ =
      some (emptiedTo p above below row (n + 1)
        ((rowAddrs [row[n]]).reverse ++ freed)) := by
  rw [deleteBlock_middle (p := emptiedTo p above below row n freed) rfl
    (lt_length_emptied hn), set_emptied hn, getElem_emptied hn]
  rfl

private theorem setCell?_emptiedTo {n : Nat} (hn : n < row.length)
    (freed : List Nat) :
    (emptiedTo p above below row n freed).setCell? ⟨n, above.length⟩ none =
      some (emptiedTo p above below row (n + 1) freed) := by
  simp [setCell?, emptiedTo, withRows,
    Rows.set?_middle (lt_length_emptied hn), set_emptied hn]

private theorem emptiedTo_zero (hblocks : p.blocks = above ++ row :: below) :
    emptiedTo p above below row 0 p.heap.freed = p := by
  simp [emptiedTo, withRows, ← hblocks]

private theorem emptiedTo_length (freed : List Nat) :
    emptiedTo p above below row row.length freed =
      p.withRows (above ++ emptyRow row.length :: below) freed := by
  simp [emptiedTo, emptyRow]

private theorem rowAddrs_take_succ {n : Nat} (hn : n < row.length) :
    rowAddrs (row.take (n + 1)) =
      rowAddrs (row.take n) ++ rowAddrs [row[n]] := by
  rw [List.take_succ_eq_append_getElem hn, rowAddrs, List.filterMap_append]
  rfl

private theorem deleteRow (hblocks : p.blocks = above ++ row :: below)
    (hw : row.length = w) :
    (List.range w).foldlM
        (fun p (x : Nat) => deleteBlock p ⟨x, above.length⟩) p =
      some (p.withRows (above ++ emptyRow w :: below)
        ((rowAddrs row).reverse ++ p.heap.freed)) := by
  subst hw
  have hloop := foldlM_range_of_steps
    (fun p (x : Nat) => deleteBlock p ⟨x, above.length⟩)
    (fun n => emptiedTo p above below row n
      ((rowAddrs (row.take n)).reverse ++ p.heap.freed))
    (n := row.length) fun n hn => by
      rw [deleteBlock_emptiedTo hn, rowAddrs_take_succ hn,
        List.reverse_append, List.append_assoc]
  have hstart : emptiedTo p above below row 0
      ((rowAddrs (row.take 0)).reverse ++ p.heap.freed) = p :=
    emptiedTo_zero hblocks
  rwa [hstart, List.take_length, emptiedTo_length] at hloop

private theorem blankRow (hblocks : p.blocks = above ++ row :: below)
    (hw : row.length = w) :
    (List.range w).foldlM
        (fun p (x : Nat) => p.setCell? ⟨x, above.length⟩ none) p =
      some (p.withRows (above ++ emptyRow w :: below) p.heap.freed) := by
  subst hw
  have hloop := foldlM_range_of_steps
    (fun p (x : Nat) => p.setCell? ⟨x, above.length⟩ none)
    (fun n => emptiedTo p above below row n p.heap.freed)
    (n := row.length) fun n hn => setCell?_emptiedTo hn _
  rwa [emptiedTo_zero hblocks, emptiedTo_length] at hloop

/-- One round of `clearRow` on the two rows it touches. -/
theorem shiftRow_middle {upper lower : Row}
    (hblocks : p.blocks = above ++ upper :: lower :: below)
    (hupper : upper.length = p.w.toNat) (hlower : lower.length = p.w.toNat) :
    shiftRow p above.length =
      some (p.withRows (above ++ emptyRow p.w.toNat :: upper :: below)
        ((rowAddrs lower).reverse ++ p.heap.freed)) := by
  have hsplit : p.blocks = (above ++ [upper]) ++ lower :: below := by
    rw [hblocks, List.append_assoc, List.singleton_append]
  have hdelete := deleteRow hsplit hlower
  simp only [List.length_append, List.length_cons, List.length_nil,
    Nat.zero_add, List.append_assoc, List.singleton_append] at hdelete
  push_cast at hdelete
  have hcopy := Rows.copyRow?_middle above below upper
    (emptyRow p.w.toNat)
  have hblank := blankRow
    (p := p.withRows (above ++ upper :: upper :: below)
      ((rowAddrs lower).reverse ++ p.heap.freed)) rfl hupper
  unfold shiftRow
  rw [hdelete]
  simp only [Option.bind_eq_bind, Option.bind_some, withRows] at hblank ⊢
  rw [hcopy]
  exact hblank

/-- Clearing a row that is blank already only moves it to the top. -/
private theorem clearRow_blank (hw : w = p.w.toNat)
    (hblocks : p.blocks = above ++ emptyRow w :: below)
    (hwidth : ∀ r ∈ above, r.length = w) :
    clearRow p above.length =
      some (p.withRows (emptyRow w :: (above ++ below)) p.heap.freed) := by
  induction above using List.reverseRecOn generalizing p below with
  | nil =>
      rw [List.nil_append] at hblocks
      rw [List.nil_append, ← hblocks, withRows_self]
      rfl
  | append_singleton above upper ih =>
      have hupper := hwidth upper (by simp)
      have hsplit : p.blocks = above ++ upper :: emptyRow w :: below := by
        simp [hblocks]
      have hshift := shiftRow_middle hsplit (hupper.trans hw) (by simp [hw])
      rw [rowAddrs_emptyRow, ← hw] at hshift
      have htail := ih (p := p.withRows (above ++ emptyRow w :: upper :: below)
        p.heap.freed) hw rfl (fun r hr => hwidth r (by simp [hr]))
      rw [List.length_append, List.length_singleton, clearRow, hshift,
        Option.bind_eq_bind, Option.bind_some, List.reverse_nil,
        List.nil_append, htail, withRows_withRows, List.append_assoc,
        List.singleton_append]
      rfl

theorem clearRow_middle (hw : w = p.w.toNat)
    (hblocks : p.blocks = above ++ row :: below)
    (hwidth : ∀ r ∈ above, r.length = w) (hrow : row.length = w)
    (hne : above ≠ []) :
    clearRow p above.length =
      some (p.withRows (emptyRow w :: (above ++ below))
        ((rowAddrs row).reverse ++ p.heap.freed)) := by
  obtain ⟨above, upper, rfl⟩ :=
    (List.eq_nil_or_concat' above).resolve_left hne
  have hupper := hwidth upper (by simp)
  have hsplit : p.blocks = above ++ upper :: row :: below := by
    simp [hblocks]
  have hshift := shiftRow_middle hsplit (hupper.trans hw) (hrow.trans hw)
  rw [← hw] at hshift
  have hblank := clearRow_blank
    (p := p.withRows (above ++ emptyRow w :: upper :: below)
      ((rowAddrs row).reverse ++ p.heap.freed))
    hw rfl (fun r hr => hwidth r (by simp [hr]))
  rw [List.length_append, List.length_singleton, clearRow, hshift,
    Option.bind_eq_bind, Option.bind_some, hblank, withRows_withRows,
    List.append_assoc, List.singleton_append]
  rfl

/-! ## The loop of `clearFilledRows` -/

private def clearStep (rows : List Bool) (state : Int × Playfield) (i : Nat) :
    Option (Int × Playfield) := do
  if ← rows[i]? then
    let p ← clearRow state.2 i
    some (state.1 + 1, p)
  else
    some (state.1, state.2)

private theorem clearStep_unflagged {rows : List Bool} {i : Nat}
    (hflag : rows[i]? = some false) (numCleared : Int) :
    clearStep rows (numCleared, p) i = some (numCleared, p) := by
  simp [clearStep, hflag]

private theorem clearStep_flagged {rows : List Bool} (hw : w = p.w.toNat)
    (hblocks : p.blocks = above ++ row :: below)
    (hwidth : ∀ r ∈ p.blocks, r.length = w) (hne : above ≠ [])
    (hflag : rows[above.length]? = some true) (numCleared : Int) :
    clearStep rows (numCleared, p) above.length =
      some (numCleared + 1, p.withRows (emptyRow w :: (above ++ below))
        ((rowAddrs row).reverse ++ p.heap.freed)) := by
  have hclear := clearRow_middle hw hblocks
    (fun r hr => hwidth r (by simp [hblocks, hr]))
    (hwidth row (by simp [hblocks])) hne
  simp [clearStep, hflag, hclear]

private theorem width_of_cleared (hblocks : p.blocks = above ++ row :: below)
    (hwidth : ∀ r ∈ p.blocks, r.length = w) :
    ∀ r ∈ emptyRow w :: (above ++ below), r.length = w := by
  intro r hr
  rcases List.mem_cons.mp hr with rfl | hr
  · exact length_emptyRow w
  · refine hwidth r ?_
    rw [hblocks]
    exact (List.mem_append.mp hr).elim (fun h => by simp [h])
      fun h => by simp [h]

/-- From row 1 on, a flagged row goes and the rows above it move down: those
that were settled before stay in order, below the blank rows. -/
private theorem clearSteps_middle (above : Rows (Option BlockRef))
    (settled : List Bool) (rest : Rows (Option BlockRef)) (flags : List Bool)
    (hw : w = p.w.toNat) (hblocks : p.blocks = above ++ rest)
    (hwidth : ∀ r ∈ p.blocks, r.length = w) (hne : above ≠ [])
    (hsettled : settled.length = above.length)
    (hflags : rest.length = flags.length) (numCleared : Int) :
    ∃ freed, (List.range' above.length rest.length).foldlM
        (clearStep (settled ++ flags)) (numCleared, p) =
          some (numCleared + flags.count true,
            p.withRows (List.replicate (flags.count true) (emptyRow w) ++
              (above ++ Rows.withFlag false rest flags)) freed) ∧
      ∀ addr, addr ∈ freed ↔ addr ∈ p.heap.freed ∨
        ∃ r ∈ Rows.withFlag true rest flags, addr ∈ rowAddrs r := by
  induction rest generalizing p above settled flags numCleared with
  | nil =>
      have hnil : flags = [] := List.eq_nil_of_length_eq_zero hflags.symm
      subst hnil
      refine ⟨p.heap.freed, ?_, by simp [Rows.withFlag]⟩
      simp [Rows.withFlag, ← List.append_nil above ▸ hblocks]
  | cons row rest ih =>
      cases flags with
      | nil => simp at hflags
      | cons flag flags =>
          have hlength : rest.length = flags.length := by simpa using hflags
          have hget : (settled ++ flag :: flags)[above.length]? =
              some flag := by
            rw [← hsettled]
            simp
          have hsplit : settled ++ flag :: flags =
              (settled ++ [flag]) ++ flags := by simp
          rw [List.length_cons, List.range'_succ, List.foldlM_cons]
          cases flag with
          | true =>
              obtain ⟨freed, hfold, hfreed⟩ := ih
                (p := p.withRows (emptyRow w :: (above ++ rest))
                  ((rowAddrs row).reverse ++ p.heap.freed))
                (emptyRow w :: above) (settled ++ [true]) flags hw rfl
                (width_of_cleared hblocks hwidth) (by simp)
                (by simp [hsettled]) hlength (numCleared + 1)
              refine ⟨freed, ?_, fun addr => ?_⟩
              · rw [clearStep_flagged hw hblocks hwidth hne hget,
                  Option.bind_eq_bind, Option.bind_some, hsplit]
                rw [List.length_cons] at hfold
                rw [hfold, withRows_withRows, List.count_cons_self,
                  List.replicate_succ', List.append_assoc,
                  List.singleton_append, Rows.withFlag]
                simp
                omega
              · rw [hfreed, Rows.withFlag]
                simp [withRows, or_assoc, or_comm]
          | false =>
              obtain ⟨freed, hfold, hfreed⟩ := ih (p := p)
                (above ++ [row]) (settled ++ [false]) flags hw
                (by simp [hblocks]) hwidth (by simp) (by simp [hsettled])
                hlength numCleared
              refine ⟨freed, ?_, fun addr => ?_⟩
              · rw [clearStep_unflagged hget, Option.bind_eq_bind,
                  Option.bind_some, hsplit]
                rw [List.length_append, List.length_singleton] at hfold
                rw [hfold]
                simp [Rows.withFlag]
              · rw [hfreed]
                simp [Rows.withFlag]

/-- The rows that `clearFilledRows` leaves.  The top row stays whether it is
flagged or not. -/
theorem clearFilledRows_rows {top : Row} {rest : Rows (Option BlockRef)}
    (flag : Bool) (flags : List Bool) (hr : p.Rect)
    (hblocks : p.blocks = top :: rest) (hflags : rest.length = flags.length) :
    ∃ freed, clearFilledRows p (flag :: flags) =
        some (((flag :: flags).count true : Int),
          p.withRows (List.replicate (flags.count true) (emptyRow p.w.toNat) ++
            top :: Rows.withFlag false rest flags) freed) ∧
      ∀ addr, addr ∈ freed ↔ addr ∈ p.heap.freed ∨
        ∃ r ∈ Rows.withFlag true rest flags, addr ∈ rowAddrs r := by
  have hheight : p.h.toNat = rest.length + 1 := by
    have hh := hr.height
    rw [hblocks, List.length_cons] at hh
    omega
  have hwidth : ∀ r ∈ p.blocks, r.length = p.w.toNat := by
    intro r hmem
    have := hr.width r hmem
    omega
  have hfirst : clearStep (flag :: flags) (0, p) 0 =
      some ((if flag then 1 else 0 : Int), p) := by
    cases flag <;> simp [clearStep, clearRow]
  obtain ⟨freed, hfold, hfreed⟩ := clearSteps_middle [top] [flag]
    rest flags rfl hblocks hwidth (by simp) rfl hflags (if flag then 1 else 0)
  refine ⟨freed, ?_, hfreed⟩
  have hloop : clearFilledRows p (flag :: flags) =
      (List.range p.h.toNat).foldlM (clearStep (flag :: flags)) (0, p) := rfl
  rw [List.length_singleton, List.singleton_append] at hfold
  rw [hloop, hheight, List.range_eq_range', List.range'_succ,
    List.foldlM_cons, hfirst, Option.bind_eq_bind, Option.bind_some,
    Nat.zero_add, hfold, List.singleton_append]
  cases flag <;> simp [Int.add_comm]

theorem Playfield.Rect.exists_top (hr : p.Rect) (hh : 1 ≤ p.h) :
    ∃ top rest, p.blocks = top :: rest := by
  apply List.exists_cons_of_length_pos
  have := hr.height
  omega

/-! ## What is kept -/

/-- Every pointer of the grid owns a block that has not been deleted. -/
structure Playfield.Owned (p : Playfield) : Prop where
  distinct : (p.blocks.flatMap rowAddrs).Nodup
  live : ∀ addr ∈ p.blocks.flatMap rowAddrs, addr ∉ p.heap.freed

theorem Playfield.Owned.apart {rows : List Bool} (howned : p.Owned)
    (hrows : p.blocks.length = rows.length) {kept gone : Row} {addr : Nat}
    (hkept : kept ∈ Rows.withFlag false p.blocks rows)
    (hgone : gone ∈ Rows.withFlag true p.blocks rows)
    (haddr : addr ∈ rowAddrs kept) : addr ∉ rowAddrs gone := by
  have hnodup := howned.distinct
  rw [← ((Rows.withFlag_perm p.blocks rows hrows).flatMap_right
    rowAddrs).nodup_iff, List.flatMap_append, List.nodup_append] at hnodup
  intro hother
  exact hnodup.2.2 addr (List.mem_flatMap.mpr ⟨kept, hkept, haddr⟩) addr
    (List.mem_flatMap.mpr ⟨gone, hgone, hother⟩) rfl

/-- Two rows of one column, both filled. -/
def fullField : Playfield where
  h := 2
  w := 1
  blocks := [[some ⟨0, ⟨⟨0, 0⟩, .red⟩⟩], [some ⟨1, ⟨⟨0, 0⟩, .blue⟩⟩]]
  heap := { next := 2, freed := [] }

/-- The rows that are not flagged end up at the bottom, in their order and with
the same pointers in the same columns, and only blocks that a flagged row
points to are deleted. -/
theorem clearFilledRows_keeps (hr : p.Rect) (hh : 1 ≤ p.h) (rows : List Bool)
    (hrows : (rows.length : Int) = p.h) :
    ∃ n p', clearFilledRows p rows = some (n, p') ∧
      p'.h = p.h ∧ p'.w = p.w ∧ p'.blocks.length = p.blocks.length ∧
      p'.blocks.drop (p'.blocks.length - rows.count false) =
        Rows.withFlag false p.blocks rows ∧
      (∀ addr ∈ p'.heap.freed, addr ∈ p.heap.freed ∨
        ∃ r ∈ Rows.withFlag true p.blocks rows, addr ∈ rowAddrs r) ∧
      (p.Owned → ∀ r ∈ Rows.withFlag false p.blocks rows,
        ∀ addr ∈ rowAddrs r, addr ∉ p'.heap.freed) := by
  have hlength : p.blocks.length = rows.length := by
    have := hr.height
    omega
  obtain ⟨top, rest, hblocks⟩ := hr.exists_top hh
  obtain ⟨flag, flags, rfl⟩ :=
    List.exists_cons_of_length_pos (l := rows) (by omega)
  have hflags : rest.length = flags.length := by
    simpa [hblocks] using hlength
  obtain ⟨freed, hclear, hfreed⟩ := clearFilledRows_rows flag flags hr
    hblocks hflags
  have hgone : ∀ addr ∈ freed, addr ∈ p.heap.freed ∨
      ∃ r ∈ Rows.withFlag true p.blocks (flag :: flags),
        addr ∈ rowAddrs r := by
    intro addr hmem
    refine ((hfreed addr).mp hmem).imp_right fun ⟨r, hr, haddr⟩ => ?_
    refine ⟨r, ?_, haddr⟩
    rw [hblocks]
    cases flag <;> simp [Rows.withFlag, hr]
  have hsuffix : Rows.withFlag false p.blocks (flag :: flags) <:+
      List.replicate (flags.count true) (emptyRow p.w.toNat) ++
        top :: Rows.withFlag false rest flags := by
    rw [hblocks]
    cases flag with
    | false => exact List.suffix_append _ _
    | true =>
        exact (List.suffix_cons _ _).trans (List.suffix_append _ _)
  refine ⟨_, _, hclear, rfl, rfl, ?_, ?_, hgone, ?_⟩
  · have hcount := List.count_false_add_count_true flags
    have hkept := Rows.length_withFlag false rest flags hflags
    simp [withRows, hblocks, hkept]
    omega
  · rw [← Rows.length_withFlag false p.blocks (flag :: flags) hlength]
    exact (List.suffix_iff_eq_drop.mp hsuffix).symm
  · intro howned r hkept addr haddr hmem
    rcases hgone addr hmem with hbefore | ⟨r', hr', haddr'⟩
    · exact howned.live addr (List.mem_flatMap.mpr
        ⟨r, (Rows.withFlag_perm _ _ hlength).subset
          (List.mem_append_left _ hkept), haddr⟩) hbefore
    · exact howned.apart hlength hkept hr' haddr haddr'

/-- The upper row comes down onto the lower one, which is cleared. -/
theorem clearFilledRows_keeps_low :
    ∃ n p', clearFilledRows fullField [false, true] = some (n, p') ∧
      p'.blocks.drop 1 = [[some ⟨0, ⟨⟨0, 0⟩, .red⟩⟩]] ∧
      0 ∉ p'.heap.freed := by
  obtain ⟨n, p', hclear, -, -, hlength, hdrop, -, howned⟩ :=
    clearFilledRows_keeps (p := fullField) ⟨rfl, by decide⟩ (by decide)
      [false, true] rfl
  refine ⟨n, p', hclear, ?_, howned ⟨by decide, by decide⟩
    [some ⟨0, ⟨⟨0, 0⟩, .red⟩⟩] (by decide) 0 (by decide)⟩
  rwa [hlength] at hdrop

/-! ## Clearing the filled rows -/

def filledRow (row : Row) : Bool := row.all Option.isSome

theorem checkFilledRows_eq (p : Playfield) :
    checkFilledRows p = p.blocks.map filledRow := rfl

theorem hasFilledRow_eq (p : Playfield) :
    hasFilledRow p = p.blocks.any filledRow := by
  have hrow : ∀ row : Row, (!row.any Option.isNone) = filledRow row := by
    intro row
    simp [filledRow, List.not_any_eq_all_not]
  simp only [hasFilledRow]
  congr 1
  funext row
  exact hrow row

def countBlocks (rows : Rows (Option BlockRef)) : Nat :=
  rows.flatten.countP Option.isSome

@[simp] theorem countBlocks_cons (row : Row) (rows : Rows (Option BlockRef)) :
    countBlocks (row :: rows) = row.countP Option.isSome + countBlocks rows := by
  simp [countBlocks]

theorem countBlocks_blank (k w : Nat) (rows : Rows (Option BlockRef)) :
    countBlocks (List.replicate k (emptyRow w) ++ rows) = countBlocks rows := by
  induction k with
  | zero => rfl
  | succ k ih =>
      rw [List.replicate_succ, List.cons_append, countBlocks_cons, ih]
      simp [emptyRow, List.countP_replicate]

theorem countBlocks_le (rows : Rows (Option BlockRef))
    (hwidth : ∀ row ∈ rows, row.length = w) :
    countBlocks rows ≤ rows.length * w := by
  induction rows with
  | nil => simp [countBlocks]
  | cons row rows ih =>
      have htail := ih fun r hr => hwidth r (List.mem_cons_of_mem _ hr)
      have hrow : row.countP Option.isSome ≤ w :=
        (hwidth row List.mem_cons_self) ▸ List.countP_le_length
      rw [countBlocks_cons, List.length_cons, Nat.succ_mul]
      omega

/-- Dropping the filled rows drops a full row of blocks for each. -/
theorem countBlocks_filter (rows : Rows (Option BlockRef))
    (hwidth : ∀ r ∈ rows, r.length = w) :
    countBlocks (rows.filter fun row => filledRow row = false) +
        rows.countP filledRow * w = countBlocks rows := by
  induction rows with
  | nil => simp [countBlocks]
  | cons row rows ih =>
      have htail := ih fun r hr => hwidth r (List.mem_cons_of_mem _ hr)
      cases hrow : filledRow row with
      | false =>
          rw [List.filter_cons_of_pos (by simpa using hrow),
            List.countP_cons_of_neg (by simp [hrow]), countBlocks_cons,
            countBlocks_cons, Nat.add_assoc, htail]
      | true =>
          have hfull : row.countP Option.isSome = w := by
            rw [← hwidth row List.mem_cons_self, List.countP_eq_length]
            exact List.all_eq_true.mp hrow
          rw [List.filter_cons_of_neg (by simp [hrow]),
            List.countP_cons_of_pos (by simpa using hrow), countBlocks_cons,
            hfull, ← htail, Nat.succ_mul]
          omega

/-- What clearing the filled rows of `p` should answer and leave. -/
structure AllCleared (p : Playfield) (n : Int) (p' : Playfield) : Prop where
  returned : n = p.blocks.countP filledRow
  topBlank : ∀ pos : Vect2D, pos.y < p.blocks.countP filledRow →
    p'.look pos = none
  fewer : (countBlocks p'.blocks : Int) =
    countBlocks p.blocks - p.blocks.countP filledRow * p.w
  noneFilled : hasFilledRow p' = false

theorem look_blank {k : Nat} {rows : Rows (Option BlockRef)}
    (hblocks : p.blocks = List.replicate k (emptyRow w) ++ rows)
    {pos : Vect2D} (hy : pos.y < k) : p.look pos = none := by
  unfold look cell? Rows.get?
  split
  · have hlt : pos.y.toNat < k := by omega
    rw [hblocks, List.getElem?_append_left (by simpa using hlt),
      List.getElem?_replicate, if_pos hlt, Option.bind_some, emptyRow,
      List.getElem?_replicate]
    split <;> rfl
  · rfl

theorem look_top {top : Row} {rest : Rows (Option BlockRef)}
    (hblocks : p.blocks = top :: rest) (x : Nat) :
    p.look ⟨x, 0⟩ = top[x]?.join := by
  simp [look, cell?, Rows.get?, hblocks]

theorem filledRow_top_iff {top : Row} {rest : Rows (Option BlockRef)}
    (hr : p.Rect) (hblocks : p.blocks = top :: rest) :
    filledRow top = false ↔
      ∃ x, p.InBounds ⟨x, 0⟩ ∧ p.look ⟨x, 0⟩ = none := by
  have hwidth := hr.width top (by simp [hblocks])
  have hheight := hr.height
  rw [hblocks, List.length_cons] at hheight
  constructor
  · intro hfilled
    rw [filledRow, List.all_eq_false] at hfilled
    obtain ⟨content, hmem, hcontent⟩ := hfilled
    obtain ⟨i, hi, rfl⟩ := List.getElem_of_mem hmem
    refine ⟨i, ?_, ?_⟩
    · rw [inBounds_iff]
      simp only
      omega
    · rw [look_top hblocks, List.getElem?_eq_getElem hi, Option.join_some]
      simpa using hcontent
  · rintro ⟨x, hin, hlook⟩
    rw [inBounds_iff] at hin
    simp only at hin
    have hx : x = (x.toNat : Int) := by omega
    have hlt : x.toNat < top.length := by omega
    rw [hx, look_top hblocks, List.getElem?_eq_getElem hlt,
      Option.join_some] at hlook
    rw [filledRow, List.all_eq_false]
    exact ⟨top[x.toNat], List.getElem_mem hlt, by simp [hlook]⟩

theorem count_filledRow (rows : Rows (Option BlockRef)) :
    (rows.map filledRow).count true = rows.countP filledRow := by
  rw [List.count_eq_countP, List.countP_map]
  refine List.countP_congr fun row _ => ?_
  simp

private theorem allCleared_of_top {top : Row} {rest : Rows (Option BlockRef)}
    (hr : p.Rect) (hw : 1 ≤ p.w) (hblocks : p.blocks = top :: rest)
    (htop : filledRow top = false) (freed : List Nat) :
    AllCleared p (p.blocks.countP filledRow)
      (p.withRows (List.replicate (rest.countP filledRow)
        (emptyRow p.w.toNat) ++
          top :: rest.filter fun row => filledRow row = false) freed) := by
  have hcount : p.blocks.countP filledRow = rest.countP filledRow := by
    rw [hblocks, List.countP_cons_of_neg (by simp [htop])]
  have hwidth : ∀ r ∈ rest, r.length = p.w.toNat := by
    intro r hmem
    have := hr.width r (by simp [hblocks, hmem])
    omega
  refine ⟨rfl, fun pos hpos => ?_, ?_, ?_⟩
  · rw [hcount] at hpos
    exact look_blank rfl hpos
  · have hfilter : (countBlocks (rest.filter
        fun row => filledRow row = false) : Int) +
          rest.countP filledRow * p.w = countBlocks rest := by
      rw [← countBlocks_filter rest hwidth]
      push_cast
      rw [Int.toNat_of_nonneg (by omega)]
    rw [withRows, countBlocks_blank, countBlocks_cons, hcount, hblocks,
      countBlocks_cons]
    push_cast
    rw [← hfilter, ← Int.add_assoc, Int.add_sub_cancel]
  · have hblank : filledRow (emptyRow p.w.toNat) = false := by
      obtain ⟨w, hw⟩ := Nat.exists_eq_succ_of_ne_zero
        (show p.w.toNat ≠ 0 by omega)
      simp [filledRow, emptyRow, hw, List.replicate_succ]
    rw [hasFilledRow_eq, List.any_eq_false]
    intro row hrow
    simp only [withRows, List.mem_append, List.mem_cons, List.mem_filter,
      decide_eq_true_eq] at hrow
    rcases hrow with hrow | rfl | ⟨-, hrow⟩
    · rw [List.eq_of_mem_replicate hrow, hblank]
      simp
    · simp [htop]
    · simp [hrow]

theorem clearFilledRows_all_iff (hr : p.Rect) (hh : 1 ≤ p.h) (hw : 1 ≤ p.w) :
    ∃ n p', clearFilledRows p (checkFilledRows p) = some (n, p') ∧
      (AllCleared p n p' ↔
        ∃ x, p.InBounds ⟨x, 0⟩ ∧ p.look ⟨x, 0⟩ = none) := by
  obtain ⟨top, rest, hblocks⟩ := hr.exists_top hh
  obtain ⟨freed, hclear, -⟩ := clearFilledRows_rows (filledRow top)
    (rest.map filledRow) hr hblocks (by simp)
  rw [← List.map_cons, ← hblocks, ← checkFilledRows_eq, Rows.withFlag_map,
    count_filledRow, checkFilledRows_eq, count_filledRow] at hclear
  refine ⟨_, _, hclear, ?_⟩
  rw [← filledRow_top_iff hr hblocks]
  constructor
  · intro hcleared
    have hnone := hcleared.noneFilled
    rw [hasFilledRow_eq, List.any_eq_false] at hnone
    simpa using hnone top (by simp [withRows])
  · intro htop
    exact allCleared_of_top hr hw hblocks htop freed

/-- Two rows of one column, the lower one filled. -/
def lowField : Playfield where
  h := 2
  w := 1
  blocks := [[none], [some ⟨0, ⟨⟨0, 0⟩, .red⟩⟩]]
  heap := { next := 1, freed := [] }

theorem clearFilledRows_all_iff_low :
    ∃ n p', clearFilledRows lowField (checkFilledRows lowField) =
      some (n, p') ∧ AllCleared lowField n p' := by
  obtain ⟨n, p', hclear, hall⟩ := clearFilledRows_all_iff (p := lowField)
    ⟨rfl, by decide⟩ (by decide) (by decide)
  exact ⟨n, p', hclear, hall.mpr ⟨0, by decide, by decide⟩⟩

theorem clearFilledRows_leaves_top :
    ∃ n p', clearFilledRows fullField (checkFilledRows fullField) =
      some (n, p') ∧ ¬ AllCleared fullField n p' := by
  refine ⟨2, { fullField with
    blocks := [[none], [some ⟨0, ⟨⟨0, 0⟩, .red⟩⟩]]
    heap := { next := 2, freed := [1] } }, by decide, fun hcleared => ?_⟩
  exact absurd hcleared.noneFilled (by decide)

end Grzetris
