import Mathlib.Data.List.Basic
import Mathlib.Data.List.Nodup

/-!
# Vectors of vectors with signed subscripts

A two-dimensional vector is a list of rows.  Subscripts are integers, as they
are in the programs this models: `get?` and `set?` return `none` exactly when
the row or the column subscript leaves the vector it indexes.
-/

namespace Foundation

abbrev Rows (α : Type*) := List (List α)

namespace Rows

variable {α : Type*} {rows rows' : Rows α} {h w y x : Int}

def get? (rows : Rows α) (y x : Int) : Option α :=
  if 0 ≤ y ∧ 0 ≤ x then rows[y.toNat]?.bind (·[x.toNat]?) else none

def set? (rows : Rows α) (y x : Int) (a : α) : Option (Rows α) :=
  match rows.get? y x with
  | none => none
  | some _ => some (rows.modify y.toNat (·.set x.toNat a))

/-- The rows form a full rectangle of `h` rows and `w` columns. -/
structure IsRect (rows : Rows α) (h w : Int) : Prop where
  height : (rows.length : Int) = h
  width : ∀ row ∈ rows, (row.length : Int) = w

def Within (h w y x : Int) : Prop := 0 ≤ y ∧ y < h ∧ 0 ≤ x ∧ x < w

instance : Decidable (Within h w y x) :=
  inferInstanceAs (Decidable (_ ∧ _ ∧ _ ∧ _))

private theorem isSome_getElem?_iff (row : List α) (i : Nat) :
    row[i]?.isSome ↔ i < row.length := by
  simp [Option.isSome_iff_exists, List.getElem?_eq_some_iff]

theorem IsRect.get?_isSome (hr : IsRect rows h w) :
    (rows.get? y x).isSome ↔ Within h w y x := by
  unfold get? Within
  by_cases hpos : 0 ≤ y ∧ 0 ≤ x
  · rw [if_pos hpos]
    have hheight := hr.height
    cases hrow : rows[y.toNat]? with
    | none =>
        have := List.getElem?_eq_none_iff.mp hrow
        simp only [Option.bind_none, Option.isSome_none, Bool.false_eq_true,
          false_iff]
        omega
    | some row =>
        obtain ⟨hlt, rfl⟩ := List.getElem?_eq_some_iff.mp hrow
        have hwidth := hr.width _ (List.getElem_mem hlt)
        rw [Option.bind_some, isSome_getElem?_iff]
        omega
  · rw [if_neg hpos]
    simp only [Option.isSome_none, Bool.false_eq_true, false_iff]
    omega

theorem IsRect.get?_eq_none (hr : IsRect rows h w)
    (hout : ¬ Within h w y x) : rows.get? y x = none := by
  have := mt hr.get?_isSome.mp hout
  simpa using this

theorem IsRect.exists_get? (hr : IsRect rows h w) (hin : Within h w y x) :
    ∃ a, rows.get? y x = some a :=
  Option.isSome_iff_exists.mp (hr.get?_isSome.mpr hin)

theorem set?_eq_some {a : α} (hset : rows.set? y x a = some rows') :
    0 ≤ y ∧ 0 ≤ x ∧ (rows.get? y x).isSome ∧
      rows' = rows.modify y.toNat (·.set x.toNat a) := by
  unfold set? at hset
  cases hget : rows.get? y x with
  | none => simp [hget] at hset
  | some b =>
      simp only [hget, Option.some.injEq] at hset
      have hpos : 0 ≤ y ∧ 0 ≤ x := by
        by_contra hneg
        simp [get?, hneg] at hget
      exact ⟨hpos.1, hpos.2, rfl, hset.symm⟩

theorem IsRect.exists_set? (hr : IsRect rows h w) (hin : Within h w y x)
    (a : α) : ∃ rows', rows.set? y x a = some rows' := by
  obtain ⟨b, hb⟩ := hr.exists_get? hin
  exact ⟨rows.modify y.toNat (·.set x.toNat a), by simp only [set?, hb]⟩

theorem get?_set? {a : α} (hset : rows.set? y x a = some rows')
    (y' x' : Int) :
    rows'.get? y' x' =
      if y' = y ∧ x' = x then some a else rows.get? y' x' := by
  obtain ⟨hy, hx, hsome, rfl⟩ := set?_eq_some hset
  unfold get? at hsome ⊢
  by_cases hpos : 0 ≤ y' ∧ 0 ≤ x'
  · rw [if_pos hpos]
    rw [if_pos ⟨hy, hx⟩] at hsome
    rw [List.getElem?_modify]
    by_cases hrow : y' = y
    · subst hrow
      cases hget : rows[y'.toNat]? with
      | none => simp [hget] at hsome
      | some row =>
          rw [hget, Option.bind_some, isSome_getElem?_iff] at hsome
          by_cases hcol : x' = x
          · subst hcol
            simp [hsome]
          · have hne : x.toNat ≠ x'.toNat := by omega
            simp [hcol, hne, hpos]
    · have hne : y.toNat ≠ y'.toNat := by omega
      simp [hrow, hne, hpos]
  · have hne : ¬ (y' = y ∧ x' = x) := by omega
    rw [if_neg hpos, if_neg hne, if_neg hpos]

theorem IsRect.set? {a : α} (hr : IsRect rows h w)
    (hset : rows.set? y x a = some rows') : IsRect rows' h w := by
  obtain ⟨-, -, -, rfl⟩ := set?_eq_some hset
  refine ⟨by simpa using hr.height, ?_⟩
  intro row hrow
  obtain ⟨i, hi, rfl⟩ := List.getElem_of_mem hrow
  rw [List.length_modify] at hi
  have hwidth := hr.width _ (List.getElem_mem hi)
  rw [List.getElem_modify]
  split <;> simpa using hwidth

/-! ## Whole rows -/

def copyRow? (rows : Rows α) (target source : Nat) : Option (Rows α) :=
  if target < rows.length then
    rows[source]?.map fun row => rows.set target row
  else none

theorem copyRow?_eq_some {target source : Nat}
    (hcopy : rows.copyRow? target source = some rows') :
    target < rows.length ∧
      ∃ row, rows[source]? = some row ∧ rows' = rows.set target row := by
  unfold copyRow? at hcopy
  split at hcopy
  · rename_i htarget
    obtain ⟨row, hrow, heq⟩ := Option.map_eq_some_iff.mp hcopy
    exact ⟨htarget, row, hrow, heq.symm⟩
  · contradiction

theorem IsRect.exists_copyRow? (hr : IsRect rows h w) (target source : Nat)
    (htarget : (target : Int) < h) (hsource : (source : Int) < h) :
    ∃ rows', rows.copyRow? target source = some rows' := by
  have hheight := hr.height
  have ht : target < rows.length := by omega
  have hs : source < rows.length := by omega
  exact ⟨rows.set target rows[source], by simp [copyRow?, ht, hs]⟩

theorem get?_copyRow? {target source : Nat}
    (hcopy : rows.copyRow? target source = some rows') (y x : Int) :
    rows'.get? y x =
      if y = target then rows.get? source x else rows.get? y x := by
  obtain ⟨htarget, row, hrow, rfl⟩ := copyRow?_eq_some hcopy
  unfold get?
  by_cases hy : y = target
  · subst hy
    by_cases hx : 0 ≤ x
    · simp [hx, htarget, hrow]
    · simp [hx]
  · by_cases hpos : 0 ≤ y ∧ 0 ≤ x
    · have hne : target ≠ y.toNat := by omega
      simp [hpos, hy, List.getElem?_set_ne hne]
    · simp [hpos, hy]

theorem IsRect.copyRow? {target source : Nat} (hr : IsRect rows h w)
    (hcopy : rows.copyRow? target source = some rows') : IsRect rows' h w := by
  obtain ⟨-, row, hrow, rfl⟩ := copyRow?_eq_some hcopy
  refine ⟨by simpa using hr.height, ?_⟩
  intro other hother
  rcases List.mem_or_eq_of_mem_set hother with hold | rfl
  · exact hr.width _ hold
  · exact hr.width _ (List.mem_of_getElem? hrow)

def replicate (h w : Nat) (a : α) : Rows α :=
  List.replicate h (List.replicate w a)

theorem isRect_replicate (h w : Nat) (a : α) :
    IsRect (replicate h w a) h w := by
  refine ⟨by simp [replicate], ?_⟩
  intro row hrow
  rw [List.eq_of_mem_replicate hrow]
  simp

theorem get?_replicate {h w : Nat} {a content : α} {y x : Int}
    (hget : (replicate h w a).get? y x = some content) : content = a := by
  unfold get? replicate at hget
  split at hget
  · rw [Option.bind_eq_some_iff] at hget
    rcases hget with ⟨row, hrow, hcell⟩
    have hmem := List.mem_of_getElem? hrow
    rw [List.eq_of_mem_replicate hmem] at hcell
    exact List.eq_of_mem_replicate (List.mem_of_getElem? hcell)
  · contradiction

/-! ## A row with rows above and below it -/

variable {above below : Rows α} {row : List α}

theorem get?_middle (i : Nat) :
    get? (above ++ row :: below) above.length i = row[i]? := by
  simp [get?]

theorem set?_middle {i : Nat} (hi : i < row.length) (a : α) :
    set? (above ++ row :: below) above.length i a =
      some (above ++ row.set i a :: below) := by
  have hmodify : (above ++ row :: below).modify above.length (·.set i a) =
      above ++ row.set i a :: below := by
    rw [List.modify_eq_take_cons_drop (by simp)]
    simp
  simp [set?, get?_middle, hi, hmodify]

theorem copyRow?_middle (above below : Rows α) (upper lower : List α) :
    copyRow? (above ++ upper :: lower :: below) (above.length + 1)
        above.length =
      some (above ++ upper :: upper :: below) := by
  simp [copyRow?]

/-! ## Splitting at a cell -/

/-- A cell that can be read stands between a left and a right part of its row,
and writing it replaces it there. -/
theorem exists_split_of_get? {a : α} (hget : rows.get? y x = some a) :
    ∃ above left right below, rows = above ++ (left ++ a :: right) :: below ∧
      ∀ b, rows.set? y x b =
        some (above ++ (left ++ b :: right) :: below) := by
  have hpos : 0 ≤ y ∧ 0 ≤ x := by
    by_contra hneg
    simp [get?, hneg] at hget
  have hcell := hget
  rw [get?, if_pos hpos, Option.bind_eq_some_iff] at hcell
  obtain ⟨row, hrow, hcell⟩ := hcell
  obtain ⟨hy, rfl⟩ := List.getElem?_eq_some_iff.mp hrow
  obtain ⟨hx, rfl⟩ := List.getElem?_eq_some_iff.mp hcell
  refine ⟨rows.take y.toNat, rows[y.toNat].take x.toNat,
    rows[y.toNat].drop (x.toNat + 1), rows.drop (y.toNat + 1), ?_, ?_⟩
  · rw [List.getElem_cons_drop, List.take_append_drop,
      List.getElem_cons_drop, List.take_append_drop]
  · intro b
    simp only [set?, hget, List.modify_eq_take_cons_drop hy,
      List.set_eq_take_append_cons_drop, if_pos hx]

/-- Two rectangles of one size with the same cells are equal. -/
theorem IsRect.ext (hr : IsRect rows h w) (hr' : IsRect rows' h w)
    (hget : ∀ y x, Within h w y x → rows.get? y x = rows'.get? y x) :
    rows = rows' := by
  have hheight := hr.height
  have hheight' := hr'.height
  apply List.ext_getElem (by omega)
  intro i hi hi'
  have hwidth := hr.width _ (List.getElem_mem hi)
  have hwidth' := hr'.width _ (List.getElem_mem hi')
  apply List.ext_getElem (by omega)
  intro j hj hj'
  have hcell := hget i j ⟨by omega, by omega, by omega, by omega⟩
  simpa [get?, hi, hi', hj, hj'] using hcell

theorem IsRect.map {β : Type*} (hr : IsRect rows h w) (f : α → β) :
    IsRect (List.map (List.map f) rows) h w := by
  refine ⟨by simpa using hr.height, ?_⟩
  intro row hrow
  obtain ⟨old, hold, rfl⟩ := List.mem_map.mp hrow
  simpa using hr.width old hold

theorem get?_map {β : Type*} (f : α → β) (y x : Int) :
    get? (List.map (List.map f) rows) y x = (rows.get? y x).map f := by
  unfold get?
  split
  · cases hrow : rows[y.toNat]? <;> simp [hrow]
  · rfl

/-! ## The rows with a given flag -/

def withFlag {β : Type*} (flag : Bool) : List β → List Bool → List β
  | row :: rows, own :: flags =>
      if own = flag then row :: withFlag flag rows flags
      else withFlag flag rows flags
  | _, _ => []

section WithFlag

variable {β : Type*}

theorem length_withFlag (flag : Bool) (rows : List β) (flags : List Bool)
    (hlength : rows.length = flags.length) :
    (withFlag flag rows flags).length = flags.count flag := by
  induction rows generalizing flags with
  | nil =>
      rw [List.eq_nil_of_length_eq_zero hlength.symm]
      rfl
  | cons row rows ih =>
      cases flags with
      | nil => simp at hlength
      | cons own flags =>
          have htail := ih flags (by simpa using hlength)
          by_cases hown : own = flag <;> simp [withFlag, hown, htail]

theorem withFlag_map (flag : Bool) (rows : List β) (flagOf : β → Bool) :
    withFlag flag rows (rows.map flagOf) =
      rows.filter fun row => flagOf row = flag := by
  induction rows with
  | nil => rfl
  | cons row rows ih =>
      by_cases hown : flagOf row = flag <;> simp [withFlag, hown, ih]

theorem withFlag_perm (rows : List β) (flags : List Bool)
    (hlength : rows.length = flags.length) :
    (withFlag false rows flags ++ withFlag true rows flags).Perm rows := by
  induction rows generalizing flags with
  | nil => cases flags <;> exact .nil
  | cons row rows ih =>
      cases flags with
      | nil => simp at hlength
      | cons own flags =>
          have htail := ih flags (by simpa using hlength)
          cases own with
          | false => simpa [withFlag] using htail.cons row
          | true =>
              simp only [withFlag, Bool.true_eq_false, if_false, if_true]
              exact List.perm_middle.trans (htail.cons row)

end WithFlag

end Rows

end Foundation
