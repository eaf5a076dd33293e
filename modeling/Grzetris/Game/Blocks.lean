import Grzetris.Engine.Blocks
import Grzetris.Game.Keeps
import Grzetris.Game.Pace
import Grzetris.Game.Sessions

/-!
# No block is lost or deleted twice

The ledger of `Engine.Blocks` along a run of the main loop, and through the
`deinit` that follows it.
-/

namespace Grzetris

open Foundation Playfield

variable {p p' : Playfield} {env : Env} {engine : Engine}

/-! ## The end of the game -/

private theorem deleteBlock_cases {pos : Vect2D}
    (hdelete : deleteBlock p pos = some p') :
    p' = p ∨ ∃ ref, (p.free ref).setCell? pos none = some p' := by
  simp only [deleteBlock, Option.bind_eq_bind, Option.bind_eq_some_iff]
    at hdelete
  obtain ⟨content, -, hdelete⟩ := hdelete
  cases content with
  | none =>
      cases hdelete
      exact .inl rfl
  | some ref => exact .inr ⟨ref, hdelete⟩

/-- A deletion changes neither the size of the playfield nor its next address,
and fills no cell. -/
theorem deleteBlock_frame {pos : Vect2D}
    (hdelete : deleteBlock p pos = some p') :
    p'.h = p.h ∧ p'.w = p.w ∧ p'.heap.next = p.heap.next ∧
      ∀ other, p.cell? other = some none → p'.cell? other = some none := by
  rcases deleteBlock_cases hdelete with rfl | ⟨ref, hset⟩
  · exact ⟨rfl, rfl, rfl, fun _ hother => hother⟩
  · simp only [setCell?, Option.bind_eq_bind, Option.bind_eq_some_iff,
      Option.some.injEq] at hset
    obtain ⟨blocks, hset, rfl⟩ := hset
    refine ⟨rfl, rfl, rfl, fun other hother => ?_⟩
    rw [cell?, Rows.get?_set? hset]
    split
    · rfl
    · exact hother

structure Emptying (p p' : Playfield) : Prop where
  accounted : p'.Accounted
  h_eq : p'.h = p.h
  w_eq : p'.w = p.w
  next_eq : p'.heap.next = p.heap.next

theorem Emptying.deleteBlock {q q' : Playfield} {pos : Vect2D}
    (hq : Emptying p q) (hdelete : deleteBlock q pos = some q') :
    Emptying p q' := by
  obtain ⟨hh, hw, hnext, -⟩ := deleteBlock_frame hdelete
  exact ⟨hq.accounted.deleteBlock hdelete, hh.trans hq.h_eq, hw.trans hq.w_eq,
    hnext.trans hq.next_eq⟩

theorem Emptying.row {q q' : Playfield} {y : Nat} (hq : Emptying p q)
    (hrow : (List.range q.w.toNat).foldlM
      (fun q (x : Nat) => Grzetris.deleteBlock q ⟨x, y⟩) q = some q') :
    Emptying p q' :=
  foldlM_keeps (fun _ _ _ ht hstep => Emptying.deleteBlock ht hstep) hq hrow

theorem Emptying.row_empty {q q' : Playfield} {y : Nat} (hq : Emptying p q)
    (hrow : (List.range q.w.toNat).foldlM
      (fun q (x : Nat) => Grzetris.deleteBlock q ⟨x, y⟩) q = some q') :
    ∀ x ∈ List.range p.w.toNat, q'.cell? ⟨(x : Nat), y⟩ = some none := by
  rw [← hq.w_eq]
  exact foldlM_settles (I := fun _ => True)
    (P := fun (x : Nat) t => t.cell? ⟨x, y⟩ = some none)
    (fun _ _ _ _ _ => trivial)
    (fun _ _ _ _ hstep => deleteBlock_empties hstep)
    (fun _ _ _ _ _ hother hstep =>
      (deleteBlock_frame hstep).2.2.2 _ hother)
    trivial hrow

theorem Emptying.row_keeps {q q' : Playfield} {y : Nat} {other : Vect2D}
    (hother : q.cell? other = some none)
    (hrow : (List.range q.w.toNat).foldlM
      (fun q (x : Nat) => Grzetris.deleteBlock q ⟨x, y⟩) q = some q') :
    q'.cell? other = some none :=
  foldlM_keeps (I := fun t => t.cell? other = some none)
    (fun _ _ _ ht hstep => (deleteBlock_frame hstep).2.2.2 _ ht) hother hrow

theorem pointers_eq_nil (hr : p.Rect)
    (hempty : ∀ y ∈ List.range p.h.toNat, ∀ x ∈ List.range p.w.toNat,
      p.cell? ⟨(x : Nat), (y : Nat)⟩ = some none) : p.pointers = [] := by
  rw [pointers, List.flatMap_eq_nil_iff]
  intro row hrow
  rw [rowAddrs, List.filterMap_eq_nil_iff]
  intro content hcontent
  obtain ⟨y, hy, rfl⟩ := List.mem_iff_getElem.mp hrow
  obtain ⟨x, hx, rfl⟩ := List.mem_iff_getElem.mp hcontent
  have hheight := hr.height
  have hwidth := hr.width _ hrow
  have hcell := hempty y (List.mem_range.mpr (by omega)) x
    (List.mem_range.mpr (by omega))
  rw [cell?, Rows.get?] at hcell
  simp [hy, hx] at hcell
  simp [hcell]

/-- `deinit` leaves no block in the playfield. -/
theorem Playfield.Accounted.deinitBlocks (hp : p.Accounted)
    (hdeinit : deinitBlocks p = some p') :
    p'.Accounted ∧ p'.pointers = [] ∧ p'.heap.next = p.heap.next := by
  have hstart : Emptying p p := ⟨hp, rfl, rfl, rfl⟩
  have hend : Emptying p p' :=
    foldlM_keeps (fun _ _ _ hq hrow => hq.row hrow) hstart hdeinit
  have hempty := foldlM_settles (I := Emptying p)
    (P := fun (y : Nat) q => ∀ x ∈ List.range p.w.toNat,
      q.cell? ⟨(x : Nat), y⟩ = some none)
    (fun _ _ _ hq hrow => hq.row hrow)
    (fun _ _ _ hq hrow => hq.row_empty hrow)
    (fun _ _ _ _ _ hother hrow x hx => Emptying.row_keeps (hother x hx) hrow)
    hstart hdeinit
  rw [← hend.h_eq, ← hend.w_eq] at hempty
  exact ⟨hend.accounted, pointers_eq_nil hend.accounted.rect hempty,
    hend.next_eq⟩

/-- The playfield of a game, when no other one exists. -/
def onlyPlayfield (engine : Engine) (p : Playfield) : Memory :=
  Function.update (fun _ => none) engine.created (some p)

/--
In every state of every run each block that was allocated for the playfield is
in exactly one cell or was deleted exactly once.  When the first game of a
process ends there, `deinit` leaves the playfield empty, with every such block
deleted exactly once.
-/
theorem run_balances (run : GameRun env engine) :
    ∀ k ≤ run.length,
      Balances (run.state k).game.p.pointers (run.state k).game.p.heap.freed
        (run.state k).game.p.heap.next ∧
      (engine.playfields = [] → ∃ memory p',
        (deinit (onlyPlayfield engine (run.state k).game.p)
          (run.state k).game.engine).1 = some memory ∧
        memory engine.created = some p' ∧ p'.pointers = [] ∧
        p'.heap.freed.Perm
          (List.range (run.state k).game.p.heap.next)) := by
  have hempty : (initPlayfield engine.init 20 10).1.Accounted :=
    ⟨Rows.isRect_replicate 20 10 none, .start⟩
  have haccounted := accounted_keeps.run (fun _ _ _ => trivial) run hempty
  intro k hk
  have hp := (haccounted k hk).1
  refine ⟨hp.balance, fun hfirst => ?_⟩
  obtain ⟨p', hdeinit⟩ := deinitBlocks_spec hp.rect
  obtain ⟨hp', hempty, hnext⟩ := hp.deinitBlocks hdeinit
  have hperm := hp'.balance.perm
  rw [hempty, List.nil_append, hnext] at hperm
  have hplayfields := (run.playfields hk).1
  rw [hfirst, List.nil_append] at hplayfields
  refine ⟨Function.update (onlyPlayfield engine (run.state k).game.p)
    engine.created (some p'), p', ?_, Function.update_self .., hempty, hperm⟩
  simp [deinit, deinitPlayfields, hplayfields, onlyPlayfield, hdeinit]

theorem run_balances_lockout :
    ∃ run : GameRun (steadyEnv 500000000) Engine.fresh, run.length = 23 ∧
      Balances (run.state 23).game.p.pointers
        (run.state 23).game.p.heap.freed (run.state 23).game.p.heap.next ∧
      ∃ memory p',
        (deinit (onlyPlayfield Engine.fresh (run.state 23).game.p)
          (run.state 23).game.engine).1 = some memory ∧
        memory Engine.fresh.created = some p' ∧ p'.pointers = [] ∧
        p'.heap.freed.Perm
          (List.range (run.state 23).game.p.heap.next) := by
  obtain ⟨run, hlength, -⟩ := exists_lockoutRun
  obtain ⟨hbalances, hends⟩ := run_balances run 23 (Nat.le_of_eq hlength.symm)
  exact ⟨run, hlength, hbalances, hends rfl⟩

end Grzetris
