import Mathlib.Data.List.Perm.Basic
import Mathlib.Data.List.Range

/-!
# A ledger of allocations

Addresses are handed out in order, so those handed out so far are the numbers
below the next one.  The ledger balances when each of them is in exactly one
place: it is either held once or it was returned once.
-/

namespace Foundation

structure Balances (held returned : List Nat) (next : Nat) : Prop where
  perm : (held ++ returned).Perm (List.range next)

namespace Balances

variable {left gone right returned : List Nat} {next : Nat}

theorem start : Balances [] [] 0 := ⟨.refl _⟩

/-- The next address is handed out and held. -/
theorem allocate (hbalance : Balances (left ++ right) returned next) :
    Balances (left ++ next :: right) returned (next + 1) where
  perm := by
    have hmiddle : (left ++ next :: right ++ returned).Perm
        (next :: (left ++ right ++ returned)) := by
      rw [List.append_assoc, List.cons_append, List.append_assoc]
      exact List.perm_middle
    rw [List.range_succ]
    exact hmiddle.trans ((hbalance.perm.cons next).trans
      (List.perm_append_singleton next _).symm)

/-- Addresses that are held are returned, the last one first. -/
theorem giveBack (hbalance : Balances (left ++ gone ++ right) returned next) :
    Balances (left ++ right) (gone.reverse ++ returned) next where
  perm := by
    refine List.Perm.trans ?_ hbalance.perm
    have hreverse : (gone.reverse ++ returned).Perm (gone ++ returned) :=
      gone.reverse_perm.append_right returned
    have hswap : (right ++ (gone ++ returned)).Perm
        (gone ++ (right ++ returned)) := by
      rw [← List.append_assoc, ← List.append_assoc]
      exact List.perm_append_comm.append_right returned
    rw [List.append_assoc, List.append_assoc, List.append_assoc]
    exact ((hreverse.append_left right).trans hswap).append_left left

end Balances

end Foundation
