import Mathlib.Data.List.Perm.Basic

/-!
# Dealing from reshuffled decks

A sequence is dealt from a hand when it lists the hand in order and then, each
time the hand is used up, a new permutation of the deck.
-/

namespace Foundation

variable {α : Type*}

inductive Dealt (deck : List α) : List α → List α → Prop where
  | nil (hand : List α) : Dealt deck hand []
  | next (a : α) (hand seq : List α) : Dealt deck hand seq →
      Dealt deck (a :: hand) (a :: seq)
  | reshuffle (hand seq : List α) : hand.Perm deck → Dealt deck hand seq →
      Dealt deck [] seq

namespace Dealt

variable {deck hand seq : List α}

/-- Either the hand outlasts the sequence, or the hand is dealt completely. -/
theorem split (hdealt : Dealt deck hand seq) :
    (∃ rest, hand = seq ++ rest) ∨
      ∃ tail, seq = hand ++ tail ∧ Dealt deck [] tail := by
  induction hdealt with
  | nil hand => exact .inl ⟨hand, rfl⟩
  | next a hand seq _ ih =>
      rcases ih with ⟨rest, rfl⟩ | ⟨tail, rfl, htail⟩
      · exact .inl ⟨rest, rfl⟩
      · exact .inr ⟨tail, rfl, htail⟩
  | reshuffle hand seq hperm hdealt _ =>
      exact .inr ⟨seq, rfl, .reshuffle hand seq hperm hdealt⟩

/-- Every aligned block of a sequence dealt from an empty hand is a permutation
of the deck. -/
theorem block_perm (hdealt : Dealt deck [] seq) (hdeck : deck ≠ []) {k : Nat}
    (hk : deck.length * (k + 1) ≤ seq.length) :
    ((seq.drop (deck.length * k)).take deck.length).Perm deck := by
  have hpos : 0 < deck.length := List.length_pos_iff.mpr hdeck
  induction k generalizing seq with
  | zero =>
      cases hdealt with
      | nil =>
          simp only [Nat.zero_add, Nat.mul_one, List.length_nil] at hk
          omega
      | reshuffle hand _ hperm hhand =>
          have hlength := hperm.length_eq
          rcases hhand.split with ⟨rest, rfl⟩ | ⟨tail, rfl, -⟩
          · simp only [Nat.zero_add, Nat.mul_one] at hk
            rw [List.length_append] at hlength
            have hrest : rest = [] := List.length_eq_zero_iff.mp (by omega)
            subst hrest
            simpa [List.take_of_length_le (Nat.le_of_eq (by simpa using hlength))]
              using hperm
          · simpa [← hlength] using hperm
  | succ k ih =>
      cases hdealt with
      | nil =>
          simp only [List.length_nil, Nat.le_zero, Nat.mul_eq_zero] at hk
          omega
      | reshuffle hand _ hperm hhand =>
          have hlength := hperm.length_eq
          rw [Nat.mul_succ] at hk ⊢
          rcases hhand.split with ⟨rest, rfl⟩ | ⟨tail, rfl, htail⟩
          · rw [List.length_append] at hlength
            have : deck.length * (k + 1) = deck.length * k + deck.length :=
              Nat.mul_succ _ _
            omega
          · rw [List.length_append] at hk
            have hdrop : (hand ++ tail).drop (deck.length * k + deck.length) =
                tail.drop (deck.length * k) := by
              rw [Nat.add_comm, ← List.drop_drop, ← hlength, List.drop_left]
            rw [hdrop]
            exact ih htail (by omega)

/-- Every window of two decks less one holds every member of the deck. -/
theorem exists_in_window (hdealt : Dealt deck [] seq) {a : α} (ha : a ∈ deck)
    (first : Nat) (hfirst : first + (2 * deck.length - 1) ≤ seq.length) :
    ∃ l, first ≤ l ∧ l < first + (2 * deck.length - 1) ∧ seq[l]? = some a := by
  have hdeck : deck ≠ [] := List.ne_nil_of_mem ha
  have hpos : 0 < deck.length := List.length_pos_iff.mpr hdeck
  -- The first block that starts at or after `first`.
  obtain ⟨k, hle, hlt⟩ : ∃ k, first ≤ deck.length * k ∧
      deck.length * k < first + deck.length := by
    refine ⟨(first + (deck.length - 1)) / deck.length, ?_, ?_⟩
    · have := Nat.div_add_mod (first + (deck.length - 1)) deck.length
      have := Nat.mod_lt (first + (deck.length - 1)) hpos
      omega
    · have := Nat.div_mul_le_self (first + (deck.length - 1)) deck.length
      rw [Nat.mul_comm] at this
      omega
  have hblock := hdealt.block_perm hdeck (k := k) (by rw [Nat.mul_succ]; omega)
  obtain ⟨i, hi, hget⟩ := List.getElem_of_mem (hblock.mem_iff.mpr ha)
  rw [List.length_take, List.length_drop] at hi
  rw [List.getElem_take, List.getElem_drop] at hget
  refine ⟨deck.length * k + i, by omega, by omega, ?_⟩
  rw [List.getElem?_eq_getElem (by omega), hget]

end Dealt

end Foundation
