import Mathlib.Algebra.Order.Group.Multiset

/-!
# Handing over in turn

Items are taken from a queue and handed over later, in between held by one of
several parties or put aside. If at most one is held at a time and it is always
the next one, they are handed over in the order they were taken.
-/

set_option autoImplicit false

namespace HandOver

variable {α : Type}

/-- At most one item is held, and it is the next to be handed over. -/
def InTurn (taken handed : List α) (held : Multiset α) : Prop :=
  ∃ next : List α, ↑next = held ∧ next.length ≤ 1 ∧ handed ++ next <+: taken

theorem inTurn_nil : InTurn ([] : List α) [] 0 := ⟨[], rfl, Nat.zero_le _, List.prefix_refl _⟩

variable {taken handed : List α} {held : Multiset α}

theorem InTurn.inOrder (inTurn : InTurn taken handed held) : handed <+: taken := by
  obtain ⟨next, _, _, isPrefix⟩ := inTurn
  exact (List.prefix_append handed next).trans isPrefix

theorem InTurn.take (inTurn : InTurn taken handed held) (items : List α) :
    InTurn (taken ++ items) handed held := by
  obtain ⟨next, same, single, isPrefix⟩ := inTurn
  exact ⟨next, same, single, isPrefix.trans (List.prefix_append _ _)⟩

theorem InTurn.alone {item : α} (inTurn : InTurn taken handed ({item} + held)) :
    held = 0 ∧ handed ++ [item] <+: taken := by
  obtain ⟨next, same, single, isPrefix⟩ := inTurn
  have size := congrArg Multiset.card same
  rw [Multiset.coe_card, Multiset.card_add, Multiset.card_singleton] at size
  have empty : held = 0 := Multiset.card_eq_zero.mp (by omega)
  rw [empty, add_zero, Multiset.coe_eq_singleton] at same
  exact ⟨empty, same ▸ isPrefix⟩

/-- The next item is taken in hand while none is held. -/
theorem InTurn.grab {seen : Option α} (inTurn : InTurn taken handed held)
    (next : ∀ item ∈ seen, held = 0 ∧ handed ++ [item] <+: taken) :
    InTurn taken handed (seen.elim 0 singleton + held) := by
  cases seen with
  | none => rwa [Option.elim_none, zero_add]
  | some item =>
      obtain ⟨empty, isPrefix⟩ := next item rfl
      rw [Option.elim_some, empty, add_zero]
      exact ⟨[item], rfl, Nat.le_refl 1, isPrefix⟩

/-- What is in hand is put aside. -/
theorem InTurn.release {seen : Option α} (inTurn : InTurn taken handed (seen.elim 0 singleton + held)) :
    InTurn taken handed held := by
  cases seen with
  | none => rwa [Option.elim_none, zero_add] at inTurn
  | some item =>
      obtain ⟨rfl, next⟩ := inTurn.alone
      refine ⟨[], rfl, Nat.zero_le _, ?_⟩
      rw [List.append_nil]
      exact (List.prefix_append handed [item]).trans next

theorem InTurn.hand {seen : Option α} (inTurn : InTurn taken handed (seen.elim 0 singleton + held)) :
    InTurn taken (handed ++ seen.toList) held := by
  cases seen with
  | none =>
      rw [Option.elim_none, zero_add] at inTurn
      rwa [Option.toList_none, List.append_nil]
  | some item =>
      obtain ⟨rfl, next⟩ := inTurn.alone
      exact ⟨[], rfl, Nat.zero_le _, (List.append_nil _).symm ▸ next⟩

end HandOver
