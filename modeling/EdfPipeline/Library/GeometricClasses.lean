import Mathlib.Algebra.Group.Nat.Defs
import Mathlib.Data.Nat.Log
import Mathlib.Order.Bounds.Basic

/-!
# Geometric size classes

The sizes that are kept are the powers of a base between two exponents. A bound is
rounded up to the least of them that reaches it.
-/

set_option autoImplicit false

namespace GeometricClasses

def sizes (base low high : Nat) : List Nat :=
  (List.range' low (high + 1 - low)).map fun exponent => base ^ exponent

/-- The exponent of the size that a bound is rounded up to. -/
def exponentFor (base low bound : Nat) : Nat := max low (Nat.clog base bound)

section Sizes

variable {base low high exponent : Nat}

theorem mem_sizes {size : Nat} :
    size ∈ sizes base low high ↔
      ∃ exponent, (low ≤ exponent ∧ exponent ≤ high) ∧ base ^ exponent = size := by
  rw [sizes, List.mem_map]
  refine exists_congr fun exponent => and_congr_left' ?_
  rw [List.mem_range'_1]
  omega

/-- A size stands as far behind the first one as its exponent is above the lowest. -/
theorem getElem?_sizes (above : low ≤ exponent) (below : exponent ≤ high) :
    (sizes base low high)[exponent - low]? = some (base ^ exponent) := by
  have inside : exponent - low < high + 1 - low := by omega
  have place : low + (exponent - low) = exponent := Nat.add_sub_of_le above
  rw [sizes, List.getElem?_map, List.getElem?_range' inside, Nat.one_mul, place]
  rfl

end Sizes

section Rounding

variable {base low high bound : Nat}

theorem low_le_exponentFor : low ≤ exponentFor base low bound := Nat.le_max_left _ _

theorem exponentFor_le (ordered : low ≤ high) (reached : bound ≤ base ^ high) :
    exponentFor base low bound ≤ high :=
  Nat.max_le.mpr ⟨ordered, Nat.clog_le_of_le_pow reached⟩

/-- No smaller size reaches the bound. -/
theorem isLeast_exponentFor (large : 1 < base) (ordered : low ≤ high)
    (reached : bound ≤ base ^ high) :
    IsLeast {size | size ∈ sizes base low high ∧ bound ≤ size}
      (base ^ exponentFor base low bound) := by
  constructor
  · constructor
    · exact mem_sizes.mpr ⟨_, ⟨low_le_exponentFor, exponentFor_le ordered reached⟩, rfl⟩
    · have logarithm : Nat.clog base bound ≤ exponentFor base low bound := Nat.le_max_right _ _
      exact (Nat.clog_le_iff_le_pow large).mp logarithm
  · rintro size ⟨member, reaches⟩
    obtain ⟨exponent, ⟨above, below⟩, rfl⟩ := mem_sizes.mp member
    have logarithm : Nat.clog base bound ≤ exponent := (Nat.clog_le_iff_le_pow large).mpr reaches
    exact Nat.pow_le_pow_right (Nat.zero_lt_of_lt large) (Nat.max_le.mpr ⟨above, logarithm⟩)

end Rounding

/-- Rounding up keeps the order of the bounds, whatever the sizes are. -/
theorem rounded_mono {α : Type} [Preorder α] {sizes : Set α} {bound bound' rounded rounded' : α}
    (has : IsLeast {size | size ∈ sizes ∧ bound ≤ size} rounded)
    (has' : IsLeast {size | size ∈ sizes ∧ bound' ≤ size} rounded') (bounds : bound ≤ bound') :
    rounded ≤ rounded' := by
  apply has'.mono has
  rintro size ⟨member, reaches⟩
  exact ⟨member, bounds.trans reaches⟩

end GeometricClasses
