import Mathlib.Algebra.Order.Floor.Semiring
import Mathlib.Data.List.Count
import Mathlib.Data.List.Sort
import Mathlib.Data.Rat.Floor

/-!
# Nearest-rank percentiles

The element of a given rank is told by counting: enough elements of the bag are
no larger, and too few are smaller. Sorting the bag finds it.
-/

set_option autoImplicit false

namespace NearestRank

variable {α : Type} [LinearOrder α]

/-- `value` comes at position `rank`, counted from 1, when the bag is sorted. -/
structure HasRank (rank : Nat) (bag : List α) (value : α) : Prop where
  member : value ∈ bag
  reaches : rank ≤ bag.countP (· ≤ value)
  below : bag.countP (· < value) < rank

instance (rank : Nat) (bag : List α) (value : α) : Decidable (HasRank rank bag value) :=
  decidable_of_iff
    (value ∈ bag ∧ rank ≤ bag.countP (· ≤ value) ∧ bag.countP (· < value) < rank)
    ⟨fun ⟨member, reaches, below⟩ => ⟨member, reaches, below⟩,
      fun ⟨member, reaches, below⟩ => ⟨member, reaches, below⟩⟩

theorem HasRank.perm {rank : Nat} {bag bag' : List α} {value : α} (has : HasRank rank bag value)
    (same : bag.Perm bag') : HasRank rank bag' value where
  member := same.mem_iff.mp has.member
  reaches := same.countP_eq _ ▸ has.reaches
  below := same.countP_eq _ ▸ has.below

/-- A higher rank never has a smaller element. -/
theorem HasRank.mono {low high : Nat} {bag : List α} {first second : α}
    (has : HasRank low bag first) (has' : HasRank high bag second) (ranks : low ≤ high) :
    first ≤ second := by
  by_contra later
  have smaller : second < first := not_le.mp later
  have counted : bag.countP (· ≤ second) ≤ bag.countP (· < first) := by
    refine List.countP_mono_left ?_
    intro other _ least
    exact decide_eq_true ((of_decide_eq_true least).trans_lt smaller)
  have reaches := has'.reaches
  have below := has.below
  omega

theorem HasRank.unique {rank : Nat} {bag : List α} {first second : α}
    (has : HasRank rank bag first) (has' : HasRank rank bag second) : first = second :=
  le_antisymm (has.mono has' le_rfl) (has'.mono has le_rfl)

theorem HasRank.le_of_first {bag : List α} {least : α} (has : HasRank 1 bag least) :
    ∀ other ∈ bag, least ≤ other := by
  intro other member
  by_contra smaller
  have counted : 0 < bag.countP (· < least) :=
    List.countP_pos_iff.mpr ⟨other, member, decide_eq_true (not_le.mp smaller)⟩
  have below := has.below
  omega

theorem HasRank.le_of_last {bag : List α} {greatest : α} (has : HasRank bag.length bag greatest) :
    ∀ other ∈ bag, other ≤ greatest := by
  have all : bag.countP (· ≤ greatest) = bag.length :=
    le_antisymm List.countP_le_length has.reaches
  intro other member
  exact of_decide_eq_true (List.countP_eq_length.mp all other member)

theorem hasRank_one {bag : List α} {least : α} (member : least ∈ bag)
    (least_le : ∀ other ∈ bag, least ≤ other) : HasRank 1 bag least where
  member
  reaches := List.countP_pos_iff.mpr ⟨least, member, decide_eq_true le_rfl⟩
  below := by
    have none_ : bag.countP (· < least) = 0 :=
      List.countP_eq_zero.mpr fun other listed => by simpa using least_le other listed
    omega

theorem hasRank_length {bag : List α} {greatest : α} (member : greatest ∈ bag)
    (le_greatest : ∀ other ∈ bag, other ≤ greatest) : HasRank bag.length bag greatest where
  member
  reaches := by
    have all : bag.countP (· ≤ greatest) = bag.length :=
      List.countP_eq_length.mpr fun other listed => decide_eq_true (le_greatest other listed)
    exact all.ge
  below := by
    refine lt_of_le_of_ne List.countP_le_length ?_
    intro all
    have smaller := List.countP_eq_length.mp all greatest member
    exact lt_irrefl _ (of_decide_eq_true smaller)

/-- In a sorted list the elements up to an index are no larger, and only those
before it may be smaller. -/
theorem hasRank_of_sorted {sorted : List α} (ordered : sorted.Pairwise (· ≤ ·)) {index : Nat}
    {value : α} (found : sorted[index]? = some value) : HasRank (index + 1) sorted value := by
  obtain ⟨within, here⟩ := List.getElem?_eq_some_iff.mp found
  have split : sorted = sorted.take index ++ value :: sorted.drop (index + 1) := by
    rw [← here, List.cons_getElem_drop_succ, List.take_append_drop]
  rw [split] at ordered
  obtain ⟨_, tail, across⟩ := List.pairwise_append.mp ordered
  obtain ⟨later, _⟩ := List.pairwise_cons.mp tail
  have length : (sorted.take index).length = index := List.length_take_of_le within.le
  refine ⟨List.mem_of_getElem? found, ?_, ?_⟩
  · have before : (sorted.take index).countP (· ≤ value) = index := by
      rw [List.countP_eq_length.mpr fun other member => ?_, length]
      exact decide_eq_true (across other member value List.mem_cons_self)
    have itself : 0 < (value :: sorted.drop (index + 1)).countP (· ≤ value) :=
      List.countP_pos_iff.mpr ⟨value, List.mem_cons_self, decide_eq_true le_rfl⟩
    rw [split, List.countP_append, before]
    omega
  · have after : (value :: sorted.drop (index + 1)).countP (· < value) = 0 := by
      refine List.countP_eq_zero.mpr ?_
      intro other member
      rcases List.mem_cons.mp member with same | beyond
      · simp [same]
      · simpa using later other beyond
    have before : (sorted.take index).countP (· < value) ≤ index :=
      List.countP_le_length.trans length.le
    rw [split, List.countP_append, after]
    omega

/-! ## Ranks of percentiles -/

/-- The rank of a percentile among `count` elements. -/
def percentRank (count : Nat) (percent : ℚ) : Nat := ⌈(count : ℚ) * percent / 100⌉₊

theorem percentRank_mono (count : Nat) {low high : ℚ} (percents : low ≤ high) :
    percentRank count low ≤ percentRank count high := by
  have scaled : (count : ℚ) * low ≤ count * high :=
    mul_le_mul_of_nonneg_left percents (Nat.cast_nonneg count)
  exact Nat.ceil_mono (by linarith)

theorem percentRank_pos {count : Nat} (some_ : 0 < count) {percent : ℚ} (positive : 0 < percent) :
    0 < percentRank count percent := by
  have counted : (0 : ℚ) < count := Nat.cast_pos.mpr some_
  exact Nat.ceil_pos.mpr (by positivity)

theorem percentRank_le (count : Nat) {percent : ℚ} (within : percent ≤ 100) :
    percentRank count percent ≤ count := by
  have scaled : (count : ℚ) * percent ≤ count * 100 :=
    mul_le_mul_of_nonneg_left within (Nat.cast_nonneg count)
  exact Nat.ceil_le.mpr (by linarith)

end NearestRank
