import Mathlib.Data.Int.Log
import Mathlib.Data.Rat.Floor

/-!
# Rounding to double precision

What a floating-point operation returns is its exact result rounded to 53 bits,
to the nearest and to even on a tie. Only finite results in the normal range that
are not negative are covered.
-/

set_option autoImplicit false

namespace Binary64

/-- The nearest whole number, the even one on a tie. -/
def roundEven (value : ℚ) : Nat :=
  let low := ⌊value⌋₊
  let rest := value - low
  if rest < 1 / 2 ∨ rest = 1 / 2 ∧ low % 2 = 0 then low else low + 1

/-- The value of the last of 53 bits. -/
def lastPlace (value : ℚ) : ℚ := 2 ^ (Int.log 2 value - 52)

def nearest (value : ℚ) : ℚ :=
  if 0 < value then roundEven (value / lastPlace value) * lastPlace value else 0

example : nearest (1 / 10) = 3602879701896397 / 2 ^ 55 := by decide +kernel

theorem floor_le_roundEven (value : ℚ) : ⌊value⌋₊ ≤ roundEven value := by
  unfold roundEven
  dsimp only
  split
  · exact le_rfl
  · exact Nat.le_succ _

theorem lastPlace_pos (value : ℚ) : 0 < lastPlace value := zpow_pos (by norm_num) _

theorem lastPlace_le {value : ℚ} (positive : 0 < value) : lastPlace value ≤ value := by
  have leading : ((2 : Nat) : ℚ) ^ Int.log 2 value ≤ value :=
    Int.zpow_log_le_self one_lt_two positive
  calc lastPlace value ≤ 2 ^ Int.log 2 value :=
        zpow_le_zpow_right₀ one_le_two (Int.sub_le_self _ (by norm_num))
    _ ≤ value := leading

/-- No positive result is lost. -/
theorem nearest_pos {value : ℚ} (positive : 0 < value) : 0 < nearest value := by
  have counted : 1 ≤ ⌊value / lastPlace value⌋₊ :=
    Nat.le_floor (by
      rw [Nat.cast_one, one_le_div (lastPlace_pos value)]
      exact lastPlace_le positive)
  have some_ : 0 < roundEven (value / lastPlace value) :=
    counted.trans (floor_le_roundEven _)
  rw [nearest, if_pos positive]
  exact mul_pos (Nat.cast_pos.mpr some_) (lastPlace_pos value)

end Binary64
