import EdfPipeline.Library.Binary64
import EdfPipeline.Packet

/-!
# Durations in floating point

Scaling a duration goes through seconds in double precision and comes back to a
whole number of nanoseconds.
-/

set_option autoImplicit false

namespace EdfPipeline

open Binary64

/-- Whole seconds and the rest of the nanoseconds, converted one by one. -/
def Duration.asSecsF64 (duration : Duration) : ℚ :=
  nearest (nearest (duration / 1000000000 : Nat) +
    nearest ((duration % 1000000000 : Nat) / 1000000000))

def Duration.fromSecsF64 (secs : ℚ) : Duration := roundEven (secs * 1000000000)

def Duration.mulF64 (duration : Duration) (factor : ℚ) : Duration :=
  Duration.fromSecsF64 (nearest (factor * duration.asSecsF64))

/-- A quarter and three quarters of a nanosecond are rounded away. -/
example : Duration.mulF64 1010 (nearest (1 / 40)) = 25 ∧ Duration.mulF64 1030 (nearest (1 / 40)) = 26 := by
  decide +kernel

end EdfPipeline
