import EdfPipeline.BufferPool.Lifecycle
import EdfPipeline.Packet

/-!
# Size classes

Rounding a length up and counting the zero bits of the result give the same place as
looking the size up in the table.
-/

set_option autoImplicit false

namespace EdfPipeline.BufferPool

open GeometricClasses TransitionSystem

/-- The least size for a length, and its place in the table and in the pools of every run. -/
structure SizeClass (len : Nat) : Prop where
  least : IsLeast {size | size ∈ bufferSizes ∧ min len maxBufferSize ≤ size} (sizeClassFor len)
  powerOfTwo : (sizeClassFor len).isPowerOfTwo
  place : bufferSizes[classIndex (sizeClassFor len)]? = some (sizeClassFor len)
  valid : ∀ (actions : List Action) (state : State), run .initial actions = some state →
    classIndex (sizeClassFor len) < state.pools.length
  noOverflow : nextPowerOfTwo (min len maxBufferSize) < wordBound
  noUnderflow : trailingZeros minBufferSize ≤ trailingZeros (sizeClassFor len)

/-- No run adds a pool, takes one away or puts a buffer into the wrong one. -/
theorem run_clean {actions : List Action} {state : State} (ran : run .initial actions = some state) :
    Clean state.pools := by
  obtain ⟨past, recorded⟩ := exists_recorded ran []
  have sound : Sound (state, past) := run_invariant step_sound initial_sound recorded
  exact sound.clean

theorem trailingZeros_le_of_mem {size : Nat} (known : size ∈ bufferSizes) :
    trailingZeros minBufferSize ≤ trailingZeros size := by
  rw [bufferSizes_eq] at known
  obtain ⟨exponent, ⟨above, below⟩, rfl⟩ := mem_sizes.mp known
  have fits : exponent < 64 := by omega
  rw [trailingZeros_minBufferSize, trailingZeros_two_pow fits]
  exact above

theorem sizeClassFor_mono : Monotone sizeClassFor := by
  intro len len' le
  have capped : min len maxBufferSize ≤ min len' maxBufferSize := by omega
  exact rounded_mono (sizeClassFor_isLeast len) (sizeClassFor_isLeast len') capped

theorem sizeClasses_least_and_indexed : (∀ len, SizeClass len) ∧ Monotone sizeClassFor := by
  refine ⟨?_, sizeClassFor_mono⟩
  intro len
  have known := sizeClassFor_mem len
  constructor
  case least => exact sizeClassFor_isLeast len
  case powerOfTwo => exact ⟨_, sizeClassFor_eq len⟩
  case place => exact bufferSizes_classIndex known
  case valid =>
    intro actions state ran
    exact (run_clean ran).index_lt known
  case noOverflow =>
    have cap : maxBufferSize < wordBound := by decide
    exact (nextPowerOfTwo_capped len).trans_lt cap
  case noUnderflow => exact trailingZeros_le_of_mem known

end EdfPipeline.BufferPool
