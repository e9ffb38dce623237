import EdfPipeline.Library.GeometricClasses
import Mathlib.Algebra.Group.Nat.Defs
import Mathlib.Data.Nat.Log

/-!
# Buffer pools

A pool of recycled buffers for each size class. A buffer is zeroed before it goes
back into its pool.
-/

set_option autoImplicit false

namespace EdfPipeline.BufferPool

open GeometricClasses

def minBufferSize : Nat := 64

def maxBufferSize : Nat := 65536

def bufferSizes : List Nat := [64, 128, 256, 512, 1024, 2048, 4096, 8192, 16384, 32768, 65536]

def buffersPerSize : Nat := 32

def nextPowerOfTwo (value : Nat) : Nat := 2 ^ Nat.clog 2 value

/-- The number of zero bits below the lowest one of a 64-bit word. -/
def trailingZeros (word : Nat) : Nat := ((List.range 64).find? word.testBit).getD 64

def sizeClassFor (len : Nat) : Nat :=
  if len = 0 then minBufferSize
  else
    let capped := min len maxBufferSize
    let next := nextPowerOfTwo capped
    let next := if next < minBufferSize then minBufferSize else next
    if maxBufferSize < next then maxBufferSize else next

def classIndex (size : Nat) : Nat := trailingZeros size - trailingZeros minBufferSize

/-- `Vec::resize` with zero bytes. -/
def resize (buffer : List UInt8) (size : Nat) : List UInt8 :=
  buffer.take size ++ List.replicate (size - buffer.length) 0

/-- The pools in the order of their sizes. The last buffer of a pool's vector comes first. -/
abbrev Pools := List (List (List UInt8))

def initialPools : Pools := bufferSizes.map fun size => List.replicate buffersPerSize (resize [] size)

def acquireVec (pools : Pools) (size : Nat) : Option (List UInt8 × Pools) :=
  let idx := classIndex size
  pools[idx]?.map fun
    | buffer :: rest => (buffer, pools.set idx rest)
    | [] => (resize [] size, pools)

def releaseVec (pools : Pools) (size : Nat) (buffer : List UInt8) : Option Pools :=
  let idx := classIndex size
  let buffer := resize (buffer.take 0) size
  pools[idx]?.map fun pool => pools.set idx (buffer :: pool)

/-! ## Size classes -/

theorem bufferSizes_eq : bufferSizes = sizes 2 6 16 := by decide

theorem nextPowerOfTwo_isLeast (value : Nat) :
    IsLeast {power | power.isPowerOfTwo ∧ value ≤ power} (nextPowerOfTwo value) := by
  constructor
  · exact ⟨⟨Nat.clog 2 value, rfl⟩, Nat.le_pow_clog Nat.one_lt_two value⟩
  · rintro power ⟨⟨exponent, rfl⟩, reaches⟩
    exact Nat.pow_le_pow_right Nat.two_pos (Nat.clog_le_of_le_pow reaches)

/-- The cap is a power of two itself, so rounding up does not leave it. -/
theorem nextPowerOfTwo_capped (len : Nat) :
    nextPowerOfTwo (min len maxBufferSize) ≤ maxBufferSize := by
  apply (nextPowerOfTwo_isLeast _).2
  exact ⟨⟨16, rfl⟩, Nat.min_le_right len maxBufferSize⟩

theorem two_pow_lt_minBufferSize {exponent : Nat} : 2 ^ exponent < minBufferSize ↔ exponent < 6 := by
  change 2 ^ exponent < 2 ^ 6 ↔ exponent < 6
  exact Nat.pow_lt_pow_iff_right Nat.one_lt_two

/-- The clamps only move the exponent into its range. -/
theorem sizeClassFor_eq (len : Nat) :
    sizeClassFor len = 2 ^ exponentFor 2 6 (min len maxBufferSize) := by
  by_cases empty : len = 0
  · subst empty
    decide
  have capped := nextPowerOfTwo_capped len
  simp only [sizeClassFor, if_neg empty, exponentFor]
  by_cases small : nextPowerOfTwo (min len maxBufferSize) < minBufferSize
  · have low := two_pow_lt_minBufferSize.mp small
    rw [if_pos small, if_neg (by decide), Nat.max_eq_left low.le]
    rfl
  · have high := not_lt.mp (mt two_pow_lt_minBufferSize.mpr small)
    rw [if_neg small, if_neg capped.not_gt, Nat.max_eq_right high]
    rfl

theorem sizeClassFor_isLeast (len : Nat) :
    IsLeast {size | size ∈ bufferSizes ∧ min len maxBufferSize ≤ size} (sizeClassFor len) := by
  rw [bufferSizes_eq, sizeClassFor_eq]
  exact isLeast_exponentFor Nat.one_lt_two (by decide) (Nat.min_le_right len (2 ^ 16))

/-- A length has one of the sizes for its class. -/
theorem sizeClassFor_mem (len : Nat) : sizeClassFor len ∈ bufferSizes :=
  (sizeClassFor_isLeast len).1.1

theorem trailingZeros_two_pow {exponent : Nat} (fits : exponent < 64) :
    trailingZeros (2 ^ exponent) = exponent := by
  have found : (List.range 64).find? (2 ^ exponent).testBit = some exponent := by
    apply List.find?_range_eq_some.mpr
    refine ⟨Nat.testBit_two_pow_self, List.mem_range.mpr fits, ?_⟩
    intro other below
    rw [Nat.testBit_two_pow_of_ne below.ne']
    rfl
  rw [trailingZeros, found]
  rfl

theorem trailingZeros_minBufferSize : trailingZeros minBufferSize = 6 :=
  trailingZeros_two_pow (by decide : 6 < 64)

theorem bufferSizes_classIndex {size : Nat} (known : size ∈ bufferSizes) :
    bufferSizes[classIndex size]? = some size := by
  rw [bufferSizes_eq] at known ⊢
  obtain ⟨exponent, ⟨above, below⟩, rfl⟩ := mem_sizes.mp known
  rw [classIndex, trailingZeros_two_pow (by omega), trailingZeros_minBufferSize]
  exact getElem?_sizes above below

theorem classIndex_injective {size other : Nat} (known : size ∈ bufferSizes)
    (known' : other ∈ bufferSizes) (same : classIndex size = classIndex other) : size = other := by
  have found := bufferSizes_classIndex known
  rw [same, bufferSizes_classIndex known'] at found
  exact (Option.some.inj found).symm

/-! ## Pools of zeroed buffers -/

def zeroed (size : Nat) : List UInt8 := List.replicate size 0

theorem resize_nil (size : Nat) : resize [] size = zeroed size := by
  simp [resize, zeroed]

/-- Each pool holds zeroed buffers of its size only. -/
structure Clean (pools : Pools) : Prop where
  length : pools.length = bufferSizes.length
  buffers : ∀ (index size : Nat) (pool : List (List UInt8)), bufferSizes[index]? = some size →
    pools[index]? = some pool → ∀ buffer ∈ pool, buffer = zeroed size

def pooled (pools : Pools) (size : Nat) : Nat := (pools[classIndex size]?.getD []).length

theorem initialPools_clean : Clean initialPools where
  length := List.length_map ..
  buffers index size pool sized found buffer member := by
    rw [initialPools, List.getElem?_map, sized, Option.map_some] at found
    cases found
    rw [List.eq_of_mem_replicate member, resize_nil]

theorem initialPools_pooled {size : Nat} (known : size ∈ bufferSizes) :
    pooled initialPools size = buffersPerSize := by
  rw [pooled, initialPools, List.getElem?_map, bufferSizes_classIndex known]
  exact List.length_replicate

section Exchange

variable {pools : Pools} {size : Nat}

theorem Clean.index_lt (clean : Clean pools) (known : size ∈ bufferSizes) :
    classIndex size < pools.length := by
  rw [clean.length]
  exact (List.getElem?_eq_some_iff.mp (bufferSizes_classIndex known)).1

theorem Clean.pool (clean : Clean pools) (known : size ∈ bufferSizes) :
    ∃ pool, pools[classIndex size]? = some pool ∧ ∀ buffer ∈ pool, buffer = zeroed size := by
  obtain ⟨pool, found⟩ : ∃ pool, pools[classIndex size]? = some pool :=
    ⟨_, List.getElem?_eq_getElem (clean.index_lt known)⟩
  exact ⟨pool, found, clean.buffers _ size pool (bufferSizes_classIndex known) found⟩

/-- A pool may be exchanged for another one of zeroed buffers. -/
theorem Clean.set (clean : Clean pools) (known : size ∈ bufferSizes) {pool : List (List UInt8)}
    (fresh : ∀ buffer ∈ pool, buffer = zeroed size) : Clean (pools.set (classIndex size) pool) where
  length := List.length_set.trans clean.length
  buffers index other found sized place := by
    by_cases here : classIndex size = index
    · subst here
      rw [bufferSizes_classIndex known] at sized
      cases sized
      rw [List.getElem?_set_self (clean.index_lt known)] at place
      cases place
      exact fresh
    · rw [List.getElem?_set_ne here] at place
      exact clean.buffers index other found sized place

theorem Clean.pooled_set (clean : Clean pools) (known : size ∈ bufferSizes)
    (pool : List (List UInt8)) : pooled (pools.set (classIndex size) pool) size = pool.length := by
  rw [pooled, List.getElem?_set_self (clean.index_lt known)]
  rfl

theorem pooled_set_other (known : size ∈ bufferSizes) {other : Nat} (known' : other ∈ bufferSizes)
    (elsewhere : other ≠ size) (pool : List (List UInt8)) :
    pooled (pools.set (classIndex size) pool) other = pooled pools other := by
  have apart : classIndex size ≠ classIndex other :=
    fun same => elsewhere (classIndex_injective known known' same).symm
  rw [pooled, List.getElem?_set_ne apart]
  rfl

/-- Only the pool of this size may have changed in length. -/
def OthersKept (size : Nat) (pools next : Pools) : Prop :=
  ∀ other ∈ bufferSizes, other ≠ size → pooled next other = pooled pools other

/-- An acquired buffer is zeroed, whether it comes from the pool or not. -/
theorem Clean.acquireVec (clean : Clean pools) (known : size ∈ bufferSizes) :
    ∃ next, BufferPool.acquireVec pools size = some (zeroed size, next) ∧ Clean next ∧
      pooled next size = pooled pools size - 1 ∧ OthersKept size pools next := by
  obtain ⟨pool, found, fresh⟩ := clean.pool known
  cases pool with
  | nil =>
      refine ⟨pools, ?_, clean, ?_, fun _ _ _ => rfl⟩
      · simp only [BufferPool.acquireVec, found, Option.map_some, resize_nil]
      · rw [pooled, found]
        rfl
  | cons buffer rest =>
      have first : buffer = zeroed size := fresh buffer List.mem_cons_self
      refine ⟨pools.set (classIndex size) rest, ?_,
        clean.set known fun other member => fresh other (List.mem_cons_of_mem _ member), ?_,
        fun other known' elsewhere => pooled_set_other known known' elsewhere rest⟩
      · simp only [BufferPool.acquireVec, found, Option.map_some, first]
      · rw [clean.pooled_set known, pooled, found]
        rfl

theorem Clean.releaseVec (clean : Clean pools) (known : size ∈ bufferSizes) (buffer : List UInt8) :
    ∃ next, BufferPool.releaseVec pools size buffer = some next ∧ Clean next ∧
      pooled next size = pooled pools size + 1 ∧ OthersKept size pools next := by
  obtain ⟨pool, found, fresh⟩ := clean.pool known
  refine ⟨pools.set (classIndex size) (zeroed size :: pool), ?_, clean.set known ?_, ?_,
    fun other known' elsewhere => pooled_set_other known known' elsewhere _⟩
  · simp only [BufferPool.releaseVec, found, Option.map_some, List.take_zero, resize_nil]
  · exact List.forall_mem_cons.mpr ⟨rfl, fresh⟩
  · rw [clean.pooled_set known, pooled, found]
    rfl

end Exchange

end EdfPipeline.BufferPool
