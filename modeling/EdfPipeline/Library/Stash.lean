import Mathlib.Order.Basic

/-!
# Stashes

Items of one kind, some of them in stock and the others in use. One taken from an
empty stock is made new, and none is ever thrown away, so there are as many as
there were at first or were ever in use at once.
-/

set_option autoImplicit false

structure Stash (reserve : Nat) where
  stock : Nat
  inUse : Nat
  peak : Nat
  reached : inUse ≤ peak
  balanced : stock + inUse = max reserve peak

namespace Stash

variable {reserve : Nat}

def full (reserve : Nat) : Stash reserve where
  stock := reserve
  inUse := 0
  peak := 0
  reached := Nat.le_refl 0
  balanced := (Nat.max_zero reserve).symm

def take (stash : Stash reserve) : Stash reserve where
  stock := stash.stock - 1
  inUse := stash.inUse + 1
  peak := max stash.peak (stash.inUse + 1)
  reached := Nat.le_max_right _ _
  balanced := by
    have reached := stash.reached
    have balanced := stash.balanced
    omega

def giveBack (stash : Stash reserve) (taken : 0 < stash.inUse) : Stash reserve where
  stock := stash.stock + 1
  inUse := stash.inUse - 1
  peak := stash.peak
  reached := Nat.le_trans (Nat.sub_le _ _) stash.reached
  balanced := by
    have balanced := stash.balanced
    omega

end Stash
