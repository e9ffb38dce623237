import EdfPipeline.Library.Ledger
import Mathlib.Algebra.Order.BigOperators.Group.Finset

/-!
# Servers that take one job at a time

A server is free, or has begun a job at some instant. Where a job is done only when
it has lasted as long as it costs, the jobs done cost no more than the time that has
passed, once for each server.
-/

set_option autoImplicit false

namespace Servers

/-- The time a server had until its job began, or until now when it is free. -/
def spent (clock : Nat) : Option Nat → Nat
  | none => clock
  | some begun => min begun clock

theorem spent_le (clock : Nat) (begun : Option Nat) : spent clock begun ≤ clock := by
  cases begun with
  | none => exact Nat.le_refl _
  | some begun => exact Nat.min_le_right _ _

theorem spent_tick (clock elapsed : Nat) (begun : Option Nat) :
    spent clock begun ≤ spent (clock + elapsed) begun := by
  cases begun with
  | none => exact Nat.le_add_right _ _
  | some begun =>
      refine Nat.le_min.mpr ⟨Nat.min_le_left _ _, ?_⟩
      exact (Nat.min_le_right _ _).trans (Nat.le_add_right _ _)

@[simp] theorem spent_begin (clock : Nat) : spent clock (some clock) = clock := Nat.min_self _

/-- A job that has lasted as long as it costs is paid for. -/
theorem spent_done {clock begun cost : Nat} (lasted : cost ≤ clock - begun) :
    cost + spent clock (some begun) ≤ clock := by
  simp only [spent]
  omega

variable {Id Place : Type} [Fintype Id] (begun : Place → Option Nat)

def total (clock : Nat) (places : Id → Place) : Nat := ∑ id, spent clock (begun (places id))

variable {begun}

theorem total_le (clock : Nat) (places : Id → Place) :
    total begun clock places ≤ Fintype.card Id * clock := by
  have bound := Finset.sum_le_card_nsmul Finset.univ (fun id => spent clock (begun (places id))) clock
    fun id _ => spent_le clock _
  rw [Finset.card_univ] at bound
  exact bound

theorem total_tick (clock elapsed : Nat) (places : Id → Place) :
    total begun clock places ≤ total begun (clock + elapsed) places :=
  Finset.sum_le_sum fun _ _ => spent_tick clock elapsed _

/-- One server goes on, and has the time for what it gets done and for what it `sent` on. -/
theorem update_paid [DecidableEq Id] {done : Place → Nat} {clock : Nat} {places : Id → Place} {id : Id}
    {place : Place} (sent : Nat)
    (paid : done place + sent + spent clock (begun (places id)) ≤
      done (places id) + spent clock (begun place)) :
    ∑ other, done (Function.update places id place other) + sent + total begun clock places ≤
      ∑ other, done (places other) + total begun clock (Function.update places id place) := by
  have work := Ledger.sum_update done places id place
  have time := Ledger.sum_update (fun place => spent clock (begun place)) places id place
  simp only [total]
  omega

end Servers
