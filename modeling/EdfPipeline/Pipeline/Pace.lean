import EdfPipeline.Pipeline.Stage
import EdfPipeline.Library.Servers

/-!
# The pace of a stage

Every packet is processed by one thread, which does nothing else for as long as
the processing takes. So a stage hands over no more work than its threads had
time for.
-/

set_option autoImplicit false

namespace EdfPipeline

/-- What the processing of these packets takes. -/
def workload (cost : Packet → Nat) (packets : Multiset Packet) : Nat :=
  (packets.map cost).sum

section Workload

variable (cost : Packet → Nat)

@[simp] theorem workload_zero : workload cost 0 = 0 := rfl

@[simp] theorem workload_add (packets others : Multiset Packet) :
    workload cost (packets + others) = workload cost packets + workload cost others := by
  simp only [workload, Multiset.map_add, Multiset.sum_add]

@[simp] theorem workload_singleton (packet : Packet) : workload cost {packet} = cost packet := by
  simp only [workload, Multiset.map_singleton, Multiset.sum_singleton]

theorem workload_trySend (outputs : PriorityTable OutputQueue) (priority : Priority)
    (room : Nat → Bool) (packet : Packet) :
    workload cost (handedAll (outputs.set priority ((outputs priority).trySend room packet))) =
      cost packet + workload cost (handedAll outputs) := by
  rw [handedAll_trySend, workload_add, workload_singleton]

theorem workload_le {packets others : Multiset Packet} (less : packets ≤ others) :
    workload cost packets ≤ workload cost others := by
  obtain ⟨rest, rfl⟩ := Multiset.le_iff_exists_add.mp less
  rw [workload_add]
  exact Nat.le_add_right _ _

end Workload

theorem le_processingDuration (packet : Packet) : 50000 ≤ processingDuration packet :=
  Nat.le_add_right _ _

/-- How many threads process packets, what the processing of each takes and what it takes
at least. -/
structure Pace where
  threads : Nat
  cost : Packet → Nat
  least : Nat

/-- `done` is the work of the packets that were processed and `spent` the time the threads
had for it: what a step adds to the one it adds to the other. -/
structure PacedStage extends Stage, Pace where
  done : State → Nat
  spent : State → Nat
  least_le : ∀ packet, least ≤ cost packet
  initial_clock : (ends initial).clock = 0
  initial_done : done initial = 0
  paid : ∀ {state action next}, Kept state → moves state action = some next →
    done next + spent state ≤ done state + spent next
  handed : ∀ state, workload cost (handedAll (toInterface.outputs state)) ≤ done state
  spent_le : ∀ state, spent state ≤ threads * (ends state).clock

end EdfPipeline
