import EdfPipeline.Packet
import EdfPipeline.Library.EarliestFirst
import Mathlib.Algebra.Order.Field.Rat
import Mathlib.Tactic.Linarith
import Mathlib.Tactic.Ring

/-!
# Virtual deadlines

The dispatcher of the G-EDF-VD scheduler replaces the latency budget of a packet
by a fraction of it that depends on the class. A task gains the rest of its
budget on the others, so a long budget can outweigh a small fraction. Arithmetic
is exact here; the scheduler's own key is rounded to nanoseconds.
-/

set_option autoImplicit false

namespace EdfPipeline.GedfVd

open EarliestFirst

structure QueuedTask where
  virtualDeadline : ℚ
  priority : Priority
  packet : Packet
  deriving DecidableEq

def scalingTable : PriorityTable ℚ
  | .high => 1 / 100
  | .medium => 4 / 5
  | .low => 9 / 10
  | .bestEffort => 1

/-- The factor the dispatcher applies, clamped to [0.1, 1.0]. -/
def factor (priority : Priority) : ℚ := min 1 (max (1 / 10) (scalingTable priority))

/-- The task `dispatcher_loop` pushes for a packet of input channel `priority`. -/
def dispatch (priority : Priority) (packet : Packet) : QueuedTask where
  virtualDeadline := packet.timestamp + packet.latencyBudget * factor priority
  priority
  packet

/-- What a budget of this class is shortened by. -/
def headStart (priority : Priority) (latencyBudget : Duration) : ℚ :=
  (1 - factor priority) * latencyBudget

theorem virtualDeadline_eq (packet : Packet) :
    (dispatch packet.priority packet).virtualDeadline =
      packet.deadline - headStart packet.priority packet.latencyBudget := by
  simp only [dispatch, headStart, Packet.deadline, Nat.cast_add]
  ring

/-- With an earlier or equal deadline, the higher packet's virtual deadline is
not later either. -/
def NeverInverts (higher lower : Packet) : Prop :=
  higher.deadline ≤ lower.deadline →
    (dispatch higher.priority higher).virtualDeadline ≤
      (dispatch lower.priority lower).virtualDeadline

instance (higher lower : Packet) : Decidable (NeverInverts higher lower) :=
  inferInstanceAs (Decidable (_ → _))

/-- A heap holding both tasks can then serve the lower one first only on a tie. -/
theorem NeverInverts.served {higher lower : Packet} (never : NeverInverts higher lower)
    (earlier : higher.deadline ≤ lower.deadline) {heap : List QueuedTask}
    (queued : dispatch higher.priority higher ∈ heap)
    (served : Earliest QueuedTask.virtualDeadline (dispatch lower.priority lower) heap) :
    (dispatch lower.priority lower).virtualDeadline =
      (dispatch higher.priority higher).virtualDeadline :=
  le_antisymm (served.2 _ queued) (never earlier)

theorem neverInverts_iff_gap (higher lower : Packet) : NeverInverts higher lower ↔
    (higher.deadline ≤ lower.deadline →
      headStart lower.priority lower.latencyBudget ≤
        headStart higher.priority higher.latencyBudget + (lower.deadline - higher.deadline)) := by
  refine forall_congr' ?_
  intro earlier
  rw [virtualDeadline_eq, virtualDeadline_eq]
  constructor <;> intro bound <;> linarith

/-- Two packets with a common deadline: each enters one budget of the other after
the start. -/
theorem headStart_le_of_tie {above below : Priority} {aboveBudget belowBudget : Duration}
    (never : NeverInverts (Packet.fromBuffer 0 belowBudget above [] aboveBudget)
      (Packet.fromBuffer 1 aboveBudget below [] belowBudget)) :
    headStart below belowBudget ≤ headStart above aboveBudget := by
  have same : (Packet.fromBuffer 0 belowBudget above [] aboveBudget).deadline =
      (Packet.fromBuffer 1 aboveBudget below [] belowBudget).deadline :=
    Nat.add_comm belowBudget aboveBudget
  have bound := (neverInverts_iff_gap _ _).mp never (Nat.le_of_eq same)
  rw [same, sub_self, add_zero] at bound
  exact bound

/-- For packets of two classes with given budgets, the order survives for a pair
exactly if the lower one's head start exceeds the higher one's by no more than
its deadline is later, and for all pairs exactly if it does not exceed it. -/
theorem neverInverts_iff_head_start (above below : Priority)
    (aboveBudget belowBudget : Duration) :
    (∀ higher lower : Packet, higher.priority = above → higher.latencyBudget = aboveBudget →
      lower.priority = below → lower.latencyBudget = belowBudget →
        (NeverInverts higher lower ↔
          (higher.deadline ≤ lower.deadline →
            headStart below belowBudget ≤
              headStart above aboveBudget + (lower.deadline - higher.deadline)))) ∧
    ((∀ higher lower : Packet, higher.priority = above → higher.latencyBudget = aboveBudget →
      lower.priority = below → lower.latencyBudget = belowBudget → NeverInverts higher lower) ↔
      headStart below belowBudget ≤ headStart above aboveBudget) := by
  refine ⟨?_, ?_, ?_⟩
  · rintro higher lower rfl rfl rfl rfl
    exact neverInverts_iff_gap higher lower
  · intro never
    exact headStart_le_of_tie (never _ _ rfl rfl rfl rfl)
  · rintro bound higher lower rfl rfl rfl rfl
    refine (neverInverts_iff_gap higher lower).mpr ?_
    intro earlier
    have gap : (higher.deadline : ℚ) ≤ lower.deadline := Nat.cast_le.mpr earlier
    linarith

def urgent : Packet := Packet.fromBuffer 1 (Duration.fromMillis 99) .high [] (Duration.fromMillis 1)

def bulk : Packet := Packet.fromBuffer 0 0 .low [] (Duration.fromMillis 100)

theorem low_served_before_urgent :
    ¬ (∀ higher lower : Packet, higher.priority.Above lower.priority → NeverInverts higher lower) ∧
      urgent.deadline = bulk.deadline ∧
      Earliest QueuedTask.virtualDeadline (dispatch .low bulk)
        [dispatch .high urgent, dispatch .low bulk] ∧
      ¬ Earliest QueuedTask.virtualDeadline (dispatch .high urgent)
        [dispatch .high urgent, dispatch .low bulk] := by
  refine ⟨fun never => ?_, ?_, ?_, ?_⟩
  · have inverted : ¬ NeverInverts urgent bulk := by decide +kernel
    exact inverted (never urgent bulk (by decide))
  all_goals decide +kernel

end EdfPipeline.GedfVd
