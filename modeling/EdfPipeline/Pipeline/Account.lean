import EdfPipeline.Pipeline.Budgets
import Mathlib.Algebra.Order.BigOperators.Group.Finset

/-!
# The account of the pipeline

What the statistics count of a class is what the egress received of it, less the
events that are still on their way, and what is counted or dropped of a class was
read.
-/

set_option autoImplicit false

namespace EdfPipeline.Pipeline

open TransitionSystem MetricsCollector

variable {stage : Stage}

/-! ## Events and statistics -/

structure Tallied (history : State stage × Past (State stage) (Action stage)) : Prop where
  exact_ : history.1.2.Exact (observed eventOf history.2)
  follows : history.1.egress.Follows (observed eventOf history.2)
  bounded : history.1.2.Bounded

theorem step_tallied {history next : State stage × Past (State stage) (Action stage)}
    {action : Action stage} (tallied : Tallied history)
    (stepped : recorded (step stage) history action = some next) : Tallied next where
  exact_ := step_behind State.records_signal State.moves_exact tallied.exact_ stepped
  follows := @step_behind _ _ _ (fun collector => collector.egress.Follows) State.records_signal
    State.moves_follows _ _ _ tallied.follows stepped
  bounded := @step_behind _ _ _ (fun collector _ => collector.Bounded) State.records_signal
    State.moves_bounded _ _ _ tallied.bounded stepped

theorem start_tallied (registrations : List Registration)
    (socketMap : PriorityTable (Option (List Egress.Socket))) :
    Tallied (start stage registrations socketMap, []) where
  exact_ := ⟨[], rfl, fun _ => rfl⟩
  follows := rfl
  bounded := ⟨Nat.zero_le _, Nat.zero_le _, by simp [start, MetricsCollector.State.start]⟩

/-- The statistics of a class count the packets the egress received of it but the last
few, and the deadlines missed among them. -/
structure Account (history : State stage × Past (State stage) (Action stage)) : Prop where
  packets : ∀ priority, (history.1.egress.dequeuedOf priority).length =
    (Tally.counted (history.1.2.metrics priority)).packets + history.1.2.behind priority
  deadlineMisses : ∀ priority, (Tally.of priority (observed eventOf history.2)).deadlineMisses =
    (Tally.counted (history.1.2.metrics priority)).deadlineMisses +
      (Tally.of priority history.1.2.pending).deadlineMisses
  behind : ∀ priority, history.1.2.behind priority ≤ batchSize + Egress.eventCapacity + 1

theorem Tallied.account {history : State stage × Past (State stage) (Action stage)}
    (tallied : Tallied history) : Account history where
  packets := tallied.exact_.packets tallied.follows
  deadlineMisses priority := by
    obtain ⟨applied, split, tallies⟩ := tallied.exact_
    rw [split, Tally.of_append, tallies]
    rfl
  behind := tallied.bounded.behind_le

/-! ## Packets read, counted and dropped -/

/-- How many packets of a class were read. -/
def readOf (past : Past (State stage) (Action stage)) (priority : Priority) : Nat :=
  (observed reads past).countP fun packet => packet.priority = priority

theorem le_sum {lists : PriorityTable (List Packet)} (priority : Priority) :
    (↑(lists priority) : Multiset Packet) ≤ ∑ other, ↑(lists other) :=
  Finset.single_le_sum (f := fun other => (↑(lists other) : Multiset Packet))
    (fun _ _ => Multiset.zero_le _) (Finset.mem_univ priority)

/-- Packets of one class are no more than the packets of the class among all. -/
theorem card_le_countP {packets all : Multiset Packet} {priority : Priority} (within : packets ≤ all)
    (classes : ∀ packet ∈ packets, packet.priority = priority) :
    packets.card ≤ all.countP fun packet => packet.priority = priority := by
  rw [← Multiset.countP_eq_card.mpr classes]
  exact Multiset.countP_le_of_le _ within

/-- What was dropped or received in a class is no more than was read of it. -/
theorem counted_le_read {registrations : List Registration} {stage : ClassStage registrations}
    {history : State stage.toStage × Past (State stage.toStage) (Action stage.toStage)}
    (booked : Booked history) (priority : Priority) :
    (history.1.ingress.queues priority).dropCounter +
        ((stage.outputs history.1.scheduler priority).dropCounter +
          (history.1.egress.dequeuedOf priority).length) ≤
      readOf history.2 priority := by
  have accounted := booked.accounted
  rw [accounted.ingressDrops, accounted.schedulerDrops]
  have handed : (stage.outputs history.1.scheduler priority).handed.Perm
      ((stage.outputs history.1.scheduler priority).dropped ++
        (history.1.egress.dequeuedOf priority ++ history.1.egress.queue priority)) := by
    have sent : (stage.outputs history.1.scheduler priority).sent = _ := congrFun booked.joined priority
    have split := OutputQueue.handed_split (stage.outputs history.1.scheduler priority)
    rw [sent] at split
    exact split.trans List.perm_append_comm
  have within : (↑(history.1.ingress.queues priority).dropped +
      (↑(stage.outputs history.1.scheduler priority).dropped +
        ↑(history.1.egress.dequeuedOf priority)) : Multiset Packet) ≤ ↑(observed reads history.2) := by
    rw [booked.contents, Pipeline.contents, Interface.contents]
    refine add_le_add (le_sum priority) (le_trans ?_ (Multiset.le_add_left _ _))
    refine le_trans ?_ (le_sum priority)
    rw [Multiset.coe_eq_coe.mpr handed, ← Multiset.coe_add, ← Multiset.coe_add]
    exact add_le_add le_rfl (Multiset.le_add_right _ _)
  refine (le_of_eq ?_).trans (card_le_countP within ?_)
  · simp only [Multiset.card_add, Multiset.coe_card]
  · intro packet listed
    rcases Multiset.mem_add.mp listed with atIngress | handedOver
    · refine booked.kept.front.routed.own priority packet ?_
      exact (OutputQueue.handed_split _).mem_iff.mpr (List.mem_append_right _ atIngress)
    · refine stage.own booked.kept.front.scheduler priority packet (handed.mem_iff.mpr ?_)
      rw [← List.append_assoc]
      exact List.mem_append_left _ handedOver

end EdfPipeline.Pipeline

namespace EdfPipeline

open Pipeline TransitionSystem in
/-- Whatever the scheduler and the order of steps, the statistics of a class are never
more than one channel, one batch and one packet of events behind the packets the
egress received of the class, and miss no deadline but of those. -/
theorem PipelineConfig.statistics_account (config : PipelineConfig)
    (actions : List (Pipeline.Action config.stage)) :
    Throughout (recorded (Pipeline.step config.stage)) Account (config.start, []) actions :=
  throughout_invariant step_tallied Tallied.account
    (start_tallied config.registrations outputSocketMap) actions

end EdfPipeline
