import EdfPipeline.Pipeline.Account
import EdfPipeline.Edf.Pace
import EdfPipeline.SingleCpu.Pace
import EdfPipeline.Gedf.Pace
import EdfPipeline.Cedf.Pace
import EdfPipeline.McEdf.Pace
import EdfPipeline.MultiWorker.Pace

/-!
# The capacity of the pipeline

What a scheduler hands over its threads have processed, each one packet at a time.
The rest of what was read still waits, or the ingress has dropped it, or the
scheduler has lost it.
-/

set_option autoImplicit false

namespace EdfPipeline.Pipeline

open TransitionSystem

theorem card_mul_le_workload {cost : Packet → Nat} {least : Nat} (atLeast : ∀ packet, least ≤ cost packet)
    (packets : Multiset Packet) : packets.card * least ≤ workload cost packets := by
  induction packets using Multiset.induction with
  | empty =>
      rw [Multiset.card_zero, Nat.zero_mul]
      exact Nat.zero_le _
  | cons packet packets ih =>
      rw [Multiset.card_cons, Nat.succ_mul, ← Multiset.singleton_add, workload_add, workload_singleton,
        Nat.add_comm]
      exact Nat.add_le_add (atLeast packet) ih

theorem card_handedAll (outputs : PriorityTable OutputQueue) :
    (handedAll outputs).card = ∑ priority, (outputs priority).handed.length :=
  Multiset.card_sum ..

/-- What is in front of the threads, or was dropped there. -/
def backlog {stage : Stage} (front : Front stage) : Multiset Packet :=
  droppedAll front.1.queues + queuedAll (stage.inputs front.2) + (stage.held front.2).map Prod.snd

/-- The threads had the time for what was handed over, so the statistics and the drop
counters of the scheduler count only as many packets as fit into it; and for all that
was read but for the backlog. -/
structure WithinCapacity {stage : Stage} (pace : Pace)
    (history : State stage × Past (State stage) (Action stage)) : Prop where
  handed : workload pace.cost (handedAll (stage.outputs history.1.scheduler)) ≤
    pace.threads * history.1.egress.clock
  counted : (∑ priority, ((Tally.counted (history.1.2.metrics priority)).packets +
      (stage.outputs history.1.scheduler priority).dropCounter)) * pace.least ≤
    pace.threads * history.1.egress.clock
  read : workload pace.cost ↑(observed reads history.2) ≤
    pace.threads * history.1.egress.clock + workload pace.cost (backlog history.1.1) +
      workload pace.cost (lost history.1)

variable {stage : PacedStage}

/-- The scheduler has spent the time on what it has done. -/
def Paid (state : State stage.toStage) : Prop :=
  stage.Kept state.scheduler ∧ stage.done state.scheduler ≤ stage.spent state.scheduler

theorem moves_paid {scheduler next : stage.State} {action : Signal ⊕ stage.Action}
    (paid : stage.Kept scheduler ∧ stage.done scheduler ≤ stage.spent scheduler)
    (moved : stage.moves scheduler action = some next) :
    stage.Kept next ∧ stage.done next ≤ stage.spent next := by
  obtain ⟨kept, before⟩ := paid
  have gained := stage.paid kept moved
  refine ⟨stage.moves_kept kept moved, ?_⟩
  omega

theorem step_paid {state next : State stage.toStage} {action : Action stage.toStage} (paid : Paid state)
    (stepped : step stage.toStage state action = some next) : Paid next := by
  refine @Link.upstream_kept _ _ _ _ (link stage.toStage) (fun front : Front stage.toStage =>
    stage.Kept front.2 ∧ stage.done front.2 ≤ stage.spent front.2) ?_ _ _ _ paid stepped
  intro front action reached holds moved
  exact Link.downstream_kept moves_paid holds moved

structure Working (history : State stage.toStage × Past (State stage.toStage) (Action stage.toStage)) :
    Prop where
  booked : Booked history
  tallied : Tallied history
  synchronous : Synchronous history.1
  paid : Paid history.1

theorem step_working
    {history next : State stage.toStage × Past (State stage.toStage) (Action stage.toStage)}
    {action : Action stage.toStage} (working : Working history)
    (stepped : recorded (step stage.toStage) history action = some next) : Working next := by
  have booked := step_booked working.booked stepped
  have tallied := step_tallied working.tallied stepped
  obtain ⟨after, past⟩ := next
  obtain ⟨moved, rfl⟩ := recorded_eq_some.mp stepped
  exact ⟨booked, tallied, step_synchronous working.booked.kept working.synchronous moved,
    step_paid working.paid moved⟩

theorem start_working (registrations : List Registration)
    (socketMap : PriorityTable (Option (List Egress.Socket))) :
    Working (start stage.toStage registrations socketMap, []) where
  booked := start_booked registrations socketMap
  tallied := start_tallied registrations socketMap
  synchronous := by
    obtain ⟨_, _, clock⟩ := @startIngress_frame stage.toStage registrations
    exact ⟨clock.trans stage.initial_clock.symm, clock⟩
  paid := by
    refine ⟨stage.initial_kept, ?_⟩
    change stage.done stage.initial ≤ _
    rw [stage.initial_done]
    exact Nat.zero_le _

namespace Working

variable {history : State stage.toStage × Past (State stage.toStage) (Action stage.toStage)}

theorem handed_le (working : Working history) :
    workload stage.cost (handedAll (stage.outputs history.1.scheduler)) ≤
      stage.threads * history.1.egress.clock := by
  have oneClock : (stage.ends history.1.scheduler).clock = history.1.egress.clock :=
    working.synchronous.front.symm.trans working.synchronous.egress
  calc workload stage.cost (handedAll (stage.outputs history.1.scheduler))
      ≤ stage.done history.1.scheduler := stage.handed _
    _ ≤ stage.spent history.1.scheduler := working.paid.2
    _ ≤ stage.threads * (stage.ends history.1.scheduler).clock := stage.spent_le _
    _ = stage.threads * history.1.egress.clock := by rw [oneClock]

/-- What is counted of a class was handed over. -/
theorem counted_le_handed (working : Working history) (priority : Priority) :
    (Tally.counted (history.1.2.metrics priority)).packets +
        (stage.outputs history.1.scheduler priority).dropCounter ≤
      (stage.outputs history.1.scheduler priority).handed.length := by
  have received := working.tallied.account.packets priority
  have dropped := stage.counted working.booked.kept.front.scheduler priority
  have sent : (stage.outputs history.1.scheduler priority).sent = history.1.egress.flow priority :=
    congrFun working.booked.joined priority
  have split := (OutputQueue.handed_split (stage.outputs history.1.scheduler priority)).length_eq
  rw [List.length_append, sent, Egress.State.flow, List.length_append] at split
  have drops : (stage.outputs history.1.scheduler priority).dropCounter =
      (stage.outputs history.1.scheduler priority).dropped.length := dropped
  omega

theorem withinCapacity (working : Working history) : WithinCapacity stage.toPace history where
  handed := working.handed_le
  counted := by
    refine le_trans ?_ ((card_mul_le_workload stage.least_le _).trans working.handed_le)
    apply Nat.mul_le_mul_right
    rw [card_handedAll]
    exact Finset.sum_le_sum fun priority _ => working.counted_le_handed priority
  read := by
    have split : (↑(observed reads history.2) : Multiset Packet) =
        handedAll (stage.outputs history.1.scheduler) + backlog history.1.1 + lost history.1 := by
      rw [working.booked.contents]
      simp only [contents, backlog, Interface.contents, stage.map_snd_inside]
      abel
    rw [split, workload_add, workload_add]
    exact Nat.add_le_add_right (Nat.add_le_add_right working.handed_le _) _

end Working

end EdfPipeline.Pipeline

namespace EdfPipeline

/-- The scheduler of the configured kind, with its pace. -/
def PipelineConfig.pacedStage (config : PipelineConfig) : PacedStage :=
  match config.scheduler with
  | .single => Edf.pacedStage
  | .multiWorker => MultiWorker.pacedStage
  | .global => Gedf.pacedStage Gedf.deadline config.workerCount
  | .globalVD => Gedf.pacedStage Gedf.virtualDeadline config.workerCount
  | .clairvoyant => Cedf.pacedStage config.workerCount
  | .mcEdfElastic => McEdf.pacedStage
  | .singleCpuEdf => SingleCpu.pacedStage config.registrations

theorem PipelineConfig.pacedStage_stage (config : PipelineConfig) :
    config.pacedStage.toStage = config.stage := by
  obtain ⟨cores, ingress, scheduler⟩ := config
  cases scheduler <;> rfl

open Pipeline TransitionSystem in
/-- Whatever the scheduler and the order of steps, the packets that were handed over, to
the egress or dropped on the way to it, took no more processing than the threads of the
scheduler had time for, and what was read beyond that is backlog or lost. -/
theorem PipelineConfig.works_within_capacity (config : PipelineConfig)
    (actions : List (Pipeline.Action config.stage)) :
    Throughout (recorded (Pipeline.step config.stage)) (WithinCapacity config.pacedStage.toPace)
      (config.start, []) actions := by
  have paced (actions : List (Pipeline.Action config.pacedStage.toStage)) :
      Throughout (recorded (Pipeline.step config.pacedStage.toStage))
        (WithinCapacity config.pacedStage.toPace)
        (Pipeline.start config.pacedStage.toStage config.registrations outputSocketMap, []) actions :=
    throughout_invariant step_working Working.withinCapacity
      (start_working config.registrations outputSocketMap) actions
  rw [PipelineConfig.start]
  revert actions
  rw [← config.pacedStage_stage]
  exact paced

/-- One thread that is never idle has time for exactly what it hands over. -/
example :
    (TransitionSystem.run (Pipeline.step Edf.stage) PipelineConfig.default.start Pipeline.oneDatagram).map
        (fun state => (workload Edf.processingTime (handedAll (Edf.stage.outputs state.scheduler)),
          Edf.pacedStage.threads * state.egress.clock)) =
      some (100000, 100000) := by
  decide +kernel

end EdfPipeline
