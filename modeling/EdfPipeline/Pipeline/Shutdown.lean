import EdfPipeline.Pipeline.StatisticsThread
import EdfPipeline.Library.Ranking
import EdfPipeline.Ingress.Shutdown
import EdfPipeline.Egress.Shutdown
import EdfPipeline.Edf.Shutdown
import EdfPipeline.SingleCpu.Shutdown
import EdfPipeline.Gedf.Shutdown
import EdfPipeline.McEdf.Shutdown

/-!
# Shutdown

`shutdown` clears the flag and waits for nobody. Every thread that is started by
`run` still takes boundedly many steps, and none is held up for good by another.
-/

set_option autoImplicit false

namespace EdfPipeline

open TransitionSystem

/-- Steps of Ingress-DRR. -/
def Ingress.Action.advances : Ingress.Action → Bool
  | .run | .recv _ _ => true
  | .addSocket _ _ _ _ | .tick _ | .stop => false

theorem Ingress.State.serve_rank {state next : Ingress.State} {action : Ingress.Action}
    (stopped : state.running = false) (served : state.serve action = some next) :
    next.pc.rank + action.advances.toNat ≤ state.pc.rank := by
  cases action with
  | addSocket => cases served
  | tick | stop =>
      cases served
      exact Nat.le_refl _
  | run => exact runStep_rank stopped served
  | recv outcome room => exact recvStep_rank served

theorem Ingress.State.configured_thread (registrations : List Registration) :
    (configured registrations).pc = .top ∧ (configured registrations).running = true := by
  induction registrations using List.reverseRecOn with
  | nil => exact ⟨rfl, rfl⟩
  | append_singleton earlier last ih =>
      rw [configured, List.foldl_append]
      exact ih

/-- Whatever a scheduler is told, no step is added to those it still takes. -/
theorem HaltingStage.told_ranks (stage : HaltingStage) {state next : stage.State} {signals : List Signal}
    (ran : run stage.moves state (signals.map .inl) = some next) : stage.rank next ≤ stage.rank state := by
  induction signals generalizing state with
  | nil =>
      cases ran
      exact Nat.le_refl _
  | cons signal rest ih =>
      obtain ⟨middle, told, continued⟩ := run_cons_eq_some.mp ran
      exact (ih continued).trans (stage.told_rank told)

namespace Pipeline

variable {stage : HaltingStage}

/-- The threads read one flag, and Metrics-Processor does not return. -/
structure Steady (state : State stage.toStage) : Prop where
  kept : Kept state
  placed : state.ingress.pc.Placed
  scheduler : state.ingress.running = stage.running state.scheduler
  egress : state.ingress.running = state.egress.running
  serving : state.2.Serving
  bounded : state.2.Bounded

/-- The announcement says whether the flag stays set. -/
theorem foldl_continues {Action : Type} (action : Ingress.Action)
    (before after : PriorityTable OutputQueue) (flag : Bool) :
    ((told action.announces before after).map .inl).foldl
        (fun flag (told : Signal ⊕ Action) => flag && continues told) flag =
      (flag && action.continues) := by
  have still (entries : List (Priority × Packet)) (flag : Bool) :
      entries.foldl (fun flag entry =>
        flag && continues (.inl (.arrive entry.1 entry.2) : Signal ⊕ Action)) flag = flag := by
    induction entries generalizing flag with
    | nil => rfl
    | cons entry rest ih => exact (ih _).trans (Bool.and_true _)
  rw [foldl_told, still]
  cases action with
  | stop => rfl
  | tick => exact (Bool.and_true _).trans (Bool.and_true _).symm
  | addSocket | run | recv => exact (Bool.and_true _).symm

theorem front_flag {state next : Front stage.toStage} {action : FrontAction stage.toStage}
    (kept : state.Kept) (same : state.1.running = stage.running state.2)
    (stepped : (front stage.toStage).step state action = some next) :
    next.1.running = stage.running next.2 := by
  refine @Link.agreed_kept _ _ _ _ (front stage.toStage) _ (fun flag told => flag && continues told)
    stage.running stage.Kept Ingress.State.running stage.moves_kept (fun _ => stage.flag) ?_ _ _ _ ?_
    kept.scheduler same stepped
  · intro told own flag
    cases told with
    | inl signal => cases own
    | inr inner => exact Bool.and_true flag
  · intro first reached _ served
    exact (Ingress.State.step_running (Ingress.State.serve_step served)).trans
      (foldl_continues first state.1.queues reached.queues state.1.running).symm

theorem step_steady {state next : State stage.toStage} {action : Action stage.toStage}
    (steady : Steady state) (stepped : step stage.toStage state action = some next) : Steady next where
  kept := step_kept steady.kept stepped
  placed := by
    cases Link.step_moves stepped with
    | send moved told =>
        cases Link.step_moves moved with
        | send served told => exact Ingress.State.step_placed steady.placed (Ingress.State.serve_step served)
        | alone => exact steady.placed
    | alone => exact steady.placed
  scheduler := by
    cases Link.step_moves stepped with
    | send moved told => exact front_flag steady.kept.front steady.scheduler moved
    | alone => exact steady.scheduler
  egress := by
    refine @Link.agreed_kept _ _ _ _ (link stage.toStage) _ (fun flag told => flag && continues told)
      (fun collector => collector.egress.running) (fun _ => True) (fun front => front.1.running)
      (fun _ _ => trivial) (fun _ => MetricsCollector.State.moves_running) ?_ _ _ _ ?_ trivial
      steady.egress stepped
    · intro told own flag
      cases told with
      | inl signal => cases own
      | inr inner => exact Bool.and_true flag
    · intro first reached _ moved
      cases Link.step_moves moved with
      | send served told =>
          exact (Ingress.State.step_running (Ingress.State.serve_step served)).trans
            (foldl_continues _ _ _ _).symm
      | alone => exact (Bool.and_true _).symm.trans (foldl_continues .run _ _ _).symm
  serving := @Link.downstream_kept _ _ _ _ (link stage.toStage) MetricsCollector.State.Serving
    MetricsCollector.State.moves_serving _ _ _ steady.serving stepped
  bounded := @Link.downstream_kept _ _ _ _ (link stage.toStage) MetricsCollector.State.Bounded
    MetricsCollector.State.moves_bounded _ _ _ steady.bounded stepped

theorem startIngress_thread (registrations : List Registration) :
    (startIngress stage.toStage registrations).pc.Placed ∧
      (startIngress stage.toStage registrations).running = true := by
  unfold startIngress
  split
  · exact ⟨trivial, rfl⟩
  · obtain ⟨place, running⟩ := Ingress.State.configured_thread registrations
    rw [place]
    exact ⟨trivial, running⟩

theorem start_steady (registrations : List Registration)
    (socketMap : PriorityTable (Option (List Egress.Socket))) :
    Steady (start stage.toStage registrations socketMap) where
  kept := start_kept registrations socketMap
  placed := (startIngress_thread registrations).1
  scheduler := (startIngress_thread registrations).2.trans stage.initial_running.symm
  egress := (startIngress_thread registrations).2
  serving := ⟨rfl, by simp [start, MetricsCollector.State.start]⟩
  bounded := (start_tallied registrations socketMap).bounded

/-! ## The steps that are left -/

/-- The steps the threads still take when the flag is cleared. -/
def rank (state : State stage.toStage) : Nat :=
  state.ingress.pc.rank + stage.rank state.scheduler + state.egress.pc.rank

/-- Steps of Ingress-DRR, the scheduler and Egress-DRR, but for those that only wait. -/
def advances (state : State stage.toStage) : Action stage.toStage → Bool
  | .inl (.inl action) => action.advances
  | .inl (.inr (.inr action)) => !stage.waits state.scheduler action
  | .inr (.inr work) => work.advances
  | .inl (.inr (.inl _)) | .inr (.inl _) => false

theorem step_rank {state next : State stage.toStage} {action : Action stage.toStage}
    (steady : Steady state) (stopped : state.egress.running = false)
    (stepped : step stage.toStage state action = some next) :
    rank next + (advances state action).toNat ≤ rank state := by
  have ingress : state.ingress.running = false := steady.egress.trans stopped
  have scheduler : stage.running state.scheduler = false := steady.scheduler.symm.trans ingress
  cases Link.step_moves stepped with
  | send moved told =>
      have place := (MetricsCollector.signals_place told).1
      cases Link.step_moves moved with
      | send served arrived =>
          have ranked := Ingress.State.serve_rank ingress served
          have unchanged := stage.told_ranks arrived
          simp only [rank, advances, State.ingress, State.scheduler, State.egress, place] at ranked unchanged ⊢
          omega
      | @alone action reached own alone =>
          cases action with
          | inl signal => cases own
          | inr action =>
              have ranked := stage.work_rank scheduler alone
              simp only [rank, advances, State.ingress, State.scheduler, State.egress, place] at ranked ⊢
              omega
  | @alone action reached own alone =>
      have ranked := MetricsCollector.State.moves_rank stopped alone
      cases action with
      | inl signal => cases own
      | inr work =>
          simp only [rank, advances, State.ingress, State.scheduler, State.egress, Sum.elim_inr] at ranked ⊢
          omega

/-! ## Threads that go on -/

/-- Time passes, or Metrics-Processor takes a step. -/
def Patient : Action stage.toStage → Prop
  | .inl (.inl (.tick _)) | .inr (.inr .processor) => True
  | _ => False

/-- When others have been patient for a while, some thread goes on. -/
def GoesOn (state : State stage.toStage) : Prop :=
  ∃ patience middle action, (∀ passed ∈ patience, Patient passed) ∧
    run (step stage.toStage) state patience = some middle ∧ advances middle action = true ∧
    ∃ next, step stage.toStage middle action = some next

theorem ingress_goes {state : State stage.toStage} (steady : Steady state)
    (active : state.ingress.pc ≠ .returned) : GoesOn state := by
  have goes {action : Ingress.Action} (own : action.advances = true)
      (served : ∃ next, state.ingress.serve action = some next) : GoesOn state := by
    obtain ⟨ingress, served⟩ := served
    obtain ⟨scheduler, moved⟩ := front_enabled steady.kept.front served
    obtain ⟨collector, stepped⟩ := step_enabled steady.kept moved
    exact ⟨[], state, .inl (.inl action), by simp, rfl, own, _, stepped⟩
  rcases Ingress.State.progress steady.placed active with runs | reads
  · exact @goes .run rfl runs
  · exact @goes (.recv .wouldBlock true) rfl reads

/-- Time passes for all threads. -/
theorem tick_enabled {state : State stage.toStage} (steady : Steady state) (elapsed : Duration) :
    ∃ next, step stage.toStage state (.inl (.inl (.tick elapsed))) = some next ∧
      stage.moves state.scheduler (.inl (.tick elapsed)) = some next.scheduler := by
  obtain ⟨scheduler, moved⟩ := @front_enabled stage.toStage state.1 (.tick elapsed) _ steady.kept.front rfl
  obtain ⟨collector, stepped⟩ := step_enabled steady.kept moved
  refine ⟨_, stepped, ?_⟩
  cases Link.step_moves moved with
  | send served told =>
      cases served
      change run stage.moves state.scheduler
        ((Pipeline.told [.tick elapsed] state.ingress.queues state.ingress.queues).map .inl) = _ at told
      rw [told_same rfl] at told
      obtain ⟨middle, ticked, ended⟩ := run_cons_eq_some.mp told
      cases ended
      exact ticked

theorem scheduler_goes {state : State stage.toStage} (steady : Steady state)
    (stopped : state.egress.running = false) (active : ¬ stage.ended state.scheduler) : GoesOn state := by
  have flag : stage.running state.scheduler = false :=
    (steady.egress.symm.trans steady.scheduler).symm.trans stopped
  obtain ⟨elapsed, action, goes⟩ := stage.progress steady.kept.front.scheduler flag active
  obtain ⟨middle, ticked, told⟩ := tick_enabled steady elapsed
  obtain ⟨patient, next, worked⟩ := goes _ told
  have moved : (front stage.toStage).step middle.1 (.inr (.inr action)) = some (middle.1.1, next) :=
    Link.alone_enabled rfl worked
  obtain ⟨collector, stepped⟩ := step_enabled (step_steady steady ticked).kept moved
  refine ⟨[.inl (.inl (.tick elapsed))], middle, .inl (.inr (.inr action)), ?_, ?_, ?_, _, stepped⟩
  · intro passed listed
    rw [List.mem_singleton.mp listed]
    trivial
  · exact run_cons_eq_some.mpr ⟨middle, ticked, rfl⟩
  · simp only [advances, patient, Bool.not_false]

/-- Steps of Metrics-Processor are steps of the pipeline. -/
theorem leadsTo_run {front : Front stage.toStage} {collector middle : MetricsCollector.State}
    (leads : collector.LeadsTo middle) :
    ∃ patience, (∀ passed ∈ patience, Patient passed) ∧
      run (step stage.toStage) (front, collector) patience = some (front, middle) := by
  obtain ⟨count, ran⟩ := leads
  refine ⟨List.replicate count (.inr (.inr .processor)), ?_, ?_⟩
  · intro passed listed
    rw [List.eq_of_mem_replicate listed]
    trivial
  · induction count generalizing collector with
    | zero =>
        cases ran
        rfl
    | succ count ih =>
        obtain ⟨next, stepped, continued⟩ := run_cons_eq_some.mp ran
        have moved : step stage.toStage (front, collector) (.inr (.inr .processor)) = some (front, next) :=
          Link.alone_enabled rfl stepped
        exact run_cons_eq_some.mpr ⟨_, moved, ih continued⟩

theorem egress_goes {state : State stage.toStage} (steady : Steady state)
    (active : state.egress.pc ≠ .returned) : GoesOn state := by
  obtain ⟨middle, work, leads, advances, next, moved⟩ :=
    MetricsCollector.State.progress steady.serving active steady.bounded.events
  obtain ⟨patience, patient, ran⟩ := @leadsTo_run stage state.1 _ _ leads
  have stepped : step stage.toStage (state.1, middle) (.inr (.inr work)) = some (state.1, next) :=
    Link.alone_enabled rfl moved
  exact ⟨patience, (state.1, middle), .inr (.inr work), patient, ran, advances, _, stepped⟩

end Pipeline

namespace StatisticsThread

variable {stage : HaltingStage}

/-- The steps until the return, when no report is begun any more. -/
def Pc.rank : Pc → Nat
  | .returned => 0
  | .loop => 1
  | .restart => 2
  | .send _ _ => 3
  | .readScheduler rest _ _ => rest.length + 4
  | .readIngress rest _ => rest.length + 9
  | .check => Priority.all.length + 10

def rank (watched : Watched stage.toStage) : Nat := Pipeline.rank watched.1.1 + watched.2.pc.rank

def advances (watched : Watched stage.toStage) : Action stage.toStage → Bool
  | .pipeline action => Pipeline.advances watched.1.1 action
  | .statistics => true

/-- All threads have returned, or have nothing more to do. -/
structure Ended (watched : Watched stage.toStage) : Prop where
  ingress : watched.1.1.ingress.pc = .returned
  scheduler : stage.ended watched.1.1.scheduler
  egress : watched.1.1.egress.pc = .returned
  statistics : watched.2.pc = .returned

def Patient : Action stage.toStage → Prop
  | .pipeline action => Pipeline.Patient action
  | .statistics => False

/-- The flag is cleared. -/
structure Stopped (watched : Watched stage.toStage) : Prop where
  steady : Pipeline.Steady watched.1.1
  egress : watched.1.1.egress.running = false

theorem Stopped.pipeline {watched : Watched stage.toStage}
    {history : Pipeline.State stage.toStage ×
      Past (Pipeline.State stage.toStage) (Pipeline.Action stage.toStage)}
    {thread : Thread} {action : Pipeline.Action stage.toStage} (stopped : Stopped watched)
    (stepped : recorded (Pipeline.step stage.toStage) watched.1 action = some history) :
    Stopped (history, thread) ∧
      Pipeline.rank history.1 + (Pipeline.advances watched.1.1 action).toNat ≤
        Pipeline.rank watched.1.1 := by
  obtain ⟨moved, _⟩ := recorded_eq_some.mp stepped
  refine ⟨⟨Pipeline.step_steady stopped.steady moved, ?_⟩,
    Pipeline.step_rank stopped.steady stopped.egress moved⟩
  refine @Link.downstream_kept _ _ _ _ (Pipeline.link stage.toStage)
    (fun collector => collector.egress.running = false) ?_ _ _ _ stopped.egress moved
  intro collector told after cleared moved
  rw [MetricsCollector.State.moves_running moved, cleared]
  rfl

/-- Of the pipeline the thread changes what `send_current_metrics` does. -/
theorem threadStep_pipeline {watched next : Watched stage.toStage}
    (stepped : threadStep watched = some next) :
    next.1 = watched.1 ∨
      recorded (Pipeline.step stage.toStage) watched.1 (.inr (.inr .publish)) = some next.1 := by
  simp only [threadStep] at stepped
  split at stepped
  · cases stepped
    exact .inl rfl
  · split at stepped
    · cases stepped
      exact .inl rfl
    · cases stepped
      exact .inl rfl
  · cases stepped
    exact .inl rfl
  · cases stepped
    exact .inl rfl
  · cases stepped
    exact .inl rfl
  · cases stepped
    exact .inl rfl
  · obtain ⟨after, published, rfl⟩ := Option.map_eq_some_iff.mp stepped
    exact .inr published
  · cases stepped
    exact .inl rfl
  · cases stepped

/-- Without the flag the thread gets on with every step. -/
theorem threadStep_rank {watched next : Watched stage.toStage}
    (stopped : watched.1.1.egress.running = false) (stepped : threadStep watched = some next) :
    next.2.pc.rank + 1 ≤ watched.2.pc.rank := by
  simp only [threadStep] at stepped
  split at stepped
  · rename_i place
    rw [if_neg (by rw [stopped]; exact Bool.false_ne_true)] at stepped
    cases stepped
    rw [place]
    exact Nat.le_refl 1
  · rename_i place
    rw [place]
    split at stepped
    · cases stepped
      exact Nat.le_refl _
    · cases stepped
      exact Nat.le_add_left 2 12
  · rename_i place
    cases stepped
    rw [place]
    exact Nat.le_refl _
  · rename_i place
    cases stepped
    rw [place]
    exact Nat.le_refl _
  · rename_i place
    cases stepped
    rw [place]
    exact Nat.le_refl _
  · rename_i place
    cases stepped
    rw [place]
    exact Nat.le_refl _
  · rename_i place
    obtain ⟨after, published, rfl⟩ := Option.map_eq_some_iff.mp stepped
    rw [place]
    exact Nat.le_refl 3
  · rename_i place
    cases stepped
    rw [place]
    exact Nat.le_refl _
  · cases stepped

theorem step_rank {watched next : Watched stage.toStage} {action : Action stage.toStage}
    (stopped : Stopped watched) (stepped : step watched action = some next) :
    Stopped next ∧ rank next + (advances watched action).toNat ≤ rank watched := by
  unfold step at stepped
  split at stepped
  · cases stepped
  · obtain ⟨history, moved, rfl⟩ := Option.map_eq_some_iff.mp stepped
    obtain ⟨stopped, ranked⟩ := @Stopped.pipeline _ _ _ watched.2 _ stopped moved
    refine ⟨stopped, ?_⟩
    simp only [rank, advances]
    omega
  · have less := threadStep_rank stopped.egress stepped
    rcases threadStep_pipeline stepped with same | published
    · refine ⟨⟨same ▸ stopped.steady, same ▸ stopped.egress⟩, ?_⟩
      simp only [rank, advances, Bool.toNat_true, same]
      omega
    · obtain ⟨stopped, ranked⟩ := @Stopped.pipeline _ _ _ next.2 _ stopped published
      refine ⟨stopped, ?_⟩
      simp only [rank, advances, Bool.toNat_true]
      omega

/-! ## All threads go on -/

theorem pipeline_enabled {watched : Watched stage.toStage} {action : Pipeline.Action stage.toStage}
    {next : Pipeline.State stage.toStage} (other : action ≠ .inr (.inr .publish))
    (moved : Pipeline.step stage.toStage watched.1.1 action = some next) :
    ∃ past, step watched (.pipeline action) = some ((next, past), watched.2) := by
  refine ⟨watched.1.2 ++ [(watched.1.1, action)], ?_⟩
  have noted : recorded (Pipeline.step stage.toStage) watched.1 action =
      some (next, watched.1.2 ++ [(watched.1.1, action)]) := recorded_eq_some.mpr ⟨moved, rfl⟩
  unfold step
  split
  · rename_i publishes
    cases publishes
    exact absurd rfl other
  · rename_i same
    cases same
    rw [noted, Option.map_some]
  · rename_i same
    cases same

/-- What the pipeline does without the thread. -/
theorem run_pipeline {watched : Watched stage.toStage} {patience : List (Pipeline.Action stage.toStage)}
    {middle : Pipeline.State stage.toStage} (patient : ∀ passed ∈ patience, Pipeline.Patient passed)
    (ran : TransitionSystem.run (Pipeline.step stage.toStage) watched.1.1 patience = some middle) :
    ∃ past, TransitionSystem.run step watched (patience.map .pipeline) =
      some ((middle, past), watched.2) := by
  induction patience generalizing watched with
  | nil =>
      cases ran
      exact ⟨watched.1.2, rfl⟩
  | cons action rest ih =>
      obtain ⟨next, stepped, continued⟩ := run_cons_eq_some.mp ran
      have other : action ≠ .inr (.inr .publish) := by
        rintro rfl
        exact patient _ List.mem_cons_self
      obtain ⟨past, noted⟩ := pipeline_enabled other stepped
      obtain ⟨later, reached⟩ := @ih ((next, past), watched.2)
        (fun passed listed => patient passed (List.mem_cons_of_mem _ listed)) continued
      exact ⟨later, run_cons_eq_some.mpr ⟨_, noted, reached⟩⟩

theorem patient_map {patience : List (Pipeline.Action stage.toStage)}
    (patient : ∀ passed ∈ patience, Pipeline.Patient passed) :
    ∀ passed ∈ patience.map Action.pipeline, Patient passed := by
  intro passed listed
  obtain ⟨inner, known, rfl⟩ := List.mem_map.mp listed
  exact patient inner known

/-- When others have been patient for a while, some thread goes on. -/
def GoesOn (watched : Watched stage.toStage) : Prop :=
  ∃ patience middle action, (∀ passed ∈ patience, Patient passed) ∧
    TransitionSystem.run step watched patience = some middle ∧ advances middle action = true ∧
    ∃ next, step middle action = some next

theorem pipeline_goes {watched : Watched stage.toStage} (goes : Pipeline.GoesOn watched.1.1) :
    GoesOn watched := by
  obtain ⟨patience, middle, action, patient, ran, own, next, stepped⟩ := goes
  obtain ⟨past, reached⟩ := run_pipeline patient ran
  have other : action ≠ .inr (.inr .publish) := by
    rintro rfl
    cases own
  obtain ⟨later, continued⟩ := @pipeline_enabled _ ((middle, past), watched.2) _ _ other stepped
  exact ⟨_, _, .pipeline action, patient_map patient, reached, own, _, continued⟩

/-- The thread waits for Metrics-Processor to give up the lock. -/
theorem thread_goes {watched : Watched stage.toStage} (stopped : Stopped watched)
    (active : watched.2.pc ≠ .returned) : GoesOn watched := by
  have goes (enabled : ∃ next, threadStep watched = some next) : GoesOn watched :=
    ⟨[], watched, .statistics, by simp, rfl, rfl, enabled⟩
  cases place : watched.2.pc with
  | loop => exact goes (by simp [threadStep, place])
  | check =>
      refine goes ?_
      simp only [threadStep, place]
      split <;> exact ⟨_, rfl⟩
  | readIngress rest drops =>
      refine goes ?_
      cases rest with
      | nil => simp [threadStep, place]
      | cons priority rest => simp [threadStep, place]
  | readScheduler rest ingressDrops drops =>
      refine goes ?_
      cases rest with
      | nil => simp [threadStep, place]
      | cons priority rest => simp [threadStep, place]
  | restart => exact goes (by simp [threadStep, place])
  | send ingressDrops edfDrops =>
      obtain ⟨metrics, batch, leads⟩ := MetricsCollector.State.reach_collect stopped.steady.serving
      obtain ⟨patience, patient, ran⟩ := @Pipeline.leadsTo_run stage watched.1.1.1 _ _ leads
      obtain ⟨past, reached⟩ := run_pipeline patient ran
      have published := @Link.alone_enabled _ _ _ _ (Pipeline.link stage.toStage)
        (watched.1.1.1, { watched.1.1.2 with metrics, batch, processor := .collect })
        (.inr .publish) _ rfl rfl
      refine ⟨_, _, .statistics, patient_map patient, reached, rfl, ?_⟩
      simp only [step, threadStep, place, recorded, published]
      exact ⟨_, rfl⟩
  | returned => exact absurd place active

theorem goes_on {watched : Watched stage.toStage} (stopped : Stopped watched)
    (active : ¬ Ended watched) : GoesOn watched := by
  by_cases ingress : watched.1.1.ingress.pc = .returned
  · by_cases scheduler : stage.ended watched.1.1.scheduler
    · by_cases egress : watched.1.1.egress.pc = .returned
      · exact thread_goes stopped fun statistics => active ⟨ingress, scheduler, egress, statistics⟩
      · exact pipeline_goes (Pipeline.egress_goes stopped.steady egress)
    · exact pipeline_goes (Pipeline.scheduler_goes stopped.steady stopped.egress scheduler)
  · exact pipeline_goes (Pipeline.ingress_goes stopped.steady ingress)

/-- The threads take boundedly many steps in whatever order, some thread goes on until all
have ended, and so they can end. -/
structure Finishes (watched : Watched stage.toStage) : Prop where
  bounded : ∀ actions final, TransitionSystem.run step watched actions = some final →
    counted step advances watched actions ≤ rank watched
  goes : ¬ Ended watched → GoesOn watched
  ends : ∃ actions final, TransitionSystem.run step watched actions = some final ∧ Ended final

theorem Stopped.ranked {watched final : Watched stage.toStage} {actions : List (Action stage.toStage)}
    (stopped : Stopped watched) (ran : TransitionSystem.run step watched actions = some final) :
    counted step advances watched actions + rank final ≤ rank watched :=
  counted_le (fun stopped stepped => (step_rank stopped stepped).1)
    (fun stopped stepped => (step_rank stopped stepped).2) stopped ran

theorem Stopped.finishes {watched : Watched stage.toStage} (stopped : Stopped watched) : Finishes watched where
  bounded actions final ran := (Nat.le_add_right _ _).trans (stopped.ranked ran)
  goes := goes_on stopped
  ends := by
    have preserved {watched next : Watched stage.toStage} {action : Action stage.toStage}
        (stopped : Stopped watched) (stepped : step watched action = some next) : Stopped next :=
      (step_rank stopped stepped).1
    refine @exists_end _ _ step Stopped Ended rank preserved ?_ _ stopped
    intro watched stopped active
    obtain ⟨patience, middle, action, _, ran, own, next, stepped⟩ := goes_on stopped active
    have waited := stopped.ranked ran
    have less := (step_rank (run_invariant preserved stopped ran) stepped).2
    rw [own, Bool.toNat_true] at less
    refine ⟨patience ++ [action], next, ?_, ?_⟩
    · rw [TransitionSystem.run_append, ran]
      exact run_cons_eq_some.mpr ⟨next, stepped, rfl⟩
    · omega

theorem step_steady {watched next : Watched stage.toStage} {action : Action stage.toStage}
    (steady : Pipeline.Steady watched.1.1) (stepped : step watched action = some next) :
    Pipeline.Steady next.1.1 := by
  have pipeline {history : Pipeline.State stage.toStage ×
      Past (Pipeline.State stage.toStage) (Pipeline.Action stage.toStage)}
      {action : Pipeline.Action stage.toStage}
      (moved : recorded (Pipeline.step stage.toStage) watched.1 action = some history) :
      Pipeline.Steady history.1 := Pipeline.step_steady steady (recorded_eq_some.mp moved).1
  unfold step at stepped
  split at stepped
  · cases stepped
  · obtain ⟨history, moved, rfl⟩ := Option.map_eq_some_iff.mp stepped
    exact pipeline moved
  · rcases threadStep_pipeline stepped with same | published
    · exact same ▸ steady
    · exact pipeline published

end StatisticsThread

/-- The schedulers that are known to end. -/
def PipelineConfig.haltingStage (config : PipelineConfig) : Option HaltingStage :=
  match config.scheduler with
  | .single => some Edf.haltingStage
  | .global => some (Gedf.haltingStage Gedf.deadline config.workerCount)
  | .globalVD => some (Gedf.haltingStage Gedf.virtualDeadline config.workerCount)
  | .mcEdfElastic => some McEdf.haltingStage
  | .singleCpuEdf => some (SingleCpu.haltingStage config.registrations)
  | .multiWorker | .clairvoyant => none

theorem PipelineConfig.haltingStage_stage {config : PipelineConfig} {stage : HaltingStage}
    (halts : config.haltingStage = some stage) : stage.toStage = config.stage := by
  obtain ⟨cores, ingress, scheduler⟩ := config
  cases scheduler with
  | multiWorker | clairvoyant => cases halts
  | single | global | globalVD | mcEdfElastic | singleCpuEdf =>
      cases halts
      rfl

open StatisticsThread in
/-- With these schedulers, from the moment the flag is cleared, the threads take boundedly
many steps in whatever order, and every one of them comes to its end. -/
theorem PipelineConfig.shutdown_ends (config : PipelineConfig) (stage : HaltingStage)
    (halts : config.haltingStage = some stage) (actions : List (StatisticsThread.Action stage.toStage)) :
    stage.toStage = config.stage ∧
      Throughout StatisticsThread.step (fun watched => watched.1.1.egress.running = false → Finishes watched)
        ((Pipeline.start stage.toStage config.registrations Pipeline.outputSocketMap, []), .start)
        actions := by
  refine ⟨haltingStage_stage halts, ?_⟩
  refine throughout_invariant step_steady ?_
    (Pipeline.start_steady config.registrations Pipeline.outputSocketMap) actions
  intro watched steady cleared
  exact Stopped.finishes ⟨steady, cleared⟩

/-- The flag is cleared while `process_next` has one datagram in hand, and eight steps
are left. -/
def StatisticsThread.oneShutdown : List (StatisticsThread.Action Edf.stage) :=
  (Pipeline.oneDatagram.take 12 ++ [Pipeline.ofIngress .stop] ++
      List.replicate 4 (Pipeline.ofIngress .run) ++
      [Pipeline.ofScheduler .run, Pipeline.ofScheduler (.send true), Pipeline.ofEgress .run]).map
    .pipeline ++ [.statistics]

open StatisticsThread in
theorem one_shutdown_ends :
    (Edf.haltingStage.toStage = PipelineConfig.default.stage ∧
      Throughout StatisticsThread.step
        (fun watched => watched.1.1.egress.running = false → @Finishes Edf.haltingStage watched)
        ((Pipeline.start Edf.stage PipelineConfig.default.registrations Pipeline.outputSocketMap, []), .start)
        oneShutdown) ∧
      (TransitionSystem.run StatisticsThread.step
          ((Pipeline.start Edf.stage PipelineConfig.default.registrations Pipeline.outputSocketMap, []), .start)
          oneShutdown).map (fun watched => (watched.1.1.egress.running, @rank Edf.haltingStage watched)) =
        some (false, 0) :=
  ⟨PipelineConfig.default.shutdown_ends Edf.haltingStage rfl oneShutdown, by decide +kernel⟩

end EdfPipeline
