import EdfPipeline.CommandLine
import EdfPipeline.Edf.Stage
import EdfPipeline.MultiWorker.Stage
import EdfPipeline.Gedf.Stage
import EdfPipeline.Cedf.Stage
import EdfPipeline.McEdf.Stage
import EdfPipeline.SingleCpu.Stage
import EdfPipeline.Pipeline.Conservation

/-!
# Configuration of the pipeline

The sockets, the budgets and the scheduler that `Pipeline::new` and `run` put
together. Sockets are told apart by their ports.
-/

set_option autoImplicit false

namespace EdfPipeline

structure SocketConfig where
  port : Nat
  latencyBudget : Duration
  priority : Priority
  deriving DecidableEq, Repr

structure CoreAssignment where
  edfDispatcher : Nat
  edfWorkers : List Nat
  deriving DecidableEq, Repr

def CoreAssignment.default : CoreAssignment where
  edfDispatcher := 1
  edfWorkers := [1, 2]

structure IngressSchedulerConfig where
  quantums : PriorityTable Nat

def IngressSchedulerConfig.default : IngressSchedulerConfig where
  quantums
    | .high => 64
    | .medium => 8
    | .low | .bestEffort => 1

structure PipelineConfig where
  cores : CoreAssignment
  ingress : IngressSchedulerConfig
  scheduler : SchedulerKind

def PipelineConfig.default : PipelineConfig where
  cores := .default
  ingress := .default
  scheduler := .single

namespace Pipeline

def inputSockets : List SocketConfig :=
  [{ port := 8080, latencyBudget := Duration.fromMillis 1, priority := .high },
    { port := 8081, latencyBudget := Duration.fromMillis 1, priority := .high },
    { port := 8082, latencyBudget := Duration.fromMillis 10, priority := .medium },
    { port := 8083, latencyBudget := Duration.fromMillis 10, priority := .medium },
    { port := 8084, latencyBudget := Duration.fromMillis 100, priority := .low },
    { port := 8085, latencyBudget := Duration.fromMillis 100, priority := .low }]

def outputSockets : List SocketConfig :=
  [{ port := 9080, latencyBudget := Duration.fromMillis 1, priority := .high },
    { port := 9081, latencyBudget := Duration.fromMillis 1, priority := .high },
    { port := 9082, latencyBudget := Duration.fromMillis 10, priority := .medium },
    { port := 9083, latencyBudget := Duration.fromMillis 10, priority := .medium },
    { port := 9084, latencyBudget := Duration.fromMillis 100, priority := .low },
    { port := 9085, latencyBudget := Duration.fromMillis 100, priority := .low }]

/-- The budget of the last socket of a class, inputs before outputs. -/
def latencyTable : PriorityTable Duration :=
  (inputSockets ++ outputSockets).foldl
    (fun table socket => table.set socket.priority socket.latencyBudget)
    fun _ => Duration.fromMillis 200

/-- What the statistics report as expected: of the outputs the least budget counts. -/
def expectedLatencies : PriorityTable Duration := fun priority =>
  let budget := inputSockets.foldl
    (fun budget socket => if socket.priority = priority then socket.latencyBudget else budget)
    (Duration.fromMillis 200)
  outputSockets.foldl
    (fun budget socket =>
      if socket.priority = priority then min budget socket.latencyBudget else budget) budget

end Pipeline

namespace Egress

abbrev SocketMap : Type := PriorityTable (Option (List Socket))

def addOutputSocket (sockets : SocketMap) (priority : Priority) (socket : Socket) : SocketMap :=
  sockets.set priority (some ((sockets priority).getD [] ++ [socket]))

end Egress

/-- The calls of `add_output_socket`. -/
def Pipeline.outputSocketMap : Egress.SocketMap :=
  Pipeline.outputSockets.foldl
    (fun sockets socket => Egress.addOutputSocket sockets socket.priority socket.port) fun _ => none

namespace PipelineConfig

variable (config : PipelineConfig)

/-- The calls of `add_socket`. -/
def registrations : List Registration :=
  Pipeline.inputSockets.map fun socket =>
    { socket := socket.port
      priority := socket.priority
      latencyBudget := socket.latencyBudget
      quantum := config.ingress.quantums socket.priority }

def workerCount : Nat := (Gedf.workerCoreList config.cores.edfDispatcher config.cores.edfWorkers).length

/-- The scheduler of the configured kind. -/
def stage : Stage :=
  match config.scheduler with
  | .single => Edf.stage
  | .multiWorker => MultiWorker.fed.toStage
  | .global => (Gedf.fed Gedf.deadline config.workerCount).toStage
  | .globalVD => (Gedf.fed Gedf.virtualDeadline config.workerCount).toStage
  | .clairvoyant => (Cedf.fed config.workerCount).toStage
  | .mcEdfElastic => McEdf.fed.toStage
  | .singleCpuEdf => SingleCpu.stage config.registrations

/-- The state in which all threads are started. -/
def start : Pipeline.State config.stage :=
  Pipeline.start config.stage config.registrations Pipeline.outputSocketMap

/-- The heaps of the other schedulers outlive the threads. -/
theorem lost_eq_zero {config : PipelineConfig} (multiWorker : config.scheduler ≠ .multiWorker)
    {state : Pipeline.State config.stage} (kept : config.stage.Kept state.scheduler)
    (mcEdf : config.scheduler = .mcEdfElastic → config.stage.running state.scheduler = true) :
    Pipeline.lost state = 0 := by
  obtain ⟨cores, ingress, scheduler⟩ := config
  cases scheduler with
  | multiWorker => exact absurd rfl multiWorker
  | mcEdfElastic => exact kept.1.2.lost_eq_zero (mcEdf rfl)
  | single | global | globalVD | clairvoyant | singleCpuEdf =>
      exact Interface.lost_of_none_gone _ fun _ => rfl

open Pipeline TransitionSystem in
/-- Whatever the scheduler and the order of steps, every packet read is at one place of
the pipeline, or the scheduler has lost it: nothing is there twice, packets have the
numbers of their reading, and the counters say what the queues dropped. Only the
multi-worker scheduler loses packets, and MC-EDF at its end. -/
theorem conserves_packets (actions : List (Pipeline.Action config.stage)) :
    Throughout (recorded (Pipeline.step config.stage))
      (fun history => Accounted history ∧
        (config.scheduler ≠ .multiWorker →
          (config.scheduler = .mcEdfElastic → config.stage.running history.1.scheduler = true) →
            lost history.1 = 0))
      (config.start, []) actions := by
  refine throughout_invariant step_booked ?_ (start_booked config.registrations outputSocketMap) actions
  intro history booked
  exact ⟨booked.accounted, fun multiWorker => lost_eq_zero multiWorker booked.kept.front.scheduler⟩

end PipelineConfig

/-! ## Datagrams -/

namespace Pipeline

def ofIngress (action : Ingress.Action) : Action Edf.stage := .inl (.inl action)

def ofScheduler (action : Edf.Action) : Action Edf.stage := .inl (.inr (.inr action))

def ofEgress (work : MetricsCollector.Work) : Action Edf.stage := .inr (.inr work)

/-- One call of `process_next`. -/
def processOne : List (Action Edf.stage) :=
  ofScheduler .processNext :: List.replicate 5 (ofScheduler .run) ++
    [ofIngress (.tick 100000), ofScheduler .run, ofScheduler (.send true)]

/-- A datagram of class High from its socket to the egress. -/
def oneDatagram : List (Action Edf.stage) :=
  List.replicate 4 (ofIngress .run) ++ ofIngress (.recv (.datagram [1, 2, 3]) true) :: processOne ++
    List.replicate 5 (ofEgress .run)

/-- The datagram is sent and its event applied. -/
def firstSent : List (Action Edf.stage) :=
  oneDatagram ++ ofEgress (.sendTo .sent) :: List.replicate 4 (ofEgress .processor)

/-- The next datagram of the class finds the queue of the scheduler full, the one after
it is sent. -/
def nextSent : List (Action Edf.stage) :=
  [ofIngress .run, ofIngress (.recv (.datagram [4]) false)] ++ List.replicate 2 (ofIngress .run) ++
    ofIngress (.recv (.datagram [5, 6]) true) :: processOne ++ List.replicate 9 (ofEgress .run) ++
    ofEgress (.sendTo .sent) :: List.replicate 4 (ofEgress .processor)

end Pipeline

end EdfPipeline
