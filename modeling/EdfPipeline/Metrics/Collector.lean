import EdfPipeline.Egress.Scheduler

/-!
# The metrics collector

`record_packet` puts an event on a bounded channel. The thread
Metrics-Processor takes the events off in batches and brings the statistics of
their classes up to date, under a lock it holds for the whole batch.
-/

set_option autoImplicit false

namespace EdfPipeline

open Egress (MetricsEvent)

/-- Latencies are exact, where the source has microseconds in floating point. -/
structure LatencyMeasurement where
  latency : Duration
  timestamp : Instant
  deriving DecidableEq, Repr

structure Metrics where
  priority : Priority
  packetCount : Nat
  latencies : List LatencyMeasurement
  deadlineMisses : Nat
  timeWindow : Duration
  cachedP50 : Option Duration
  cachedP95 : Option Duration
  cachedP99 : Option Duration
  cachedP999 : Option Duration
  cachedPacketCount : Nat
  deriving DecidableEq, Repr

/-- The clock starts at its earliest instant. -/
def Instant.checkedSub (instant : Instant) (duration : Duration) : Option Instant :=
  if duration ≤ instant then some (instant - duration) else none

namespace Metrics

def new (priority : Priority) : Metrics where
  priority
  packetCount := 0
  latencies := []
  deadlineMisses := 0
  timeWindow := Duration.fromMillis 10000
  cachedP50 := none
  cachedP95 := none
  cachedP99 := none
  cachedP999 := none
  cachedPacketCount := 0

/-- Measurements leave from the front until one is within the window. -/
def recordLatency (metrics : Metrics) (now : Instant) (latency : Duration)
    (deadlineMissed : Bool) : Metrics :=
  let latest : LatencyMeasurement := { latency, timestamp := now }
  let cutoffTime := (Instant.checkedSub now metrics.timeWindow).getD now
  { metrics with
    packetCount := metrics.packetCount + 1
    latencies := (metrics.latencies ++ [latest]).dropWhile fun front =>
      front.timestamp < cutoffTime
    deadlineMisses := metrics.deadlineMisses + deadlineMissed.toNat
    cachedP50 := none
    cachedP95 := none
    cachedP99 := none
    cachedP999 := none }

end Metrics

namespace MetricsCollector

def batchSize : Nat := 100

/-- A place in the loop of Metrics-Processor; while it holds the lock, with the
events of the batch to come. -/
inductive ProcessorPc where
  | collect
  | update (rest : List MetricsEvent)
  | returned
  deriving DecidableEq, Repr

/-- The channel of events is the one the egress scheduler sends on. -/
structure State where
  egress : Egress.State
  disconnected : Bool
  metrics : PriorityTable (Option Metrics)
  batch : List MetricsEvent
  processor : ProcessorPc

/-- `egress` is a step of the egress scheduler or of its surroundings, `processor` the
next step of Metrics-Processor and `dropSenders` the end of the last sender. -/
inductive Action where
  | egress (action : Egress.Action)
  | processor
  | dropSenders

namespace State

/-- Metrics-Processor starts when `process_queues` is entered. -/
def start (receivers : PriorityTable (Channel Packet))
    (socketMap : PriorityTable (Option (List Egress.Socket))) : State where
  egress := .start receivers socketMap
  disconnected := false
  metrics := fun _ => none
  batch := []
  processor := .collect

def record (state : State) (event : MetricsEvent) : PriorityTable (Option Metrics) :=
  let metrics := (state.metrics event.priority).getD (.new event.priority)
  state.metrics.set event.priority
    (some (metrics.recordLatency state.egress.clock event.latency event.deadlineMissed))

def processorStep (state : State) : Option State :=
  match state.processor with
  | .collect =>
      if state.batch.length < batchSize then
        match state.egress.events with
        | event :: events =>
            some { state with
              egress := { state.egress with events }
              batch := state.batch ++ [event] }
        | [] =>
            if state.disconnected then some { state with processor := .returned }
            else if state.batch = [] then some state
            else some { state with processor := .update state.batch }
      else some { state with processor := .update state.batch }
  | .update (event :: rest) =>
      some { state with metrics := state.record event, processor := .update rest }
  | .update [] => some { state with batch := [], processor := .collect }
  | .returned => none

/-- The egress scheduler holds a sender until it returns. -/
def step (state : State) : Action → Option State
  | .egress .takeEvent => none
  | .egress action => (state.egress.step action).map fun egress => { state with egress }
  | .processor => state.processorStep
  | .dropSenders =>
      if state.egress.pc = .returned then some { state with disconnected := true } else none

end State

abbrev run : State → List Action → Option State := TransitionSystem.run State.step

end MetricsCollector

end EdfPipeline
