import EdfPipeline.Egress.Scheduler

/-!
# Steps of the egress

What `process_queues`, an attempt to send, the other end of the queues and the
metrics thread can do in one step.
-/

set_option autoImplicit false

namespace EdfPipeline.Egress

namespace State

inductive Moves (state : State) : Action → State → Prop where
  | arrive {priority : Priority} {packet : Packet}
      (connected : (state.receivers priority).disconnected = false) :
      Moves state (.arrive priority packet) { state with
        receivers := state.receivers.set priority ((state.receivers priority).send packet) }
  | disconnect (priority : Priority) :
      Moves state (.disconnect priority) { state with
        receivers := state.receivers.set priority
          { state.receivers priority with disconnected := true } }
  | tick (elapsed : Duration) :
      Moves state (.tick elapsed) { state with clock := state.clock + elapsed }
  | stop : Moves state .stop { state with running := false }
  | takeEvent {event : MetricsEvent} {events : List MetricsEvent}
      (waiting : state.events = event :: events) : Moves state .takeEvent { state with events }
  | enter (place : state.pc = .top) (running : state.running = true) :
      Moves state .run { state with pc := .poll Priority.all, served := none }
  | quit (place : state.pc = .top) (stopped : state.running = false) :
      Moves state .run { state with pc := .returned }
  | leave (place : state.pc = .poll []) : Moves state .run { state with pc := .top }
  | receive {priority : Priority} {rest : List Priority} {packet : Packet}
      {remaining : Channel Packet} (place : state.pc = .poll (priority :: rest))
      (received : (state.receivers priority).tryRecv = .ok (packet, remaining)) :
      Moves state .run (state.receive rest priority packet remaining)
  | skip {priority : Priority} {rest : List Priority} (place : state.pc = .poll (priority :: rest))
      (failed : (state.receivers priority).tryRecv = .error .empty) :
      Moves state .run { state with pc := .poll rest }
  | close {priority : Priority} {rest : List Priority} (place : state.pc = .poll (priority :: rest))
      (failed : (state.receivers priority).tryRecv = .error .disconnected) :
      Moves state .run { state with pc := .returned }
  | measure {rest : List Priority} {priority : Priority} {packet : Packet}
      (place : state.pc = .measure rest priority packet) :
      Moves state .run
        { state with pc := .judge rest priority packet (state.clock - packet.timestamp) }
  | judge {rest : List Priority} {priority : Priority} {packet : Packet} {latency : Duration}
      (place : state.pc = .judge rest priority packet latency) :
      Moves state .run { state with
        pc := .record rest packet
          { priority, latency, deadlineMissed := decide (state.clock > packet.deadline) } }
  | record {rest : List Priority} {packet : Packet} {event : MetricsEvent}
      (place : state.pc = .record rest packet event) (room : state.events.length < eventCapacity) :
      Moves state .run (state.recordPacket rest packet event)
  | sent {rest : List Priority} {packet : Packet} {socket : Socket}
      (place : state.pc = .send rest packet socket) :
      Moves state (.sendTo .sent) { state with
        transmitted := state.transmitted ++ [(socket, packet)]
        pc := .poll rest }
  | wouldBlock {rest : List Priority} {packet : Packet} {socket : Socket}
      (place : state.pc = .send rest packet socket) : Moves state (.sendTo .wouldBlock) state
  | failed {rest : List Priority} {packet : Packet} {socket : Socket}
      (place : state.pc = .send rest packet socket) :
      Moves state (.sendTo .failed) { state with pc := .poll rest }

theorem runStep_moves {state next : State} (stepped : state.runStep = some next) :
    Moves state .run next := by
  cases place : state.pc with
  | top =>
      simp only [runStep, place] at stepped
      split at stepped
      · rename_i running
        cases stepped
        exact .enter place running
      · rename_i stopped
        cases stepped
        exact .quit place (Bool.eq_false_of_not_eq_true stopped)
  | poll classes =>
      cases classes with
      | nil =>
          simp only [runStep, place, Option.some.injEq] at stepped
          cases stepped
          exact .leave place
      | cons priority rest =>
          simp only [runStep, place] at stepped
          split at stepped
          · rename_i received
            cases stepped
            exact .receive place received
          · rename_i failed
            cases stepped
            exact .skip place failed
          · rename_i failed
            cases stepped
            exact .close place failed
  | measure rest priority packet =>
      simp only [runStep, place, Option.some.injEq] at stepped
      cases stepped
      exact .measure place
  | judge rest priority packet latency =>
      simp only [runStep, place, Option.some.injEq] at stepped
      cases stepped
      exact .judge place
  | record rest packet event =>
      simp only [runStep, place] at stepped
      split at stepped
      · rename_i room
        cases stepped
        exact .record place room
      · cases stepped
  | send rest packet socket | returned => simp [runStep, place] at stepped

theorem step_moves {state next : State} {action : Action}
    (stepped : state.step action = some next) : Moves state action next := by
  cases action with
  | arrive priority packet =>
      simp only [step] at stepped
      split at stepped
      · cases stepped
      · rename_i connected
        cases stepped
        exact .arrive (Bool.eq_false_of_not_eq_true connected)
  | disconnect priority =>
      cases stepped
      exact .disconnect priority
  | tick elapsed =>
      cases stepped
      exact .tick elapsed
  | stop =>
      cases stepped
      exact .stop
  | takeEvent =>
      simp only [step] at stepped
      split at stepped
      · cases stepped
      · rename_i waiting
        cases stepped
        exact .takeEvent waiting
  | run => exact runStep_moves stepped
  | sendTo outcome =>
      simp only [step, sendStep] at stepped
      split at stepped
      · rename_i place
        cases outcome with
        | sent =>
            cases stepped
            exact .sent place
        | wouldBlock =>
            cases stepped
            exact .wouldBlock place
        | failed =>
            cases stepped
            exact .failed place
      · cases stepped

end State

end EdfPipeline.Egress
