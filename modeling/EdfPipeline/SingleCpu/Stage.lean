import EdfPipeline.SingleCpu.EarliestDeadline
import EdfPipeline.SingleCpu.Budgets
import EdfPipeline.Pipeline.Stage
import Mathlib.Tactic.Abel

/-!
# The single-CPU scheduler as a stage

It reads the sockets itself and nothing arrives on its channels. The thread
SingleCPU-EDF reads `running` between two calls of `process_next`; the
scheduler's own flag is never cleared.
-/

set_option autoImplicit false

namespace EdfPipeline.SingleCpu

open Ledger

/-- SingleCPU-EDF. -/
abbrev Thread : Type := Loop State

def wiring : LoopWiring State Action where
  arrive _ _ := none
  tick := .tick
  own
    | .processNext | .run | .recv _ _ | .send _ => true
    | .addSocket _ _ _ | .tick _ => false
  begins
    | _, .processNext => true
    | _, _ => false

inductive Place where
  | queue (priority : Priority)
  | hand (priority : Priority)
  deriving DecidableEq

/-- The sockets are registered before the thread is started. -/
def registered (registrations : List Registration) : State :=
  { State.initial with
    socketConfigs := fun priority => (registeredFor priority registrations).map configOf }

/-- The calls of `add_socket` lead there. -/
theorem registered_run (registrations : List Registration) :
    run State.initial (registrations.map fun registration => .addSocket registration.socket
        registration.priority registration.latencyBudget) =
      some (registered registrations) := by
  induction registrations using List.reverseRecOn with
  | nil => rfl
  | append_singleton registrations registration ih =>
      rw [List.map_append, run, TransitionSystem.run_append, ← run, ih]
      simp only [List.map_cons, List.map_nil, Option.bind_some, TransitionSystem.run_cons, State.step,
        registered, State.initial, Call.holdsConfigs, Bool.false_eq_true, if_false,
        TransitionSystem.run_nil, Option.some.injEq, State.mk.injEq, true_and, and_true]
      funext priority
      exact State.addSocket_configs (fun _ => rfl) registration priority

namespace State

def ends (state : State) : Ends where
  clock := state.clock
  inputs := fun _ => .empty
  outputs := state.outputQueues

def inHand (state : State) (priority : Priority) : List Packet :=
  state.call.hand.filter fun packet => packet.priority = priority

def held (state : State) : Multiset (Place × Packet) :=
  ∑ priority, entries (.queue priority) ↑((state.edfQueues priority).map Edf.EDFTask.packet) +
    ∑ priority, entries (.hand priority) ↑(state.inHand priority)

theorem held_lines (state : State) :
    state.held.map Prod.snd + handedAll state.outputQueues = ∑ priority, ↑(state.lineOf priority) := by
  simp only [held, Multiset.map_add, map_snd_sum_entries, handedAll, lineOf, inHand,
    ← Multiset.coe_add, Finset.sum_add_distrib]
  abel

end State

def interface (registrations : List Registration) : Interface where
  State := Thread
  Action := Action
  Place := Place
  initial := { scheduler := registered registrations, running := true }
  moves := wiring.moves State.step
  readsSockets := true
  datagram
    | .recv _ (.datagram payload) => some payload
    | _ => none
  reads thread action := (thread.scheduler.received action).map Prod.snd
  packetCount thread := thread.scheduler.nextPacketId
  running := Loop.running
  ends thread := thread.scheduler.ends
  inside thread := thread.scheduler.held
  gone _ _ := false

namespace State

structure Settled (registrations : List Registration) (state : State) : Prop where
  own : state.Own
  counted : ∀ priority, (state.outputQueues priority).Counted
  configs : ∀ priority, state.socketConfigs priority = (registeredFor priority registrations).map configOf
  reads : state.call.Reads state.socketConfigs
  classes : ∀ priority, ∀ packet ∈ state.lineOf priority, packet.priority = priority

/-- What is read is of the class of its socket. -/
theorem received_own {state : State} {action : Action} {item : Priority × Packet}
    (received : state.received action = some item) : item.2.priority = item.1 := by
  unfold State.received at received
  split at received
  · split at received
    · cases received
      rfl
    · cases received
  · cases received

theorem received_buffer {registrations : List Registration} {state : State} {action : Action}
    {item : Priority × Packet} (received : state.received action = some item) :
    ∃ payload, (interface registrations).datagram action = some payload ∧ item.2.Holds payload := by
  unfold State.received at received
  split at received
  · split at received
    · cases received
      exact ⟨_, rfl, rfl, rfl⟩
    · cases received
  · cases received

theorem received_class (state : State) (action : Action) :
    ((state.received action).map Prod.snd).map Packet.classed =
      state.received action := by
  cases received : state.received action with
  | none => rfl
  | some item => exact congrArg (fun priority => some (priority, item.2)) (received_own received)

theorem step_settled {registrations : List Registration} {state next : State} {action : Action}
    (settled : state.Settled registrations) (silent : action.registration = none)
    (stepped : state.step action = some next) : next.Settled registrations := by
  have flow := step_flow stepped
  obtain ⟨configs, reads⟩ := (step_moves stepped).reads silent settled.reads
  refine ⟨flow.own settled.own, flow.counted settled.counted, configs ▸ settled.configs,
    configs.symm ▸ reads, ?_⟩
  intro priority packet listed
  rw [flow.line settled.own] at listed
  rcases List.mem_append.mp listed with old | read
  · exact settled.classes priority packet old
  · obtain ⟨item, received, class_⟩ := Option.bind_eq_some_iff.mp (Option.mem_toList.mp read)
    obtain ⟨rfl, rfl⟩ := mem_ofClass.mp class_
    exact received_own received

def duration : Action → Duration
  | .tick elapsed => elapsed
  | _ => 0

/-- What a step does at the ends, and to the numbers of the packets. -/
structure Framed (state : State) (action : Action) (next : State) : Prop where
  clock : next.clock = state.clock + duration action
  grown : Grown state.outputQueues next.outputQueues
  count : next.nextPacketId = state.nextPacketId + (state.received action).toList.length
  numbered : ∀ item ∈ state.received action, item.2.id = state.nextPacketId

theorem Framed.quiet {state next : State} {action : Action} (quiet : state.received action = none)
    (clock : next.clock = state.clock + duration action)
    (outputs : next.outputQueues = state.outputQueues)
    (count : next.nextPacketId = state.nextPacketId) : state.Framed action next where
  clock := clock
  grown := outputs ▸ .refl _
  count := by
    rw [quiet]
    exact count
  numbered := by
    rw [quiet]
    simp

theorem step_framed {state next : State} {action : Action} (stepped : state.step action = some next) :
    state.Framed action next := by
  cases step_moves stepped with
  | read place =>
      rename_i priority config sockets rest available byte bytes
      have sees : state.received (.recv available (.datagram (byte :: bytes))) =
          some (priority, state.packet priority config (byte :: bytes)) := by
        simp [received, place]
      refine ⟨rfl, .refl _, by rw [sees]; rfl, ?_⟩
      rw [sees]
      rintro item ⟨⟩
      rfl
  | dry place nothing => exact .quiet (state.received_dry _ nothing) rfl rfl rfl
  | forward place => exact ⟨rfl, grown_set_trySend _ _ _ _, rfl, by simp [received]⟩
  | addSocket | tick | processNext | refilled | refill | filled | next | leave | idle | take | spin
  | done => exact .quiet rfl rfl rfl rfl

theorem Framed.numbers {state next : State} {action : Action} {reads : Option Packet}
    (framed : state.Framed action next) (read : (state.received action).map Prod.snd = reads) :
    next.nextPacketId = state.nextPacketId + reads.toList.length ∧
      ∀ packet ∈ reads, packet.id = state.nextPacketId := by
  subst read
  refine ⟨framed.count.trans ?_, ?_⟩
  · cases state.received action <;> rfl
  · rintro packet found
    obtain ⟨item, received, rfl⟩ := Option.map_eq_some_iff.mp found
    exact framed.numbered item received

/-- The lines of all classes grow by what is read. -/
theorem step_lines {state next : State} {action : Action} (own : state.Own)
    (stepped : state.step action = some next) :
    ∑ priority, (↑(next.lineOf priority) : Multiset Packet) =
      ((state.received action).map Prod.snd).elim 0 singleton + ∑ priority, ↑(state.lineOf priority) := by
  rw [← sum_append_ofClass]
  exact Finset.sum_congr rfl fun priority _ =>
    congrArg Multiset.ofList ((step_flow stepped).line own priority)

end State

theorem registered_settled (registrations : List Registration) :
    (registered registrations).Settled registrations where
  own := by simp [State.Own, registered, State.initial]
  counted _ := OutputQueue.counted_initial
  configs _ := rfl
  reads := trivial
  classes := by simp [registered, State.initial, State.lineOf, Call.hand]

variable {registrations : List Registration}

/-- What the thread does is what its scheduler does, or it notes the end of `running`. -/
theorem moves_cases {thread next : Thread} {action : Signal ⊕ Action}
    (moved : wiring.moves State.step thread action = some next) :
    (∃ own, own.registration = none ∧ thread.scheduler.step own = some next.scheduler ∧
        State.duration own = elapsed action ∧
        thread.scheduler.received own = (interface registrations).entered thread action ∧
        (thread.scheduler.received own).map Prod.snd =
          action.getRight?.bind ((interface registrations).reads thread)) ∨
      action = .inl .stop ∧ next.scheduler = thread.scheduler := by
  rcases LoopWiring.moves_behind moved with ⟨own, found, stepped, _⟩ | ⟨rfl, rfl⟩
  · refine .inl ⟨own, ?_⟩
    cases action with
    | inl signal =>
        cases signal with
        | arrive priority packet => cases found
        | tick elapsed =>
            cases found
            exact ⟨rfl, stepped, rfl, rfl, rfl⟩
        | stop => cases found
    | inr action =>
        simp only [LoopWiring.behind] at found
        split at found
        · rename_i enabled
          cases found
          cases own with
          | addSocket | tick => cases enabled.1
          | processNext | run | recv | send => exact ⟨rfl, stepped, rfl, (State.received_class _ _).symm, rfl⟩
        · cases found
  · exact .inr ⟨rfl, rfl⟩

theorem thread_settled {thread next : Thread} {action : Signal ⊕ Action}
    (settled : thread.scheduler.Settled registrations)
    (moved : wiring.moves State.step thread action = some next) :
    next.scheduler.Settled registrations := by
  rcases @moves_cases registrations _ _ _ moved with ⟨own, silent, stepped, _⟩ | ⟨_, same⟩
  · exact State.step_settled settled silent stepped
  · exact same ▸ settled

theorem contents_lines (thread : Thread) :
    (interface registrations).contents thread = ∑ priority, ↑(thread.scheduler.lineOf priority) := by
  have total := thread.scheduler.held_lines
  change queuedAll (fun _ => .empty) + thread.scheduler.held.map Prod.snd +
    handedAll thread.scheduler.outputQueues = _
  rw [queuedAll_empty fun _ => rfl, zero_add, total]

/-- With these sockets registered. -/
def stage (registrations : List Registration) : Stage where
  toInterface := interface registrations
  Kept thread := thread.scheduler.Settled registrations
  initial_kept := registered_settled registrations
  moves_kept := thread_settled
  initial_empty := (contents_lines _).trans (by simp [interface, registered, State.initial, State.lineOf, Call.hand])
  conserves := by
    intro thread action next settled moved
    refine (contents_lines _).trans (Eq.trans ?_ (congrArg _ (contents_lines _).symm))
    rcases @moves_cases registrations _ _ _ moved with ⟨own, _, stepped, _, enters, _⟩ | ⟨rfl, same⟩
    · rw [← (interface registrations).entered_snd, ← enters]
      exact State.step_lines settled.own stepped
    · rw [same]
      exact (zero_add _).symm
  grows := by
    intro thread action next _ moved
    rcases @moves_cases registrations _ _ _ moved with ⟨own, _, stepped, _⟩ | ⟨rfl, same⟩
    · exact (State.step_framed stepped).grown
    · change Grown _ next.scheduler.outputQueues
      rw [same]
      exact .refl _
  counted settled := settled.counted
  accepts := by
    intro thread signal _ _ passive
    cases signal with
    | arrive priority packet => exact absurd rfl (passive rfl priority packet)
    | tick elapsed => exact ⟨_, rfl⟩
    | stop => exact ⟨_, rfl⟩
  ticks := by
    intro thread action next _ moved
    rcases @moves_cases registrations _ _ _ moved with ⟨own, _, stepped, lasts, _⟩ | ⟨rfl, same⟩
    · exact (State.step_framed stepped).clock.trans (congrArg (thread.scheduler.clock + ·) lasts)
    · exact congrArg State.clock same
  passive reads := by cases reads
  buffers := by
    intro thread action packet made
    obtain ⟨item, received, rfl⟩ := Option.map_eq_some_iff.mp made
    exact State.received_buffer received
  initial_count := rfl
  numbers := by
    intro thread action next moved
    rcases @moves_cases registrations _ _ _ moved with ⟨own, _, stepped, _, _, reads⟩ | ⟨rfl, same⟩
    · exact (State.step_framed stepped).numbers reads
    · refine ⟨congrArg State.nextPacketId same, ?_⟩
      rintro packet ⟨⟩

def lineStage (registrations : List Registration) : LineStage where
  toStage := stage registrations
  line thread := thread.scheduler.lineOf
  initial_line _ := by
    simp [stage, interface, registered, State.initial, State.lineOf, Call.hand]
  extends_line := by
    intro thread action next settled moved priority
    rcases @moves_cases registrations _ _ _ moved with ⟨own, _, stepped, _, enters, _⟩ | ⟨rfl, same⟩
    · exact enters ▸ (State.step_flow stepped).line settled.own priority
    · exact (congrArg (State.lineOf · priority) same).trans (List.append_nil _).symm
  handed_line _ _ := ⟨_, rfl⟩

theorem read_budget {state : State} {action : Action} {item : Priority × Packet}
    (settled : state.Settled registrations) (received : state.received action = some item) :
    BudgetFrom registrations item.2 := by
  unfold State.received at received
  split at received
  · split at received
    · rename_i priority config sockets rest place
      cases received
      have reads := settled.reads
      rw [place] at reads
      have listed := reads.subset List.mem_cons_self
      rw [settled.configs] at listed
      obtain ⟨registration, registered, rfl⟩ := List.mem_map.mp listed
      obtain ⟨known, class_⟩ := List.mem_filter.mp registered
      exact ⟨registration, known, of_decide_eq_true class_, rfl⟩
    · cases received
  · cases received

def classStage (registrations : List Registration) : ClassStage registrations where
  toStage := stage registrations
  budget settled made := by
    obtain ⟨item, received, rfl⟩ := Option.map_eq_some_iff.mp made
    exact read_budget settled received
  own settled priority packet handed :=
    settled.classes priority packet (List.mem_append_left _ handed)

end EdfPipeline.SingleCpu
