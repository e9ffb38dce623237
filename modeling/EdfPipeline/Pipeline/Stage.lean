import EdfPipeline.Outputs
import EdfPipeline.Registration

/-!
# Stages of the pipeline

What the wiring needs of a scheduler between the input and the output channels
of all classes: how it is told of arrivals, of time and of the end, what waits
on its channels, what it holds and what it has lost. A stage carries the proof
that packets only enter it by arriving or by being read, and that what it has
handed over stays so.
-/

set_option autoImplicit false

namespace EdfPipeline

open Ledger

/-! ## What is accepted on the output queues -/

namespace OutputQueue

/-- What was sent since the queue was as before. -/
def since (output before : OutputQueue) : List Packet :=
  ((output.log.drop before.log.length).filter Prod.snd).map Prod.fst

theorem sent_since {output before : OutputQueue} (grown : before.log <+: output.log) :
    output.sent = before.sent ++ output.since before := by
  obtain ⟨later, whole⟩ := grown
  rw [sent, since, sent, ← whole, List.drop_left, List.filter_append, List.map_append]

/-- What was sent of what was handed over since. -/
theorem since_sublist {output before : OutputQueue} (grown : before.log <+: output.log)
    {more : List Packet} (handed : output.handed = before.handed ++ more) :
    (output.since before).Sublist more := by
  obtain ⟨later, whole⟩ := grown
  rw [OutputQueue.handed, ← whole, List.map_append] at handed
  rw [since, ← whole, List.drop_left, ← List.append_cancel_left handed]
  exact List.filter_sublist.map _

/-- The rest was counted as dropped. -/
theorem dropCounter_since {output before : OutputQueue} (grown : before.log <+: output.log)
    (counted : before.Counted) (counted' : output.Counted) {more : List Packet}
    (handed : output.handed = before.handed ++ more) :
    output.dropCounter + (output.since before).length = before.dropCounter + more.length := by
  have earlier := (handed_split before).length_eq
  have whole := (handed_split output).length_eq
  rw [handed, sent_since grown] at whole
  simp only [List.length_append] at earlier whole
  rw [counted, counted']
  omega

theorem grown_trySend (output : OutputQueue) (room : Nat → Bool) (packet : Packet) :
    output.log <+: (output.trySend room packet).log := by
  unfold trySend
  split <;> exact List.prefix_append _ _

@[simp] theorem since_self (output : OutputQueue) : output.since output = [] := by
  rw [since, List.drop_length]
  rfl

end OutputQueue

/-- Nothing handed over is taken back. -/
def Grown (before after : PriorityTable OutputQueue) : Prop :=
  ∀ priority, (before priority).log <+: (after priority).log

theorem Grown.refl (outputs : PriorityTable OutputQueue) : Grown outputs outputs :=
  fun _ => List.prefix_refl _

theorem Grown.trans {before middle after : PriorityTable OutputQueue} (first : Grown before middle)
    (second : Grown middle after) : Grown before after :=
  fun priority => (first priority).trans (second priority)

theorem grown_set_trySend (outputs : PriorityTable OutputQueue) (priority : Priority)
    (room : Nat → Bool) (packet : Packet) :
    Grown outputs (outputs.set priority ((outputs priority).trySend room packet)) := by
  intro other
  by_cases same : other = priority
  · subst same
    rw [PriorityTable.set_self]
    exact OutputQueue.grown_trySend _ room packet
  · rw [PriorityTable.set_other same]

theorem since_set_trySend (outputs : PriorityTable OutputQueue) (priority : Priority)
    (room : Nat → Bool) (packet : Packet) (other : Priority) :
    ((outputs.set priority ((outputs priority).trySend room packet) other).since
      (outputs other)).Sublist [packet] := by
  by_cases same : other = priority
  · subst same
    rw [PriorityTable.set_self, OutputQueue.since, OutputQueue.trySend]
    split
    · simp
    · simp
  · rw [PriorityTable.set_other same, OutputQueue.since_self]
    exact List.nil_sublist _

/-- A packet with its class. -/
def Packet.classed (packet : Packet) : Priority × Packet := (packet.priority, packet)

theorem classed_sublist (read : Option Packet) (priority : Priority) :
    ((read.map Packet.classed).bind (ofClass priority)).toList.Sublist read.toList := by
  cases read with
  | none => exact .refl _
  | some packet =>
      simp only [Option.map_some, Option.bind_some, ofClass]
      split
      · exact .refl _
      · exact List.nil_sublist _

/-- What the next stage receives of a step, each packet on the channel of its queue. -/
def accepted (before after : PriorityTable OutputQueue) : List (Priority × Packet) :=
  Priority.all.flatMap fun priority => ((after priority).since (before priority)).map (Prod.mk priority)

theorem accepted_self (outputs : PriorityTable OutputQueue) : accepted outputs outputs = [] := by
  simp [accepted]

theorem filterMap_ofClass_map (priority other : Priority) (packets : List Packet) :
    (packets.map (Prod.mk other)).filterMap (ofClass priority) =
      if other = priority then packets else [] := by
  split
  · rename_i same
    subst same
    simp [List.filterMap_map, Function.comp_def, ofClass]
  · rename_i different
    simp [List.filterMap_map, Function.comp_def, ofClass, different]

theorem accepted_ofClass (before after : PriorityTable OutputQueue) (priority : Priority) :
    (accepted before after).filterMap (ofClass priority) = (after priority).since (before priority) := by
  simp only [accepted, Priority.all, List.flatMap_cons, List.flatMap_nil, List.filterMap_append,
    filterMap_ofClass_map, List.append_nil]
  cases priority <;> simp

theorem sent_accepted {before after : PriorityTable OutputQueue} (grown : Grown before after)
    (priority : Priority) :
    (after priority).sent =
      (before priority).sent ++ (accepted before after).filterMap (ofClass priority) := by
  rw [accepted_ofClass]
  exact OutputQueue.sent_since (grown priority)

/-! ## What waits on the input channels -/

def queuedAll (inputs : PriorityTable (Channel Packet)) : Multiset Packet :=
  ∑ priority, ↑(inputs priority).queue

theorem queuedAll_empty {inputs : PriorityTable (Channel Packet)}
    (empty : ∀ priority, (inputs priority).queue = []) : queuedAll inputs = 0 := by
  simp [queuedAll, empty]

theorem queuedAll_send (inputs : PriorityTable (Channel Packet)) (priority : Priority)
    (packet : Packet) :
    queuedAll (inputs.set priority ((inputs priority).send packet)) = {packet} + queuedAll inputs := by
  let holds (input : Channel Packet) : Multiset Packet := ↑input.queue
  have grown : holds ((inputs priority).send packet) = {packet} + holds (inputs priority) := by
    simp only [holds, Channel.send, ← Multiset.coe_add, Multiset.coe_singleton]
    exact add_comm _ _
  exact sum_update_add grown

theorem queuedAll_receive {inputs : PriorityTable (Channel Packet)} {priority : Priority}
    {packet : Packet} {remaining : Channel Packet}
    (taken : (inputs priority).tryRecv = .ok (packet, remaining)) :
    queuedAll inputs = {packet} + queuedAll (inputs.set priority remaining) := by
  let holds (input : Channel Packet) : Multiset Packet := ↑input.queue
  have released : holds (inputs priority) = {packet} + holds remaining := by
    simp only [holds, (Channel.tryRecv_ok taken).1, Multiset.singleton_add, Multiset.cons_coe]
  exact sum_update_release released

def Connected (inputs : PriorityTable (Channel Packet)) : Prop :=
  ∀ priority, (inputs priority).disconnected = false

/-- A step takes the front of one input channel, or nothing. -/
inductive Takes (inputs : PriorityTable (Channel Packet)) :
    Option Packet → PriorityTable (Channel Packet) → Prop where
  | nothing : Takes inputs none inputs
  | front {priority : Priority} {packet : Packet} {remaining : Channel Packet}
      (taken : (inputs priority).tryRecv = .ok (packet, remaining)) :
      Takes inputs (some packet) (inputs.set priority remaining)

theorem Takes.queued {inputs inputs' : PriorityTable (Channel Packet)} {taken : Option Packet}
    (takes : Takes inputs taken inputs') :
    queuedAll inputs = taken.elim 0 singleton + queuedAll inputs' := by
  cases takes with
  | nothing => exact (zero_add _).symm
  | front taken => exact queuedAll_receive taken

theorem Takes.connected {inputs inputs' : PriorityTable (Channel Packet)} {taken : Option Packet}
    (takes : Takes inputs taken inputs') (connected : Connected inputs) : Connected inputs' := by
  cases takes with
  | nothing => exact connected
  | front taken =>
      refine PriorityTable.forall_set (fun _ (input : Channel Packet) => input.disconnected = false)
        connected ?_
      exact (Channel.tryRecv_ok taken).2.trans (connected _)

theorem Takes.offered {inputs inputs' : PriorityTable (Channel Packet)} {taken : Option Packet}
    (takes : Takes inputs taken inputs') (offered : Offered inputs) : Offered inputs' := by
  cases takes with
  | nothing => exact offered
  | front taken => exact Offered.receive offered taken

/-- An item at the end of the list of its class is one more packet in all. -/
theorem sum_append_ofClass (lists : PriorityTable (List Packet)) (item : Option (Priority × Packet)) :
    ∑ priority, (↑(lists priority ++ (item.bind (ofClass priority)).toList) : Multiset Packet) =
      (item.map Prod.snd).elim 0 singleton + ∑ priority, ↑(lists priority) := by
  simp only [← Multiset.coe_add, Finset.sum_add_distrib]
  rw [add_comm]
  congr 1
  cases item with
  | none => simp
  | some entry =>
      obtain ⟨priority, packet⟩ := entry
      have only (other : Priority) : (↑(ofClass other (priority, packet)).toList : Multiset Packet) =
          if priority = other then {packet} else 0 := by
        by_cases same : priority = other
        · simp [ofClass, same]
        · simp [ofClass, same]
      simp [only]

/-! ## The ends of a scheduler -/

structure Ends where
  clock : Instant
  inputs : PriorityTable (Channel Packet)
  outputs : PriorityTable OutputQueue

/-- A step of the scheduler itself takes at most one packet from its channels and
takes nothing back. -/
structure Ends.Inward (before : Ends) (taken : Option Packet) (after : Ends) : Prop where
  clock : after.clock = before.clock
  inputs : Takes before.inputs taken after.inputs
  grown : Grown before.outputs after.outputs

theorem Ends.Inward.refl (ends : Ends) : ends.Inward none ends := ⟨rfl, .nothing, .refl _⟩

/-! ## Stages -/

/-- What reaches a stage from outside: a packet on the input channel of a class, time,
and the end of `running`. -/
inductive Signal where
  | arrive (priority : Priority) (packet : Packet)
  | tick (elapsed : Duration)
  | stop

/-- A packet arrives on the channel of its class. -/
def Signal.Proper : Signal → Prop
  | .arrive priority packet => packet.priority = priority
  | .tick _ | .stop => True

def Signal.arrival : Signal → Option (Priority × Packet)
  | .arrive priority packet => some (priority, packet)
  | .tick _ | .stop => none

def arrival {Action : Type} : Signal ⊕ Action → Option (Priority × Packet)
  | .inl signal => signal.arrival
  | .inr _ => none

/-- How the surroundings of a scheduler act on it, and which actions are its own. -/
structure Wiring (Action : Type) where
  arrive : Packet → Action
  tick : Duration → Action
  stop : Action
  own : Action → Bool

namespace Wiring

variable {State Action : Type} (wiring : Wiring Action) (step : State → Action → Option State)

def receive (state : State) : Signal → Option State
  | .arrive priority packet =>
      if packet.priority = priority then step state (wiring.arrive packet) else none
  | .tick elapsed => step state (wiring.tick elapsed)
  | .stop => step state wiring.stop

def work (state : State) (action : Action) : Option State :=
  if wiring.own action then step state action else none

variable {wiring step}

theorem receive_step {state next : State} {signal : Signal}
    (received : wiring.receive step state signal = some next) :
    ∃ action, step state action = some next ∧
      match signal with
      | .arrive priority packet => packet.priority = priority ∧ action = wiring.arrive packet
      | .tick elapsed => action = wiring.tick elapsed
      | .stop => action = wiring.stop := by
  cases signal with
  | arrive priority packet =>
      simp only [receive] at received
      split at received
      · rename_i own
        exact ⟨_, received, own, rfl⟩
      · cases received
  | tick elapsed => exact ⟨_, received, rfl⟩
  | stop => exact ⟨_, received, rfl⟩

theorem work_step {state next : State} {action : Action}
    (worked : wiring.work step state action = some next) :
    wiring.own action = true ∧ step state action = some next := by
  simp only [work] at worked
  split at worked
  · rename_i own
    exact ⟨own, worked⟩
  · cases worked

def moves (wiring : Wiring Action) (step : State → Action → Option State) (state : State) :
    Signal ⊕ Action → Option State
  | .inl signal => wiring.receive step state signal
  | .inr action => wiring.work step state action

/-- Whether told or by itself, the scheduler takes one of its steps. -/
theorem moves_step {state next : State} {action : Signal ⊕ Action}
    (moved : wiring.moves step state action = some next) : ∃ action, step state action = some next := by
  cases action with
  | inl signal =>
      obtain ⟨action, stepped, _⟩ := receive_step moved
      exact ⟨action, stepped⟩
  | inr action => exact ⟨action, (work_step moved).2⟩

end Wiring

/-- Threads that read `running` between two iterations of their loops only. -/
structure Loop (State : Type) where
  scheduler : State
  running : Bool

/-- How the surroundings act on the scheduler of such threads. `begins` are the steps
that begin an iteration. -/
structure LoopWiring (State Action : Type) where
  arrive : Priority → Packet → Option Action
  tick : Duration → Action
  own : Action → Bool
  begins : State → Action → Bool

namespace LoopWiring

variable {State Action : Type} (wiring : LoopWiring State Action)
  (step : State → Action → Option State)

/-- The step of the scheduler that is taken, if `running` allows it. -/
def behind (loop : Loop State) : Signal ⊕ Action → Option Action
  | .inl (.arrive priority packet) => wiring.arrive priority packet
  | .inl (.tick elapsed) => some (wiring.tick elapsed)
  | .inl .stop => none
  | .inr action =>
      if wiring.own action ∧ (wiring.begins loop.scheduler action → loop.running) then some action
      else none

def moves (loop : Loop State) (action : Signal ⊕ Action) : Option (Loop State) :=
  match action with
  | .inl .stop => some { loop with running := false }
  | _ =>
      (wiring.behind loop action).bind fun own =>
        (step loop.scheduler own).map fun scheduler => { loop with scheduler }

variable {wiring step}

theorem moves_behind {loop next : Loop State} {action : Signal ⊕ Action}
    (moved : wiring.moves step loop action = some next) :
    (∃ own, wiring.behind loop action = some own ∧
        step loop.scheduler own = some next.scheduler ∧ next.running = loop.running) ∨
      action = .inl .stop ∧ next = { loop with running := false } := by
  unfold moves at moved
  split at moved
  · cases moved
    exact .inr ⟨rfl, rfl⟩
  · obtain ⟨own, found, mapped⟩ := Option.bind_eq_some_iff.mp moved
    obtain ⟨scheduler, stepped, rfl⟩ := Option.map_eq_some_iff.mp mapped
    exact .inl ⟨own, found, stepped, rfl⟩

theorem kept {invariant : State → Prop}
    (preserved : ∀ {state action next}, invariant state → step state action = some next →
      invariant next)
    {loop next : Loop State} {action : Signal ⊕ Action} (holds : invariant loop.scheduler)
    (moved : wiring.moves step loop action = some next) : invariant next.scheduler := by
  rcases moves_behind moved with ⟨own, _, stepped, _⟩ | ⟨_, rfl⟩
  · exact preserved holds stepped
  · exact holds

end LoopWiring

/-- The packet was made of this datagram. -/
structure Packet.Holds (packet : Packet) (datagram : List UInt8) : Prop where
  buffer : packet.buffer = datagram
  len : packet.len = min datagram.length maxPacketSize

/-- What is sent of a datagram. -/
theorem Packet.Holds.payload {packet : Packet} {datagram : List UInt8} (holds : packet.Holds datagram) :
    packet.payload = datagram.take maxPacketSize := by
  rw [Packet.payload, holds.buffer, holds.len, Nat.min_right_comm, Nat.min_self, Nat.min_comm]
  exact List.take_eq_take_min.symm

/-- A stage is told by signals and takes steps by itself. `reads` is the packet such a
step makes of a `datagram`, where the stage reads the sockets itself, and
`packetCount` the number of packets made so. `running` is the flag its threads read.
`inside` is what was taken in and not handed over, and `gone` are the places that no
longer exist: the packets last seen there are lost. -/
structure Interface where
  State : Type
  Action : Type
  Place : Type
  initial : State
  moves : State → Signal ⊕ Action → Option State
  readsSockets : Bool
  datagram : Action → Option (List UInt8)
  reads : State → Action → Option Packet
  packetCount : State → Nat
  running : State → Bool
  ends : State → Ends
  inside : State → Multiset (Place × Packet)
  gone : State → Place → Bool

namespace Interface

variable (interface : Interface)

abbrev inputs (state : interface.State) : PriorityTable (Channel Packet) := (interface.ends state).inputs

abbrev outputs (state : interface.State) : PriorityTable OutputQueue := (interface.ends state).outputs

/-- The packet that is in the stage from this step on. -/
def enters (state : interface.State) : Signal ⊕ interface.Action → Option Packet
  | .inl (.arrive _ packet) => some packet
  | .inl (.tick _) | .inl .stop => none
  | .inr action => interface.reads state action

/-- The same with its class: that of the channel it arrives on, or its own. -/
def entered (state : interface.State) : Signal ⊕ interface.Action → Option (Priority × Packet)
  | .inl signal => signal.arrival
  | .inr action => (interface.reads state action).map Packet.classed

theorem entered_snd (state : interface.State) (action : Signal ⊕ interface.Action) :
    (interface.entered state action).map Prod.snd = interface.enters state action := by
  cases action with
  | inl signal => cases signal <;> rfl
  | inr action => exact (Option.map_map ..).trans Option.map_id_apply

/-- What the scheduler still has. -/
def held (state : interface.State) : Multiset (interface.Place × Packet) :=
  (interface.inside state).filter fun entry => ¬ interface.gone state entry.1

/-- What it dropped without a count. -/
def lost (state : interface.State) : Multiset Packet :=
  ((interface.inside state).filter fun entry => interface.gone state entry.1).map Prod.snd

theorem map_snd_inside (state : interface.State) :
    (interface.inside state).map Prod.snd =
      (interface.held state).map Prod.snd + interface.lost state := by
  rw [lost, held, ← Multiset.map_add, add_comm, Multiset.filter_add_not]

theorem lost_of_none_gone {state : interface.State} (none : ∀ place, interface.gone state place = false) :
    interface.lost state = 0 := by
  simp [lost, none]

def contents (state : interface.State) : Multiset Packet :=
  queuedAll (interface.inputs state) + (interface.inside state).map Prod.snd +
    handedAll (interface.outputs state)

end Interface

/-- The input channels after a signal. -/
def Signal.into (inputs : PriorityTable (Channel Packet)) : Signal → PriorityTable (Channel Packet)
  | .arrive priority packet => inputs.set priority ((inputs priority).send packet)
  | .tick _ | .stop => inputs

theorem Signal.queued_into (inputs : PriorityTable (Channel Packet)) (signal : Signal) :
    queuedAll (signal.into inputs) =
      (match signal with
        | .arrive _ packet => {packet}
        | .tick _ | .stop => 0) + queuedAll inputs := by
  cases signal with
  | arrive priority packet => exact queuedAll_send inputs priority packet
  | tick | stop => exact (zero_add _).symm

theorem Signal.connected_into {inputs : PriorityTable (Channel Packet)} (connected : Connected inputs)
    (signal : Signal) : Connected (signal.into inputs) := by
  cases signal with
  | arrive priority packet =>
      exact PriorityTable.forall_set
        (fun _ (input : Channel Packet) => input.disconnected = false) connected (connected priority)
  | tick | stop => exact connected

/-- How much a step lets the clock advance. -/
def Signal.elapsed : Signal → Duration
  | .tick elapsed => elapsed
  | .arrive _ _ | .stop => 0

def elapsed {Action : Type} : Signal ⊕ Action → Duration
  | .inl signal => signal.elapsed
  | .inr _ => 0

/-- A stage has every packet that entered it in its books once: queued, inside or handed
over. It takes nothing back it has handed over, counts what its queues refuse and
refuses no signal; one that reads the sockets itself has no arrivals. -/
structure Stage extends Interface where
  Kept : State → Prop
  initial_kept : Kept initial
  moves_kept : ∀ {state action next}, Kept state → moves state action = some next →
    Kept next
  initial_empty : toInterface.contents initial = 0
  conserves : ∀ {state action next}, Kept state → moves state action = some next →
    toInterface.contents next =
      (toInterface.enters state action).elim 0 singleton + toInterface.contents state
  grows : ∀ {state action next}, Kept state → moves state action = some next →
    Grown (toInterface.outputs state) (toInterface.outputs next)
  counted : ∀ {state}, Kept state → ∀ priority, (toInterface.outputs state priority).Counted
  accepts : ∀ {state signal}, Kept state → signal.Proper →
    (readsSockets = true → ∀ priority packet, signal ≠ .arrive priority packet) →
    ∃ next, moves state (.inl signal) = some next
  ticks : ∀ {state action next}, Kept state → moves state action = some next →
    (ends next).clock = (ends state).clock + elapsed action
  passive : readsSockets = false → ∀ state action, reads state action = none
  buffers : ∀ {state action packet}, reads state action = some packet →
    ∃ payload, datagram action = some payload ∧ packet.Holds payload
  initial_count : packetCount initial = 0
  numbers : ∀ {state action next}, moves state action = some next →
    packetCount next =
      packetCount state + (action.getRight?.bind (reads state)).toList.length ∧
        ∀ packet ∈ action.getRight?.bind (reads state), packet.id = packetCount state

/-- The budget of the packet is one that a socket of its class was registered with. -/
def BudgetFrom (registrations : List Registration) (packet : Packet) : Prop :=
  ∃ registration ∈ registrations, registration.priority = packet.priority ∧
    registration.latencyBudget = packet.latencyBudget

/-- Every queue of a stage is handed the packets of its class only, and packets it makes
have the budgets of their sockets. -/
structure ClassStage (registrations : List Registration) extends Stage where
  budget : ∀ {state action packet}, Kept state → reads state action = some packet →
    BudgetFrom registrations packet
  own : ∀ {state}, Kept state → ∀ priority, ∀ packet ∈ (toInterface.outputs state priority).handed,
    packet.priority = priority

/-- A stage that hands over the packets of a class in the order they entered it. -/
structure LineStage extends Stage where
  line : State → PriorityTable (List Packet)
  initial_line : ∀ priority, line initial priority = []
  extends_line : ∀ {state action next}, Kept state → moves state action = some next → ∀ priority,
    line next priority =
      line state priority ++ ((toInterface.entered state action).bind (ofClass priority)).toList
  handed_line : ∀ {state}, Kept state → ∀ priority,
    (toInterface.outputs state priority).handed <+: line state priority

/-! ## Stages fed by their channels -/

namespace Interface

variable {interface : Interface}

/-- A signal changes the channels and the clock only. -/
structure Signalled (state : interface.State) (signal : Signal) (next : interface.State) : Prop where
  clock : (interface.ends next).clock = (interface.ends state).clock + signal.elapsed
  inputs : interface.inputs next = signal.into (interface.inputs state)
  outputs : interface.outputs next = interface.outputs state
  inside : interface.inside next = interface.inside state

/-- A step of its own takes in what it takes from the channels. -/
structure Worked (state next : interface.State) (taken : Option Packet) : Prop where
  inward : (interface.ends state).Inward taken (interface.ends next)
  conserved : (interface.inside next).map Prod.snd + handedAll (interface.outputs next) =
    taken.elim 0 singleton +
      ((interface.inside state).map Prod.snd + handedAll (interface.outputs state))

end Interface

/-- A scheduler that takes all its packets from its input channels. -/
structure Fed extends Interface where
  Invariant : State → Prop
  initial_invariant : Invariant initial
  preserved : ∀ {state action next}, Invariant state → moves state action = some next →
    Invariant next
  signals : ∀ {state signal next}, moves state (.inl signal) = some next →
    toInterface.Signalled state signal next
  works : ∀ {state action next}, Invariant state → moves state (.inr action) = some next →
    ∃ taken, toInterface.Worked state next taken
  enabled : ∀ {state signal}, Connected (toInterface.inputs state) → signal.Proper →
    ∃ next, moves state (.inl signal) = some next
  initial_connected : Connected (toInterface.inputs initial)
  initial_nothing : toInterface.contents initial = 0
  drops : ∀ {state}, Invariant state → ∀ priority, (toInterface.outputs state priority).Counted
  silent : ∀ state action, reads state action = none
  uncounted : ∀ state, packetCount state = 0

namespace Fed

variable (fed : Fed)

theorem contents_signal {state next : fed.State} {signal : Signal}
    (signalled : fed.toInterface.Signalled state signal next) :
    fed.contents next =
      (fed.enters state (.inl signal)).elim 0 singleton + fed.contents state := by
  rw [Interface.contents, signalled.inputs, signalled.outputs, signalled.inside, Signal.queued_into,
    Interface.contents, add_assoc, add_assoc, add_assoc]
  cases signal <;> rfl

theorem contents_work {state next : fed.State} {taken : Option Packet}
    (worked : fed.toInterface.Worked state next taken) : fed.contents next = fed.contents state := by
  rw [Interface.contents, Interface.contents, add_assoc, add_assoc, worked.conserved,
    worked.inward.inputs.queued, ← add_assoc, add_comm (queuedAll _)]

def toStage : Stage where
  toInterface := fed.toInterface
  Kept state := fed.Invariant state ∧ Connected (fed.inputs state)
  initial_kept := ⟨fed.initial_invariant, fed.initial_connected⟩
  moves_kept := by
    intro state action next kept moved
    refine ⟨fed.preserved kept.1 moved, ?_⟩
    cases action with
    | inl signal => exact (fed.signals moved).inputs ▸ signal.connected_into kept.2
    | inr action =>
        obtain ⟨taken, worked⟩ := fed.works kept.1 moved
        exact worked.inward.inputs.connected kept.2
  initial_empty := fed.initial_nothing
  conserves := by
    intro state action next kept moved
    cases action with
    | inl signal => exact fed.contents_signal (fed.signals moved)
    | inr action =>
        obtain ⟨taken, worked⟩ := fed.works kept.1 moved
        rw [fed.contents_work worked, Interface.enters, fed.silent, Option.elim_none, zero_add]
  grows := by
    intro state action next kept moved
    cases action with
    | inl signal => exact (fed.signals moved).outputs ▸ .refl _
    | inr action =>
        obtain ⟨taken, worked⟩ := fed.works kept.1 moved
        exact worked.inward.grown
  counted kept := fed.drops kept.1
  accepts kept proper _ := fed.enabled kept.2 proper
  ticks := by
    intro state action next kept moved
    cases action with
    | inl signal => exact (fed.signals moved).clock
    | inr action =>
        obtain ⟨taken, worked⟩ := fed.works kept.1 moved
        exact worked.inward.clock
  passive _ := fed.silent
  buffers {state action packet} made := by cases (fed.silent state action).symm.trans made
  initial_count := fed.uncounted _
  numbers := by
    intro state action next moved
    have nothing : action.getRight?.bind (fed.reads state) = none := by
      cases action with
      | inl signal => rfl
      | inr action => exact fed.silent state action
    simp [nothing, fed.uncounted]

/-- Where the queues get the packets of their class. -/
def toClassStage (registrations : List Registration)
    (own : ∀ {state}, fed.Invariant state → ∀ priority, ∀ packet ∈ (fed.outputs state priority).handed,
      packet.priority = priority) : ClassStage registrations where
  toStage := fed.toStage
  budget {state action packet} _ made := by cases (fed.silent state action).symm.trans made
  own kept := own kept.1

end Fed

end EdfPipeline
