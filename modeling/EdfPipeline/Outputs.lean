import EdfPipeline.Channel
import EdfPipeline.Library.Ledger

/-!
# The queues of all classes

What waits on the input channels, and what every scheduler hands over in the
end: the packets of all classes together, and the classes they are handed over
in.
-/

set_option autoImplicit false

namespace EdfPipeline

open Ledger TransitionSystem

/-- Every packet waits on the channel of its class. -/
abbrev Offered (inputs : PriorityTable (Channel Packet)) : Prop :=
  ∀ priority, ∀ packet ∈ (inputs priority).queue, packet.priority = priority

theorem Offered.send {inputs : PriorityTable (Channel Packet)} (offered : Offered inputs)
    (packet : Packet) :
    Offered (inputs.set packet.priority ((inputs packet.priority).send packet)) := by
  refine PriorityTable.forall_set
    (fun priority (input : Channel Packet) => ∀ packet ∈ input.queue, packet.priority = priority)
    offered fun other member => ?_
  rcases List.mem_append.mp member with earlier | new
  · exact offered packet.priority other earlier
  · rw [List.mem_singleton.mp new]

theorem Offered.receive {inputs : PriorityTable (Channel Packet)} (offered : Offered inputs)
    {priority : Priority} {packet : Packet} {remaining : Channel Packet}
    (taken : (inputs priority).tryRecv = .ok (packet, remaining)) :
    Offered (inputs.set priority remaining) := by
  refine PriorityTable.forall_set
    (fun priority (input : Channel Packet) => ∀ packet ∈ input.queue, packet.priority = priority)
    offered fun other member => offered priority other ?_
  rw [(Channel.tryRecv_ok taken).1]
  exact List.mem_cons_of_mem _ member

theorem Offered.own {inputs : PriorityTable (Channel Packet)} (offered : Offered inputs)
    {priority : Priority} {packet : Packet} {remaining : Channel Packet}
    (taken : (inputs priority).tryRecv = .ok (packet, remaining)) : packet.priority = priority :=
  offered priority packet ((Channel.tryRecv_ok taken).1 ▸ List.mem_cons_self)

/-- Everything sent or dropped on the output queues. -/
def handedAll (outputs : PriorityTable OutputQueue) : Multiset Packet :=
  ∑ priority, ↑(outputs priority).handed

theorem handedAll_initial : handedAll (fun _ => .initial) = 0 := by
  simp [handedAll]

theorem handedAll_trySend (outputs : PriorityTable OutputQueue) (priority : Priority)
    (room : Nat → Bool) (packet : Packet) :
    handedAll (outputs.set priority ((outputs priority).trySend room packet)) =
      {packet} + handedAll outputs := by
  let holds (output : OutputQueue) : Multiset Packet := ↑output.handed
  have grown : holds ((outputs priority).trySend room packet) = {packet} + holds (outputs priority) := by
    simp only [holds, OutputQueue.handed_trySend, ← Multiset.coe_add, Multiset.coe_singleton]
    exact add_comm _ _
  exact sum_update_add grown

/-- Everything handed over, each packet with the class of the queue it went to. -/
def handedItems (outputs : PriorityTable OutputQueue) : Multiset (Priority × Packet) :=
  ∑ priority, entries priority ↑(outputs priority).handed

theorem handedItems_initial : handedItems (fun _ => .initial) = 0 := by
  simp [handedItems, entries]

theorem handedItems_trySend (outputs : PriorityTable OutputQueue) (priority : Priority)
    (room : Nat → Bool) (packet : Packet) :
    handedItems (outputs.set priority ((outputs priority).trySend room packet)) =
      {(priority, packet)} + handedItems outputs := by
  let holds (other : Priority) (output : OutputQueue) : Multiset (Priority × Packet) :=
    entries other ↑output.handed
  have grown : holds priority ((outputs priority).trySend room packet) =
      {(priority, packet)} + holds priority (outputs priority) := by
    simp only [holds, entries, OutputQueue.handed_trySend, ← Multiset.coe_add, Multiset.map_add]
    exact add_comm _ _
  have moved := fun other => Function.apply_update holds outputs priority
    ((outputs priority).trySend room packet) other
  have total := @sum_update_add _ _ _ _ _ _ id (fun other => holds other (outputs other)) priority _ _
    grown
  simp only [handedItems, PriorityTable.set]
  exact (Finset.sum_congr rfl fun other _ => moved other).trans total

theorem map_snd_handedItems (outputs : PriorityTable OutputQueue) :
    (handedItems outputs).map Prod.snd = handedAll outputs :=
  map_snd_sum_entries _ _

theorem mem_handedItems {outputs : PriorityTable OutputQueue} {priority : Priority} {packet : Packet}
    (handed : packet ∈ (outputs priority).handed) : (priority, packet) ∈ handedItems outputs :=
  Multiset.mem_sum.mpr ⟨priority, Finset.mem_univ priority, mem_entries.mpr ⟨rfl, handed⟩⟩

/-- What is sent and what is dropped on each queue, under the places given. -/
def outputEntries {π : Type} (sent dropped : Priority → π) (outputs : PriorityTable OutputQueue) :
    Multiset (π × Packet) :=
  ∑ priority, entries (sent priority) ↑(outputs priority).sent +
    ∑ priority, entries (dropped priority) ↑(outputs priority).dropped

@[simp] theorem map_snd_outputEntries {π : Type} (sent dropped : Priority → π)
    (outputs : PriorityTable OutputQueue) :
    (outputEntries sent dropped outputs).map Prod.snd = handedAll outputs := by
  rw [outputEntries, Multiset.map_add, map_snd_sum_entries, map_snd_sum_entries,
    ← Finset.sum_add_distrib]
  refine Finset.sum_congr rfl ?_
  intro priority _
  exact (Multiset.coe_eq_coe.mpr (OutputQueue.handed_split _)).symm

/-- Drops are counted, and every queue is handed the packets of its own class. -/
structure Routed (outputs : PriorityTable OutputQueue) : Prop where
  counted : ∀ priority, (outputs priority).Counted
  own : ∀ priority, ∀ packet ∈ (outputs priority).handed, packet.priority = priority

theorem initial_routed : Routed fun _ => .initial :=
  ⟨fun _ => OutputQueue.counted_initial, by simp⟩

theorem counted_trySend {outputs : PriorityTable OutputQueue}
    (counted : ∀ priority, (outputs priority).Counted) (priority : Priority) (room : Nat → Bool)
    (packet : Packet) (other : Priority) :
    (outputs.set priority ((outputs priority).trySend room packet) other).Counted :=
  PriorityTable.forall_set (fun _ (output : OutputQueue) => output.Counted) counted
    ((counted priority).trySend room packet) other

theorem Routed.trySend {outputs : PriorityTable OutputQueue} (routed : Routed outputs)
    {priority : Priority} {packet : Packet} (own : packet.priority = priority) (room : Nat → Bool) :
    Routed (outputs.set priority ((outputs priority).trySend room packet)) where
  counted := counted_trySend routed.counted priority room packet
  own := by
    refine PriorityTable.forall_set
      (fun priority (output : OutputQueue) => ∀ packet ∈ output.handed, packet.priority = priority)
      routed.own ?_
    intro other member
    rw [OutputQueue.handed_trySend] at member
    rcases List.mem_append.mp member with earlier | new
    · exact routed.own priority other earlier
    · exact List.mem_singleton.mp new ▸ own

/-! ## One class -/

/-- The packet of an item of this class. -/
def ofClass (priority : Priority) (item : Priority × Packet) : Option Packet :=
  if item.1 = priority then some item.2 else none

theorem mem_ofClass {priority : Priority} {item : Priority × Packet} {packet : Packet} :
    packet ∈ ofClass priority item ↔ item.1 = priority ∧ item.2 = packet := by
  rw [ofClass, Option.mem_def]
  split <;> simp_all

def classPackets (priority : Priority) (items : Multiset (Priority × Packet)) : Multiset Packet :=
  items.filterMap (ofClass priority)

@[simp] theorem classPackets_zero (priority : Priority) : classPackets priority 0 = 0 := rfl

theorem classPackets_add (priority : Priority) (item : Priority × Packet)
    (items : Multiset (Priority × Packet)) :
    classPackets priority ({item} + items) =
      (ofClass priority item).elim 0 singleton + classPackets priority items := by
  rw [classPackets, Multiset.singleton_add, Multiset.filterMap_cons]
  cases ofClass priority item <;> rfl

theorem handed_set_trySend (outputs : PriorityTable OutputQueue) (priority other : Priority)
    (room : Nat → Bool) (packet : Packet) :
    (outputs.set other ((outputs other).trySend room packet) priority).handed =
      (outputs priority).handed ++ (ofClass priority (other, packet)).toList := by
  by_cases same : other = priority
  · subst same
    simp [ofClass]
  · simp [ofClass, same, PriorityTable.set_other (Ne.symm same)]

/-- The packets of a class among the items seen so far. -/
def seenOf {State Action : Type} (observe : State → Action → Option (Priority × Packet))
    (priority : Priority) (past : Past State Action) : List Packet :=
  (observed observe past).filterMap (ofClass priority)

theorem seenOf_append {State Action : Type} (observe : State → Action → Option (Priority × Packet))
    (priority : Priority) (past : Past State Action) (state : State) (action : Action) :
    seenOf observe priority (past ++ [(state, action)]) =
      seenOf observe priority past ++ ((observe state action).bind (ofClass priority)).toList :=
  filterMap_observed_append observe (ofClass priority) past state action

end EdfPipeline
