import EdfPipeline.Edf.Scheduler
import EdfPipeline.Library.Ledger
import Mathlib.Tactic.Abel

/-!
# The single EDF scheduler end to end

Read from its oldest end, the stream of packets enqueued for a class is what was
handed out, then the packet being processed, the slot and the channel. Order and
conservation are both read off this line.
-/

set_option autoImplicit false

namespace EdfPipeline.Edf

open EarliestFirst

/-- `packet` is served before `other` of class `priority`: an earlier deadline, or
the same deadline and a class at least as high. -/
def Precedes (packet : Packet) (priority : Priority) (other : Packet) : Prop :=
  packet.deadline < other.deadline ∨
    packet.deadline = other.deadline ∧ (priority = packet.priority ∨ packet.priority.Above priority)

theorem keepEarliest_eq_keepLeast (pending : PriorityTable (Option EDFTask)) :
    keepEarliest pending = keepLeast fun priority => (pending priority).map EDFTask.deadline := by
  funext best priority
  cases found : pending priority with
  | none => simp only [keepEarliest, keepLeast, found, Option.map_none]
  | some task => cases best <;> simp only [keepEarliest, keepLeast, found, Option.map_some]

/-- The scan finds a slot with the earliest deadline, the highest class first. -/
theorem earliest_spec {pending : PriorityTable (Option EDFTask)} {priority : Priority}
    {deadline : Instant} (found : earliest pending = some (priority, deadline)) :
    ∃ task, pending priority = some task ∧ ∀ other ∈ Priority.all, ∀ task',
      pending other = some task' → task.deadline < task'.deadline ∨
        task.deadline = task'.deadline ∧ (other = priority ∨ priority.Above other) := by
  have first := foldl_keepLeast (fun priority => (pending priority).map EDFTask.deadline)
    Priority.all_pairwise
  rw [← keepEarliest_eq_keepLeast] at first
  change FirstLeast _ _ _ (earliest pending) at first
  rw [found] at first
  obtain ⟨_, held, least⟩ := first
  obtain ⟨task, here, same⟩ := Option.map_eq_some_iff.mp held
  refine ⟨task, here, ?_⟩
  intro other member task' there
  rw [same]
  exact least other member _ (Option.map_eq_some_iff.mpr ⟨task', there, rfl⟩)

/-- What the running call knows about the heads of the lines it looked at. -/
def Call.Looked (call : Call) (pending : PriorityTable (Option EDFTask))
    (examined : PriorityTable (List Packet)) : Prop :=
  match call with
  | .idle => True
  | .fill rest => ∀ priority, priority ∉ rest →
      (examined priority).head? = (pending priority).map EDFTask.packet
  | .busy packet _ | .send packet => ∀ priority, ∀ head ∈ (examined priority).head?,
      Precedes packet priority head

def Call.handOf (call : Call) (priority : Priority) : List Packet :=
  call.hand.filter fun packet => packet.priority = priority

namespace State

structure Kept (state : State) : Prop where
  line : ∀ priority, state.enqueued priority =
    (state.outputQueues priority).handed ++ (state.call.handOf priority ++
      (slot (state.pending priority) ++ (state.inputQueues priority).queue))
  classes : ∀ priority, ∀ packet ∈ state.enqueued priority, packet.priority = priority
  counted : ∀ priority, (state.outputQueues priority).Counted
  seen : ∀ priority, state.examined priority <:+: state.enqueued priority
  looked : state.call.Looked state.pending state.examined

theorem initial_kept : State.initial.Kept where
  line := fun _ => rfl
  classes := by simp [State.initial]
  counted := fun _ => OutputQueue.counted_initial
  seen := fun _ => List.infix_refl _
  looked := trivial

theorem Kept.slot_class {state : State} (kept : state.Kept) {priority : Priority} {task : EDFTask}
    (held : state.pending priority = some task) : task.packet.priority = priority := by
  refine kept.classes priority task.packet ?_
  rw [kept.line priority, held]
  simp [slot]

theorem enqueue_kept {state : State} (kept : state.Kept) {packet : Packet} :
    ({ state with
      inputQueues := state.inputQueues.set packet.priority
        ((state.inputQueues packet.priority).send packet)
      enqueued := state.enqueued.set packet.priority
        (state.enqueued packet.priority ++ [packet]) } : State).Kept where
  line := by
    intro other
    have before := kept.line other
    by_cases same : other = packet.priority
    · subst same
      simp only [PriorityTable.set_self, Channel.send, before, List.append_assoc]
    · simpa [PriorityTable.set_other same] using before
  classes := by
    intro other entry member
    by_cases same : other = packet.priority
    · subst same
      simp only [PriorityTable.set_self, List.mem_append, List.mem_singleton] at member
      rcases member with old | rfl
      · exact kept.classes _ entry old
      · rfl
    · simp only [PriorityTable.set_other same] at member
      exact kept.classes other entry member
  counted := kept.counted
  seen := by
    intro other
    by_cases same : other = packet.priority
    · subst same
      simp only [PriorityTable.set_self]
      exact (kept.seen _).trans (List.prefix_append _ _).isInfix
    · simpa [PriorityTable.set_other same] using kept.seen other
  looked := kept.looked

/-- STEP 1 for one class moves at most the head of its channel into its slot. -/
structure Fills (state next : State) (priority : Priority) (rest : List Priority) : Prop where
  enqueued : next.enqueued = state.enqueued
  outputs : next.outputQueues = state.outputQueues
  call : next.call = .fill rest
  examined : next.examined = state.examined.set priority
    (slot (state.pending priority) ++ (state.inputQueues priority).queue)
  others : ∀ other, other ≠ priority → next.pending other = state.pending other
  lines : ∀ other, slot (next.pending other) ++ (next.inputQueues other).queue =
    slot (state.pending other) ++ (state.inputQueues other).queue
  head : (slot (state.pending priority) ++ (state.inputQueues priority).queue).head? =
    (next.pending priority).map EDFTask.packet

theorem fill_fills (state : State) (priority : Priority) (rest : List Priority) :
    state.Fills (state.fill priority rest) priority rest := by
  cases held : state.pending priority with
  | some task =>
      simp only [fill, held]
      exact ⟨rfl, rfl, rfl, by rw [held], fun _ _ => rfl, fun _ => rfl, by simp [held, slot]⟩
  | none =>
      cases received : (state.inputQueues priority).tryRecv with
      | ok message =>
          obtain ⟨packet, remaining⟩ := message
          obtain ⟨queue, _⟩ := Channel.tryRecv_ok received
          simp only [fill, held, received]
          refine ⟨rfl, rfl, rfl, by rw [held], ?_, ?_, ?_⟩
          · intro other different
            exact PriorityTable.set_other different
          · intro other
            by_cases same : other = priority
            · subst same
              simp [PriorityTable.set_self, held, queue, slot, EDFTask.of]
            · simp [PriorityTable.set_other same]
          · simp [held, queue, slot, EDFTask.of]
      | error problem =>
          have queue := Channel.tryRecv_error received
          simp only [fill, held, received]
          exact ⟨rfl, rfl, rfl, by rw [held], fun _ _ => rfl, fun _ => rfl,
            by simp [held, queue, slot]⟩

theorem fill_kept {state next : State} (kept : state.Kept) {priority : Priority}
    {rest : List Priority} (place : state.call = .fill (priority :: rest))
    (fills : state.Fills next priority rest) : next.Kept where
  line := by
    intro other
    have before := kept.line other
    simp only [Call.handOf, place, Call.hand] at before
    simp only [Call.handOf, fills.call, fills.enqueued, fills.outputs, fills.lines, Call.hand, before]
  classes := by
    rw [fills.enqueued]
    exact kept.classes
  counted := by
    rw [fills.outputs]
    exact kept.counted
  seen := by
    intro other
    rw [fills.enqueued, fills.examined, PriorityTable.set_apply]
    split
    · rename_i same
      rw [same, kept.line priority, ← List.append_assoc]
      exact (List.suffix_append _ _).isInfix
    · exact kept.seen other
  looked := by
    have looked := kept.looked
    rw [place] at looked
    rw [fills.call, fills.examined]
    intro other done
    by_cases same : other = priority
    · rw [same, PriorityTable.set_self]
      exact fills.head
    · rw [PriorityTable.set_other same, fills.others other same]
      exact looked other (List.not_mem_cons_of_ne_of_not_mem same done)

theorem select_kept {state : State} (kept : state.Kept) (place : state.call = .fill []) :
    state.select.Kept := by
  have looked := kept.looked
  rw [place] at looked
  have line := kept.line
  simp only [Call.handOf, place, Call.hand, List.filter_nil, List.nil_append] at line
  cases found : earliest state.pending with
  | none =>
      simp only [select, found]
      exact ⟨line, kept.classes, kept.counted, kept.seen, trivial⟩
  | some best =>
      obtain ⟨priority, deadline⟩ := best
      obtain ⟨task, held, least⟩ := earliest_spec found
      have here := kept.slot_class held
      simp only [select, found, held]
      refine ⟨?_, kept.classes, kept.counted, kept.seen, ?_⟩
      · intro other
        rw [line other]
        by_cases same : other = priority
        · subst same
          simp [Call.handOf, Call.hand, held, here, slot]
        · have elsewhere : task.packet.priority ≠ other := fun back => same (back ▸ here)
          simp [Call.handOf, Call.hand, elsewhere, PriorityTable.set_other same]
      · intro other head first
        rw [looked other (by simp)] at first
        obtain ⟨task', there, rfl⟩ := Option.map_eq_some_iff.mp first
        have before := least other (Priority.mem_all other) task' there
        rw [task.due, task'.due, ← here] at before
        exact before

theorem forward_kept {state : State} (kept : state.Kept) {packet : Packet}
    (place : state.call = .send packet) (room : Bool) : (state.forward packet room).Kept where
  line := by
    intro other
    have before := kept.line other
    simp only [Call.handOf, place, Call.hand] at before
    by_cases same : other = packet.priority
    · subst same
      simp [forward, Call.handOf, Call.hand, before]
    · have elsewhere : packet.priority ≠ other := fun back => same back.symm
      simpa [forward, Call.handOf, Call.hand, PriorityTable.set_other same, elsewhere] using before
  classes := kept.classes
  counted := by
    intro other
    simp only [forward, PriorityTable.set_apply]
    split
    · exact (kept.counted _).trySend _ packet
    · exact kept.counted other
  seen := kept.seen
  looked := trivial

theorem step_kept {state next : State} {action : Action} (kept : state.Kept)
    (stepped : state.step action = some next) : next.Kept := by
  cases action with
  | enqueue priority packet =>
      simp only [step] at stepped
      split at stepped
      · rename_i same
        subst same
        cases stepped
        exact enqueue_kept kept
      · cases stepped
  | tick elapsed =>
      cases stepped
      exact ⟨kept.line, kept.classes, kept.counted, kept.seen, kept.looked⟩
  | processNext =>
      cases place : state.call with
      | idle =>
          simp only [step, place, Option.some.injEq] at stepped
          subst stepped
          have line := kept.line
          simp only [place] at line
          refine ⟨line, kept.classes, kept.counted, kept.seen, ?_⟩
          intro priority unseen
          exact absurd (Priority.mem_all priority) unseen
      | _ => simp [step, place] at stepped
  | run =>
      cases place : state.call with
      | fill rest =>
          cases rest with
          | nil =>
              simp only [step, place, Option.some.injEq] at stepped
              subst stepped
              exact select_kept kept place
          | cons priority rest =>
              simp only [step, place, Option.some.injEq] at stepped
              subst stepped
              exact fill_kept kept place (fill_fills state priority rest)
      | busy packet start =>
          simp only [step, place] at stepped
          split at stepped
          · cases stepped
            exact kept
          · cases stepped
            have line := kept.line
            have looked := kept.looked
            simp only [place] at line
            rw [place] at looked
            exact ⟨line, kept.classes, kept.counted, kept.seen, looked⟩
      | _ => simp [step, place] at stepped
  | send room =>
      cases place : state.call with
      | send packet =>
          simp only [step, place, Option.some.injEq] at stepped
          subst stepped
          exact forward_kept kept place room
      | _ => simp [step, place] at stepped

end State

inductive Place where
  | queue
  | slot
  | hand
  | sent
  | dropped
  deriving DecidableEq

def Place.all : List Place := [.queue, .slot, .hand, .sent, .dropped]

instance : Fintype Place where
  elems := ⟨Place.all, by decide⟩
  complete place := by
    change place ∈ Place.all
    cases place <;> simp [Place.all]

namespace State

def packetsAt (state : State) (priority : Priority) : Place → Multiset Packet
  | .queue => ↑(state.inputQueues priority).queue
  | .slot => ↑(Edf.slot (state.pending priority))
  | .hand => ↑(state.call.handOf priority)
  | .sent => ↑(state.outputQueues priority).sent
  | .dropped => ↑(state.outputQueues priority).dropped

/-- What holds in every state: conservation, order of each class and earliest
deadline first. -/
structure EndToEnd (state : State) : Prop where
  places : ∀ priority, (↑(state.enqueued priority) : Multiset Packet) =
    ∑ place, state.packetsAt priority place
  counted : ∀ priority, (state.outputQueues priority).Counted
  idle : state.call = .idle → ∀ priority, state.packetsAt priority .hand = 0
  inOrder : ∀ priority, (state.outputQueues priority).handed <+: state.enqueued priority
  increasing : ∀ priority, ((state.enqueued priority).map Packet.id).Pairwise (· < ·) →
    ((state.outputQueues priority).sent.map Packet.id).Pairwise (· < ·)
  /-- A selected packet precedes everything that was in a slot or a channel when
  the call looked there. -/
  earliest : (∀ priority, (state.enqueued priority).Pairwise fun first second =>
      first.deadline ≤ second.deadline) →
    ∀ packet ∈ state.call.hand, ∀ priority, ∀ other ∈ state.examined priority,
      Precedes packet priority other

theorem EndToEnd.existsUnique_place {state : State} (endToEnd : state.EndToEnd)
    {priority : Priority} (distinct : (state.enqueued priority).Nodup) {packet : Packet}
    (enqueued : packet ∈ state.enqueued priority) :
    ∃! place, packet ∈ state.packetsAt priority place :=
  Ledger.existsUnique_holder (endToEnd.places priority) distinct enqueued

theorem Kept.places {state : State} (kept : state.Kept) (priority : Priority) :
    (↑(state.enqueued priority) : Multiset Packet) = ∑ place, state.packetsAt priority place := by
  have handed : (↑(state.outputQueues priority).handed : Multiset Packet) =
      state.packetsAt priority .sent + state.packetsAt priority .dropped :=
    Multiset.coe_eq_coe.mpr (OutputQueue.handed_split _)
  have total : ∑ place, state.packetsAt priority place =
      state.packetsAt priority .queue + (state.packetsAt priority .slot +
        (state.packetsAt priority .hand + (state.packetsAt priority .sent +
          state.packetsAt priority .dropped))) := by
    change (Place.all.map (state.packetsAt priority)).sum = _
    simp only [Place.all, List.map_cons, List.map_nil, List.sum_cons, List.sum_nil, add_zero]
  rw [total, ← handed, kept.line priority, ← Multiset.coe_add, ← Multiset.coe_add,
    ← Multiset.coe_add]
  change _ + (state.packetsAt priority .hand + (state.packetsAt priority .slot +
    state.packetsAt priority .queue)) = _
  abel

/-- Behind a head that is served first, a line in deadline order is served later. -/
theorem precedes_of_head {packet head other : Packet} {priority : Priority}
    (first : Precedes packet priority head) (later : head.deadline ≤ other.deadline) :
    Precedes packet priority other := by
  rcases first with earlier | ⟨same, tie⟩
  · exact .inl (Nat.lt_of_lt_of_le earlier later)
  · rcases Nat.lt_or_eq_of_le later with earlier | same'
    · exact .inl (same ▸ earlier)
    · exact .inr ⟨same.trans same', tie⟩

theorem Kept.earliest {state : State} (kept : state.Kept)
    (sorted : ∀ priority, (state.enqueued priority).Pairwise fun first second =>
      first.deadline ≤ second.deadline) {packet : Packet} (selected : packet ∈ state.call.hand)
    {priority : Priority} {other : Packet} (present : other ∈ state.examined priority) :
    Precedes packet priority other := by
  have looked : ∀ head ∈ (state.examined priority).head?, Precedes packet priority head := by
    have here := kept.looked
    cases place : state.call with
    | idle =>
        rw [place] at selected
        cases selected
    | fill rest =>
        rw [place] at selected
        cases selected
    | busy running start =>
        rw [place] at selected here
        rw [List.mem_singleton.mp selected]
        exact here priority
    | send running =>
        rw [place] at selected here
        rw [List.mem_singleton.mp selected]
        exact here priority
  have line := (sorted priority).sublist (kept.seen priority).sublist
  cases examined : state.examined priority with
  | nil =>
      rw [examined] at present
      cases present
  | cons head rest =>
      rw [examined] at present line looked
      have first := looked head rfl
      rcases List.mem_cons.mp present with rfl | behind
      · exact first
      · exact precedes_of_head first (List.rel_of_pairwise_cons line behind)

theorem Kept.endToEnd {state : State} (kept : state.Kept) : state.EndToEnd where
  places := kept.places
  counted := kept.counted
  idle := by
    intro place priority
    simp [packetsAt, Call.handOf, place, Call.hand]
  inOrder := fun priority => kept.line priority ▸ List.prefix_append _ _
  increasing := by
    intro priority increasing
    have handed : (state.outputQueues priority).handed <+: state.enqueued priority :=
      kept.line priority ▸ List.prefix_append _ _
    refine increasing.sublist (List.Sublist.map _ ?_)
    exact (OutputQueue.sent_sublist_handed _).trans handed.sublist
  earliest := fun sorted _ selected _ _ present => kept.earliest sorted selected present

end State

/-- Conservation, class order and earliest deadline first hold all along every run. -/
theorem endToEnd_throughout (actions : List Action) :
    TransitionSystem.Throughout State.step State.EndToEnd State.initial actions :=
  TransitionSystem.throughout_invariant State.step_kept State.Kept.endToEnd State.initial_kept
    actions

end EdfPipeline.Edf
