import EdfPipeline.Pipeline.System
import Mathlib.Tactic.Abel

/-!
# Conservation across the pipeline

Every packet made of a datagram is at one place: counted as dropped by the
ingress or by the scheduler, on a channel, inside the scheduler or received by
the egress.
-/

set_option autoImplicit false

namespace EdfPipeline.Pipeline

open TransitionSystem Ledger

variable {stage : Stage}

/-- The packet a step of the pipeline makes of a datagram. -/
def reads (state : State stage) : Action stage → Option Packet
  | .inl (.inl action) => state.ingress.received action
  | .inl (.inr action) => action.getRight?.bind (stage.reads state.scheduler)
  | .inr _ => none

def droppedAll (outputs : PriorityTable OutputQueue) : Multiset Packet :=
  ∑ priority, ↑(outputs priority).dropped

theorem handedAll_split (outputs : PriorityTable OutputQueue) :
    handedAll outputs = ∑ priority, ↑(outputs priority).sent + droppedAll outputs := by
  rw [handedAll, droppedAll, ← Finset.sum_add_distrib]
  exact Finset.sum_congr rfl fun priority _ => Multiset.coe_eq_coe.mpr (OutputQueue.handed_split _)

/-- The packets of a list of items are those of its classes. -/
theorem sum_filterMap_ofClass (items : List (Priority × Packet)) :
    ∑ priority, (↑(items.filterMap (ofClass priority)) : Multiset Packet) = ↑(items.map Prod.snd) := by
  induction items using List.reverseRecOn with
  | nil => simp
  | append_singleton items item ih =>
      have last := sum_append_ofClass (fun priority => items.filterMap (ofClass priority)) (some item)
      rw [ih] at last
      rw [List.map_append, ← Multiset.coe_add, add_comm]
      refine Eq.trans ?_ last
      refine Finset.sum_congr rfl fun priority _ => ?_
      rw [List.filterMap_append]
      cases class_ : ofClass priority item with
      | none => simp [class_]
      | some packet => simp [class_]

/-- What a step hands over was taken by the queues or dropped. -/
theorem dropped_balance {before after : PriorityTable OutputQueue} {read : Multiset Packet}
    (grown : Grown before after) (handed : handedAll after = read + handedAll before) :
    droppedAll after + ↑((accepted before after).map Prod.snd) = read + droppedAll before := by
  have sent : ∑ priority, (↑(after priority).sent : Multiset Packet) =
      ∑ priority, ↑(before priority).sent + ↑((accepted before after).map Prod.snd) := by
    rw [← sum_filterMap_ofClass, ← Finset.sum_add_distrib]
    refine Finset.sum_congr rfl fun priority _ => ?_
    rw [sent_accepted grown, ← Multiset.coe_add]
  rw [handedAll_split, handedAll_split, sent] at handed
  refine add_left_cancel (a := ∑ priority, (↑(before priority).sent : Multiset Packet)) ?_
  calc
    _ = ∑ priority, ↑(before priority).sent + ↑((accepted before after).map Prod.snd) +
        droppedAll after := by abel
    _ = _ := by
        rw [handed]
        abel

/-- What the scheduler took in and what it handed over, with what the ingress dropped. -/
def contents (front : Front stage) : Multiset Packet :=
  droppedAll front.1.queues + stage.contents front.2

def loads {Action : Type} (action : Signal ⊕ Action) : Multiset Packet :=
  ((arrival action).map Prod.snd).elim 0 singleton

theorem foldl_loads {Action : Type} {signals : List Signal}
    (announced : ∀ signal ∈ signals, signal.arrival = none) (before after : PriorityTable OutputQueue)
    (noted : Multiset Packet) :
    ((told signals before after).map .inl).foldl
        (fun noted (told : Signal ⊕ Action) => loads told + noted) noted =
      ↑((accepted before after).map Prod.snd) + noted := by
  have silent (noted : Multiset Packet) (signal : Signal) (nothing : signal.arrival = none) :
      loads (.inl signal : Signal ⊕ Action) + noted = noted := by
    simp only [loads, arrival, nothing, Option.map_none, Option.elim_none, zero_add]
  rw [foldl_told_arrivals silent announced]
  generalize accepted before after = entries
  induction entries generalizing noted with
  | nil => exact (zero_add _).symm
  | cons entry rest ih =>
      rw [List.foldl_cons, ih, List.map_cons, ← Multiset.cons_coe, ← Multiset.singleton_add, add_comm {entry.2},
        add_assoc]
      rfl

theorem enters_signal (scheduler : stage.State) (signal : Signal) :
    (stage.enters scheduler (.inl signal)).elim 0 singleton =
      loads (.inl signal : Signal ⊕ stage.Action) := by
  cases signal <;> rfl

/-- What a scheduler holds after it was told of the step of the ingress. -/
theorem contents_told {scheduler reached : stage.State} {signals : List Signal}
    (announced : ∀ signal ∈ signals, signal.arrival = none) {before after : PriorityTable OutputQueue}
    (kept : stage.Kept scheduler)
    (ran : run stage.moves scheduler ((told signals before after).map .inl) = some reached) :
    stage.contents reached = ↑((accepted before after).map Prod.snd) + stage.contents scheduler := by
  refine (@Link.noted_run _ _ _ (fun noted told => loads told + noted) stage.contents stage.Kept _
    stage.moves_kept _ ?_ _ _ kept ran).trans (foldl_loads announced before after _)
  intro receiver action next listed holds moved
  obtain ⟨signal, _, rfl⟩ := List.mem_map.mp listed
  rw [stage.conserves holds moved, enters_signal]

/-- Every packet that was read is in one of the two from then on. -/
theorem front_conserves {state next : Front stage} {action : FrontAction stage} (kept : state.Kept)
    (stepped : (front stage).step state action = some next) (collector : MetricsCollector.State) :
    contents next =
      (reads ((state, collector) : State stage) (.inl action)).elim 0 singleton + contents state := by
  cases Link.step_moves stepped with
  | @send action ingress reached served ran =>
      have hands := Ingress.State.step_hands (Ingress.State.serve_step served)
      have balance := dropped_balance hands.grown hands.handed
      have received := contents_told (announces_arrival (.inl action : FrontAction stage)) kept.scheduler ran
      simp only [contents, received]
      rw [← add_assoc, balance, add_assoc]
      rfl
  | @alone action reached own moved =>
      have received := stage.conserves kept.scheduler moved
      simp only [contents, received]
      rw [add_left_comm]
      cases action with
      | inl signal => cases own
      | inr inner => rfl

/-! ## Where the packets are -/

inductive Place (Inner : Type) where
  | droppedAtIngress (priority : Priority)
  | waiting (priority : Priority)
  | within (inner : Inner)
  | droppedAtScheduler (priority : Priority)
  | leaving (priority : Priority)
  | received (priority : Priority)
  deriving DecidableEq

def ledger (state : State stage) : Multiset (Place stage.Place × Packet) :=
  ∑ priority, entries (.droppedAtIngress priority) ↑(state.ingress.queues priority).dropped +
    ∑ priority, entries (.waiting priority) ↑(stage.inputs state.scheduler priority).queue +
    (stage.held state.scheduler).map (Prod.map .within id) +
    ∑ priority, entries (.droppedAtScheduler priority) ↑(stage.outputs state.scheduler priority).dropped +
    ∑ priority, entries (.leaving priority) ↑(state.egress.queue priority) +
    ∑ priority, entries (.received priority) ↑(state.egress.dequeuedOf priority)

/-- What the scheduler lost, though it is in no queue and no counter. -/
abbrev lost (state : State stage) : Multiset Packet := stage.lost state.scheduler

/-- What the scheduler sent is on its way to the egress or was received there. -/
theorem contents_ledger {state : State stage} (joined : Joined state) :
    contents state.1 = (ledger state).map Prod.snd + lost state := by
  have sent : ∑ priority, (↑(stage.outputs state.scheduler priority).sent : Multiset Packet) =
      ∑ priority, ↑(state.egress.dequeuedOf priority) + ∑ priority, ↑(state.egress.queue priority) := by
    rw [← Finset.sum_add_distrib]
    refine Finset.sum_congr rfl fun priority _ => ?_
    rw [Multiset.coe_add]
    exact congrArg Multiset.ofList (congrFun joined priority)
  have within : ((stage.held state.scheduler).map
      (Prod.map (Place.within : stage.Place → Place stage.Place) id)).map Prod.snd =
        (stage.held state.scheduler).map Prod.snd := by
    rw [Multiset.map_map]
    rfl
  simp only [ledger, Multiset.map_add, map_snd_sum_entries, within, contents, Interface.contents,
    stage.map_snd_inside, handedAll_split, sent, droppedAll, queuedAll]
  abel

/-! ## Numbers of packets -/

/-- How many packets were made, at the ingress or by the scheduler. -/
def packetCount (front : Front stage) : Nat := front.1.nextPacketId + stage.packetCount front.2

/-- One of the two makes packets. -/
structure Front.Numbered (front : Front stage) : Prop where
  unstarted : stage.readsSockets = true → front.1.nextPacketId = 0
  passive : stage.readsSockets = false → stage.packetCount front.2 = 0

/-- A signal makes no packets. -/
theorem packetCount_told {scheduler reached : stage.State} {signals : List Signal}
    (ran : run stage.moves scheduler (signals.map .inl) = some reached) :
    stage.packetCount reached = stage.packetCount scheduler := by
  have noted := @Link.noted_run _ _ _ (fun count _ => count) stage.packetCount (fun _ => True) _
    (fun _ _ => trivial) _ ?_ _ _ trivial ran
  · rw [noted, List.foldl_map]
    exact List.foldl_fixed _
  · intro receiver action next listed _ moved
    obtain ⟨signal, _, rfl⟩ := List.mem_map.mp listed
    exact (stage.numbers moved).1

/-- The packet made of a datagram has the number of packets made before. -/
structure Numbers (state : Front stage) (read : Option Packet) (next : Front stage) : Prop where
  numbered : next.Numbered
  count : packetCount next = packetCount state + read.toList.length
  id : ∀ packet ∈ read, packet.id = packetCount state

theorem front_numbers {state next : Front stage} {action : FrontAction stage} (kept : state.Kept)
    (numbered : state.Numbered) (stepped : (front stage).step state action = some next)
    (collector : MetricsCollector.State) :
    Numbers state (reads ((state, collector) : State stage) (.inl action)) next := by
  cases Link.step_moves stepped with
  | @send action ingress reached served ran =>
      have hands := Ingress.State.step_hands (Ingress.State.serve_step served)
      have same := packetCount_told ran
      have silent (reads : stage.readsSockets = true) : state.1.received action = none :=
        (unstarted_step (kept.unstarted reads) served).2.2
      refine ⟨⟨?_, ?_⟩, ?_, ?_⟩
      · intro reads
        simp only [hands.count, numbered.unstarted reads, silent reads, Option.toList_none, List.length_nil]
      · intro passive
        exact same.trans (numbered.passive passive)
      · simp only [packetCount, hands.count, same, reads]
        exact Nat.add_right_comm _ _ _
      · intro packet made
        cases started : stage.readsSockets with
        | true => cases (silent started).symm.trans made
        | false =>
            rw [packetCount, numbered.passive started]
            exact hands.numbered packet made
  | @alone action reached own moved =>
      obtain ⟨count, id⟩ := stage.numbers moved
      have silent (passive : stage.readsSockets = false) :
          action.getRight?.bind (stage.reads state.2) = none := by
        cases action with
        | inl signal => cases own
        | inr inner => exact stage.passive passive _ _
      refine ⟨⟨numbered.unstarted, ?_⟩, ?_, ?_⟩
      · intro passive
        rw [count, numbered.passive passive, silent passive]
        rfl
      · simp only [packetCount, count, reads, Nat.add_assoc]
      · intro packet made
        cases started : stage.readsSockets with
        | true =>
            rw [packetCount, numbered.unstarted started, Nat.zero_add]
            exact id packet made
        | false => cases (silent started).symm.trans made

/-! ## Runs -/

/-- What was read so far, in the order of its numbers, is at one place each but for what
the scheduler lost, and every drop of a queue is counted. -/
structure Accounted (history : State stage × Past (State stage) (Action stage)) : Prop where
  books : (↑(observed reads history.2) : Multiset Packet) =
    (ledger history.1).map Prod.snd + lost history.1
  numbers : (observed reads history.2).map Packet.id = List.range (observed reads history.2).length
  place : ∀ packet ∈ observed reads history.2, packet ∉ lost history.1 →
    ∃! place, (place, packet) ∈ ledger history.1
  missing : ∀ packet ∈ lost history.1, ∀ place, (place, packet) ∉ ledger history.1
  ingressDrops : ∀ priority, (history.1.ingress.queues priority).Counted
  schedulerDrops : ∀ priority, (stage.outputs history.1.scheduler priority).Counted

structure Booked (history : State stage × Past (State stage) (Action stage)) : Prop where
  kept : Kept history.1
  joined : Joined history.1
  numbered : Front.Numbered history.1.1
  contents : (↑(observed reads history.2) : Multiset Packet) = contents history.1.1
  count : (observed reads history.2).length = packetCount history.1.1
  numbers : (observed reads history.2).map Packet.id = List.range (observed reads history.2).length

theorem nodup_of_numbers {packets : List Packet}
    (numbers : packets.map Packet.id = List.range packets.length) : packets.Nodup :=
  List.Nodup.of_map Packet.id (numbers ▸ List.nodup_range)

theorem Booked.accounted {history : State stage × Past (State stage) (Action stage)}
    (booked : Booked history) : Accounted history := by
  have books := booked.contents.trans (contents_ledger booked.joined)
  have distinct := nodup_of_numbers booked.numbers
  refine ⟨books, booked.numbers, ?_, ?_, booked.kept.front.routed.counted,
    stage.counted booked.kept.front.scheduler⟩
  · exact fun packet listed found => existsUnique_place_or books distinct listed found
  · exact fun packet gone place => notMem_of_missing books distinct gone place

/-- A stage has sent nothing at first. -/
theorem initial_sent (priority : Priority) : (stage.outputs stage.initial priority).sent = [] := by
  rw [List.eq_nil_iff_forall_not_mem]
  intro packet sent
  have handed : packet ∈ handedAll (stage.outputs stage.initial) :=
    Multiset.mem_sum.mpr ⟨priority, Finset.mem_univ priority,
      (OutputQueue.sent_sublist_handed _).mem sent⟩
  have held : packet ∈ stage.contents stage.initial := Multiset.mem_add.mpr (.inr handed)
  rw [stage.initial_empty] at held
  exact Multiset.notMem_zero packet held

theorem start_booked (registrations : List Registration)
    (socketMap : PriorityTable (Option (List Egress.Socket))) :
    Booked (start stage registrations socketMap, []) := by
  obtain ⟨queues, count, _⟩ := @startIngress_frame stage registrations
  refine ⟨start_kept registrations socketMap, ?_, ⟨fun _ => count, fun _ => stage.initial_count⟩,
    ?_, ?_, rfl⟩
  · exact funext initial_sent
  · have dropped : droppedAll (startIngress stage registrations).queues = 0 := by
      rw [queues]
      rfl
    simp only [contents, start, dropped, stage.initial_empty]
    rfl
  · simp only [packetCount, start, count, stage.initial_count]
    rfl

/-- Neither the books nor the numbers change where nothing was read. -/
theorem Booked.step {history : State stage × Past (State stage) (Action stage)} {next : State stage}
    {action : Action stage} (booked : Booked history) (kept : Kept next) (joined : Joined next)
    (numbers : Numbers history.1.1 (reads history.1 action) next.1)
    (conserved : Pipeline.contents next.1 =
      (reads history.1 action).elim 0 singleton + Pipeline.contents history.1.1) :
    Booked (next, history.2 ++ [(history.1, action)]) where
  kept := kept
  joined := joined
  numbered := numbers.numbered
  contents := by
    rw [observed_balance, booked.contents, conserved]
  count := by
    rw [observed_append, List.length_append, booked.count, numbers.count]
  numbers := by
    simp only [observed_append, List.map_append, List.length_append]
    cases read : reads history.1 action with
    | none =>
        simp only [Option.toList_none, List.map_nil, List.length_nil, List.append_nil, Nat.add_zero]
        exact booked.numbers
    | some packet =>
        have id := numbers.id packet read
        rw [Option.toList_some, List.length_singleton, List.range_succ, booked.numbers, List.map_singleton, id,
          booked.count]

theorem step_booked {history next : State stage × Past (State stage) (Action stage)}
    {action : Action stage} (booked : Booked history)
    (stepped : recorded (step stage) history action = some next) : Booked next := by
  obtain ⟨after, past⟩ := next
  obtain ⟨moved, rfl⟩ := recorded_eq_some.mp stepped
  have kept := step_kept booked.kept moved
  have joined := step_joined booked.kept booked.joined moved
  refine booked.step kept joined ?_ ?_
  · cases Link.step_moves moved with
    | send frontMoved told => exact front_numbers booked.kept.front booked.numbered frontMoved history.1.2
    | alone => exact ⟨booked.numbered, rfl, by rintro packet ⟨⟩⟩
  · cases Link.step_moves moved with
    | send frontMoved told => exact front_conserves booked.kept.front frontMoved history.1.2
    | alone => exact (zero_add _).symm

end EdfPipeline.Pipeline
