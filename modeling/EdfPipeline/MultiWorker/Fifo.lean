import EdfPipeline.MultiWorker.Delivery

/-!
# Per-class order

Packets leave in the order of their numbers. The number is drawn in a step of
its own after the packet was received, so another worker can overtake in
between; the order of arrival is kept when no number is drawn past an earlier
packet that still waits for one.
-/

set_option autoImplicit false

namespace EdfPipeline.MultiWorker

open ReorderBuffer

/-- The packets of a class that have no number yet, with their tickets. -/
def ticketsOf (unnumbered : Multiset (Priority × Packet × Nat)) (priority : Priority) :
    Multiset (Nat × Packet) :=
  (unnumbered.filter fun entry => entry.1 = priority).map fun entry => (entry.2.2, entry.2.1)

theorem ticketsOf_cons_self (priority : Priority) (packet : Packet) (ticket : Nat)
    (unnumbered : Multiset (Priority × Packet × Nat)) :
    ticketsOf ((priority, packet, ticket) ::ₘ unnumbered) priority =
      (ticket, packet) ::ₘ ticketsOf unnumbered priority := by
  simp [ticketsOf]

theorem ticketsOf_cons_other {priority other : Priority} (different : other ≠ priority)
    (packet : Packet) (ticket : Nat) (unnumbered : Multiset (Priority × Packet × Nat)) :
    ticketsOf ((other, packet, ticket) ::ₘ unnumbered) priority =
      ticketsOf unnumbered priority := by
  simp [ticketsOf, different]

theorem exists_of_mem_ticketsOf {unnumbered : Multiset (Priority × Packet × Nat)}
    {priority : Priority} {entry : Nat × Packet} (member : entry ∈ ticketsOf unnumbered priority) :
    (priority, entry.2, entry.1) ∈ unnumbered := by
  obtain ⟨⟨other, packet, ticket⟩, filtered, rfl⟩ := Multiset.mem_map.mp member
  obtain ⟨present, same⟩ := Multiset.mem_filter.mp filtered
  cases same
  exact present

/-- The packets numbered so far are the first ones received, and the others
still have their tickets. -/
def Ordered (taken numbered : List Packet) (tickets : Multiset (Nat × Packet)) : Prop :=
  stamped taken = stamped numbered + tickets

namespace Ordered

variable {taken numbered : List Packet} {tickets : Multiset (Nat × Packet)}

theorem isPrefix (ordered : Ordered taken numbered tickets) : numbered <+: taken := by
  rw [List.prefix_iff_getElem?]
  intro position short
  rw [← mem_stamped, ordered]
  refine Multiset.mem_add.mpr (.inl (mem_stamped.mpr ?_))
  exact List.getElem?_eq_getElem short

theorem receive (ordered : Ordered taken numbered tickets) (packet : Packet) :
    Ordered (taken ++ [packet]) numbered ((taken.length, packet) ::ₘ tickets) := by
  rw [Ordered, stamped_append_singleton, ordered, Multiset.add_cons]

theorem number {packet : Packet} {ticket : Nat}
    (ordered : Ordered taken numbered ((ticket, packet) ::ₘ tickets))
    (least : ∀ other ∈ tickets, ticket ≤ other.1) :
    Ordered taken (numbered ++ [packet]) tickets := by
  have numbers := congrArg (Multiset.map Prod.fst) ordered
  rw [Multiset.map_add, map_fst_stamped, map_fst_stamped, Multiset.map_cons] at numbers
  have sizes := congrArg Multiset.card numbers
  simp only [Multiset.card_range, Multiset.card_add, Multiset.card_cons, Multiset.card_map]
    at sizes
  have distinct := Multiset.nodup_range taken.length
  rw [numbers, Multiset.nodup_add] at distinct
  have fresh : numbered.length ≤ ticket := by
    by_contra below
    have before : ticket ∈ Multiset.range numbered.length := Multiset.mem_range.mpr (by omega)
    exact Multiset.disjoint_left.mp distinct.2.2 before (Multiset.mem_cons_self _ _)
  have next : numbered.length ∈ Multiset.range taken.length := Multiset.mem_range.mpr (by omega)
  rw [numbers, Multiset.mem_add, Multiset.mem_cons] at next
  have reached : ticket ≤ numbered.length := by
    rcases next with before | same | later
    · exact absurd (Multiset.mem_range.mp before) (Nat.lt_irrefl _)
    · exact same.ge
    · obtain ⟨other, member, same⟩ := Multiset.mem_map.mp later
      exact same ▸ least other member
  have same : ticket = numbered.length := Nat.le_antisymm reached fresh
  rw [Ordered, stamped_append_singleton, ordered, same, Multiset.add_cons, Multiset.cons_add]

end Ordered

def Books.Ordered (books : Books) : Prop :=
  ∀ priority, MultiWorker.Ordered (books.taken priority) (books.numbered priority)
    (ticketsOf books.unnumbered priority)

/-- Only numbering can break the order, and it does not when it takes the
packet of the class that was received first. -/
theorem Books.Entry.ordered {books next : Books} {number : Option (Priority × Packet × Nat)}
    (entry : Books.Entry books number next) (ordered : books.Ordered)
    (orderly : ∀ chosen ∈ number, ∀ other ∈ books.unnumbered,
      other.1 = chosen.1 → chosen.2.2 ≤ other.2.2) : next.Ordered := by
  intro other
  have before := ordered other
  cases entry with
  | receive priority packet =>
      by_cases same : other = priority
      · subst same
        simp only [PriorityTable.set_self, ticketsOf_cons_self]
        exact before.receive packet
      · simp only [ne_eq, same, not_false_eq_true, PriorityTable.set_other,
          ticketsOf_cons_other fun back => same back.symm]
        exact before
  | number waiting =>
      rename_i priority packet ticket unnumbered
      rw [waiting] at before
      by_cases same : other = priority
      · subst same
        rw [ticketsOf_cons_self] at before
        simp only [PriorityTable.set_self]
        refine before.number ?_
        intro entry member
        refine orderly _ rfl (other, entry.2, entry.1) ?_ rfl
        rw [waiting]
        exact Multiset.mem_cons_of_mem (exists_of_mem_ticketsOf member)
      · rw [ticketsOf_cons_other fun back => same back.symm] at before
        simp only [ne_eq, same, not_false_eq_true, PriorityTable.set_other]
        exact before
  | refuse holding => exact before
  | complete room holding => exact before

namespace State

/-- The packets handed to `send_packet` are the first ones received, in order. -/
def InOrder (state : State) : Prop :=
  ∀ priority, (state.completion.outputQueues priority).handed <+: state.taken priority

/-- A step that draws a number draws it for the packet of the class that was
received first among those no worker has numbered. -/
def NumbersFirst (state : State) (action : Action) : Prop :=
  ∀ chosen ∈ state.numbering action, ∀ id, ∀ other ∈ (state.workers id).pc.unnumbered,
    other.1 = chosen.1 → chosen.2.2 ≤ other.2.2

instance (state : State) (action : Action) : Decidable (state.NumbersFirst action) :=
  match number : state.numbering action with
  | none => .isTrue (by simp [NumbersFirst, number])
  | some chosen =>
      decidable_of_iff (∀ id, ∀ other ∈ (state.workers id).pc.unnumbered,
        other.1 = chosen.1 → chosen.2.2 ≤ other.2.2) (by simp [NumbersFirst, number])

/-- Packets always leave in the order of their numbers. -/
theorem handed_prefix_numbered {state : State} (accounted : state.books.Accounted)
    (priority : Priority) :
    (state.completion.outputQueues priority).handed <+: state.numbered priority := by
  have handed : (state.completion.outputQueues priority).handed =
      (state.numbered priority).take (state.completion.trackers priority).inner.nextEmit :=
    (accounted priority).handed
  rw [handed]
  exact List.take_prefix _ _

structure OrderKept (state : State) : Prop where
  accounted : state.books.Accounted
  ordered : state.books.Ordered

theorem OrderKept.inOrder {state : State} (kept : state.OrderKept) : state.InOrder :=
  fun priority => (handed_prefix_numbered kept.accounted priority).trans (kept.ordered priority).isPrefix

theorem initial_orderKept : State.initial.OrderKept := ⟨initial_accounted, fun _ => rfl⟩

theorem step_orderKept {state next : State} {action : Action} (kept : state.OrderKept)
    (first : state.NumbersFirst action) (stepped : state.step action = some next) :
    next.OrderKept := by
  refine ⟨step_accounted kept.accounted stepped, ?_⟩
  rcases step_books stepped with same | entry
  · rw [same]
    exact kept.ordered
  · refine entry.ordered kept.ordered ?_
    intro chosen number other member
    have total : state.books.unnumbered = ∑ id, (state.workers id).unnumbered := rfl
    rw [total] at member
    obtain ⟨id, _, here⟩ := Multiset.mem_sum.mp member
    exact first chosen number id other here

end State

/-- Per-class order holds in every state of a run that never draws a number past
a packet still waiting for one. -/
theorem inOrder_of_numbers_first (actions : List Action)
    (first : TransitionSystem.Along State.step State.NumbersFirst State.initial actions) :
    TransitionSystem.Throughout State.step State.InOrder State.initial actions :=
  TransitionSystem.throughout_guarded State.step_orderKept State.OrderKept.inOrder
    State.initial_orderKept first

/-! ## Two workers in the window -/

def receiveBoth : List Action :=
  [.tick (Duration.fromMillis 1), .arrive .medium (mediumPacket 0),
    .arrive .medium (mediumPacket 1)] ++ List.replicate 8 (.run 1) ++ List.replicate 8 (.run 2)

def finishSecond (sequence : Nat) : List Action :=
  List.replicate 6 (.run 2) ++
    .pop 2 { mediumItem 1 with workItem := { (mediumItem 1).workItem with sequence } } ::
      List.replicate 4 (.run 2) ++
      [.tick (Duration.fromMicros 50), .run 2, .complete 2 fun _ => true]

def overtakingRun : List Action := receiveBoth ++ finishSecond 0

def patientRun : List Action :=
  receiveBoth ++ [.run 1] ++ finishSecond 1 ++ List.replicate 3 (.run 1) ++
    .pop 1 (mediumItem 0) :: List.replicate 4 (.run 1) ++
      [.tick (Duration.fromMicros 50), .run 1, .complete 1 fun _ => true]

theorem patientRun_in_order :
    TransitionSystem.Throughout State.step State.InOrder State.initial patientRun :=
  inOrder_of_numbers_first patientRun (by decide +kernel)

private theorem overtakingRun_hands :
    (run State.initial overtakingRun).map (fun state =>
      ((state.completion.outputQueues .medium).handed, state.taken .medium)) =
        some ([mediumPacket 1], [mediumPacket 0, mediumPacket 1]) := by
  decide +kernel

theorem overtaking_breaks_order :
    ¬ TransitionSystem.Throughout State.step State.InOrder State.initial overtakingRun := by
  intro throughout
  obtain ⟨reached, ran, places⟩ := Option.map_eq_some_iff.mp overtakingRun_hands
  have ordered := TransitionSystem.throughout_iff_prefixes.mp throughout overtakingRun
    (List.prefix_refl _) reached ran .medium
  rw [(Prod.mk.inj places).1, (Prod.mk.inj places).2] at ordered
  revert ordered
  decide

end EdfPipeline.MultiWorker
