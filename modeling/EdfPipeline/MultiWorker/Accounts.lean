import EdfPipeline.MultiWorker.Admission
import Mathlib.Algebra.BigOperators.Fin

/-!
# The accounts of every class

Each numbered packet was handed out, is pending, is held by a worker or was
lost, under its own number and only once. The invariant is one of the books, so
it follows from their four entries.
-/

set_option autoImplicit false

namespace EdfPipeline.MultiWorker

open ReorderBuffer EarliestFirst

/-- The packets of a class among the items, with their numbers. -/
def numbersOf (items : Multiset ScheduledItem) (priority : Priority) : Multiset (Nat × Packet) :=
  (items.filter fun item => item.priority = priority).map fun item =>
    (item.workItem.sequence, item.workItem.packet)

def packetsOf (items : Multiset ScheduledItem) (priority : Priority) : Multiset Packet :=
  (items.filter fun item => item.priority = priority).map fun item => item.workItem.packet

def waitingOf (unnumbered : Multiset (Priority × Packet × Nat)) (priority : Priority) :
    Multiset Packet :=
  (unnumbered.filter fun entry => entry.1 = priority).map fun entry => entry.2.1

theorem numbersOf_snd (items : Multiset ScheduledItem) (priority : Priority) :
    (numbersOf items priority).map Prod.snd = packetsOf items priority := by
  simp [numbersOf, packetsOf, Multiset.map_map]

theorem numbersOf_cons_self (item : ScheduledItem) (items : Multiset ScheduledItem) :
    numbersOf (item ::ₘ items) item.priority =
      (item.workItem.sequence, item.workItem.packet) ::ₘ numbersOf items item.priority := by
  simp [numbersOf]

theorem numbersOf_cons_other {item : ScheduledItem} {priority : Priority}
    (different : item.priority ≠ priority) (items : Multiset ScheduledItem) :
    numbersOf (item ::ₘ items) priority = numbersOf items priority := by
  simp [numbersOf, different]

theorem packetsOf_add (left right : Multiset ScheduledItem) (priority : Priority) :
    packetsOf (left + right) priority = packetsOf left priority + packetsOf right priority := by
  simp [packetsOf]

theorem packetsOf_sum (family : WorkerId → Multiset ScheduledItem) (priority : Priority) :
    packetsOf (∑ id, family id) priority = ∑ id, packetsOf (family id) priority := by
  simp only [Fin.sum_univ_three, packetsOf_add]

/-- Items of every class make up the whole. -/
theorem packetsOf_eq_zero {items : Multiset ScheduledItem} :
    (∀ priority, packetsOf items priority = 0) ↔ items = 0 := by
  constructor
  · intro none
    refine Multiset.eq_zero_of_forall_notMem ?_
    intro item member
    have here := none item.priority
    rw [packetsOf, Multiset.map_eq_zero, Multiset.filter_eq_nil] at here
    exact here item member rfl
  · rintro rfl priority
    rfl

theorem waitingOf_add (left right : Multiset (Priority × Packet × Nat)) (priority : Priority) :
    waitingOf (left + right) priority = waitingOf left priority + waitingOf right priority := by
  simp [waitingOf]

theorem waitingOf_sum (family : WorkerId → Multiset (Priority × Packet × Nat))
    (priority : Priority) :
    waitingOf (∑ id, family id) priority = ∑ id, waitingOf (family id) priority := by
  simp only [Fin.sum_univ_three, waitingOf_add]

theorem waitingOf_cons_self (priority : Priority) (packet : Packet) (ticket : Nat)
    (unnumbered : Multiset (Priority × Packet × Nat)) :
    waitingOf ((priority, packet, ticket) ::ₘ unnumbered) priority =
      packet ::ₘ waitingOf unnumbered priority := by
  simp [waitingOf]

theorem waitingOf_cons_other {priority other : Priority} (different : other ≠ priority)
    (packet : Packet) (ticket : Nat) (unnumbered : Multiset (Priority × Packet × Nat)) :
    waitingOf ((other, packet, ticket) ::ₘ unnumbered) priority =
      waitingOf unnumbered priority := by
  simp [waitingOf, different]

/-- The account of one class: its tracker and output against the packets
received and numbered and against the items not completed yet. -/
structure Account (tracker : SequenceTracker) (output : OutputQueue) (taken numbered : List Packet)
    (outstanding : Multiset (Nat × Packet)) (waiting : Multiset Packet) : Prop where
  next : tracker.nextSequence = numbered.length
  buffered : tracker.buffer.Accounts numbered outstanding
  handed : output.handed = numbered.take tracker.inner.nextEmit
  counted : output.Counted
  received : (↑taken : Multiset Packet) = ↑numbered + waiting

def Books.Accounted (books : Books) : Prop :=
  ∀ priority, Account (books.completion.trackers priority)
    (books.completion.outputQueues priority) (books.taken priority) (books.numbered priority)
    (numbersOf (books.held + books.lost) priority) (waitingOf books.unnumbered priority)

namespace Account

variable {tracker : SequenceTracker} {output : OutputQueue} {taken numbered : List Packet}
  {outstanding : Multiset (Nat × Packet)} {waiting : Multiset Packet}

theorem initial : Account .new .initial [] [] 0 0 where
  next := rfl
  buffered := Buffer.accounts_initial
  handed := rfl
  counted := OutputQueue.counted_initial
  received := rfl

theorem receive (account : Account tracker output taken numbered outstanding waiting)
    (packet : Packet) :
    Account tracker output (taken ++ [packet]) numbered outstanding (packet ::ₘ waiting) :=
  { account with
    received := by
      rw [← Multiset.coe_add, account.received, Multiset.coe_singleton, add_assoc,
        add_comm waiting, Multiset.singleton_add] }

/-- The packet is numbered with the position it has among the numbered. -/
theorem number {packet : Packet}
    (account : Account tracker output taken numbered outstanding (packet ::ₘ waiting)) :
    Account tracker.assignSequence.2 output taken (numbered ++ [packet])
      ((tracker.nextSequence, packet) ::ₘ outstanding) waiting where
  next := by
    rw [List.length_append, ← account.next]
    rfl
  buffered := account.next ▸ account.buffered.issue packet
  handed := by
    rw [account.handed]
    exact (List.take_append_of_le_length account.buffered.bounded).symm
  counted := account.counted
  received := by
    rw [account.received, ← Multiset.coe_add, Multiset.coe_singleton, add_assoc,
      Multiset.singleton_add]

theorem complete {sequence : Nat} {packet : Packet}
    (account : Account tracker output taken numbered ((sequence, packet) ::ₘ outstanding) waiting)
    (room : Nat → Bool) :
    Account (tracker.complete sequence packet room output).1
      (tracker.complete sequence packet room output).2 taken numbered outstanding waiting := by
  obtain ⟨buffer, handed⟩ := tracker.complete_refines sequence packet room output
  obtain ⟨rest, released⟩ := account.buffered.complete
  refine ⟨?_, ?_, ?_, tracker.complete_counted sequence packet room account.counted,
    account.received⟩
  · rw [SequenceTracker.complete_nextSequence, account.next]
  · rw [buffer]
    exact rest
  · rw [handed, account.handed]
    change numbered.take tracker.buffer.nextEmit ++ _ =
      numbered.take (tracker.complete sequence packet room output).1.buffer.nextEmit
    rw [buffer, released]

end Account

theorem CompletionRouter.prepare_trackers (router : CompletionRouter) (priority other : Priority)
    (packet : Packet) :
    (router.prepare priority packet).2.trackers other =
      if other = priority then (router.trackers priority).assignSequence.2
      else router.trackers other :=
  PriorityTable.set_apply ..

theorem CompletionRouter.complete_other (router : CompletionRouter) (workItem : WorkItem)
    (room : Nat → Bool) {other : Priority} (different : other ≠ workItem.priority) :
    (router.complete workItem room).trackers other = router.trackers other ∧
      (router.complete workItem room).outputQueues other = router.outputQueues other :=
  ⟨PriorityTable.set_other different, PriorityTable.set_other different⟩

theorem CompletionRouter.complete_self (router : CompletionRouter) (workItem : WorkItem)
    (room : Nat → Bool) :
    (router.complete workItem room).trackers workItem.priority =
        ((router.trackers workItem.priority).complete workItem.sequence workItem.packet room
          (router.outputQueues workItem.priority)).1 ∧
      (router.complete workItem room).outputQueues workItem.priority =
        ((router.trackers workItem.priority).complete workItem.sequence workItem.packet room
          (router.outputQueues workItem.priority)).2 :=
  ⟨PriorityTable.set_self .., PriorityTable.set_self ..⟩

theorem Books.Entry.accounted {books next : Books} {number : Option (Priority × Packet × Nat)}
    (entry : Books.Entry books number next)
    (accounted : books.Accounted) : next.Accounted := by
  intro other
  have account := accounted other
  cases entry with
  | receive priority packet =>
      by_cases same : other = priority
      · subst same
        simp only [PriorityTable.set_self, waitingOf_cons_self]
        exact account.receive packet
      · simp only [ne_eq, same, not_false_eq_true, PriorityTable.set_other,
          waitingOf_cons_other fun back => same back.symm]
        exact account
  | number waiting =>
      rename_i priority packet ticket unnumbered
      rw [waiting] at account
      rw [CompletionRouter.prepare_trackers, Multiset.cons_add]
      by_cases same : other = priority
      · subst same
        rw [waitingOf_cons_self] at account
        simp only [PriorityTable.set_self, ↓reduceIte]
        have item := numbersOf_cons_self
          { deadline := packet.deadline
            workItem := (books.completion.prepare other packet).1 } (books.held + books.lost)
        exact item ▸ account.number
      · rw [waitingOf_cons_other fun back => same back.symm] at account
        rw [numbersOf_cons_other fun back => same back.symm]
        simp only [ne_eq, same, not_false_eq_true, PriorityTable.set_other, ↓reduceIte]
        exact account
  | refuse holding =>
      rw [holding] at account
      simpa only [Multiset.cons_add, Multiset.add_cons] using account
  | complete room holding =>
      rename_i item held
      rw [holding, Multiset.cons_add] at account
      by_cases same : other = item.priority
      · subst same
        rw [numbersOf_cons_self] at account
        obtain ⟨tracker, output⟩ := books.completion.complete_self item.workItem room
        rw [tracker, output]
        exact account.complete room
      · rw [numbersOf_cons_other fun back => same back.symm] at account
        obtain ⟨tracker, output⟩ := books.completion.complete_other item.workItem room same
        rw [tracker, output]
        exact account

namespace State

theorem moves_books {state next : State} {id : WorkerId} (moves : Moves state id next) :
    next.books = state.books ∨
      Books.Entry state.books (state.workers id).pc.unnumbered.head? next.books := by
  cases moves with
  | readTotalLimit place =>
      refine .inl (setWorker_books_of_eq ?_ ?_) <;>
        simp only [Worker.held, Worker.unnumbered, place] <;> rfl
  | readPriorityLimit priority rest place =>
      refine .inl (setWorker_books_of_eq ?_ ?_) <;>
        simp only [Worker.held, Worker.unnumbered, place] <;> rfl
  | storeBacklog place =>
      refine .inl (setWorker_books_of_eq ?_ ?_) <;>
        simp only [Worker.held, Worker.unnumbered, place] <;> rfl
  | goto pc slot hand hand' unnumbered unnumbered' =>
      exact .inl (goto_books slot (hand.trans hand'.symm) (unnumbered.trans unnumbered'.symm))
  | spin hand => exact .inl rfl
  | receive site packet remaining received room slot hand unnumbered =>
      rw [unnumbered]
      exact .inr (receive_books slot hand unnumbered)
  | prepare site packet ticket place =>
      rw [place]
      exact .inr (prepare_books place)
  | push site item accepted refused place keeps resumes resumes' =>
      rw [place]
      exact push_books place resumes resumes'
  | displace site scheduled item initial next place displaced sited slot hand unnumbered =>
      rw [place]
      exact displace_books place sited slot hand unnumbered
  | observe scheduled start place =>
      refine .inl (goto_books ?_ ?_ ?_)
      all_goals
        rw [place]
        rfl

/-- The packet a step numbers, with its class and its ticket. -/
def numbering (state : State) : Action → Option (Priority × Packet × Nat)
  | .run id => (state.workers id).pc.unnumbered.head?
  | _ => none

theorem step_books {state next : State} {action : Action} (stepped : state.step action = some next) :
    next.books = state.books ∨
      Books.Entry state.books (state.numbering action) next.books := by
  cases action with
  | arrive priority packet =>
      cases stepped
      exact .inl rfl
  | disconnect priority =>
      cases stepped
      exact .inl rfl
  | tick elapsed =>
      cases stepped
      exact .inl rfl
  | store store =>
      simp only [step] at stepped
      split at stepped
      · cases stepped
        exact .inl rfl
      · cases stepped
  | run id => exact moves_books (runWorker_moves stepped)
  | pop id item =>
      simp only [step, popWorker] at stepped
      split at stepped
      · rename_i enabled
        cases stepped
        exact .inl (pop_books enabled.1 enabled.2)
      · cases stepped
  | complete id room =>
      simp only [step, completeWorker] at stepped
      split at stepped
      · rename_i scheduled place
        cases stepped
        exact .inr (complete_books place room)
      · cases stepped

theorem initial_accounted : State.initial.books.Accounted := fun _ => Account.initial

theorem step_accounted {state next : State} {action : Action} (accounted : state.books.Accounted)
    (stepped : state.step action = some next) : next.books.Accounted := by
  rcases step_books stepped with same | entry
  · rw [same]
    exact accounted
  · exact entry.accounted accounted

end State

end EdfPipeline.MultiWorker
