import EdfPipeline.MultiWorker.System
import EdfPipeline.Library.Ledger

/-!
# The books of the multi-worker scheduler

What matters for delivery, whatever the workers' places, heaps and quotas: which
packets were received and numbered, which are held by some worker, and what the
completion router has. Every step of the scheduler either leaves the books
alone or makes one of four entries.
-/

set_option autoImplicit false

namespace EdfPipeline.MultiWorker

open EarliestFirst

/-- The item in the local `scheduled` while a packet is admitted at the site. -/
def Site.slot : Site → List ScheduledItem
  | .drain .. => []
  | .poll scheduled _ | .guard scheduled _ => [scheduled]

def Pc.slot : Pc → List ScheduledItem
  | .top | .readPriorityLimits _ | .drain _ | .select => []
  | .immediate scheduled _ | .poll scheduled _ | .guard scheduled _
  | .guardLoop scheduled _ _ _ | .guardSpin scheduled _ _ _ | .guardRecheck scheduled _ _
  | .process scheduled | .busy scheduled _ | .complete scheduled => [scheduled]
  | .received site _ _ | .prepared site _ => site.slot

def Pc.hand : Pc → List ScheduledItem
  | .prepared _ item => [item]
  | _ => []

/-- The packet in the local `packet`, received but not numbered yet, with its
class and its ticket. -/
def Pc.unnumbered : Pc → List (Priority × Packet × Nat)
  | .received site packet ticket => [(site.priority, packet, ticket)]
  | _ => []

/-- No packet is on its way into the heap. -/
structure Pc.Quiet (pc : Pc) : Prop where
  hand : pc.hand = []
  unnumbered : pc.unnumbered = []

def Worker.held (worker : Worker) : Multiset ScheduledItem :=
  ↑(worker.heap ++ (worker.pc.slot ++ worker.pc.hand))

def Worker.unnumbered (worker : Worker) : Multiset (Priority × Packet × Nat) :=
  ↑worker.pc.unnumbered

structure Books where
  completion : CompletionRouter
  taken : PriorityTable (List Packet)
  numbered : PriorityTable (List Packet)
  held : Multiset ScheduledItem
  unnumbered : Multiset (Priority × Packet × Nat)
  lost : Multiset ScheduledItem

def State.books (state : State) : Books where
  completion := state.completion
  taken := state.taken
  numbered := state.numbered
  held := ∑ id, (state.workers id).held
  unnumbered := ∑ id, (state.workers id).unnumbered
  lost := ↑state.lost

/-- The entries made in the books. An entry that numbers a packet is labelled
with what it numbers. -/
inductive Books.Entry : Books → Option (Priority × Packet × Nat) → Books → Prop where
  | receive {books : Books} (priority : Priority) (packet : Packet) :
      Entry books none { books with
        taken := books.taken.set priority (books.taken priority ++ [packet])
        unnumbered := (priority, packet, (books.taken priority).length) ::ₘ books.unnumbered }
  | number {books : Books} {priority : Priority} {packet : Packet} {ticket : Nat}
      {unnumbered : Multiset (Priority × Packet × Nat)}
      (waiting : books.unnumbered = (priority, packet, ticket) ::ₘ unnumbered) :
      Entry books (some (priority, packet, ticket)) { books with
        completion := (books.completion.prepare priority packet).2
        numbered := books.numbered.set priority (books.numbered priority ++ [packet])
        held := { deadline := packet.deadline
                  workItem := (books.completion.prepare priority packet).1 } ::ₘ books.held
        unnumbered }
  | refuse {books : Books} {item : ScheduledItem} {held : Multiset ScheduledItem}
      (holding : books.held = item ::ₘ held) :
      Entry books none { books with held, lost := item ::ₘ books.lost }
  | complete {books : Books} {item : ScheduledItem} {held : Multiset ScheduledItem}
      (room : Nat → Bool) (holding : books.held = item ::ₘ held) :
      Entry books none
        { books with held, completion := books.completion.complete item.workItem room }

namespace State

@[simp] theorem setWorker_workers (state : State) (id : WorkerId) (worker : Worker) :
    (state.setWorker id worker).workers = Function.update state.workers id worker := rfl

theorem setWorker_self (state : State) (id : WorkerId) (worker : Worker) :
    (state.setWorker id worker).workers id = worker :=
  Function.update_self ..

theorem goto_self (state : State) (id : WorkerId) (pc : Pc) :
    (state.goto id pc).workers id = (state.workers id).goto pc :=
  Function.update_self ..

theorem setWorker_books (state : State) (id : WorkerId) (worker : Worker) :
    (state.setWorker id worker).books =
      { state.books with
        held := ∑ other, (Function.update state.workers id worker other).held
        unnumbered := ∑ other, (Function.update state.workers id worker other).unnumbered } :=
  rfl

theorem setWorker_books_of_eq {state : State} {id : WorkerId} {worker : Worker}
    (held : worker.held = (state.workers id).held)
    (unnumbered : worker.unnumbered = (state.workers id).unnumbered) :
    (state.setWorker id worker).books = state.books := by
  rw [setWorker_books, Ledger.sum_update_of_eq held, Ledger.sum_update_of_eq unnumbered]
  rfl

theorem goto_books {state : State} {id : WorkerId} {pc : Pc}
    (slot : pc.slot = (state.workers id).pc.slot) (hand : pc.hand = (state.workers id).pc.hand)
    (unnumbered : pc.unnumbered = (state.workers id).pc.unnumbered) :
    (state.goto id pc).books = state.books :=
  setWorker_books_of_eq (by simp only [Worker.held, Worker.goto, slot, hand])
    (by simp only [Worker.unnumbered, Worker.goto, unnumbered])

theorem held_of_cons {state : State} {id : WorkerId} {worker : Worker} {item : ScheduledItem}
    (held : (state.workers id).held = item ::ₘ worker.held) :
    state.books.held = item ::ₘ ∑ other, (Function.update state.workers id worker other).held := by
  have total := Ledger.sum_update Worker.held state.workers id worker
  rw [held, Multiset.add_cons, add_comm _ worker.held, add_comm _ worker.held,
    ← Multiset.add_cons] at total
  exact (add_left_cancel total).symm

theorem receive_books {state : State} {id : WorkerId} {site : Site} {packet : Packet}
    {remaining : Channel Packet} (slot : site.slot = (state.workers id).pc.slot)
    (hand : (state.workers id).pc.hand = []) (unnumbered : (state.workers id).pc.unnumbered = []) :
    Books.Entry state.books none (state.receive id site packet remaining).books := by
  have held : ((state.workers id).goto
      (.received site packet (state.taken site.priority).length)).held =
        (state.workers id).held := by
    rw [Worker.held, Worker.held, hand, ← slot]
    rfl
  have arrived : ((state.workers id).goto
      (.received site packet (state.taken site.priority).length)).unnumbered =
        {(site.priority, packet, (state.taken site.priority).length)} +
          (state.workers id).unnumbered := by
    rw [Worker.unnumbered, Worker.unnumbered, unnumbered]
    rfl
  have shape : (state.receive id site packet remaining).books =
      { state.books with
        taken := state.taken.set site.priority (state.taken site.priority ++ [packet])
        unnumbered := (site.priority, packet, (state.taken site.priority).length) ::ₘ
          state.books.unnumbered } := by
    simp only [receive, goto, setWorker, books, Ledger.sum_update_of_eq held,
      Ledger.sum_update_add arrived, Multiset.singleton_add]
  rw [shape]
  exact .receive site.priority packet

theorem prepare_books {state : State} {id : WorkerId} {site : Site} {packet : Packet}
    {ticket : Nat} (place : (state.workers id).pc = .received site packet ticket) :
    Books.Entry state.books (some (site.priority, packet, ticket))
      (state.prepare id site packet).books := by
  let item : ScheduledItem :=
    { deadline := packet.deadline
      workItem := (state.completion.prepare site.priority packet).1 }
  let worker := (state.workers id).goto (.prepared site item)
  have held : worker.held = {item} + (state.workers id).held := by
    simp only [worker, Worker.held, Worker.goto, place, Pc.slot, Pc.hand, List.append_nil,
      Multiset.singleton_add, Multiset.cons_coe, Multiset.coe_eq_coe, ← List.append_assoc]
    exact List.perm_append_singleton item _
  have numbered : (state.workers id).unnumbered =
      {(site.priority, packet, ticket)} + worker.unnumbered := by
    simp [worker, Worker.unnumbered, Worker.goto, place, Pc.unnumbered]
  have waiting : state.books.unnumbered = (site.priority, packet, ticket) ::ₘ
      ∑ other, (Function.update state.workers id worker other).unnumbered := by
    have total := Ledger.sum_update Worker.unnumbered state.workers id worker
    rw [numbered, add_comm _ worker.unnumbered, ← add_assoc, add_right_comm] at total
    rw [← Multiset.singleton_add, add_comm]
    exact (add_right_cancel total).symm
  have shape : (state.prepare id site packet).books =
      { state.books with
        completion := (state.completion.prepare site.priority packet).2
        numbered := state.numbered.set site.priority (state.numbered site.priority ++ [packet])
        held := item ::ₘ state.books.held
        unnumbered := ∑ other, (Function.update state.workers id worker other).unnumbered } := by
    have total : ∑ other, (Function.update state.workers id worker other).held =
        item ::ₘ state.books.held :=
      Ledger.sum_update_add held
    rw [← total]
    rfl
  rw [shape]
  exact .number waiting

/-- Where a prepared item leads, the locals are as before its packet arrived. -/
structure Resumes (site : Site) (pc : Pc) : Prop where
  slot : pc.slot = site.slot
  hand : pc.hand = []
  unnumbered : pc.unnumbered = []

theorem push_accepted {state : State} {id : WorkerId} {item : ScheduledItem} {accepted refused : Pc}
    (room : ¬ (state.workers id).QuotaReached item.priority) :
    state.push id item accepted refused =
      state.setWorker id ((((state.workers id).pushed item).fetchAdd item.priority).goto accepted) := by
  simp only [push, Worker.pushWithCapacity_eq, room, ↓reduceIte]

theorem push_refused {state : State} {id : WorkerId} {item : ScheduledItem} {accepted refused : Pc}
    (full : (state.workers id).QuotaReached item.priority) :
    state.push id item accepted refused =
      { state with lost := item :: state.lost }.setWorker id ((state.workers id).goto refused) := by
  simp only [push, Worker.pushWithCapacity_eq, full, ↓reduceIte]

theorem displace_accepted {state : State} {id : WorkerId} {scheduled : ScheduledItem}
    {initial : Priority} {next : Pc} (room : ¬ (state.workers id).QuotaReached scheduled.priority) :
    state.displace id scheduled initial next =
      state.setWorker id ((((state.workers id).pushed scheduled).fetchAdd initial).goto next) := by
  simp only [displace, Worker.requeue, Worker.pushWithCapacity_eq, room, ↓reduceIte]

theorem displace_refused {state : State} {id : WorkerId} {scheduled : ScheduledItem}
    {initial : Priority} {next : Pc} (full : (state.workers id).QuotaReached scheduled.priority) :
    state.displace id scheduled initial next =
      { state with lost := scheduled :: state.lost }.setWorker id
        (((state.workers id).fetchAdd initial).goto next) := by
  simp only [displace, Worker.requeue, Worker.pushWithCapacity_eq, full, ↓reduceIte]

/-- A refused item leaves the worker's hands and nobody else gets it. -/
theorem lose_books {state : State} {id : WorkerId} {worker : Worker} {item : ScheduledItem}
    (unnumbered : worker.unnumbered = (state.workers id).unnumbered) :
    ({ state with lost := item :: state.lost }.setWorker id worker).books =
      { state.books with
        held := ∑ other, (Function.update state.workers id worker other).held
        lost := item ::ₘ state.books.lost } := by
  simp only [setWorker, books, Ledger.sum_update_of_eq unnumbered, Multiset.cons_coe]

theorem push_books {state : State} {id : WorkerId} {site : Site} {item : ScheduledItem}
    {accepted refused : Pc} (place : (state.workers id).pc = .prepared site item)
    (resumes : Resumes site accepted) (resumes' : Resumes site refused) :
    (state.push id item accepted refused).books = state.books ∨
      Books.Entry state.books none (state.push id item accepted refused).books := by
  have before : (state.workers id).held =
      ↑((state.workers id).heap ++ (site.slot ++ [item])) := by
    rw [Worker.held, place]
    rfl
  have nothing : (state.workers id).unnumbered = 0 := by
    rw [Worker.unnumbered, place]
    rfl
  by_cases full : (state.workers id).QuotaReached item.priority
  · rw [push_refused full]
    have held : (state.workers id).held = item ::ₘ ((state.workers id).goto refused).held := by
      rw [before, Worker.held, Worker.goto, resumes'.slot, resumes'.hand, List.append_nil,
        ← List.append_assoc, Multiset.cons_coe, Multiset.coe_eq_coe]
      exact List.perm_append_singleton item _
    rw [lose_books (by rw [nothing, Worker.unnumbered, Worker.goto, resumes'.unnumbered]; rfl)]
    exact .inr (.refuse (held_of_cons held))
  · rw [push_accepted full]
    refine .inl (setWorker_books_of_eq ?_ ?_)
    · rw [before, Worker.held, Worker.goto, resumes.slot, resumes.hand, List.append_nil,
        ← List.append_assoc, Multiset.coe_eq_coe]
      exact (List.perm_append_singleton item _).symm
    · rw [nothing, Worker.unnumbered, Worker.goto, resumes.unnumbered]
      rfl

theorem displace_books {state : State} {id : WorkerId} {site : Site}
    {scheduled item : ScheduledItem} {initial : Priority} {next : Pc}
    (place : (state.workers id).pc = .prepared site item) (displaced : site.slot = [scheduled])
    (slot : next.slot = [item]) (hand : next.hand = []) (unnumbered : next.unnumbered = []) :
    (state.displace id scheduled initial next).books = state.books ∨
      Books.Entry state.books none (state.displace id scheduled initial next).books := by
  have before : (state.workers id).held =
      scheduled ::ₘ ↑((state.workers id).heap ++ [item]) := by
    rw [Worker.held, place, Multiset.cons_coe, Multiset.coe_eq_coe]
    change ((state.workers id).heap ++ (site.slot ++ [item])).Perm _
    rw [displaced]
    exact List.perm_middle
  have nothing : (state.workers id).unnumbered = 0 := by
    rw [Worker.unnumbered, place]
    rfl
  by_cases full : (state.workers id).QuotaReached scheduled.priority
  · rw [displace_refused full]
    have held : (state.workers id).held =
        scheduled ::ₘ (((state.workers id).fetchAdd initial).goto next).held := by
      rw [before, Worker.held, Worker.goto, slot, hand]
      rfl
    rw [lose_books (by rw [nothing, Worker.unnumbered, Worker.goto, unnumbered]; rfl)]
    exact .inr (.refuse (held_of_cons held))
  · rw [displace_accepted full]
    refine .inl (setWorker_books_of_eq ?_ ?_)
    · rw [before, Worker.held, Worker.goto, slot, hand]
      rfl
    · rw [nothing, Worker.unnumbered, Worker.goto, unnumbered]
      rfl

theorem pop_books {state : State} {id : WorkerId} {item : ScheduledItem}
    (place : (state.workers id).pc = .select)
    (earliest : Earliest ScheduledItem.deadline item (state.workers id).heap) :
    (state.setWorker id (((state.workers id).popped item).goto
      (.immediate item item.priority))).books = state.books := by
  refine setWorker_books_of_eq ?_ ?_
  · rw [Worker.held, Worker.held, place, Multiset.coe_eq_coe]
    change ((state.workers id).heap.erase item ++ [item]).Perm ((state.workers id).heap ++ [])
    rw [List.append_nil]
    exact (List.perm_append_singleton item _).trans earliest.perm.symm
  · rw [Worker.unnumbered, Worker.unnumbered, place]
    rfl

theorem complete_books {state : State} {id : WorkerId} {scheduled : ScheduledItem}
    (place : (state.workers id).pc = .complete scheduled) (room : Nat → Bool) :
    Books.Entry state.books none ({ state with
      completion := state.completion.complete scheduled.workItem room }.goto id .top).books := by
  have held : (state.workers id).held = scheduled ::ₘ ((state.workers id).goto .top).held := by
    rw [Worker.held, Worker.held, place, Multiset.cons_coe, Multiset.coe_eq_coe]
    change ((state.workers id).heap ++ [scheduled]).Perm
      (scheduled :: ((state.workers id).heap ++ []))
    rw [List.append_nil]
    exact List.perm_append_singleton scheduled _
  have unnumbered : ((state.workers id).goto .top).unnumbered = (state.workers id).unnumbered := by
    rw [Worker.unnumbered, Worker.unnumbered, place]
    rfl
  have shape : ({ state with
      completion := state.completion.complete scheduled.workItem room }.goto id .top).books =
      { state.books with
        held := ∑ other, (Function.update state.workers id
          ((state.workers id).goto .top) other).held
        completion := state.books.completion.complete scheduled.workItem room } := by
    simp only [goto, setWorker, books, Ledger.sum_update_of_eq unnumbered]
  rw [shape]
  exact .complete room (held_of_cons held)

/-- What one step of a worker can do. -/
inductive Moves (state : State) (id : WorkerId) : State → Prop where
  | readTotalLimit (place : (state.workers id).pc = .top) :
      Moves state id (state.setWorker id
        { state.workers id with
          totalLimit := state.controller.totalLimit id
          pc := .readPriorityLimits Priority.all })
  | readPriorityLimit (priority : Priority) (rest : List Priority)
      (place : (state.workers id).pc = .readPriorityLimits (priority :: rest)) :
      Moves state id (state.setWorker id
        { state.workers id with
          perPriorityLimit := (state.workers id).perPriorityLimit.set priority
            (state.controller.workerPriorityLimits id priority)
          pc := .readPriorityLimits rest })
  | storeBacklog (place : (state.workers id).pc = .drain []) :
      Moves state id (state.setWorker id
        { state.workers id with backlog := (state.workers id).totalCount, pc := .select })
  | goto (pc : Pc) (slot : pc.slot = (state.workers id).pc.slot)
      (hand : pc.hand = []) (hand' : (state.workers id).pc.hand = [])
      (unnumbered : pc.unnumbered = []) (unnumbered' : (state.workers id).pc.unnumbered = []) :
      Moves state id (state.goto id pc)
  | spin (hand : (state.workers id).pc.hand = []) : Moves state id state
  | receive (site : Site) (packet : Packet) (remaining : Channel Packet)
      (received : (state.inputQueues site.priority).tryRecv = .ok (packet, remaining))
      (room : ¬ (state.workers id).QuotaReached site.priority)
      (slot : site.slot = (state.workers id).pc.slot) (hand : (state.workers id).pc.hand = [])
      (unnumbered : (state.workers id).pc.unnumbered = []) :
      Moves state id (state.receive id site packet remaining)
  | prepare (site : Site) (packet : Packet) (ticket : Nat)
      (place : (state.workers id).pc = .received site packet ticket) :
      Moves state id (state.prepare id site packet)
  | push (site : Site) (item : ScheduledItem) (accepted refused : Pc)
      (place : (state.workers id).pc = .prepared site item)
      (keeps : (state.workers id).displaced = none)
      (resumes : Resumes site accepted) (resumes' : Resumes site refused) :
      Moves state id (state.push id item accepted refused)
  | displace (site : Site) (scheduled item : ScheduledItem) (initial : Priority) (next : Pc)
      (place : (state.workers id).pc = .prepared site item)
      (displaced : (state.workers id).displaced = some (scheduled, initial))
      (sited : site.slot = [scheduled])
      (slot : next.slot = [item]) (hand : next.hand = []) (unnumbered : next.unnumbered = []) :
      Moves state id (state.displace id scheduled initial next)
  | observe (scheduled : ScheduledItem) (start : Instant)
      (place : (state.workers id).pc = .busy scheduled start) :
      Moves state id ({ state with
        controller := state.controller.observeProcessingTime scheduled.priority
          (processingDuration scheduled.workItem.packet) }.goto id (.complete scheduled))

theorem Moves.walk {state : State} {id : WorkerId} {before pc : Pc}
    (place : (state.workers id).pc = before) (slot : pc.slot = before.slot) (quiet : pc.Quiet)
    (quiet' : before.Quiet) : Moves state id (state.goto id pc) := by
  subst place
  exact .goto pc slot quiet.hand quiet'.hand quiet.unnumbered quiet'.unnumbered

theorem Moves.take {state : State} {id : WorkerId} {before : Pc} {site : Site} {packet : Packet}
    {remaining : Channel Packet} (place : (state.workers id).pc = before)
    (received : (state.inputQueues site.priority).tryRecv = .ok (packet, remaining))
    (room : ¬ (state.workers id).QuotaReached site.priority) (slot : site.slot = before.slot)
    (quiet : before.Quiet) : Moves state id (state.receive id site packet remaining) := by
  subst place
  exact .receive site packet remaining received room slot quiet.hand quiet.unnumbered

theorem runWorker_moves {state next : State} {id : WorkerId}
    (stepped : state.runWorker id = some next) : Moves state id next := by
  cases place : (state.workers id).pc with
  | top =>
      simp only [runWorker, place, Option.some.injEq] at stepped
      subst stepped
      exact .readTotalLimit place
  | readPriorityLimits rest =>
      cases rest with
      | nil =>
          simp only [runWorker, place, Option.some.injEq] at stepped
          subst stepped
          exact .walk place rfl ⟨rfl, rfl⟩ ⟨rfl, rfl⟩
      | cons priority rest =>
          simp only [runWorker, place, Option.some.injEq] at stepped
          subst stepped
          exact .readPriorityLimit priority rest place
  | drain rest =>
      cases rest with
      | nil =>
          simp only [runWorker, place, Option.some.injEq] at stepped
          subst stepped
          exact .storeBacklog place
      | cons priority rest =>
          simp only [runWorker, place] at stepped
          split at stepped
          · cases stepped
            exact .walk place rfl ⟨rfl, rfl⟩ ⟨rfl, rfl⟩
          · rename_i room
            split at stepped
            · rename_i packet remaining received
              cases stepped
              exact .take place received room rfl ⟨rfl, rfl⟩
            · cases stepped
              exact .walk place rfl ⟨rfl, rfl⟩ ⟨rfl, rfl⟩
  | select =>
      simp only [runWorker, place] at stepped
      split at stepped
      · cases stepped
        exact .walk place rfl ⟨rfl, rfl⟩ ⟨rfl, rfl⟩
      · cases stepped
  | immediate scheduled initial =>
      simp only [runWorker, place] at stepped
      split at stepped <;> cases stepped <;>
        exact .walk place rfl ⟨rfl, rfl⟩ ⟨rfl, rfl⟩
  | poll scheduled initial =>
      simp only [runWorker, place] at stepped
      split at stepped
      · cases stepped
        exact .walk place rfl ⟨rfl, rfl⟩ ⟨rfl, rfl⟩
      · rename_i room
        split at stepped
        · rename_i packet remaining received
          cases stepped
          exact .take place received room rfl ⟨rfl, rfl⟩
        · cases stepped
          exact .walk place rfl ⟨rfl, rfl⟩ ⟨rfl, rfl⟩
  | guard scheduled initial =>
      simp only [runWorker, place] at stepped
      repeat' split at stepped
      all_goals
        cases stepped
        exact .walk place rfl ⟨rfl, rfl⟩ ⟨rfl, rfl⟩
  | guardLoop scheduled initial threshold elapsed =>
      simp only [runWorker, place] at stepped
      split at stepped <;> cases stepped <;>
        exact .walk place rfl ⟨rfl, rfl⟩ ⟨rfl, rfl⟩
  | guardSpin scheduled initial threshold deadline =>
      simp only [runWorker, place] at stepped
      split at stepped
      · split at stepped
        · cases stepped
          exact .walk place rfl ⟨rfl, rfl⟩ ⟨rfl, rfl⟩
        · rename_i room
          split at stepped
          · rename_i packet remaining received
            cases stepped
            exact .take place received room rfl ⟨rfl, rfl⟩
          · cases stepped
            exact .spin (congrArg Pc.hand place)
          · cases stepped
            exact .walk place rfl ⟨rfl, rfl⟩ ⟨rfl, rfl⟩
      · cases stepped
        exact .walk place rfl ⟨rfl, rfl⟩ ⟨rfl, rfl⟩
  | guardRecheck scheduled initial threshold =>
      simp only [runWorker, place] at stepped
      split at stepped <;> cases stepped <;>
        exact .walk place rfl ⟨rfl, rfl⟩ ⟨rfl, rfl⟩
  | received site packet ticket =>
      simp only [runWorker, place, Option.some.injEq] at stepped
      subst stepped
      exact .prepare site packet ticket place
  | prepared site item =>
      cases site with
      | drain priority rest =>
          simp only [runWorker, place, Option.some.injEq] at stepped
          subst stepped
          exact .push _ item _ _ place (by simp only [Worker.displaced, place]) ⟨rfl, rfl, rfl⟩
            ⟨rfl, rfl, rfl⟩
      | poll scheduled initial =>
          simp only [runWorker, place] at stepped
          split at stepped
          · rename_i earlier
            cases stepped
            exact .displace _ scheduled item initial _ place
              (by simp only [Worker.displaced, place, if_pos earlier]) rfl rfl rfl rfl
          · rename_i later
            cases stepped
            exact .push _ item _ _ place (by simp only [Worker.displaced, place, if_neg later])
              ⟨rfl, rfl, rfl⟩ ⟨rfl, rfl, rfl⟩
      | guard scheduled initial =>
          simp only [runWorker, place, Option.some.injEq] at stepped
          subst stepped
          exact .displace _ scheduled item initial _ place
            (by simp only [Worker.displaced, place]) rfl rfl rfl rfl
  | process scheduled =>
      simp only [runWorker, place, Option.some.injEq] at stepped
      subst stepped
      exact .walk place rfl ⟨rfl, rfl⟩ ⟨rfl, rfl⟩
  | busy scheduled start =>
      simp only [runWorker, place] at stepped
      split at stepped
      · cases stepped
        exact .spin (congrArg Pc.hand place)
      · cases stepped
        exact .observe scheduled start place
  | complete scheduled => simp [runWorker, place] at stepped

theorem moves_others {state next : State} {id : WorkerId} (moves : Moves state id next)
    {other : WorkerId} (different : other ≠ id) : next.workers other = state.workers other := by
  cases moves with
  | spin hand => rfl
  | push site item accepted refused place keeps resumes resumes' =>
      unfold push
      split <;> exact Function.update_of_ne different ..
  | displace site scheduled item initial next place displaced sited slot hand unnumbered =>
      unfold displace
      split <;> exact Function.update_of_ne different ..
  | _ => exact Function.update_of_ne different ..

end State

end EdfPipeline.MultiWorker
