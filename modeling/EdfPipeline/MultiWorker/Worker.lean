import EdfPipeline.MultiWorker.Completion
import EdfPipeline.MultiWorker.Controller
import EdfPipeline.Library.EarliestFirst

/-!
# Worker state

The locals of `run_worker` and the place in its loop where a worker is. A place
names the next access to something shared; local computation up to the access
after it belongs to the same step.
-/

set_option autoImplicit false

namespace EdfPipeline.MultiWorker

open EarliestFirst

structure ScheduledItem where
  deadline : Instant
  workItem : WorkItem
  deriving DecidableEq, Repr

abbrev ScheduledItem.priority (item : ScheduledItem) : Priority := item.workItem.priority

/-- The three places of the loop that admit a received packet. STEP 3 and STEP 4
hold the selected item and the class it was popped with. -/
inductive Site where
  | drain (priority : Priority) (rest : List Priority)
  | poll (scheduled : ScheduledItem) (initial : Priority)
  | guard (scheduled : ScheduledItem) (initial : Priority)
  deriving DecidableEq, Repr

def Site.priority : Site → Priority
  | .drain priority _ => priority
  | .poll .. | .guard .. => .high

/-- STEP 1 is at `drain`, with the classes still to be drained; STEP 2 at `select`;
STEP 3 at `immediate`, its test, and `poll`; STEP 4 from `guard` on; STEP 5 at
`process` and `busy`; STEP 6 at `complete`. At `received` a packet has no number
yet, and `ticket` records how many packets of its class were received before it;
at `prepared` it is about to be admitted. -/
inductive Pc where
  | top
  | readPriorityLimits (rest : List Priority)
  | drain (rest : List Priority)
  | select
  | immediate (scheduled : ScheduledItem) (initial : Priority)
  | poll (scheduled : ScheduledItem) (initial : Priority)
  | guard (scheduled : ScheduledItem) (initial : Priority)
  | guardLoop (scheduled : ScheduledItem) (initial : Priority) (threshold elapsed : Duration)
  | guardSpin (scheduled : ScheduledItem) (initial : Priority) (threshold : Duration)
      (deadline : Instant)
  | guardRecheck (scheduled : ScheduledItem) (initial : Priority) (threshold : Duration)
  | received (site : Site) (packet : Packet) (ticket : Nat)
  | prepared (site : Site) (item : ScheduledItem)
  | process (scheduled : ScheduledItem)
  | busy (scheduled : ScheduledItem) (start : Instant)
  | complete (scheduled : ScheduledItem)
  deriving DecidableEq, Repr

/-- `sharedPriorityCounters` and `backlog` are shared atomics that only this
worker writes; the former wrap like any machine word. -/
structure Worker where
  heap : List ScheduledItem
  counts : PriorityTable Nat
  totalCount : Nat
  totalLimit : Nat
  perPriorityLimit : PriorityTable Nat
  sharedPriorityCounters : PriorityTable Nat
  backlog : Nat
  pc : Pc

namespace Worker

def initial : Worker where
  heap := []
  counts := fun _ => 0
  totalCount := 0
  totalLimit := 0
  perPriorityLimit := fun _ => 0
  sharedPriorityCounters := fun _ => 0
  backlog := 0
  pc := .top

/-- The item the worker's next step puts back into the heap to run the one it
just received, with the class the iteration started with. -/
def displaced (worker : Worker) : Option (ScheduledItem × Priority) :=
  match worker.pc with
  | .prepared (.poll scheduled initial) item =>
      if item.deadline < scheduled.deadline then some (scheduled, initial) else none
  | .prepared (.guard scheduled initial) _ => some (scheduled, initial)
  | _ => none

def fetchAdd (worker : Worker) (priority : Priority) : Worker :=
  { worker with
    sharedPriorityCounters := worker.sharedPriorityCounters.set priority
      ((worker.sharedPriorityCounters priority + 1) % wordBound) }

def fetchSub (worker : Worker) (priority : Priority) : Worker :=
  { worker with
    sharedPriorityCounters := worker.sharedPriorityCounters.set priority
      ((worker.sharedPriorityCounters priority + (wordBound - 1)) % wordBound) }

/-- Push unless a quota is exhausted. The item is moved in, so a refused item is
gone for the caller too. -/
def pushWithCapacity (worker : Worker) (item : ScheduledItem) : Bool × Worker :=
  let priority := item.priority
  let limitForPriority := worker.perPriorityLimit priority
  if limitForPriority = 0 then (false, worker)
  else if worker.totalCount ≥ worker.totalLimit ∨ worker.counts priority ≥ limitForPriority then
    (false, worker)
  else
    (true, { worker with
      heap := item :: worker.heap
      counts := worker.counts.set priority (worker.counts priority + 1)
      totalCount := worker.totalCount + 1 })

def QuotaReached (worker : Worker) (priority : Priority) : Prop :=
  worker.counts priority ≥ worker.perPriorityLimit priority ∨ worker.totalCount ≥ worker.totalLimit

instance (worker : Worker) (priority : Priority) : Decidable (worker.QuotaReached priority) :=
  inferInstanceAs (Decidable (_ ∨ _))

def pushed (worker : Worker) (item : ScheduledItem) : Worker :=
  { worker with
    heap := item :: worker.heap
    counts := worker.counts.set item.priority (worker.counts item.priority + 1)
    totalCount := worker.totalCount + 1 }

theorem pushWithCapacity_eq (worker : Worker) (item : ScheduledItem) :
    worker.pushWithCapacity item =
      if worker.QuotaReached item.priority then (false, worker) else (true, worker.pushed item) := by
  by_cases reached : worker.QuotaReached item.priority
  · have refused : worker.totalCount ≥ worker.totalLimit ∨
        worker.counts item.priority ≥ worker.perPriorityLimit item.priority := reached.symm
    simp [pushWithCapacity, reached, refused]
  · have open_quota := not_or.mp reached
    have positive : worker.perPriorityLimit item.priority ≠ 0 := by omega
    have room : ¬ (worker.totalCount ≥ worker.totalLimit ∨
        worker.counts item.priority ≥ worker.perPriorityLimit item.priority) :=
      fun refused => reached refused.symm
    simp [pushWithCapacity, pushed, positive, room, reached]

def popped (worker : Worker) (item : ScheduledItem) : Worker :=
  ({ worker with
    heap := worker.heap.erase item
    counts := worker.counts.set item.priority (worker.counts item.priority - 1)
    totalCount := worker.totalCount - 1 }).fetchSub item.priority

def goto (worker : Worker) (pc : Pc) : Worker := { worker with pc }

/-- Requeue a displaced item: whether it was requeued, and the worker after the
shared counter of `initial` was raised. -/
def requeue (worker : Worker) (scheduled : ScheduledItem) (initial : Priority) : Bool × Worker :=
  let (requeued, worker) := worker.pushWithCapacity scheduled
  (requeued, worker.fetchAdd initial)

end Worker

end EdfPipeline.MultiWorker
