import EdfPipeline.Cedf.System

/-!
# Choosing a worker

`find_best_worker` keeps the first queue of the highest score. The score counts
the slack in whole milliseconds from the stored completion estimate, so it may
pass over a worker that would finish the task earlier: when two slacks fall in
the same millisecond, and when an estimate has fallen behind the clock.
-/

set_option autoImplicit false

namespace EdfPipeline.Cedf

open EarliestFirst

def WorkerQueue.score (queue : WorkerQueue) (task : QueuedTask) : Int :=
  Scan.score task queue.estimatedCompletion queue.depth

def scanWorkers (task : QueuedTask) (workerQueues : List WorkerQueue) : Scan :=
  workerQueues.zipIdx.foldl (fun scan entry => scan.keep entry.2 (entry.1.score task)) .initial

/-- The clock is passed in and not used. -/
def findBestWorker (task : QueuedTask) (workerQueues : List WorkerQueue) (_now : Instant) : Nat :=
  (scanWorkers task workerQueues).bestWorker

/-- When the task would be finished if the worker took it now. -/
def effectiveFinish (task : QueuedTask) (now : Instant) (queue : WorkerQueue) : Instant :=
  max now queue.estimatedCompletion + task.estimatedProcessing

structure Dominates (task : QueuedTask) (now : Instant) (other chosen : WorkerQueue) : Prop where
  depth : other.depth ≤ chosen.depth
  finish : effectiveFinish task now other ≤ effectiveFinish task now chosen
  better : other.depth < chosen.depth ∨
    effectiveFinish task now other < effectiveFinish task now chosen

def NeverDominated (task : QueuedTask) (workerQueues : List WorkerQueue) (now : Instant) : Prop :=
  ∃ chosen, workerQueues[findBestWorker task workerQueues now]? = some chosen ∧
    ∀ other ∈ workerQueues, ¬ Dominates task now other chosen

/-! ## The queue the scan settles on -/

/-- The stored estimate, or the latest start if the estimate is later, put off by
one second for each queued task. -/
def WorkerQueue.weighedStart (queue : WorkerQueue) (task : QueuedTask) : Int :=
  min (queue.estimatedCompletion : Int) task.latestStart + queue.depth * 1000000000

/-- A whole number of milliseconds before the latest start falls between the two
queues, or on the first one. -/
def Ahead (task : QueuedTask) (front back : WorkerQueue) : Prop :=
  ∃ millis : Int, front.weighedStart task + millis * 1000000 ≤ task.latestStart ∧
    task.latestStart < back.weighedStart task + millis * 1000000

/-- No queue is ahead, and the ones listed before are all behind. -/
def Foremost (task : QueuedTask) (workerQueues : List WorkerQueue) (queue : WorkerQueue)
    (index : Nat) : Prop :=
  ∀ other position, workerQueues[position]? = some other →
    ¬ Ahead task other queue ∧ (position < index → Ahead task queue other)

/-- A foremost queue that is busy is the first to end among those of its depth, and
one that is idle has no more queued than the other idle ones. -/
def ForemostFirst (task : QueuedTask) (workerQueues : List WorkerQueue) (now : Instant) : Prop :=
  ∀ queue index, workerQueues[index]? = some queue → Foremost task workerQueues queue index →
    (now < queue.estimatedCompletion → ∀ other ∈ workerQueues, other.depth = queue.depth →
      queue.estimatedCompletion ≤ other.estimatedCompletion) ∧
    (queue.estimatedCompletion ≤ now → ∀ other ∈ workerQueues,
      other.estimatedCompletion ≤ now → queue.depth ≤ other.depth)

/-! ## The scan -/

theorem WorkerQueue.score_eq (queue : WorkerQueue) (task : QueuedTask) :
    queue.score task =
      (((task.deadline - (queue.estimatedCompletion + task.estimatedProcessing)) / 1000000 : Nat) :
        Int) - queue.depth * 1000 := rfl

theorem floored_slack (deadline processing completion depth : Nat) :
    (((deadline - (completion + processing)) / 1000000 : Nat) : Int) - depth * 1000 =
      ((deadline - processing : Int) -
        (min (completion : Int) (deadline - processing) + depth * 1000000000)) / 1000000 := by
  omega

/-- The score counts the whole milliseconds from the weighed start to the latest one. -/
theorem WorkerQueue.score_eq_floor (queue : WorkerQueue) (task : QueuedTask) :
    queue.score task = (task.latestStart - queue.weighedStart task) / 1000000 := by
  rw [score_eq]
  exact floored_slack task.deadline task.estimatedProcessing queue.estimatedCompletion queue.depth

theorem ahead_iff {task : QueuedTask} {front back : WorkerQueue} :
    Ahead task front back ↔ back.score task < front.score task := by
  rw [front.score_eq_floor, back.score_eq_floor]
  constructor
  · rintro ⟨millis, before, after⟩
    omega
  · intro higher
    refine ⟨(task.latestStart - front.weighedStart task) / 1000000, ?_, ?_⟩
    · omega
    · omega

def Scan.ofBest : Option ((WorkerQueue × Nat) × Int) → Scan
  | none => .initial
  | some (entry, penalty) => { bestWorker := entry.2, bestScore := -penalty }

/-- No product of a depth with 1000 overflows. -/
def DepthsFit (workerQueues : List WorkerQueue) : Prop :=
  ∀ queue ∈ workerQueues, queue.depth * 1000 < 2 ^ 63

theorem keep_ofBest {task : QueuedTask} {entry : WorkerQueue × Nat}
    (fits : entry.1.depth * 1000 < 2 ^ 63) (best : Option ((WorkerQueue × Nat) × Int)) :
    (Scan.ofBest best).keep entry.2 (entry.1.score task) =
      Scan.ofBest (keepLeast (fun entry => some (-entry.1.score task)) best entry) := by
  have replaced : Scan.ofBest (some (entry, -entry.1.score task)) =
      { bestWorker := entry.2, bestScore := entry.1.score task } := by
    rw [Scan.ofBest, Int.neg_neg]
  cases best with
  | none =>
      have above : entry.1.score task > (Scan.ofBest none).bestScore := by
        rw [WorkerQueue.score_eq]
        change _ > (-2 ^ 63 : Int)
        omega
      exact (if_pos above).trans replaced.symm
  | some kept =>
      by_cases better : -entry.1.score task < kept.2
      · have above : entry.1.score task > (Scan.ofBest (some kept)).bestScore := by
          change _ > -kept.2
          omega
        have taken : keepLeast (fun entry => some (-entry.1.score task)) (some kept) entry =
            some (entry, -entry.1.score task) := if_pos better
        rw [taken]
        exact (if_pos above).trans replaced.symm
      · have below : ¬ entry.1.score task > (Scan.ofBest (some kept)).bestScore := by
          change ¬ _ > -kept.2
          omega
        have passed : keepLeast (fun entry => some (-entry.1.score task)) (some kept) entry =
            some kept := if_neg better
        rw [passed]
        exact if_neg below

theorem foldl_keep {task : QueuedTask} {entries : List (WorkerQueue × Nat)}
    (fits : ∀ entry ∈ entries, entry.1.depth * 1000 < 2 ^ 63)
    (best : Option ((WorkerQueue × Nat) × Int)) :
    entries.foldl (fun scan entry => scan.keep entry.2 (entry.1.score task)) (Scan.ofBest best) =
      Scan.ofBest (entries.foldl (keepLeast fun entry => some (-entry.1.score task)) best) := by
  induction entries generalizing best with
  | nil => rfl
  | cons entry rest ih =>
      rw [List.foldl_cons, List.foldl_cons, keep_ofBest (fits entry List.mem_cons_self)]
      exact ih (fun other member => fits other (List.mem_cons_of_mem _ member)) _

theorem zipIdx_ordered (workerQueues : List WorkerQueue) :
    workerQueues.zipIdx.Pairwise fun entry later => entry.2 < later.2 := by
  have indices : (workerQueues.zipIdx.map Prod.snd).Pairwise (· < ·) := by
    rw [List.zipIdx_map_snd]
    exact List.pairwise_lt_range' ..
  exact List.pairwise_map.mp indices

/-- The scan ends at a foremost queue. -/
theorem findBestWorker_foremost (task : QueuedTask) {workerQueues : List WorkerQueue}
    (nonempty : workerQueues ≠ []) (fits : DepthsFit workerQueues) (now : Instant) :
    ∃ chosen, workerQueues[findBestWorker task workerQueues now]? = some chosen ∧
      Foremost task workerQueues chosen (findBestWorker task workerQueues now) := by
  have scanned : scanWorkers task workerQueues = Scan.ofBest
      (workerQueues.zipIdx.foldl (keepLeast fun entry => some (-entry.1.score task)) none) :=
    foldl_keep (fun entry member => fits entry.1 (List.fst_mem_of_mem_zipIdx member)) none
  have first := foldl_keepLeast (fun entry : WorkerQueue × Nat => some (-entry.1.score task))
    (zipIdx_ordered workerQueues)
  rw [findBestWorker, scanned]
  cases found : workerQueues.zipIdx.foldl
      (keepLeast fun entry => some (-entry.1.score task)) none with
  | none =>
      rw [found] at first
      obtain ⟨queue, rest, rfl⟩ := List.exists_cons_of_ne_nil nonempty
      cases first (queue, 0) (by simp [List.zipIdx_cons])
  | some best =>
      obtain ⟨⟨chosen, index⟩, penalty⟩ := best
      rw [found] at first
      obtain ⟨member, held, least⟩ := first
      cases held
      refine ⟨chosen, List.mk_mem_zipIdx_iff_getElem?.mp member, ?_⟩
      intro other position present
      have compared := least (other, position) (List.mk_mem_zipIdx_iff_getElem?.mpr present) _ rfl
      rw [ahead_iff, ahead_iff]
      change ¬ chosen.score task < other.score task ∧
        (position < index → other.score task < chosen.score task)
      simp only [Prod.mk.injEq] at compared
      omega

/-- Only one queue is foremost. -/
theorem index_eq_of_foremost {task : QueuedTask} {workerQueues : List WorkerQueue}
    {queue other : WorkerQueue} {index position : Nat}
    (present : workerQueues[index]? = some queue) (present' : workerQueues[position]? = some other)
    (foremost : Foremost task workerQueues queue index)
    (foremost' : Foremost task workerQueues other position) : index = position := by
  obtain ⟨notAhead, passed⟩ := foremost other position present'
  obtain ⟨notAhead', passed'⟩ := foremost' queue index present
  rcases Nat.lt_trichotomy index position with before | same | after
  · exact absurd (passed' before) notAhead
  · exact same
  · exact absurd (passed after) notAhead'

/-! ## When a dominated worker is chosen -/

theorem finish_lt_iff {now early late processing : Nat} :
    max now early + processing < max now late + processing ↔ now < late ∧ early < late := by
  omega

theorem finish_le_iff {now early late processing : Nat} :
    max now early + processing ≤ max now late + processing ↔ early ≤ late ∨ early ≤ now := by
  omega

theorem slack_antitone {early late deadline processing : Nat} (earlier : early ≤ late) :
    (deadline - (late + processing)) / 1000000 ≤ (deadline - (early + processing)) / 1000000 :=
  Nat.div_le_div_right (by omega)

theorem penalty_lt {slack slack' depth depth' : Nat} (less : slack ≤ slack') (deeper : depth' < depth) :
    (slack : Int) - depth * 1000 < slack' - depth' * 1000 := by
  omega

/-- An earlier estimate and fewer tasks put a queue ahead. -/
theorem ahead_of_shallower {task : QueuedTask} {front back : WorkerQueue}
    (earlier : front.estimatedCompletion ≤ back.estimatedCompletion)
    (shallower : front.depth < back.depth) : Ahead task front back := by
  rw [ahead_iff, front.score_eq, back.score_eq]
  exact penalty_lt (slack_antitone earlier) shallower

/-- A busy worker that no queue is ahead of is dominated only at equal depth. -/
theorem dominates_busy_iff {task : QueuedTask} {now : Instant} {other queue : WorkerQueue}
    (busy : now < queue.estimatedCompletion) (notAhead : ¬ Ahead task other queue) :
    Dominates task now other queue ↔
      other.depth = queue.depth ∧ other.estimatedCompletion < queue.estimatedCompletion := by
  constructor
  · intro dominates
    have earlier : other.estimatedCompletion ≤ queue.estimatedCompletion :=
      (finish_le_iff.mp dominates.finish).elim id fun idle => idle.trans busy.le
    have deep : ¬ other.depth < queue.depth :=
      fun shallower => notAhead (ahead_of_shallower earlier shallower)
    have sooner := (finish_lt_iff.mp (dominates.better.resolve_left deep)).2
    exact ⟨le_antisymm dominates.depth (Nat.le_of_not_lt deep), sooner⟩
  · rintro ⟨depth, earlier⟩
    exact ⟨depth.le, finish_le_iff.mpr (.inl earlier.le), .inr (finish_lt_iff.mpr ⟨busy, earlier⟩)⟩

/-- An idle worker is dominated only by one that is idle too and has less queued. -/
theorem dominates_idle_iff {task : QueuedTask} {now : Instant} {other queue : WorkerQueue}
    (idle : queue.estimatedCompletion ≤ now) :
    Dominates task now other queue ↔
      other.estimatedCompletion ≤ now ∧ other.depth < queue.depth := by
  constructor
  · intro dominates
    have idle' : other.estimatedCompletion ≤ now :=
      (finish_le_iff.mp dominates.finish).elim (fun earlier => earlier.trans idle) id
    refine ⟨idle', dominates.better.resolve_right ?_⟩
    intro sooner
    exact (finish_lt_iff.mp sooner).1.not_ge idle
  · rintro ⟨idle', shallower⟩
    exact ⟨shallower.le, finish_le_iff.mpr (.inr idle'), .inl shallower⟩

theorem Scan.keep_bestWorker_lt {scan : Scan} {bound index : Nat} (score : Int)
    (within : scan.bestWorker < bound) (next : index < bound) :
    (scan.keep index score).bestWorker < bound := by
  unfold Scan.keep
  split
  · exact next
  · exact within

theorem foldl_keep_lt {task : QueuedTask} {entries : List (WorkerQueue × Nat)} {bound : Nat}
    (indices : ∀ entry ∈ entries, entry.2 < bound) {scan : Scan} (within : scan.bestWorker < bound) :
    (entries.foldl (fun scan entry => scan.keep entry.2 (entry.1.score task)) scan).bestWorker <
      bound := by
  induction entries generalizing scan with
  | nil => exact within
  | cons entry rest ih =>
      apply ih fun other member => indices other (List.mem_cons_of_mem _ member)
      exact Scan.keep_bestWorker_lt _ within (indices entry List.mem_cons_self)

/-- A queue of the list is chosen, whatever the scores. -/
theorem findBestWorker_lt (task : QueuedTask) {workerQueues : List WorkerQueue}
    (nonempty : workerQueues ≠ []) (now : Instant) :
    findBestWorker task workerQueues now < workerQueues.length := by
  exact foldl_keep_lt (fun entry member => List.snd_lt_of_mem_zipIdx member)
    (List.length_pos_of_ne_nil nonempty)

theorem scanWorkers_take_succ (task : QueuedTask) {workerQueues : List WorkerQueue} {index : Nat}
    (within : index < workerQueues.length) :
    scanWorkers task (workerQueues.take (index + 1)) =
      (scanWorkers task (workerQueues.take index)).keep index
        (workerQueues[index].score task) := by
  rw [scanWorkers, List.take_succ_eq_append_getElem within, List.zipIdx_append, List.foldl_append,
    List.length_take_of_le within.le, List.zipIdx_singleton, Nat.zero_add]
  rfl

namespace State

variable {n : Nat}

/-- A step of the dispatcher within its iteration. -/
abbrev Dispatches (state next : State n) : Prop :=
  state.dispatcher ≠ .top ∧ state.step .dispatch = some next

def withDispatcher (state : State n) (dispatcher : DispatcherPc) : State n :=
  { state with dispatcher }

/-- The dispatcher scans the first queues. -/
theorem dispatch_scan (state : State n) (now : Instant) (task : QueuedTask) {index : Nat}
    (within : index ≤ n) :
    Relation.ReflTransGen Dispatches (state.withDispatcher (.completion now task .initial 0))
      (state.withDispatcher (.completion now task
        (scanWorkers task ((List.ofFn state.queues).take index)) index)) := by
  induction index with
  | zero => exact .refl
  | succ index ih =>
      have place : index < n := within
      have listed : index < (List.ofFn state.queues).length := by rwa [List.length_ofFn]
      let scan := scanWorkers task ((List.ofFn state.queues).take index)
      let completion := (state.queues ⟨index, place⟩).estimatedCompletion
      have read : Dispatches (state.withDispatcher (.completion now task scan index))
          (state.withDispatcher (.depth now task scan index completion)) := by
        refine ⟨by simp [withDispatcher], ?_⟩
        simp only [step, dispatch, withDispatcher, dif_pos place, completion]
      have kept : Dispatches (state.withDispatcher (.depth now task scan index completion))
          (state.withDispatcher (.completion now task
            (scanWorkers task ((List.ofFn state.queues).take (index + 1))) (index + 1))) := by
        refine ⟨by simp [withDispatcher], ?_⟩
        simp only [step, dispatch, withDispatcher, dif_pos place,
          scanWorkers_take_succ task listed, List.getElem_ofFn]
        rfl
      exact ((ih place.le).tail read).tail kept

/-- The dispatcher gives a task to the worker `find_best_worker` returns. -/
theorem dispatch_assigns (state : State (n + 1)) (now : Instant) (task : QueuedTask) :
    ∃ chosen : Fin (n + 1), chosen.val = findBestWorker task (List.ofFn state.queues) now ∧
      Relation.ReflTransGen Dispatches (state.withDispatcher (.completion now task .initial 0))
        ((state.setQueue chosen ((state.queues chosen).push task)).withDispatcher
          (.after now task.priority)) := by
  have nonempty : List.ofFn state.queues ≠ [] := by simp
  have within := findBestWorker_lt task nonempty now
  rw [List.length_ofFn] at within
  refine ⟨⟨_, within⟩, rfl, (dispatch_scan state now task le_rfl).tail ⟨by simp [withDispatcher], ?_⟩⟩
  have whole : (List.ofFn state.queues).take (n + 1) = List.ofFn state.queues :=
    List.take_of_length_le (by rw [List.length_ofFn])
  have chosen : (scanWorkers task (List.ofFn state.queues)).bestWorker < n + 1 := within
  simp only [step, dispatch, withDispatcher, whole, lt_irrefl, ↓reduceDIte, dif_pos chosen]
  rfl

end State

/-! ## A busy worker and an idle one

A High task with a budget of 1 ms: the first worker is busy for another 0.9 ms,
the second one is idle, and both leave less than a millisecond of slack.
-/

def urgentTask : QueuedTask :=
  .of .high (Packet.fromBuffer 0 0 .high [] (Duration.fromMillis 1)) 0

def busyAndIdle : List WorkerQueue :=
  [{ heap := [], estimatedCompletion := Duration.fromMicros 900 },
    { heap := [], estimatedCompletion := 0 }]

end EdfPipeline.Cedf
