import EdfPipeline.Channel
import EdfPipeline.Library.ReorderBuffer

/-!
# Completion routing

The sequence trackers of the multi-worker scheduler. Each class numbers its
packets when a worker takes them and hands them to its output channel in the
order of the numbers. `complete` runs under the tracker's mutex, so it is one
step; `assign_sequence` is one atomic addition.
-/

set_option autoImplicit false

namespace EdfPipeline.MultiWorker

open ReorderBuffer

structure WorkItem where
  priority : Priority
  sequence : Nat
  packet : Packet
  deriving DecidableEq, Repr

structure SequenceInner where
  nextEmit : Nat
  pending : Pending Packet

structure SequenceTracker where
  nextSequence : Nat
  inner : SequenceInner

namespace SequenceTracker

def new : SequenceTracker where
  nextSequence := 0
  inner := { nextEmit := 0, pending := ∅ }

/-- Atomic fetch-and-add: the number drawn, and the tracker afterwards. -/
def assignSequence (tracker : SequenceTracker) : Nat × SequenceTracker :=
  (tracker.nextSequence, { tracker with nextSequence := tracker.nextSequence + 1 })

/-- The loop that emits consecutive pending packets. Every turn removes one
entry, so as much fuel as there are entries lets it run to its end. -/
def emitConsecutive (room : Nat → Bool) :
    Nat → Nat → Pending Packet → OutputQueue → SequenceInner × OutputQueue
  | 0, nextEmit, pending, output => ({ nextEmit, pending }, output)
  | fuel + 1, nextEmit, pending, output =>
      match pending.lookup nextEmit with
      | none => ({ nextEmit, pending }, output)
      | some nextPacket =>
          emitConsecutive room fuel (nextEmit + 1) (pending.erase nextEmit)
            (output.trySend room nextPacket)

def complete (tracker : SequenceTracker) (sequence : Nat) (packet : Packet)
    (room : Nat → Bool) (output : OutputQueue) : SequenceTracker × OutputQueue :=
  if sequence = tracker.inner.nextEmit then
    let (inner, output) := emitConsecutive room tracker.inner.pending.entries.length
      (tracker.inner.nextEmit + 1) tracker.inner.pending (output.trySend room packet)
    ({ tracker with inner }, output)
  else
    ({ tracker with inner := { tracker.inner with
        pending := tracker.inner.pending.insert sequence packet } }, output)

/-- The tracker's mutex-protected part, as a reorder buffer. -/
def buffer (tracker : SequenceTracker) : Buffer Packet where
  nextEmit := tracker.inner.nextEmit
  pending := tracker.inner.pending

theorem emitConsecutive_eq_release (room : Nat → Bool) (fuel nextEmit : Nat)
    (pending : Pending Packet) (output : OutputQueue) :
    (emitConsecutive room fuel nextEmit pending output).1.nextEmit =
        (release fuel nextEmit pending).2.1 ∧
      (emitConsecutive room fuel nextEmit pending output).1.pending =
        (release fuel nextEmit pending).2.2 ∧
      (emitConsecutive room fuel nextEmit pending output).2.handed =
        output.handed ++ (release fuel nextEmit pending).1 := by
  induction fuel generalizing nextEmit pending output with
  | zero => exact ⟨rfl, rfl, (List.append_nil _).symm⟩
  | succ fuel ih =>
      cases found : pending.lookup nextEmit with
      | none =>
          rw [release_gap found]
          simp only [emitConsecutive, found, List.append_nil, and_self]
      | some packet =>
          obtain ⟨next, rest, handed⟩ :=
            ih (nextEmit + 1) (pending.erase nextEmit) (output.trySend room packet)
          rw [release_found found]
          simp only [emitConsecutive, found]
          refine ⟨next, rest, ?_⟩
          rw [handed, OutputQueue.handed_trySend, List.append_assoc]
          rfl

/-- The tracker is a reorder buffer whose released packets go to `send_packet`. -/
theorem complete_refines (tracker : SequenceTracker) (sequence : Nat) (packet : Packet)
    (room : Nat → Bool) (output : OutputQueue) :
    (tracker.complete sequence packet room output).1.buffer =
        (tracker.buffer.complete sequence packet).2 ∧
      (tracker.complete sequence packet room output).2.handed =
        output.handed ++ (tracker.buffer.complete sequence packet).1 := by
  by_cases due : sequence = tracker.inner.nextEmit
  · obtain ⟨next, rest, handed⟩ := emitConsecutive_eq_release room
      tracker.inner.pending.entries.length (tracker.inner.nextEmit + 1) tracker.inner.pending
      (output.trySend room packet)
    simp only [complete, Buffer.complete, buffer, due, ↓reduceIte]
    refine ⟨?_, ?_⟩
    · rw [next, rest]
    · rw [handed, OutputQueue.handed_trySend, List.append_assoc]
      rfl
  · simp [complete, Buffer.complete, buffer, due]

@[simp] theorem complete_nextSequence (tracker : SequenceTracker) (sequence : Nat)
    (packet : Packet) (room : Nat → Bool) (output : OutputQueue) :
    (tracker.complete sequence packet room output).1.nextSequence = tracker.nextSequence := by
  unfold complete
  split <;> rfl

theorem emitConsecutive_counted (room : Nat → Bool) (fuel nextEmit : Nat)
    (pending : Pending Packet) {output : OutputQueue} (counted : output.Counted) :
    (emitConsecutive room fuel nextEmit pending output).2.Counted := by
  induction fuel generalizing nextEmit pending output with
  | zero => exact counted
  | succ fuel ih =>
      unfold emitConsecutive
      split
      · exact counted
      · exact ih _ _ (counted.trySend room _)

theorem complete_counted (tracker : SequenceTracker) (sequence : Nat) (packet : Packet)
    (room : Nat → Bool) {output : OutputQueue} (counted : output.Counted) :
    (tracker.complete sequence packet room output).2.Counted := by
  unfold complete
  split
  · exact emitConsecutive_counted room _ _ _ (counted.trySend room packet)
  · exact counted

end SequenceTracker

structure CompletionRouter where
  trackers : PriorityTable SequenceTracker
  outputQueues : PriorityTable OutputQueue

namespace CompletionRouter

def new : CompletionRouter where
  trackers := fun _ => .new
  outputQueues := fun _ => .initial

def complete (router : CompletionRouter) (workItem : WorkItem) (room : Nat → Bool) :
    CompletionRouter :=
  let (tracker, output) := (router.trackers workItem.priority).complete workItem.sequence
    workItem.packet room (router.outputQueues workItem.priority)
  { trackers := router.trackers.set workItem.priority tracker
    outputQueues := router.outputQueues.set workItem.priority output }

def prepare (router : CompletionRouter) (priority : Priority) (packet : Packet) :
    WorkItem × CompletionRouter :=
  let (sequence, tracker) := (router.trackers priority).assignSequence
  ({ priority, sequence, packet }, { router with trackers := router.trackers.set priority tracker })

end CompletionRouter

end EdfPipeline.MultiWorker
