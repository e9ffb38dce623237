import EdfPipeline.MultiWorker.Completion
import Mathlib.Data.List.Induction

/-!
# The order a tracker restores

Distinct sequence numbers complete in any order, each with its own packet. After
any of the completions the tracker has handed out the packets of the longest
complete range of numbers from zero on, in increasing order, and holds the rest.
-/

set_option autoImplicit false

namespace EdfPipeline.MultiWorker

open ReorderBuffer

/-- The completions of `order`, one call after the other, with the packet of
each number and what the channel answers to each send. -/
def SequenceTracker.completeAll (packetOf : Nat → Packet) (room : Nat → Bool) (order : List Nat) :
    SequenceTracker × OutputQueue :=
  order.foldl (fun reached sequence =>
    reached.1.complete sequence (packetOf sequence) room reached.2) (.new, .initial)

/-- What the tracker and its channel owe to the completions so far. -/
structure Reordered (packetOf : Nat → Packet) (completed : List Nat) (tracker : SequenceTracker)
    (output : OutputQueue) : Prop where
  least : IsLeast {sequence | sequence ∉ completed} tracker.inner.nextEmit
  handed : output.handed = (List.range tracker.inner.nextEmit).map packetOf
  pending : ∀ sequence packet, tracker.inner.pending.lookup sequence = some packet ↔
    tracker.inner.nextEmit < sequence ∧ sequence ∈ completed ∧ packet = packetOf sequence
  sentOrDropped : output.handed.Perm (output.sent ++ output.dropped)
  counted : output.dropCounter = output.dropped.length

/-- The packets of the numbers below `bound`, as items issued in that order. -/
def issuedBelow (packetOf : Nat → Packet) (bound : Nat) : List Packet :=
  (List.range bound).map packetOf

/-- The numbers of a list, each paired with its packet. -/
def numbered (packetOf : Nat → Packet) (sequences : List Nat) : Multiset (Nat × Packet) :=
  ↑(sequences.map fun sequence => (sequence, packetOf sequence))

theorem numbered_append_singleton (packetOf : Nat → Packet) (sequences : List Nat) (sequence : Nat) :
    numbered packetOf (sequences ++ [sequence]) =
      (sequence, packetOf sequence) ::ₘ numbered packetOf sequences := by
  rw [numbered, List.map_append, ← Multiset.coe_add, Multiset.add_comm]
  rfl

theorem mem_numbered {packetOf : Nat → Packet} {sequences : List Nat} {sequence : Nat}
    {packet : Packet} :
    (sequence, packet) ∈ numbered packetOf sequences ↔
      sequence ∈ sequences ∧ packet = packetOf sequence := by
  rw [numbered, Multiset.mem_coe, List.mem_map]
  constructor
  · rintro ⟨other, member, same⟩
    cases same
    exact ⟨member, rfl⟩
  · rintro ⟨member, rfl⟩
    exact ⟨sequence, member, rfl⟩

theorem map_fst_numbered (packetOf : Nat → Packet) (sequences : List Nat) :
    (numbered packetOf sequences).map Prod.fst = sequences := by
  simp [numbered, Function.comp_def]

theorem stamped_issuedBelow (packetOf : Nat → Packet) (bound : Nat) :
    stamped (issuedBelow packetOf bound) = numbered packetOf (List.range bound) := by
  induction bound with
  | zero => rfl
  | succ bound ih =>
      have grown : issuedBelow packetOf (bound + 1) = issuedBelow packetOf bound ++ [packetOf bound] := by
        simp [issuedBelow, List.range_succ]
      have size : (issuedBelow packetOf bound).length = bound := by simp [issuedBelow]
      rw [grown, stamped_append_singleton, ih, size, List.range_succ, numbered_append_singleton]

/-- The tracker as a reorder buffer for the packets below `bound`. -/
structure Tracked (packetOf : Nat → Packet) (bound : Nat) (completed : List Nat)
    (outstanding : Multiset (Nat × Packet)) (tracker : SequenceTracker) (output : OutputQueue) :
    Prop where
  accounts : tracker.buffer.Accounts (issuedBelow packetOf bound) outstanding
  split : stamped (issuedBelow packetOf bound) = numbered packetOf completed + outstanding
  handed : output.handed = (issuedBelow packetOf bound).take tracker.inner.nextEmit
  counted : output.Counted

theorem Tracked.initial (packetOf : Nat → Packet) (bound : Nat) :
    Tracked packetOf bound [] (stamped (issuedBelow packetOf bound)) .new .initial where
  accounts := Buffer.accounts_outstanding _
  split := (Multiset.zero_add _).symm
  handed := rfl
  counted := OutputQueue.counted_initial

theorem Tracked.complete {packetOf : Nat → Packet} {bound : Nat} {completed : List Nat}
    {outstanding : Multiset (Nat × Packet)} {tracker : SequenceTracker} {output : OutputQueue}
    (tracked : Tracked packetOf bound completed outstanding tracker output) {sequence : Nat}
    (fresh : sequence ∉ completed) (below : sequence < bound) (room : Nat → Bool) :
    ∃ rest, Tracked packetOf bound (completed ++ [sequence]) rest
      (tracker.complete sequence (packetOf sequence) room output).1
      (tracker.complete sequence (packetOf sequence) room output).2 := by
  have issued : (sequence, packetOf sequence) ∈ stamped (issuedBelow packetOf bound) := by
    rw [stamped_issuedBelow]
    exact mem_numbered.mpr ⟨List.mem_range.mpr below, rfl⟩
  rw [tracked.split] at issued
  have waiting : (sequence, packetOf sequence) ∈ outstanding := by
    rcases Multiset.mem_add.mp issued with earlier | waiting
    · exact absurd (mem_numbered.mp earlier).1 fresh
    · exact waiting
  obtain ⟨rest, rfl⟩ := Multiset.exists_cons_of_mem waiting
  obtain ⟨accounts, emitted⟩ := tracked.accounts.complete
  obtain ⟨refined, handed⟩ := tracker.complete_refines sequence (packetOf sequence) room output
  refine ⟨rest, ?_, ?_, ?_, tracker.complete_counted sequence _ room tracked.counted⟩
  · rw [refined]
    exact accounts
  · rw [tracked.split, numbered_append_singleton, Multiset.cons_add, Multiset.add_cons]
  · have next : (tracker.complete sequence (packetOf sequence) room output).1.inner.nextEmit =
        (tracker.buffer.complete sequence (packetOf sequence)).2.nextEmit :=
      congrArg Buffer.nextEmit refined
    rw [handed, next, emitted, tracked.handed]
    rfl

theorem Tracked.completeAll (packetOf : Nat → Packet) (room : Nat → Bool) {bound : Nat}
    {order : List Nat} (distinct : order.Nodup) (below : ∀ sequence ∈ order, sequence < bound) :
    ∃ outstanding, Tracked packetOf bound order outstanding
      (SequenceTracker.completeAll packetOf room order).1
      (SequenceTracker.completeAll packetOf room order).2 := by
  induction order using List.reverseRecOn with
  | nil => exact ⟨_, .initial packetOf bound⟩
  | append_singleton earlier sequence ih =>
      obtain ⟨distinctEarlier, _, apart⟩ := List.nodup_append.mp distinct
      obtain ⟨outstanding, tracked⟩ := ih distinctEarlier fun other member =>
        below other (List.mem_append_left _ member)
      have fresh : sequence ∉ earlier := fun member =>
        apart sequence member sequence (List.mem_singleton_self _) rfl
      have here := below sequence (List.mem_append_right _ (List.mem_singleton_self _))
      rw [SequenceTracker.completeAll, List.foldl_append]
      exact tracked.complete fresh here room

theorem Tracked.reordered {packetOf : Nat → Packet} {bound : Nat} {completed : List Nat}
    {outstanding : Multiset (Nat × Packet)} {tracker : SequenceTracker} {output : OutputQueue}
    (tracked : Tracked packetOf bound completed outstanding tracker output) :
    Reordered packetOf completed tracker output := by
  constructor
  · have least := tracked.accounts.nextEmit_least tracked.split
    simp only [map_fst_numbered, Multiset.mem_coe] at least
    exact least
  · have bounded : tracker.inner.nextEmit ≤ bound := by
      have within := tracked.accounts.bounded
      rwa [issuedBelow, List.length_map, List.length_range] at within
    rw [tracked.handed, issuedBelow, ← List.map_take, List.take_range, min_eq_left bounded]
  · intro sequence packet
    rw [← mem_numbered]
    exact tracked.accounts.lookup_iff tracked.split
  · exact output.handed_split
  · exact tracked.counted

/-- After any prefix of the completions of distinct numbers. -/
theorem tracker_reorders_exactly (packetOf : Nat → Packet) (room : Nat → Bool) {bound : Nat}
    {order : List Nat} (distinct : order.Nodup) (below : ∀ sequence ∈ order, sequence < bound)
    {completed : List Nat} (reached : completed <+: order) :
    Reordered packetOf completed (SequenceTracker.completeAll packetOf room completed).1
      (SequenceTracker.completeAll packetOf room completed).2 := by
  obtain ⟨_, tracked⟩ := Tracked.completeAll packetOf room (distinct.sublist reached.sublist)
    fun sequence member => below sequence (reached.subset member)
  exact tracked.reordered

def numberedPacket (sequence : Nat) : Packet :=
  Packet.fromBuffer sequence sequence .medium [] (Duration.fromMillis 10)

/-- The last of three numbers completes first, and the channel is full. -/
theorem tracker_reorders_last_first :
    [2, 0, 1].Nodup ∧ (∀ sequence ∈ [2, 0, 1], sequence < 3) ∧ [2, 0] <+: [2, 0, 1] ∧
      Reordered numberedPacket [2, 0]
        (SequenceTracker.completeAll numberedPacket (fun _ => false) [2, 0]).1
        (SequenceTracker.completeAll numberedPacket (fun _ => false) [2, 0]).2 := by
  have distinct : [2, 0, 1].Nodup := by decide
  have below : ∀ sequence ∈ [2, 0, 1], sequence < 3 := by decide
  have reached : [2, 0] <+: [2, 0, 1] := ⟨[1], rfl⟩
  exact ⟨distinct, below, reached, tracker_reorders_exactly _ _ distinct below reached⟩

end EdfPipeline.MultiWorker
