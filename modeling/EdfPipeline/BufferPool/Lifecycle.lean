import EdfPipeline.BufferPool.Buffers
import EdfPipeline.Library.Stash

/-!
# The life of a buffer

A buffer belongs to the size class it was leased for until it is back in the pool
of that class. The pools of a run are stashes of zeroed buffers, and a handle shows
what was frozen as long as it lives.
-/

set_option autoImplicit false

namespace EdfPipeline.BufferPool

open TransitionSystem

/-- The class of a buffer that has not been dropped. -/
def Buffer.sizeClass? : Buffer → Option Nat
  | .leased lease => some lease.sizeClass
  | .shared inner _ => some inner.sizeClass
  | .dropped => none

/-- The buffers of a class that are leased or have a live handle. -/
def State.outstanding (state : State) (size : Nat) : Nat :=
  state.buffers.countP fun buffer => buffer.sizeClass? = some size

def visited (history : State × Past State Action) : List State :=
  history.2.map Prod.fst ++ [history.1]

def peak (history : State × Past State Action) (size : Nat) : Nat :=
  ((visited history).map fun state => state.outstanding size).foldl max 0

/-- The first bytes of what a lease holds when it is frozen. -/
def frozenSlice (id : Nat) (state : State) : Action → Option (List UInt8)
  | .freeze frozen len =>
      if frozen = id then
        match state.buffers[id]? with
        | some (.leased lease) => lease.data.map fun data => data.take (min len lease.sizeClass)
        | _ => none
      else none
  | _ => none

structure Lifecycle (history : State × Past State Action) : Prop where
  pools : Clean history.1.pools
  handles : ∀ (id : Nat) (inner : BufferInner) (handles : Nat),
    history.1.buffers[id]? = some (.shared inner handles) →
      observed (frozenSlice id) history.2 = [inner.slice]
  leases : ∀ sizeHint, ∃ next, history.1.step (.lease sizeHint) = some next ∧
    next.buffers = history.1.buffers ++
      [.leased (.new (sizeClassFor sizeHint) (List.replicate (sizeClassFor sizeHint) 0))]
  counts : ∀ size ∈ bufferSizes, pooled history.1.pools size + history.1.outstanding size =
    max buffersPerSize (peak history size)

/-! ## Steps -/

/-- A buffer with its class, and the slices that were ever frozen of it. -/
inductive Buffer.Sound (frozen : List (List UInt8)) : Buffer → Prop where
  | leased {size : Nat} {data : List UInt8} (known : size ∈ bufferSizes)
      (length : data.length = size) (unfrozen : frozen = []) :
      Sound frozen (.leased ⟨size, some data⟩)
  | shared {size handles : Nat} {data : List UInt8} (known : size ∈ bufferSizes)
      (held : 0 < handles) (once : frozen = [data]) :
      Sound frozen (.shared ⟨size, some data⟩ handles)
  | dropped : Sound frozen .dropped

/-- A stash counts the buffers of a class. -/
structure Counts (history : State × Past State Action) (size : Nat)
    (stash : Stash buffersPerSize) : Prop where
  stock : pooled history.1.pools size = stash.stock
  inUse : history.1.outstanding size = stash.inUse
  peak : peak history size = stash.peak

structure Sound (history : State × Past State Action) : Prop where
  clean : Clean history.1.pools
  buffers : ∀ (id : Nat) (buffer : Buffer), history.1.buffers[id]? = some buffer →
    buffer.Sound (observed (frozenSlice id) history.2)
  unleased : ∀ id, history.1.buffers.length ≤ id → observed (frozenSlice id) history.2 = []
  stashes : ∀ size ∈ bufferSizes, ∃ stash, Counts history size stash

/-- What a step can do to sound buffers. -/
inductive Moves (state : State) : Action → State → Prop where
  | lease (sizeHint : Nat) (pools : Pools) (clean : Clean pools)
      (taken : pooled pools (sizeClassFor sizeHint) = pooled state.pools (sizeClassFor sizeHint) - 1)
      (others : OthersKept (sizeClassFor sizeHint) state.pools pools) :
      Moves state (.lease sizeHint)
        { pools
          buffers := state.buffers ++
            [.leased (.new (sizeClassFor sizeHint) (zeroed (sizeClassFor sizeHint)))] }
  | fill (id size : Nat) (data bytes : List UInt8)
      (place : state.buffers[id]? = some (.leased ⟨size, some data⟩))
      (length : bytes.length = data.length) :
      Moves state (.fill id bytes) (state.setBuffer id (.leased ⟨size, some bytes⟩))
  | freeze (id len size : Nat) (data : List UInt8)
      (place : state.buffers[id]? = some (.leased ⟨size, some data⟩)) :
      Moves state (.freeze id len)
        (state.setBuffer id (.shared ⟨size, some (data.take (min len data.length))⟩ 1))
  | clone (id handles : Nat) (inner : BufferInner)
      (place : state.buffers[id]? = some (.shared inner handles)) :
      Moves state (.clone id) (state.setBuffer id (.shared inner (handles + 1)))
  | dropHandle (id handles : Nat) (inner : BufferInner)
      (place : state.buffers[id]? = some (.shared inner (handles + 2))) :
      Moves state (.drop id) (state.setBuffer id (.shared inner (handles + 1)))
  | recycle (id size : Nat) (buffer : Buffer) (pools : Pools)
      (place : state.buffers[id]? = some buffer) (sized : buffer.sizeClass? = some size)
      (clean : Clean pools) (given : pooled pools size = pooled state.pools size + 1)
      (others : OthersKept size state.pools pools) :
      Moves state (.drop id) ({ state with pools }.setBuffer id .dropped)

theorem lease_moves {state : State} (clean : Clean state.pools) (sizeHint : Nat) :
    ∃ next, state.step (.lease sizeHint) = some next ∧ Moves state (.lease sizeHint) next := by
  obtain ⟨pools, acquired, kept, taken, others⟩ := clean.acquireVec (sizeClassFor_mem sizeHint)
  refine ⟨_, ?_, .lease sizeHint pools kept taken others⟩
  simp only [State.step, State.lease, acquired, Option.map_some]

theorem drop_moves {state next : State} {id : Nat} {frozen : List (List UInt8)} {buffer : Buffer}
    (clean : Clean state.pools) (place : state.buffers[id]? = some buffer)
    (sound : buffer.Sound frozen) (stepped : state.drop id = some next) :
    Moves state (.drop id) next := by
  cases sound with
  | @leased size data known length unfrozen =>
      obtain ⟨pools, released, kept, given, others⟩ := clean.releaseVec known data
      simp only [State.drop, place, BufferLease.drop, released, Option.map_some,
        Option.some.injEq] at stepped
      subst stepped
      exact .recycle id _ _ pools place rfl kept given others
  | @shared size handles data known held once =>
      obtain ⟨pools, released, kept, given, others⟩ :=
        clean.releaseVec known (resize (data.take 0) size)
      match handles, held with
      | 1, _ =>
          simp only [State.drop, place, BufferInner.drop, released, Option.map_some,
            Option.some.injEq] at stepped
          subst stepped
          exact .recycle id _ _ pools place rfl kept given others
      | handles + 2, _ =>
          simp only [State.drop, place, Option.some.injEq] at stepped
          subst stepped
          exact .dropHandle id handles _ place
  | dropped =>
      simp only [State.drop, place] at stepped
      cases stepped

theorem step_moves {history : State × Past State Action} (sound : Sound history)
    {action : Action} {next : State} (stepped : history.1.step action = some next) :
    Moves history.1 action next := by
  cases action with
  | lease sizeHint =>
      obtain ⟨reached, taken, moves⟩ := lease_moves sound.clean sizeHint
      rw [taken] at stepped
      cases stepped
      exact moves
  | fill id bytes =>
      simp only [State.step] at stepped
      split at stepped
      · rename_i lease place
        cases sound.buffers id _ place with
        | leased known length unfrozen =>
            simp only [BufferLease.fill, Option.bind_some] at stepped
            split at stepped <;> cases stepped
            rename_i fits
            exact .fill id _ _ bytes place fits
      · cases stepped
  | freeze id len =>
      simp only [State.step] at stepped
      split at stepped
      · rename_i lease place
        cases sound.buffers id _ place with
        | leased known length unfrozen =>
            cases stepped
            exact .freeze id len _ _ place
      · cases stepped
  | clone id =>
      simp only [State.step] at stepped
      split at stepped
      · rename_i inner handles place
        cases stepped
        exact .clone id handles inner place
      · cases stepped
  | drop id =>
      cases place : history.1.buffers[id]? with
      | none =>
          simp only [State.step, State.drop, place] at stepped
          cases stepped
      | some buffer => exact drop_moves sound.clean place (sound.buffers id buffer place) stepped

/-! ## Counts -/

/-- Exchanging a buffer for another one moves the count of each class by the two. -/
theorem outstanding_setBuffer {state : State} {id : Nat} {old : Buffer}
    (place : state.buffers[id]? = some old) (new : Buffer) (size : Nat) :
    (state.setBuffer id new).outstanding size + (if old.sizeClass? = some size then 1 else 0) =
      state.outstanding size + (if new.sizeClass? = some size then 1 else 0) := by
  obtain ⟨inside, same⟩ := List.getElem?_eq_some_iff.mp place
  have least : _ ≤ state.outstanding size := List.boole_getElem_le_countP inside
  have counted : (state.setBuffer id new).outstanding size = state.outstanding size - _ + _ :=
    List.countP_set inside
  simp only [same, decide_eq_true_eq] at least counted
  omega

theorem outstanding_same {state : State} {id : Nat} {old new : Buffer}
    (place : state.buffers[id]? = some old) (same : new.sizeClass? = old.sizeClass?) (size : Nat) :
    (state.setBuffer id new).outstanding size = state.outstanding size := by
  have moved := outstanding_setBuffer place new size
  rw [same] at moved
  exact Nat.add_right_cancel moved

theorem outstanding_dropped {state : State} {id : Nat} {old : Buffer}
    (place : state.buffers[id]? = some old) (size : Nat) :
    (state.setBuffer id .dropped).outstanding size + (if old.sizeClass? = some size then 1 else 0) =
      state.outstanding size :=
  outstanding_setBuffer place .dropped size

theorem peak_recorded (state next : State) (past : Past State Action) (action : Action) (size : Nat) :
    peak (next, past ++ [(state, action)]) size =
      max (peak (state, past) size) (next.outstanding size) := by
  simp [peak, visited]

section Counting

variable {state next : State} {past : Past State Action} {action : Action} {size : Nat}

theorem Counts.keep {stash : Stash buffersPerSize} (counts : Counts (state, past) size stash)
    (stock : pooled next.pools size = pooled state.pools size)
    (inUse : next.outstanding size = state.outstanding size) :
    Counts (next, past ++ [(state, action)]) size stash where
  stock := stock.trans counts.stock
  inUse := inUse.trans counts.inUse
  peak := by
    rw [peak_recorded, counts.peak, inUse, counts.inUse]
    exact Nat.max_eq_left stash.reached

theorem Counts.take {stash : Stash buffersPerSize} (counts : Counts (state, past) size stash)
    (stock : pooled next.pools size = pooled state.pools size - 1)
    (inUse : next.outstanding size = state.outstanding size + 1) :
    Counts (next, past ++ [(state, action)]) size stash.take where
  stock := by
    rw [stock, counts.stock]
    rfl
  inUse := by
    rw [inUse, counts.inUse]
    rfl
  peak := by
    rw [peak_recorded, counts.peak, inUse, counts.inUse]
    rfl

theorem Counts.giveBack {stash : Stash buffersPerSize} (counts : Counts (state, past) size stash)
    (stock : pooled next.pools size = pooled state.pools size + 1)
    (inUse : next.outstanding size + 1 = state.outstanding size) :
    ∃ stash : Stash buffersPerSize, Counts (next, past ++ [(state, action)]) size stash := by
  have used : next.outstanding size + 1 = stash.inUse := inUse.trans counts.inUse
  have taken : 0 < stash.inUse := used ▸ Nat.succ_pos _
  refine ⟨stash.giveBack taken, ?_, ?_, ?_⟩
  · rw [stock, counts.stock]
    rfl
  · change next.outstanding size = stash.inUse - 1
    rw [← used]
    rfl
  · rw [peak_recorded, counts.peak]
    have reached := stash.reached
    change max stash.peak _ = stash.peak
    omega

end Counting

/-- The stash of each class is left alone, taken from or given back to. -/
theorem Moves.stashes {state next : State} {past : Past State Action} {action : Action}
    (sound : Sound (state, past)) (move : Moves state action next) :
    ∀ size ∈ bufferSizes, ∃ stash, Counts (next, past ++ [(state, action)]) size stash := by
  intro size known
  obtain ⟨stash, counts⟩ := sound.stashes size known
  have unchanged {id : Nat} {old new : Buffer} (place : state.buffers[id]? = some old)
      (same : new.sizeClass? = old.sizeClass?) :
      ∃ stash, Counts (state.setBuffer id new, past ++ [(state, action)]) size stash :=
    ⟨stash, counts.keep rfl (outstanding_same place same size)⟩
  cases move with
  | lease sizeHint pools clean taken others =>
      by_cases here : size = sizeClassFor sizeHint
      · subst here
        refine ⟨stash.take, counts.take taken ?_⟩
        simp [State.outstanding, Buffer.sizeClass?, BufferLease.new]
      · refine ⟨stash, counts.keep (others size known here) ?_⟩
        simp [State.outstanding, Buffer.sizeClass?, BufferLease.new, Ne.symm here]
  | fill id size data bytes place length => exact unchanged place rfl
  | freeze id len size data place => exact unchanged place rfl
  | clone id handles inner place => exact unchanged place rfl
  | dropHandle id handles inner place => exact unchanged place rfl
  | recycle id recycled buffer pools place sized clean given others =>
      have moved := outstanding_dropped place size
      by_cases here : size = recycled
      · subst here
        rw [if_pos sized] at moved
        exact counts.giveBack given moved
      · have other : ¬ buffer.sizeClass? = some size := by
          rw [sized]
          intro same
          exact here (Option.some.inj same).symm
        rw [if_neg other] at moved
        exact ⟨stash, counts.keep (others size known here) moved⟩

/-! ## Contents -/

theorem frozenSlice_other {id other : Nat} (elsewhere : other ≠ id) (state : State) (len : Nat) :
    frozenSlice other state (.freeze id len) = none :=
  if_neg (Ne.symm elsewhere)

theorem Sound.setBuffer {state next : State} {past : Past State Action} {action : Action} {id : Nat}
    {old new : Buffer} (sound : Sound (state, past)) (place : state.buffers[id]? = some old)
    (buffers : next.buffers = state.buffers.set id new)
    (quiet : ∀ other, other ≠ id → frozenSlice other state action = none)
    (fresh : new.Sound (observed (frozenSlice id) (past ++ [(state, action)])))
    (clean : Clean next.pools)
    (stashes : ∀ size ∈ bufferSizes, ∃ stash, Counts (next, past ++ [(state, action)]) size stash) :
    Sound (next, past ++ [(state, action)]) where
  clean := clean
  buffers other buffer found := by
    have inside := (List.getElem?_eq_some_iff.mp place).1
    change next.buffers[other]? = some buffer at found
    rw [buffers] at found
    by_cases here : other = id
    · subst here
      rw [List.getElem?_set_self inside] at found
      cases found
      exact fresh
    · rw [List.getElem?_set_ne (Ne.symm here)] at found
      rw [observed_none (quiet other here)]
      exact sound.buffers other buffer found
  unleased other beyond := by
    have inside := (List.getElem?_eq_some_iff.mp place).1
    change next.buffers.length ≤ other at beyond
    rw [buffers, List.length_set] at beyond
    have apart : other ≠ id := (lt_of_lt_of_le inside beyond).ne'
    rw [observed_none (quiet other apart)]
    exact sound.unleased other beyond
  stashes := stashes

theorem step_sound {history next : State × Past State Action} {action : Action}
    (sound : Sound history) (stepped : recorded State.step history action = some next) :
    Sound next := by
  obtain ⟨state, past⟩ := history
  obtain ⟨after, later⟩ := next
  obtain ⟨moved, rfl⟩ := recorded_eq_some.mp stepped
  have move := step_moves sound moved
  have stashes := move.stashes sound
  cases move with
  | lease sizeHint pools clean taken others =>
      refine ⟨clean, ?_, ?_, stashes⟩
      · intro id buffer found
        rw [observed_none rfl]
        by_cases inside : id < state.buffers.length
        · rw [List.getElem?_append_left inside] at found
          exact sound.buffers id buffer found
        · have beyond := not_lt.mp inside
          rw [List.getElem?_append_right beyond, List.getElem?_singleton] at found
          split at found <;> cases found
          exact .leased (sizeClassFor_mem sizeHint) List.length_replicate (sound.unleased id beyond)
      · intro id beyond
        rw [observed_none rfl]
        exact sound.unleased id ((Nat.le_add_right _ _).trans (List.length_append ▸ beyond))
  | fill id size data bytes place length =>
      refine sound.setBuffer place rfl (fun _ _ => rfl) ?_ sound.clean stashes
      rw [observed_none rfl]
      cases sound.buffers id _ place with
      | leased known fits unfrozen => exact .leased known (length.trans fits) unfrozen
  | freeze id len size data place =>
      refine sound.setBuffer place rfl (fun _ elsewhere => frozenSlice_other elsewhere ..) ?_
        sound.clean stashes
      cases sound.buffers id _ place with
      | leased known fits unfrozen =>
          refine .shared known Nat.one_pos ?_
          have seen : frozenSlice id state (.freeze id len) = some (data.take (min len data.length)) := by
            simp [frozenSlice, place, fits]
          rw [observed_some seen, unfrozen]
          rfl
  | clone id handles inner place =>
      refine sound.setBuffer place rfl (fun _ _ => rfl) ?_ sound.clean stashes
      rw [observed_none rfl]
      cases sound.buffers id _ place with
      | shared known held once => exact .shared known (Nat.succ_pos _) once
  | dropHandle id handles inner place =>
      refine sound.setBuffer place rfl (fun _ _ => rfl) ?_ sound.clean stashes
      rw [observed_none rfl]
      cases sound.buffers id _ place with
      | shared known held once => exact .shared known (Nat.succ_pos _) once
  | recycle id size buffer pools place sized clean given others =>
      exact sound.setBuffer place rfl (fun _ _ => rfl) .dropped clean stashes

theorem initial_sound : Sound (State.initial, []) where
  clean := initialPools_clean
  buffers id buffer found := by cases found
  unleased _ _ := rfl
  stashes size known := by
    refine ⟨.full buffersPerSize, initialPools_pooled known, rfl, ?_⟩
    rfl

theorem Sound.lifecycle {history : State × Past State Action} (sound : Sound history) :
    Lifecycle history where
  pools := sound.clean
  handles id inner handles place := by
    cases sound.buffers id _ place with
    | shared known held once => exact once
  leases sizeHint := by
    obtain ⟨next, stepped, moves⟩ := lease_moves sound.clean sizeHint
    cases moves with
    | lease pools clean taken others => exact ⟨_, stepped, rfl⟩
  counts size known := by
    obtain ⟨stash, counts⟩ := sound.stashes size known
    rw [counts.stock, counts.inUse, counts.peak]
    exact stash.balanced

/-- In every state of every run the pools hold zeroed buffers of their sizes, a handle
shows what was frozen, a lease shows zeros and no buffer is lost or made twice. -/
theorem buffers_recycled (actions : List Action) :
    Throughout (recorded State.step) Lifecycle (State.initial, []) actions :=
  throughout_invariant step_sound Sound.lifecycle initial_sound actions

end EdfPipeline.BufferPool
