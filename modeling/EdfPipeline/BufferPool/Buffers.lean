import EdfPipeline.BufferPool.Pool
import EdfPipeline.Library.TransitionSystem

/-!
# Leases and handles

A buffer is leased, filled and frozen into an `Arc`, which its handles share. It
goes back into its pool when its lease is dropped unfrozen or with its last handle.
-/

set_option autoImplicit false

namespace EdfPipeline.BufferPool

structure BufferLease where
  sizeClass : Nat
  data : Option (List UInt8)
  deriving DecidableEq, Repr

namespace BufferLease

def new (sizeClass : Nat) (data : List UInt8) : BufferLease where
  sizeClass
  data := some data

/-- The bytes written through `as_mut_slice`, which keeps the length. -/
def fill (lease : BufferLease) (bytes : List UInt8) : Option BufferLease :=
  lease.data.bind fun data =>
    if bytes.length = data.length then some { lease with data := some bytes } else none

end BufferLease

structure BufferInner where
  sizeClass : Nat
  data : Option (List UInt8)
  deriving DecidableEq, Repr

namespace BufferInner

def new (sizeClass : Nat) (data : List UInt8) : BufferInner where
  sizeClass
  data := some data

def slice (inner : BufferInner) : List UInt8 := inner.data.getD []

def drop (inner : BufferInner) (pools : Pools) : Option Pools :=
  match inner.data with
  | some data => releaseVec pools inner.sizeClass (resize (data.take 0) inner.sizeClass)
  | none => some pools

end BufferInner

/-- The lease is left without its data, so that dropping it does nothing. -/
def BufferLease.freeze (lease : BufferLease) (len : Nat) : Option BufferInner :=
  lease.data.map fun data => .new lease.sizeClass (data.take (min len data.length))

def BufferLease.drop (lease : BufferLease) (pools : Pools) : Option Pools :=
  match lease.data with
  | some data => releaseVec pools lease.sizeClass data
  | none => some pools

/-- `handles` counts the handles that share the `Arc`. -/
inductive Buffer where
  | leased (lease : BufferLease)
  | shared (inner : BufferInner) (handles : Nat)
  | dropped
  deriving DecidableEq, Repr

/-- The buffers in the order they were leased in. -/
structure State where
  pools : Pools
  buffers : List Buffer

/-- `drop` drops a lease or one handle. -/
inductive Action where
  | lease (sizeHint : Nat)
  | fill (id : Nat) (bytes : List UInt8)
  | freeze (id : Nat) (len : Nat)
  | clone (id : Nat)
  | drop (id : Nat)
  deriving DecidableEq, Repr

namespace State

def initial : State where
  pools := initialPools
  buffers := []

def setBuffer (state : State) (id : Nat) (buffer : Buffer) : State :=
  { state with buffers := state.buffers.set id buffer }

def lease (state : State) (sizeHint : Nat) : Option State :=
  let size := sizeClassFor sizeHint
  (acquireVec state.pools size).map fun (data, pools) =>
    { pools, buffers := state.buffers ++ [.leased (.new size data)] }

def drop (state : State) (id : Nat) : Option State :=
  match state.buffers[id]? with
  | some (.leased lease) =>
      (lease.drop state.pools).map fun pools => { state with pools }.setBuffer id .dropped
  | some (.shared inner 1) =>
      (inner.drop state.pools).map fun pools => { state with pools }.setBuffer id .dropped
  | some (.shared inner handles) => some (state.setBuffer id (.shared inner (handles - 1)))
  | _ => none

def step (state : State) : Action → Option State
  | .lease sizeHint => state.lease sizeHint
  | .fill id bytes =>
      match state.buffers[id]? with
      | some (.leased lease) =>
          (lease.fill bytes).map fun filled => state.setBuffer id (.leased filled)
      | _ => none
  | .freeze id len =>
      match state.buffers[id]? with
      | some (.leased lease) =>
          (lease.freeze len).map fun inner => state.setBuffer id (.shared inner 1)
      | _ => none
  | .clone id =>
      match state.buffers[id]? with
      | some (.shared inner handles) => some (state.setBuffer id (.shared inner (handles + 1)))
      | _ => none
  | .drop id => state.drop id

end State

abbrev run : State → List Action → Option State := TransitionSystem.run State.step

end EdfPipeline.BufferPool
