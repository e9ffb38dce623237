import EdfPipeline.Packet

/-!
# Channels

Unbounded or bounded multi-producer channels, as far as the schedulers see
them: receiving never blocks, and sending reports whether there was room.
-/

set_option autoImplicit false

namespace EdfPipeline

inductive TryRecvError where
  | empty
  | disconnected
  deriving DecidableEq, Repr

structure Channel (α : Type) where
  queue : List α
  disconnected : Bool
  deriving DecidableEq, Repr

namespace Channel

variable {α : Type}

def empty : Channel α := { queue := [], disconnected := false }

def send (channel : Channel α) (message : α) : Channel α :=
  { channel with queue := channel.queue ++ [message] }

/-- Messages already queued are still received after the senders are gone. -/
def tryRecv (channel : Channel α) : Except TryRecvError (α × Channel α) :=
  match channel.queue with
  | message :: rest => .ok (message, { channel with queue := rest })
  | [] => .error (if channel.disconnected then .disconnected else .empty)

theorem tryRecv_ok {channel remaining : Channel α} {message : α}
    (received : channel.tryRecv = .ok (message, remaining)) :
    channel.queue = message :: remaining.queue ∧
      remaining.disconnected = channel.disconnected := by
  obtain ⟨queue, disconnected⟩ := channel
  cases queue with
  | nil => cases received
  | cons head rest =>
      cases received
      exact ⟨rfl, rfl⟩

theorem tryRecv_error {channel : Channel α} {error : TryRecvError}
    (failed : channel.tryRecv = .error error) : channel.queue = [] := by
  obtain ⟨queue, disconnected⟩ := channel
  cases queue with
  | nil => rfl
  | cons head rest => cases failed

end Channel

/-- One class's channel towards the next stage, with the history of the
`try_send` calls made on it: each packet handed over and whether there was
room for it. `dropCounter` is the counter the scheduler keeps of the refusals. -/
structure OutputQueue where
  log : List (Packet × Bool)
  dropCounter : Nat
  deriving DecidableEq, Repr

namespace OutputQueue

def initial : OutputQueue := { log := [], dropCounter := 0 }

def handed (output : OutputQueue) : List Packet := output.log.map Prod.fst

def sent (output : OutputQueue) : List Packet := (output.log.filter Prod.snd).map Prod.fst

def dropped (output : OutputQueue) : List Packet :=
  (output.log.filter fun entry => !entry.2).map Prod.fst

/-- `try_send`, counting a refusal. `room` says for each call on this channel
whether it finds room: that is up to the channel and its consumer. -/
def trySend (room : Nat → Bool) (packet : Packet) (output : OutputQueue) : OutputQueue :=
  if room output.log.length then
    { output with log := output.log ++ [(packet, true)] }
  else
    { log := output.log ++ [(packet, false)], dropCounter := output.dropCounter + 1 }

@[simp] theorem handed_initial : initial.handed = [] := rfl

@[simp] theorem handed_trySend (room : Nat → Bool) (packet : Packet) (output : OutputQueue) :
    (output.trySend room packet).handed = output.handed ++ [packet] := by
  unfold trySend
  split <;> simp [handed]

def Counted (output : OutputQueue) : Prop := output.dropCounter = output.dropped.length

theorem counted_initial : initial.Counted := rfl

theorem Counted.trySend {output : OutputQueue} (counted : output.Counted) (room : Nat → Bool)
    (packet : Packet) : (output.trySend room packet).Counted := by
  unfold OutputQueue.trySend
  split
  · simpa [Counted, dropped] using counted
  · have exact_count : output.dropCounter = output.dropped.length := counted
    simp only [Counted, dropped, List.filter_append, List.map_append, List.length_append]
      at exact_count ⊢
    simp [exact_count]

theorem handed_split (output : OutputQueue) :
    output.handed.Perm (output.sent ++ output.dropped) := by
  have parts := List.filter_append_perm (fun entry : Packet × Bool => entry.2) output.log
  simpa only [handed, sent, dropped, List.map_append] using (parts.map Prod.fst).symm

theorem sent_sublist_handed (output : OutputQueue) : output.sent.Sublist output.handed :=
  List.Sublist.map Prod.fst List.filter_sublist

end OutputQueue

end EdfPipeline
