import EdfPipeline.Packet

/-!
# Registered sockets

What the two schedulers that read sockets have in common: the sockets of a class
in the order they were added, and the packets made of what is read from them.
-/

set_option autoImplicit false

namespace EdfPipeline

/-- A call of `add_socket`. The single-CPU scheduler has no quantum. -/
structure Registration where
  socket : Nat
  priority : Priority
  latencyBudget : Duration
  quantum : Nat
  deriving DecidableEq, Repr

def registeredFor (priority : Priority) (registrations : List Registration) : List Registration :=
  registrations.filter (·.priority = priority)

/-- A packet and the socket it was read from, with its place among those of its class. -/
structure Reading where
  priority : Priority
  place : Nat
  socket : Nat
  packet : Packet
  deriving DecidableEq, Repr

/-- The packet carries the budget its socket was registered with. -/
def Reading.CarriesBudget (reading : Reading) (registrations : List Registration) : Prop :=
  ∃ registration, (registeredFor reading.priority registrations)[reading.place]? = some registration ∧
    registration.socket = reading.socket ∧
      reading.packet.latencyBudget = registration.latencyBudget

/-- The place of an item is the number of items before it. -/
theorem getElem?_of_suffix {α : Type} {items rest : List α} {item : α}
    (left : item :: rest <:+ items) : items[items.length - (rest.length + 1)]? = some item := by
  have found := (List.suffix_iff_getElem?.mp left).2 0 (Nat.zero_lt_succ _)
  rwa [Nat.zero_add] at found

/-- A later registration takes no place from an earlier one. -/
theorem registeredFor_getElem?_append {priority : Priority} {registrations : List Registration} {place : Nat}
    {registration : Registration}
    (found : (registeredFor priority registrations)[place]? = some registration)
    (later : List Registration) :
    (registeredFor priority (registrations ++ later))[place]? = some registration := by
  have inside := (List.getElem?_eq_some_iff.mp found).1
  rw [registeredFor, List.filter_append]
  exact (List.getElem?_append_left inside).trans found

theorem registeredFor_concat (priority : Priority) (registrations : List Registration)
    (registration : Registration) :
    registeredFor priority (registrations ++ [registration]) =
      registeredFor priority registrations ++ if registration.priority = priority then [registration] else [] := by
  rw [registeredFor, List.filter_append, List.filter_singleton]
  simp [registeredFor]

theorem Reading.CarriesBudget.append {reading : Reading} {registrations : List Registration}
    (carries : reading.CarriesBudget registrations) (later : List Registration) :
    reading.CarriesBudget (registrations ++ later) := by
  obtain ⟨registration, found, socket, budget⟩ := carries
  exact ⟨registration, registeredFor_getElem?_append found later, socket, budget⟩

end EdfPipeline
