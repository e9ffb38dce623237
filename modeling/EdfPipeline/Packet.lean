import EdfPipeline.Priority
import Mathlib.Algebra.Group.Nat.Defs

/-!
# Packets

Instants and durations are natural numbers of nanoseconds on one clock.
-/

set_option autoImplicit false

namespace EdfPipeline

def wordBound : Nat := 2 ^ 64

abbrev Instant : Type := Nat

abbrev Duration : Type := Nat

def Duration.fromMicros (micros : Nat) : Duration := micros * 1000

def Duration.fromMillis (millis : Nat) : Duration := millis * 1000000

def Duration.asMicros (duration : Duration) : Nat := duration / 1000

def maxPacketSize : Nat := 1500

structure Packet where
  id : Nat
  buffer : List UInt8
  len : Nat
  timestamp : Instant
  latencyBudget : Duration
  priority : Priority
  deriving DecidableEq, Repr

/-- `id` is the value drawn from the packet counter and `now` the clock reading. -/
def Packet.fromBuffer (id : Nat) (now : Instant) (priority : Priority) (buffer : List UInt8)
    (latencyBudget : Duration) : Packet where
  id
  buffer
  len := min buffer.length maxPacketSize
  timestamp := now
  latencyBudget
  priority

def Packet.payload (packet : Packet) : List UInt8 :=
  packet.buffer.take (min packet.len packet.buffer.length)

def Packet.deadline (packet : Packet) : Instant := packet.timestamp + packet.latencyBudget

/-- The part of the simulated processing time that grows with the size: none up
to 200 bytes, then linear up to 100 µs at the largest packet. Rounded to the
nearest nanosecond; the fractional part is a multiple of 1/13, so the rounding
has no ties. -/
def extraProcessing (len : Nat) : Duration :=
  if len > 200 then (2 * 1000 * (min len 1500 - 200) + 13) / 26 else 0

/-- Simulated processing time on the multi-worker scheduler. -/
def processingDuration (packet : Packet) : Duration := 50000 + extraProcessing packet.len

end EdfPipeline
