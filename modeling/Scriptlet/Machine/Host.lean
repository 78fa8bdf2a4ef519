import Scriptlet.Action
import Scriptlet.Machine.Error

/-! What functions of the host can reach: a sink for output and a clock. -/

set_option autoImplicit false

namespace Scriptlet

/-- Output so far, and the bytes that still fit if they are limited. -/
structure Sink where
  written : String
  room : Option Nat

namespace Sink

def unlimited : Sink := ⟨"", none⟩

def ofCapacity (bytes : Nat) : Sink := ⟨"", some bytes⟩

/-- Take a text whole, or refuse it whole and keep the room for shorter ones. -/
def write? (sink : Sink) (text : String) : Option Sink :=
  match sink.room with
  | none => some ⟨sink.written ++ text, none⟩
  | some room =>
    if text.utf8ByteSize ≤ room then
      some ⟨sink.written ++ text, some (room - text.utf8ByteSize)⟩
    else
      none

end Sink

/-- Readings in order, in seconds since the epoch. There is none while the clock is set to before
that. -/
structure Clock where
  reading? : Nat → Option Float

instance : Coe (Nat → Float) Clock := ⟨fun readings => ⟨fun count => some (readings count)⟩⟩

/-- `asked` counts the readings that the clock has been asked for. -/
structure Host where
  sink : Sink
  clock : Clock
  asked : Nat

/-- What a function of the host does with its arguments, told the span of its call. -/
abbrev Behaviour := List Value → Span → Action RuntimeError Host Value

namespace Host

def write (text failure : String) (span : Span) : Action RuntimeError Host Unit := fun host =>
  match host.sink.write? text with
  | some sink => .done () { host with sink := sink }
  | none => .failed (.native failure span) host

def readClock : Action RuntimeError Host (Option Float) := fun host =>
  .done (host.clock.reading? host.asked) { host with asked := host.asked + 1 }

def sinkFull : String := "sink full"

/-- How a clock without a reading says so. -/
def beforeEpoch : String := "second time provided was later than self"

end Host

end Scriptlet
