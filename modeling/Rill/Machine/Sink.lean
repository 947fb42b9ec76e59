import Rill.Machine.Fault

/-!
# Output

What a program prints goes into a sink. A sink may have room for only so many bytes, and may fail
when it is flushed; what it has taken is kept either way.
-/

namespace Rill

/-- A receiver of output. -/
structure Sink where
  /-- All bytes taken so far. -/
  taken : ByteArray
  /-- How many more bytes are taken, if there is a limit. -/
  room : Option Nat
  /-- Whether flushing succeeds. -/
  flushes : Bool

namespace Sink

/-- A sink that takes everything. -/
def unlimited : Sink := ⟨.empty, none, true⟩

/-- Writes a text. Of one that does not fit, as much is taken as there is room for. -/
def write (sink : Sink) (text : String) : Sink × Option OutputFault :=
  let bytes := text.toUTF8
  match sink.room with
  | none => ({ sink with taken := sink.taken ++ bytes }, none)
  | some room =>
    if bytes.size ≤ room then
      ({ sink with taken := sink.taken ++ bytes, room := some (room - bytes.size) }, none)
    else
      ({ sink with taken := sink.taken ++ bytes.extract 0 room, room := some 0 }, some .full)

/-- Whether flushing fails. -/
def flush (sink : Sink) : Option OutputFault :=
  if sink.flushes then none else some .flush

end Sink

end Rill
