import Rill.Machine.Fault
import Rill.Machine.Value

/-!
# Frames

A frame holds the variables of one scope that is being run. Frames form a forest: each but the
outermost is enclosed by one that was made before it. A variable is found by searching outward from
a frame, or by going outward a known number of frames and looking there only. Frames are never
removed, and neither are names from a frame.
-/

namespace Rill

/-- The variables of one scope that is being run. -/
structure Frame where
  slots : Table Value
  enclosing : Option FrameId

/-- All frames, by their identities. -/
structure Forest where
  frames : Array Frame

namespace Forest

/-- No frames. -/
def empty : Forest := ⟨#[]⟩

/-- The identity of the next frame that is made. -/
def nextId (forest : Forest) : FrameId := forest.frames.size

/-- Makes a frame without variables. -/
def add (forest : Forest) (enclosing : Option FrameId) : Forest :=
  ⟨forest.frames.push ⟨∅, enclosing⟩⟩

/-- The frame that encloses a frame, if any does. -/
def enclosing? (forest : Forest) (frame : FrameId) : Option FrameId :=
  forest.frames[frame]?.bind Frame.enclosing

/-- The value of a name in a frame itself. -/
def slot? (forest : Forest) (frame : FrameId) (name : String) : Option Value :=
  forest.frames[frame]?.bind (·.slots[name]?)

/-- Gives a name in a frame a value, whether or not it had one. -/
def define (forest : Forest) (frame : FrameId) (name : String) (value : Value) : Forest :=
  ⟨forest.frames.modify frame fun f => { f with slots := f.slots.insert name value }⟩

/-! ## Searching outward -/

/--
The nearest frame that has a name, searching outward through so many frames.
-/
def locateWithin (forest : Forest) (name : String) : (frames : Nat) → FrameId → Option FrameId
  | 0, _ => none
  | frames + 1, frame =>
    if (forest.slot? frame name).isSome then some frame
    else
      match forest.enclosing? frame with
      | none => none
      | some outer => locateWithin forest name frames outer

/--
The nearest frame that has a name. A frame has fewer frames around it than were made before it.
-/
def locate? (forest : Forest) (name : String) (frame : FrameId) : Option FrameId :=
  forest.locateWithin name (frame + 1) frame

/-- The value of a name as seen from a frame. -/
def get (forest : Forest) (frame : FrameId) (name : String) (line : Nat) :
    Except RuntimeFault Value :=
  match (forest.locate? name frame).bind (forest.slot? · name) with
  | some value => .ok value
  | none => .error ⟨line, .undefinedVariable name⟩

/-- The frame whose variable an assignment changes that searches outward from a frame. -/
def owner (forest : Forest) (frame : FrameId) (name : String) (line : Nat) :
    Except RuntimeFault FrameId :=
  match forest.locate? name frame with
  | some owner => .ok owner
  | none => .error ⟨line, .undefinedVariable name⟩

/-- Gives the nearest variable of a name, as seen from a frame, another value. -/
def assign (forest : Forest) (frame : FrameId) (name : String) (value : Value) (line : Nat) :
    Except RuntimeFault Forest :=
  (forest.define · name value) <$> forest.owner frame name line

/-! ## Going outward a known number of frames -/

/-- The frame so many frames outward. -/
def ancestor? (forest : Forest) : (depth : Nat) → FrameId → Option FrameId
  | 0, frame => some frame
  | depth + 1, frame => (forest.enclosing? frame).bind (forest.ancestor? depth)

/-- The frame so many frames outward, which must be there. -/
def ownerAt (forest : Forest) (frame : FrameId) (depth : Nat) : Except Breach FrameId :=
  match forest.ancestor? depth frame with
  | some owner => .ok owner
  | none => .error .shortChain

/-- The value of a name in the frame so many frames outward. -/
def getAt (forest : Forest) (frame : FrameId) (depth : Nat) (name : String) :
    Except Breach Value := do
  let owner ← forest.ownerAt frame depth
  match forest.slot? owner name with
  | some value => .ok value
  | none => .error (.unboundSlot name)

/--
Gives a name in the frame so many frames outward a value. The name may be new to the frame: a
variable can be assigned to within its own first value.
-/
def assignAt (forest : Forest) (frame : FrameId) (depth : Nat) (name : String) (value : Value) :
    Except Breach Forest :=
  (forest.define · name value) <$> forest.ownerAt frame depth

end Forest

end Rill
