import Rill.Proofs.Scope.Bound
import Rill.Proofs.Store.Searching

/-!
# Frames of `self`

To bind a method is to make a frame that holds the instance under `self`. Such frames fit the scopes
that resolution opens around methods, and all others fit scopes without `self`. So a depth that
resolution finds for `self` leads to the nearest frame that has it, and one that it finds for any
other name leads to a frame without it. Writes to frames without `self` leave all frames of `self`
as they are.
-/

namespace Rill

/-- The scope that is opened around the methods of a class. -/
abbrev selfScope : Scope := [("self", .defined)]

theorem selfScope_declares {name : String} (other : name ≠ "self") :
    selfScope.declares name = false := by
  rw [Scope.declares, Scope.status?_cons, if_neg other]
  rfl

namespace Scopes

variable {scopes : Scopes} {name : String}

/-- Scopes that statements may stand in: the innermost is none of `self`. -/
def Open (scopes : Scopes) : Prop := scopes.declaresHere "self" = false

theorem open_nil : Open [] := rfl

theorem open_enter (scopes : Scopes) : Open ([] :: scopes) := rfl

theorem Open.mark (isOpen : scopes.Open) (other : name ≠ "self") (status : Status) :
    (scopes.mark name status).Open := by
  cases scopes with
  | nil => rfl
  | cons scope outer =>
      change Scope.declares _ "self" = false
      rw [Scope.declares, Scope.status?_cons, if_neg other.symm]
      exact isOpen

end Scopes

namespace Forest

variable {forest later : Forest} {scopes outer : Scopes} {scope : Scope}
  {frame enclosing other : FrameId} {name : String} {value : Value}

theorem lt_size_of_enclosing? (encloses : forest.enclosing? frame = some enclosing) :
    frame < forest.frames.size := by
  apply Nat.lt_of_not_le
  intro absent
  rw [enclosing?, Array.getElem?_eq_none absent] at encloses
  cases encloses

theorem nextId_lt_add (forest : Forest) (enclosing : Option FrameId) :
    forest.nextId < (forest.add enclosing).frames.size := by
  rw [size_add]
  exact Nat.lt_succ_self _

/-- The forest with a frame that binds a method to an instance. -/
def bind (forest : Forest) (enclosing : FrameId) (o : Object) : Forest :=
  (forest.add (some enclosing)).define forest.nextId "self" (.object o)

theorem slot?_bind (forest : Forest) (enclosing frame : FrameId) (o : Object) (name : String) :
    (forest.bind enclosing o).slot? frame name =
      if frame = forest.nextId ∧ name = "self" then some (.object o)
      else forest.slot? frame name := by
  rw [bind, slot?_define _ _ _ _ (forest.nextId_lt_add _), slot?_add]

theorem enclosing?_bind (forest : Forest) (enclosing : FrameId) (o : Object) :
    (forest.bind enclosing o).enclosing? forest.nextId = some enclosing := by
  rw [bind, enclosing?_define, enclosing?_add]
  exact if_pos rfl

/-- The instance that a frame was made for, if it was made by binding a method. -/
def instance? (forest : Forest) (frame : FrameId) : Option Object :=
  match forest.slot? frame "self" with
  | some (.object o) => some o
  | _ => none

/-! ## Frames in order -/

/-- Frames are linked, those of `self` hold an instance and nothing else, and the globals do not. -/
structure Tidy (forest : Forest) : Prop where
  present : 0 < forest.frames.size
  linked : forest.Linked []
  vacant : forest.slot? Machine.globals "self" = none
  isObject : ∀ {frame value}, forest.slot? frame "self" = some value → ∃ o, value = .object o
  alone : ∀ {frame value}, forest.slot? frame "self" = some value →
    ∀ name, name ≠ "self" → forest.slot? frame name = none

/-- One forest has become another: frames keep their links, and `self` where they have it. -/
structure Stays (forest later : Forest) : Prop where
  size_le : forest.frames.size ≤ later.frames.size
  enclosing?_eq : ∀ frame < forest.frames.size, later.enclosing? frame = forest.enclosing? frame
  self_eq : ∀ frame < forest.frames.size, later.slot? frame "self" = forest.slot? frame "self"

namespace Stays

theorem refl (forest : Forest) : forest.Stays forest :=
  ⟨Nat.le_refl _, fun _ _ => rfl, fun _ _ => rfl⟩

theorem trans {first second third : Forest} (former : first.Stays second)
    (latter : second.Stays third) : first.Stays third where
  size_le := Nat.le_trans former.size_le latter.size_le
  enclosing?_eq frame old := by
    rw [latter.enclosing?_eq frame (Nat.lt_of_lt_of_le old former.size_le),
      former.enclosing?_eq frame old]
  self_eq frame old := by
    rw [latter.self_eq frame (Nat.lt_of_lt_of_le old former.size_le), former.self_eq frame old]

theorem instance?_eq (stays : forest.Stays later) (old : frame < forest.frames.size) :
    later.instance? frame = forest.instance? frame := by
  rw [instance?, instance?, stays.self_eq frame old]

/-- What a frame sees of `self` stays the same. -/
theorem locateWithin_eq (stays : forest.Stays later) (linked : forest.Linked []) (frames : Nat)
    (old : frame < forest.frames.size) :
    later.locateWithin "self" frames frame = forest.locateWithin "self" frames frame := by
  induction frames generalizing frame with
  | zero => rfl
  | succ frames ih =>
      rw [locateWithin, locateWithin, stays.self_eq frame old, stays.enclosing?_eq frame old]
      cases encloses : forest.enclosing? frame with
      | none => rfl
      | some outer =>
          dsimp only
          rw [ih (Nat.lt_trans (linked.earlier encloses) old)]

theorem locate?_eq (stays : forest.Stays later) (linked : forest.Linked [])
    (old : frame < forest.frames.size) :
    later.locate? "self" frame = forest.locate? "self" frame :=
  stays.locateWithin_eq linked _ old

theorem add (forest : Forest) (enclosing : Option FrameId) :
    forest.Stays (forest.add enclosing) where
  size_le := (Grows.add forest enclosing).size_le
  enclosing?_eq := (Grows.add forest enclosing).enclosing?_eq
  self_eq _ _ := slot?_add ..

/-- A write stays clear of `self` under any other name. -/
theorem define_of_ne (other : name ≠ "self") (frame : FrameId) (value : Value) :
    forest.Stays (forest.define frame name value) where
  size_le := (Grows.define forest frame name value).size_le
  enclosing?_eq := (Grows.define forest frame name value).enclosing?_eq
  self_eq here _ := by
    by_cases present : frame < forest.frames.size
    · rw [slot?_define _ _ _ _ present, if_neg fun both => other both.2.symm]
    · exact slot?_define_of_absent _ _ _ _ _ (Nat.le_of_not_lt present) _

/-- A frame that binds a method stays clear of the old ones. -/
theorem bind (forest : Forest) (enclosing : FrameId) (o : Object) :
    forest.Stays (forest.bind enclosing o) where
  size_le := by
    rw [Forest.bind, size_define]
    exact (Grows.add forest _).size_le
  enclosing?_eq frame old := by
    rw [Forest.bind, enclosing?_define, (Grows.add forest _).enclosing?_eq frame old]
  self_eq frame old := by
    rw [slot?_bind, if_neg fun both => Nat.ne_of_lt old both.1]

end Stays

namespace Tidy

/-- The frame of the globals is in order when nothing has been declared. -/
theorem globals : (empty.add none).Tidy where
  present := Nat.one_pos
  linked :=
    { earlier := fun encloses => by
        rw [enclosing?_add] at encloses
        split at encloses <;> cases encloses
      ends := fun there _ => .inl (Nat.lt_one_iff.mp there) }
  vacant := slot?_add ..
  isObject found := nomatch (slot?_add ..).symm.trans found
  alone found := nomatch (slot?_add ..).symm.trans found

theorem instance?_eq_some (tidy : forest.Tidy) (found : forest.slot? frame "self" = some value) :
    ∃ o, value = .object o ∧ forest.instance? frame = some o := by
  obtain ⟨o, rfl⟩ := tidy.isObject found
  exact ⟨o, rfl, by rw [instance?, found]⟩

theorem instance?_eq_none (vacant : forest.slot? frame "self" = none) :
    forest.instance? frame = none := by
  rw [instance?, vacant]

theorem add (tidy : forest.Tidy) (present : enclosing < forest.frames.size) :
    (forest.add (some enclosing)).Tidy where
  present := by
    rw [size_add]
    exact Nat.succ_pos _
  linked := tidy.linked.add_some present
  vacant := by
    rw [slot?_add]
    exact tidy.vacant
  isObject found := tidy.isObject (slot?_add .. ▸ found)
  alone found name other := by
    rw [slot?_add] at found ⊢
    exact tidy.alone found name other

/-- A write under another name than `self` to a frame without `self` does not upset anything. -/
theorem define (tidy : forest.Tidy) (present : frame < forest.frames.size)
    (vacant : forest.slot? frame "self" = none) (other : name ≠ "self") (value : Value) :
    (forest.define frame name value).Tidy where
  present := by
    rw [size_define]
    exact tidy.present
  linked := tidy.linked.define frame name value
  vacant := by
    rw [slot?_define _ _ _ _ present, if_neg fun both => other both.2.symm]
    exact tidy.vacant
  isObject := by
    intro here found value'
    rw [slot?_define _ _ _ _ present, if_neg fun both => other both.2.symm] at value'
    exact tidy.isObject value'
  alone := by
    intro here found value' key apart
    rw [slot?_define _ _ _ _ present, if_neg fun both => other both.2.symm] at value'
    rw [slot?_define _ _ _ _ present, if_neg]
    · exact tidy.alone value' key apart
    · rintro ⟨rfl, -⟩
      rw [vacant] at value'
      cases value'

/-- To bind a method is to make a frame that holds an instance and nothing else. -/
theorem bind (tidy : forest.Tidy) (present : enclosing < forest.frames.size) (o : Object) :
    (forest.bind enclosing o).Tidy := by
  have added := tidy.add present
  refine ⟨?_, added.linked.define _ _ _, ?_, ?_, ?_⟩
  · rw [Forest.bind, size_define]
    exact added.present
  · rw [slot?_bind, if_neg fun both => Nat.ne_of_lt tidy.present both.1]
    exact tidy.vacant
  · intro here value found
    rw [slot?_bind] at found
    split at found
    · exact ⟨o, (Option.some.inj found).symm⟩
    · exact tidy.isObject found
  · intro here value found key other
    rw [slot?_bind] at found
    rw [slot?_bind, if_neg fun both => other both.2]
    split at found
    · next same =>
        rw [same.1]
        exact slot?_eq_none _ _ _ (Nat.le_refl _)
    · exact tidy.alone found key other

end Tidy

/-! ## Frames and scopes -/

/-- A frame has `self` if and only if its scope is one of `self`. -/
inductive Fills (forest : Forest) (frame : FrameId) : Scope → Prop
  | self : (forest.slot? frame "self").isSome → Fills forest frame selfScope
  | other {scope : Scope} : forest.slot? frame "self" = none → scope.declares "self" = false →
      Fills forest frame scope

/-- A frame and those outward of it belong to scopes. -/
def Seated (forest : Forest) : (scopes : Scopes) → (frame : FrameId) → Prop
  | [], frame => frame = Machine.globals
  | scope :: outer, frame => forest.Fills frame scope ∧
      ∃ enclosing, forest.enclosing? frame = some enclosing ∧ forest.Seated outer enclosing

namespace Seated

theorem lt_size (seated : forest.Seated scopes frame) (tidy : forest.Tidy) :
    frame < forest.frames.size := by
  cases scopes with
  | nil =>
      cases seated
      exact tidy.present
  | cons scope outer =>
      obtain ⟨_, enclosing, encloses, _⟩ := seated
      exact lt_size_of_enclosing? encloses

theorem mono (stays : forest.Stays later) (seated : forest.Seated scopes frame) :
    later.Seated scopes frame := by
  induction scopes generalizing frame with
  | nil => exact seated
  | cons scope outer ih =>
      obtain ⟨fills, enclosing, encloses, outward⟩ := seated
      have old := lt_size_of_enclosing? encloses
      refine ⟨?_, enclosing, (stays.enclosing?_eq frame old).trans encloses, ih outward⟩
      cases fills with
      | self has => exact .self (stays.self_eq frame old ▸ has)
      | other vacant apart => exact .other (stays.self_eq frame old ▸ vacant) apart

/-- Where statements stand, the frame has no `self`. -/
theorem vacant (seated : forest.Seated scopes frame) (tidy : forest.Tidy) (isOpen : scopes.Open) :
    forest.slot? frame "self" = none := by
  cases scopes with
  | nil =>
      cases seated
      exact tidy.vacant
  | cons scope outer =>
      obtain ⟨fills, _⟩ := seated
      cases fills with
      | self _ => cases isOpen
      | other vacant _ => exact vacant

theorem mark (seated : forest.Seated scopes frame) (isOpen : scopes.Open) (other : name ≠ "self")
    (status : Status) : forest.Seated (scopes.mark name status) frame := by
  cases scopes with
  | nil => exact seated
  | cons scope outer =>
      obtain ⟨fills, outward⟩ := seated
      refine ⟨?_, outward⟩
      cases fills with
      | self _ => cases isOpen
      | other vacant _ =>
          have stillOpen : Scopes.Open (Scopes.mark name status (scope :: outer)) :=
            Scopes.Open.mark isOpen other status
          exact .other vacant stillOpen

/-- A new frame belongs to a new scope. -/
theorem enter (seated : forest.Seated scopes frame) :
    (forest.add (some frame)).Seated ([] :: scopes) forest.nextId := by
  refine ⟨.other ?_ rfl, frame, ?_, seated.mono (.add _ _)⟩
  · rw [slot?_add]
    exact slot?_eq_none _ _ _ (Nat.le_refl _)
  · rw [enclosing?_add]
    exact if_pos rfl

/-- The frame that is made by binding a method belongs to a scope of `self`. -/
theorem bind (seated : forest.Seated scopes frame) (o : Object) :
    (forest.bind frame o).Seated (selfScope :: scopes) forest.nextId := by
  refine ⟨.self ?_, frame, enclosing?_bind forest frame o, seated.mono (.bind forest frame o)⟩
  rw [slot?_bind, if_pos ⟨rfl, rfl⟩]
  rfl

/-- Any other name than `self` is declared by scopes whose frames do not have `self`. -/
theorem exists_owner {depth : Nat} (seated : forest.Seated scopes frame) (other : name ≠ "self")
    (declared : scopes.depth? name = some depth) :
    ∃ owner, forest.ancestor? depth frame = some owner ∧ owner < forest.frames.size ∧
      forest.slot? owner "self" = none := by
  induction scopes generalizing frame depth with
  | nil => cases declared
  | cons scope outer ih =>
      obtain ⟨fills, enclosing, encloses, outward⟩ := seated
      rw [Scopes.depth?, List.findIdx?_cons] at declared
      cases here : scope.declares name with
      | true =>
          rw [here] at declared
          cases declared
          refine ⟨frame, rfl, lt_size_of_enclosing? encloses, ?_⟩
          cases fills with
          | self _ => exact absurd here (by simp [selfScope_declares other])
          | other vacant _ => exact vacant
      | false =>
          rw [here] at declared
          obtain ⟨further, found, rfl⟩ := Option.map_eq_some_iff.mp declared
          obtain ⟨owner, reached, rest⟩ := ih outward found
          refine ⟨owner, ?_, rest⟩
          rw [ancestor?, encloses]
          exact reached

/-- A search for `self` ends where the scopes say. -/
theorem locate?_self (seated : forest.Seated scopes frame) (tidy : forest.Tidy) :
    match scopes.depth? "self" with
    | none => forest.locate? "self" frame = none
    | some depth => ∃ owner o, forest.ancestor? depth frame = some owner ∧
        forest.slot? owner "self" = some (.object o) ∧
        forest.locate? "self" frame = some owner := by
  induction scopes generalizing frame with
  | nil =>
      cases seated
      exact locate?_zero_of_none tidy.vacant
  | cons scope outer ih =>
      obtain ⟨fills, enclosing, encloses, outward⟩ := seated
      rw [Scopes.depth?, List.findIdx?_cons]
      cases fills with
      | self has =>
          obtain ⟨value, found⟩ := Option.isSome_iff_exists.mp has
          obtain ⟨o, rfl⟩ := tidy.isObject found
          exact ⟨frame, o, rfl, found, by rw [tidy.linked.locate?_eq, if_pos has]⟩
      | other vacant apart =>
          have further := ih outward
          rw [apart, tidy.linked.locate?_eq, vacant, encloses]
          rw [Scopes.depth?] at further
          cases found : List.findIdx? (·.declares "self") outer with
          | none =>
              rw [found] at further
              exact further
          | some depth =>
              rw [found] at further
              obtain ⟨owner, o, reached, rest⟩ := further
              refine ⟨owner, o, ?_, rest⟩
              rw [ancestor?, encloses]
              exact reached

end Seated

end Forest

/-! ## Binding methods -/

/--
A method has been bound to an instance: there is a new function with the code of the method, in a
new frame where the method was declared, which holds the instance and nothing else.
-/
structure Closure.BoundTo (c method : Closure) (o : Object) (m n : Machine) : Prop where
  routine_eq : c.routine = method.routine
  isInitializer_eq : c.isInitializer = method.isInitializer
  identity_eq : c.identity = m.nextIdentity
  environment_eq : c.environment = m.forest.nextId
  enclosing?_eq : n.forest.enclosing? c.environment = some method.environment
  slot?_eq : ∀ name, n.forest.slot? c.environment name =
    if name = "self" then some (.object o) else none
  fields_eq : n.fields = m.fields

theorem Run.exists_bind (method : Closure) (o : Object) (m : Machine) :
    ∃ c n, Run.bind method o m = .ok c n ∧ c.BoundTo method o m n := by
  refine ⟨_, _, rfl, rfl, rfl, rfl, rfl, Forest.enclosing?_bind m.forest method.environment o, ?_,
    rfl⟩
  intro name
  refine (Forest.slot?_bind m.forest method.environment m.forest.nextId o name).trans ?_
  by_cases self : name = "self"
  · rw [if_pos ⟨rfl, self⟩, if_pos self]
  · rw [if_neg fun both => self both.2, if_neg self]
    exact Forest.slot?_eq_none _ _ _ (Nat.le_refl _)

end Rill
