import Rill.Proofs.Machine.Invariant
import Rill.Proofs.Property.Declarations
import Rill.Proofs.Receiver.Frames

/-!
# Reading and writing properties

The fields of all instances are kept apart by identity and name. So a write is seen by the reads of
that name on that instance and by no others, through whatever values the instance is reached. Fields
hide methods; the methods of an instance are those of its class. Expressions that read or write a
property do so behind the evaluation of their parts.
-/

namespace Rill

/-- What an instance has under a name. -/
inductive Property
  | field (v : Value)
  | method (method : Closure)
  | absent

namespace Machine

/-- The value of a field of an instance. -/
def field? (m : Machine) (identity : Identity) (name : String) : Option Value :=
  (m.heap.fieldsOf identity)[name]?

/-- What an instance has under a name: a field if there is one, or else a method of its class. -/
def property (m : Machine) (o : Object) (name : String) : Property :=
  match (m.fieldsOf o)[name]? with
  | some v => .field v
  | none =>
    match o.cls.methods[name]? with
    | some method => .method method
    | none => .absent

variable {m n : Machine} {o : Object} {name : String}

theorem property_congr (same : (n.fieldsOf o)[name]? = (m.fieldsOf o)[name]?) :
    n.property o name = m.property o name := by
  rw [property, property, same]

theorem property_of_field {v : Value} (found : (m.fieldsOf o)[name]? = some v) :
    m.property o name = .field v := by
  rw [property, found]

/-- Without a field, an instance has the method that its class declaration has last under a name. -/
theorem property_of_declared {d : ClassDeclaration} (declared : o.cls = d.made)
    (vacant : (m.fieldsOf o)[name]? = none) :
    match d.method? name with
    | some routine => ∃ method, m.property o name = .method method ∧ method.routine = routine ∧
        method.environment = d.frame ∧ method.isInitializer = routine.isInitializer
    | none => m.property o name = .absent := by
  rw [property, vacant, declared, ← ClassDeclaration.made_routine]
  cases found : d.made.methods[name]? with
  | none => exact rfl
  | some method => exact ⟨method, rfl, rfl, ClassDeclaration.made_closure found⟩

end Machine

/-- A property has been written: it is as written, and all others are as they were. -/
structure Machine.Wrote (m : Machine) (o : Object) (name : String) (v : Value) (n : Machine) :
    Prop where
  property_eq : n.property o name = .field v
  apart : ∀ (other : Object) (key : String), other.identity ≠ o.identity ∨ key ≠ name →
    n.property other key = m.property other key

/-- How a read ends: a method is bound to the instance anew. -/
def Property.Read (p : Property) (o : Object) (name : Ident) (m : Machine)
    (ending : EStateM.Result Halt Machine Value) : Prop :=
  match p with
  | .field v => ending = .ok v m
  | .method declared => ∃ c n, ending = .ok (.closure c) n ∧ c.BoundTo declared o m n
  | .absent => ending = .error (.fault ⟨name.line, .undefinedProperty name.name⟩) m

namespace Run

theorem getProperty_read (o : Object) (name : Ident) (m : Machine) :
    (m.property o name.name).Read o name m (getProperty o name m) := by
  rw [Machine.property, getProperty, get_bind]
  cases (m.fieldsOf o)[name.name]? with
  | some v => exact rfl
  | none =>
      dsimp only
      cases o.cls.methods[name.name]? with
      | none => exact rfl
      | some method =>
          obtain ⟨c, n, bound, made⟩ := exists_bind method o m
          exact ⟨c, n, bind_of_ok bound, made⟩

/-- A write is seen under its name on its instance, and nowhere else. -/
theorem setProperty_wrote (m : Machine) (o : Object) (name : String) (v : Value) :
    ∃ n, setProperty o name v m = .ok () n ∧ m.Wrote o name v n := by
  have fieldsOf (other : Object) := Heap.fieldsOf_setFields m.heap o.identity other.identity
    ((m.heap.fieldsOf o.identity).insert name v)
  refine ⟨_, rfl, Machine.property_of_field ?_, fun other key apart =>
    Machine.property_congr ?_⟩
  · refine (congrArg (fun fields : Table Value => fields[name]?) (fieldsOf o)).trans ?_
    rw [if_pos rfl, getElem?_insert_eq, if_pos rfl]
  · refine (congrArg (fun fields : Table Value => fields[key]?) (fieldsOf other)).trans ?_
    split
    · next same =>
        rw [getElem?_insert_eq, if_neg (apart.resolve_left (absurd same)), ← same]
        rfl
    · rfl

variable {host : Hosting} {effort : Nat} {object e : Expr} {o : Object} {v : Value}
  {m m₁ m₂ : Machine}

/-- A read is evaluated on the machine that the evaluation of the instance leaves. -/
theorem evaluate_get (name : Ident) (ran : evaluate host effort object m = .ok (.object o) m₁) :
    (m₁.property o name.name).Read o name m₁
      (evaluate host (effort + 1) (.get object name) m) := by
  have reads : evaluate host (effort + 1) (.get object name) m = getProperty o name m₁ := by
    rw [evaluate]
    exact bind_of_ok ran
  rw [reads]
  exact getProperty_read o name m₁

/-- A write is evaluated last, on the machine that the evaluation of the value leaves. -/
theorem evaluate_set (name : Ident) (ran : evaluate host effort object m = .ok (.object o) m₁)
    (valued : evaluate host effort e m₁ = .ok v m₂) :
    ∃ n, evaluate host (effort + 1) (.set object name e) m = .ok v n ∧
      m₂.Wrote o name.name v n := by
  obtain ⟨n, set, wrote⟩ := setProperty_wrote m₂ o name.name v
  refine ⟨n, ?_, wrote⟩
  rw [evaluate]
  exact (bind_of_ok ran).trans ((bind_of_ok valued).trans (bind_of_ok set))

end Run

end Rill
