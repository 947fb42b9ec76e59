import Rill.Proofs.Machine.Declarations
import Rill.Proofs.Relabelling.Execution

/-!
# Functions and classes in another order

The declaration of a function or of a class gives out identities, as many as it has functions and
classes in it, and defines its name; it looks at nothing that another declaration changes. So two
declarations of different names can be exchanged. Each value keeps everything but its identities,
which the two declarations have given out in another order.
-/

namespace Rill

/-- The declaration of a function or of a class. -/
inductive Definition
  | function (routine : Routine)
  | classDef (name : Ident) (methods : List Routine)

namespace Definition

/-- The name that is declared. -/
def name : Definition → String
  | function routine => routine.name.name
  | classDef name _ => name.name

def statement : Definition → Stmt
  | function routine => .function routine
  | classDef name methods => .classDef name methods

/-- How many identities are given out. -/
def width : Definition → Nat
  | function _ => 1
  | classDef _ methods => methods.length + 1

/-- The value in a frame, if identities are given out from some one on. -/
def value (frame : FrameId) (first : Identity) : Definition → Value
  | function routine => .closure ⟨first, routine, frame, false⟩
  | classDef name methods =>
    .cls ⟨first + methods.length, name.name, methodsFrom frame ∅ first methods⟩

end Definition

/-- The machine behind a declaration of a function or of a class. -/
def Machine.declare (m : Machine) (d : Definition) : Machine :=
  { m with
    forest := m.forest.define m.current d.name (d.value m.current m.nextIdentity)
    nextIdentity := m.nextIdentity + d.width }

theorem Machine.declare_declare (m : Machine) (d e : Definition) :
    (m.declare d).declare e =
      { m with
        forest :=
          (m.forest.define m.current d.name (d.value m.current m.nextIdentity)).define m.current
            e.name (e.value m.current (m.nextIdentity + d.width))
        nextIdentity := m.nextIdentity + (d.width + e.width) } := by
  rw [declare, declare, Nat.add_assoc]

namespace Run

variable {host : Hosting} {effort : Nat}

theorem execute_definition (d : Definition) (m : Machine) :
    execute host (effort + 1) d.statement m = .ok .next (m.declare d) := by
  cases d with
  | function routine => rfl
  | classDef name methods =>
      rw [execute, Definition.statement, executeWith, get_bind,
        bind_of_ok (makeMethods_eq m.current ∅ methods m)]
      rfl

theorem runProgram_definition (d : Definition) (rest : List Stmt) (m : Machine) :
    runProgram host (effort + 1) (d.statement :: rest) m =
      runProgram host (effort + 1) rest (m.declare d) := by
  rw [runProgram, bind_of_ok (execute_definition d m)]

end Run

/-! ## Variables in another order -/

namespace Forest

variable (forest : Forest) (frame : FrameId) {name other : String} (different : name ≠ other)
  (value value' : Value)

include different

/-- It makes no difference which of two names of a frame is given its value first. -/
theorem slot?_define_comm (place : FrameId) (key : String) :
    ((forest.define frame name value).define frame other value').slot? place key =
      ((forest.define frame other value').define frame name value).slot? place key := by
  by_cases present : frame < forest.frames.size
  · have there (name : String) (value : Value) :
        frame < (forest.define frame name value).frames.size := by
      rwa [size_define]
    rw [slot?_define _ _ _ _ (there _ _), slot?_define _ _ _ _ present,
      slot?_define _ _ _ _ (there _ _), slot?_define _ _ _ _ present]
    by_cases first : place = frame ∧ key = name
    · rw [if_neg fun second => different (first.2.symm.trans second.2), if_pos first, if_pos first]
    · rw [if_neg first, if_neg first]
  · have absent := Nat.not_lt.mp present
    have nowhere (name : String) (value : Value) :
        (forest.define frame name value).frames.size ≤ frame := by
      rwa [size_define]
    rw [slot?_define_of_absent _ _ _ _ _ (nowhere _ _), slot?_define_of_absent _ _ _ _ _ absent,
      slot?_define_of_absent _ _ _ _ _ (nowhere _ _), slot?_define_of_absent _ _ _ _ _ absent]

end Forest

namespace Relabelling

/-! ## Identities in another order -/

/--
As many identities as each of two declarations needs are given out to them from some one on, first
to the one and then to the other, or first to the other and then to the one.
-/
def exchange (next first second : Nat) : Relabelling where
  label i :=
    if i < next then i
    else if i < next + first then i + second
    else if i < next + (first + second) then i - first
    else i
  injective := by
    intro i j equal
    grind
  limit := next + (first + second)
  label_of_le := by
    intro i le
    grind

section Exchange

variable {next first second i : Nat}

theorem exchange_of_lt (lt : i < next) : (exchange next first second).label i = i := if_pos lt

theorem exchange_first (lt : i < first) :
    (exchange next first second).label (next + i) = next + second + i := by
  simp only [exchange]
  grind

theorem exchange_second (lt : i < second) :
    (exchange next first second).label (next + first + i) = next + i := by
  simp only [exchange]
  grind

theorem le_exchange (le : next ≤ i) : next ≤ (exchange next first second).label i := by
  simp only [exchange]
  grind

theorem covers_exchange (next first second : Nat) :
    same.Covers next (exchange next first second) (next + (first + second)) :=
  ⟨Nat.le_add_right _ _, fun lt => exchange_of_lt lt⟩

end Exchange

variable {π : Relabelling} {next first first' : Identity} {m m' : Machine}

/-! ## Declared values -/

theorem methodsFrom_relabelled (frame : FrameId) {table table' : Table Closure}
    (tables : MethodsRelabelled π next table table') (routines : List Routine)
    (given : ∀ i < routines.length, first + i < next ∧ π.label (first + i) = first' + i) :
    MethodsRelabelled π next (methodsFrom frame table first routines)
      (methodsFrom frame table' first' routines) := by
  induction routines generalizing table table' first first' with
  | nil => exact tables
  | cons routine rest ih =>
      obtain ⟨lt, label_eq⟩ := given 0 (Nat.succ_pos _)
      have method : Closure.Relabelled π next ⟨first, routine, frame, routine.isInitializer⟩
          ⟨first', routine, frame, routine.isInitializer⟩ := by
        refine ⟨lt, ?_⟩
        rw [show π.label first = first' from label_eq]
      refine ih (tables.insert routine.name.name method) fun i lt => ?_
      rw [Nat.add_assoc, Nat.add_assoc, Nat.add_comm 1 i]
      exact given (i + 1) (Nat.succ_lt_succ lt)

/-- The value of a declaration has the identities that it is given. -/
theorem value_relabelled (d : Definition) (frame : FrameId)
    (given : ∀ i < d.width, first + i < next ∧ π.label (first + i) = first' + i) :
    (d.value frame first).Relabelled π next (d.value frame first') := by
  cases d with
  | function routine =>
      obtain ⟨lt, label_eq⟩ := given 0 Nat.one_pos
      refine .closure ⟨lt, ?_⟩
      rw [show π.label first = first' from label_eq]
  | classDef name methods =>
      obtain ⟨lt, label_eq⟩ := given methods.length (Nat.lt_succ_self _)
      refine .cls ⟨lt, label_eq.symm, rfl, ?_⟩
      exact methodsFrom_relabelled frame methodsRelabelled_empty methods fun i lt =>
        given i (Nat.lt_succ_of_lt lt)

/-! ## The exchange -/

/-- Two declarations of different names leave machines that agree, in either order. -/
theorem Agree.exchange (agree : same.Agree m m') {d e : Definition} (different : d.name ≠ e.name) :
    (exchange m.nextIdentity d.width e.width).Agree ((m.declare d).declare e)
      ((m'.declare e).declare d) := by
  obtain ⟨forest, fields, next, current, bindings, sink, calls⟩ := m
  obtain ⟨forest', fields', next', current', bindings', sink', calls'⟩ := m'
  obtain rfl : next = next' := agree.nextIdentity_eq
  obtain rfl : current = current' := agree.current_eq
  have given := agree.giveOut (d.width + e.width) (covers_exchange next _ _) (Nat.le_refl _)
    le_exchange
  have first : (d.value current next).Relabelled (exchange next d.width e.width)
      (next + (d.width + e.width)) (d.value current (next + e.width)) :=
    value_relabelled d current fun i lt =>
      ⟨Nat.add_lt_add_left (Nat.lt_add_right _ lt) next, exchange_first lt⟩
  have second : (e.value current (next + d.width)).Relabelled (exchange next d.width e.width)
      (next + (d.width + e.width)) (e.value current next) :=
    value_relabelled e current fun i lt =>
      ⟨Nat.add_assoc next _ i ▸ Nat.add_lt_add_left (Nat.add_lt_add_left lt _) next,
        exchange_second lt⟩
  have defined := (given.define current d.name first).define current e.name second
  -- All that is left is which of the two names the second machine gives its value first.
  rw [Machine.declare_declare, Machine.declare_declare, Nat.add_comm e.width]
  refine defined.congr_forest ?_ ?_ ?_
  · simp only [Forest.size_define]
  · simp only [Forest.enclosing?_define, implies_true]
  · exact Forest.slot?_define_comm forest' current different _ _

end Relabelling

end Rill
