import Rill.Proofs.Machine.Continuity

/-!
# Declarations

A statement that declares a name in the scope that it stands in makes a value and then defines the
name. So it either halts while it makes the value, or comes to its end with the name defined. The
methods of a class get their identities in the order in which they are written.
-/

namespace Rill

/-- The name that a statement declares in the scope that it stands in. -/
def Stmt.declared? : Stmt → Option String
  | .declare name _ | .function ⟨name, _, _⟩ | .classDef name _ => some name.name
  | .expression _ | .print _ | .block _ | .branch _ _ _ | .loop _ _ _ _ | .exit _ _ => none

/-- The methods of a class, if they are given identities in order. -/
def methodsFrom (frame : FrameId) (table : Table Closure) : Identity → List Routine → Table Closure
  | _, [] => table
  | first, routine :: rest =>
    methodsFrom frame
      (table.insert routine.name.name ⟨first, routine, frame, routine.isInitializer⟩)
      (first + 1) rest

namespace Run

theorem makeMethods_eq (frame : FrameId) (table : Table Closure) (routines : List Routine)
    (m : Machine) :
    makeMethods frame table routines m =
      .ok (methodsFrom frame table m.nextIdentity routines)
        { m with nextIdentity := m.nextIdentity + routines.length } := by
  induction routines generalizing table m with
  | nil => rfl
  | cons routine rest ih =>
      have first : newIdentity m =
          .ok m.nextIdentity { m with nextIdentity := m.nextIdentity + 1 } := rfl
      rw [makeMethods, bind_of_ok first, ih, List.length_cons, Nat.add_comm rest.length,
        ← Nat.add_assoc]
      rfl

/-- Makes the value that a statement gives to the name that it declares. -/
def declaredValue (evaluate : Expr → Run Value) : Stmt → Run Value
  | .declare _ initializer => evaluateOption evaluate initializer
  | .function routine => do
    return .closure ⟨← newIdentity, routine, (← get).current, false⟩
  | .classDef name methods => do
    let methods ← makeMethods (← get).current ∅ methods
    return .cls ⟨← newIdentity, name.name, methods⟩
  | .expression _ | .print _ | .block _ | .branch _ _ _ | .loop _ _ _ _ | .exit _ _ => return .nil

variable {evaluate : Expr → Run Value} {execute : Stmt → Run Flow} {s : Stmt} {name : String}

/-- A declaration defines its name when its value has been made. -/
theorem executeWith_declared (effort : Nat) (declared : s.declared? = some name) :
    executeWith evaluate execute effort s = (do
      let value ← declaredValue evaluate s
      define name value
      return .next) := by
  cases s with
  | declare name initializer =>
      cases declared
      rfl
  | function routine =>
      cases declared
      rfl
  | classDef name methods =>
      cases declared
      simp only [executeWith, declaredValue, bind_assoc, pure_bind]
  | _ => cases declared

theorem declaredValue_continues (evaluates : ∀ e, (evaluate e).Continues) (s : Stmt) :
    (declaredValue evaluate s).Continues := by
  cases s with
  | declare name initializer => exact evaluateOption_continues evaluates initializer
  | function routine => exact .bind newIdentity_continues fun _ => .bind .get fun _ => .pure _
  | classDef name methods =>
      exact .bind .get fun m => .bind (makeMethods_continues _ _ methods) fun _ =>
        .bind newIdentity_continues fun _ => .pure _
  | _ => exact .pure _

end Run

end Rill
