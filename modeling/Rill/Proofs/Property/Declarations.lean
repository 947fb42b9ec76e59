import Rill.Proofs.Machine.Declarations

/-!
# Classes as they are declared

To execute a class declaration is to make its methods, with identities in the order in which they
are written, and then the class. So what is declared, where, and the next identity say all about the
class. Of several methods with one name it has the last.
-/

namespace Rill

section

variable {frame : FrameId} {name : String} {method : Closure}

/-- Of several methods with one name, the last counts. -/
theorem methodsFrom_routine (table : Table Closure) (first : Identity) (methods : List Routine)
    (name : String) :
    ((methodsFrom frame table first methods)[name]?).map Closure.routine =
      ((methods.filter fun routine => routine.name.name = name).getLast?).or
        ((table[name]?).map Closure.routine) := by
  induction methods generalizing first table with
  | nil => rfl
  | cons routine rest ih =>
      rw [methodsFrom, ih, getElem?_insert_eq]
      by_cases named : name = routine.name.name
      · rw [if_pos named, List.filter_cons, if_pos (decide_eq_true named.symm), List.getLast?_cons]
        cases (rest.filter fun routine => routine.name.name = name).getLast? <;> rfl
      · rw [if_neg named, List.filter_cons, if_neg fun same => named (of_decide_eq_true same).symm]

theorem methodsFrom_closure {table : Table Closure} {first : Identity} {methods : List Routine}
    (found : (methodsFrom frame table first methods)[name]? = some method) :
    table[name]? = some method ∨
      method.environment = frame ∧ method.isInitializer = method.routine.isInitializer := by
  induction methods generalizing first table with
  | nil => exact .inl found
  | cons routine rest ih =>
      rcases ih found with there | made
      · rw [getElem?_insert_eq] at there
        split at there
        · cases there
          exact .inr ⟨rfl, rfl⟩
        · exact .inl there
      · exact .inr made

end

/-- A class declaration that is executed. -/
structure ClassDeclaration where
  name : String
  methods : List Routine
  /-- The frame that it is executed in. -/
  frame : FrameId
  /-- The next identity, which its first method gets. -/
  first : Identity

namespace ClassDeclaration

/-- The class that is made. -/
def made (d : ClassDeclaration) : Class :=
  ⟨d.first + d.methods.length, d.name, methodsFrom d.frame ∅ d.first d.methods⟩

/-- What is declared under a name: of several methods, the last. -/
def method? (d : ClassDeclaration) (name : String) : Option Routine :=
  (d.methods.filter fun routine => routine.name.name = name).getLast?

variable {d : ClassDeclaration} {name : String} {method : Closure}

theorem made_routine (d : ClassDeclaration) (name : String) :
    (d.made.methods[name]?).map Closure.routine = d.method? name := by
  refine (methodsFrom_routine _ _ _ _).trans ?_
  rw [Std.TreeMap.getElem?_emptyc]
  exact Option.or_none

theorem made_closure (found : d.made.methods[name]? = some method) :
    method.environment = d.frame ∧ method.isInitializer = method.routine.isInitializer := by
  refine (methodsFrom_closure found).resolve_left fun absurd => ?_
  rw [Std.TreeMap.getElem?_emptyc] at absurd
  cases absurd

theorem method?_eq_some {routine : Routine} (declared : d.method? name = some routine) :
    routine ∈ d.methods ∧ routine.name.name = name :=
  have there := List.mem_filter.mp (List.mem_of_getLast? declared)
  ⟨there.1, of_decide_eq_true there.2⟩

theorem method?_isSome : (d.method? name).isSome ↔ ∃ r ∈ d.methods, r.name.name = name := by
  rw [method?, List.getLast?_isSome, ne_eq, List.filter_eq_nil_iff]
  simp only [decide_eq_true_eq, Classical.not_forall, Classical.not_not, exists_prop]

/-- A method of a class is the last one declared under its name. -/
theorem mem_of_made (found : d.made.methods[name]? = some method) : method.routine ∈ d.methods :=
  have declared : d.method? name = some method.routine := by rw [← made_routine, found]; rfl
  (method?_eq_some declared).1

end ClassDeclaration

/-- A class declaration as it is executed on a machine. -/
def Machine.declares (m : Machine) (name : Ident) (methods : List Routine) : ClassDeclaration :=
  ⟨name.name, methods, m.current, m.nextIdentity⟩

theorem Run.declaredValue_classDef (evaluate : Expr → Run Value) (name : Ident)
    (methods : List Routine) (m : Machine) :
    declaredValue evaluate (.classDef name methods) m =
      .ok (.cls (m.declares name methods).made)
        { m with nextIdentity := (m.declares name methods).made.identity + 1 } := by
  rw [declaredValue, get_bind, bind_of_ok (makeMethods_eq _ _ _ _)]
  rfl

end Rill
