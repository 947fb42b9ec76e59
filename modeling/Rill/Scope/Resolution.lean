import Rill.Scope.Basic
import Std.Data.TreeMap

/-!
# Resolution

Resolving a program tells for each mention of a name how many scopes lie between it and the
declaration it refers to, and finds the places where a program breaks the rules of scopes. A name
that no open scope declares refers to the globals. Resolution goes over a program once, in order:
a declaration is seen by what follows it in its scope, not by what precedes it.
-/

namespace Rill

/-- How many scopes lie between a mention and its declaration. What is absent is global. -/
abbrev Bindings := Std.TreeMap Occurrence Nat

/-- What resolution has to say about a place in a program. -/
inductive Finding
  | fault (fault : Diagnostic)
  | depth (id : Occurrence) (depth : Nat)
deriving DecidableEq

/-- The innermost routine around a place, as far as returning from it is concerned. -/
inductive RoutinePlace
  | outside
  | routine
  | initializer
deriving DecidableEq

/-- What is around a place besides its scopes. -/
structure Place where
  routine : RoutinePlace
  inClass : Bool

namespace Finding

/-- The depth of a mention, unless it is global. -/
def ofMention (scopes : Scopes) (id : Occurrence) (name : String) : List Finding :=
  match scopes.depth? name with
  | some d => [.depth id d]
  | none => []

/-- A broken rule of scopes. -/
def ofFault (line : Nat) (rule : ScopeFault) : Finding := .fault ⟨line, .scope rule⟩

/-- Reports a name that its scope declares already. -/
def ofDeclaration (scopes : Scopes) (name : Ident) : List Finding :=
  if scopes.declaresHere name.name then [ofFault name.line (.declaredTwice name.name)] else []

end Finding

/-! ## Expressions -/

namespace Expr

mutual

/-- The findings in an expression. A property is set after its new value is resolved. -/
def findings (scopes : Scopes) (inClass : Bool) : Expr → List Finding
  | literal _ => []
  | unary _ operand _ => operand.findings scopes inClass
  | binary left _ right _ => left.findings scopes inClass ++ right.findings scopes inClass
  | logical left _ right => left.findings scopes inClass ++ right.findings scopes inClass
  | group inner => inner.findings scopes inClass
  | var id name =>
    (if scopes.isUndefinedHere name.name then
      [Finding.ofFault name.line (.readInOwnInitializer name.name)]
    else []) ++ Finding.ofMention scopes id name.name
  | assign id name value =>
    value.findings scopes inClass ++ Finding.ofMention scopes id name.name
  | call callee arguments _ =>
    callee.findings scopes inClass ++ findingsAll scopes inClass arguments
  | get object _ => object.findings scopes inClass
  | set object _ value => value.findings scopes inClass ++ object.findings scopes inClass
  | selfRef id line =>
    if inClass then Finding.ofMention scopes id "self"
    else [Finding.ofFault line .selfOutsideClass]

/-- The findings in expressions, in order. -/
def findingsAll (scopes : Scopes) (inClass : Bool) : List Expr → List Finding
  | [] => []
  | e :: rest => e.findings scopes inClass ++ findingsAll scopes inClass rest

end

/-- The findings in an expression that may be absent. -/
def findingsOption (scopes : Scopes) (inClass : Bool) : Option Expr → List Finding
  | some e => e.findings scopes inClass
  | none => []

end Expr

/-! ## Statements -/

/-- Declares and defines the parameters of a routine, and reports those declared twice. -/
def resolveParams (scopes : Scopes) : List Ident → Scopes × List Finding
  | [] => (scopes, [])
  | name :: rest =>
    let (inner, later) := resolveParams (scopes.mark name.name .defined) rest
    (inner, Finding.ofDeclaration scopes name ++ later)

/-- Opens the scope of a loop and resolves the first value of its variable in it. -/
def resolveLoopVar (scopes : Scopes) (inClass : Bool) : Option LoopVar → Scopes × List Finding
  | none => ([] :: scopes, [])
  | some counter =>
    let inner := Scopes.mark counter.name.name .declared ([] :: scopes)
    (inner.mark counter.name.name .defined, counter.value.findings inner inClass)

/--
The findings at a return: it must stand in a routine, and must give no value in an initializer.
-/
def returnFindings (scopes : Scopes) (place : Place) (line : Nat) (value : Option Expr) :
    List Finding :=
  (if place.routine = .outside then [Finding.ofFault line .returnOutsideFunction] else []) ++
    (if place.routine = .initializer ∧ value.isSome then
      [Finding.ofFault line .valueFromInitializer]
    else []) ++
    Expr.findingsOption scopes place.inClass value

namespace Stmt

mutual

/-- The findings in a statement, and the scopes as they are behind it. -/
def resolve (place : Place) (scopes : Scopes) : Stmt → Scopes × List Finding
  | expression value => (scopes, value.findings scopes place.inClass)
  | print value => (scopes, value.findings scopes place.inClass)
  | declare name initializer =>
    let inner := scopes.mark name.name .declared
    (inner.mark name.name .defined,
      Finding.ofDeclaration scopes name ++ Expr.findingsOption inner place.inClass initializer)
  | block body => (scopes, resolveAll place ([] :: scopes) body)
  | function ⟨name, params, body⟩ =>
    let inner := scopes.mark name.name .defined
    let (own, found) := resolveParams ([] :: inner) params
    (inner, Finding.ofDeclaration scopes name ++ found ++
      resolveAll { place with routine := .routine } own body)
  | branch condition thenBody elseBody =>
    (scopes, condition.findings scopes place.inClass ++
      resolveAll place ([] :: scopes) thenBody ++
      match elseBody with
      | none => []
      | some body => resolveAll place ([] :: scopes) body)
  | loop counter condition increment body =>
    let (inner, found) := resolveLoopVar scopes place.inClass counter
    (scopes, found ++ Expr.findingsOption inner place.inClass condition ++
      Expr.findingsOption inner place.inClass increment ++ resolveAll place ([] :: inner) body)
  | exit line value => (scopes, returnFindings scopes place line value)
  | classDef name methods =>
    let inner := scopes.mark name.name .defined
    (inner, Finding.ofDeclaration scopes name ++
      resolveMethods ([("self", .defined)] :: inner) methods)

/-- The findings in statements that share a scope. -/
def resolveAll (place : Place) (scopes : Scopes) : List Stmt → List Finding
  | [] => []
  | s :: rest =>
    let (behind, found) := s.resolve place scopes
    found ++ resolveAll place behind rest

/-- The findings in methods, which see `self` in the scope around their parameters. -/
def resolveMethods (scopes : Scopes) : List Routine → List Finding
  | [] => []
  | ⟨name, params, body⟩ :: rest =>
    let kind := if name.name = initializerName then .initializer else .routine
    let (own, found) := resolveParams ([] :: scopes) params
    found ++ resolveAll ⟨kind, true⟩ own body ++ resolveMethods scopes rest

end

end Stmt

/-! ## Programs -/

/-- The findings in a program. Its statements stand outside all scopes. -/
def programFindings (program : List Stmt) : List Finding :=
  Stmt.resolveAll ⟨.outside, false⟩ [] program

/-- The broken rules among findings. -/
def findingFaults (found : List Finding) : List Diagnostic :=
  found.filterMap fun
    | .fault fault => some fault
    | .depth _ _ => none

/-- The depths among findings. -/
def findingDepths (found : List Finding) : List (Occurrence × Nat) :=
  found.filterMap fun
    | .fault _ => none
    | .depth id d => some (id, d)

/-- The bindings of a program, or all the rules it breaks. -/
def resolve (program : List Stmt) : Except (List Diagnostic) Bindings :=
  let found := programFindings program
  match findingFaults found with
  | [] => .ok ((∅ : Bindings).insertMany (findingDepths found))
  | faults => .error faults

end Rill
