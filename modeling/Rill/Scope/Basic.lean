import Rill.Diagnostic
import Rill.Syntax.Tree

/-!
# Scopes

Blocks, branches, loops, functions and classes open scopes. While a program is resolved, the scopes
open at some place are a stack with the innermost first; the globals are no scope of it. A name is
declared in a scope before its first value is computed and defined after it.
-/

namespace Rill

/-- How far the declaration of a name has got. -/
inductive Status
  | declared
  | defined
deriving DecidableEq

/-- The names of a scope with their status; a later entry for a name stands in front. -/
abbrev Scope := List (String × Status)

namespace Scope

/-- The status of a name, if the scope declares it. -/
def status? (scope : Scope) (name : String) : Option Status := scope.lookup name

/-- Whether a scope declares a name. -/
def declares (scope : Scope) (name : String) : Bool := (scope.status? name).isSome

end Scope

/-- The scopes that are open, innermost first. -/
abbrev Scopes := List Scope

namespace Scopes

/-- Sets the status of a name in the innermost scope. At the level of the globals it has none. -/
def mark (name : String) (status : Status) : Scopes → Scopes
  | [] => []
  | scope :: outer => ((name, status) :: scope) :: outer

/-- Whether the innermost scope declares a name. -/
def declaresHere (scopes : Scopes) (name : String) : Bool :=
  match scopes with
  | [] => false
  | scope :: _ => scope.declares name

/-- Whether a name is declared in the innermost scope and has no value yet. -/
def isUndefinedHere (scopes : Scopes) (name : String) : Bool :=
  match scopes with
  | [] => false
  | scope :: _ => scope.status? name = some .declared

/--
How many scopes lie between a place and the innermost scope that declares a name, if one does.
-/
def depth? (scopes : Scopes) (name : String) : Option Nat :=
  scopes.findIdx? (·.declares name)

end Scopes

end Rill
