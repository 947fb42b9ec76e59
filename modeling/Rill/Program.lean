import Rill.Scope.Resolution
import Rill.Syntax.Program
import Rill.Token.Scan

/-!
# Programs

A source text becomes a program in three steps: it is scanned, parsed and resolved. The first step
that finds faults reports all of its own, and nothing comes of the text. Occurrences are numbered
from the first one that no earlier program has used, so those of different programs are different.
-/

namespace Rill

/-- Statements that may be run, and what their names refer to. -/
structure Program where
  statements : List Stmt
  bindings : Bindings

/-- The statements of a source text or its faults, and the next occurrence to give out. -/
def parseSource (source : String) (fresh : Occurrence) :
    Except (List Diagnostic) (List Stmt) × Occurrence :=
  match tokens source with
  | .error faults => (.error faults, fresh)
  | .ok tokens => parse tokens fresh

/-- The program of a source text or its faults, and the next occurrence to give out. -/
def compile (source : String) (fresh : Occurrence) :
    Except (List Diagnostic) Program × Occurrence :=
  match parseSource source fresh with
  | (.error faults, fresh) => (.error faults, fresh)
  | (.ok statements, fresh) =>
    match resolve statements with
    | .error faults => (.error faults, fresh)
    | .ok bindings => (.ok ⟨statements, bindings⟩, fresh)

end Rill
