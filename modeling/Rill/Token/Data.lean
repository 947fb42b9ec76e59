import Rill.Data
import Rill.Token.Basic

/-!
# Tokens as structured data
-/

namespace Rill

/-- A kind of token by its name, with what it denotes if that is not clear from the kind. -/
def Kind.toData (kind : Kind) : Data :=
  match kind with
  | .string text => .tagged kind.name (.text text)
  | .number value => .tagged kind.name (.number value)
  | _ => .text kind.name

/-- A token as a record. -/
def Token.toData (t : Token) : Data :=
  .record [("token_type", t.kind.toData), ("lexeme", .text t.lexeme), ("line", .natural t.line)]

end Rill
