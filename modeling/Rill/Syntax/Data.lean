import Rill.Data
import Rill.Syntax.Tree

/-!
# Trees as structured data

Each node is a record with one field, named for its form, that holds its parts.
-/

namespace Rill

/-- A name and its line. -/
def Ident.toData (name : Ident) : Data :=
  .record [("name", .text name.name), ("line", .natural name.line)]

/-- The name of an operator in front of its operand. -/
def UnaryOp.toData : UnaryOp → Data
  | minus => .text "Minus"
  | bang => .text "Bang"

/-- The name of an operator between operands that are both evaluated. -/
def BinaryOp.toData : BinaryOp → Data
  | plus => .text "Plus"
  | minus => .text "Minus"
  | star => .text "Star"
  | slash => .text "Slash"
  | equalEqual => .text "EqualEqual"
  | bangEqual => .text "BangEqual"
  | greater => .text "Greater"
  | greaterEqual => .text "GreaterEqual"
  | less => .text "Less"
  | lessEqual => .text "LessEqual"

/-- The name of an operator with a right operand on demand. -/
def LogicalOp.toData : LogicalOp → Data
  | and => .text "And"
  | or => .text "Or"

/-- A constant. -/
def Literal.toData : Literal → Data
  | number value => .tagged "Number" (.number value)
  | string text => .tagged "Str" (.text text)
  | bool true => .text "True"
  | bool false => .text "False"
  | nil => .text "Nil"

namespace Expr

mutual

/-- An expression as data. -/
def toData : Expr → Data
  | literal value => .tagged "Literal" value.toData
  | unary operator operand line =>
    .tagged "Unary" (.record
      [("operator", operator.toData), ("right", operand.toData), ("line", .natural line)])
  | binary left operator right line =>
    .tagged "Binary" (.record
      [("left", left.toData), ("operator", operator.toData), ("right", right.toData),
       ("line", .natural line)])
  | logical left operator right =>
    .tagged "Logical" (.record
      [("left", left.toData), ("operator", operator.toData), ("right", right.toData)])
  | group inner => .tagged "Grouping" inner.toData
  | var id name =>
    .tagged "Variable" (.record [("id", .natural id), ("name", name.toData)])
  | assign id name value =>
    .tagged "Assign" (.record
      [("id", .natural id), ("name", name.toData), ("value", value.toData)])
  | call callee arguments line =>
    .tagged "Call" (.record
      [("callee", callee.toData), ("arguments", .list (toDataAll arguments)),
       ("line", .natural line)])
  | get object name =>
    .tagged "Get" (.record [("object", object.toData), ("name", name.toData)])
  | set object name value =>
    .tagged "Set" (.record
      [("object", object.toData), ("name", name.toData), ("value", value.toData)])
  | selfRef id line => .tagged "SelfRef" (.record [("id", .natural id), ("line", .natural line)])

/-- Expressions as data. -/
def toDataAll : List Expr → List Data
  | [] => []
  | e :: rest => e.toData :: toDataAll rest

end

end Expr

/-- A loop variable as data. -/
def LoopVar.toData (counter : LoopVar) : Data :=
  .record [("name", counter.name.toData), ("value", counter.value.toData)]

namespace Stmt

/-- A routine as data, given its body. -/
def routineData (name : Ident) (params : List Ident) (body : List Data) : Data :=
  .record
    [("name", name.toData), ("params", .list (params.map Ident.toData)), ("body", .list body)]

mutual

/-- A statement as data. -/
def toData : Stmt → Data
  | expression value => .tagged "Expression" value.toData
  | print value => .tagged "Print" value.toData
  | declare name initializer =>
    .tagged "Var" (.record
      [("name", name.toData), ("initializer", .ofOption (initializer.map Expr.toData))])
  | block body => .tagged "Block" (.list (toDataAll body))
  | function ⟨name, params, body⟩ => .tagged "Function" (routineData name params (toDataAll body))
  | branch condition thenBody elseBody =>
    .tagged "If" (.record
      [("condition", condition.toData), ("then_branch", .list (toDataAll thenBody)),
       ("else_branch", match elseBody with
          | none => .null
          | some body => .list (toDataAll body))])
  | loop counter condition increment body =>
    .tagged "For" (.record
      [("initializer", .ofOption (counter.map LoopVar.toData)),
       ("condition", .ofOption (condition.map Expr.toData)),
       ("increment", .ofOption (increment.map Expr.toData)),
       ("body", .list (toDataAll body))])
  | exit line value =>
    .tagged "Return" (.record
      [("line", .natural line), ("value", .ofOption (value.map Expr.toData))])
  | classDef name methods =>
    .tagged "Class" (.record
      [("name", name.toData), ("methods", .list (toDataMethods methods))])

/-- Statements as data. -/
def toDataAll : List Stmt → List Data
  | [] => []
  | s :: rest => s.toData :: toDataAll rest

/-- Methods as data. -/
def toDataMethods : List Routine → List Data
  | [] => []
  | ⟨name, params, body⟩ :: rest =>
    routineData name params (toDataAll body) :: toDataMethods rest

end

end Stmt

end Rill
