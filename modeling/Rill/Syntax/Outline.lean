import Rill.Number.Notation
import Rill.Syntax.Tree

/-!
# Outlines

A tree is shown as one line of nested parentheses, each holding the name of a form or operator and
the outlines of its parts. A program is shown as one line for each of its statements.
-/

namespace Rill

namespace Literal

/-- The outline of a constant. Strings are shown as they are, without quotes. -/
def outline : Literal → String
  | number value => value.treeText
  | string text => text
  | bool true => "true"
  | bool false => "false"
  | nil => "nil"

end Literal

namespace Expr

mutual

/-- The outline of an expression. -/
def outline : Expr → String
  | literal value => value.outline
  | unary operator operand _ => "(" ++ operator.symbol ++ " " ++ operand.outline ++ ")"
  | binary left operator right _ =>
    "(" ++ operator.symbol ++ " " ++ left.outline ++ " " ++ right.outline ++ ")"
  | logical left operator right =>
    "(" ++ operator.symbol ++ " " ++ left.outline ++ " " ++ right.outline ++ ")"
  | group inner => "(group " ++ inner.outline ++ ")"
  | var _ name => name.name
  | assign _ name value => "(= " ++ name.name ++ " " ++ value.outline ++ ")"
  | call callee arguments _ => "(call " ++ callee.outline ++ outlineAll arguments ++ ")"
  | get object name => "(. " ++ object.outline ++ " " ++ name.name ++ ")"
  | set object name value =>
    "(.= " ++ object.outline ++ " " ++ name.name ++ " " ++ value.outline ++ ")"
  | selfRef _ _ => "self"

/-- The outlines of expressions, each behind a space. -/
def outlineAll : List Expr → String
  | [] => ""
  | e :: rest => " " ++ e.outline ++ outlineAll rest

end

/-- The outline of an expression that may be absent. -/
def outlineOption : Option Expr → String
  | some e => e.outline
  | none => "_"

end Expr

namespace LoopVar

/-- The outline of a loop variable that may be absent. -/
def outlineOption : Option LoopVar → String
  | some counter => "(= " ++ counter.name.name ++ " " ++ counter.value.outline ++ ")"
  | none => "_"

end LoopVar

namespace Stmt

/-- The outline of a routine, given that of its body. -/
def outlineRoutine (word : String) (name : Ident) (params : List Ident) (body : String) : String :=
  "(" ++ word ++ " " ++ name.name ++ " (" ++ " ".intercalate (params.map Ident.name) ++ ")" ++
    body ++ ")"

mutual

/-- The outline of a statement. -/
def outline : Stmt → String
  | expression value => "(expr " ++ value.outline ++ ")"
  | print value => "(print " ++ value.outline ++ ")"
  | declare name none => "(let " ++ name.name ++ ")"
  | declare name (some value) => "(let " ++ name.name ++ " " ++ value.outline ++ ")"
  | block body => "(block" ++ outlineAll body ++ ")"
  | function ⟨name, params, body⟩ => outlineRoutine "fn" name params (outlineAll body)
  | branch condition thenBody none =>
    "(if " ++ condition.outline ++ " (then" ++ outlineAll thenBody ++ "))"
  | branch condition thenBody (some elseBody) =>
    "(if " ++ condition.outline ++ " (then" ++ outlineAll thenBody ++ ") (else" ++
      outlineAll elseBody ++ "))"
  | loop counter condition increment body =>
    "(for " ++ LoopVar.outlineOption counter ++ " " ++ Expr.outlineOption condition ++ " " ++
      Expr.outlineOption increment ++ " (body" ++ outlineAll body ++ "))"
  | exit _ none => "(return)"
  | exit _ (some value) => "(return " ++ value.outline ++ ")"
  | classDef name methods => "(class " ++ name.name ++ outlineMethods methods ++ ")"

/-- The outlines of statements, each behind a space. -/
def outlineAll : List Stmt → String
  | [] => ""
  | s :: rest => " " ++ s.outline ++ outlineAll rest

/-- The outlines of methods, each behind a space. -/
def outlineMethods : List Routine → String
  | [] => ""
  | ⟨name, params, body⟩ :: rest =>
    " " ++ outlineRoutine "method" name params (outlineAll body) ++ outlineMethods rest

end

end Stmt

/-- The outline of a program, one line for each statement. -/
def outlineProgram (program : List Stmt) : String :=
  "\n".intercalate (program.map Stmt.outline)

end Rill
