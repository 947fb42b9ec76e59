import Rill.Number.Basic

/-!
# Syntax trees

Programs are lists of statements. Every reading or writing of a variable, and every `self`, is an
occurrence with an identity of its own, so that facts about it can be kept beside the tree.
-/

namespace Rill

/-- The identity of an expression that names a variable or `self`. -/
abbrev Occurrence := Nat

/-- A name as it stands on some line. -/
structure Ident where
  name : String
  line : Nat
deriving DecidableEq, Inhabited

/-- A constant. -/
inductive Literal
  | number (value : Number)
  | string (text : String)
  | bool (value : Bool)
  | nil
deriving DecidableEq

/-- The operators in front of an operand. -/
inductive UnaryOp
  | minus
  | bang
deriving DecidableEq

/-- The operators between operands that are both evaluated. -/
inductive BinaryOp
  | plus | minus | star | slash | equalEqual | bangEqual | greater | greaterEqual | less | lessEqual
deriving DecidableEq

/-- The operators whose right operand is evaluated on demand. -/
inductive LogicalOp
  | and
  | or
deriving DecidableEq

/-- Expressions. Lines are those of the operator, or of the parenthesis that closes a call. -/
inductive Expr
  | literal (value : Literal)
  | unary (operator : UnaryOp) (operand : Expr) (line : Nat)
  | binary (left : Expr) (operator : BinaryOp) (right : Expr) (line : Nat)
  | logical (left : Expr) (operator : LogicalOp) (right : Expr)
  | group (inner : Expr)
  | var (id : Occurrence) (name : Ident)
  | assign (id : Occurrence) (name : Ident) (value : Expr)
  | call (callee : Expr) (arguments : List Expr) (line : Nat)
  | get (object : Expr) (name : Ident)
  | set (object : Expr) (name : Ident) (value : Expr)
  | selfRef (id : Occurrence) (line : Nat)

/-- A function or method over some type of statements. -/
structure RoutineOf (σ : Type) where
  name : Ident
  params : List Ident
  body : List σ

/-- The variable of a loop and its first value. -/
structure LoopVar where
  name : Ident
  value : Expr

/-- Statements. -/
inductive Stmt
  | expression (value : Expr)
  | print (value : Expr)
  | declare (name : Ident) (initializer : Option Expr)
  | block (body : List Stmt)
  | function (routine : RoutineOf Stmt)
  | branch (condition : Expr) (thenBody : List Stmt) (elseBody : Option (List Stmt))
  | loop (counter : Option LoopVar) (condition increment : Option Expr) (body : List Stmt)
  | exit (line : Nat) (value : Option Expr)
  | classDef (name : Ident) (methods : List (RoutineOf Stmt))

/-- A function or method: its name, its parameters, and the statements of its body. -/
abbrev Routine := RoutineOf Stmt

/-- The method that runs on every new instance of its class. -/
def initializerName : String := "init"

/-- Whether a method is the one that runs on every new instance. -/
def RoutineOf.isInitializer {σ : Type} (routine : RoutineOf σ) : Bool :=
  routine.name.name = initializerName

/-! ## Operator symbols -/

/-- How an operator in front of its operand is written. -/
def UnaryOp.symbol : UnaryOp → String
  | minus => "-"
  | bang => "!"

/-- How an operator between operands is written. -/
def BinaryOp.symbol : BinaryOp → String
  | plus => "+"
  | minus => "-"
  | star => "*"
  | slash => "/"
  | equalEqual => "=="
  | bangEqual => "!="
  | greater => ">"
  | greaterEqual => ">="
  | less => "<"
  | lessEqual => "<="

/-- How an operator with a right operand on demand is written. -/
def LogicalOp.symbol : LogicalOp → String
  | and => "and"
  | or => "or"

end Rill
