import Rill.Syntax.Parser

/-!
# Reading expressions

The rules of the grammar from the loosest operator to the tightest: assignment, `or`, `and`,
equality, comparison, sums, products, operators in front, calls and properties. Operators between
operands group to the left, assignment to the right. Each rule is written over a reader of nested
expressions, and `expression` ties them together. A nested expression stands behind a token of
the outer one, so a bound above the number of tokens left is never met.
-/

namespace Rill.Parser

/-- Goes on with operators and right operands as long as there are any. -/
def growLeft (operator? : Parser (Option (Expr → Expr → Expr))) (operand : Parser Expr) :
    (bound : Nat) → Expr → Parser Expr
  | 0, left => return left
  | bound + 1, left => do
    match ← operator? with
    | none => return left
    | some combine =>
      let right ← operand
      growLeft operator? operand bound (combine left right)

/-- Operands with operators between them, grouped to the left. -/
def leftAssociative (bound : Nat) (operator? : Parser (Option (Expr → Expr → Expr)))
    (operand : Parser Expr) : Parser Expr := do
  growLeft operator? operand bound (← operand)

/-- Reads a given operator whose right operand is evaluated on demand. -/
def logicalOperator? (keyword : Keyword) (operator : LogicalOp) :
    Parser (Option (Expr → Expr → Expr)) := do
  if ← accept (.keyword keyword) then
    return some fun left right => .logical left operator right
  return none

/-- The operators of one strength, by the marks they are written as. -/
abbrev Level := List (Mark × BinaryOp)

/-- The levels of operators between operands that are both evaluated, from loosest to tightest. -/
def levels : List Level :=
  [[(.bangEqual, .bangEqual), (.equalEqual, .equalEqual)],
   [(.greater, .greater), (.greaterEqual, .greaterEqual), (.less, .less),
    (.lessEqual, .lessEqual)],
   [(.minus, .minus), (.plus, .plus)],
   [(.star, .star), (.slash, .slash)]]

/-- The operator of a level that a kind of token stands for. -/
def Level.operator? (level : Level) : Kind → Option BinaryOp
  | .mark mark => level.lookup mark
  | _ => none

/-- Reads an operator of a level. Its line becomes that of the expression. -/
def binaryOperator? (level : Level) : Parser (Option (Expr → Expr → Expr)) := do
  match ← peek? with
  | none => return none
  | some t =>
    match level.operator? t.kind with
    | none => return none
    | some operator =>
      skip
      return some fun left right => .binary left operator right t.line

/-- Reads an operand, or operands with operators of the given levels between them. -/
def binary (bound : Nat) (operand : Parser Expr) : List Level → Parser Expr
  | [] => operand
  | level :: tighter => leftAssociative bound (binaryOperator? level) (binary bound operand tighter)

/-- Reads an operator that stands in front of its operand. -/
def unaryOperator? : Parser (Option (UnaryOp × Nat)) := do
  match ← accept? (.mark .bang) with
  | some t => return some (.bang, t.line)
  | none =>
    match ← accept? (.mark .minus) with
    | some t => return some (.minus, t.line)
    | none => return none

/-- Reads an operand with any number of operators in front of it. -/
def unary (operand : Parser Expr) : (bound : Nat) → Parser Expr
  | 0 => operand
  | bound + 1 => do
    match ← unaryOperator? with
    | none => operand
    | some (operator, line) =>
      let inner ← unary operand bound
      return .unary operator inner line

/-- Reads the comma between two arguments, with line breaks on either side. -/
def argumentSeparator : Parser Bool := do
  skipNewlines
  if ← accept (.mark .comma) then
    skipNewlines
    return true
  return false

/-- Reads the arguments of a call behind its opening parenthesis, up to and with the closing one. -/
def finishCall (nested : Parser Expr) (callee : Expr) : Parser Expr := do
  skipNewlines
  let arguments ←
    if ← sees (.mark .rightParen) then pure []
    else separated .arguments nested argumentSeparator maximumListed
  let close ← expect (.mark .rightParen) .argumentsEnd
  return .call callee arguments close.line

/-- Goes on with calls and properties of an expression as long as there are any. -/
def suffixes (nested : Parser Expr) : (bound : Nat) → Expr → Parser Expr
  | 0, subject => return subject
  | bound + 1, subject => do
    if ← accept (.mark .leftParen) then
      suffixes nested bound (← finishCall nested subject)
    else if ← accept (.mark .dot) then
      let name ← identifier .propertyName
      suffixes nested bound (.get subject name)
    else return subject

/-- Reads a constant, a name, `self`, or an expression in parentheses. -/
def primary (nested : Parser Expr) : Parser Expr := do
  match ← peek? with
  | none => want .expression
  | some t =>
    match t.kind with
    | .keyword .falseWord => skip; return .literal (.bool false)
    | .keyword .trueWord => skip; return .literal (.bool true)
    | .keyword .nilWord => skip; return .literal .nil
    | .number value => skip; return .literal (.number value)
    | .string text => skip; return .literal (.string text)
    | .keyword .selfWord =>
      skip
      return .selfRef (← freshOccurrence) t.line
    | .identifier =>
      skip
      return .var (← freshOccurrence) ⟨t.lexeme, t.line⟩
    | .mark .leftParen =>
      skip
      skipNewlines
      let inner ← nested
      skipNewlines
      let _ ← expect (.mark .rightParen) .groupEnd
      return .group inner
    | _ => want .expression

/-- Reads a primary expression with its calls and properties. -/
def call (bound : Nat) (nested : Parser Expr) : Parser Expr := do
  suffixes nested bound (← primary nested)

/-- Reads an expression that is no assignment. -/
def logicalOr (bound : Nat) (nested : Parser Expr) : Parser Expr :=
  leftAssociative bound (logicalOperator? .orWord .or)
    (leftAssociative bound (logicalOperator? .andWord .and)
      (binary bound (unary (call bound nested) bound) levels))

/-- Makes an assignment, if its left side can be assigned to. A variable gets a new occurrence. -/
def assignTo (line : Nat) (value : Expr) : Expr → Parser Expr
  | .var _ name => return .assign (← freshOccurrence) name value
  | .get object name => return .set object name value
  | _ => refuse line .notAssignable

/-- Reads an assignment or an expression that is none. -/
def assignment (bound : Nat) (nested : Parser Expr) : Parser Expr := do
  let target ← logicalOr bound nested
  match ← accept? (.mark .equal) with
  | none => return target
  | some equal =>
    let value ← nested
    assignTo equal.line value target

/-- Reads an expression that nests no deeper than the bound. -/
def expression : (bound : Nat) → Parser Expr
  | 0 => want .expression
  | bound + 1 => assignment (bound + 1) (expression bound)

end Rill.Parser
