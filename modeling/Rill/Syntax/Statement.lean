import Rill.Syntax.Expression

/-!
# Reading statements

Each rule is written over a reader of expressions and a reader of the statements nested in it, and
`declaration` ties them together. A nested statement stands behind a token of the outer one, so a
bound above the number of tokens left is never met.
-/

namespace Rill.Parser

/-- Reads a block behind its opening brace, up to and with the closing one. -/
def block (bound : Nat) (nested : Parser Stmt) : Parser (List Stmt) := do
  let body ← bodyItems nested bound
  let _ ← expect (.mark .rightBrace) .blockEnd
  return body

/-- Reads parameters between parentheses. -/
def parameters : Parser (List Ident) := do
  let params ←
    if ← sees (.mark .rightParen) then pure []
    else separated .parameters (identifier .parameterName) (accept (.mark .comma)) maximumListed
  let _ ← expect (.mark .rightParen) .parametersEnd
  return params

/-- Reads a function or method from its name on. -/
def routine (kind : RoutineKind) (bound : Nat) (nested : Parser Stmt) : Parser Routine := do
  let name ← identifier (.routineName kind)
  let _ ← expect (.mark .leftParen) (.parametersStart kind)
  let params ← parameters
  let _ ← expect (.mark .leftBrace) (.routineBodyStart kind)
  let body ← block bound nested
  return ⟨name, params, body⟩

/-- Reads a method. -/
def method (bound : Nat) (nested : Parser Stmt) : Parser Routine := do
  let _ ← expect (.keyword .fnWord) .methodStart
  routine .method bound nested

/-- Reads a class from its name on. -/
def classDefinition (bound : Nat) (nested : Parser Stmt) : Parser Stmt := do
  let name ← identifier .className
  let _ ← expect (.mark .leftBrace) .classBodyStart
  let methods ← bodyItems (method bound nested) bound
  let _ ← expect (.mark .rightBrace) .classBodyEnd
  return .classDef name methods

/-- Reads the declaration of a variable from its name on. -/
def variableDeclaration (expr : Parser Expr) : Parser Stmt := do
  let name ← identifier .variableName
  let initializer ← if ← accept (.mark .equal) then some <$> expr else pure none
  endStatement .variableDeclaration
  return .declare name initializer

/-- Takes a loop variable out of an assignment. -/
def loopVarOf (line : Nat) : Expr → Parser LoopVar
  | .assign _ name value => return ⟨name, value⟩
  | _ => refuse line .loopVariableNotAssigned

/--
Reads the variable of a loop, with or without `let` in front; it belongs to the loop either way.
-/
def loopVar (expr : Parser Expr) : Parser LoopVar := do
  if ← accept (.keyword .letWord) then
    let name ← identifier .loopVariableName
    let _ ← expect (.mark .equal) .loopVariableEqual
    return ⟨name, ← expr⟩
  else
    let line := (← get).line
    loopVarOf line (← expr)

/-- Reads something unless a mark stands in its place. -/
def optionalBefore {α : Type} (mark : Mark) (item : Parser α) : Parser (Option α) := do
  if ← sees (.mark mark) then return none
  some <$> item

/-- Reads a loop from its variable on. -/
def loop (bound : Nat) (expr : Parser Expr) (nested : Parser Stmt) : Parser Stmt := do
  let counter ← optionalBefore .semicolon (loopVar expr)
  let _ ← expect (.mark .semicolon) .loopVariableEnd
  let condition ← optionalBefore .semicolon expr
  let _ ← expect (.mark .semicolon) .loopConditionEnd
  let increment ← optionalBefore .leftBrace expr
  let _ ← expect (.mark .leftBrace) .loopBodyStart
  let body ← block bound nested
  return .loop counter condition increment body

/-- Reads `else`, also behind line breaks. These are read only if `else` follows them. -/
def acceptElse : Parser Bool := do
  let c ← get
  match c.skipNewlines.upcoming with
  | t :: rest =>
    if t.kind = .keyword .elseWord then do
      set { c with upcoming := rest }
      return true
    else return false
  | [] => return false

/-- Reads what follows `else`: another condition, or a block. -/
def elseBody (bound : Nat) (nested : Parser Stmt) : Parser (List Stmt) := do
  if ← sees (.keyword .ifWord) then
    return [← nested]
  else
    let _ ← expect (.mark .leftBrace) .elseBodyStart
    block bound nested

/-- Reads a conditional from its condition on. -/
def branch (bound : Nat) (expr : Parser Expr) (nested : Parser Stmt) : Parser Stmt := do
  let condition ← expr
  let _ ← expect (.mark .leftBrace) .ifBodyStart
  let thenBody ← block bound nested
  let elseBody ← if ← acceptElse then some <$> elseBody bound nested else pure none
  return .branch condition thenBody elseBody

/-- Reads a return behind its keyword, which stands on the given line. -/
def exit (line : Nat) (expr : Parser Expr) : Parser Stmt := do
  let value ← if ← atStatementEnd then pure none else some <$> expr
  endStatement .returnValue
  return .exit line value

/-- Reads what is printed. -/
def print (expr : Parser Expr) : Parser Stmt := do
  let value ← expr
  endStatement .value
  return .print value

/-- Reads an expression that stands as a statement. -/
def expressionStatement (expr : Parser Expr) : Parser Stmt := do
  let value ← expr
  endStatement .expression
  return .expression value

/-- Reads any statement; its first token decides which it is. -/
def statement (bound : Nat) (expr : Parser Expr) (nested : Parser Stmt) : Parser Stmt := do
  match ← peek? with
  | none => expressionStatement expr
  | some t =>
    match t.kind with
    | .keyword .classWord => skip; classDefinition bound nested
    | .keyword .fnWord => skip; .function <$> routine .function bound nested
    | .keyword .letWord => skip; variableDeclaration expr
    | .keyword .forWord => skip; loop bound expr nested
    | .keyword .ifWord => skip; branch bound expr nested
    | .keyword .returnWord => skip; exit t.line expr
    | .mark .leftBrace => skip; .block <$> block bound nested
    | .keyword .printWord => skip; print expr
    | _ => expressionStatement expr

/-- Reads a statement that nests no deeper than the bound. -/
def declaration : (bound : Nat) → Parser Stmt
  | 0 => want .expression
  | bound + 1 => statement (bound + 1) (expression (bound + 1)) (declaration bound)

end Rill.Parser
