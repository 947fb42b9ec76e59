import Rill.Syntax.Program

/-!
# Reading a slice of tokens by index

Programs can be read without cutting tokens off: the tokens stay in one slice, which the end of the
input closes, and an index tells how far they have been read. Nothing keeps an index within the
slice by itself. Where a token outside of it is looked at, or an index outside of it is moved to,
the reading stops for that reason; where a loop or the nesting of a rule comes to its bound, it
stops for that one; and a refusal tells the index of the token it is about. `Slice.readTurns` reads
whole programs this way, one declaration in each turn.
-/

namespace Rill.Slice

/-- How far a slice has been read. -/
structure Spot where
  /-- The index of the next token. -/
  current : Nat
  /-- The least occurrence that has not been given out. -/
  fresh : Occurrence

/-- Why the reading of a slice stops. -/
inductive Stop
  /-- The grammar is broken, which is reported at the token with an index. -/
  | refused (index : Nat) (fault : Diagnostic)
  /-- An index outside of the slice was looked at or moved to. -/
  | outside
  /-- A loop or the nesting of a rule came to its bound. -/
  | exhausted

/-- A reader of a slice. -/
abbrev Reader := EStateM Stop Spot

/-- Stops where a bound is met. -/
def exhaust {α : Type} : Reader α := throw .exhausted

/-- Reports a fault of grammar at the token with an index, which stands on a line. -/
def refuse {α : Type} (index line : Nat) (fault : SyntaxFault) : Reader α :=
  throw (.refused index ⟨line, .grammar fault⟩)

/-- The index of the next token. -/
def current : Reader Nat := return (← get).current

/-- Gives out an occurrence that has not been given out before. -/
def freshOccurrence : Reader Occurrence :=
  modifyGet fun s => (s.fresh, { s with fresh := s.fresh + 1 })

/-- What a token is called where something else is wanted. -/
def found (t : Token) : Found :=
  match t.kind with
  | .endOfInput => .inputEnd
  | .newline => .lineEnd
  | _ => .token t.lexeme

variable (ts : List Token)

/-! ## Tokens -/

/-- The token with an index. -/
def tokenAt (index : Nat) : Reader Token :=
  match ts[index]? with
  | some t => return t
  | none => throw .outside

/-- Goes on with the token that has an index. -/
def moveTo (index : Nat) : Reader Unit :=
  if index < ts.length then modify fun s => { s with current := index } else throw .outside

/-- The next token. -/
def peek : Reader Token := do
  tokenAt ts (← current)

/-- The token in front of the next one. -/
def previous : Reader Token := do
  match ← current with
  | 0 => throw .outside
  | index + 1 => tokenAt ts index

/-- Whether the input ends here. -/
def isAtEnd : Reader Bool := do
  return decide ((← peek ts).kind = .endOfInput)

/-- Moves past the next token, but not past the end of the input. -/
def advance : Reader Token := do
  if ← isAtEnd ts then previous ts
  else
    moveTo ts ((← current) + 1)
    previous ts

/-- Whether the next token is of a kind. The end of the input is of none. -/
def sees (kind : Kind) : Reader Bool := do
  if ← isAtEnd ts then return false
  return decide ((← peek ts).kind = kind)

/-- Reads the next token if it is of a kind, and tells whether it was. -/
def accept (kind : Kind) : Reader Bool := do
  if ← sees ts kind then
    let _ ← advance ts
    return true
  return false

/-- Reads the next token if it is of a kind, and answers with its index and itself. -/
def accept? (kind : Kind) : Reader (Option (Nat × Token)) := do
  let index ← current
  if ← accept ts kind then return some (index, ← previous ts)
  return none

/-- Reports a fault at the next token. -/
def refuseHere {α : Type} (fault : Found → SyntaxFault) : Reader α := do
  let t ← peek ts
  refuse (← current) t.line (fault (found t))

/-- Reports that something else is wanted than the next token. -/
def want {α : Type} (wanted : Wanted) : Reader α := refuseHere ts (.expected wanted)

/-- Reads a token of a kind. -/
def expect (kind : Kind) (wanted : Wanted) : Reader Token := do
  if ← sees ts kind then advance ts
  else want ts wanted

/-- Reads a name. -/
def identifier (wanted : Wanted) : Reader Ident := do
  let t ← expect ts .identifier wanted
  return ⟨t.lexeme, t.line⟩

/-- Moves past line breaks. -/
def skipNewlines : (bound : Nat) → Reader Unit
  | 0 => exhaust
  | bound + 1 => do
    if ← accept ts .newline then skipNewlines bound

/-- The index of the first token from an index on that is no line break. -/
def behindNewlines : (bound index : Nat) → Reader Nat
  | 0, _ => exhaust
  | bound + 1, index => do
    if (← tokenAt ts index).kind = .newline then behindNewlines bound (index + 1)
    else return index

/-- Reads a token of a kind, also behind line breaks. These are read only if it follows them. -/
def acceptBehindNewlines (bound : Nat) (kind : Kind) : Reader Bool := do
  let index ← behindNewlines ts bound (← current)
  if (← tokenAt ts index).kind = kind then
    moveTo ts (index + 1)
    return true
  return false

/-- Whether a body ends here: at its closing brace or at the end of the input. -/
def atBodyEnd : Reader Bool := do
  if ← sees ts (.mark .rightBrace) then return true
  isAtEnd ts

/-- Whether a statement may end here. -/
def atStatementEnd : Reader Bool := do
  if ← isAtEnd ts then return true
  if ← sees ts .newline then return true
  if ← sees ts (.mark .semicolon) then return true
  sees ts (.mark .rightBrace)

/-- Ends a statement. -/
def endStatement (what : LineEnd) : Reader Unit := do
  if ← accept ts .newline then return
  if ← accept ts (.mark .semicolon) then return
  if ← atBodyEnd ts then return
  want ts (.lineEnd what)

/-- Reads the items of a body up to where it ends, with line breaks around them. -/
def bodyItems {α : Type} (limit : Nat) (item : Reader α) : (bound : Nat) → Reader (List α)
  | 0 => exhaust
  | bound + 1 => do
    skipNewlines ts limit
    if ← atBodyEnd ts then return []
    let first ← item
    let rest ← bodyItems limit item bound
    return first :: rest

/-- Reads one or more items with a separator between them, and refuses one without room for it. -/
def separated {α : Type} (listed : Listed) (item : Reader α) (separator : Reader Bool) :
    (room : Nat) → Reader (List α)
  | 0 => refuseHere ts (.tooMany listed)
  | room + 1 => do
    let first ← item
    if ← separator then
      let rest ← separated listed item separator room
      return first :: rest
    return [first]

/-! ## Expressions -/

/-- Goes on with operators and right operands as long as there are any. -/
def growLeft (operator? : Reader (Option (Expr → Expr → Expr))) (operand : Reader Expr) :
    (bound : Nat) → Expr → Reader Expr
  | 0, _ => exhaust
  | bound + 1, left => do
    match ← operator? with
    | none => return left
    | some combine =>
      let right ← operand
      growLeft operator? operand bound (combine left right)

/-- Operands with operators between them, grouped to the left. -/
def leftAssociative (limit : Nat) (operator? : Reader (Option (Expr → Expr → Expr)))
    (operand : Reader Expr) : Reader Expr := do
  growLeft operator? operand limit (← operand)

/-- Reads a given operator whose right operand is evaluated on demand. -/
def logicalOperator? (keyword : Keyword) (operator : LogicalOp) :
    Reader (Option (Expr → Expr → Expr)) := do
  if ← accept ts (.keyword keyword) then
    return some fun left right => .logical left operator right
  return none

/-- Reads the first mark of a level that stands here, and tells its operator. -/
def levelOperator? : Parser.Level → Reader (Option BinaryOp)
  | [] => return none
  | (mark, operator) :: others => do
    if ← accept ts (.mark mark) then return some operator
    levelOperator? others

/-- Reads an operator of a level. Its line becomes that of the expression. -/
def binaryOperator? (level : Parser.Level) : Reader (Option (Expr → Expr → Expr)) := do
  match ← levelOperator? ts level with
  | none => return none
  | some operator =>
    let t ← previous ts
    return some fun left right => .binary left operator right t.line

/-- Reads an operand, or operands with operators of the given levels between them. -/
def binary (limit : Nat) (operand : Reader Expr) : List Parser.Level → Reader Expr
  | [] => operand
  | level :: tighter =>
    leftAssociative limit (binaryOperator? ts level) (binary limit operand tighter)

/-- Reads an operator that stands in front of its operand. -/
def unaryOperator? : Reader (Option (UnaryOp × Nat)) := do
  if ← accept ts (.mark .bang) then return some (.bang, (← previous ts).line)
  if ← accept ts (.mark .minus) then return some (.minus, (← previous ts).line)
  return none

/-- Reads an operand with any number of operators in front of it. -/
def unary (operand : Reader Expr) : (bound : Nat) → Reader Expr
  | 0 => exhaust
  | bound + 1 => do
    match ← unaryOperator? ts with
    | none => operand
    | some (operator, line) =>
      let inner ← unary operand bound
      return .unary operator inner line

/-- Reads the comma between two arguments, with line breaks on either side. -/
def argumentSeparator (limit : Nat) : Reader Bool := do
  skipNewlines ts limit
  if ← accept ts (.mark .comma) then
    skipNewlines ts limit
    return true
  return false

/-- Reads the arguments of a call behind its opening parenthesis, up to and with the closing one. -/
def finishCall (limit : Nat) (nested : Reader Expr) (callee : Expr) : Reader Expr := do
  skipNewlines ts limit
  let arguments ←
    if ← sees ts (.mark .rightParen) then pure []
    else separated ts .arguments nested (argumentSeparator ts limit) Parser.maximumListed
  let close ← expect ts (.mark .rightParen) .argumentsEnd
  return .call callee arguments close.line

/-- Goes on with calls and properties of an expression as long as there are any. -/
def suffixes (limit : Nat) (nested : Reader Expr) : (bound : Nat) → Expr → Reader Expr
  | 0, _ => exhaust
  | bound + 1, subject => do
    if ← accept ts (.mark .leftParen) then
      suffixes limit nested bound (← finishCall ts limit nested subject)
    else if ← accept ts (.mark .dot) then
      let name ← identifier ts .propertyName
      suffixes limit nested bound (.get subject name)
    else return subject

/-- Reads `self`, a name, or an expression in parentheses. -/
def reference (limit : Nat) (nested : Reader Expr) : Reader Expr := do
  if ← accept ts (.keyword .selfWord) then
    let t ← previous ts
    return .selfRef (← freshOccurrence) t.line
  if ← accept ts .identifier then
    let t ← previous ts
    return .var (← freshOccurrence) ⟨t.lexeme, t.line⟩
  if ← accept ts (.mark .leftParen) then
    skipNewlines ts limit
    let inner ← nested
    skipNewlines ts limit
    let _ ← expect ts (.mark .rightParen) .groupEnd
    return .group inner
  want ts .expression

/-- Reads a constant, a name, `self`, or an expression in parentheses. -/
def primary (limit : Nat) (nested : Reader Expr) : Reader Expr := do
  if ← accept ts (.keyword .falseWord) then return .literal (.bool false)
  if ← accept ts (.keyword .trueWord) then return .literal (.bool true)
  if ← accept ts (.keyword .nilWord) then return .literal .nil
  match (← peek ts).kind with
  | .number value =>
    let _ ← advance ts
    return .literal (.number value)
  | .string text =>
    let _ ← advance ts
    return .literal (.string text)
  | _ => reference ts limit nested

/-- Reads a primary expression with its calls and properties. -/
def call (limit : Nat) (nested : Reader Expr) : Reader Expr := do
  suffixes ts limit nested limit (← primary ts limit nested)

/-- Reads an expression that is no assignment. -/
def logicalOr (limit : Nat) (nested : Reader Expr) : Reader Expr :=
  leftAssociative limit (logicalOperator? ts .orWord .or)
    (leftAssociative limit (logicalOperator? ts .andWord .and)
      (binary ts limit (unary ts (call ts limit nested) limit) Parser.levels))

/-- Makes an assignment, or refuses its left side at the equals sign. -/
def assignTo (index line : Nat) (value : Expr) : Expr → Reader Expr
  | .var _ name => return .assign (← freshOccurrence) name value
  | .get object name => return .set object name value
  | _ => refuse index line .notAssignable

/-- Reads an assignment or an expression that is none. -/
def assignment (limit : Nat) (nested : Reader Expr) : Reader Expr := do
  let target ← logicalOr ts limit nested
  match ← accept? ts (.mark .equal) with
  | none => return target
  | some (index, equal) =>
    let value ← nested
    assignTo index equal.line value target

/-- Reads an expression that nests no deeper than the bound. -/
def expression : (bound : Nat) → Reader Expr
  | 0 => exhaust
  | bound + 1 => assignment ts (bound + 1) (expression bound)

/-! ## Statements -/

section Statements

variable (limit : Nat) (expr : Reader Expr) (nested : Reader Stmt)

/-- Reads a block behind its opening brace, up to and with the closing one. -/
def block : Reader (List Stmt) := do
  let body ← bodyItems ts limit nested limit
  let _ ← expect ts (.mark .rightBrace) .blockEnd
  return body

/-- Reads parameters between parentheses. -/
def parameters : Reader (List Ident) := do
  let params ←
    if ← sees ts (.mark .rightParen) then pure []
    else
      separated ts .parameters (identifier ts .parameterName) (accept ts (.mark .comma))
        Parser.maximumListed
  let _ ← expect ts (.mark .rightParen) .parametersEnd
  return params

/-- Reads a function or method from its name on. -/
def routine (kind : RoutineKind) : Reader Routine := do
  let name ← identifier ts (.routineName kind)
  let _ ← expect ts (.mark .leftParen) (.parametersStart kind)
  let params ← parameters ts
  let _ ← expect ts (.mark .leftBrace) (.routineBodyStart kind)
  let body ← block ts limit nested
  return ⟨name, params, body⟩

/-- Reads a method. -/
def method : Reader Routine := do
  let _ ← expect ts (.keyword .fnWord) .methodStart
  routine ts limit nested .method

/-- Reads a class from its name on. -/
def classDefinition : Reader Stmt := do
  let name ← identifier ts .className
  let _ ← expect ts (.mark .leftBrace) .classBodyStart
  let methods ← bodyItems ts limit (method ts limit nested) limit
  let _ ← expect ts (.mark .rightBrace) .classBodyEnd
  return .classDef name methods

/-- Reads the declaration of a variable from its name on. -/
def variableDeclaration : Reader Stmt := do
  let name ← identifier ts .variableName
  let initializer ← if ← accept ts (.mark .equal) then some <$> expr else pure none
  endStatement ts .variableDeclaration
  return .declare name initializer

/-- Takes a loop variable out of an assignment, or refuses it at its first token. -/
def loopVarOf (index line : Nat) : Expr → Reader LoopVar
  | .assign _ name value => return ⟨name, value⟩
  | _ => refuse index line .loopVariableNotAssigned

/-- Reads the variable of a loop, with or without `let` in front. -/
def loopVar : Reader LoopVar := do
  if ← accept ts (.keyword .letWord) then
    let name ← identifier ts .loopVariableName
    let _ ← expect ts (.mark .equal) .loopVariableEqual
    return ⟨name, ← expr⟩
  else
    let index ← current
    let t ← peek ts
    loopVarOf index t.line (← expr)

/-- Reads something unless a mark stands in its place. -/
def optionalBefore {α : Type} (mark : Mark) (item : Reader α) : Reader (Option α) := do
  if ← sees ts (.mark mark) then return none
  some <$> item

/-- Reads a loop from its variable on. -/
def loop : Reader Stmt := do
  let counter ← optionalBefore ts .semicolon (loopVar ts expr)
  let _ ← expect ts (.mark .semicolon) .loopVariableEnd
  let condition ← optionalBefore ts .semicolon expr
  let _ ← expect ts (.mark .semicolon) .loopConditionEnd
  let increment ← optionalBefore ts .leftBrace expr
  let _ ← expect ts (.mark .leftBrace) .loopBodyStart
  let body ← block ts limit nested
  return .loop counter condition increment body

/-- Reads what follows `else`: another conditional, or a block. -/
def elseBody (conditional : Reader Stmt) : Reader (List Stmt) := do
  if ← accept ts (.keyword .ifWord) then
    return [← conditional]
  else
    let _ ← expect ts (.mark .leftBrace) .elseBodyStart
    block ts limit nested

/-- Reads a conditional from its condition on. -/
def branch : (bound : Nat) → Reader Stmt
  | 0 => exhaust
  | bound + 1 => do
    let condition ← expr
    let _ ← expect ts (.mark .leftBrace) .ifBodyStart
    let thenBody ← block ts limit nested
    let otherwise ←
      if ← acceptBehindNewlines ts limit (.keyword .elseWord) then
        some <$> elseBody ts limit nested (branch bound)
      else pure none
    return .branch condition thenBody otherwise

/-- Reads a return behind its keyword. -/
def exit : Reader Stmt := do
  let t ← previous ts
  let value ← if ← atStatementEnd ts then pure none else some <$> expr
  endStatement ts .returnValue
  return .exit t.line value

/-- Reads what is printed. -/
def print : Reader Stmt := do
  let value ← expr
  endStatement ts .value
  return .print value

/-- Reads an expression that stands as a statement. -/
def expressionStatement : Reader Stmt := do
  let value ← expr
  endStatement ts .expression
  return .expression value

/-- Reads any statement; its first token decides which it is. -/
def statement : Reader Stmt := do
  if ← accept ts (.keyword .classWord) then classDefinition ts limit nested
  else if ← accept ts (.keyword .fnWord) then .function <$> routine ts limit nested .function
  else if ← accept ts (.keyword .letWord) then variableDeclaration ts expr
  else if ← accept ts (.keyword .forWord) then loop ts limit expr nested
  else if ← accept ts (.keyword .ifWord) then branch ts limit expr nested limit
  else if ← accept ts (.keyword .returnWord) then exit ts expr
  else if ← accept ts (.mark .leftBrace) then .block <$> block ts limit nested
  else if ← accept ts (.keyword .printWord) then print ts expr
  else expressionStatement ts expr

end Statements

/-- Reads a statement that nests no deeper than the bound. -/
def declaration : (bound : Nat) → Reader Stmt
  | 0 => exhaust
  | bound + 1 => statement ts (bound + 1) (expression ts (bound + 1)) (declaration bound)

/-! ## Programs -/

/-- Gives up tokens up to where a statement may start. -/
def resume : (bound : Nat) → Reader Unit
  | 0 => exhaust
  | bound + 1 => do
    if ← isAtEnd ts then return
    if (← previous ts).endsStatement then return
    if (← peek ts).startsStatement then return
    let _ ← advance ts
    resume bound

/-- Gives up the token at fault and what follows it, up to where a statement may start. -/
def recover (limit : Nat) : Reader Unit := do
  let _ ← advance ts
  resume ts limit

/-- A fault at the token with an index. -/
structure Report where
  index : Nat
  fault : Diagnostic

/-- Goes on behind a reader that refuses its tokens, with what it refuses. -/
def attempt {α : Type} (reader : Reader α) : Reader (Except Report α) := fun s =>
  match reader s with
  | .ok a s' => .ok (.ok a) s'
  | .error (.refused index fault) s' => .ok (.error ⟨index, fault⟩) s'
  | .error stop s' => .error stop s'

/-- One turn of the reading of a program: a declaration that was read, or that failed. -/
structure Turn where
  /-- The index of the first token of the turn. -/
  start : Nat
  /-- The index of the first token behind it. -/
  finish : Nat
  outcome : Except Report Stmt

/-- Reads a declaration, and recovers if it fails. -/
def readTurn (limit : Nat) : Reader Turn := do
  let start ← current
  match ← attempt (declaration ts limit) with
  | .ok s => return ⟨start, ← current, .ok s⟩
  | .error report =>
    recover ts limit
    return ⟨start, ← current, .error report⟩

/-- Reads declarations up to the end of the input, in no more turns than the bound. -/
def readTurns (limit : Nat) : (bound : Nat) → Reader (List Turn)
  | 0 => exhaust
  | bound + 1 => do
    skipNewlines ts limit
    if ← isAtEnd ts then return []
    let turn ← readTurn ts limit
    let rest ← readTurns limit bound
    return turn :: rest

/-- The statements of the turns that were read. -/
def statementsOf (turns : List Turn) : List Stmt :=
  turns.filterMap fun turn => turn.outcome.toOption

/-- What is reported of the turns that failed. -/
def reportsOf (turns : List Turn) : List Report :=
  turns.filterMap fun turn =>
    match turn.outcome with
    | .ok _ => none
    | .error report => some report

end Rill.Slice
