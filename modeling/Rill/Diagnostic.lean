/-!
# Diagnostics

What can be wrong with a program before it runs: text that is no token, tokens that are no program,
and names that are used against the rules of their scopes. Each diagnostic names a line and a cause;
`Diagnostic.message` is the only place that gives causes words.
-/

namespace Rill

/-- Why a piece of text is no token. -/
inductive LexicalFault
  | unexpected (c : Char)
  | unterminatedString
deriving DecidableEq

/-- The two ways of declaring a routine. -/
inductive RoutineKind
  | function
  | method
deriving DecidableEq

/-- What ends with its line. -/
inductive LineEnd
  | variableDeclaration
  | value
  | expression
  | returnValue
deriving DecidableEq

/-- What the grammar asks for at some place. -/
inductive Wanted
  | className
  | classBodyStart
  | methodStart
  | classBodyEnd
  | routineName (kind : RoutineKind)
  | parametersStart (kind : RoutineKind)
  | parameterName
  | parametersEnd
  | routineBodyStart (kind : RoutineKind)
  | variableName
  | loopVariableName
  | loopVariableEqual
  | loopVariableEnd
  | loopConditionEnd
  | loopBodyStart
  | ifBodyStart
  | elseBodyStart
  | blockEnd
  | lineEnd (what : LineEnd)
  | propertyName
  | argumentsEnd
  | groupEnd
  | expression
deriving DecidableEq

/-- What stands at a place where the grammar asks for something else. -/
inductive Found
  | token (lexeme : String)
  | lineEnd
  | inputEnd
deriving DecidableEq

/-- What there can be too much of in one pair of parentheses. -/
inductive Listed
  | parameters
  | arguments
deriving DecidableEq

/-- Why a sequence of tokens is no program. -/
inductive SyntaxFault
  | expected (wanted : Wanted) (found : Found)
  | tooMany (listed : Listed) (found : Found)
  | notAssignable
  | loopVariableNotAssigned
deriving DecidableEq

/-- Which rule of scopes is broken. -/
inductive ScopeFault
  | declaredTwice (name : String)
  | readInOwnInitializer (name : String)
  | returnOutsideFunction
  | valueFromInitializer
  | selfOutsideClass
deriving DecidableEq

/-- What is wrong at a line. -/
inductive Cause
  | lexical (fault : LexicalFault)
  | grammar (fault : SyntaxFault)
  | scope (fault : ScopeFault)
deriving DecidableEq

/-- A fault of a program that is found without running it. -/
structure Diagnostic where
  line : Nat
  cause : Cause
deriving DecidableEq

/-! ## Wording -/

/-- The words for a lexical fault. -/
def LexicalFault.message : LexicalFault → String
  | unexpected c => "Unexpected character: " ++ c.toString
  | unterminatedString => "Unterminated string."

/-- The word for a kind of routine. -/
def RoutineKind.word : RoutineKind → String
  | function => "function"
  | method => "method"

/-- The words for what ends with its line. -/
def LineEnd.words : LineEnd → String
  | variableDeclaration => "variable declaration"
  | value => "value"
  | expression => "expression"
  | returnValue => "return value"

/-- The words for what the grammar asks for. -/
def Wanted.words : Wanted → String
  | className => "class name"
  | classBodyStart => "'\x7b' before class body"
  | methodStart => "'fn' before method declaration"
  | classBodyEnd => "'\x7d' after class body"
  | routineName kind => kind.word ++ " name"
  | parametersStart kind => "'(' after " ++ kind.word ++ " name"
  | parameterName => "parameter name"
  | parametersEnd => "')' after parameters"
  | routineBodyStart kind => "'\x7b' before " ++ kind.word ++ " body"
  | variableName => "variable name"
  | loopVariableName => "loop variable name"
  | loopVariableEqual => "'=' after loop variable"
  | loopVariableEnd => "';' after loop initializer"
  | loopConditionEnd => "';' after loop condition"
  | loopBodyStart => "'\x7b' before loop body"
  | ifBodyStart => "'\x7b' after if condition"
  | elseBodyStart => "'\x7b' after 'else'"
  | blockEnd => "'\x7d' after block"
  | lineEnd what => "end of line after " ++ what.words
  | propertyName => "property name after '.'"
  | argumentsEnd => "')' after arguments"
  | groupEnd => "')' after expression"
  | expression => "expression"

/-- The words for the place of a fault. -/
def Found.words : Found → String
  | token lexeme => "(at '" ++ lexeme ++ "')"
  | lineEnd => "(at end of line)"
  | inputEnd => "(at end)"

/-- The word for what is listed in parentheses. -/
def Listed.word : Listed → String
  | parameters => "parameters"
  | arguments => "arguments"

/-- The words for a fault of grammar. -/
def SyntaxFault.message : SyntaxFault → String
  | expected wanted found => "Expected " ++ wanted.words ++ " " ++ found.words
  | tooMany listed found => "Can't have more than 255 " ++ listed.word ++ " " ++ found.words
  | notAssignable => "Invalid assignment target (at '=')"
  | loopVariableNotAssigned => "Expected assignment in loop initializer"

/-- The word that a broken rule of scopes is reported at. -/
def ScopeFault.place : ScopeFault → String
  | declaredTwice name => name
  | readInOwnInitializer name => name
  | returnOutsideFunction => "return"
  | valueFromInitializer => "return"
  | selfOutsideClass => "self"

/-- The words for a broken rule of scopes. -/
def ScopeFault.message : ScopeFault → String
  | declaredTwice _ => "Already a variable with this name in this scope."
  | readInOwnInitializer _ => "Can't read local variable in its own initializer."
  | returnOutsideFunction => "Can't return from top-level code."
  | valueFromInitializer => "Can't return a value from an initializer."
  | selfOutsideClass => "Can't use 'self' outside of a class."

/-- The words for a cause, with the place where it is not clear from the line. -/
def Cause.message : Cause → String
  | lexical fault => "Error: " ++ fault.message
  | grammar fault => "Error: " ++ fault.message
  | scope fault => "Error at '" ++ fault.place ++ "': " ++ fault.message

/-- The complete text of a diagnostic. -/
def Diagnostic.message (d : Diagnostic) : String :=
  "[line " ++ toString d.line ++ "] " ++ d.cause.message

end Rill
