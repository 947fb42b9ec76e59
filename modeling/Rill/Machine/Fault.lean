/-!
# Faults of a running program

A run can halt because the program is at fault, because its output cannot be written, because the
machine finds its own bookkeeping broken, or because it has spent the effort it was given. Each is
told apart, and given words in one place.
-/

namespace Rill

/-- What an operator asks of its operands. -/
inductive OperandRule
  | number
  | numbers
  | numbersOrStrings
deriving DecidableEq

/-- What a program does wrong. -/
inductive RuntimeCause
  | undefinedVariable (name : String)
  | operands (rule : OperandRule)
  | notCallable
  | wrongArity (expected got : Nat)
  | undefinedProperty (name : String)
  | notAnInstance
  | native (name message : String)
deriving DecidableEq

/-- A fault of a program while it runs. -/
structure RuntimeFault where
  line : Nat
  cause : RuntimeCause
deriving DecidableEq

/-- Why output cannot be written. -/
inductive OutputFault
  | full
  | flush
deriving DecidableEq

/-- How the bookkeeping of a machine can be broken. No program that is resolved gets there. -/
inductive Breach
  | unboundSlot (name : String)
  | shortChain
  | strayReturn (text : String)
deriving DecidableEq

/-- Why a run halts before its end. -/
inductive Halt
  | fault (fault : RuntimeFault)
  | output (fault : OutputFault)
  | breach (breach : Breach)
  /-- The run has spent the effort it was given. -/
  | spent
deriving DecidableEq

/-! ## Wording -/

/-- The words for the rule that operands break. -/
def OperandRule.message : OperandRule → String
  | number => "Operand must be a number."
  | numbers => "Operands must be numbers."
  | numbersOrStrings => "Operands must be two numbers or two strings."

/-- The words for what a program does wrong. -/
def RuntimeCause.message : RuntimeCause → String
  | undefinedVariable name => "Undefined variable '" ++ name ++ "'."
  | operands rule => rule.message
  | notCallable => "Can only call functions and classes."
  | wrongArity expected got =>
    "Expected " ++ toString expected ++ " arguments but got " ++ toString got ++ "."
  | undefinedProperty name => "Undefined property '" ++ name ++ "'."
  | notAnInstance => "Only instances have properties."
  | native name message => name ++ ": " ++ message

/-- The text of a fault with its line. -/
def RuntimeFault.message (f : RuntimeFault) : String :=
  "[line " ++ toString f.line ++ "] " ++ f.cause.message

/-- The words for output that cannot be written. -/
def OutputFault.message : OutputFault → String
  | full => "sink full"
  | flush => "flush failed"

/-- The words for broken bookkeeping. -/
def Breach.message : Breach → String
  | unboundSlot name => "resolved variable '" ++ name ++ "' missing from its frame"
  | shortChain => "resolution depth exceeds environment chain"
  | strayReturn text =>
    "internal error: entered unreachable code: return of " ++ text ++ " escaped the top level"

/-- The complete text for a run that halted. -/
def Halt.message : Halt → String
  | fault f => "Runtime error: " ++ f.message
  | output f => f.message
  | breach b => b.message
  | spent => "the run takes too long"

end Rill
